/-
# The limited stock of a vendor

`Creature::GetVendorItemCurrentCount` and `UpdateVendorItemCurrentCount` of
`src/server/game/Entities/Creature/Creature.cpp`, for an item with a `maxcount` and an `incrtime`,
and the stock test of `Player::BuyItemFromVendorSlot`.

A look-up that restocks the item begins a new period, so that what had passed of the old one is
lost.  The stock depends on the sales alone as long as such a look-up comes at the end of a period
or a sale follows at the same time, as in a purchase (`stock_right`).
-/

import ZerosCore.Lib.Run
import Mathlib.Algebra.Ring.Nat
import Mathlib.Order.Lattice

namespace ZerosCore.VendorStock

open Lib

/-- An entry of a vendor's list, with the `BuyCount` of its item. -/
structure VendorItem where
  maxcount : ℕ
  incrtime : ℕ
  buyCount : ℕ
  limited : 0 < maxcount
  restocks : 0 < incrtime

structure VendorItemCount where
  count : ℕ
  lastIncrementTime : ℕ

def uint32 (n : ℕ) : ℕ := n % 2 ^ 32

/-- What there is of an item, if less than the `maxcount`. -/
abbrev Stock := Option VendorItemCount

variable (v : VendorItem) (ptime : ℕ)

/-- The count with what has come since the last increment. -/
def VendorItemCount.restocked (c : VendorItemCount) : ℕ :=
  let diff := uint32 ((ptime - c.lastIncrementTime) / v.incrtime)
  uint32 (c.count + diff * v.buyCount)

def getVendorItemCurrentCount : Stock → ℕ × Stock
  | none => (v.maxcount, none)
  | some c =>
    if c.lastIncrementTime + v.incrtime ≤ ptime then
      if v.maxcount ≤ c.restocked v ptime then (v.maxcount, none)
      else (c.restocked v ptime, some ⟨c.restocked v ptime, ptime⟩)
    else (c.count, some c)

def updateVendorItemCurrentCount (usedCount : ℕ) : Stock → VendorItemCount
  | none => ⟨if usedCount < v.maxcount then v.maxcount - usedCount else 0, ptime⟩
  | some c =>
    let count :=
      if c.lastIncrementTime + v.incrtime ≤ ptime then
        if c.restocked v ptime < v.maxcount then c.restocked v ptime else v.maxcount
      else c.count
    ⟨if usedCount < count then count - usedCount else 0, ptime⟩

def seen (s : Stock) : ℕ := (getVendorItemCurrentCount v ptime s).1

/-- The test of `BuyItemFromVendorSlot`. -/
def Admitted (count : ℕ) (s : Stock) : Prop := uint32 (v.buyCount * count) ≤ seen v ptime s

inductive Call where
  | get
  | update (usedCount : ℕ)

/-- The count with the increments of all whole periods, if it had no limit. -/
def VendorItemCount.at (c : VendorItemCount) : ℕ :=
  c.count + (ptime - c.lastIncrementTime) / v.incrtime * v.buyCount

/-- A look-up loses a part of a period: it restocks before the end of one, and the stock is not
full then. -/
def cuts : Stock → Bool
  | none => false
  | some c => c.lastIncrementTime + v.incrtime ≤ ptime && c.at v ptime < v.maxcount &&
      v.buyCount ≠ 0 && !(v.incrtime ∣ ptime - c.lastIncrementTime)

/-- The stock after all calls and after those that sell, the time of the last call, and whether a
look-up since the last sale has lost a part of a period. -/
structure State where
  stock : Stock := none
  sold : Stock := none
  now : ℕ := 0
  cut : Bool := false

def step (s : State) : ℕ × Call → State
  | (ptime, .get) => ⟨(getVendorItemCurrentCount v ptime s.stock).2, s.sold, ptime,
      s.cut || cuts v ptime s.stock⟩
  | (ptime, .update n) => ⟨some (updateVendorItemCurrentCount v ptime n s.stock),
      some (updateVendorItemCurrentCount v ptime n s.sold), ptime, false⟩

/-- **The stock is within its limit and the one after the sales alone**, and an admitted sale
lowers it by what is sold. -/
def Right (s : State) : ℕ × Call → Prop
  | (ptime, call) => seen v ptime s.stock ≤ v.maxcount ∧
      seen v ptime s.stock = seen v ptime s.sold ∧
      match call with
      | .get => True
      | .update n => Admitted v ptime n s.stock →
          (updateVendorItemCurrentCount v ptime n s.stock).count + n = seen v ptime s.stock

/-- What there is of the item. -/
def left : Stock → ℕ
  | none => v.maxcount
  | some c => min v.maxcount (c.at v ptime)

/-- Nothing is over 32 bits. -/
def Fits (s : Stock) : Prop :=
  ∀ c ∈ s, (ptime - c.lastIncrementTime) / v.incrtime < 2 ^ 32 ∧ c.at v ptime < 2 ^ 32

/-- Time goes on, but not between a look-up that has lost a part of a period and the next sale.
A sale is of what there is if `BuyCount` of it are. -/
def Regular (s : State) : ℕ × Call → Prop
  | (ptime, call) => s.now ≤ ptime ∧ (s.cut → ptime = s.now) ∧ Fits v ptime s.sold ∧
      match call with
      | .get => True
      | .update n => uint32 (v.buyCount * n) ≤ left v ptime s.stock → n ≤ left v ptime s.stock

variable {v ptime} {s : Stock} {c : VendorItemCount} {t : ℕ}

/-- What there is of an item was noted in the past, and is no more than the `maxcount`. -/
def Within (v : VendorItem) (now : ℕ) (s : Stock) : Prop :=
  ∀ c ∈ s, c.count ≤ v.maxcount ∧ c.lastIncrementTime ≤ now

theorem restocked_eq (hfits : Fits v t (some c)) : c.restocked v t = c.at v t := by
  obtain ⟨hdiff, hsum⟩ := hfits c rfl
  unfold VendorItemCount.restocked uint32
  rw [Nat.mod_eq_of_lt hdiff]
  exact Nat.mod_eq_of_lt hsum

/-- **What is seen is what there is**, if it fits. -/
theorem seen_eq (hwithin : Within v ptime s) (hfits : Fits v t s) : seen v t s = left v t s := by
  cases s with
  | none => rfl
  | some c =>
    unfold seen getVendorItemCurrentCount left
    dsimp only
    rw [restocked_eq hfits]
    split_ifs with htime hfull
    · exact (Nat.min_eq_left hfull).symm
    · exact (Nat.min_eq_right (Nat.le_of_not_le hfull)).symm
    · have hpos := v.restocks
      unfold VendorItemCount.at
      rw [Nat.div_eq_of_lt (by omega), Nat.zero_mul, Nat.add_zero,
        Nat.min_eq_right (hwithin c rfl).1]

/-- The count does not fall, and what fits later fits now. -/
theorem at_mono (hle : ptime ≤ t) (c : VendorItemCount) : c.at v ptime ≤ c.at v t :=
  Nat.add_le_add_left (Nat.mul_le_mul_right _
    (Nat.div_le_div_right (Nat.sub_le_sub_right hle _))) _

theorem Fits.mono (hle : ptime ≤ t) (hfits : Fits v t s) : Fits v ptime s := fun c hc =>
  ⟨(Nat.div_le_div_right (Nat.sub_le_sub_right hle _)).trans_lt (hfits c hc).1,
    (at_mono hle c).trans_lt (hfits c hc).2⟩

theorem seen_le (h : Within v ptime s) : seen v t s ≤ v.maxcount := by
  cases s with
  | none => exact Nat.le_refl _
  | some c =>
    have hcount := (h c rfl).1
    unfold seen getVendorItemCurrentCount
    dsimp only
    split_ifs <;> dsimp only <;> omega

/-- A sale lowers what is seen, and begins a new period. -/
theorem update_eq (n : ℕ) (s : Stock) :
    updateVendorItemCurrentCount v t n s = ⟨seen v t s - n, t⟩ := by
  unfold updateVendorItemCurrentCount seen getVendorItemCurrentCount
  cases s with
  | none =>
    dsimp only
    congr 1
    split_ifs <;> omega
  | some c =>
    dsimp only
    congr 1
    split_ifs <;> dsimp only <;> omega

/-- At the end of a period the count goes on as before, and at the same time it is the same. -/
theorem at_restocked (hle : ptime ≤ t) (hlast : c.lastIncrementTime ≤ ptime)
    (hwhole : t = ptime ∨ v.buyCount = 0 ∨ v.incrtime ∣ ptime - c.lastIncrementTime) :
    VendorItemCount.at v t ⟨c.at v ptime, ptime⟩ = c.at v t := by
  unfold VendorItemCount.at
  rcases hwhole with rfl | hnone | ⟨periods, hwhole⟩
  · simp only [Nat.sub_self, Nat.zero_div, Nat.zero_mul, Nat.add_zero]
  · simp only [hnone, Nat.mul_zero, Nat.add_zero]
  · have hsplit : t - c.lastIncrementTime = v.incrtime * periods + (t - ptime) := by omega
    rw [hsplit, hwhole, Nat.mul_add_div v.restocks, Nat.mul_div_cancel_left _ v.restocks,
      Nat.add_mul, Nat.add_assoc]

theorem whole_of_not_cuts (htime : c.lastIncrementTime + v.incrtime ≤ ptime)
    (hfull : c.at v ptime < v.maxcount) (h : ¬cuts v ptime (some c)) :
    v.buyCount = 0 ∨ v.incrtime ∣ ptime - c.lastIncrementTime := by
  unfold cuts at h
  simp only [htime, hfull, decide_true, Bool.true_and, Bool.and_eq_true, Bool.not_eq_true',
    decide_eq_true_eq, decide_eq_false_iff_not] at h
  by_contra hnot
  exact h ⟨fun hnone => hnot (Or.inl hnone), fun hdvd => hnot (Or.inr hdvd)⟩

/-- **A look-up that cuts no period changes nothing that is seen later**, and none changes what is
seen at its own time. -/
theorem seen_get (hle : ptime ≤ t) (hwithin : Within v ptime s) (hfits : Fits v t s)
    (hcut : cuts v ptime s → t = ptime) :
    Within v ptime (getVendorItemCurrentCount v ptime s).2 ∧
      Fits v t (getVendorItemCurrentCount v ptime s).2 ∧
        seen v t (getVendorItemCurrentCount v ptime s).2 = seen v t s := by
  cases s with
  | none => exact ⟨nofun, nofun, rfl⟩
  | some c =>
    have hlast := (hwithin c rfl).2
    unfold getVendorItemCurrentCount
    dsimp only
    rw [restocked_eq (hfits.mono hle)]
    split_ifs with htime hfull
    · rw [seen_eq hwithin hfits, left, Nat.min_eq_left (hfull.trans (at_mono hle c))]
      exact ⟨nofun, nofun, rfl⟩
    · have hwhole : t = ptime ∨ v.buyCount = 0 ∨ v.incrtime ∣ ptime - c.lastIncrementTime := by
        by_cases hcuts : cuts v ptime (some c)
        · exact Or.inl (hcut hcuts)
        · exact Or.inr (whole_of_not_cuts htime (Nat.lt_of_not_le hfull) hcuts)
      have hlater := at_restocked hle hlast hwhole
      have hfits' : Fits v t (some ⟨c.at v ptime, ptime⟩) := by
        rintro _ ⟨⟩
        exact ⟨(Nat.div_le_div_right (Nat.sub_le_sub_left hlast t)).trans_lt (hfits c rfl).1,
          hlater.trans_lt (hfits c rfl).2⟩
      have hwithin' : Within v ptime (some ⟨c.at v ptime, ptime⟩) := by
        rintro _ ⟨⟩
        exact ⟨Nat.le_of_not_le hfull, Nat.le_refl _⟩
      refine ⟨hwithin', hfits', ?_⟩
      rw [seen_eq hwithin hfits, seen_eq hwithin' hfits', left, left, hlater]
    · exact ⟨hwithin, hfits, rfl⟩

/-- From here on the same is seen, as long as it fits; after a look-up that has cut a period, only
at its own time. -/
structure Inv (v : VendorItem) (s : State) : Prop where
  stock : Within v s.now s.stock
  same : ∀ t, s.now ≤ t → (s.cut → t = s.now) → Fits v t s.sold →
    Fits v t s.stock ∧ seen v t s.stock = seen v t s.sold

theorem Within.later (hle : t ≤ ptime) (h : Within v t s) : Within v ptime s :=
  fun c hc => ⟨(h c hc).1, (h c hc).2.trans hle⟩

/-- **The step lemma.** -/
theorem Inv.step {s : State} (h : Inv v s) (a : ℕ × Call) (ha : Regular v s a) :
    Inv v (VendorStock.step v s a) := by
  obtain ⟨ptime, call⟩ := a
  obtain ⟨htime, hcut, hfits, -⟩ := ha
  have hwithin := h.stock.later htime
  obtain ⟨hstock, hsame⟩ := h.same ptime htime hcut hfits
  cases call with
  | get =>
    refine ⟨(seen_get (Nat.le_refl _) hwithin hstock fun _ => rfl).1, fun t ht hcuts hsold => ?_⟩
    have hnow : s.cut → t = s.now := fun hold =>
      (hcuts ((Bool.or_eq_true _ _).mpr (Or.inl hold))).trans (hcut hold)
    obtain ⟨hstock', hsame'⟩ := h.same t (htime.trans ht) hnow hsold
    obtain ⟨-, hkept, hseen⟩ :=
      seen_get ht hwithin hstock' fun hnew => hcuts ((Bool.or_eq_true _ _).mpr (Or.inr hnew))
    exact ⟨hkept, hseen.trans hsame'⟩
  | update n =>
    refine ⟨?_, fun t _ _ hsold => ?_⟩
    · unfold VendorStock.step
      dsimp only
      rw [update_eq]
      rintro _ ⟨⟩
      exact ⟨(Nat.sub_le _ _).trans (seen_le hwithin), Nat.le_refl _⟩
    · unfold VendorStock.step at hsold ⊢
      dsimp only at hsold ⊢
      rw [update_eq, hsame, ← update_eq]
      exact ⟨hsold, rfl⟩

theorem Inv.right {s : State} (h : Inv v s) (a : ℕ × Call) (ha : Regular v s a) : Right v s a := by
  obtain ⟨ptime, call⟩ := a
  obtain ⟨htime, hcut, hfits, hcall⟩ := ha
  obtain ⟨hstock, hsame⟩ := h.same ptime htime hcut hfits
  refine ⟨seen_le h.stock, hsame, ?_⟩
  cases call with
  | get => trivial
  | update n =>
    have hleft := seen_eq h.stock hstock
    intro hadmitted
    rw [update_eq]
    rw [Admitted, hleft] at hadmitted
    exact Nat.sub_add_cancel ((hcall hadmitted).trans_eq hleft.symm)

/-- **The stock of a vendor is right along every regular run.** -/
theorem stock_right (v : VendorItem) (calls : List (ℕ × Call))
    (h : Along (step v) (Regular v) {} calls) : Along (step v) (Right v) {} calls := by
  have hstart : Inv v {} := ⟨nofun, fun t _ _ _ => ⟨nofun, rfl⟩⟩
  exact h.of_invariant (fun _ a hs ha => hs.step a ha) (fun _ a hs ha => hs.right a ha) hstart

/-- One of ten comes back every ten seconds. -/
def ten : VendorItem := ⟨10, 10, 1, by decide, by decide⟩

/-- The list is looked at after ten seconds, and two are bought after twenty-five. -/
theorem stock_right_ten : Along (step ten) (Right ten) {}
    [(0, .update 5), (10, .get), (25, .get), (25, .update 2)] := by
  refine stock_right ten _ ⟨⟨by decide, nofun, nofun, fun _ => by decide⟩,
    ⟨by decide, nofun, ?_, trivial⟩, ⟨by decide, ?_, ?_, trivial⟩,
    ⟨by decide, fun _ => rfl, ?_, fun _ => by decide⟩, trivial⟩
  · rintro _ ⟨⟩
    decide
  · exact fun hcut => absurd hcut (by decide)
  · rintro _ ⟨⟩
    decide
  · rintro _ ⟨⟩
    decide

/-- A look-up after nineteen seconds loses nine of them. -/
theorem looked_up_between : ¬ ∀ (v : VendorItem) (calls : List (ℕ × Call)),
    (calls.map Prod.fst).Pairwise (· ≤ ·) → Along (step v) (Right v) {} calls := by
  intro h
  have hrun := h ten [(0, .update 5), (19, .get), (20, .get)] (by decide)
  exact absurd hrun.2.2.1.2.1 (by decide)

end ZerosCore.VendorStock
