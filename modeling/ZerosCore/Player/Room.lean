/-
# The room an inventory finds

What a successful `CanStoreItem` promises.  Every attempt keeps one invariant of the
plan: no position twice, the amounts found and the amount left make up the request, and
every position exists and takes its amount, on a stack of the entry that is not full or
in a slot that is free once the item itself, and the item it is swapped with, are gone.

`canStoreItem_sound` reads this off the finished plan, and `Takes.toSlots` turns it into
what carrying the plan out needs.
-/

import Mathlib.Tactic.Linarith
import ZerosCore.Player.Inventory

namespace ZerosCore.Player.Inventory

open Lib Stacks Stackable List Option

variable {db : ItemStore} {inv : Inventory} {p q : Pos} {it : Item} {src : Option Item}
  {entry n : ℕ} {swap merge : Bool} {pl pl' : Plan Pos}

/-! ### Positions that exist -/

/-- The position is a slot of the player, or of a bag that is there. -/
def SlotExists (db : ItemStore) (inv : Inventory) (p : Pos) : Prop :=
  (p.bag = inventorySlotBag0 ∧ p.slot < bankSlotBagEnd) ∨
    ∃ bag, inv.getBagByPos db p.bag = some bag ∧ p.slot < bagSize db bag

theorem getItemByPos_of_exists (h : inv.SlotExists db p) :
    inv.getItemByPos db p = inv.slots.stackAt p := by
  unfold getItemByPos
  rcases h with h | ⟨bag, hbag, hlt⟩
  · rw [if_pos h]
  split_ifs
  · rfl
  rw [hbag]
  exact if_pos hlt

theorem exists_of_getItemByPos (h : inv.getItemByPos db p = some it) :
    inv.SlotExists db p ∧ inv.slots.stackAt p = some it := by
  unfold getItemByPos at h
  split_ifs at h with hmain
  · exact ⟨.inl hmain, h⟩
  cases hbag : inv.getBagByPos db p.bag with
  | none => rw [hbag] at h; cases h
  | some bag =>
    rw [hbag] at h
    dsimp only at h
    split_ifs at h with hlt
    exact ⟨.inr ⟨bag, hbag, hlt⟩, h⟩

theorem otherItem_eq_some (h : inv.otherItem db p src = some it) :
    inv.getItemByPos db p = some it ∧ ∀ s ∈ src, s.guid ≠ it.guid := by
  unfold otherItem at h
  obtain ⟨hget, hsrc⟩ := filter_eq_some_iff.mp h
  refine ⟨hget, fun s hs => ?_⟩
  rw [mem_def.mp hs] at hsrc
  simpa using hsrc

theorem canBeMergedPartlyWith_ok (h : db.canBeMergedPartlyWith it entry = .ok) :
    it.entry = entry ∧ it.count < db.maxStack entry := by
  unfold ItemStore.canBeMergedPartlyWith at h
  split_ifs at h with h1 h2 h3
  exact ⟨not_not.mp h2, not_le.mp h3⟩

/-! ### Sound plans -/

/-- A position takes the amount. -/
structure Takes (db : ItemStore) (inv : Inventory) (target : Option Pos) (entry : ℕ)
    (src : Option Item) (p : Pos) (n : ℕ) : Prop where
  there : inv.SlotExists db p
  le : n ≤ db.maxStack entry
  room : ∀ it, inv.otherItem db p src = some it → target = some p ∨
    it.entry = entry ∧ it.count + n ≤ db.maxStack entry

/-- A sound plan for `total` items: `target` is the position that is swapped. -/
abbrev PlanSound (db : ItemStore) (inv : Inventory) (target : Option Pos) (entry : ℕ)
    (src : Option Item) (total : ℕ) (pl : Plan Pos) : Prop :=
  Plan.Sound (Takes db inv target entry src) total pl

variable {target : Option Pos} {total : ℕ}
variable {space : ℕ}

theorem takes_of_space (hthere : inv.SlotExists db p) (hle : space ≤ db.maxStack entry)
    (hroom : ∀ it, inv.otherItem db p src = some it → target = some p ∨
      it.entry = entry ∧ it.count + space ≤ db.maxStack entry) :
    ∀ n ≤ space, Takes db inv target entry src p n := by
  refine fun n hn => ⟨hthere, hn.trans hle, fun it hit => ?_⟩
  rcases hroom it hit with h | ⟨he, hc⟩
  · exact .inl h
  · exact .inr ⟨he, (Nat.add_le_add_left hn _).trans hc⟩

theorem spaceAt_eq_some (h : inv.spaceAt db entry merge src p = some space) :
    space ≤ db.maxStack entry ∧ ∀ it, inv.otherItem db p src = some it →
      it.entry = entry ∧ it.count + space ≤ db.maxStack entry := by
  unfold spaceAt at h
  cases hother : inv.otherItem db p src with
  | none =>
    rw [hother] at h
    cases merge with
    | true => cases h
    | false =>
      rw [some.injEq] at h
      exact ⟨h ▸ le_refl _, nofun⟩
  | some it =>
    rw [hother] at h
    cases merge with
    | false => cases h
    | true =>
      dsimp only at h
      split_ifs at h with hmerge
      obtain ⟨he, hlt⟩ := canBeMergedPartlyWith_ok hmerge
      rw [some.injEq] at h
      refine ⟨by omega, fun it' hit' => ?_⟩
      rw [some.injEq] at hit'
      subst hit'
      exact ⟨he, by omega⟩

/-- **The scanning loop keeps a plan sound.** -/
theorem PlanSound.scan (h : PlanSound db inv target entry src total pl) {ps : List Pos}
    (hps : ∀ p ∈ ps, inv.SlotExists db p) :
    PlanSound db inv target entry src total (inv.scan db entry merge src ps pl) := by
  induction ps generalizing pl with
  | nil => exact h
  | cons p ps ih =>
    have hrest : ∀ q ∈ ps, inv.SlotExists db q := fun q hq => hps q (mem_cons_of_mem _ hq)
    rw [Inventory.scan]
    split
    · exact ih h hrest
    next space hspace =>
      obtain ⟨hle, hroom⟩ := spaceAt_eq_some hspace
      have htakes : ∀ n ≤ space, Takes db inv target entry src p n :=
        takes_of_space (hps p mem_cons_self) hle fun it hit => .inr (hroom it hit)
      split_ifs with hmem hzero
      · exact ih h hrest
      · exact h.push hmem htakes
      · exact ih (h.push hmem htakes) hrest

/-! ### The attempts -/

/-- The position that is swapped. -/
def swapTarget (swap : Bool) (p : Pos) : Option Pos := if swap then some p else none

theorem PlanSound.inSlotOf
    (hadd : ∀ space, inv.SlotExists db p → space ≤ db.maxStack entry →
      (∀ it, inv.otherItem db p src = some it → target = some p ∨
        it.entry = entry ∧ it.count + space ≤ db.maxStack entry) →
      PlanSound db inv target entry src total (pl.add p space))
    (hroom : ∀ it, inv.otherItem db p src = some it → target = some p)
    (hok : (if p.bag = inventorySlotBag0 then
      if (buybackSlotStart ≤ p.slot ∧ p.slot < buybackSlotEnd) ∨ playerSlotEnd ≤ p.slot then
        .error .wrongBagType
      else .ok (pl.add p (db.maxStack entry))
      else match inv.getBagByPos db p.bag with
        | none => .error .wrongBagType
        | some bag =>
          if p.slot ≥ (db.template bag.entry).containerSlots ||
              !(db.template entry).canGoIntoBag (db.template bag.entry) then .error .wrongBagType
          else .ok (pl.add p (db.maxStack entry)) : Except InventoryResult (Plan Pos)) = .ok pl') :
    PlanSound db inv target entry src total pl' := by
  have hroom' : ∀ it, inv.otherItem db p src = some it → target = some p ∨
      it.entry = entry ∧ it.count + db.maxStack entry ≤ db.maxStack entry :=
    fun it hit => .inl (hroom it hit)
  split at hok
  · next hmain =>
      split at hok
      · cases hok
      next hslot =>
        rw [← Except.ok.inj hok]
        refine hadd _ (.inl ⟨hmain, ?_⟩) (le_refl _) hroom'
        unfold buybackSlotStart buybackSlotEnd playerSlotEnd at hslot
        unfold bankSlotBagEnd
        omega
  split at hok
  · cases hok
  next bag hbag =>
    split at hok
    · cases hok
    next hfit =>
      rw [← Except.ok.inj hok]
      refine hadd _ (.inr ⟨bag, hbag, ?_⟩) (le_refl _) hroom'
      simp only [Bool.or_eq_true, decide_eq_true_eq, not_or, not_le, ge_iff_le] at hfit
      exact hfit.1

theorem PlanSound.inSpecificSlot (h : PlanSound db inv (swapTarget swap p) entry src total pl)
    (hok : inv.canStoreItemInSpecificSlot db p entry swap src pl = .ok pl') :
    PlanSound db inv (swapTarget swap p) entry src total pl' := by
  -- every branch that goes on adds the slot, with the space it has
  have hadd : ∀ space, inv.SlotExists db p → space ≤ db.maxStack entry →
      (∀ it, inv.otherItem db p src = some it → swapTarget swap p = some p ∨
        it.entry = entry ∧ it.count + space ≤ db.maxStack entry) →
      PlanSound db inv (swapTarget swap p) entry src total (pl.add p space) := by
    intro space hthere hle hroom
    exact h.add (takes_of_space hthere hle hroom)
  unfold canStoreItemInSpecificSlot at hok
  split at hok
  · cases hok
  cases hother : inv.otherItem db p src with
  | some it =>
    cases swap with
    | false =>
      rw [hother] at hok
      dsimp only at hok
      cases hmerge : db.canBeMergedPartlyWith it entry with
      | ok =>
        obtain ⟨he, hlt⟩ := canBeMergedPartlyWith_ok hmerge
        rw [hmerge] at hok
        rw [← Except.ok.inj hok]
        refine hadd _ (exists_of_getItemByPos (otherItem_eq_some hother).1).1
          (Nat.sub_le _ _) fun it' hit' => .inr ?_
        rw [hother, some.injEq] at hit'
        subst hit'
        exact ⟨he, by omega⟩
      | _ =>
        rw [hmerge] at hok
        cases hok
    | true =>
      rw [hother] at hok
      exact PlanSound.inSlotOf hadd (fun it _ => rfl) hok
  | none =>
    rw [hother] at hok
    exact PlanSound.inSlotOf hadd (fun it hit => by rw [hother] at hit; cases hit) hok

variable {bag : ℕ} {nonSpecialized : Bool} {skip : Pos}

theorem PlanSound.inBag (h : PlanSound db inv target entry src total pl)
    (hok : inv.canStoreItemInBag db bag entry merge nonSpecialized src skip pl = .ok pl') :
    PlanSound db inv target entry src total pl' := by
  unfold canStoreItemInBag at hok
  split at hok
  · cases hok
  split at hok
  · cases hok
  next b hb =>
    split_ifs at hok
    rw [← Except.ok.inj hok]
    refine h.scan fun p hp => ?_
    obtain ⟨j, hj, rfl⟩ := mem_map.mp hp
    exact .inr ⟨b, hb, mem_range.mp (mem_filter.mp hj).1⟩

theorem PlanSound.inInventorySlots {first last : ℕ} (hlast : last ≤ bankSlotBagEnd)
    (h : PlanSound db inv target entry src total pl)
    (hok : inv.canStoreItemInInventorySlots db first last entry merge src skip pl = .ok pl') :
    PlanSound db inv target entry src total pl' := by
  unfold canStoreItemInInventorySlots at hok
  split_ifs at hok
  rw [← Except.ok.inj hok]
  refine h.scan fun p hp => ?_
  obtain ⟨j, hj, rfl⟩ := mem_map.mp hp
  have hrange := mem_range'_1.mp (mem_filter.mp hj).1
  exact .inl ⟨rfl, by dsimp only; omega⟩

theorem inSpecificSlot_ne_ok :
    inv.canStoreItemInSpecificSlot db p entry swap src pl ≠ .error .ok := by
  unfold canStoreItemInSpecificSlot
  split
  · simp
  split
  · split
    · simp
    · next hmerge => exact fun h => hmerge (Except.error.inj h)
  split
  · split <;> simp
  split
  · simp
  · split <;> simp

theorem inBag_ne_ok :
    inv.canStoreItemInBag db bag entry merge nonSpecialized src skip pl ≠ .error .ok := by
  unfold canStoreItemInBag
  split
  · simp
  split
  · simp
  · split_ifs <;> simp

theorem inInventorySlots_ne_ok {first last : ℕ} :
    inv.canStoreItemInInventorySlots db first last entry merge src skip pl ≠ .error .ok := by
  unfold canStoreItemInInventorySlots
  split_ifs <;> simp

/-- An attempt keeps plans sound, and does not refuse for no reason. -/
def Keeps (db : ItemStore) (inv : Inventory) (target : Option Pos) (entry : ℕ) (src : Option Item)
    (total : ℕ) (f : Plan Pos → Attempt) : Prop :=
  ∀ pl, f pl ≠ .refuse .ok ∧ ∀ pl', PlanSound db inv target entry src total pl →
    f pl = .found pl' → PlanSound db inv target entry src total pl'

variable {r : Except InventoryResult (Plan Pos)}

theorem must_ne_refuse (h : r ≠ .error .ok) : must r ≠ .refuse .ok := by
  cases r with
  | error msg => exact fun h' => h (congrArg Except.error (Attempt.refuse.inj h'))
  | ok pl => exact nofun

theorem may_ne_refuse : may r ≠ .refuse .ok := by
  cases r <;> exact nofun

theorem must_eq_found (h : must r = .found pl) : r = .ok pl := by
  cases r with
  | error msg => cases h
  | ok pl => exact congrArg Except.ok (Attempt.found.inj h)

theorem may_eq_found (h : may r = .found pl) : r = .ok pl := by
  cases r with
  | error msg => cases h
  | ok pl => exact congrArg Except.ok (Attempt.found.inj h)

variable {side : Side}

theorem keeps_inBags : ∀ f ∈ inv.inBags db side entry merge nonSpecialized src skip,
      Keeps db inv target entry src total f := by
  intro f hf pl
  obtain ⟨i, -, rfl⟩ := mem_map.mp hf
  exact ⟨may_ne_refuse, fun pl' hs hfound => hs.inBag (may_eq_found hfound)⟩

theorem keeps_inSlots (hside : side.itemEnd ≤ bankSlotBagEnd) :
    Keeps db inv target entry src total (inv.inSlots db side entry merge src skip) :=
  fun _ => ⟨must_ne_refuse inInventorySlots_ne_ok,
    fun _ hs hfound => hs.inInventorySlots hside (must_eq_found hfound)⟩

theorem keeps_inAskedBag (hside : side.itemEnd ≤ bankSlotBagEnd) :
    Keeps db inv target entry src total (inv.inAskedBag db side p entry merge src) := by
  unfold inAskedBag
  split_ifs
  · exact keeps_inSlots hside
  refine fun pl => ⟨must_ne_refuse ?_, fun pl' hs hfound => ?_⟩
  · unfold inThisBag
    split
    · simp
    · exact inBag_ne_ok
  have hok := must_eq_found hfound
  unfold inThisBag at hok
  split at hok
  · next hspecial => exact Except.ok.inj hok ▸ hs.inBag hspecial
  · exact hs.inBag hok

/-- **Every attempt of `CanStoreItem` keeps plans sound.** -/
theorem keeps_attempts (hside : side.itemEnd ≤ bankSlotBagEnd) :
    ∀ f ∈ inv.attempts db side p entry swap src,
      Keeps db inv (swapTarget swap p) entry src total f := by
  have happ : ∀ {L1 L2 : List (Plan Pos → Attempt)},
      (∀ f ∈ L1, Keeps db inv (swapTarget swap p) entry src total f) →
      (∀ f ∈ L2, Keeps db inv (swapTarget swap p) entry src total f) →
      ∀ f ∈ L1 ++ L2, Keeps db inv (swapTarget swap p) entry src total f :=
    fun h1 h2 => forall_mem_append.mpr ⟨h1, h2⟩
  have hif : ∀ {c : Prop} [Decidable c] {L : List (Plan Pos → Attempt)},
      (∀ f ∈ L, Keeps db inv (swapTarget swap p) entry src total f) →
      ∀ f ∈ if c then L else [], Keeps db inv (swapTarget swap p) entry src total f := by
    intro c _ L h
    split_ifs
    · exact h
    · exact nofun
  have hone : ∀ {f : Plan Pos → Attempt}, Keeps db inv (swapTarget swap p) entry src total f →
      ∀ g ∈ [f], Keeps db inv (swapTarget swap p) entry src total g :=
    fun h g hg => mem_singleton.mp hg ▸ h
  unfold attempts
  refine happ (happ (happ (happ (happ (happ (hif (hone ?_)) (hif (happ ?_ ?_))) (hif ?_)) ?_)
    (hif (hone ?_))) (hone (keeps_inSlots hside))) keeps_inBags
  · exact fun pl => ⟨must_ne_refuse inSpecificSlot_ne_ok,
      fun pl' hs hfound => hs.inSpecificSlot (must_eq_found hfound)⟩
  · exact hif (hone (keeps_inAskedBag hside))
  · exact hone (keeps_inAskedBag hside)
  · exact happ (happ (hone (keeps_inSlots hside)) (hif keeps_inBags)) keeps_inBags
  · exact hif keeps_inBags
  · exact fun pl => ⟨by simp, nofun⟩

theorem search_sound {fs : List (Plan Pos → Attempt)} {full : InventoryResult} (hfull : full ≠ .ok)
    (hfs : ∀ f ∈ fs, Keeps db inv target entry src total f)
    (hs : PlanSound db inv target entry src total pl) (hok : search full fs pl = (.ok, pl')) :
    PlanSound db inv target entry src total pl' ∧ pl'.count = 0 := by
  induction fs generalizing pl with
  | nil =>
    rw [search, Prod.mk.injEq] at hok
    exact (hfull hok.1).elim
  | cons f fs ih =>
    have hrest : ∀ g ∈ fs, Keeps db inv target entry src total g :=
      fun g hg => hfs g (mem_cons_of_mem _ hg)
    obtain ⟨hrefuse, hkeep⟩ := hfs f mem_cons_self pl
    rw [search] at hok
    cases hf : f pl with
    | refuse msg =>
      rw [hf, Prod.mk.injEq] at hok
      rw [hf, hok.1] at hrefuse
      exact (hrefuse rfl).elim
    | skip =>
      rw [hf] at hok
      exact ih hrest hs hok
    | found pl1 =>
      rw [hf] at hok
      dsimp only at hok
      split_ifs at hok with hzero
      · rw [Prod.mk.injEq] at hok
        exact hok.2 ▸ ⟨hkeep pl1 hs hf, hzero⟩
      · exact ih hrest (hkeep pl1 hs hf) hok

variable {dest : List (Pos × ℕ)}

theorem search_of_canStoreItem (hok : inv.canStoreItem db p entry n src swap = (.ok, dest)) :
    search .invFull (inv.attempts db carried p entry swap src) { count := n } =
      (.ok, { dest, count := 0 }) := by
  unfold canStoreItem at hok
  split at hok
  · simp at hok
  split at hok
  · simp at hok
  generalize inv.canTakeMoreSimilarItems db entry n src = limit at hok
  obtain ⟨res, noSimilar⟩ := limit
  dsimp only at hok
  split at hok
  · next h =>
      rw [Prod.mk.injEq] at hok
      exact (h.1 hok.1).elim
  generalize hsearch : search InventoryResult.invFull (inv.attempts db carried p entry swap src)
    { count := if res = .ok then n else sub32 n noSimilar } = found at hok
  obtain ⟨msg, pl⟩ := found
  dsimp only at hok
  split at hok
  · simp at hok
  next hsimilar =>
    obtain ⟨rfl, rfl⟩ := Prod.mk.inj hok
    have hcount : (if res = .ok then n else sub32 n noSimilar) = n := by
      split_ifs with hres
      · rfl
      have hnone : noSimilar = 0 := by
        by_contra hne
        exact hsimilar ⟨rfl, hres, hne⟩
      rw [hnone, sub32, if_pos (Nat.zero_le n), Nat.sub_zero]
    rw [hcount] at hsearch
    have hside : carried.itemEnd ≤ bankSlotBagEnd := by decide
    obtain ⟨-, hzero⟩ := search_sound (by simp) (keeps_attempts hside)
      (Plan.sound_start (Takes db inv (swapTarget swap p) entry src) n) hsearch
    rw [hsearch]
    obtain ⟨dest, count⟩ := pl
    rw [show count = 0 from hzero]

/-- **What `CanStoreItem` finds is sound**: the positions are distinct, exist, take their
amounts, and the amounts make up the request. -/
theorem canStoreItem_sound (hok : inv.canStoreItem db p entry n src swap = (.ok, dest)) :
    PlanSound db inv (swapTarget swap p) entry src n { dest, count := 0 } := by
  have hside : carried.itemEnd ≤ bankSlotBagEnd := by decide
  exact (search_sound (by simp) (keeps_attempts hside) (Plan.sound_start _ n)
    (search_of_canStoreItem hok)).1

/-! ### Carrying a plan out -/

theorem Takes.toSlots (h : Takes db inv target it.entry (some it) p n) :
    inv.slots.Takes db.maxStack target it p n := by
  refine ⟨h.le, fun b hb hne => h.room b ?_⟩
  unfold otherItem
  rw [getItemByPos_of_exists h.there, hb, filter_some, if_pos]
  exact decide_eq_true (Ne.symm hne)

end ZerosCore.Player.Inventory
