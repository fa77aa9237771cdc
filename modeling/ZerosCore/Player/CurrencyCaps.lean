/-
# Caps of currencies

A call moves a currency within its caps, takes what it is asked to spend and never takes
on a gain, except where a limit of the conquest points runs in the wrong place: the
limit for points not from rated battlegrounds is applied to spendings and to gains above
the cap for arenas, it forgets the total cap, and the arena currency is not spent once
the points are at the cap for arenas.  `Regular` says that a call reaches none of these.

Along every run of regular calls the caps hold and every call is fair.
-/

import ZerosCore.Lib.Run
import ZerosCore.Player.Currency

namespace ZerosCore.Currency

open Lib Wallet

variable {cfg : Config} {w w' : Wallet} {id i bycurrency : UInt32} {count : ℤ}
  {refund ignoreCap : Bool}

/-! ### Amounts below `2^30` -/

/-- The caps are below `2^30`. -/
def Config.Small (cfg : Config) : Prop :=
  ∀ id, getCurrencyTotalCap cfg id < 2 ^ 30 ∧ (cfg.entry id).weekCap.toNat < 2 ^ 30

/-- The amounts of the call and of the wallet are below `2^30`. -/
def Small (w : Wallet) : Event → Prop
  | .modifyCurrency _ count _ _ _ => count.natAbs < 2 ^ 30 ∧
      ∀ i, (w.get i).totalCount < 2 ^ 30 ∧ (w.get i).weekCount < 2 ^ 30
  | .resetCurrencyWeekCap _ => True

theorem weekCap_lt (hcfg : cfg.Small) (id : UInt32) : w.getCurrencyWeekCap cfg id < 2 ^ 30 := by
  have harena := w.arenaCap.toNat_lt
  have hrbg := w.ratedBgCap.toNat_lt
  have hentry := (hcfg id).2
  unfold getCurrencyWeekCap currencyPrecision
  split_ifs <;> omega

/-! ### The stages -/

section Stages

variable {weekCap totalCap : ℕ} {old : PlayerCurrency}

theorem i32_eq {x : ℤ} (hlow : -2 ^ 31 ≤ x) (hhigh : x < 2 ^ 31) : i32 x = x := by
  unfold i32
  omega

/-- The amounts of one currency, with its caps. -/
structure Fits (weekCap totalCap : ℕ) (old : PlayerCurrency) : Prop where
  week_lt : weekCap < 2 ^ 30
  cap_lt : totalCap < 2 ^ 30
  old_lt : old.totalCount < 2 ^ 30 ∧ old.weekCount < 2 ^ 30
  total_le : totalCap ≠ 0 → old.totalCount ≤ totalCap
  week_le : weekCap ≠ 0 → old.weekCount ≤ weekCap

theorem clampCount_neg (ignoreCap : Bool) (hfits : Fits weekCap totalCap old) (hneg : count < 0) :
    clampCount weekCap totalCap ignoreCap count = count := by
  have := hfits.week_lt
  have := hfits.cap_lt
  unfold clampCount i32
  dsimp only
  split_ifs <;> omega

theorem clampCount_pos (ignoreCap : Bool) (hfits : Fits weekCap totalCap old) (hpos : 0 < count) :
    0 < clampCount weekCap totalCap ignoreCap count ∧
      clampCount weekCap totalCap ignoreCap count ≤ count := by
  have := hfits.week_lt
  have := hfits.cap_lt
  unfold clampCount i32
  dsimp only
  split_ifs <;> omega

/-- The four stages before the limits of the conquest points. -/
def stages (weekCap totalCap : ℕ) (ignoreCap refund : Bool) (old : PlayerCurrency) (count : ℤ) :
    Counts :=
  clampTotal weekCap totalCap (clampWeek weekCap ignoreCap old
    (addCount old refund (clampCount weekCap totalCap ignoreCap count)))

/-- **A spending takes the amount**, as far as there is enough, and leaves the week alone. -/
theorem stages_neg (hfits : Fits weekCap totalCap old) (hneg : count < 0) (hlt : -2 ^ 30 < count) :
    stages weekCap totalCap ignoreCap refund old count =
      { total := max 0 (old.totalCount + count), week := old.weekCount } := by
  have hcount := clampCount_neg ignoreCap hfits hneg
  obtain ⟨_, _, _, htotal, hweek⟩ := hfits
  unfold stages
  rw [hcount]
  have hadd : addCount old refund count =
      { total := max 0 (old.totalCount + count), week := old.weekCount } := by
    unfold addCount i32
    rw [Counts.mk.injEq]
    constructor
    · omega
    · split_ifs <;> omega
  rw [hadd]
  unfold clampWeek i32
  rw [if_neg (by dsimp only; omega)]
  unfold clampTotal i32
  rw [if_neg (by dsimp only; omega)]

structure Gain (weekCap totalCap : ℕ) (ignoreCap refund : Bool) (old : PlayerCurrency) (count : ℤ)
    (new : Counts) : Prop where
  total_lt : 0 ≤ new.total ∧ new.total < 2 ^ 31
  week_lt : 0 ≤ new.week ∧ new.week < 2 ^ 31
  up : old.totalCount ≤ new.total
  total_le : totalCap ≠ 0 → new.total ≤ totalCap
  week_le : weekCap ≠ 0 → new.week ≤ weekCap
  le_count : new.total ≤ old.totalCount + count
  counted : weekCap ≠ 0 → refund = false →
    (ignoreCap = true → weekCap ≠ 0 → old.weekCount + count ≤ weekCap) →
    new.total - old.totalCount ≤ new.week - old.weekCount
  week_up : weekCap ≠ 0 → old.weekCount ≤ new.week
  exact : refund = false → (ignoreCap = true → weekCap ≠ 0 → old.weekCount + count ≤ weekCap) →
    new.total - old.totalCount = new.week - old.weekCount ∨
      totalCap ≠ 0 ∧ totalCap < old.totalCount + count

/-- **A gain stays within the caps.** -/
theorem stages_pos (hfits : Fits weekCap totalCap old) (hpos : 0 < count) (hlt : count < 2 ^ 30) :
    Gain weekCap totalCap ignoreCap refund old count
      (stages weekCap totalCap ignoreCap refund old count) := by
  obtain ⟨hc, hle⟩ := clampCount_pos ignoreCap hfits hpos
  obtain ⟨_, _, _, htotal, hweek⟩ := hfits
  unfold stages
  generalize clampCount weekCap totalCap ignoreCap count = c at hc hle ⊢
  -- what counts for the week
  obtain ⟨g, hg, hgc, hadd⟩ : ∃ g : ℤ, (0 ≤ g ∧ g ≤ c) ∧ (refund = false → g = c) ∧
      addCount old refund c = { total := old.totalCount + c, week := old.weekCount + g } := by
    refine ⟨if refund then 0 else c, ?_, fun hrefund => by rw [hrefund]; rfl, ?_⟩
    · split_ifs <;> omega
    · unfold addCount i32
      rw [Counts.mk.injEq]
      constructor
      · omega
      · split_ifs <;> omega
  have hweekCap : i32 weekCap = weekCap := i32_eq (by omega) (by omega)
  have htotalCap : i32 totalCap = totalCap := i32_eq (by omega) (by omega)
  have hroom : i32 (old.totalCount + (weekCap - old.weekCount)) =
      old.totalCount + (weekCap - old.weekCount) := i32_eq (by omega) (by omega)
  rw [hadd]
  unfold clampWeek clampTotal
  rw [hweekCap, htotalCap, hroom]
  cases ignoreCap with
  | false =>
    simp only [Bool.false_eq_true, if_false]
    split_ifs <;> refine ⟨?_, ?_, ?_, ?_, ?_, ?_, fun _ hrefund _ => ?_, ?_, fun hrefund _ => ?_⟩ <;>
      first
      | have hsame := hgc hrefund
        dsimp only at *
        omega
      | dsimp only at *
        omega
  | true =>
    simp only [if_true]
    split_ifs <;>
      refine ⟨?_, ?_, ?_, ?_, ?_, ?_, fun _ hrefund hfree => ?_, ?_, fun hrefund hfree => ?_⟩ <;>
      first
      | have hsame := hgc hrefund
        have hbelow := hfree rfl
        dsimp only at *
        omega
      | dsimp only at *
        omega

end Stages

/-! ### One currency -/

/-- **The caps hold**: the totals, and what was gained since the last reset. -/
def Capped (cfg : Config) (w : Wallet) : Prop :=
  ∀ i, (getCurrencyTotalCap cfg i ≠ 0 → (w.get i).totalCount ≤ getCurrencyTotalCap cfg i) ∧
    (w.getCurrencyWeekCap cfg i ≠ 0 → w.gained i ≤ w.getCurrencyWeekCap cfg i)

/-- The invariant: the week counts stay below their caps and count what was gained. -/
structure Counted (cfg : Config) (w : Wallet) : Prop where
  total : ∀ i, getCurrencyTotalCap cfg i ≠ 0 → (w.get i).totalCount ≤ getCurrencyTotalCap cfg i
  week : ∀ i, w.getCurrencyWeekCap cfg i ≠ 0 →
    w.gained i ≤ (w.get i).weekCount ∧ (w.get i).weekCount ≤ w.getCurrencyWeekCap cfg i

theorem Counted.capped (h : Counted cfg w) : Capped cfg w :=
  fun i => ⟨h.total i, fun hcap => Nat.le_trans (h.week i hcap).1 (h.week i hcap).2⟩

/-- **A fair change of a currency**: a spending that is covered takes just its amount, a gain takes
nothing. -/
def Fair (w w' : Wallet) (id : UInt32) (count : ℤ) : Prop :=
  (count < 0 → -count ≤ (w.get id).totalCount → ((w'.get id).totalCount : ℤ) =
    (w.get id).totalCount + count) ∧
  (0 < count → (w.get id).totalCount ≤ (w'.get id).totalCount)

abbrev small (cfg : Config) (w : Wallet) : ℕ := w.getCurrencyWeekCap cfg conquestMetaArena

/-- The limit of the conquest points for arenas does no harm: it does not apply, or the points of
the week are not above it and it leaves the total below its cap. -/
def ConquestRegular (cfg : Config) (w : Wallet) (count : ℤ) (bycurrency : UInt32) (refund : Bool) :
    Prop :=
  bycurrency = conquestMetaRbg ∨ refund = true ∨ (w.get conquestPoints).weekCount ≤ small cfg w ∧
      (getCurrencyTotalCap cfg conquestPoints = 0 ∨
        w.getCurrencyWeekCap cfg conquestPoints ≤ small cfg w ∨
        (w.get conquestPoints).totalCount + count ≤ getCurrencyTotalCap cfg conquestPoints ∨
        (w.get conquestPoints).totalCount + (small cfg w - (w.get conquestPoints).weekCount) ≤
          getCurrencyTotalCap cfg conquestPoints)

/-- A regular change of one currency. -/
structure OneRegular (cfg : Config) (w : Wallet) (id : UInt32) (count : ℤ) (bycurrency : UInt32)
    (refund ignoreCap : Bool) : Prop where
  cap : 0 < count → ignoreCap = true → w.getCurrencyWeekCap cfg id ≠ 0 →
    (w.get id).weekCount + count ≤ w.getCurrencyWeekCap cfg id
  conquest : id = conquestPoints → ConquestRegular cfg w count bycurrency refund
  arena : id = conquestMetaArena → count < 0 → (w.get conquestPoints).weekCount < small cfg w

structure Arrives (cfg : Config) (w : Wallet) (id : UInt32) (count : ℤ) (refund : Bool)
    (new : Counts) : Prop where
  total_lt : 0 ≤ new.total ∧ new.total < 2 ^ 31
  week_lt : 0 ≤ new.week ∧ new.week < 2 ^ 31
  total_le : getCurrencyTotalCap cfg id ≠ 0 → new.total ≤ getCurrencyTotalCap cfg id
  week_le : w.getCurrencyWeekCap cfg id ≠ 0 → (w.get id).weekCount ≤ new.week ∧
    new.week ≤ w.getCurrencyWeekCap cfg id
  counted : w.getCurrencyWeekCap cfg id ≠ 0 → refund = false →
    new.total - (w.get id).totalCount ≤ new.week - (w.get id).weekCount
  spends : count < 0 → new.total = max 0 ((w.get id).totalCount + count)
  gains : 0 < count → (w.get id).totalCount ≤ new.total
  le_count : id ≠ conquestPoints → 0 < count → new.total ≤ (w.get id).totalCount + count

theorem Counted.fits (h : Counted cfg w) (hcfg : cfg.Small)
    (hlt : (w.get id).totalCount < 2 ^ 30 ∧ (w.get id).weekCount < 2 ^ 30) :
    Fits (w.getCurrencyWeekCap cfg id) (getCurrencyTotalCap cfg id) (w.get id) where
  week_lt := weekCap_lt hcfg id
  cap_lt := (hcfg id).1
  old_lt := hlt
  total_le := h.total id
  week_le hcap := (h.week id hcap).2

theorem small_le_weekCap : small cfg w ≤ w.getCurrencyWeekCap cfg conquestPoints := by
  unfold small getCurrencyWeekCap
  rw [if_pos rfl, if_neg (by decide), if_pos rfl]
  exact Nat.le_max_left _ _

theorem finalCounts_eq : w.finalCounts cfg id count bycurrency refund ignoreCap =
    clampArena (small cfg w) id (w.get conquestPoints).weekCount (w.get id)
      (clampConquest (small cfg w) id bycurrency refund (w.get id)
        (w.newCounts cfg id count refund ignoreCap)) := rfl

theorem arrives_neg (hfits : Fits (w.getCurrencyWeekCap cfg id) (getCurrencyTotalCap cfg id) (w.get id))
    (hreg : OneRegular cfg w id count bycurrency refund ignoreCap) (hneg : count < 0)
    (hlt : -2 ^ 30 < count) :
    Arrives cfg w id count refund (w.finalCounts cfg id count bycurrency refund ignoreCap) := by
  have hnew : w.newCounts cfg id count refund ignoreCap =
      { total := max 0 ((w.get id).totalCount + count), week := (w.get id).weekCount } :=
    stages_neg hfits hneg hlt
  obtain ⟨_, _, hold, htotal, hweek⟩ := hfits
  have hconquest : clampConquest (small cfg w) id bycurrency refund (w.get id)
      (w.newCounts cfg id count refund ignoreCap) = w.newCounts cfg id count refund ignoreCap := by
    refine if_neg ?_
    rintro ⟨rfl, hrefund, habove, hby⟩
    rw [hnew] at habove
    unfold u32 at habove
    rcases hreg.conquest rfl with h | h | ⟨h, -⟩
    · exact hby h
    · rw [h] at hrefund
      cases hrefund
    dsimp only at habove
    omega
  have harena : w.finalCounts cfg id count bycurrency refund ignoreCap =
      w.newCounts cfg id count refund ignoreCap := by
    rw [finalCounts_eq, hconquest]
    refine if_neg ?_
    rintro ⟨rfl, habove⟩
    exact absurd (hreg.arena rfl hneg) (Nat.not_lt.mpr habove)
  rw [harena, hnew]
  constructor <;> dsimp only <;> intros <;> omega

theorem arrives_pos (hfits : Fits (w.getCurrencyWeekCap cfg id) (getCurrencyTotalCap cfg id) (w.get id))
    (hreg : OneRegular cfg w id count bycurrency refund ignoreCap) (hpos : 0 < count)
    (hlt : count < 2 ^ 30) :
    Arrives cfg w id count refund (w.finalCounts cfg id count bycurrency refund ignoreCap) := by
  have hgain : Gain (w.getCurrencyWeekCap cfg id) (getCurrencyTotalCap cfg id) ignoreCap refund
      (w.get id) count (w.newCounts cfg id count refund ignoreCap) := stages_pos hfits hpos hlt
  have hcap := hreg.cap hpos
  rw [finalCounts_eq]
  generalize w.newCounts cfg id count refund ignoreCap = new at hgain ⊢
  obtain ⟨_, _, hold, htotal, hweek⟩ := hfits
  have hconquest : Arrives cfg w id count refund
      (clampConquest (small cfg w) id bycurrency refund (w.get id) new) := by
    unfold clampConquest
    split_ifs with hfire
    · -- the points stop at the cap for arenas
      obtain ⟨rfl, hrefund, habove, hby⟩ := hfire
      have hsmall : small cfg w ≤ w.getCurrencyWeekCap cfg conquestPoints := small_le_weekCap
      have hrefund' : refund = false := by simpa using hrefund
      have hexact := hgain.exact hrefund' hcap
      have hle := hgain.total_le
      have hweek' := hgain.week_le
      have hlt' := hgain.week_lt
      rcases hreg.conquest rfl with h | h | ⟨hbelow, hroom⟩
      · exact absurd h hby
      · rw [h] at hrefund'
        cases hrefund'
      unfold u32 at habove
      unfold i32
      refine ⟨?_, ?_, ?_, ?_, ?_, ?_, ?_, fun h => absurd rfl h⟩ <;> dsimp only <;> intros <;> omega
    obtain ⟨h1, h2, h3, h4, h5, h6, h7, h8, h9⟩ := hgain
    exact ⟨h1, h2, h4, fun h => ⟨h8 h, h5 h⟩, fun h hr => h7 h hr hcap, fun h => by omega,
      fun _ => h3, fun _ _ => h6⟩
  unfold clampArena
  split_ifs with hfire
  · constructor <;> dsimp only <;> intros <;> omega
  · exact hconquest

/-! ### A call -/

theorem get_put {cur : PlayerCurrency} : (w.put id cur).get i = if i = id then cur else w.get i := by
  unfold Wallet.put Wallet.get
  dsimp only
  split_ifs <;> rfl

theorem get_record {new : Counts} : (w.record id refund new).1.get i =
    if i = id then
      { totalCount := (u32 new.total).toNat, weekCount := (u32 new.week).toNat
        seasonCount := (u32 ((w.get id).seasonCount +
          if refund then 0 else max 0 (i32 (new.total - (w.get id).totalCount)))).toNat }
    else w.get i := get_put

theorem weekCap_congr (h : w'.arenaCap = w.arenaCap ∧ w'.ratedBgCap = w.ratedBgCap) :
    w'.getCurrencyWeekCap cfg i = w.getCurrencyWeekCap cfg i := by
  unfold getCurrencyWeekCap
  rw [h.1, h.2]

/-- A change of one currency is done: it is fair, keeps the caps and leaves the others alone. -/
structure Done (cfg : Config) (w : Wallet) (id : UInt32) (count : ℤ) (out : Wallet × ℤ) : Prop where
  fair : Fair w out.1 id count
  counted : Counted cfg out.1
  frame : ∀ i, i ≠ id → out.1.get i = w.get i
  caps : out.1.arenaCap = w.arenaCap ∧ out.1.ratedBgCap = w.ratedBgCap
  diff : out.2 = (out.1.get id).totalCount - (w.get id).totalCount
  down : count < 0 → count ≤ out.2 ∧ out.2 ≤ 0
  up : id ≠ conquestPoints → 0 < count → 0 ≤ out.2 ∧ out.2 ≤ count

theorem done_record {new : Counts} (hcounted : Counted cfg w)
    (hlt : (w.get id).totalCount < 2 ^ 30 ∧ (w.get id).weekCount < 2 ^ 30)
    (harrives : Arrives cfg w id count refund new) :
    Done cfg w id count (w.record id refund new) := by
  obtain ⟨htotal, hweek, hcap, hweekCap, hearned, hspends, hgains, hle⟩ := harrives
  have hget : ((w.record id refund new).1.get id).totalCount = new.total ∧
      ((w.record id refund new).1.get id).weekCount = new.week := by
    rw [get_record, if_pos rfl]
    unfold u32
    dsimp only
    omega
  have hdiff : (w.record id refund new).2 = new.total - (w.get id).totalCount := by
    unfold record i32
    dsimp only
    omega
  have hgained : (w.record id refund new).1.gained id =
      w.gained id + (if refund then 0 else max 0 (new.total - (w.get id).totalCount)).toNat := by
    rw [← hdiff]
    exact if_pos rfl
  have hcaps : ∀ i, (w.record id refund new).1.getCurrencyWeekCap cfg i =
      w.getCurrencyWeekCap cfg i := fun i => weekCap_congr ⟨rfl, rfl⟩
  have hframe : ∀ i, i ≠ id → (w.record id refund new).1.get i = w.get i :=
    fun i hi => get_record.trans (if_neg hi)
  refine ⟨⟨fun hneg hcov => ?_, fun hpos => ?_⟩, ⟨fun i hi => ?_, fun i hi => ?_⟩, hframe, ⟨rfl, rfl⟩,
    ?_, fun hneg => ?_, fun hid hpos => ?_⟩
  · have := hspends hneg
    omega
  · have := hgains hpos
    omega
  · by_cases hid : i = id
    · subst hid
      have := hcap hi
      omega
    rw [hframe i hid]
    exact hcounted.total i hi
  · rw [hcaps i] at hi ⊢
    by_cases hid : i = id
    · subst hid
      have h1 := hweekCap hi
      have h2 := hearned hi
      have h3 := hcounted.week i hi
      rw [hgained]
      cases refund with
      | true =>
        rw [if_pos rfl]
        omega
      | false =>
        have h2 := h2 rfl
        rw [if_neg (by decide)]
        omega
    have hsame : (w.record id refund new).1.gained i = w.gained i := if_neg hid
    rw [hframe i hid, hsame]
    exact hcounted.week i hi
  · omega
  · have := hspends hneg
    omega
  have := hgains hpos
  have := hle hid hpos
  omega

/-- **One change, when it is regular.** -/
theorem done_modifyOne (hcfg : cfg.Small) (hcounted : Counted cfg w)
    (hlt : (w.get id).totalCount < 2 ^ 30 ∧ (w.get id).weekCount < 2 ^ 30) (hne : count ≠ 0)
    (hcount : count.natAbs < 2 ^ 30) (hreg : OneRegular cfg w id count bycurrency refund ignoreCap) :
    Done cfg w id count (w.modifyOne cfg id count bycurrency refund ignoreCap) := by
  have hfits := hcounted.fits hcfg hlt
  have harrives : Arrives cfg w id count refund
      (w.finalCounts cfg id count bycurrency refund ignoreCap) := by
    rcases lt_or_gt_of_ne hne with hneg | hpos
    · exact arrives_neg hfits hreg hneg (by omega)
    · exact arrives_pos hfits hreg hpos (by omega)
  unfold modifyOne
  split_ifs with hsame
  · have hget : ∀ i, (w.put id (w.get id)).get i = w.get i := by
      intro i
      rw [get_put]
      split_ifs with hi
      · rw [hi]
      · rfl
    refine ⟨⟨fun hneg hcov => ?_, fun hpos => ?_⟩, ⟨fun i hi => ?_, fun i hi => ?_⟩, fun i _ => hget i,
      ⟨rfl, rfl⟩, ?_, fun hneg => ⟨by omega, by omega⟩, fun hid hpos => ⟨by omega, by omega⟩⟩
    · -- a covered spending changes the total
      have hnew : w.newCounts cfg id count refund ignoreCap =
          { total := max 0 ((w.get id).totalCount + count), week := (w.get id).weekCount } :=
        stages_neg hfits hneg (by omega)
      rw [hnew] at hsame
      unfold u32 at hsame
      dsimp only at hsame
      omega
    · exact Nat.le_of_eq (by rw [hget])
    · rw [hget]
      exact hcounted.total i hi
    · rw [weekCap_congr ⟨rfl, rfl⟩] at hi ⊢
      rw [hget]
      exact hcounted.week i hi
    rw [hget]
    omega
  · exact done_record hcounted hlt harrives

/-- **A regular call**: the change is regular, and so is the one that a meta currency passes on to
the conquest points. -/
def Regular (cfg : Config) (w : Wallet) : Event → Prop
  | .modifyCurrency id count bycurrency refund ignoreCap =>
    OneRegular cfg w id count bycurrency refund ignoreCap ∧
      ((cfg.entry id).category = categoryMetaConquest →
        id = conquestMetaArena ∧ small cfg w ≤ (w.get conquestPoints).weekCount ∨
          ConquestRegular cfg w count (Wallet.byCurr id) false)
  | .resetCurrencyWeekCap _ => True

/-- **What is promised of a call**: it is fair, for the currency and for the conquest points that a
meta currency passes its change on to, and afterwards the caps hold. -/
def Sound (cfg : Config) (w : Wallet) (e : Event) : Prop :=
  Capped cfg (step cfg w e) ∧
  match e with
  | .modifyCurrency id count _ _ _ =>
    Fair w (step cfg w e) id count ∧ ((cfg.entry id).category = categoryMetaConquest →
        Fair w (step cfg w e) conquestPoints
          (((step cfg w e).get id).totalCount - (w.get id).totalCount))
  | .resetCurrencyWeekCap _ => True

theorem Fair.congr {v v' : Wallet} (h : Fair w w' id count) (hv : v.get id = w.get id)
    (hv' : v'.get id = w'.get id) : Fair v v' id count := by
  unfold Fair
  rw [hv, hv']
  exact h

theorem diff_of_arena (h : small cfg w ≤ (w.get conquestPoints).weekCount) :
    (w.modifyOne cfg conquestMetaArena count bycurrency refund ignoreCap).2 = 0 := by
  have hfinal : (w.finalCounts cfg conquestMetaArena count bycurrency refund ignoreCap).total =
      (w.get conquestMetaArena).totalCount := by
    rw [finalCounts_eq, clampArena, if_pos ⟨rfl, h⟩]
  unfold modifyOne
  split_ifs
  · rfl
  unfold record i32
  dsimp only
  rw [hfinal]
  omega

theorem oneRegular_conquest {out : Wallet × ℤ} (hcounted : Counted cfg w) (hne : count ≠ 0)
    (hid : id ≠ conquestPoints) (hdone : Done cfg w id count out)
    (hreg : ConquestRegular cfg w count bycurrency false) :
    OneRegular cfg out.1 conquestPoints out.2 bycurrency false false where
  cap _ h := by cases h
  arena h := absurd h (by decide)
  conquest _ := by
    have htotal := hcounted.total conquestPoints
    have hdown := hdone.down
    have hup := hdone.up hid
    unfold ConquestRegular small at hreg ⊢
    rw [hdone.frame _ hid.symm, weekCap_congr hdone.caps, weekCap_congr hdone.caps]
    rcases hreg with h | h | ⟨hweek, h⟩
    · exact .inl h
    · exact .inr (.inl h)
    refine .inr (.inr ⟨hweek, ?_⟩)
    rcases h with h | h | h | h
    · exact .inl h
    · exact .inr (.inl h)
    · by_cases hcap : getCurrencyTotalCap cfg conquestPoints = 0
      · exact .inl hcap
      have := htotal hcap
      refine .inr (.inr (.inl ?_))
      rcases lt_or_gt_of_ne hne with hneg | hpos
      · have := hdown hneg
        omega
      have := hup hpos
      omega
    · exact .inr (.inr (.inr h))

/-- **A regular call keeps the promise**, and the invariant. -/
theorem Counted.modifyCurrency (hcounted : Counted cfg w) (hcfg : cfg.Small)
    (hsmall : Small w (.modifyCurrency id count bycurrency refund ignoreCap))
    (hreg : Regular cfg w (.modifyCurrency id count bycurrency refund ignoreCap)) :
    Counted cfg (w.modifyCurrency cfg id count bycurrency refund ignoreCap) ∧
      Fair w (w.modifyCurrency cfg id count bycurrency refund ignoreCap) id count ∧
      ((cfg.entry id).category = categoryMetaConquest →
        Fair w (w.modifyCurrency cfg id count bycurrency refund ignoreCap) conquestPoints
          (((w.modifyCurrency cfg id count bycurrency refund ignoreCap).get id).totalCount -
            (w.get id).totalCount)) := by
  obtain ⟨hone, hmeta⟩ := hreg
  obtain ⟨hcount, hlt⟩ := hsmall
  unfold Wallet.modifyCurrency
  by_cases hzero : count = 0
  · rw [if_pos hzero]
    refine ⟨hcounted, ⟨fun h => by omega, fun h => by omega⟩, fun _ => ⟨fun h => by omega, fun h => by omega⟩⟩
  rw [if_neg hzero]
  have hdone := done_modifyOne hcfg hcounted (hlt id) hzero hcount hone
  have harena : id = conquestMetaArena ∧ small cfg w ≤ (w.get conquestPoints).weekCount →
      (w.modifyOne cfg id count bycurrency refund ignoreCap).2 = 0 := by
    rintro ⟨rfl, h⟩
    exact diff_of_arena h
  generalize w.modifyOne cfg id count bycurrency refund ignoreCap = out at hdone harena
  obtain ⟨w1, diff⟩ := out
  dsimp only at hdone harena ⊢
  split_ifs with hnested
  · obtain ⟨hcategory, hdiff⟩ := hnested
    have hid : id ≠ conquestPoints := by
      rintro rfl
      exact cfg.conquest_plain hcategory
    have hconquest : w1.get conquestPoints = w.get conquestPoints := hdone.frame _ hid.symm
    have hreg : OneRegular cfg w1 conquestPoints diff (byCurr id) false false := by
      rcases hmeta hcategory with h | h
      · exact absurd (harena h) hdiff
      · exact oneRegular_conquest hcounted hzero hid hdone h
    have hdiff' : diff.natAbs < 2 ^ 30 := by
      have hdown := hdone.down
      have hup := hdone.up hid
      dsimp only at hdown hup
      omega
    have hdone' := done_modifyOne hcfg hdone.counted (hconquest ▸ hlt conquestPoints) hdiff hdiff' hreg
    have hget := hdone'.frame id hid
    refine ⟨hdone'.counted, hdone.fair.congr rfl hget, fun _ => ?_⟩
    rw [hget, ← hdone.diff]
    exact hdone'.fair.congr hconquest.symm rfl
  refine ⟨hdone.counted, hdone.fair, fun hcategory => ?_⟩
  have hdiff : diff = 0 := by
    by_contra h
    exact hnested ⟨hcategory, h⟩
  rw [← hdone.diff]
  exact ⟨fun h => by omega, fun h => by omega⟩

theorem Counted.reset {newCap : UInt16} (h : Counted cfg w) :
    Counted cfg (w.resetCurrencyWeekCap newCap) := by
  have hget : ∀ i, (w.resetCurrencyWeekCap newCap).get i = { w.get i with weekCount := 0 } := by
    intro i
    unfold Wallet.resetCurrencyWeekCap Wallet.get
    dsimp only
    cases w.storage i <;> rfl
  refine ⟨fun i hi => ?_, fun i _ => ?_⟩
  · rw [hget]
    exact h.total i hi
  rw [hget]
  exact ⟨Nat.le_refl 0, Nat.zero_le _⟩

/-- **Caps of currencies.**  In every run of calls and weekly resets, from amounts within their
caps, in which all calls are regular, every call is fair and the caps hold after it. -/
theorem capped_of_regular (hcfg : cfg.Small) (w : Wallet) (hw : Counted cfg w) (events : List Event)
    (hsmall : Along (step cfg) Small w events) (hreg : Along (step cfg) (Regular cfg) w events) :
    Along (step cfg) (Sound cfg) w events := by
  have hstep : ∀ w e, Counted cfg w → Small w e ∧ Regular cfg w e →
      Counted cfg (step cfg w e) ∧ Sound cfg w e := by
    rintro w e hw ⟨hsmall, hreg⟩
    cases e with
    | modifyCurrency id count bycurrency refund ignoreCap =>
      obtain ⟨hcounted, hfair⟩ := hw.modifyCurrency hcfg hsmall hreg
      exact ⟨hcounted, hcounted.capped, hfair⟩
    | resetCurrencyWeekCap newCap => exact ⟨hw.reset, hw.reset.capped, trivial⟩
  exact Along.of_invariant (fun w e hw h => (hstep w e hw h).1) (fun w e hw h => (hstep w e hw h).2) hw
    (hsmall.and hreg)

/-- Conquest points with a total cap of 4000 and the two meta currencies. -/
def conquest : Config where
  entry id :=
    if id = conquestPoints then { totalCap := 400000 }
    else if id = conquestMetaArena ∨ id = conquestMetaRbg then { category := categoryMetaConquest }
    else {}
  conquest_plain := by decide

def newWallet : Wallet where
  storage _ := none

/-- A rated battleground and a weekly reset. -/
theorem capped_of_regular_week : Along (step conquest) (Sound conquest) newWallet
    [.modifyCurrency conquestMetaRbg 140000 0 false false, .resetCurrencyWeekCap 1500] := by
  have hcfg : conquest.Small := by
    intro id
    unfold getCurrencyTotalCap conquest
    dsimp only
    split_ifs <;> decide
  have hsmall : (0 : ℕ) < 2 ^ 30 ∧ (0 : ℕ) < 2 ^ 30 := by decide
  refine capped_of_regular hcfg _ ⟨fun i _ => Nat.zero_le _, fun i _ => ⟨Nat.le_refl 0, Nat.zero_le _⟩⟩
    _ ⟨⟨by decide, fun _ => hsmall⟩, trivial, trivial⟩ ⟨⟨⟨?_, ?_, ?_⟩, ?_⟩, trivial, trivial⟩
  · intro _ h
    cases h
  · intro h
    exact absurd h (by decide)
  · intro h
    exact absurd h (by decide)
  · exact fun _ => .inr (.inl rfl)

/-- 1400 points from a rated battleground, above the cap of 1350 for arenas, of which 1 is spent:
50 are taken. -/
theorem spending_takes_more :
    ((step conquest newWallet (.modifyCurrency conquestMetaRbg 140000 0 false false)).get
        conquestPoints).totalCount = 140000 ∧
      (([.modifyCurrency conquestMetaRbg 140000 0 false false,
          .modifyCurrency conquestPoints (-100) 0 false false].foldl (step conquest) newWallet).get
        conquestPoints).totalCount = 135000 ∧ ¬ Along (step conquest) (Sound conquest) newWallet
        [.modifyCurrency conquestMetaRbg 140000 0 false false,
          .modifyCurrency conquestPoints (-100) 0 false false] := by
  refine ⟨by decide +kernel, by decide +kernel, fun h => ?_⟩
  obtain ⟨-, ⟨-, hfair, -⟩, -⟩ := h
  have htaken := hfair.1 (by decide) (by decide +kernel)
  revert htaken
  decide +kernel

end ZerosCore.Currency
