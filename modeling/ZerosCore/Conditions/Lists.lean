/-
# Condition lists and their reference templates

A list of conditions holds for an object when every condition of one of its else groups does
(`ConditionMgr::IsObjectMeetToConditionList`, `src/server/game/Conditions/ConditionMgr.cpp`); a
condition can refer to a list of the reference templates, which is evaluated in its place.
`LoadConditions` leaves out a row by which a template refers to itself, and no other circle.

What is evaluated to its end is right, whatever the order of the rows (`evaluated_iff`); but only
the lists from which no endless chain of references starts are evaluated to their end for every
object (`meet_iff_grounded`).
-/

import ZerosCore.Lib.Fuel
import ZerosCore.Lib.Keyed

namespace ZerosCore.Conditions

open Lib List Option Keyed

/-- A row of the table, `data` being the columns that only the checks and `Meets` read. -/
structure Row (α : Type) where
  sourceTypeOrReferenceId : ℤ
  elseGroup : ℕ
  conditionTypeOrReference : ℤ
  data : α

/-- A condition in memory; `conditionType` is 0, `CONDITION_NONE`, for a reference. -/
structure Condition (α : Type) where
  sourceType : ℕ
  elseGroup : ℕ
  conditionType : ℕ
  referenceId : ℕ
  data : α
deriving DecidableEq

def CONDITION_MAX : ℕ := 39

/-- What the loader and the evaluation take from elsewhere: the checks on the values of a condition
type, and whether a row that is no template is put into a list of its source. -/
structure Checks (α : Type) where
  valuesValid : Condition α → Bool
  stored : Condition α → Bool

variable {α : Type} {checks : Checks α} {rows rows' : List (Row α)}

namespace Condition

def isLoaded (c : Condition α) : Bool := 0 < c.conditionType || c.referenceId ≠ 0

def isConditionTypeValid (checks : Checks α) (c : Condition α) : Bool :=
  if c.conditionType = 0 ∨ CONDITION_MAX ≤ c.conditionType then false else checks.valuesValid c

end Condition

def Row.condition (row : Row α) : Condition α where
  sourceType := if 0 ≤ row.sourceTypeOrReferenceId then row.sourceTypeOrReferenceId.toNat else 0
  elseGroup := row.elseGroup
  conditionType :=
    if 0 ≤ row.conditionTypeOrReference then row.conditionTypeOrReference.toNat else 0
  referenceId :=
    if row.conditionTypeOrReference < 0 then row.conditionTypeOrReference.natAbs else 0
  data := row.data

/-- One turn of the loop of `LoadConditions`: the template the condition goes to, 0 for a list of
its source, or nothing if the row is skipped. -/
def Row.load (checks : Checks α) (row : Row α) : Option (ℕ × Condition α) :=
  if row.conditionTypeOrReference < 0 ∧
      row.conditionTypeOrReference = row.sourceTypeOrReferenceId then none -- self referencing
  else if 0 ≤ row.conditionTypeOrReference ∧ !row.condition.isConditionTypeValid checks then none
  else if row.sourceTypeOrReferenceId < 0 then
    some (row.sourceTypeOrReferenceId.natAbs, row.condition)
  else if checks.stored row.condition then some (0, row.condition)
  else none

/-- The conditions that `LoadConditions` puts under one template (under 0, into the lists of the
sources), in the order of the rows. -/
def loadConditions (checks : Checks α) (rows : List (Row α)) (id : ℕ) : List (Condition α) :=
  (rows.filterMap fun row => row.load checks).filterMap fun entry =>
    if entry.1 = id then some entry.2 else none

theorem mem_loadConditions {id : ℕ} {c : Condition α} :
    c ∈ loadConditions checks rows id ↔ ∃ row ∈ rows, row.load checks = some (id, c) := by
  constructor
  · intro h
    obtain ⟨⟨id', c'⟩, hentry, hid⟩ := mem_filterMap.mp h
    obtain ⟨row, hrow, hload⟩ := mem_filterMap.mp hentry
    grind
  rintro ⟨row, hrow, hload⟩
  exact mem_filterMap.mpr ⟨(id, c), mem_filterMap.mpr ⟨row, hrow, hload⟩, if_pos rfl⟩

theorem isLoaded_of_mem {id : ℕ} {c : Condition α} (h : c ∈ loadConditions checks rows id) :
    c.isLoaded = true := by
  obtain ⟨row, -, hload⟩ := mem_loadConditions.mp h
  have hc : c = row.condition := by grind [Row.load]
  have hvalid : 0 ≤ row.conditionTypeOrReference → row.condition.isConditionTypeValid checks := by
    grind [Row.load]
  subst hc
  by_cases hsign : 0 ≤ row.conditionTypeOrReference
  · have := hvalid hsign
    grind [Condition.isConditionTypeValid, Condition.isLoaded]
  have hreference : row.condition.referenceId ≠ 0 := by
    unfold Row.condition
    simp only [not_le.mp hsign, if_true]
    omega
  simp [Condition.isLoaded, hreference]

/-! ### Evaluation -/

/-- `ElseGroupStore`: the groups met so far, and whether they have passed. -/
abbrev ElseGroupStore : Type := Table (Prod.fst : ℕ × Bool → ℕ)

variable {references references' : ℕ → List (Condition α)} {meets : Condition α → Bool}
  {conditions conditions' : List (Condition α)} {c d : Condition α} {fuel n m : ℕ} {b : Bool}

/-- What one condition comes to, for the value `list` of a list: a template without conditions is
not in the store, and passes. -/
def Condition.value (references : ℕ → List (Condition α)) (meets : Condition α → Bool)
    (list : List (Condition α) → Option Bool) (c : Condition α) : Option Bool :=
  if c.referenceId ≠ 0 then
    match references c.referenceId with
    | [] => some true
    | conditions => list conditions
  else some (meets c)

/-- One turn of the loop over the conditions: a group that has failed is skipped. -/
def checkCondition (value : Condition α → Option Bool) (store : ElseGroupStore)
    (c : Condition α) : Option ElseGroupStore :=
  if !c.isLoaded then some store
  else
    match store.get? c.elseGroup with
    | some (_, false) => some store
    | _ => do
      let passed ← value c
      some (store.put (c.elseGroup, passed))

/-- `ConditionMgr::IsObjectMeetToConditionList` for an object that `meets` tells of, or nothing if
the fuel is used up. -/
def isObjectMeetToConditionList (references : ℕ → List (Condition α))
    (meets : Condition α → Bool) : ℕ → List (Condition α) → Option Bool
  | 0, _ => none
  | fuel + 1, conditions => do
    let store ← conditions.foldlM (checkCondition (Condition.value references meets
      (isObjectMeetToConditionList references meets fuel))) (.empty _)
    some (store.rows.any Prod.snd)

/-! ### What a list says -/

/-- A condition is met: by the object, by one else group of the template it refers to, or because
there is no such template. -/
inductive Met (references : ℕ → List (Condition α)) (meets : Condition α → Bool) :
    Condition α → Prop
  | leaf {c : Condition α} (h : c.referenceId = 0) (hmeets : meets c = true) : Met references meets c
  | missing {c : Condition α} (h : c.referenceId ≠ 0) (hnil : references c.referenceId = []) :
      Met references meets c
  | template {c d : Condition α} (h : c.referenceId ≠ 0) (hd : d ∈ references c.referenceId)
      (hgroup : ∀ e ∈ references c.referenceId, e.elseGroup = d.elseGroup →
        Met references meets e) : Met references meets c

/-- **What a list says**: all conditions of one of its else groups are met. -/
def Holds (references : ℕ → List (Condition α)) (meets : Condition α → Bool)
    (conditions : List (Condition α)) : Prop :=
  ∃ d ∈ conditions, ∀ e ∈ conditions, e.elseGroup = d.elseGroup → Met references meets e

/-- The second condition refers to the template of the first. -/
def RefersTo (references : ℕ → List (Condition α)) (d c : Condition α) : Prop :=
  c.referenceId ≠ 0 ∧ d ∈ references c.referenceId

/-- No endless chain of references starts from the list. -/
def Grounded (references : ℕ → List (Condition α)) (conditions : List (Condition α)) : Prop :=
  ∀ c ∈ conditions, Acc (RefersTo references) c

theorem met_reference (h : c.referenceId ≠ 0) (hne : references c.referenceId ≠ []) :
    Met references meets c ↔ Holds references meets (references c.referenceId) := by
  constructor
  · rintro (⟨h', -⟩ | ⟨-, hnil⟩ | @⟨_, d, -, hd, hgroup⟩)
    · exact absurd h' h
    · exact absurd hnil hne
    · exact ⟨d, hd, hgroup⟩
  rintro ⟨d, hd, hgroup⟩
  exact .template h hd hgroup

section

variable (hmem : ∀ id c, c ∈ references id ↔ c ∈ references' id)

include hmem

theorem Met.congr (h : Met references meets c) : Met references' meets c := by
  induction h with
  | leaf h hmeets => exact .leaf h hmeets
  | missing h hnil =>
    refine .missing h (eq_nil_iff_forall_not_mem.mpr fun d hd => ?_)
    rw [← hmem, hnil] at hd
    exact not_mem_nil hd
  | template h hd _ ih =>
    exact .template h ((hmem _ _).mp hd) fun e he => ih e ((hmem _ _).mpr he)

theorem holds_congr (hlist : ∀ c, c ∈ conditions ↔ c ∈ conditions') :
    Holds references meets conditions ↔ Holds references' meets conditions' := by
  have hmet : ∀ c, Met references meets c ↔ Met references' meets c := fun c =>
    ⟨Met.congr hmem, Met.congr fun id c => (hmem id c).symm⟩
  simp only [Holds, hlist, hmet]

theorem grounded_congr (hlist : ∀ c, c ∈ conditions ↔ c ∈ conditions') :
    Grounded references conditions ↔ Grounded references' conditions' := by
  have hrefers : RefersTo references = RefersTo references' := by
    funext d c
    simp only [RefersTo, hmem]
  simp only [Grounded, hlist, hrefers]

end

/-! ### What is evaluated is right -/

variable {value : Condition α → Option Bool} {list : List (Condition α) → Option Bool}
  {store store' : ElseGroupStore} {done : List (Condition α)}

/-- The store holds the groups of the conditions so far, and whether all of these are met. -/
def Told (references : ℕ → List (Condition α)) (meets : Condition α → Bool)
    (done : List (Condition α)) (store : ElseGroupStore) : Prop :=
  ∀ group b, (group, b) ∈ store.rows ↔ (∃ c ∈ done, c.elseGroup = group) ∧
    (b = true ↔ ∀ c ∈ done, c.elseGroup = group → Met references meets c)

theorem value_iff (hlist : ∀ b, list (references c.referenceId) = some b →
      (b = true ↔ Holds references meets (references c.referenceId)))
    (h : c.value references meets list = some b) : b = true ↔ Met references meets c := by
  unfold Condition.value at h
  split at h
  · rename_i hreference
    split at h
    · rename_i hnil
      cases h
      exact iff_of_true rfl (.missing hreference hnil)
    rename_i hne
    rw [hlist b h, met_reference hreference hne]
  rename_i hreference
  cases h
  refine ⟨fun hmeets => .leaf (not_not.mp hreference) hmeets, ?_⟩
  rintro (⟨-, hmeets⟩ | ⟨h', -⟩ | ⟨h', -⟩)
  · exact hmeets
  · exact absurd h' hreference
  · exact absurd h' hreference

/-- One more condition of a list is put into the store. -/
theorem Told.step (h : Told references meets done store) (hloaded : c.isLoaded = true)
    (hvalue : ∀ b, value c = some b → (b = true ↔ Met references meets c))
    (hstep : checkCondition value store c = some store') :
    Told references meets (done ++ [c]) store' := by
  unfold checkCondition at hstep
  rw [hloaded] at hstep
  intro group b
  simp only [mem_append, mem_singleton]
  split at hstep
  · contradiction
  split at hstep
  · rename_i g hget
    cases hstep
    obtain ⟨hmem, rfl⟩ := Table.get?_eq_some.mp hget
    have hfailed := (h _ false).mp hmem
    have := h group b
    grind
  rename_i hget
  obtain ⟨passed, hpassed, hput⟩ := bind_eq_some_iff.mp hstep
  cases hput
  have hmet := hvalue passed hpassed
  have hopen : ∀ d ∈ done, d.elseGroup = c.elseGroup → Met references meets d := by
    intro d hd hgroup
    by_contra hnot
    refine hget c.elseGroup (Table.get?_eq_some.mpr ⟨(h _ false).mpr ⟨⟨d, hd, hgroup⟩, ?_⟩, rfl⟩)
    exact iff_of_false (by decide) fun hall => hnot (hall d hd hgroup)
  rw [Table.mem_rows_put, h group b]
  grind

/-- By induction the whole list is. -/
theorem Told.run (hvalue : ∀ c b, value c = some b → (b = true ↔ Met references meets c))
    (hloaded : ∀ c ∈ conditions, c.isLoaded = true) (h : Told references meets done store)
    (hrun : conditions.foldlM (checkCondition value) store = some store') :
    Told references meets (done ++ conditions) store' := by
  induction conditions generalizing done store with
  | nil =>
    cases hrun
    rwa [append_nil]
  | cons c conditions ih =>
    rw [foldlM_cons] at hrun
    obtain ⟨middle, hstep, hrest⟩ := bind_eq_some_iff.mp hrun
    have htold := h.step (hloaded c mem_cons_self) (hvalue c) hstep
    have := ih (fun d hd => hloaded d (mem_cons_of_mem c hd)) htold hrest
    rwa [append_assoc] at this

/-- **What is evaluated to its end is right**, whichever rows were skipped on the way. -/
theorem evaluated_iff (hreferences : ∀ id, ∀ c ∈ references id, c.isLoaded = true)
    (hloaded : ∀ c ∈ conditions, c.isLoaded = true)
    (h : isObjectMeetToConditionList references meets fuel conditions = some b) :
    b = true ↔ Holds references meets conditions := by
  induction fuel generalizing conditions b with
  | zero => cases h
  | succ fuel ih =>
    obtain ⟨store, hrun, hany⟩ := bind_eq_some_iff.mp h
    cases hany
    have hvalue : ∀ c b, Condition.value references meets
        (isObjectMeetToConditionList references meets fuel) c = some b →
          (b = true ↔ Met references meets c) := fun c b hc =>
      value_iff (fun b hb => ih (hreferences c.referenceId) hb) hc
    have htold : Told references meets [] (Table.empty Prod.fst) := by
      intro group b
      simp [Table.empty]
    have hfinal := htold.run hvalue hloaded hrun
    rw [nil_append] at hfinal
    rw [List.any_eq_true]
    constructor
    · rintro ⟨⟨group, passed⟩, hmem, rfl⟩
      obtain ⟨⟨d, hd, rfl⟩, hall⟩ := (hfinal group true).mp hmem
      exact ⟨d, hd, hall.mp rfl⟩
    rintro ⟨d, hd, hall⟩
    exact ⟨(d.elseGroup, true), (hfinal _ _).mpr ⟨⟨d, hd, rfl⟩, iff_of_true rfl hall⟩, rfl⟩

/-! ### What is evaluated to its end -/

theorem Refines.conditionValue {list' : List (Condition α) → Option Bool}
    (h : ∀ l, Refines (list l) (list' l)) (c : Condition α) :
    Refines (c.value references meets list) (c.value references meets list') := by
  unfold Condition.value
  split
  · split
    · exact .refl _
    · exact h _
  · exact .refl _

theorem Refines.checkCondition {value' : Condition α → Option Bool}
    (h : ∀ c, Refines (value c) (value' c)) (store : ElseGroupStore) (c : Condition α) :
    Refines (checkCondition value store c) (checkCondition value' store c) := by
  unfold Conditions.checkCondition
  split
  · exact .refl _
  split
  · exact .refl _
  · exact .bind (h c) fun _ => .refl _

theorem evaluated_mono (hle : n ≤ m) (conditions : List (Condition α)) :
    Refines (isObjectMeetToConditionList references meets n conditions)
      (isObjectMeetToConditionList references meets m conditions) := by
  refine @Refines.of_succ _ (isObjectMeetToConditionList references meets · conditions)
    (fun n => ?_) _ _ hle
  induction n generalizing conditions with
  | zero =>
    intro b hb
    cases hb
  | succ n ih =>
    exact .bind (.foldlM (Refines.checkCondition (Refines.conditionValue ih)) _ _) fun _ => .refl _

theorem exists_fuel_list (h : ∀ c ∈ conditions, ∃ n,
      (c.value references meets (isObjectMeetToConditionList references meets n)).isSome) :
    ∃ n, (isObjectMeetToConditionList references meets n conditions).isSome := by
  have hloop := @exists_fuel_foldlM _ _ (fun n => checkCondition (Condition.value references
      meets (isObjectMeetToConditionList references meets n)))
    (fun n m hle => Refines.checkCondition (Refines.conditionValue (evaluated_mono hle))) conditions
    (fun c hc store => ?_) (.empty _)
  · obtain ⟨n, hn⟩ := hloop
    obtain ⟨store, hstore⟩ := isSome_iff_exists.mp hn
    exact ⟨n + 1, by simp [isObjectMeetToConditionList, hstore]⟩
  obtain ⟨n, hn⟩ := h c hc
  obtain ⟨b, hb⟩ := isSome_iff_exists.mp hn
  refine ⟨n, ?_⟩
  unfold checkCondition
  split
  · rfl
  split
  · rfl
  rw [hb]
  rfl

theorem exists_fuel_value (h : Acc (RefersTo references) c) :
    ∃ n, (c.value references meets (isObjectMeetToConditionList references meets n)).isSome := by
  induction h with
  | intro c _ ih =>
    unfold Condition.value
    split
    · rename_i hreference
      split
      · exact ⟨0, rfl⟩
      · exact exists_fuel_list fun d hd => ih d ⟨hreference, hd⟩
    · exact ⟨0, rfl⟩

/-- An object that meets every condition is met wherever no endless chain starts. -/
theorem met_of_acc (h : Acc (RefersTo references) c) : Met references (fun _ => true) c := by
  induction h with
  | intro c _ ih =>
    by_cases hreference : c.referenceId = 0
    · exact .leaf hreference rfl
    cases hrow : references c.referenceId with
    | nil => exact .missing hreference hrow
    | cons d rows =>
      have hd : d ∈ references c.referenceId := hrow ▸ mem_cons_self
      exact .template hreference hd fun e he _ => ih e ⟨hreference, he⟩

/-- Where every condition passes, none is skipped, and every one has come to an end. -/
theorem acc_of_run (hvalue : ∀ c ∈ conditions, ∀ b, value c = some b →
      Acc (RefersTo references) c ∧ b = true)
    (hloaded : ∀ c ∈ conditions, c.isLoaded = true) (hstore : ∀ p ∈ store.rows, p.2 = true)
    (hrun : conditions.foldlM (checkCondition value) store = some store') :
    Grounded references conditions := by
  induction conditions generalizing store with
  | nil => exact fun c hc => absurd hc not_mem_nil
  | cons c conditions ih =>
    rw [foldlM_cons] at hrun
    obtain ⟨middle, hstep, hrest⟩ := bind_eq_some_iff.mp hrun
    unfold checkCondition at hstep
    rw [hloaded c mem_cons_self] at hstep
    split at hstep
    · contradiction
    split at hstep
    · rename_i g hget
      cases hstore _ (Table.get?_eq_some.mp hget).1
    obtain ⟨passed, hpassed, hput⟩ := bind_eq_some_iff.mp hstep
    cases hput
    obtain ⟨hacc, rfl⟩ := hvalue c mem_cons_self passed hpassed
    have hmiddle : ∀ p ∈ (store.put (c.elseGroup, true)).rows, p.2 = true := by
      intro p hp
      obtain rfl | ⟨hp, -⟩ := Table.mem_rows_put.mp hp
      · rfl
      · exact hstore p hp
    have hgrounded := ih (fun d hd => hvalue d (mem_cons_of_mem c hd))
      (fun d hd => hloaded d (mem_cons_of_mem c hd)) hmiddle hrest
    exact forall_mem_cons.mpr ⟨hacc, hgrounded⟩

theorem grounded_of_evaluated (hreferences : ∀ id, ∀ c ∈ references id, c.isLoaded = true)
    (hloaded : ∀ c ∈ conditions, c.isLoaded = true)
    (h : isObjectMeetToConditionList references (fun _ => true) fuel conditions = some b) :
    Grounded references conditions := by
  induction fuel generalizing conditions b with
  | zero => cases h
  | succ fuel ih =>
    obtain ⟨store, hrun, -⟩ := bind_eq_some_iff.mp h
    refine acc_of_run (fun c _ b hb => ?_) hloaded (by simp [Table.empty]) hrun
    have hacc : Acc (RefersTo references) c := by
      refine ⟨_, fun d h => ?_⟩
      obtain ⟨hreference, hd⟩ := h
      unfold Condition.value at hb
      rw [if_pos hreference] at hb
      split at hb
      · rename_i hnil
        rw [hnil] at hd
        cases hd
      · exact ih (hreferences c.referenceId) hb d hd
    refine ⟨hacc, (value_iff (fun b' hb' => ?_) hb).mpr (met_of_acc hacc)⟩
    exact evaluated_iff hreferences (hreferences c.referenceId) hb'

/-- What evaluating the list is to be, in whatever order the rows come: it ends, and says what the
list says. -/
def Right (checks : Checks α) (rows : List (Row α)) (conditions : List (Condition α)) : Prop :=
  ∀ rows' conditions', rows'.Perm rows → conditions'.Perm conditions → ∀ meets, ∃ fuel b,
    isObjectMeetToConditionList (loadConditions checks rows') meets fuel conditions' = some b ∧
      (b = true ↔ Holds (loadConditions checks rows) meets conditions)

/-- **A list is evaluated right for every object just when no endless chain of references starts
from it.** -/
theorem meet_iff_grounded (checks : Checks α) (rows : List (Row α))
    (conditions : List (Condition α))
    (haccepted : ∀ c ∈ conditions, ∃ id, c ∈ loadConditions checks rows id) :
    Right checks rows conditions ↔ Grounded (loadConditions checks rows) conditions := by
  have hreferences : ∀ rows : List (Row α), ∀ id, ∀ c ∈ loadConditions checks rows id,
      c.isLoaded = true := fun rows id c hc => isLoaded_of_mem hc
  have hloaded : ∀ c ∈ conditions, c.isLoaded = true := by
    intro c hc
    obtain ⟨id, hid⟩ := haccepted c hc
    exact isLoaded_of_mem hid
  constructor
  · intro h
    obtain ⟨fuel, b, hb, -⟩ := h rows conditions (.refl _) (.refl _) fun _ => true
    exact grounded_of_evaluated (hreferences rows) hloaded hb
  intro h rows' conditions' hrows hconditions meets
  have hmem : ∀ id c, c ∈ loadConditions checks rows' id ↔ c ∈ loadConditions checks rows id := by
    intro id c
    simp only [mem_loadConditions, hrows.mem_iff]
  have hgrounded := (grounded_congr hmem fun c => hconditions.mem_iff).mpr h
  obtain ⟨fuel, hfuel⟩ : ∃ n, (isObjectMeetToConditionList _ meets n conditions').isSome :=
    exists_fuel_list fun c hc => exists_fuel_value (hgrounded c hc)
  obtain ⟨b, hb⟩ := isSome_iff_exists.mp hfuel
  refine ⟨fuel, b, hb, ?_⟩
  rw [evaluated_iff (hreferences rows') (fun c hc => hloaded c (hconditions.mem_iff.mp hc)) hb]
  exact holds_congr hmem fun c => hconditions.mem_iff

/-- Every value is taken, and every row stored. -/
def anything : Checks Unit := ⟨fun _ => true, fun _ => true⟩

/-- A row that refers to a template with a condition of its own. -/
def straight : List (Row Unit) := [⟨1, 0, -1, ()⟩, ⟨-1, 0, 6, ()⟩]

theorem straight_grounded :
    (∀ c ∈ loadConditions anything straight 0, ∃ id, c ∈ loadConditions anything straight id) ∧
      (Right anything straight (loadConditions anything straight 0) ↔
        Grounded (loadConditions anything straight) (loadConditions anything straight 0)) :=
  ⟨fun _ hc => ⟨0, hc⟩, meet_iff_grounded _ _ _ fun _ hc => ⟨0, hc⟩⟩

/-- A row that refers to a template, which refers to another, which refers back. -/
def circle : List (Row Unit) := [⟨1, 0, -1, ()⟩, ⟨-1, 0, -2, ()⟩, ⟨-2, 0, -1, ()⟩]

theorem not_acc_of_circle (h : RefersTo references d c) (h' : RefersTo references c d) :
    ¬ Acc (RefersTo references) c := by
  intro hacc
  induction hacc generalizing d with
  | intro c _ ih => exact ih d h h' h

/-- **Two templates that refer to each other are accepted, and never evaluated to an end.** -/
theorem circle_accepted : ¬ Right anything circle (loadConditions anything circle 0) := by
  intro h
  obtain ⟨fuel, b, hb, -⟩ := h circle _ (.refl _) (.refl _) fun _ => true
  have hgrounded := grounded_of_evaluated (fun _ _ hc => isLoaded_of_mem hc)
    (fun _ hc => isLoaded_of_mem hc) hb
  have hacc := (hgrounded ⟨1, 0, 0, 1, ()⟩ (by decide)).inv (y := ⟨0, 0, 0, 2, ()⟩) ⟨by decide, by decide⟩
  exact not_acc_of_circle (d := ⟨0, 0, 0, 1, ()⟩) ⟨by decide, by decide⟩ ⟨by decide, by decide⟩ hacc

end ZerosCore.Conditions
