/-
# Loot templates that refer to each other

`LootTemplate::Process` rolls the templates that a template refers to, and these those that they
refer to.  `IsValid` and `CheckLootRefs` ask whether a template that is referred to exists
(`LootTemplate::Verify` leaves the validity of references to be done): a template may refer to
itself.

A template is rolled to its end, whatever the draws, just when no endless chain of references
starts from it that a run can follow; and the search for quest drops ends just when no endless
chain starts from it of references that it searches (`templates_end_iff`).
-/

import ZerosCore.Loots.Templates
import ZerosCore.Lib.Fuel
import Mathlib.Order.OrderIsoNat

namespace ZerosCore.Loots.Templates

open Lib List Option LootTemplate Refines Templates.LootStoreItem

variable {w : World} {dice : ℕ → Draw} {references store : LootTemplateMap} {rate : Bool}
  {lootMode : UInt16} {t t' : LootTemplate} {i : LootStoreItem} {s s' : Fill} {groupId fuel n : ℕ}
  {wanted : LootStoreItem → Bool} {process : LootTemplate → ℕ → Fill → Option Fill}

/-! ### More fuel -/

theorem Refines.times {f g : Fill → Option Fill} (h : ∀ s, Refines (f s) (g s)) (n : ℕ) (s : Fill) :
    Refines (times f n s) (times g n s) := by
  induction n generalizing s with
  | zero => exact refl _
  | succ n ih => exact bind (h s) ih

theorem Refines.processEntry {process' : LootTemplate → ℕ → Fill → Option Fill}
    (h : ∀ t groupId s, Refines (process t groupId s) (process' t groupId s)) (s : Fill)
    (i : LootStoreItem) : Refines (processEntry w dice references process rate lootMode s i)
      (processEntry w dice references process' rate lootMode s i) := by
  unfold Templates.processEntry
  dsimp only
  split
  · exact refl _
  split
  · exact refl _
  split
  · exact refl _
  split
  · split
    · exact refl _
    · exact times (h _ _) _ _
  · exact refl _

theorem process_succ (fuel : ℕ) (t : LootTemplate) (groupId : ℕ) (s : Fill) :
    Refines (t.process w dice references rate lootMode fuel groupId s)
      (t.process w dice references rate lootMode (fuel + 1) groupId s) := by
  induction fuel generalizing t groupId s with
  | zero =>
    intro x hx
    cases hx
  | succ fuel ih =>
    unfold process
    split
    · exact Refines.refl _
    · exact (Refines.foldlM (Refines.processEntry ih) t.entries s).map _

theorem process_mono {m : ℕ} (hle : n ≤ m) (t : LootTemplate) (groupId : ℕ) (s : Fill) :
    Refines (t.process w dice references rate lootMode n groupId s)
      (t.process w dice references rate lootMode m groupId s) :=
  of_succ (fun fuel => process_succ fuel t groupId s) hle

/-! ### References that a run can follow -/

/-- An entry is a reference to a whole template that a run can follow: the mode fits, it can be
rolled, and it is rolled at least once. -/
structure Followed (w : World) (rate : Bool) (lootMode : UInt16) (i : LootStoreItem) : Prop where
  reference : i.mincountOrRef < 0
  whole : i.group = 0
  mode : i.lootmode &&& ~~~lootMode = 0
  chance : 100 ≤ i.chance ∨ 0 < i.chance * if rate then w.rateReferenced else 1
  multiplicity : 0 < i.multiplicity w

/-- The second template refers to the first, and a run can follow. -/
def RefersTo (w : World) (references : LootTemplateMap) (rate : Bool) (lootMode : UInt16)
    (t' t : LootTemplate) : Prop :=
  ∃ i ∈ t.entries, Followed w rate lootMode i ∧ references.lookup i.reference = some t'

theorem searchDropped_eq_nil (proto : ItemTemplate) (itemid : UInt32) (counter : ℕ)
    (items : List LootItem) : searchDropped proto itemid counter items = [] := by
  induction items generalizing counter with
  | nil => rfl
  | cons it items ih =>
    unfold searchDropped
    simp only [ih, ite_self]

theorem processEntry_eq (s : Fill) (i : LootStoreItem) :
    processEntry w dice references process rate lootMode s i =
      if i.lootmode &&& ~~~lootMode ≠ 0 then some s
      else if !(i.roll w dice rate s).1 then some (i.roll w dice rate s).2
      else if i.mincountOrRef < 0 then
        match references.lookup i.reference with
        | none => some (i.roll w dice rate s).2
        | some referenced =>
          times (process referenced i.group) (i.multiplicity w) (i.roll w dice rate s).2
      else some ((i.roll w dice rate s).2.addItem w dice false i) := by
  have hnil : ((w.getItemTemplate i.itemid).elim []
      fun proto => searchDropped proto i.itemid 0 (i.roll w dice rate s).2.loot.items) = [] := by
    cases w.getItemTemplate i.itemid with
    | none => rfl
    | some proto => exact searchDropped_eq_nil proto i.itemid 0 _
  unfold processEntry
  dsimp only
  generalize ((w.getItemTemplate i.itemid).elim [] fun proto =>
    searchDropped proto i.itemid 0 (i.roll w dice rate s).2.loot.items) = dropped at hnil ⊢
  subst hnil
  rfl

theorem roll_chance (hreference : i.mincountOrRef < 0) (h : (i.roll w dice rate s).1 = true) :
    100 ≤ i.chance ∨ 0 < i.chance * if rate then w.rateReferenced else 1 := by
  unfold roll at h
  by_cases hall : i.chance ≥ 100
  · exact .inl hall
  rw [if_neg hall, if_pos hreference] at h
  have hroll := of_decide_eq_true h
  exact .inr (lt_of_le_of_lt (dice s.drawn).nonneg hroll)

/-- The draw with which every chance is taken. -/
def lowest : Draw := ⟨0, 0, le_refl 0, by norm_num⟩

theorem roll_lowest (h : Followed w rate lootMode i) (s : Fill) :
    (i.roll w (fun _ => lowest) rate s).1 = true := by
  unfold roll
  by_cases hall : i.chance ≥ 100
  · rw [if_pos hall]
  rw [if_neg hall, if_pos h.reference]
  exact decide_eq_true (h.chance.resolve_left hall)

theorem exists_fuel_times {f : ℕ → Fill → Option Fill}
    (hmono : ∀ n m, n ≤ m → ∀ s, Refines (f n s) (f m s)) (h : ∀ s, ∃ n, (f n s).isSome) (k : ℕ)
    (s : Fill) : ∃ n, (times (f n) k s).isSome := by
  induction k generalizing s with
  | zero => exact ⟨0, rfl⟩
  | succ k ih =>
    obtain ⟨n, hn⟩ := h s
    obtain ⟨s', hs'⟩ := isSome_iff_exists.mp hn
    obtain ⟨m, hm⟩ := ih s'
    refine ⟨max n m, ?_⟩
    unfold times
    rw [hmono n _ (le_max_left n m) s s' hs']
    exact (Refines.times (hmono m _ (le_max_right n m)) k s').isSome hm

/-- **A template without an endless chain is rolled to its end**, by induction on the templates
that can be reached. -/
theorem process_ends (h : Acc (RefersTo w references rate lootMode) t) (dice : ℕ → Draw)
    (groupId : ℕ) (s : Fill) :
    ∃ fuel, (t.process w dice references rate lootMode fuel groupId s).isSome := by
  induction h generalizing groupId s with
  | intro t _ ih =>
    by_cases hgroup : groupId ≠ 0
    · refine ⟨1, ?_⟩
      unfold process
      rw [if_pos hgroup]
      cases t.groups[groupId - 1]? with
      | none => rfl
      | some g => rfl
    suffices hloop : ∃ fuel, (t.entries.foldlM (processEntry w dice references
        (process w dice references rate lootMode fuel) rate lootMode) s).isSome by
      obtain ⟨fuel, hfuel⟩ := hloop
      refine ⟨fuel + 1, ?_⟩
      unfold process
      rw [if_neg hgroup, isSome_map]
      exact hfuel
    · refine exists_fuel_foldlM (fun n m hle => Refines.processEntry (process_mono hle))
        t.entries (fun i hi s => ?_) s
      simp only [processEntry_eq]
      by_cases hmode : i.lootmode &&& ~~~lootMode ≠ 0
      · exact ⟨0, by rw [if_pos hmode]; rfl⟩
      simp only [if_neg hmode]
      cases hroll : (i.roll w dice rate s).1 with
      | false => exact ⟨0, rfl⟩
      | true =>
        by_cases hreference : i.mincountOrRef < 0
        · simp only [if_pos hreference]
          cases hlookup : references.lookup i.reference with
          | none => exact ⟨0, rfl⟩
          | some referenced =>
            have hcall (s : Fill) : 0 < i.multiplicity w →
                ∃ fuel, (referenced.process w dice references rate lootMode fuel i.group
                  s).isSome := by
              intro hmany
              by_cases hwhole : i.group = 0
              · refine ih referenced ⟨i, hi, ⟨hreference, hwhole, not_not.mp hmode,
                  roll_chance hreference hroll, hmany⟩, hlookup⟩ i.group s
              refine ⟨1, ?_⟩
              unfold process
              rw [if_pos hwhole]
              cases referenced.groups[i.group - 1]? with
              | none | some g => rfl
            rcases Nat.eq_zero_or_pos (i.multiplicity w) with hzero | hmany
            · refine ⟨0, ?_⟩
              rw [hzero]
              rfl
            exact exists_fuel_times
              (f := fun fuel => referenced.process w dice references rate lootMode fuel i.group)
              (fun n m hle => process_mono hle referenced i.group)
              (fun s => hcall s hmany) (i.multiplicity w) _
        simp only [if_neg hreference]
        exact ⟨0, rfl⟩

/-- **A template with an endless chain is not rolled to its end** when every chance is taken, by
induction on the fuel. -/
theorem process_endless (h : ¬Acc (RefersTo w references rate lootMode) t) (fuel : ℕ) (s : Fill) :
    t.process w (fun _ => lowest) references rate lootMode fuel 0 s = none := by
  induction fuel generalizing t s with
  | zero => rfl
  | succ fuel ih =>
    obtain ⟨t', ⟨i, hi, hfollowed, hlookup⟩, hacc⟩ :
        ∃ t', RefersTo w references rate lootMode t' t ∧
          ¬Acc (RefersTo w references rate lootMode) t' := by
      by_contra hnone
      refine h ⟨t, fun t' ht' => ?_⟩
      by_contra hacc
      exact hnone ⟨t', ht', hacc⟩
    have hentry (s : Fill) : processEntry w (fun _ => lowest) references
        (process w (fun _ => lowest) references rate lootMode fuel) rate lootMode s i = none := by
      rw [processEntry_eq, if_neg (not_not.mpr hfollowed.mode), roll_lowest hfollowed,
        if_neg (by decide), if_pos hfollowed.reference, hlookup, hfollowed.whole]
      obtain ⟨k, hk⟩ := Nat.exists_eq_succ_of_ne_zero (Nat.pos_iff_ne_zero.mp hfollowed.multiplicity)
      dsimp only
      rw [hk]
      unfold times
      rw [ih hacc]
      rfl
    unfold process
    rw [if_neg (by decide), foldlM_eq_none hi hentry]
    rfl

/-! ### References that are searched -/

/-- An entry that is looked for is found in a template, or in one of its groups. -/
inductive Yields (wanted : LootStoreItem → Bool) (store : LootTemplateMap) :
    LootTemplate → ℕ → Prop
  | entry {t : LootTemplate} {i : LootStoreItem} (hi : i ∈ t.entries) (hplain : ¬i.mincountOrRef < 0)
      (hwanted : wanted i = true) : Yields wanted store t 0
  | reference {t t' : LootTemplate} {i : LootStoreItem} (hi : i ∈ t.entries)
      (hreference : i.mincountOrRef < 0) (hlookup : store.lookup i.reference = some t')
      (h : Yields wanted store t' i.group) : Yields wanted store t 0
  | group {t : LootTemplate} {g : LootGroup} (hg : g ∈ t.groups) (h : g.hasDrop wanted = true) :
      Yields wanted store t 0
  | one {t : LootTemplate} {g : LootGroup} {groupId : ℕ} (hgroup : groupId ≠ 0)
      (hg : t.groups[groupId - 1]? = some g) (h : g.hasDrop wanted = true) :
      Yields wanted store t groupId

/-- An entry ends the search. -/
def EntryYields (wanted : LootStoreItem → Bool) (store : LootTemplateMap) (i : LootStoreItem) :
    Prop :=
  if i.mincountOrRef < 0 then
    ∃ t', store.lookup i.reference = some t' ∧ Yields wanted store t' i.group
  else wanted i = true

/-- The second template refers to the first as a whole, and no entry before ends the search. -/
def Searches (wanted : LootStoreItem → Bool) (store : LootTemplateMap) (t' t : LootTemplate) :
    Prop :=
  ∃ before i after, t.entries = before ++ i :: after ∧
    (∀ j ∈ before, ¬EntryYields wanted store j) ∧ i.mincountOrRef < 0 ∧ i.group = 0 ∧
      store.lookup i.reference = some t'

theorem yields_zero (t : LootTemplate) : Yields wanted store t 0 ↔
      (∃ i ∈ t.entries, EntryYields wanted store i) ∨ ∃ g ∈ t.groups, g.hasDrop wanted = true := by
  constructor
  · intro h
    cases h with
    | entry hi hplain hwanted =>
      refine .inl ⟨_, hi, ?_⟩
      unfold EntryYields
      rwa [if_neg hplain]
    | reference hi hreference hlookup h =>
      refine .inl ⟨_, hi, ?_⟩
      unfold EntryYields
      rw [if_pos hreference]
      exact ⟨_, hlookup, h⟩
    | group hg h => exact .inr ⟨_, hg, h⟩
    | one hgroup _ _ => exact absurd rfl hgroup
  rintro (⟨i, hi, h⟩ | ⟨g, hg, h⟩)
  · unfold EntryYields at h
    by_cases hreference : i.mincountOrRef < 0
    · rw [if_pos hreference] at h
      obtain ⟨t', hlookup, hyields⟩ := h
      exact .reference hi hreference hlookup hyields
    rw [if_neg hreference] at h
    exact .entry hi hreference h
  · exact .group hg h

theorem Refines.anyEntry {search search' : LootTemplate → ℕ → Option Bool}
    (h : ∀ t groupId, Refines (search t groupId) (search' t groupId)) (entries : List LootStoreItem) :
    Refines (anyEntry wanted store search entries) (anyEntry wanted store search' entries) := by
  induction entries with
  | nil => exact refl _
  | cons i entries ih =>
    unfold Templates.anyEntry
    split
    · split
      · exact ih
      refine bind (h _ _) fun found => ?_
      split
      · exact refl _
      · exact ih
    split
    · exact refl _
    · exact ih

theorem hasDrop_succ (fuel : ℕ) (t : LootTemplate) (groupId : ℕ) :
    Refines (t.hasDrop wanted store fuel groupId) (t.hasDrop wanted store (fuel + 1) groupId) := by
  induction fuel generalizing t groupId with
  | zero =>
    intro x hx
    cases hx
  | succ fuel ih =>
    unfold hasDrop
    split
    · exact Refines.refl _
    · exact (Refines.anyEntry ih t.entries).map _

theorem hasDrop_mono {m : ℕ} (hle : n ≤ m) (t : LootTemplate) (groupId : ℕ) :
    Refines (t.hasDrop wanted store n groupId) (t.hasDrop wanted store m groupId) :=
  of_succ (fun fuel => hasDrop_succ fuel t groupId) hle

theorem anyEntry_sound {search : LootTemplate → ℕ → Option Bool}
    (h : ∀ t groupId b, search t groupId = some b → (b = true ↔ Yields wanted store t groupId))
    {entries : List LootStoreItem} {b : Bool} (hb : anyEntry wanted store search entries = some b) :
    b = true ↔ ∃ i ∈ entries, EntryYields wanted store i := by
  induction entries with
  | nil =>
    cases hb
    exact ⟨nofun, fun ⟨_, hi, _⟩ => by cases hi⟩
  | cons i entries ih =>
    rw [exists_mem_cons_iff]
    have hskip (hi : ¬EntryYields wanted store i)
        (hrest : anyEntry wanted store search entries = some b) :
        b = true ↔ EntryYields wanted store i ∨ ∃ i ∈ entries, EntryYields wanted store i := by
      rw [ih hrest]
      exact ⟨.inr, fun h => h.resolve_left hi⟩
    unfold anyEntry at hb
    by_cases hreference : i.mincountOrRef < 0
    · rw [if_pos hreference] at hb
      have hentry : EntryYields wanted store i ↔
          ∃ t', store.lookup i.reference = some t' ∧ Yields wanted store t' i.group := by
        unfold EntryYields
        rw [if_pos hreference]
      cases hlookup : store.lookup i.reference with
      | none =>
        rw [hlookup] at hb
        refine hskip ?_ hb
        rw [hentry, hlookup]
        rintro ⟨_, hsome, -⟩
        cases hsome
      | some t' =>
        rw [hlookup] at hb
        obtain ⟨found, hfound, hb⟩ := bind_eq_some_iff.mp hb
        have hyields := h t' i.group found hfound
        cases found with
        | true =>
          cases hb
          exact ⟨fun _ => .inl (hentry.mpr ⟨t', hlookup, hyields.mp rfl⟩), fun _ => rfl⟩
        | false =>
          refine hskip (fun hi => ?_) hb
          obtain ⟨x, hx, hyx⟩ := hentry.mp hi
          rw [hlookup] at hx
          cases hx
          exact absurd (hyields.mpr hyx) Bool.false_ne_true
    rw [if_neg hreference] at hb
    have hentry : EntryYields wanted store i ↔ wanted i = true := by
      unfold EntryYields
      rw [if_neg hreference]
    by_cases hwanted : wanted i = true
    · rw [if_pos hwanted] at hb
      cases hb
      exact ⟨fun _ => .inl (hentry.mpr hwanted), fun _ => rfl⟩
    rw [if_neg hwanted] at hb
    exact hskip (fun hi => hwanted (hentry.mp hi)) hb

theorem hasDrop_sound {b : Bool} (h : t.hasDrop wanted store fuel groupId = some b) :
    b = true ↔ Yields wanted store t groupId := by
  induction fuel generalizing t groupId b with
  | zero => cases h
  | succ fuel ih =>
    unfold hasDrop at h
    by_cases hgroup : groupId ≠ 0
    · rw [if_pos hgroup] at h
      have hb := some.inj h
      constructor
      · intro htrue
        cases hg : t.groups[groupId - 1]? with
        | none =>
          rw [hg, htrue] at hb
          cases hb
        | some g =>
          rw [hg, htrue] at hb
          exact .one hgroup hg hb
      intro hyields
      cases hyields with
      | entry _ _ _ | reference _ _ _ _ | group _ _ => exact absurd rfl hgroup
      | one _ hg hdrop =>
        rw [hg] at hb
        exact hb.symm.trans hdrop
    rw [if_neg hgroup] at h
    rw [not_not] at hgroup
    subst hgroup
    obtain ⟨found, hfound, rfl⟩ := map_eq_some_iff.mp h
    have hentries := anyEntry_sound (fun t groupId b => ih) hfound
    rw [yields_zero, Bool.or_eq_true, List.any_eq_true, hentries]

/-- **A search that comes to an end has no endless chain.** -/
theorem acc_of_hasDrop (h : (t.hasDrop wanted store fuel 0).isSome) :
    Acc (Searches wanted store) t := by
  induction fuel generalizing t with
  | zero => cases h
  | succ fuel ih =>
    refine ⟨t, fun t' ⟨before, i, after, hentries, hbefore, hreference, hwhole, hlookup⟩ => ih ?_⟩
    unfold hasDrop at h
    rw [if_neg (by decide), isSome_map, hentries] at h
    clear hentries
    induction before with
    | nil =>
      rw [nil_append] at h
      unfold anyEntry at h
      rw [if_pos hreference, hlookup, hwhole] at h
      cases hcall : t'.hasDrop wanted store fuel 0 with
      | none =>
        dsimp only at h
        rw [hcall] at h
        cases h
      | some found => rfl
    | cons j before ihbefore =>
      refine ihbefore (fun x hx => hbefore x (mem_cons_of_mem j hx)) ?_
      have hj := hbefore j mem_cons_self
      unfold EntryYields at hj
      rw [cons_append] at h
      unfold anyEntry at h
      by_cases hjreference : j.mincountOrRef < 0
      · rw [if_pos hjreference] at h hj
        cases hjlookup : store.lookup j.reference with
        | none =>
          rw [hjlookup] at h
          exact h
        | some tj =>
          rw [hjlookup] at h
          dsimp only at h
          cases hcall : tj.hasDrop wanted store fuel j.group with
          | none =>
            rw [hcall] at h
            cases h
          | some found =>
            cases found with
            | true => exact absurd ⟨tj, hjlookup, (hasDrop_sound hcall).mp rfl⟩ hj
            | false =>
              rw [hcall] at h
              exact h
      rw [if_neg hjreference] at h hj
      rw [if_neg hj] at h
      exact h

theorem hasDrop_group (hgroup : groupId ≠ 0) (t : LootTemplate) :
    (t.hasDrop wanted store 1 groupId).isSome := by
  unfold hasDrop
  rw [if_pos hgroup]
  rfl

/-- **A search without an endless chain ends**, by induction on the templates that it can come to. -/
theorem hasDrop_ends (h : Acc (Searches wanted store) t) (groupId : ℕ) :
    ∃ fuel, (t.hasDrop wanted store fuel groupId).isSome := by
  induction h generalizing groupId with
  | intro t _ ih =>
    by_cases hgroup : groupId ≠ 0
    · exact ⟨1, hasDrop_group hgroup t⟩
    have hloop (before after : List LootStoreItem) (hentries : t.entries = before ++ after)
        (hbefore : ∀ j ∈ before, ¬EntryYields wanted store j) :
        ∃ fuel, (anyEntry wanted store (hasDrop wanted store fuel) after).isSome := by
      induction after generalizing before with
      | nil => exact ⟨0, rfl⟩
      | cons i after ihafter =>
        have hnext (hi : ¬EntryYields wanted store i) :=
          ihafter (before ++ [i]) (by rw [hentries, append_assoc]; rfl) fun j hj => by
            rcases mem_append.mp hj with hj | hj
            · exact hbefore j hj
            rw [mem_singleton.mp hj]
            exact hi
        unfold EntryYields at hnext
        unfold anyEntry
        by_cases hreference : i.mincountOrRef < 0
        · simp only [if_pos hreference] at hnext ⊢
          cases hlookup : store.lookup i.reference with
          | none =>
            refine hnext ?_
            rw [hlookup]
            rintro ⟨_, hsome, -⟩
            cases hsome
          | some t' =>
            have hcall : ∃ fuel, (t'.hasDrop wanted store fuel i.group).isSome := by
              by_cases hwhole : i.group = 0
              · exact ih t' ⟨before, i, after, hentries, hbefore, hreference, hwhole,
                  hlookup⟩ i.group
              · exact ⟨1, hasDrop_group hwhole t'⟩
            obtain ⟨n, hn⟩ := hcall
            obtain ⟨found, hfound⟩ := isSome_iff_exists.mp hn
            cases found with
            | true =>
              refine ⟨n, ?_⟩
              dsimp only
              rw [hfound]
              rfl
            | false =>
              obtain ⟨m, hm⟩ := hnext fun ⟨x, hx, hyields⟩ => by
                rw [hlookup] at hx
                cases hx
                exact absurd ((hasDrop_sound hfound).mpr hyields) Bool.false_ne_true
              refine ⟨max n m, ?_⟩
              dsimp only
              rw [hasDrop_mono (le_max_left n m) t' i.group false hfound]
              exact (Refines.anyEntry (hasDrop_mono (le_max_right n m)) after).isSome hm
        simp only [if_neg hreference] at hnext ⊢
        by_cases hwanted : wanted i = true
        · exact ⟨0, by rw [if_pos hwanted]; rfl⟩
        simp only [if_neg hwanted]
        exact hnext hwanted
    obtain ⟨fuel, hfuel⟩ := hloop [] t.entries rfl nofun
    refine ⟨fuel + 1, ?_⟩
    unfold hasDrop
    rw [if_neg hgroup, isSome_map]
    exact hfuel

/-! ### Both -/

def Endless (refers : LootTemplate → LootTemplate → Prop) (t : LootTemplate) : Prop :=
  ∃ chain : ℕ → LootTemplate, chain 0 = t ∧ ∀ n, refers (chain (n + 1)) (chain n)

theorem not_endless_iff {refers : LootTemplate → LootTemplate → Prop} :
    ¬Endless refers t ↔ Acc refers t := by
  rw [← not_iff_not, not_not, not_acc_iff_exists_descending_chain]
  rfl

/-- **Loot templates come to an end.**  Whatever the tables contain, a template is rolled to its end
for all draws, and the searches for quest drops in it end for every player, if and only if no
endless chain starts from it: of references that a run can follow, of references that the search for
any quest drop comes to, and of those that the search for a player's comes to. -/
theorem templates_end_iff (w : World) (references store : LootTemplateMap) (rate : Bool)
    (lootMode : UInt16) (t : LootTemplate) : ((∀ dice groupId s, ∃ fuel,
          (t.process w dice references rate lootMode fuel groupId s).isSome) ∧
        (∀ groupId, ∃ fuel, (t.hasQuestDrop store fuel groupId).isSome) ∧
          ∀ hasQuestForItem groupId, ∃ fuel,
            (t.hasQuestDropForPlayer store hasQuestForItem fuel groupId).isSome) ↔
      ¬Endless (RefersTo w references rate lootMode) t ∧ ¬Endless (Searches needsQuest store) t ∧
          ∀ hasQuestForItem : UInt32 → Bool,
            ¬Endless (Searches (fun i => hasQuestForItem i.itemid) store) t := by
  simp only [not_endless_iff]
  refine and_congr ⟨fun h => ?_, fun h dice groupId s => process_ends h dice groupId s⟩
    (and_congr ⟨fun h => ?_, hasDrop_ends⟩ (forall_congr' fun hasQuestForItem => ⟨fun h => ?_,
      hasDrop_ends⟩))
  · by_contra hacc
    obtain ⟨fuel, hfuel⟩ := h (fun _ => lowest) 0 {}
    rw [process_endless hacc] at hfuel
    cases hfuel
  · obtain ⟨fuel, hfuel⟩ := h 0
    exact acc_of_hasDrop hfuel
  obtain ⟨fuel, hfuel⟩ := h 0
  exact acc_of_hasDrop hfuel

/-- A table with one row, a reference to its own entry that is always taken. -/
def selfReference : List Row := [⟨1, 0, 100, 1, 0, -1, 1⟩]

/-- The row is valid and loaded, and nothing that is done with the template ends. -/
theorem self_reference_endless :
    let w : World := { getItemTemplate := fun _ => none }
    let store := loadLootTable w selfReference
    ∃ t, store.lookup 1 = some t ∧ (∀ dice fuel s, t.process w dice store true 1 fuel 0 s = none) ∧
        (∀ fuel, t.hasQuestDrop store fuel 0 = none) ∧
          ∀ hasQuestForItem fuel, t.hasQuestDropForPlayer store hasQuestForItem fuel 0 = none := by
  intro w store
  have hlookup : store.lookup 1 = some ⟨[⟨0, 100, -1, 1, 0, false, 1, 0⟩], []⟩ := by decide +kernel
  have hsearch (wanted : LootStoreItem → Bool) (fuel : ℕ) :
      hasDrop wanted store fuel ⟨[⟨0, 100, -1, 1, 0, false, 1, 0⟩], []⟩ 0 = none := by
    induction fuel with
    | zero => rfl
    | succ fuel ih =>
      have hreference : reference ⟨0, 100, -1, 1, 0, false, 1, 0⟩ = 1 := rfl
      unfold hasDrop anyEntry
      rw [if_neg (by decide), if_pos (by decide), hreference, hlookup]
      dsimp only
      rw [ih]
      rfl
  refine ⟨_, hlookup, fun dice fuel => ?_, ?_, fun hasQuestForItem => ?_⟩
  · induction fuel with
    | zero => exact fun _ => rfl
    | succ fuel ih =>
      intro s
      unfold process
      rw [if_neg (by decide), foldlM_eq_none mem_cons_self fun s => ?_]
      · rfl
      have hreference : reference ⟨0, 100, -1, 1, 0, false, 1, 0⟩ = 1 := rfl
      have hroll : (roll w dice ⟨0, 100, -1, 1, 0, false, 1, 0⟩ true s).1 = true := by
        unfold roll
        rw [if_pos (by decide)]
      have hone : multiplicity w ⟨0, 100, -1, 1, 0, false, 1, 0⟩ = 1 := by
        decide +kernel
      rw [processEntry_eq, if_neg (by decide), hroll, if_neg (by decide), if_pos (by decide),
        hreference, hlookup, hone]
      exact congrArg (· >>= times _ 0) (ih _)
  · exact hsearch _
  · exact hsearch _

end ZerosCore.Loots.Templates
