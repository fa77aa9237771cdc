/-
# The counters of a raid's subgroups

A raid counts the members of its subgroups by hand.  `LoadMemberFromDB` counts every member
twice, so that a raid that comes back from the database believes its subgroups to be twice
as full as they are; `ConvertToRaid` counts what it finds, which may be more than five, and
`ChangeMembersGroup` moves a member without a look at the counter of the target.

Along a run the counters of a raid are right, no subgroup has more than five members and
`HasFreeSlotSubGroup` answers correctly exactly if no row is loaded into a raid, what
becomes a raid has at most five members in each subgroup, and members move to subgroups with
a free slot only (`subgroups_right_iff`).
-/

import ZerosCore.Groups.Raid
import ZerosCore.Lib.Run

namespace ZerosCore.Groups

open Lib List Option Groups.Group

/-! ### What the counters should say -/

/-- The number of members of a subgroup. -/
def Group.inSubGroup (g : Group) (i : ℕ) : ℕ := g.memberSlots.countP fun slot => slot.group = i

/-- What a raid should know of its subgroups; a member of a ninth subgroup would be counted
beyond the end of the array. -/
structure Group.SubGroupsRight (g : Group) : Prop where
  counted : ∀ i < maxRaidSubgroups,
    (g.subGroupsCounts.bind fun counts => counts[i]?) = some (g.inSubGroup i)
  atMost : ∀ i < maxRaidSubgroups, g.inSubGroup i ≤ maxGroupSize
  free : ∀ i < maxRaidSubgroups, (g.hasFreeSlotSubGroup i = true ↔ g.inSubGroup i < maxGroupSize)
  placed : ∀ slot ∈ g.memberSlots, slot.group < maxRaidSubgroups

/-- The group, if it is there and a raid, knows its subgroups. -/
def RaidRight (s : State) : Prop :=
  ∀ g ∈ s.group, g.kind.isRaidGroup = true → g.SubGroupsRight

/-- The members of a group fit into the subgroups of a raid. -/
def Group.Fits (g : Group) : Prop :=
  (∀ i < maxRaidSubgroups, g.inSubGroup i ≤ maxGroupSize) ∧
    ∀ slot ∈ g.memberSlots, slot.group < maxRaidSubgroups

/-- No row is loaded into a raid, the members of what becomes a raid fit into its
subgroups, and who moves does so to a subgroup with a free slot. -/
def Orderly (s : State) : Command → Prop
  | .loadMember known _ _ => ∀ g ∈ s.group, known = true → g.kind.isRaidGroup = false
  | .convertToRaid => ∀ g ∈ s.group, g.Fits
  | .changeMembersGroup guid group => ∀ g ∈ s.group, g.kind.isRaidGroup = true →
      ∀ slot ∈ g.memberSlots.find? (fun slot => slot.guid = guid), slot.group ≠ group →
        g.hasFreeSlotSubGroup group = true
  | _ => True

/-! ### The counters as a list -/

variable {g : Group} {s : State} {w : World} {guid group i : ℕ}

/-- The counters of a raid are those of its members. -/
def Group.Counted (g : Group) : Prop :=
  g.subGroupsCounts = some ((List.range maxRaidSubgroups).map g.inSubGroup)

theorem getElem?_counters (f : ℕ → ℕ) (i : ℕ) :
    ((List.range maxRaidSubgroups).map f)[i]? = if i < maxRaidSubgroups then some (f i) else none := by
  rw [getElem?_map]
  by_cases hi : i < maxRaidSubgroups
  · rw [if_pos hi, getElem?_range hi]
    rfl
  rw [if_neg hi, getElem?_eq_none (by simpa using hi)]
  rfl

theorem hasFree_of_counted (h : g.Counted) (i : ℕ) :
    g.hasFreeSlotSubGroup i = true ↔ i < maxRaidSubgroups ∧ g.inSubGroup i < maxGroupSize := by
  unfold hasFreeSlotSubGroup
  rw [h, bind_some, getElem?_counters]
  by_cases hi : i < maxRaidSubgroups
  · rw [if_pos hi]
    simp [hi]
  rw [if_neg hi]
  simp [hi]

/-- **The counters are right** if they are those of the members, who fit. -/
theorem subGroupsRight_iff : g.SubGroupsRight ↔ (∀ i < maxRaidSubgroups,
      (g.subGroupsCounts.bind fun counts => counts[i]?) = some (g.inSubGroup i)) ∧ g.Fits := by
  refine ⟨fun h => ⟨h.counted, h.atMost, h.placed⟩, fun ⟨hcounted, hsize, hplaced⟩ =>
    ⟨hcounted, hsize, fun i hi => ?_, hplaced⟩⟩
  unfold hasFreeSlotSubGroup
  rw [hcounted i hi]
  simp

theorem counters_modify (f : ℕ → ℕ) (i : ℕ) (h : ℕ → ℕ) :
    ((List.range maxRaidSubgroups).map f).modify i h =
      (List.range maxRaidSubgroups).map fun j => if j = i then h (f j) else f j := by
  refine ext_getElem? fun j => ?_
  rw [getElem?_modify, getElem?_counters, getElem?_counters]
  by_cases hj : j < maxRaidSubgroups
  · rw [if_pos hj, if_pos hj]
    by_cases hij : i = j
    · simp [hij]
    have hji : ¬j = i := fun heq => hij heq.symm
    simp [hij, hji]
  rw [if_neg hj, if_neg hj]
  simp

theorem counted_iff : (∀ i < maxRaidSubgroups,
    (g.subGroupsCounts.bind fun counts => counts[i]?) = some (g.inSubGroup i)) ∧
      (∀ counts ∈ g.subGroupsCounts, counts.length = maxRaidSubgroups) ↔ g.Counted := by
  constructor
  · rintro ⟨hcounted, hlength⟩
    cases hcounts : g.subGroupsCounts with
    | none =>
      have hzero := hcounted 0 (by decide)
      rw [hcounts] at hzero
      cases hzero
    | some counts =>
      rw [hcounts] at hcounted hlength
      refine hcounts.trans (congrArg some (ext_getElem? fun i => ?_))
      rw [getElem?_counters]
      by_cases hi : i < maxRaidSubgroups
      · rw [if_pos hi]
        exact hcounted i hi
      · rw [if_neg hi, getElem?_eq_none (by rw [hlength counts rfl]; omega)]
  intro h
  rw [h]
  constructor
  · intro i hi
    rw [bind_some, getElem?_counters, if_pos hi]
  intro counts hcounts
  rw [← some.inj hcounts, length_map, length_range]

/-! ### One slot more, one slot less -/

theorem inSubGroup_append (g : Group) (slot : MemberSlot) (i : ℕ) :
    (g.memberSlots ++ [slot]).countP (·.group = i) =
      g.inSubGroup i + if slot.group = i then 1 else 0 := by
  simp [inSubGroup]

theorem countP_eraseP (slots : List MemberSlot) (guid i : ℕ) :
    (slots.eraseP fun slot => slot.guid = guid).countP (·.group = i) +
        (match slots.find? (·.guid = guid) with
          | none => 0
          | some slot => if slot.group = i then 1 else 0) =
      slots.countP fun slot => slot.group = i := by
  induction slots with
  | nil => rfl
  | cons slot slots ih =>
    by_cases hslot : slot.guid = guid
    · rw [eraseP_cons_of_pos (by simpa using hslot),
        find?_cons_of_pos (by simpa using hslot), countP_cons]
      simp
    rw [eraseP_cons_of_neg (by simpa using hslot),
      find?_cons_of_neg (by simpa using hslot), countP_cons, countP_cons]
    omega

theorem countP_setSubGroup (slots : List MemberSlot) (guid group i : ℕ) :
    (setSubGroup guid group slots).countP (·.group = i) +
        (match slots.find? (·.guid = guid) with
          | none => 0
          | some slot => if slot.group = i then 1 else 0) =
      slots.countP (·.group = i) +
        match slots.find? (·.guid = guid) with
          | none => 0
          | some _ => if group = i then 1 else 0 := by
  induction slots with
  | nil => rfl
  | cons slot slots ih =>
    by_cases hslot : slot.guid = guid
    · rw [setSubGroup, if_pos hslot, find?_cons_of_pos (by simpa using hslot),
        countP_cons, countP_cons]
      simp only [decide_eq_true_eq]
      omega
    rw [setSubGroup, if_neg hslot, find?_cons_of_neg (by simpa using hslot),
      countP_cons, countP_cons]
    omega

variable {slots : List MemberSlot} {slot : MemberSlot}

theorem mem_setSubGroup
    (h : slot ∈ setSubGroup guid group slots) : slot ∈ slots ∨ slot.group = group := by
  induction slots with
  | nil => exact .inl h
  | cons a slots ih =>
    rw [setSubGroup] at h
    split at h
    · rcases mem_cons.mp h with rfl | hrest
      · exact .inr rfl
      · exact .inl (mem_cons_of_mem a hrest)
    rcases mem_cons.mp h with rfl | hrest
    · exact .inl mem_cons_self
    · exact (ih hrest).imp_left (mem_cons_of_mem a)

theorem setSubGroup_mem (h : slots.find? (·.guid = guid) = some slot) :
    { slot with group := group } ∈ setSubGroup guid group slots := by
  induction slots with
  | nil => cases h
  | cons a slots ih =>
    rw [setSubGroup]
    by_cases ha : a.guid = guid
    · rw [find?_cons_of_pos (by simpa using ha)] at h
      cases h
      rw [if_pos ha]
      exact mem_cons_self
    rw [find?_cons_of_neg (by simpa using ha)] at h
    rw [if_neg ha]
    exact mem_cons_of_mem a (ih h)

theorem initRaid_counts (g : Group) : g.initRaidSubGroupsCounter.subGroupsCounts =
    some ((List.range maxRaidSubgroups).map fun i => g.inSubGroup i % 256) := by
  have hloop (slots : List MemberSlot) (f : ℕ → ℕ) :
      slots.foldl (fun counts slot => counts.modify slot.group fun n => (n + 1) % 256)
          ((List.range maxRaidSubgroups).map fun i => f i % 256) =
        (List.range maxRaidSubgroups).map fun i =>
          (f i + slots.countP fun slot => slot.group = i) % 256 := by
    induction slots generalizing f with
    | nil => rfl
    | cons slot slots ih =>
      have hhead : ((List.range maxRaidSubgroups).map fun i => f i % 256).modify slot.group
          (fun n => (n + 1) % 256) = (List.range maxRaidSubgroups).map fun i =>
            (f i + if slot.group = i then 1 else 0) % 256 := by
        rw [counters_modify]
        refine map_congr_left fun i _ => ?_
        by_cases hi : i = slot.group
        · rw [if_pos hi, if_pos hi.symm]
          omega
        rw [if_neg hi, if_neg fun heq => hi heq.symm]
        rfl
      rw [foldl_cons, hhead, ih]
      refine map_congr_left fun i _ => ?_
      rw [countP_cons]
      simp only [decide_eq_true_eq]
      congr 1
      omega
  have hall := hloop g.memberSlots fun _ => 0
  simp only [Nat.zero_add] at hall
  exact congrArg some hall

/-! ### Every command -/

/-- A group has counters exactly if it is a raid, and one for each subgroup. -/
structure Group.Formed (g : Group) : Prop where
  raid : g.kind.isRaidGroup = g.subGroupsCounts.isSome
  length : ∀ counts ∈ g.subGroupsCounts, counts.length = maxRaidSubgroups

def Group.Kept (g : Group) : Prop := g.kind.isRaidGroup = true → g.Counted ∧ g.Fits

theorem right_of_counted (hcounted : g.Counted) (hfits : g.Fits) : g.SubGroupsRight :=
  subGroupsRight_iff.mpr ⟨(counted_iff.mpr hcounted).1, hfits⟩

theorem Group.SubGroupsRight.counted_fits (h : g.SubGroupsRight) (hg : g.Formed) :
    g.Counted ∧ g.Fits := by
  obtain ⟨hcounted, hfits⟩ := subGroupsRight_iff.mp h
  exact ⟨counted_iff.mp ⟨hcounted, hg.length⟩, hfits⟩

theorem kept_iff (hg : g.Formed) : (g.kind.isRaidGroup = true → g.SubGroupsRight) ↔ g.Kept := by
  constructor
  · intro h hraid
    exact (h hraid).counted_fits hg
  intro h hraid
  exact right_of_counted (h hraid).1 (h hraid).2

theorem Group.Formed.count (h : g.Formed) (subGroup : ℕ) (f : ℕ → ℕ) :
    (g.countSubGroup subGroup f).Formed := by
  constructor
  · rw [countSubGroup, isSome_map]
    exact h.raid
  intro counts hcounts
  obtain ⟨old, hold, rfl⟩ := map_eq_some_iff.mp hcounts
  rw [length_modify]
  exact h.length old hold

variable {g' : Group}

theorem counted_of_modify {f : ℕ → ℕ} (h : g.Counted)
    (hcounts : g'.subGroupsCounts = g.subGroupsCounts.map fun counts => counts.modify group f)
    (hf : ∀ i < maxRaidSubgroups,
      (if i = group then f (g.inSubGroup i) else g.inSubGroup i) = g'.inSubGroup i) :
    g'.Counted := by
  rw [Group.Counted, hcounts, h, map_some, counters_modify]
  refine congrArg some (map_congr_left fun i hi => ?_)
  exact hf i (mem_range.mp hi)

theorem freeSubGroup_counted (h : g.Counted) (hi : g.freeSubGroup = some i) :
    i < maxRaidSubgroups ∧ g.inSubGroup i < maxGroupSize := by
  rw [freeSubGroup, h] at hi
  obtain ⟨hlt, hfree, -⟩ := findIdx?_eq_some_iff_getElem.mp hi
  rw [getElem_map, getElem_range] at hfree
  exact ⟨hlt, of_decide_eq_true hfree⟩

/-- **A new member** gets a subgroup with room. -/
theorem Group.Kept.addMember (h : g.Kept) (guid : ℕ) : (g.addMember guid).2.Kept := by
  rw [Group.addMember]
  cases hfree : g.freeSubGroup with
  | none => exact h
  | some j =>
    intro hraid
    obtain ⟨hcounted, hsize, hplaced⟩ := h hraid
    obtain ⟨hj, hroom⟩ := freeSubGroup_counted hcounted hfree
    have hin := inSubGroup_append g ⟨guid, j⟩
    have hmax : maxGroupSize = 5 := rfl
    refine ⟨counted_of_modify hcounted rfl fun i hi => ?_, fun i hi => ?_, fun slot hslot => ?_⟩
    · refine Eq.trans ?_ (hin i).symm
      have hle := hsize i hi
      dsimp only
      split <;> split <;> omega
    · refine Nat.le_trans (Nat.le_of_eq (hin i)) ?_
      have hle := hsize i hi
      dsimp only
      split
      · subst_vars
        omega
      · omega
    rcases mem_append.mp hslot with hold | hnew
    · exact hplaced slot hold
    rw [mem_singleton.mp hnew]
    exact hj

theorem Group.Formed.addMember (h : g.Formed) (guid : ℕ) : (g.addMember guid).2.Formed := by
  rw [Group.addMember]
  cases g.freeSubGroup with
  | none => exact h
  | some j =>
    have hslots : ({ g with memberSlots := g.memberSlots ++ [⟨guid, j⟩] } : Group).Formed :=
      ⟨h.raid, h.length⟩
    have hcounted := hslots.count j fun n => (n + 1) % 256
    exact ⟨hcounted.raid, hcounted.length⟩

/-- Two groups with the same members and the same counters. -/
structure Group.Like (g g' : Group) : Prop where
  raid : g'.kind.isRaidGroup = g.kind.isRaidGroup
  slots : g'.memberSlots = g.memberSlots
  counts : g'.subGroupsCounts = g.subGroupsCounts

theorem Group.Like.kept (h : g.Like g') (hg : g.Kept) : g'.Kept := by
  intro hraid
  obtain ⟨hcounted, hfits⟩ := hg (h.raid ▸ hraid)
  have hin : g'.inSubGroup = g.inSubGroup := by
    funext i
    rw [inSubGroup, h.slots, inSubGroup]
  rw [Group.Counted, Group.Fits, hin, h.slots, h.counts]
  exact ⟨hcounted, hfits⟩

theorem Group.Like.formed (h : g.Like g') (hg : g.Formed) : g'.Formed := by
  constructor
  · rw [h.raid, h.counts, hg.raid]
  rw [h.counts]
  exact hg.length

theorem like_changeLeader (g : Group) (w : World) (guid : ℕ) : g.Like (g.changeLeader w guid) := by
  rw [changeLeader]
  split
  · exact ⟨rfl, rfl, rfl⟩
  · split <;> exact ⟨rfl, rfl, rfl⟩

theorem like_pickLeader (g : Group) (w : World) (guid : ℕ) : g.Like (g.pickLeader w guid) := by
  rw [pickLeader]
  split
  · split
    · exact ⟨rfl, rfl, rfl⟩
    · exact like_changeLeader g w _
  · exact ⟨rfl, rfl, rfl⟩

theorem kept_erase (h : g.Kept)
    (hslot : g.memberSlots.find? (·.guid = guid) = some slot) :
    ({ g.countSubGroup slot.group (fun n => (n + 255) % 256) with
      memberSlots := g.memberSlots.eraseP fun slot => slot.guid = guid } : Group).Kept := by
  intro hraid
  obtain ⟨hcounted, hsize, hplaced⟩ := h hraid
  have hin (i : ℕ) : (g.memberSlots.eraseP fun slot => slot.guid = guid).countP
      (·.group = i) + (if slot.group = i then 1 else 0) = g.inSubGroup i := by
    have hcount := countP_eraseP g.memberSlots guid i
    rw [hslot] at hcount
    exact hcount
  have hmax : maxGroupSize = 5 := rfl
  refine ⟨counted_of_modify hcounted rfl fun i hi => ?_, fun i hi => ?_, fun other hother => ?_⟩
  · change _ = (g.memberSlots.eraseP fun slot => slot.guid = guid).countP fun slot => slot.group = i
    have hone := hin i
    have hle := hsize i hi
    by_cases heq : i = slot.group
    · rw [if_pos heq.symm] at hone
      rw [if_pos heq]
      omega
    rw [if_neg fun hsym => heq hsym.symm] at hone
    rw [if_neg heq]
    omega
  · refine Nat.le_trans ?_ (hsize i hi)
    exact Nat.le.intro (hin i)
  · exact hplaced other (mem_of_mem_eraseP hother)

theorem formed_erase (h : g.Formed) (slots : List MemberSlot) (f : ℕ → ℕ) :
    ({ g.countSubGroup group f with memberSlots := slots } : Group).Formed :=
  ⟨(h.count group f).raid, (h.count group f).length⟩

theorem takeOut_kept (h : g.Kept) (hg : g.Formed) (w : World) (guid : ℕ) :
    (g.takeOut w guid).Kept ∧ (g.takeOut w guid).Formed := by
  have hlike : g.Like (if w.findPlayer guid || !g.ofBattle then g.unlink guid else g) := by
    split <;> exact ⟨rfl, rfl, rfl⟩
  have hkept := hlike.kept h
  have hformed := hlike.formed hg
  rw [takeOut]
  generalize (if w.findPlayer guid || !g.ofBattle then g.unlink guid else g) = u at hkept hformed ⊢
  cases hslot : u.memberSlots.find? (·.guid = guid) with
  | none => exact ⟨hkept, hformed⟩
  | some slot => exact ⟨kept_erase hkept hslot, formed_erase hformed _ _⟩

theorem removeMember_kept (h : g.Kept) (hg : g.Formed) (w : World) (guid : ℕ)
    (method : RemoveMethod) (g' : Group) (hg' : g' ∈ (g.removeMember w guid method).2) :
    g'.Kept ∧ g'.Formed := by
  obtain ⟨hkept, hformed⟩ := takeOut_kept h hg w guid
  have hlike := like_pickLeader (g.takeOut w guid) w guid
  rw [removeMember] at hg'
  split at hg'
  · cases hg'
    exact ⟨h, hg⟩
  split at hg'
  · dsimp only at hg'
    split at hg'
    · cases hg'
    split at hg'
    · cases hg'
    cases hg'
    exact ⟨hlike.kept hkept, hlike.formed hformed⟩
  · cases hg'

theorem newGroup_kept (kind : GroupKind) (leader : ℕ) :
    (newGroup kind leader).Kept ∧ (newGroup kind leader).Formed := by
  have hcounts : (newGroup kind leader).subGroupsCounts =
      if (newGroup kind leader).kind.isRaidGroup then
        some (replicate maxRaidSubgroups 0) else none := rfl
  constructor
  · intro hraid
    refine ⟨?_, fun i _ => Nat.zero_le _, nofun⟩
    rw [Group.Counted, hcounts, if_pos hraid]
    rfl
  constructor
  · rw [hcounts]
    cases (newGroup kind leader).kind.isRaidGroup <;> rfl
  intro counts hmem
  rw [hcounts] at hmem
  split at hmem
  · cases hmem
    rfl
  · cases hmem

theorem initRaid_formed (hraid : g.kind.isRaidGroup = true) :
    g.initRaidSubGroupsCounter.Formed := by
  constructor
  · exact hraid
  intro counts hcounts
  rw [initRaid_counts] at hcounts
  cases hcounts
  rw [length_map, length_range]

theorem initRaid_right_iff (g : Group) : g.initRaidSubGroupsCounter.SubGroupsRight ↔ g.Fits := by
  constructor
  · intro h
    exact (subGroupsRight_iff.mp h).2
  intro h
  refine right_of_counted ?_ h
  rw [Group.Counted, initRaid_counts]
  refine congrArg some (map_congr_left fun i hi => ?_)
  have hle := h.1 i (mem_range.mp hi)
  have hmax : maxGroupSize = 5 := rfl
  exact Nat.mod_eq_of_lt (by omega)

theorem inSubGroup_setSubGroup
    (hslot : g.memberSlots.find? (·.guid = guid) = some slot) (i : ℕ) :
    (setSubGroup guid group g.memberSlots).countP (·.group = i) +
        (if slot.group = i then 1 else 0) = g.inSubGroup i + if group = i then 1 else 0 := by
  have hcount := countP_setSubGroup g.memberSlots guid group i
  rw [hslot] at hcount
  exact hcount

/-- **A move** keeps the counters right exactly if the target has a free slot. -/
theorem moved_right_iff (g' : Group) (hcounted : g.Counted) (hfits : g.Fits)
    (hslot : g.memberSlots.find? (·.guid = guid) = some slot)
    (hne : slot.group ≠ group) (hslots : g'.memberSlots = setSubGroup guid group g.memberSlots)
    (hcounts : g'.subGroupsCounts = (g.subGroupsCounts.map fun counts =>
      counts.modify group fun n => (n + 1) % 256).map fun counts =>
        counts.modify slot.group fun n => (n + 255) % 256) :
    g'.SubGroupsRight ↔ g.hasFreeSlotSubGroup group = true := by
  have hin (i : ℕ) : g'.inSubGroup i + (if slot.group = i then 1 else 0) =
      g.inSubGroup i + if group = i then 1 else 0 := by
    rw [inSubGroup, hslots]
    exact inSubGroup_setSubGroup hslot i
  have hmax : maxGroupSize = 5 := rfl
  rw [hasFree_of_counted hcounted]
  constructor
  · intro h
    have hplaced : group < maxRaidSubgroups :=
      h.placed { slot with group := group } (hslots ▸ setSubGroup_mem hslot)
    have hone := hin group
    rw [if_neg hne, if_pos rfl] at hone
    have hle := h.atMost group hplaced
    exact ⟨hplaced, by omega⟩
  rintro ⟨hplaced, hroom⟩
  refine right_of_counted ?_ ⟨fun i hi => ?_, fun other hother => ?_⟩
  · rw [Group.Counted, hcounts, hcounted, map_some, counters_modify, map_some, counters_modify]
    refine congrArg some (map_congr_left fun i hi => ?_)
    have hone := hin i
    have hle := hfits.1 i (mem_range.mp hi)
    by_cases hgroup : i = group
    · have hother : ¬i = slot.group := fun heq => hne (heq.symm.trans hgroup)
      rw [if_neg fun heq => hother heq.symm, if_pos hgroup.symm] at hone
      rw [if_neg hother, if_pos hgroup]
      omega
    have hgroup' : ¬group = i := fun heq => hgroup heq.symm
    rw [if_neg hgroup'] at hone
    by_cases hold : i = slot.group
    · rw [if_pos hold.symm] at hone
      rw [if_pos hold, if_neg hgroup]
      omega
    have hold' : ¬slot.group = i := fun heq => hold heq.symm
    rw [if_neg hold'] at hone
    rw [if_neg hold, if_neg hgroup]
    omega
  · have hone := hin i
    have hle := hfits.1 i hi
    by_cases hgroup : group = i
    · subst hgroup
      rw [if_neg hne, if_pos rfl] at hone
      omega
    rw [if_neg hgroup] at hone
    omega
  rw [hslots] at hother
  rcases mem_setSubGroup hother with hold | hnew
  · exact hfits.2 other hold
  rw [hnew]
  exact hplaced

theorem changeMembersGroup_right_iff (h : g.Kept) (hg : g.Formed) (guid group : ℕ) :
    (g.changeMembersGroup guid group).Formed ∧
      (((g.changeMembersGroup guid group).kind.isRaidGroup = true →
          (g.changeMembersGroup guid group).SubGroupsRight) ↔ (g.kind.isRaidGroup = true →
          ∀ slot ∈ g.memberSlots.find? (·.guid = guid), slot.group ≠ group →
            g.hasFreeSlotSubGroup group = true)) := by
  have hunchanged (hfree : g.kind.isRaidGroup = true →
      ∀ slot ∈ g.memberSlots.find? (·.guid = guid), slot.group ≠ group →
        g.hasFreeSlotSubGroup group = true) :
      g.Formed ∧ ((g.kind.isRaidGroup = true → g.SubGroupsRight) ↔ (g.kind.isRaidGroup = true →
          ∀ slot ∈ g.memberSlots.find? (·.guid = guid), slot.group ≠ group →
            g.hasFreeSlotSubGroup group = true)) :=
    ⟨hg, ⟨fun _ => hfree, fun _ => (kept_iff hg).mpr h⟩⟩
  rw [changeMembersGroup]
  by_cases hraid : g.kind.isRaidGroup = true
  · rw [if_pos hraid]
    cases hslot : g.memberSlots.find? (·.guid = guid) with
    | none =>
      rw [hslot] at hunchanged
      exact hunchanged nofun
    | some slot =>
      rw [hslot] at hunchanged
      by_cases hsame : slot.group = group
      · dsimp only
        rw [if_pos hsame]
        refine hunchanged fun _ other hmem hne => ?_
        cases hmem
        exact absurd hsame hne
      dsimp only
      rw [if_neg hsame]
      have hslots : ({ g with memberSlots := setSubGroup guid group g.memberSlots } :
          Group).Formed := ⟨hg.raid, hg.length⟩
      refine ⟨(hslots.count group _).count slot.group _, ?_⟩
      have hright := moved_right_iff
        ((({ g with memberSlots := setSubGroup guid group g.memberSlots } :
          Group).countSubGroup group fun n => (n + 1) % 256).countSubGroup slot.group
            fun n => (n + 255) % 256) (h hraid).1 (h hraid).2 hslot hsame rfl rfl
      constructor
      · intro hmoved _ other _ _
        exact hright.mp (hmoved hraid)
      intro hfree _
      exact hright.mpr (hfree hraid slot rfl hsame)
  rw [if_neg hraid]
  exact hunchanged fun heq => absurd heq hraid

/-- **A row that is loaded** is counted twice. -/
theorem loadMember_right_iff (h : g.Kept) (hg : g.Formed) (known : Bool) (guid subgroup : ℕ) :
    (g.loadMemberFromDB known guid subgroup).Formed ∧
      (((g.loadMemberFromDB known guid subgroup).kind.isRaidGroup = true →
          (g.loadMemberFromDB known guid subgroup).SubGroupsRight) ↔
        (known = true → g.kind.isRaidGroup = false)) := by
  cases known with
  | false => exact ⟨hg, ⟨fun _ heq => absurd heq (by simp), fun _ => (kept_iff hg).mpr h⟩⟩
  | true =>
    have hslots : ({ g with memberSlots := g.memberSlots ++ [⟨guid, subgroup⟩] } :
        Group).Formed := ⟨hg.raid, hg.length⟩
    refine ⟨(hslots.count subgroup _).count subgroup _, ?_⟩
    constructor
    · intro hright _
      by_contra hraid
      rw [Bool.not_eq_false] at hraid
      obtain ⟨hcounted, hfits⟩ := h hraid
      have hload := hright hraid
      have hplaced : subgroup < maxRaidSubgroups :=
        hload.placed ⟨guid, subgroup⟩ (mem_append_right _ (mem_singleton_self _))
      have hcount := hload.counted subgroup hplaced
      have hin := inSubGroup_append g ⟨guid, subgroup⟩ subgroup
      rw [if_pos rfl] at hin
      have hcounts : ((g.subGroupsCounts.map fun counts => counts.modify subgroup
          fun n => (n + 1) % 256).map fun counts => counts.modify subgroup
            fun n => (n + 1) % 256).bind (fun counts => counts[subgroup]?) =
          some (g.inSubGroup subgroup + 1) := hcount.trans (congrArg some hin)
      rw [hcounted, map_some, counters_modify, map_some, counters_modify,
        bind_some, getElem?_counters, if_pos hplaced, if_pos rfl, if_pos rfl] at hcounts
      have heq := some.inj hcounts
      omega
    intro hraid heq
    exact absurd ((hraid rfl).symm.trans heq) (by simp)

/-! ### Runs -/

/-- The invariant of a run: the group, if there is one, is formed and knows its subgroups. -/
def Known (s : State) : Prop := ∀ g ∈ s.group, g.Formed ∧ g.Kept

theorem map_right_iff (h : Known s) (f : Group → Group) (right : Group → Prop)
    (hf : ∀ g, g.Formed → g.Kept → (f g).Formed ∧
      (((f g).kind.isRaidGroup = true → (f g).SubGroupsRight) ↔ right g)) :
    (RaidRight { s with group := s.group.map f } ↔ ∀ g ∈ s.group, right g) ∧
      ∀ g ∈ s.group.map f, g.Formed := by
  have hgroup (g : Group) (hg : g ∈ s.group) := hf g (h g hg).1 (h g hg).2
  constructor
  · constructor
    · intro hright g hg
      exact (hgroup g hg).2.mp (hright (f g) (mem_map_of_mem f hg))
    intro hright g' hg'
    obtain ⟨g, hg, rfl⟩ := map_eq_some_iff.mp hg'
    exact (hgroup g hg).2.mpr (hright g hg)
  intro g' hg'
  obtain ⟨g, hg, rfl⟩ := map_eq_some_iff.mp hg'
  exact (hgroup g hg).1

theorem Known.right (h : Known s) : RaidRight s := by
  intro g hg hraid
  obtain ⟨hcounted, hfits⟩ := (h g hg).2 hraid
  exact right_of_counted hcounted hfits

theorem known_step (h : Known s) (r : Request) : Known (step s r) := by
  intro g' hg'
  cases r with
  | create kind leader =>
    simp only [step] at hg'
    split at hg'
    · exact h g' hg'
    obtain ⟨hkept, hformed⟩ := newGroup_kept kind leader
    split at hg'
    · cases hg'
      exact ⟨hformed.addMember leader, hkept.addMember leader⟩
    · cases hg'
  | addMember player =>
    obtain ⟨g, hg, rfl⟩ := map_eq_some_iff.mp hg'
    exact ⟨(h g hg).1.addMember player, (h g hg).2.addMember player⟩
  | removeMember guid method =>
    obtain ⟨g, hg, hremoved⟩ := bind_eq_some_iff.mp hg'
    exact (removeMember_kept (h g hg).2 (h g hg).1 s.world guid method g' hremoved).symm
  | changeLeader guid =>
    obtain ⟨g, hg, rfl⟩ := map_eq_some_iff.mp hg'
    have hlike := like_changeLeader g s.world guid
    exact ⟨hlike.formed (h g hg).1, hlike.kept (h g hg).2⟩
  | logIn guid =>
    obtain ⟨g, hg, rfl⟩ := map_eq_some_iff.mp hg'
    have hlike : g.Like (if guid ∈ g.members then g.link guid else g) := by
      split <;> exact ⟨rfl, rfl, rfl⟩
    exact ⟨hlike.formed (h g hg).1, hlike.kept (h g hg).2⟩
  | logOut guid =>
    obtain ⟨g, hg, rfl⟩ := map_eq_some_iff.mp hg'
    have hlike : g.Like (g.unlink guid) := ⟨rfl, rfl, rfl⟩
    exact ⟨hlike.formed (h g hg).1, hlike.kept (h g hg).2⟩
  | surroundings w => exact h g' hg'

theorem loadGroup_known (leader : ℕ) (known : Bool) (groupType : ℕ) :
    (loadGroupFromDB leader known groupType).Formed ∧
      (loadGroupFromDB leader known groupType).Kept := by
  have hplain (kind : GroupKind) (hraid : kind.isRaidGroup = false) :
      (mk kind [] [] none leader).Formed ∧ (mk kind [] [] none leader).Kept := by
    refine ⟨⟨hraid, nofun⟩, fun heq => ?_⟩
    exact absurd (hraid.symm.trans heq) (by simp)
  rw [loadGroupFromDB]
  dsimp only
  split
  · split
    · rename_i hraid
      have hformed : (initRaidSubGroupsCounter
          ⟨⟨groupType.testBit 3, false, false, groupType.testBit 1⟩, [], [], none, leader⟩).Formed :=
        initRaid_formed hraid
      refine ⟨hformed, (kept_iff hformed).mp fun _ => (initRaid_right_iff _).mpr ?_⟩
      exact ⟨fun i _ => Nat.zero_le _, nofun⟩
    rename_i hraid
    exact hplain _ (by simpa using hraid)
  · exact hplain _ rfl

/-- **One command**: what it leaves is right exactly if it is orderly. -/
theorem perform_right_iff (h : Known s) (c : Command) :
    (RaidRight (perform s c) ↔ Orderly s c) ∧ ∀ g ∈ (perform s c).group, g.Formed := by
  have hkeep (hknown : Known (perform s c)) (horderly : Orderly s c) :
      (RaidRight (perform s c) ↔ Orderly s c) ∧ ∀ g ∈ (perform s c).group, g.Formed :=
    ⟨⟨fun _ => horderly, fun _ => hknown.right⟩, fun g hg => (hknown g hg).1⟩
  cases c with
  | ask r => exact hkeep (known_step h r) trivial
  | loadGroup leader known groupType =>
    refine hkeep ?_ trivial
    intro g hg
    simp only [perform] at hg
    split at hg
    · exact h g hg
    cases hg
    exact loadGroup_known leader known groupType
  | loadMember known guid subgroup =>
    exact map_right_iff h _ _ fun g hformed hkept =>
      loadMember_right_iff hkept hformed known guid subgroup
  | convertToLFG =>
    refine hkeep (fun g' hg' => ?_) trivial
    obtain ⟨g, hg, rfl⟩ := map_eq_some_iff.mp hg'
    have hlike : g.Like g.convertToLFG := ⟨rfl, rfl, rfl⟩
    exact ⟨hlike.formed (h g hg).1, hlike.kept (h g hg).2⟩
  | convertToRaid =>
    refine map_right_iff h _ _ fun g _ _ => ⟨initRaid_formed rfl, ?_⟩
    constructor
    · intro hright
      exact (initRaid_right_iff { g with kind := { g.kind with isRaidGroup := true } }).mp
        (hright rfl)
    intro hfits _
    exact (initRaid_right_iff { g with kind := { g.kind with isRaidGroup := true } }).mpr hfits
  | convertToGroup =>
    refine hkeep (fun g' hg' => ?_) trivial
    obtain ⟨g, hg, rfl⟩ := map_eq_some_iff.mp hg'
    rw [convertToGroup]
    split
    · exact h g hg
    · exact ⟨⟨rfl, nofun⟩, nofun⟩
  | changeMembersGroup guid group =>
    exact map_right_iff h _ _ fun g hformed hkept =>
      changeMembersGroup_right_iff hkept hformed guid group

/-- **The subgroups of a raid.**  From no group, in whatever world: after every command of a
run the raid knows its subgroups exactly if the run is orderly throughout. -/
theorem subgroups_right_iff (w : World) (cs : List Command) :
    Along perform (fun s c => RaidRight (perform s c)) ⟨none, w⟩ cs ↔
      Along perform Orderly ⟨none, w⟩ cs := by
  refine Along.iff_of_invariant (I := Known) (fun s c h => (perform_right_iff h c).1)
    (fun s c h hright g hg => ?_) nofun
  have hformed := (perform_right_iff h c).2 g hg
  exact ⟨hformed, (kept_iff hformed).mp (hright g hg)⟩

/-- A raid is loaded from the database, and its one member is counted twice. -/
theorem loaded_counted_twice : ¬Along perform (fun s c => RaidRight (perform s c))
      ⟨none, ⟨fun _ => true, fun _ => true, fun _ => 0, 0⟩⟩
      [.loadGroup 1 true 2, .loadMember true 1 0] := by
  rintro ⟨-, hright, -⟩
  have hcounted := (hright _ rfl rfl).counted 0 (by decide)
  exact absurd hcounted (by decide)

end ZerosCore.Groups
