/-
# The containers of the threat manager

A hostile reference is moved between the two containers by the event its setters fire, from
inside the setter, and the current victim is a pointer into one of them.  Whatever is asked
of the manager, in whatever world, each unit has one reference at most, it is in the online
container exactly if it is online and in the offline container otherwise, and the current
victim is in the online container (`containers_right`).

No setter leaves a reference between two requests that its event did not move; while one
runs, the flag is ahead of the containers, and the events that are fired before the move do
not look at them (`Inv.setOnlineOfflineState`).  A threat on a pet is also one on its owner,
and that on the owner of the owner; the containers are right however far up this goes.
-/

import ZerosCore.Combat.ThreatManager
import ZerosCore.Lib.Run
import Mathlib.Data.List.Nodup
import Mathlib.Data.List.Perm.Basic

namespace ZerosCore.Combat

open Lib List Option ThreatManager

/-- The containers are right. -/
structure ContainersRight {F : Type} (s : ThreatManager F) : Prop where
  /-- A unit has one reference at most. -/
  unique : ∀ i j r r', s.refs i = some r → s.refs j = some r' → r.unitGuid = r'.unitGuid → i = j
  online_iff : ∀ id r, s.refs id = some r → (id ∈ s.online ↔ r.isOnline = true)
  offline_iff : ∀ id r, s.refs id = some r → (id ∈ s.offline ↔ r.isOnline = false)
  /-- The containers hold no reference twice, and no reference that was deleted. -/
  nodup : (s.online ++ s.offline).Nodup
  live : ∀ id, id ∈ s.online ∨ id ∈ s.offline → ∃ r, s.refs id = some r
  victim : ∀ id, s.currentVictim = some id → id ∈ s.online

/-- The containers are right, and pointers yet to come point to nothing. -/
structure Inv {F : Type} (s : ThreatManager F) : Prop extends ContainersRight s where
  fresh : ∀ id, s.next ≤ id → s.refs id = none

variable {F : Type} {s t : ThreatManager F} {ops : Floats F} {w : World F} {id : ℕ}
  {add : ThreatManager F → ℕ → F → ThreatManager F}

/-! ### What the containers depend on -/

/-- What of a reference the containers depend on. -/
def key (s : ThreatManager F) (id : ℕ) : Option (ℕ × Bool) :=
  (s.refs id).map fun r => (r.unitGuid, r.isOnline)

theorem key_some {r : HostileReference F} (h : s.refs id = some r) :
    key s id = some (r.unitGuid, r.isOnline) := by
  rw [key, h, map_some]

variable {g : ℕ} {b : Bool}

theorem exists_of_key (h : key s id = some (g, b)) :
    ∃ r, s.refs id = some r ∧ r.unitGuid = g ∧ r.isOnline = b := by
  obtain ⟨r, hr, hkey⟩ := map_eq_some_iff.mp h
  cases hkey
  exact ⟨r, hr, rfl, rfl⟩

theorem inv_iff_key : Inv s ↔
    (∀ i j g b b', key s i = some (g, b) → key s j = some (g, b') → i = j) ∧
      (∀ id g b, key s id = some (g, b) → (id ∈ s.online ↔ b = true) ∧ (id ∈ s.offline ↔ b = false)) ∧
      (s.online ++ s.offline).Nodup ∧ (∀ id, id ∈ s.online ∨ id ∈ s.offline → key s id ≠ none) ∧
      (∀ id, s.currentVictim = some id → id ∈ s.online) ∧ ∀ id, s.next ≤ id → key s id = none := by
  constructor
  · intro h
    refine ⟨fun i j g b b' hi hj => ?_, fun id g b hid => ?_, h.nodup, fun id hid hnone => ?_,
      h.victim, fun id hid => by rw [key, h.fresh id hid, map_none]⟩
    · obtain ⟨r, hr, hg, -⟩ := exists_of_key hi
      obtain ⟨r', hr', hg', -⟩ := exists_of_key hj
      exact h.unique i j r r' hr hr' (hg.trans hg'.symm)
    · obtain ⟨r, hr, -, rfl⟩ := exists_of_key hid
      exact ⟨h.online_iff id r hr, h.offline_iff id r hr⟩
    obtain ⟨r, hr⟩ := h.live id hid
    rw [key_some hr] at hnone
    cases hnone
  rintro ⟨hunique, hcontainers, hnodup, hlive, hvictim, hfresh⟩
  refine ⟨⟨fun i j r r' hr hr' hg => ?_, fun id r hr => (hcontainers id _ _ (key_some hr)).1,
    fun id r hr => (hcontainers id _ _ (key_some hr)).2, hnodup, fun id hid => ?_, hvictim⟩,
    fun id hid => map_eq_none_iff.mp (hfresh id hid)⟩
  · refine hunique i j _ _ r'.isOnline (key_some hr) ?_
    rw [hg, key_some hr']
  · exact ne_none_iff_exists'.mp fun hnone => hlive id hid (by rw [key, hnone]; rfl)

theorem Inv.congr (h : Inv s) (hkey : ∀ id, key t id = key s id) (hnext : t.next = s.next)
    (honline : t.online = s.online) (hoffline : t.offline = s.offline)
    (hvictim : t.currentVictim = s.currentVictim) : Inv t := by
  rw [inv_iff_key] at h ⊢
  simp only [hkey, hnext, honline, hoffline, hvictim]
  exact h

variable {f : HostileReference F → HostileReference F}

theorem Inv.modify (h : Inv s) (id : ℕ)
    (hf : ∀ r, (f r).unitGuid = r.unitGuid ∧ (f r).isOnline = r.isOnline) :
    Inv (s.modify id f) := by
  refine h.congr (fun j => ?_) rfl rfl rfl rfl
  by_cases hj : j = id
  · simp [key, ThreatManager.modify, hj, Function.comp_def, hf]
  · simp [key, ThreatManager.modify, hj]

theorem Inv.setDirty (h : Inv s) : Inv s.setDirty := h.congr (fun _ => rfl) rfl rfl rfl rfl

/-! ### Events -/

theorem Inv.threatChange (h : Inv s) (id : ℕ) (value : F) :
    Inv (s.fireStatusChanged ops id (.threatChange value)) := by
  rw [fireStatusChanged]
  split
  · exact h
  rw [processThreatEvent]
  split
  · exact h.setDirty
  · exact h

@[simp] theorem fire_accessible (s : ThreatManager F) (id : ℕ) :
    s.fireStatusChanged ops id .accessibleStatus = s := by
  rw [fireStatusChanged]
  split <;> rfl

theorem setAccessible_eq (ops : Floats F) (s : ThreatManager F) (id : ℕ) (b : Bool) :
    s.setAccessibleState ops id b = s ∨
      s.setAccessibleState ops id b = s.modify id fun r => { r with isAccessible := b } := by
  rw [setAccessibleState, fire_accessible]
  split
  · exact .inr rfl
  · exact .inl rfl

theorem Inv.setAccessibleState (h : Inv s) (id : ℕ) (b : Bool) :
    Inv (s.setAccessibleState ops id b) := by
  rcases setAccessible_eq ops s id b with heq | heq
  · rw [heq]
    exact h
  rw [heq]
  exact h.modify id fun _ => ⟨rfl, rfl⟩

variable {l : List ℕ}

theorem mem_remove {j : ℕ} : j ∈ remove l id ↔ j ∈ l ∧ j ≠ id := by
  rw [remove, mem_filter, decide_eq_true_iff]

/-- **A reference that goes offline**, and that one that comes online, is moved: the
invariant holds again if it held before its flag was set. -/
theorem Inv.moved (h : Inv s) (hid : key s id = some (g, !b))
    (hkey : ∀ j, key t j = if j = id then some (g, b) else key s j) (hnext : t.next = s.next)
    (honline : t.online = if b then s.online ++ [id] else remove s.online id)
    (hoffline : t.offline = if b then remove s.offline id else s.offline ++ [id])
    (hvictim : ∀ j, t.currentVictim = some j → s.currentVictim = some j ∧ (b = false → j ≠ id)) :
    Inv t := by
  rw [inv_iff_key] at h ⊢
  obtain ⟨hunique, hcontainers, hnodup, hlive, hvictims, hfresh⟩ := h
  have hother {j : ℕ} (hj : j ≠ id) : key t j = key s j := (hkey j).trans (if_neg hj)
  have hself : key t id = some (g, b) := (hkey id).trans (if_pos rfl)
  obtain ⟨hin, hout⟩ := hcontainers id g _ hid
  have honlineMem (j : ℕ) : j ∈ t.online ↔ if j = id then b = true else j ∈ s.online := by
    rw [honline]
    cases b with
    | false => by_cases hj : j = id <;> simp [mem_remove, hj]
    | true => by_cases hj : j = id <;> simp [hj]
  have hofflineMem (j : ℕ) : j ∈ t.offline ↔ if j = id then b = false else j ∈ s.offline := by
    rw [hoffline]
    cases b with
    | false => by_cases hj : j = id <;> simp [hj]
    | true => by_cases hj : j = id <;> simp [mem_remove, hj]
  refine ⟨fun i j g' b' b'' hi hj => ?_, fun j g' b' hj => ?_, ?_, fun j hj => ?_, fun j hj => ?_,
    fun j hj => ?_⟩
  · by_cases hiid : i = id
    · by_cases hjid : j = id
      · rw [hiid, hjid]
      rw [hiid, hself] at hi
      cases hi
      rw [hother hjid] at hj
      exact absurd (hunique j id g b'' _ hj hid) hjid
    rw [hother hiid] at hi
    by_cases hjid : j = id
    · rw [hjid, hself] at hj
      cases hj
      exact absurd (hunique i id g b' _ hi hid) hiid
    rw [hother hjid] at hj
    exact hunique i j g' b' b'' hi hj
  · rw [honlineMem, hofflineMem]
    by_cases hjid : j = id
    · rw [hjid, hself] at hj
      cases hj
      rw [if_pos hjid, if_pos hjid]
      exact ⟨Iff.rfl, Iff.rfl⟩
    rw [hother hjid] at hj
    rw [if_neg hjid, if_neg hjid]
    exact hcontainers j g' b' hj
  · obtain ⟨honlineNodup, hofflineNodup, hapart⟩ := nodup_append.mp hnodup
    refine nodup_append.mpr ⟨?_, ?_, fun i hi j hj hij => ?_⟩
    · rw [honline]
      cases b with
      | false => exact honlineNodup.filter _
      | true =>
        have hnot : id ∉ s.online := fun hmem => by cases hin.mp hmem
        exact nodup_append_comm.mpr (nodup_cons.mpr ⟨hnot, honlineNodup⟩)
    · rw [hoffline]
      cases b with
      | false =>
        have hnot : id ∉ s.offline := fun hmem => by cases hout.mp hmem
        exact nodup_append_comm.mpr (nodup_cons.mpr ⟨hnot, hofflineNodup⟩)
      | true => exact hofflineNodup.filter _
    subst hij
    rw [honlineMem] at hi
    rw [hofflineMem] at hj
    by_cases hiid : i = id
    · rw [if_pos hiid] at hi hj
      rw [hi] at hj
      cases hj
    rw [if_neg hiid] at hi hj
    exact hapart i hi i hj rfl
  · rw [honlineMem, hofflineMem] at hj
    by_cases hjid : j = id
    · rw [hjid, hself]
      exact some_ne_none _
    rw [if_neg hjid, if_neg hjid] at hj
    rw [hother hjid]
    exact hlive j hj
  · obtain ⟨hold, hnot⟩ := hvictim j hj
    rw [honlineMem]
    split
    · rename_i hjid
      cases b with
      | false => exact absurd hjid (hnot rfl)
      | true => rfl
    · exact hvictims j hold
  have hjid : j ≠ id := by
    rintro rfl
    rw [hfresh j (hnext ▸ hj)] at hid
    cases hid
  rw [hother hjid]
  exact hfresh j (hnext ▸ hj)

theorem dropVictim_eq (s : ThreatManager F) (id : ℕ) :
    (s.dropVictim id).refs = s.refs ∧ (s.dropVictim id).next = s.next ∧
      (s.dropVictim id).online = s.online ∧ (s.dropVictim id).offline = s.offline ∧
      ∀ j, (s.dropVictim id).currentVictim = some j → s.currentVictim = some j ∧ j ≠ id := by
  rw [dropVictim]
  split
  · exact ⟨rfl, rfl, rfl, rfl, nofun⟩
  rename_i hvictim
  refine ⟨rfl, rfl, rfl, rfl, fun j hj => ⟨hj, ?_⟩⟩
  rintro rfl
  exact hvictim hj

theorem Inv.onlineStatus (h : Inv s) {u : ThreatManager F}
    (hid : key s id = some (g, !b)) (hkey : ∀ j, key u j = if j = id then some (g, b) else key s j)
    (hnext : u.next = s.next) (honline : u.online = s.online) (hoffline : u.offline = s.offline)
    (hvictim : u.currentVictim = s.currentVictim) :
    Inv (u.fireStatusChanged ops id .onlineStatus) := by
  obtain ⟨r, hr, -, hrb⟩ := exists_of_key ((hkey id).trans (if_pos rfl))
  rw [fireStatusChanged, hr]
  dsimp only
  rw [processThreatEvent, hrb]
  cases b with
  | false =>
    obtain ⟨hrefs, hdropNext, hdropOnline, hdropOffline, hdropVictim⟩ := dropVictim_eq u id
    refine h.moved hid (fun j => ?_) (hdropNext.trans hnext) ?_ ?_ fun j hj => ?_
    · rw [← hkey j]
      exact congrArg _ (congrFun hrefs j)
    · dsimp only
      rw [hdropOnline, honline]
      rfl
    · dsimp only
      rw [hdropOffline, hoffline]
      rfl
    obtain ⟨hold, hne⟩ := hdropVictim j hj
    exact ⟨hvictim ▸ hold, fun _ => hne⟩
  | true =>
    rw [if_pos rfl]
    -- whether the order is looked at again changes none of the rest
    have hmoved (d : Bool) :
        Inv { u with online := u.online ++ [id], offline := remove u.offline id, dirty := d } := by
      refine h.moved hid hkey hnext ?_ ?_ fun j hj => ⟨hvictim ▸ hj, nofun⟩
      · rw [if_pos rfl, ← honline]
      · rw [if_pos rfl, ← hoffline]
    cases u.currentVictim with
    | none => exact hmoved u.dirty
    | some victim =>
      dsimp only
      split
      · exact hmoved true
      · exact hmoved u.dirty

/-- **The setter of the flag** moves the reference. -/
theorem Inv.setOnlineOfflineState (h : Inv s) (id : ℕ) (b : Bool) :
    Inv (s.setOnlineOfflineState ops id b) := by
  rw [ThreatManager.setOnlineOfflineState]
  split
  · rename_i hdiff
    obtain ⟨r, hr, hne⟩ := (any_eq_true _ _).mp hdiff
    have hid : key s id = some (r.unitGuid, !b) := by
      rw [key_some hr]
      cases b <;> cases hb : r.isOnline <;> simp [hb] at hne ⊢
    have hset (j : ℕ) : key (s.modify id fun r => { r with isOnline := b }) j =
        if j = id then some (r.unitGuid, b) else key s j := by
      by_cases hj : j = id
      · simp [key, ThreatManager.modify, hj, hr]
      · simp [key, ThreatManager.modify, hj]
    dsimp only
    split
    · exact h.onlineStatus hid hset rfl rfl rfl rfl
    rcases setAccessible_eq ops (s.modify id fun r => { r with isOnline := b }) id false
      with heq | heq
    · rw [heq]
      exact h.onlineStatus hid hset rfl rfl rfl rfl
    rw [heq]
    refine h.onlineStatus hid (fun j => ?_) rfl rfl rfl rfl
    by_cases hj : j = id
    · simp [key, ThreatManager.modify, hj, hr]
    · simp [key, ThreatManager.modify, hj]
  · exact h

theorem Inv.updateOnlineStatus (h : Inv s) (id : ℕ) : Inv (s.updateOnlineStatus ops w id) := by
  have hlinked : Inv (s.relink w id) := h.modify id fun _ => ⟨rfl, rfl⟩
  simp only [ThreatManager.updateOnlineStatus]
  split
  · exact hlinked
  · exact (hlinked.setAccessibleState id _).setOnlineOfflineState id _

/-! ### Threats -/

def Keeps (add : ThreatManager F → ℕ → F → ThreatManager F) : Prop :=
  ∀ s g threat, Inv s → Inv (add s g threat)

theorem Inv.changeThreat (h : Inv s) (id : ℕ) (threat : F) :
    Inv (s.changeThreat ops w id threat) := by
  have hthreat : Inv (s.modify id fun r => { r with threat := ops.add r.threat threat }) :=
    h.modify id fun _ => ⟨rfl, rfl⟩
  have hwake : Inv ((s.modify id fun r => { r with threat := ops.add r.threat threat }).wake ops w
      id) := by
    rw [wake]
    split
    · exact hthreat
    · exact hthreat.updateOnlineStatus id
  rw [ThreatManager.changeThreat]
  split
  · exact hwake
  · exact hwake.threatChange id threat

theorem Inv.refAddThreat (h : Inv s) (hadd : Keeps add) (id : ℕ) (threat : F) :
    Inv (s.refAddThreat ops w add id threat) := by
  have hchanged : Inv (s.changeThreat ops w id threat) := h.changeThreat id threat
  rw [ThreatManager.refAddThreat]
  split
  · exact hchanged
  split
  · split
    · exact hchanged
    split
    · exact hadd _ _ _ hchanged
    · exact hchanged
  · exact hchanged

variable {victim : ℕ}

theorem not_found (h : s.getReferenceByTarget l victim = none)
    (hid : id ∈ l) (hkey : key s id = some (g, b)) : g ≠ victim := by
  obtain ⟨r, hr, rfl, -⟩ := exists_of_key hkey
  have hnot := find?_eq_none.mp h id hid
  rw [hr, any_some, beq_iff_eq] at hnot
  exact hnot

/-- **A new reference** of a unit that has none. -/
theorem Inv.newReference (h : Inv s) (honline : s.getReferenceByTarget s.online victim = none)
    (hoffline : s.getReferenceByTarget s.offline victim = none) :
    Inv (s.newReference ops victim) := by
  rw [inv_iff_key] at h ⊢
  obtain ⟨hunique, hcontainers, hnodup, hlive, hvictims, hfresh⟩ := h
  have hnew : key (s.newReference ops victim) s.next = some (victim, true) := by
    simp [key, ThreatManager.newReference]
  have hold {j : ℕ} (hj : j ≠ s.next) : key (s.newReference ops victim) j = key s j := by
    simp [key, ThreatManager.newReference, hj]
  have hother {j g : ℕ} {b : Bool} (hj : key s j = some (g, b)) : g ≠ victim := by
    obtain ⟨hin, hout⟩ := hcontainers j g b hj
    cases b with
    | true => exact not_found honline (hin.mpr rfl) hj
    | false => exact not_found hoffline (hout.mpr rfl) hj
  have hnext := hfresh s.next (Nat.le_refl _)
  refine ⟨fun i j g b b' hi hj => ?_, fun j g b hj => ?_, ?_, fun j hj => ?_, fun j hj => ?_,
    fun j hj => ?_⟩
  · by_cases hin : i = s.next
    · by_cases hjn : j = s.next
      · rw [hin, hjn]
      rw [hin, hnew] at hi
      cases hi
      rw [hold hjn] at hj
      exact absurd rfl (hother hj)
    rw [hold hin] at hi
    by_cases hjn : j = s.next
    · rw [hjn, hnew] at hj
      cases hj
      exact absurd rfl (hother hi)
    rw [hold hjn] at hj
    exact hunique i j g b b' hi hj
  · have hmem : j ∈ s.online ++ [s.next] ↔ j ∈ s.online ∨ j = s.next := by
      rw [mem_append, mem_singleton]
    by_cases hjn : j = s.next
    · rw [hjn, hnew] at hj
      cases hj
      refine ⟨⟨fun _ => rfl, fun _ => hmem.mpr (.inr hjn)⟩, fun hoff => ?_, nofun⟩
      rw [hjn] at hoff
      exact absurd hnext (hlive _ (.inr hoff))
    rw [hold hjn] at hj
    refine ⟨Iff.trans hmem ?_, (hcontainers j g b hj).2⟩
    rw [or_iff_left hjn]
    exact (hcontainers j g b hj).1
  · have hperm : (s.online ++ [s.next] ++ s.offline).Perm (s.next :: (s.online ++ s.offline)) := by
      rw [append_assoc]
      exact perm_middle
    refine hperm.nodup_iff.mpr (nodup_cons.mpr ⟨fun hmem => ?_, hnodup⟩)
    exact hlive s.next (mem_append.mp hmem) hnext
  · by_cases hjn : j = s.next
    · rw [hjn, hnew]
      exact some_ne_none _
    rw [hold hjn]
    refine hlive j (hj.imp_left fun hon => ?_)
    rcases mem_append.mp hon with hon | hlast
    · exact hon
    · exact absurd (mem_singleton.mp hlast) hjn
  · exact mem_append_left _ (hvictims j hj)
  have hjn : s.next < j := hj
  rw [hold (Nat.ne_of_gt hjn)]
  exact hfresh j (Nat.le_of_lt hjn)

theorem Inv.addThreatTo (h : Inv s) (hadd : Keeps add) (victim : ℕ) (threat : F) :
    Inv (s.addThreatTo ops w add victim threat) := by
  rw [ThreatManager.addThreatTo]
  split
  · exact h.refAddThreat hadd _ threat
  rename_i honline
  split
  · exact h.refAddThreat hadd _ threat
  rename_i hoffline
  have hnew : Inv ((s.newReference ops victim).refAddThreat ops w add s.next threat) :=
    (h.newReference honline hoffline).refAddThreat hadd s.next threat
  split
  · exact hnew.setOnlineOfflineState _ false
  · exact hnew

theorem Inv.doAddThreat (h : Inv s) (hadd : Keeps add) (victim : ℕ) (threat : F) :
    Inv (s.doAddThreat ops w add victim threat) := by
  simp only [ThreatManager.doAddThreat]
  split
  · split
    · exact h.addThreatTo hadd victim threat
    · exact (h.addThreatTo hadd _ _).addThreatTo hadd victim _
  · exact h.addThreatTo hadd victim threat

/-- **A threat** keeps the invariant, however far up the owners it goes. -/
theorem keeps_addThreat (ops : Floats F) (w : World F) (n : ℕ) (noThreat : Bool) :
    Keeps (addThreat ops w n noThreat) := by
  induction n generalizing noThreat with
  | zero => exact fun s g threat h => h
  | succ n ih =>
    intro s g threat h
    rw [addThreat]
    split
    · exact h.doAddThreat (ih false) g _
    · exact h

/-! ### The next victim -/

/-- A scan finds a member of the list or the current victim, and asks to be repeated with the
current victim or none. -/
theorem scan_spec (ops : Floats F) (w : World F) (s : ThreatManager F) (b : Bool)
    (l : List ℕ) (victim : Option ℕ) : (∀ id, s.scan ops w b l victim = .found id → id ∈ l ∨ victim = some id) ∧
      ∀ v, s.scan ops w b l victim = .again v → v = none ∨ v = victim := by
  induction l generalizing victim with
  | nil => exact ⟨nofun, nofun⟩
  | cons ref rest ih =>
    have hrest : (∀ id, s.scan ops w b rest victim = .found id → id ∈ ref :: rest ∨
        victim = some id) ∧ ∀ v, s.scan ops w b rest victim = .again v → v = none ∨ v = victim :=
      ⟨fun id h => ((ih victim).1 id h).imp_left (mem_cons_of_mem ref), (ih victim).2⟩
    have hself : (∀ id, ThreatManager.Scan.found ref = .found id → id ∈ ref :: rest ∨
        victim = some id) ∧ ∀ v, ThreatManager.Scan.found ref = .again v → v = none ∨ v = victim :=
      ⟨fun id h => (by cases h; exact .inl mem_cons_self), nofun⟩
    rw [scan.eq_def]
    dsimp only
    split
    · split
      · obtain ⟨hfound, hagain⟩ := ih (if victim = some ref then none else victim)
        constructor
        · intro id h
          rcases hfound id h with hmem | hvictim
          · exact .inl (mem_cons_of_mem ref hmem)
          split at hvictim
          · cases hvictim
          · exact .inr hvictim
        intro v h
        rcases hagain v h with hnone | hvictim
        · exact .inl hnone
        split at hvictim
        · exact .inl hvictim
        · exact .inr hvictim
      constructor
      · intro id h
        cases h
      intro v h
      cases h
      exact .inr rfl
    split
    · cases victim with
      | none => exact hself
      | some current =>
        dsimp only
        split
        · split
          · constructor
            · intro id h
              cases h
              exact .inr rfl
            intro v h
            cases h
          · exact hself
        split
        · exact hself
        · exact hrest
    · exact hrest

/-- **`selectNextVictim`** answers with a member of the online container or the current
victim. -/
theorem selectNextVictim_mem (s : ThreatManager F) {victim : Option ℕ}
    (h : s.selectNextVictim ops w victim = some id) : id ∈ s.online ∨ victim = some id := by
  have hfirst := scan_spec ops w s false s.online victim
  rw [selectNextVictim] at h
  split at h
  · rename_i found hscan
    cases h
    exact hfirst.1 id hscan
  · cases h
  rename_i current hscan
  split at h
  · rename_i found hagain
    cases h
    rcases (scan_spec ops w s true s.online current).1 id hagain with hmem | hcurrent
    · exact .inl hmem
    rcases hfirst.2 current hscan with hnone | hsame
    · rw [hnone] at hcurrent
      cases hcurrent
    · exact .inr (hsame ▸ hcurrent)
  · cases h

theorem Inv.setCurrentVictim (h : Inv s) {victim : Option ℕ}
    (hvictim : ∀ id, victim = some id → id ∈ s.online) : Inv (s.setCurrentVictim victim) := by
  rw [inv_iff_key] at h ⊢
  obtain ⟨hunique, hcontainers, hnodup, hlive, -, hfresh⟩ := h
  exact ⟨hunique, hcontainers, hnodup, hlive, hvictim, hfresh⟩

theorem Inv.perm (h : Inv s) (hkey : ∀ id, key t id = key s id) (hnext : t.next = s.next)
    (honline : t.online.Perm s.online) (hoffline : t.offline = s.offline)
    (hvictim : t.currentVictim = s.currentVictim) : Inv t := by
  rw [inv_iff_key] at h ⊢
  simp only [hkey, hnext, hoffline, hvictim, honline.mem_iff]
  obtain ⟨hunique, hcontainers, hnodup, hrest⟩ := h
  exact ⟨hunique, hcontainers, (honline.append_right s.offline).nodup_iff.mpr hnodup, hrest⟩

theorem Inv.update (h : Inv s) : Inv (s.update ops) := by
  refine h.perm (fun _ => rfl) rfl ?_ rfl rfl
  rw [ThreatManager.update]
  split
  · exact mergeSort_perm _ _
  · exact List.Perm.refl _

theorem Inv.getHostilTarget (h : Inv s) : Inv (s.getHostilTarget ops w) := by
  have hsorted : Inv (s.update ops) := h.update
  refine hsorted.setCurrentVictim fun id hid => ?_
  rcases selectNextVictim_mem _ hid with hmem | hvictim
  · exact hmem
  · exact hsorted.victim id hvictim

/-! ### References that go -/

theorem Inv.clearReferences (h : Inv s) : Inv s.clearReferences := by
  have hnone (id : ℕ) : s.clearReferences.refs id = none := by
    simp only [ThreatManager.clearReferences]
    split
    · rfl
    rename_i hout
    refine eq_none_iff_forall_not_mem.mpr fun r hr => hout ?_
    cases hon : r.isOnline with
    | true => exact .inl ((h.online_iff id r hr).mpr hon)
    | false => exact .inr ((h.offline_iff id r hr).mpr hon)
  exact ⟨⟨fun i j r r' hr => (by rw [hnone] at hr; cases hr),
    fun id r hr => (by rw [hnone] at hr; cases hr), fun id r hr => (by rw [hnone] at hr; cases hr),
    nodup_nil, fun id hid => (by rcases hid with hid | hid <;> cases hid),
    nofun⟩, fun id _ => hnone id⟩

theorem Inv.invalidate (h : Inv s) (id : ℕ) : Inv (s.invalidate ops id) :=
  (h.setOnlineOfflineState id false).modify id fun _ => ⟨rfl, rfl⟩

theorem remove_of_not_mem (h : id ∉ l) : remove l id = l :=
  filter_eq_self.mpr fun _ hj => decide_eq_true fun heq => h (heq ▸ hj)

theorem Inv.deleted (h : Inv s) (hkey : ∀ j, key t j = if j = id then none else key s j)
    (hnext : t.next = s.next) (honline : t.online = remove s.online id)
    (hoffline : t.offline = remove s.offline id)
    (hvictim : ∀ j, t.currentVictim = some j → s.currentVictim = some j ∧ j ≠ id) : Inv t := by
  rw [inv_iff_key] at h ⊢
  obtain ⟨hunique, hcontainers, hnodup, hlive, hvictims, hfresh⟩ := h
  have hself : key t id = none := (hkey id).trans (if_pos rfl)
  have hother {j : ℕ} (hj : j ≠ id) : key t j = key s j := (hkey j).trans (if_neg hj)
  have hne {j g : ℕ} {b : Bool} (hj : key t j = some (g, b)) : j ≠ id := by
    rintro rfl
    rw [hself] at hj
    cases hj
  rw [honline, hoffline]
  refine ⟨fun i j g b b' hi hj => ?_, fun j g b hj => ?_, ?_, fun j hj => ?_, fun j hj => ?_,
    fun j hj => ?_⟩
  · exact hunique i j g b b' (hother (hne hi) ▸ hi) (hother (hne hj) ▸ hj)
  · rw [mem_remove, mem_remove, and_iff_left (hne hj), and_iff_left (hne hj)]
    exact hcontainers j g b (hother (hne hj) ▸ hj)
  · exact hnodup.sublist (Sublist.append filter_sublist filter_sublist)
  · rw [mem_remove, mem_remove, ← or_and_right] at hj
    rw [hother hj.2]
    exact hlive j hj.1
  · obtain ⟨hold, hjid⟩ := hvictim j hj
    exact mem_remove.mpr ⟨hvictims j hold, hjid⟩
  by_cases hjid : j = id
  · rw [hjid]
    exact hself
  rw [hother hjid]
  exact hfresh j (hnext ▸ hj)

/-- **A reference is taken out** of its container and deleted. -/
theorem Inv.removeReference (h : Inv s) (id : ℕ) : Inv (s.removeReference ops id) := by
  have hgone : Inv (s.invalidate ops id) := h.invalidate id
  rw [ThreatManager.removeReference]
  have hdelete {u : ThreatManager F} (hrefs : u.refs = (s.invalidate ops id).refs) (j : ℕ) :
      key { u with refs := fun j => if j = id then none else u.refs j } j =
        if j = id then none else key (s.invalidate ops id) j := by
    by_cases hj : j = id
    · simp [key, hj]
    · simp [key, hj, hrefs]
  rw [fireStatusChanged]
  split
  · rename_i hnone
    have hout : id ∉ (s.invalidate ops id).online ∧ id ∉ (s.invalidate ops id).offline := by
      constructor
      · intro hmem
        obtain ⟨r, hr⟩ := hgone.live id (.inl hmem)
        rw [hnone] at hr
        cases hr
      intro hmem
      obtain ⟨r, hr⟩ := hgone.live id (.inr hmem)
      rw [hnone] at hr
      cases hr
    refine hgone.deleted (hdelete rfl) rfl (remove_of_not_mem hout.1).symm
      (remove_of_not_mem hout.2).symm fun _ hj => ⟨hj, ?_⟩
    rintro rfl
    exact hout.1 (hgone.victim _ hj)
  rename_i r hr
  obtain ⟨hrefs, hnext, honline, hoffline, hvictim⟩ := dropVictim_eq (s.invalidate ops id) id
  have hin := hgone.online_iff id r hr
  have hout := hgone.offline_iff id r hr
  rw [processThreatEvent]
  split
  · rename_i hon
    have hnot : id ∉ (s.invalidate ops id).offline := fun hmem => by
      rw [hout.mp hmem] at hon
      cases hon
    refine hgone.deleted (hdelete hrefs) hnext ?_ ?_ hvictim
    · dsimp only
      rw [honline]
    rw [remove_of_not_mem hnot]
    exact hoffline
  rename_i hoff
  have hnot : id ∉ (s.invalidate ops id).online := fun hmem => hoff (hin.mp hmem)
  refine hgone.deleted (hdelete hrefs) hnext ?_ ?_ hvictim
  · rw [remove_of_not_mem hnot]
    exact honline
  dsimp only
  rw [hoffline]

theorem Inv.addTempThreat (h : Inv s) (hadd : Keeps add) (id : ℕ) (threat : F) :
    Inv (s.addTempThreat ops w add id threat) := by
  have hset : Inv (s.modify id fun r => { r with tempThreatModifier := threat }) :=
    h.modify id fun _ => ⟨rfl, rfl⟩
  rw [ThreatManager.addTempThreat]
  split
  · exact hset
  · exact hset.refAddThreat hadd id threat

theorem Inv.resetTempThreat (h : Inv s) (hadd : Keeps add) (id : ℕ) :
    Inv (s.resetTempThreat ops w add id) := by
  rw [ThreatManager.resetTempThreat]
  split
  · exact h
  split
  · exact h
  · exact (h.refAddThreat hadd id _).modify id fun _ => ⟨rfl, rfl⟩

/-! ### Runs -/

/-- **One request** keeps the invariant. -/
theorem Inv.step (h : Inv s) (ops : Floats F) (deep : ℕ) (r : World F × Request F) :
    Inv (step ops deep s r) := by
  obtain ⟨w, r⟩ := r
  have hadd := keeps_addThreat ops w deep
  cases r with
  | addThreat victim threat noThreat => exact hadd noThreat s victim threat h
  | doAddThreat victim threat => exact h.doAddThreat (hadd false) victim threat
  | modifyThreatPercent victim percent =>
    simp only [Combat.step, modifyThreatPercent]
    split
    · exact h
    · exact h.refAddThreat (hadd false) _ _
  | refAddThreat id threat => exact h.refAddThreat (hadd false) id threat
  | addTempThreat id threat => exact h.addTempThreat (hadd false) id threat
  | resetTempThreat id => exact h.resetTempThreat (hadd false) id
  | tauntApply taunter =>
    simp only [Combat.step, tauntApply]
    split
    · split
      · exact h.addTempThreat (hadd false) _ _
      · exact h
    · exact h
  | tauntFadeOut taunter =>
    simp only [Combat.step, tauntFadeOut]
    split
    · exact h
    · exact h.resetTempThreat (hadd false) _
  | setOnlineOfflineState id isOnline => exact h.setOnlineOfflineState id isOnline
  | updateOnlineStatus id => exact h.updateOnlineStatus id
  | invalidate id => exact h.invalidate id
  | removeReference id => exact h.removeReference id
  | setDirty => exact h.setDirty
  | setCurrentVictim victim =>
    simp only [Combat.step]
    split
    · exact h
    rename_i id hfound
    refine h.setCurrentVictim fun j hj => ?_
    cases hj
    exact mem_of_find?_eq_some hfound
  | getHostilTarget => exact h.getHostilTarget
  | clearReferences => exact h.clearReferences

theorem inv_empty : Inv (.empty : ThreatManager F) :=
  ⟨⟨nofun, nofun, nofun,
    nodup_nil, fun _ h => (by rcases h with h | h <;> cases h), nofun⟩,
    fun _ _ => rfl⟩

/-- **The containers of the threat manager.**  Whatever is asked of a manager, in whatever
worlds and with whatever floating-point numbers: each unit has one reference at most, it is
in the online container exactly if it is online and in the offline container otherwise, and
the current victim is none or in the online container. -/
theorem containers_right (ops : Floats F) (deep : ℕ) (rs : List (World F × Request F)) :
    Along (step ops deep) (fun s r => ContainersRight (step ops deep s r)) .empty rs :=
  Along.of_invariant (G := fun _ _ => True) (I := Inv) (fun _ r h _ => h.step ops deep r)
    (fun _ r h _ => (h.step ops deep r).toContainersRight) inv_empty along_true

end ZerosCore.Combat
