/-
# The order of the threat list

`ThreatContainer::update` sorts the online list if a flag says that its order might have changed,
and `ThreatManager::processThreatEvent` sets that flag for the rise of an entry that is not the
current victim and for the fall of the victim.  A rise of the victim and a fall of another entry are
not reported, and an entry that comes online, or is new, is put at the end and reported only if it
has more than 110% of the victim's threat, or a threat is added to it at once.

Where each change that is not reported leaves the entry in its place (`Right`), the list is sorted
after every request and the update (`sorted_after_update`).
-/

import ZerosCore.Combat.HostileReferences
import ZerosCore.Combat.VictimSelection

namespace ZerosCore.Combat

open Lib ThreatManager List Option ThreatManager

variable {s t u : ThreatManager ℚ} {w : World ℚ} {id : ℕ} {mod threat : ℚ}

/-! ### Sorted lists -/

/-- The online list is sorted by non-increasing threat. -/
def Sorted (s : ThreatManager ℚ) : Prop :=
  s.online.Pairwise fun i j => s.threatOf j ≤ s.threatOf i

instance : Decidable (Sorted s) :=
  inferInstanceAs (Decidable (s.online.Pairwise fun i j => s.threatOf j ≤ s.threatOf i))

/-- The online list is sorted, or the flag says that it might not be. -/
def Ordered (s : ThreatManager ℚ) : Prop := s.dirty = false → Sorted s

/-- The same without one reference, whose threat is changing. -/
def OrderedBut (s : ThreatManager ℚ) (id : ℕ) : Prop :=
  s.dirty = false → (remove s.online id).Pairwise fun i j => s.threatOf j ≤ s.threatOf i

theorem Ordered.but (h : Ordered s) (id : ℕ) : OrderedBut s id :=
  fun hdirty => (h hdirty).sublist filter_sublist

theorem Ordered.of_sublist (h : Ordered s) (honline : t.online.Sublist s.online)
    (hthreat : ∀ j ∈ t.online, t.threatOf j = s.threatOf j)
    (hdirty : t.dirty = false → s.dirty = false) : Ordered t := by
  intro ht
  refine ((h (hdirty ht)).sublist honline).imp_of_mem fun hi hj hle => ?_
  rw [hthreat _ hi, hthreat _ hj]
  exact hle

theorem not_lt_iff (s : ThreatManager ℚ) (i j : ℕ) :
    (!rationals.lt (s.getThreat rationals i) (s.getThreat rationals j)) = true ↔
      s.threatOf j ≤ s.threatOf i := by
  rw [Bool.not_eq_true', ← not_lt]
  exact decide_eq_false_iff_not

/-- **The update** sorts. -/
theorem Ordered.update (h : Ordered s) : Sorted (s.update rationals) := by
  unfold Sorted ThreatManager.update
  split
  · refine Pairwise.imp (fun hle => (not_lt_iff s _ _).mp hle)
      (pairwise_mergeSort (fun i j k hij hjk => ?_) (fun i j => ?_) s.online)
    · rw [not_lt_iff] at hij hjk ⊢
      exact hjk.trans hij
    rw [Bool.or_eq_true, not_lt_iff, not_lt_iff]
    exact le_total _ _
  rename_i hclean
  cases hdirty : s.dirty with
  | true =>
    have hshort : s.online.length ≤ 1 := by
      by_contra hlong
      exact hclean ⟨hdirty, Nat.lt_of_not_le hlong⟩
    match hl : s.online with
    | [] => exact .nil
    | [a] => exact pairwise_singleton _ a
    | a :: b :: l =>
      rw [hl] at hshort
      exact absurd hshort (by simp)
  | false => exact h hdirty

/-! ### What the steps change -/

variable {f : HostileReference ℚ → HostileReference ℚ}

theorem threatOf_modify (s : ThreatManager ℚ) (id j : ℕ) (hf : ∀ r, (f r).threat = r.threat) :
    (s.modify id f).threatOf j = s.threatOf j := by
  unfold threatOf getThreat ThreatManager.modify
  dsimp only
  by_cases hj : j = id
  · rw [if_pos hj, Option.map_map]
    congr 1
    exact congrArg (fun g => (s.refs j).map g) (funext hf)
  · rw [if_neg hj]

theorem threatOf_congr (h : t.refs = s.refs) (j : ℕ) : t.threatOf j = s.threatOf j := by
  unfold threatOf getThreat
  rw [h]

/-- The first step of `HostileReference::addThreat`. -/
def added (s : ThreatManager ℚ) (id : ℕ) (mod : ℚ) : ThreatManager ℚ :=
  s.modify id fun r => { r with threat := rationals.add r.threat mod }

variable {r : HostileReference ℚ}

theorem refs_added (h : s.refs id = some r) (mod : ℚ) :
    (added s id mod).refs id = some { r with threat := rationals.add r.threat mod } := by
  simp [added, ThreatManager.modify, h]

theorem threatOf_added (h : s.refs id = some r) (mod : ℚ) (j : ℕ) :
    (added s id mod).threatOf j = if j = id then s.threatOf id + mod else s.threatOf j := by
  unfold added threatOf getThreat ThreatManager.modify
  dsimp only
  by_cases hj : j = id
  · rw [if_pos hj, if_pos hj, hj, h]
    rfl
  · rw [if_neg hj, if_neg hj]

theorem fire_threatChange (h : s.refs id = some r) (mod : ℚ) :
    (s.fireStatusChanged rationals id (.threatChange mod)).refs = s.refs ∧
      (s.fireStatusChanged rationals id (.threatChange mod)).online = s.online ∧
      ((s.fireStatusChanged rationals id (.threatChange mod)).dirty = false → s.dirty = false ∧
        if s.currentVictim = some id then 0 ≤ mod else mod ≤ 0) := by
  unfold fireStatusChanged
  rw [h]
  dsimp only
  rw [processThreatEvent]
  split
  · refine ⟨rfl, rfl, fun hdirty => ?_⟩
    cases hdirty
  rename_i hquiet
  refine ⟨rfl, rfl, fun hdirty => ⟨hdirty, ?_⟩⟩
  rw [not_or] at hquiet
  split
  · rename_i hvictim
    exact not_lt.mp fun hlt => hquiet.1 ⟨hvictim, decide_eq_true hlt⟩
  rename_i hvictim
  exact not_lt.mp fun hlt => hquiet.2 ⟨hvictim, decide_eq_true hlt⟩

/-- What becomes of the list when a reference is looked at: it may come online, if it can. -/
inductive Moved (s : ThreatManager ℚ) (id : ℕ) (comes : Prop) (t : ThreatManager ℚ) : Prop
  | stays (hthreat : ∀ j, t.threatOf j = s.threatOf j) (honline : t.online.Sublist s.online)
      (hdirty : t.dirty = false → s.dirty = false) : Moved s id comes t
  | enters (hcomes : comes) (hthreat : ∀ j, t.threatOf j = s.threatOf j)
      (honline : t.online = s.online ++ [id]) (hvictim : t.currentVictim = s.currentVictim)
      (hdirty : t.dirty = false → s.dirty = false ∧
        ∀ v, s.currentVictim = some v → s.threatOf id ≤ 11 / 10 * s.threatOf v) :
      Moved s id comes t

theorem Moved.refl (s : ThreatManager ℚ) (id : ℕ) (comes : Prop) : Moved s id comes s :=
  .stays (fun _ => rfl) (.refl _) fun h => h

variable {comes : Prop}

theorem Moved.of_eq {comes' : Prop} (h : Moved s id comes t) (himp : comes → comes')
    (hthreat : ∀ j, s.threatOf j = u.threatOf j) (honline : s.online = u.online)
    (hvictim : s.currentVictim = u.currentVictim) (hdirty : s.dirty = u.dirty) :
    Moved u id comes' t := by
  cases h with
  | stays ht hon hd =>
    exact .stays (fun j => (ht j).trans (hthreat j)) (honline ▸ hon) fun h => hdirty ▸ hd h
  | enters hcomes ht hon hvic hd =>
    refine .enters (himp hcomes) (fun j => (ht j).trans (hthreat j)) (hon.trans (by rw [honline]))
      (hvic.trans hvictim) fun h => ?_
    rw [← hdirty, ← hvictim, ← hthreat]
    refine ⟨(hd h).1, fun v hv => ?_⟩
    rw [← hthreat]
    exact (hd h).2 v hv

theorem moved_onlineStatus (h : s.refs id = some r) :
    Moved s id (r.isOnline = true) (s.fireStatusChanged rationals id .onlineStatus) := by
  have hthreat : s.threatOf id = r.threat := by
    unfold threatOf getThreat
    rw [h]
    rfl
  unfold fireStatusChanged
  rw [h]
  dsimp only
  rw [processThreatEvent]
  split
  · rename_i hon
    cases hvictim : s.currentVictim with
    | none =>
      refine .enters hon (fun _ => rfl) rfl rfl fun hdirty => ⟨hdirty, fun v hv => ?_⟩
      rw [hvictim] at hv
      cases hv
    | some victim =>
      dsimp only
      by_cases hmore :
          rationals.lt (rationals.mul11 (s.getThreat rationals victim)) r.threat = true
      · rw [if_pos hmore]
        exact .enters hon (fun _ => rfl) rfl rfl fun hdirty => by cases hdirty
      rw [if_neg hmore]
      refine .enters hon (fun _ => rfl) rfl rfl fun hdirty => ⟨hdirty, fun v hv => ?_⟩
      rw [hvictim] at hv
      cases hv
      rw [hthreat]
      exact not_lt.mp fun hlt => hmore (decide_eq_true hlt)
  unfold dropVictim
  split
  · exact .stays (fun _ => rfl) filter_sublist fun hdirty => by cases hdirty
  · exact .stays (fun _ => rfl) filter_sublist fun hdirty => hdirty

variable {b : Bool}

theorem Moved.of_accessible
    (h : Moved (s.setAccessibleState rationals id b) id comes t) : Moved s id comes t := by
  rcases setAccessible_eq rationals s id b with heq | heq
  · rw [heq] at h
    exact h
  rw [heq] at h
  exact h.of_eq (fun h => h) (fun j => threatOf_modify s id j fun _ => rfl) rfl rfl rfl

theorem moved_setOnlineOfflineState (s : ThreatManager ℚ) (id : ℕ) (b : Bool) :
    Moved s id (b = true ∧ ∃ r, s.refs id = some r ∧ r.isOnline = false)
      (s.setOnlineOfflineState rationals id b) := by
  unfold setOnlineOfflineState
  split
  · rename_i hdiff
    obtain ⟨r, hr, hne⟩ := (any_eq_true _ _).mp hdiff
    have hset : (s.modify id fun r => { r with isOnline := b }).refs id =
        some { r with isOnline := b } := by
      simp [ThreatManager.modify, hr]
    have hthreat (j : ℕ) : (s.modify id fun r => { r with isOnline := b }).threatOf j =
        s.threatOf j := threatOf_modify s id j fun _ => rfl
    cases b with
    | true =>
      refine (moved_onlineStatus hset).of_eq (fun _ => ⟨rfl, r, hr, ?_⟩) hthreat rfl rfl rfl
      simpa using hne
    | false =>
      have hclosed : ∃ r', ((s.modify id fun r => { r with isOnline := false }).setAccessibleState
          rationals id false).refs id = some r' ∧ r'.isOnline = false := by
        rcases setAccessible_eq rationals (s.modify id fun r => { r with isOnline := false }) id
          false with heq | heq
        · rw [heq]
          exact ⟨_, hset, rfl⟩
        rw [heq]
        simp [ThreatManager.modify, hr]
      obtain ⟨r', hr', hoff⟩ := hclosed
      have hmoved := (moved_onlineStatus hr').of_accessible
      refine hmoved.of_eq (fun hon => ?_) hthreat rfl rfl rfl
      rw [hoff] at hon
      cases hon
  · exact .refl s id _

/-- The reference is offline, and `HostileReference::updateOnlineStatus` finds its target where it
can be fought. -/
def ComesOnline (w : World ℚ) (s : ThreatManager ℚ) (id : ℕ) : Prop :=
  ∃ r, s.refs id = some r ∧ r.isOnline = false ∧
    isReachable w { r with isValid := r.isValid || w.getUnit r.unitGuid } = true ∧
    (w.isInAccessiblePlace r.unitGuid = true ∨ w.isWithinCombatRange r.unitGuid = true)

theorem moved_updateOnlineStatus (w : World ℚ) (s : ThreatManager ℚ) (id : ℕ) :
    Moved s id (ComesOnline w s id) (s.updateOnlineStatus rationals w id) := by
  have hthreat (j : ℕ) : (s.relink w id).threatOf j = s.threatOf j :=
    threatOf_modify s id j fun _ => rfl
  unfold updateOnlineStatus
  dsimp only
  cases hr : s.refs id with
  | none =>
    have hnone : (s.relink w id).refs id = none := by
      simp [relink, ThreatManager.modify, hr]
    rw [hnone]
    exact (Moved.refl (s.relink w id) id _).of_eq (fun h => h) hthreat rfl rfl rfl
  | some r =>
    have hsome : (s.relink w id).refs id =
        some { r with isValid := r.isValid || w.getUnit r.unitGuid } := by
      simp [relink, ThreatManager.modify, hr]
    rw [hsome]
    refine (moved_setOnlineOfflineState _ id _).of_accessible.of_eq (fun hcomes => ?_) hthreat rfl
      rfl rfl
    obtain ⟨honline, r', hr', hoff⟩ := hcomes
    have hstill : r.isOnline = false := by
      rcases setAccessible_eq rationals (s.relink w id) id
        (isReachable w { r with isValid := r.isValid || w.getUnit r.unitGuid } &&
          w.isInAccessiblePlace r.unitGuid) with heq | heq
      · rw [heq, hsome] at hr'
        cases hr'
        exact hoff
      rw [heq] at hr'
      simp only [ThreatManager.modify, if_pos, hsome, map_some] at hr'
      cases hr'
      exact hoff
    rw [Bool.or_eq_true, Bool.and_eq_true, Bool.and_eq_true] at honline
    rcases honline with ⟨hreach, hplace⟩ | ⟨hreach, hrange⟩
    · exact ⟨r, hr, hstill, hreach, .inl hplace⟩
    · exact ⟨r, hr, hstill, hreach, .inr hrange⟩

/-! ### Changes that are reported, or change no order -/

/-- The reference fits in at its place with a threat. -/
def Fits (s : ThreatManager ℚ) (id : ℕ) (threat : ℚ) : Prop :=
  ∀ pre post, s.online = pre ++ id :: post →
    (∀ j ∈ pre, threat ≤ s.threatOf j) ∧ ∀ j ∈ post, s.threatOf j ≤ threat

/-- A reference that comes online with a threat is reported, or fits in at the end. -/
def EntersRight (s : ThreatManager ℚ) (threat : ℚ) : Prop :=
  s.dirty = true ∨ (∃ v, s.currentVictim = some v ∧ 11 / 10 * s.threatOf v < threat) ∨
    ∀ j ∈ s.online, threat ≤ s.threatOf j

/-- **A threat is added rightly** to a reference in the list if this is reported, which it is for a
rise unless it is the current victim, and for a fall if it is, or if it fits in where it stands; and
to one that comes online if this is reported, or if it fits in at the end. -/
def ChangeRight (w : World ℚ) (s : ThreatManager ℚ) (id : ℕ) (mod : ℚ) : Prop :=
  (∀ r, s.refs id = some r → r.isOnline = true → s.dirty = true ∨
    (if s.currentVictim = some id then mod < 0 else 0 < mod) ∨ Fits s id (s.threatOf id + mod)) ∧
  (ComesOnline w s id → 0 < mod ∨ EntersRight s (s.threatOf id + mod))

theorem Moved.ordered (h : Moved s id comes t) (hs : Ordered s)
    (hright : comes → EntersRight s (s.threatOf id)) : Ordered t := by
  cases h with
  | stays hthreat honline hdirty => exact hs.of_sublist honline (fun j _ => hthreat j) hdirty
  | enters hcomes hthreat honline hvictim hdirty =>
    intro ht
    obtain ⟨hclean, hnear⟩ := hdirty ht
    unfold Sorted
    simp only [hthreat, honline]
    refine pairwise_append.mpr ⟨hs hclean, pairwise_singleton _ _, fun i hi j hj => ?_⟩
    rw [mem_singleton.mp hj]
    rcases hright hcomes with hset | ⟨v, hv, hmore⟩ | hlast
    · rw [hclean] at hset
      cases hset
    · exact absurd (hnear v hv) (not_le.mpr hmore)
    · exact hlast i hi

theorem Ordered.setOnlineOfflineState (h : Ordered s)
    (hright : b = true → ∀ r, s.refs id = some r → r.isOnline = false →
      EntersRight s (s.threatOf id)) : Ordered (s.setOnlineOfflineState rationals id b) :=
  (moved_setOnlineOfflineState s id b).ordered h fun ⟨hb, r, hr, hoff⟩ => hright hb r hr hoff

theorem Ordered.updateOnlineStatus (h : Ordered s)
    (hright : ComesOnline w s id → EntersRight s (s.threatOf id)) :
    Ordered (s.updateOnlineStatus rationals w id) :=
  (moved_updateOnlineStatus w s id).ordered h hright

theorem sorted_of_fits (hnodup : s.online.Nodup) (hmem : id ∈ s.online)
    (hbut : (remove s.online id).Pairwise fun i j => s.threatOf j ≤ s.threatOf i)
    (hfits : Fits s id threat) : s.online.Pairwise fun i j =>
      (if j = id then threat else s.threatOf j) ≤ if i = id then threat else s.threatOf i := by
  obtain ⟨pre, post, hl⟩ := append_of_mem hmem
  obtain ⟨hbefore, hafter⟩ := hfits pre post hl
  rw [hl] at hnodup hbut ⊢
  obtain ⟨-, hcons, hapart⟩ := nodup_append.mp hnodup
  have hpre {j : ℕ} (hj : j ∈ pre) : j ≠ id := hapart j hj id mem_cons_self
  have hpost {j : ℕ} (hj : j ∈ post) : j ≠ id := by
    rintro rfl
    exact (nodup_cons.mp hcons).1 hj
  have hrest : remove (pre ++ id :: post) id = pre ++ post := by
    unfold remove
    rw [filter_append, filter_cons_of_neg (by simp)]
    congr 1
    · exact filter_eq_self.mpr fun j hj => decide_eq_true (hpre hj)
    · exact filter_eq_self.mpr fun j hj => decide_eq_true (hpost hj)
  rw [hrest] at hbut
  obtain ⟨hpres, hposts, hcross⟩ := pairwise_append.mp hbut
  refine pairwise_append.mpr ⟨?_, pairwise_cons.mpr ⟨fun j hj => ?_, ?_⟩, fun i hi j hj => ?_⟩
  · refine hpres.imp_of_mem fun hi hj hle => ?_
    rw [if_neg (hpre hi), if_neg (hpre hj)]
    exact hle
  · rw [if_pos rfl, if_neg (hpost hj)]
    exact hafter j hj
  · refine hposts.imp_of_mem fun hi hj hle => ?_
    rw [if_neg (hpost hi), if_neg (hpost hj)]
    exact hle
  rw [if_neg (hpre hi)]
  rcases mem_cons.mp hj with rfl | hj
  · rw [if_pos rfl]
    exact hbefore i hi
  rw [if_neg (hpost hj)]
  exact hcross i hi j hj

theorem Ordered.threatChange (h : Ordered s) (id : ℕ) (mod : ℚ) :
    Ordered (s.fireStatusChanged rationals id (.threatChange mod)) := by
  cases hr : s.refs id with
  | none =>
    unfold fireStatusChanged
    rw [hr]
    exact h
  | some r =>
    obtain ⟨hrefs, honline, hdirty⟩ := fire_threatChange hr mod
    refine h.of_sublist (by rw [honline]) (fun j _ => threatOf_congr hrefs j) fun hclean => ?_
    exact (hdirty hclean).1

theorem Ordered.reported (h : Ordered s) (id : ℕ) (mod : ℚ) :
    Ordered (if rationals.eq mod rationals.zero then s
      else s.fireStatusChanged rationals id (.threatChange mod)) := by
  split
  · exact h
  · exact h.threatChange id mod

theorem changeThreat_eq (w : World ℚ) (s : ThreatManager ℚ) (id : ℕ) (mod : ℚ) :
    s.changeThreat rationals w id mod =
      if rationals.eq mod rationals.zero then (added s id mod).wake rationals w id
      else ((added s id mod).wake rationals w id).fireStatusChanged rationals id
        (.threatChange mod) := rfl

theorem OrderedBut.changeThreat_online (hinv : Inv s) (h : OrderedBut s id)
    (hr : s.refs id = some r) (hon : r.isOnline = true) (hright : ChangeRight w s id mod) :
    Ordered (s.changeThreat rationals w id mod) := by
  have hset := refs_added hr mod
  have hawake : (added s id mod).wake rationals w id = added s id mod := by
    unfold wake
    rw [hset, any_some, if_pos hon]
  have hfits (hclean : s.dirty = false)
      (hquiet : if s.currentVictim = some id then 0 ≤ mod else mod ≤ 0) :
      Sorted (added s id mod) := by
    rcases hright.1 r hr hon with hdirty | hnoticed | hfits
    · rw [hclean] at hdirty
      cases hdirty
    · split at hnoticed
      · rename_i hvictim
        rw [if_pos hvictim] at hquiet
        exact absurd hnoticed (not_lt.mpr hquiet)
      rename_i hvictim
      rw [if_neg hvictim] at hquiet
      exact absurd hnoticed (not_lt.mpr hquiet)
    unfold Sorted
    simp only [threatOf_added hr mod]
    exact sorted_of_fits (nodup_append.mp hinv.nodup).1 ((hinv.online_iff id r hr).mpr hon)
      (h hclean) hfits
  rw [changeThreat_eq, hawake]
  split
  · rename_i hzero
    have hmod : mod = 0 := of_decide_eq_true hzero
    refine fun hclean => hfits hclean ?_
    rw [hmod, ite_self]
  obtain ⟨hrefs, honline, hdirty⟩ := fire_threatChange hset mod
  intro hclean
  obtain ⟨hclean, hquiet⟩ := hdirty hclean
  unfold Sorted
  simp only [threatOf_congr hrefs, honline]
  exact hfits hclean hquiet

theorem Ordered.changeThreat_offline (hinv : Inv s) (h : Ordered s)
    (hr : s.refs id = some r) (hoff : r.isOnline = false) (hright : ChangeRight w s id mod) :
    Ordered (s.changeThreat rationals w id mod) := by
  have hset := refs_added hr mod
  have hawake : (added s id mod).wake rationals w id =
      (added s id mod).updateOnlineStatus rationals w id := by
    unfold wake
    rw [hset, any_some, if_neg (by simp [hoff])]
  have hout : id ∉ s.online := fun hmem => by
    rw [(hinv.online_iff id r hr).mp hmem] at hoff
    cases hoff
  have hother {j : ℕ} (hj : j ∈ s.online) : (added s id mod).threatOf j = s.threatOf j := by
    have hne : j ≠ id := fun heq => hout (heq ▸ hj)
    rw [threatOf_added hr, if_neg hne]
  have hadded : Ordered (added s id mod) :=
    h.of_sublist (.refl _) (fun j hj => hother hj) fun hclean => hclean
  have hinvAdded : Inv ((added s id mod).updateOnlineStatus rationals w id) := by
    refine Inv.updateOnlineStatus ?_ id
    exact hinv.modify id fun _ => ⟨rfl, rfl⟩
  have hcomes : ComesOnline w (added s id mod) id → ComesOnline w s id := by
    rintro ⟨r', hr', hrest⟩
    rw [hset] at hr'
    cases hr'
    exact ⟨r, hr, hrest⟩
  have hmoved := moved_updateOnlineStatus w (added s id mod) id
  rw [changeThreat_eq, hawake]
  by_cases hrises : 0 < mod
  · cases hmoved with
    | stays hthreat honline hdirty =>
      exact (hadded.of_sublist honline (fun j _ => hthreat j) hdirty).reported id mod
    | enters hcame hthreat honline hvictim hdirty =>
      -- The rise is reported: the reference has only just come into the list.
      have hlive : id ∈ ((added s id mod).updateOnlineStatus rationals w id).online := by
        rw [honline]
        exact mem_append_right _ (mem_singleton_self id)
      obtain ⟨r', hr'⟩ := hinvAdded.live id (.inl hlive)
      have hzero : ¬rationals.eq mod rationals.zero = true := fun hzero =>
        ne_of_gt hrises (of_decide_eq_true hzero)
      rw [if_neg hzero]
      intro hclean
      obtain ⟨-, -, hquiet⟩ := fire_threatChange hr' mod
      have hfalls := (hquiet hclean).2
      have hother : (added s id mod).currentVictim ≠ some id := fun hv => hout (hinv.victim id hv)
      rw [hvictim, if_neg hother] at hfalls
      exact absurd hrises (not_lt.mpr hfalls)
  refine (hmoved.ordered hadded fun hcame => ?_).reported id mod
  have henters := (hright.2 (hcomes hcame)).resolve_left hrises
  rw [threatOf_added hr, if_pos rfl]
  rcases henters with hdirty | ⟨v, hv, hmore⟩ | hlast
  · exact .inl hdirty
  · refine .inr (.inl ⟨v, hv, ?_⟩)
    rw [hother (hinv.victim v hv)]
    exact hmore
  refine .inr (.inr fun j hj => ?_)
  rw [hother hj]
  exact hlast j hj

/-- **A threat added rightly** leaves the list ordered. -/
theorem OrderedBut.changeThreat (hinv : Inv s) (h : OrderedBut s id)
    (hright : ChangeRight w s id mod) : Ordered (s.changeThreat rationals w id mod) := by
  have hout (hnot : id ∉ s.online) : Ordered s := by
    intro hclean
    have hbut := h hclean
    rwa [remove_of_not_mem hnot] at hbut
  cases hr : s.refs id with
  | none =>
    have hnot : id ∉ s.online := fun hmem => by
      obtain ⟨r, hsome⟩ := hinv.live id (.inl hmem)
      rw [hr] at hsome
      cases hsome
    have hsame : added s id mod = s := by
      unfold added ThreatManager.modify
      congr 1
      funext j
      by_cases hj : j = id
      · rw [if_pos hj, hj, hr]
        rfl
      · rw [if_neg hj]
    have hnever : ¬ComesOnline w s id := by
      rintro ⟨r, hsome, -⟩
      rw [hr] at hsome
      cases hsome
    rw [changeThreat_eq, hsame]
    refine Ordered.reported ?_ id mod
    unfold wake
    split
    · exact hout hnot
    · exact (hout hnot).updateOnlineStatus fun hcomes => absurd hcomes hnever
  | some r =>
    cases hon : r.isOnline with
    | true => exact h.changeThreat_online hinv hr hon hright
    | false =>
      refine (hout fun hmem => ?_).changeThreat_offline hinv hr hon hright
      rw [(hinv.online_iff id r hr).mp hmem] at hon
      cases hon

/-! ### Rightly through the owners -/

/-- `HostileReference::addThreat` rightly: the change, and what is added for the owner. -/
def RefAddRight (w : World ℚ) (right : ThreatManager ℚ → ℕ → ℚ → Prop) (s : ThreatManager ℚ)
    (id : ℕ) (mod : ℚ) : Prop :=
  ChangeRight w s id mod ∧
    ∀ r victimOwner, (s.changeThreat rationals w id mod).refs id = some r → r.isValid = true →
      0 ≤ mod → w.getCharmerOrOwner r.unitGuid = some victimOwner → w.isAlive victimOwner = true →
      right (s.changeThreat rationals w id mod) victimOwner 0

/-- `ThreatManager::_addThreat` rightly. -/
def AddToRight (w : World ℚ) (right : ThreatManager ℚ → ℕ → ℚ → Prop) (s : ThreatManager ℚ)
    (victim : ℕ) (threat : ℚ) : Prop :=
  match s.getReferenceByTarget s.online victim with
  | some id => RefAddRight w right s id threat
  | none =>
    match s.getReferenceByTarget s.offline victim with
    | some id => RefAddRight w right s id threat
    | none => RefAddRight w right (s.newReference rationals victim) s.next threat

/-- `ThreatManager::doAddThreat` rightly. -/
def DoAddRight (w : World ℚ) (addThreat : ThreatManager ℚ → ℕ → ℚ → ThreatManager ℚ)
    (right : ThreatManager ℚ → ℕ → ℚ → Prop) (s : ThreatManager ℚ) (victim : ℕ) (threat : ℚ) :
    Prop :=
  let pct := w.getRedirectThreatPercent victim
  if 0 < threat ∧ pct ≠ 0 then
    match w.getRedirectThreatTarget victim with
    | none => AddToRight w right s victim threat
    | some redirectTarget =>
      let redirectThreat := rationals.pct threat pct
      AddToRight w right s redirectTarget redirectThreat ∧
        AddToRight w right (s.addThreatTo rationals w addThreat redirectTarget redirectThreat)
          victim (threat - redirectThreat)
  else AddToRight w right s victim threat

/-- `ThreatManager::addThreat` rightly. -/
def AddRight (w : World ℚ) : ℕ → Bool → ThreatManager ℚ → ℕ → ℚ → Prop
  | 0, _, _, _, _ => True
  | n + 1, noThreat, s, victim, threat =>
    w.isValidProcess victim noThreat = true →
      DoAddRight w (ThreatManager.addThreat rationals w n false) (AddRight w n false) s victim
        (w.calcThreat victim threat)

variable {add : ThreatManager ℚ → ℕ → ℚ → ThreatManager ℚ}
  {right : ThreatManager ℚ → ℕ → ℚ → Prop}

/-- Threats that are added rightly leave the list ordered. -/
def KeepsOrder (add : ThreatManager ℚ → ℕ → ℚ → ThreatManager ℚ)
    (right : ThreatManager ℚ → ℕ → ℚ → Prop) : Prop :=
  ∀ s victim threat, Inv s → Ordered s → right s victim threat → Ordered (add s victim threat)

theorem OrderedBut.refAddThreat (hinv : Inv s) (h : OrderedBut s id) (hadd : KeepsOrder add right)
    (hright : RefAddRight w right s id mod) : Ordered (s.refAddThreat rationals w add id mod) := by
  have hchanged := h.changeThreat hinv hright.1
  unfold ThreatManager.refAddThreat
  dsimp only
  split
  · exact hchanged
  rename_i r hr
  split
  · rename_i hpet
    rw [Bool.and_eq_true] at hpet
    split
    · exact hchanged
    rename_i victimOwner howner
    split
    · rename_i halive
      exact hadd _ _ _ (hinv.changeThreat id mod) hchanged
        (hright.2 r victimOwner hr hpet.1 (of_decide_eq_true hpet.2) howner halive)
    · exact hchanged
  · exact hchanged

theorem Ordered.refAddThreat (hinv : Inv s) (h : Ordered s) (hadd : KeepsOrder add right)
    (hright : RefAddRight w right s id mod) : Ordered (s.refAddThreat rationals w add id mod) :=
  (h.but id).refAddThreat hinv hadd hright

theorem Ordered.setOffline (h : Ordered s) (id : ℕ) :
    Ordered (s.setOnlineOfflineState rationals id false) :=
  h.setOnlineOfflineState nofun

theorem Ordered.newReference (hinv : Inv s) (h : Ordered s) (victim : ℕ) :
    OrderedBut (s.newReference rationals victim) s.next := by
  have hout : s.next ∉ s.online := fun hmem => by
    obtain ⟨r, hr⟩ := hinv.live s.next (.inl hmem)
    rw [hinv.fresh s.next (Nat.le_refl _)] at hr
    cases hr
  have honline : remove (s.newReference rationals victim).online s.next = s.online := by
    unfold ThreatManager.newReference remove
    rw [filter_append, filter_cons_of_neg (by simp), filter_nil, append_nil]
    exact remove_of_not_mem hout
  have hthreat {j : ℕ} (hj : j ∈ s.online) :
      (s.newReference rationals victim).threatOf j = s.threatOf j := by
    have hne : j ≠ s.next := fun heq => hout (heq ▸ hj)
    unfold threatOf getThreat ThreatManager.newReference
    dsimp only
    rw [if_neg hne]
  intro hclean
  rw [honline]
  refine (h hclean).imp_of_mem fun hi hj hle => ?_
  rw [hthreat hi, hthreat hj]
  exact hle

variable {victim : ℕ}

theorem Ordered.addThreatTo (hinv : Inv s) (h : Ordered s)
    (hadd : KeepsOrder add right) (hright : AddToRight w right s victim threat) :
    Ordered (s.addThreatTo rationals w add victim threat) := by
  unfold AddToRight at hright
  unfold ThreatManager.addThreatTo
  cases honline : s.getReferenceByTarget s.online victim with
  | some id =>
    rw [honline] at hright
    exact h.refAddThreat hinv hadd hright
  | none =>
    rw [honline] at hright
    cases hoffline : s.getReferenceByTarget s.offline victim with
    | some id =>
      rw [hoffline] at hright
      exact h.refAddThreat hinv hadd hright
    | none =>
      rw [hoffline] at hright
      have hnew := (h.newReference hinv victim).refAddThreat
        (hinv.newReference honline hoffline) hadd hright
      dsimp only
      split
      · exact hnew.setOffline s.next
      · exact hnew

theorem Ordered.doAddThreat (hinv : Inv s) (h : Ordered s) (hkeeps : Keeps add)
    (hadd : KeepsOrder add right) (hright : DoAddRight w add right s victim threat) :
    Ordered (s.doAddThreat rationals w add victim threat) := by
  unfold DoAddRight at hright
  unfold ThreatManager.doAddThreat
  by_cases hredirects : 0 < threat ∧ w.getRedirectThreatPercent victim ≠ 0
  · rw [if_pos hredirects] at hright
    rw [if_pos ⟨decide_eq_true hredirects.1, hredirects.2⟩]
    cases htarget : w.getRedirectThreatTarget victim with
    | none =>
      rw [htarget] at hright
      exact h.addThreatTo hinv hadd hright
    | some redirectTarget =>
      rw [htarget] at hright
      have hfirst := h.addThreatTo hinv hadd hright.1
      exact hfirst.addThreatTo (hinv.addThreatTo hkeeps _ _) hadd hright.2
  rw [if_neg hredirects] at hright
  rw [if_neg fun hand => hredirects ⟨of_decide_eq_true hand.1, hand.2⟩]
  exact h.addThreatTo hinv hadd hright

/-- **A threat added rightly**, however far up the owners it goes, by induction on how far. -/
theorem keepsOrder_addThreat (w : World ℚ) (n : ℕ) (noThreat : Bool) :
    KeepsOrder (addThreat rationals w n noThreat) (AddRight w n noThreat) := by
  induction n generalizing noThreat with
  | zero => exact fun s victim threat _ h _ => h
  | succ n ih =>
    intro s victim threat hinv h hright
    unfold addThreat
    split
    · rename_i hvalid
      exact h.doAddThreat hinv (keeps_addThreat rationals w n false) (ih false) (hright hvalid)
    · exact h

/-! ### Rightly at a request -/

/-- `HostileReference::addTempThreat` rightly. -/
def AddTempRight (w : World ℚ) (right : ThreatManager ℚ → ℕ → ℚ → Prop) (s : ThreatManager ℚ)
    (id : ℕ) (threat : ℚ) : Prop :=
  threat ≠ 0 →
    RefAddRight w right (s.modify id fun r => { r with tempThreatModifier := threat }) id threat

/-- `HostileReference::resetTempThreat` rightly. -/
def ResetTempRight (w : World ℚ) (right : ThreatManager ℚ → ℕ → ℚ → Prop) (s : ThreatManager ℚ)
    (id : ℕ) : Prop :=
  ∀ r, s.refs id = some r → r.tempThreatModifier ≠ 0 →
    RefAddRight w right s id (0 - r.tempThreatModifier)

/-- **A request changes the order rightly**: each change of a threat it makes, and each reference
that comes online, is reported or fits in. -/
def Right (deep : ℕ) (s : ThreatManager ℚ) : World ℚ × Request ℚ → Prop
  | (w, .addThreat victim threat noThreat) => AddRight w deep noThreat s victim threat
  | (w, .doAddThreat victim threat) =>
    DoAddRight w (ThreatManager.addThreat rationals w deep false) (AddRight w deep false) s victim
      threat
  | (w, .modifyThreatPercent victim percent) =>
    ∀ id, s.getReferenceByTarget s.online victim = some id →
      RefAddRight w (AddRight w deep false) s id
        (s.threatOf id + s.threatOf id * percent / 100 - s.threatOf id)
  | (w, .refAddThreat id threat) => RefAddRight w (AddRight w deep false) s id threat
  | (w, .addTempThreat id threat) => AddTempRight w (AddRight w deep false) s id threat
  | (w, .resetTempThreat id) => ResetTempRight w (AddRight w deep false) s id
  | (w, .tauntApply taunter) =>
    ∀ victim id, s.currentVictim = some victim →
      s.getReferenceByTarget s.online taunter = some id → s.threatOf id < s.threatOf victim →
      ((s.refs id).any fun r => rationals.eq r.tempThreatModifier rationals.zero) = true →
      AddTempRight w (AddRight w deep false) s id (s.threatOf victim - s.threatOf id)
  | (w, .tauntFadeOut taunter) =>
    ∀ id, s.getReferenceByTarget s.online taunter = some id →
      ResetTempRight w (AddRight w deep false) s id
  | (_, .setOnlineOfflineState id isOnline) =>
    isOnline = true → ∀ r, s.refs id = some r → r.isOnline = false → EntersRight s (s.threatOf id)
  | (w, .updateOnlineStatus id) => ComesOnline w s id → EntersRight s (s.threatOf id)
  | _ => True

theorem Ordered.modify (h : Ordered s) (id : ℕ)
    (hf : ∀ r, (f r).threat = r.threat) : Ordered (s.modify id f) :=
  h.of_sublist (.refl _) (fun j _ => threatOf_modify s id j hf) fun hclean => hclean

theorem Ordered.addTempThreat (hinv : Inv s) (h : Ordered s) (hadd : KeepsOrder add right)
    (hright : AddTempRight w right s id threat) :
    Ordered (s.addTempThreat rationals w add id threat) := by
  have hset : Ordered (s.modify id fun r => { r with tempThreatModifier := threat }) := by
    refine h.modify id fun r => ?_
    rfl
  unfold ThreatManager.addTempThreat
  split
  · exact hset
  rename_i hsome
  refine Ordered.refAddThreat ?_ hset hadd (hright fun hzero => hsome (decide_eq_true hzero))
  refine hinv.modify id fun r => ?_
  exact ⟨rfl, rfl⟩

theorem Ordered.resetTempThreat (hinv : Inv s) (h : Ordered s) (hadd : KeepsOrder add right)
    (hright : ResetTempRight w right s id) : Ordered (s.resetTempThreat rationals w add id) := by
  unfold ThreatManager.resetTempThreat
  split
  · exact h
  rename_i r hr
  split
  · exact h
  rename_i hsome
  refine Ordered.modify ?_ id fun r => ?_
  · exact h.refAddThreat hinv hadd (hright r hr fun hzero => hsome (decide_eq_true hzero))
  · rfl

theorem Ordered.invalidate (h : Ordered s) (id : ℕ) : Ordered (s.invalidate rationals id) := by
  refine (h.setOffline id).modify id fun r => ?_
  rfl

theorem Ordered.removeReference (hinv : Inv s) (h : Ordered s) (id : ℕ) :
    Ordered (s.removeReference rationals id) := by
  have hgone := h.invalidate id
  have hremoved : Inv (s.removeReference rationals id) := hinv.removeReference id
  have hout : id ∉ (s.removeReference rationals id).online := fun hmem => by
    obtain ⟨r, hr⟩ := hremoved.live id (.inl hmem)
    unfold ThreatManager.removeReference at hr
    dsimp only at hr
    rw [if_pos rfl] at hr
    cases hr
  have hfired (u : ThreatManager ℚ) : (u.fireStatusChanged rationals id .removeFromList).refs =
      u.refs ∧ (u.fireStatusChanged rationals id .removeFromList).online.Sublist u.online ∧
      ((u.fireStatusChanged rationals id .removeFromList).dirty = false → u.dirty = false) := by
    have hdrop : (u.dropVictim id).refs = u.refs ∧ (u.dropVictim id).online = u.online ∧
        ((u.dropVictim id).dirty = false → u.dirty = false) := by
      unfold dropVictim
      split
      · exact ⟨rfl, rfl, nofun⟩
      · exact ⟨rfl, rfl, fun hdirty => hdirty⟩
    unfold fireStatusChanged
    split
    · exact ⟨rfl, .refl _, fun hdirty => hdirty⟩
    rw [processThreatEvent]
    split
    · refine ⟨hdrop.1, ?_, hdrop.2.2⟩
      rw [hdrop.2.1]
      exact filter_sublist
    · exact ⟨hdrop.1, hdrop.2.1 ▸ .refl _, hdrop.2.2⟩
  obtain ⟨hrefs, honline, hdirty⟩ := hfired (s.invalidate rationals id)
  refine hgone.of_sublist honline (fun j hj => ?_) hdirty
  have hne : j ≠ id := fun heq => hout (heq ▸ hj)
  unfold threatOf getThreat ThreatManager.removeReference
  dsimp only
  rw [if_neg hne, hrefs]

/-! ### Runs -/

/-- **One request** that changes the order rightly leaves the list ordered. -/
theorem Ordered.step (hinv : Inv s) (h : Ordered s) (deep : ℕ) (r : World ℚ × Request ℚ)
    (hright : Right deep s r) : Ordered (step rationals deep s r) := by
  obtain ⟨w, r⟩ := r
  have hadd := keepsOrder_addThreat w deep
  have hkeeps := keeps_addThreat rationals w deep
  cases r with
  | addThreat victim threat noThreat => exact hadd noThreat s victim threat hinv h hright
  | doAddThreat victim threat => exact h.doAddThreat hinv (hkeeps false) (hadd false) hright
  | modifyThreatPercent victim percent =>
    simp only [Combat.step, modifyThreatPercent]
    split
    · exact h
    rename_i id hfound
    exact h.refAddThreat hinv (hadd false) (hright id hfound)
  | refAddThreat id threat => exact h.refAddThreat hinv (hadd false) hright
  | addTempThreat id threat => exact h.addTempThreat hinv (hadd false) hright
  | resetTempThreat id => exact h.resetTempThreat hinv (hadd false) hright
  | tauntApply taunter =>
    simp only [Combat.step, tauntApply]
    split
    · rename_i victim id hvictim hfound
      split
      · rename_i hless
        exact h.addTempThreat hinv (hadd false)
          (hright victim id hvictim hfound (of_decide_eq_true hless.1) hless.2)
      · exact h
    · exact h
  | tauntFadeOut taunter =>
    simp only [Combat.step, tauntFadeOut]
    split
    · exact h
    rename_i id hfound
    exact h.resetTempThreat hinv (hadd false) (hright id hfound)
  | setOnlineOfflineState id isOnline => exact h.setOnlineOfflineState hright
  | updateOnlineStatus id => exact h.updateOnlineStatus hright
  | invalidate id => exact h.invalidate id
  | removeReference id => exact h.removeReference hinv id
  | setDirty => exact fun hclean => by cases hclean
  | setCurrentVictim victim =>
    simp only [Combat.step]
    split <;> exact h
  | getHostilTarget => exact fun _ => h.update
  | clearReferences => exact fun _ => Pairwise.nil

/-- **The order of the threat list.**  In a run of requests that change the order rightly, the
online list is sorted by non-increasing threat after each of them and `ThreatContainer::update`. -/
theorem sorted_after_update (deep : ℕ) (rs : List (World ℚ × Request ℚ))
    (h : Along (step rationals deep) (Right deep) .empty rs) : Along (step rationals deep)
      (fun s r => Sorted ((step rationals deep s r).update rationals)) .empty rs :=
  Along.of_invariant (I := fun s => Inv s ∧ Ordered s)
    (fun _ r hs hr => ⟨hs.1.step rationals deep r, hs.2.step hs.1 deep r hr⟩)
    (fun _ r hs hr => (hs.2.step hs.1 deep r hr).update) ⟨inv_empty, fun _ => Pairwise.nil⟩ h

/-- A rise of 100 and, after the first has become the victim, one of 90. -/
theorem two_rises_sorted : Along (step rationals 1)
      (fun s r => Sorted ((step rationals 1 s r).update rationals)) .empty
      [(arena [1, 2] [], .addThreat 1 100 false), (arena [1, 2] [], .getHostilTarget),
        (arena [1, 2] [], .addThreat 2 90 false)] := by
  have hnew (s : ThreatManager ℚ) (victim : ℕ) (threat : ℚ) (hpos : 0 < threat)
      (honline : s.getReferenceByTarget s.online victim = none)
      (hoffline : s.getReferenceByTarget s.offline victim = none)
      (hvictim : s.currentVictim ≠ some s.next) :
      AddRight (arena [1, 2] []) 1 false s victim threat := by
    intro _
    unfold DoAddRight
    rw [if_neg fun hand => hand.2 rfl]
    unfold AddToRight
    rw [honline, hoffline]
    refine ⟨⟨fun r _ _ => .inr (.inl ?_), fun _ => .inl hpos⟩, fun r o _ _ _ howner => ?_⟩
    · have hother : (s.newReference rationals victim).currentVictim ≠ some s.next := hvictim
      rw [if_neg hother]
      exact hpos
    · cases howner
  refine sorted_after_update 1 _ ⟨hnew _ 1 100 (by decide +kernel) ?_ ?_ ?_, trivial,
    hnew _ 2 90 (by decide +kernel) ?_ ?_ ?_, trivial⟩
  all_goals decide +kernel

/-- The second unit, with 105% of the threat of the first, is out of reach when the first becomes
the victim, and comes back. -/
theorem back_not_sorted : ¬Along (step rationals 1)
      (fun s r => Sorted ((step rationals 1 s r).update rationals)) .empty
      [(arena [1, 2] [], .addThreat 1 100 false), (arena [1, 2] [], .addThreat 2 105 false),
        (arena [1, 2] [], .setOnlineOfflineState 1 false), (arena [1, 2] [], .getHostilTarget),
        (arena [1, 2] [], .setOnlineOfflineState 1 true)] := by
  rintro ⟨-, -, -, -, hsorted, -⟩
  exact absurd hsorted (by decide +kernel)

end ZerosCore.Combat
