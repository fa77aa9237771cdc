/-
# Phase state is determined by what is active

`spellPhaseInfo` is keyed by spell while aura effects are registered one by one, and
`RemoveAuraInfo` erases an entry only when it holds a mask.  So the entries speak for the
registered effects only as long as two things do not happen: an effect is registered
over another of the same spell that carries something it does not carry itself, or an
effect is unregistered whose entry then says less, or still says more, than the effects
of the spell that stay (`Regular`).

Along every run without these, the aura mask is the union of the masks of the registered
effects, a client-side update sends the phase ids and terrain swaps of the registered
effects and the active definitions, and whenever no update is in progress the player is
in the phases `GetCurrentPhasemask` computes (`determined_of_regular`): whatever changes
the mask raises the server-side flag, and `Update` leaves no flag behind.
-/

import ZerosCore.Maps.PhaseMgr
import ZerosCore.Lib.Run

namespace ZerosCore.Phases

open Lib Lib.Keyed List PhaseMgr Table

/-! ### What phase data says -/

/-- One thing phase data can say: a bit of the mask, a phase id or a terrain swap. -/
inductive Datum
  | bit (i : ℕ)
  | phase (p : ℕ)
  | terrain (t : ℕ)

namespace PhaseInfo

variable (i j : PhaseInfo)

def Carries : Datum → Prop
  | .bit k => i.phasemask.getLsbD k = true
  | .phase p => p ≠ 0 ∧ i.phaseId = p
  | .terrain t => t ≠ 0 ∧ i.terrainswapmap = t

/-- Whatever `i` says `j` says too. -/
def CoveredBy : Prop :=
  i.phasemask &&& ~~~ j.phasemask = 0 ∧ (i.phaseId = 0 ∨ i.phaseId = j.phaseId) ∧
      (i.terrainswapmap = 0 ∨ i.terrainswapmap = j.terrainswapmap)

instance : Decidable (CoveredBy i j) :=
  inferInstanceAs (Decidable (_ ∧ (_ ∨ _) ∧ (_ ∨ _)))

variable {i j}

theorem CoveredBy.carries (h : CoveredBy i j) {d : Datum} (hd : i.Carries d) : j.Carries d := by
  obtain ⟨hmask, hphase, hterrain⟩ := h
  cases d with
  | bit k =>
    have hk : (i.phasemask &&& ~~~ j.phasemask).getLsbD k = false := by rw [hmask]; simp
    have hi : i.phasemask.getLsbD k = true := hd
    have hlt : k < 32 := BitVec.lt_of_getLsbD hi
    simpa [Carries, hi, hlt] using hk
  | phase p =>
    obtain ⟨hp, rfl⟩ := hd
    exact ⟨hp, (hphase.resolve_left hp).symm⟩
  | terrain t =>
    obtain ⟨ht, rfl⟩ := hd
    exact ⟨ht, (hterrain.resolve_left ht).symm⟩

theorem not_carries_bit (h : i.needsServerSideUpdate = false) (k : ℕ) : ¬ i.Carries (.bit k) := by
  have hi : i.phasemask = 0 := by simpa [needsServerSideUpdate] using h
  simp [Carries, hi]

end PhaseInfo

theorem getLsbD_foldl_mask (l : List PhaseInfo) (m : BitVec 32) (k : ℕ) :
    (l.foldl (fun m i => m ||| i.phasemask) m).getLsbD k = true ↔
      m.getLsbD k = true ∨ ∃ i ∈ l, i.Carries (.bit k) := by
  induction l generalizing m with
  | nil => simp
  | cons i l ih => simp [ih, PhaseInfo.Carries, or_assoc]

theorem getLsbD_unionMask (l : List PhaseInfo) (k : ℕ) :
    (unionMask l).getLsbD k = true ↔ ∃ i ∈ l, i.Carries (.bit k) := by
  simp [unionMask, getLsbD_foldl_mask]

theorem unionMask_congr {l l' : List PhaseInfo}
    (h : ∀ d, (∃ i ∈ l, i.Carries d) ↔ ∃ i ∈ l', i.Carries d) : unionMask l = unionMask l' := by
  refine BitVec.eq_of_getLsbD_eq fun k _ => ?_
  rw [Bool.eq_iff_iff, getLsbD_unionMask, getLsbD_unionMask, h]

theorem mem_nonzero {l : List ℕ} {p : ℕ} : p ∈ nonzero l ↔ p ≠ 0 ∧ p ∈ l := by
  simp [nonzero, and_comm]

theorem nonzero_congr {f : PhaseInfo → ℕ} {d : ℕ → Datum}
    (hd : ∀ i p, i.Carries (d p) ↔ p ≠ 0 ∧ f i = p) {l l' : List PhaseInfo}
    (h : ∀ d, (∃ i ∈ l, i.Carries d) ↔ ∃ i ∈ l', i.Carries d) :
    nonzero (l.map f) = nonzero (l'.map f) := by
  have hmem (l : List PhaseInfo) (p : ℕ) : p ∈ nonzero (l.map f) ↔ ∃ i ∈ l, i.Carries (d p) := by
    simp only [mem_nonzero, mem_map, hd]
    grind
  ext p
  rw [hmem, hmem, h]

namespace PhaseMgr

variable {m : PhaseMgr}

/-! ### What the state should be -/

def registeredInfos (m : PhaseMgr) : List PhaseInfo := m.registered.map Prod.snd

/-- What a client-side update should send: the phase ids and the terrain swaps of the
registered effects and of the active definitions. -/
def activePhaseShift (m : PhaseMgr) : PhaseShift where
  phaseIds := nonzero (m.registeredInfos.map PhaseInfo.phaseId) ∪
    nonzero (m.activePhaseDefinitions.map PhaseDefinition.phaseId)
  terrainswaps := nonzero (m.registeredInfos.map PhaseInfo.terrainswapmap) ∪
    nonzero (m.activePhaseDefinitions.map PhaseDefinition.terrainswapmap)

/-- **Phase state is determined by what is active.** -/
structure Determined (m : PhaseMgr) : Prop where
  auras : m.phasemaskThroughAuras = unionMask m.registeredInfos
  sent : m.phaseShift = none ∨ m.phaseShift = some m.activePhaseShift
  seen : m.isUpdateInProgress = false → m.phaseMask = m.getCurrentPhasemask

/-- What a run is promised of a request: the effects of one spell do not overwrite each
other, and an unregistered effect takes from the entry of its spell what the remaining
ones do not carry and nothing else. -/
def Regular (m : PhaseMgr) : Request → Prop
  | .registerPhasingAuraEffect e =>
    ∀ x ∈ m.registered, x.1.id = e.id → x.2.CoveredBy (m.phaseInfoOf e)
  | .unRegisterPhasingAuraEffect e =>
    ∀ a ∈ m.spellPhaseInfo.get? e.id,
      if a.info.needsServerSideUpdate then
        ∀ x ∈ m.registered, x.1.id = e.id → x.1 ≠ e → x.2.CoveredBy ⟨0, 0, 0⟩
      else
        (a.info.phaseId ≠ 0 → ∃ x ∈ m.registered, x.1.id = e.id ∧ x.1 ≠ e ∧
          x.2.phaseId = a.info.phaseId) ∧
        (a.info.terrainswapmap ≠ 0 → ∃ x ∈ m.registered, x.1.id = e.id ∧ x.1 ≠ e ∧
          x.2.terrainswapmap = a.info.terrainswapmap)
  | _ => True

instance (m : PhaseMgr) : (r : Request) → Decidable (m.Regular r)
  | .registerPhasingAuraEffect _ => inferInstanceAs (Decidable (∀ x ∈ m.registered, _ → _))
  | .unRegisterPhasingAuraEffect e =>
    inferInstanceAs (Decidable (∀ a ∈ m.spellPhaseInfo.get? e.id, ite _ _ _))
  | .addUpdateFlag _ | .removeUpdateFlag _ _ | .relocate _ | .notifyConditionChanged _ _
  | .notifyStoresReloaded _ _ | .setCustomPhase _ => .isTrue trivial

/-- The entry of each spell says what the registered effects of the spell say. -/
def Agrees (m : PhaseMgr) : Prop :=
  ∀ spellId d, (∃ a ∈ m.spellPhaseInfo.rows, a.spellId = spellId ∧ a.info.Carries d) ↔
    ∃ x ∈ m.registered, x.1.id = spellId ∧ x.2.Carries d

/-- What every step keeps, also half way through a request. -/
structure Sound (m : PhaseMgr) : Prop where
  agrees : m.Agrees
  auras : m.phasemaskThroughAuras = unionMask (m.spellPhaseInfo.rows.map AuraInfo.info)
  fresh : m.updateFlags.serversideChanged = true ∨ m.phaseMask = m.getCurrentPhasemask
  definitions : m.activePhaseDefinitions = [] → m.phasemaskThroughDefinitions = 0

theorem Agrees.infos (h : m.Agrees) (d : Datum) :
    (∃ i ∈ m.spellPhaseInfo.rows.map AuraInfo.info, i.Carries d) ↔
      ∃ i ∈ m.registeredInfos, i.Carries d := by
  constructor
  · rintro ⟨_, hi, hd⟩
    obtain ⟨a, ha, rfl⟩ := mem_map.mp hi
    obtain ⟨x, hx, _, hxd⟩ := (h a.spellId d).mp ⟨a, ha, rfl, hd⟩
    exact ⟨x.2, mem_map_of_mem hx, hxd⟩
  rintro ⟨_, hi, hd⟩
  obtain ⟨x, hx, rfl⟩ := mem_map.mp hi
  obtain ⟨a, ha, _, had⟩ := (h x.1.id d).mpr ⟨x, hx, rfl, hd⟩
  exact ⟨a.info, mem_map_of_mem ha, had⟩

theorem Agrees.collectPhaseShift_eq (h : m.Agrees) : m.collectPhaseShift = m.activePhaseShift := by
  have hid := nonzero_congr (d := .phase) (fun _ _ => Iff.rfl) h.infos
  have hterrain := nonzero_congr (d := .terrain) (fun _ _ => Iff.rfl) h.infos
  rw [map_map] at hid hterrain
  simp only [collectPhaseShift, activePhaseShift, ← hid, ← hterrain]
  rfl

/-! ### One step at a time -/

theorem sendPhaseMaskToPlayer_eq (m : PhaseMgr) :
    m.sendPhaseMaskToPlayer = { m with phaseMask := m.getCurrentPhasemask } := by
  unfold sendPhaseMaskToPlayer
  split_ifs with hm
  · rw [← hm]
  · rfl

theorem update_eq (hp : m.isUpdateInProgress = false) : m.update = { m with
      updateFlags := .none
      phaseMask := if m.updateFlags.serversideChanged then m.getCurrentPhasemask else m.phaseMask
      phaseShift := if m.updateFlags.clientsideChanged then some m.collectPhaseShift
        else m.phaseShift } := by
  have hcur : m.sendPhaseshiftToPlayer.getCurrentPhasemask = m.getCurrentPhasemask := rfl
  unfold update
  rw [if_neg (by simp [hp])]
  cases hc : m.updateFlags.clientsideChanged <;> cases hs : m.updateFlags.serversideChanged <;>
    simp [sendPhaseMaskToPlayer_eq, sendPhaseshiftToPlayer, hs, getCurrentPhasemask,
      getPhaseMaskForSpawn]

theorem update_of_inProgress (hp : m.isUpdateInProgress = true) : m.update = m := if_pos hp

/-- Between two requests a change of the mask is pending only during an update. -/
def Settled (m : PhaseMgr) : Prop :=
  m.isUpdateInProgress = true ∨ m.updateFlags.serversideChanged = false

/-- What a client-side update has sent, if one was made, is right. -/
def Shown (m : PhaseMgr) : Prop := m.phaseShift = none ∨ m.phaseShift = some m.activePhaseShift

/-- **`Update`.**  It keeps what is sound, leaves nothing pending, and sends what it
should. -/
theorem Sound.update (h : m.Sound) (hshown : m.phaseShift = none) :
    m.update.Sound ∧ m.update.Settled ∧ m.update.Shown := by
  cases hp : m.isUpdateInProgress with
  | true =>
    rw [update_of_inProgress hp]
    exact ⟨h, .inl hp, .inl hshown⟩
  | false =>
    rw [update_eq hp]
    refine ⟨{ h with fresh := .inr ?_ }, .inr rfl, ?_⟩
    · show (if m.updateFlags.serversideChanged then _ else _) = m.getCurrentPhasemask
      split_ifs with hs
      · rfl
      · exact h.fresh.resolve_left hs
    show (if m.updateFlags.clientsideChanged then _ else _) = none ∨
      (if m.updateFlags.clientsideChanged then _ else _) = some m.activePhaseShift
    split_ifs with hc
    · exact .inr (congrArg some h.agrees.collectPhaseShift_eq)
    · exact .inl hshown

/-! ### Definitions -/

theorem Sound.dropDefinitions (h : m.Sound) :
    m.dropDefinitions.Sound ∧ m.dropDefinitions.activePhaseDefinitions = [] ∧
      m.dropDefinitions.phaseShift = m.phaseShift := by
  unfold PhaseMgr.dropDefinitions
  split_ifs with hd
  · refine ⟨⟨h.agrees, h.auras, .inl ?_, fun _ => rfl⟩, rfl, rfl⟩
    simp [markServerside]
  · exact ⟨h, by simpa [hasActiveDefinitions] using hd, rfl⟩

/-- What the loop of `Recalculate` keeps: as long as no definition with a mask was met, the
definitions give no mask. -/
def Calculating (m : PhaseMgr) : Prop :=
  m.updateFlags.serversideChanged = true ∨ m.phasemaskThroughDefinitions = 0

theorem Sound.calculating (h : m.Sound) (hd : m.activePhaseDefinitions = []) : m.Calculating :=
  .inr (h.definitions hd)

theorem addPhaseDefinition_spec (m : PhaseMgr) (d : PhaseDefinition) :
    ∃ mask ds, m.addPhaseDefinition d =
        { m with phasemaskThroughDefinitions := mask, activePhaseDefinitions := ds } ∧
      ds ≠ [] ∧ (d.phasemask = 0 → m.phasemaskThroughDefinitions = 0 → mask = 0) := by
  unfold addPhaseDefinition
  split_ifs with ho hn
  · exact ⟨_, _, rfl, by simp, fun hd _ => hd⟩
  · refine ⟨_, _, rfl, by simp, fun hd hm => ?_⟩
    simp [hm]
  refine ⟨_, _, rfl, by simp, fun hd hm => ?_⟩
  simp [hm, hd]

theorem Sound.addDefinition (h : m.Sound) (hc : m.Calculating) (d : PhaseDefinition) (c : Bool) :
    let m' := ((m.addPhaseDefinition d).markServerside (d.phasemask ≠ 0)).markClientside c
    m'.Sound ∧ m'.Calculating ∧ m'.phaseShift = m.phaseShift := by
  obtain ⟨mask, ds, heq, hds, hmask⟩ := addPhaseDefinition_spec m d
  rw [heq]
  by_cases hd : d.phasemask = 0
  · rw [decide_eq_false (not_not.mpr hd)]
    rcases hc with hs | hzero
    · have hs' : (m.updateFlags.serversideChanged || false) = true := by rw [hs]; rfl
      exact ⟨⟨h.agrees, h.auras, .inl hs', fun hnil => absurd hnil hds⟩, .inl hs', rfl⟩
    -- nothing was marked because nothing changed
    obtain rfl : mask = m.phasemaskThroughDefinitions := (hmask hd hzero).trans hzero.symm
    refine ⟨⟨h.agrees, h.auras, ?_, fun hnil => absurd hnil hds⟩, .inr (hmask hd hzero), rfl⟩
    rcases h.fresh with hf | hf
    · exact .inl (by show (_ || false) = true; rw [hf]; rfl)
    · exact .inr hf
  rw [decide_eq_true hd]
  have hs' : (m.updateFlags.serversideChanged || true) = true := Bool.or_true _
  exact ⟨⟨h.agrees, h.auras, .inl hs', fun hnil => absurd hnil hds⟩, .inl hs', rfl⟩

theorem Sound.addDefinitions (meets : PhaseDefinition → Bool) (ds : List PhaseDefinition)
    (h : m.Sound) (hc : m.Calculating) : (addDefinitions meets ds m).Sound ∧
      (addDefinitions meets ds m).phaseShift = m.phaseShift := by
  induction ds generalizing m with
  | nil => exact ⟨h, rfl⟩
  | cons d ds ih =>
    simp only [addDefinitions]
    obtain ⟨hs, hcalc, hshift⟩ :=
      h.addDefinition hc d (decide (d.phaseId ≠ 0 ∨ d.terrainswapmap ≠ 0))
    split_ifs
    · exact ⟨hs, hshift⟩
    · obtain ⟨hs', hshift'⟩ := ih hs hcalc
      exact ⟨hs', hshift'.trans hshift⟩
    · exact ih h hc

theorem Sound.recalculate (h : m.Sound) (meets : PhaseDefinition → Bool) :
    (m.recalculate meets).Sound ∧ (m.recalculate meets).phaseShift = m.phaseShift := by
  obtain ⟨hs, hnil, hshift⟩ := h.dropDefinitions
  unfold PhaseMgr.recalculate
  split
  · obtain ⟨hs', hshift'⟩ := hs.addDefinitions meets _ (hs.calculating hnil)
    exact ⟨hs', hshift'.trans hshift⟩
  · exact ⟨hs, hshift⟩

/-! ### Aura effects -/

variable {e : AuraEffect} {info : PhaseInfo}

/-- A registered effect leaves the entry of its spell saying what the effects of the spell
say, provided it does not overwrite anything. -/
theorem Agrees.put (h : m.Agrees)
    (hcov : ∀ x ∈ m.registered, x.1.id = e.id → x.2.CoveredBy info) (spellId : ℕ) (d : Datum) :
    (∃ a ∈ (m.spellPhaseInfo.put ⟨e.id, info⟩).rows, a.spellId = spellId ∧ a.info.Carries d) ↔
      ∃ x ∈ (e, info) :: m.registered.filter (·.1 ≠ e),
        x.1.id = spellId ∧ x.2.Carries d := by
  constructor
  · rintro ⟨a, ha, rfl, hd⟩
    rcases mem_rows_put.mp ha with rfl | ⟨ha, hne⟩
    · exact ⟨(e, info), mem_cons_self, rfl, hd⟩
    obtain ⟨x, hx, hid, hxd⟩ := (h a.spellId d).mp ⟨a, ha, rfl, hd⟩
    have hxe : x.1 ≠ e := fun he => hne (hid.symm.trans (congrArg AuraEffect.id he))
    exact ⟨x, mem_cons_of_mem _ (mem_filter.mpr ⟨hx, by simpa using hxe⟩), hid, hxd⟩
  rintro ⟨x, hx, rfl, hd⟩
  rcases mem_cons.mp hx with rfl | hx
  · exact ⟨_, mem_rows_put.mpr (.inl rfl), rfl, hd⟩
  have hx := (mem_filter.mp hx).1
  by_cases hid : x.1.id = e.id
  · exact ⟨_, mem_rows_put.mpr (.inl rfl), hid.symm, (hcov x hx hid).carries hd⟩
  obtain ⟨a, ha, haid, had⟩ := (h x.1.id d).mpr ⟨x, hx, rfl, hd⟩
  exact ⟨a, mem_rows_put.mpr (.inr ⟨ha, fun h => hid (haid.symm.trans h)⟩), haid, had⟩

/-- The mask accumulated by `AddAuraInfo` is the union over the entries it leaves. -/
theorem Sound.or_phasemask (h : m.Sound)
    (hcov : ∀ x ∈ m.registered, x.1.id = e.id → x.2.CoveredBy info) :
    (if info.phasemask ≠ 0 then m.phasemaskThroughAuras ||| info.phasemask
      else m.phasemaskThroughAuras) =
        unionMask ((m.spellPhaseInfo.put ⟨e.id, info⟩).rows.map AuraInfo.info) := by
  have hor : (if info.phasemask ≠ 0 then m.phasemaskThroughAuras ||| info.phasemask
      else m.phasemaskThroughAuras) = m.phasemaskThroughAuras ||| info.phasemask := by
    split_ifs with hzero
    · rfl
    · simp [not_not.mp hzero]
  rw [hor, h.auras]
  refine BitVec.eq_of_getLsbD_eq fun k _ => ?_
  rw [Bool.eq_iff_iff, BitVec.getLsbD_or, Bool.or_eq_true, getLsbD_unionMask, getLsbD_unionMask]
  constructor
  · rintro (⟨i, hi, hk⟩ | hk)
    · obtain ⟨a, ha, rfl⟩ := mem_map.mp hi
      by_cases hid : a.spellId = e.id
      · -- the entry that is overwritten said nothing the new one does not say
        obtain ⟨x, hx, hxid, hxk⟩ := (h.agrees a.spellId (.bit k)).mp ⟨a, ha, rfl, hk⟩
        exact ⟨info, mem_map.mpr ⟨_, mem_rows_put.mpr (.inl rfl), rfl⟩,
          (hcov x hx (hxid.trans hid)).carries hxk⟩
      · exact ⟨a.info, mem_map_of_mem (mem_rows_put.mpr (.inr ⟨ha, hid⟩)), hk⟩
    · exact ⟨info, mem_map.mpr ⟨_, mem_rows_put.mpr (.inl rfl), rfl⟩, hk⟩
  rintro ⟨i, hi, hk⟩
  obtain ⟨a, ha, rfl⟩ := mem_map.mp hi
  rcases mem_rows_put.mp ha with rfl | ⟨ha, _⟩
  · exact .inr hk
  · exact .inl ⟨a.info, mem_map_of_mem ha, hk⟩

theorem Sound.registerPhasingAuraEffect (h : m.Sound) (hshift : m.phaseShift = none)
    (hreg : m.Regular (.registerPhasingAuraEffect e)) :
    (m.registerPhasingAuraEffect e).Sound ∧ (m.registerPhasingAuraEffect e).Settled ∧
      (m.registerPhasingAuraEffect e).Shown := by
  have hcov : ∀ x ∈ m.registered, x.1.id = e.id → x.2.CoveredBy (m.phaseInfoOf e) := hreg
  refine Sound.update ⟨h.agrees.put hcov, h.or_phasemask hcov, ?_, h.definitions⟩ hshift
  -- the mask changes only if the effect has one, and then the change is marked
  by_cases hmask : (m.phaseInfoOf e).phasemask = 0
  · rcases h.fresh with hf | hf
    · exact .inl (by show (_ || _) = true; rw [hf]; rfl)
    refine .inr (hf.trans ?_)
    simp only [getCurrentPhasemask, getPhaseMaskForSpawn, addAuraInfo, markClientside,
      markServerside, if_neg (not_not.mpr hmask)]
  refine .inl ?_
  show (_ || decide ((m.phaseInfoOf e).phasemask ≠ 0)) = true
  rw [decide_eq_true hmask, Bool.or_true]

theorem Agrees.remove (h : m.Agrees) {rows : List AuraInfo}
    (hother : ∀ a : AuraInfo, a.spellId ≠ e.id → (a ∈ rows ↔ a ∈ m.spellPhaseInfo.rows))
    (hself : ∀ d, (∃ a ∈ rows, a.spellId = e.id ∧ a.info.Carries d) ↔
      ∃ x ∈ m.registered, x.1.id = e.id ∧ x.1 ≠ e ∧ x.2.Carries d) (spellId : ℕ) (d : Datum) :
    (∃ a ∈ rows, a.spellId = spellId ∧ a.info.Carries d) ↔
      ∃ x ∈ m.registered.filter (·.1 ≠ e), x.1.id = spellId ∧ x.2.Carries d := by
  have hfilter : (∃ x ∈ m.registered.filter (·.1 ≠ e), x.1.id = spellId ∧ x.2.Carries d) ↔
      ∃ x ∈ m.registered, x.1.id = spellId ∧ x.1 ≠ e ∧ x.2.Carries d := by
    simp only [mem_filter, decide_eq_true_eq]
    constructor
    · rintro ⟨x, ⟨hx, hne⟩, hid, hd⟩
      exact ⟨x, hx, hid, hne, hd⟩
    rintro ⟨x, hx, hid, hne, hd⟩
    exact ⟨x, ⟨hx, hne⟩, hid, hd⟩
  rw [hfilter]
  by_cases hid : spellId = e.id
  · subst hid
    exact hself d
  constructor
  · rintro ⟨a, ha, rfl, hd⟩
    obtain ⟨x, hx, hxid, hxd⟩ := (h a.spellId d).mp ⟨a, (hother a hid).mp ha, rfl, hd⟩
    exact ⟨x, hx, hxid, fun he => hid (hxid.symm.trans (congrArg AuraEffect.id he)), hxd⟩
  rintro ⟨x, hx, rfl, _, hd⟩
  obtain ⟨a, ha, haid, had⟩ := (h x.1.id d).mpr ⟨x, hx, rfl, hd⟩
  exact ⟨a, (hother a fun hae => hid (haid.symm.trans hae)).mpr ha, haid, had⟩

theorem Sound.unRegisterPhasingAuraEffect (h : m.Sound) (hshift : m.phaseShift = none)
    (hreg : m.Regular (.unRegisterPhasingAuraEffect e)) :
    (m.unRegisterPhasingAuraEffect e).Sound ∧ (m.unRegisterPhasingAuraEffect e).Settled ∧
      (m.unRegisterPhasingAuraEffect e).Shown := by
  simp only [Regular] at hreg
  unfold PhaseMgr.unRegisterPhasingAuraEffect removeAuraInfo
  cases hget : m.spellPhaseInfo.get? e.id with
  | none =>
    -- no entry: no effect of the spell said anything
    refine Sound.update { h with agrees := h.agrees.remove (fun _ _ => Iff.rfl) fun d => ?_ } hshift
    have hnone := Table.get?_eq_none.mp hget
    constructor
    · rintro ⟨a, ha, hid, _⟩
      exact absurd hid (hnone a ha)
    rintro ⟨x, hx, hid, _, hd⟩
    obtain ⟨a, ha, hid', _⟩ := (h.agrees e.id d).mpr ⟨x, hx, hid, hd⟩
    exact absurd hid' (hnone a ha)
  | some a =>
    replace hreg := hreg a hget
    obtain ⟨ha, haid⟩ := get?_eq_some.mp hget
    have huniq : ∀ b ∈ m.spellPhaseInfo.rows, b.spellId = e.id → b = a := fun b hb hid =>
      m.spellPhaseInfo.distinct.eq_of_key hb ha (hid.trans haid.symm)
    by_cases hserver : a.info.needsServerSideUpdate = true
    · -- the entry goes, so the effects that stay must say nothing
      simp only [hserver, if_true] at hreg ⊢
      refine Sound.update ⟨h.agrees.remove (fun b hb => ?_) fun d => ?_, rfl,
        .inl (Bool.or_true _), h.definitions⟩ hshift
      · exact mem_rows_erase.trans (and_iff_left hb)
      constructor
      · rintro ⟨b, hb, hid, _⟩
        exact absurd hid (mem_rows_erase.mp hb).2
      rintro ⟨x, hx, hid, hne, hd⟩
      have hzero := (hreg x hx hid hne).carries hd
      cases d with
      | bit k => simp [PhaseInfo.Carries] at hzero
      | phase p | terrain t => exact absurd hzero.2.symm hzero.1
    -- the entry stays, so the effects that stay must still say what it says
    rw [Bool.not_eq_true] at hserver
    simp only [hserver, Bool.false_eq_true, if_false] at hreg ⊢
    refine Sound.update { h with agrees := h.agrees.remove (fun _ _ => Iff.rfl) fun d => ?_ } hshift
    constructor
    · rintro ⟨b, hb, hid, hd⟩
      obtain rfl := huniq b hb hid
      cases d with
      | bit k => exact absurd hd (PhaseInfo.not_carries_bit hserver k)
      | phase p =>
        obtain ⟨hp, rfl⟩ := hd
        obtain ⟨x, hx, hxid, hne, hxp⟩ := hreg.1 hp
        exact ⟨x, hx, hxid, hne, hp, hxp⟩
      | terrain t =>
        obtain ⟨ht, rfl⟩ := hd
        obtain ⟨x, hx, hxid, hne, hxt⟩ := hreg.2 ht
        exact ⟨x, hx, hxid, hne, ht, hxt⟩
    rintro ⟨x, hx, hid, _, hd⟩
    exact (h.agrees e.id d).mpr ⟨x, hx, hid, hd⟩

/-! ### Runs -/

/-- What holds between two requests. -/
structure Rest (m : PhaseMgr) : Prop where
  sound : m.Sound
  settled : m.Settled

theorem Rest.start (stores : Stores) (zoneId : ℕ) (gm : Bool) :
    (PhaseMgr.start stores zoneId gm).Rest := by
  refine ⟨⟨fun spellId d => ?_, rfl, .inr ?_, fun _ => rfl⟩, .inr rfl⟩
  · simp [PhaseMgr.start, empty]
  · cases gm <;> simp [PhaseMgr.start, getCurrentPhasemask, getPhaseMaskForSpawn]

/-- **One request** that meets the promise. -/
theorem Rest.step (h : m.Rest) {r : Request} (hreg : m.Regular r) :
    (m.step r).Rest ∧ (m.step r).Shown := by
  have hs : PhaseMgr.Sound { m with phaseShift := none } :=
    { h.sound with }
  have hquiet : PhaseMgr.Settled { m with phaseShift := none } := h.settled
  cases r with
  | registerPhasingAuraEffect e =>
    obtain ⟨hs', hq', hshown⟩ := hs.registerPhasingAuraEffect rfl hreg
    exact ⟨⟨hs', hq'⟩, hshown⟩
  | unRegisterPhasingAuraEffect e =>
    obtain ⟨hs', hq', hshown⟩ := hs.unRegisterPhasingAuraEffect rfl hreg
    exact ⟨⟨hs', hq'⟩, hshown⟩
  | addUpdateFlag f =>
    cases f with
    | zone =>
      exact ⟨⟨{ hs with }, .inl rfl⟩, .inl rfl⟩
    | area =>
      exact ⟨⟨{ hs with }, .inl (Bool.or_true _)⟩, .inl rfl⟩
  | removeUpdateFlag f meets =>
    cases f with
    | zone =>
      have hs0 : PhaseMgr.Sound { m with
          phaseShift := none, updateFlags := { m.updateFlags with zoneUpdate := false } } :=
        { hs with }
      obtain ⟨hs1, -, hshift1⟩ := hs0.dropDefinitions
      simp only [PhaseMgr.step, removeUpdateFlag]
      split_ifs
      · obtain ⟨hs2, hshift2⟩ := hs1.recalculate meets
        obtain ⟨hs', hq', hshown⟩ := hs2.update (hshift2.trans hshift1)
        exact ⟨⟨hs', hq'⟩, hshown⟩
      obtain ⟨hs', hq', hshown⟩ := hs1.update hshift1
      exact ⟨⟨hs', hq'⟩, hshown⟩
    | area =>
      have hs0 : PhaseMgr.Sound { m with
          phaseShift := none, updateFlags := { m.updateFlags with areaUpdate := false } } :=
        { hs with }
      obtain ⟨hs', hq', hshown⟩ := hs0.update rfl
      exact ⟨⟨hs', hq'⟩, hshown⟩
  | relocate zoneId =>
    exact ⟨⟨{ hs with }, hquiet⟩, .inl rfl⟩
  | notifyConditionChanged data meets =>
    simp only [PhaseMgr.step, notifyConditionChanged]
    split_ifs
    · obtain ⟨hs1, hshift1⟩ := hs.recalculate meets
      obtain ⟨hs', hq', hshown⟩ := hs1.update hshift1
      exact ⟨⟨hs', hq'⟩, hshown⟩
    · exact ⟨⟨hs, hquiet⟩, .inl rfl⟩
  | notifyStoresReloaded stores meets =>
    have hs0 : PhaseMgr.Sound { m with phaseShift := none, stores := stores } :=
      { hs with }
    obtain ⟨hs1, hshift1⟩ := hs0.recalculate meets
    obtain ⟨hs', hq', hshown⟩ := hs1.update hshift1
    exact ⟨⟨hs', hq'⟩, hshown⟩
  | setCustomPhase phaseMask =>
    have hs0 : PhaseMgr.Sound (markServerside
        { m with phaseShift := none, customPhasemask := phaseMask } true) :=
      { hs with fresh := .inl (Bool.or_true _) }
    obtain ⟨hs', hq', hshown⟩ := hs0.update rfl
    exact ⟨⟨hs', hq'⟩, hshown⟩

theorem Rest.determined (h : m.Rest) (hshown : m.Shown) : m.Determined := by
  refine ⟨h.sound.auras.trans (unionMask_congr h.sound.agrees.infos), hshown, fun hp => ?_⟩
  refine h.sound.fresh.resolve_left fun hs => ?_
  rcases h.settled with hprog | hquiet
  · rw [hp] at hprog
    exact absurd hprog Bool.false_ne_true
  rw [hs] at hquiet
  exact absurd hquiet Bool.noConfusion

/-- **Phase state is determined by what is active.**  In every run of registering and
unregistering aura effects, zone and area updates, condition notifications, reloads and
custom phases that meets `Regular` throughout, after every request the aura mask is the
union of the masks of the registered effects, the request sent the phase ids and terrain
swaps of the registered effects and active definitions if it made a client-side update,
and the player is in the phases that are current if no update is in progress. -/
theorem determined_of_regular (stores : Stores) (zoneId : ℕ) (gm : Bool) (rs : List Request)
    (h : Along step Regular (start stores zoneId gm) rs) :
    Along step (fun m r => (m.step r).Determined) (start stores zoneId gm) rs :=
  Along.of_invariant (I := Rest) (fun _ _ hI hG => (hI.step hG).1)
    (fun _ _ hI hG => (hI.step hG).1.determined (hI.step hG).2) (Rest.start stores zoneId gm) h

/-- No spell data, and one definition in zone 3: phase id 9 and mask 8. -/
def someStores : Stores where
  phaseDefinitions zone := if zone = 3 then some [⟨3, 0, 8, 9, 0, false, false, false⟩] else none
  spellPhases _ := none
  conditions _ _ := []

/-- Two spells, one with a mask and one with a mask and a phase id, and a change of zone
while the second is being applied. -/
def someRequests : List Request :=
  [.registerPhasingAuraEffect ⟨7, 0, 2, 0⟩, .addUpdateFlag .zone,
    .registerPhasingAuraEffect ⟨8, 0, 4, 5⟩, .relocate 3, .removeUpdateFlag .zone fun _ => true,
    .unRegisterPhasingAuraEffect ⟨7, 0, 2, 0⟩, .setCustomPhase 16]

theorem determined_of_regular_some : Along step Regular (start someStores 0 false) someRequests ∧
      Along step (fun m r => (m.step r).Determined) (start someStores 0 false) someRequests :=
  have h : Along step Regular (start someStores 0 false) someRequests := by decide +kernel
  ⟨h, determined_of_regular someStores 0 false someRequests h⟩

/-- **Entries that are kept, and entries that are lost.**  The only effect of a spell
carries phase id 5 and no mask; it is registered and unregistered, and the update that
follows sends phase id 5 although no effect is registered.  Two effects of one spell
carry masks 2 and 4; the second is unregistered, and the aura mask is empty although the
first is registered. -/
theorem stale_and_lost : ¬ Along step (fun m r => (m.step r).Determined) (start someStores 0 false)
        [.registerPhasingAuraEffect ⟨7, 0, 0, 5⟩, .unRegisterPhasingAuraEffect ⟨7, 0, 0, 5⟩] ∧
      ¬ Along step (fun m r => (m.step r).Determined) (start someStores 0 false)
        [.registerPhasingAuraEffect ⟨7, 0, 2, 0⟩, .registerPhasingAuraEffect ⟨7, 1, 4, 0⟩,
          .unRegisterPhasingAuraEffect ⟨7, 1, 4, 0⟩] := by
  constructor
  · rintro ⟨-, ⟨-, hsent, -⟩, -⟩
    revert hsent
    decide +kernel
  rintro ⟨-, -, ⟨hauras, -, -⟩, -⟩
  revert hauras
  decide +kernel

end PhaseMgr
end ZerosCore.Phases
