/-
# Reversing game events

Whether the tables depend on the events still active alone.  They do along every run whose
steps are `Regular`: a stop finds no quest of its event in another active event, since the
check by quest id then keeps a relation that no later stop removes; the negative list of an
event names nothing that a positive event puts in the grid at that moment; and a start changes
creatures no active event has changed and writes down the look their data has.

`Reversed` is what the tables are at every moment of such a run: the first tables with the
quests, the objects and the models of the active events, and nothing else.
-/

import ZerosCore.Events.GameEvents
import ZerosCore.Lib.Run

namespace ZerosCore.GameEvents

open Lib List Option Function

variable {cfg : Config} {o : Objects} {w w0 : World} {active : Finset ℕ} {e : ℕ}

/-! ### Grids -/

variable {g : ℕ} {x : CellGuid}

theorem guid_of_mem_cellGuids {d : SpawnData} (h : x ∈ d.cellGuids g) : x.guid = g := by
  obtain ⟨i, -, rfl⟩ := Finset.mem_image.1 h
  rfl

theorem guid_of_mem_cells (h : x ∈ o.cells g) : x.guid = g := by
  unfold Objects.cells at h
  split at h
  · exact guid_of_mem_cellGuids h
  · exact absurd h (Finset.notMem_empty _)

theorem mem_foldl_union (l : List ℕ) (grid : Finset CellGuid) (x : CellGuid) :
    x ∈ l.foldl (fun grid g => grid ∪ o.cells g) grid ↔
      x ∈ grid ∨ (x.guid ∈ l ∧ x ∈ o.cells x.guid) := by
  induction l generalizing grid with
  | nil => simp
  | cons g l ih =>
    rw [foldl_cons, ih, Finset.mem_union, mem_cons]
    constructor
    · rintro ((h | h) | h)
      · exact .inl h
      · have hg := guid_of_mem_cells h
        exact .inr ⟨.inl hg, hg ▸ h⟩
      · exact .inr ⟨.inr h.1, h.2⟩
    rintro (h | ⟨h | h, hx⟩)
    · exact .inl (.inl h)
    · exact .inl (.inr (h ▸ hx))
    · exact .inr ⟨h, hx⟩

theorem mem_foldl_sdiff (keep : ℕ → Prop) [DecidablePred keep] (l : List ℕ)
    (grid : Finset CellGuid) (x : CellGuid) :
    x ∈ l.foldl (fun grid g => if keep g then grid else grid \ o.cells g) grid ↔
      x ∈ grid ∧ ¬ (x.guid ∈ l ∧ ¬ keep x.guid ∧ x ∈ o.cells x.guid) := by
  induction l generalizing grid with
  | nil => simp
  | cons g l ih =>
    rw [foldl_cons, ih, mem_cons]
    by_cases hg : x.guid = g
    · subst hg
      by_cases hk : keep x.guid
      · simp [hk]
      rw [if_neg hk, Finset.mem_sdiff]
      tauto
    have hx : x ∉ o.cells g := fun h => hg (guid_of_mem_cells h)
    have hm : (x ∈ if keep g then grid else grid \ o.cells g) ↔ x ∈ grid := by
      split_ifs
      · exact Iff.rfl
      · simp [hx]
    rw [hm]
    simp [hg]

variable {event : ℤ} {grid : Finset CellGuid}

theorem mem_gameEventSpawn :
    x ∈ gameEventSpawn o event grid ↔ x ∈ grid ∨ (x.guid ∈ o.guids event ∧ x ∈ o.cells x.guid) :=
  mem_foldl_union _ _ _

theorem mem_gameEventUnspawn :
    x ∈ gameEventUnspawn o active event grid ↔ x ∈ grid ∧ ¬ (x.guid ∈ o.guids event ∧
        ¬ (0 < event ∧ HasActiveEventExcept o active x.guid event.toNat) ∧ x ∈ o.cells x.guid) :=
  mem_foldl_sdiff (fun g => 0 < event ∧ HasActiveEventExcept o active g event.toNat) _ _ _

/-- What is tagged with a positive event is in its cells just when one of its events runs. -/
def Placed (o : Objects) (active : Finset ℕ) (grid : Finset CellGuid) : Prop :=
  ∀ x : CellGuid, o.Tagged x.guid →
    (x ∈ grid ↔ x ∈ o.cells x.guid ∧ ∃ a ∈ active, x.guid ∈ o.guids a)

/-- The negative list of a starting event takes nothing from the grid that an active event, or
the starting one, has put there. -/
def SpawnsStart (o : Objects) (active : Finset ℕ) (event : ℕ) : Prop :=
  ∀ g ∈ o.guids (-event), (o.cells g).Nonempty → ∀ a ∈ insert event active, g ∉ o.guids a

/-- The negative list of a stopping event puts nothing in the grid that is tagged with positive
events, unless one of them still runs. -/
def SpawnsStop (o : Objects) (active : Finset ℕ) (event : ℕ) : Prop :=
  ∀ g ∈ o.guids (-event), (o.cells g).Nonempty → o.Tagged g → HasActiveEventExcept o active g event

theorem Placed.apply (h : Placed o active grid)
    (hs : SpawnsStart o active e) : Placed o (insert e active)
      (gameEventUnspawn o (insert e active) (-e) (gameEventSpawn o e grid)) := by
  intro x hx
  rw [mem_gameEventUnspawn, mem_gameEventSpawn, h x hx, Finset.exists_mem_insert]
  have hneg : x.guid ∈ o.guids (-e) → x ∈ o.cells x.guid →
      x.guid ∉ o.guids e ∧ ∀ a ∈ active, x.guid ∉ o.guids a := fun hg hc =>
    ⟨hs _ hg ⟨x, hc⟩ e (Finset.mem_insert_self _ _),
      fun a ha => hs _ hg ⟨x, hc⟩ a (Finset.mem_insert_of_mem ha)⟩
  constructor
  · rintro ⟨⟨hc, a, ha⟩ | ⟨hg, hc⟩, -⟩
    · exact ⟨hc, .inr ⟨a, ha⟩⟩
    · exact ⟨hc, .inl hg⟩
  rintro ⟨hc, hg | ⟨a, ha, hg⟩⟩
  · exact ⟨.inr ⟨hg, hc⟩, fun hn => (hneg hn.1 hc).1 hg⟩
  · exact ⟨.inl ⟨hc, a, ha, hg⟩, fun hn => (hneg hn.1 hc).2 a ha hg⟩

theorem Placed.unApply (h : Placed o active grid) (he : 0 < e)
    (hs : SpawnsStop o active e) : Placed o (active.erase e)
      (gameEventSpawn o (-e) (gameEventUnspawn o (active.erase e) e grid)) := by
  intro x hx
  have hex : (∃ a ∈ active.erase e, x.guid ∈ o.guids a) ↔
      HasActiveEventExcept o active x.guid e := by
    constructor
    · rintro ⟨a, ha, hg⟩
      exact ⟨a, Finset.mem_of_mem_erase ha, Finset.ne_of_mem_erase ha, hg⟩
    rintro ⟨a, ha, hne, hg⟩
    exact ⟨a, Finset.mem_erase.2 ⟨hne, ha⟩, hg⟩
  have hkeep : HasActiveEventExcept o (active.erase e) x.guid (e : ℤ).toNat ↔
      HasActiveEventExcept o active x.guid e := by
    constructor
    · rintro ⟨a, ha, hne, hg⟩
      exact ⟨a, Finset.mem_of_mem_erase ha, hne, hg⟩
    rintro ⟨a, ha, hne, hg⟩
    exact ⟨a, Finset.mem_erase.2 ⟨hne, ha⟩, hne, hg⟩
  rw [mem_gameEventSpawn, mem_gameEventUnspawn, h x hx, hex, hkeep]
  constructor
  · rintro (⟨⟨hc, a, ha, hg⟩, hn⟩ | ⟨hg, hc⟩)
    · refine ⟨hc, ?_⟩
      by_contra hno
      have hae : a = e := by
        by_contra hne
        exact hno ⟨a, ha, hne, hg⟩
      exact hn ⟨hae ▸ hg, fun hk => hno hk.2, hc⟩
    · exact ⟨hc, hs _ hg ⟨x, hc⟩ hx⟩
  rintro ⟨hc, hk⟩
  obtain ⟨a, ha, -, hg⟩ := id hk
  exact .inl ⟨⟨hc, a, ha, hg⟩, fun hn => hn.2.1 ⟨by exact_mod_cast he, hk⟩⟩

/-! ### Quests -/

/-- The quest relations are the first ones and those of the active events. -/
def Related (o : Objects) (active : Finset ℕ) (quests0 quests : Multiset (ℕ × ℕ)) : Prop :=
  quests = quests0 + ∑ a ∈ active, (o.quests a : Multiset (ℕ × ℕ))

def QuestsStop (o : Objects) (active : Finset ℕ) (event : ℕ) : Prop :=
  ∀ p ∈ o.quests event, ¬ HasQuestActiveEventExcept o active p.2 event

instance (o : Objects) (active : Finset ℕ) (event : ℕ) : Decidable (QuestsStop o active event) :=
  inferInstanceAs (Decidable (∀ p ∈ o.quests event, ¬ _))

theorem foldl_insert (l : List (ℕ × ℕ)) (quests : Multiset (ℕ × ℕ)) :
    l.foldl (fun quests p => p ::ₘ quests) quests = quests + l := by
  induction l generalizing quests with
  | nil => simp
  | cons p l ih =>
    rw [foldl_cons, ih, ← Multiset.cons_coe, Multiset.cons_add, Multiset.add_cons]

theorem foldl_erase (keep : ℕ × ℕ → Prop) [DecidablePred keep] (l : List (ℕ × ℕ))
    (hl : ∀ p ∈ l, ¬ keep p) (quests : Multiset (ℕ × ℕ)) :
    l.foldl (fun quests p => if keep p then quests else quests.erase p) (quests + l) = quests := by
  induction l with
  | nil => simp
  | cons p l ih =>
    rw [forall_mem_cons] at hl
    rw [foldl_cons, if_neg hl.1, ← Multiset.cons_coe, Multiset.add_cons, Multiset.erase_cons_head]
    exact ih hl.2

variable {quests0 : Multiset (ℕ × ℕ)}
variable {quests : Multiset (ℕ × ℕ)}

theorem Related.apply (h : Related o active quests0 quests)
    (he : e ∉ active) : Related o (insert e active) quests0
      (updateEventQuests o (insert e active) e true quests) := by
  have hfold : updateEventQuests o (insert e active) e true quests = quests + o.quests e :=
    foldl_insert _ _
  rw [Related, hfold, h, Finset.sum_insert he, add_assoc]
  exact congrArg _ (add_comm _ _)

theorem Related.unApply (h : Related o active quests0 quests)
    (he : e ∈ active) (hs : QuestsStop o active e) : Related o (active.erase e) quests0
      (updateEventQuests o (active.erase e) e false quests) := by
  have hkeep : ∀ p ∈ o.quests e, ¬ HasQuestActiveEventExcept o (active.erase e) p.2 e := by
    rintro p hp ⟨a, ha, hne, hq⟩
    exact hs p hp ⟨a, Finset.mem_of_mem_erase ha, hne, hq⟩
  have hsplit : quests = (quests0 + ∑ a ∈ active.erase e, (o.quests a : Multiset (ℕ × ℕ))) +
      o.quests e := by
    rw [h, ← Finset.sum_erase_add _ _ he, add_assoc]
  rw [Related, hsplit]
  exact foldl_erase (fun p => HasQuestActiveEventExcept o (active.erase e) p.2 e) _ hkeep _

/-! ### Models -/

/-- The creatures of an event's list that have data: those a start changes. -/
def changedGuids (data : ℕ → Option Look) (l : List (ℕ × ModelEquip)) : List ℕ :=
  (l.filter fun p => (data p.1).isSome).map Prod.fst

/-- The look a start finds and writes down is the one of the creature's data. -/
def Seen (env : Env) (guid : ℕ) (d : Look) (m : ModelEquip) : Prop :=
  match env.inWorld guid with
  | some shown => shown = d
  | none => env.randomGender guid (chooseDisplayId env guid d) = d.displayid ∧
      d.equipmentId ≠ 0 ∧ (d.equipmentId = 255 → m.equipementIdPrev = 255)

variable {env : Env}

theorem prev_recordPrev {d : Look} {m : ModelEquip} (h : Seen env g d m) :
    (recordPrev env g d m).prev = d := by
  unfold Seen at h
  unfold recordPrev ModelEquip.prev
  cases hworld : env.inWorld g with
  | some shown =>
    rw [hworld] at h
    have hd : shown = d := h
    simp [hd]
  | none =>
    rw [hworld] at h
    obtain ⟨hdisplay, hzero, hminus⟩ := h
    by_cases h255 : d.equipmentId = 255
    · obtain ⟨display, equipment⟩ := d
      subst h255
      simp [hdisplay, hminus rfl]
    · simp [hdisplay, hzero, h255]

theorem look_recordPrev (env : Env) (g : ℕ) (d : Look) (m : ModelEquip) :
    (recordPrev env g d m).look = m.look := by
  unfold recordPrev ModelEquip.look
  split <;> rfl

/-- The entry of a creature after the event's list is gone through. -/
def entryAfter (env : Option Env) (data : ℕ → Option Look) (p : ℕ × ModelEquip) : ModelEquip :=
  match env, data p.1 with
  | some env, some d => recordPrev env p.1 d p.2
  | _, _ => p.2

/-- The look that is put in the creature's data. -/
def lookAfter (env : Option Env) (p : ℕ × ModelEquip) : Look :=
  if env.isSome then p.2.look else p.2.prev

theorem look_entryAfter (env : Option Env) (data : ℕ → Option Look) (p : ℕ × ModelEquip) :
    (entryAfter env data p).look = p.2.look := by
  unfold entryAfter
  split
  · exact look_recordPrev _ _ _ _
  · rfl

variable {data : ℕ → Option Look} {l : List (ℕ × ModelEquip)}

theorem mem_changedGuids : g ∈ changedGuids data l ↔ (∃ p ∈ l, p.1 = g) ∧ (data g).isSome := by
  unfold changedGuids
  simp only [List.mem_map, List.mem_filter]
  constructor
  · rintro ⟨p, ⟨hp, hd⟩, rfl⟩
    exact ⟨⟨p, hp, rfl⟩, hd⟩
  rintro ⟨⟨p, hp, rfl⟩, hd⟩
  exact ⟨p, ⟨hp, hd⟩, rfl⟩

/-- **What going through an event's list does** when no creature stands in it twice: every entry
is written from the data before, and every creature of the list with data gets its look. -/
theorem changeEquipOrModel_spec (env : Option Env) (data : ℕ → Option Look)
    (l : List (ℕ × ModelEquip)) (hl : (changedGuids data l).Nodup) :
    (changeEquipOrModel env data l).2 = l.map (fun p => (p.1, entryAfter env data p)) ∧
    (∀ p ∈ l, (changeEquipOrModel env data l).1 p.1 = (data p.1).map fun _ => lookAfter env p) ∧
    ∀ g, (∀ p ∈ l, p.1 ≠ g) → (changeEquipOrModel env data l).1 g = data g := by
  induction l generalizing data with
  | nil => exact ⟨rfl, fun p hp => absurd hp not_mem_nil, fun _ _ => rfl⟩
  | cons p l ih =>
    obtain ⟨g, m⟩ := p
    cases hd : data g with
    | none =>
      have hl' : (changedGuids data l).Nodup := by
        simpa [changedGuids, hd] using hl
      obtain ⟨hlist, hlook, hrest⟩ := ih data hl'
      have hrun : changeEquipOrModel env data ((g, m) :: l) =
          ((changeEquipOrModel env data l).1, (g, m) :: (changeEquipOrModel env data l).2) := by
        rw [changeEquipOrModel, hd]
      rw [hrun]
      refine ⟨?_, ?_, ?_⟩
      · rw [hlist, map_cons]
        simp [entryAfter, hd]
      · rintro q hq
        rcases mem_cons.1 hq with rfl | hq
        · by_cases hmem : ∃ p ∈ l, p.1 = g
          · obtain ⟨p, hp, rfl⟩ := hmem
            simp [hlook p hp, hd]
          push Not at hmem
          simp [hrest g hmem, hd]
        · exact hlook q hq
      intro x hx
      exact hrest x fun p hp => hx p (mem_cons_of_mem _ hp)
    | some d =>
      have hcons : changedGuids data ((g, m) :: l) = g :: changedGuids data l := by
        simp [changedGuids, hd]
      rw [hcons, nodup_cons] at hl
      -- the rest of the list does not read the creature that was just written
      have hne : ∀ p ∈ l, p.1 ≠ g := by
        intro p hp hpg
        exact hl.1 (mem_changedGuids.2 ⟨⟨p, hp, hpg⟩, by rw [hd]; rfl⟩)
      generalize hm : entryAfter env data (g, m) = m'
      generalize hdata : update data g (some (lookAfter env (g, m))) = data'
      have hsame : ∀ p ∈ l, data' p.1 = data p.1 := fun p hp => by
        rw [← hdata, update_of_ne (hne p hp)]
      have hrun : changeEquipOrModel env data ((g, m) :: l) =
          ((changeEquipOrModel env data' l).1, (g, m') :: (changeEquipOrModel env data' l).2) := by
        rw [changeEquipOrModel, hd, ← hdata, ← hm]
        cases env with
        | none => rfl
        | some env => simp [entryAfter, hd, lookAfter, look_recordPrev]
      have hl' : (changedGuids data' l).Nodup := by
        have : changedGuids data' l = changedGuids data l := by
          unfold changedGuids
          rw [filter_congr fun p hp => by rw [hsame p hp]]
        rw [this]
        exact hl.2
      obtain ⟨hlist, hlook, hrest⟩ := ih data' hl'
      have hentry : ∀ p ∈ l, entryAfter env data' p = entryAfter env data p := fun p hp => by
        unfold entryAfter
        rw [hsame p hp]
      rw [hrun]
      refine ⟨?_, ?_, ?_⟩
      · rw [hlist, map_cons, hm]
        exact congrArg _ (map_congr_left fun p hp => by rw [hentry p hp])
      · rintro q hq
        rcases mem_cons.1 hq with rfl | hq
        · rw [hrest g hne, ← hdata, update_self, hd]
          rfl
        · rw [hlook q hq, hsame q hq]
      intro x hx
      have hxg : g ≠ x := hx (g, m) mem_cons_self
      rw [hrest x fun p hp => hx p (mem_cons_of_mem _ hp), ← hdata, update_of_ne hxg.symm]

/-- The data of the creatures and the entries of the events, beside the first ones: a creature
in the list of an active event has the look of its one entry there, which keeps the first look,
and every other creature has its first look. -/
structure Dressed (w0 w : World) : Prop where
  shape : ∀ a, (w.modelEquip a).map (fun p => (p.1, p.2.look)) =
    (w0.modelEquip a).map fun p => (p.1, p.2.look)
  rest : ∀ g, (∀ a ∈ w.active, ∀ p ∈ w.modelEquip a, p.1 ≠ g) → w.data g = w0.data g
  look : ∀ a ∈ w.active, ∀ p ∈ w.modelEquip a, w.data p.1 = (w0.data p.1).map fun _ => p.2.look
  prev : ∀ a ∈ w.active, ∀ p ∈ w.modelEquip a, ∀ d, w0.data p.1 = some d → p.2.prev = d
  nodup : ∀ a ∈ w.active, (changedGuids w0.data (w.modelEquip a)).Nodup
  apart : ∀ a ∈ w.active, ∀ b ∈ w.active, a ≠ b → ∀ p ∈ w.modelEquip a, ∀ q ∈ w.modelEquip b,
    (w0.data p.1).isSome → p.1 ≠ q.1

/-- The creatures a start changes: none twice, none that an active event has changed, and each
found with the look of its data. -/
structure ModelsStart (w : World) (event : ℕ) (env : Env) : Prop where
  nodup : (changedGuids w.data (w.modelEquip event)).Nodup
  apart : ∀ p ∈ w.modelEquip event, (w.data p.1).isSome →
    ∀ a ∈ w.active, ∀ q ∈ w.modelEquip a, q.1 ≠ p.1
  seen : ∀ p ∈ w.modelEquip event, ∀ d, w.data p.1 = some d → Seen env p.1 d p.2

theorem Dressed.isSome_data (h : Dressed w0 w) (g : ℕ) :
    (w.data g).isSome = (w0.data g).isSome := by
  by_cases hg : ∀ a ∈ w.active, ∀ p ∈ w.modelEquip a, p.1 ≠ g
  · rw [h.rest g hg]
  push Not at hg
  obtain ⟨a, ha, p, hp, rfl⟩ := hg
  rw [h.look a ha p hp, isSome_map]

theorem Dressed.changedGuids_eq (h : Dressed w0 w) (l : List (ℕ × ModelEquip)) :
    changedGuids w.data l = changedGuids w0.data l := by
  unfold changedGuids
  rw [filter_congr fun p _ => h.isSome_data p.1]

theorem exists_of_shape {l' : List (ℕ × ModelEquip)} {p : ℕ × ModelEquip}
    (h : l.map (fun p => (p.1, p.2.look)) = l'.map fun p => (p.1, p.2.look)) (hp : p ∈ l) :
    ∃ q ∈ l', q.1 = p.1 ∧ q.2.look = p.2.look := by
  have hmem : (p.1, p.2.look) ∈ l'.map fun p => (p.1, p.2.look) := by
    rw [← h]
    exact mem_map.2 ⟨p, hp, rfl⟩
  obtain ⟨q, hq, heq⟩ := mem_map.1 hmem
  exact ⟨q, hq, (Prod.mk.inj heq).1, (Prod.mk.inj heq).2⟩

variable {w' : World}

/-- **The active events say what every creature looks like.** -/
theorem Dressed.data_eq (h : Dressed w0 w) (h' : Dressed w0 w')
    (ha : w.active = w'.active) : w.data = w'.data := by
  funext g
  by_cases hg : ∃ a ∈ w.active, ∃ p ∈ w.modelEquip a, p.1 = g
  · obtain ⟨a, hact, p, hp, rfl⟩ := hg
    obtain ⟨p0, hp0, hguid, hlook⟩ := exists_of_shape (h.shape a) hp
    obtain ⟨p', hp', hguid', hlook'⟩ := exists_of_shape (h'.shape a).symm hp0
    have hdata' := h'.look a (ha ▸ hact) p' hp'
    rw [hguid', hguid, hlook', hlook] at hdata'
    rw [h.look a hact p hp, hdata']
  push Not at hg
  rw [h.rest g hg, h'.rest g]
  intro a hact p' hp'
  obtain ⟨p0, hp0, hguid0, -⟩ := exists_of_shape (h'.shape a) hp'
  obtain ⟨p, hp, hguid, -⟩ := exists_of_shape (h.shape a).symm hp0
  rw [← hguid0, ← hguid]
  exact hg a (ha ▸ hact) p hp

theorem map_const_congr {α β γ : Type*} {x : Option α} {y : Option β} (c : γ)
    (h : x.isSome = y.isSome) : (x.map fun _ => c) = y.map fun _ => c := by
  cases x <;> cases y <;> simp_all

theorem changeEquipOrModel_of_notMem {env : Option Env} (hl : (changedGuids data l).Nodup)
    (hg : g ∉ changedGuids data l) : (changeEquipOrModel env data l).1 g = data g := by
  obtain ⟨-, hlook, hrest⟩ := changeEquipOrModel_spec env data l hl
  by_cases hmem : ∃ p ∈ l, p.1 = g
  · have hnone : data g = none := by
      by_contra hsome
      exact hg (mem_changedGuids.2 ⟨hmem, isSome_iff_ne_none.2 hsome⟩)
    obtain ⟨p, hp, rfl⟩ := hmem
    rw [hlook p hp, hnone]
    rfl
  push Not at hmem
  exact hrest g hmem

theorem changedGuids_map (env : Option Env) (data data' : ℕ → Option Look)
    (l : List (ℕ × ModelEquip)) :
    changedGuids data' (l.map fun p => (p.1, entryAfter env data p)) = changedGuids data' l := by
  induction l with
  | nil => rfl
  | cons p l ih =>
    unfold changedGuids at ih ⊢
    rw [map_cons, filter_cons, filter_cons]
    split_ifs
    · rw [map_cons, map_cons, ih]
    · exact ih

/-- **A start dresses the creatures of its event.** -/
theorem Dressed.start (h : Dressed w0 w) (he : e ∉ w.active)
    (hm : ModelsStart w e env) : Dressed w0 (startEvent cfg w e env) := by
  obtain ⟨hlist, hlook, hrest⟩ :=
    changeEquipOrModel_spec (some env) w.data (w.modelEquip e) hm.nodup
  have hentries : (startEvent cfg w e env).modelEquip e =
      (w.modelEquip e).map fun p => (p.1, entryAfter (some env) w.data p) := by
    rw [← hlist]
    exact update_self ..
  have hother : ∀ a ≠ e, (startEvent cfg w e env).modelEquip a = w.modelEquip a :=
    fun a ha => update_of_ne ha ..
  have hne : ∀ a ∈ w.active, a ≠ e := fun a ha hae => he (hae ▸ ha)
  -- a creature the start changes has its first look
  have hfirst : ∀ p ∈ w.modelEquip e, (w.data p.1).isSome → w.data p.1 = w0.data p.1 :=
    fun p hp hd => h.rest _ fun a ha q hq => hm.apart p hp hd a ha q hq
  have hkeep : ∀ a ∈ w.active, ∀ p ∈ w.modelEquip a,
      (startEvent cfg w e env).data p.1 = w.data p.1 := by
    intro a ha p hp
    refine changeEquipOrModel_of_notMem hm.nodup fun hmem => ?_
    obtain ⟨⟨q, hq, hqp⟩, hd⟩ := mem_changedGuids.1 hmem
    rw [← hqp] at hd
    exact hm.apart q hq hd a ha p hp hqp.symm
  have happart : ∀ a ∈ w.active, ∀ p ∈ w.modelEquip a, ∀ q ∈ w.modelEquip e,
      (w0.data p.1).isSome → p.1 ≠ q.1 := by
    intro a ha p hp q hq hd hpq
    rw [hpq, ← h.isSome_data] at hd
    exact hm.apart q hq hd a ha p hp hpq
  refine ⟨fun a => ?_, fun g hg => ?_, fun a ha p hp => ?_, fun a ha p hp d hd => ?_,
    fun a ha => ?_, fun a ha b hb hab p hp q hq hd => ?_⟩
  · by_cases hae : a = e
    · subst hae
      rw [hentries, ← h.shape a, List.map_map]
      exact List.map_congr_left fun p _ => by simp [look_entryAfter]
    rw [hother a hae]
    exact h.shape a
  · have hnot : ∀ p ∈ w.modelEquip e, p.1 ≠ g := fun p hp => by
      refine hg e (Finset.mem_insert_self _ _) (p.1, entryAfter (some env) w.data p) ?_
      rw [hentries]
      exact mem_map.2 ⟨p, hp, rfl⟩
    have hfree : ∀ a ∈ w.active, ∀ p ∈ w.modelEquip a, p.1 ≠ g := fun a ha p hp =>
      hg a (Finset.mem_insert_of_mem ha) p (by rwa [hother a (hne a ha)])
    exact (hrest g hnot).trans (h.rest g hfree)
  · rcases Finset.mem_insert.1 ha with rfl | ha
    · rw [hentries] at hp
      obtain ⟨q, hq, rfl⟩ := mem_map.1 hp
      refine (hlook q hq).trans ?_
      rw [look_entryAfter]
      exact map_const_congr _ (h.isSome_data q.1)
    rw [hother a (hne a ha)] at hp
    rw [hkeep a ha p hp]
    exact h.look a ha p hp
  · rcases Finset.mem_insert.1 ha with rfl | ha
    · rw [hentries] at hp
      obtain ⟨q, hq, rfl⟩ := mem_map.1 hp
      have hsome : (w.data q.1).isSome := by
        rw [h.isSome_data, hd]
        rfl
      have hdata : w.data q.1 = some d := (hfirst q hq hsome).trans hd
      have hentry : entryAfter (some env) w.data q = recordPrev env q.1 d q.2 := by
        unfold entryAfter
        rw [hdata]
      rw [hentry]
      exact prev_recordPrev (hm.seen q hq d hdata)
    rw [hother a (hne a ha)] at hp
    exact h.prev a ha p hp d hd
  · rcases Finset.mem_insert.1 ha with rfl | ha
    · rw [hentries, changedGuids_map, ← h.changedGuids_eq]
      exact hm.nodup
    rw [hother a (hne a ha)]
    exact h.nodup a ha
  rcases Finset.mem_insert.1 ha with hae | ha <;> rcases Finset.mem_insert.1 hb with hbe | hb
  · exact absurd (hae.trans hbe.symm) hab
  · rw [hother b (hne b hb)] at hq
    rw [hae, hentries] at hp
    obtain ⟨p', hp', rfl⟩ := mem_map.1 hp
    intro hpq
    rw [hpq] at hd
    exact happart b hb q hq p' hp' hd hpq.symm
  · rw [hother a (hne a ha)] at hp
    rw [hbe, hentries] at hq
    obtain ⟨q', hq', rfl⟩ := mem_map.1 hq
    exact happart a ha p hp q' hq' hd
  rw [hother a (hne a ha)] at hp
  rw [hother b (hne b hb)] at hq
  exact h.apart a ha b hb hab p hp q hq hd

/-- **A stop gives the creatures of its event their first look back.** -/
theorem Dressed.stop (h : Dressed w0 w) (he : e ∈ w.active) : Dressed w0 (stopEvent cfg w e) := by
  have hnodup : (changedGuids w.data (w.modelEquip e)).Nodup := by
    rw [h.changedGuids_eq]
    exact h.nodup e he
  obtain ⟨hlist, hlook, hrest⟩ := changeEquipOrModel_spec none w.data (w.modelEquip e) hnodup
  have hentries : (stopEvent cfg w e).modelEquip = w.modelEquip := by
    refine (update_eq_self_iff.2 ?_ : update w.modelEquip e _ = _)
    rw [hlist]
    exact map_id _
  refine ⟨fun a => ?_, fun g hg => ?_, fun a ha p hp => ?_, fun a ha p hp d hd => ?_,
    fun a ha => ?_, fun a ha b hb hab p hp q hq hd => ?_⟩
  · rw [hentries]
    exact h.shape a
  · by_cases hmem : ∃ p ∈ w.modelEquip e, p.1 = g
    · obtain ⟨p, hp, rfl⟩ := hmem
      refine (hlook p hp).trans ?_
      have hsome := h.isSome_data p.1
      cases hd : w0.data p.1 with
      | none =>
        rw [hd] at hsome
        rw [isNone_iff_eq_none.1 (isSome_eq_false_iff.1 hsome)]
        rfl
      | some d =>
        rw [hd] at hsome
        obtain ⟨d', hd'⟩ := isSome_iff_exists.1 hsome
        rw [hd', map_some]
        exact congrArg some (h.prev e he p hp d hd)
    push Not at hmem
    refine (hrest g hmem).trans (h.rest g fun a ha p hp => ?_)
    by_cases hae : a = e
    · exact hmem p (hae ▸ hp)
    · exact hg a (Finset.mem_erase.2 ⟨hae, ha⟩) p (by rwa [hentries])
  · have ha' := Finset.mem_of_mem_erase ha
    rw [hentries] at hp
    rw [← h.look a ha' p hp]
    refine changeEquipOrModel_of_notMem hnodup fun hmem => ?_
    obtain ⟨⟨q, hq, hqp⟩, hd⟩ := mem_changedGuids.1 hmem
    rw [h.isSome_data] at hd
    exact h.apart a ha' e he (Finset.ne_of_mem_erase ha) p hp q hq hd hqp.symm
  · rw [hentries] at hp
    exact h.prev a (Finset.mem_of_mem_erase ha) p hp d hd
  · rw [hentries]
    exact h.nodup a (Finset.mem_of_mem_erase ha)
  rw [hentries] at hp hq
  exact h.apart a (Finset.mem_of_mem_erase ha) b (Finset.mem_of_mem_erase hb) hab p hp q hq hd

/-! ### Runs -/

/-- What the tables are while the events of `active` run. -/
structure Reversed (cfg : Config) (w0 w : World) : Prop where
  pos : ∀ a ∈ w.active, 0 < a
  creatureQuests : Related cfg.creatures w.active w0.creatures.quests w.creatures.quests
  gameobjectQuests : Related cfg.gameobjects w.active w0.gameobjects.quests w.gameobjects.quests
  creatures : Placed cfg.creatures w.active w.creatures.grid
  gameobjects : Placed cfg.gameobjects w.active w.gameobjects.grid
  dressed : Dressed w0 w

/-- A step keeps to the tables of its own event. -/
def Regular (cfg : Config) (w : World) : Op → Prop
  | .start e env => SpawnsStart cfg.creatures w.active e ∧ SpawnsStart cfg.gameobjects w.active e ∧
      ModelsStart w e env
  | .stop e => SpawnsStop cfg.creatures w.active e ∧ SpawnsStop cfg.gameobjects w.active e ∧
      QuestsStop cfg.creatures w.active e ∧ QuestsStop cfg.gameobjects w.active e

theorem Loaded.reversed (h : Loaded cfg w) : Reversed cfg w w where
  pos := by simp [h.active]
  creatureQuests := by simp [Related, h.active]
  gameobjectQuests := by simp [Related, h.active]
  creatures := fun x hx => by
    simp only [h.active, Finset.notMem_empty, false_and, exists_false, and_false, iff_false]
    exact fun hmem => h.creatures x hmem hx
  gameobjects := fun x hx => by
    simp only [h.active, Finset.notMem_empty, false_and, exists_false, and_false, iff_false]
    exact fun hmem => h.gameobjects x hmem hx
  dressed := by
    refine ⟨fun _ => rfl, fun _ _ => rfl, ?_, ?_, ?_, ?_⟩ <;> simp [h.active]

/-- **Each start and stop** leaves what a world without the event would have. -/
theorem Reversed.step (h : Reversed cfg w0 w) {op : Op} (hp : Proper w op)
    (hr : Regular cfg w op) : Reversed cfg w0 (step cfg w op) := by
  cases op with
  | start e env =>
    obtain ⟨hpos, he⟩ := hp
    obtain ⟨hc, hg, hm⟩ := hr
    refine ⟨fun a ha => ?_, h.creatureQuests.apply he, h.gameobjectQuests.apply he,
      h.creatures.apply hc, h.gameobjects.apply hg, h.dressed.start he hm⟩
    rcases Finset.mem_insert.1 ha with rfl | ha
    · exact hpos
    · exact h.pos a ha
  | stop e =>
    obtain ⟨hc, hg, hqc, hqg⟩ := hr
    have hpos := h.pos e hp
    exact ⟨fun a ha => h.pos a (Finset.mem_of_mem_erase ha), h.creatureQuests.unApply hp hqc,
      h.gameobjectQuests.unApply hp hqg, h.creatures.unApply hpos hc,
      h.gameobjects.unApply hpos hg, h.dressed.stop hp⟩

theorem Related.same {t t' : Tables}
    (hq : Related o active quests0 t.quests) (hq' : Related o active quests0 t'.quests)
    (hg : Placed o active t.grid) (hg' : Placed o active t'.grid) : t.Same o t' where
  quests := hq.trans hq'.symm
  grid := fun x hx => (hg x hx).trans (hg' x hx).symm

theorem Reversed.same (h : Reversed cfg w0 w) (h' : Reversed cfg w0 w')
    (ha : w.active = w'.active) : Same cfg w w' where
  creatures := Related.same h.creatureQuests (ha ▸ h'.creatureQuests) h.creatures
    (ha ▸ h'.creatures)
  gameobjects := Related.same h.gameobjectQuests (ha ▸ h'.gameobjectQuests) h.gameobjects
    (ha ▸ h'.gameobjects)
  data := h.dressed.data_eq h'.dressed ha

theorem reversed_of_regular (h0 : Loaded cfg w0) {ops : List Op}
    (h : Along (step cfg) (fun w op => Proper w op ∧ Regular cfg w op) w0 ops) :
    Reversed cfg w0 (ops.foldl (step cfg) w0) :=
  Along.invariant_foldl (I := Reversed cfg w0) (fun _ _ hI hG => hI.step hG.1 hG.2) h0.reversed h

/-- A world without gameobjects, before its events. -/
def firstWorld (data : ℕ → Option Look) (modelEquip : ℕ → List (ℕ × ModelEquip)) : World :=
  ⟨∅, ⟨0, ∅⟩, ⟨0, ∅⟩, data, modelEquip⟩

def noObjects : Objects := ⟨fun _ => none, fun _ => [], fun _ => []⟩

/-- Two events share creature 7; each gives a quest of its own, the first dresses creature 30
and hides creature 9. -/
def twoEvents : Config where
  creatures :=
    { data := fun _ => some ⟨1, 1, 4⟩, guids := fun event =>
        if event = 1 then [7] else if event = 2 then [7, 8] else if event = -1 then [9] else []
      quests := fun event => if event = 1 then [(10, 5)] else if event = 2 then [(20, 6)] else [] }
  gameobjects := noObjects

def dressedWorld : World :=
  firstWorld (fun g => if g = 30 then some ⟨100, 3⟩ else none) fun event =>
    if event = 1 then [(30, ⟨111, 0, 2, 0⟩)] else []

def emptyEnv : Env := ⟨fun _ => none, fun _ => 0, fun _ display => display⟩

theorem loaded_firstWorld (cfg : Config) (data : ℕ → Option Look)
    (modelEquip : ℕ → List (ℕ × ModelEquip)) : Loaded cfg (firstWorld data modelEquip) :=
  ⟨rfl, fun _ hx => absurd hx (Finset.notMem_empty _),
    fun _ hx => absurd hx (Finset.notMem_empty _)⟩

theorem tagged_twoEvents (h : twoEvents.creatures.Tagged g) : g = 7 ∨ g = 8 := by
  obtain ⟨e, he, hg⟩ := h
  have hneg : (e : ℤ) ≠ -1 := by omega
  simp only [twoEvents, if_neg hneg] at hg
  split_ifs at hg
  · exact .inl (mem_singleton.1 hg)
  · simpa using hg
  · exact absurd hg not_mem_nil

theorem along_twoEvents :
    Along (step twoEvents) (fun w op => Proper w op ∧ Regular twoEvents w op) dressedWorld
      [.start 1 emptyEnv, .start 2 emptyEnv, .stop 1] := by
  refine ⟨⟨by decide, ?_, ?_, by decide, by decide, ?_⟩,
    ⟨by decide, ?_, ?_, by decide, by decide, ?_⟩, ⟨by decide, ?_, ?_, by decide, by decide⟩,
    trivial⟩
  · simp [SpawnsStart, twoEvents, dressedWorld, firstWorld]
  · simp [SpawnsStart, twoEvents, noObjects]
  · simp [dressedWorld, firstWorld, Seen, emptyEnv, chooseDisplayId]
  · simp [SpawnsStart, twoEvents]
  · simp [SpawnsStart, twoEvents, noObjects]
  · simp [step, startEvent, World.changeModels, dressedWorld, firstWorld]
  · intro g hg _ htag
    rcases tagged_twoEvents htag with rfl | rfl <;> exact absurd hg (by decide)
  · simp [SpawnsStop, twoEvents, noObjects]

theorem along_secondEvent :
    Along (step twoEvents) (fun w op => Proper w op ∧ Regular twoEvents w op) dressedWorld
      [.start 2 emptyEnv] := by
  refine ⟨⟨by decide, ?_, ?_, by decide, by decide, ?_⟩, trivial⟩
  · simp [SpawnsStart, twoEvents, dressedWorld, firstWorld]
  · simp [SpawnsStart, twoEvents, noObjects]
  · simp [dressedWorld, firstWorld]

/-- Two events that give the same quest, from two creatures. -/
def sharedQuest : Config where
  creatures :=
    { noObjects with
      quests := fun event => if event = 1 then [(10, 5)] else if event = 2 then [(20, 5)] else [] }
  gameobjects := noObjects

end ZerosCore.GameEvents
