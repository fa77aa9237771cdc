/-
# The event logs of a guild

`Guild::LogHolder` of `src/server/game/Guilds/Guild.cpp`, and how `GuildMgr::LoadGuilds` loads a
log: the rows with the latest timestamps first, and of these the one with the largest guid.

In memory a log has the last events, in their order and with guids of their own.  Of events with
one timestamp a reload takes the one with the larger guid for the later one, and that is wrong
where the guids begin again at zero between them (`eventLog_right`).
-/

import Mathlib.Data.List.Induction
import Mathlib.Data.List.Sort

namespace ZerosCore.Guild.EventLog

open List

structure LogEntry (α : Type) where
  guid : ℕ
  timestamp : ℕ
  data : α
deriving DecidableEq

/-- A log, with no guid for `GUILD_EVENT_LOG_GUID_UNDEFINED`. -/
structure LogHolder (α : Type) where
  maxRecords : ℕ
  nextGUID : Option ℕ := none
  log : List (LogEntry α) := []
deriving DecidableEq

variable {α : Type}

def LogHolder.canInsert (h : LogHolder α) : Bool := h.log.length < h.maxRecords

def LogHolder.loadEvent (h : LogHolder α) (entry : LogEntry α) : LogHolder α :=
  { h with
    nextGUID := if h.nextGUID = none then some entry.guid else h.nextGUID
    log := entry :: h.log }

/-- `GetNextGUID`, which also stores it. -/
def LogHolder.getNextGUID (h : LogHolder α) : ℕ :=
  match h.nextGUID with
  | none => 0
  | some guid => (guid + 1) % h.maxRecords

/-- `AddEvent`, after `GetNextGUID` for the entry. -/
def LogHolder.addEvent (h : LogHolder α) (entry : LogEntry α) : LogHolder α :=
  { h with
    nextGUID := some entry.guid
    log := (if h.maxRecords ≤ h.log.length then h.log.tail else h.log) ++ [entry] }

/-- `SaveToDB` takes the row with the guid out before it puts a new one in. -/
def saveToDB (rows : List (LogEntry α)) (entry : LogEntry α) : List (LogEntry α) :=
  rows.filter (fun row => row.guid ≠ entry.guid) ++ [entry]

structure GuildLog (α : Type) where
  eventLog : LogHolder α
  rows : List (LogEntry α) := []

/-- An event: its timestamp and the rest. -/
abbrev Event (α : Type) := ℕ × α

def GuildLog.logEvent (g : GuildLog α) (e : Event α) : GuildLog α :=
  let entry := ⟨g.eventLog.getNextGUID, e.1, e.2⟩
  ⟨g.eventLog.addEvent entry, saveToDB g.rows entry⟩

/-- `ORDER BY TimeStamp DESC, LogGuid DESC`. -/
def Descending (a b : LogEntry α) : Prop :=
  b.timestamp < a.timestamp ∨ b.timestamp = a.timestamp ∧ b.guid ≤ a.guid

instance (a b : LogEntry α) : Decidable (Descending a b) := inferInstanceAs (Decidable (_ ∨ _))

/-- `LoadEventLogFromDB` for every row. -/
def loadGuilds (maxRecords : ℕ) (rows : List (LogEntry α)) : LogHolder α :=
  (rows.insertionSort Descending).foldl (fun h entry => if h.canInsert then h.loadEvent entry else h)
    { maxRecords }

/-! ### What a log should hold -/

/-- What comes after some events. -/
def after (maxRecords : ℕ) (es : List (Event α)) : GuildLog α :=
  es.foldl GuildLog.logEvent { eventLog := { maxRecords } }

/-- Of two events that are held the later one has the larger timestamp, or the same and the
larger guid. -/
def InOrder (maxRecords : ℕ) (es : List (Event α)) : Prop :=
  ∀ i j (_ : i < j) (_ : j < es.length), es.length - maxRecords ≤ i →
    es[i].1 < es[j].1 ∨ es[i].1 = es[j].1 ∧ i % maxRecords ≤ j % maxRecords

/-! ### The guids -/

/-- The entries of events, by the number of the event. -/
def numbered (N : ℕ) (es : List (Event α)) : List (LogEntry α) :=
  es.zipIdx.map fun e => ⟨e.2 % N, e.1.1, e.1.2⟩

variable {N : ℕ} {es : List (Event α)} {g : GuildLog α}

theorem length_numbered : (numbered N es).length = es.length := by
  simp [numbered]

theorem numbered_append (e : Event α) :
    numbered N (es ++ [e]) = numbered N es ++ [⟨es.length % N, e.1, e.2⟩] := by
  simp [numbered, zipIdx_append]

theorem mod_ne {i j : ℕ} (hlt : i < j) (hj : j < i + N) : i % N ≠ j % N := by
  intro heq
  have hzero := Nat.sub_mod_eq_zero_of_mod_eq heq.symm
  rw [Nat.mod_eq_of_lt (by omega)] at hzero
  omega

variable (N es) in
/-- **No two of `N` entries in a row have one guid.** -/
theorem nodup_guid {m : ℕ} (hm : es.length ≤ m + N) :
    (((numbered N es).drop m).map LogEntry.guid).Nodup := by
  rw [Nodup, pairwise_map, pairwise_iff_getElem]
  intro i j hi hj hlt
  rw [length_drop, length_numbered] at hj
  simp only [numbered, getElem_drop, getElem_map, getElem_zipIdx]
  exact mod_ne (by omega) (by omega)

/-- The log has the last events, and the table the same entries. -/
structure Inv (N : ℕ) (g : GuildLog α) (es : List (Event α)) : Prop where
  maxRecords : g.eventLog.maxRecords = N
  log : g.eventLog.log = (numbered N es).drop (es.length - N)
  next : g.eventLog.nextGUID = (numbered N es).getLast?.map LogEntry.guid
  rows : g.rows ~ g.eventLog.log

theorem Inv.getNextGUID (h : Inv N g es) : g.eventLog.getNextGUID = es.length % N := by
  unfold LogHolder.getNextGUID
  rw [h.next, h.maxRecords]
  cases es using reverseRecOn with
  | nil => exact (Nat.zero_mod N).symm
  | append_singleton es e =>
    rw [numbered_append, getLast?_concat, length_append, length_singleton]
    exact Nat.mod_add_mod ..

/-- **The step lemma.** -/
theorem Inv.logEvent (hN : 0 < N) (h : Inv N g es) (e : Event α) :
    Inv N (g.logEvent e) (es ++ [e]) := by
  have hlength : (numbered N es).length = es.length := length_numbered
  have hlog : (numbered N (es ++ [e])).drop ((es ++ [e]).length - N) =
      (numbered N es).drop (es.length + 1 - N) ++ [⟨es.length % N, e.1, e.2⟩] := by
    rw [numbered_append, length_append, length_singleton, drop_append_of_le_length (by omega)]
  -- the row that is taken out is that of the entry which leaves the log, if one does
  have hkept : g.eventLog.log.filter (·.guid ≠ es.length % N) =
      (numbered N es).drop (es.length + 1 - N) ∧
        (if N ≤ g.eventLog.log.length then g.eventLog.log.tail else g.eventLog.log) =
          (numbered N es).drop (es.length + 1 - N) := by
    have hnodup := nodup_guid N (es ++ [e]) (m := (es ++ [e]).length - N) (by omega)
    rw [hlog, map_append, nodup_append] at hnodup
    have hne : ∀ row ∈ (numbered N es).drop (es.length + 1 - N), row.guid ≠ es.length % N :=
      fun row hrow => hnodup.2.2 _ (mem_map_of_mem hrow) _ (mem_singleton.mpr rfl)
    have hself := filter_eq_self.mpr fun row hrow => decide_eq_true (hne row hrow)
    rw [h.log, length_drop, hlength]
    by_cases hfull : N ≤ es.length
    · have hsub : es.length - N + 1 = es.length + 1 - N := by omega
      rw [if_pos (by omega), drop_eq_getElem_cons (by omega), hsub, tail_cons, filter_cons_of_neg, hself]
      · exact ⟨rfl, rfl⟩
      · simp [numbered, Nat.mod_eq_sub_mod hfull]
    · rw [if_neg (by omega), show es.length - N = es.length + 1 - N by omega, hself]
      exact ⟨rfl, rfl⟩
  unfold GuildLog.logEvent LogHolder.addEvent saveToDB
  rw [h.getNextGUID, h.maxRecords, hkept.2]
  refine ⟨rfl, hlog.symm, ?_, ?_⟩
  · rw [numbered_append, getLast?_concat]
    rfl
  · have hrows := h.rows.filter fun row => decide (row.guid ≠ es.length % N)
    rw [hkept.1] at hrows
    exact hrows.append_right _

theorem inv_after (hN : 0 < N) (es : List (Event α)) : Inv N (after N es) es := by
  induction es using reverseRecOn with
  | nil => exact ⟨rfl, drop_nil.symm, rfl, .refl _⟩
  | append_singleton es e ih =>
    unfold after at ih ⊢
    rw [foldl_append]
    exact ih.logEvent hN e

/-! ### The reload -/

theorem foldl_loadEvent (rows : List (LogEntry α)) (h : LogHolder α)
    (hfits : rows.length + h.log.length ≤ h.maxRecords) :
    rows.foldl (fun h entry => if h.canInsert then h.loadEvent entry else h) h =
      ⟨h.maxRecords, h.nextGUID.or (rows.head?.map LogEntry.guid), rows.reverse ++ h.log⟩ := by
  induction rows generalizing h with
  | nil => simp
  | cons row rows ih =>
    rw [length_cons] at hfits
    have hcan : h.canInsert = true := decide_eq_true (by omega)
    rw [foldl_cons, if_pos hcan, ih _ (by simp only [LogHolder.loadEvent, length_cons]; omega)]
    unfold LogHolder.loadEvent
    cases h.nextGUID <;> simp

instance : Std.Total (Descending (α := α)) where
  total a b := by
    unfold Descending
    omega

instance : IsTrans (LogEntry α) Descending where
  trans a b c hab hbc := by
    unfold Descending at *
    omega

/-- **A reload gives the log back exactly if it is in order.** -/
theorem Inv.reload_iff (hN : 0 < N) (h : Inv N g es) :
    loadGuilds N g.rows = g.eventLog ↔ InOrder N es := by
  have hlength : (numbered N es).length = es.length := length_numbered
  have hsort := pairwise_insertionSort Descending g.rows
  have hperm := (perm_insertionSort Descending g.rows).trans h.rows
  have hload : loadGuilds N g.rows = ⟨N, (g.rows.insertionSort Descending).head?.map LogEntry.guid,
      (g.rows.insertionSort Descending).reverse⟩ := by
    have hfits := hperm.length_eq
    rw [h.log, length_drop, hlength] at hfits
    rw [loadGuilds, foldl_loadEvent _ _ (by simp only [length_nil]; omega), append_nil]
    rfl
  generalize g.rows.insertionSort Descending = sorted at *
  have horder : sorted.reverse = g.eventLog.log ↔
      g.eventLog.log.Pairwise fun a b => Descending b a := by
    constructor
    · intro heq
      rwa [← heq, pairwise_reverse]
    · intro hpairwise
      refine Perm.eq_of_pairwise (fun a b ha hb hab hba => ?_) (pairwise_reverse.mpr hsort) hpairwise
        ((reverse_perm _).trans hperm)
      have hguid : a.guid = b.guid := by
        unfold Descending at hab hba
        omega
      have hnodup := nodup_guid N es (m := es.length - N) (by omega)
      rw [← h.log] at hnodup
      exact inj_on_of_nodup_map hnodup (((reverse_perm _).trans hperm).mem_iff.mp ha) hb hguid
  have hpairwise : (g.eventLog.log.Pairwise fun a b => Descending b a) ↔ InOrder N es := by
    rw [h.log, pairwise_iff_getElem]
    constructor
    · intro hall i j hlt hj hi
      obtain ⟨i, rfl⟩ := Nat.exists_eq_add_of_le hi
      obtain ⟨j, rfl⟩ := Nat.exists_eq_add_of_le (hi.trans hlt.le)
      have hpair := hall i j (by rw [length_drop]; omega) (by rw [length_drop]; omega) (by omega)
      simpa [numbered, Descending] using hpair
    · intro hinOrder i j hi hj hlt
      rw [length_drop, hlength] at hj
      have hpair := hinOrder (es.length - N + i) (es.length - N + j) (by omega) (by omega) (by omega)
      simpa [numbered, Descending] using hpair
  have hlast : g.eventLog.log.getLast? = (numbered N es).getLast? := by
    rw [h.log, getLast?_drop, hlength]
    split_ifs with hnone
    · rw [length_eq_zero_iff.mp (hlength.trans (show es.length = 0 by omega))]
      rfl
    · rfl
  have hself : g.eventLog =
      ⟨N, g.eventLog.log.getLast?.map LogEntry.guid, g.eventLog.log⟩ := by
    rw [hlast, ← h.next, ← h.maxRecords]
  rw [hload, ← hpairwise, ← horder]
  constructor
  · exact fun heq => congrArg LogHolder.log heq
  · intro heq
    rw [hself, ← heq, getLast?_reverse]

/-- **A log of a positive capacity holds the last events**, with guids of their own, and it is
restored with its next guid exactly if the events it holds are in order. -/
theorem eventLog_right (n : ℕ) (es : List (Event α)) :
    (after (n + 1) es).eventLog.log.map (fun entry => (entry.timestamp, entry.data)) =
        es.drop (es.length - (n + 1)) ∧
      ((after (n + 1) es).eventLog.log.map LogEntry.guid).Nodup ∧
      (loadGuilds (n + 1) (after (n + 1) es).rows = (after (n + 1) es).eventLog ↔
        InOrder (n + 1) es) := by
  have h := inv_after n.succ_pos es
  refine ⟨?_, ?_, h.reload_iff n.succ_pos⟩
  · rw [h.log, map_drop]
    congr 1
    refine ext_getElem (by simp [numbered]) fun i hi hi' => ?_
    simp [numbered]
  · rw [h.log]
    exact nodup_guid _ _ (by omega)

/-- Three events of one second in a log for two. -/
theorem three_of_one_second :
    ¬∀ es : List (Event ℕ), loadGuilds 2 (after 2 es).rows = (after 2 es).eventLog := by
  intro h
  exact absurd (h [(0, 0), (0, 1), (0, 2)]) (by decide)

end ZerosCore.Guild.EventLog
