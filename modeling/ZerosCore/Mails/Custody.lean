/-
# Where the mails leave the items

An item attached to a mail is listed by the mail and lies in the mail-item map of
its receiver once the mails are loaded.  `Custody` is what holds when every item
taken is listed by the mail it is taken from: an item is listed by one mail, in the
map of one player and in nobody's bags.
-/

import ZerosCore.Mails.Money

namespace ZerosCore.Mails

open Lib Player List Option State Keyed.Table

/-! ### The invariant -/

/-- The items attached to a mail; a deleted one has none. -/
def listed (m : Mail) : List UInt32 :=
  match m.copy with
  | none => if m.hasItems then m.items else []
  | some c => if c.state = .deleted then [] else c.items

/-- An object lists what its row lists without the items removed since it was read. -/
structure Tracks (m : Mail) (c : Copy) : Prop where
  items : c.items = m.items.filter (· ∉ c.removedItems)
  unchanged : c.state = .unchanged → c.removedItems = [] ∧ m.hasItems = !c.items.isEmpty

/-- **Custody.**  No item is listed twice, by one mail or by two; it is in the map of
the receiver when the mail is loaded, and in nobody's bags.  The rest is what
keeps this so: rows and objects agree, and what is removed is listed nowhere. -/
structure Custody (s : State) : Prop extends Coherent s where
  nodup : ∀ m ∈ s.mails.rows, (listed m).Nodup
  unique : ∀ m ∈ s.mails.rows, ∀ m' ∈ s.mails.rows, ∀ i ∈ listed m, i ∈ listed m' → m = m'
  inMap : ∀ m ∈ s.mails.rows, m.copy ≠ none → ∀ q, s.players.get? m.receiver = some q →
    ∀ i ∈ listed m, i ∈ q.mItems
  outside : ∀ m ∈ s.mails.rows, ∀ i ∈ listed m, ∀ q ∈ s.players.rows, i ∉ q.bags
  owner : ∀ q ∈ s.players.rows, ∀ q' ∈ s.players.rows, ∀ i ∈ q.bags, i ∈ q'.bags → q.guid = q'.guid
  row : ∀ m ∈ s.mails.rows, m.copy = none → m.hasItems = !m.items.isEmpty
  tracks : ∀ m ∈ s.mails.rows, ∀ c, m.copy = some c → c.state ≠ .deleted → Tracks m c
  removed : ∀ m ∈ s.mails.rows, ∀ c, m.copy = some c → ∀ i ∈ c.removedItems,
    ∀ m' ∈ s.mails.rows, i ∉ listed m'

variable {s s' s'' : State} {env : Env} {p q : Character} {m m' : Mail} {c c' : Copy}
  {u id : UInt32} {removed : List UInt32} {f : Character → Character}

theorem listed_of_copy (hc : m.copy = some c) (hstate : c.state ≠ .deleted) :
    listed m = c.items := by
  simp [listed, hc, hstate]

theorem listed_of_none (hrow : m.hasItems = !m.items.isEmpty) (hc : m.copy = none) :
    listed m = m.items := by
  cases hi : m.items with
  | nil => simp [listed, hc, hi]
  | cons i is => simp [listed, hc, hrow, hi]

theorem filter_notMem_eq_self {l l' : List UInt32} (h : ∀ i ∈ l', i ∉ l) : l.filter (· ∉ l') = l :=
  filter_eq_self.mpr fun i hi => by simpa using fun hi' => h i hi' hi

/-! ### What is listed under each write -/

variable {i : UInt32}

theorem mem_removedBy (hm : m ∈ s.mails.rows) (hc : m.copy = some c)
    (hr : m.receiver = u) (hstate : c.state = .changed) (hi : i ∈ c.removedItems) :
    i ∈ s.removedBy u := by
  unfold removedBy
  rw [mem_flatMap]
  refine ⟨m, hm, ?_⟩
  rw [hc]
  simpa [hr, hstate] using hi

theorem exists_of_mem_removedBy (hi : i ∈ s.removedBy u) :
    ∃ m ∈ s.mails.rows, ∃ c, m.copy = some c ∧ i ∈ c.removedItems := by
  unfold removedBy at hi
  rw [mem_flatMap] at hi
  obtain ⟨m, hm, hi⟩ := hi
  split at hi
  · rename_i c hc
    split_ifs at hi
    · exact ⟨m, hm, c, hc, hi⟩
    · cases hi
  · cases hi

theorem Custody.removedBy_listed (h : Custody s) (hi : i ∈ s.removedBy u)
    (hm : m ∈ s.mails.rows) : i ∉ listed m := by
  obtain ⟨m', hm', c', hc', hi'⟩ := exists_of_mem_removedBy hi
  exact h.removed m' hm' c' hc' i hi' m hm

theorem Custody.listed_saveOne (h : Custody s) (hm : m ∈ s.mails.rows)
    (hsave : saveOne u (s.removedBy u) m = some m') : listed m' = listed m := by
  have hrem : ∀ i ∈ s.removedBy u, i ∉ listed m := fun i hi => h.removedBy_listed hi hm
  rcases saveOne_cases hsave with ⟨rfl, -⟩ | ⟨c, hc, -, hstate, rfl⟩
  · cases hc : m.copy with
    | none =>
      have hrow := h.row m hm hc
      rw [listed_of_none hrow hc] at hrem
      rw [filter_notMem_eq_self hrem, ← hc]
    | some c => simp [listed, hc]
  · simp [listed, hc, hstate]

theorem Custody.tracks_saveOne (h : Custody s) (hm : m ∈ s.mails.rows)
    (hsave : saveOne u (s.removedBy u) m = some m') (hc' : m'.copy = some c')
    (hstate' : c'.state ≠ .deleted) : Tracks m' c' := by
  have hrem : ∀ i ∈ s.removedBy u, i ∉ listed m := fun i hi => h.removedBy_listed hi hm
  rcases saveOne_cases hsave with ⟨rfl, -⟩ | ⟨c, hc, hr, hstate, rfl⟩
  · obtain ⟨hitems, hun⟩ := h.tracks m hm c' hc' hstate'
    rw [listed_of_copy (m := m) hc' hstate'] at hrem
    refine ⟨?_, hun⟩
    rw [filter_comm, ← hitems, filter_notMem_eq_self hrem]
  obtain rfl := some.inj hc'
  have hlive : c.state ≠ .deleted := by
    rw [hstate]
    simp
  obtain ⟨hitems, -⟩ := h.tracks m hm c hc hlive
  rw [listed_of_copy hc hlive] at hrem
  refine ⟨?_, fun _ => ⟨rfl, rfl⟩⟩
  -- The items removed by this object are among those deleted.
  have hsub : m.items.filter (· ∉ s.removedBy u) =
      (m.items.filter (· ∉ c.removedItems)).filter (· ∉ s.removedBy u) := by
    rw [List.filter_filter]
    refine List.filter_congr fun i _ => ?_
    by_cases hi : i ∈ s.removedBy u
    · simp [hi]
    have hi' : i ∉ c.removedItems := fun hmem => hi (mem_removedBy hm hc hr hstate hmem)
    simp [hi, hi']
  rw [hsub, ← hitems, filter_notMem_eq_self hrem]
  simp

theorem listed_newMail {d : MailDraft} {receiver sender : UInt32} {delay : ℕ} :
    listed (s.newMail env d receiver sender delay) = d.items := by
  cases hc : (s.newMail env d receiver sender delay).copy with
  | none => exact listed_of_none rfl hc
  | some c =>
    obtain ⟨-, rfl⟩ := copy_newMail_eq_some.mp hc
    exact listed_of_copy hc (by simp)

theorem listed_loadOne (hnone : m.receiver = u → m.copy = none) :
    listed (loadOne u m) = listed m := by
  by_cases hr : m.receiver = u
  · simp [loadOne, hr, listed, hnone hr]
  · simp [loadOne, hr]

theorem listed_dropOne
    (htracks : ∀ c, m.copy = some c → m.receiver = u → c.state = .unchanged ∧ Tracks m c) :
    listed (dropOne u m) = listed m := by
  unfold dropOne
  split_ifs with hr
  · cases hc : m.copy with
    | none => simp [listed, hc]
    | some c =>
      obtain ⟨hstate, hitems, hun⟩ := htracks c hc hr
      obtain ⟨hnil, hhas⟩ := hun hstate
      rw [hnil] at hitems
      have hsame : c.items = m.items := by simpa using hitems
      rw [listed_of_copy hc (by rw [hstate]; simp), hsame]
      refine listed_of_none ?_ rfl
      rw [hsame] at hhas
      exact hhas
  · rfl

/-! ### Custody under each write -/

theorem bags_modifyPlayer (hf : ∀ p, (f p).guid = p.guid) (hbags : ∀ p, (f p).bags = p.bags) :
    ∀ q ∈ (s.modifyPlayer u f hf).players.rows,
      ∃ q0 ∈ s.players.rows, q.guid = q0.guid ∧ q.bags = q0.bags := by
  intro q hq
  rcases (mem_rows_modify hf).mp hq with ⟨hq, -⟩ | ⟨q0, hq0, -, rfl⟩
  · exact ⟨q, hq, rfl, rfl⟩
  · exact ⟨q0, hq0, hf q0, hbags q0⟩

namespace Custody

section

variable (h : Custody s)

include h

/-- A write to a player that keeps the items listed by its loaded mails in its map,
and puts into its bags only items that are nowhere. -/
theorem modifyPlayer (hf : ∀ p, (f p).guid = p.guid) (hco : Coherent (s.modifyPlayer u f hf))
    (hmap : ∀ m ∈ s.mails.rows, m.copy ≠ none → ∀ i ∈ listed m, ∀ q,
      s.players.get? u = some q → i ∈ q.mItems → i ∈ (f q).mItems)
    (hbags : ∀ q, s.players.get? u = some q → ∀ i ∈ (f q).bags, i ∈ q.bags ∨
      ((∀ m ∈ s.mails.rows, i ∉ listed m) ∧ ∀ q' ∈ s.players.rows, i ∉ q'.bags)) :
    Custody (s.modifyPlayer u f hf) := by
  have hold : ∀ q' ∈ (s.modifyPlayer u f hf).players.rows, ∃ q ∈ s.players.rows,
      q'.guid = q.guid ∧ ∀ i ∈ q'.bags, i ∈ q.bags ∨
        (q'.guid = u ∧ (∀ m ∈ s.mails.rows, i ∉ listed m) ∧
          ∀ q' ∈ s.players.rows, i ∉ q'.bags) := by
    intro q' hq'
    simp only [State.modifyPlayer, mem_rows_modify] at hq'
    rcases hq' with ⟨hq', -⟩ | ⟨q, hq, hkey, rfl⟩
    · exact ⟨q', hq', rfl, fun i hi => .inl hi⟩
    have hget := get?_eq_some.mpr ⟨hq, hkey⟩
    exact ⟨q, hq, hf q, fun i hi =>
      (hbags q hget i hi).imp_right fun hn => ⟨(hf q).trans hkey, hn⟩⟩
  refine ⟨hco, h.nodup, h.unique, ?_, ?_, ?_, h.row, h.tracks, h.removed⟩
  · intro m hm hc q' hq' i hi
    simp only [State.modifyPlayer, get?_modify] at hq'
    split_ifs at hq' with hr
    · obtain ⟨q, hq, rfl⟩ := map_eq_some_iff.mp hq'
      exact hmap m hm hc i hi q (hr ▸ hq) (h.inMap m hm hc q hq i hi)
    · exact h.inMap m hm hc q' hq' i hi
  · intro m hm i hi q' hq' hbag
    obtain ⟨q, hq, -, hq''⟩ := hold q' hq'
    rcases hq'' i hbag with hb | ⟨-, hn, -⟩
    · exact h.outside m hm i hi q hq hb
    · exact hn m hm hi
  intro q1 hq1 q2 hq2 i hi1 hi2
  obtain ⟨r1, hr1, hg1, hb1⟩ := hold q1 hq1
  obtain ⟨r2, hr2, hg2, hb2⟩ := hold q2 hq2
  rcases hb1 i hi1 with hi1 | ⟨hp1, -, hn1⟩ <;> rcases hb2 i hi2 with hi2 | ⟨hp2, -, hn2⟩
  · rw [hg1, hg2]
    exact h.owner r1 hr1 r2 hr2 i hi1 hi2
  · exact absurd hi1 (hn2 r1 hr1)
  · exact absurd hi2 (hn1 r2 hr2)
  · rw [hp1, hp2]

theorem modifyPlayer_of_eq (hf : ∀ p, (f p).guid = p.guid)
    (hco : Coherent (s.modifyPlayer u f hf)) (hmap : ∀ p, (f p).mItems = p.mItems)
    (hbags : ∀ p, (f p).bags = p.bags) : Custody (s.modifyPlayer u f hf) :=
  h.modifyPlayer hf hco (fun _ _ _ _ _ q _ hi => (hmap q).symm ▸ hi)
    fun q _ _ hi => .inl (hbags q ▸ hi)

theorem modifyMoney (d : ℤ) : Custody (s.modifyMoney u d) := by
  refine h.modifyPlayer_of_eq _ (h.toCoherent.modifyMoney d) ?_ ?_ <;> exact fun _ => rfl

theorem setMailsUpdated : Custody (s.setMailsUpdated u) := by
  refine h.modifyPlayer_of_eq _ h.toCoherent.setMailsUpdated ?_ ?_ <;> exact fun _ => rfl

theorem modifyPlayer_of_none (hf : ∀ p, (f p).guid = p.guid)
    (hnone : ∀ m ∈ s.mails.rows, m.receiver = u → m.copy = none)
    (hbags : ∀ p, (f p).bags = p.bags) : Custody (s.modifyPlayer u f hf) := by
  have hold := bags_modifyPlayer (s := s) (u := u) hf hbags
  refine ⟨h.toCoherent.modifyPlayer_of_none hf hnone, h.nodup, h.unique, ?_, ?_, ?_, h.row,
    h.tracks, h.removed⟩
  · intro m hm hc q' hq' i hi
    have hne : m.receiver ≠ u := fun hr => hc (hnone m hm hr)
    simp only [State.modifyPlayer, get?_modify, if_neg hne] at hq'
    exact h.inMap m hm hc q' hq' i hi
  · intro m hm i hi q' hq' hbag
    obtain ⟨q, hq, -, hb⟩ := hold q' hq'
    exact h.outside m hm i hi q hq (hb ▸ hbag)
  intro q1 hq1 q2 hq2 i hi1 hi2
  obtain ⟨r1, hr1, hg1, hb1⟩ := hold q1 hq1
  obtain ⟨r2, hr2, hg2, hb2⟩ := hold q2 hq2
  rw [hg1, hg2]
  exact h.owner r1 hr1 r2 hr2 i (hb1 ▸ hi1) (hb2 ▸ hi2)

theorem erase (id : UInt32) : Custody { s with mails := s.mails.erase id } := by
  have hsub (m) (hm : m ∈ (s.mails.erase id).rows) : m ∈ s.mails.rows := (mem_rows_erase.mp hm).1
  exact ⟨h.toCoherent.erase id, fun m hm => h.nodup m (hsub m hm),
    fun m hm m' hm' => h.unique m (hsub m hm) m' (hsub m' hm'),
    fun m hm => h.inMap m (hsub m hm), fun m hm => h.outside m (hsub m hm), h.owner,
    fun m hm => h.row m (hsub m hm), fun m hm => h.tracks m (hsub m hm),
    fun m hm c hc i hi m' hm' => h.removed m (hsub m hm) c hc i hi m' (hsub m' hm')⟩

theorem sendMailTo (hid : s.mailId < 0xFFFFFFFE) {d : MailDraft} (hnd : d.items.Nodup)
    (hnew : ∀ i ∈ d.items, (∀ m ∈ s.mails.rows, i ∉ listed m) ∧ (∀ q ∈ s.players.rows, i ∉ q.bags) ∧
      ∀ m ∈ s.mails.rows, ∀ c, m.copy = some c → i ∉ c.removedItems)
    {receiver sender : UInt32} {delay : ℕ} :
    Custody (s.sendMailTo env d receiver sender delay) := by
  -- The receiver's map grows, and a mail is put.
  have hco := h.toCoherent.modifyPlayer (u := receiver) (f := fun p => { p with
      mItems := if s.isMailsLoaded receiver then p.mItems ++ d.items else p.mItems })
    (fun _ => rfl) (fun _ => rfl) (fun _ => rfl) fun _ hu => hu
  have hmap := h.modifyPlayer _ hco (fun _ _ _ i _ q _ hi => by
      split_ifs
      · exact mem_append_left _ hi
      · exact hi)
    fun q _ i hi => .inl hi
  have hlist : listed (s.newMail env d receiver sender delay) = d.items := listed_newMail
  have hrows (m) (hm : m ∈ (s.sendMailTo env d receiver sender delay).mails.rows) :
      m = s.newMail env d receiver sender delay ∨ m ∈ s.mails.rows :=
    (mem_rows_put.mp hm).imp_right And.left
  refine ⟨h.toCoherent.sendMailTo hid, fun m hm => ?_, fun m hm m' hm' i hi hi' => ?_,
    fun m hm hc q hq i hi => ?_, fun m hm i hi q hq => ?_, hmap.owner, fun m hm hc => ?_,
    fun m hm c hc hstate => ?_, fun m hm c hc i hi m' hm' => ?_⟩
  · rcases hrows m hm with rfl | hm
    · rw [hlist]
      exact hnd
    · exact h.nodup m hm
  · rcases hrows m hm with rfl | hm <;> rcases hrows m' hm' with rfl | hm'
    · rfl
    · exact absurd hi' ((hnew i (hlist ▸ hi)).1 m' hm')
    · exact absurd hi ((hnew i (hlist ▸ hi')).1 m hm)
    · exact h.unique m hm m' hm' i hi hi'
  · rcases hrows m hm with rfl | hm
    · obtain ⟨c, hc⟩ := ne_none_iff_exists'.mp hc
      obtain ⟨hloaded, -⟩ := copy_newMail_eq_some.mp hc
      rw [hlist] at hi
      simp only [State.sendMailTo, State.newMail, get?_modify, if_true] at hq
      obtain ⟨q0, -, rfl⟩ := map_eq_some_iff.mp hq
      rw [if_pos hloaded]
      exact mem_append_right _ hi
    · exact hmap.inMap m hm hc q hq i hi
  · rcases hrows m hm with rfl | hm
    · simp only [State.sendMailTo, mem_rows_modify] at hq
      rcases hq with ⟨hq, -⟩ | ⟨q0, hq, -, rfl⟩
      · exact (hnew i (hlist ▸ hi)).2.1 q hq
      · exact (hnew i (hlist ▸ hi)).2.1 q0 hq
    · exact hmap.outside m hm i hi q hq
  · rcases hrows m hm with rfl | hm
    · rfl
    · exact h.row m hm hc
  · rcases hrows m hm with rfl | hm
    · obtain ⟨-, rfl⟩ := copy_newMail_eq_some.mp hc
      exact ⟨by simp [newMail], fun _ => ⟨rfl, rfl⟩⟩
    · exact h.tracks m hm c hc hstate
  rcases hrows m hm with rfl | hm
  · obtain ⟨-, rfl⟩ := copy_newMail_eq_some.mp hc
    cases hi
  rcases hrows m' hm' with rfl | hm'
  · exact fun hi' => (hnew i (hlist ▸ hi')).2.2 m hm c hc hi
  · exact h.removed m hm c hc i hi m' hm'

theorem setCopy (hco : Coherent (s.setCopy id c')) (hm : s.mails.get? id = some m)
    (hstate : c'.state ≠ .unchanged) (hcopy : m.copy ≠ none)
    (hsub : (listed { m with copy := some c' }).Sublist (listed m))
    (htracks : c'.state ≠ .deleted → c'.items = m.items.filter (· ∉ c'.removedItems))
    (hrem : ∀ i ∈ c'.removedItems, i ∉ listed { m with copy := some c' } ∧
      ∀ m' ∈ s.mails.rows, m'.id ≠ id → i ∉ listed m') : Custody (s.setCopy id c') := by
  obtain ⟨hmem, hid⟩ := get?_eq_some.mp hm
  have hrows (m') (hm' : m' ∈ (s.setCopy id c').mails.rows) :
      m' = { m with copy := some c' } ∨ (m' ∈ s.mails.rows ∧ m'.id ≠ id) := by
    rcases mem_rows_setCopy.mp hm' with hm' | ⟨m0, hm0, hid0, rfl⟩
    · exact .inr hm'
    have := s.mails.distinct.eq_of_key hm0 hmem (hid0.trans hid.symm)
    rw [this]
    exact .inl rfl
  refine ⟨hco, fun m' hm' => ?_, fun m1 hm1 m2 hm2 i hi1 hi2 => ?_, fun m' hm' hc q hq i hi => ?_,
    fun m' hm' i hi q hq => ?_, h.owner, fun m' hm' hc => ?_, fun m' hm' c hc hst => ?_,
    fun m' hm' c hc i hi m'' hm'' => ?_⟩
  · rcases hrows m' hm' with rfl | ⟨hm', -⟩
    · exact (h.nodup m hmem).sublist hsub
    · exact h.nodup m' hm'
  · rcases hrows m1 hm1 with rfl | ⟨hm1, hne1⟩ <;> rcases hrows m2 hm2 with rfl | ⟨hm2, hne2⟩
    · rfl
    · exact absurd (h.unique m hmem m2 hm2 i (hsub.subset hi1) hi2 ▸ hid) hne2
    · exact absurd (h.unique m hmem m1 hm1 i (hsub.subset hi2) hi1 ▸ hid) hne1
    · exact h.unique m1 hm1 m2 hm2 i hi1 hi2
  · rcases hrows m' hm' with rfl | ⟨hm', -⟩
    · exact h.inMap m hmem hcopy q hq i (hsub.subset hi)
    · exact h.inMap m' hm' hc q hq i hi
  · rcases hrows m' hm' with rfl | ⟨hm', -⟩
    · exact h.outside m hmem i (hsub.subset hi) q hq
    · exact h.outside m' hm' i hi q hq
  · rcases hrows m' hm' with rfl | ⟨hm', -⟩
    · cases hc
    · exact h.row m' hm' hc
  · rcases hrows m' hm' with rfl | ⟨hm', -⟩
    · obtain rfl := some.inj hc
      exact ⟨htracks hst, fun hun => absurd hun hstate⟩
    · exact h.tracks m' hm' c hc hst
  rcases hrows m' hm' with rfl | ⟨hm', -⟩
  · obtain rfl := some.inj hc
    rcases hrows m'' hm'' with rfl | ⟨hm'', hne⟩
    · exact (hrem i hi).1
    · exact (hrem i hi).2 m'' hm'' hne
  have hgone := h.removed m' hm' c hc i hi
  rcases hrows m'' hm'' with rfl | ⟨hm'', -⟩
  · exact fun hi' => hgone m hmem (hsub.subset hi')
  · exact hgone m'' hm''

theorem filterMap {g : Mail → Option Mail} (hg : ∀ a b, g a = some b → b.id = a.id)
    (hco : Coherent s') (hmails : s'.mails = s.mails.filterMap g hg)
    (hlist : ∀ m ∈ s.mails.rows, ∀ m', g m = some m' → listed m' = listed m)
    (hbags : ∀ q ∈ s'.players.rows, ∃ q0 ∈ s.players.rows, q.guid = q0.guid ∧ q.bags = q0.bags)
    (hmap : ∀ m ∈ s.mails.rows, ∀ m', g m = some m' → m'.copy ≠ none → ∀ q,
      s'.players.get? m'.receiver = some q → ∀ i ∈ listed m, i ∈ q.mItems)
    (hrow : ∀ m ∈ s.mails.rows, ∀ m', g m = some m' → m'.copy = none →
      m'.hasItems = !m'.items.isEmpty)
    (htracks : ∀ m ∈ s.mails.rows, ∀ m', g m = some m' → ∀ c, m'.copy = some c →
      c.state ≠ .deleted → Tracks m' c)
    (hrem : ∀ m ∈ s.mails.rows, ∀ m', g m = some m' → ∀ c, m'.copy = some c →
      c.removedItems = [] ∨ m.copy = some c) : Custody s' := by
  have hrows (m') (hm' : m' ∈ s'.mails.rows) : ∃ m ∈ s.mails.rows, g m = some m' := by
    rw [hmails, mem_rows_filterMap] at hm'
    exact hm'
  refine ⟨hco, fun m' hm' => ?_, fun m1' hm1' m2' hm2' i hi1 hi2 => ?_,
    fun m' hm' hc q hq i hi => ?_, fun m' hm' i hi q hq => ?_, fun q1 hq1 q2 hq2 i hi1 hi2 => ?_,
    fun m' hm' hc => ?_, fun m' hm' c hc hst => ?_, fun m' hm' c hc i hi m2' hm2' => ?_⟩
  · obtain ⟨m, hm, hgm⟩ := hrows m' hm'
    rw [hlist m hm m' hgm]
    exact h.nodup m hm
  · obtain ⟨m1, hm1, hg1⟩ := hrows m1' hm1'
    obtain ⟨m2, hm2, hg2⟩ := hrows m2' hm2'
    rw [hlist m1 hm1 m1' hg1] at hi1
    rw [hlist m2 hm2 m2' hg2] at hi2
    rw [h.unique m1 hm1 m2 hm2 i hi1 hi2, hg2] at hg1
    exact (some.inj hg1).symm
  · obtain ⟨m, hm, hgm⟩ := hrows m' hm'
    exact hmap m hm m' hgm hc q hq i (hlist m hm m' hgm ▸ hi)
  · obtain ⟨m, hm, hgm⟩ := hrows m' hm'
    obtain ⟨q0, hq0, -, hb⟩ := hbags q hq
    rw [hb]
    exact h.outside m hm i (hlist m hm m' hgm ▸ hi) q0 hq0
  · obtain ⟨r1, hr1, hg1, hb1⟩ := hbags q1 hq1
    obtain ⟨r2, hr2, hg2, hb2⟩ := hbags q2 hq2
    rw [hg1, hg2]
    exact h.owner r1 hr1 r2 hr2 i (hb1 ▸ hi1) (hb2 ▸ hi2)
  · obtain ⟨m, hm, hgm⟩ := hrows m' hm'
    exact hrow m hm m' hgm hc
  · obtain ⟨m, hm, hgm⟩ := hrows m' hm'
    exact htracks m hm m' hgm c hc hst
  obtain ⟨m, hm, hgm⟩ := hrows m' hm'
  obtain ⟨m2, hm2, hg2⟩ := hrows m2' hm2'
  rcases hrem m hm m' hgm c hc with hnil | hc'
  · rw [hnil] at hi
    cases hi
  rw [hlist m2 hm2 m2' hg2]
  exact h.removed m hm c hc' i hi m2 hm2

theorem saveMail : Custody (s.saveMail u) := by
  have hco := h.toCoherent.saveMail (u := u)
  unfold State.saveMail at hco ⊢
  split_ifs at hco ⊢
  · exact h
  refine h.filterMap State.id_saveOne hco rfl (fun m hm m' hsave => h.listed_saveOne hm hsave)
    ?bags (fun m hm m' hsave hc q hq i hi => ?_)
    (fun m hm m' hsave hc => ?_) (fun m hm m' hsave c hc hst => h.tracks_saveOne hm hsave hc hst)
    fun m hm m' hsave c hc => ?_
  case bags =>
    refine bags_modifyPlayer _ ?_
    exact fun _ => rfl
  · have hkept : m.copy ≠ none ∧ m'.receiver = m.receiver := by
      rcases saveOne_cases hsave with ⟨rfl, -⟩ | ⟨c, hc', -, -, rfl⟩
      · exact ⟨hc, rfl⟩
      · exact ⟨by rw [hc']; simp, rfl⟩
    simp only [State.modifyPlayer, get?_modify, hkept.2] at hq
    split_ifs at hq
    · obtain ⟨q0, hq0, rfl⟩ := map_eq_some_iff.mp hq
      exact h.inMap m hm hkept.1 q0 hq0 i hi
    · exact h.inMap m hm hkept.1 q hq i hi
  · rcases saveOne_cases hsave with ⟨rfl, -⟩ | ⟨c, -, -, -, rfl⟩
    · have hrow := h.row m hm hc
      have hgone : ∀ i ∈ s.removedBy u, i ∉ m.items := by
        intro i hi
        rw [← listed_of_none hrow hc]
        exact h.removedBy_listed hi hm
      rw [filter_notMem_eq_self hgone]
      exact hrow
    · cases hc
  rcases saveOne_cases hsave with ⟨rfl, -⟩ | ⟨c0, -, -, -, rfl⟩
  · exact .inr hc
  · exact .inl (by rw [← some.inj hc])

theorem loadMail (hp : s.findPlayer p.guid = some p) : Custody (s.loadMail p) := by
  have hco := h.toCoherent.loadMail hp
  have hplayer := (findPlayer_eq_some.mp hp).1
  unfold State.loadMail at hco ⊢
  split_ifs at hco ⊢ with hld
  · exact h
  have hnone (m) (hm : m ∈ s.mails.rows) (hr : m.receiver = p.guid) : m.copy = none :=
    h.toCoherent.copy_eq_none hplayer (fun hc => hld hc.2) m hm hr
  have hlist (m) (hm : m ∈ s.mails.rows) (m') (hload : some (State.loadOne p.guid m) = some m') :
      listed m' = listed m := by
    rw [← some.inj hload]
    exact listed_loadOne (hnone m hm)
  refine h.filterMap State.id_loadOne hco rfl hlist ?bags
    (fun m hm m' hload hc q hq i hi => ?_) (fun m hm m' hload hc => ?_)
    (fun m hm m' hload c hc hst => ?_) fun m hm m' hload c hc => ?_
  case bags =>
    refine bags_modifyPlayer _ ?_
    exact fun _ => rfl
  · obtain rfl := some.inj hload
    by_cases hr : m.receiver = p.guid
    · have hr' : (State.loadOne p.guid m).receiver = p.guid := by simp [State.loadOne, hr]
      simp only [State.modifyPlayer, get?_modify, hr', if_true] at hq
      obtain ⟨q0, -, rfl⟩ := map_eq_some_iff.mp hq
      refine mem_append_right _ (mem_flatMap.mpr ⟨State.loadOne p.guid m, ?_, ?_⟩)
      · exact (mem_rows_filterMap State.id_loadOne).mpr ⟨m, hm, rfl⟩
      rw [if_pos hr']
      rw [listed_of_none (h.row m hm (hnone m hm hr)) (hnone m hm hr)] at hi
      have hhas : m.hasItems = true := by
        rw [h.row m hm (hnone m hm hr)]
        cases hitems : m.items with
        | nil => simp [hitems] at hi
        | cons j js => rfl
      simpa [State.loadOne, hr, hhas] using hi
    have hsame : State.loadOne p.guid m = m := by simp [State.loadOne, hr]
    rw [hsame] at hq hc
    simp only [State.modifyPlayer, get?_modify, if_neg hr] at hq
    exact h.inMap m hm hc q hq i hi
  · obtain rfl := some.inj hload
    by_cases hr : m.receiver = p.guid
    · simp [State.loadOne, hr] at hc
    have hsame : State.loadOne p.guid m = m := by simp [State.loadOne, hr]
    rw [hsame] at hc ⊢
    exact h.row m hm hc
  · obtain rfl := some.inj hload
    by_cases hr : m.receiver = p.guid
    · have hrow := h.row m hm (hnone m hm hr)
      have hitems : (if m.hasItems then m.items else []) = m.items := by
        cases hi : m.items with
        | nil => simp
        | cons j js => simp [hrow, hi]
      simp only [State.loadOne, if_pos hr, hitems] at hc ⊢
      obtain rfl := some.inj hc
      exact ⟨by simp, fun _ => ⟨rfl, hrow⟩⟩
    have hsame : State.loadOne p.guid m = m := by simp [State.loadOne, hr]
    rw [hsame] at hc ⊢
    exact h.tracks m hm c hc hst
  obtain rfl := some.inj hload
  by_cases hr : m.receiver = p.guid
  · simp only [State.loadOne, if_pos hr] at hc
    exact .inl (by rw [← some.inj hc])
  simp only [State.loadOne, if_neg hr] at hc
  exact .inr hc

theorem dropCopies
    (hun : ∀ m ∈ s.mails.rows, m.receiver = u → ∀ c, m.copy = some c → c.state = .unchanged) :
    Custody (s.dropCopies u) := by
  have htr (m) (hm : m ∈ s.mails.rows) (c) (hc : m.copy = some c) (hr : m.receiver = u) :
      c.state = .unchanged ∧ Tracks m c := by
    have hstate := hun m hm hr c hc
    exact ⟨hstate, h.tracks m hm c hc (by rw [hstate]; simp)⟩
  refine h.filterMap id_dropOne h.toCoherent.dropCopies rfl (fun m hm m' hdrop => ?_)
    (fun q hq => ⟨q, hq, rfl, rfl⟩) (fun m hm m' hdrop hc q hq i hi => ?_)
    (fun m hm m' hdrop hc => ?_) (fun m hm m' hdrop c hc hst => ?_) fun m hm m' hdrop c hc => ?_
  · obtain rfl := some.inj hdrop
    exact listed_dropOne (htr m hm)
  · obtain rfl := some.inj hdrop
    by_cases hr : m.receiver = u
    · simp [dropOne, hr] at hc
    have hsame : dropOne u m = m := by simp [dropOne, hr]
    rw [hsame] at hc hq
    exact h.inMap m hm hc q hq i hi
  · obtain rfl := some.inj hdrop
    by_cases hr : m.receiver = u
    · simp only [dropOne, if_pos hr]
      cases hc' : m.copy with
      | none => exact h.row m hm hc'
      | some c =>
        obtain ⟨hstate, hitems, hun'⟩ := htr m hm c hc' hr
        obtain ⟨hnil, hhas⟩ := hun' hstate
        rw [hnil] at hitems
        have hsame : c.items = m.items := by simpa using hitems
        rw [← hsame]
        exact hhas
    have hsame : dropOne u m = m := by simp [dropOne, hr]
    rw [hsame] at hc ⊢
    exact h.row m hm hc
  · obtain rfl := some.inj hdrop
    by_cases hr : m.receiver = u
    · simp [dropOne, hr] at hc
    have hsame : dropOne u m = m := by simp [dropOne, hr]
    rw [hsame] at hc ⊢
    exact h.tracks m hm c hc hst
  obtain rfl := some.inj hdrop
  by_cases hr : m.receiver = u
  · simp [dropOne, hr] at hc
  simp only [dropOne, if_neg hr] at hc
  exact .inr hc

end

end Custody

end ZerosCore.Mails
