/-
# What a write to the mails leaves

Beside custody: what is listed stays listed by its mail (`Keeps`), every removal is saved
(`Settled`), and the bags hold no more than before (`BagsWithin`).  `Kept` is all of it.
-/

import ZerosCore.Mails.Custody

namespace ZerosCore.Mails

open Lib Player List Option State Keyed.Table

/-- Between steps every removal is saved. -/
def Settled (s : State) : Prop :=
  ∀ m ∈ s.mails.rows, ∀ c, m.copy = some c → c.removedItems = []

/-- What is listed in `s` is listed by the same mail in `s'`. -/
def Keeps (s s' : State) : Prop :=
  ∀ m ∈ s.mails.rows, ∀ i ∈ listed m, ∃ m' ∈ s'.mails.rows, m'.id = m.id ∧ i ∈ listed m'

variable {s s' s'' : State} {env : Env} {p q : Character} {m m' : Mail} {c c' n : Copy}
  {u id i : UInt32} {f : Character → Character}

theorem Keeps.trans (h : Keeps s s') (h' : Keeps s' s'') : Keeps s s'' := by
  intro m hm i hi
  obtain ⟨m', hm', hid, hi'⟩ := h m hm i hi
  obtain ⟨m'', hm'', hid', hi''⟩ := h' m' hm' i hi'
  exact ⟨m'', hm'', hid'.trans hid, hi''⟩

theorem keeps_of_mails (h : s'.mails = s.mails) : Keeps s s' :=
  fun m hm _ hi => ⟨m, h ▸ hm, rfl, hi⟩

/-! ### What stays under each write -/

variable {d : MailDraft} {receiver sender : UInt32} {delay : ℕ}

theorem keeps_sendMailTo (h : Coherent s) : Keeps s (s.sendMailTo env d receiver sender delay) := by
  intro m hm i hi
  refine ⟨m, mem_rows_put.mpr (.inr ⟨hm, fun hid => ?_⟩), rfl, hi⟩
  have hlt := h.ids m hm
  rw [hid] at hlt
  exact UInt32.lt_irrefl _ hlt

theorem keeps_saveMail (h : Custody s) : Keeps s (s.saveMail u) := by
  intro m hm i hi
  unfold saveMail
  split_ifs
  · exact ⟨m, hm, rfl, hi⟩
  cases hsave : saveOne u (s.removedBy u) m with
  | none =>
    obtain ⟨-, c, hc, hstate⟩ := saveOne_eq_none hsave
    simp [listed, hc, hstate] at hi
  | some m' =>
    refine ⟨m', (mem_rows_filterMap id_saveOne).mpr ⟨m, hm, hsave⟩, id_saveOne m m' hsave, ?_⟩
    rw [h.listed_saveOne hm hsave]
    exact hi

theorem keeps_loadMail (h : Custody s) (hp : s.findPlayer p.guid = some p) :
    Keeps s (s.loadMail p) := by
  intro m hm i hi
  unfold loadMail
  split_ifs with hld
  · exact ⟨m, hm, rfl, hi⟩
  refine ⟨loadOne p.guid m, (mem_rows_filterMap id_loadOne).mpr ⟨m, hm, rfl⟩,
    id_loadOne m _ rfl, ?_⟩
  rw [listed_loadOne fun hr => h.toCoherent.copy_eq_none (findPlayer_eq_some.mp hp).1
    (fun hc => hld hc.2) m hm hr]
  exact hi

theorem keeps_dropCopies (h : Custody s)
    (hun : ∀ m ∈ s.mails.rows, m.receiver = u → ∀ c, m.copy = some c → c.state = .unchanged) :
    Keeps s (s.dropCopies u) := by
  intro m hm i hi
  refine ⟨dropOne u m, (mem_rows_filterMap id_dropOne).mpr ⟨m, hm, rfl⟩, id_dropOne m _ rfl, ?_⟩
  rw [listed_dropOne fun c hc hr => ?_]
  · exact hi
  have hstate := hun m hm hr c hc
  exact ⟨hstate, h.tracks m hm c hc (by rw [hstate]; simp)⟩

theorem stays_setCopy (hm : m ∈ s.mails.rows) (hi : i ∈ listed m)
    (hi' : m.id = id → i ∈ listed { m with copy := some c' }) :
    ∃ m' ∈ (s.setCopy id c').mails.rows, m'.id = m.id ∧ i ∈ listed m' := by
  by_cases hid : m.id = id
  · refine ⟨{ m with copy := some c' }, ?_, rfl, hi' hid⟩
    exact mem_rows_setCopy.mpr (.inr ⟨m, hm, hid, rfl⟩)
  · exact ⟨m, mem_rows_setCopy.mpr (.inl ⟨hm, hid⟩), rfl, hi⟩

/-! ### Removals under each write -/

theorem settled_of_mails (h : Settled s) (hmails : s'.mails = s.mails) : Settled s' :=
  fun m hm => h m (hmails ▸ hm)

theorem settled_sendMailTo (h : Settled s) :
    Settled (s.sendMailTo env d receiver sender delay) := by
  intro m hm c hc
  rcases mem_rows_put.mp hm with rfl | ⟨hm, -⟩
  · obtain ⟨-, rfl⟩ := copy_newMail_eq_some.mp hc
    rfl
  · exact h m hm c hc

theorem settled_setCopy (h : Settled s) (hrem : c'.removedItems = []) :
    Settled (s.setCopy id c') := by
  intro m hm c hc
  rcases mem_rows_setCopy.mp hm with ⟨hm, -⟩ | ⟨m0, -, -, rfl⟩
  · exact h m hm c hc
  rw [← some.inj hc]
  exact hrem

theorem settled_saveMail (h : Custody s)
    (hothers : ∀ m ∈ s.mails.rows, m.receiver ≠ u → ∀ c, m.copy = some c →
      c.removedItems = []) : Settled (s.saveMail u) := by
  intro m' hm' c' hc'
  unfold saveMail at hm'
  split_ifs at hm' with hld
  · refine hothers m' hm' (fun hr => ?_) c' hc'
    obtain ⟨q, hq, hown⟩ := h.owned m' hm' c' hc'
    rw [hr] at hq
    rw [hq] at hld
    simp [hown.loaded] at hld
  simp only [modifyPlayer, mem_rows_filterMap] at hm'
  obtain ⟨m, hm, hsave⟩ := hm'
  rcases saveOne_cases hsave with ⟨rfl, hun⟩ | ⟨c, -, -, -, rfl⟩
  · by_cases hr : m.receiver = u
    · have hstate := hun c' hc' hr
      exact ((h.tracks m hm c' hc' (by rw [hstate]; simp)).unchanged hstate).1
    · exact hothers m hm hr c' hc'
  · rw [← some.inj hc']

theorem settled_loadMail (hset : Settled s) : Settled (s.loadMail p) := by
  intro m' hm' c' hc'
  unfold loadMail at hm'
  split_ifs at hm'
  · exact hset m' hm' c' hc'
  simp only [modifyPlayer, mem_rows_filterMap] at hm'
  obtain ⟨m, hm, hload⟩ := hm'
  obtain rfl := some.inj hload
  by_cases hr : m.receiver = p.guid
  · simp only [loadOne, if_pos hr] at hc'
    rw [← some.inj hc']
  simp only [loadOne, if_neg hr] at hc'
  exact hset m hm c' hc'

theorem settled_dropCopies (hset : Settled s) : Settled (s.dropCopies u) := by
  intro m' hm' c' hc'
  simp only [dropCopies, mem_rows_filterMap] at hm'
  obtain ⟨m, hm, hdrop⟩ := hm'
  obtain rfl := some.inj hdrop
  by_cases hr : m.receiver = u
  · simp [dropOne, hr] at hc'
  simp only [dropOne, if_neg hr] at hc'
  exact hset m hm c' hc'

/-! ### Bags -/

/-- The bags of `s'` hold no more than those of `s`. -/
def BagsWithin (s s' : State) : Prop :=
  ∀ q ∈ s'.players.rows, ∃ q0 ∈ s.players.rows, q0.guid = q.guid ∧ ∀ i ∈ q.bags, i ∈ q0.bags

theorem BagsWithin.refl (s : State) : BagsWithin s s := fun q hq => ⟨q, hq, rfl, fun _ hi => hi⟩

theorem BagsWithin.trans (h : BagsWithin s s') (h' : BagsWithin s' s'') : BagsWithin s s'' := by
  intro q hq
  obtain ⟨q1, hq1, hg1, hb1⟩ := h' q hq
  obtain ⟨q2, hq2, hg2, hb2⟩ := h q1 hq1
  exact ⟨q2, hq2, hg2.trans hg1, fun i hi => hb2 i (hb1 i hi)⟩

theorem bagsWithin_modifyPlayer (hf : ∀ p, (f p).guid = p.guid)
    (hsub : ∀ p, ∀ i ∈ (f p).bags, i ∈ p.bags) : BagsWithin s (s.modifyPlayer u f hf) := by
  intro q hq
  simp only [modifyPlayer, mem_rows_modify] at hq
  rcases hq with ⟨hq, -⟩ | ⟨q0, hq0, -, rfl⟩
  · exact ⟨q, hq, rfl, fun _ hi => hi⟩
  · exact ⟨q0, hq0, (hf q0).symm, hsub q0⟩

theorem bagsWithin_modifyMoney (d : ℤ) : BagsWithin s (s.modifyMoney u d) := by
  refine bagsWithin_modifyPlayer _ ?_
  exact fun _ _ hi => hi

theorem bagsWithin_setMailsUpdated : BagsWithin s (s.setMailsUpdated u) := by
  refine bagsWithin_modifyPlayer _ ?_
  exact fun _ _ hi => hi

theorem bagsWithin_sendMailTo : BagsWithin s (s.sendMailTo env d receiver sender delay) :=
  bagsWithin_modifyPlayer (s := s) (u := receiver) (f := fun p => { p with
    mItems := if s.isMailsLoaded receiver then p.mItems ++ d.items else p.mItems })
    (fun _ => rfl) fun _ _ hi => hi

theorem bagsWithin_saveMail : BagsWithin s (s.saveMail u) := by
  unfold saveMail
  split_ifs
  · exact .refl s
  exact bagsWithin_modifyPlayer (s := s) (u := u)
    (f := fun p => { p with mailsUpdated := false }) (fun _ => rfl) fun _ _ hi => hi

/-! ### Rewriting a mail -/

theorem rewrite_custody (h : Custody s) (hget : s.getMail u id = some (m, c))
    (hstate : n.state ≠ .unchanged) (hsub : (listed { m with copy := some n }).Sublist (listed m))
    (htracks : n.state ≠ .deleted → n.items = m.items.filter (· ∉ n.removedItems))
    (hrem : ∀ i ∈ n.removedItems, i ∉ listed { m with copy := some n } ∧
      ∀ m' ∈ s.mails.rows, m'.id ≠ id → i ∉ listed m') : Custody (s.rewrite u id n) := by
  obtain ⟨hm, hr, hc⟩ := getMail_eq_some.mp hget
  exact h.setMailsUpdated.setCopy
    (h.toCoherent.setMailsUpdated.setCopy (h.toCoherent.owns_setMailsUpdated hget)) hm hstate
    (by rw [hc]; simp) hsub htracks hrem

theorem rewrite_custody_of_items (h : Custody s) (hset : Settled s)
    (hget : s.getMail u id = some (m, c)) (hlive : c.state ≠ .deleted)
    (hstate : n.state = .changed) (hitems : n.items = c.items)
    (hrem : n.removedItems = c.removedItems) :
    Custody (s.rewrite u id n) ∧ Settled (s.rewrite u id n) ∧ Keeps s (s.rewrite u id n) := by
  obtain ⟨hm, hr, hc⟩ := getMail_eq_some.mp hget
  obtain ⟨hmem, hid⟩ := get?_eq_some.mp hm
  have hnil : n.removedItems = [] := hrem.trans (hset m hmem c hc)
  have hlist : listed { m with copy := some n } = listed m := by
    rw [listed_of_copy rfl (by rw [hstate]; simp), hitems, listed_of_copy hc hlive]
  refine ⟨rewrite_custody h hget (by rw [hstate]; simp) (by rw [hlist]) (fun _ => ?_) ?_,
    settled_setCopy (settled_of_mails hset rfl) hnil, fun m' hm' i hi => ?_⟩
  · rw [hitems, hrem]
    exact (h.tracks m hmem c hc hlive).items
  · rw [hnil]
    exact fun i hi => absurd hi not_mem_nil
  refine stays_setCopy hm' hi fun hid' => ?_
  obtain rfl := s.mails.distinct.eq_of_key hm' hmem (hid'.trans hid.symm)
  rw [hlist]
  exact hi

/-- What an action that takes no item off a mail leaves. -/
structure Kept (s s' : State) : Prop where
  custody : Custody s'
  settled : Settled s'
  keeps : Keeps s s'
  bags : BagsWithin s s'

theorem Kept.refl (h : Custody s) (hset : Settled s) : Kept s s :=
  ⟨h, hset, keeps_of_mails rfl, .refl s⟩

theorem Kept.trans (h : Kept s s') (h' : Kept s' s'') : Kept s s'' :=
  ⟨h'.custody, h'.settled, h.keeps.trans h'.keeps, h.bags.trans h'.bags⟩

section

variable (h : Custody s)

include h

section

variable (hset : Settled s)

include hset

theorem kept_modifyMoney (d : ℤ) : Kept s (s.modifyMoney u d) :=
  ⟨h.modifyMoney d, settled_of_mails hset rfl, keeps_of_mails rfl, bagsWithin_modifyMoney d⟩

theorem kept_sendMailTo (hid : s.mailId < 0xFFFFFFFE) (hnd : d.items.Nodup)
    (hnew : ∀ i ∈ d.items, (∀ m ∈ s.mails.rows, i ∉ listed m) ∧ ∀ q ∈ s.players.rows, i ∉ q.bags)
    : Kept s (s.sendMailTo env d receiver sender delay) := by
  refine ⟨h.sendMailTo hid hnd fun i hi => ⟨(hnew i hi).1, (hnew i hi).2, fun m hm c hc => ?_⟩,
    settled_sendMailTo hset, keeps_sendMailTo h.toCoherent, bagsWithin_sendMailTo⟩
  rw [hset m hm c hc]
  exact not_mem_nil

theorem kept_saveMail : Kept s (s.saveMail u) :=
  ⟨h.saveMail, settled_saveMail h fun m hm _ => hset m hm, keeps_saveMail h, bagsWithin_saveMail⟩

theorem kept_saveToDB : Kept s (s.saveToDB p) := by
  unfold saveToDB
  split_ifs
  · exact kept_saveMail h hset
  · exact .refl h hset

theorem kept_rewrite (hget : s.getMail u id = some (m, c)) (hlive : c.state ≠ .deleted)
    (hstate : n.state = .changed) (hitems : n.items = c.items)
    (hrem : n.removedItems = c.removedItems) : Kept s (s.rewrite u id n) := by
  obtain ⟨hcus, hset', hkeeps⟩ := rewrite_custody_of_items h hset hget hlive hstate hitems hrem
  exact ⟨hcus, hset', hkeeps, bagsWithin_setMailsUpdated⟩

theorem kept_takeMoney (hopen : s.openMail env p.guid id = some (m, c)) (money : UInt64) :
    Kept s (s.takeMoney p id c money) := by
  obtain ⟨hget, hstate, -⟩ := openMail_eq_some.mp hopen
  have hpaid := kept_modifyMoney (u := p.guid) h hset (int64 money)
  have hrw := kept_rewrite (n := { c with money := 0, state := .changed }) hpaid.custody
    hpaid.settled hget hstate rfl rfl rfl
  exact (hpaid.trans hrw).trans (kept_saveMail hrw.custody hrw.settled)

theorem kept_loadMail (hp : s.findPlayer p.guid = some p) : Kept s (s.loadMail p) := by
  refine ⟨h.loadMail hp, settled_loadMail hset, keeps_loadMail h hp, ?_⟩
  unfold loadMail
  split_ifs
  · exact .refl s
  intro q hq
  simp only [modifyPlayer, mem_rows_modify] at hq
  rcases hq with ⟨hq, -⟩ | ⟨q0, hq0, -, rfl⟩
  · exact ⟨q, hq, rfl, fun _ hi => hi⟩
  · exact ⟨q0, hq0, rfl, fun _ hi => hi⟩

theorem kept_logout (hp : s.findPlayer p.guid = some p) : Kept s (s.logout p) := by
  have hsave := kept_saveToDB (p := p) h hset
  have hun := unchanged_saveToDB h.toCoherent hp
  have hdrop : Custody ((s.saveToDB p).dropCopies p.guid) := hsave.custody.dropCopies hun
  refine ⟨?_, settled_of_mails (settled_dropCopies (u := p.guid) hsave.settled) rfl,
    hsave.keeps.trans ((keeps_dropCopies hsave.custody hun).trans (keeps_of_mails rfl)),
    hsave.bags.trans ?_⟩
  · exact hdrop.modifyPlayer_of_none _ copy_dropCopies fun _ => rfl
  exact bagsWithin_modifyPlayer (s := s.saveToDB p) (u := p.guid) (f := fun p => { p with
      online := false, mailsLoaded := false, mailsUpdated := false, mItems := [] })
    (fun _ => rfl) fun _ _ hi => hi

theorem kept_login : Kept s (s.login u) := by
  have hco := h.toCoherent.login (u := u)
  unfold login
  split
  · exact .refl h hset
  rename_i p hp
  split_ifs with hon
  · exact .refl h hset
  refine ⟨?_, settled_of_mails hset rfl, keeps_of_mails rfl, ?_⟩
  · exact h.modifyPlayer_of_none _ (h.copy_eq_none hp fun hc => hon hc.1) fun _ => rfl
  refine bagsWithin_modifyPlayer _ ?_
  exact fun _ _ hi => hi

end

end

end ZerosCore.Mails
