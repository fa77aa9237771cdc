/-
# What each mail step can do

The branches of the handlers as one disjunction each (`_cases`), and the part of
the invariants that money and items share: ids come from the generator, and a
`Mail` object belongs to a player in the world who has loaded the mails and will
save them if it is not as its row (`Coherent`).  Every write of the model keeps
it.
-/

import ZerosCore.Mails.Basic

namespace ZerosCore.Mails

open Lib Player Option State Keyed.Table

variable {s : State} {env : Env} {p q : Character} {m m' : Mail} {c : Copy} {u id : UInt32}

/-! ### Lookups -/

theorem findPlayer_eq_some :
    s.findPlayer u = some p ↔ s.players.get? u = some p ∧ p.online = true := by
  simp [findPlayer, filter_eq_some_iff]

theorem getMail_eq_some : s.getMail u id = some (m, c) ↔
      s.mails.get? id = some m ∧ m.receiver = u ∧ m.copy = some c := by
  unfold getMail
  rw [bind_eq_some_iff]
  constructor
  · rintro ⟨m', hm', h⟩
    split_ifs at h with hr
    obtain ⟨c', hc', heq⟩ := map_eq_some_iff.mp h
    obtain ⟨rfl, rfl⟩ := Prod.mk.inj heq
    exact ⟨hm', hr, hc'⟩
  rintro ⟨hm, hr, hc⟩
  refine ⟨m, hm, ?_⟩
  rw [if_pos hr, hc]
  rfl

theorem openMail_eq_some : s.openMail env u id = some (m, c) ↔ s.getMail u id = some (m, c) ∧
      c.state ≠ .deleted ∧ m.deliverTime ≤ env.now := by
  simp [openMail, filter_eq_some_iff]

theorem existsPlayer_iff : s.existsPlayer u ↔ ∃ q, s.players.get? u = some q := by
  unfold existsPlayer accountIdOf findPlayer
  cases hq : s.players.get? u with
  | none => simp
  | some q => simp [q.account_ne]

/-! ### The branches of the handlers -/

variable {o : State × Option MailResponseResult}

/-- Who passes a check goes on to the next one. -/
theorem of_check {ε α : Type} {failed : Prop} [Decidable failed] {e : ε} {x : Except ε α} {a : α}
    (h : (if failed then .error e else x) = .ok a) : ¬failed ∧ x = .ok a := by
  split at h
  · cases h
  · exact ⟨‹_›, h⟩

/-- What `HandleSendMail` has checked: the number of items, the money, and each of the items. -/
theorem of_sendChecks {r : SendRequest} {rc : UInt32} {items : List UInt32}
    (h : s.sendChecks env p r = .ok (rc, items)) :
    r.itemGuids.length ≤ maxMailItems ∧ hasEnoughMoney p.money (reqmoney r) = true ∧
      collectItems env p (s.accountIdOf rc) r.cod r.itemGuids = .ok items := by
  unfold sendChecks at h
  obtain ⟨hlen, h⟩ := of_check h
  obtain ⟨-, h⟩ := of_check h
  obtain ⟨-, h⟩ := of_check h
  obtain ⟨-, h⟩ := of_check h
  obtain ⟨-, h⟩ := of_check h
  obtain ⟨-, h⟩ := of_check h
  obtain ⟨hmoney, h⟩ := of_check h
  obtain ⟨-, h⟩ := of_check h
  obtain ⟨-, h⟩ := of_check h
  obtain ⟨-, h⟩ := of_check h
  split at h
  · cases h
  rename_i hitems
  obtain ⟨rfl, rfl⟩ := Prod.mk.inj (Except.ok.inj h)
  exact ⟨not_lt.mp hlen, by simpa using hmoney, hitems⟩

theorem handleSendMail_cases {r : SendRequest} (h : s.handleSendMail env p r = o) :
    (o.1 = s ∧ ∀ x, s.sendChecks env p r ≠ .ok x) ∨ ∃ rc items delay,
      s.sendChecks env p r = .ok (rc, items) ∧ o.1 = s.sent env p r rc items delay := by
  unfold handleSendMail at h
  split at h
  · rename_i e he
    refine .inl ⟨h ▸ rfl, fun x hx => ?_⟩
    rw [he] at hx
    cases hx
  rename_i rc items hok
  subst h
  exact .inr ⟨rc, items, _, hok, rfl⟩

variable {mailbox : UInt64}

theorem handleMailTakeMoney_cases {money : UInt64}
    (h : s.handleMailTakeMoney env p mailbox id money = o) :
    o.1 = s ∨ ∃ m c, env.canInteract mailbox ∧ s.openMail env p.guid id = some (m, c) ∧
      (money = 0 ∨ c.money = money) ∧ o.1 = s.takeMoney p id c money := by
  unfold handleMailTakeMoney at h
  split at h
  · exact .inl (h ▸ rfl)
  rename_i hi
  split at h
  · exact .inl (h ▸ rfl)
  rename_i m c hopen
  split at h
  · exact .inl (h ▸ rfl)
  rename_i hmoney
  refine .inr ⟨m, c, by simpa using hi, hopen, ?_, h ▸ rfl⟩
  simp only [Bool.and_eq_true, decide_eq_true_eq, not_and, not_not] at hmoney
  by_cases h0 : money = 0
  · exact .inl h0
  · exact .inr (hmoney (UInt64.pos_iff_ne_zero.mpr h0))

theorem handleMailTakeItem_cases {itemId : UInt32}
    (h : s.handleMailTakeItem env p mailbox id itemId = o) :
    (o.1 = s ∧ o.2 ≠ some .ok) ∨ ∃ m c, env.canInteract mailbox ∧
      s.openMail env p.guid id = some (m, c) ∧ c.cod.toNat ≤ p.money ∧ itemId ∈ p.mItems ∧
      env.canStoreItem itemId = .ok ∧ o.2 = some .ok ∧ o.1 = s.takeItem env p m c itemId := by
  unfold handleMailTakeItem at h
  split at h
  · exact .inl (h ▸ ⟨rfl, by simp⟩)
  rename_i hi
  split at h
  · exact .inl (h ▸ ⟨rfl, by simp⟩)
  rename_i m c hopen
  split at h
  · exact .inl (h ▸ ⟨rfl, by simp⟩)
  rename_i hmoney
  dsimp only at h
  split at h
  · rename_i hmem
    split at h
    · rename_i hmsg
      exact .inr ⟨m, c, by simpa using hi, hopen, by simpa [hasEnoughMoney] using hmoney,
        hmem, hmsg, h ▸ rfl, h ▸ rfl⟩
    rename_i hmsg
    exact .inl (h ▸ ⟨rfl, by simp⟩)
  · exact .inl (h ▸ ⟨rfl, by simp⟩)

theorem handleMailReturnToSender_cases (h : s.handleMailReturnToSender env p mailbox id = o) :
    o.1 = s ∨ ∃ m c, env.canInteract mailbox ∧ s.openMail env p.guid id = some (m, c) ∧
      o.1 = s.returnMail env p m c := by
  unfold handleMailReturnToSender at h
  split at h
  · exact .inl (h ▸ rfl)
  rename_i hi
  split at h
  · exact .inl (h ▸ rfl)
  rename_i m c hopen
  exact .inr ⟨m, c, by simpa using hi, hopen, h ▸ rfl⟩

theorem handleMailDelete_cases
    (h : s.handleMailDelete env p mailbox id = o) : (env.canInteract mailbox = false ∧ o.1 = s) ∨
    ((∀ m c, s.getMail p.guid id = some (m, c) → c.cod ≠ 0) ∧ o.1 = s.setMailsUpdated p.guid) ∨
    ∃ m c, env.canInteract mailbox ∧ s.getMail p.guid id = some (m, c) ∧ c.cod = 0 ∧
      o.1 = (s.setMailsUpdated p.guid).setCopy id { c with state := .deleted } := by
  unfold handleMailDelete at h
  split at h
  · rename_i hi
    exact .inl ⟨by simpa using hi, h ▸ rfl⟩
  rename_i hi
  dsimp only at h
  split at h
  · rename_i hnone
    refine .inr (.inl ⟨fun m c hget => ?_, h ▸ rfl⟩)
    have hnone' : s.getMail p.guid id = none := hnone
    rw [hnone'] at hget
    cases hget
  rename_i m c hget
  have hget' : s.getMail p.guid id = some (m, c) := hget
  split at h
  · rename_i hcod
    refine .inr (.inl ⟨fun m' c' hget'' => ?_, h ▸ rfl⟩)
    rw [hget'] at hget''
    obtain ⟨-, rfl⟩ := Prod.mk.inj (some.inj hget'')
    exact hcod
  rename_i hcod
  exact .inr (.inr ⟨m, c, by simpa using hi, hget, not_not.mp hcod, h ▸ rfl⟩)

theorem handleMailMarkAsRead_cases {o : State} (h : s.handleMailMarkAsRead env p mailbox id = o) :
    o = s ∨ ∃ m c, s.getMail p.guid id = some (m, c) ∧ c.state ≠ .deleted ∧
      o = (s.setMailsUpdated p.guid).setCopy id { c with state := .changed } := by
  unfold handleMailMarkAsRead at h
  split at h
  · exact .inl h.symm
  split at h
  · exact .inl h.symm
  rename_i m c hget
  split at h
  · exact .inl h.symm
  rename_i hstate
  exact .inr ⟨m, c, hget, hstate, h.symm⟩

variable {removed : List UInt32}

/-- **What `_SaveMail` leaves of a mail**: its row without the deleted items, and a
changed object written to it. -/
theorem saveOne_cases (h : saveOne u removed m = some m') :
    (m' = { m with items := m.items.filter (· ∉ removed) } ∧
      ∀ c, m.copy = some c → m.receiver = u → c.state = .unchanged) ∨
    ∃ c, m.copy = some c ∧ m.receiver = u ∧ c.state = .changed ∧ m' = { m with
        items := m.items.filter (· ∉ removed)
        hasItems := !c.items.isEmpty, money := c.money.toUInt32, cod := c.cod.toUInt32
        copy := some { c with removedItems := [], state := .unchanged } } := by
  unfold saveOne at h
  dsimp only at h
  split at h
  · rename_i hc
    exact .inl ⟨(some.inj h).symm, fun c hc' => by rw [hc] at hc'; cases hc'⟩
  rename_i c hc
  split at h
  · rename_i hr
    exact .inl ⟨(some.inj h).symm, fun _ _ hr' => absurd hr' hr⟩
  rename_i hr
  split at h
  · rename_i hstate
    refine .inl ⟨(some.inj h).symm, fun c' hc' _ => ?_⟩
    rw [hc] at hc'
    rw [← some.inj hc', hstate]
  · rename_i hstate
    exact .inr ⟨c, hc, not_not.mp hr, hstate, (some.inj h).symm⟩
  · cases h

theorem saveOne_eq_none (h : saveOne u removed m = none) :
    m.receiver = u ∧ ∃ c, m.copy = some c ∧ c.state = .deleted := by
  unfold saveOne at h
  dsimp only at h
  split at h
  · cases h
  rename_i c hc
  split at h
  · cases h
  rename_i hr
  split at h
  · cases h
  · cases h
  rename_i hstate
  exact ⟨not_not.mp hr, c, hc, hstate⟩

theorem copy_newMail_eq_some {d : MailDraft} {receiver sender : UInt32} {delay : ℕ} :
    (s.newMail env d receiver sender delay).copy = some c ↔ s.isMailsLoaded receiver = true ∧
        c = { money := d.money, cod := d.cod.toUInt64, items := d.items } := by
  unfold newMail
  split_ifs with h
  · simp [h, eq_comm]
  · simp [h]

theorem mem_rows_setCopy : m' ∈ (s.setCopy id c).mails.rows ↔ (m' ∈ s.mails.rows ∧ m'.id ≠ id) ∨
      ∃ m ∈ s.mails.rows, m.id = id ∧ { m with copy := some c } = m' := by
  simp only [setCopy, mem_rows_modify]

/-! ### Coherence -/

/-- The mail of `q` will be saved if it is not as its row. -/
structure Owns (q : Character) (c : Copy) : Prop where
  online : q.online = true
  loaded : q.mailsLoaded = true
  updated : c.state ≠ .unchanged → q.mailsUpdated = true

/-- Ids come from the generator, and an object belongs to a player in the world
who will save it. -/
structure Coherent (s : State) : Prop where
  ids : ∀ m ∈ s.mails.rows, m.id < s.mailId
  owned : ∀ m ∈ s.mails.rows, ∀ c, m.copy = some c →
    ∃ q, s.players.get? m.receiver = some q ∧ Owns q c

theorem copy_dropCopies : ∀ m ∈ (s.dropCopies u).mails.rows, m.receiver = u → m.copy = none := by
  intro m' hm' hr
  simp only [State.dropCopies, mem_rows_filterMap] at hm'
  obtain ⟨m, -, hdrop⟩ := hm'
  obtain rfl := some.inj hdrop
  by_cases hr' : m.receiver = u
  · simp only [dropOne, if_pos hr']
  simp only [dropOne, if_neg hr'] at hr
  exact absurd hr hr'

namespace Coherent

theorem fresh (h : Coherent s) : s.mails.get? s.mailId = none :=
  get?_eq_none.mpr fun m hm heq => UInt32.lt_irrefl _ (heq ▸ h.ids m hm)

variable {f : Character → Character}

section

variable (h : Coherent s)

include h

theorem modifyPlayer (hf : ∀ p, (f p).guid = p.guid) (hon : ∀ p, (f p).online = p.online)
    (hld : ∀ p, (f p).mailsLoaded = p.mailsLoaded)
    (hup : ∀ p, p.mailsUpdated = true → (f p).mailsUpdated = true) :
    Coherent (s.modifyPlayer u f hf) := by
  refine ⟨h.ids, fun m hm c hc => ?_⟩
  obtain ⟨q, hq, hown⟩ := h.owned m hm c hc
  simp only [State.modifyPlayer, get?_modify, hq, map_some]
  split_ifs
  · exact ⟨f q, rfl, by rw [hon, hown.online], by rw [hld, hown.loaded],
      fun hc => hup q (hown.updated hc)⟩
  · exact ⟨q, rfl, hown⟩

theorem modifyPlayer_of_none
    (hf : ∀ p, (f p).guid = p.guid) (hnone : ∀ m ∈ s.mails.rows, m.receiver = u → m.copy = none) :
    Coherent (s.modifyPlayer u f hf) := by
  refine ⟨h.ids, fun m hm c hc => ?_⟩
  obtain ⟨q, hq, hown⟩ := h.owned m hm c hc
  have hne : m.receiver ≠ u := fun hr => by rw [hnone m hm hr] at hc; cases hc
  refine ⟨q, ?_, hown⟩
  simp only [State.modifyPlayer, get?_modify, if_neg hne, hq]

/-- Of a player who is not in the world or has not loaded them there are no objects. -/
theorem copy_eq_none {q : Character} (hq : s.players.get? u = some q)
    (hun : ¬(q.online = true ∧ q.mailsLoaded = true)) :
    ∀ m ∈ s.mails.rows, m.receiver = u → m.copy = none := by
  intro m hm hr
  by_contra hc
  obtain ⟨c, hc⟩ := ne_none_iff_exists'.mp hc
  obtain ⟨q', hq', hown⟩ := h.owned m hm c hc
  rw [hr, hq] at hq'
  obtain rfl := some.inj hq'
  exact hun ⟨hown.online, hown.loaded⟩

/-- Who has a loaded mail will save it once his flag is set. -/
theorem owns_setMailsUpdated {m : Mail} {c n : Copy} (hget : s.getMail u id = some (m, c)) :
    ∀ m', (s.setMailsUpdated u).mails.get? id = some m' →
      ∃ q, (s.setMailsUpdated u).players.get? m'.receiver = some q ∧ Owns q n := by
  obtain ⟨hm, hr, hc⟩ := getMail_eq_some.mp hget
  intro m' hm'
  obtain rfl := some.inj (hm.symm.trans hm')
  obtain ⟨q, hq, hown⟩ := h.owned m (get?_eq_some.mp hm).1 c hc
  rw [hr] at hq ⊢
  simp only [State.setMailsUpdated, State.modifyPlayer, get?_modify, if_true, hq, map_some]
  exact ⟨_, rfl, hown.online, hown.loaded, fun _ => rfl⟩

theorem modifyMoney (d : ℤ) : Coherent (s.modifyMoney u d) := by
  exact h.modifyPlayer _ (fun _ => rfl) (fun _ => rfl) fun _ hu => hu

theorem setMailsUpdated : Coherent (s.setMailsUpdated u) := by
  exact h.modifyPlayer _ (fun _ => rfl) (fun _ => rfl) fun _ _ => rfl

theorem setCopy
    (hown : ∀ m, s.mails.get? id = some m → ∃ q, s.players.get? m.receiver = some q ∧ Owns q c) :
    Coherent (s.setCopy id c) := by
  refine ⟨fun m' hm' => ?_, fun m' hm' c' hc' => ?_⟩
  · rcases mem_rows_setCopy.mp hm' with ⟨hm, -⟩ | ⟨m, hm, -, rfl⟩
    · exact h.ids m' hm
    · exact h.ids m hm
  rcases mem_rows_setCopy.mp hm' with ⟨hm, -⟩ | ⟨m, hm, hid, rfl⟩
  · exact h.owned m' hm c' hc'
  obtain rfl := some.inj hc'
  exact hown m (get?_eq_some.mpr ⟨hm, hid⟩)

theorem erase (id : UInt32) : Coherent { s with mails := s.mails.erase id } :=
  ⟨fun m hm => h.ids m (mem_rows_erase.mp hm).1, fun m hm => h.owned m (mem_rows_erase.mp hm).1⟩

theorem sendMailTo (hid : s.mailId < 0xFFFFFFFE) {d : MailDraft}
    {receiver sender : UInt32} {delay : ℕ} :
    Coherent (s.sendMailTo env d receiver sender delay) := by
  have hsucc : s.mailId < s.mailId + 1 := by grind
  have hitems := h.modifyPlayer (u := receiver) (f := fun p => { p with
      mItems := if s.isMailsLoaded receiver then p.mItems ++ d.items else p.mItems })
    (fun _ => rfl) (fun _ => rfl) (fun _ => rfl) fun _ hu => hu
  refine ⟨fun m hm => ?_, fun m hm c hc => ?_⟩
  · simp only [State.sendMailTo, mem_rows_put] at hm
    rcases hm with rfl | ⟨hm, -⟩
    · exact hsucc
    · exact UInt32.lt_trans (h.ids m hm) hsucc
  simp only [State.sendMailTo, mem_rows_put] at hm
  rcases hm with rfl | ⟨hm, -⟩
  · obtain ⟨hloaded, rfl⟩ := copy_newMail_eq_some.mp hc
    obtain ⟨q, hq, hld⟩ := (any_eq_true _ _).mp hloaded
    obtain ⟨hget, hon⟩ := findPlayer_eq_some.mp hq
    simp only [State.sendMailTo, State.newMail, get?_modify, if_true, hget, map_some]
    exact ⟨_, rfl, hon, hld, fun hne => absurd rfl hne⟩
  · exact hitems.owned m hm c hc

theorem saveMail : Coherent (s.saveMail u) := by
  unfold State.saveMail
  split_ifs with hloaded
  · exact h
  refine ⟨fun m' hm' => ?_, fun m' hm' c' hc' => ?_⟩
  · simp only [State.modifyPlayer, mem_rows_filterMap] at hm'
    obtain ⟨m, hm, hsave⟩ := hm'
    rw [State.id_saveOne m m' hsave]
    exact h.ids m hm
  simp only [State.modifyPlayer, mem_rows_filterMap] at hm'
  obtain ⟨m, hm, hsave⟩ := hm'
  -- After the save the objects of the player are unchanged, those of others as before.
  have hkey : ∃ c, m.copy = some c ∧ m'.receiver = m.receiver ∧
      (m.receiver = u → c'.state = .unchanged) ∧
      (c'.state ≠ .unchanged → c.state ≠ .unchanged) := by
    rcases saveOne_cases hsave with ⟨rfl, hun⟩ | ⟨c, hc, -, -, rfl⟩
    · exact ⟨c', hc', rfl, hun c' hc', id⟩
    obtain rfl := some.inj hc'
    exact ⟨c, hc, rfl, fun _ => rfl, fun hne => absurd rfl hne⟩
  obtain ⟨c, hc, hr, hun, hne⟩ := hkey
  obtain ⟨q, hq, hown⟩ := h.owned m hm c hc
  simp only [State.modifyPlayer, get?_modify, hr, hq, map_some]
  split_ifs with hp
  · exact ⟨_, rfl, hown.online, hown.loaded, fun hs => absurd (hun hp) hs⟩
  · exact ⟨q, rfl, hown.online, hown.loaded, fun hs => hown.updated (hne hs)⟩

theorem loadMail (hp : s.findPlayer p.guid = some p) : Coherent (s.loadMail p) := by
  obtain ⟨hget, hon⟩ := findPlayer_eq_some.mp hp
  unfold State.loadMail
  split_ifs with hld
  · exact h
  refine ⟨fun m' hm' => ?_, fun m' hm' c' hc' => ?_⟩
  · simp only [State.modifyPlayer, mem_rows_filterMap] at hm'
    obtain ⟨m, hm, hload⟩ := hm'
    rw [State.id_loadOne m m' hload]
    exact h.ids m hm
  simp only [State.modifyPlayer, mem_rows_filterMap] at hm'
  obtain ⟨m, hm, hload⟩ := hm'
  obtain rfl := some.inj hload
  by_cases hr : m.receiver = p.guid
  · simp only [State.loadOne, if_pos hr] at hc' ⊢
    obtain rfl := some.inj hc'
    simp only [State.modifyPlayer, get?_modify, hr, if_true, hget, map_some]
    exact ⟨_, rfl, hon, rfl, fun hne => absurd rfl hne⟩
  simp only [State.loadOne, if_neg hr] at hc' ⊢
  simp only [State.modifyPlayer, get?_modify, if_neg hr]
  exact h.owned m hm c' hc'

theorem dropCopies : Coherent (s.dropCopies u) := by
  refine ⟨fun m' hm' => ?_, fun m' hm' c' hc' => ?_⟩
  · simp only [State.dropCopies, mem_rows_filterMap] at hm'
    obtain ⟨m, hm, hdrop⟩ := hm'
    rw [State.id_dropOne m m' hdrop]
    exact h.ids m hm
  simp only [State.dropCopies, mem_rows_filterMap] at hm'
  obtain ⟨m, hm, hdrop⟩ := hm'
  obtain rfl := some.inj hdrop
  by_cases hr : m.receiver = u
  · simp only [dropOne, if_pos hr] at hc'
    cases hc'
  simp only [dropOne, if_neg hr] at hc' ⊢
  exact h.owned m hm c' hc'

theorem saveToDB : Coherent (s.saveToDB p) := by
  unfold State.saveToDB
  split_ifs
  · exact h.saveMail
  · exact h

theorem login : Coherent (s.login u) := by
  unfold State.login
  split
  · exact h
  rename_i p hp
  split_ifs with hon
  · exact h
  exact h.modifyPlayer_of_none _ (h.copy_eq_none hp fun hc => hon hc.1)

theorem logout : Coherent (s.logout p) :=
  h.saveToDB.dropCopies.modifyPlayer_of_none _ copy_dropCopies

end

end Coherent

theorem unchanged_saveToDB (hs : Coherent s) (hp : s.findPlayer p.guid = some p) :
    ∀ m ∈ (s.saveToDB p).mails.rows, m.receiver = p.guid → ∀ c, m.copy = some c →
      c.state = .unchanged := by
  have hplayer := (findPlayer_eq_some.mp hp).1
  have howner (m) (hm : m ∈ s.mails.rows) (hr : m.receiver = p.guid) (c) (hc : m.copy = some c) :
      Owns p c := by
    obtain ⟨q, hq, hown⟩ := hs.owned m hm c hc
    rw [hr, hplayer] at hq
    rw [some.inj hq]
    exact hown
  intro m' hm' hr' c' hc'
  unfold saveToDB saveMail at hm'
  split_ifs at hm' with hup hld
  · have hown := howner m' hm' hr' c' hc'
    rw [hplayer] at hld
    simp [hown.loaded] at hld
  · simp only [modifyPlayer, mem_rows_filterMap] at hm'
    obtain ⟨m, hm, hsave⟩ := hm'
    rcases saveOne_cases hsave with ⟨rfl, hun⟩ | ⟨c, -, -, -, rfl⟩
    · exact hun c' hc' hr'
    obtain rfl := some.inj hc'
    rfl
  by_contra hne
  exact hup ((howner m' hm' hr' c' hc').updated hne)

end ZerosCore.Mails
