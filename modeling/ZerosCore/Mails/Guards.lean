/-
# Items and their mails over runs

`HandleMailTakeItem` looks the item up in the map of the player and takes it off the
mail without asking whether the mail lists it: named with another mail the item leaves
unpaid and its own mail keeps listing it (`takeItem_evades_cod`).  Where every take names
the mail that lists the item, items go where they should (`guards_along`).
-/

import ZerosCore.Mails.Kept

namespace ZerosCore.Mails

open Lib Player List Option State Keyed.Table

/-! ### What a step should do -/

/-- What reaches bags was in them, or is the item of a take that succeeds; such an
item is listed by the mail named, the COD of that mail is charged, and no mail
lists the item any more. -/
def Gives (s s' : State) (o : Option MailResponseResult) (p : Character) (a : Action) : Prop :=
  (∀ q ∈ s'.players.rows, ∀ i ∈ q.bags, (∃ q0 ∈ s.players.rows, q0.guid = q.guid ∧ i ∈ q0.bags) ∨
    (q.guid = p.guid ∧ o = some .ok ∧ ∃ mailbox mailId, a = .takeItem mailbox mailId i)) ∧
  ∀ mailbox mailId i, a = .takeItem mailbox mailId i → o = some .ok →
    ∃ m c, s.getMail p.guid mailId = some (m, c) ∧ i ∈ listed m ∧
      (s.moneyOf p.guid : ℤ) - s'.moneyOf p.guid = c.cod.toNat ∧
      ∀ m' ∈ s'.mails.rows, i ∉ listed m'

/-- The action takes the item off the mail, or returns or deletes the mail. -/
def Leaves (o : Option MailResponseResult) (a : Action) (id i : UInt32) : Prop :=
  (o = some .ok ∧ ∃ mailbox, a = .takeItem mailbox id i) ∨
    (∃ mailbox, a = .returnToSender mailbox id) ∨ ∃ mailbox, a = .delete mailbox id

/-- What is listed stays listed by its mail, but for what the action takes, returns
or deletes. -/
def Stays (s s' : State) (o : Option MailResponseResult) (p : Character) (a : Action) : Prop :=
  ∀ m ∈ s.mails.rows, ∀ i ∈ listed m, (∃ m' ∈ s'.mails.rows, m'.id = m.id ∧ i ∈ listed m') ∨
    (m.receiver = p.guid ∧ Leaves o a m.id i)

/-- A step keeps custody, and gives only what it is named and paid for. -/
def Guards (s : State) : Env × Step → Prop
  | (_, .login u) => Custody (s.login u) ∧ Keeps s (s.login u)
  | (env, .act u a) =>
    match s.findPlayer u with
    | none => True
    | some p =>
      Gives s (s.act env p a).1 (s.act env p a).2 p a ∧
        Stays s (s.act env p a).1 (s.act env p a).2 p a ∧ Custody (s.act env p a).1

/-! ### What a step has to meet -/

/-- What an action has to meet, where the checks of its handler let it through: an
item taken is listed by the mail named, whose COD is below `2^31` (and the mail
ids have not run out). -/
def ActTakesListed (s : State) (env : Env) (p : Character) : Action → Prop
  | .send r => ∀ x, s.sendChecks env p r = .ok x → s.mailId < 0xFFFFFFFE
  | .takeItem mailbox mailId itemId => ∀ m c, env.canInteract mailbox →
      s.openMail env p.guid mailId = some (m, c) → c.cod.toNat ≤ p.money → itemId ∈ p.mItems →
      env.canStoreItem itemId = .ok →
      itemId ∈ c.items ∧ (c.cod ≠ 0 → c.cod.toNat < 2 ^ 31 ∧ s.mailId < 0xFFFFFFFE)
  | .returnToSender mailbox mailId => ∀ m c, env.canInteract mailbox →
      s.openMail env p.guid mailId = some (m, c) → s.mailId < 0xFFFFFFFE
  | _ => True

def TakesListed (s : State) : Env × Step → Prop
  | (_, .login _) => True
  | (env, .act u a) => ∀ p, s.findPlayer u = some p → ActTakesListed s env p a

variable {s s' : State} {env : Env} {p q : Character} {m m' : Mail} {c c' : Copy}
  {u id i : UInt32} {o : Option MailResponseResult} {a : Action}

theorem gives_of_bagsWithin
    (h : BagsWithin s s') (ha : ∀ mailbox mailId i, a ≠ .takeItem mailbox mailId i) :
    Gives s s' o p a := by
  refine ⟨fun q hq i hi => ?_, fun mailbox mailId i heq => absurd heq (ha mailbox mailId i)⟩
  obtain ⟨q0, hq0, hg, hb⟩ := h q hq
  exact .inl ⟨q0, hq0, hg, hb i hi⟩

theorem stays_of_keeps (h : Keeps s s') : Stays s s' o p a := fun m hm i hi => .inl (h m hm i hi)

/-! ### The actions -/

variable {items : List UInt32}

theorem mem_bags_of_collectItems {rcAccount : UInt32} {cod : UInt64} {guids : List UInt64}
    (h : collectItems env p rcAccount cod guids = .ok items) :
    ∀ i ∈ items, i ∈ p.bags := by
  induction guids generalizing items with
  | nil =>
    obtain rfl := Except.ok.inj h
    exact fun i hi => absurd hi not_mem_nil
  | cons guid rest ih =>
    rw [collectItems] at h
    split at h
    · cases h
    split at h
    · cases h
    rename_i low hlow
    dsimp only at h
    split_ifs at h
    cases hrest : collectItems env p rcAccount cod rest with
    | error e =>
      rw [hrest] at h
      cases h
    | ok rest' =>
      rw [hrest] at h
      obtain rfl := Except.ok.inj h
      intro i hi
      rcases mem_cons.mp hi with rfl | hi
      · exact mem_of_find?_eq_some hlow
      · exact ih hrest i hi

variable {r : SendRequest} {rc : UInt32}

/-- **Items sent** go from the bags to the mail. -/
theorem kept_send (h : Custody s) (hset : Settled s) (hp : s.findPlayer p.guid = some p)
    (hok : s.sendChecks env p r = .ok (rc, items)) (hid : s.mailId < 0xFFFFFFFE) (delay : ℕ)
    (hs' : s' = s.sent env p r rc items delay) :
    Kept s s' := by
  obtain ⟨hplayer, hmem⟩ : s.players.get? p.guid = some p ∧ p ∈ s.players.rows := by
    have hget := (findPlayer_eq_some.mp hp).1
    exact ⟨hget, (get?_eq_some.mp hget).1⟩
  have hbags := mem_bags_of_collectItems (of_sendChecks hok).2.2
  have hpaid := kept_modifyMoney (u := p.guid) h hset (-int64 (reqmoney r))
  have hsub : ∀ q : Character, ∀ i ∈ q.bags.filter (· ∉ items), i ∈ q.bags :=
    fun q i hi => (mem_filter.mp hi).1
  have htaken : Kept s ((s.modifyMoney p.guid (-int64 (reqmoney r))).modifyPlayer p.guid
      (fun p => { p with bags := p.bags.filter (· ∉ items) }) fun _ => rfl) := by
    refine hpaid.trans ⟨?_, settled_of_mails hset rfl, keeps_of_mails rfl, ?_⟩
    · refine hpaid.custody.modifyPlayer _ ?_ (fun _ _ _ _ _ _ _ hi => hi)
        fun q _ i hi => .inl (hsub q i hi)
      exact hpaid.custody.toCoherent.modifyPlayer _ (fun _ => rfl) (fun _ => rfl) fun _ hu => hu
    refine bagsWithin_modifyPlayer _ ?_
    exact hsub
  subst hs'
  refine htaken.trans (kept_sendMailTo htaken.custody htaken.settled hid (nodup_dedup items)
    fun i hi => ?_)
  have hi' := hbags i (mem_dedup.mp hi)
  refine ⟨fun m hm hl => h.outside m hm i hl p hmem hi', fun q hq hq' => ?_⟩
  -- The item was in the sender's bags alone, and they are filtered.
  obtain ⟨q0, hq0, hg0, hb0⟩ := htaken.bags q hq
  have hguid : q.guid = p.guid := by
    rw [← hg0]
    exact h.owner q0 hq0 p hmem i (hb0 i hq') hi'
  simp only [modifyPlayer, mem_rows_modify] at hq
  rcases hq with ⟨-, hne⟩ | ⟨q2, -, -, rfl⟩
  · exact hne hguid
  have hout := (mem_filter.mp hq').2
  simp [mem_dedup.mp hi] at hout

theorem kept_payCod (env : Env) (p : Character) (m : Mail) (h : Custody s) (hset : Settled s)
    (hpay : c.cod ≠ 0 → s.mailId < 0xFFFFFFFE) : Kept s (s.payCod env p m c) := by
  unfold payCod
  split_ifs with h0 hex
  · have hsent : Kept s (s.sendMailTo env { money := c.cod } m.sender m.receiver 0) :=
      kept_sendMailTo h hset (hpay (UInt64.pos_iff_ne_zero.mp h0)) nodup_nil
        fun i hi => absurd hi not_mem_nil
    exact hsent.trans (kept_modifyMoney hsent.custody hsent.settled _)
  · exact kept_modifyMoney h hset _
  · exact .refl h hset

theorem moneyOf_payCod (hp : s.findPlayer p.guid = some p) (hmoney : c.cod.toNat ≤ p.money)
    (hlt : c.cod ≠ 0 → c.cod.toNat < 2 ^ 31) :
    (s.moneyOf p.guid : ℤ) - (s.payCod env p m c).moneyOf p.guid = c.cod.toNat := by
  have hplayer := (findPlayer_eq_some.mp hp).1
  have hown : s.moneyOf p.guid = p.money := by simp [moneyOf, hplayer]
  -- Charging a state in which the payer has the money of `p`.
  have hcharge (s1 : State) (h0 : c.cod ≠ 0) (hs1 : s1.moneyOf p.guid = p.money)
      (hq : ∃ q, s1.players.get? p.guid = some q) :
      (s1.modifyMoney p.guid (-int32 c.cod.toUInt32)).moneyOf p.guid = p.money - c.cod.toNat := by
    obtain ⟨q, hq⟩ := hq
    have hguid := (get?_eq_some.mp hq).2
    have hqm : q.money = p.money := by simpa [moneyOf, hq] using hs1
    have hpos : 0 < c.cod.toNat := by
      rcases Nat.eq_zero_or_pos c.cod.toNat with hz | hz
      · exact absurd (UInt64.toNat_inj.mp hz) h0
      · exact hz
    have hnat : c.cod.toUInt32.toNat = c.cod.toNat := by
      rw [UInt64.toNat_toUInt32, Nat.mod_eq_of_lt]
      have := hlt h0
      omega
    rw [← hguid] at hq ⊢
    rw [moneyOf_modifyMoney hq, int32_of_lt (by rw [hnat]; exact hlt h0), hnat, hqm]
    exact modifyMoney_neg_of_pos hpos hmoney
  unfold payCod
  split_ifs with h0 hex
  · rw [hcharge _ (UInt64.pos_iff_ne_zero.mp h0) (by rw [moneyOf_sendMailTo, hown]), hown]
    · omega
    simp only [sendMailTo, get?_modify, hplayer]
    split
    · exact ⟨_, rfl⟩
    · exact ⟨p, rfl⟩
  · rw [hcharge _ (UInt64.pos_iff_ne_zero.mp h0) hown ⟨p, hplayer⟩, hown]
    omega
  have hz : c.cod = 0 := by
    by_contra hne
    exact h0 (UInt64.pos_iff_ne_zero.mpr hne)
  simp [hz]

theorem get?_payCod (h : Coherent s) (hm : s.mails.get? id = some m) (m' : Mail) :
    (s.payCod env p m' c).mails.get? id = some m := by
  have hne : id ≠ s.mailId := fun heq => by
    rw [heq, h.fresh] at hm
    cases hm
  unfold State.payCod
  split_ifs
  · simp only [State.modifyMoney, State.modifyPlayer, State.sendMailTo, get?_put]
    rw [if_neg (by exact hne), hm]
  · exact hm
  · exact hm

variable {itemId : UInt32}

theorem moveToInventory_custody (h : Custody s)
    (hnone : ∀ m ∈ s.mails.rows, itemId ∉ listed m) (hout : ∀ q ∈ s.players.rows, itemId ∉ q.bags) :
    Custody (s.moveToInventory env u itemId) := by
  refine h.modifyPlayer _ ?_ (fun m hm _ i hi q _ hi' => ?_) fun q _ i hi => ?_
  · exact h.toCoherent.modifyPlayer _ (fun _ => rfl) (fun _ => rfl) fun _ hu => hu
  · refine mem_filter.mpr ⟨hi', ?_⟩
    rw [decide_eq_true_iff]
    rintro rfl
    exact hnone m hm hi
  dsimp only at hi
  split_ifs at hi
  · exact .inl hi
  rcases mem_append.mp hi with hi | hi
  · exact .inl hi
  obtain rfl := mem_singleton.mp hi
  exact .inr ⟨hnone, hout⟩

theorem mem_bags_moveToInventory
    (hq : q ∈ (s.moveToInventory env u itemId).players.rows) (hi : i ∈ q.bags) :
    (∃ q0 ∈ s.players.rows, q0.guid = q.guid ∧ i ∈ q0.bags) ∨ (q.guid = u ∧ i = itemId) := by
  simp only [moveToInventory, modifyPlayer, mem_rows_modify] at hq
  rcases hq with ⟨hq, -⟩ | ⟨q0, hq0, hkey, rfl⟩
  · exact .inl ⟨q, hq, rfl, hi⟩
  dsimp only at hi
  split_ifs at hi
  · exact .inl ⟨q0, hq0, rfl, hi⟩
  rcases mem_append.mp hi with hi | hi
  · exact .inl ⟨q0, hq0, rfl, hi⟩
  · exact .inr ⟨hkey, mem_singleton.mp hi⟩

theorem moneyOf_moveToInventory (u' : UInt32) :
    (s.moveToInventory env u itemId).moneyOf u' = s.moneyOf u' := by
  refine moneyOf_modifyPlayer _ ?_ u'
  exact fun _ => rfl

theorem moneyOf_rewrite (u' : UInt32) : (s.rewrite u id c').moneyOf u' = s.moneyOf u' :=
  moneyOf_modifyPlayer (s := s) (u := u)
    (f := fun p => { p with mailsUpdated := true }) (fun _ => rfl) (fun _ => rfl) u'

theorem notMem_listed_saveMail (h : Custody s)
    (hnone : ∀ m ∈ s.mails.rows, i ∉ listed m) : ∀ m ∈ (s.saveMail u).mails.rows, i ∉ listed m := by
  intro m' hm'
  unfold saveMail at hm'
  split_ifs at hm'
  · exact hnone m' hm'
  simp only [modifyPlayer, mem_rows_filterMap] at hm'
  obtain ⟨m, hm, hsave⟩ := hm'
  rw [h.listed_saveOne hm hsave]
  exact hnone m hm

/-- **An item taken** from the mail that lists it. -/
theorem takeItem_custody (h : Custody s) (hset : Settled s) (hp : s.findPlayer p.guid = some p)
    (hopen : s.openMail env p.guid id = some (m, c)) (hitem : itemId ∈ c.items)
    (hmoney : c.cod.toNat ≤ p.money)
    (hpay : c.cod ≠ 0 → c.cod.toNat < 2 ^ 31 ∧ s.mailId < 0xFFFFFFFE) {mailbox : UInt64}
    (hout : o = some .ok) (hs' : s' = s.takeItem env p m c itemId) :
    Gives s s' o p (.takeItem mailbox id itemId) ∧
      Stays s s' o p (.takeItem mailbox id itemId) ∧ Custody s' ∧ Settled s' := by
  obtain ⟨hget, hlive, -⟩ := openMail_eq_some.mp hopen
  obtain ⟨hm, hr, hc⟩ := getMail_eq_some.mp hget
  obtain ⟨hmem, hid⟩ := get?_eq_some.mp hm
  have hlist := listed_of_copy hc hlive
  have hnil := hset m hmem c hc
  have hsame : c.items = m.items := by
    have := (h.tracks m hmem c hc hlive).items
    rw [hnil] at this
    simpa using this
  have hnd : c.items.Nodup := hlist ▸ h.nodup m hmem
  -- The COD is paid.
  have hpaid := kept_payCod env p m h hset fun h0 => (hpay h0).2
  have hm1 : (s.payCod env p m c).mails.get? id = some m := get?_payCod h.toCoherent hm m
  obtain ⟨hmem1, -⟩ := get?_eq_some.mp hm1
  generalize hs1 : s.payCod env p m c = s1 at hpaid hm1 hmem1
  -- The item leaves the mail.
  generalize hc' : ({ c with
    items := c.items.erase itemId, removedItems := c.removedItems ++ [itemId], cod := 0
    state := .changed } : Copy) = c'
  have hitems' : c'.items = c.items.erase itemId := by rw [← hc']
  have hrem' : c'.removedItems = [itemId] := by rw [← hc', hnil]; rfl
  have hstate' : c'.state = .changed := by rw [← hc']
  have hlist' : listed { m with copy := some c' } = c.items.erase itemId := by
    rw [listed_of_copy rfl (by rw [hstate']; simp), hitems']
  have hrw : Custody (s1.rewrite p.guid id c') := by
    refine rewrite_custody hpaid.custody (getMail_eq_some.mpr ⟨hm1, hr, hc⟩)
      (by rw [hstate']; simp) ?_ (fun _ => ?_) fun i hi => ?_
    · rw [hlist', hlist]
      exact erase_sublist
    · rw [hitems', hrem', hsame]
      rw [hsame] at hnd
      rw [hnd.erase_eq_filter]
      refine filter_congr fun i _ => ?_
      simp [bne, BEq.beq]
    rw [hrem', mem_singleton] at hi
    subst hi
    refine ⟨?_, fun m' hm' hne hl => hne ?_⟩
    · rw [hlist']
      exact hnd.not_mem_erase
    · rw [← hid, hpaid.custody.unique m hmem1 m' hm' i (hlist ▸ hitem) hl]
  have hnone : ∀ m' ∈ (s1.rewrite p.guid id c').mails.rows, itemId ∉ listed m' := by
    have hin : { m with copy := some c' } ∈ (s1.rewrite p.guid id c').mails.rows :=
      mem_rows_setCopy.mpr (.inr ⟨m, hmem1, hid, rfl⟩)
    exact hrw.removed _ hin c' rfl itemId (by rw [hrem']; exact mem_singleton_self _)
  have hbags2 : BagsWithin s (s1.rewrite p.guid id c') :=
    hpaid.bags.trans bagsWithin_setMailsUpdated
  have hout2 : ∀ q ∈ (s1.rewrite p.guid id c').players.rows, itemId ∉ q.bags := by
    intro q hq hi
    obtain ⟨q0, hq0, -, hb⟩ := hbags2 q hq
    exact h.outside m hmem itemId (hlist ▸ hitem) q0 hq0 (hb itemId hi)
  -- The item moves to the bags, and the mail is saved.
  have hmoved : Custody ((s1.rewrite p.guid id c').moveToInventory env p.guid itemId) :=
    moveToInventory_custody hrw hnone hout2
  rw [takeItem, hid, hs1, hc'] at hs'
  change s' = ((s1.rewrite p.guid id c').moveToInventory env p.guid itemId).saveMail p.guid at hs'
  have hkeeps4 : Keeps ((s1.rewrite p.guid id c').moveToInventory env p.guid itemId) s' :=
    hs' ▸ keeps_saveMail hmoved
  refine ⟨⟨fun q hq i hi => ?_, fun _ _ i heq _ => ?_⟩, fun m' hm' i hi => ?_,
    hs' ▸ hmoved.saveMail, hs' ▸ settled_saveMail hmoved fun m' hm' hne c0 hc0 => ?_⟩
  · have hsaved := bagsWithin_saveMail (s := (s1.rewrite p.guid id c').moveToInventory env p.guid
      itemId) (u := p.guid)
    rw [← hs'] at hsaved
    obtain ⟨q1, hq1, hg1, hb1⟩ := hsaved q hq
    rcases mem_bags_moveToInventory hq1 (hb1 i hi) with ⟨q2, hq2, hg2, hb2⟩ | ⟨hg2, rfl⟩
    · obtain ⟨q0, hq0, hg0, hb0⟩ := hbags2 q2 hq2
      exact .inl ⟨q0, hq0, (hg0.trans hg2).trans hg1, hb0 i hb2⟩
    · exact .inr ⟨hg1 ▸ hg2, hout, mailbox, id, rfl⟩
  · obtain ⟨-, rfl, rfl⟩ := Action.takeItem.inj heq
    refine ⟨m, c, hget, hlist ▸ hitem, ?_, fun m' hm' => ?_⟩
    · have hsame' : s'.moneyOf p.guid = s1.moneyOf p.guid := by
        rw [hs', moneyOf_saveMail]
        exact (moneyOf_moveToInventory _).trans (moneyOf_rewrite _)
      rw [hsame', ← hs1]
      exact moneyOf_payCod hp hmoney fun h0 => (hpay h0).1
    rw [hs'] at hm'
    exact notMem_listed_saveMail hmoved hnone m' hm'
  · obtain ⟨m1, hmem1', hid1, hi1⟩ := hpaid.keeps m' hm' i hi
    by_cases hgone : m'.id = id ∧ i = itemId
    · obtain ⟨hid', rfl⟩ := hgone
      obtain rfl := s.mails.distinct.eq_of_key hm' hmem (hid'.trans hid.symm)
      exact .inr ⟨hr, .inl ⟨hout, mailbox, by rw [hid]⟩⟩
    have hstay : ∃ m2 ∈ (s1.rewrite p.guid id c').mails.rows, m2.id = m1.id ∧ i ∈ listed m2 := by
      refine stays_setCopy (s := s1.setMailsUpdated p.guid) hmem1' hi1 fun hid2 => ?_
      obtain rfl := s1.mails.distinct.eq_of_key hmem1' hmem1 (hid2.trans hid.symm)
      rw [hlist'] at ⊢
      rw [hlist] at hi1
      have hne : i ≠ itemId := fun heq => hgone ⟨hid1.symm.trans hid2, heq⟩
      exact (mem_erase_of_ne hne).mpr hi1
    obtain ⟨m2, hm2, hid2, hi2⟩ := hstay
    obtain ⟨m3, hm3, hid3, hi3⟩ := hkeeps4 m2 hm2 i hi2
    exact .inl ⟨m3, hm3, (hid3.trans hid2).trans hid1, hi3⟩
  rcases mem_rows_setCopy.mp hm' with ⟨hm', -⟩ | ⟨m0, hm0, hid0, rfl⟩
  · exact hpaid.settled m' hm' c0 hc0
  obtain rfl := s1.mails.distinct.eq_of_key hm0 hmem1 (hid0.trans hid.symm)
  exact absurd hr hne

/-- What is listed by another mail than the one erased. -/
def KeepsBut (s s' : State) (id : UInt32) : Prop :=
  ∀ m ∈ s.mails.rows, m.id ≠ id → ∀ i ∈ listed m, ∃ m' ∈ s'.mails.rows, m'.id = m.id ∧ i ∈ listed m'

/-- **A mail returned** takes its items with it. -/
theorem returnMail_custody (h : Custody s) (hset : Settled s)
    (hopen : s.openMail env p.guid id = some (m, c)) (hid' : s.mailId < 0xFFFFFFFE)
    (hs' : s' = s.returnMail env p m c) :
    Custody s' ∧ Settled s' ∧ BagsWithin s s' ∧ KeepsBut s s' id := by
  obtain ⟨hget, hlive, -⟩ := openMail_eq_some.mp hopen
  obtain ⟨hm, hr, hc⟩ := getMail_eq_some.mp hget
  obtain ⟨hmem, hid⟩ := get?_eq_some.mp hm
  have hlist := listed_of_copy hc hlive
  have hset1 : Settled { s with mails := s.mails.erase id } :=
    fun m' hm' => hset m' (mem_rows_erase.mp hm').1
  have hbut1 : KeepsBut s { s with mails := s.mails.erase id } id :=
    fun m' hm' hne i hi => ⟨m', mem_rows_erase.mpr ⟨hm', hne⟩, rfl, hi⟩
  -- No mail left lists an item of the mail returned.
  have hapart : ∀ m' ∈ (s.mails.erase id).rows, ∀ i ∈ c.items, i ∉ listed m' := by
    intro m' hm' i hi hi'
    obtain ⟨hm', hne⟩ := mem_rows_erase.mp hm'
    exact hne ((h.unique m hmem m' hm' i (hlist ▸ hi) hi') ▸ hid)
  have hmoved : Kept { s with mails := s.mails.erase id }
      (({ s with mails := s.mails.erase id } : State).modifyPlayer p.guid
        (fun p => { p with mItems := p.mItems.filter (· ∉ c.items) }) fun _ => rfl) := by
    refine ⟨?_, settled_of_mails hset1 rfl, keeps_of_mails rfl, ?_⟩
    · refine (h.erase id).modifyPlayer _ ?_ (fun m' hm' _ i hi q _ hi' => ?_)
        fun q _ i hi => .inl hi
      · exact (h.erase id).toCoherent.modifyPlayer _ (fun _ => rfl) (fun _ => rfl) fun _ hu => hu
      refine mem_filter.mpr ⟨hi', ?_⟩
      rw [decide_eq_true_iff]
      exact fun hmem' => hapart m' hm' i hmem' hi
    refine bagsWithin_modifyPlayer _ ?_
    exact fun _ _ hi => hi
  have hfinish {s'} (hk : Kept { s with mails := s.mails.erase id } s') :
      Custody s' ∧ Settled s' ∧ BagsWithin s s' ∧ KeepsBut s s' id := by
    refine ⟨hk.custody, hk.settled, hk.bags, fun m' hm' hne i hi => ?_⟩
    obtain ⟨m1, hm1, hid1, hi1⟩ := hbut1 m' hm' hne i hi
    obtain ⟨m2, hm2, hid2, hi2⟩ := hk.keeps m1 hm1 i hi1
    exact ⟨m2, hm2, hid2.trans hid1, hi2⟩
  unfold returnMail at hs'
  rw [hid] at hs'
  dsimp only at hs'
  split at hs'
  · unfold sendReturnToSender at hs'
    split at hs'
    · exact hs' ▸ hfinish hmoved
    subst hs'
    refine hfinish (hmoved.trans (kept_sendMailTo hmoved.custody hmoved.settled hid'
      (nodup_dedup _) fun i hi => ⟨fun m' hm' => ?_, fun q hq => ?_⟩))
    · exact hapart m' hm' i (mem_filter.mp (mem_dedup.mp hi)).1
    obtain ⟨q0, hq0, -, hb⟩ := hmoved.bags q hq
    have hi' := (mem_filter.mp (mem_dedup.mp hi)).1
    exact fun hbag => h.outside m hmem i (hlist ▸ hi') q0 hq0 (hb i hbag)
  · exact hs' ▸ hfinish (.refl (h.erase id) hset1)

/-- **A mail deleted** lists nothing. -/
theorem delete_custody (h : Custody s) (hset : Settled s) (hget : s.getMail u id = some (m, c)) :
    Custody (s.rewrite u id { c with state := .deleted }) ∧
      Settled (s.rewrite u id { c with state := .deleted }) ∧
      KeepsBut s (s.rewrite u id { c with state := .deleted }) id := by
  obtain ⟨hm, hr, hc⟩ := getMail_eq_some.mp hget
  obtain ⟨hmem, hid⟩ := get?_eq_some.mp hm
  have hnil := hset m hmem c hc
  refine ⟨rewrite_custody h hget (by simp) ?_ (fun hd => absurd rfl hd) ?_,
    settled_setCopy (settled_of_mails hset rfl) hnil, fun m' hm' hne i hi => ?_⟩
  · exact nil_sublist _
  · rw [hnil]
    exact fun i hi => absurd hi not_mem_nil
  · exact stays_setCopy (s := s.setMailsUpdated u) hm' hi fun heq => absurd heq hne

/-! ### Runs -/

/-- **One action** that `ActTakesListed` guards and keeps the invariant. -/
theorem act_custody (h : Custody s) (hset : Settled s) (hp : s.findPlayer p.guid = some p)
    (hact : ActTakesListed s env p a) (hs' : s.act env p a = (s', o)) :
    Gives s s' o p a ∧ Stays s s' o p a ∧ Custody s' ∧ Settled s' := by
  -- All but the three that take items off mails keep everything.
  have hkept (ha : ∀ mailbox mailId i, a ≠ .takeItem mailbox mailId i) (hk : Kept s s') :
      Gives s s' o p a ∧ Stays s s' o p a ∧ Custody s' ∧ Settled s' :=
    ⟨gives_of_bagsWithin hk.bags ha, stays_of_keeps hk.keeps, hk.custody, hk.settled⟩
  have hfst : (s.act env p a).1 = s' := by rw [hs']
  have hsnd : (s.act env p a).2 = o := by rw [hs']
  clear hs'
  cases a with
  | send r =>
    refine hkept (by simp) ?_
    rcases handleSendMail_cases (o := s.handleSendMail env p r) rfl with
      ⟨heq, -⟩ | ⟨rc, items, delay, hok, heq⟩
    · rw [← hfst, act, heq]
      exact .refl h hset
    · exact kept_send h hset hp hok (hact _ hok) delay (hfst.symm.trans heq)
  | takeMoney mailbox mailId money =>
    refine hkept (by simp) ?_
    rcases handleMailTakeMoney_cases (o := s.handleMailTakeMoney env p mailbox mailId money)
      rfl with heq | ⟨m, c, -, hopen, -, heq⟩
    · rw [← hfst, act, heq]
      exact .refl h hset
    rw [← hfst, act, heq]
    exact kept_takeMoney h hset hopen money
  | takeItem mailbox mailId itemId =>
    rcases handleMailTakeItem_cases (o := s.handleMailTakeItem env p mailbox mailId itemId)
      rfl with ⟨heq, hno⟩ | ⟨m, c, hi, hopen, hmoney, hmem, hstore, hout, heq⟩
    · rw [act, heq] at hfst
      subst hfst
      refine ⟨⟨fun q hq i hi => .inl ⟨q, hq, rfl, hi⟩, fun _ _ _ _ hok => ?_⟩,
        stays_of_keeps (keeps_of_mails rfl), h, hset⟩
      exact absurd (hsnd.trans hok) hno
    obtain ⟨hitem, hpay⟩ := hact m c hi hopen hmoney hmem hstore
    exact takeItem_custody h hset hp hopen hitem hmoney hpay (hsnd.symm.trans hout)
      (hfst.symm.trans heq)
  | returnToSender mailbox mailId =>
    rcases handleMailReturnToSender_cases (o := s.handleMailReturnToSender env p mailbox mailId)
      rfl with heq | ⟨m, c, hi, hopen, heq⟩
    · refine hkept (by simp) ?_
      rw [← hfst, act, heq]
      exact .refl h hset
    obtain ⟨hcus, hset', hbags, hbut⟩ :=
      returnMail_custody h hset hopen (hact m c hi hopen) (hfst.symm.trans heq)
    refine ⟨gives_of_bagsWithin hbags (by simp), fun m' hm' i hi' => ?_, hcus, hset'⟩
    by_cases hid : m'.id = mailId
    · obtain ⟨hm, hr, -⟩ := getMail_eq_some.mp (openMail_eq_some.mp hopen).1
      obtain ⟨hmem, hid0⟩ := get?_eq_some.mp hm
      obtain rfl := s.mails.distinct.eq_of_key hm' hmem (hid.trans hid0.symm)
      exact .inr ⟨hr, .inr (.inl ⟨mailbox, by rw [hid]⟩)⟩
    · exact .inl (hbut m' hm' hid i hi')
  | delete mailbox mailId =>
    rcases handleMailDelete_cases (o := s.handleMailDelete env p mailbox mailId) rfl with
      ⟨-, heq⟩ | ⟨-, heq⟩ | ⟨m, c, -, hget, -, heq⟩
    · refine hkept (by simp) ?_
      rw [← hfst, act, heq]
      exact .refl h hset
    · refine hkept (by simp) ?_
      rw [← hfst, act, heq]
      exact ⟨h.setMailsUpdated, settled_of_mails hset rfl, keeps_of_mails rfl,
        bagsWithin_setMailsUpdated⟩
    obtain ⟨hcus, hset', hbut⟩ := delete_custody h hset hget
    rw [act, heq] at hfst
    change s.rewrite p.guid mailId { c with state := .deleted } = s' at hfst
    subst hfst
    refine ⟨gives_of_bagsWithin bagsWithin_setMailsUpdated (by simp), fun m' hm' i hi' => ?_,
      hcus, hset'⟩
    by_cases hid : m'.id = mailId
    · obtain ⟨hm, hr, -⟩ := getMail_eq_some.mp hget
      obtain ⟨hmem, hid0⟩ := get?_eq_some.mp hm
      obtain rfl := s.mails.distinct.eq_of_key hm' hmem (hid.trans hid0.symm)
      exact .inr ⟨hr, .inr (.inr ⟨mailbox, by rw [hid]⟩)⟩
    · exact .inl (hbut m' hm' hid i hi')
  | markAsRead mailbox mailId =>
    refine hkept (by simp) ?_
    rcases handleMailMarkAsRead_cases (o := s.handleMailMarkAsRead env p mailbox mailId) rfl
      with heq | ⟨m, c, hget, hstate, heq⟩
    · rw [← hfst, act, heq]
      exact .refl h hset
    rw [← hfst, act, heq]
    exact kept_rewrite (n := { c with state := .changed }) h hset hget hstate rfl rfl rfl
  | loadMail => exact hkept (by simp) (hfst ▸ kept_loadMail h hset hp)
  | save => exact hkept (by simp) (hfst ▸ kept_saveToDB h hset)
  | logout => exact hkept (by simp) (hfst ▸ kept_logout h hset hp)

/-- **Mail keeps custody of its items.**  From every state in custody, in every run of
players who enter and leave the world, load, send, take, return and delete mails,
whose takes all name the mail that lists the item (`TakesListed`), every item
given is listed by the mail named and its COD is charged in the same step, every
item listed stays listed until it is taken, returned or deleted with its mail,
and custody is kept. -/
theorem guards_along (h : Custody s) (hset : Settled s) {as : List (Env × Step)}
    (hrun : Along step TakesListed s as) : Along step Guards s as := by
  have hstep : ∀ (s : State) (a : Env × Step), Custody s ∧ Settled s → TakesListed s a →
      Guards s a ∧ Custody (s.step a) ∧ Settled (s.step a) := by
    rintro s ⟨env, step⟩ ⟨h, hset⟩ hact
    cases step with
    | login u =>
      have hk := kept_login (u := u) h hset
      exact ⟨⟨hk.custody, hk.keeps⟩, hk.custody, hk.settled⟩
    | act u a =>
      dsimp only [Guards, step]
      cases hp : s.findPlayer u with
      | none => exact ⟨trivial, h, hset⟩
      | some p =>
        have hguid := (get?_eq_some.mp (findPlayer_eq_some.mp hp).1).2
        rw [← hguid] at hp
        obtain ⟨hgives, hstays, hcus, hset'⟩ :=
          act_custody h hset hp (hact p (hguid ▸ hp)) (Prod.mk.eta (p := s.act env p a)).symm
        exact ⟨⟨hgives, hstays, hcus⟩, hcus, hset'⟩
  exact Along.of_invariant (I := fun s => Custody s ∧ Settled s)
    (fun s a hs h => (hstep s a hs h).2) (fun s a hs h => (hstep s a hs h).1) ⟨h, hset⟩ hrun

theorem custody_firstDay : Custody firstDay where
  ids _ h := absurd h not_mem_nil
  owned _ h := absurd h not_mem_nil
  nodup _ h := absurd h not_mem_nil
  unique _ h := absurd h not_mem_nil
  inMap _ h := absurd h not_mem_nil
  outside _ h := absurd h not_mem_nil
  owner q hq q' hq' i hi hi' := by
    -- Only the first player has anything in its bags.
    have hfirst (q) (hq : q ∈ firstDay.players.rows) (hi : i ∈ q.bags) : q.guid = 1 := by
      rcases mem_cons.mp hq with rfl | hq
      · rfl
      rw [mem_singleton.mp hq] at hi
      cases hi
    rw [hfirst q hq hi, hfirst q' hq' hi']
  row _ h := absurd h not_mem_nil
  tracks _ h := absurd h not_mem_nil
  removed _ h := absurd h not_mem_nil

/-- An item is sent for cash on delivery, and taken from its mail. -/
theorem guards_along_delivery : Along step Guards firstDay
      [sendItem 7 50, sendMoney 1, (town 2, .act 2 (.takeItem 1 1 7)),
        (town 2, .act 2 .logout)] := by
  refine guards_along custody_firstDay (fun _ h => absurd h not_mem_nil) ⟨?_, ?_, ?_, ?_, trivial⟩
  · intro p hp x _
    decide
  · intro p hp x _
    decide
  · intro p hp m c _ hopen _ _ _
    obtain rfl := some.inj hp
    obtain ⟨rfl, rfl⟩ := Prod.mk.inj (some.inj hopen)
    decide
  · exact fun _ _ => trivial

/-- An item for 50 copper in mail 1, one copper in mail 2, and a take of the item that
names mail 2. -/
def evasion : List (Env × Step) :=
  [sendItem 7 50, sendMoney 1, (town 2, .act 2 (.takeItem 1 2 7))]

/-- **A COD is evaded by naming another mail.**  The item of mail 1 is taken under the
id of mail 2: the receiver has it and pays nothing, and mail 1 lists it still. -/
theorem takeItem_evades_cod : ((evasion.foldl step firstDay).moneyOf 2 = 500 ∧
      (evasion.foldl step firstDay).players.rows.map (fun p => (p.bags, p.mItems)) =
        [([8], []), ([7], [])] ∧
      (evasion.foldl step firstDay).mails.rows.map (fun m => (m.id, m.cod, listed m)) =
        [(2, 0, []), (1, 50, [7])]) ∧
    ¬ ∀ (s : State) (as : List (Env × Step)), Custody s → Settled s → Along step Guards s as := by
  refine ⟨by decide, fun h => ?_⟩
  have hgives := (h firstDay evasion custody_firstDay fun _ h => absurd h not_mem_nil).2.2.1.1.2
  obtain ⟨m, c, hget, hi, -⟩ := hgives 1 2 7 rfl rfl
  obtain ⟨rfl, rfl⟩ := Prod.mk.inj (some.inj hget)
  exact absurd hi (by decide)

end ZerosCore.Mails
