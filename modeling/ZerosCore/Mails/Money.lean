/-
# Where the mails leave the money

Money lies in the purses of players and in the mails that are not deleted: in the
`Mail` object where there is one, in the row otherwise (`held`).  Sending costs
the postage, deleting a mail costs what it holds; nothing else leaves or enters
(`fee`).

The source breaks this where an amount changes its width: `cost + money` wraps, a
row holds 32 bits of the money sent, and a COD at or above `2^31` is charged
through `int32`.  It breaks it too where a client names no amount: a take of `0`
empties the mail (`sendMail_wraps` is the first of these).  `PaysInFull` excludes
them, and `conserves_along` is the rest.
-/

import ZerosCore.Mails.Coherent
import ZerosCore.Lib.Run
import Mathlib.Tactic.Linarith
import Mathlib.Tactic.Ring

namespace ZerosCore.Mails

open Lib Player List Option State Keyed.Table

/-! ### What is conserved -/

/-- The money held in a mail; a deleted one holds none. -/
def held (m : Mail) : ℕ :=
  match m.copy with
  | none => m.money.toNat
  | some c => if c.state = .deleted then 0 else c.money.toNat

/-- The sum over the mails of what `g` makes of an id, a receiver and the money held. -/
def State.weigh (s : State) (g : UInt32 → UInt32 → ℕ → ℤ) : ℤ :=
  s.mails.sum fun m => g m.id m.receiver (held m)

def State.purses (s : State) : ℤ := s.players.sum fun p => (p.money : ℤ)

/-- The money in purses and mails. -/
def State.total (s : State) : ℤ := s.purses + s.weigh fun _ _ n => n

def State.heldIn (s : State) (id : UInt32) : ℕ := ((s.mails.get? id).map held).getD 0

/-- The money a step from `s` to `s'` has mailed to `who`. -/
def mailedTo (s s' : State) (who : UInt32) : ℤ :=
  s'.weigh fun id receiver n => if s.mails.get? id = none ∧ receiver = who then (n : ℤ) else 0

/-- What an action takes out of circulation: the postage of a mail that is sent, 30
copper or 30 for each item, and the money of a mail that is deleted. -/
def fee (s : State) (env : Env) (p : Character) : Action → ℕ
  | .send r =>
    match s.sendChecks env p r with
    | .error _ => 0
    | .ok _ => 30 * max 1 r.itemGuids.length
  | .delete mailbox mailId =>
    match s.getMail p.guid mailId with
    | none => 0
    | some (m, c) => if env.canInteract mailbox && c.cod = 0 then held m else 0
  | _ => 0

/-- Beyond the sum: a take moves the whole amount of the mail or leaves it there, and
what the payer of a COD loses is mailed to the sender. -/
def Delivers (s s' : State) (p : Character) : Action → Prop
  | .takeMoney _ mailId _ =>
    (s'.moneyOf p.guid = s.moneyOf p.guid + s.heldIn mailId ∧ s'.heldIn mailId = 0) ∨
    (s'.moneyOf p.guid = s.moneyOf p.guid ∧ s'.heldIn mailId = s.heldIn mailId)
  | .takeItem _ mailId _ => ∀ m, s.mails.get? mailId = some m →
      (s.moneyOf p.guid : ℤ) - s'.moneyOf p.guid = mailedTo s s' m.sender
  | _ => True

/-- A step keeps the money together, but for the fee of its action. -/
def Conserves (s : State) : Env × Step → Prop
  | (_, .login u) => (s.login u).total = s.total
  | (env, .act u a) =>
    match s.findPlayer u with
    | none => True
    | some p =>
      (s.act env p a).1.total = s.total - fee s env p a ∧ Delivers s (s.act env p a).1 p a

/-- The invariant: coherent, purses up to the gold limit, and objects that hold 32
bits, as their rows do while they are unchanged. -/
structure Sound (s : State) : Prop extends Coherent s where
  capped : ∀ p ∈ s.players.rows, p.money ≤ maxMoneyAmount
  synced : ∀ m ∈ s.mails.rows, ∀ c, m.copy = some c →
    c.money.toNat < 2 ^ 32 ∧ (c.state = .unchanged → m.money = c.money.toUInt32)

/-! ### What a step has to meet -/

/-- What an action has to meet, where the checks of its handler let it through: less
than `2^32` copper is sent (and the mail ids have not run out), a take names the
amount of the mail and stays below the gold limit, a COD is below `2^31` and its
receiver exists, and a mail that holds money is returned to a player who exists. -/
def ActPaysInFull (s : State) (env : Env) (p : Character) : Action → Prop
  | .send r => ∀ rc items, s.sendChecks env p r = .ok (rc, items) →
      r.money.toNat < 2 ^ 32 ∧ s.mailId < 0xFFFFFFFE
  | .takeMoney mailbox mailId money => ∀ m c, env.canInteract mailbox →
      s.openMail env p.guid mailId = some (m, c) →
      (money = 0 → c.money = 0) ∧ (c.money = money → p.money + money.toNat ≤ maxMoneyAmount)
  | .takeItem mailbox mailId itemId => ∀ m c, env.canInteract mailbox →
      s.openMail env p.guid mailId = some (m, c) → c.cod.toNat ≤ p.money → itemId ∈ p.mItems →
      env.canStoreItem itemId = .ok → c.cod ≠ 0 →
      c.cod.toNat < 2 ^ 31 ∧ s.existsPlayer m.sender ∧ s.mailId < 0xFFFFFFFE
  | .returnToSender mailbox mailId => ∀ m c, env.canInteract mailbox →
      s.openMail env p.guid mailId = some (m, c) →
      (c.money ≠ 0 → m.messageType = .normal ∧ s.existsPlayer m.sender) ∧ s.mailId < 0xFFFFFFFE
  | _ => True

def PaysInFull (s : State) : Env × Step → Prop
  | (_, .login _) => True
  | (env, .act u a) => ∀ p, s.findPlayer u = some p → ActPaysInFull s env p a

/-! ### The money of the mails under each write -/

variable {s s' : State} {env : Env} {p q : Character} {m m' : Mail} {c : Copy}
  {u id : UInt32} {g : UInt32 → UInt32 → ℕ → ℤ}
variable {removed : List UInt32}

theorem held_saveOne (h : saveOne u removed m = some m') : held m' = held m := by
  rcases saveOne_cases h with ⟨rfl, -⟩ | ⟨c, hc, -, hstate, rfl⟩
  · rfl
  · simp [held, hc, hstate]

theorem receiver_saveOne (h : saveOne u removed m = some m') : m'.receiver = m.receiver := by
  rcases saveOne_cases h with ⟨rfl, -⟩ | ⟨c, -, -, -, rfl⟩ <;> rfl

theorem weigh_saveMail (hg : ∀ i r, g i r 0 = 0) : (s.saveMail u).weigh g = s.weigh g := by
  unfold saveMail
  split_ifs
  · rfl
  refine sum_filterMap (w := fun m => g m.id m.receiver (held m)) id_saveOne fun m _ => ?_
  cases hm : saveOne u (s.removedBy u) m with
  | none =>
    obtain ⟨-, c, hc, hstate⟩ := saveOne_eq_none hm
    simp [held, hc, hstate, hg]
  | some m' =>
    rw [map_some, getD_some, id_saveOne m m' hm, receiver_saveOne hm, held_saveOne hm]

theorem weigh_setCopy (hm : s.mails.get? id = some m) :
    (s.setCopy id c).weigh g + g id m.receiver (held m) =
      s.weigh g + g id m.receiver (held { m with copy := some c }) := by
  have hsum := sum_modify (w := fun m => g m.id m.receiver (held m)) hm
    (fun m => { m with copy := some c }) fun _ => rfl
  rw [(get?_eq_some.mp hm).2] at hsum
  exact hsum

variable {d : MailDraft} {receiver sender : UInt32} {delay : ℕ}

theorem weigh_sendMailTo (hfresh : s.mails.get? s.mailId = none) (hmoney : d.money.toNat < 2 ^ 32) :
    (s.sendMailTo env d receiver sender delay).weigh g =
      g s.mailId receiver d.money.toNat + s.weigh g := by
  have hrow : d.money.toUInt32.toNat = d.money.toNat := by
    rw [UInt64.toNat_toUInt32, Nat.mod_eq_of_lt hmoney]
  unfold sendMailTo weigh
  dsimp only
  rw [sum_put (by exact hfresh)]
  congr 2
  unfold held newMail
  dsimp only
  split_ifs <;> simp [hrow]

theorem weigh_erase (hm : s.mails.get? id = some m) : s.weigh g = g id m.receiver (held m) +
      ({ s with mails := s.mails.erase id } : State).weigh g := by
  have hsum := sum_erase (w := fun m => g m.id m.receiver (held m)) hm
  rw [(get?_eq_some.mp hm).2] at hsum
  exact hsum

theorem weigh_loadMail (hs : Coherent s) (hp : s.findPlayer p.guid = some p) :
    (s.loadMail p).weigh g = s.weigh g := by
  unfold loadMail
  split_ifs with hld
  · rfl
  refine sum_filterMap (w := fun m => g m.id m.receiver (held m)) id_loadOne fun m hm => ?_
  rw [map_some, getD_some]
  by_cases hr : m.receiver = p.guid
  · -- A mail of a player who has not loaded them has no object yet.
    have hnone : m.copy = none := by
      by_contra hc
      obtain ⟨c, hc⟩ := ne_none_iff_exists'.mp hc
      obtain ⟨q, hq, hown⟩ := hs.owned m hm c hc
      rw [hr, (findPlayer_eq_some.mp hp).1] at hq
      rw [← some.inj hq] at hown
      exact hld hown.loaded
    simp only [loadOne, if_pos hr]
    congr 1
    simp [held, hnone]
  · simp only [loadOne, if_neg hr]

theorem weigh_dropCopies (hs : Sound s)
    (hun : ∀ m ∈ s.mails.rows, m.receiver = u → ∀ c, m.copy = some c → c.state = .unchanged) :
    (s.dropCopies u).weigh g = s.weigh g := by
  refine sum_filterMap (w := fun m => g m.id m.receiver (held m)) id_dropOne fun m hm => ?_
  rw [map_some, getD_some]
  by_cases hr : m.receiver = u
  · simp only [dropOne, if_pos hr]
    congr 1
    cases hc : m.copy with
    | none => simp [held, hc]
    | some c =>
      have hstate := hun m hm hr c hc
      obtain ⟨hlt, hrow⟩ := hs.synced m hm c hc
      have hmoney : m.money.toNat = c.money.toNat := by
        rw [hrow hstate, UInt64.toNat_toUInt32, Nat.mod_eq_of_lt hlt]
      simp [held, hc, hstate, hmoney]
  · simp only [dropOne, if_neg hr]

/-! ### The purses under each write -/

variable {f : Character → Character}

theorem purses_modifyPlayer (hf : ∀ p, (f p).guid = p.guid)
    (hmoney : ∀ p, (f p).money = p.money) : (s.modifyPlayer u f hf).purses = s.purses :=
  sum_modify_of_eq (w := fun p : Character => (p.money : ℤ)) hf fun p => by rw [hmoney]

theorem total_modifyPlayer (hf : ∀ p, (f p).guid = p.guid)
    (hmoney : ∀ p, (f p).money = p.money) : (s.modifyPlayer u f hf).total = s.total := by
  rw [total, purses_modifyPlayer hf hmoney]
  rfl

theorem purses_saveMail : (s.saveMail u).purses = s.purses := by
  unfold saveMail
  split_ifs
  · rfl
  · exact purses_modifyPlayer _ fun _ => rfl

theorem purses_sendMailTo : (s.sendMailTo env d receiver sender delay).purses = s.purses :=
  purses_modifyPlayer (u := receiver) (f := fun p => { p with
    mItems := if s.isMailsLoaded receiver then p.mItems ++ d.items else p.mItems })
    (fun _ => rfl) fun _ => rfl

theorem purses_modifyMoney (hp : s.players.get? p.guid = some p) {d : ℤ} {n : ℕ}
    (hd : Player.modifyMoney p.money d = n) :
    (s.modifyMoney p.guid d).purses = s.purses - p.money + n := by
  have hsum := sum_modify (w := fun p : Character => (p.money : ℤ)) hp
    (fun p => { p with money := Player.modifyMoney p.money d }) fun _ => rfl
  simp only [hd] at hsum
  simp only [State.purses, State.modifyMoney, State.modifyPlayer]
  linarith

theorem moneyOf_modifyPlayer (hf : ∀ p, (f p).guid = p.guid)
    (hmoney : ∀ p, (f p).money = p.money) (u' : UInt32) :
    (s.modifyPlayer u f hf).moneyOf u' = s.moneyOf u' := by
  simp only [moneyOf, modifyPlayer, get?_modify]
  split_ifs
  · cases s.players.get? u' with
    | none => rfl
    | some p => simp [hmoney]
  · rfl

theorem moneyOf_saveMail (u' : UInt32) : (s.saveMail u).moneyOf u' = s.moneyOf u' := by
  unfold saveMail
  split_ifs
  · rfl
  refine (moneyOf_modifyPlayer _ ?_ u').trans ?_
  · exact fun _ => rfl
  · rfl

theorem moneyOf_sendMailTo (u' : UInt32) :
    (s.sendMailTo env d receiver sender delay).moneyOf u' = s.moneyOf u' :=
  moneyOf_modifyPlayer (u := receiver) (f := fun p => { p with
    mItems := if s.isMailsLoaded receiver then p.mItems ++ d.items else p.mItems })
    (fun _ => rfl) (fun _ => rfl) u'

theorem moneyOf_modifyMoney (hp : s.players.get? p.guid = some p) (d : ℤ) :
    (s.modifyMoney p.guid d).moneyOf p.guid = Player.modifyMoney p.money d := by
  simp only [State.moneyOf, State.modifyMoney, State.modifyPlayer, get?_modify, hp,
    if_true, map_some, getD_some]

/-! ### The invariant under each write -/

namespace Sound

section

variable (h : Sound s)

include h

theorem money_lt (hget : s.getMail u id = some (m, c)) : c.money.toNat < 2 ^ 32 := by
  obtain ⟨hm, -, hc⟩ := getMail_eq_some.mp hget
  exact (h.synced m (get?_eq_some.mp hm).1 c hc).1

theorem modifyPlayer (hf : ∀ p, (f p).guid = p.guid)
    (hon : ∀ p, (f p).online = p.online) (hld : ∀ p, (f p).mailsLoaded = p.mailsLoaded)
    (hup : ∀ p, p.mailsUpdated = true → (f p).mailsUpdated = true)
    (hcap : ∀ p, p.money ≤ maxMoneyAmount → (f p).money ≤ maxMoneyAmount) :
    Sound (s.modifyPlayer u f hf) := by
  refine ⟨h.toCoherent.modifyPlayer hf hon hld hup, fun q hq => ?_, h.synced⟩
  simp only [State.modifyPlayer, mem_rows_modify] at hq
  rcases hq with ⟨hq, -⟩ | ⟨q, hq, -, rfl⟩
  · exact h.capped q hq
  · exact hcap q (h.capped q hq)

theorem modifyMoney {d : ℤ} (hd : d ≤ maxMoneyAmount) : Sound (s.modifyMoney u d) := by
  unfold State.modifyMoney
  exact h.modifyPlayer _ (fun _ => rfl) (fun _ => rfl) (fun _ hu => hu)
    fun _ hm => modifyMoney_le hm hd

theorem setMailsUpdated : Sound (s.setMailsUpdated u) := by
  unfold State.setMailsUpdated
  exact h.modifyPlayer _ (fun _ => rfl) (fun _ => rfl) (fun _ _ => rfl) fun _ hm => hm

theorem setCopy
    (hown : ∀ m, s.mails.get? id = some m → ∃ q, s.players.get? m.receiver = some q ∧ Owns q c)
    (hmoney : c.money.toNat < 2 ^ 32) (hstate : c.state ≠ .unchanged) : Sound (s.setCopy id c) := by
  refine ⟨h.toCoherent.setCopy hown, h.capped, fun m' hm' c' hc' => ?_⟩
  rcases mem_rows_setCopy.mp hm' with ⟨hm, -⟩ | ⟨m, hm, -, rfl⟩
  · exact h.synced m' hm c' hc'
  obtain rfl := some.inj hc'
  exact ⟨hmoney, fun hs => absurd hs hstate⟩

theorem erase (id : UInt32) : Sound { s with mails := s.mails.erase id } :=
  ⟨h.toCoherent.erase id, h.capped, fun m hm => h.synced m (mem_rows_erase.mp hm).1⟩

theorem sendMailTo (hid : s.mailId < 0xFFFFFFFE) {d : MailDraft} (hmoney : d.money.toNat < 2 ^ 32) :
    Sound (s.sendMailTo env d receiver sender delay) := by
  refine ⟨h.toCoherent.sendMailTo hid, fun q hq => ?_, fun m hm c hc => ?_⟩
  · simp only [State.sendMailTo, mem_rows_modify] at hq
    rcases hq with ⟨hq, -⟩ | ⟨q, hq, -, rfl⟩ <;> exact h.capped q hq
  simp only [State.sendMailTo, mem_rows_put] at hm
  rcases hm with rfl | ⟨hm, -⟩
  · obtain ⟨-, rfl⟩ := copy_newMail_eq_some.mp hc
    exact ⟨hmoney, fun _ => rfl⟩
  · exact h.synced m hm c hc

theorem saveMail : Sound (s.saveMail u) := by
  refine ⟨h.toCoherent.saveMail, ?_, ?_⟩
  · unfold State.saveMail
    split_ifs
    · exact h.capped
    intro q hq
    simp only [State.modifyPlayer, mem_rows_modify] at hq
    rcases hq with ⟨hq, -⟩ | ⟨q, hq, -, rfl⟩ <;> exact h.capped q hq
  unfold State.saveMail
  split_ifs
  · exact h.synced
  intro m' hm' c' hc'
  simp only [State.modifyPlayer, mem_rows_filterMap] at hm'
  obtain ⟨m, hm, hsave⟩ := hm'
  rcases saveOne_cases hsave with ⟨rfl, -⟩ | ⟨c, hc, -, -, rfl⟩
  · exact h.synced m hm c' hc'
  obtain rfl := some.inj hc'
  exact ⟨(h.synced m hm c hc).1, fun _ => rfl⟩

theorem saveToDB : Sound (s.saveToDB p) := by
  unfold State.saveToDB
  split_ifs
  · exact h.saveMail
  · exact h

theorem loadMail (hp : s.findPlayer p.guid = some p) : Sound (s.loadMail p) := by
  refine ⟨h.toCoherent.loadMail hp, ?_, ?_⟩
  · unfold State.loadMail
    split_ifs
    · exact h.capped
    intro q hq
    simp only [State.modifyPlayer, mem_rows_modify] at hq
    rcases hq with ⟨hq, -⟩ | ⟨q, hq, -, rfl⟩ <;> exact h.capped q hq
  unfold State.loadMail
  split_ifs
  · exact h.synced
  intro m' hm' c' hc'
  simp only [State.modifyPlayer, mem_rows_filterMap] at hm'
  obtain ⟨m, hm, hload⟩ := hm'
  obtain rfl := some.inj hload
  by_cases hr : m.receiver = p.guid
  · simp only [State.loadOne, if_pos hr] at hc' ⊢
    obtain rfl := some.inj hc'
    refine ⟨by simpa using m.money.toNat_lt, fun _ => ?_⟩
    simp
  simp only [State.loadOne, if_neg hr] at hc' ⊢
  exact h.synced m hm c' hc'

theorem dropCopies : Sound (s.dropCopies u) := by
  refine ⟨h.toCoherent.dropCopies, h.capped, fun m' hm' c' hc' => ?_⟩
  simp only [State.dropCopies, mem_rows_filterMap] at hm'
  obtain ⟨m, hm, hdrop⟩ := hm'
  obtain rfl := some.inj hdrop
  by_cases hr : m.receiver = u
  · simp only [dropOne, if_pos hr] at hc'
    cases hc'
  simp only [dropOne, if_neg hr] at hc' ⊢
  exact h.synced m hm c' hc'

end

end Sound

/-! ### Taking -/

theorem held_of_copy (hc : m.copy = some c) (hstate : c.state ≠ .deleted) :
    held m = c.money.toNat := by
  simp [held, hc, hstate]

theorem heldIn_saveMail : (s.saveMail u).heldIn id = s.heldIn id := by
  unfold saveMail
  split_ifs
  · rfl
  simp only [heldIn, modifyPlayer, get?_filterMap]
  cases hm : s.mails.get? id with
  | none => rfl
  | some m =>
    rw [bind_some]
    cases hsave : saveOne u (s.removedBy u) m with
    | none =>
      obtain ⟨-, c, hc, hstate⟩ := saveOne_eq_none hsave
      simp [held, hc, hstate]
    | some m' => simp [held_saveOne hsave]

theorem total_saveMail : (s.saveMail u).total = s.total := by
  simp only [total, purses_saveMail, weigh_saveMail fun _ _ => Nat.cast_zero]

/-- The object of a mail of `player` is rewritten, and the player marked. -/
def State.rewrite (s : State) (u id : UInt32) (c : Copy) : State :=
  (s.setMailsUpdated u).setCopy id c

/-- What a step leaves that only rewrites the mail `id`. -/
structure Rewritten (s s' : State) (id receiver : UInt32) (before after : ℕ) : Prop where
  purses : s'.purses = s.purses
  moneyOf : ∀ u, s'.moneyOf u = s.moneyOf u
  weigh : ∀ g : UInt32 → UInt32 → ℕ → ℤ, (∀ i r, g i r 0 = 0) →
    s'.weigh g + g id receiver before = s.weigh g + g id receiver after
  heldIn : s'.heldIn id = after
  sound : Sound s'

theorem rewrite_spec (hs : Sound s) (hget : s.getMail u id = some (m, c)) {n : Copy}
    (hstate : n.state ≠ .unchanged) (hmoney : n.money.toNat < 2 ^ 32) :
    Rewritten s (s.rewrite u id n) id u (held m) (held { m with copy := some n }) := by
  obtain ⟨hm, hr, hc⟩ := getMail_eq_some.mp hget
  refine ⟨?_, fun u' => ?_, fun g hg => ?_, ?_, ?_⟩
  · exact purses_modifyPlayer (s := s) (u := u)
      (f := fun p => { p with mailsUpdated := true }) (fun _ => rfl) fun _ => rfl
  · exact moneyOf_modifyPlayer (s := s) (u := u)
      (f := fun p => { p with mailsUpdated := true }) (fun _ => rfl) (fun _ => rfl) u'
  · have hw := weigh_setCopy (s := s.setMailsUpdated u) (c := n) (g := g) hm
    rw [hr] at hw
    exact hw
  · simp only [rewrite, heldIn, setCopy, setMailsUpdated,
      modifyPlayer, get?_modify, if_true, hm, map_some, getD_some]
  exact hs.setMailsUpdated.setCopy (hs.toCoherent.owns_setMailsUpdated hget) hmoney hstate

namespace Rewritten

variable {receiver : UInt32} {before after : ℕ}

theorem modifyPlayer (h : Rewritten s s' id receiver before after)
    (hf : ∀ p, (f p).guid = p.guid) (hon : ∀ p, (f p).online = p.online)
    (hld : ∀ p, (f p).mailsLoaded = p.mailsLoaded)
    (hup : ∀ p, (f p).mailsUpdated = p.mailsUpdated) (hpurse : ∀ p, (f p).money = p.money) :
    Rewritten s (s'.modifyPlayer u f hf) id receiver before after :=
  ⟨(purses_modifyPlayer hf hpurse).trans h.purses,
    fun q => (moneyOf_modifyPlayer hf hpurse q).trans (h.moneyOf q), h.weigh, h.heldIn,
    h.sound.modifyPlayer hf hon hld (fun p hp => (hup p).trans hp) fun p hp => (hpurse p).symm ▸ hp⟩

theorem saveMail (h : Rewritten s s' id receiver before after) :
    Rewritten s (s'.saveMail u) id receiver before after :=
  ⟨purses_saveMail.trans h.purses, fun q => (moneyOf_saveMail q).trans (h.moneyOf q),
    fun g hg => (weigh_saveMail hg).symm ▸ h.weigh g hg, heldIn_saveMail.trans h.heldIn,
    h.sound.saveMail⟩

end Rewritten

/-- **A take** that names the amount moves it. -/
theorem takeMoney_spec (hs : Sound s) (hp : s.findPlayer p.guid = some p)
    (hopen : s.openMail env p.guid id = some (m, c))
    (hcap : p.money + c.money.toNat ≤ maxMoneyAmount) (hs' : s' = s.takeMoney p id c c.money) :
    s'.total = s.total ∧ Sound s' ∧
      s'.moneyOf p.guid = s.moneyOf p.guid + s.heldIn id ∧ s'.heldIn id = 0 := by
  obtain ⟨hget, hstate, -⟩ := openMail_eq_some.mp hopen
  obtain ⟨hm, hr, hc⟩ := getMail_eq_some.mp hget
  have hplayer := (findPlayer_eq_some.mp hp).1
  have hheld := held_of_copy hc hstate
  have hlt := (hs.synced m (get?_eq_some.mp hm).1 c hc).1
  have hint : int64 c.money = c.money.toNat := int64_of_lt (by omega)
  have hpay : Player.modifyMoney p.money (int64 c.money) = p.money + c.money.toNat := by
    rw [hint]
    exact modifyMoney_add hcap
  have hpaid : Sound (s.modifyMoney p.guid (int64 c.money)) := hs.modifyMoney (by rw [hint]; omega)
  have hrw := (rewrite_spec (n := { c with money := 0, state := .changed }) hpaid hget (by simp)
    (by simp)).saveMail (u := p.guid)
  change s' = ((s.modifyMoney p.guid (int64 c.money)).rewrite p.guid id _).saveMail p.guid at hs'
  rw [← hs', hheld] at hrw
  refine ⟨?_, hrw.sound, ?_, hrw.heldIn⟩
  · have hw := hrw.weigh (fun _ _ n => n) fun _ _ => Nat.cast_zero
    have hsame : (s.modifyMoney p.guid (int64 c.money)).weigh (fun _ _ n => (n : ℤ)) =
        s.weigh fun _ _ n => (n : ℤ) := rfl
    have hempty : held { m with copy := some { c with money := 0, state := .changed } } = 0 := rfl
    rw [hsame, hempty] at hw
    simp only [total, hrw.purses, purses_modifyMoney hplayer hpay]
    push_cast at hw ⊢
    linarith
  rw [hrw.moneyOf, moneyOf_modifyMoney hplayer, hpay, heldIn, hm, map_some,
    getD_some, hheld, moneyOf, hplayer, map_some, getD_some]

/-- What paying a COD leaves: the amount goes from the payer to a mail to the sender. -/
structure Paid (s s' : State) (p : Character) (sender : UInt32) (n : ℕ) : Prop where
  sound : Sound s'
  purses : s'.purses = s.purses - n
  moneyOf : (s.moneyOf p.guid : ℤ) - s'.moneyOf p.guid = n
  weigh : ∀ g : UInt32 → UInt32 → ℕ → ℤ, (∀ i r, g i r 0 = 0) →
    s'.weigh g = g s.mailId sender n + s.weigh g
  mails : ∀ i, s.mails.get? i ≠ none → s'.mails.get? i = s.mails.get? i

theorem payCod_spec (env : Env) (hs : Sound s) (hp : s.findPlayer p.guid = some p)
    (hmoney : c.cod.toNat ≤ p.money)
    (hpay : c.cod ≠ 0 → c.cod.toNat < 2 ^ 31 ∧ s.existsPlayer m.sender ∧ s.mailId < 0xFFFFFFFE) :
    Paid s (s.payCod env p m c) p m.sender c.cod.toNat := by
  have hplayer := (findPlayer_eq_some.mp hp).1
  have hcap := hs.capped p (get?_eq_some.mp hplayer).1
  by_cases h0 : c.cod = 0
  · have hsame : s.payCod env p m c = s := by
      unfold payCod
      rw [if_neg (by simp [h0])]
    rw [hsame, h0]
    exact ⟨hs, by simp, by simp, fun g hg => by simp [hg], fun _ _ => rfl⟩
  obtain ⟨hlt, hex, hid⟩ := hpay h0
  have hsent : s.payCod env p m c = (s.sendMailTo env { money := c.cod } m.sender m.receiver
      0).modifyMoney p.guid (-int32 c.cod.toUInt32) := by
    unfold payCod
    rw [if_pos (UInt64.pos_iff_ne_zero.mpr h0), if_pos hex]
  have hnat : c.cod.toUInt32.toNat = c.cod.toNat := by
    rw [UInt64.toNat_toUInt32, Nat.mod_eq_of_lt (by omega)]
  have hint : int32 c.cod.toUInt32 = c.cod.toNat := by rw [int32_of_lt (by omega), hnat]
  have hcod : c.cod.toNat < 2 ^ 32 := by omega
  rw [hsent, hint]
  -- The mail touches no purse, so the payer is found with the money checked.
  obtain ⟨q, hq, hqm, hqg⟩ : ∃ q, (s.sendMailTo env { money := c.cod } m.sender m.receiver
      0).players.get? p.guid = some q ∧ q.money = p.money ∧ q.guid = p.guid := by
    simp only [sendMailTo, get?_modify, hplayer]
    by_cases hself : p.guid = m.sender
    · rw [if_pos hself]
      exact ⟨_, rfl, rfl, rfl⟩
    rw [if_neg hself]
    exact ⟨p, rfl, rfl, rfl⟩
  have hneg : Player.modifyMoney q.money (-c.cod.toNat) = p.money - c.cod.toNat := by
    rw [hqm]
    exact modifyMoney_neg hmoney hcap
  rw [← hqg] at hq ⊢
  refine ⟨?_, ?_, ?_, fun g hg => ?_, fun i hi => ?_⟩
  · exact (hs.sendMailTo hid hcod).modifyMoney (by unfold maxMoneyAmount; omega)
  · rw [purses_modifyMoney hq hneg, purses_sendMailTo, hqm]
    push_cast [hmoney]
    ring
  · rw [← hqg, moneyOf_modifyMoney hq, hneg, hqg, moneyOf, hplayer, map_some, getD_some]
    omega
  · exact weigh_sendMailTo hs.fresh hcod
  have hne : i ≠ s.mailId := fun h => hi (h ▸ hs.fresh)
  simp only [State.modifyMoney, State.modifyPlayer, State.sendMailTo, get?_put]
  exact if_neg hne

theorem mailedTo_self (who : UInt32) : s.weigh (fun id receiver n =>
      if s.mails.get? id = none ∧ receiver = who then (n : ℤ) else 0) = 0 := by
  refine sum_eq_zero fun x hx => ?_
  obtain ⟨m, hm, rfl⟩ := mem_map.mp hx
  dsimp only
  rw [if_neg]
  rw [get?_key hm]
  simp

/-- **An item taken** costs its COD, and the COD is mailed to the sender. -/
theorem takeItem_spec (hs : Sound s) (hp : s.findPlayer p.guid = some p)
    (hopen : s.openMail env p.guid id = some (m, c)) {itemId : UInt32}
    (hmoney : c.cod.toNat ≤ p.money)
    (hpay : c.cod ≠ 0 → c.cod.toNat < 2 ^ 31 ∧ s.existsPlayer m.sender ∧ s.mailId < 0xFFFFFFFE)
    (hs' : s' = s.takeItem env p m c itemId) : s'.total = s.total ∧ Sound s' ∧
      (s.moneyOf p.guid : ℤ) - s'.moneyOf p.guid = mailedTo s s' m.sender := by
  obtain ⟨hget, hstate, -⟩ := openMail_eq_some.mp hopen
  obtain ⟨hm, hr, hc⟩ := getMail_eq_some.mp hget
  obtain ⟨hmem, hid⟩ := get?_eq_some.mp hm
  have hpaid := payCod_spec env hs hp hmoney hpay
  have hm1 : (s.payCod env p m c).mails.get? id = some m := by
    rw [hpaid.mails id (by rw [hm]; simp), hm]
  have hrw := (((rewrite_spec (n := { c with
      items := c.items.erase itemId, removedItems := c.removedItems ++ [itemId], cod := 0
      state := .changed }) hpaid.sound (getMail_eq_some.mpr ⟨hm1, hr, hc⟩) (by simp)
      (hs.synced m hmem c hc).1).modifyPlayer (u := p.guid)
    (f := fun p => { p with
      mItems := p.mItems.filter (· ≠ itemId)
      bags := if env.merges itemId then p.bags else p.bags ++ [itemId] })
    (fun _ => rfl) (fun _ => rfl) (fun _ => rfl) (fun _ => rfl) fun _ => rfl).saveMail
    (u := p.guid))
  rw [takeItem, hid] at hs'
  change s' = (((s.payCod env p m c).rewrite p.guid id _).moveToInventory env p.guid
    itemId).saveMail p.guid at hs'
  have hkept : held { m with copy := some { c with
      items := c.items.erase itemId, removedItems := c.removedItems ++ [itemId], cod := 0,
      state := .changed } } = held m := (held_of_copy hc hstate).symm
  rw [hkept] at hrw
  change Rewritten _ ((moveToInventory _ env p.guid itemId).saveMail p.guid) _ _ _ _ at hrw
  rw [← hs'] at hrw
  refine ⟨?_, hrw.sound, ?_⟩
  · have hw := hrw.weigh (fun _ _ n => n) fun _ _ => Nat.cast_zero
    have hw' := hpaid.weigh (fun _ _ n => n) fun _ _ => Nat.cast_zero
    simp only [total, hrw.purses, hpaid.purses]
    linarith
  have hg : ∀ i r, (if s.mails.get? i = none ∧ r = m.sender then ((0 : ℕ) : ℤ) else 0) = 0 := by
    intro i r
    split_ifs <;> rfl
  have hw := hrw.weigh (fun i r n => if s.mails.get? i = none ∧ r = m.sender then (n : ℤ) else 0)
    hg
  have hw' := hpaid.weigh
    (fun i r n => if s.mails.get? i = none ∧ r = m.sender then (n : ℤ) else 0) hg
  rw [mailedTo_self, if_pos ⟨hs.fresh, rfl⟩] at hw'
  rw [hrw.moneyOf, hpaid.moneyOf, mailedTo]
  linarith

/-! ### Sending and returning -/

variable {r : SendRequest}

theorem reqmoney_toNat (hlen : r.itemGuids.length ≤ maxMailItems)
    (hmoney : r.money.toNat < 2 ^ 32) :
    (reqmoney r).toNat = 30 * max 1 r.itemGuids.length + r.money.toNat := by
  unfold maxMailItems at hlen
  have hpost : (postage r).toNat = 30 * max 1 r.itemGuids.length := by
    unfold postage
    split_ifs with h0
    · rw [UInt32.toNat_mul, UInt32.toNat_ofNat']
      simp only [UInt32.reduceToNat]
      omega
    simp only [not_not] at h0
    simp [h0]
  rw [reqmoney, UInt64.toNat_add, UInt32.toNat_toUInt64, hpost]
  omega

/-- **A mail sent** costs the postage. -/
theorem send_spec (hs : Sound s) (hp : s.findPlayer p.guid = some p)
    {rc : UInt32} {items : List UInt32} (hok : s.sendChecks env p r = .ok (rc, items))
    (hmoney : r.money.toNat < 2 ^ 32) (hid : s.mailId < 0xFFFFFFFE)
    (hs' : s' = s.sent env p r rc items delay) :
    s'.total = s.total - (30 * max 1 r.itemGuids.length : ℕ) ∧ Sound s' := by
  obtain ⟨hlen, hmuch, -⟩ := of_sendChecks hok
  have henough : (reqmoney r).toNat ≤ p.money := by simpa [hasEnoughMoney] using hmuch
  have hreq := reqmoney_toNat hlen hmoney
  have hplayer := (findPlayer_eq_some.mp hp).1
  have hcap := hs.capped p (get?_eq_some.mp hplayer).1
  have hint : int64 (reqmoney r) = (reqmoney r).toNat :=
    int64_of_lt (by unfold maxMoneyAmount at hcap; omega)
  have hneg := modifyMoney_neg henough hcap
  rw [State.sent, hint] at hs'
  have hpaid : Sound (s.modifyMoney p.guid (-(reqmoney r).toNat)) :=
    hs.modifyMoney (by unfold maxMoneyAmount; omega)
  have hbags := hpaid.modifyPlayer (u := p.guid)
    (f := fun p => { p with bags := p.bags.filter (· ∉ items) }) (fun _ => rfl) (fun _ => rfl)
    (fun _ => rfl) (fun _ hu => hu) fun _ hm => hm
  subst hs'
  refine ⟨?_, hbags.sendMailTo hid hmoney⟩
  have hpurse := purses_modifyMoney hplayer hneg
  have hsame := purses_modifyPlayer (s := s.modifyMoney p.guid (-(reqmoney r).toNat))
    (u := p.guid) (f := fun p => { p with bags := p.bags.filter (· ∉ items) })
    (fun _ => rfl) fun _ => rfl
  rw [total, purses_sendMailTo, weigh_sendMailTo hbags.fresh hmoney, hsame, hpurse]
  have hw : ((s.modifyMoney p.guid (-(reqmoney r).toNat)).modifyPlayer p.guid
      (fun p => { p with bags := p.bags.filter (· ∉ items) }) fun _ => rfl).weigh
      (fun _ _ n => (n : ℤ)) = s.weigh fun _ _ n => (n : ℤ) := rfl
  rw [hw, total, Nat.cast_sub henough, hreq]
  push_cast
  ring

/-- **A mail returned** to a player who exists keeps its money. -/
theorem returnMail_spec (hs : Sound s) (hopen : s.openMail env p.guid id = some (m, c))
    (hpay : c.money ≠ 0 → m.messageType = .normal ∧ s.existsPlayer m.sender)
    (hid : s.mailId < 0xFFFFFFFE) (hs' : s' = s.returnMail env p m c) :
    s'.total = s.total ∧ Sound s' := by
  obtain ⟨hget, hstate, -⟩ := openMail_eq_some.mp hopen
  obtain ⟨hm, hr, hc⟩ := getMail_eq_some.mp hget
  obtain ⟨hmem, hkey⟩ := get?_eq_some.mp hm
  have hheld := held_of_copy hc hstate
  have hlt := (hs.synced m hmem c hc).1
  have herase := hs.erase id
  have hw := weigh_erase (g := fun _ _ n => (n : ℤ)) hm
  rw [hheld] at hw
  have hexists (hq : s.existsPlayer m.sender) : m.sender ≠ 0 := by
    obtain ⟨q, hq⟩ := existsPlayer_iff.mp hq
    rw [← (get?_eq_some.mp hq).2]
    exact q.guid_ne
  unfold returnMail at hs'
  rw [hkey] at hs'
  dsimp only at hs'
  split_ifs at hs' with hnormal
  · have hmoved := herase.modifyPlayer (u := p.guid)
      (f := fun p => { p with mItems := p.mItems.filter (· ∉ c.items) }) (fun _ => rfl)
      (fun _ => rfl) (fun _ => rfl) (fun _ hu => hu) fun _ hm => hm
    have hpurse := purses_modifyPlayer (s := { s with mails := s.mails.erase id })
      (u := p.guid) (f := fun p => { p with mItems := p.mItems.filter (· ∉ c.items) })
      (fun _ => rfl) fun _ => rfl
    unfold sendReturnToSender at hs'
    split at hs'
    · -- The sender is gone, so the mail held nothing.
      rename_i hgone
      have h0 : c.money = 0 := by
        by_contra hne
        obtain ⟨q, hq⟩ := existsPlayer_iff.mp (hpay hne).2
        rw [Bool.not_eq_true', ← Bool.not_eq_true, existsPlayer_iff] at hgone
        refine hgone ?_
        simp only [modifyPlayer, get?_modify, hq]
        split_ifs
        · exact ⟨_, rfl⟩
        · exact ⟨q, rfl⟩
      rw [h0] at hw
      subst hs'
      refine ⟨?_, hmoved⟩
      rw [total, total, hpurse, hw]
      simp only [UInt64.toNat_zero, Nat.cast_zero, zero_add]
      rfl
    dsimp only at hs'
    subst hs'
    refine ⟨?_, hmoved.sendMailTo hid hlt⟩
    rw [total, total, purses_sendMailTo, weigh_sendMailTo hmoved.fresh hlt, hpurse, hw]
    rfl
  have h0 : c.money = 0 := by
    by_contra hne
    obtain ⟨hn, hex⟩ := hpay hne
    exact hnormal (by simp [hn, hexists hex])
  rw [h0] at hw
  subst hs'
  refine ⟨?_, herase⟩
  rw [total, total, hw]
  simp only [UInt64.toNat_zero, Nat.cast_zero, zero_add]
  rfl

/-! ### Deleting, reading, saving -/

theorem setMailsUpdated_spec (hs : Sound s) :
    (s.setMailsUpdated u).total = s.total ∧ Sound (s.setMailsUpdated u) := by
  refine ⟨?_, hs.setMailsUpdated⟩
  refine total_modifyPlayer (f := fun p => { p with mailsUpdated := true }) ?_ ?_
  exact fun _ => rfl

theorem saveToDB_spec (hs : Sound s) : (s.saveToDB p).total = s.total ∧ Sound (s.saveToDB p) := by
  refine ⟨?_, hs.saveToDB⟩
  unfold saveToDB
  split_ifs
  · exact total_saveMail
  · rfl

theorem loadMail_spec (hs : Sound s) (hp : s.findPlayer p.guid = some p) :
    (s.loadMail p).total = s.total ∧ Sound (s.loadMail p) := by
  refine ⟨?_, hs.loadMail hp⟩
  have hpurse : (s.loadMail p).purses = s.purses := by
    unfold loadMail
    split_ifs
    · rfl
    · exact purses_modifyPlayer _ fun _ => rfl
  rw [total, hpurse, weigh_loadMail hs.toCoherent hp]
  rfl

/-- **Leaving the world** moves no money: what is loaded again is what was left. -/
theorem logout_spec (hs : Sound s) (hp : s.findPlayer p.guid = some p) :
    (s.logout p).total = s.total ∧ Sound (s.logout p) := by
  obtain ⟨hsave, hsaved⟩ := saveToDB_spec (p := p) hs
  refine ⟨?_, hs.toCoherent.logout, ?_, hsaved.dropCopies.synced⟩
  · have hpurse : (s.logout p).purses = (s.saveToDB p).purses :=
      purses_modifyPlayer (s := (s.saveToDB p).dropCopies p.guid) (u := p.guid)
        (f := fun p => { p with
          online := false, mailsLoaded := false, mailsUpdated := false, mItems := [] })
        (fun _ => rfl) fun _ => rfl
    have hw := weigh_dropCopies (g := fun _ _ n => (n : ℤ)) hsaved
      (unchanged_saveToDB hs.toCoherent hp)
    rw [← hsave, total, total, hpurse, ← hw]
    rfl
  intro q hq
  simp only [logout, modifyPlayer, mem_rows_modify] at hq
  rcases hq with ⟨hq, -⟩ | ⟨q, hq, -, rfl⟩ <;> exact hsaved.capped q hq

theorem login_spec (hs : Sound s) : (s.login u).total = s.total ∧ Sound (s.login u) := by
  have hco := hs.toCoherent.login (u := u)
  unfold login at hco ⊢
  split
  · exact ⟨rfl, hs⟩
  rename_i p hp
  rw [hp] at hco
  dsimp only at hco
  split_ifs at hco ⊢ with hon
  · exact ⟨rfl, hs⟩
  refine ⟨?_, hco, fun q hq => ?_, hs.synced⟩
  · refine total_modifyPlayer _ ?_
    exact fun _ => rfl
  simp only [modifyPlayer, mem_rows_modify] at hq
  rcases hq with ⟨hq, -⟩ | ⟨q, hq, -, rfl⟩ <;> exact hs.capped q hq

/-! ### Runs -/

/-- An action keeps the sum but for its fee, delivers, and keeps the invariant. -/
def ActRight (s s' : State) (env : Env) (p : Character) (a : Action) : Prop :=
  s'.total = s.total - fee s env p a ∧ Delivers s s' p a ∧ Sound s'

theorem ActRight.of_free {a : Action} (hfee : fee s env p a = 0) (htotal : s'.total = s.total)
    (hdelivers : Delivers s s' p a) (hs : Sound s') : ActRight s s' env p a :=
  ⟨by simp [htotal, hfee], hdelivers, hs⟩

section

variable (hs : Sound s)

include hs

theorem act_send (hp : s.findPlayer p.guid = some p) {r : SendRequest}
    (h : ActPaysInFull s env p (.send r)) (hs' : s' = (s.act env p (.send r)).1) :
    ActRight s s' env p (.send r) := by
  rcases handleSendMail_cases (o := s.handleSendMail env p r) rfl with
    ⟨heq, hno⟩ | ⟨rc, items, delay, hok, heq⟩
  · obtain rfl := hs'.trans heq
    refine .of_free ?_ rfl trivial hs
    dsimp only [fee]
    split
    · rfl
    rename_i x hx
    exact absurd hx (hno x)
  obtain ⟨hmoney, hid⟩ := h rc items hok
  obtain ⟨htotal, hsound⟩ := send_spec hs hp hok hmoney hid (hs'.trans heq)
  have hfee : fee s env p (.send r) = 30 * max 1 r.itemGuids.length := by
    simp only [fee, hok]
  exact ⟨by rw [htotal, hfee], trivial, hsound⟩

variable {mailbox money : UInt64} {mailId itemId : UInt32}

theorem act_takeMoney (hp : s.findPlayer p.guid = some p)
    (h : ActPaysInFull s env p (.takeMoney mailbox mailId money))
    (hs' : s' = (s.act env p (.takeMoney mailbox mailId money)).1) :
    ActRight s s' env p (.takeMoney mailbox mailId money) := by
  rcases handleMailTakeMoney_cases (o := s.handleMailTakeMoney env p mailbox mailId money)
    rfl with heq | ⟨m, c, hi, hopen, hmoney, heq⟩
  · obtain rfl := hs'.trans heq
    exact .of_free rfl rfl (.inr ⟨rfl, rfl⟩) hs
  obtain ⟨hzero, hcap⟩ := h m c hi hopen
  have hall : c.money = money := by
    rcases hmoney with h0 | h0
    · rw [hzero h0, h0]
    · exact h0
  rw [← hall] at heq hcap
  obtain ⟨htotal, hsound, hmoved⟩ :=
    takeMoney_spec hs hp hopen (hcap rfl) ((by rw [hs', ← hall]; rfl : s' = _).trans heq)
  exact .of_free rfl htotal (.inl hmoved) hsound

theorem act_takeItem (hp : s.findPlayer p.guid = some p)
    (h : ActPaysInFull s env p (.takeItem mailbox mailId itemId))
    (hs' : s' = (s.act env p (.takeItem mailbox mailId itemId)).1) :
    ActRight s s' env p (.takeItem mailbox mailId itemId) := by
  rcases handleMailTakeItem_cases (o := s.handleMailTakeItem env p mailbox mailId itemId)
    rfl with ⟨heq, -⟩ | ⟨m, c, hi, hopen, hmoney, hmem, hstore, -, heq⟩
  · obtain rfl := hs'.trans heq
    refine .of_free rfl rfl (fun m _ => ?_) hs
    rw [sub_self, mailedTo, mailedTo_self]
  obtain ⟨htotal, hsound, hpaid⟩ := takeItem_spec hs hp hopen hmoney
    (h m c hi hopen hmoney hmem hstore) (hs'.trans heq)
  refine .of_free rfl htotal (fun m' hm' => ?_) hsound
  have hm := (getMail_eq_some.mp (openMail_eq_some.mp hopen).1).1
  obtain rfl := some.inj (hm.symm.trans hm')
  exact hpaid

theorem act_delete (hs' : s' = (s.act env p (.delete mailbox mailId)).1) :
    ActRight s s' env p (.delete mailbox mailId) := by
  rcases handleMailDelete_cases (o := s.handleMailDelete env p mailbox mailId) rfl with
    ⟨hi, heq⟩ | ⟨hcod, heq⟩ | ⟨m, c, hi, hget, hcod, heq⟩
  · obtain rfl := hs'.trans heq
    refine .of_free ?_ rfl trivial hs
    dsimp only [fee]
    split
    · rfl
    · rw [if_neg (by simp [hi])]
  · obtain ⟨htotal, hsound⟩ := setMailsUpdated_spec (u := p.guid) hs
    rw [act, heq] at hs'
    subst hs'
    refine .of_free ?_ htotal trivial hsound
    dsimp only [fee]
    split
    · rfl
    rename_i m c hget
    rw [if_neg (by simp [hcod m c hget])]
  have hfee : fee s env p (.delete mailbox mailId) = held m := by
    simp [fee, hget, hi, hcod]
  have hlt := hs.money_lt hget
  have hrw := rewrite_spec (n := { c with state := .deleted }) hs hget (by simp) hlt
  rw [show s.rewrite p.guid mailId { c with state := .deleted } = s' from
    (hs'.trans heq).symm,
    show held { m with copy := some { c with state := .deleted } } = 0 from rfl] at hrw
  refine ⟨?_, trivial, hrw.sound⟩
  have hw := hrw.weigh (fun _ _ n => n) fun _ _ => Nat.cast_zero
  rw [hfee, total, total, hrw.purses]
  push_cast at hw
  linarith

theorem act_markAsRead (hs' : s' = (s.act env p (.markAsRead mailbox mailId)).1) :
    ActRight s s' env p (.markAsRead mailbox mailId) := by
  rcases handleMailMarkAsRead_cases (o := s.handleMailMarkAsRead env p mailbox mailId) rfl
    with heq | ⟨m, c, hget, hstate, heq⟩
  · obtain rfl := hs'.trans heq
    exact .of_free rfl rfl trivial hs
  have hkept : held { m with copy := some { c with state := .changed } } = held m :=
    (held_of_copy (getMail_eq_some.mp hget).2.2 hstate).symm
  have hlt := hs.money_lt hget
  have hrw := rewrite_spec (n := { c with state := .changed }) hs hget (by simp) hlt
  rw [show s.rewrite p.guid mailId { c with state := .changed } = s' from
    (hs'.trans heq).symm, hkept] at hrw
  refine .of_free rfl ?_ trivial hrw.sound
  have hw := hrw.weigh (fun _ _ n => n) fun _ _ => Nat.cast_zero
  rw [total, total, hrw.purses]
  linarith

/-- **One action** that `ActPaysInFull` conserves, delivers and keeps the invariant. -/
theorem act_spec (hp : s.findPlayer p.guid = some p) {a : Action}
    (h : ActPaysInFull s env p a) (hs' : s' = (s.act env p a).1) : ActRight s s' env p a := by
  cases a with
  | send r => exact act_send hs hp h hs'
  | takeMoney mailbox mailId money => exact act_takeMoney hs hp h hs'
  | takeItem mailbox mailId itemId => exact act_takeItem hs hp h hs'
  | returnToSender mailbox mailId =>
    rcases handleMailReturnToSender_cases (o := s.handleMailReturnToSender env p mailbox mailId)
      rfl with heq | ⟨m, c, hi, hopen, heq⟩
    · obtain rfl := hs'.trans heq
      exact .of_free rfl rfl trivial hs
    obtain ⟨hpay, hid⟩ := h m c hi hopen
    obtain ⟨htotal, hsound⟩ := returnMail_spec hs hopen hpay hid (hs'.trans heq)
    exact .of_free rfl htotal trivial hsound
  | delete mailbox mailId => exact act_delete hs hs'
  | markAsRead mailbox mailId => exact act_markAsRead hs hs'
  | loadMail =>
    obtain ⟨htotal, hsound⟩ := loadMail_spec hs hp
    exact hs' ▸ .of_free rfl htotal trivial hsound
  | save =>
    obtain ⟨htotal, hsound⟩ := saveToDB_spec (p := p) hs
    exact hs' ▸ .of_free rfl htotal trivial hsound
  | logout =>
    obtain ⟨htotal, hsound⟩ := logout_spec hs hp
    exact hs' ▸ .of_free rfl htotal trivial hsound

end

/-- **Mail conserves money.**  From every sound state, in every run of players who
enter and leave the world, load, send, take, return and delete mails, and all
`PaysInFull`, each step keeps the sum of purses and undeleted mails but for the
postage (and the money of a mail deleted), a take moves the whole amount of the
mail or leaves it there, and a COD goes from the payer to a mail to the sender. -/
theorem mail_conserves_along (hs : Sound s) {as : List (Env × Step)}
    (h : Along step PaysInFull s as) : Along step Conserves s as := by
  have hstep : ∀ (s : State) (a : Env × Step), Sound s → PaysInFull s a →
      Conserves s a ∧ Sound (s.step a) := by
    rintro s ⟨env, step⟩ hs h
    cases step with
    | login u => exact login_spec hs
    | act u a =>
      dsimp only [Conserves, step]
      cases hp : s.findPlayer u with
      | none => exact ⟨trivial, hs⟩
      | some p =>
        have hguid := (get?_eq_some.mp (findPlayer_eq_some.mp hp).1).2
        rw [← hguid] at hp
        obtain ⟨htotal, hdel, hsound⟩ := act_spec hs hp (h p (hguid ▸ hp)) rfl
        exact ⟨⟨htotal, hdel⟩, hsound⟩
  exact Along.of_invariant (I := Sound) (fun s a hs h => (hstep s a hs h).2)
    (fun s a hs h => (hstep s a hs h).1) hs h

theorem sound_firstDay : Sound firstDay where
  ids _ h := absurd h not_mem_nil
  owned _ h := absurd h not_mem_nil
  capped := by decide
  synced _ h := absurd h not_mem_nil

/-- Money and a COD are sent and taken, and the receiver leaves. -/
theorem mail_conserves_along_trade : Along step Conserves firstDay
      [sendMoney 100, sendItem 7 50, (town 2, .act 2 (.takeMoney 1 1 100)),
        (town 2, .act 2 (.takeItem 1 2 7)), (town 2, .act 2 .logout)] := by
  refine mail_conserves_along sound_firstDay ⟨?_, ?_, ?_, ?_, ?_, trivial⟩
  · intro p hp rc items _
    decide
  · intro p hp rc items _
    decide
  · intro p hp m c _ hopen
    obtain rfl := some.inj hp
    obtain ⟨rfl, rfl⟩ := Prod.mk.inj (some.inj hopen)
    decide
  · intro p hp m c _ hopen _ _ _ _
    obtain rfl := some.inj hp
    obtain ⟨rfl, rfl⟩ := Prod.mk.inj (some.inj hopen)
    decide
  · exact fun _ _ => trivial

/-- **`cost + money` wraps.**  A player with 1000 copper who sends `2^64 - 30` copper
is charged nothing, and the row of the mail holds 4294967266. -/
theorem sendMail_wraps : ((firstDay.step (sendMoney 18446744073709551586)).moneyOf 1 = 1000 ∧
      (firstDay.step (sendMoney 18446744073709551586)).mails.rows.map (·.money) = [4294967266]) ∧
    ¬ ∀ (s : State) (as : List (Env × Step)), Sound s → Along step Conserves s as := by
  refine ⟨by decide, fun h => ?_⟩
  have htotal := (h firstDay [sendMoney 18446744073709551586] sound_firstDay).1.1
  exact absurd htotal (by decide)

end ZerosCore.Mails
