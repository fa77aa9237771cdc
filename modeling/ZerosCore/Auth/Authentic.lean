/-
# Whose proof was accepted

The log of a connection is authentic when every logon proof that was accepted,
and whose session key was stored for an account, used values of an exchange that
a challenge for that same account had set up, having passed its checks; and when
every realm list was sent for an account with an accepted proof.

The code does not see to it.  A challenge that ends early, and every reconnect
challenge, leaves the values of the exchange as they are but has written `_login`
already; the next proof is then checked with the name of one account and the
values of another, or with the zeros of a fresh connection, for which no password
is needed.  `_authed` likewise outlives a change of `_login`.

The log is authentic just when the client keeps the order that the code takes for
granted: at a logon proof that matches, the challenge that passed last is for the
account that was named last, and at a request for the realm list that account has
an accepted proof.
-/

import ZerosCore.Lib.Run
import ZerosCore.Auth.Logon

namespace ZerosCore.AuthSocket

open Lib

/-! ### Reading a log, the newest entry first -/

/-- The account that was named last, empty before the first challenge. -/
def named : List Entry → Name
  | [] => []
  | .challenge account _ :: _ => account
  | _ :: log => named log

/-- The challenge that passed its checks last: its account, and the values that it set up. -/
def setUpLast : List Entry → Option (Name × Srp)
  | [] => none
  | .challenge account (some srp) :: _ => some (account, srp)
  | _ :: log => setUpLast log

/-- The accounts with an accepted proof. -/
def proved : List Entry → List Name
  | [] => []
  | .accepted account _ _ :: log => account :: proved log
  | .reconnected account :: log => account :: proved log
  | _ :: log => proved log

/-- **An authentic log.** -/
def Authentic : List Entry → Prop
  | [] => True
  | .accepted account srp _ :: log => Authentic log ∧ setUpLast log = some (account, srp)
  | .served account :: log => Authentic log ∧ account ∈ proved log
  | _ :: log => Authentic log

instance instDecidableAuthentic : (log : List Entry) → Decidable (Authentic log)
  | [] => .isTrue trivial
  | .accepted account srp _ :: log =>
    have := instDecidableAuthentic log
    inferInstanceAs (Decidable (Authentic log ∧ setUpLast log = some (account, srp)))
  | .served account :: log =>
    have := instDecidableAuthentic log
    inferInstanceAs (Decidable (Authentic log ∧ account ∈ proved log))
  | .challenge _ _ :: log => instDecidableAuthentic log
  | .reconnected _ :: log => instDecidableAuthentic log

/-! ### The fields behind a log -/

/-- What the fields of a connection have to do with its log. -/
structure Kept (s : Conn) : Prop where
  login : s.login = named s.log
  srp : ∀ account srp, setUpLast s.log = some (account, srp) → s.srp = srp

variable {c : Crypto} {config : Config} {s : Conn}

theorem kept_start (build : ℕ) (expversion : ExpVersion) (remoteAddress : List UInt8)
    (world : World) : Kept (Conn.start build expversion remoteAddress world) where
  login := rfl
  srp := by
    intro account srp h
    cases h

/-- What a handler may do to the fields and the log. -/
inductive Handled (c : Crypto) (s : Conn) (bytes : List UInt8) : Command → Conn → Prop
  /-- Nothing. -/
  | skip (command : Command) (s' : Conn) (hlogin : s'.login = s.login) (hsrp : s'.srp = s.srp)
      (hlog : s'.log = s.log)
      (hproof : command = .logonProof → ¬ (proofCalculated s bytes ∧ proofMatches c s bytes))
      (hlist : command = .realmList → s.world.db.account s.login = none) :
      Handled c s bytes command s'
  /-- A challenge names an account and leaves the values. -/
  | name (command : Command) (s' : Conn) (account : Name) (hlogin : s'.login = account)
      (hsrp : s'.srp = s.srp) (hlog : s'.log = .challenge account none :: s.log)
      (hcommand : command = .logonChallenge ∨ command = .reconnectChallenge) :
      Handled c s bytes command s'
  /-- A logon challenge names an account and sets the values up. -/
  | setUp (s' : Conn) (account : Name) (srp : Srp) (hlogin : s'.login = account)
      (hsrp : s'.srp = srp) (hlog : s'.log = .challenge account (some srp) :: s.log) :
      Handled c s bytes .logonChallenge s'
  /-- A logon proof is accepted. -/
  | accept (s' : Conn) (K : ℕ) (hlogin : s'.login = s.login) (hsrp : s'.srp = s.srp)
      (hlog : s'.log = .accepted s.login s.srp K :: s.log)
      (hproof : proofCalculated s bytes ∧ proofMatches c s bytes) :
      Handled c s bytes .logonProof s'
  /-- A reconnect proof is accepted. -/
  | reconnect (s' : Conn) (hlogin : s'.login = s.login) (hsrp : s'.srp = s.srp)
      (hlog : s'.log = .reconnected s.login :: s.log) : Handled c s bytes .reconnectProof s'
  /-- The realm list is sent. -/
  | serve (s' : Conn) (hlogin : s'.login = s.login) (hsrp : s'.srp = s.srp)
      (hlog : s'.log = .served s.login :: s.log) (hlist : s.world.db.account s.login ≠ none) :
      Handled c s bytes .realmList s'

variable {bytes : List UInt8}

theorem handled_logonChallenge :
    Handled c s bytes .logonChallenge (handleLogonChallenge c s bytes).1 := by
  unfold handleLogonChallenge
  dsimp only
  split
  · exact .name _ _ _ rfl rfl rfl (Or.inl rfl)
  split
  · exact .name _ _ _ rfl rfl rfl (Or.inl rfl)
  · exact .name _ _ _ rfl rfl rfl (Or.inl rfl)
  · exact .name _ _ _ rfl rfl rfl (Or.inl rfl)
  · exact .setUp _ _ _ rfl rfl rfl

theorem handled_reconnectChallenge :
    Handled c s bytes .reconnectChallenge (handleReconnectChallenge s bytes).1 := by
  unfold handleReconnectChallenge
  dsimp only
  split
  · exact .name _ _ _ rfl rfl rfl (Or.inr rfl)
  · split <;> exact .name _ _ _ rfl rfl rfl (Or.inr rfl)

theorem handled_logonProof :
    Handled c s bytes .logonProof (handleLogonProof c config s bytes).1 := by
  unfold handleLogonProof
  split
  · next hcalculated =>
    split
    · next hmatches => exact .accept _ _ rfl rfl rfl ⟨hcalculated, hmatches⟩
    next hmatches =>
    exact .skip _ _ rfl rfl rfl (fun _ h => hmatches h.2) nofun
  next hcalculated =>
  exact .skip _ _ rfl rfl rfl (fun _ h => hcalculated h.1) nofun

theorem handled_reconnectProof :
    Handled c s bytes .reconnectProof (handleReconnectProof c s bytes).1 := by
  have hskip : Handled c s bytes .reconnectProof s :=
    .skip _ _ rfl rfl rfl nofun nofun
  unfold handleReconnectProof
  split
  · exact hskip
  split
  · exact .reconnect _ rfl rfl rfl
  · exact hskip

theorem handled_realmList : Handled c s bytes .realmList (handleRealmList s).1 := by
  unfold handleRealmList
  split
  · next hnone => exact .skip _ _ rfl rfl rfl nofun (fun _ => hnone)
  next account hsome =>
  exact .serve _ rfl rfl rfl fun hnone => (by rw [hnone] at hsome; cases hsome)

/-- **What the handlers do.** -/
theorem handled (command : Command) :
    Handled c s bytes command ((handlers c config).handle s command bytes).1 := by
  cases command with
  | logonChallenge => exact handled_logonChallenge
  | logonProof => exact handled_logonProof
  | reconnectChallenge => exact handled_reconnectChallenge
  | reconnectProof => exact handled_reconnectProof
  | realmList => exact handled_realmList
  | xferAccept | xferResume | xferCancel =>
    exact .skip _ _ rfl rfl rfl nofun nofun

/-! ### The order that the code takes for granted -/

/-- The condition on a message that is given to a handler. -/
def OrderlyMessage (c : Crypto) (s : Conn) (bytes : List UInt8) : Command → Prop
  | .logonProof => proofCalculated s bytes ∧ proofMatches c s bytes →
      (setUpLast s.log).map Prod.fst = some (named s.log)
  | .realmList => s.world.db.account s.login ≠ none → named s.log ∈ proved s.log
  | _ => True

/-- **An orderly event.**  When a logon proof matches, the challenge that passed its checks last is
for the account that was named last; when the realm list is asked for, the account that was named
last has an accepted proof. -/
def Orderly (c : Crypto) (s : Conn) : Event → Prop
  | .message bytes => ∀ command ∈ bytes.head?.bind (findCommand s.authed),
      OrderlyMessage c s bytes command
  | .world _ => True

variable {command : Command} {s' : Conn}

theorem Handled.kept (h : Handled c s bytes command s') (hs : Kept s) : Kept s' := by
  cases h with
  | skip _ _ hlogin hsrp hlog =>
    exact ⟨by rw [hlogin, hlog, hs.login], by rw [hsrp, hlog]; exact hs.srp⟩
  | name _ _ account hlogin hsrp hlog =>
    exact ⟨by rw [hlogin, hlog]; rfl, by rw [hsrp, hlog]; exact hs.srp⟩
  | setUp _ account srp hlogin hsrp hlog =>
    refine ⟨by rw [hlogin, hlog]; rfl, ?_⟩
    rw [hsrp, hlog]
    rintro account' srp' heq
    exact congrArg Prod.snd (Option.some.inj heq)
  | accept _ K hlogin hsrp hlog | reconnect _ hlogin hsrp hlog | serve _ hlogin hsrp hlog =>
    exact ⟨by rw [hlogin, hlog]; exact hs.login, by rw [hsrp, hlog]; exact hs.srp⟩

theorem Kept.setUpLast_eq (hs : Kept s) : setUpLast s.log = some (s.login, s.srp) ↔
      (setUpLast s.log).map Prod.fst = some (named s.log) := by
  rw [hs.login]
  constructor
  · intro h
    rw [h]
    rfl
  intro h
  obtain ⟨⟨account, srp⟩, hlast, hname⟩ := Option.map_eq_some_iff.mp h
  rw [hlast, ← hname, hs.srp account srp hlast]

theorem Handled.authentic_iff (h : Handled c s bytes command s')
    (hs : Kept s) : Authentic s'.log ↔ Authentic s.log ∧ OrderlyMessage c s bytes command := by
  cases h with
  | skip _ _ _ _ hlog hproof hlist =>
    rw [hlog]
    refine (and_iff_left ?_).symm
    cases command with
    | logonProof => exact fun h => (hproof rfl h).elim
    | realmList => exact fun h => (h (hlist rfl)).elim
    | _ => trivial
  | name _ _ account _ _ hlog hcommand =>
    rw [hlog]
    refine (and_iff_left ?_).symm
    rcases hcommand with rfl | rfl <;> trivial
  | setUp _ account srp _ _ hlog | reconnect _ _ _ hlog =>
    rw [hlog]
    exact (and_iff_left trivial).symm
  | accept _ K _ _ hlog hproof =>
    rw [hlog]
    refine and_congr_right fun _ => ?_
    rw [hs.setUpLast_eq]
    exact ⟨fun h _ => h, fun h => h hproof⟩
  | serve _ _ _ hlog hlist =>
    rw [hlog]
    refine and_congr_right fun _ => ?_
    rw [hs.login]
    exact ⟨fun h _ => h, fun h => h hlist⟩

/-- **Every packet** keeps what the socket knows. -/
theorem Kept.step (hs : Kept s) (e : Event) : Kept (step c config s e) := by
  cases e with
  | message bytes =>
    dsimp only [AuthSocket.step]
    split
    · exact hs
    · exact (handled _).kept hs
  | world w => exact ⟨hs.login, hs.srp⟩

theorem Kept.authentic_step (hs : Kept s) (e : Event) :
    Authentic (AuthSocket.step c config s e).log ↔ Authentic s.log ∧ Orderly c s e := by
  cases e with
  | message bytes =>
    dsimp only [AuthSocket.step, Orderly]
    split
    · next hnone =>
      rw [hnone]
      exact (and_iff_left nofun).symm
    next command hsome =>
    rw [(handled command).authentic_iff hs, hsome]
    refine and_congr_right fun _ => ⟨?_, fun h => h command rfl⟩
    rintro h other hother
    obtain rfl := Option.mem_some_iff.mp hother
    exact h
  | world w => exact (and_iff_left trivial).symm

/-- **Whose proof was accepted.**  Whatever a client sends and however the database changes, the
log of the connection is authentic if and only if every event was orderly. -/
theorem authentic_iff_orderly (c : Crypto) (config : Config) (build : ℕ) (expversion : ExpVersion)
    (remoteAddress : List UInt8) (world : World) (events : List Event) :
    Authentic (events.foldl (step c config) (Conn.start build expversion remoteAddress world)).log ↔
      Along (step c config) (Orderly c) (Conn.start build expversion remoteAddress world)
        events := by
  have hstart := kept_start build expversion remoteAddress world
  have hkeep : ∀ s e, Kept s → Kept (step c config s e) := fun s e hs => hs.step e
  have hrun : ∀ {s : Conn}, Kept s → (Authentic (events.foldl (step c config) s).log ↔
        Authentic s.log ∧ Along (step c config) (Orderly c) s events) :=
    foldl_iff_along (Q := fun s : Conn => Authentic s.log) hkeep fun s e hs => hs.authentic_step e
  rw [hrun hstart]
  exact and_iff_right trivial

/-! ### A banned account -/

/-- A digest and a modular power to compute with; the power is that of the library. -/
def smallCrypto : Crypto where
  sha bytes := (List.range 20).map fun i =>
    UInt8.ofNat (bytes.foldl (fun h b => (h * 31 + b.toNat) % 65521) (i + 1))
  modExp a e n := if e = 0 then 1 % n else if a % n = 0 then 0 else a ^ e % n

/-- A database with the account `A`, which is banned for good. -/
def bannedWorld : World where
  db :=
    { ipBanned := false, account := fun name =>
        if name = [65] then some ⟨1, 0, false, [], ⟨0, 0⟩, ⟨0, 0⟩, ⟨0, 0⟩, 0⟩ else none
      banned := fun id => if id = 1 then some .permanent else none }
  random := fun _ => 5
  behind := []

/-- A logon challenge for `A` from a client of build 15595. -/
def bannedChallenge : List UInt8 :=
  [0x00, 0x08, 31, 0] ++ List.replicate 7 0 ++ [0xeb, 0x3c] ++ List.replicate 21 0 ++ [65]

/-- The proof for `A = 1`, the name `A` and values that are all zero. -/
def zeroProof : List UInt8 :=
  [0x01, 1] ++ List.replicate 31 0 ++
    [80, 34, 244, 198, 152, 106, 60, 14, 224, 178, 132, 86, 40, 250, 204, 158, 112, 66, 20, 230] ++
    List.replicate 22 0

/-- The connection behind the two messages. -/
def bannedConn : Conn :=
  [Event.message bannedChallenge, Event.message zeroProof].foldl (step smallCrypto ⟨0, false⟩)
    (Conn.start 0 .noValid [] bannedWorld)

/-- The challenge is turned down, and no password is known; the proof is accepted all the same and
its session key stored for the banned account. -/
theorem banned_account_accepted :
    bannedConn.sent.head? = some .challengeBanned ∧ bannedConn.authed = true ∧
      bannedConn.log = [.accepted [65] ⟨0, 0, 0, 0⟩ bannedConn.K, .challenge [65] none] ∧
      (bannedConn.world.db.account [65]).map (·.sessionKey.value) = some bannedConn.K ∧
      ¬ Authentic bannedConn.log := by
  decide +kernel

end ZerosCore.AuthSocket
