/-
# The login queue

`World::AddSession_`, `HasRecentlyDisconnected`, `AddQueuedPlayer`,
`RemoveQueuedPlayer` and the removal of ended sessions in `UpdateSessions`
(`src/server/game/World/World.cpp`).

A session is an object with an address; here the address is the number of sessions
that were made before it, so addresses also tell the order of arrival.
`m_QueuedPlayer` holds addresses and `m_sessions` the sessions under their accounts.
The flag `exempt` is not a field of `WorldSession`: it records that a session was let
in over the limit while its account had in fact disconnected less than the
configured time before.  The packets to the client and the statistics of the largest
counts are not modelled.
-/

import ZerosCore.Lib.Keyed

namespace ZerosCore.LoginQueue

open Lib.Keyed

structure WorldSession where
  ptr : ℕ
  account : ℕ
  security : ℕ
  inQueue : Bool
  exempt : Bool
  deriving DecidableEq

def isPlayerAccount (security : ℕ) : Bool := security = 0

theorem account_setInQueue (ptr : ℕ) (state : Bool) (s s' : WorldSession)
    (h : some (if s.ptr = ptr then { s with inQueue := state } else s) = some s') :
    s'.account = s.account := by
  obtain rfl := Option.some.inj h
  split_ifs <;> rfl

structure World where
  sessions : Table WorldSession.account
  queuedPlayer : List ℕ
  disconnects : List (ℕ × ℤ)
  made : ℕ

/-- `m_playerLimit` and `CONFIG_INTERVAL_DISCONNECT_TOLERANCE`. -/
structure Config where
  playerLimit : ℕ
  disconnectTolerance : ℕ

namespace World

variable (cfg : Config) (w : World)

/-- A world nobody has logged in to. -/
def empty : World := ⟨Table.empty _, [], [], 0⟩

def getActiveSessionCount : ℕ := w.sessions.rows.length - w.queuedPlayer.length

/-- `SetInQueue` on the session at an address. -/
def setInQueue (ptr : ℕ) (state : Bool) : World :=
  { w with
    sessions := w.sessions.filterMap
      (fun s => some (if s.ptr = ptr then { s with inQueue := state } else s))
      (account_setInQueue ptr state) }

/-- `HasRecentlyDisconnected`: the map is gone through until the account is found, and
entries that are not recent are dropped.  `difftime(a, b)` is `a - b`. -/
def recentlyDisconnected (tolerance account : ℕ) (now : ℤ) :
    List (ℕ × ℤ) → Bool × List (ℕ × ℤ)
  | [] => (false, [])
  | (a, t) :: l =>
    if t - now < tolerance then
      if a = account then (true, (a, t) :: l)
      else
        let (found, l) := recentlyDisconnected tolerance account now l
        (found, (a, t) :: l)
    else recentlyDisconnected tolerance account now l

def hasRecentlyDisconnected (account : ℕ) (now : ℤ) : Bool × World :=
  if cfg.disconnectTolerance ≠ 0 then
    let (found, l) := recentlyDisconnected cfg.disconnectTolerance account now w.disconnects
    (found, { w with disconnects := l })
  else (false, w)

/-- `m_disconnects[account] = now`. -/
def noteDisconnect (account : ℕ) (now : ℤ) : World :=
  { w with disconnects := (account, now) :: w.disconnects.filter fun x => x.1 ≠ account }

def addQueuedPlayer (ptr : ℕ) : World :=
  { w.setInQueue ptr true with queuedPlayer := w.queuedPlayer ++ [ptr] }

/-- The first in the queue is let in. -/
def popQueued : World :=
  match w.queuedPlayer with
  | [] => w
  | p :: ps => { w.setInQueue p false with queuedPlayer := ps }

/-- `RemoveQueuedPlayer`: whether the session was queued, and the world without it in the
queue, the first of the others let in if there is room. -/
def removeQueuedPlayer (ptr : ℕ) : Bool × World :=
  let sessions := w.getActiveSessionCount
  let found := ptr ∈ w.queuedPlayer
  let w := if found then
      { w.setInQueue ptr false with queuedPlayer := w.queuedPlayer.erase ptr } else w
  -- a session that was not queued is counted among the active ones and on its way out
  let sessions := if ¬ found ∧ sessions ≠ 0 then sessions - 1 else sessions
  if (cfg.playerLimit = 0 ∨ sessions < cfg.playerLimit) ∧ w.queuedPlayer ≠ [] then
    (found, w.popQueued)
  else (found, w)

/-- The account has disconnected less than the configured time ago. -/
def trulyRecent (account : ℕ) (now : ℤ) : Bool :=
  w.disconnects.any fun x => x.1 = account ∧ now - x.2 < cfg.disconnectTolerance

/-- The second half of `AddSession_`: the new session goes into the map and is let in or
queued. -/
def enter (account security : ℕ) (decrease : Bool) (now : ℤ) : World :=
  let ptr := w.made
  let insert (exempt : Bool) (w : World) : World :=
    { w with sessions := w.sessions.put ⟨ptr, account, security, false, exempt⟩, made := ptr + 1 }
  let sessions := (w.sessions.put ⟨ptr, account, security, false, false⟩).rows.length
  let sessions := if decrease then sessions - 1 else sessions
  if 0 < cfg.playerLimit ∧ cfg.playerLimit ≤ sessions ∧ isPlayerAccount security then
    let (recent, w') := w.hasRecentlyDisconnected cfg account now
    if recent then insert (w.trulyRecent cfg account now) w'
    else (insert false w').addQueuedPlayer ptr
  else insert false w

/-- `AddSession_` of a new session of an account.  `loading` says that the session this
account has already is loading a character; the new one is then refused. -/
def addSession (account security : ℕ) (loading : Bool) (now : ℤ) : World :=
  match w.sessions.get? account with
  | none => w.enter cfg account security true now
  | some old =>
    if loading then { w with made := w.made + 1 }
    else
      let (found, w) := w.removeQueuedPlayer cfg old.ptr
      -- the old session is deleted and replaced in the map
      { w with sessions := w.sessions.erase account }.enter cfg account security (!found) now

/-- The removal of a session that has ended, in `UpdateSessions`. -/
def removeSession (account : ℕ) (now : ℤ) : World :=
  match w.sessions.get? account with
  | none => w
  | some s =>
    let (found, w) := w.removeQueuedPlayer cfg s.ptr
    let w := if ¬ found ∧ cfg.disconnectTolerance ≠ 0 then w.noteDisconnect account now else w
    let (_, w) := w.removeQueuedPlayer cfg s.ptr
    { w with sessions := w.sessions.erase account }

end World

/-- A login or the end of a session. -/
inductive Event where
  | add (account security : ℕ) (loading : Bool) (now : ℤ)
  | remove (account : ℕ) (now : ℤ)

def step (cfg : Config) (w : World) : Event → World
  | .add account security loading now => w.addSession cfg account security loading now
  | .remove account now => w.removeSession cfg account now

end ZerosCore.LoginQueue
