/-
# The logon handlers

`_HandleLogonChallenge`, `_HandleLogonProof`, `_HandleReconnectChallenge`,
`_HandleReconnectProof`, `_HandleRealmList` and `_SetVSFields`
(`src/server/authserver/Server/AuthSocket.cpp`), with the client builds of
`Authentication/AuthCodes.cpp` and the byte order of `BigNumber.cpp`.

A client names an account in a challenge and is given the values of the SRP6
exchange, `s` and `B`; its proof shows that it knows the password, and the
session key `K` is stored for the account.  A reconnect challenge and its proof
do the same with the stored session key.  With either proof the client is
authenticated and may ask for the realm list.

The account name, the values of the exchange, the session key and the flag
`_authed` are separate fields.  A challenge writes `_login` first and the values
of the exchange last, behind every check that may end it early.

SHA1 and the modular power are parameters.  The database, the random numbers and
the memory behind a digest belong to the world around the connection, which may
change them between two messages.  Of the database only the columns that the
handlers read are kept; the contents of the realm list are left out.  `log`
records what the handlers did; no handler reads it.
-/

import ZerosCore.Auth.Framing

namespace ZerosCore.AuthSocket

/-- The name of an account, as the bytes that the client sent. -/
abbrev Name := List UInt8

/-! ### Numbers and digests -/

/-- The functions of the cryptographic library: `SHA1` and `BN_mod_exp`. -/
structure Crypto where
  sha : List UInt8 → List UInt8
  modExp : ℕ → ℕ → ℕ → ℕ

/-- The bytes of a number from the lowest on, without leading zeros. -/
def littleEndian : ℕ → ℕ → List UInt8
  | 0, _ => []
  | fuel + 1, n => if n = 0 then [] else UInt8.ofNat n :: littleEndian fuel (n / 256)

/-- `BigNumber::AsByteArray`.  The bytes are padded at the end and then reversed, so that the
padding comes first. -/
def asByteArray (n : ℕ) (minSize : ℕ) : List UInt8 :=
  List.replicate (minSize - (littleEndian n n).length) 0 ++ littleEndian n n

def setBinary (bytes : List UInt8) : ℕ := bytes.foldr (fun b n => b.toNat + 256 * n) 0

/-- The bytes that `UpdateBigNumbers` hands to a digest. -/
def numberBytes (ns : List ℕ) : List UInt8 := ns.flatMap (asByteArray · 0)

/-- A string of hexadecimal digits: how long it is, and the number it stands for. -/
structure HexStr where
  size : ℕ
  value : ℕ

def asHexStr (n : ℕ) : HexStr := ⟨if n = 0 then 1 else 2 * (littleEndian n n).length, n⟩

/-! ### The world around a connection -/

/-- A row of the table `account`, with its `gmlevel` left out. -/
structure Account where
  id : ℕ
  shaPassHash : ℕ
  locked : Bool
  lastIp : List UInt8
  v : HexStr
  s : HexStr
  sessionKey : HexStr
  failedLogins : ℕ

/-- An active ban: `permanent` when `bandate` is `unbandate`. -/
inductive Ban
  | permanent
  | temporary

/-- The login database; `ipBanned` is about the address of this client. -/
structure Database where
  ipBanned : Bool
  account : Name → Option Account
  banned : ℕ → Option Ban

/-- `UPDATE account SET … WHERE username = ?`. -/
def Database.update (db : Database) (name : Name) (f : Account → Account) : Database :=
  { db with account := Function.update db.account name ((db.account name).map f) }

/-- What the handlers take from around them: the database, the random numbers to come, and what
lies in memory behind a digest of fewer than 20 bytes. -/
structure World where
  db : Database
  random : ℕ → ℕ
  behind : List UInt8

/-- `WrongPass.MaxCount` and `WrongPass.BanType`. -/
structure Config where
  maxWrongPassCount : ℕ
  wrongPassBanType : Bool

/-! ### The connection -/

/-- The values of an SRP6 exchange. -/
structure Srp where
  s : ℕ
  v : ℕ
  b : ℕ
  B : ℕ
  deriving DecidableEq

/-- `eExpFlags`. -/
inductive ExpVersion
  | postBC
  | preBC
  | noValid
  deriving DecidableEq

/-- What the handlers did. -/
inductive Entry
  /-- A challenge named an account and, if it passed its checks, set the values up. -/
  | challenge (account : Name) (setUp : Option Srp)
  /-- A logon proof was accepted with these values, and `K` stored for the account. -/
  | accepted (account : Name) (srp : Srp) (K : ℕ)
  /-- A reconnect proof was accepted. -/
  | reconnected (account : Name)
  /-- The realm list was sent. -/
  | served (account : Name)
  deriving DecidableEq

/-- The packets to the client. -/
inductive Reply
  | challengeBanned
  | challengeSuspended
  | challengeUnknownAccount
  | challenge (acceptedBuild : Bool) (B s unk3 : ℕ)
  | proofFailed
  | proof (expversion : ExpVersion) (M2 : List UInt8)
  | reconnectChallenge (reconnectProof : ℕ)
  | reconnectProof
  | realmList (id : ℕ)
  deriving DecidableEq

/-- The fields of an `AuthSocket`, with the world around it. -/
structure Conn where
  login : Name
  srp : Srp
  K : ℕ
  reconnectProof : ℕ
  authed : Bool
  build : ℕ
  expversion : ExpVersion
  remoteAddress : List UInt8
  world : World
  sent : List Reply
  log : List Entry

/-- A fresh connection: the numbers are zero, `_build` and `_expversion` are not set. -/
def Conn.start (build : ℕ) (expversion : ExpVersion) (remoteAddress : List UInt8)
    (world : World) : Conn :=
  ⟨[], ⟨0, 0, 0, 0⟩, 0, 0, false, build, expversion, remoteAddress, world, [], []⟩

/-! ### Reading a challenge -/

/-- A string of C in a buffer that ends with a zero byte. -/
def cString (bytes : List UInt8) : List UInt8 := bytes.takeWhile (· ≠ 0)

/-- The fields of `sAuthLogonChallenge_C`; `os` is read as a string and may run on into the next
fields. -/
def challengeBuild (bytes : List UInt8) : ℕ :=
  (bytes.getD 11 0).toNat + (bytes.getD 12 0).toNat * 2 ^ 8
def challengeOs (bytes : List UInt8) : List UInt8 := cString (bytes.drop 17)
def challengeName (bytes : List UInt8) : Name := cString (bytes.drop 34)

/-- `PostBcAcceptedClientBuilds` and `PreBcAcceptedClientBuilds`. -/
def postBcAcceptedClientBuilds : List ℕ :=
  [15595, 14545, 13623, 12340, 11723, 11403, 11159, 10505, 9947, 8606]
def preBcAcceptedClientBuilds : List ℕ := [6005, 5875]

def expversionOf (build : ℕ) : ExpVersion :=
  if build ∈ postBcAcceptedClientBuilds then .postBC
  else if build ∈ preBcAcceptedClientBuilds then .preBC
  else .noValid

def isAcceptedClientBuild (build : ℕ) : Bool :=
  build ∈ postBcAcceptedClientBuilds || build ∈ preBcAcceptedClientBuilds

/-! ### The challenges -/

/-- The modulus and the generator of the exchange. -/
def N : ℕ := 0x894B645E89E1535BBDAD5B8B290650530801B18EBFBF5E8FAB3C82872A3E9BB7
def g : ℕ := 7

variable (c : Crypto)

/-- `_SetVSFields`: the verifier for the password hash `rI` and a fresh salt. -/
def setVSFields (salt rI : ℕ) : ℕ :=
  let I := littleEndian rI rI
  let mDigest := (if I.length ≤ 20 then I ++ List.replicate (20 - I.length) 0
    else List.replicate 20 0).reverse
  c.modExp g (setBinary (c.sha (asByteArray salt 0 ++ mDigest))) N

/-- How the checks of a logon challenge end. -/
inductive Verdict
  | banned
  | suspended
  | unknownAccount
  | passed (account : Account)

/-- The checks of `_HandleLogonChallenge`: the address is not banned, the account exists, is not
locked to another address and not banned. -/
def challengeChecks (db : Database) (remoteAddress : List UInt8) (name : Name) : Verdict :=
  if db.ipBanned then .banned
  else
    match db.account name with
    | none => .unknownAccount
    | some account =>
      if account.locked ∧ account.lastIp ≠ remoteAddress then .suspended
      else
        match db.banned account.id with
        | some .permanent => .banned
        | some .temporary => .suspended
        | none => .passed account

/-- `s` and `v` of an account, from the database if both have 64 digits there. -/
def accountVS (account : Account) (salt : ℕ) : ℕ × ℕ :=
  if account.v.size ≠ 64 ∨ account.s.size ≠ 64 then (salt, setVSFields c salt account.shaPassHash)
  else (account.s.value, account.v.value)

/-- The database behind the challenge of an account. -/
def storeVS (db : Database) (name : Name) (account : Account) (salt : ℕ) : Database :=
  if account.v.size ≠ 64 ∨ account.s.size ≠ 64 then
    db.update name fun a =>
      { a with v := asHexStr (setVSFields c salt account.shaPassHash), s := asHexStr salt }
  else db

/-- The values of the exchange for an account: `b` is random. -/
def setUp (account : Account) (salt b : ℕ) : Srp :=
  let vs := accountVS c account salt
  ⟨vs.1, vs.2, b, (vs.2 * 3 + c.modExp g b N) % N⟩

def handleLogonChallenge (s : Conn) (bytes : List UInt8) : Conn × Answer :=
  let name := challengeName bytes
  let s := { s with
    login := name
    build := challengeBuild bytes
    expversion := expversionOf (challengeBuild bytes) }
  if 4 < (challengeOs bytes).length then
    ({ s with log := .challenge name none :: s.log }, ⟨false, false⟩)
  else
    match challengeChecks s.world.db s.remoteAddress name with
    | .banned =>
      ({ s with sent := s.sent ++ [.challengeBanned], log := .challenge name none :: s.log },
        ⟨true, false⟩)
    | .suspended =>
      ({ s with sent := s.sent ++ [.challengeSuspended], log := .challenge name none :: s.log },
        ⟨true, false⟩)
    | .unknownAccount =>
      ({ s with
          sent := s.sent ++ [.challengeUnknownAccount]
          log := .challenge name none :: s.log },
        ⟨true, false⟩)
    | .passed account =>
      let srp := setUp c account (s.world.random 0) (s.world.random 1)
      ({ s with
          srp := srp
          world := { s.world with
            db := storeVS c s.world.db name account (s.world.random 0)
            random := fun i => s.world.random (i + 3) }
          sent := s.sent ++
            [.challenge (isAcceptedClientBuild s.build) srp.B srp.s (s.world.random 2)]
          log := .challenge name (some srp) :: s.log },
        ⟨true, false⟩)

def handleReconnectChallenge (s : Conn) (bytes : List UInt8) : Conn × Answer :=
  let name := challengeName bytes
  let s := { s with login := name, log := .challenge name none :: s.log }
  match s.world.db.account name with
  | none => (s, ⟨false, true⟩)
  | some account =>
    let s := { s with
      build := challengeBuild bytes
      expversion := expversionOf (challengeBuild bytes) }
    if 4 < (challengeOs bytes).length then (s, ⟨false, false⟩)
    else
      ({ s with
          K := account.sessionKey.value
          reconnectProof := s.world.random 0
          world := { s.world with random := fun i => s.world.random (i + 1) }
          sent := s.sent ++ [.reconnectChallenge (s.world.random 0)] },
        ⟨true, false⟩)

/-! ### The proofs -/

/-- The session key for a client that sent `A`. -/
def sessionKey (srp : Srp) (A : ℕ) : ℕ :=
  let u := setBinary (c.sha (numberBytes [A, srp.B]))
  let S := c.modExp (A * c.modExp srp.v u N) srp.b N
  let t := asByteArray S 32
  let half := fun (o : ℕ) => c.sha ((List.range 16).map fun i => t.getD (i * 2 + o) 0)
  setBinary ((List.range 20).flatMap fun i => [(half 0).getD i 0, (half 1).getD i 0])

/-- `M`, which the client has to send as `M1`. -/
def expectedM (login : Name) (srp : Srp) (A K : ℕ) : ℕ :=
  let t3 := setBinary (List.zipWith (· ^^^ ·) (c.sha (numberBytes [N])) (c.sha (numberBytes [g])))
  setBinary (c.sha (numberBytes [t3] ++ c.sha login ++ numberBytes [srp.s, A, srp.B, K]))

/-- The fields `A` and `M1` of a logon proof. -/
def proofA (bytes : List UInt8) : ℕ := setBinary ((bytes.drop 1).take 32)
def proofM1 (bytes : List UInt8) : List UInt8 := (bytes.drop 33).take 20

/-- The proof gets as far as the SRP6 calculation. -/
def proofCalculated (s : Conn) (bytes : List UInt8) : Prop :=
  s.expversion ≠ .noValid ∧ proofA bytes ≠ 0

instance (s : Conn) (bytes : List UInt8) : Decidable (proofCalculated s bytes) := by
  unfold proofCalculated
  infer_instance

/-- The comparison of `M` with `M1`: 20 bytes are compared, also of an `M` that has fewer. -/
def proofMatches (s : Conn) (bytes : List UInt8) : Prop :=
  let A := proofA bytes
  (asByteArray (expectedM c s.login s.srp A (sessionKey c s.srp A)) 0 ++ s.world.behind).take 20 =
    proofM1 bytes

instance (s : Conn) (bytes : List UInt8) : Decidable (proofMatches c s bytes) := by
  unfold proofMatches
  infer_instance

/-- The count of failed logins of an account, and the ban when it reaches the limit. -/
def recordFailedLogin (config : Config) (db : Database) (name : Name) : Database :=
  if config.maxWrongPassCount = 0 then db
  else
    let db := db.update name fun a => { a with failedLogins := a.failedLogins + 1 }
    match db.account name with
    | none => db
    | some account =>
      if account.failedLogins < config.maxWrongPassCount then db
      else if config.wrongPassBanType then
        let ban := (db.banned account.id).or (some .temporary)
        { db with banned := Function.update db.banned account.id ban }
      else { db with ipBanned := true }

def handleLogonProof (config : Config) (s : Conn) (bytes : List UInt8) : Conn × Answer :=
  if proofCalculated s bytes then
    let A := proofA bytes
    -- `K` is overwritten whether the proof is right or not
    let K := sessionKey c s.srp A
    if proofMatches c s bytes then
      let M := expectedM c s.login s.srp A K
      ({ s with
          K := K
          authed := true
          world := { s.world with db := s.world.db.update s.login fun a =>
              { a with sessionKey := asHexStr K, lastIp := s.remoteAddress, failedLogins := 0 } }
          sent := s.sent ++ [.proof s.expversion (c.sha (numberBytes [A, M, K]))]
          log := .accepted s.login s.srp K :: s.log },
        ⟨true, false⟩)
    else
      ({ s with
          K := K
          world := { s.world with db := recordFailedLogin config s.world.db s.login }
          sent := s.sent ++ [.proofFailed] },
        ⟨true, false⟩)
  else (s, ⟨true, true⟩)

/-- The comparison with `R2`. -/
def reconnectMatches (s : Conn) (bytes : List UInt8) : Prop :=
  let R1 := setBinary ((bytes.drop 1).take 16)
  c.sha (s.login ++ numberBytes [R1, s.reconnectProof, s.K]) = (bytes.drop 17).take 20

instance (s : Conn) (bytes : List UInt8) : Decidable (reconnectMatches c s bytes) := by
  unfold reconnectMatches
  infer_instance

def handleReconnectProof (s : Conn) (bytes : List UInt8) : Conn × Answer :=
  if s.login = [] ∨ s.reconnectProof = 0 ∨ s.K = 0 then (s, ⟨false, false⟩)
  else if reconnectMatches c s bytes then
    ({ s with
        authed := true
        sent := s.sent ++ [.reconnectProof]
        log := .reconnected s.login :: s.log },
      ⟨true, false⟩)
  else (s, ⟨false, true⟩)

/-- `_HandleRealmList`, for a client that is authenticated. -/
def handleRealmList (s : Conn) : Conn × Answer :=
  match s.world.db.account s.login with
  | none => (s, ⟨false, true⟩)
  | some account =>
    ({ s with sent := s.sent ++ [.realmList account.id], log := .served s.login :: s.log },
      ⟨true, false⟩)

/-! ### The connection as a whole -/

/-- The handlers, as `OnRead` calls them. -/
def handlers (config : Config) : Handlers Conn where
  authed := Conn.authed
  handle s command bytes :=
    match command with
    | .logonChallenge => handleLogonChallenge c s bytes
    | .logonProof => handleLogonProof c config s bytes
    | .reconnectChallenge => handleReconnectChallenge s bytes
    | .reconnectProof => handleReconnectProof c s bytes
    | .realmList => handleRealmList s
    | .xferAccept | .xferResume => (s, ⟨false, false⟩)
    | .xferCancel => (s, ⟨true, true⟩)

/-- What may happen on a connection. -/
inductive Event
  /-- The client sends a complete message. -/
  | message (bytes : List UInt8)
  /-- The world around the connection changes. -/
  | world (w : World)

/-- One event.  A message is given to its handler as in a round of `OnRead`. -/
def step (config : Config) (s : Conn) : Event → Conn
  | .message bytes =>
    match bytes.head?.bind (findCommand s.authed) with
    | none => s
    | some command => ((handlers c config).handle s command bytes).1
  | .world w => { s with world := w }

end ZerosCore.AuthSocket
