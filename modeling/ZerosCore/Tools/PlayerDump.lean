/-
# Dumps of a character

Model of `src/server/game/Tools/PlayerDump.h` and `PlayerDump.cpp`: `GetDump` writes the rows of
a character's tables, one line each, and `LoadDump` reads the lines back under new ids.

A row is the values of its columns, counted from 0 as `Fetch` does; what a column holds beside an
id is never read, and stands as a number too.  A line is a row with its table: its text is read
back column by column, and the columns that are read or changed come before those of free text.
The length of the text is a parameter, `lineLength`, since `LoadDump` reads lines into a buffer.

The queries for the rows of many guids are split by the length of their text, and a query that
does not fit the buffer of `PQuery` (`src/server/shared/Database/DatabaseWorkerPool.h`) finds
nothing.  What the rest of the server gives `LoadDump`, the new ids and the names taken, is a
`LoadEnv`.
-/

import Mathlib.Algebra.Ring.Nat
import Mathlib.Data.List.Sort
import ZerosCore.Lib.Numbering

namespace ZerosCore.PlayerDump

open Lib

inductive DumpTableType where
  | character
  | charTable
  | eqsetTable
  | inventory
  | mail
  | mailItem
  | item
  | itemGift
  | pet
  | petTable
deriving DecidableEq

inductive Table where
  | characters
  | characterAccountData
  | characterAchievement
  | characterAchievementProgress
  | characterAction
  | characterAura
  | characterCurrency
  | characterCufProfiles
  | characterDeclinedname
  | characterEquipmentsets
  | characterGifts
  | characterGlyphs
  | characterHomebind
  | characterInventory
  | characterPet
  | characterPetDeclinedname
  | characterQueststatus
  | characterQueststatusRewarded
  | characterReputation
  | characterSkills
  | characterSpell
  | characterSpellCooldown
  | characterTalent
  | itemInstance
  | mail
  | mailItems
  | petAura
  | petSpell
  | petSpellCooldown
deriving DecidableEq

open Table in
/-- `dumpTables`, in order -/
def dumpTables : List Table :=
  [characters, characterAccountData, characterAchievement, characterAchievementProgress,
    characterAction, characterAura, characterCurrency, characterCufProfiles,
    characterDeclinedname, characterEquipmentsets, characterGifts, characterGlyphs,
    characterHomebind, characterInventory, characterPet, characterPetDeclinedname,
    characterQueststatus, characterQueststatusRewarded, characterReputation, characterSkills,
    characterSpell, characterSpellCooldown, characterTalent, itemInstance, mail, mailItems,
    petAura, petSpell, petSpellCooldown]

/-- The type of a table in `dumpTables` -/
def Table.type : Table → DumpTableType
  | .characters => .character
  | .characterEquipmentsets => .eqsetTable
  | .characterGifts => .itemGift
  | .characterInventory => .inventory
  | .characterPet | .characterPetDeclinedname => .pet
  | .itemInstance => .item
  | .mail => .mail
  | .mailItems => .mailItem
  | .petAura | .petSpell | .petSpellCooldown => .petTable
  | _ => .charTable

/-- The name of a table whose rows are found by a set of guids; it counts to the length of the
query. -/
def Table.name : Table → String
  | .characterGifts => "character_gifts"
  | .itemInstance => "item_instance"
  | .mailItems => "mail_items"
  | .petAura => "pet_aura"
  | .petSpell => "pet_spell"
  | .petSpellCooldown => "pet_spell_cooldown"
  | _ => ""

abbrev Row := ℕ → ℕ

abbrev Database := Table → List Row

structure Line where
  table : Table
  row : Row

/-! ### Writing -/

/-- `std::set::insert`; a set is the list of its elements in order. -/
def insertGuid (g : ℕ) (guids : List ℕ) : List ℕ :=
  if g ∈ guids then guids else guids.orderedInsert (· ≤ ·) g

/-- The sets of a `PlayerDumpWriter` -/
structure Guids where
  pets : List ℕ
  mails : List ℕ
  items : List ℕ

/-- `fieldname`, with the column it is in -/
def Table.field (t : Table) : String × ℕ :=
  match t.type with
  | .item => ("guid", 0)
  | .itemGift => ("item_guid", 1)
  | .pet => ("owner", if t = .characterPet then 2 else 1)
  | .petTable => ("guid", 0)
  | .mail => ("receiver", 5)
  | .mailItem => ("mail_id", 0)
  | _ => ("guid", 0)

/-- The set of guids a table's rows are found by, if it is not the character's guid. -/
def Guids.guids (s : Guids) (t : Table) : Option (List ℕ) :=
  match t.type with
  | .item | .itemGift => some s.items
  | .petTable => some s.pets
  | .mailItem => some s.mails
  | _ => none

def maxQueryLen : ℕ := 32 * 1024

def decimalLength (n : ℕ) : ℕ := (Nat.repr n).length

/-- The parts `GenerateWhereStr` cuts a list of guids in, each with the length of its text
without the closing `')`.  `acc` and `len` are what the current part has so far. -/
def whereParts (start : ℕ) : List ℕ → List ℕ → ℕ → List (List ℕ × ℕ)
  | [], _, _ => []
  | g :: gs, acc, len =>
    if len + decimalLength g > maxQueryLen - 50 then
      (acc ++ [g], len + decimalLength g) :: whereParts start gs [] start
    else if gs = [] then [(acc ++ [g], len + decimalLength g)]
    else whereParts start gs (acc ++ [g]) (len + decimalLength g + 4)

/-- The parts for a table: `field IN ('` starts each. -/
def Table.parts (t : Table) (guids : List ℕ) : List (List ℕ × ℕ) :=
  whereParts (t.field.1.length + 6) guids [] (t.field.1.length + 6)

/-- The rows a query of one part finds: `SELECT * FROM t WHERE …`, cut off by `vsnprintf` when
it is too long for the buffer. -/
def partRows (D : Database) (t : Table) (part : List ℕ × ℕ) : List Row :=
  if 14 + t.name.length + 7 + part.2 + 2 < maxQueryLen then
    (D t).filter fun r => r t.field.2 ∈ part.1
  else []

/-- The loop of `DumpTable` over the parts: it ends at the first that finds nothing. -/
def dumpParts (D : Database) (t : Table) : List (List ℕ × ℕ) → List Row
  | [] => []
  | part :: parts =>
    if (partRows D t part).isEmpty then [] else partRows D t part ++ dumpParts D t parts

/-- The rows `DumpTable` writes. -/
def dumpRows (D : Database) (guid : ℕ) (s : Guids) (t : Table) : List Row :=
  match s.guids t with
  | some guids => dumpParts D t (t.parts guids)
  | none => (D t).filter fun r => r t.field.2 = guid

/-- `StoreGUID` of a column of every row -/
def storeGuids (column : ℕ) (rows : List Row) (guids : List ℕ) : List ℕ :=
  rows.foldl (fun guids r => if r column = 0 then guids else insertGuid (r column) guids) guids

/-- What `DumpTable` collects from the rows. -/
def Guids.collect (s : Guids) (t : Table) (rows : List Row) : Guids :=
  match t.type with
  | .inventory => { s with items := storeGuids 3 rows s.items }
  | .pet => { s with pets := storeGuids 0 rows s.pets }
  | .mail => { s with mails := storeGuids 0 rows s.mails }
  | .mailItem => { s with items := storeGuids 1 rows s.items }
  | _ => s

/-- `PlayerDumpWriter::DumpTable`; a deleted character is not dumped. -/
def dumpTable (D : Database) (guid : ℕ) (s : Guids × List Line) (t : Table) :
    Option (Guids × List Line) :=
  let rows := dumpRows D guid s.1 t
  if t.type = .character ∧ rows.any (fun r => r 64 ≠ 0) then none
  else some (s.1.collect t rows, s.2 ++ rows.map (Line.mk t))

/-- `PlayerDumpWriter::GetDump` -/
def getDump (D : Database) (guid : ℕ) : Option (List Line) :=
  (dumpTables.foldlM (dumpTable D guid) (⟨[], [], []⟩, [])).map Prod.snd

/-! ### Reading -/

/-- What `LoadDump` is given: the ids to start from, the account, the name, if a new one is to be
used, and which names are taken. -/
structure LoadEnv where
  guid : ℕ
  account : ℕ
  name : Option ℕ
  nameTaken : ℕ → Bool
  hiItemGuid : ℕ
  mailId : ℕ
  hiPetNumber : ℕ
  equipmentSetGuid : ℕ
  /-- the length of the line's text, without its end -/
  lineLength : Line → ℕ

/-- The variables of `LoadDump` -/
structure LoadState where
  items : List (ℕ × ℕ)
  mails : List (ℕ × ℕ)
  petids : List (ℕ × ℕ)
  newpetid : ℕ
  lastpetid : Option ℕ
  hiPetNumber : ℕ
  equipmentSetGuid : ℕ

/-- `changenth`, with the column counted from 1 -/
def changenth (r : Row) (n value : ℕ) : Row := Function.update r (n - 1) value

def registerNewGuid (oldGuid : ℕ) (guidMap : List (ℕ × ℕ)) (hiGuid : ℕ) : List (ℕ × ℕ) × ℕ :=
  Numbering.register hiGuid guidMap oldGuid

def changeGuid (r : Row) (n : ℕ) (guidMap : List (ℕ × ℕ)) (hiGuid : ℕ) (nonzero : Bool) :
    Row × List (ℕ × ℕ) :=
  if nonzero ∧ r (n - 1) = 0 then (r, guidMap)
  else
    let new := registerNewGuid (r (n - 1)) guidMap hiGuid
    (changenth r n new.2, new.1)

/-- A character's row: its guid and account, a name or the flag to choose one at login, and the
columns about its deletion, which become null. -/
def loadCharacter (env : LoadEnv) (r : Row) : Row :=
  let r := changenth (changenth r 1 env.guid) 2 env.account
  let r := match env.name with
    | some name => changenth r 3 name
    | none => if env.nameTaken (r 2) then changenth r 38 1 else r
  changenth (changenth (changenth r 63 0) 64 0) 65 0

/-- The ids of a pet's row: a new number when the pet is not the last one. -/
def loadPet (env : LoadEnv) (st : LoadState) (r : Row) : LoadState × Row :=
  let new := Numbering.nextRun st.lastpetid st.newpetid st.hiPetNumber (r 0)
  let petids := match st.petids.lookup (r 0) with
    | some _ => st.petids
    | none => st.petids ++ [(r 0, new.1)]
  ({ st with newpetid := new.1, lastpetid := some (r 0), hiPetNumber := new.2, petids := petids },
    changenth (changenth r 1 new.1) 3 env.guid)

/-- The data of a line changed to the server's values; `none` is `ROLLBACK`. -/
def loadRow (env : LoadEnv) (st : LoadState) (t : Table) (r : Row) : Option (LoadState × Row) :=
  match t.type with
  | .character => some (st, loadCharacter env r)
  | .charTable => some (st, changenth r 1 env.guid)
  | .eqsetTable =>
    some ({ st with equipmentSetGuid := st.equipmentSetGuid + 1 },
      changenth (changenth r 1 env.guid) 2 st.equipmentSetGuid)
  | .inventory =>
    let bag := changeGuid (changenth r 1 env.guid) 2 st.items env.hiItemGuid true
    let item := changeGuid bag.1 4 bag.2 env.hiItemGuid false
    some ({ st with items := item.2 }, item.1)
  | .mail =>
    let id := changeGuid r 1 st.mails env.mailId false
    some ({ st with mails := id.2 }, changenth id.1 6 env.guid)
  | .mailItem =>
    let id := changeGuid r 1 st.mails env.mailId false
    let item := changeGuid id.1 2 st.items env.hiItemGuid false
    some ({ st with mails := id.2, items := item.2 }, changenth item.1 3 env.guid)
  | .item =>
    let item := changeGuid r 1 st.items env.hiItemGuid false
    some ({ st with items := item.2 }, changenth item.1 3 env.guid)
  | .itemGift =>
    let item := changeGuid (changenth r 1 env.guid) 2 st.items env.hiItemGuid false
    some ({ st with items := item.2 }, item.1)
  | .pet => some (loadPet env st r)
  | .petTable =>
    match st.petids.lookup (r 0) with
    | some id => some ({ st with newpetid := id }, changenth r 1 id)
    | none => none

/-- The size of the buffer `fgets` reads into. -/
def lineBuffer : ℕ := 32000

/-- The loop of `LoadDump`: the rest of a line that does not fit the buffer is no line. -/
def loadLines (env : LoadEnv) : LoadState → List Line → Option (LoadState × List Line)
  | st, [] => some (st, [])
  | st, l :: ls =>
    if env.lineLength l < lineBuffer then
      (loadRow env st l.table l.row).bind fun r =>
        (loadLines env r.1 ls).map fun rest => (rest.1, ⟨l.table, r.2⟩ :: rest.2)
    else none

/-- `PlayerDumpReader::LoadDump`: a first pet number is taken before the lines are read. -/
def loadDump (env : LoadEnv) (dump : List Line) : Option (List Line) :=
  (loadLines env ⟨[], [], [], env.hiPetNumber + 1, none, env.hiPetNumber + 1,
    env.equipmentSetGuid⟩ dump).map Prod.snd

end ZerosCore.PlayerDump
