/-
# Wide strings

`utf8truncate`, `Utf8toWStr` and `WStrToUtf8` (`src/server/shared/Utilities/Util.cpp`) go through
strings of 16-bit units.  The room for them is counted in code points, but a code point above 0xffff
takes two units.

The byte strings are read and written by the functions of `utf8`: a string that is not valid is
thrown out, a code point above 0xffff becomes a surrogate pair and is read back from one.  All is
right just when there is no such code point (`wide_right_iff`).
-/

import Mathlib.Algebra.Ring.Nat
import Mathlib.Data.List.Basic

namespace ZerosCore.WideStrings

open List

def LEAD_OFFSET : ℕ := 0xd800 - 0x10000 / 2 ^ 10
def SURROGATE_OFFSET : ℕ := 2 ^ 32 + 0x10000 - 0xd800 * 2 ^ 10 - 0xdc00

abbrev isLeadSurrogate (cp : ℕ) : Prop := 0xd800 ≤ cp ∧ cp ≤ 0xdbff

abbrev isTrailSurrogate (cp : ℕ) : Prop := 0xdc00 ≤ cp ∧ cp ≤ 0xdfff

/-- The code points of a valid byte string, which `utf8::distance` counts. -/
def codePoints (b : ByteArray) : Option (List Char) := b.utf8Decode?.map Array.toList

/-- `utf8::append` for each code point. -/
def append (cs : List Char) : ByteArray := (cs.flatMap String.utf8EncodeChar).toByteArray

def leadOf (cp : ℕ) : ℕ := (cp / 2 ^ 10 + LEAD_OFFSET) % 2 ^ 16

def trailOf (cp : ℕ) : ℕ := (cp % 2 ^ 10 + 0xdc00) % 2 ^ 16

def pairOf (lead trail : ℕ) : ℕ := (lead * 2 ^ 10 + trail + SURROGATE_OFFSET) % 2 ^ 32

def unitsOf (c : Char) : List ℕ :=
  if 0xffff < c.toNat then [leadOf c.toNat, trailOf c.toNat] else [c.toNat]

/-- The units that `utf8::utf8to16` writes. -/
def utf8to16 (cs : List Char) : List ℕ := cs.flatMap unitsOf

/-- The code points that `utf8::utf16to8` reads, or nothing if it throws. -/
def utf16to8 : List ℕ → Option (List Char)
  | [] => some []
  | cp :: units =>
    if isLeadSurrogate cp then
      match units with
      | [] => none
      | trail :: units =>
        if isTrailSurrogate trail then (utf16to8 units).map (Char.ofNat (pairOf cp trail) :: ·)
        else none
    else if isTrailSurrogate cp then none
    else (utf16to8 units).map (Char.ofNat cp :: ·)

/-- How many units a function writes from the start of a string, and the room there is. -/
structure Writes where
  count : ℕ
  room : ℕ

/-- `utf8truncate`: the string resized to `len` keeps that many units. -/
def utf8truncate (b : ByteArray) (len : ℕ) : Writes × ByteArray :=
  match codePoints b with
  | none => (⟨0, 0⟩, .empty)
  | some cs =>
    if cs.length ≤ len then (⟨0, 0⟩, b)
    else (⟨(utf8to16 cs).length, cs.length⟩,
      match utf16to8 ((utf8to16 cs).take len) with
      | none => .empty
      | some cs => append cs)

/-- `Utf8toWStr` into a buffer of `wsize` units and one more, as all callers have it: the units up
to the new size, if there is room. -/
def utf8toBuffer (b : ByteArray) (wsize : ℕ) : Writes × Option (List ℕ) :=
  match codePoints b with
  | none => (⟨if 0 < wsize then 1 else 0, wsize + 1⟩, none)
  | some cs =>
    if wsize < cs.length then (⟨if 0 < wsize then 1 else 0, wsize + 1⟩, none)
    else (⟨max (utf8to16 cs).length (cs.length + 1), wsize + 1⟩,
      some ((utf8to16 cs).take cs.length))

/-- `Utf8toWStr` into a string, which stays as it was for no code points. -/
def utf8toWStr (b : ByteArray) (wstr : List ℕ) : Writes × Option (List ℕ) :=
  match codePoints b with
  | none => (⟨0, 0⟩, none)
  | some [] => (⟨0, 0⟩, some wstr)
  | some cs => (⟨(utf8to16 cs).length, cs.length⟩, some ((utf8to16 cs).take cs.length))

def wStrToUtf8 (wstr : List ℕ) : Option ByteArray := (utf16to8 wstr).map append

variable {b : ByteArray} {cs : List Char} {c : Char} {len wsize : ℕ} {wstr : List ℕ}

/-! ### There and back -/

theorem codePoints_eq_some : codePoints b = some cs ↔ b = append cs := by
  constructor
  · intro h
    obtain ⟨a, ha, rfl⟩ := Option.map_eq_some_iff.mp h
    have hsome : b.utf8Decode?.isSome := by rw [ha]; rfl
    have := ByteArray.utf8Encode_get_utf8Decode? (b := b) (h := hsome)
    simp only [ha, Option.get_some] at this
    exact this.symm
  rintro rfl
  exact (congrArg (Option.map Array.toList) List.utf8Decode?_utf8Encode).trans rfl

theorem append_inj {cs' : List Char} (h : append cs = append cs') : cs = cs' := by
  have := codePoints_eq_some.mpr h
  rw [codePoints_eq_some.mpr rfl] at this
  exact Option.some.inj this

theorem pairOf_units {n : ℕ} (h : 0xffff < n) (hlt : n < 0x110000) :
    isLeadSurrogate (leadOf n) ∧ isTrailSurrogate (trailOf n) ∧
      pairOf (leadOf n) (trailOf n) = n := by
  unfold leadOf trailOf pairOf LEAD_OFFSET SURROGATE_OFFSET
  omega

theorem utf16to8_unitsOf (units : List ℕ) :
    utf16to8 (unitsOf c ++ units) = (utf16to8 units).map (c :: ·) := by
  have hvalid : c.toNat < 0xd800 ∨ 0xdfff < c.toNat ∧ c.toNat < 0x110000 := c.valid
  have hc := Char.ofNat_toNat c
  generalize hn : c.toNat = n at hvalid hc
  unfold unitsOf
  rw [hn]
  split_ifs with hwide
  · obtain ⟨hlead, htrail, hback⟩ := pairOf_units hwide (by omega)
    rw [cons_append, cons_append, nil_append, utf16to8.eq_def]
    dsimp only
    rw [if_pos hlead, if_pos htrail, hback, hc]
  rw [cons_append, nil_append, utf16to8.eq_def]
  dsimp only
  rw [if_neg (by omega), if_neg (by omega), hc]

theorem utf16to8_utf8to16 (cs : List Char) : utf16to8 (utf8to16 cs) = some cs := by
  induction cs with
  | nil => rfl
  | cons c cs ih =>
    rw [utf8to16, flatMap_cons, utf16to8_unitsOf]
    exact congrArg (Option.map (c :: ·)) ih

/-- Every code point is one unit. -/
def Narrow (cs : List Char) : Prop := ∀ c ∈ cs, c.toNat ≤ 0xffff

theorem Narrow.units (h : Narrow cs) : utf8to16 cs = cs.map Char.toNat := by
  induction cs with
  | nil => rfl
  | cons c cs ih =>
    rw [utf8to16, flatMap_cons, unitsOf, if_neg (Nat.not_lt.mpr (h c mem_cons_self)), map_cons,
      ← ih fun d hd => h d (mem_cons_of_mem c hd)]
    rfl

theorem length_units_le : (utf8to16 cs).length ≤ cs.length ↔ Narrow cs := by
  refine ⟨fun h => ?_, fun h => by simp [h.units]⟩
  have hle : ∀ l : List Char, l.length ≤ (utf8to16 l).length := by
    intro l
    induction l with
    | nil => exact Nat.le_refl _
    | cons c l ih =>
      rw [utf8to16, flatMap_cons, length_append, length_cons]
      unfold utf8to16 at ih
      have : 0 < (unitsOf c).length := by
        unfold unitsOf
        split_ifs <;> simp
      omega
  intro c hc
  by_contra hwide
  obtain ⟨l, r, rfl⟩ := append_of_mem hc
  have hl := hle l
  have hr := hle r
  unfold utf8to16 at h hl hr
  simp only [flatMap_append, flatMap_cons, length_append, length_cons, unitsOf,
    if_pos (Nat.not_le.mp hwide), length_nil] at h
  omega

theorem Narrow.take (h : Narrow cs) : (utf8to16 cs).take len = utf8to16 (cs.take len) := by
  have htake : Narrow (cs.take len) := fun c hc => h c (mem_of_mem_take hc)
  rw [h.units, htake.units, map_take]

theorem eq_nil_of_utf16to8 (h : utf16to8 wstr = some []) : wstr = [] := by
  cases wstr with
  | nil => rfl
  | cons u units =>
    unfold utf16to8 at h
    split_ifs at h
    · split at h
      · cases h
      split_ifs at h
      simp at h
    · simp at h

theorem wStrToUtf8_utf8to16 (h : b = append cs) : wStrToUtf8 (utf8to16 cs) = some b := by
  rw [wStrToUtf8, utf16to8_utf8to16, h]
  rfl

/-! ### What is right -/

/-- The three functions stay in bounds, `utf8truncate` leaves the first `len` code points of a
valid string, and what `Utf8toWStr` makes of it goes back to it. -/
structure Right (b : ByteArray) (len wsize : ℕ) (wstr : List ℕ) : Prop where
  truncate : (utf8truncate b len).1.count ≤ (utf8truncate b len).1.room
  buffer : (utf8toBuffer b wsize).1.count ≤ (utf8toBuffer b wsize).1.room
  string : (utf8toWStr b wstr).1.count ≤ (utf8toWStr b wstr).1.room
  kept : (utf8truncate b len).2 = ((codePoints b).map fun cs => append (cs.take len)).getD .empty
  bufferBack : ∀ units, (utf8toBuffer b wsize).2 = some units → wStrToUtf8 units = some b
  stringBack : (codePoints b).isSome → (utf8toWStr b wstr).2.bind wStrToUtf8 = some b

/-- **All is right just when every code point of a valid string is one unit**, and the string that
an empty one is put into is empty. -/
theorem wide_right_iff (b : ByteArray) (len wsize : ℕ) (wstr : List ℕ) : Right b len wsize wstr ↔
      ∀ cs, codePoints b = some cs → Narrow cs ∧ (cs = [] → wstr = []) := by
  constructor
  · rintro ⟨-, -, hstring, -, -, hback⟩ cs hcs
    have hb := codePoints_eq_some.mp hcs
    have hback := hback (by rw [hcs]; rfl)
    unfold utf8toWStr at hstring hback
    rw [hcs] at hstring hback
    cases cs with
    | nil =>
      refine ⟨fun c hc => absurd hc not_mem_nil, fun _ => ?_⟩
      obtain ⟨cs', hread, hempty⟩ := Option.map_eq_some_iff.mp hback
      exact eq_nil_of_utf16to8 (hread.trans (congrArg some (append_inj (hempty.trans hb))))
    | cons c cs => exact ⟨length_units_le.mp hstring, fun h => absurd h (cons_ne_nil c cs)⟩
  intro h
  cases hcs : codePoints b with
  | none =>
    constructor <;> simp [utf8truncate, utf8toBuffer, utf8toWStr, hcs]
    split_ifs <;> omega
  | some cs =>
    obtain ⟨hnarrow, hnil⟩ := h cs hcs
    have hb := codePoints_eq_some.mp hcs
    have hlength := length_units_le.mpr hnarrow
    have hall : (utf8to16 cs).take cs.length = utf8to16 cs := take_of_length_le hlength
    constructor
    · unfold utf8truncate
      rw [hcs]
      dsimp only
      split_ifs
      · exact Nat.le_refl 0
      · exact hlength
    · unfold utf8toBuffer
      rw [hcs]
      dsimp only
      split_ifs <;> dsimp only <;> omega
    · unfold utf8toWStr
      rw [hcs]
      cases cs with
      | nil => exact Nat.le_refl 0
      | cons c cs => exact hlength
    · unfold utf8truncate
      rw [hcs]
      dsimp only
      split_ifs with hle
      · rw [hb, Option.map_some, take_of_length_le hle]
        rfl
      rw [hnarrow.take, utf16to8_utf8to16]
      rfl
    · intro units hunits
      unfold utf8toBuffer at hunits
      rw [hcs] at hunits
      dsimp only at hunits
      split_ifs at hunits
      cases hunits
      rw [hall, wStrToUtf8_utf8to16 hb]
    intro _
    unfold utf8toWStr
    rw [hcs]
    cases cs with
    | nil =>
      rw [hnil rfl]
      exact wStrToUtf8_utf8to16 hb
    | cons c cs =>
      dsimp only
      rw [hall]
      exact wStrToUtf8_utf8to16 hb

/-- A gothic letter, cut to no length. -/
theorem gothic_letter_out_of_bounds : ¬ Right (append ['𐌰']) 0 0 [] := by
  intro h
  have hlength : (utf8to16 ['𐌰']).length ≤ 1 := by
    have := h.truncate
    unfold utf8truncate at this
    rwa [codePoints_eq_some.mpr rfl] at this
  exact absurd hlength (by decide)

end ZerosCore.WideStrings
