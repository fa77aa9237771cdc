/-
# Time strings

`secsToTimeString` and `TimeStringToSecs` of `src/server/shared/Utilities/Util.cpp`.

The parser takes numbers with a unit each and adds them up in 32 bits.  It takes back what the
printer writes in its short form, with no overflow on the way, and returns 0 for a string with
any other character (`time_strings`).
-/

import Mathlib.Algebra.Ring.Nat
import Mathlib.Data.List.Basic

namespace ZerosCore.TimeStrings

open List

def minute : ℕ := 60

def hour : ℕ := 60 * minute

def day : ℕ := 24 * hour

def part (shown : Bool) (n : ℕ) (text : String) : List Char :=
  if shown then Nat.toDigits 10 n ++ text.toList else []

def secsToTimeString (timeInSecs : ℕ) (shortText hoursOnly : Bool) : List Char :=
  let secs := timeInSecs % minute
  let minutes := timeInSecs % hour / minute
  let hours := timeInSecs % day / hour
  let days := timeInSecs / day
  part (days ≠ 0) days (if shortText then "d" else " Day(s) ") ++
    (part (hours ≠ 0 || hoursOnly) hours (if shortText then "h" else " Hour(s) ") ++
      (part (!hoursOnly && minutes ≠ 0) minutes (if shortText then "m" else " Minute(s) ") ++
        part (!hoursOnly && (secs ≠ 0 || days = 0 && hours = 0 && minutes = 0)) secs
          (if shortText then "s" else " Second(s).")))

def multiplier : Char → Option ℕ
  | 'd' => some day
  | 'h' => some hour
  | 'm' => some minute
  | 's' => some 1
  | _ => none

/-- The loop of `TimeStringToSecs`, each result being put into `fit`. -/
def parse (fit : ℕ → Option ℕ) : List Char → ℕ → ℕ → Option ℕ
  | [], secs, _ => some secs
  | c :: cs, secs, buffer =>
    if c.isDigit then
      (fit (buffer * 10)).bind fun buffer =>
        (fit (buffer + (c.toNat - '0'.toNat))).bind (parse fit cs secs)
    else
      match multiplier c with
      | none => some 0
      | some m =>
        (fit (buffer * m)).bind fun buffer =>
          (fit (secs + buffer)).bind fun secs => parse fit cs secs 0

/-- A number of 32 bits. -/
def wrap (n : ℕ) : Option ℕ := some (n % 2 ^ 32)

/-- Nothing where a step overflows. -/
def exact (n : ℕ) : Option ℕ := if n < 2 ^ 32 then some n else none

def timeStringToSecs (timestring : List Char) : ℕ := (parse wrap timestring 0 0).getD 0

/-! ### Numbers with a unit -/

structure Pair where
  digits : List Char
  unit : Char
  scale : ℕ
  isDigit : ∀ c ∈ digits, c.isDigit = true
  isUnit : multiplier unit = some scale

def Pair.text (p : Pair) : List Char := p.digits ++ [p.unit]

def Pair.secs (p : Pair) : ℕ := Nat.ofDigitChars 10 p.digits 0 * p.scale

variable {fit : ℕ → Option ℕ} {c : Char} {ds : List Char} {m n : ℕ}

theorem unit_spec (h : multiplier c = some m) : c.isDigit = false ∧ 0 < m := by
  unfold multiplier at h
  split at h <;> cases h <;> decide

theorem le_ofDigitChars (ds : List Char) (n : ℕ) : n ≤ Nat.ofDigitChars 10 ds n := by
  induction ds generalizing n with
  | nil => exact Nat.le_of_eq Nat.ofDigitChars_nil.symm
  | cons c ds ih =>
    rw [Nat.ofDigitChars_cons]
    exact Nat.le_trans (by omega) (ih _)

theorem parse_digits (hfit : ∀ n < 2 ^ 32, fit n = some n) (hds : ∀ c ∈ ds, c.isDigit = true)
    (hn : Nat.ofDigitChars 10 ds n < 2 ^ 32) (cs : List Char) (secs : ℕ) :
    parse fit (ds ++ cs) secs n = parse fit cs secs (Nat.ofDigitChars 10 ds n) := by
  induction ds generalizing n with
  | nil => rw [Nat.ofDigitChars_nil, nil_append]
  | cons c ds ih =>
    rw [Nat.ofDigitChars_cons] at hn ⊢
    have hle := le_ofDigitChars ds (10 * n + (c.toNat - '0'.toNat))
    rw [cons_append, parse, if_pos (hds c mem_cons_self), hfit _ (by omega), Option.bind_some,
      hfit _ (by omega), Option.bind_some, Nat.mul_comm]
    exact ih (fun c hc => hds c (mem_cons_of_mem _ hc)) hn

/-- **The step lemma**: a number with its unit is added. -/
theorem parse_pair (hfit : ∀ n < 2 ^ 32, fit n = some n) (p : Pair) (cs : List Char) (secs : ℕ)
    (hlt : secs + p.secs < 2 ^ 32) :
    parse fit (p.text ++ cs) secs 0 = parse fit cs (secs + p.secs) 0 := by
  obtain ⟨hdigit, hpos⟩ := unit_spec p.isUnit
  have hle := Nat.le_mul_of_pos_right (Nat.ofDigitChars 10 p.digits 0) hpos
  unfold Pair.secs at hlt ⊢
  rw [Pair.text, append_assoc, parse_digits hfit p.isDigit (by omega), singleton_append, parse,
    hdigit, if_neg Bool.false_ne_true, p.isUnit]
  dsimp only
  rw [hfit _ (by omega), Option.bind_some, hfit _ hlt, Option.bind_some]

/-- **The run lemma.** -/
theorem parse_pairs (hfit : ∀ n < 2 ^ 32, fit n = some n) (l : List Pair) (cs : List Char)
    (secs : ℕ) (hlt : secs + (l.map Pair.secs).sum < 2 ^ 32) :
    parse fit (l.flatMap Pair.text ++ cs) secs 0 =
      parse fit cs (secs + (l.map Pair.secs).sum) 0 := by
  induction l generalizing secs with
  | nil => rfl
  | cons p l ih =>
    rw [map_cons, sum_cons, ← Nat.add_assoc] at hlt ⊢
    rw [flatMap_cons, append_assoc, parse_pair hfit p _ secs (by omega), ih _ hlt]

/-- Digits that no unit follows count for nothing. -/
theorem parse_rest (hds : ∀ c ∈ ds, c.isDigit = true) (secs n : ℕ) :
    parse wrap ds secs n = some secs := by
  induction ds generalizing n with
  | nil => rfl
  | cons c ds ih =>
    rw [parse, if_pos (hds c mem_cons_self)]
    exact ih (fun c hc => hds c (mem_cons_of_mem _ hc)) _

theorem parse_bad {s : List Char} (h : ∃ c ∈ s, c.isDigit = false ∧ c ∉ ['d', 'h', 'm', 's'])
    (secs n : ℕ) : parse wrap s secs n = some 0 := by
  obtain ⟨c, hc, hdigit, hunit⟩ := h
  induction hc generalizing secs n with
  | head =>
    have hnone : multiplier c = none := by
      unfold multiplier
      split <;> simp_all
    rw [parse, hdigit, if_neg Bool.false_ne_true, hnone]
  | tail d _ ih =>
    rw [parse]
    split_ifs
    · exact ih _ _
    split
    · rfl
    · exact ih _ _

/-! ### What the printer writes -/

def printed (n : ℕ) (unit : Char) (scale : ℕ) (h : multiplier unit = some scale) : Pair where
  digits := Nat.toDigits 10 n
  unit := unit
  scale := scale
  isDigit := fun _ hc => Nat.isDigit_of_mem_toDigits (by decide) (by decide) hc
  isUnit := h

/-- The numbers that are shown make the string, and the time. -/
theorem exists_pairs (t : ℕ) :
    ∃ l : List Pair, secsToTimeString t true false = l.flatMap Pair.text ∧
      (l.map Pair.secs).sum = t := by
  have hpart (shown : Bool) (n : ℕ) (text : String) (unit : Char) (scale : ℕ)
      (htext : text.toList = [unit]) (h : multiplier unit = some scale)
      (hzero : shown = false → n = 0) :
      ∃ l : List Pair, part shown n text = l.flatMap Pair.text ∧
        (l.map Pair.secs).sum = n * scale := by
    cases shown with
    | true =>
      refine ⟨[printed n unit scale h], ?_, ?_⟩
      · simp [part, htext, Pair.text, printed]
      · simp [Pair.secs, printed, Nat.ofDigitChars_ten_toDigits]
    | false => exact ⟨[], rfl, by simp [hzero rfl]⟩
  have hhidden (n : ℕ) (h : decide (n ≠ 0) = false) : n = 0 := not_not.mp (of_decide_eq_false h)
  obtain ⟨ds, hds, hd⟩ := hpart (t / day ≠ 0) _ "d" 'd' day rfl rfl (hhidden _)
  obtain ⟨hs, hhs, hh⟩ := hpart (t % day / hour ≠ 0) _ "h" 'h' hour rfl rfl (hhidden _)
  obtain ⟨ms, hms, hm⟩ := hpart (t % hour / minute ≠ 0) _ "m" 'm' minute rfl rfl (hhidden _)
  obtain ⟨ss, hss, hs'⟩ := hpart (t % minute ≠ 0 || (t / day = 0 && t % day / hour = 0 &&
    t % hour / minute = 0)) (t % minute) "s" 's' 1 rfl rfl (by simp; omega)
  refine ⟨ds ++ (hs ++ (ms ++ ss)), ?_, ?_⟩
  · unfold secsToTimeString
    simp only [flatMap_append, ← hds, ← hhs, ← hms, ← hss, Bool.or_false, Bool.not_false,
      Bool.true_and, if_true]
  simp only [map_append, sum_append, hd, hh, hm, hs']
  unfold day hour minute
  omega

/-- **Time strings are right.**  A time of 32 bits comes back, and no step of the parser
overflows.  Of numbers with units it returns the total, whatever digits follow them, and 0 if
any other character is in the string. -/
theorem time_strings :
    (∀ t < 2 ^ 32, parse exact (secsToTimeString t true false) 0 0 = some t ∧
      timeStringToSecs (secsToTimeString t true false) = t) ∧
    (∀ (l : List Pair) (rest : List Char), (∀ c ∈ rest, c.isDigit = true) →
      (l.map Pair.secs).sum < 2 ^ 32 →
        timeStringToSecs (l.flatMap Pair.text ++ rest) = (l.map Pair.secs).sum) ∧
    ∀ s : List Char, (∃ c ∈ s, c.isDigit = false ∧ c ∉ ['d', 'h', 'm', 's']) →
      timeStringToSecs s = 0 := by
  have hexact (n : ℕ) (h : n < 2 ^ 32) : exact n = some n := if_pos h
  have hwrap (n : ℕ) (h : n < 2 ^ 32) : wrap n = some n := congrArg some (Nat.mod_eq_of_lt h)
  have htotal (l : List Pair) (rest : List Char) (hrest : ∀ c ∈ rest, c.isDigit = true)
      (hlt : (l.map Pair.secs).sum < 2 ^ 32) :
      timeStringToSecs (l.flatMap Pair.text ++ rest) = (l.map Pair.secs).sum := by
    rw [timeStringToSecs, parse_pairs hwrap l rest 0 (by omega), parse_rest hrest, Nat.zero_add]
    rfl
  refine ⟨fun t ht => ?_, htotal, fun s hs => by rw [timeStringToSecs, parse_bad hs]; rfl⟩
  obtain ⟨l, htext, hsum⟩ := exists_pairs t
  rw [htext]
  constructor
  · have hparse := parse_pairs hexact l [] 0 (by omega)
    rwa [append_nil, Nat.zero_add, hsum] at hparse
  have hsecs := htotal l [] (fun _ h => absurd h not_mem_nil) (by omega)
  rwa [append_nil, hsum] at hsecs

end ZerosCore.TimeStrings
