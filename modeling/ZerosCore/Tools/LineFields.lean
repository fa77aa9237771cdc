/-
# The fields of a dump line

`src/server/game/Tools/PlayerDump.cpp`: `CreateDumpString` writes a row as

    INSERT INTO `table` VALUES ('value', 'value', 'value');

with the values escaped, and `findnth` looks for the `n`-th of them; `getnth` and `changenth` read
and replace it.  A closing quote is told from an escaped one by the character before it.

For an escaped quote in the first value `findnth` looks again from the same place and finds the
same quote for ever; in a later value it goes on four characters behind the escaped quote, as it
does behind a closing one.  A value that ends with a backslash is taken for one with an escaped
quote.  `fields_right_iff` says that there is no other failure, but for a table name that holds
the text `VALUES ('` itself.

A text is the list of its characters.  A loop of `findnth` takes fuel and is `none` when it is used
up; what it returns otherwise is `none` for `false`.
-/

import Mathlib.Data.List.Infix

namespace ZerosCore.DumpLine

open List Option

abbrev Text := List Char

/-- What `EscapeString` does to a character: those that are escaped are written behind a
backslash, quotes and backslashes as themselves. -/
structure Escaping where
  escaped : Char → Option Char
  quote : escaped '\'' = some '\''
  backslash : escaped '\\' = some '\\'
  others : ∀ c x, escaped c = some x → x = '\'' ∨ x = '\\' → c = x

namespace Escaping

variable (E : Escaping)

def escapeChar (c : Char) : Text :=
  match E.escaped c with
  | some x => ['\\', x]
  | none => [c]

def escapeString (v : Text) : Text := v.flatMap E.escapeChar

end Escaping

/-- The characters that `mysql_real_escape_string` escapes. -/
def mysql : Escaping where
  escaped c :=
    if c = '\'' ∨ c = '\\' ∨ c = '"' then some c
    else if c = '\n' then some 'n'
    else if c = '\r' then some 'r'
    else if c = '\x00' then some '0'
    else if c = '\x1a' then some 'Z'
    else none
  quote := by decide
  backslash := by decide
  others c x h hx := by
    split_ifs at h with h1
    · exact Option.some.inj h
    all_goals
      obtain rfl := Option.some.inj h
      exact absurd hx (by decide)

/-! ### The functions of the source -/

/-- `str.find(c, s)`. -/
def findFrom (c : Char) (s : ℕ) (str : Text) : Option ℕ :=
  ((str.drop s).findIdx? fun x => x = c).map fun i => i + s

/-- `str.find(pattern)`. -/
def findText (pattern : Text) : Text → Option ℕ
  | [] => if pattern = [] then some 0 else none
  | c :: str => if pattern <+: c :: str then some 0 else (findText pattern str).map fun i => i + 1

/-- `VALUES ('` -/
def valuesStart : Text := ['V', 'A', 'L', 'U', 'E', 'S', ' ', '(', '\'']

/-- `str.find("VALUES ('") + 9`, where `npos + 9` is 8. -/
def firstField (str : Text) : ℕ :=
  match findText valuesStart str with
  | some i => i + 9
  | none => 8

/-- The first loop of `findnth`: it never moves `s`. -/
def firstQuote : ℕ → ℕ → Text → Option (Option ℕ)
  | 0, _, _ => none
  | fuel + 1, s, str =>
    match findFrom '\'' s str with
    | none => some none
    | some e => if str[e - 1]? = some '\\' then firstQuote fuel s str else some (some e)

/-- The loop of `findnth` that goes on to the next field. -/
def nextField : ℕ → ℕ → Text → Option (Option (ℕ × ℕ))
  | 0, _, _ => none
  | fuel + 1, e, str =>
    let s := e + 4
    match findFrom '\'' s str with
    | none => some none
    | some e => if str[e - 1]? = some '\\' then nextField fuel e str else some (some (s, e))

/-- The fields after the first, `more` of them. -/
def nextFields (fuel : ℕ) : ℕ → ℕ × ℕ → Text → Option (Option (ℕ × ℕ))
  | 0, found, _ => some (some found)
  | more + 1, found, str =>
    match nextField fuel found.2 str with
    | some (some found) => nextFields fuel more found str
    | some none => some none
    | none => none

/-- `findnth`: where the field starts and where it ends. -/
def findnth (fuel : ℕ) (str : Text) (n : ℕ) : Option (Option (ℕ × ℕ)) :=
  match firstQuote fuel (firstField str) str with
  | some (some e) => nextFields fuel (n - 1) (firstField str, e) str
  | some none => some none
  | none => none

/-- `str.substr(s, e - s)` -/
def substr (str : Text) (found : ℕ × ℕ) : Text := (str.drop found.1).take (found.2 - found.1)

/-- `changenth`, with what it returns. -/
def changenth (fuel : ℕ) (str : Text) (n : ℕ) (text : Text) (insert nonzero : Bool) :
    Option (Bool × Text) :=
  match findnth fuel str n with
  | none => none
  | some none => some (false, str)
  | some (some found) =>
    if nonzero && substr str found = ['0'] then some (true, str)
    else if insert then some (true, str.take found.1 ++ text ++ str.drop found.1)
    else some (true, str.take found.1 ++ text ++ str.drop found.2)

def getnth (fuel : ℕ) (str : Text) (n : ℕ) : Option Text :=
  match findnth fuel str n with
  | none => none
  | some none => some []
  | some (some found) => some (substr str found)

/-- A value in quotes, with a comma before it unless it is the first. -/
def quoted (E : Escaping) : List Text → Text
  | [] => []
  | v :: vs => '\'' :: E.escapeString v ++ '\'' :: vs.flatMap fun v =>
    [',', ' ', '\''] ++ E.escapeString v ++ ['\'']

/-- What stands before the values. -/
def lineStart (tableName : Text) : Text :=
  ['I', 'N', 'S', 'E', 'R', 'T', ' ', 'I', 'N', 'T', 'O', ' ', '`'] ++ tableName ++
    ['`', ' ', 'V', 'A', 'L', 'U', 'E', 'S', ' ', '(']

def createDumpString (E : Escaping) (tableName : Text) (values : List Text) : Text :=
  lineStart tableName ++ quoted E values ++ [')', ';']

/-! ### Looking for characters -/

variable {E : Escaping} {tableName str pre w x rest v text : Text} {values l m r : List Text}
  {fuel s e e' n more : ℕ} {c : Char} {pattern : Text}

theorem le_of_findFrom (h : findFrom c s str = some e) : s ≤ e := by
  unfold findFrom at h
  obtain ⟨i, -, rfl⟩ := map_eq_some_iff.mp h
  exact Nat.le_add_left s i

theorem findFrom_append (hw : c ∉ w) :
    findFrom c pre.length (pre ++ w ++ c :: rest) = some (pre ++ w).length := by
  have hnone : w.findIdx? (fun x => x = c) = none := by
    rw [findIdx?_eq_none_iff]
    exact fun x hx => decide_eq_false fun heq => hw (heq ▸ hx)
  unfold findFrom
  rw [append_assoc, drop_left, findIdx?_append, hnone, findIdx?_cons, length_append]
  simp [Nat.add_comm]

theorem findFrom_eq_none (h : c ∉ str.drop s) : findFrom c s str = none := by
  unfold findFrom
  rw [map_eq_none_iff, findIdx?_eq_none_iff]
  exact fun x hx => decide_eq_false fun heq => h (heq ▸ hx)

theorem findFrom_isSome (h : c ∈ str.drop s) : (findFrom c s str).isSome = true := by
  unfold findFrom
  rw [Option.isSome_map, List.findIdx?_isSome, List.any_eq_true]
  exact ⟨c, h, decide_eq_true rfl⟩

theorem getElem?_before (hx : x ≠ []) : (x ++ rest)[x.length - 1]? = x.getLast? := by
  have hpos := length_pos_of_ne_nil hx
  rw [getElem?_append_left (by omega), getLast?_eq_getElem?]

theorem prefix_of_append (hc : c ∉ pattern) (h : pattern <+: w ++ c :: rest) : pattern <+: w := by
  rcases prefix_or_prefix_of_prefix h (prefix_append w (c :: rest)) with h' | h'
  · exact h'
  obtain ⟨t, rfl⟩ := h'
  rw [prefix_append_right_inj] at h
  cases t with
  | nil => exact (append_nil w).symm ▸ prefix_refl w
  | cons b t =>
    obtain ⟨rfl, -⟩ := cons_prefix_cons.mp h
    exact absurd (mem_append_right w mem_cons_self) hc

theorem findText_skip {b : Char} (hw : b ∉ w) :
    findText (b :: pattern) (w ++ rest) = (findText (b :: pattern) rest).map (· + w.length) := by
  induction w with
  | nil => simp
  | cons a w ih =>
    rw [mem_cons, not_or] at hw
    have hnot : ¬b :: pattern <+: a :: (w ++ rest) := fun h => hw.1 (List.cons_prefix_cons.mp h).1
    rw [List.cons_append, findText, if_neg hnot, ih hw.2, Option.map_map]
    rfl

theorem findText_append_of_not (hc : c ∉ pattern) (hnot : ¬pattern <:+: w) :
    findText pattern (w ++ c :: rest) = (findText pattern (c :: rest)).map (· + w.length) := by
  induction w with
  | nil => simp
  | cons a w ih =>
    have hhead : ¬pattern <+: a :: (w ++ c :: rest) := fun h =>
      hnot (prefix_of_append (w := a :: w) hc h).isInfix
    have htail : ¬pattern <:+: w := fun h => hnot (h.trans (List.suffix_cons a w).isInfix)
    rw [List.cons_append, findText, if_neg hhead, ih htail, Option.map_map]
    rfl

theorem findText_append_of_infix (rest : Text) (h : pattern <:+: w) :
    ∃ i, findText pattern w = some i ∧ findText pattern (w ++ rest) = some i ∧
      i + pattern.length ≤ w.length := by
  induction w with
  | nil =>
    rw [infix_nil.mp h]
    refine ⟨0, rfl, ?_, le_refl 0⟩
    cases rest with
    | nil => rfl
    | cons c rest => exact if_pos ( nil_prefix)
  | cons a w ih =>
    rw [cons_append, findText, findText]
    by_cases hhead : pattern <+: a :: w
    · have hmore : pattern <+: a :: (w ++ rest) := hhead.trans (prefix_append (a :: w) rest)
      rw [if_pos hhead, if_pos hmore]
      exact ⟨0, rfl, rfl, by simpa using hhead.length_le⟩
    have htail : pattern <:+: w := (infix_cons_iff.mp h).resolve_left hhead
    obtain ⟨i, hi, hmore, hle⟩ := ih htail
    rw [if_neg hhead, hi]
    by_cases hlonger : pattern <+: a :: (w ++ rest)
    · -- it would begin before the first place where it is found, and be in the text
      rcases prefix_or_prefix_of_prefix hlonger (prefix_append (a :: w) rest) with
        h' | h'
      · exact absurd h' hhead
      have hlen := h'.length_le
      rw [length_cons] at hlen
      omega
    rw [if_neg hlonger, hmore]
    exact ⟨i + 1, rfl, rfl, by rw [length_cons]; omega⟩

/-! ### Values -/

/-- The text has no quote and does not end with a backslash. -/
def Clean (v : Text) : Prop := '\'' ∉ v ∧ v.getLast? ≠ some '\\'

theorem quote_mem_escapeChar : '\'' ∈ E.escapeChar c ↔ c = '\'' := by
  unfold Escaping.escapeChar
  constructor
  · intro h
    cases hc : E.escaped c with
    | none =>
      rw [hc] at h
      exact (mem_singleton.mp h).symm
    | some x =>
      rw [hc] at h
      rcases mem_cons.mp h with h | h
      · exact absurd h (by decide)
      have hx := (mem_singleton.mp h).symm
      exact (E.others c x hc (.inl hx)).trans hx
  rintro rfl
  rw [E.quote]
  exact mem_cons_of_mem _ (mem_singleton_self _)

theorem getLast?_escapeChar : (E.escapeChar c).getLast? = some '\\' ↔ c = '\\' := by
  unfold Escaping.escapeChar
  constructor
  · intro h
    cases hc : E.escaped c with
    | none =>
      rw [hc] at h
      exact some.inj h
    | some x =>
      rw [hc] at h
      have hx : x = '\\' := some.inj h
      exact (E.others c x hc (.inr hx)).trans hx
  rintro rfl
  rw [E.backslash]
  rfl

theorem escapeChar_ne_nil : E.escapeChar c ≠ [] := by
  unfold Escaping.escapeChar
  split <;> exact cons_ne_nil _ _

/-- **A clean value stays clean.** -/
theorem Clean.escapeString (h : Clean v) : Clean (E.escapeString v) := by
  constructor
  · intro hmem
    obtain ⟨c, hc, hquote⟩ := mem_flatMap.mp hmem
    exact h.1 (quote_mem_escapeChar.mp hquote ▸ hc)
  rcases eq_nil_or_concat' v with rfl | ⟨v, c, rfl⟩
  · simp [Escaping.escapeString]
  have hlast := h.2
  rw [getLast?_concat] at hlast
  unfold Escaping.escapeString
  rw [flatMap_append, flatMap_singleton, getLast?_append_of_ne_nil _ escapeChar_ne_nil]
  exact fun hback => hlast (congrArg some (getLast?_escapeChar.mp hback))

/-- **The first quote behind another value has a backslash before it.** -/
theorem escaped_quote (h : ¬Clean v) (rest : Text) :
    ∃ x rest', E.escapeString v ++ '\'' :: rest = x ++ '\\' :: '\'' :: rest' ∧ '\'' ∉ x := by
  induction v with
  | nil => exact absurd ⟨not_mem_nil, by simp⟩ h
  | cons c v ih =>
    have hcons : E.escapeString (c :: v) = E.escapeChar c ++ E.escapeString v := flatMap_cons
    rw [hcons, append_assoc]
    by_cases hquote : c = '\''
    · subst hquote
      refine ⟨[], E.escapeString v ++ '\'' :: rest, ?_, not_mem_nil⟩
      unfold Escaping.escapeChar
      rw [E.quote]
      rfl
    have hnone : '\'' ∉ E.escapeChar c := fun hmem => hquote (quote_mem_escapeChar.mp hmem)
    by_cases hrest : Clean v
    · -- the backslash is the last character
      have hlast : c = '\\' ∧ v = [] := by
        by_contra hnot
        refine h ⟨fun hmem => ?_, fun hback => ?_⟩
        · rcases mem_cons.mp hmem with heq | hmem
          · exact hquote heq.symm
          · exact hrest.1 hmem
        cases v with
        | nil => exact hnot ⟨some.inj hback, rfl⟩
        | cons b v =>
          rw [getLast?_cons_cons] at hback
          exact hrest.2 hback
      obtain ⟨rfl, rfl⟩ := hlast
      refine ⟨['\\'], rest, ?_, by decide⟩
      unfold Escaping.escapeChar
      rw [E.backslash]
      rfl
    obtain ⟨x, rest', heq, hx⟩ := ih hrest
    refine ⟨E.escapeChar c ++ x, rest', ?_, ?_⟩
    · rw [heq, append_assoc]
    · exact fun hmem => (mem_append.mp hmem).elim hnone hx

/-! ### Quotes -/

theorem getLast?_append_clean (hpre : pre.getLast? = some '\'') (hw : Clean w) :
    (pre ++ w).getLast? ≠ some '\\' := by
  rcases eq_nil_or_concat' w with rfl | ⟨w, c, rfl⟩
  · rw [append_nil, hpre]
    decide
  rw [getLast?_append_of_ne_nil _ (by simp)]
  exact hw.2

theorem ne_nil_of_getLast? (h : x.getLast? = some c) : x ≠ [] := by
  rintro rfl
  cases h

theorem closing_quote (hpre : pre.getLast? = some '\'') (hw : Clean w) (rest : Text) :
    findFrom '\'' pre.length (pre ++ w ++ '\'' :: rest) = some (pre ++ w).length ∧
      (pre ++ w ++ '\'' :: rest)[(pre ++ w).length - 1]? ≠ some '\\' := by
  refine ⟨findFrom_append hw.1, ?_⟩
  rw [getElem?_before (append_ne_nil_of_left_ne_nil (ne_nil_of_getLast? hpre) w)]
  exact getLast?_append_clean hpre hw

theorem escaped_quote_found (hv : ¬Clean v) (pre rest : Text) :
    ∃ e, findFrom '\'' pre.length (pre ++ E.escapeString v ++ '\'' :: rest) = some e ∧
      (pre ++ E.escapeString v ++ '\'' :: rest)[e - 1]? = some '\\' := by
  obtain ⟨x, rest', heq, hx⟩ := escaped_quote (E := E) hv rest
  have htext : pre ++ E.escapeString v ++ '\'' :: rest = pre ++ (x ++ ['\\']) ++ '\'' :: rest' := by
    rw [append_assoc, heq]
    simp
  have hnot : '\'' ∉ x ++ ['\\'] := by
    rw [mem_append, not_or]
    exact ⟨hx, by decide⟩
  refine ⟨(pre ++ (x ++ ['\\'])).length, ?_, ?_⟩
  · rw [htext]
    exact findFrom_append hnot
  rw [htext, getElem?_before (by simp)]
  simp [← append_assoc]

theorem firstQuote_clean (hpre : pre.getLast? = some '\'') (hw : Clean w) (rest : Text) :
    firstQuote (fuel + 1) pre.length (pre ++ w ++ '\'' :: rest) =
      some (some (pre ++ w).length) := by
  obtain ⟨hfind, hbefore⟩ := closing_quote hpre hw rest
  unfold firstQuote
  rw [hfind]
  exact if_neg hbefore

/-- **The first loop does not end** at an escaped quote. -/
theorem firstQuote_stuck (hv : ¬Clean v) (pre rest : Text) (fuel : ℕ) :
    firstQuote fuel pre.length (pre ++ E.escapeString v ++ '\'' :: rest) = none := by
  obtain ⟨e, hfind, hbefore⟩ := escaped_quote_found (E := E) hv pre rest
  induction fuel with
  | zero => rfl
  | succ fuel ih =>
    unfold firstQuote
    rw [hfind]
    dsimp only
    rw [if_pos hbefore, ih]

theorem nextField_clean (hpre : pre.getLast? = some '\'') (hlen : e + 4 = pre.length)
    (hw : Clean w) (rest : Text) : nextField (fuel + 1) e (pre ++ w ++ '\'' :: rest) =
      some (some (pre.length, (pre ++ w).length)) := by
  obtain ⟨hfind, hbefore⟩ := closing_quote hpre hw rest
  unfold nextField
  dsimp only
  rw [hlen, hfind]
  exact if_neg hbefore

theorem nextField_le (h : nextField fuel e str = some (some (s, e'))) : e + 4 ≤ s := by
  induction fuel generalizing e with
  | zero => cases h
  | succ fuel ih =>
    unfold nextField at h
    dsimp only at h
    cases hfind : findFrom '\'' (e + 4) str with
    | none =>
      rw [hfind] at h
      cases h
    | some q =>
      have hle := le_of_findFrom hfind
      rw [hfind] at h
      dsimp only at h
      split_ifs at h with hback
      · have hlater := ih h
        omega
      cases h
      exact le_refl _

/-- **A later field is missed** if its value is not clean. -/
theorem nextField_missed (hlen : e + 4 = pre.length) (hv : ¬Clean v)
    (h : nextField fuel e (pre ++ E.escapeString v ++ '\'' :: rest) = some (some (s, e'))) :
    pre.length < s := by
  obtain ⟨q, hfind, hbefore⟩ := escaped_quote_found (E := E) hv pre rest
  have hle := le_of_findFrom hfind
  cases fuel with
  | zero => cases h
  | succ fuel =>
    unfold nextField at h
    dsimp only at h
    rw [hlen, hfind] at h
    dsimp only at h
    rw [if_pos hbefore] at h
    have hlater := nextField_le h
    omega

theorem nextField_last (x : Text) (fuel : ℕ) :
    nextField (fuel + 1) x.length (x ++ ['\'', ')', ';']) = some none := by
  have hdrop : (x ++ ['\'', ')', ';']).drop (x.length + 4) = [] := by
    rw [drop_eq_nil_iff, length_append]
    simp
  unfold nextField
  dsimp only
  rw [findFrom_eq_none (by rw [hdrop]; exact not_mem_nil)]

/-! ### The line around a value -/

/-- What stands before the value behind the values `l`. -/
def before (E : Escaping) (tableName : Text) (l : List Text) : Text :=
  lineStart tableName ++ '\'' :: l.flatMap fun v => E.escapeString v ++ ['\'', ',', ' ', '\'']

/-- What stands behind the value before the values `r`. -/
def behind (E : Escaping) (r : List Text) : Text :=
  '\'' :: (r.flatMap (fun v => [',', ' ', '\''] ++ E.escapeString v ++ ['\'']) ++ [')', ';'])

theorem split_line (E : Escaping) (tableName : Text) (l : List Text) (v : Text) (r : List Text) :
    createDumpString E tableName (l ++ v :: r) =
      before E tableName l ++ E.escapeString v ++ behind E r := by
  have hlater : ∀ l : List Text, '\'' :: (l ++ v :: r).flatMap (fun v =>
      [',', ' ', '\''] ++ E.escapeString v ++ ['\'']) = ['\'', ',', ' ', '\''] ++
        (l.flatMap fun v => E.escapeString v ++ ['\'', ',', ' ', '\'']) ++ E.escapeString v ++
          '\'' :: r.flatMap fun v => [',', ' ', '\''] ++ E.escapeString v ++ ['\''] := by
    intro l
    induction l with
    | nil => simp
    | cons a l ih =>
      rw [cons_append, flatMap_cons, flatMap_cons]
      simp only [append_assoc, cons_append, nil_append, cons.injEq, true_and] at ih ⊢
      rw [ih]
  unfold createDumpString before behind
  cases l with
  | nil => simp [quoted]
  | cons a l =>
    rw [cons_append]
    have hquoted : quoted E (a :: (l ++ v :: r)) = '\'' :: E.escapeString a ++
        '\'' :: (l ++ v :: r).flatMap fun v =>
          [',', ' ', '\''] ++ E.escapeString v ++ ['\''] := rfl
    rw [hquoted, hlater]
    simp

theorem before_getLast? (E : Escaping) (tableName : Text) (l : List Text) :
    (before E tableName l).getLast? = some '\'' := by
  unfold before
  rcases eq_nil_or_concat' l with rfl | ⟨l, v, rfl⟩
  · simp
  rw [flatMap_append, flatMap_singleton, ← cons_append, ← append_assoc,
    ← append_assoc, getLast?_append_of_ne_nil _ (by simp)]
  rfl

theorem before_concat (E : Escaping) (tableName : Text) (l : List Text) (v : Text) :
    before E tableName (l ++ [v]) =
      before E tableName l ++ E.escapeString v ++ ['\'', ',', ' ', '\''] := by
  simp [before]

theorem length_before_concat (E : Escaping) (tableName : Text) (l : List Text) (v : Text) :
    (before E tableName l ++ E.escapeString v).length + 4 =
      (before E tableName (l ++ [v])).length := by
  rw [before_concat]
  simp [Nat.add_assoc]

/-- Where the value behind `l` stands in the line. -/
def place (E : Escaping) (tableName : Text) (l : List Text) (v : Text) : ℕ × ℕ :=
  ((before E tableName l).length, (before E tableName l ++ E.escapeString v).length)

theorem substr_place (E : Escaping) (tableName : Text) (l : List Text) (v : Text) (r : List Text) :
    substr (createDumpString E tableName (l ++ v :: r)) (place E tableName l v) =
      E.escapeString v := by
  unfold substr place
  rw [split_line, append_assoc, drop_left, length_append, Nat.add_sub_cancel_left, take_left]

/-! ### The first field -/

/-- `INSERT INTO` and the quote of the table name -/
def lineHead : Text := ['I', 'N', 'S', 'E', 'R', 'T', ' ', 'I', 'N', 'T', 'O', ' ', '`']

/-- **The first field is found behind a table name without `VALUES ('`.** -/
theorem firstField_eq (hname : ¬valuesStart <:+: tableName) (rest : Text) :
    firstField (before E tableName [] ++ rest) = (before E tableName []).length := by
  have hline : before E tableName [] ++ rest =
      lineHead ++ (tableName ++ '`' :: (' ' :: (valuesStart ++ rest))) := by
    simp [before, lineStart, valuesStart, lineHead]
  have hfound : findText valuesStart (valuesStart ++ rest) = some 0 :=
    if_pos (prefix_append valuesStart rest)
  have htail : findText valuesStart ('`' :: (' ' :: (valuesStart ++ rest))) = some 2 :=
    (findText_skip (w := ['`', ' ']) (by decide)).trans (congrArg (Option.map (· + 2)) hfound)
  have hname' : findText valuesStart (tableName ++ '`' :: (' ' :: (valuesStart ++ rest))) =
      some (2 + tableName.length) := by
    rw [findText_append_of_not (by decide) hname, htail]
    rfl
  have hfirst : findText valuesStart (before E tableName [] ++ rest) =
      some (2 + tableName.length + lineHead.length) := by
    rw [hline]
    exact (findText_skip (by decide)).trans (congrArg (Option.map (· + lineHead.length)) hname')
  unfold firstField
  rw [hfirst]
  simp [before, lineStart, lineHead]
  omega

/-- **It is looked for in the table name** if that has the text. -/
theorem firstField_lt (hname : valuesStart <:+: tableName) (rest : Text) :
    firstField (before E tableName [] ++ rest) < (before E tableName []).length := by
  obtain ⟨i, -, hi, hle⟩ := findText_append_of_infix
    (['`', ' ', 'V', 'A', 'L', 'U', 'E', 'S', ' ', '(', '\''] ++ rest) hname
  have hline : before E tableName [] ++ rest = lineHead ++ (tableName ++
      (['`', ' ', 'V', 'A', 'L', 'U', 'E', 'S', ' ', '(', '\''] ++ rest)) := by
    simp [before, lineStart, lineHead]
  have hfirst : findText valuesStart (before E tableName [] ++ rest) =
      some (i + lineHead.length) := by
    rw [hline]
    exact (findText_skip (by decide)).trans (congrArg (Option.map (· + lineHead.length)) hi)
  have hlen : valuesStart.length = 9 := rfl
  have hhead : lineHead.length = 13 := rfl
  have hbefore : (before E tableName []).length = tableName.length + 24 := by
    simp [before, lineStart]
  unfold firstField
  rw [hfirst, hbefore]
  dsimp only
  omega

theorem firstField_line (hname : ¬valuesStart <:+: tableName) (v : Text) (r : List Text) :
    firstField (createDumpString E tableName (v :: r)) = (before E tableName []).length := by
  rw [show v :: r = [] ++ v :: r from rfl, split_line, append_assoc]
  exact firstField_eq hname _

theorem exists_first_unclean (h : ∃ v ∈ values, ¬Clean v) :
    ∃ l w r, values = l ++ w :: r ∧ (∀ x ∈ l, Clean x) ∧ ¬Clean w := by
  induction values with
  | nil => exact absurd h (by simp)
  | cons a values ih =>
    by_cases ha : Clean a
    · obtain ⟨v, hv, hunclean⟩ := h
      rcases mem_cons.mp hv with rfl | hv
      · exact absurd ha hunclean
      obtain ⟨l, w, r, rfl, hl, hw⟩ := ih ⟨v, hv, hunclean⟩
      exact ⟨a :: l, w, r, rfl, forall_mem_cons.mpr ⟨ha, hl⟩, hw⟩
    · exact ⟨[], a, values, rfl, fun x hx => absurd hx not_mem_nil, ha⟩

/-! ### Going from field to field -/

theorem next_clean (fuel : ℕ) (l : List Text) (v : Text) (hw : Clean w) (r : List Text) :
    nextField (fuel + 1) (place E tableName l v).2
        (createDumpString E tableName (l ++ v :: w :: r)) =
      some (some (place E tableName (l ++ [v]) w)) := by
  rw [show l ++ v :: w :: r = (l ++ [v]) ++ w :: r by simp, split_line]
  exact nextField_clean (before_getLast? E tableName (l ++ [v]))
    (length_before_concat E tableName l v) hw.escapeString _

/-- **Behind clean values the fields are found one after the other.** -/
theorem nextFields_clean (fuel more : ℕ) (l : List Text) (v : Text)
    (hm : ∀ x ∈ m ++ [w], Clean x) (r : List Text) :
    nextFields (fuel + 1) (m.length + 1 + more) (place E tableName l v)
        (createDumpString E tableName (l ++ v :: (m ++ w :: r))) =
      nextFields (fuel + 1) more (place E tableName (l ++ v :: m) w)
        (createDumpString E tableName (l ++ v :: (m ++ w :: r))) := by
  induction m generalizing l v with
  | nil =>
    have hstep := @next_clean E tableName w fuel l v (hm w (mem_singleton_self w)) r
    rw [length_nil, show 0 + 1 + more = more + 1 by omega]
    conv_lhs => unfold nextFields
    rw [nil_append, hstep]
  | cons x m ih =>
    have hstep := @next_clean E tableName x fuel l v (hm x mem_cons_self) (m ++ w :: r)
    have hlater := ih (l := l ++ [v]) (v := x) fun y hy => hm y (mem_cons_of_mem x hy)
    rw [append_assoc, append_assoc, singleton_append, singleton_append] at hlater
    rw [length_cons, show m.length + 1 + 1 + more = (m.length + 1 + more) + 1 by omega]
    conv_lhs => unfold nextFields
    rw [cons_append, hstep]
    exact hlater

/-- **A value that is not clean is missed** behind clean ones. -/
theorem nextFields_missed (hm : ∀ x ∈ m, Clean x) (hw : ¬Clean w)
    (h : nextFields fuel (m.length + 1) (place E tableName l v)
      (createDumpString E tableName (l ++ v :: (m ++ w :: r))) = some (some (s, e))) :
    (before E tableName (l ++ v :: m)).length < s := by
  induction m generalizing l v with
  | nil =>
    have hlen := length_before_concat E tableName l v
    rw [nil_append, show l ++ v :: w :: r = (l ++ [v]) ++ w :: r by simp, split_line] at h
    unfold nextFields at h
    cases hnext : nextField fuel (place E tableName l v).2
        (before E tableName (l ++ [v]) ++ E.escapeString w ++ behind E r) with
    | none =>
      rw [hnext] at h
      cases h
    | some result =>
      rw [hnext] at h
      cases result with
      | none => cases h
      | some found =>
        cases h
        exact nextField_missed hlen hw hnext
  | cons x m ih =>
    cases fuel with
    | zero =>
      unfold nextFields at h
      cases h
    | succ fuel =>
      have hstep := @next_clean E tableName x fuel l v (hm x mem_cons_self) (m ++ w :: r)
      have hlater := ih (l := l ++ [v]) (v := x) fun y hy => hm y (mem_cons_of_mem x hy)
      rw [append_assoc, append_assoc, singleton_append, singleton_append] at hlater
      rw [length_cons] at h
      unfold nextFields at h
      rw [cons_append, hstep] at h
      exact hlater h

theorem nextFields_last (E : Escaping) (tableName : Text) (l : List Text) (v : Text) :
    nextFields (fuel + 1) (more + 1) (place E tableName l v)
      (createDumpString E tableName (l ++ [v])) = some none := by
  rw [split_line]
  unfold nextFields
  rw [show behind E [] = ['\'', ')', ';'] from rfl, place, nextField_last]

/-! ### All fields -/

theorem findnth_first (hname : ¬valuesStart <:+: tableName) (hv : Clean v) :
    findnth (fuel + 1) (createDumpString E tableName (v :: r)) (more + 1) =
      nextFields (fuel + 1) more (place E tableName [] v)
        (createDumpString E tableName (v :: r)) := by
  have hquote : firstQuote (fuel + 1) (before E tableName []).length
      (createDumpString E tableName (v :: r)) =
        some (some (before E tableName [] ++ E.escapeString v).length) := by
    rw [show v :: r = [] ++ v :: r from rfl, split_line]
    exact firstQuote_clean (before_getLast? E tableName []) hv.escapeString _
  unfold findnth
  rw [firstField_line hname, hquote]
  rfl

/-- **`findnth` finds a clean value behind clean ones.** -/
theorem findnth_clean (fuel : ℕ) (hname : ¬valuesStart <:+: tableName) (hl : ∀ x ∈ l, Clean x)
    (hv : Clean v) (r : List Text) :
    findnth (fuel + 1) (createDumpString E tableName (l ++ v :: r)) (l.length + 1) =
      some (some (place E tableName l v)) := by
  cases l with
  | nil => exact findnth_first hname hv
  | cons a l =>
    rw [cons_append, findnth_first hname (hl a mem_cons_self), length_cons]
    refine (nextFields_clean fuel 0 [] a (fun x hx => ?_) r).trans rfl
    rcases mem_append.mp hx with hx | hx
    · exact hl x (mem_cons_of_mem a hx)
    · exact mem_singleton.mp hx ▸ hv

/-- **It finds nothing behind the last value.** -/
theorem findnth_past (fuel : ℕ) (hname : ¬valuesStart <:+: tableName) (hl : ∀ x ∈ l ++ [v], Clean x)
    (hn : l.length + 1 < n) :
    findnth (fuel + 1) (createDumpString E tableName (l ++ [v])) n = some none := by
  obtain ⟨more, rfl⟩ : ∃ more, n = l.length + 1 + (more + 1) := ⟨n - l.length - 2, by omega⟩
  cases l with
  | nil =>
    rw [nil_append, show [].length + 1 + (more + 1) = (more + 1) + 1 by simp; omega,
      findnth_first hname (hl v (by simp))]
    exact nextFields_last E tableName [] v
  | cons a l =>
    rw [cons_append, length_cons,
      show l.length + 1 + 1 + (more + 1) = (l.length + 1 + (more + 1)) + 1 by omega,
      findnth_first hname (hl a mem_cons_self)]
    refine (nextFields_clean fuel (more + 1) [] a
      (fun x hx => hl x (mem_cons_of_mem a hx)) []).trans ?_
    exact (nextFields_last E tableName (a :: l) v)

/-- **It does not find another value** behind clean ones. -/
theorem findnth_missed (hname : ¬valuesStart <:+: tableName) (hl : ∀ x ∈ l, Clean x)
    (hv : ¬Clean v) (fuel : ℕ) (e : ℕ) :
    findnth fuel (createDumpString E tableName (l ++ v :: r)) (l.length + 1) ≠
      some (some ((before E tableName l).length, e)) := by
  intro h
  cases l with
  | nil =>
    have hstuck : firstQuote fuel (before E tableName []).length
        (createDumpString E tableName (v :: r)) = none := by
      rw [show v :: r = [] ++ v :: r from rfl, split_line]
      exact firstQuote_stuck hv _ _ fuel
    rw [nil_append] at h
    unfold findnth at h
    rw [firstField_line hname, hstuck] at h
    cases h
  | cons a l =>
    cases fuel with
    | zero =>
      unfold findnth firstQuote at h
      cases h
    | succ fuel =>
      rw [cons_append, findnth_first hname (hl a mem_cons_self), length_cons] at h
      have hmissed := nextFields_missed (l := []) (fun x hx => hl x (mem_cons_of_mem a hx)) hv h
      exact absurd hmissed (lt_irrefl _)

/-- The first field that is found begins where `findnth` starts to look. -/
theorem findnth_start (h : findnth fuel str 1 = some (some (s, e))) : firstField str = s := by
  unfold findnth at h
  cases hfirst : firstQuote fuel (firstField str) str with
  | none =>
    rw [hfirst] at h
    cases h
  | some result =>
    rw [hfirst] at h
    cases result with
    | none => cases h
    | some q =>
      cases h
      rfl

/-! ### Right fields -/

/-- On the line of the values the `n`-th is found, read and replaced, if there is one; if there is
none, nothing is found and nothing changes. -/
def FieldRight (E : Escaping) (tableName : Text) (values : List Text) (n : ℕ) : Prop :=
  ∃ fuel, match values[n - 1]? with
    | some v =>
      let line := createDumpString E tableName values
      let l := values.take (n - 1)
      findnth fuel line n = some (some (place E tableName l v)) ∧
        getnth fuel line n = some (E.escapeString v) ∧
        ∀ text, changenth fuel line n text false false =
          some (true, before E tableName l ++ text ++ behind E (values.drop n))
    | none =>
      let line := createDumpString E tableName values
      findnth fuel line n = some none ∧ getnth fuel line n = some [] ∧
        ∀ text insert nonzero, changenth fuel line n text insert nonzero = some (false, line)

/-- What stands in the table name behind the text that `findnth` looks for. -/
def behindStart (tableName : Text) : Text :=
  match findText valuesStart tableName with
  | some i => tableName.drop (i + 9)
  | none => tableName

/-- The values have no quote and no backslash at their end, and nothing in the table name is taken
for a value. -/
def Plain (tableName : Text) (values : List Text) : Prop :=
  (∀ v ∈ values, Clean v) ∧
    if values = [] then '\'' ∉ behindStart tableName else ¬valuesStart <:+: tableName

/-- `findnth` ends for every number, and every number from 1 on is right. -/
def LineRight (E : Escaping) (tableName : Text) (values : List Text) : Prop :=
  (∀ n, ∃ fuel found, findnth fuel (createDumpString E tableName values) n = some found) ∧
    ∀ n, 1 ≤ n → FieldRight E tableName values n

theorem findText_eq_none (h : ¬pattern <:+: str) : findText pattern str = none := by
  induction str with
  | nil =>
    refine if_neg fun heq => h ?_
    rw [heq]
  | cons c str ih =>
    rw [infix_cons_iff, not_or] at h
    unfold findText
    rw [if_neg h.1, ih h.2]
    rfl

theorem quote_mem_empty :
    '\'' ∈ (createDumpString E tableName []).drop (firstField (createDumpString E tableName [])) ↔
      '\'' ∈ behindStart tableName := by
  have hline : createDumpString E tableName [] = lineHead ++ (tableName ++
      (['`', ' ', 'V', 'A', 'L', 'U', 'E', 'S', ' ', '(', ')', ';'])) := by
    simp [createDumpString, lineStart, quoted, lineHead]
  have hskip : findText valuesStart (createDumpString E tableName []) =
      (findText valuesStart (tableName ++
        (['`', ' ', 'V', 'A', 'L', 'U', 'E', 'S', ' ', '(', ')', ';']))).map
          (· + lineHead.length) := by
    rw [hline]
    exact findText_skip (by decide)
  by_cases hname : valuesStart <:+: tableName
  · obtain ⟨i, hfound, hmore, hle⟩ := findText_append_of_infix
      ['`', ' ', 'V', 'A', 'L', 'U', 'E', 'S', ' ', '(', ')', ';'] hname
    have hfirst : firstField (createDumpString E tableName []) = lineHead.length + (i + 9) := by
      unfold firstField
      rw [hskip, hmore]
      dsimp only [map_some]
      omega
    have hle' : i + 9 ≤ tableName.length := hle
    have hdrop : (createDumpString E tableName []).drop (lineHead.length + (i + 9)) =
        tableName.drop (i + 9) ++
          (['`', ' ', 'V', 'A', 'L', 'U', 'E', 'S', ' ', '(', ')', ';']) := by
      rw [hline, drop_length_add_append, drop_append_of_le_length hle']
    have hbehind : behindStart tableName = tableName.drop (i + 9) := by
      unfold behindStart
      rw [hfound]
    rw [hfirst, hdrop, hbehind]
    simp
  have hnone : findText valuesStart (tableName ++
      (['`', ' ', 'V', 'A', 'L', 'U', 'E', 'S', ' ', '(', ')', ';'])) = none := by
    have htail : findText valuesStart
        (['`', ' ', 'V', 'A', 'L', 'U', 'E', 'S', ' ', '(', ')', ';']) = none := by decide
    rw [findText_append_of_not (by decide) hname]
    exact congrArg (Option.map _) htail
  have hfirst : firstField (createDumpString E tableName []) = 8 := by
    unfold firstField
    rw [hskip, hnone]
    rfl
  have hbehind : behindStart tableName = tableName := by
    unfold behindStart
    rw [findText_eq_none hname]
  rw [hfirst, hline, hbehind, drop_append_of_le_length (by decide)]
  simp [lineHead]

theorem firstQuote_ne_none (h : '\'' ∈ str.drop s) : firstQuote fuel s str ≠ some none := by
  induction fuel with
  | zero => simp [firstQuote]
  | succ fuel ih =>
    obtain ⟨e, hfind⟩ := isSome_iff_exists.mp (findFrom_isSome h)
    unfold firstQuote
    rw [hfind]
    dsimp only
    split_ifs
    · exact ih
    · simp

/-- **A line without values has no field** if the table name is plain. -/
theorem findnth_empty (fuel : ℕ) (h : '\'' ∉ behindStart tableName) (n : ℕ) :
    findnth (fuel + 1) (createDumpString E tableName []) n = some none := by
  unfold findnth firstQuote
  rw [findFrom_eq_none fun hmem => h (quote_mem_empty.mp hmem)]

theorem fieldRight_none (hnone : values[n - 1]? = none)
    (hfind : findnth fuel (createDumpString E tableName values) n = some none) :
    FieldRight E tableName values n := by
  refine ⟨fuel, ?_⟩
  rw [hnone]
  refine ⟨hfind, ?_, fun text insert nonzero => ?_⟩
  · unfold getnth
    rw [hfind]
  unfold changenth
  rw [hfind]

theorem fieldRight_some (hvalues : values = l ++ v :: r)
    (hfind : findnth fuel (createDumpString E tableName values) (l.length + 1) =
      some (some (place E tableName l v))) : FieldRight E tableName values (l.length + 1) := by
  subst hvalues
  have hget : (l ++ v :: r)[l.length + 1 - 1]? = some v := by simp
  have htake : (l ++ v :: r).take (l.length + 1 - 1) = l := by simp
  have hdrop : (l ++ v :: r).drop (l.length + 1) = r := by
    rw [drop_length_add_append]
    rfl
  refine ⟨fuel, ?_⟩
  rw [hget]
  dsimp only
  rw [htake, hdrop]
  refine ⟨hfind, ?_, fun text => ?_⟩
  · unfold getnth
    rw [hfind]
    exact congrArg some (substr_place E tableName l v r)
  unfold changenth
  rw [hfind]
  simp [split_line, place]

/-- **The fields of a plain line are right.** -/
theorem Plain.fieldRight (h : Plain tableName values) (hn : 1 ≤ n) :
    FieldRight E tableName values n := by
  obtain ⟨hclean, hname⟩ := h
  cases hget : values[n - 1]? with
  | some v =>
    obtain ⟨hlt, hv⟩ := List.getElem?_eq_some_iff.mp hget
    have hsplit : values = values.take (n - 1) ++ v :: values.drop n := by
      have htail := drop_eq_getElem_cons hlt
      rw [hv, show n - 1 + 1 = n by omega] at htail
      rw [← htail, take_append_drop]
    have hlen : (values.take (n - 1)).length + 1 = n := by
      rw [length_take]
      omega
    have hne : values ≠ [] := ne_nil_of_length_pos (by omega)
    rw [if_neg hne] at hname
    have hfind : findnth 1 (createDumpString E tableName values)
        ((values.take (n - 1)).length + 1) =
          some (some (place E tableName (values.take (n - 1)) v)) := by
      rw [congrArg (createDumpString E tableName) hsplit]
      exact findnth_clean 0 hname (fun x hx => hclean x (mem_of_mem_take hx))
        (hclean v (mem_of_getElem? hget)) (values.drop n)
    have hright := fieldRight_some hsplit hfind
    rwa [hlen] at hright
  | none =>
    rw [List.getElem?_eq_none_iff] at hget
    rcases eq_nil_or_concat' values with rfl | ⟨l, v, rfl⟩
    · exact fieldRight_none rfl (findnth_empty 0 (by simpa using hname) n)
    rw [if_neg (by simp)] at hname
    rw [length_append, length_singleton] at hget
    exact fieldRight_none (getElem?_eq_none (by simpa using hget))
      (findnth_past 0 hname hclean (by omega))

/-- **The fields of a line are found, read and replaced as they were written if and only if no
value holds a quote or ends with a backslash** and the table name does not pass for values. -/
theorem fields_right_iff (E : Escaping) (tableName : Text) (values : List Text) :
    LineRight E tableName values ↔ Plain tableName values := by
  constructor
  · rintro ⟨-, hright⟩
    cases values with
    | nil =>
      refine ⟨fun v hv => absurd hv not_mem_nil, ?_⟩
      rw [if_pos rfl]
      intro hquote
      obtain ⟨fuel, hfind, -⟩ := hright 1 (le_refl 1)
      unfold findnth at hfind
      have hsome : firstQuote fuel _ _ ≠ some none :=
        firstQuote_ne_none ((@quote_mem_empty E tableName).mpr hquote)
      split at hfind
      · cases hfind
      · exact hsome ‹_›
      · cases hfind
    | cons a values =>
      have hname : ¬valuesStart <:+: tableName := by
        intro hname
        obtain ⟨fuel, hfind, -⟩ := hright 1 (le_refl 1)
        have hstart := findnth_start hfind
        have hlt := firstField_lt (E := E) hname (E.escapeString a ++ behind E values)
        rw [← append_assoc, ← split_line E tableName [] a values] at hlt
        exact absurd hstart (Nat.ne_of_lt hlt)
      refine ⟨?_, by rwa [if_neg (cons_ne_nil a values)]⟩
      -- otherwise the first value that is not clean is missed
      by_contra hunclean
      push Not at hunclean
      obtain ⟨l, w, r, hsplit, hl, hw⟩ := exists_first_unclean hunclean
      rw [hsplit] at hright
      obtain ⟨fuel, hfind⟩ := hright (l.length + 1) (Nat.le_add_left 1 l.length)
      have hget : (l ++ w :: r)[l.length + 1 - 1]? = some w := by simp
      have htake : (l ++ w :: r).take (l.length + 1 - 1) = l := by simp
      rw [hget] at hfind
      dsimp only at hfind
      rw [htake] at hfind
      exact findnth_missed hname hl hw fuel _ hfind.1
  intro hplain
  have hright : ∀ n, 1 ≤ n → FieldRight E tableName values n := fun n hn => hplain.fieldRight hn
  have hends : ∀ n, 1 ≤ n → ∃ fuel found,
      findnth fuel (createDumpString E tableName values) n = some found := by
    intro n hn
    obtain ⟨fuel, hfind⟩ := hright n hn
    cases hget : values[n - 1]? with
    | some v | none =>
      rw [hget] at hfind
      exact ⟨fuel, _, hfind.1⟩
  refine ⟨fun n => ?_, hright⟩
  cases n with
  | zero => exact hends 1 (le_refl 1)
  | succ n => exact hends (n + 1) (Nat.le_add_left 1 n)

/-- For a guild named `O'Neil` `findnth` never ends. -/
theorem oneil_never_found : (∀ fuel, findnth fuel (createDumpString mysql ['g', 'u', 'i', 'l', 'd']
        [['O', '\'', 'N', 'e', 'i', 'l']]) 1 = none) ∧
      ¬LineRight mysql ['g', 'u', 'i', 'l', 'd'] [['O', '\'', 'N', 'e', 'i', 'l']] := by
  have hname : ¬valuesStart <:+: ['g', 'u', 'i', 'l', 'd'] := by decide
  have hunclean : ¬Clean ['O', '\'', 'N', 'e', 'i', 'l'] := fun h => absurd h.1 (by decide)
  have hnever : ∀ fuel, findnth fuel (createDumpString mysql ['g', 'u', 'i', 'l', 'd']
      [['O', '\'', 'N', 'e', 'i', 'l']]) 1 = none := by
    intro fuel
    have hstuck := @firstQuote_stuck mysql _ hunclean
      (before mysql ['g', 'u', 'i', 'l', 'd'] []) (behind mysql []).tail fuel
    have hline := split_line mysql ['g', 'u', 'i', 'l', 'd'] [] ['O', '\'', 'N', 'e', 'i', 'l'] []
    unfold findnth
    rw [firstField_line hname, show [['O', '\'', 'N', 'e', 'i', 'l']] =
      [] ++ ['O', '\'', 'N', 'e', 'i', 'l'] :: [] from rfl, hline]
    rw [show behind mysql [] = '\'' :: (behind mysql []).tail from rfl, hstuck]
  refine ⟨hnever, fun hright => ?_⟩
  obtain ⟨fuel, found, hfound⟩ := hright.1 1
  rw [hnever fuel] at hfound
  cases hfound

end ZerosCore.DumpLine
