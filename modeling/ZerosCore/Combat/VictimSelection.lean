/-
# The next victim

`ThreatContainer::selectNextVictim` goes through the threat list once and passes over second
choices; if the last entry is one, it takes everyone for a second choice and begins again.  The
current victim is kept unless an entry has 130% of its threat, or 110% in melee range; what has
more than 110% and does neither is passed over.

The selection always comes to an end, and what it comes to is right but for two things
(`chosen_iff`).  A second choice that is the current victim is still compared with, and kept, as
long as the pass has not come to it.  And a pass in which every attackable first choice lies in the
gap between 110% and 130% of a victim that is not attacked in the end selects no one, or begins
again, or not, by what the last entry is.
-/

import ZerosCore.Combat.ThreatManager
import Mathlib.Tactic.Linarith

namespace ZerosCore.Combat

open List

/-- Threats as exact numbers. -/
def rationals : Floats ℚ :=
  { zero := 0, add := fun a b => a + b, sub := fun a b => a - b, pct := fun a n => a * n / 100
    mul11 := fun a => 11 / 10 * a
    mul13 := fun a => 13 / 10 * a
    lt := fun a b => a < b
    le := fun a b => a ≤ b
    eq := fun a b => a = b }

namespace ThreatManager

section Loop

variable {F : Type} (ops : Floats F) (w : World F)

/-- The loop of `ThreatContainer::selectNextVictim` with its iterator, which stands before the rest
of the list, and its variables. -/
def selectLoop (s : ThreatManager F) :
    ℕ → List ℕ → Option ℕ → Bool → Option (Option ℕ)
  | 0, _, _, _ => none
  | _ + 1, [], _, _ => some none
  | fuel + 1, currentRef :: rest, currentVictim, noPriorityTargetFound =>
    if !noPriorityTargetFound && w.isSecondChoice (s.target currentRef) then
      if rest ≠ [] then
        selectLoop s fuel rest (if currentVictim = some currentRef then none else currentVictim)
          noPriorityTargetFound
      else selectLoop s fuel s.online currentVictim true
    else if w.canCreatureAttack (s.target currentRef) then
      match currentVictim with
      | none => some (some currentRef)
      | some victim =>
        let threat := s.getThreat ops currentRef
        let victimThreat := s.getThreat ops victim
        if victim = currentRef ∨ ops.le threat (ops.mul11 victimThreat) then
          if victim ≠ currentRef ∧ w.canCreatureAttack (s.target victim) then some (some victim)
          else some (some currentRef)
        else if ops.lt (ops.mul13 victimThreat) threat ∨
            (ops.lt (ops.mul11 victimThreat) threat ∧
              w.isWithinMeleeRange (s.target currentRef)) then
          some (some currentRef)
        else selectLoop s fuel rest currentVictim noPriorityTargetFound
    else selectLoop s fuel rest currentVictim noPriorityTargetFound

/-- What the loop goes on to from the end of a scan. -/
def Scan.resolve (s : ThreatManager F) : Scan → Option ℕ
  | .found id => some id
  | .notFound => none
  | .again currentVictim =>
    match s.scan ops w true s.online currentVictim with
    | .found id => some id
    | _ => none

theorem selectNextVictim_eq (s : ThreatManager F) (cv : Option ℕ) :
    s.selectNextVictim ops w cv = (s.scan ops w false s.online cv).resolve ops w s := by
  unfold selectNextVictim Scan.resolve
  cases s.scan ops w false s.online cv with
  | found id | again currentVictim | notFound => rfl

theorem selectLoop_true (s : ThreatManager F) (l : List ℕ) (cv : Option ℕ) {fuel : ℕ}
    (hfuel : l.length < fuel) :
    s.selectLoop ops w fuel l cv true = some ((s.scan ops w true l cv).resolve ops w s) := by
  induction l generalizing fuel cv with
  | nil =>
    cases fuel with
    | zero => cases hfuel
    | succ fuel => rfl
  | cons x l ih =>
    cases fuel with
    | zero => cases hfuel
    | succ fuel =>
      have hnext := @ih cv fuel (Nat.lt_of_succ_lt_succ hfuel)
      unfold selectLoop scan
      rw [Bool.not_true, Bool.false_and, if_neg Bool.false_ne_true, if_neg Bool.false_ne_true]
      by_cases hattack : w.canCreatureAttack (s.target x) = true
      · rw [if_pos hattack, if_pos hattack]
        cases cv with
        | none => rfl
        | some victim =>
          dsimp only
          split
          · split <;> rfl
          split
          · rfl
          · exact hnext
      rw [if_neg hattack, if_neg hattack]
      exact hnext

theorem scan_true_ne_again (s : ThreatManager F) (l : List ℕ) (cv c : Option ℕ) :
    s.scan ops w true l cv ≠ .again c := by
  induction l generalizing cv with
  | nil => exact nofun
  | cons y l ih =>
    unfold scan
    rw [Bool.not_true, Bool.false_and, if_neg Bool.false_ne_true]
    by_cases hattack : w.canCreatureAttack (s.target y) = true
    · rw [if_pos hattack]
      cases cv with
      | none => exact nofun
      | some victim =>
        dsimp only
        split
        · split <;> exact nofun
        split
        · exact nofun
        · exact ih _
    rw [if_neg hattack]
    exact ih _

/-- **The loop ends**: the list is gone through twice at most. -/
theorem selectLoop_false (s : ThreatManager F) (l : List ℕ) (cv : Option ℕ) {fuel : ℕ}
    (hfuel : l.length + s.online.length < fuel) :
    s.selectLoop ops w fuel l cv false = some ((s.scan ops w false l cv).resolve ops w s) := by
  induction l generalizing fuel cv with
  | nil =>
    cases fuel with
    | zero => cases hfuel
    | succ fuel => rfl
  | cons x l ih =>
    cases fuel with
    | zero => cases hfuel
    | succ fuel =>
      rw [length_cons] at hfuel
      have hnext (cv : Option ℕ) := @ih cv fuel (by omega)
      unfold selectLoop scan
      rw [Bool.not_false, Bool.true_and]
      by_cases hsecond : w.isSecondChoice (s.target x) = true
      · rw [if_pos hsecond, if_pos hsecond]
        by_cases hrest : l ≠ []
        · rw [if_pos hrest, if_pos hrest]
          exact hnext _
        have hagain : (Scan.again cv).resolve ops w s =
            match s.scan ops w true s.online cv with
            | .found id => some id
            | _ => none := rfl
        rw [if_neg hrest, if_neg hrest, selectLoop_true ops w s s.online cv (by omega),
          hagain]
        cases hscan : s.scan ops w true s.online cv with
        | found id | notFound => rfl
        | again c => exact absurd hscan (scan_true_ne_again ops w s _ cv c)
      rw [if_neg hsecond, if_neg hsecond]
      by_cases hattack : w.canCreatureAttack (s.target x) = true
      · rw [if_pos hattack, if_pos hattack]
        cases cv with
        | none => rfl
        | some victim =>
          dsimp only
          split
          · split <;> rfl
          split
          · rfl
          · exact hnext _
      rw [if_neg hattack, if_neg hattack]
      exact hnext _

variable {ops w} {s : ThreatManager F} {c : Option ℕ} {id : ℕ}

theorem resolve_found (h : s.scan ops w true s.online c = .found id) :
    (Scan.again c).resolve ops w s = some id := by
  unfold Scan.resolve
  dsimp only
  rw [h]

theorem resolve_notFound (h : s.scan ops w true s.online c = .notFound) :
    (Scan.again c).resolve ops w s = none := by
  unfold Scan.resolve
  dsimp only
  rw [h]

end Loop

/-! ### The tests of an entry -/

variable {s : ThreatManager ℚ} {w : World ℚ} {cv : Option ℕ} {l pre post : List ℕ} {v x y z : ℕ}

/-- The threat of a reference, as an exact number. -/
def threatOf (s : ThreatManager ℚ) (id : ℕ) : ℚ := s.getThreat rationals id

/-- The entry can be attacked. -/
def Attackable (w : World ℚ) (s : ThreatManager ℚ) (id : ℕ) : Prop :=
  w.canCreatureAttack (s.target id) = true

/-- The entry is a second choice. -/
def Second (w : World ℚ) (s : ThreatManager ℚ) (id : ℕ) : Prop :=
  w.isSecondChoice (s.target id) = true

/-- The entry has at most 110% of the victim's threat. -/
def Near (s : ThreatManager ℚ) (v x : ℕ) : Prop := s.threatOf x ≤ 11 / 10 * s.threatOf v

/-- The entry exceeds 130% of the victim's threat, or 110% while in melee range. -/
def Beats (w : World ℚ) (s : ThreatManager ℚ) (v x : ℕ) : Prop :=
  13 / 10 * s.threatOf v < s.threatOf x ∨
    (11 / 10 * s.threatOf v < s.threatOf x ∧ w.isWithinMeleeRange (s.target x) = true)

instance (id : ℕ) : Decidable (Attackable w s id) :=
  inferInstanceAs (Decidable (w.canCreatureAttack (s.target id) = true))

instance (id : ℕ) : Decidable (Second w s id) :=
  inferInstanceAs (Decidable (w.isSecondChoice (s.target id) = true))

instance (v x : ℕ) : Decidable (Near s v x) :=
  inferInstanceAs (Decidable (s.threatOf x ≤ 11 / 10 * s.threatOf v))

/-- The entry is passed over for a victim. -/
def Skips (w : World ℚ) (s : ThreatManager ℚ) (cv : Option ℕ) (x : ℕ) : Prop :=
  ∃ v, cv = some v ∧ ¬Near s v x ∧ ¬Beats w s v x

/-- Whom an entry that is not passed over selects: the victim, or itself. -/
def choice (w : World ℚ) (s : ThreatManager ℚ) (cv : Option ℕ) (x : ℕ) : ℕ :=
  match cv with
  | none => x
  | some v => if Near s v x ∧ Attackable w s v then v else x

theorem not_skips_self (w : World ℚ) (s : ThreatManager ℚ) (v : ℕ) : ¬Skips w s (some v) v := by
  rintro ⟨v', heq, hnear, hbeats⟩
  cases heq
  unfold Near at hnear
  unfold Beats at hbeats
  rw [not_or] at hbeats
  linarith

/-- An attackable entry that is not passed over as a second choice: it is passed over for the
victim, or it decides. -/
theorem scan_entry {b : Bool} (hsecond : ¬(!b && w.isSecondChoice (s.target x)) = true)
    (hattack : w.canCreatureAttack (s.target x) = true) (cv : Option ℕ) (l : List ℕ) :
    (Skips w s cv x ∧ s.scan rationals w b (x :: l) cv = s.scan rationals w b l cv) ∨
    (¬Skips w s cv x ∧ s.scan rationals w b (x :: l) cv = .found (choice w s cv x)) := by
  cases cv with
  | none =>
    rw [scan, if_neg hsecond, if_pos hattack]
    refine .inr ⟨?_, rfl⟩
    rintro ⟨v, heq, -⟩
    cases heq
  | some v =>
    have hnear : rationals.le (s.getThreat rationals x)
        (rationals.mul11 (s.getThreat rationals v)) = true ↔ Near s v x := decide_eq_true_iff
    have hbeats : (rationals.lt (rationals.mul13 (s.getThreat rationals v))
          (s.getThreat rationals x) = true ∨
        (rationals.lt (rationals.mul11 (s.getThreat rationals v))
          (s.getThreat rationals x) = true ∧ w.isWithinMeleeRange (s.target x) = true)) ↔
        Beats w s v x := or_congr decide_eq_true_iff (and_congr_left' decide_eq_true_iff)
    rw [scan, if_neg hsecond, if_pos hattack]
    by_cases hself : v = x
    · subst hself
      refine .inr ⟨not_skips_self w s v, ?_⟩
      rw [if_pos (.inl rfl), if_neg fun h => h.1 rfl]
      unfold choice
      simp only [ite_self]
    by_cases hn : Near s v x
    · refine .inr ⟨?_, ?_⟩
      · rintro ⟨v', heq, hnot, -⟩
        cases heq
        exact hnot hn
      rw [if_pos (.inr (hnear.mpr hn))]
      unfold choice Attackable
      dsimp only
      by_cases hvictim : w.canCreatureAttack (s.target v) = true
      · rw [if_pos ⟨hself, hvictim⟩, if_pos ⟨hn, hvictim⟩]
      · rw [if_neg fun h => hvictim h.2, if_neg fun h => hvictim h.2]
    rw [if_neg (not_or.mpr ⟨hself, fun h => hn (hnear.mp h)⟩)]
    by_cases hb : Beats w s v x
    · refine .inr ⟨?_, ?_⟩
      · rintro ⟨v', heq, -, hnot⟩
        cases heq
        exact hnot hb
      rw [if_pos (hbeats.mpr hb)]
      unfold choice
      dsimp only
      rw [if_neg fun h => hn h.1]
    refine .inl ⟨⟨v, rfl, hn, hb⟩, ?_⟩
    rw [if_neg fun h => hb (hbeats.mp h)]

/-! ### The two passes -/

/-- The victim that is compared with after some entries: a second choice is dropped when the pass
comes to it. -/
def remaining (w : World ℚ) (s : ThreatManager ℚ) (cv : Option ℕ) (pre : List ℕ) :
    Option ℕ :=
  if ∃ v ∈ pre, Second w s v ∧ cv = some v then none else cv

theorem remaining_nil (cv : Option ℕ) : remaining w s cv [] = cv :=
  if_neg fun ⟨v, hv, _⟩ => by cases hv

theorem remaining_cons (cv : Option ℕ) (x : ℕ) (pre : List ℕ) :
    remaining w s cv (x :: pre) = remaining w s (remaining w s cv [x]) pre := by
  unfold remaining
  by_cases hx : ∃ v ∈ [x], Second w s v ∧ cv = some v
  · rw [if_pos hx, ite_self, if_pos]
    obtain ⟨v, hv, h⟩ := hx
    exact ⟨v, mem_cons.mpr (.inl (mem_singleton.mp hv)), h⟩
  rw [if_neg hx]
  refine if_congr ?_ rfl rfl
  constructor
  · rintro ⟨v, hv, h⟩
    rcases mem_cons.mp hv with rfl | hv
    · exact absurd ⟨v, mem_singleton_self v, h⟩ hx
    · exact ⟨v, hv, h⟩
  rintro ⟨v, hv, h⟩
  exact ⟨v, mem_cons_of_mem x hv, h⟩

theorem remaining_eq_some {pre : List ℕ} :
    remaining w s cv pre = some v ↔ cv = some v ∧ ¬(Second w s v ∧ v ∈ pre) := by
  unfold remaining
  by_cases h : ∃ v ∈ pre, Second w s v ∧ cv = some v
  · rw [if_pos h]
    obtain ⟨u, hu, hsecond, hcv⟩ := h
    constructor
    · intro hnone
      cases hnone
    rintro ⟨hv, hnot⟩
    rw [hcv] at hv
    cases hv
    exact absurd ⟨hsecond, hu⟩ hnot
  rw [if_neg h]
  constructor
  · exact fun hcv => ⟨hcv, fun hv => h ⟨v, hv.2, hv.1, hcv⟩⟩
  · exact fun hcv => hcv.1

/-- No attackable first choice decides. -/
def Idle (w : World ℚ) (s : ThreatManager ℚ) (cv : Option ℕ) (l : List ℕ) : Prop :=
  ∀ pre y post, l = pre ++ y :: post → Attackable w s y → ¬Second w s y →
    Skips w s (remaining w s cv pre) y

theorem idle_nil (cv : Option ℕ) : Idle w s cv [] := by
  intro pre y post h
  cases pre with
  | nil => cases h
  | cons a pre => cases h

theorem idle_cons : Idle w s cv (x :: l) ↔
      (Attackable w s x → ¬Second w s x → Skips w s cv x) ∧ Idle w s (remaining w s cv [x]) l := by
  constructor
  · intro h
    refine ⟨?_, fun pre y post hl => ?_⟩
    · have hx := h [] x l rfl
      rwa [remaining_nil] at hx
    have hy := h (x :: pre) y post (by rw [hl]; rfl)
    rwa [remaining_cons] at hy
  rintro ⟨hx, hl⟩ pre y post heq
  cases pre with
  | nil =>
    cases heq
    rwa [remaining_nil]
  | cons a pre =>
    cases heq
    rw [remaining_cons]
    exact hl pre y post rfl

/-- What the first pass comes to. -/
inductive FirstPass (w : World ℚ) (s : ThreatManager ℚ) (cv : Option ℕ) (l : List ℕ) : Scan → Prop
  | found (pre : List ℕ) (x : ℕ) (post : List ℕ) (hl : l = pre ++ x :: post)
      (hattack : Attackable w s x) (hfirst : ¬Second w s x)
      (hdecides : ¬Skips w s (remaining w s cv pre) x) (hidle : Idle w s cv pre) :
      FirstPass w s cv l (.found (choice w s (remaining w s cv pre) x))
  | again (pre : List ℕ) (z : ℕ) (hl : l = pre ++ [z]) (hz : Second w s z) (hidle : Idle w s cv l) :
      FirstPass w s cv l (.again (remaining w s cv pre))
  | notFound (hlast : ∀ pre z, l = pre ++ [z] → ¬Second w s z) (hidle : Idle w s cv l) :
      FirstPass w s cv l .notFound

theorem FirstPass.cons {r : Scan} (hx : Attackable w s x → ¬Second w s x → Skips w s cv x)
    (hlast : l = [] → ¬Second w s x) (h : FirstPass w s (remaining w s cv [x]) l r) :
    FirstPass w s cv (x :: l) r := by
  cases h with
  | found pre y post hl hattack hfirst hdecides hidle =>
    rw [← remaining_cons] at hdecides ⊢
    exact .found (x :: pre) y post (by rw [hl]; rfl) hattack hfirst hdecides
      (idle_cons.mpr ⟨hx, hidle⟩)
  | again pre z hl hz hidle =>
    rw [← remaining_cons]
    exact .again (x :: pre) z (by rw [hl]; rfl) hz (idle_cons.mpr ⟨hx, hidle⟩)
  | notFound hlasts hidle =>
    refine .notFound (fun pre z hl => ?_) (idle_cons.mpr ⟨hx, hidle⟩)
    cases pre with
    | nil =>
      cases hl
      exact hlast rfl
    | cons a pre =>
      cases hl
      exact hlasts pre z rfl

theorem remaining_singleton (cv : Option ℕ) (x : ℕ) :
    (Second w s x → remaining w s cv [x] = if cv = some x then none else cv) ∧
      (¬Second w s x → remaining w s cv [x] = cv) := by
  constructor
  · intro hsecond
    refine if_congr ?_ rfl rfl
    constructor
    · rintro ⟨v, hv, -, hcv⟩
      rw [hcv, mem_singleton.mp hv]
    · exact fun hcv => ⟨x, mem_singleton_self x, hsecond, hcv⟩
  intro hfirst
  refine if_neg ?_
  rintro ⟨v, hv, hsecond, -⟩
  exact hfirst (mem_singleton.mp hv ▸ hsecond)

/-- **The first pass**, by induction on the list. -/
theorem firstPass (w : World ℚ) (s : ThreatManager ℚ) (cv : Option ℕ) (l : List ℕ) :
    FirstPass w s cv l (s.scan rationals w false l cv) := by
  induction l generalizing cv with
  | nil => exact .notFound (fun pre z h => by cases pre <;> cases h) (idle_nil cv)
  | cons x l ih =>
    have hrest := ih (remaining w s cv [x])
    by_cases hsecond : w.isSecondChoice (s.target x) = true
    · have hx (_ : Attackable w s x) (hnot : ¬Second w s x) : Skips w s cv x := absurd hsecond hnot
      unfold scan
      rw [Bool.not_false, Bool.true_and, if_pos hsecond]
      by_cases hl : l ≠ []
      · rw [if_pos hl, ← (remaining_singleton cv x).1 hsecond]
        exact hrest.cons hx fun hnil => absurd hnil hl
      rw [if_neg hl]
      rw [not_not] at hl
      subst hl
      have hagain : FirstPass w s cv [x] _ :=
        .again [] x rfl hsecond (idle_cons.mpr ⟨hx, idle_nil _⟩)
      rwa [remaining_nil] at hagain
    by_cases hattack : w.canCreatureAttack (s.target x) = true
    · rcases scan_entry (b := false) hsecond hattack cv l with ⟨hskips, heq⟩ | ⟨hnot, heq⟩
      · rw [heq]
        refine FirstPass.cons (fun _ _ => hskips) (fun _ => hsecond) ?_
        rwa [(remaining_singleton cv x).2 hsecond] at hrest ⊢
      rw [heq]
      have hfound (hnot) : FirstPass w s cv (x :: l) _ :=
        .found [] x l rfl hattack hsecond hnot (idle_nil cv)
      exact hfound hnot
    unfold scan
    rw [Bool.not_false, Bool.true_and, if_neg hsecond, if_neg hattack]
    refine FirstPass.cons (fun h => absurd h hattack) (fun _ => hsecond) ?_
    rwa [(remaining_singleton cv x).2 hsecond] at hrest ⊢

/-- What the second pass comes to. -/
inductive SecondPass (w : World ℚ) (s : ThreatManager ℚ) (cv : Option ℕ) (l : List ℕ) : Scan → Prop
  | found (pre : List ℕ) (x : ℕ) (post : List ℕ) (hl : l = pre ++ x :: post)
      (hattack : Attackable w s x) (hdecides : ¬Skips w s cv x)
      (hbefore : ∀ y ∈ pre, Attackable w s y → Skips w s cv y) :
      SecondPass w s cv l (.found (choice w s cv x))
  | notFound (hall : ∀ y ∈ l, Attackable w s y → Skips w s cv y) : SecondPass w s cv l .notFound

theorem SecondPass.cons {r : Scan} (hx : Attackable w s x → Skips w s cv x)
    (h : SecondPass w s cv l r) : SecondPass w s cv (x :: l) r := by
  cases h with
  | found pre y post hl hattack hdecides hbefore =>
    refine .found (x :: pre) y post (by rw [hl]; rfl) hattack hdecides fun z hz => ?_
    rcases mem_cons.mp hz with rfl | hz
    · exact hx
    · exact hbefore z hz
  | notFound hall =>
    refine .notFound fun z hz => ?_
    rcases mem_cons.mp hz with rfl | hz
    · exact hx
    · exact hall z hz

/-- **The second pass**, by induction on the list. -/
theorem secondPass (w : World ℚ) (s : ThreatManager ℚ) (cv : Option ℕ) (l : List ℕ) :
    SecondPass w s cv l (s.scan rationals w true l cv) := by
  induction l with
  | nil => exact .notFound nofun
  | cons x l ih =>
    by_cases hattack : w.canCreatureAttack (s.target x) = true
    · rcases scan_entry (b := true) Bool.false_ne_true hattack cv l with
        ⟨hskips, heq⟩ | ⟨hnot, heq⟩
      · rw [heq]
        exact ih.cons fun _ => hskips
      rw [heq]
      exact .found [] x l rfl hattack hnot nofun
    unfold scan
    rw [Bool.not_true, Bool.false_and, if_neg Bool.false_ne_true, if_neg hattack]
    exact ih.cons fun h => absurd h hattack

/-! ### What is selected -/

/-- What the selection owes, for the victim there is and the one it comes to. -/
structure Chosen (w : World ℚ) (s : ThreatManager ℚ) (cv r : Option ℕ) : Prop where
  /-- No one only if no entry is attackable. -/
  none_only : r = none → ∀ x ∈ s.online, ¬Attackable w s x
  /-- No second choice while an attackable first choice exists. -/
  first_choice : ∀ x, r = some x → Second w s x → ∀ y ∈ s.online, Attackable w s y → Second w s y
  /-- An attackable first choice stays the victim unless someone exceeds the thresholds. -/
  keeps : ∀ v, cv = some v → v ∈ s.online → Attackable w s v → ¬Second w s v →
    r = some v ∨ ∃ x ∈ s.online, Attackable w s x ∧ Beats w s v x

/-- An attackable second choice is the victim, and an attackable first choice that the pass comes to
before it has at most 110% of its threat, and none before that decides. -/
def KeptSecond (w : World ℚ) (s : ThreatManager ℚ) (cv : Option ℕ) : Prop :=
  ∃ v pre x post, s.online = pre ++ x :: post ∧ cv = some v ∧ v ∉ pre ∧ Second w s v ∧
    Attackable w s v ∧ Attackable w s x ∧ ¬Second w s x ∧ Near s v x ∧ Idle w s cv pre

/-- The last entry is a second choice, and of all entries together the first that is not passed over
selects a first choice, unless there is none. -/
def SecondPassRight (w : World ℚ) (s : ThreatManager ℚ) (cv : Option ℕ) : Prop :=
  ∃ pre z, s.online = pre ++ [z] ∧ Second w s z ∧
    ∃ before x after, s.online = before ++ x :: after ∧ Attackable w s x ∧
      ¬Skips w s (remaining w s cv pre) x ∧
      (∀ y ∈ before, Attackable w s y → Skips w s (remaining w s cv pre) y) ∧
      (Second w s (choice w s (remaining w s cv pre) x) →
        ∀ y ∈ s.online, Attackable w s y → Second w s y)

theorem first_split {p : List ℕ → ℕ → Prop} {pre' post' : List ℕ}
    (h : pre ++ x :: post = pre' ++ y :: post') (hx : p pre x) (hy : p pre' y)
    (hpre : ∀ a z b, pre = a ++ z :: b → ¬p a z) (hpre' : ∀ a z b, pre' = a ++ z :: b → ¬p a z) :
    pre = pre' ∧ x = y := by
  rcases append_eq_append_iff.mp h with ⟨a, hp, hl⟩ | ⟨a, hp, hl⟩
  · cases a with
    | nil =>
      cases hl
      exact ⟨by rw [hp, append_nil], rfl⟩
    | cons z a =>
      cases hl
      exact absurd hx (hpre' pre x a hp)
  cases a with
  | nil =>
    cases hl
    exact ⟨by rw [hp, append_nil], rfl⟩
  | cons z a =>
    cases hl
    exact absurd hy (hpre pre' y a hp)

theorem choice_keeps (hdecides : ¬Skips w s (some v) x) (hattack : Attackable w s v) :
    choice w s (some v) x = v ∨ Beats w s v x := by
  by_cases hbeats : Beats w s v x
  · exact .inr hbeats
  have hnear : Near s v x := by
    by_contra hnot
    exact hdecides ⟨v, rfl, hnot, hbeats⟩
  exact .inl (if_pos ⟨hnear, hattack⟩)

theorem choice_second (hfirst : ¬Second w s x) (h : Second w s (choice w s cv x)) :
    ∃ v, cv = some v ∧ Second w s v ∧ Attackable w s v ∧ Near s v x := by
  unfold choice at h
  cases cv with
  | none => exact absurd h hfirst
  | some v =>
    dsimp only at h
    by_cases hnear : Near s v x ∧ Attackable w s v
    · rw [if_pos hnear] at h
      exact ⟨v, rfl, h, hnear.2, hnear.1⟩
    rw [if_neg hnear] at h
    exact absurd h hfirst

theorem decides_keeps (hx : x ∈ s.online) (hattack : Attackable w s x)
    (hdecides : ¬Skips w s (remaining w s cv pre) x) (hcv : cv = some v)
    (hvictim : Attackable w s v) (hfirst : ¬Second w s v) :
    some (choice w s (remaining w s cv pre) x) = some v ∨
      ∃ x ∈ s.online, Attackable w s x ∧ Beats w s v x := by
  have hremaining : remaining w s cv pre = some v :=
    remaining_eq_some.mpr ⟨hcv, fun h => hfirst h.1⟩
  rw [hremaining] at hdecides ⊢
  rcases choice_keeps hdecides hvictim with heq | hbeats
  · exact .inl (congrArg some heq)
  · exact .inr ⟨x, hx, hattack, hbeats⟩

theorem not_keptSecond_of_idle (h : Idle w s cv s.online) : ¬KeptSecond w s cv := by
  rintro ⟨v, pre, x, post, hl, hcv, hmem, -, -, hattack, hfirst, hnear, -⟩
  obtain ⟨v', heq, hnot, -⟩ := h pre x post hl hattack hfirst
  rw [remaining_eq_some.mpr ⟨hcv, fun h => hmem h.2⟩] at heq
  cases heq
  exact hnot hnear

theorem chosen_found (hl : s.online = pre ++ x :: post) (hattack : Attackable w s x)
    (hfirst : ¬Second w s x) (hdecides : ¬Skips w s (remaining w s cv pre) x)
    (hidle : Idle w s cv pre) :
    Chosen w s cv (some (choice w s (remaining w s cv pre) x)) ↔ ¬KeptSecond w s cv := by
  have hx : x ∈ s.online := by
    rw [hl]
    exact mem_append_right pre mem_cons_self
  constructor
  · rintro hchosen ⟨v, pre', y, post', hl', hcv, hmem, hsecond, hvictim, hy, hyfirst, hnear, hidle'⟩
    have hremaining : remaining w s cv pre' = some v :=
      remaining_eq_some.mpr ⟨hcv, fun h => hmem h.2⟩
    have hydecides : ¬Skips w s (remaining w s cv pre') y := by
      rw [hremaining]
      rintro ⟨v', heq, hnot, -⟩
      cases heq
      exact hnot hnear
    -- Only one entry decides first.
    obtain ⟨rfl, rfl⟩ := first_split
      (p := fun pre z => Attackable w s z ∧ ¬Second w s z ∧ ¬Skips w s (remaining w s cv pre) z)
      (hl.symm.trans hl') ⟨hattack, hfirst, hdecides⟩ ⟨hy, hyfirst, hydecides⟩
      (fun a z b heq h => h.2.2 (hidle a z b heq h.1 h.2.1))
      (fun a z b heq h => h.2.2 (hidle' a z b heq h.1 h.2.1))
    refine hfirst (hchosen.first_choice v ?_ hsecond x hx hattack)
    rw [hremaining]
    exact congrArg some (if_pos ⟨hnear, hvictim⟩)
  intro hnot
  refine ⟨nofun, ?_, fun v hcv _ hvictim hv =>
    decides_keeps hx hattack hdecides hcv hvictim hv⟩
  intro id hid hsecond
  cases hid
  obtain ⟨v, hv, hvsecond, hvictim, hnear⟩ := choice_second hfirst hsecond
  obtain ⟨hcv, hmem⟩ := remaining_eq_some.mp hv
  exact absurd ⟨v, pre, x, post, hl, hcv, fun h => hmem ⟨hvsecond, h⟩, hvsecond, hvictim, hattack,
    hfirst, hnear, hidle⟩ hnot

theorem chosen_none : Chosen w s cv none ↔ ∀ x ∈ s.online, ¬Attackable w s x := by
  constructor
  · exact fun h => h.none_only rfl
  intro h
  refine ⟨fun _ => h, nofun, fun v _ hv hvictim _ => ?_⟩
  exact absurd hvictim (h v hv)

theorem chosen_second (hl : s.online = pre ++ [z]) (hz : Second w s z) :
    Chosen w s cv ((Scan.again (remaining w s cv pre)).resolve rationals w s) ↔
      (∀ x ∈ s.online, ¬Attackable w s x) ∨ SecondPassRight w s cv := by
  have hsecond := secondPass w s (remaining w s cv pre) s.online
  cases hscan : s.scan rationals w true s.online (remaining w s cv pre) with
  | found id =>
    rw [resolve_found hscan]
    rw [hscan] at hsecond
    cases hsecond with
    | found before x after hx hattack hdecides hbefore =>
      have hmem : x ∈ s.online := by
        rw [hx]
        exact mem_append_right before mem_cons_self
      constructor
      · intro hchosen
        exact .inr ⟨pre, z, hl, hz, before, x, after, hx, hattack, hdecides, hbefore,
          hchosen.first_choice _ rfl⟩
      rintro (hnone | ⟨pre', z', hl', -, before', x', after', hx', hattack', hdecides',
        hbefore', hright⟩)
      · exact absurd hattack (hnone x hmem)
      obtain ⟨rfl, -⟩ := append_inj' (hl.symm.trans hl') rfl
      -- Only one entry decides first.
      obtain ⟨rfl, rfl⟩ := first_split
        (p := fun _ y => Attackable w s y ∧ ¬Skips w s (remaining w s cv pre) y)
        (hx.symm.trans hx') ⟨hattack, hdecides⟩ ⟨hattack', hdecides'⟩
        (fun a y b heq h => h.2 (hbefore y (by rw [heq]; simp) h.1))
        (fun a y b heq h => h.2 (hbefore' y (by rw [heq]; simp) h.1))
      refine ⟨nofun, ?_, fun v hcv _ hvictim hv =>
        decides_keeps hmem hattack hdecides hcv hvictim hv⟩
      intro id hid
      cases hid
      exact hright
  | again c => exact absurd hscan (scan_true_ne_again rationals w s _ _ c)
  | notFound =>
    rw [resolve_notFound hscan]
    rw [hscan] at hsecond
    cases hsecond with
    | notFound hall =>
      rw [chosen_none]
      constructor
      · exact .inl
      rintro (hnone | ⟨pre', z', hl', -, before, x, after, hx, hattack, hdecides, -⟩)
      · exact hnone
      obtain ⟨rfl, -⟩ := append_inj' (hl.symm.trans hl') rfl
      refine absurd (hall x ?_ hattack) hdecides
      rw [hx]
      exact mem_append_right before mem_cons_self

/-- **The next victim** is selected, and rightly, exactly if no second choice is kept before an
attackable first choice, and if, where nothing decides the first pass, no one is attackable or the
second pass is gone through and decides for a first choice. -/
theorem chosen_iff (w : World ℚ) (s : ThreatManager ℚ) (cv : Option ℕ) :
    ((∃ fuel, s.selectLoop rationals w fuel s.online cv false =
        some (s.selectNextVictim rationals w cv)) ∧
      Chosen w s cv (s.selectNextVictim rationals w cv)) ↔ ¬KeptSecond w s cv ∧
        (Idle w s cv s.online → (∀ x ∈ s.online, ¬Attackable w s x) ∨ SecondPassRight w s cv) := by
  rw [and_iff_right ⟨_, by
    exact selectLoop_false rationals w s s.online cv (Nat.lt_succ_self _)⟩, selectNextVictim_eq]
  have hfirst := firstPass w s cv s.online
  cases hscan : s.scan rationals w false s.online cv with
  | found id =>
    rw [hscan] at hfirst
    cases hfirst with
    | found pre x post hl hattack hfirst hdecides hidle =>
      rw [and_iff_left fun h => absurd (h pre x post hl hattack hfirst) hdecides]
      exact chosen_found hl hattack hfirst hdecides hidle
  | again c =>
    rw [hscan] at hfirst
    cases hfirst with
    | again pre z hl hz hidle =>
      rw [and_iff_right (not_keptSecond_of_idle hidle), imp_iff_right hidle]
      exact chosen_second hl hz
  | notFound =>
    rw [hscan] at hfirst
    cases hfirst with
    | notFound hlast hidle =>
      have hnot : ¬SecondPassRight w s cv := fun ⟨pre, z, hl, hz, _⟩ => hlast pre z hl hz
      rw [and_iff_right (not_keptSecond_of_idle hidle), imp_iff_right hidle, or_iff_left hnot]
      exact chosen_none

end ThreatManager

/-! ### Where it goes wrong -/

/-- Three references to the units 1 to 3, in the threat list by their threats. -/
def listed (threat : ℕ → ℚ) (online : List ℕ) (currentVictim : Option ℕ) : ThreatManager ℚ :=
  { refs := fun id => if id ∈ online then
      some { threat := threat id, tempThreatModifier := 0, unitGuid := id, isOnline := true,
             isAccessible := true, isValid := true } else none
    next := 4, online := online, offline := [], dirty := false, currentVictim := currentVictim }

/-- A world by whom the creature can attack, and which units are second choices. -/
def arena (attackable second : List ℕ) : World ℚ :=
  { owner := 0, isGameMaster := fun _ => false, isAlive := fun _ => true,
    isInMap := fun _ => true, inSamePhase := fun _ => true, isInFlight := fun _ => false,
    isInAccessiblePlace := fun _ => true, isWithinCombatRange := fun _ => true,
    isWithinMeleeRange := fun _ => false, canCreatureAttack := fun u => decide (u ∈ attackable),
    isSecondChoice := fun u => decide (u ∈ second), getUnit := fun _ => true,
    getCharmerOrOwner := fun _ => none, getRedirectThreatPercent := fun _ => 0,
    getRedirectThreatTarget := fun _ => none, calcThreat := fun _ t => t }

/-- Of two units with the same threat both can be attacked, and the second, which is immune, stays
the victim. -/
theorem immune_victim_kept : (listed (fun _ => 100) [1, 2] (some 2)).online.Pairwise (fun i j =>
        (listed (fun _ => 100) [1, 2] (some 2)).threatOf j ≤
          (listed (fun _ => 100) [1, 2] (some 2)).threatOf i) ∧
      ¬ThreatManager.Chosen (arena [1, 2] [2]) (listed (fun _ => 100) [1, 2] (some 2)) (some 2)
        ((listed (fun _ => 100) [1, 2] (some 2)).selectNextVictim rationals (arena [1, 2] [2])
          (some 2)) := by
  refine ⟨by decide +kernel, fun h => ?_⟩
  have hselected : (listed (fun _ => 100) [1, 2] (some 2)).selectNextVictim rationals
      (arena [1, 2] [2]) (some 2) = some 2 := by decide +kernel
  have hsecond := h.first_choice 2 hselected (by decide +kernel) 1 (by decide +kernel)
    (by decide +kernel)
  exact absurd hsecond (by decide +kernel)

/-- With 120% of the threat of a victim that cannot be attacked any more, the only one who can is
passed over. -/
example : (listed (fun id => if id = 1 then 120 else 100) [1, 2] (some 2)).selectNextVictim
    rationals (arena [1] []) (some 2) = none := by decide +kernel

/-- An immune unit is attacked when one that cannot be is the only first choice, but not if that one
is the last. -/
example :
    (listed (fun _ => 100) [1, 2] none).selectNextVictim rationals (arena [1] [1]) none = none ∧
      (listed (fun _ => 100) [2, 1] none).selectNextVictim rationals (arena [1] [1]) none =
        some 1 := by
  decide +kernel

end ZerosCore.Combat
