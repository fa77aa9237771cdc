/-
# Runs of a step function

A component that takes one request after another is a state type `σ`, a
request type `ι` and a step function `step : σ → ι → σ`; a run is the list of
the requests it is given.  `Along step G s as` says that every step of the run
`as` from `s` meets `G`, read in the state the step starts from.  It states
both what a run is promised (a condition on the requests it contains) and what
is proved of it (a property of every step).

`Along.of_invariant` is the rule used everywhere else: an invariant kept by the
steps that meet the promise turns a promise about the steps into a property of
the steps.
-/

import Mathlib.Logic.Basic

namespace Lib

variable {σ ι : Type*} {step : σ → ι → σ} {G P : σ → ι → Prop} {I : σ → Prop}

/-- Every step of the run `as` from `s` meets `G` in the state before it. -/
def Along (step : σ → ι → σ) (G : σ → ι → Prop) : σ → List ι → Prop
  | _, [] => True
  | s, a :: as => G s a ∧ Along step G (step s a) as

@[simp] theorem along_cons (s : σ) (a : ι) (as : List ι) :
    Along step G s (a :: as) ↔ G s a ∧ Along step G (step s a) as := Iff.rfl

variable {s : σ} {as : List ι}

theorem along_true : Along step (fun _ _ => True) s as := by
  induction as generalizing s with
  | nil => trivial
  | cons a as ih => exact ⟨trivial, ih⟩

/-- **The invariant rule.**  An invariant `I` kept by every step that meets `G`
gives `P` of every step of a run that starts in `I` and meets `G` throughout,
provided it gives `P` of one such step. -/
theorem Along.of_invariant (hstep : ∀ s a, I s → G s a → I (step s a))
    (hP : ∀ s a, I s → G s a → P s a) :
    ∀ {s : σ} {as : List ι}, I s → Along step G s as → Along step P s as
  | _, [], _, _ => trivial
  | s, a :: _, hI, ⟨hG, hrest⟩ =>
    ⟨hP s a hI hG, Along.of_invariant hstep hP (hstep s a hI hG) hrest⟩

/-- **The invariant at the end of a run**: the state after a run that meets `G`
throughout keeps `I`. -/
theorem Along.invariant_foldl (hstep : ∀ s a, I s → G s a → I (step s a))
    (hI : I s) (h : Along step G s as) : I (as.foldl step s) := by
  induction as generalizing s with
  | nil => exact hI
  | cons a as ih => exact ih (hstep s a hI h.1) h.2

theorem Along.and (h : Along step G s as) (hP : Along step P s as) :
    Along step (fun s a => G s a ∧ P s a) s as := by
  induction as generalizing s with
  | nil => trivial
  | cons a as ih => exact ⟨⟨h.1, hP.1⟩, ih h.2 hP.2⟩

/-- **A condition that decides every step decides the run.**  If, from states that keep `I`, a step
is `P` just when it meets `G`, and then keeps `I` again, then all steps of a run are `P` just when
the run meets `G` throughout. -/
theorem Along.congr_of_invariant (hstep : ∀ s a, I s → (P s a ↔ G s a))
    (hkeep : ∀ s a, I s → P s a → I (step s a)) (hI : I s) :
    Along step P s as ↔ Along step G s as := by
  induction as generalizing s with
  | nil => exact Iff.rfl
  | cons a as ih =>
    rw [along_cons, along_cons, ← hstep s a hI]
    exact and_congr_right fun hP => ih (hkeep s a hI hP)

variable {Q : σ → Prop}

theorem Along.iff_of_invariant (hstep : ∀ s a, I s → (Q (step s a) ↔ G s a))
    (hkeep : ∀ s a, I s → Q (step s a) → I (step s a)) (hI : I s) :
    Along step (fun s a => Q (step s a)) s as ↔ Along step G s as :=
  Along.congr_of_invariant hstep hkeep hI

/-- **A condition that decides what a run leaves.**  If, from states that keep `I`, the next state
is `Q` just when this one is and the step meets `G`, then the state after a run is `Q` just when
the first one is and the run meets `G` throughout. -/
theorem foldl_iff_along (hkeep : ∀ s a, I s → I (step s a))
    (hstep : ∀ s a, I s → (Q (step s a) ↔ Q s ∧ G s a)) (hI : I s) :
    Q (as.foldl step s) ↔ Q s ∧ Along step G s as := by
  induction as generalizing s with
  | nil => exact (and_iff_left trivial).symm
  | cons a as ih => rw [List.foldl_cons, ih (hkeep s a hI), hstep s a hI, along_cons, and_assoc]

theorem Along.and_forall {Q : ι → Prop} (h : Along step G s as)
    (hQ : ∀ a ∈ as, Q a) : Along step (fun s a => G s a ∧ Q a) s as := by
  induction as generalizing s with
  | nil => trivial
  | cons a as ih =>
    exact ⟨⟨h.1, hQ a List.mem_cons_self⟩, ih h.2 fun b hb => hQ b (List.mem_cons_of_mem _ hb)⟩

/-- Every step of a run of steps that may fail meets `G` in the state before it. -/
def AlongM (step : σ → ι → Option σ) (G : σ → ι → Prop) : σ → List ι → Prop
  | _, [] => True
  | s, a :: as => G s a ∧ ∀ s' ∈ step s a, AlongM step G s' as

/-- **A condition that decides what a run leaves**, for steps that may fail: if the next state is
`Q` just when this one is and the step meets `G`, the same holds of the run. -/
theorem foldlM_iff_alongM {step : σ → ι → Option σ} {s' : σ}
    (hstep : ∀ s a s', step s a = some s' → (Q s' ↔ Q s ∧ G s a)) (h : as.foldlM step s = some s') :
    Q s' ↔ Q s ∧ AlongM step G s as := by
  induction as generalizing s with
  | nil =>
    cases h
    exact (and_iff_left trivial).symm
  | cons a as ih =>
    obtain ⟨s1, hs1, h⟩ := Option.bind_eq_some_iff.mp h
    have hall : (∀ s' ∈ step s a, AlongM step G s' as) ↔ AlongM step G s1 as := by
      rw [hs1]
      simp
    rw [ih h, hstep s a s1 hs1, AlongM, hall, and_assoc]

instance instDecidableAlong [∀ s a, Decidable (G s a)] (s : σ) (as : List ι) :
    Decidable (Along step G s as) :=
  match as with
  | [] => .isTrue trivial
  | a :: as =>
    have := instDecidableAlong (step s a) as
    inferInstanceAs (Decidable (G s a ∧ Along step G (step s a) as))

end Lib
