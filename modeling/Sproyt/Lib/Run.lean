import Mathlib.Data.List.Induction

/-!
# Runs of a labelled step relation

A run records the labels of its steps in order. The rules below turn what one step keeps
into what a whole run keeps, also when only some steps are allowed.
-/

/-- Finite runs of `step`, with the labels of the steps taken. -/
inductive Run {σ ℓ : Type} (step : σ → ℓ → σ → Prop) (s : σ) : List ℓ → σ → Prop
  | refl : Run step s [] s
  | step {ls : List ℓ} {t u : σ} {l : ℓ} :
      Run step s ls t → step t l u → Run step s (ls ++ [l]) u

/-- The steps whose label is allowed in the state before the step. -/
def Guarded {σ ℓ : Type} (allowed : σ → ℓ → Prop) (step : σ → ℓ → σ → Prop)
    (s : σ) (l : ℓ) (t : σ) : Prop :=
  allowed s l ∧ step s l t

theorem List.mem_middle_of_mem {α : Type} {x y : α} {before after : List α}
    (h : x ∈ before ++ after) : x ∈ before ++ y :: after :=
  ((List.Sublist.refl before).append (List.sublist_cons_self y after)).subset h

namespace Run

variable {σ ℓ : Type} {step step' : σ → ℓ → σ → Prop} {s t u : σ} {ls ms : List ℓ} {l : ℓ}

theorem single (h : step s l t) : Run step s [l] t :=
  .step .refl h

theorem append (h : Run step s ls t) (h' : Run step t ms u) : Run step s (ls ++ ms) u := by
  induction h' with
  | refl => simpa using h
  | step _ hs ih => simpa [List.append_assoc] using Run.step ih hs

theorem cons (h : step s l t) (h' : Run step t ls u) : Run step s (l :: ls) u :=
  (single h).append h'

/-- What every step keeps, every run keeps. -/
theorem invariant {P : σ → Prop} (hstep : ∀ s l t, P s → step s l t → P t)
    (h : Run step s ls t) (hs : P s) : P t := by
  induction h with
  | refl => exact hs
  | step _ hst ih => exact hstep _ _ _ ih hst

/-- The same for what is said of the state and of the labels that have led to it. -/
theorem history {P : List ℓ → σ → Prop} (hstep : ∀ ls s l t, P ls s → step s l t → P (ls ++ [l]) t)
    (h : Run step s ls t) (hs : P [] s) : P ls t := by
  induction h with
  | refl => exact hs
  | step _ hst ih => exact hstep _ _ _ _ ih hst

/-- A reflexive and transitive relation that every step respects holds across a run. -/
theorem rel {R : σ → σ → Prop} (hrefl : ∀ s, R s s)
    (htrans : ∀ s t u, R s t → R t u → R s u) (hstep : ∀ s l t, step s l t → R s t)
    (h : Run step s ls t) : R s t := by
  induction h with
  | refl => exact hrefl _
  | step _ hst ih => exact htrans _ _ _ ih (hstep _ _ _ hst)

theorem mono (hstep : ∀ s l t, step s l t → step' s l t) (h : Run step s ls t) :
    Run step' s ls t := by
  induction h with
  | refl => exact .refl
  | step _ hst ih => exact .step ih (hstep _ _ _ hst)

theorem of_guarded {allowed : σ → ℓ → Prop} (h : Run (Guarded allowed step) s ls t) :
    Run step s ls t :=
  h.mono fun _ _ _ hst => hst.2

/-- Every recorded label was the label of some step of the run. -/
theorem split (h : Run step s (ls ++ l :: ms) u) :
    ∃ t t', Run step s ls t ∧ step t l t' ∧ Run step t' ms u := by
  induction ms using List.reverseRecOn generalizing u with
  | nil =>
    generalize hk : ls ++ [l] = ks at h
    cases h with
    | refl => simp at hk
    | step hr hst =>
      obtain ⟨rfl, heq⟩ := List.append_inj' hk rfl
      cases heq
      exact ⟨_, _, hr, hst, .refl⟩
  | append_singleton ms m ih =>
    generalize hk : ls ++ l :: (ms ++ [m]) = ks at h
    cases h with
    | refl => simp at hk
    | step hr hst =>
      rw [← List.cons_append, ← List.append_assoc] at hk
      obtain ⟨rfl, heq⟩ := List.append_inj' hk rfl
      cases heq
      obtain ⟨t, t', hl, hm, hrest⟩ := ih hr
      exact ⟨t, t', hl, hm, .step hrest hst⟩

end Run
