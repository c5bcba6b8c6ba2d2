import Sproyt.Lib.Run

/-!
# Scripted runs

A step relation leaves open who acts next and what the outside answers. An executor takes these
choices from a cue. When each of its steps is a step of the relation, a list of cues that it can
follow to its end is a run, and what the run ends with can be evaluated.
-/

variable {σ ℓ κ : Type} {check : σ → ℓ → Bool} {exec : σ → κ → Option (ℓ × σ)}
  {step : σ → ℓ → σ → Prop} {allowed : σ → ℓ → Prop}

/-- Follows the cues as long as the labels pass the check. -/
def script (check : σ → ℓ → Bool) (exec : σ → κ → Option (ℓ × σ)) :
    σ → List κ → Option (List ℓ × σ)
  | s, [] => some ([], s)
  | s, cue :: cues =>
    (exec s cue).bind fun (l, t) =>
      if check s l then (script check exec t cues).map fun (ls, u) => (l :: ls, u) else none

theorem Run.of_script (hexec : ∀ s cue l t, exec s cue = some (l, t) → step s l t)
    (hcheck : ∀ s l, check s l = true → allowed s l) {s t : σ} {cues : List κ} {ls : List ℓ}
    (h : script check exec s cues = some (ls, t)) : Run (Guarded allowed step) s ls t := by
  induction cues generalizing s ls with
  | nil =>
    cases h
    exact .refl
  | cons cue cues ih =>
    obtain ⟨⟨l, u⟩, hstep, hrest⟩ := Option.bind_eq_some_iff.1 h
    dsimp only at hrest
    by_cases hl : check s l = true
    · rw [if_pos hl] at hrest
      obtain ⟨⟨ls', t'⟩, hcues, heq⟩ := Option.map_eq_some_iff.1 hrest
      cases heq
      exact .cons ⟨hcheck s l hl, hexec _ _ _ _ hstep⟩ (ih hcues)
    · rw [if_neg hl] at hrest
      cases hrest

/-- A run to a state with a property that can be evaluated. -/
theorem Run.exists_of_script (hexec : ∀ s cue l t, exec s cue = some (l, t) → step s l t)
    (hcheck : ∀ s l, check s l = true → allowed s l) {P : List ℓ × σ → Prop} [DecidablePred P]
    {s : σ} (cues : List κ) (h : (script check exec s cues).any (fun r => decide (P r)) = true) :
    ∃ ls t, Run (Guarded allowed step) s ls t ∧ P (ls, t) := by
  obtain ⟨⟨ls, t⟩, hscript, hP⟩ := (Option.any_eq_true _ _).1 h
  exact ⟨ls, t, .of_script hexec hcheck hscript, of_decide_eq_true hP⟩
