import Mathlib.Data.List.Nodup
import Sproyt.Lib.Run

/-!
# Workers on a shared store

Any number of workers take up passes on one store. A pass has a token that no other pass has
had; between two of its steps every other pass may act, and it can end at any point, be it that
its work is done or that its worker has crashed.

An invariant of such a system has two parts: what holds of the store, and what a pass may rely
on. Both may speak of the labels of the steps so far. `Workers.Rules.Keeps` lists what is to be
shown: each kind of step keeps the first part and establishes the second for the pass that
acts, and none of them takes it away from a pass with another token.
-/

structure Workers (σ π κ : Type) where
  store : σ
  passes : List π
  issued : List κ

namespace Workers

open List

variable {σ π κ ℓ : Type}

/-- The steps of a system of workers: a pass begins, goes on or ends, or the store is changed by
somebody else. -/
structure Rules (σ π κ ℓ : Type) where
  token : π → κ
  claim : σ → ℓ → σ → π → Prop
  move : σ → π → ℓ → σ → π → Prop
  drop : σ → π → ℓ → σ → Prop
  outside : σ → ℓ → σ → Prop
  token_move : ∀ {s : σ} {p : π} {l : ℓ} {s' : σ} {p' : π}, move s p l s' p' → token p' = token p

namespace Rules

variable (R : Rules σ π κ ℓ)

inductive Step : Workers σ π κ → ℓ → Workers σ π κ → Prop
  | claim {w : Workers σ π κ} {l : ℓ} {s : σ} {p : π} (hnew : R.token p ∉ w.issued)
      (h : R.claim w.store l s p) : Step w l ⟨s, p :: w.passes, R.token p :: w.issued⟩
  | move {s s' : σ} {before after : List π} {p p' : π} {l : ℓ} {issued : List κ}
      (h : R.move s p l s' p') :
      Step ⟨s, before ++ p :: after, issued⟩ l ⟨s', before ++ p' :: after, issued⟩
  | drop {s s' : σ} {before after : List π} {p : π} {l : ℓ} {issued : List κ}
      (h : R.drop s p l s') :
      Step ⟨s, before ++ p :: after, issued⟩ l ⟨s', before ++ after, issued⟩
  | outside {w : Workers σ π κ} {l : ℓ} {s : σ} (h : R.outside w.store l s) :
      Step w l { w with store := s }

/-- What is to be shown of an invariant: `G` holds of the store, and `L` of every pass. -/
structure Keeps (G : List ℓ → σ → List κ → Prop) (L : List ℓ → σ → π → Prop) : Prop where
  claim : ∀ {ls : List ℓ} {s s' : σ} {issued : List κ} {l : ℓ} {p : π}, G ls s issued →
    R.token p ∉ issued → R.claim s l s' p →
    G (ls ++ [l]) s' (R.token p :: issued) ∧ L (ls ++ [l]) s' p ∧
      ∀ q, R.token q ≠ R.token p → L ls s q → L (ls ++ [l]) s' q
  move : ∀ {ls : List ℓ} {s s' : σ} {issued : List κ} {l : ℓ} {p p' : π}, G ls s issued →
    R.token p ∈ issued → L ls s p → R.move s p l s' p' →
    G (ls ++ [l]) s' issued ∧ L (ls ++ [l]) s' p' ∧
      ∀ q, R.token q ≠ R.token p → L ls s q → L (ls ++ [l]) s' q
  drop : ∀ {ls : List ℓ} {s s' : σ} {issued : List κ} {l : ℓ} {p : π}, G ls s issued →
    R.token p ∈ issued → L ls s p → R.drop s p l s' →
    G (ls ++ [l]) s' issued ∧ ∀ q, R.token q ≠ R.token p → L ls s q → L (ls ++ [l]) s' q
  outside : ∀ {ls : List ℓ} {s s' : σ} {issued : List κ} {l : ℓ}, G ls s issued →
    R.outside s l s' → G (ls ++ [l]) s' issued ∧ ∀ q, L ls s q → L (ls ++ [l]) s' q

/-- The invariant, with what tokens are for: no two passes have the same one. -/
structure Sound (G : List ℓ → σ → List κ → Prop) (L : List ℓ → σ → π → Prop) (ls : List ℓ)
    (w : Workers σ π κ) : Prop where
  shared : G ls w.store w.issued
  each : ∀ p ∈ w.passes, L ls w.store p
  tokens : (w.passes.map R.token).Nodup
  known : ∀ p ∈ w.passes, R.token p ∈ w.issued

variable {R} {G : List ℓ → σ → List κ → Prop} {L : List ℓ → σ → π → Prop} {ls ms : List ℓ}
  {w w' : Workers σ π κ} {l : ℓ}

theorem Sound.idle (hpasses : w.passes = []) (hshared : G ls w.store w.issued) :
    R.Sound G L ls w := by
  refine ⟨hshared, ?_, ?_, ?_⟩ <;> rw [hpasses]
  · exact nofun
  · exact nodup_nil
  · exact nofun

theorem token_ne_of_nodup {before after : List π} {p : π}
    (h : ((before ++ p :: after).map R.token).Nodup) :
    ∀ q ∈ before ++ after, R.token q ≠ R.token p := by
  rw [map_append, map_cons, nodup_middle, nodup_cons, ← map_append] at h
  intro q hq htoken
  exact h.1 (mem_map.2 ⟨q, hq, htoken⟩)

theorem Keeps.step (h : R.Keeps G L) (hw : R.Sound G L ls w) (hstep : R.Step w l w') :
    R.Sound G L (ls ++ [l]) w' := by
  cases hstep with
  | @claim _ _ s p hnew hclaim =>
    obtain ⟨hshared, hown, hothers⟩ := h.claim hw.shared hnew hclaim
    have hne : ∀ q ∈ w.passes, R.token q ≠ R.token p := by
      intro q hq htoken
      exact hnew (htoken ▸ hw.known q hq)
    refine ⟨hshared, ?_, ?_, ?_⟩
    · intro q hq
      rcases mem_cons.1 hq with rfl | hq
      · exact hown
      · exact hothers q (hne q hq) (hw.each q hq)
    · refine nodup_cons.2 ⟨fun hmem => ?_, hw.tokens⟩
      obtain ⟨q, hq, htoken⟩ := mem_map.1 hmem
      exact hne q hq htoken
    · intro q hq
      rcases mem_cons.1 hq with rfl | hq
      · exact mem_cons_self
      · exact mem_cons_of_mem _ (hw.known q hq)
  | @move s s' before after p p' _ issued hmove =>
    obtain ⟨hshared, hown, hothers⟩ :=
      h.move hw.shared (hw.known p mem_append_cons_self) (hw.each p mem_append_cons_self) hmove
    have hne := token_ne_of_nodup hw.tokens
    have htoken := R.token_move hmove
    -- a pass afterwards is the one that has acted, or one of the others
    have hcases : ∀ q ∈ before ++ p' :: after, q = p' ∨ q ∈ before ++ after := by
      intro q hq
      rcases mem_append.1 hq with hq | hq
      · exact .inr (mem_append_left _ hq)
      · exact (mem_cons.1 hq).imp_right (mem_append_right _)
    refine ⟨hshared, ?_, ?_, ?_⟩
    · intro q hq
      rcases hcases q hq with rfl | hq
      · exact hown
      · exact hothers q (hne q hq) (hw.each q (mem_middle_of_mem hq))
    · have hsame : (before ++ p' :: after).map R.token = (before ++ p :: after).map R.token := by
        simp only [map_append, map_cons, htoken]
      rw [hsame]
      exact hw.tokens
    · intro q hq
      rcases hcases q hq with rfl | hq
      · rw [htoken]
        exact hw.known p mem_append_cons_self
      · exact hw.known q (mem_middle_of_mem hq)
  | @drop s s' before after p _ issued hdrop =>
    obtain ⟨hshared, hothers⟩ :=
      h.drop hw.shared (hw.known p mem_append_cons_self) (hw.each p mem_append_cons_self) hdrop
    have hne := token_ne_of_nodup hw.tokens
    refine ⟨hshared, ?_, ?_, ?_⟩
    · exact fun q hq => hothers q (hne q hq) (hw.each q (mem_middle_of_mem hq))
    · exact hw.tokens.sublist
        (((List.Sublist.refl before).append (sublist_cons_self p after)).map R.token)
    · exact fun q hq => hw.known q (mem_middle_of_mem hq)
  | outside houtside =>
    obtain ⟨hshared, hothers⟩ := h.outside hw.shared houtside
    exact ⟨hshared, fun q hq => hothers q (hw.each q hq), hw.tokens, hw.known⟩

/-- What is shown of the steps holds after every run. -/
theorem Keeps.run (h : R.Keeps G L) (hw : R.Sound G L ls w) (hrun : Run R.Step w ms w') :
    R.Sound G L (ls ++ ms) w' := by
  induction hrun with
  | refl => rwa [append_nil]
  | step _ hstep ih =>
    rw [← append_assoc]
    exact h.step ih hstep

end Rules

end Workers
