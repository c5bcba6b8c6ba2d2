import Mathlib.Data.List.Basic

/-!
# Replaying a batch

Items are played one after another, and each may put out something. An item that has been
played is absorbed for good: playing it again changes nothing and puts out nothing. A batch
that is cut off and started over, any number of times, then ends where one pass over its
longest part ends.
-/

namespace Replay

open List

variable {σ α β : Type} {step : σ → α → σ × List β} {s : σ} {a : α} {xs ys : List α}

def play (step : σ → α → σ × List β) (s : σ) : List α → σ × List β
  | [] => (s, [])
  | a :: as => ((play step (step s a).1 as).1, (step s a).2 ++ (play step (step s a).1 as).2)

theorem play_append (s : σ) (xs ys : List α) :
    play step s (xs ++ ys) =
      ((play step (play step s xs).1 ys).1,
        (play step s xs).2 ++ (play step (play step s xs).1 ys).2) := by
  induction xs generalizing s with
  | nil => rfl
  | cons a xs ih =>
    rw [cons_append, play, ih]
    simp only [play, append_assoc]

def Absorbed (step : σ → α → σ × List β) (s : σ) (a : α) : Prop := step s a = (s, [])

theorem play_absorbed (h : ∀ a ∈ xs, Absorbed step s a) : play step s xs = (s, []) := by
  induction xs with
  | nil => rfl
  | cons a xs ih =>
    have ha : step s a = (s, []) := h a mem_cons_self
    rw [play, ha, nil_append]
    exact ih fun b hb => h b (mem_cons_of_mem _ hb)

section Absorbing

/- Items are absorbed by being played, and stay absorbed. -/
variable (hself : ∀ s a, Absorbed step (step s a).1 a)
  (hkeep : ∀ s a b, Absorbed step s a → Absorbed step (step s b).1 a)

include hkeep in
theorem absorbed_of_play (h : Absorbed step s a) (xs : List α) :
    Absorbed step (play step s xs).1 a := by
  induction xs generalizing s with
  | nil => exact h
  | cons b xs ih => exact ih (hkeep s a b h)

include hself hkeep

theorem absorbed_of_mem (ha : a ∈ xs) : Absorbed step (play step s xs).1 a := by
  induction xs generalizing s with
  | nil => cases ha
  | cons b xs ih =>
    rcases mem_cons.1 ha with rfl | ha
    · exact absorbed_of_play hkeep (hself s a) xs
    · exact ih ha

/-- Items that were played already may be played again. -/
theorem play_append_of_subset (h : ys ⊆ xs) : play step s (xs ++ ys) = play step s xs := by
  have hnone : play step (play step s xs).1 ys = ((play step s xs).1, []) :=
    play_absorbed fun a ha => absorbed_of_mem hself hkeep (h ha)
  rw [play_append, hnone, append_nil]

/-- A part of a batch and then the batch amount to the batch. -/
theorem play_take_append {n : Nat} : play step s (xs.take n ++ xs) = play step s xs := by
  have hagain : play step s (xs.take n ++ xs.take n) = play step s (xs.take n) :=
    play_append_of_subset hself hkeep fun _ ha => ha
  -- the batch starts with the part, which is absorbed by then
  calc play step s (xs.take n ++ xs)
      = play step s ((xs.take n ++ xs.take n) ++ xs.drop n) := by
        rw [append_assoc, take_append_drop]
    _ = play step s (xs.take n ++ xs.drop n) := by rw [play_append, hagain, ← play_append]
    _ = play step s xs := by rw [take_append_drop]

/-- Attempts at a batch that are cut off somewhere, one that is not, and any more of them. -/
theorem play_attempts (s : σ) (xs : List α) (before after : List Nat) :
    play step s (before.flatMap (xs.take ·) ++ (xs ++ after.flatMap (xs.take ·))) =
      play step s xs := by
  induction before generalizing s with
  | nil =>
    rw [flatMap_nil, nil_append]
    apply play_append_of_subset hself hkeep
    intro a ha
    obtain ⟨n, -, hn⟩ := mem_flatMap.1 ha
    exact mem_of_mem_take hn
  | cons n before ih =>
    rw [flatMap_cons, append_assoc, play_append, ih, ← play_append]
    exact play_take_append hself hkeep

end Absorbing

end Replay
