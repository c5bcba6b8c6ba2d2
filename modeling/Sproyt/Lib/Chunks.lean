import Mathlib.Algebra.BigOperators.Group.List.Basic
import Mathlib.Algebra.Order.Ring.Nat
import Mathlib.Data.List.Range

/-!
# Cutting a size into pieces

All pieces have the same length, but for the last one, which may be shorter.
-/

namespace Chunks

open List

def pieceLength (n size i : Nat) : Nat := min n (size - i * n)

variable {n size : Nat}

theorem min_add_pieceLength {n size k : Nat} :
    min (k * n) size + pieceLength n size k = min ((k + 1) * n) size := by
  have hmul : (k + 1) * n = k * n + n := Nat.succ_mul k n
  rw [pieceLength, hmul]
  omega

theorem sum_pieceLength (n size k : Nat) :
    ((List.range k).map (pieceLength n size)).sum = min (k * n) size := by
  induction k with
  | zero => simp
  | succ k ih =>
    rw [range_succ, map_append, sum_append, ih, map_singleton, sum_singleton]
    exact min_add_pieceLength

theorem piece_eq {α : Type} {pieces : List (List α)}
    (hlengths : ∀ i p, pieces[i]? = some p → p.length = pieceLength n size i) {i : Nat} {p : List α}
    (hp : pieces[i]? = some p) : p = (pieces.flatten.drop (i * n)).take n := by
  induction pieces generalizing size i with
  | nil => simp at hp
  | cons q qs ih =>
    have hq : q.length = min n size := by simpa [pieceLength] using hlengths 0 q rfl
    have hqs : ∀ j r, qs[j]? = some r → r.length = pieceLength n (size - n) j := fun j r hr => by
      rw [hlengths (j + 1) r hr, pieceLength, pieceLength, Nat.succ_mul, Nat.add_comm,
        Nat.sub_add_eq]
    rw [flatten_cons]
    by_cases hsize : n ≤ size
    · have hfull : q.length = n := by omega
      cases i with
      | zero =>
        obtain rfl : q = p := Option.some.inj hp
        rw [Nat.zero_mul, drop_zero, take_left' hfull]
      | succ i =>
        rw [Nat.succ_mul, Nat.add_comm, ← hfull, drop_length_add_append, hfull]
        exact ih hqs hp
    · -- the first piece is the last one that is not empty
      have hempty : qs.flatten = [] := by
        refine flatten_eq_nil_iff.2 fun r hr => ?_
        obtain ⟨j, hj⟩ := mem_iff_getElem?.1 hr
        have hlength := hqs j r hj
        unfold pieceLength at hlength
        exact length_eq_zero_iff.1 (by omega)
      rw [hempty, append_nil]
      cases i with
      | zero =>
        obtain rfl : q = p := Option.some.inj hp
        rw [Nat.zero_mul, drop_zero, take_of_length_le (by omega)]
      | succ i =>
        have hle : n ≤ (i + 1) * n := Nat.le_mul_of_pos_left n i.succ_pos
        rw [drop_of_length_le (by omega), take_nil]
        have hlength := hqs i p hp
        unfold pieceLength at hlength
        exact length_eq_zero_iff.1 (by omega)

end Chunks
