import Mathlib.Algebra.Order.Ring.Nat
import Mathlib.Data.List.Lex
import Mathlib.Data.Nat.Basic

/-!
# Numbers of a fixed width

Texts are in dictionary order. Numbers that are written with the same number of digits are in
their own order then, and texts that agree in length are compared part by part.
-/

namespace FixedWidth

variable {α : Type} {a b s t : List α} {digit : Nat → α} {w m n : Nat}

def decimal (digit : Nat → α) : Nat → Nat → List α
  | 0, _ => []
  | w + 1, n => decimal digit w (n / 10) ++ [digit (n % 10)]

theorem length_decimal (digit : Nat → α) (w n : Nat) : (decimal digit w n).length = w := by
  induction w generalizing n with
  | zero => rfl
  | succ w ih => rw [decimal, List.length_append, ih, List.length_singleton]

variable [LinearOrder α]

/-- Parts of equal length decide, and what follows them decides if they are equal. -/
theorem append_lt_append_iff (h : a.length = b.length) :
    a ++ s < b ++ t ↔ a < b ∨ a = b ∧ s < t := by
  induction a generalizing b with
  | nil =>
    obtain rfl := List.length_eq_zero_iff.1 h.symm
    simp
  | cons x a ih =>
    cases b with
    | nil => cases h
    | cons y b =>
      rw [List.cons_append, List.cons_append, List.cons_lt_cons_iff, List.cons_lt_cons_iff,
        ih (Nat.succ.inj h), List.cons.injEq]
      tauto

def Ordered (digit : Nat → α) : Prop := ∀ m < 10, ∀ n < 10, digit m < digit n ↔ m < n

theorem eq_iff_of_lt_iff {x y : α} (hlt : x < y ↔ m < n) (hgt : y < x ↔ n < m) : x = y ↔ m = n := by
  have hx : x = y ↔ ¬ x < y ∧ ¬ y < x := by
    rw [not_lt, not_lt, and_comm]
    exact le_antisymm_iff
  rw [hx, hlt, hgt]
  omega

theorem decimal_lt_iff (hdigit : Ordered digit) (hm : m < 10 ^ w) (hn : n < 10 ^ w) :
    decimal digit w m < decimal digit w n ↔ m < n := by
  induction w generalizing m n with
  | zero =>
    have hm0 : m = 0 := Nat.lt_one_iff.1 hm
    have hn0 : n = 0 := Nat.lt_one_iff.1 hn
    rw [hm0, hn0]
    exact iff_of_false (lt_irrefl _) (Nat.lt_irrefl 0)
  | succ w ih =>
    have hshorter : ∀ {k}, k < 10 ^ (w + 1) → k / 10 < 10 ^ w := fun hk =>
      Nat.div_lt_of_lt_mul (by rw [Nat.pow_succ] at hk; omega)
    have hfirst := ih (hshorter hm) (hshorter hn)
    have heq := eq_iff_of_lt_iff hfirst (ih (hshorter hn) (hshorter hm))
    have hlast := hdigit _ (Nat.mod_lt m (by decide)) _ (Nat.mod_lt n (by decide))
    have hnil : ¬ ([] : List α) < [] := lt_irrefl _
    rw [decimal, decimal, append_lt_append_iff (by rw [length_decimal, length_decimal]),
      hfirst, heq,
      List.cons_lt_cons_iff, hlast]
    simp only [hnil, and_false, or_false]
    omega

theorem decimal_eq_iff (hdigit : Ordered digit) (hm : m < 10 ^ w) (hn : n < 10 ^ w) :
    decimal digit w m = decimal digit w n ↔ m = n :=
  eq_iff_of_lt_iff (decimal_lt_iff hdigit hm hn) (decimal_lt_iff hdigit hn hm)

end FixedWidth
