import Mathlib.Algebra.Order.BigOperators.Group.List
import Sproyt.Lib.Table

/-!
# Maps as tables

A map from keys to values is a table in which every value has its key. Putting a value in
writes over the one that has its key, or adds it at the end; taking a key out leaves all other
values where they are.
-/

namespace Table

variable {α κ : Type} [DecidableEq κ] {key : α → κ} {rows : List α} {r x : α} {k : κ}

def put (key : α → κ) (r : α) (rows : List α) : List α :=
  if ∃ x ∈ rows, key x = key r then set key r rows else rows ++ [r]

def erase (key : α → κ) (k : κ) (rows : List α) : List α :=
  rows.filter fun x => key x ≠ k

theorem mem_put : x ∈ put key r rows ↔ x = r ∨ x ∈ rows ∧ key x ≠ key r := by
  unfold put
  by_cases h : ∃ y ∈ rows, key y = key r
  · rw [if_pos h]
    refine ⟨mem_set, ?_⟩
    rintro (rfl | ⟨hx, hkey⟩)
    · exact mem_set_self h
    · exact mem_set_of_ne hx hkey
  · rw [if_neg h, List.mem_append, List.mem_singleton, or_comm]
    refine or_congr_right ⟨fun hx => ⟨hx, fun hkey => h ⟨x, hx, hkey⟩⟩, And.left⟩

theorem mem_put_self : r ∈ put key r rows := mem_put.2 (.inl rfl)

theorem nodup_put (hkeys : (rows.map key).Nodup) : ((put key r rows).map key).Nodup := by
  unfold put
  by_cases h : ∃ y ∈ rows, key y = key r
  · rw [if_pos h, map_key_set]
    exact hkeys
  · rw [if_neg h]
    exact nodup_append_single hkeys fun x hx hkey => h ⟨x, hx, hkey⟩

theorem length_put_le : (put key r rows).length ≤ rows.length + 1 := by
  unfold put
  by_cases h : ∃ y ∈ rows, key y = key r
  · rw [if_pos h, set, List.length_map]
    omega
  · rw [if_neg h, List.length_append, List.length_singleton]

@[simp] theorem mem_erase : x ∈ erase key k rows ↔ x ∈ rows ∧ key x ≠ k := by
  rw [erase, List.mem_filter, decide_eq_true_iff]

theorem nodup_erase (hkeys : (rows.map key).Nodup) : ((erase key k rows).map key).Nodup :=
  hkeys.sublist (List.filter_sublist.map key)

theorem sum_le_of_subset {w : α → Nat} {others : List α} (hrows : rows.Nodup)
    (hsub : ∀ x ∈ rows, x ∈ others) :
    rows.length ≤ others.length ∧ (rows.map w).sum ≤ (others.map w).sum := by
  obtain ⟨l, hperm, hsublist⟩ := List.subperm_of_subset hrows hsub
  refine ⟨hperm.length_eq ▸ hsublist.length_le, ?_⟩
  rw [← (hperm.map w).sum_eq]
  exact (hsublist.map w).sum_le_sum fun _ _ => Nat.zero_le _

end Table
