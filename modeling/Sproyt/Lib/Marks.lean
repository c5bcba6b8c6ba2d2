import Sproyt.Lib.Table

/-!
# Marks that only rise

Rows carry a mark, such as the last number that was read. A mark is raised to a number or stays
where it is, so it never falls, and it stays below a limit that the numbers keep to.
-/

structure Marks (α : Type) where
  mark : α → Nat
  set : α → Nat → α
  mark_set : ∀ r n, mark (set r n) = n

namespace Marks

open List

variable {α : Type} (M : Marks α) {p q : α → Bool} {rows : List α} {new : α} {n v : Nat}

def lookup (p : α → Bool) (rows : List α) : Option Nat := (rows.find? p).map M.mark

def lift (p : α → Bool) (n : Nat) (r : α) : α := if p r then M.set r (max (M.mark r) n) else r

def raise (p : α → Bool) (n : Nat) (rows : List α) : List α := rows.map (M.lift p n)

def upsert (p : α → Bool) (new : α) (rows : List α) : List α :=
  if rows.any p then M.raise p (M.mark new) rows else rows ++ [new]

/-- A row is meant whatever its mark is. -/
def Blind (p : α → Bool) : Prop := ∀ r n, p (M.set r n) = p r

theorem mark_lift {r : α} :
    M.mark (M.lift p n r) = if p r then max (M.mark r) n else M.mark r := by
  rw [lift]
  split
  · exact M.mark_set r _
  · rfl

variable {M}

theorem Blind.lift (hq : M.Blind q) (p : α → Bool) (n : Nat) (r : α) : q (M.lift p n r) = q r := by
  rw [Marks.lift]
  split
  · exact hq r _
  · rfl

theorem lookup_raise (hq : M.Blind q) :
    M.lookup q (M.raise p n rows) = (rows.find? q).map fun r => M.mark (M.lift p n r) := by
  rw [lookup, raise, Table.find?_map_same (hq.lift p n), Option.map_map]
  rfl

theorem lookup_raise_self (hp : M.Blind p) (h : M.lookup p rows = some v) :
    M.lookup p (M.raise p n rows) = some (max v n) := by
  obtain ⟨r, hr, rfl⟩ := Option.map_eq_some_iff.1 h
  rw [lookup_raise hp, hr, Option.map_some, mark_lift, if_pos (find?_some hr)]

theorem lookup_raise_le (hq : M.Blind q) (h : M.lookup q rows = some v) :
    ∃ v', M.lookup q (M.raise p n rows) = some v' ∧ v ≤ v' := by
  obtain ⟨r, hr, rfl⟩ := Option.map_eq_some_iff.1 h
  rw [lookup_raise hq, hr]
  refine ⟨M.mark (M.lift p n r), rfl, ?_⟩
  rw [mark_lift]
  split
  · exact Nat.le_max_left _ _
  · exact Nat.le_refl _

theorem lookup_upsert_self (hp : M.Blind p) (hnew : p new = true) :
    M.lookup p (M.upsert p new rows) = some (max ((M.lookup p rows).getD 0) (M.mark new)) := by
  rw [upsert]
  split
  · next hany =>
    obtain ⟨r, hr⟩ := Option.isSome_iff_exists.1 (find?_isSome.2 (any_eq_true.1 hany))
    have hlookup : M.lookup p rows = some (M.mark r) := by rw [lookup, hr, Option.map_some]
    rw [lookup_raise_self hp hlookup, hlookup, Option.getD_some]
  · next hany =>
    have hnone : rows.find? p = none := find?_eq_none.2 fun r hr hpr =>
      hany (any_eq_true.2 ⟨r, hr, hpr⟩)
    rw [lookup, lookup, find?_append, hnone, Option.none_or, find?_cons_of_pos hnew,
      Option.map_none, Option.getD_none, Nat.zero_max, Option.map_some]

theorem lookup_upsert_le (hq : M.Blind q) (h : M.lookup q rows = some v) :
    ∃ v', M.lookup q (M.upsert p new rows) = some v' ∧ v ≤ v' := by
  rw [upsert]
  split
  · exact lookup_raise_le hq h
  · obtain ⟨r, hr, rfl⟩ := Option.map_eq_some_iff.1 h
    refine ⟨M.mark r, ?_, Nat.le_refl _⟩
    rw [lookup, find?_append, hr, Option.some_or, Option.map_some]

/-! ### Limits -/

theorem foldl_max_le_iff {l : List Nat} {a : Nat} : l.foldl max a ≤ n ↔ a ≤ n ∧ ∀ x ∈ l, x ≤ n := by
  induction l generalizing a with
  | nil => simp
  | cons x l ih => rw [foldl_cons, ih, Nat.max_le, forall_mem_cons, and_assoc]

variable {limit : α → Nat}

theorem raise_within (hlimit : ∀ r n, limit (M.set r n) = limit r)
    (h : ∀ r ∈ rows, M.mark r ≤ limit r) (hn : ∀ r, p r = true → n ≤ limit r) :
    ∀ r ∈ M.raise p n rows, M.mark r ≤ limit r := by
  intro r hr
  obtain ⟨r₀, hr₀, rfl⟩ := mem_map.1 hr
  have hsame : limit (M.lift p n r₀) = limit r₀ := by
    rw [lift]
    split
    · exact hlimit r₀ _
    · rfl
  rw [hsame, mark_lift]
  split
  · next hp => exact Nat.max_le.2 ⟨h r₀ hr₀, hn r₀ hp⟩
  · exact h r₀ hr₀

theorem upsert_within (hlimit : ∀ r n, limit (M.set r n) = limit r)
    (h : ∀ r ∈ rows, M.mark r ≤ limit r) (hn : ∀ r, p r = true → M.mark new ≤ limit r)
    (hnew : p new = true) : ∀ r ∈ M.upsert p new rows, M.mark r ≤ limit r := by
  rw [upsert]
  split
  · exact raise_within hlimit h hn
  · intro r hr
    rcases mem_append.1 hr with hr | hr
    · exact h r hr
    · rw [mem_singleton.1 hr]
      exact hn new hnew

end Marks
