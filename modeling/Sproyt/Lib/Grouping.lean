import Mathlib.Data.List.Dedup

/-!
# Rows by groups

Rows are grouped by a key that some of them lack, and each group is read as one value, which may
fail.
-/

namespace Grouping

open List

variable {α β ε : Type} {rows : List α}

variable {κ : Type} [DecidableEq κ] {key : α → Option κ}

def keys (key : α → Option κ) (rows : List α) : List κ := (rows.filterMap key).dedup

def group (key : α → Option κ) (k : κ) (rows : List α) : List α :=
  rows.filter fun r => key r = some k

theorem nodup_keys (key : α → Option κ) (rows : List α) : (keys key rows).Nodup :=
  nodup_dedup _

theorem mem_keys {k : κ} : k ∈ keys key rows ↔ ∃ r ∈ rows, key r = some k := by
  rw [keys, mem_dedup, mem_filterMap]

theorem mem_group {k : κ} {r : α} : r ∈ group key k rows ↔ r ∈ rows ∧ key r = some k := by
  rw [group, mem_filter, decide_eq_true_eq]

variable {f : α → Except ε β} {values : List β}

/-- Reading stops at the first failure, so a value stands for each row. -/
theorem forall₂_of_mapM (h : rows.mapM f = .ok values) :
    List.Forall₂ (fun r v => f r = .ok v) rows values := by
  induction rows generalizing values with
  | nil =>
    rw [mapM_nil] at h
    cases h
    exact .nil
  | cons r rest ih =>
    rw [mapM_cons] at h
    cases hr : f r with
    | error e =>
      rw [hr] at h
      cases h
    | ok v =>
      cases hrest : rest.mapM f with
      | error e =>
        rw [hr, hrest] at h
        cases h
      | ok vs =>
        rw [hr, hrest] at h
        cases h
        exact .cons hr (ih hrest)

theorem map_of_mapM {ν : Type} {nameOf : α → ν} {name : β → ν} (h : rows.mapM f = .ok values)
    (hname : ∀ r v, f r = .ok v → name v = nameOf r) :
    values.map name = rows.map nameOf := by
  have hread := forall₂_of_mapM h
  clear h
  induction hread with
  | nil => rfl
  | cons hr _ ih => rw [map_cons, map_cons, hname _ _ hr, ih]

theorem mem_of_mapM (h : rows.mapM f = .ok values) {v : β} :
    v ∈ values ↔ ∃ r ∈ rows, f r = .ok v := by
  have hread := forall₂_of_mapM h
  clear h
  induction hread with
  | nil => simp
  | cons hr _ ih => simp [ih, hr, eq_comm]

theorem exists_row_of_mapM_error {e : ε} (h : rows.mapM f = .error e) :
    ∃ r ∈ rows, f r = .error e := by
  induction rows with
  | nil => cases h
  | cons r rest ih =>
    rw [mapM_cons] at h
    cases hr : f r with
    | error e' =>
      rw [hr] at h
      cases h
      exact ⟨r, mem_cons_self, hr⟩
    | ok v =>
      cases hrest : rest.mapM f with
      | error e' =>
        rw [hr, hrest] at h
        cases h
        obtain ⟨r', hmem, hr'⟩ := ih hrest
        exact ⟨r', mem_cons_of_mem r hmem, hr'⟩
      | ok vs =>
        rw [hr, hrest] at h
        cases h

theorem mapM_congr {f g : α → Except ε β} (h : ∀ r ∈ rows, f r = g r) :
    rows.mapM f = rows.mapM g := by
  induction rows with
  | nil => rfl
  | cons r rest ih =>
    rw [mapM_cons, mapM_cons, h r mem_cons_self, ih fun r' hr' => h r' (mem_cons_of_mem r hr')]

end Grouping
