import Mathlib.Algebra.Order.Ring.Nat
import Mathlib.Data.List.Nodup

/-!
# Tables with a key

A table is a list of rows. Rows are found by a key that no two rows share; new rows go to
the end and rows are written in place.
-/

namespace Table

open List

variable {α κ : Type} {key : α → κ} {rows : List α} {r : α} {p : α → Bool} {f : α → α}

theorem find?_map_same (hf : ∀ r, p (f r) = p r) (rows : List α) :
    (rows.map f).find? p = (rows.find? p).map f := by
  rw [find?_map]
  have hp : p ∘ f = p := by
    funext r
    exact hf r
  rw [hp]

theorem map_key_map (hf : ∀ r, key (f r) = key r) (rows : List α) :
    (rows.map f).map key = rows.map key := by
  rw [map_map]
  apply map_congr_left
  intro r _
  exact hf r

theorem map_key_ite {p : α → Prop} [DecidablePred p] (hf : ∀ r, key (f r) = key r) (rows : List α) :
    (rows.map fun r => if p r then f r else r).map key = rows.map key :=
  map_key_map (fun r => by split; exacts [hf r, rfl]) rows

theorem nodup_append_single (hkeys : (rows.map key).Nodup)
    (hfresh : ∀ x ∈ rows, key x ≠ key r) : ((rows ++ [r]).map key).Nodup := by
  rw [map_append, map_cons, map_nil]
  refine hkeys.append (nodup_singleton _) ?_
  intro k hk hr
  obtain ⟨x, hx, rfl⟩ := mem_map.1 hk
  exact hfresh x hx (mem_singleton.1 hr)

theorem eq_of_key_eq (hkeys : (rows.map key).Nodup) {x y : α} (hx : x ∈ rows) (hy : y ∈ rows)
    (h : key x = key y) : x = y :=
  inj_on_of_nodup_map hkeys hx hy h

/-- The same for a unique column that rows may leave empty. -/
theorem eq_of_column_eq {β : Type} {column : α → Option β} (hunique : (rows.filterMap column).Nodup)
    {x y : α} {b : β} (hx : x ∈ rows) (hy : y ∈ rows) (hxb : column x = some b)
    (hyb : column y = some b) : x = y := by
  induction rows with
  | nil => cases hx
  | cons r rows ih =>
    have hrest : (rows.filterMap column).Nodup :=
      hunique.sublist ((sublist_cons_self r rows).filterMap column)
    -- the first row shares its value with no other
    have hfirst : ∀ z ∈ rows, column r = some b → column z ≠ some b := by
      intro z hz hr hzb
      rw [filterMap_cons_some hr, nodup_cons] at hunique
      exact hunique.1 (mem_filterMap.2 ⟨z, hz, hzb⟩)
    rcases mem_cons.1 hx with rfl | hx'
    · rcases mem_cons.1 hy with rfl | hy'
      · rfl
      · exact absurd hyb (hfirst y hy' hxb)
    · rcases mem_cons.1 hy with rfl | hy'
      · exact absurd hxb (hfirst x hx' hyb)
      · exact ih hrest hx' hy'

theorem find?_key_range {key : α → Nat} {n : Nat} (h : rows.map key = List.range n) (i : Nat) :
    rows.find? (fun r => key r = i) = rows[i]? := by
  have hlength : rows.length = n := by simpa using congrArg List.length h
  have hkey : ∀ j (hj : j < rows.length), key rows[j] = j := by
    intro j hj
    have hget := congrArg (·[j]?) h
    simpa [hj, hlength ▸ hj] using hget
  by_cases hi : i < rows.length
  · rw [getElem?_eq_getElem hi, find?_eq_some_iff_getElem]
    refine ⟨by simpa using hkey i hi, i, hi, rfl, ?_⟩
    intro j hj
    simpa [hkey j (Nat.lt_trans hj hi)] using Nat.ne_of_lt hj
  · rw [getElem?_eq_none (Nat.le_of_not_lt hi), find?_eq_none]
    intro r hr
    obtain ⟨j, hj, rfl⟩ := mem_iff_getElem.1 hr
    have hne : j ≠ i := by omega
    simpa [hkey j hj] using hne

variable [DecidableEq κ]

theorem find?_of_mem (hkeys : (rows.map key).Nodup) (hr : r ∈ rows) :
    rows.find? (fun x => key x = key r) = some r := by
  cases hfind : rows.find? fun x => key x = key r with
  | none =>
    have hnone := find?_eq_none.1 hfind r hr
    simp at hnone
  | some x =>
    have hx := mem_of_find?_eq_some hfind
    have hkey : key x = key r := by simpa using find?_some hfind
    rw [eq_of_key_eq hkeys hx hr hkey]

/-- The table with a row written over the one that has its key. -/
def set (key : α → κ) (r : α) (rows : List α) : List α :=
  rows.map fun x => if key x = key r then r else x

theorem key_set (key : α → κ) (r x : α) : key (if key x = key r then r else x) = key x := by
  by_cases h : key x = key r
  · rw [if_pos h, h]
  · rw [if_neg h]

theorem map_key_set (r : α) (rows : List α) : (set key r rows).map key = rows.map key :=
  map_key_map (key_set key r) rows

theorem mem_set {x : α} (h : x ∈ set key r rows) : x = r ∨ x ∈ rows ∧ key x ≠ key r := by
  obtain ⟨y, hy, rfl⟩ := mem_map.1 h
  by_cases hkey : key y = key r
  · exact .inl (if_pos hkey)
  · rw [if_neg hkey]
    exact .inr ⟨hy, hkey⟩

theorem mem_set_self (h : ∃ x ∈ rows, key x = key r) : r ∈ set key r rows := by
  obtain ⟨x, hx, hkey⟩ := h
  exact mem_map.2 ⟨x, hx, if_pos hkey⟩

theorem mem_set_of_ne {x : α} (hx : x ∈ rows) (hkey : key x ≠ key r) : x ∈ set key r rows :=
  mem_map.2 ⟨x, hx, if_neg hkey⟩

section

variable (hkeys : (rows.map key).Nodup)

include hkeys

/-- Updating the rows with a key writes over the one row that has it. -/
theorem map_update_eq_set (hr : r ∈ rows) (hf : key (f r) = key r) :
    (rows.map fun x => if key x = key r then f x else x) = set key (f r) rows := by
  apply map_congr_left
  intro x hx
  by_cases h : key x = key r
  · rw [if_pos h, if_pos (h.trans hf.symm), eq_of_key_eq hkeys hx hr h]
  · rw [if_neg h, if_neg (hf ▸ h)]

/-- An update of rows that all have one key writes over one row, or none at all. -/
theorem map_ite_cases {p : α → Prop} [DecidablePred p] {k : κ} (hp : ∀ x, p x → key x = k)
    (hf : ∀ x, key (f x) = key x) :
    (∀ x ∈ rows, ¬ p x) ∧ (rows.map fun x => if p x then f x else x) = rows ∨
      ∃ r ∈ rows, p r ∧ (rows.map fun x => if p x then f x else x) = set key (f r) rows := by
  by_cases hsome : ∃ r ∈ rows, p r
  · obtain ⟨r, hr, hpr⟩ := hsome
    refine .inr ⟨r, hr, hpr, ?_⟩
    apply map_congr_left
    intro x hx
    by_cases hkey : key x = key (f r)
    · have hxr : x = r := eq_of_key_eq hkeys hx hr (hkey.trans (hf r))
      rw [if_pos hkey, hxr, if_pos hpr]
    · have hnot : ¬ p x := by
        intro hpx
        exact hkey ((hp x hpx).trans ((hp r hpr).symm.trans (hf r).symm))
      rw [if_neg hkey, if_neg hnot]
  · have hnone : ∀ x ∈ rows, ¬ p x := by
      intro x hx hpx
      exact hsome ⟨x, hx, hpx⟩
    refine .inl ⟨hnone, ?_⟩
    calc (rows.map fun x => if p x then f x else x) = rows.map id := by
          apply map_congr_left
          intro x hx
          exact if_neg (hnone x hx)
      _ = rows := map_id rows

/-- An update that has affected one row has written over it. -/
theorem map_ite_of_one {p : α → Prop} [DecidablePred p] {k : κ} (hp : ∀ x, p x → key x = k)
    (hf : ∀ x, key (f x) = key x)
    (hone : (rows.countP fun x => decide (p x)) = 1) :
    ∃ r ∈ rows, p r ∧ (rows.map fun x => if p x then f x else x) = set key (f r) rows := by
  rcases map_ite_cases hkeys hp hf with ⟨hnone, -⟩ | hset
  · have hzero : (rows.countP fun x => decide (p x)) = 0 := by
      rw [countP_eq_zero]
      intro x hx
      simpa using hnone x hx
    omega
  · exact hset

theorem map_ite_of_row {p : α → Prop} [DecidablePred p] (hp : ∀ x, p x → key x = key r)
    (hf : ∀ x, key (f x) = key x) (hr : r ∈ rows)
    (hone : (rows.countP fun x => decide (p x)) = 1) :
    p r ∧ (rows.map fun x => if p x then f x else x) = set key (f r) rows := by
  obtain ⟨r', hr', hpr, heq⟩ := map_ite_of_one hkeys hp hf hone
  obtain rfl : r' = r := eq_of_key_eq hkeys hr' hr (hp r' hpr)
  exact ⟨hpr, heq⟩

theorem set_of_mem (hr : r ∈ rows) : set key r rows = rows := by
  calc set key r rows = rows.map id := by
        apply map_congr_left
        intro x hx
        by_cases h : key x = key r
        · rw [if_pos h, eq_of_key_eq hkeys hx hr h]
          rfl
        · rw [if_neg h]
          rfl
    _ = rows := map_id rows

theorem map_set_same {β : Type} {g : α → β} {r' : α} (hr : r ∈ rows)
    (hkey : key r' = key r) (hg : g r' = g r) : (set key r' rows).map g = rows.map g := by
  rw [set, map_map]
  apply map_congr_left
  intro x hx
  show g (if key x = key r' then r' else x) = g x
  by_cases h : key x = key r'
  · rw [if_pos h, hg, eq_of_key_eq hkeys hx hr (h.trans hkey)]
  · rw [if_neg h]

end

theorem set_of_not_mem (h : ∀ x ∈ rows, key x ≠ key r) : set key r rows = rows := by
  calc set key r rows = rows.map id := by
        apply map_congr_left
        intro x hx
        exact if_neg (h x hx)
    _ = rows := map_id rows

/-- Writing over a row replaces its share of a sum over the table. -/
theorem sum_set {w : α → Nat} {r' : α} (hkeys : (rows.map key).Nodup) (hr : r ∈ rows)
    (hkey : key r' = key r) : ((set key r' rows).map w).sum + w r = (rows.map w).sum + w r' := by
  induction rows with
  | nil => cases hr
  | cons x rows ih =>
    rw [map_cons, nodup_cons] at hkeys
    obtain ⟨hx, hkeys⟩ := hkeys
    rcases mem_cons.1 hr with rfl | hr
    · -- no other row has the key
      have hrest : set key r' rows = rows := by
        apply set_of_not_mem
        intro y hy hyr
        exact hx (mem_map.2 ⟨y, hy, hyr.trans hkey⟩)
      have hset : set key r' (r :: rows) = r' :: rows := by
        show (if key r = key r' then r' else r) :: set key r' rows = r' :: rows
        rw [if_pos hkey.symm, hrest]
      rw [hset]
      simp only [map_cons, sum_cons]
      omega
    · have hne : key x ≠ key r' := by
        intro heq
        exact hx (mem_map.2 ⟨r, hr, (heq.trans hkey).symm⟩)
      have hset : set key r' (x :: rows) = x :: set key r' rows := by
        show (if key x = key r' then r' else x) :: set key r' rows = x :: set key r' rows
        rw [if_neg hne]
      have hrest := ih hkeys hr
      rw [hset]
      simp only [map_cons, sum_cons]
      omega

theorem find?_set (hmem : ∃ x ∈ rows, key x = key r) (k : κ) :
    (set key r rows).find? (fun x => key x = k) =
      if k = key r then some r else rows.find? fun x => key x = k := by
  have hsame : ∀ x, decide (key (if key x = key r then r else x) = k) = decide (key x = k) := by
    intro x
    rw [key_set key]
  rw [set, find?_map_same hsame]
  cases hfind : rows.find? fun x => key x = k with
  | none =>
    have hk : k ≠ key r := by
      rintro rfl
      obtain ⟨x, hx, hkey⟩ := hmem
      have hnone := find?_eq_none.1 hfind x hx
      simp [hkey] at hnone
    rw [if_neg hk]
    rfl
  | some x =>
    have hkey : key x = k := by simpa using find?_some hfind
    subst hkey
    by_cases h : key x = key r
    · simp [h]
    · simp [h]

end Table
