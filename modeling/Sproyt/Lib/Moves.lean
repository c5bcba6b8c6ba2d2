import Sproyt.Lib.Table

/-!
# Tables whose rows move

A step rewrites some rows of a table in place and adds new ones under new keys. What a row
may become is a relation on rows, what a new row may be is a predicate.
-/

namespace Table

open List

variable {α κ : Type} {key : α → κ} {move : α → α → Prop} {fresh : α → Prop}
  {rows rows' : List α} {r : α} {m : α → α}

/-- The rows after a step: those from before, moved, and new ones under new keys. -/
def Moved (key : α → κ) (move : α → α → Prop) (fresh : α → Prop) (rows rows' : List α) : Prop :=
  ∃ (m : α → α) (new : List α), rows' = rows.map m ++ new ∧ (∀ r ∈ rows, move r (m r)) ∧
    (new.map key).Nodup ∧ ∀ r ∈ new, fresh r ∧ ∀ x ∈ rows, key x ≠ key r

theorem moved_of_map (h : rows' = rows.map m) (hmove : ∀ r ∈ rows, move r (m r)) :
    Moved key move fresh rows rows' :=
  ⟨m, [], by simp [h], hmove, nodup_nil, fun _ hr => absurd hr not_mem_nil⟩

theorem moved_of_same (h : rows' = rows) (hkeep : ∀ r, move r r) :
    Moved key move fresh rows rows' :=
  moved_of_map (h.trans (map_id rows).symm) fun r _ => hkeep r

theorem moved_of_insert (h : rows' = rows ++ [r]) (hkeep : ∀ r, move r r) (hr : fresh r)
    (hnew : ∀ x ∈ rows, key x ≠ key r) : Moved key move fresh rows rows' := by
  refine ⟨id, [r], by simp [h], fun r _ => hkeep r, nodup_singleton _, fun x hx => ?_⟩
  rw [mem_singleton.1 hx]
  exact ⟨hr, hnew⟩

namespace Moved

variable (h : Moved key move fresh rows rows')

include h

theorem unique (hmove : ∀ r r', move r r' → key r' = key r) (hkeys : (rows.map key).Nodup) :
    (rows'.map key).Nodup := by
  obtain ⟨m, new, rfl, hm, hnodup, hnew⟩ := h
  have hsame : (rows.map m).map key = rows.map key := by
    rw [map_map]
    exact map_congr_left fun r hr => hmove r (m r) (hm r hr)
  rw [map_append, hsame]
  refine hkeys.append hnodup fun k hk hk' => ?_
  obtain ⟨x, hx, rfl⟩ := mem_map.1 hk
  obtain ⟨r, hr, heq⟩ := mem_map.1 hk'
  exact (hnew r hr).2 x hx heq.symm

theorem successor (hr : r ∈ rows) : ∃ r' ∈ rows', move r r' := by
  obtain ⟨m, new, rfl, hm, -⟩ := h
  exact ⟨m r, mem_append_left _ (mem_map_of_mem hr), hm r hr⟩

theorem exists_row {P : α → Prop} (hmove : ∀ r r', move r r' → P r → P r')
    (hr : ∃ r ∈ rows, P r) : ∃ r ∈ rows', P r := by
  obtain ⟨r, hr, hp⟩ := hr
  obtain ⟨r', hr', hrr'⟩ := h.successor hr
  exact ⟨r', hr', hmove r r' hrr' hp⟩

theorem origin (hr : r ∈ rows') : (∃ x ∈ rows, move x r) ∨ fresh r := by
  obtain ⟨m, new, rfl, hm, -, hnew⟩ := h
  rcases mem_append.1 hr with hr | hr
  · obtain ⟨x, hx, rfl⟩ := mem_map.1 hr
    exact .inl ⟨x, hx, hm x hx⟩
  · exact .inr (hnew r hr).1

end Moved

def Carried (move : α → α → Prop) (rows rows' : List α) : Prop :=
  ∀ r ∈ rows, ∃ r' ∈ rows', move r r'

namespace Carried

variable {rows'' : List α} {r' : α}

theorem refl (hkeep : ∀ r, move r r) (rows : List α) : Carried move rows rows :=
  fun r hr => ⟨r, hr, hkeep r⟩

theorem trans (hmove : ∀ x y z, move x y → move y z → move x z) (h : Carried move rows rows')
    (h' : Carried move rows' rows'') : Carried move rows rows'' := by
  intro r hr
  obtain ⟨x, hx, hrx⟩ := h r hr
  obtain ⟨y, hy, hxy⟩ := h' x hx
  exact ⟨y, hy, hmove r x y hrx hxy⟩

theorem append (hkeep : ∀ r, move r r) (rows new : List α) : Carried move rows (rows ++ new) :=
  fun r hr => ⟨r, mem_append_left _ hr, hkeep r⟩

theorem map (hmove : ∀ r ∈ rows, move r (m r)) : Carried move rows (rows.map m) :=
  fun r hr => ⟨m r, mem_map_of_mem hr, hmove r hr⟩

theorem set [DecidableEq κ] (hkeep : ∀ r, move r r) (hkeys : (rows.map key).Nodup) (hr : r ∈ rows)
    (hkey : key r' = key r) (hmove : move r r') : Carried move rows (Table.set key r' rows) := by
  intro x hx
  by_cases h : key x = key r'
  · obtain rfl : x = r := eq_of_key_eq hkeys hx hr (h.trans hkey)
    exact ⟨r', mem_set_self ⟨x, hx, h⟩, hmove⟩
  · exact ⟨x, mem_set_of_ne hx h, hkeep x⟩

end Carried

theorem move_ite {p : Prop} [Decidable p] {r r' : α} (hkeep : move r r) (h : p → move r r') :
    move r (if p then r' else r) := by
  by_cases hp : p
  · rw [if_pos hp]
    exact h hp
  · rw [if_neg hp]
    exact hkeep

end Table
