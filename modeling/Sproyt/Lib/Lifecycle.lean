import Sproyt.Lib.Table

/-!
# The lives of the rows of a table

Each row of a table stands at a stage of one common life, and each event of a history takes the
row with some key one stage further. Rows begin with the first event of the life and may be
deleted, and a key may then begin anew. The events of a key since it last began are always the
first ones of the life, in order.
-/

namespace Lifecycle

variable {α κ ι : Type} [DecidableEq κ] [DecidableEq ι]

/-- The events of a key since it last began with `first`. -/
def latest (first : ι) (k : κ) (events : List (κ × ι)) : List ι :=
  events.foldl
    (fun life e => if e.1 = k then (if e.2 = first then [first] else life ++ [e.2]) else life) []

/-- Keys are unique, the latest events of each key are the first ones of the life, and a row has
as many of them behind it as its stage says. -/
structure Follows (key : α → κ) (stage : α → Nat) (first : ι) (rest : List ι) (rows : List α)
    (events : List (κ × ι)) : Prop where
  unique : (rows.map key).Nodup
  rows : ∀ r ∈ rows, latest first (key r) events = (first :: rest).take (stage r)
  keys : ∀ k, ∃ n, latest first k events = (first :: rest).take n

variable {key : α → κ} {stage : α → Nat} {first : ι} {rest : List ι} {rows rows' : List α}
  {events : List (κ × ι)} {k : κ} {x : ι}

theorem latest_concat (e : κ × ι) :
    latest first k (events ++ [e]) = if e.1 = k then
      (if e.2 = first then [first] else latest first k events ++ [e.2])
    else latest first k events := by
  rw [latest, List.foldl_append]
  rfl

theorem follows_nil : Follows key stage first rest [] [] :=
  ⟨List.nodup_nil, fun _ hr => absurd hr List.not_mem_nil, fun _ => ⟨0, rfl⟩⟩

section

variable (h : Follows key stage first rest rows events)

include h

theorem Follows.sublist (hrows : rows'.Sublist rows) : Follows key stage first rest rows' events :=
  ⟨h.unique.sublist (hrows.map key), fun r hr => h.rows r (hrows.subset hr), h.keys⟩

theorem Follows.event {n : Nat} (hunique : (rows'.map key).Nodup)
    (hafter : latest first k (events ++ [(k, x)]) = (first :: rest).take n)
    (hrows : ∀ r ∈ rows', (key r ≠ k ∧ r ∈ rows) ∨ key r = k ∧ stage r = n) :
    Follows key stage first rest rows' (events ++ [(k, x)]) := by
  refine ⟨hunique, fun r hr => ?_, fun k' => ?_⟩
  · rcases hrows r hr with ⟨hne, hr⟩ | ⟨hkey, hstage⟩
    · rw [latest_concat, if_neg (Ne.symm hne)]
      exact h.rows r hr
    · rw [hkey, hstage, hafter]
  · by_cases hk : k = k'
    · exact ⟨n, hk ▸ hafter⟩
    · rw [latest_concat, if_neg hk]
      exact h.keys k'

theorem Follows.begin {row : α} (hnew : ∀ r ∈ rows, key r ≠ key row) (hstage : stage row = 1) :
    Follows key stage first rest (rows ++ [row]) (events ++ [(key row, first)]) := by
  refine h.event (n := 1) (Table.nodup_append_single h.unique hnew) ?_ fun r hr => ?_
  · rw [latest_concat, if_pos rfl, if_pos rfl]
    rfl
  · rcases List.mem_append.1 hr with hr | hr
    · exact .inl ⟨hnew r hr, hr⟩
    · rw [List.mem_singleton.1 hr]
      exact .inr ⟨rfl, hstage⟩

theorem Follows.advance {p : α → Prop}
    [DecidablePred p] {f : α → α} {row : α} (hrow : row ∈ rows) (hp : p row)
    (hone : ∀ r ∈ rows, p r → key r = key row)
    (hnext : (first :: rest)[stage row]? = some x) (hx : x ≠ first)
    (hkey : ∀ r, key (f r) = key r) (hstage : stage (f row) = stage row + 1) :
    Follows key stage first rest (rows.map fun r => if p r then f r else r)
      (events ++ [(key row, x)]) := by
  refine h.event (n := stage row + 1) ?_ ?_ fun r' hr' => ?_
  · rw [Table.map_key_map fun r => by split; exacts [hkey r, rfl]]
    exact h.unique
  · rw [latest_concat, if_pos rfl, if_neg hx, h.rows row hrow, List.take_add_one, hnext]
    rfl
  · obtain ⟨r, hr, rfl⟩ := List.mem_map.1 hr'
    by_cases hsame : key r = key row
    · obtain rfl := Table.eq_of_key_eq h.unique hr hrow hsame
      rw [if_pos hp]
      exact .inr ⟨hkey r, hstage⟩
    · rw [if_neg fun hpr => hsame (hone r hr hpr)]
      exact .inl ⟨hsame, hr⟩

theorem Follows.latest_isPrefix (k : κ) : latest first k events <+: first :: rest := by
  obtain ⟨n, hn⟩ := h.keys k
  rw [hn]
  exact List.take_prefix n _

end

end Lifecycle
