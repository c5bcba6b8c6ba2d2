import Mathlib.Data.List.Basic

/-!
# Paging by a key

Rows in the order of a numeric key are read page by page: forwards from a number with the rows
that follow it, or backwards with the rows before it. A reader goes on at the last, or the
first, key of the page it has, until a page is empty.
-/

namespace Paging

open List

variable {α ε : Type} {key : α → Nat} {rows before after : List α} {m : α} {a b limit : Nat}

def Ascending (key : α → Nat) (rows : List α) : Prop := rows.Pairwise fun x y => key x < key y

def lastRows (limit : Nat) (rows : List α) : List α := rows.drop (rows.length - limit)

/-! ### A row parts the others -/

theorem Ascending.lt_of_mem (h : Ascending key (before ++ m :: after)) :
    (∀ x ∈ before, key x < key m) ∧ ∀ x ∈ after, key m < key x := by
  obtain ⟨-, hafter, hbetween⟩ := pairwise_append.1 h
  exact ⟨fun x hx => hbetween x hx m mem_cons_self, (pairwise_cons.1 hafter).1⟩

theorem filter_of_split {p q : α → Bool} (hsub : ∀ x, p x = true → q x = true)
    (hsplit : rows.filter q = before ++ after) :
    rows.filter p = before.filter p ++ after.filter p := by
  rw [← filter_append, ← hsplit, filter_filter]
  refine filter_congr fun x _ => ?_
  cases hp : p x with
  | true => rw [hsub x hp, Bool.and_self]
  | false => rw [Bool.false_and]

/-- What follows a page that was read forwards is what follows its last row. -/
theorem Ascending.take_append (h : Ascending key rows)
    (hlast : ((rows.filter fun x => a < key x).take limit).getLast? = some m) :
    rows.filter (fun x => a < key x) =
      (rows.filter fun x => a < key x).take limit ++ rows.filter fun x => key m < key x := by
  obtain ⟨page, hpage⟩ := getLast?_eq_some_iff.1 hlast
  have hsplit : rows.filter (fun x => a < key x) =
      (page ++ [m]) ++ (rows.filter fun x => a < key x).drop limit := by
    rw [← hpage, take_append_drop]
  have hm : a < key m :=
    of_decide_eq_true (mem_filter.1 (mem_of_mem_take (mem_of_getLast? hlast))).2
  have hascending : Ascending key (rows.filter fun x => a < key x) := h.filter _
  rw [hsplit, append_assoc, singleton_append] at hascending
  obtain ⟨hbefore, hafter⟩ := hascending.lt_of_mem
  have hrest : rows.filter (fun x => key m < key x) =
      (rows.filter fun x => a < key x).drop limit := by
    rw [filter_of_split (fun x hx =>
      decide_eq_true (Nat.lt_trans hm (of_decide_eq_true hx))) hsplit,
      filter_eq_nil_iff.2 fun x hx => ?_, nil_append, filter_eq_self.2 fun x hx => ?_]
    · exact decide_eq_true (hafter x hx)
    · rw [decide_eq_true_eq]
      rcases mem_append.1 hx with hx | hx
      · exact Nat.lt_asymm (hbefore x hx)
      · rw [mem_singleton.1 hx]
        exact Nat.lt_irrefl _
  rw [hrest, take_append_drop]

/-- What precedes a page that was read backwards is what precedes its first row. -/
theorem Ascending.append_lastRows (h : Ascending key rows)
    (hfirst : (lastRows limit (rows.filter fun x => key x < b)).head? = some m) :
    rows.filter (fun x => key x < b) =
      (rows.filter fun x => key x < key m) ++ lastRows limit (rows.filter fun x => key x < b) := by
  obtain ⟨page, hpage⟩ := head?_eq_some_iff.1 hfirst
  obtain ⟨older, hsplit⟩ : ∃ older, rows.filter (fun x => key x < b) =
      older ++ lastRows limit (rows.filter fun x => key x < b) :=
    ⟨_, (take_append_drop _ _).symm⟩
  have hm : key m < b :=
    of_decide_eq_true (mem_filter.1
      (mem_of_mem_drop (mem_of_mem_head? (Option.mem_def.2 hfirst)))).2
  have hascending : Ascending key (rows.filter fun x => key x < b) := h.filter _
  rw [hsplit, hpage] at hascending
  obtain ⟨hbefore, hafter⟩ := hascending.lt_of_mem
  have hrest : rows.filter (fun x => key x < key m) = older := by
    rw [filter_of_split (fun x hx =>
      decide_eq_true (Nat.lt_trans (of_decide_eq_true hx) hm)) hsplit,
      filter_eq_self.2 fun x hx => decide_eq_true (hbefore x hx),
        filter_eq_nil_iff.2 fun x hx => ?_,
      append_nil]
    rw [decide_eq_true_eq]
    rw [hpage] at hx
    rcases mem_cons.1 hx with rfl | hx
    · exact Nat.lt_irrefl _
    · exact Nat.lt_asymm (hafter x hx)
  rw [hrest]
  exact hsplit

theorem lastRows_eq_nil (hlimit : 1 ≤ limit) (h : lastRows limit rows = []) : rows = [] := by
  have hlength := drop_eq_nil_iff.1 h
  rw [← length_eq_zero_iff]
  omega

/-! ### Page after page -/

/-- The pages that a reader gets from a number on, up to an empty one. -/
inductive Pages (load : Nat → Except ε (List α)) (next : List α → Option Nat) :
    Nat → List (List α) → Prop
  | done {a : Nat} (h : load a = .ok []) : Pages load next a []
  | more {a b : Nat} {page : List α} {pages : List (List α)} (h : load a = .ok page)
      (hnext : next page = some b) (hrest : Pages load next b pages) :
      Pages load next a (page :: pages)

variable {load : Nat → Except ε (List α)} {next : List α → Option Nat}
  {good : Nat → Prop} {rest : Nat → List α} {join : List α → List α → List α}

/-- What has still to be read goes down with each page: the pages end, and they make up what
there was to read. -/
structure Consumes (load : Nat → Except ε (List α)) (next : List α → Option Nat)
    (good : Nat → Prop) (rest : Nat → List α) (join : List α → List α → List α) : Prop where
  loads : ∀ a, good a → ∃ page, load a = .ok page ∧
    ((page = [] ∧ rest a = []) ∨
      ∃ b, next page = some b ∧ good b ∧ (rest b).length < (rest a).length ∧
        rest a = join page (rest b))
  ends : next [] = none

theorem Consumes.pages_end (h : Consumes load next good rest join) (ha : good a) :
    ∃ pages, Pages load next a pages := by
  -- by strong induction on the number of rows that remain
  induction hlength : (rest a).length using Nat.strongRecOn generalizing a with
  | _ n ih =>
    obtain ⟨page, hload, hcase⟩ := h.loads a ha
    rcases hcase with ⟨rfl, -⟩ | ⟨b, hnext, hb, hlt, -⟩
    · exact ⟨[], .done hload⟩
    · obtain ⟨pages, hpages⟩ := ih (rest b).length (hlength ▸ hlt) hb rfl
      exact ⟨page :: pages, .more hload hnext hpages⟩

theorem Consumes.pages_join (h : Consumes load next good rest join) (ha : good a)
    {pages : List (List α)} (hpages : Pages load next a pages) : pages.foldr join [] = rest a := by
  induction hpages with
  | done hload =>
    obtain ⟨page, hload', hcase⟩ := h.loads _ ha
    obtain rfl := Except.ok.inj (hload.symm.trans hload')
    rcases hcase with ⟨-, hrest⟩ | ⟨b, hnext, -⟩
    · exact hrest.symm
    · rw [h.ends] at hnext
      cases hnext
  | more hload hnext hrest ih =>
    obtain ⟨page, hload', hcase⟩ := h.loads _ ha
    obtain rfl := Except.ok.inj (hload.symm.trans hload')
    rcases hcase with ⟨rfl, -⟩ | ⟨b, hnext', hb, -, hjoin⟩
    · rw [h.ends] at hnext
      cases hnext
    · obtain rfl := Option.some.inj (hnext.symm.trans hnext')
      rw [foldr_cons, ih hb, hjoin]

theorem foldr_append (pages : List (List α)) :
    pages.foldr (fun page later => page ++ later) [] = pages.flatten := by
  induction pages with
  | nil => rfl
  | cons page pages ih => rw [foldr_cons, ih, flatten_cons]

theorem foldr_older_perm (pages : List (List α)) :
    pages.flatten.Perm (pages.foldr (fun page older => older ++ page) []) := by
  induction pages with
  | nil => exact .nil
  | cons page pages ih =>
    rw [flatten_cons, foldr_cons]
    exact perm_append_comm.trans (ih.append_right page)

section

variable (h : Ascending key rows)

include h

theorem Ascending.consumes_after (hlimit : 1 ≤ limit)
    (hload : ∀ a, good a → load a = .ok ((rows.filter fun x => a < key x).take limit))
    (hgood : ∀ x ∈ rows, good (key x)) :
    Consumes load (fun page => page.getLast?.map key) good
      (fun a => rows.filter fun x => a < key x) (· ++ ·) := by
  refine ⟨fun a ha => ⟨_, hload a ha, ?_⟩, rfl⟩
  rcases Option.eq_none_or_eq_some ((rows.filter fun x => a < key x).take limit).getLast?
    with hnone | ⟨m, hlast⟩
  · have hnil := getLast?_eq_none_iff.1 hnone
    refine .inl ⟨hnil, ?_⟩
    rcases take_eq_nil_iff.1 hnil with hzero | hnil
    · omega
    · exact hnil
  · have hjoin := h.take_append hlast
    have hmem : m ∈ rows.filter fun x => a < key x :=
      mem_of_mem_take (mem_of_getLast? hlast)
    refine .inr ⟨key m, by rw [hlast, Option.map_some], hgood m (mem_filter.1 hmem).1, ?_, hjoin⟩
    have hpos : 0 < ((rows.filter fun x => a < key x).take limit).length :=
      length_pos_of_mem (mem_of_getLast? hlast)
    rw [hjoin, length_append]
    omega

theorem Ascending.consumes_before (hlimit : 1 ≤ limit)
    (hload : ∀ b, good b → load b = .ok (lastRows limit (rows.filter fun x => key x < b)))
    (hgood : ∀ x ∈ rows, good (key x)) :
    Consumes load (fun page => page.head?.map key) good
      (fun b => rows.filter fun x => key x < b) (fun page older => older ++ page) := by
  refine ⟨fun b hb => ⟨_, hload b hb, ?_⟩, rfl⟩
  rcases Option.eq_none_or_eq_some (lastRows limit (rows.filter fun x => key x < b)).head?
    with hnone | ⟨m, hfirst⟩
  · have hnil := head?_eq_none_iff.1 hnone
    exact .inl ⟨hnil, lastRows_eq_nil hlimit hnil⟩
  · have hjoin := h.append_lastRows hfirst
    have hpage : m ∈ lastRows limit (rows.filter fun x => key x < b) :=
      mem_of_mem_head? (by rw [hfirst]; rfl)
    have hmem : m ∈ rows.filter fun x => key x < b := mem_of_mem_drop hpage
    refine .inr ⟨key m, by rw [hfirst, Option.map_some], hgood m (mem_filter.1 hmem).1, ?_, hjoin⟩
    have hpos := length_pos_of_mem hpage
    rw [hjoin, length_append]
    omega

/-! ### The last page -/

theorem Ascending.mem_lastRows {x : α}
    (hfirst : (lastRows limit rows).head? = some m) (hx : x ∈ rows) :
    x ∈ lastRows limit rows ↔ key m ≤ key x := by
  obtain ⟨page, hpage⟩ := head?_eq_some_iff.1 hfirst
  obtain ⟨older, hsplit⟩ : ∃ older, rows = older ++ lastRows limit rows :=
    ⟨_, (take_append_drop _ _).symm⟩
  rw [hpage] at hsplit ⊢
  rw [hsplit] at h hx
  obtain ⟨holder, hlater⟩ := h.lt_of_mem
  constructor
  · intro hmem
    rcases mem_cons.1 hmem with rfl | hmem
    · exact Nat.le_refl _
    · exact Nat.le_of_lt (hlater x hmem)
  · intro hle
    rcases mem_append.1 hx with hx | hx
    · have hlt := holder x hx
      omega
    · exact hx

theorem Ascending.le_last {x : α} (hlast : rows.getLast? = some m)
    (hx : x ∈ rows) : key x ≤ key m := by
  obtain ⟨init, rfl⟩ := getLast?_eq_some_iff.1 hlast
  obtain ⟨hbefore, -⟩ := h.lt_of_mem
  rcases mem_append.1 hx with hx | hx
  · exact Nat.le_of_lt (hbefore x hx)
  · exact Nat.le_of_eq (congrArg key (mem_singleton.1 hx))

end

theorem getLast?_lastRows (hlimit : 1 ≤ limit) :
    (lastRows limit rows).getLast? = rows.getLast? := by
  rw [lastRows, getLast?_drop]
  split
  · next h =>
    have hnil : rows.length = 0 := by omega
    rw [length_eq_zero_iff.1 hnil]
    rfl
  · rfl

end Paging
