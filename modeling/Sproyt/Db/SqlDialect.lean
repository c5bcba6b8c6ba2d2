import Mathlib.Data.List.Infix
import Mathlib.Data.String.Basic

/-!
# SQL in two dialects

`sql` of `chatbot.rs` and of `media_store.rs`: one loop with different markers.
-/

namespace Sproyt

open List

/-- A marker behind a placeholder, and what PostgreSQL's form has around the number. -/
structure SqlMarker where
  name : String
  opening : String
  closing : String

def SqlMarker.cast (m : SqlMarker) (index : Int) : List Char :=
  m.opening.toList ++ '$' :: (toString index).toList ++ m.closing.toList

inductive SqlModule
  | chatbot
  | mediaStore

namespace SqlModule

def markers : SqlModule → List SqlMarker
  | chatbot => [⟨"uuid", "", "::uuid"⟩, ⟨"int", "", "::bigint"⟩]
  | mediaStore => [⟨"uuid", "cast(", " as uuid)"⟩, ⟨"json", "cast(", " as jsonb)"⟩]

variable (s : SqlModule)

def markerAt (rest : List Char) : SqlMarker :=
  (s.markers.find? fun m => m.name.toList.isPrefixOf rest).getD ⟨"", "", ""⟩

/-- The loop of `sql`.  The index is an `i32`, which wraps. -/
def sqlLoop (pg : Bool) (index : Int) (rest : List Char) : List Char :=
  match _h : rest.dropWhile (· ≠ '?') with
  | [] => rest
  | _ :: after =>
    let m := s.markerAt after
    let index := (index + 1).bmod (2 ^ 32)
    rest.takeWhile (· ≠ '?') ++ (if pg then m.cast index else ['?']) ++
      sqlLoop pg index (after.drop m.name.length)
termination_by rest.length
decreasing_by
  have := (dropWhile_suffix (l := rest) (· ≠ '?')).length_le
  simp_all
  omega

def sql (query : String) (pg : Bool) : String :=
  String.ofList (s.sqlLoop pg 0 query.toList)

end SqlModule

/-! ### Readings of a template -/

/-- A placeholder with the name of its marker, and the literal text in front of it. -/
structure Slot where
  text : List Char
  marker : String

/-- PostgreSQL's form of the `k`-th placeholder, with the cast that the marker asks for. -/
def SqlModule.placeholder : SqlModule → String → Nat → String
  | chatbot, "uuid", k => "$" ++ toString k ++ "::uuid"
  | chatbot, "int", k => "$" ++ toString k ++ "::bigint"
  | mediaStore, "uuid", k => "cast($" ++ toString k ++ " as uuid)"
  | mediaStore, "json", k => "cast($" ++ toString k ++ " as jsonb)"
  | _, _, k => "$" ++ toString k

/-- A template consists of these placeholders and the text behind the last of them. -/
inductive Reads (s : SqlModule) (last : List Char) : List Char → List Slot → Prop
  | last (hlast : '?' ∉ last) : Reads s last last []
  | slot {text after : List Char} {slots : List Slot} (htext : '?' ∉ text)
      (h : Reads s last (after.drop (s.markerAt after).name.length) slots) :
      Reads s last (text ++ '?' :: after) (⟨text, (s.markerAt after).name⟩ :: slots)

/-- The literal texts, with a placeholder for each slot, numbered from `k`. -/
def render (write : String → Nat → List Char) (last : List Char) : Nat → List Slot → List Char
  | _, [] => last
  | k, x :: slots => x.text ++ write x.marker k ++ render write last (k + 1) slots

/-- The digits behind each `$`. -/
def parameters : List Char → List (List Char)
  | [] => []
  | c :: rest =>
    if c = '$' then rest.takeWhile Char.isDigit :: parameters rest else parameters rest

/-- Text that has no parameter and does not continue a number. -/
abbrev Literal (text : List Char) : Prop := '$' ∉ text ∧ text.takeWhile Char.isDigit = []

/-- No literal text has a `$`, and none behind a placeholder starts with a digit. -/
abbrev Unambiguous (slots : List Slot) (last : List Char) : Prop :=
  (∀ text ∈ slots.map (·.text) ++ [last], '$' ∉ text) ∧
    ∀ text ∈ (slots.map (·.text) ++ [last]).tail, text.takeWhile Char.isDigit = []

variable {s : SqlModule} {pg : Bool} {index : Int} {text last rest : List Char}
  {slots : List Slot} {k : Nat}

theorem exists_reads (s : SqlModule) (rest : List Char) :
    ∃ slots last, Reads s last rest slots := by
  by_cases hmem : '?' ∈ rest
  · obtain ⟨text, after, heq, htext⟩ := eq_append_cons_of_mem hmem
    have : (after.drop (s.markerAt after).name.length).length < rest.length := by
      simp only [heq, length_drop, length_append, length_cons]
      omega
    obtain ⟨slots, last, h⟩ := exists_reads s (after.drop (s.markerAt after).name.length)
    rw [heq]
    exact ⟨_, last, .slot htext h⟩
  · exact ⟨[], rest, .last hmem⟩
termination_by rest.length

theorem markerAt_spec (s : SqlModule) (rest : List Char) :
    let m := s.markerAt rest
    m.name.toList <+: rest ∧ '?' ∉ m.name.toList ∧ Literal m.opening.toList ∧
      Literal m.closing.toList := by
  rw [SqlModule.markerAt]
  cases hfind : s.markers.find? fun m => m.name.toList.isPrefixOf rest with
  | none => exact ⟨ nil_prefix, by decide⟩
  | some m =>
    have htable : ∀ m ∈ s.markers, '?' ∉ m.name.toList ∧ Literal m.opening.toList ∧
        Literal m.closing.toList := by cases s <;> decide
    have hname := find?_some hfind
    exact ⟨ isPrefixOf_iff_prefix.1 hname, htable m (mem_of_find?_eq_some hfind)⟩

theorem placeholder_markerAt (s : SqlModule) (after : List Char) (k : Nat) :
    (s.placeholder (s.markerAt after).name k).toList = (s.markerAt after).cast k := by
  have htable : ∀ m ∈ ⟨"", "", ""⟩ :: s.markers, (s.placeholder m.name k).toList = m.cast k := by
    cases s <;> simp [SqlModule.markers, SqlModule.placeholder, SqlMarker.cast] <;>
      exact Nat.toList_repr.symm
  refine htable _ ?_
  rw [SqlModule.markerAt]
  cases hfind : s.markers.find? fun m => m.name.toList.isPrefixOf after with
  | none => exact mem_cons_self
  | some m => exact mem_cons_of_mem _ (mem_of_find?_eq_some hfind)

namespace Reads

theorem loop_eq (h : Reads s last rest slots)
    (hindex : pg = true → index = k ∧ k + slots.length < 2 ^ 31) : s.sqlLoop pg index rest =
      render (fun m k => if pg then (s.placeholder m k).toList else ['?']) last (k + 1) slots := by
  have hpass : ∀ {text : List Char}, '?' ∉ text → ∀ c ∈ text, decide (c ≠ '?') = true :=
    fun h c hc => decide_eq_true fun heq => h (heq ▸ hc)
  induction h generalizing index k with
  | last hlast =>
    have hdrop := @dropWhile_append_of_pos _ _ last [] (hpass hlast)
    rw [append_nil] at hdrop
    rw [SqlModule.sqlLoop]
    split
    · rfl
    · next hcons => cases hdrop.symm.trans hcons
  | @slot text after slots htext h ih =>
    have hdrop : (text ++ '?' :: after).dropWhile (· ≠ '?') = '?' :: after :=
      dropWhile_append_of_pos (hpass htext)
    have htake : (text ++ '?' :: after).takeWhile (· ≠ '?') = text ++ [] :=
      takeWhile_append_of_pos (hpass htext)
    rw [SqlModule.sqlLoop]
    split
    · next hnil => cases hdrop.symm.trans hnil
    · next hcons =>
      cases hdrop.symm.trans hcons
      have hnext : pg = true → (index + 1).bmod (2 ^ 32) = (k + 1 : Nat) ∧
          k + 1 + slots.length < 2 ^ 31 := by
        intro hpg
        obtain ⟨rfl, hk⟩ := hindex hpg
        rw [length_cons] at hk
        exact ⟨Int.bmod_eq_of_le (by omega) (by omega), by omega⟩
      dsimp only
      rw [htake, append_nil, ih hnext, render]
      cases pg with
      | true => rw [(hnext rfl).1, if_pos rfl, if_pos rfl, placeholder_markerAt]
      | false => rfl

theorem count (h : Reads s last rest slots) : rest.count '?' = slots.length ∧
    (render (fun _ _ => ['?']) last k slots).count '?' = slots.length := by
  induction h generalizing k with
  | last hlast => exact ⟨count_eq_zero.2 hlast, count_eq_zero.2 hlast⟩
  | @slot text after slots htext h ih =>
    obtain ⟨hfront, hname, -⟩ := markerAt_spec s after
    have hafter : after.count '?' = slots.length := by
      rw [← prefix_iff_eq_append.1 hfront, count_append, count_eq_zero.2 hname, Nat.zero_add,
        String.length_toList, (ih (k := k)).1]
    simp [render, (ih (k := k + 1)).2, hafter, count_eq_zero.2 htext]

end Reads

theorem parameters_append (h : '$' ∉ text) : parameters (text ++ rest) = parameters rest := by
  induction text with
  | nil => rfl
  | cons c text ih =>
    rw [mem_cons, not_or] at h
    rw [cons_append, parameters, if_neg fun hc => h.1 hc.symm, ih h.2]

theorem Literal.append (h : Literal text) (hrest : rest.takeWhile Char.isDigit = []) :
    (text ++ rest).takeWhile Char.isDigit = [] := by
  cases text with
  | nil => exact hrest
  | cons => simpa [takeWhile_cons] using h.2

theorem parameters_cast {m : SqlMarker} (hopening : Literal m.opening.toList)
    (hclosing : Literal m.closing.toList) (hrest : rest.takeWhile Char.isDigit = []) :
    parameters (m.cast k ++ rest) = (toString k).toList :: parameters rest := by
  have hdigits : ∀ c ∈ (toString k).toList, c.isDigit = true := fun c hc =>
    Nat.isDigit_of_mem_toDigits (by decide) (by decide) (Nat.toList_repr ▸ hc)
  have hcast : m.cast k ++ rest =
      m.opening.toList ++ '$' :: ((toString k).toList ++ (m.closing.toList ++ rest)) := by
    simp only [SqlMarker.cast, append_assoc, cons_append]
    rfl
  rw [hcast, parameters_append hopening.1, parameters, if_pos rfl, takeWhile_append_of_pos hdigits,
    hclosing.append hrest, append_nil,
    parameters_append fun h => absurd (hdigits _ h) (by decide), parameters_append hclosing.1]

theorem parameters_slot (s : SqlModule) (after : List Char) (htext : '$' ∉ text)
    (hrest : rest.takeWhile Char.isDigit = []) :
    parameters (text ++ (s.placeholder (s.markerAt after).name k).toList ++ rest) =
      (toString k).toList :: parameters rest := by
  obtain ⟨-, -, hopening, hclosing⟩ := markerAt_spec s after
  rw [append_assoc, parameters_append htext, placeholder_markerAt,
    parameters_cast hopening hclosing hrest]

/-- The numbers behind a placeholder, where no text may continue one. -/
theorem Reads.numbers_behind (h : Reads s last rest slots)
    (hliteral : ∀ text ∈ slots.map (·.text) ++ [last], Literal text) :
    parameters (render (fun m k => (s.placeholder m k).toList) last k slots) =
        (range' k slots.length).map (fun k => (toString k).toList) ∧
      (render (fun m k => (s.placeholder m k).toList) last k slots).takeWhile Char.isDigit =
        [] := by
  induction h generalizing k with
  | last =>
    obtain ⟨hdollar, hdigit⟩ := hliteral last mem_cons_self
    have hnone := @parameters_append last [] hdollar
    rw [append_nil] at hnone
    exact ⟨hnone, hdigit⟩
  | @slot text after slots htext h ih =>
    obtain ⟨-, -, hopening, -⟩ := markerAt_spec s after
    have hfirst := hliteral text mem_cons_self
    obtain ⟨hnumbers, hhead⟩ := ih (k := k + 1) fun x hx => hliteral x (mem_cons_of_mem _ hx)
    refine ⟨(parameters_slot s after hfirst.1 hhead).trans (by rw [hnumbers]; rfl), ?_⟩
    rw [render, append_assoc, placeholder_markerAt, SqlMarker.cast, append_assoc, append_assoc]
    exact hfirst.append (hopening.append rfl)

theorem Reads.numbers (h : Reads s last rest slots) (hclear : Unambiguous slots last) :
    parameters (render (fun m k => (s.placeholder m k).toList) last 1 slots) =
      (range' 1 slots.length).map fun k => (toString k).toList := by
  cases h with
  | last =>
    have hnone := @parameters_append last [] (hclear.1 last mem_cons_self)
    rwa [append_nil] at hnone
  | @slot text after slots htext h =>
    -- the first text may begin with a digit, since no number stands before it
    obtain ⟨hnumbers, hhead⟩ := h.numbers_behind (k := 2) fun x hx =>
      ⟨hclear.1 x (mem_cons_of_mem _ hx), hclear.2 x hx⟩
    refine (parameters_slot s after (hclear.1 text mem_cons_self) hhead).trans ?_
    rw [hnumbers]
    rfl

/-- A template can be read in literal texts and placeholders. Both forms have the literal texts,
and a placeholder for each of the template's: `?` for SQLite, and for PostgreSQL its number in the
cast of its marker. Where no text continues a number, PostgreSQL reads 1, 2, … in the places of
SQLite's placeholders. -/
theorem sql_dialects_agree (s : SqlModule) (query : String) :
    (∃ slots last, Reads s last query.toList slots) ∧
    ∀ slots last, Reads s last query.toList slots →
      query.toList.count '?' = slots.length ∧
      (s.sql query false).toList.count '?' = slots.length ∧
      (s.sql query false).toList = render (fun _ _ => ['?']) last 1 slots ∧
      (slots.length < 2 ^ 31 →
        (s.sql query true).toList = render (fun m k => (s.placeholder m k).toList) last 1 slots ∧
        (Unambiguous slots last →
          parameters (s.sql query true).toList =
            (range' 1 slots.length).map fun k => (toString k).toList)) := by
  refine ⟨exists_reads s query.toList, fun slots last h => ?_⟩
  simp only [SqlModule.sql, String.toList_ofList]
  have hlite : s.sqlLoop false 0 query.toList = render (fun _ _ => ['?']) last 1 slots :=
    h.loop_eq nofun
  refine ⟨(h.count (k := 1)).1, hlite ▸ h.count.2, hlite, fun hfew => ?_⟩
  have hpg : s.sqlLoop true 0 query.toList =
      render (fun m k => (s.placeholder m k).toList) last 1 slots :=
    h.loop_eq fun _ => ⟨rfl, by omega⟩
  exact ⟨hpg, fun hclear => hpg ▸ h.numbers hclear⟩

/-- A marker, a digit in front of the first placeholder, and a placeholder at the end. -/
theorem sql_dialects_agree_for_values :
    (SqlModule.mediaStore.sql "12 ?uuid,?" true).toList = "12 cast($1 as uuid),$2".toList ∧
      parameters (SqlModule.mediaStore.sql "12 ?uuid,?" true).toList =
        ["1".toList, "2".toList] := by
  have hread : Reads .mediaStore [] "12 ?uuid,?".toList [⟨"12 ".toList, "uuid"⟩, ⟨[','], ""⟩] :=
    @Reads.slot _ _ "12 ".toList "uuid,?".toList _ (by decide)
      (@Reads.slot _ _ [','] [] _ (by decide) (.last (by decide)))
  obtain ⟨-, -, -, hpg⟩ := (sql_dialects_agree .mediaStore "12 ?uuid,?").2 _ _ hread
  obtain ⟨htext, hnumbers⟩ := hpg (by decide)
  exact ⟨htext, hnumbers (by decide)⟩

/-- A digit behind a placeholder continues its number. -/
theorem digit_continues_parameter : "?1".toList.count '?' = 1 ∧
    parameters (SqlModule.chatbot.sql "?1" true).toList = ["11".toList] := by
  have h : Reads .chatbot ['1'] "?1".toList [⟨[], ""⟩] :=
    @Reads.slot _ _ [] ['1'] _ (by decide) (.last (by decide))
  have hloop : SqlModule.chatbot.sqlLoop true 0 "?1".toList = _ :=
    h.loop_eq (k := 0) fun _ => ⟨rfl, by decide⟩
  rw [SqlModule.sql, hloop, String.toList_ofList]
  decide

end Sproyt
