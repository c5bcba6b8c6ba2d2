import Sproyt.Domain.Text

/-!
# Words

`split_whitespace` and `join(" ")` on lists of characters, and the texts that these two leave as
they are: words with single blanks between them.
-/

namespace Sproyt

open List

/-- `str::split_whitespace`. -/
def splitWhitespace (s : List Char) : List (List Char) :=
  (s.splitOnP isWhitespace).filter (· ≠ [])

/-- The words of a text with blanks between them. -/
def joinWords (text : List Char) : List Char := [' '].intercalate (splitWhitespace text)

structure IsWord (word : List Char) : Prop where
  ne_nil : word ≠ []
  solid : ∀ c ∈ word, isWhitespace c = false

inductive Spaced : List Char → Prop
  | word {w : List Char} (hw : IsWord w) : Spaced w
  | cons {w rest : List Char} (hw : IsWord w) (hrest : Spaced rest) : Spaced (w ++ ' ' :: rest)

variable {s word : List Char}

theorem pieces_induction {motive : List Char → Prop}
    (piece : ∀ s, (∀ c ∈ s, isWhitespace c = false) → motive s)
    (space : ∀ s c t, (∀ c ∈ s, isWhitespace c = false) → isWhitespace c = true → motive t →
      motive (s ++ c :: t)) (s : List Char) : motive s := by
  induction hn : s.length using Nat.strong_induction_on generalizing s with
  | _ n ih =>
    have hfirst : ∀ c ∈ s.takeWhile (!isWhitespace ·), isWhitespace c = false := fun c hc =>
      by simpa using mem_takeWhile_imp hc
    have hs := takeWhile_append_dropWhile (p := (!isWhitespace ·)) (l := s)
    cases hrest : s.dropWhile (!isWhitespace ·) with
    | nil =>
      rw [hrest, append_nil] at hs
      exact piece s (hs ▸ hfirst)
    | cons c t =>
      have hc : isWhitespace c = true := by
        have hhead := head_dropWhile_not (!isWhitespace ·) (l := s) (by rw [hrest]; nofun)
        simp only [hrest, head_cons] at hhead
        simpa using hhead
      rw [hrest] at hs
      rw [← hs]
      refine space _ c t hfirst hc (ih t.length ?_ t rfl)
      have hlength := congrArg List.length hs
      rw [length_append, length_cons] at hlength
      omega

theorem splitWhitespace_word (hw : IsWord word) : splitWhitespace word = [word] := by
  rw [splitWhitespace, splitOnP_eq_singleton hw.solid]
  exact filter_eq_self.2 fun w hmem => by
    rw [mem_singleton.1 hmem]
    exact decide_eq_true hw.ne_nil

theorem splitWhitespace_append {c : Char} (hc : isWhitespace c = true) (s t : List Char) :
    splitWhitespace (s ++ c :: t) = splitWhitespace s ++ splitWhitespace t := by
  rw [splitWhitespace, splitOnP_append_cons s t hc, filter_append]
  rfl

theorem splitWhitespace_piece (hs : ∀ c ∈ s, isWhitespace c = false) :
    splitWhitespace s = if s = [] then [] else [s] := by
  split
  · next hnil => rw [hnil]; rfl
  · next hne => exact splitWhitespace_word ⟨hne, hs⟩

theorem mem_words {c : Char} :
    (∃ w ∈ splitWhitespace s, c ∈ w) ↔ c ∈ s ∧ isWhitespace c = false := by
  induction s using pieces_induction with
  | piece s hs =>
    rw [splitWhitespace_piece hs]
    split
    · next hnil => simp [hnil]
    · simpa using hs c
  | space s d t hs hd ih =>
    rw [splitWhitespace_append hd, splitWhitespace_piece hs]
    simp only [mem_append, or_and_right, exists_or, ih, mem_cons]
    have hne : c = d → isWhitespace c = true := fun h => h ▸ hd
    split <;> grind

theorem isWord_of_mem (h : word ∈ splitWhitespace s) : IsWord word :=
  ⟨of_decide_eq_true (mem_filter.1 h).2, fun _ hc => (mem_words.1 ⟨word, h, hc⟩).2⟩

/-! ### Words with blanks between them -/

theorem intercalate_cons {words : List (List Char)} (hne : words ≠ []) :
    [' '].intercalate (word :: words) = word ++ ' ' :: [' '].intercalate words := by
  cases words with
  | nil => exact absurd rfl hne
  | cons w words => simp [intercalate]

theorem spaced_intercalate {words : List (List Char)} (hne : words ≠ [])
    (hwords : ∀ w ∈ words, IsWord w) : Spaced ([' '].intercalate words) := by
  induction words with
  | nil => exact absurd rfl hne
  | cons w words ih =>
    have hw := hwords w mem_cons_self
    by_cases hrest : words = []
    · rw [hrest]
      simpa [intercalate] using Spaced.word hw
    · rw [intercalate_cons hrest]
      exact .cons hw (ih hrest fun x hx => hwords x (mem_cons_of_mem _ hx))

theorem Spaced.ne_nil (h : Spaced s) : s ≠ [] := by
  cases h with
  | word hw => exact hw.ne_nil
  | cons hw _ => simp

theorem spaced_joinWords (hne : joinWords s ≠ []) : Spaced (joinWords s) :=
  spaced_intercalate (fun hnil => hne (by rw [joinWords, hnil]; rfl)) fun _ => isWord_of_mem

theorem mem_intercalate {c : Char} {words : List (List Char)} (hc : c ≠ ' ') :
    c ∈ [' '].intercalate words ↔ ∃ w ∈ words, c ∈ w := by
  induction words with
  | nil => simp [intercalate]
  | cons w words ih =>
    by_cases hrest : words = []
    · simp [hrest, intercalate]
    · rw [intercalate_cons hrest]
      simp [hc, ih]

theorem mem_joinWords {c : Char} (hc : c ≠ ' ') :
    c ∈ joinWords s ↔ c ∈ s ∧ isWhitespace c = false := by
  rw [joinWords, mem_intercalate hc, mem_words]

/-- Splitting and joining leaves words with single blanks between them as they are. -/
theorem Spaced.joinWords_eq (h : Spaced s) : joinWords s = s := by
  induction h with
  | word hw =>
    rw [joinWords, splitWhitespace_word hw]
    simp [intercalate]
  | @cons w rest hw hrest ih =>
    have hwords : splitWhitespace rest ≠ [] := by
      intro hnil
      rw [joinWords, hnil] at ih
      rw [← ih] at hrest
      exact hrest.ne_nil rfl
    rw [joinWords, splitWhitespace_append (by decide), splitWhitespace_word hw, singleton_append,
      intercalate_cons hwords]
    exact congrArg _ (congrArg _ ih)

end Sproyt
