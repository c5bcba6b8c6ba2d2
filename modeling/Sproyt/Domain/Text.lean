import Mathlib.Algebra.Order.Ring.Nat
import Mathlib.Data.List.DropRight
import Mathlib.Data.String.Basic

/-!
# Validated texts

Message bodies, display names and slugs as the protocol crate admits them: trimmed,
not empty and of bounded size.
-/

namespace Sproyt

variable {value : String}

/-- What holds of the characters of a text is decided along the text, not over all characters. -/
instance (priority := high) decidableForallMemChar (p : Char → Prop) [DecidablePred p]
    (s : List Char) : Decidable (∀ c ∈ s, p c) := List.decidableBAll p s

/-- `char::is_whitespace`: the code points with the Unicode White_Space property. -/
def isWhitespace (c : Char) : Bool :=
  let n := c.toNat
  (9 ≤ n && n ≤ 13) || n == 0x20 || n == 0x85 || n == 0xA0 || n == 0x1680 ||
    (0x2000 ≤ n && n ≤ 0x200A) || n == 0x2028 || n == 0x2029 || n == 0x202F ||
    n == 0x205F || n == 0x3000

/-- `char::is_control`: the code points of the Unicode category Cc. -/
def isControl (c : Char) : Bool :=
  c.toNat < 0x20 || (0x7F ≤ c.toNat && c.toNat ≤ 0x9F)

/-- `str::trim`. -/
def trim (s : String) : String :=
  String.ofList ((s.toList.dropWhile isWhitespace).rdropWhile isWhitespace)

inductive TextValidationError
  | empty (field : String)
  | invalidSlug
  | invalidHandle
  | invalidCircleName
  | invalidUuid (field : String)
  | tooLarge (field : String) (max : Nat)
deriving DecidableEq, Repr

def TextValidationError.display : TextValidationError → String
  | .empty field => field ++ " cannot be empty"
  | .invalidSlug => "channel slug can only contain lowercase letters, numbers, '-' and '_'"
  | .invalidHandle => "handle can only contain letters, numbers, '.', '-' and '_'"
  | .invalidCircleName => "circle name must contain 1 to 120 characters"
  | .invalidUuid field => field ++ " must be a UUID"
  | .tooLarge field max => field ++ " cannot exceed " ++ toString max ++ " bytes"

def boundedNonEmpty (value field : String) (max : Nat) : Except TextValidationError String :=
  let value := trim value
  if value = "" then .error (.empty field)
  else if max < value.utf8ByteSize then .error (.tooLarge field max)
  else .ok value

theorem boundedNonEmpty_ok {field : String} {max : Nat} {r : String}
    (h : boundedNonEmpty value field max = .ok r) :
    r = trim value ∧ r ≠ "" ∧ r.utf8ByteSize ≤ max := by
  unfold boundedNonEmpty at h
  by_cases he : trim value = ""
  · simp [he] at h
  · by_cases hl : max < (trim value).utf8ByteSize
    · simp [he, hl] at h
    · simp only [he, hl, if_false, Except.ok.injEq] at h
      subst h
      exact ⟨rfl, he, Nat.le_of_not_lt hl⟩

structure Bare (s : String) : Prop where
  first : ∀ c ∈ s.toList.head?, isWhitespace c = false
  last : ∀ c ∈ s.toList.getLast?, isWhitespace c = false

theorem bare_trim (s : String) : Bare (trim s) := by
  constructor
  · intro c hc
    rw [trim, String.toList_ofList] at hc
    -- what is trimmed on the right has the first character of what is trimmed on the left
    obtain ⟨rest, hrest⟩ := List.rdropWhile_prefix isWhitespace (s.toList.dropWhile isWhitespace)
    have hhead : (s.toList.dropWhile isWhitespace).head? = some c := by
      rw [← hrest, List.head?_append, hc, Option.some_or]
    have hnot := List.head?_dropWhile_not isWhitespace s.toList
    rw [hhead] at hnot
    exact hnot
  · intro c hc
    rw [trim, String.toList_ofList] at hc
    obtain ⟨hne, hlast⟩ := List.mem_getLast?_eq_getLast hc
    have hnot := List.rdropWhile_last_not isWhitespace _ hne
    rw [← hlast, Bool.not_eq_true] at hnot
    exact hnot

theorem trim_of_bare {s : String} (h : Bare s) : trim s = s := by
  have hleft : s.toList.dropWhile isWhitespace = s.toList := by
    cases hs : s.toList with
    | nil => rfl
    | cons c cs =>
      have hc := h.first c (by rw [hs]; rfl)
      rw [List.dropWhile_cons_of_neg (by rw [hc]; exact nofun)]
  have hright : s.toList.rdropWhile isWhitespace = s.toList := by
    refine (List.rdropWhile_eq_self_iff).2 fun hne => ?_
    rw [h.last _ (List.getLast?_eq_some_getLast hne)]
    exact nofun
  rw [trim, hleft, hright, String.ofList_toList]

theorem Bare.between {s t : String} (hs : Bare s) (hsne : s ≠ "") (ht : Bare t) (htne : t ≠ "")
    (m : String) : Bare (s ++ m ++ t) := by
  have hne : ∀ {r : String}, r ≠ "" → r.toList ≠ [] := fun hr h =>
    hr (String.toList_inj.1 (h.trans rfl))
  constructor
  · intro c hc
    rw [String.toList_append, String.toList_append, List.append_assoc,
      List.head?_append_of_ne_nil _ (hne hsne)] at hc
    exact hs.first c hc
  · intro c hc
    rw [String.toList_append, List.getLast?_append_of_ne_nil _ (hne htne)] at hc
    exact ht.last c hc

structure MessageBody where
  text : String
  nonEmpty : text ≠ ""
  bounded : text.utf8ByteSize ≤ 64 * 1024
deriving DecidableEq

def MessageBody.maxBytes : Nat := 64 * 1024

def MessageBody.new (value : String) : Except TextValidationError MessageBody :=
  match h : boundedNonEmpty value "message body" MessageBody.maxBytes with
  | .ok text => .ok ⟨text, (boundedNonEmpty_ok h).2.1, (boundedNonEmpty_ok h).2.2⟩
  | .error e => .error e

structure DisplayName where
  text : String
  nonEmpty : text ≠ ""
deriving DecidableEq

def DisplayName.maxBytes : Nat := 120

def DisplayName.new (value : String) : Except TextValidationError DisplayName :=
  match h : boundedNonEmpty value "display name" DisplayName.maxBytes with
  | .ok text => .ok ⟨text, (boundedNonEmpty_ok h).2.1⟩
  | .error e => .error e

/-- `DisplayName::circle_name`, which counts characters. -/
def DisplayName.circleName (value : String) : Except TextValidationError DisplayName :=
  if h : trim value = "" then .error .invalidCircleName
  else if 120 < (trim value).length then .error .invalidCircleName
  else .ok ⟨trim value, h⟩

theorem MessageBody.new_text {body : MessageBody}
    (h : MessageBody.new value = .ok body) : body.text = trim value := by
  rw [MessageBody.new] at h
  split at h
  · next text hok =>
    rw [← Except.ok.inj h]
    exact (boundedNonEmpty_ok hok).1
  · cases h

open DisplayName

variable {name : DisplayName}

theorem DisplayName.new_eq_ok : new value = .ok name ↔
      boundedNonEmpty value "display name" maxBytes = .ok name.text := by
  rw [new]
  split
  · next text hok =>
    cases name with
    | mk text' hne =>
      rw [Except.ok.injEq, DisplayName.mk.injEq]
      exact ⟨fun h => h ▸ hok, fun h => Except.ok.inj (hok.symm.trans h)⟩
  · next e herror =>
    rw [herror]
    exact ⟨nofun, nofun⟩

theorem DisplayName.bare (h : new value = .ok name) : Bare name.text := by
  rw [(boundedNonEmpty_ok (new_eq_ok.1 h)).1]
  exact bare_trim value

theorem DisplayName.exists_new_iff (h : Bare value) (hne : value ≠ "") :
    (∃ name, new value = .ok name) ↔ value.utf8ByteSize ≤ maxBytes := by
  constructor
  · rintro ⟨name, hname⟩
    obtain ⟨htext, -, hsize⟩ := boundedNonEmpty_ok (new_eq_ok.1 hname)
    rwa [htext, trim_of_bare h] at hsize
  · intro hsize
    refine ⟨⟨value, hne⟩, new_eq_ok.2 ?_⟩
    rw [boundedNonEmpty, trim_of_bare h, if_neg hne, if_neg (Nat.not_lt.2 hsize)]

/-- The characters `ChannelSlug::new` admits. -/
def isSlugChar (c : Char) : Bool :=
  c.isLower || c.isDigit || c == '-' || c == '_'

structure ChannelSlug where
  text : String
  nonEmpty : text ≠ ""
  valid : text.toList.all isSlugChar = true
deriving DecidableEq

end Sproyt
