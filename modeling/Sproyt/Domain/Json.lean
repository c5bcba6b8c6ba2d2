import Sproyt.Domain.Types

/-!
# JSON values

`serde_json::Value`, as far as the repository stores such values, prints them and compares
them with what it is sent. The fields of an object stand in the order of their keys.
-/

namespace Sproyt

/-- A number is kept in the notation it is printed in. -/
inductive Json
  | null
  | bool (value : Bool)
  | number (literal : String)
  | string (value : String)
  | array (items : List Json)
  | object (fields : List (String × Json))

namespace Json

def uuid (u : Uuid) : Json := .string u.hyphenated

def nat (n : Nat) : Json := .number (Nat.repr n)

/-- `value[key]`: what is not there is null. -/
def get (key : String) : Json → Json
  | .object fields => ((fields.find? fun f => f.1 = key).map (·.2)).getD .null
  | _ => .null

def asStr : Json → Option String
  | .string value => some value
  | _ => none

mutual

def beq : Json → Json → Bool
  | .null, .null => true
  | .bool a, .bool b => a = b
  | .number a, .number b => a = b
  | .string a, .string b => a = b
  | .array a, .array b => beqItems a b
  | .object a, .object b => beqFields a b
  | _, _ => false

def beqItems : List Json → List Json → Bool
  | [], [] => true
  | a :: as, b :: bs => beq a b && beqItems as bs
  | _, _ => false

def beqFields : List (String × Json) → List (String × Json) → Bool
  | [], [] => true
  | (k, a) :: as, (l, b) :: bs => k = l && beq a b && beqFields as bs
  | _, _ => false

end

mutual

theorem beq_iff {a b : Json} : beq a b = true ↔ a = b := by
  cases a with
  | null | bool | number | string => cases b <;> simp [beq]
  | array items =>
    cases b with
    | array others => simpa [beq] using beqItems_iff
    | _ => simp [beq]
  | object fields =>
    cases b with
    | object others => simpa [beq] using beqFields_iff
    | _ => simp [beq]

theorem beqItems_iff {as bs : List Json} : beqItems as bs = true ↔ as = bs := by
  cases as with
  | nil => cases bs <;> simp [beqItems]
  | cons a as =>
    cases bs with
    | nil => simp [beqItems]
    | cons b bs => simp [beqItems, beq_iff, beqItems_iff]

theorem beqFields_iff {as bs : List (String × Json)} : beqFields as bs = true ↔ as = bs := by
  cases as with
  | nil => cases bs <;> simp [beqFields]
  | cons a as =>
    obtain ⟨k, a⟩ := a
    cases bs with
    | nil => simp [beqFields]
    | cons b bs =>
      obtain ⟨l, b⟩ := b
      simp [beqFields, beq_iff, beqFields_iff]

end

instance : DecidableEq Json := fun _ _ => decidable_of_iff _ beq_iff

end Json

end Sproyt
