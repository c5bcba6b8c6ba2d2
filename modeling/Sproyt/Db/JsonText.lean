import Mathlib.Data.Nat.Log
import Sproyt.Db.Expiry

/-!
# Texts of JSON

Numbers and strings as `serde_json` and `JSON.stringify` write them.
-/

namespace Sproyt

def numberText (n : Nat) : List Char := decimal (Nat.log 10 n + 1) n

def shortEscapes : List (Char × Char) :=
  [('"', '"'), ('\\', '\\'), ('\x08', 'b'), ('\x0c', 'f'), ('\n', 'n'), ('\r', 'r'), ('\t', 't')]

def jsonEscape (c : Char) : List Char :=
  match shortEscapes.lookup c with
  | some e => ['\\', e]
  | none =>
    if c.toNat < 0x20 then
      ['\\', 'u', '0', '0', Uuid.hexDigits.getD (c.toNat / 16) '0',
        Uuid.hexDigits.getD (c.toNat % 16) '0']
    else [c]

def escapedText (s : String) : List Char := s.toList.flatMap jsonEscape

def stringText (s : String) : List Char := escapedText s ++ ['"']

end Sproyt
