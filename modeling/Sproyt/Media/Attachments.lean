import Sproyt.Domain.Types

/-!
# What an upload may contain

The type of an upload is read off its first bytes, and documents are validated as their
chunks come by: text is UTF-8 without control characters, PDF and ZIP files end as they should.
-/

namespace Sproyt

def ascii (s : String) : Bytes := s.toUTF8.toList

/-! ### UTF-8 -/

/-- A character some of whose bytes have been read: its bits so far, how many bytes are
missing, and the range of the next one. -/
structure Utf8Partial where
  code : Nat
  missing : Nat
  low : UInt8
  high : UInt8

inductive Utf8Byte
  | char (c : Char)
  | more (p : Utf8Partial)
  | bad

def utf8Lead (b : UInt8) : Utf8Byte :=
  if b < 0x80 then .char (Char.ofNat b.toNat)
  else if b < 0xC2 then .bad
  else if b < 0xE0 then .more ⟨b.toNat - 0xC0, 1, 0x80, 0xBF⟩
  else if b < 0xF0 then
    -- no overlong forms, no surrogates
    .more ⟨b.toNat - 0xE0, 2, if b = 0xE0 then 0xA0 else 0x80, if b = 0xED then 0x9F else 0xBF⟩
  else if b < 0xF5 then
    .more ⟨b.toNat - 0xF0, 3, if b = 0xF0 then 0x90 else 0x80, if b = 0xF4 then 0x8F else 0xBF⟩
  else .bad

def utf8Continue (p : Utf8Partial) (b : UInt8) : Utf8Byte :=
  if p.low ≤ b ∧ b ≤ p.high then
    let code := p.code * 64 + (b.toNat - 0x80)
    if p.missing = 1 then .char (Char.ofNat code) else .more ⟨code, p.missing - 1, 0x80, 0xBF⟩
  else .bad

def fromUtf8Loop : Bytes → List Char → Bytes → Option Utf8Partial → Option (List Char × Bytes)
  | [], text, pending, _ => some (text, pending)
  | b :: bs, text, pending, state =>
    match state.elim (utf8Lead b) (utf8Continue · b) with
    | .char c => fromUtf8Loop bs (text ++ [c]) [] none
    | .more p => fromUtf8Loop bs text (pending ++ [b]) (some p)
    | .bad => none

/-- `std::str::from_utf8`: the text, and the bytes of a character that is cut off at the end
(`error_len` is `None`); or nothing when the bytes are not UTF-8. -/
def fromUtf8 (bytes : Bytes) : Option (List Char × Bytes) := fromUtf8Loop bytes [] [] none

/-! ### Documents -/

def zipTail : Nat := 65557

inductive Validator.Kind
  | none
  | pdf
  | zip
  | text
deriving DecidableEq

structure Validator where
  kind : Validator.Kind
  carry : Bytes
  tail : Bytes
  length : Nat

namespace Validator

def Kind.ofContentType (contentType : String) : Kind :=
  if contentType = "application/pdf" then .pdf
  else if contentType = "application/zip" then .zip
  else if contentType = "text/plain" ∨ contentType = "text/csv" then .text
  else .none

def new (contentType : String) : Validator := ⟨.ofContentType contentType, [], [], 0⟩

def Kind.budget : Kind → Nat
  | .pdf => 1024
  | _ => zipTail

def extendTail (budget : Nat) (tail bytes : Bytes) : Bytes :=
  if budget ≤ bytes.length then bytes.drop (bytes.length - budget)
  else tail.drop (tail.length + bytes.length - budget) ++ bytes

def allowedInText (c : Char) : Bool := !isControl c || c == '\n' || c == '\r' || c == '\t'

/-- `push`, which answers `false` where there is no next state. -/
def push (v : Validator) (bytes : Bytes) : Option Validator :=
  let length := v.length + bytes.length
  match v.kind with
  | .none => some { v with length }
  | .text =>
    match fromUtf8 (v.carry ++ bytes) with
    | some (text, remaining) =>
      if text.all allowedInText then some { v with carry := remaining, length } else none
    | none => none
  | .pdf | .zip => some { v with tail := extendTail v.kind.budget v.tail bytes, length }

def littleEndian (bytes : Bytes) (start count : Nat) : Nat :=
  ((bytes.drop start).take count).foldr (fun b n => b.toNat + 256 * n) 0

def endsZip (length : Nat) (record : Bytes) : Bool :=
  let word := fun start => littleEndian record start 2
  let number := fun start => littleEndian record start 4
  let entries := word 10
  let directorySize := number 12
  let directoryAt := number 16
  (ascii "PK\x05\x06").isPrefixOf record && record.length == 22 + word 20 && word 4 == 0 &&
    word 6 == 0 && word 8 == entries && entries != 65535 &&
    directoryAt + directorySize ≤ length - record.length && (entries == 0 || 0 < directorySize)

def isAsciiWhitespace (b : UInt8) : Bool :=
  b == 0x20 || b == 0x09 || b == 0x0A || b == 0x0C || b == 0x0D

def finish (v : Validator) : Bool :=
  match v.kind with
  | .none => true
  | .text => v.carry.isEmpty
  | .pdf => (ascii "%%EOF").isSuffixOf (v.tail.rdropWhile isAsciiWhitespace)
  | .zip =>
    (List.range (v.tail.length - 21)).any fun offset => endsZip v.length (v.tail.drop offset)

end Validator

/-! ### The type of a file -/

def isAsciiDigit (b : UInt8) : Bool := 0x30 ≤ b && b ≤ 0x39

/-- `detected_media_type`. -/
def detectedMediaType (content : Bytes) (declared : String) : Option String :=
  let brand := (content.drop 8).take 4
  if [0x89, 0x50, 0x4E, 0x47, 0x0D, 0x0A, 0x1A, 0x0A].isPrefixOf content then some "image/png"
  else if [0xFF, 0xD8, 0xFF].isPrefixOf content then some "image/jpeg"
  else if (ascii "GIF87a").isPrefixOf content || (ascii "GIF89a").isPrefixOf content then
    some "image/gif"
  else if (ascii "RIFF").isPrefixOf content && brand == ascii "WEBP" then some "image/webp"
  else if (content.drop 4).take 4 == ascii "ftyp" then
    if [ascii "heic", ascii "heix", ascii "hevc", ascii "hevx", ascii "mif1",
      ascii "msf1"].contains brand then some "image/heic"
    else if [ascii "avif", ascii "avis"].contains brand then some "image/avif"
    else if brand == ascii "qt  " then some "video/quicktime"
    else some "video/mp4"
  else if [0x1A, 0x45, 0xDF, 0xA3].isPrefixOf content then
    some (if declared = "video/webm" then "video/webm" else "video/x-matroska")
  else if (ascii "%PDF-").isPrefixOf content && content[5]?.any isAsciiDigit &&
      content[6]? == some 0x2E && content[7]?.any isAsciiDigit then some "application/pdf"
  else if (ascii "PK\x03\x04").isPrefixOf content || (ascii "PK\x05\x06").isPrefixOf content then
    some "application/zip"
  else if declared = "text/plain" ∨ declared = "text/csv" then some declared
  else none

/-- The type `complete` stores: a declared document is never promoted to a picture or a video. -/
def completedType (content : Bytes) (declared : String) : Option String :=
  let detected := detectedMediaType content declared
  if declared = "text/plain" ∨ declared = "text/csv" then some declared
  else if declared = "application/pdf" then detected.filter (· == "application/pdf")
  else if declared = "application/zip" ∨ declared = "application/x-zip-compressed" then
    detected.filter (· == "application/zip")
  else detected

end Sproyt
