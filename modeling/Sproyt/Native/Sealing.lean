import Sproyt.Native.Sessions

/-!
# Sealing session values

A value is sealed as its JSON text, encrypted under the primary key with the instance and the
purpose as associated data. It opens with any reader that has the key, under its purpose only.
Sealing has no size limit, and opening refuses more than 65536 bytes: with the nonce and the tag,
a JSON text of more than 65508 bytes does not open again.
-/

namespace Sproyt

namespace Native

open List

/-- The crates: Base64 without padding, and AES-256-GCM as an ideal cipher. A text decrypts under
the key and the associated data it was encrypted with, and under no others. It is longer than the
message by the tag of 16 bytes. -/
structure Aead where
  encode : Bytes → String
  decode : String → Option Bytes
  decode_encode : ∀ bytes, decode (encode bytes) = some bytes
  encrypt : (key nonce aad msg : Bytes) → Option Bytes
  decrypt : (key nonce aad text : Bytes) → Option Bytes
  decrypt_encrypt : ∀ {key nonce aad msg text : Bytes},
    encrypt key nonce aad msg = some text → decrypt key nonce aad text = some msg
  decrypt_other : ∀ {key key' nonce aad aad' msg text : Bytes},
    encrypt key nonce aad msg = some text → (key', aad') ≠ (key, aad) →
    decrypt key' nonce aad' text = none
  tagged : ∀ {key nonce aad msg text : Bytes},
    encrypt key nonce aad msg = some text → text.length = msg.length + 16

/-- `serde_json` at one type. -/
structure Serde (α : Type) where
  toVec : α → Option Bytes
  fromSlice : Bytes → Option α
  fromSlice_toVec : ∀ {value : α} {raw : Bytes}, toVec value = some raw → fromSlice raw = some value

/-- The keys and the instance of a `Codec`. -/
structure Keyring where
  primary : Bytes
  readers : List Bytes
  instanceId : String

variable {α : Type} {lib : Aead} {serde : Serde α} {sealer reader : Keyring}
  {purpose text : String} {nonce : Bytes} {value : α}

def Aead.key (lib : Aead) (key : String) : Option Bytes :=
  (lib.decode key).filter fun bytes => bytes.length = 32

/-- `Codec::new`: the key that seals, and those that values may have been sealed with before. -/
def Keyring.new (lib : Aead) (key : String) (previous : List String) (instanceId : String) :
    Option Keyring := do
  let primary ← lib.key key
  let readers ← (key :: previous).mapM lib.key
  pure ⟨primary, readers, instanceId⟩

def Keyring.aad (k : Keyring) (purpose : String) : Bytes :=
  ("sproyt-native-v1|" ++ k.instanceId ++ "|" ++ purpose).toUTF8.data.toList

def Keyring.seal (lib : Aead) (serde : Serde α) (k : Keyring) (purpose : String) (nonce : Bytes)
    (value : α) : Except NativeError String :=
  match serde.toVec value with
  | none => .error .unavailable
  | some raw =>
    match lib.encrypt k.primary nonce (k.aad purpose) raw with
    | none => .error .unavailable
    | some encrypted => .ok (lib.encode (nonce ++ encrypted))

def Keyring.open (lib : Aead) (serde : Serde α) (k : Keyring) (purpose value : String) :
    Except NativeError α :=
  match lib.decode value with
  | none => .error .unauthorized
  | some bytes =>
    if bytes.length ≤ 12 ∨ 65536 < bytes.length then .error .unauthorized
    else
      let raw := k.readers.findSome? fun key =>
        lib.decrypt key (bytes.take 12) (k.aad purpose) (bytes.drop 12)
      match raw.bind serde.fromSlice with
      | none => .error .unauthorized
      | some value => .ok value

theorem Keyring.new_mem {key instanceId : String} {previous : List String} {k : Keyring}
    (h : Keyring.new lib key previous instanceId = some k) : k.primary ∈ k.readers := by
  simp only [Keyring.new, mapM_cons, Option.bind_eq_bind, Option.bind_eq_some_iff, Option.pure_def,
    Option.some.injEq] at h
  obtain ⟨primary, hprimary, readers, ⟨first, hfirst, rest, -, rfl⟩, rfl⟩ := h
  rw [hprimary] at hfirst
  cases hfirst
  exact mem_cons_self

theorem aad_injective {k : Keyring} {p q : String} (h : k.aad p = k.aad q) : p = q := by
  have htext := String.toByteArray_inj.1 (ByteArray.ext (Array.toList_inj.1 h))
  simpa using htext

theorem seal_ok (h : sealer.seal lib serde purpose nonce value = .ok text) :
    ∃ raw encrypted, serde.toVec value = some raw ∧
      lib.encrypt sealer.primary nonce (sealer.aad purpose) raw = some encrypted ∧
      lib.decode text = some (nonce ++ encrypted) := by
  unfold Keyring.seal at h
  split at h
  · cases h
  · next raw hraw =>
    split at h
    · cases h
    · next encrypted hencrypted =>
      cases h
      exact ⟨raw, encrypted, hraw, hencrypted, lib.decode_encode _⟩

theorem findSome?_of_key {f : Bytes → Option Bytes} {key raw : Bytes} {readers : List Bytes}
    (hkey : f key = some raw) (hother : ∀ k, k ≠ key → f k = none) (hmem : key ∈ readers) :
    readers.findSome? f = some raw := by
  induction readers with
  | nil => cases hmem
  | cons k readers ih =>
    by_cases hk : k = key
    · rw [findSome?_cons, hk, hkey]
    · rw [findSome?_cons, hother k hk]
      exact ih ((mem_cons.1 hmem).resolve_left fun h => hk h.symm)

theorem open_of_decode {encrypted : Bytes} (hnonce : nonce.length = 12)
    (hdecode : lib.decode text = some (nonce ++ encrypted)) (hpos : 0 < encrypted.length)
    {raw : Option Bytes} (hraw : (reader.readers.findSome? fun key =>
      lib.decrypt key nonce (reader.aad purpose) encrypted) = raw) :
    reader.open lib serde purpose text =
      if 65524 < encrypted.length then .error .unauthorized
      else match raw.bind serde.fromSlice with
        | none => .error .unauthorized
        | some value => .ok value := by
  have hrefused : (nonce ++ encrypted).length ≤ 12 ∨ 65536 < (nonce ++ encrypted).length ↔
      65524 < encrypted.length := by
    rw [length_append]
    omega
  simp only [Keyring.open, hdecode, take_left' hnonce, drop_left' hnonce, hraw, hrefused]

/-- A sealed value opens with any reader that has the key, unless its JSON text is too long. -/
theorem open_of_seal (hkey : sealer.primary ∈ reader.readers)
    (hinstance : reader.instanceId = sealer.instanceId) (hnonce : nonce.length = 12)
    (h : sealer.seal lib serde purpose nonce value = .ok text) :
    ∃ raw, serde.toVec value = some raw ∧ reader.open lib serde purpose text =
      if 65508 < raw.length then .error .unauthorized else .ok value := by
  obtain ⟨raw, encrypted, hraw, hencrypted, hdecode⟩ := seal_ok h
  have haad : reader.aad purpose = sealer.aad purpose := by rw [Keyring.aad, hinstance]; rfl
  have hread : (reader.readers.findSome? fun key => lib.decrypt key nonce (reader.aad purpose)
      encrypted) = some raw := by
    rw [haad]
    refine findSome?_of_key (lib.decrypt_encrypt hencrypted) (fun k hk => ?_) hkey
    exact lib.decrypt_other hencrypted fun heq => hk (Prod.mk.inj heq).1
  have htag := lib.tagged hencrypted
  have hsize : 65524 < encrypted.length ↔ 65508 < raw.length := by omega
  refine ⟨raw, hraw, ?_⟩
  rw [open_of_decode hnonce hdecode (by omega) hread]
  simp only [Option.bind_some, serde.fromSlice_toVec hraw, hsize]

def Keyring.sealing (lib : Aead) (serde : Serde α) (k : Keyring) (hk : k.primary ∈ k.readers) :
    Sealing α where
  sealValue purpose nonce value :=
    if nonce.length = 12 then k.seal lib serde purpose nonce value else .error .unavailable
  openValue := k.open lib serde
  open_seal hseal hopen := by
    split at hseal
    · next hnonce =>
      obtain ⟨_, -, hvalue⟩ := open_of_seal hk rfl hnonce hseal
      rw [hvalue] at hopen
      split at hopen
      · cases hopen
      · cases hopen
        rfl
    · cases hseal

/-- A value sealed for one purpose opens for it, with any reader that has the key, exactly when its
JSON text has at most 65508 bytes, and it opens for no other purpose. -/
theorem open_seal_iff_size (hkey : sealer.primary ∈ reader.readers)
    (hinstance : reader.instanceId = sealer.instanceId) (hnonce : nonce.length = 12)
    (h : sealer.seal lib serde purpose nonce value = .ok text) :
    (∃ raw, serde.toVec value = some raw ∧
      (reader.open lib serde purpose text = .ok value ↔ raw.length ≤ 65508)) ∧
      ∀ q, q ≠ purpose → reader.open lib serde q text = .error .unauthorized := by
  constructor
  · obtain ⟨raw, hraw, hopen⟩ := open_of_seal hkey hinstance hnonce h
    refine ⟨raw, hraw, ?_⟩
    rw [hopen]
    by_cases hlong : 65508 < raw.length
    · simp [hlong]
    · simp [hlong, not_lt.1 hlong]
  · intro q hq
    obtain ⟨raw, encrypted, -, hencrypted, hdecode⟩ := seal_ok h
    have haad : reader.aad q = sealer.aad q := by rw [Keyring.aad, hinstance]; rfl
    have hnone : (reader.readers.findSome? fun key => lib.decrypt key nonce (reader.aad q)
        encrypted) = none := by
      refine findSome?_eq_none_iff.2 fun k _ => lib.decrypt_other hencrypted fun heq => hq ?_
      exact aad_injective (haad.symm.trans (Prod.mk.inj heq).2)
    have htag := lib.tagged hencrypted
    rw [open_of_decode hnonce hdecode (by omega) hnone]
    split <;> rfl

/-! ### One key, one purpose -/

namespace OneKey

def rawText : Serde Bytes := ⟨some, some, fun h => h.symm⟩

/-- Everything is sealed with the key `[1]` and the associated data `aad`. -/
def oneKey (aad : Bytes) : Aead where
  encode bytes := String.ofList (bytes.map fun b => Char.ofNat b.toNat)
  decode text := some (text.toList.map fun c => UInt8.ofNat c.toNat)
  decode_encode bytes := by
    have hbyte : ∀ n : Fin 256,
      UInt8.ofNat (Char.ofNat n).toNat = UInt8.ofNat n := by decide +kernel
    have hbyte' : ∀ b : UInt8, UInt8.ofNat (Char.ofNat b.toNat).toNat = b := fun b =>
      (hbyte ⟨b.toNat, b.toNat_lt⟩).trans UInt8.ofNat_toNat
    simp [Function.comp_def, hbyte']
  encrypt key _ data msg := if (key, data) = ([1], aad) then some (replicate 16 0 ++ msg) else none
  decrypt key _ data text := if (key, data) = ([1], aad) then some (text.drop 16) else none
  decrypt_encrypt h := by
    split at h
    · next hkey => cases h; rw [if_pos hkey, drop_left' length_replicate]
    · cases h
  decrypt_other h hother := by
    split at h
    · next hkey => exact if_neg fun heq => hother (heq.trans hkey.symm)
    · cases h
  tagged h := by
    split at h
    · cases h
      rw [length_append, length_replicate, Nat.add_comm]
    · cases h

def oneReader : Keyring := ⟨[1], [[2], [1]], "canary"⟩

def twelve : Bytes := replicate 12 0

theorem seal_oneReader (value : Bytes) :
    ∃ text, oneReader.seal (oneKey (oneReader.aad "p")) rawText "p" twelve value = .ok text := by
  simp [Keyring.seal, oneKey, rawText, oneReader]

end OneKey

open OneKey in
/-- A value of the largest size opens. -/
theorem open_seal_of_long_value :
    ∃ text, oneReader.seal (oneKey (oneReader.aad "p")) rawText "p" twelve (replicate 65508 7) =
        .ok text ∧
      oneReader.open (oneKey (oneReader.aad "p")) rawText "p" text = .ok (replicate 65508 7) := by
  obtain ⟨text, hseal⟩ := seal_oneReader (replicate 65508 7)
  obtain ⟨⟨raw, hraw, hopen⟩, -⟩ := open_seal_iff_size (by decide) rfl rfl hseal
  obtain rfl : replicate 65508 7 = raw := Option.some.inj hraw
  exact ⟨text, hseal, hopen.2 length_replicate.le⟩

open OneKey in
/-- A value of one byte more is sealed and does not open again. -/
theorem sealed_value_does_not_open :
    ∃ text, oneReader.seal (oneKey (oneReader.aad "p")) rawText "p" twelve (replicate 65509 7) =
        .ok text ∧
      oneReader.open (oneKey (oneReader.aad "p")) rawText "p" text = .error .unauthorized := by
  obtain ⟨text, hseal⟩ := seal_oneReader (replicate 65509 7)
  obtain ⟨raw, hraw, hopen⟩ := open_of_seal (by decide) rfl rfl hseal
  obtain rfl : replicate 65509 7 = raw := Option.some.inj hraw
  refine ⟨text, hseal, hopen.trans (if_pos ?_)⟩
  rw [length_replicate]
  omega

end Native

end Sproyt
