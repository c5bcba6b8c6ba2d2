import Mathlib
import Sproyt.Domain.Types

/-!
# Handles

The public address of an account: lower-case letters and digits with `_`, `-` and `.`, of at
most 80 bytes. `Handle::new` counts the bytes before it lowers the text, and the lower-case form
of a letter can be longer than the letter.
-/

namespace Sproyt

open List

structure Handle where
  text : String
deriving DecidableEq

namespace Handle

def maxBytes : Nat := 80

def isHandleChar (host : Host) (c : Char) : Bool :=
  host.isAlphanumeric c || c == '_' || c == '-' || c == '.'

/-- The loop of `with_suffix` and `from_external`: characters are taken until one of them would
go over the limit. -/
def takeBytes (limit : Nat) : Nat → List Char → List Char
  | _, [] => []
  | used, c :: cs =>
    if limit < used + c.utf8Size then [] else c :: takeBytes limit (used + c.utf8Size) cs

def withSuffix (handle : Handle) (ordinal : UInt32) : Handle :=
  if ordinal ≤ 1 then handle
  else
    let suffix := "-" ++ ordinal.toNat.repr
    let limit := maxBytes - suffix.utf8ByteSize
    ⟨String.ofList (takeBytes limit 0 handle.text.toList) ++ suffix⟩

def new (host : Host) (value : String) : Except TextValidationError Handle :=
  match boundedNonEmpty value "handle" maxBytes with
  | .error e => .error e
  | .ok value =>
    let normalized := host.lowercaseText value
    if normalized.toList.all (isHandleChar host) then .ok ⟨normalized⟩ else .error .invalidHandle

/-- `Handle::from_external`, which drops what a handle cannot have. -/
def fromExternal (host : Host) (value : String) : Handle :=
  let characters := (host.lowercaseText (trim value)).toList.filter (isHandleChar host)
  let normalized := takeBytes maxBytes 0 characters
  ⟨if normalized = [] then "user" else String.ofList normalized⟩

end Handle

/-! ### The Unicode tables -/

/-- What the tables of the standard library are relied on for. Lower-case forms are left alone
when they are lowered again. A letter is a character of a handle when its lower-case form is. -/
structure Unicode (host : Host) : Prop where
  forms : ∀ c, host.toLowercase c ≠ []
  lowered : ∀ c, ∀ d ∈ host.toLowercase c, d ≠ 'Σ' ∧ host.toLowercase d = [d]
  sigma : host.toLowercase 'Σ' = ['σ']
  finalSigma : host.toLowercase 'ς' = ['ς']
  upper : ∀ c, (∀ d ∈ host.toLowercase c, Handle.isHandleChar host d = true) →
    Handle.isHandleChar host c = true
  capitalSigma : host.isAlphanumeric 'Σ' = true
  spaces : ∀ c, host.isAlphanumeric c = true → isWhitespace c = false
  ascii : ∀ c, c.toNat < 128 →
    host.isAlphanumeric c = c.isAlphanum ∧ host.toLowercase c = [c.toLower]

def Unchanged (host : Host) (c : Char) : Prop := c ≠ 'Σ' ∧ host.toLowercase c = [c]

def lowercaseBytes (host : Host) (cs : List Char) : Nat :=
  String.utf8Len (cs.flatMap host.toLowercase)

section

variable {host : Host} {cs before : List Char} {c : Char}

theorem unchanged_sigma (h : Unicode host) : Unchanged host 'σ' :=
  h.lowered 'Σ' 'σ' (by rw [h.sigma]; exact mem_singleton_self _)

theorem unchanged_finalSigma (h : Unicode host) : Unchanged host 'ς' := ⟨by decide, h.finalSigma⟩

theorem unchanged_ascii (h : Unicode host) (hc : c.toNat < 128) (hlower : c.toLower = c) :
    Unchanged host c := by
  refine ⟨?_, by rw [(h.ascii c hc).2, hlower]⟩
  rintro rfl
  revert hc
  decide

theorem lowercaseAfter_unchanged (h : Unicode host) (before cs : List Char) :
    ∀ d ∈ host.lowercaseAfter before cs, Unchanged host d := by
  induction cs generalizing before with
  | nil => exact fun d hd => absurd hd not_mem_nil
  | cons c cs ih =>
    intro d hd
    rw [Host.lowercaseAfter] at hd
    rcases mem_append.1 hd with hd | hd
    · split at hd
      · rw [mem_singleton.1 hd]
        split
        · exact unchanged_finalSigma h
        · exact unchanged_sigma h
      · exact h.lowered c d hd
    · exact ih _ d hd

theorem lowercaseAfter_of_unchanged (hcs : ∀ c ∈ cs, Unchanged host c) :
    host.lowercaseAfter before cs = cs := by
  induction cs generalizing before with
  | nil => rfl
  | cons c cs ih =>
    obtain ⟨hne, hlower⟩ := hcs c mem_cons_self
    rw [Host.lowercaseAfter, if_neg hne, hlower, ih fun x hx => hcs x (mem_cons_of_mem _ hx)]
    rfl

/-- Both small sigmas have two bytes, so lowering has the size of the lower-case forms. -/
theorem utf8Len_lowercaseAfter (h : Unicode host) :
    String.utf8Len (host.lowercaseAfter before cs) = lowercaseBytes host cs := by
  induction cs generalizing before with
  | nil => rfl
  | cons c cs ih =>
    rw [Host.lowercaseAfter, String.utf8Len_append, ih, lowercaseBytes, lowercaseBytes,
      flatMap_cons, String.utf8Len_append]
    congr 1
    split
    · next hsigma =>
      rw [hsigma, h.sigma]
      split <;> rfl
    · rfl

namespace Handle

variable {handle : Handle} {ordinal : UInt32}

theorem takeBytes_isPrefix (limit used : Nat) : takeBytes limit used cs <+: cs := by
  induction cs generalizing used with
  | nil => exact prefix_rfl
  | cons c cs ih =>
    rw [takeBytes]
    split
    · exact nil_prefix
    · exact (prefix_cons_inj c).2 (ih _)

theorem utf8Len_takeBytes {limit used : Nat} (hused : used ≤ limit) (cs : List Char) :
    used + String.utf8Len (takeBytes limit used cs) ≤ limit := by
  induction cs generalizing used with
  | nil => exact hused
  | cons c cs ih =>
    rw [takeBytes]
    split
    · exact hused
    · next hfits =>
      have hrest := ih (Nat.not_lt.1 hfits)
      rw [String.utf8Len_cons]
      omega

/-! ### Well-formed handles -/

/-- The rules of the type: a handle is a text that `Handle::new` takes as it is. -/
structure WellFormed (host : Host) (handle : Handle) : Prop where
  nonEmpty : handle.text ≠ ""
  bounded : handle.text.utf8ByteSize ≤ maxBytes
  characters : ∀ c ∈ handle.text.toList, isHandleChar host c = true
  valid : new host handle.text = .ok handle

/-- A text of lowered handle characters. -/
structure Lowered (host : Host) (handle : Handle) : Prop where
  nonEmpty : handle.text ≠ ""
  unchanged : ∀ c ∈ handle.text.toList, Unchanged host c
  characters : ∀ c ∈ handle.text.toList, isHandleChar host c = true

theorem isHandleChar_spaces (h : Unicode host) (hc : isHandleChar host c = true) :
    isWhitespace c = false := by
  simp only [isHandleChar, Bool.or_eq_true, beq_iff_eq] at hc
  rcases hc with ((hc | rfl) | rfl) | rfl
  · exact h.spaces c hc
  · decide
  · decide
  · decide

theorem Lowered.bare (h : Unicode host) (hl : Lowered host handle) : Bare handle.text :=
  ⟨fun c hc => isHandleChar_spaces h (hl.characters c (mem_of_head? hc)),
    fun c hc => isHandleChar_spaces h (hl.characters c (mem_of_getLast? hc))⟩

theorem Lowered.wellFormed_iff (h : Unicode host) (hl : Lowered host handle) :
    handle.WellFormed host ↔ handle.text.utf8ByteSize ≤ maxBytes := by
  refine ⟨fun hw => hw.bounded, fun hsize => ⟨hl.nonEmpty, hsize, hl.characters, ?_⟩⟩
  have hvalue : boundedNonEmpty handle.text "handle" maxBytes = .ok handle.text := by
    rw [boundedNonEmpty, trim_of_bare (hl.bare h), if_neg hl.nonEmpty, if_neg (Nat.not_lt.2 hsize)]
  have hlower : host.lowercaseText handle.text = handle.text := by
    rw [Host.lowercaseText, lowercaseAfter_of_unchanged hl.unchanged, String.ofList_toList]
  have hall : handle.text.toList.all (isHandleChar host) = true :=
    all_eq_true.2 hl.characters
  simp only [new, hvalue, hlower, hall, if_true]

theorem new_ok {value : String} (h : new host value = .ok handle) :
    trim value ≠ "" ∧ (trim value).utf8ByteSize ≤ maxBytes ∧
      handle.text = host.lowercaseText (trim value) ∧
      ∀ c ∈ handle.text.toList, isHandleChar host c = true := by
  rw [new] at h
  cases hvalue : boundedNonEmpty value "handle" maxBytes with
  | error e =>
    simp only [hvalue] at h
    cases h
  | ok text =>
    obtain ⟨rfl, hne, hsize⟩ := boundedNonEmpty_ok hvalue
    simp only [hvalue] at h
    split at h
    · next hall =>
      rw [← Except.ok.inj h]
      exact ⟨hne, hsize, rfl, all_eq_true.1 hall⟩
    · cases h

theorem lowercaseAfter_ne_nil (h : Unicode host) (hne : cs ≠ []) (before : List Char) :
    host.lowercaseAfter before cs ≠ [] := by
  cases cs with
  | nil => exact absurd rfl hne
  | cons c cs =>
    rw [Host.lowercaseAfter]
    split
    · exact nofun
    · exact fun hnil => h.forms c (append_eq_nil_iff.1 hnil).1

theorem toList_ne_nil {s : String} (hs : s ≠ "") : s.toList ≠ [] := fun hnil =>
  hs (String.toList_inj.1 (hnil.trans rfl))

theorem ofList_ne_empty (hne : cs ≠ []) : String.ofList cs ≠ "" := fun heq =>
  hne (by rw [← String.toList_ofList (l := cs), heq]; rfl)

theorem new_lowered (h : Unicode host) {value : String}
    (hnew : new host value = .ok handle) : Lowered host handle := by
  obtain ⟨hne, -, htext, hcharacters⟩ := new_ok hnew
  refine ⟨?_, ?_, hcharacters⟩
  · rw [htext]
    exact ofList_ne_empty (lowercaseAfter_ne_nil h (toList_ne_nil hne) [])
  · rw [htext, Host.lowercaseText, String.toList_ofList]
    exact lowercaseAfter_unchanged h [] _

theorem user_lowered (h : Unicode host) : Lowered host ⟨"user"⟩ := by
  have hascii : ∀ c ∈ "user".toList, c.toNat < 128 ∧ c.toLower = c ∧ c.isAlphanum = true := by
    decide
  refine ⟨by decide, fun c hc => ?_, fun c hc => ?_⟩
  · obtain ⟨hsmall, hlower, -⟩ := hascii c hc
    exact unchanged_ascii h hsmall hlower
  · obtain ⟨hsmall, -, halphanum⟩ := hascii c hc
    rw [isHandleChar, (h.ascii c hsmall).1, halphanum]
    rfl

variable {value : String}

theorem fromExternal_lowered (h : Unicode host) : Lowered host (fromExternal host value) := by
  rw [fromExternal]
  split
  · exact user_lowered h
  · next hne =>
    have hmem : ∀ c ∈ takeBytes maxBytes 0
        ((host.lowercaseText (trim value)).toList.filter (isHandleChar host)),
        c ∈ host.lowercaseAfter [] (trim value).toList ∧ isHandleChar host c = true := by
      intro c hc
      have hc := mem_filter.1 ((takeBytes_isPrefix _ _).subset hc)
      rw [Host.lowercaseText, String.toList_ofList] at hc
      exact hc
    refine ⟨ofList_ne_empty hne, fun c hc => ?_, fun c hc => ?_⟩
    · rw [String.toList_ofList] at hc
      exact lowercaseAfter_unchanged h _ _ c (hmem c hc).1
    · rw [String.toList_ofList] at hc
      exact (hmem c hc).2

theorem fromExternal_bounded : (fromExternal host value).text.utf8ByteSize ≤ maxBytes := by
  rw [fromExternal]
  split
  · decide
  · rw [String.utf8ByteSize_ofList]
    have htaken := utf8Len_takeBytes (Nat.zero_le maxBytes)
      ((host.lowercaseText (trim value)).toList.filter (isHandleChar host))
    omega

/-! ### Suffixes -/

def suffixOf (ordinal : UInt32) : String := "-" ++ ordinal.toNat.repr

theorem mem_suffixOf (hc : c ∈ (suffixOf ordinal).toList) : c = '-' ∨ c.isDigit = true := by
  rw [suffixOf, String.toList_append] at hc
  rcases mem_append.1 hc with hc | hc
  · exact .inl (mem_singleton.1 hc)
  · rw [Nat.repr, String.toList_ofList] at hc
    exact .inr (Nat.isDigit_of_mem_toDigits (by decide) (by decide) hc)

theorem utf8Len_of_ascii (hcs : ∀ c ∈ cs, c.toNat < 128) : String.utf8Len cs = cs.length := by
  induction cs with
  | nil => rfl
  | cons c cs ih =>
    have hsize : c.utf8Size = 1 := Char.utf8Size_eq_one_iff.2 (by
      have := hcs c mem_cons_self
      exact UInt32.le_iff_toNat_le.2 (Nat.le_of_lt_succ this))
    rw [String.utf8Len_cons, ih fun x hx => hcs x (mem_cons_of_mem _ hx), hsize, length_cons]

theorem isDigit_ascii (hc : c.isDigit = true) :
    c.toNat < 128 ∧ c.toLower = c ∧ c.isAlphanum = true := by
  have hrange : 48 ≤ c.toNat ∧ c.toNat ≤ 57 := by
    simp only [Char.isDigit, Bool.and_eq_true, decide_eq_true_eq] at hc
    exact ⟨UInt32.le_iff_toNat_le.1 hc.1, UInt32.le_iff_toNat_le.1 hc.2⟩
  refine ⟨by omega, ?_, by rw [Char.isAlphanum, hc, Bool.or_true]⟩
  rw [Char.toLower, dif_neg]
  rintro ⟨hle, -⟩
  have hlarge : 65 ≤ c.toNat := UInt32.le_iff_toNat_le.1 hle
  omega

theorem suffixOf_bytes (ordinal : UInt32) : (suffixOf ordinal).utf8ByteSize ≤ 11 := by
  have hdigits : ordinal.toNat.repr.length ≤ 10 := by
    refine Nat.repr_length ordinal.toNat 10 (by decide) ?_
    have hlt := ordinal.toNat_lt
    omega
  have hascii : ∀ c ∈ (suffixOf ordinal).toList, c.toNat < 128 := by
    intro c hc
    rcases mem_suffixOf hc with rfl | hc
    · decide
    · exact (isDigit_ascii hc).1
  have hone : "-".toList.length = 1 := rfl
  rw [← String.ofList_toList (s := suffixOf ordinal), String.utf8ByteSize_ofList,
    utf8Len_of_ascii hascii, suffixOf, String.toList_append, length_append, hone,
    String.length_toList]
  omega

theorem withSuffix_of_le (h : ordinal ≤ 1) : handle.withSuffix ordinal = handle :=
  if_pos h

theorem withSuffix_of_lt (h : ¬ ordinal ≤ 1) : handle.withSuffix ordinal =
      ⟨String.ofList (takeBytes (maxBytes - (suffixOf ordinal).utf8ByteSize) 0
        handle.text.toList) ++ suffixOf ordinal⟩ :=
  if_neg h

theorem withSuffix_wellFormed (h : Unicode host) (hl : Lowered host handle)
    (hordinal : ¬ ordinal ≤ 1) : (handle.withSuffix ordinal).WellFormed host := by
  have hsuffix : ∀ c ∈ (suffixOf ordinal).toList, Unchanged host c ∧
    isHandleChar host c = true := by
    intro c hc
    rcases mem_suffixOf hc with rfl | hc
    · refine ⟨unchanged_ascii h (by decide) (by decide), ?_⟩
      rw [isHandleChar]
      simp
    · obtain ⟨hsmall, hlower, halphanum⟩ := isDigit_ascii hc
      refine ⟨unchanged_ascii h hsmall hlower, ?_⟩
      rw [isHandleChar, (h.ascii c hsmall).1, halphanum]
      rfl
  have hbase : ∀ c ∈ takeBytes (maxBytes - (suffixOf ordinal).utf8ByteSize) 0 handle.text.toList,
      c ∈ handle.text.toList := fun c hc => (takeBytes_isPrefix _ _).subset hc
  rw [withSuffix_of_lt hordinal]
  refine (Lowered.wellFormed_iff h ⟨?_, fun c hc => ?_, fun c hc => ?_⟩).2 ?_
  · intro hempty
    have htext := congrArg String.toList hempty
    rw [String.toList_append, suffixOf, String.toList_append] at htext
    have hnil := (append_eq_nil_iff.1 (append_eq_nil_iff.1 htext).2).1
    cases hnil
  · rw [String.toList_append, String.toList_ofList] at hc
    rcases mem_append.1 hc with hc | hc
    · exact hl.unchanged c (hbase c hc)
    · exact (hsuffix c hc).1
  · rw [String.toList_append, String.toList_ofList] at hc
    rcases mem_append.1 hc with hc | hc
    · exact hl.characters c (hbase c hc)
    · exact (hsuffix c hc).2
  · have htaken := utf8Len_takeBytes
      (Nat.zero_le (maxBytes - (suffixOf ordinal).utf8ByteSize)) handle.text.toList
    have hshort := suffixOf_bytes ordinal
    have hmax : maxBytes = 80 := rfl
    rw [String.utf8ByteSize_append, String.utf8ByteSize_ofList]
    omega

/-! ### What the producers of handles guarantee -/

inductive Produced (host : Host) : Handle → Prop
  | new {value : String} {handle : Handle} (h : new host value = .ok handle) : Produced host handle
  | fromExternal (value : String) : Produced host (fromExternal host value)
  | withSuffix {handle : Handle} (h : Produced host handle) (ordinal : UInt32) :
      Produced host (handle.withSuffix ordinal)

theorem WellFormed.lowered (h : Unicode host) (hw : handle.WellFormed host) : Lowered host handle :=
  new_lowered h hw.valid

theorem Produced.lowered (h : Unicode host) (hp : Produced host handle) : Lowered host handle := by
  induction hp with
  | new hnew => exact new_lowered h hnew
  | fromExternal value => exact fromExternal_lowered h
  | @withSuffix handle _ ordinal ih =>
    by_cases hordinal : ordinal ≤ 1
    · rw [withSuffix_of_le hordinal]
      exact ih
    · exact (withSuffix_wellFormed h ih hordinal).lowered h

end Handle

open Handle in
/-- A handle keeps its own rules when it comes from outside or has a suffix added. A text that
is validated becomes such a handle only if its characters have small enough lower-case forms. -/
theorem handles_are_well_formed (h : Unicode host) :
    (∀ value handle, Handle.new host value = .ok handle →
      (handle.WellFormed host ↔ lowercaseBytes host (trim value).toList ≤ maxBytes)) ∧
    (∀ value, (fromExternal host value).WellFormed host) ∧
    ∀ handle, Produced host handle → ∀ ordinal,
      ((handle.withSuffix ordinal).WellFormed host ↔ (ordinal ≤ 1 → handle.WellFormed host)) := by
  refine ⟨fun value handle hnew => ?_, fun value => ?_, fun handle hp ordinal => ?_⟩
  · have htext := (new_ok hnew).2.2.1
    rw [(new_lowered h hnew).wellFormed_iff h, htext, Host.lowercaseText,
      String.utf8ByteSize_ofList, utf8Len_lowercaseAfter h]
  · exact ((fromExternal_lowered h).wellFormed_iff h).2 (fromExternal_bounded)
  · by_cases hordinal : ordinal ≤ 1
    · rw [withSuffix_of_le hordinal]
      exact ⟨fun hw _ => hw, fun hw => hw hordinal⟩
    · exact iff_of_true (withSuffix_wellFormed h (hp.lowered h) hordinal)
        fun hle => absurd hle hordinal

end

/-! ### A part of the tables -/

namespace Sample

/-- The tables for ASCII, four Greek letters and the letter A with a stroke, whose small form
has one byte more. -/
def letters : List (Char × Char) := [('Α', 'α'), ('Σ', 'σ'), ('ς', 'ς'), ('Ⱥ', 'ⱥ')]

def isLetter (c : Char) : Bool := letters.any fun pair => c == pair.1 || c == pair.2

def unicodeHost : Host :=
  { host with
    isAlphanumeric := fun c => if c.toNat < 128 then c.isAlphanum else isLetter c
    toLowercase := fun c =>
      if c.toNat < 128 then [c.toLower]
      else ((letters.find? fun pair => c == pair.1).map fun pair => [pair.2]).getD [c]
    cased := fun c => c.isAlpha || isLetter c }

theorem unicodeHost_forall {P : Char → Prop} (hascii : ∀ n < 128, P (Char.ofNat n))
    (hletters : ∀ pair ∈ letters, P pair.1 ∧ P pair.2)
    (hother : ∀ c, c ≠ 'Σ' → unicodeHost.toLowercase c = [c] →
      unicodeHost.isAlphanumeric c = false → P c) (c : Char) : P c := by
  by_cases hc : c.toNat < 128
  · rw [← Char.ofNat_toNat c]
    exact hascii _ hc
  · by_cases hletter : isLetter c = true
    · obtain ⟨pair, hpair, heq⟩ := any_eq_true.1 hletter
      rcases Bool.or_eq_true _ _ ▸ heq with heq | heq
      · exact eq_of_beq heq ▸ (hletters pair hpair).1
      · exact eq_of_beq heq ▸ (hletters pair hpair).2
    · have hfind : letters.find? (fun pair => c == pair.1) = none :=
        find?_eq_none.2 fun pair hpair heq =>
          hletter (any_eq_true.2 ⟨pair, hpair, Bool.or_eq_true_iff.2 (.inl heq)⟩)
      refine hother c ?_ ((if_neg hc).trans ?_) ((if_neg hc).trans (Bool.eq_false_iff.2 hletter))
      · rintro rfl
        exact hletter (by decide)
      · rw [hfind]
        rfl

theorem unicodeHost_unicode : Unicode unicodeHost where
  forms := unicodeHost_forall (by decide +kernel) (by decide +kernel)
    fun c _ hlower _ => by simp [hlower]
  lowered := unicodeHost_forall (by decide +kernel) (by decide +kernel)
    fun c hne hlower _ => by simp [hlower, hne]
  sigma := by decide +kernel
  finalSigma := by decide +kernel
  upper := unicodeHost_forall (by decide +kernel) (by decide +kernel)
    fun c _ hlower _ hforms => hforms c (by simp [hlower])
  capitalSigma := by decide +kernel
  spaces := unicodeHost_forall (by decide +kernel) (by decide +kernel)
    fun c _ _ hother halphanum => by simp [hother] at halphanum
  ascii _ hc := ⟨if_pos hc, if_pos hc⟩

def strokes : String := String.ofList (List.replicate 40 'Ⱥ')

def strokeHandle : Handle := ⟨String.ofList (List.replicate 40 'ⱥ')⟩

theorem strokes_new : Handle.new unicodeHost strokes = .ok strokeHandle := by
  decide +kernel

end Sample

/-- Handles that are made from a text of letters, from a login and by a suffix. -/
theorem sample_handles_are_well_formed :
    (⟨"alice"⟩ : Handle).WellFormed Sample.unicodeHost ∧
      (Handle.fromExternal Sample.unicodeHost Sample.strokes).WellFormed Sample.unicodeHost ∧
      (Sample.strokeHandle.withSuffix 2).WellFormed Sample.unicodeHost := by
  obtain ⟨hnew, hexternal, hsuffix⟩ := handles_are_well_formed Sample.unicodeHost_unicode
  refine ⟨(hnew " Alice " ⟨"alice"⟩ (by decide +kernel)).2 (by decide +kernel),
    hexternal Sample.strokes, ?_⟩
  exact (hsuffix Sample.strokeHandle (.new Sample.strokes_new) 2).2 fun h => absurd h (by decide)

/-- The eighty bytes of the text pass the check, and the handle has a hundred and twenty. -/
theorem handle_outgrows_its_limit :
    Handle.new Sample.unicodeHost Sample.strokes = .ok Sample.strokeHandle ∧
      Sample.strokeHandle.text.utf8ByteSize = 120 ∧
      ¬ Sample.strokeHandle.WellFormed Sample.unicodeHost ∧
      Handle.new Sample.unicodeHost Sample.strokeHandle.text =
        .error (.tooLarge "handle" 80) := by
  have hsize : Sample.strokeHandle.text.utf8ByteSize = 120 := by decide +kernel
  refine ⟨Sample.strokes_new, hsize, fun hw => ?_, by decide +kernel⟩
  have hbounded := hw.bounded
  rw [hsize] at hbounded
  exact absurd hbounded (by decide)

end Sproyt
