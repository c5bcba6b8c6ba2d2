import Sproyt.Domain.Handle
import Sproyt.Domain.Words

/-!
# Topic keys

`normalize` and `valid_key` of `topics.rs`, with the check of the match endpoint in
`web/topics.rs`. A key is the folded form of an accepted label, and it can be asked for exactly
when it is an accepted label again. Lower case can lead out of the labels: what a letter becomes
need not be letters.
-/

namespace Sproyt

open List

/-- The tables of the standard library and the `nfkc` of `unicode_normalization`. -/
structure TopicHost extends Host where
  nfkc : List Char → List Char

namespace TopicHost

variable (u : TopicHost)

/-- `split_whitespace` and `join(" ")` on the normalised keyword. -/
def label (keyword : List Char) : List Char :=
  joinWords (u.nfkc keyword)

def labelChar (c : Char) : Bool :=
  u.isAlphanumeric c || c == ' ' || c == '-' || c == '\x27' || c == '’'

/-- The labels that `normalize` does not skip. -/
def accepted (label : List Char) : Bool :=
  !(label.isEmpty || decide (40 < label.length) || !label.head?.any u.isAlphanumeric ||
    !label.all u.labelChar)

def key (label : List Char) : List Char := u.nfkc (u.lowercaseAfter [] label)

def containsKey (labels : List (List Char × List Char)) (key : List Char) : Bool :=
  labels.any fun entry => entry.1 = key

/-- `entry(key).or_insert(label)`. -/
def orInsert (labels : List (List Char × List Char)) (key label : List Char) :
    List (List Char × List Char) :=
  if containsKey labels key then labels else labels ++ [(key, label)]

def addKeyword (labels : List (List Char × List Char)) (keyword : List Char) :
    List (List Char × List Char) :=
  if u.accepted (u.label keyword) then
    orInsert labels (u.key (u.label keyword)) (u.label keyword)
  else labels

/-- The map of keys to labels, as its entries. -/
def normalize (keywords : List (List Char)) : List (List Char × List Char) :=
  (keywords.take 5).foldl u.addKeyword []

def validKey (key : List Char) : Bool :=
  decide ((key.map Char.utf8Size).sum ≤ 160) && containsKey (u.normalize [key]) key

/-- The check that the match endpoint makes before it looks for messages. -/
def matchesAccepts (topic : List Char) (before : Option Int) : Bool :=
  !(decide (before.getD (2 ^ 63 - 1) ≤ 0) || !u.validKey topic)

/-- The keys of the evidence that `complete` inserts for a message: those of its text and of at
most ten of its images. -/
def storedKeys (text : List (List Char)) (images : List (List (List Char))) : List (List Char) :=
  (text :: images.take 10).flatMap fun keywords => (u.normalize keywords).map Prod.fst

/-- A character of a word of a normalised label in lower case. -/
structure Folded (c : Char) : Prop where
  label : u.labelChar c = true
  ne_blank : c ≠ ' '
  unchanged : Unchanged u.toHost c
  stable : u.nfkc [c] = [c]

/-- The lower-case form of the character stays within the characters of labels. -/
def LowersToLabel (c : Char) : Prop := ∀ d ∈ u.toLowercase c, u.labelChar d = true

instance (c : Char) : Decidable (u.LowersToLabel c) :=
  inferInstanceAs (Decidable (∀ d ∈ u.toLowercase c, u.labelChar d = true))

/-- The second text starts with a letter or digit if the first one does, and is empty only with
it. -/
def StartsAs (l x : List Char) : Prop :=
  ∀ c ∈ l.head?, ∃ d ∈ x.head?, u.isAlphanumeric c = true → u.isAlphanumeric d = true

/-- What `unicode_normalization` and the tables of the standard library are relied on for.
Normalising is idempotent, does not reach over a blank, and leaves the characters of its result
and their lower-case forms alone. Within a word of small letters it can only compose letters. A
lower-case form of more than one character has a mark in it, which no normalisation removes. -/
structure Tables : Prop extends Unicode u.toHost where
  quote : u.toLowercase '’' = ['’']
  small : u.isAlphanumeric 'ς' = true ∧ u.nfkc ['ς'] = ['ς']
  initial : ∀ c, u.isAlphanumeric c = true →
    (u.toLowercase c).head?.all u.isAlphanumeric = true
  single : ∀ c, u.LowersToLabel c → (u.toLowercase c).length = 1
  idempotent : ∀ s, u.nfkc (u.nfkc s) = u.nfkc s
  blank : ∀ s t, u.nfkc (s ++ ' ' :: t) = u.nfkc s ++ ' ' :: u.nfkc t
  stable : ∀ s, ∀ c ∈ u.nfkc s, u.nfkc [c] = [c]
  stableForms : ∀ c, u.nfkc [c] = [c] → u.labelChar c = true →
    ∀ d ∈ u.toLowercase c, u.nfkc [d] = [d]
  composes : ∀ w, (∀ c ∈ w, u.Folded c) →
    (u.nfkc w).length ≤ w.length ∧ (∀ d ∈ u.nfkc w, u.Folded d) ∧ u.StartsAs w (u.nfkc w)
  marks : ∀ c, u.nfkc [c] = [c] → u.labelChar c = true → ∀ d ∈ u.toLowercase c,
    u.labelChar d = false →
      isWhitespace d = false ∧ ∀ s t, d ∈ u.nfkc (s ++ u.toLowercase c ++ t)

variable {u} {k : List Char}

variable {labels : List (List Char × List Char)}

theorem containsKey_iff : containsKey labels k = true ↔ k ∈ labels.map Prod.fst := by
  simp [containsKey]

theorem mem_orInsert {key label : List Char} :
    k ∈ (orInsert labels key label).map Prod.fst ↔ k ∈ labels.map Prod.fst ∨ k = key := by
  by_cases h : containsKey labels key
  · rw [orInsert, if_pos h]
    exact ⟨Or.inl, fun hk => hk.elim id fun hk => hk ▸ containsKey_iff.1 h⟩
  · rw [orInsert, if_neg h, List.map_append, List.mem_append]
    simp

theorem mem_addKeyword {keyword : List Char} :
    k ∈ (u.addKeyword labels keyword).map Prod.fst ↔
      k ∈ labels.map Prod.fst ∨
        u.accepted (u.label keyword) = true ∧ k = u.key (u.label keyword) := by
  by_cases h : u.accepted (u.label keyword)
  · rw [addKeyword, if_pos h, mem_orInsert]
    simp [h]
  · rw [addKeyword, if_neg h]
    simp [h]

/-- The keys of the map are the folded accepted labels of the first five keywords. -/
theorem mem_normalize {keywords : List (List Char)} :
    k ∈ (u.normalize keywords).map Prod.fst ↔
      ∃ keyword ∈ keywords.take 5,
        u.accepted (u.label keyword) = true ∧ k = u.key (u.label keyword) := by
  have hfold : ∀ (rest : List (List Char)) labels, k ∈ (rest.foldl u.addKeyword labels).map Prod.fst
      ↔ k ∈ labels.map Prod.fst ∨ ∃ keyword ∈ rest,
        u.accepted (u.label keyword) = true ∧ k = u.key (u.label keyword) := by
    intro rest
    induction rest with
    | nil => simp
    | cons keyword rest ih =>
      intro labels
      rw [List.foldl_cons, ih, mem_addKeyword, or_assoc]
      simp
  rw [normalize, hfold]
  simp

theorem normalize_singleton (keyword : List Char) : u.normalize [keyword] =
    if u.accepted (u.label keyword) then [(u.key (u.label keyword), u.label keyword)] else [] := by
  simp [normalize, addKeyword, orInsert, containsKey]

theorem validKey_key_iff {label : List Char} : u.validKey (u.key label) = true ↔
    ((u.key label).map Char.utf8Size).sum ≤ 160 ∧ u.accepted (u.label (u.key label)) = true ∧
      u.key (u.label (u.key label)) = u.key label := by
  have hsingle : u.key label ∈ (u.normalize [u.key label]).map Prod.fst ↔
      u.accepted (u.label (u.key label)) = true ∧
        u.key label = u.key (u.label (u.key label)) := by
    rw [mem_normalize]
    simp
  rw [validKey, Bool.and_eq_true, decide_eq_true_iff, containsKey_iff, hsingle]
  exact and_congr_right fun _ => and_congr_right fun _ => eq_comm

theorem accepted_iff {label : List Char} : u.accepted label = true ↔
    label.length ≤ 40 ∧ (∃ c ∈ label.head?, u.isAlphanumeric c = true) ∧
      ∀ c ∈ label, u.labelChar c = true := by
  cases label <;> simp [accepted]
  tauto

/-! ### Labels in lower case -/

/-- A character of a word of an accepted label whose lower-case form stays within the labels. -/
structure Foldable (u : TopicHost) (c : Char) : Prop where
  label : u.labelChar c = true
  ne_blank : c ≠ ' '
  stable : u.nfkc [c] = [c]
  lowers : u.LowersToLabel c

/-- The text on the right has the shape of the label on the left, in folded characters. -/
structure Folds (u : TopicHost) (l x : List Char) : Prop where
  spaced : Spaced x
  length_le : x.length ≤ l.length
  folded : ∀ d ∈ x, d ≠ ' ' → u.Folded d
  head : u.StartsAs l x

variable {c : Char} {w l before : List Char}

theorem labelChar_of_alphanumeric (hc : u.isAlphanumeric c = true) : u.labelChar c = true := by
  simp [labelChar, hc]

theorem alphanumeric_ne_blank (hu : u.Tables) (hc : u.isAlphanumeric c = true) : c ≠ ' ' := by
  rintro rfl
  exact absurd (hu.spaces ' ' hc) (by decide)

theorem labelChar_solid (hu : u.Tables) (hc : u.labelChar c = true) (hne : c ≠ ' ') :
    isWhitespace c = false := by
  simp only [labelChar, Bool.or_eq_true, beq_iff_eq] at hc
  rcases hc with (((hc | hc) | rfl) | rfl) | rfl
  · exact hu.spaces c hc
  · exact absurd hc hne
  · decide
  · decide
  · decide

theorem small_sigma (hu : u.Tables) : u.isAlphanumeric 'σ' = true := by
  simpa [hu.sigma] using hu.initial 'Σ' hu.capitalSigma

theorem folded_sigma (hu : u.Tables) {d : Char} (hd : d = 'ς' ∨ d = 'σ')
    (hstable : u.nfkc ['Σ'] = ['Σ']) : u.Folded d ∧ u.isAlphanumeric d = true := by
  have halpha : u.isAlphanumeric d = true ∧ Unchanged u.toHost d ∧ u.nfkc [d] = [d] := by
    rcases hd with rfl | rfl
    · exact ⟨hu.small.1, unchanged_finalSigma hu.toUnicode, hu.small.2⟩
    · exact ⟨small_sigma hu, unchanged_sigma hu.toUnicode, hu.stableForms 'Σ' hstable
        (labelChar_of_alphanumeric hu.capitalSigma) 'σ' (by simp [hu.sigma])⟩
  exact ⟨⟨labelChar_of_alphanumeric halpha.1, alphanumeric_ne_blank hu halpha.1, halpha.2.1,
    halpha.2.2⟩, halpha.1⟩

theorem toLowercase_of_labelChar (hu : u.Tables) (hc : u.labelChar c = true)
    (hnot : u.isAlphanumeric c = false) : u.toLowercase c = [c] := by
  simp only [labelChar, hnot, Bool.false_or, Bool.or_eq_true, beq_iff_eq] at hc
  rcases hc with ((rfl | rfl) | rfl) | rfl
  · exact (hu.ascii ' ' (by decide)).2
  · exact (hu.ascii '-' (by decide)).2
  · exact (hu.ascii '\x27' (by decide)).2
  · exact hu.quote

theorem lowercaseAfter_cons (hu : u.Tables) (hc : u.Foldable c) (before after : List Char) :
    ∃ d, u.lowercaseAfter before (c :: after) = d :: u.lowercaseAfter (c :: before) after ∧
      u.Folded d ∧ (u.isAlphanumeric c = true → u.isAlphanumeric d = true) := by
  rw [Host.lowercaseAfter]
  split
  · next hsigma =>
    obtain ⟨hfolded, halpha⟩ := folded_sigma hu
      (ite_eq_or_eq (u.endsWord before after = true) 'ς' 'σ') (hsigma ▸ hc.stable)
    exact ⟨_, rfl, hfolded, fun _ => halpha⟩
  · obtain ⟨d, hd⟩ := length_eq_one_iff.1 (hu.single c hc.lowers)
    have hmem : d ∈ u.toLowercase c := by simp [hd]
    have halpha : u.isAlphanumeric c = true → u.isAlphanumeric d = true := fun h =>
      by simpa [hd] using hu.initial c h
    refine ⟨d, by rw [hd]; rfl, ⟨hc.lowers d hmem, ?_, hu.lowered c d hmem,
      hu.stableForms c hc.stable hc.label d hmem⟩, halpha⟩
    by_cases h : u.isAlphanumeric c = true
    · exact alphanumeric_ne_blank hu (halpha h)
    · rw [toLowercase_of_labelChar hu hc.label (Bool.eq_false_iff.2 h)] at hd
      rw [← (cons.inj hd).1]
      exact hc.ne_blank

theorem lowercaseAfter_word (hu : u.Tables) (hw : ∀ c ∈ w, u.Foldable c) (before rest : List Char) :
    ∃ y, u.lowercaseAfter before (w ++ rest) =
        y ++ u.lowercaseAfter (w.reverse ++ before) rest ∧
      y.length = w.length ∧ (∀ d ∈ y, u.Folded d) ∧ u.StartsAs w y := by
  induction w generalizing before with
  | nil => exact ⟨[], rfl, rfl, by simp, by simp [StartsAs]⟩
  | cons c w ih =>
    obtain ⟨d, hd, hfolded, halpha⟩ :=
      lowercaseAfter_cons hu (hw c mem_cons_self) before (w ++ rest)
    obtain ⟨y, hy, hlength, hall, -⟩ := ih (fun x hx => hw x (mem_cons_of_mem _ hx)) (c :: before)
    refine ⟨d :: y, ?_, by simp [hlength], by simpa using ⟨hfolded, hall⟩,
      by simpa [StartsAs] using halpha⟩
    rw [cons_append, hd, hy, reverse_cons, append_assoc]
    rfl

theorem nfkc_word (hu : u.Tables) (hne : w ≠ []) (hw : ∀ c ∈ w, u.Foldable c)
    (before rest : List Char) :
    ∃ y, u.lowercaseAfter before (w ++ rest) =
        y ++ u.lowercaseAfter (w.reverse ++ before) rest ∧
      IsWord (u.nfkc y) ∧ u.Folds w (u.nfkc y) := by
  obtain ⟨y, hy, hlength, hfolded, hhead⟩ := lowercaseAfter_word hu hw before rest
  obtain ⟨hcomposed, hall, hfirst⟩ := hu.composes y hfolded
  have hheads : u.StartsAs w (u.nfkc y) := by
    intro c hc
    obtain ⟨d, hd, hcd⟩ := hhead c hc
    obtain ⟨e, he, hde⟩ := hfirst d hd
    exact ⟨e, he, hde ∘ hcd⟩
  have hword : IsWord (u.nfkc y) := by
    constructor
    · intro hnil
      obtain ⟨d, hd, -⟩ := hheads _ (head_mem_head? hne)
      rw [hnil] at hd
      cases hd
    · exact fun d hd => labelChar_solid hu (hall d hd).label (hall d hd).ne_blank
  exact ⟨y, hy, hword, .word hword, hlength ▸ hcomposed, fun d hd _ => hall d hd, hheads⟩

theorem Folds.cons {rest x y : List Char} (hword : IsWord x) (hx : u.Folds w x)
    (hy : u.Folds rest y) (hne : w ≠ []) : u.Folds (w ++ ' ' :: rest) (x ++ ' ' :: y) where
  spaced := .cons hword hy.spaced
  length_le := by
    have hfirst := hx.length_le
    have hrest := hy.length_le
    simp only [length_append, length_cons]
    omega
  folded d hd hblank := by
    rcases mem_append.1 hd with hd | hd
    · exact hx.folded d hd hblank
    · exact hy.folded d (mem_of_ne_of_mem hblank hd) hblank
  head := by
    rw [StartsAs, head?_append_of_ne_nil _ hne, head?_append_of_ne_nil _ hword.ne_nil]
    exact hx.head

/-- A label in lower case and normalised, word by word. -/
theorem folds_of_spaced (hu : u.Tables) (hl : Spaced l) (hall : ∀ c ∈ l, c ≠ ' ' → u.Foldable c)
    (before : List Char) : u.Folds l (u.nfkc (u.lowercaseAfter before l)) := by
  have hsolid : ∀ {w}, IsWord w → ' ' ∉ w := fun hw hmem => absurd (hw.solid _ hmem) (by decide)
  induction hl generalizing before with
  | @word w hw =>
    have hfoldable : ∀ c ∈ w, u.Foldable c := fun c hc =>
      hall c hc fun hblank => hsolid hw (hblank ▸ hc)
    obtain ⟨y, hy, -, hfolds⟩ := nfkc_word hu hw.ne_nil hfoldable before []
    rw [append_nil, Host.lowercaseAfter, append_nil] at hy
    rwa [hy]
  | @cons w rest hw hrest ih =>
    have hfoldable : ∀ c ∈ w, u.Foldable c := fun c hc =>
      hall c (mem_append_left _ hc) fun hblank => hsolid hw (hblank ▸ hc)
    obtain ⟨y, hy, hword, hfolds⟩ := nfkc_word hu hw.ne_nil hfoldable before (' ' :: rest)
    have hblank : u.lowercaseAfter (w.reverse ++ before) (' ' :: rest) =
        ' ' :: u.lowercaseAfter (' ' :: (w.reverse ++ before)) rest := by
      rw [Host.lowercaseAfter, if_neg (by decide), (hu.ascii ' ' (by decide)).2]
      rfl
    rw [hy, hblank, hu.blank]
    refine hfolds.cons hword (ih (fun c hc => hall c ?_) _) hw.ne_nil
    exact mem_append_right _ (mem_cons_of_mem _ hc)

theorem Folds.validKey (hu : u.Tables) (hl : u.accepted l = true)
    (h : u.Folds l (u.key l)) : u.validKey (u.key l) = true := by
  obtain ⟨hlength, ⟨c, hc, halpha⟩, -⟩ := accepted_iff.1 hl
  have hblank : u.labelChar ' ' = true ∧ Unchanged u.toHost ' ' :=
    ⟨by simp [labelChar], by decide, (hu.ascii ' ' (by decide)).2⟩
  have hall : ∀ d ∈ u.key l, u.labelChar d = true ∧ Unchanged u.toHost d := by
    intro d hd
    by_cases hd' : d = ' '
    · exact hd' ▸ hblank
    · exact ⟨(h.folded d hd hd').label, (h.folded d hd hd').unchanged⟩
  have hnormal : u.nfkc (u.key l) = u.key l := hu.idempotent _
  have hlabel : u.label (u.key l) = u.key l := by
    rw [label, hnormal, h.spaced.joinWords_eq]
  have hle := hlength.trans' h.length_le
  refine validKey_key_iff.2 ⟨?_, ?_, ?_⟩
  · have hbytes := sum_le_card_nsmul ((u.key l).map Char.utf8Size) 4 (by
      simpa using fun d _ => d.utf8Size_le_four)
    rw [length_map, smul_eq_mul] at hbytes
    omega
  · obtain ⟨d, hd, hcd⟩ := h.head c hc
    rw [hlabel]
    exact accepted_iff.2 ⟨hle, ⟨d, hd, hcd halpha⟩, fun d hd => (hall d hd).1⟩
  · have hlower : u.lowercaseAfter [] (u.key l) = u.key l :=
      lowercaseAfter_of_unchanged fun d hd => (hall d hd).2
    rw [hlabel]
    calc u.key (u.key l) = u.nfkc (u.key l) := congrArg u.nfkc hlower
      _ = u.key l := hnormal

/-- A mark in a lower-case form stays in the key. -/
theorem mem_lowercaseAfter_of_mem (hc : c ∈ l) (hsigma : c ≠ 'Σ') (before : List Char) :
    ∃ s t, u.lowercaseAfter before l = s ++ u.toLowercase c ++ t := by
  induction l generalizing before with
  | nil => cases hc
  | cons d l ih =>
    rw [Host.lowercaseAfter]
    rcases mem_cons.1 hc with rfl | hc
    · exact ⟨[], _, by rw [if_neg hsigma]; rfl⟩
    · obtain ⟨s, t, hst⟩ := ih hc (d :: before)
      exact ⟨_ ++ s, t, by rw [hst, append_assoc, append_assoc, append_assoc]⟩

/-- The key of a label can be asked for exactly when all lower-case forms stay within the labels. -/
theorem validKey_iff (hu : u.Tables) {keyword : List Char}
    (hl : u.accepted (u.label keyword) = true) :
    u.validKey (u.key (u.label keyword)) = true ↔ ∀ c ∈ u.label keyword, u.LowersToLabel c := by
  have hlabels := (accepted_iff.1 hl).2.2
  have hstable : ∀ c ∈ u.label keyword, c ≠ ' ' → u.nfkc [c] = [c] := fun c hc hne =>
    hu.stable keyword c ((mem_joinWords hne).1 hc).1
  constructor
  · intro hvalid c hc d hd
    by_contra hnot
    have hne : c ≠ ' ' ∧ c ≠ 'Σ' := by
      constructor
      · rintro rfl
        rw [(hu.ascii ' ' (by decide)).2, mem_singleton] at hd
        exact hnot (hd ▸ hlabels _ hc)
      · rintro rfl
        rw [hu.sigma, mem_singleton] at hd
        exact hnot (hd ▸ labelChar_of_alphanumeric (small_sigma hu))
    obtain ⟨s, t, hst⟩ := mem_lowercaseAfter_of_mem (u := u) hc hne.2 []
    obtain ⟨hsolid, hmem⟩ := hu.marks c (hstable c hc hne.1) (hlabels c hc) d hd
      (Bool.eq_false_iff.2 hnot)
    -- the mark is in the key, and so in the label that is made of the key
    have hkey : d ∈ u.nfkc (u.key (u.label keyword)) := by
      rw [key, hu.idempotent, hst]
      exact hmem s t
    have hblank : d ≠ ' ' := fun h => absurd (h ▸ hsolid) (by decide)
    exact hnot ((accepted_iff.1 (validKey_key_iff.1 hvalid).2.1).2.2 d
      ((mem_joinWords hblank).2 ⟨hkey, hsolid⟩))
  · intro hlower
    have hne : u.label keyword ≠ [] := by
      obtain ⟨c, hc, -⟩ := (accepted_iff.1 hl).2.1
      exact ne_nil_of_mem (mem_of_head? hc)
    exact Folds.validKey hu hl (folds_of_spaced hu (spaced_joinWords hne)
      (fun c hc hblank => ⟨hlabels c hc, hblank, hstable c hc hblank, hlower c hc⟩) [])

theorem normalize_valid_iff (hu : u.Tables) {keywords : List (List Char)} :
    (∀ k ∈ (u.normalize keywords).map Prod.fst, u.validKey k = true) ↔
      ∀ keyword ∈ keywords.take 5, u.accepted (u.label keyword) = true →
        ∀ c ∈ u.label keyword, u.LowersToLabel c := by
  constructor
  · intro h keyword hmem haccepted
    exact (validKey_iff hu haccepted).1 (h _ (mem_normalize.2 ⟨keyword, hmem, haccepted, rfl⟩))
  · intro h k hk
    obtain ⟨keyword, hmem, haccepted, rfl⟩ := mem_normalize.1 hk
    exact (validKey_iff hu haccepted).2 (h keyword hmem haccepted)

/-- With these tables all keys of a map are valid, and their own only key, exactly when every
character of the accepted labels among the first five has a lower-case form within the characters
of labels. The keys that `complete` stores are then those that the match endpoint takes. -/
theorem keys_valid_iff_labels_lower (hu : u.Tables) (keywords : List (List Char)) :
    ((∀ k ∈ (u.normalize keywords).map Prod.fst,
        u.validKey k = true ∧ (u.normalize [k]).map Prod.fst = [k]) ↔
      ∀ keyword ∈ keywords.take 5, u.accepted (u.label keyword) = true →
        ∀ c ∈ u.label keyword, u.LowersToLabel c) ∧
    ∀ (text : List (List Char)) images,
      (∀ k ∈ u.storedKeys text images, u.matchesAccepts k none = true) ↔
        ∀ keywords ∈ text :: images.take 10, ∀ keyword ∈ keywords.take 5,
          u.accepted (u.label keyword) = true → ∀ c ∈ u.label keyword, u.LowersToLabel c := by
  refine ⟨?_, fun text images => ?_⟩
  · rw [← normalize_valid_iff hu]
    refine forall₂_congr fun k hk => and_iff_left_of_imp fun hvalid => ?_
    -- a valid key is the label it is made into, and its own key
    obtain ⟨keyword, -, -, rfl⟩ := mem_normalize.1 hk
    obtain ⟨-, hlabel, hkey⟩ := validKey_key_iff.1 hvalid
    rw [normalize_singleton, if_pos hlabel]
    simp [hkey]
  · have haccepts : ∀ k, u.matchesAccepts k none = u.validKey k := by simp [matchesAccepts]
    simp only [← normalize_valid_iff hu, storedKeys, List.mem_flatMap, haccepts]
    constructor
    · exact fun h keywords hkeywords k hk => h k ⟨keywords, hkeywords, hk⟩
    · rintro h k ⟨keywords, hkeywords, hk⟩
      exact h keywords hkeywords k hk

end TopicHost

namespace Sample

/-- The capital I with a dot is a letter, and stands normalised. Its lower case is an i followed by
the combining dot, which is no letter and does not compose with the i. -/
def dottedHost : TopicHost :=
  { unicodeHost with
    nfkc := id
    isAlphanumeric := fun c => c == 'İ' || unicodeHost.isAlphanumeric c
    toLowercase := fun c => if c = 'İ' then ['i', '̇'] else unicodeHost.toLowercase c }

theorem dottedHost_forall {P : Char → Prop} (hascii : ∀ n < 128, P (Char.ofNat n))
    (hletters : ∀ pair ∈ letters, P pair.1 ∧ P pair.2) (hdotted : P 'İ')
    (hother : ∀ c, c ≠ 'Σ' → dottedHost.toLowercase c = [c] →
      dottedHost.isAlphanumeric c = false → P c) (c : Char) : P c := by
  by_cases hc : c = 'İ'
  · exact hc ▸ hdotted
  · refine unicodeHost_forall (P := fun c => c ≠ 'İ' → P c) (fun n hn _ => hascii n hn)
      (fun pair hpair => ⟨fun _ => (hletters pair hpair).1, fun _ => (hletters pair hpair).2⟩)
      (fun c hsigma hlower halpha hne => hother c hsigma ((if_neg hne).trans hlower) ?_) c hc
    change (c == 'İ' || unicodeHost.isAlphanumeric c) = false
    rw [halpha, beq_eq_false_iff_ne.2 hne]
    rfl

theorem dottedHost_unicode : Unicode dottedHost.toHost where
  forms := dottedHost_forall (by decide +kernel) (by decide +kernel) (by decide +kernel)
    fun c _ hlower _ => by simp [hlower]
  lowered := dottedHost_forall (by decide +kernel) (by decide +kernel) (by decide +kernel)
    fun c hne hlower _ => by simp [hlower, hne]
  sigma := by decide +kernel
  finalSigma := by decide +kernel
  upper := dottedHost_forall (by decide +kernel) (by decide +kernel) (by decide +kernel)
    fun c _ hlower _ hforms => hforms c (by simp [hlower])
  capitalSigma := by decide +kernel
  spaces := dottedHost_forall (by decide +kernel) (by decide +kernel) (by decide +kernel)
    fun c _ _ hother halphanum => by simp [hother] at halphanum
  ascii c hc := by
    have hne : c ≠ 'İ' := fun h => absurd (h ▸ hc) (by decide)
    refine ⟨?_, (if_neg hne).trans (unicodeHost_unicode.ascii c hc).2⟩
    change (c == 'İ' || unicodeHost.isAlphanumeric c) = _
    rw [beq_eq_false_iff_ne.2 hne, (unicodeHost_unicode.ascii c hc).1]
    rfl

theorem dottedHost_tables : dottedHost.Tables where
  toUnicode := dottedHost_unicode
  quote := by decide +kernel
  small := ⟨by decide +kernel, rfl⟩
  initial := dottedHost_forall (by decide +kernel) (by decide +kernel) (by decide +kernel)
    fun c _ _ hother halpha => by simp [hother] at halpha
  single := dottedHost_forall (by decide +kernel) (by decide +kernel) (by decide +kernel)
    fun c _ hlower _ _ => by simp [hlower]
  idempotent _ := rfl
  blank _ _ := rfl
  stable _ _ _ := rfl
  stableForms _ _ _ _ _ := rfl
  composes w hw := ⟨le_rfl, hw, fun c hc => ⟨c, hc, id⟩⟩
  marks c _ hc d hd hnot := by
    refine ⟨?_, fun s t => mem_append_left _ (mem_append_right _ hd)⟩
    have hsolid : ∀ c, dottedHost.labelChar c = true → ∀ d ∈ dottedHost.toLowercase c,
        dottedHost.labelChar d = false → isWhitespace d = false :=
      dottedHost_forall (by decide +kernel) (by decide +kernel) (by decide +kernel)
        fun c _ hlower _ hc d hd hnot => by
          rw [hlower, mem_singleton] at hd
          rw [hd, hc] at hnot
          cases hnot
    exact hsolid c hc d hd hnot

/-- The keyword İstanbul is stored under a key that the match endpoint refuses. -/
theorem istanbul_not_queryable :
    ['i', '̇', 's', 't', 'a', 'n', 'b', 'u', 'l'] ∈
        dottedHost.storedKeys [['İ', 's', 't', 'a', 'n', 'b', 'u', 'l']] [] ∧
      dottedHost.matchesAccepts ['i', '̇', 's', 't', 'a', 'n', 'b', 'u', 'l'] none = false := by
  decide +kernel

end Sample

open TopicHost in
/-- The labels of two keywords in Greek letters, and the one with the dotted letter. -/
theorem keys_valid_iff_labels_lower_of_names :
    (∀ k ∈ (Sample.dottedHost.normalize [['Ⱥ', ' ', 'Α', 'Σ'], ['ς', '-', 'Α']]).map Prod.fst,
      Sample.dottedHost.validKey k = true ∧
        (Sample.dottedHost.normalize [k]).map Prod.fst = [k]) ∧
    ¬ ∀ k ∈ (Sample.dottedHost.normalize [['Α', 'Σ'], ['İ', 's']]).map Prod.fst,
      Sample.dottedHost.validKey k = true ∧
        (Sample.dottedHost.normalize [k]).map Prod.fst = [k] := by
  constructor
  · exact (keys_valid_iff_labels_lower Sample.dottedHost_tables _).1.2 (by decide +kernel)
  · intro h
    have hforms := (keys_valid_iff_labels_lower Sample.dottedHost_tables _).1.1 h
    exact absurd (hforms ['İ', 's'] (by decide) (by decide +kernel) 'İ' (by decide +kernel))
      (by decide +kernel)

end Sproyt
