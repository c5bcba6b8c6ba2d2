import Sproyt.Db.Integrations
import Sproyt.Db.Mentions

/-!
# Alerts and reports

A webhook delivers texts that the chat does not trust. They are escaped and rendered as the body
of a message, which the chat then scans for mentions and media. Links are not escaped: they go
into the body as the url parser writes them.
-/

namespace Sproyt

open List

/-! ### What a webhook delivers -/

/-- A `HashMap` of texts. -/
structure TextMap where
  entries : List (String × String)
  distinct : (entries.map Prod.fst).Nodup

def TextMap.get? (map : TextMap) (key : String) : Option String :=
  (map.entries.find? fun e => e.1 = key).map Prod.snd

structure GrafanaAlert where
  status : String
  labels : TextMap
  annotations : TextMap
  startsAt : Time
  endsAt : Option Time
  fingerprint : String
  generatorUrl : Option String
  dashboardUrl : Option String
  panelUrl : Option String

structure ReportLink where
  label : String
  url : String

structure ReportWebhook where
  version : String
  reportId : String
  periodStart : Time
  periodEnd : Time
  title : String
  summary : String
  links : List ReportLink

def maxLinks : Nat := 8

def AlertState.asStr : AlertState → String
  | .firing => "firing"
  | .resolved => "resolved"

/-! ### The libraries behind a body -/

/-- A parsed url, with its `to_string`. -/
structure Url where
  scheme : String
  username : String
  password : Option String
  text : String

/-- `reqwest::Url::parse` and `DateTime::to_rfc3339`. -/
structure Rendering where
  parseUrl : String → Option Url
  toRfc3339 : Time → String

/-- What they are relied on for. A date has digits and separators. A url is written with its
scheme first, and white space in an http or https url is encoded. -/
structure Rendering.Documented (r : Rendering) : Prop where
  dates : ∀ t, ∀ c ∈ (r.toRfc3339 t).toList, c ≠ '@' ∧ c ≠ '['
  scheme : ∀ s url, r.parseUrl s = some url → (url.scheme ++ ":").toList <+: url.text.toList
  spaces : ∀ s url, r.parseUrl s = some url → url.scheme = "http" ∨ url.scheme = "https" →
    ∀ c ∈ url.text.toList, isWhitespace c = false

def boundedMap (map : TextMap) (count key value : Nat) : Except String Unit :=
  if count < map.entries.length ∨
      map.entries.any fun e => key < e.1.utf8ByteSize ∨ value < e.2.utf8ByteSize then
    .error "for store labels eller annotations"
  else .ok ()

def validateAlert (alert : GrafanaAlert) : Except String AlertState := do
  if alert.fingerprint = "" ∨ 128 < alert.fingerprint.utf8ByteSize then
    .error "ugyldig fingerprint"
  boundedMap alert.labels 40 80 500
  boundedMap alert.annotations 40 80 4000
  if alert.status = "firing" then .ok .firing
  else if alert.status = "resolved" then
    if alert.endsAt.isSome then .ok .resolved else .error "resolved alarm manglar endsAt"
  else .error "status må vere firing eller resolved"

/-! ### Rendering -/

/-- The characters with a meaning in a message, and what stands for them. -/
def escapes : List (Char × Char) :=
  [('@', '＠'), ('\\', '＼'), ('*', '＊'), ('_', '＿'), ('[', '［'), (']', '］'),
    (Char.ofNat 0x60, '｀'), ('#', '＃'), ('<', '‹'), ('>', '›'), ('|', '｜'),
    ('\n', ' '), ('\r', ' '), ('\t', ' ')]

def escapeChar (c : Char) : Char :=
  match escapes.lookup c with
  | some d => d
  | none => if isControl c then ' ' else c

def escape (value : String) (maxChars : Nat) : String :=
  String.ofList ((value.toList.take maxChars).map escapeChar)

def safeUrl (r : Rendering) (value : String) : Option String :=
  if 2048 < value.utf8ByteSize ∨ value.toList.any isControl then none
  else match r.parseUrl value with
    | none => none
    | some url =>
      if (url.scheme ≠ "http" ∧ url.scheme ≠ "https") ∨ url.username ≠ "" ∨ url.password.isSome
      then none
      else some url.text

def label (alert : GrafanaAlert) (keys : List String) : Option String :=
  keys.findSome? alert.labels.get?

def annotation (alert : GrafanaAlert) (keys : List String) : Option String :=
  keys.findSome? alert.annotations.get?

def pushFields (output : String) : List (String × Option String) → String
  | [] => output
  | (_, none) :: fields => pushFields output fields
  | (name, some value) :: fields =>
    pushFields (output ++ "\n- " ++ name ++ ": " ++ value) fields

def GrafanaAlert.links (alert : GrafanaAlert) (r : Rendering) : List (String × Option String) :=
  [("Dashboard", alert.dashboardUrl.bind (safeUrl r)),
    ("Panel", alert.panelUrl.bind (safeUrl r)),
    ("Kjelde", alert.generatorUrl.bind (safeUrl r)),
    ("Runbook", (alert.annotations.get? "runbook_url").bind (safeUrl r))]

def alertTitle (alert : GrafanaAlert) (state : AlertState) : String :=
  let icon := if state = .firing then "🔴" else "🟢"
  let summary := (( annotation alert ["summary", "description"]).or
    (label alert ["alertname"])).getD "Grafana-alarm"
  "## " ++ icon ++ " " ++ escape summary 1000

def GrafanaAlert.facts (alert : GrafanaAlert) (state : AlertState) :
    List (String × Option String) :=
  [("Status", some state.asStr), ("Alvor", label alert ["severity", "priority"]),
    ("Teneste", label alert ["service", "app", "job"]), ("Namespace", label alert ["namespace"])]

def GrafanaAlert.dates (alert : GrafanaAlert) (r : Rendering) : List (String × Option String) :=
  [("Start", some (r.toRfc3339 alert.startsAt)), ("Slutt", alert.endsAt.map r.toRfc3339)]

def truncationNote (truncated : Option UInt32) : String :=
  match truncated.filter (0 < ·) with
  | some count => "\n\n⚠️ Grafana utelét " ++ count.toNat.repr ++ " alarmar frå gruppa."
  | none => ""

def renderAlert (r : Rendering) (alert : GrafanaAlert) (state : AlertState)
    (truncated : Option UInt32) : Except String MessageBody :=
  let output := alertTitle alert state
  let output := pushFields output
    ((alert.facts state).map fun f => (f.1, f.2.map (escape · 500)))
  let output := pushFields output (alert.dates r)
  let output := pushFields output (alert.links r)
  (MessageBody.new (output ++ truncationNote truncated)).mapError
    fun _ => "formatert alarm er for stor"

def pushLinks (r : Rendering) (output : String) : List ReportLink → Except String String
  | [] => .ok output
  | link :: links =>
    if link.label = "" ∨ 120 < link.label.utf8ByteSize then .error "ugyldig rapportlenkje"
    else match safeUrl r link.url with
      | none => .error "ugyldig rapportlenkje"
      | some url => pushLinks r (output ++ "\n- " ++ escape link.label 120 ++ ": " ++ url) links

def renderReport (r : Rendering) (report : ReportWebhook) : Except String MessageBody :=
  if report.version ≠ "1" ∨ report.reportId = "" ∨ 128 < report.reportId.utf8ByteSize ∨
      report.title = "" ∨ 500 < report.title.utf8ByteSize ∨ 8000 < report.summary.utf8ByteSize ∨
      report.periodEnd < report.periodStart ∨ maxLinks < report.links.length then
    .error "ugyldig rapport"
  else
    let output := "## 📊 " ++ escape report.title 500 ++ "\n" ++ escape report.summary 8000 ++
      "\n\n" ++ r.toRfc3339 report.periodStart ++ " – " ++ r.toRfc3339 report.periodEnd
    match pushLinks r output report.links with
    | .error e => .error e
    | .ok output => (MessageBody.new output).mapError fun _ => "formatert rapport er for stor"

/-! ### Texts that are read word by word -/

/-- A text without the characters that start a mention or a marker. -/
def Escaped (s : List Char) : Prop := ∀ c ∈ s, c ≠ '@' ∧ c ≠ '['

instance (s : List Char) : Decidable (Escaped s) := inferInstanceAs (Decidable (∀ c ∈ s, _))

/-- A property that white space splits and that an escaped text has. -/
structure Wordwise (P : List Char → Prop) : Prop where
  space : ∀ s t c, isWhitespace c = true → (P (s ++ c :: t) ↔ P s ∧ P t)
  escaped : ∀ s, Escaped s → P s

def NoMarker (s : List Char) : Prop := ¬ mediaMarker <:+: s

/-- No word starts with `@`. -/
def NoMention (s : List Char) : Prop := ∀ word ∈ splitWhitespace s, word.head? ≠ some '@'

variable {s t w : List Char} {c : Char}

theorem isPrefix_append_cons (hc : c ∉ w) : w <+: s ++ c :: t ↔ w <+: s := by
  induction s generalizing w with
  | nil =>
    cases w with
    | nil => exact iff_of_true nil_prefix nil_prefix
    | cons x w =>
      refine iff_of_false (fun h => hc ?_) (fun h => cons_ne_nil _ _ (prefix_nil.1 h))
      rw [(cons_prefix_cons.1 h).1]
      exact mem_cons_self
  | cons y s ih =>
    cases w with
    | nil => exact iff_of_true nil_prefix nil_prefix
    | cons x w =>
      rw [cons_append, cons_prefix_cons, cons_prefix_cons, ih fun h => hc (mem_cons_of_mem _ h)]

theorem isInfix_append_cons (hne : w ≠ []) (hc : c ∉ w) :
    w <:+: s ++ c :: t ↔ w <:+: s ∨ w <:+: t := by
  induction s with
  | nil =>
    rw [nil_append, infix_cons_iff, infix_nil]
    refine or_congr_left (iff_of_false (fun h => ?_) hne)
    have hnil := (isPrefix_append_cons (s := []) hc).1 h
    exact hne (prefix_nil.1 hnil)
  | cons y s ih =>
    rw [cons_append, infix_cons_iff, ih, infix_cons_iff, ← cons_append,
      isPrefix_append_cons hc, or_assoc]

theorem not_mem_mediaMarker (hc : isWhitespace c = true) : c ∉ mediaMarker := by
  have hmarker : ∀ d ∈ mediaMarker, isWhitespace d = false := by decide
  intro h
  rw [hmarker c h] at hc
  cases hc

theorem wordwise_noMarker : Wordwise NoMarker where
  space s t c hc := by
    rw [NoMarker, isInfix_append_cons (by decide) (not_mem_mediaMarker hc), not_or]
    rfl
  escaped s hs hmarker := (hs '[' (hmarker.subset (by decide))).2 rfl

theorem wordwise_noMention : Wordwise NoMention where
  space s t c hc := by
    rw [NoMention, splitWhitespace_append hc]
    exact forall_mem_append
  escaped s hs word hword hhead :=
    (hs '@' (mem_words.1 ⟨word, hword, mem_of_head? hhead⟩).1).1 rfl

theorem noMention_word (hs : ∀ c ∈ s, isWhitespace c = false) (hhead : s.head? ≠ some '@') :
    NoMention s := by
  intro word hword
  rw [splitWhitespace_piece hs] at hword
  split at hword
  · cases hword
  · rw [mem_singleton.1 hword]
    exact hhead

theorem Escaped.append (hs : Escaped s) (ht : Escaped t) : Escaped (s ++ t) := by
  intro c hc
  rcases mem_append.1 hc with hc | hc
  · exact hs c hc
  · exact ht c hc

namespace Wordwise

variable {P : List Char → Prop} {output value : String} (h : Wordwise P)
include h

theorem nil : P [] := h.escaped [] fun _ hc => absurd hc not_mem_nil

theorem dropWhile (s : List Char) : P (s.dropWhile isWhitespace) ↔ P s := by
  induction s with
  | nil => rfl
  | cons c s ih =>
    rw [dropWhile_cons]
    split
    · next hc =>
      rw [ih, ← nil_append (c :: s), h.space _ _ _ hc]
      exact (and_iff_right h.nil).symm
    · rfl

theorem rdropWhile (s : List Char) : P (s.rdropWhile isWhitespace) ↔ P s := by
  induction s using List.reverseRecOn with
  | nil => rfl
  | append_singleton s c ih =>
    by_cases hc : isWhitespace c = true
    · rw [rdropWhile_concat_pos _ _ _ hc, ih, h.space _ _ _ hc]
      exact (and_iff_left h.nil).symm
    · rw [rdropWhile_concat_neg _ _ _ hc]

theorem body {body : MessageBody} {e : String}
    (hbody : (MessageBody.new output).mapError (fun _ => e) = .ok body) :
    P body.text.toList ↔ P output.toList := by
  have htext : body.text = trim output := by
    cases hnew : MessageBody.new output with
    | error e =>
      rw [hnew] at hbody
      cases hbody
    | ok value =>
      rw [hnew, Txn.except_mapError_ok] at hbody
      rw [← Except.ok.inj hbody]
      exact MessageBody.new_text hnew
  rw [htext, trim, String.toList_ofList, h.rdropWhile, h.dropWhile]

theorem line {name : String} (hname : Escaped name.toList) :
    P (output ++ "\n- " ++ name ++ ": " ++ value).toList ↔ P output.toList ∧ P value.toList := by
  have htext : (output ++ "\n- " ++ name ++ ": " ++ value).toList =
      output.toList ++ '\n' :: (("- ".toList ++ name.toList ++ ":".toList) ++
        ' ' :: value.toList) := by
    simp
  have hname : P ("- ".toList ++ name.toList ++ ":".toList) := by
    refine h.escaped _ (Escaped.append (Escaped.append ?_ hname) ?_) <;> decide
  rw [htext, h.space _ _ _ (by decide), h.space _ _ _ (by decide)]
  exact and_congr_right fun _ => and_iff_right hname

theorem pushFields {fields : List (String × Option String)}
    (hnames : ∀ f ∈ fields, Escaped f.1.toList) :
    P (Sproyt.pushFields output fields).toList ↔
      P output.toList ∧ ∀ f ∈ fields, ∀ value ∈ f.2, P value.toList := by
  induction fields generalizing output with
  | nil => exact (and_iff_left fun f hf => absurd hf not_mem_nil).symm
  | cons f fields ih =>
    obtain ⟨hname, hrest⟩ := forall_mem_cons.1 hnames
    rw [forall_mem_cons]
    obtain ⟨name, _ | value⟩ := f
    · rw [Sproyt.pushFields, ih hrest]
      exact and_congr_right fun _ => (and_iff_right fun value hvalue => nomatch hvalue).symm
    · rw [Sproyt.pushFields, ih hrest, h.line hname, and_assoc]
      refine and_congr_right fun _ => and_congr_left fun _ => ?_
      exact ⟨fun hvalue x hx => Option.some.inj hx ▸ hvalue, fun hall => hall value rfl⟩

end Wordwise

/-! ### What the fields of a webhook become -/

theorem escapeChar_escaped : escapeChar c ≠ '@' ∧ escapeChar c ≠ '[' := by
  rw [escapeChar]
  split
  · next d hd =>
    have htable : ∀ e ∈ escapes, e.2 ≠ '@' ∧ e.2 ≠ '[' := by decide
    obtain ⟨l₁, l₂, hsplit, -⟩ := lookup_eq_some_iff.1 hd
    exact htable (c, d) (by rw [hsplit]; simp)
  · next hnone =>
    split
    · decide
    · constructor <;> rintro rfl <;> exact absurd hnone (by decide)

theorem escape_escaped {n : Nat} : Escaped (escape value n).toList := by
  intro c hc
  rw [escape, String.toList_ofList] at hc
  obtain ⟨d, -, rfl⟩ := mem_map.1 hc
  exact escapeChar_escaped

section

variable {r : Rendering} {value url : String} {alert : GrafanaAlert}

theorem safeUrl_ok (h : safeUrl r value = some url) :
    ∃ parsed, r.parseUrl value = some parsed ∧ parsed.text = url ∧
      (parsed.scheme = "http" ∨ parsed.scheme = "https") := by
  rw [safeUrl] at h
  split at h
  · cases h
  · split at h
    · cases h
    · next parsed hparsed =>
      split at h
      · cases h
      · next hsafe =>
        rw [not_or, not_and_or, not_not, not_not] at hsafe
        exact ⟨parsed, hparsed, Option.some.inj h, hsafe.1⟩

/-- A link that is shown is a word that does not start with `@`. -/
theorem safeUrl_noMention (hr : r.Documented) (h : safeUrl r value = some url) :
    NoMention url.toList := by
  obtain ⟨parsed, hparsed, rfl, hscheme⟩ := safeUrl_ok h
  refine noMention_word (hr.spaces value parsed hparsed hscheme) ?_
  obtain ⟨rest, hrest⟩ := hr.scheme value parsed hparsed
  rw [← hrest]
  rcases hscheme with hscheme | hscheme <;> rw [hscheme] <;> simp

theorem links_noMention (hr : r.Documented) :
    ∀ f ∈ alert.links r, ∀ url ∈ f.2, NoMention url.toList := by
  have hbind : ∀ (value : Option String) (url : String), value.bind (safeUrl r) = some url →
      NoMention url.toList := by
    intro value url h
    obtain ⟨text, -, hurl⟩ := Option.bind_eq_some_iff.1 h
    exact safeUrl_noMention hr hurl
  intro f hf url hurl
  simp only [GrafanaAlert.links, mem_cons, not_mem_nil, or_false] at hf
  rcases hf with rfl | rfl | rfl | rfl <;> exact hbind _ url hurl

/-! ### Bodies -/

namespace Wordwise

variable {P : List Char → Prop} {output value : String} {state : AlertState} (h : Wordwise P)
include h

theorem alertTitle : P (alertTitle alert state).toList := by
  have hicon : Escaped (if state = .firing then "🔴" else "🟢").toList := by
    split <;> decide
  have hmarks : Escaped "## ".toList ∧ Escaped " ".toList := by decide
  refine h.escaped _ ?_
  simp only [Sproyt.alertTitle, String.toList_append]
  exact ((hmarks.1.append hicon).append hmarks.2).append (escape_escaped)

theorem facts :
    P (Sproyt.pushFields output
        ((alert.facts state).map fun f => (f.1, f.2.map (escape · 500)))).toList ↔
      P output.toList := by
  have hnames : ∀ f ∈ alert.facts state, Escaped f.1.toList := by
    simp only [GrafanaAlert.facts, forall_mem_cons]
    exact ⟨by decide, by decide, by decide, by decide, fun _ hf => absurd hf not_mem_nil⟩
  have hmapped : ∀ f ∈ (alert.facts state).map fun f => (f.1, f.2.map (escape · 500)),
      Escaped f.1.toList := forall_mem_map.2 hnames
  rw [h.pushFields hmapped]
  refine and_iff_left (forall_mem_map.2 fun f _ value hvalue => ?_)
  obtain ⟨text, -, rfl⟩ := Option.map_eq_some_iff.1 hvalue
  exact h.escaped _ (escape_escaped)

theorem dates (hr : r.Documented) :
    P (Sproyt.pushFields output (alert.dates r)).toList ↔ P output.toList := by
  have hnames : ∀ f ∈ alert.dates r, Escaped f.1.toList := by
    simp only [GrafanaAlert.dates, forall_mem_cons]
    exact ⟨by decide, by decide, fun _ hf => absurd hf not_mem_nil⟩
  rw [h.pushFields hnames]
  refine and_iff_left ?_
  simp only [GrafanaAlert.dates, forall_mem_cons]
  refine ⟨fun value hvalue => ?_, fun value hvalue => ?_, fun _ hf => absurd hf not_mem_nil⟩
  · rw [← Option.some.inj hvalue]
    exact h.escaped _ (hr.dates alert.startsAt)
  · obtain ⟨t, -, rfl⟩ := Option.map_eq_some_iff.1 hvalue
    exact h.escaped _ (hr.dates t)

theorem truncationNote (truncated : Option UInt32) :
    P (output ++ truncationNote truncated).toList ↔ P output.toList := by
  rw [Sproyt.truncationNote]
  split
  · next count _ =>
    have htext : (output ++ ("\n\n⚠️ Grafana utelét " ++ count.toNat.repr ++
        " alarmar frå gruppa.")).toList = output.toList ++ '\n' :: ("\n⚠️ Grafana utelét ".toList ++
          count.toNat.repr.toList ++ " alarmar frå gruppa.".toList) := by
      simp
    have hdigits : Escaped count.toNat.repr.toList := by
      intro c hc
      rw [Nat.repr, String.toList_ofList] at hc
      have hdigit := Nat.isDigit_of_mem_toDigits (by decide) (by decide) hc
      constructor <;> rintro rfl <;> exact absurd hdigit (by decide)
    rw [htext, h.space _ _ _ (by decide)]
    exact and_iff_left (h.escaped _ (Escaped.append (Escaped.append (by decide) hdigits)
      (by decide)))
  · rw [String.append_empty]

theorem renderAlert (hr : r.Documented) {truncated : Option UInt32} {body : MessageBody}
    (hbody : renderAlert r alert state truncated = .ok body) :
    P body.text.toList ↔ ∀ f ∈ alert.links r, ∀ url ∈ f.2, P url.toList := by
  have hnames : ∀ f ∈ alert.links r, Escaped f.1.toList := by
    simp only [GrafanaAlert.links, forall_mem_cons]
    exact ⟨by decide, by decide, by decide, by decide, fun _ hf => absurd hf not_mem_nil⟩
  rw [Sproyt.renderAlert] at hbody
  have htext := h.body hbody
  rw [h.truncationNote, h.pushFields hnames, h.dates hr, h.facts] at htext
  exact htext.trans (and_iff_right (h.alertTitle))

theorem pushLinks {links : List ReportLink} {text : String}
    (hpush : pushLinks r output links = .ok text) :
    P text.toList ↔ P output.toList ∧
      ∀ link ∈ links, ∀ url ∈ safeUrl r link.url, P url.toList := by
  induction links generalizing output with
  | nil =>
    rw [← Except.ok.inj hpush]
    exact (and_iff_left fun link hlink => absurd hlink not_mem_nil).symm
  | cons link links ih =>
    rw [Sproyt.pushLinks] at hpush
    split at hpush
    · cases hpush
    · split at hpush
      · cases hpush
      · next url hurl =>
        rw [ih hpush, h.line (escape_escaped), forall_mem_cons, hurl, and_assoc]
        refine and_congr_right fun _ => and_congr_left fun _ => ?_
        exact ⟨fun hvalue x hx => Option.some.inj hx ▸ hvalue, fun hall => hall url rfl⟩

theorem renderReport (hr : r.Documented) {report : ReportWebhook} {body : MessageBody}
    (hbody : renderReport r report = .ok body) :
    P body.text.toList ↔ ∀ link ∈ report.links, ∀ url ∈ safeUrl r link.url, P url.toList := by
  rw [Sproyt.renderReport] at hbody
  split at hbody
  · cases hbody
  · dsimp only at hbody
    split at hbody
    · cases hbody
    · next text hpush =>
      rw [h.body hbody, h.pushLinks hpush]
      refine and_iff_right (h.escaped _ ?_)
      simp only [String.toList_append]
      refine Escaped.append (Escaped.append (Escaped.append (Escaped.append (Escaped.append
        (Escaped.append (Escaped.append ?_ (escape_escaped)) ?_) (escape_escaped)) ?_)
        (hr.dates _)) ?_) (hr.dates _) <;> decide

end Wordwise

/-- The chat reads nothing into a body: no media token, no mention and no attachment. -/
structure Inert (host : Host) (body : MessageBody) : Prop where
  marker : ¬ mediaMarker <:+: body.text.toList
  mentions : mentionHandles host body.text = []
  media : mediaIdsFromBody host body = .ok []

theorem afterMarker_eq_none {s : List Char} : afterMarker s = none ↔ NoMarker s := by
  induction s with
  | nil => exact iff_of_true rfl wordwise_noMarker.nil
  | cons c s ih =>
    rw [afterMarker, NoMarker, infix_cons_iff, not_or, ← isPrefixOf_iff_prefix]
    split
    · next hmarker => exact iff_of_false (Option.some_ne_none _) fun h => h.1 hmarker
    · next hmarker => exact ih.trans (and_iff_right hmarker).symm

theorem mediaIdsLoop_noMarker {host : Host} {fuel : Nat} {s : List Char} (hs : NoMarker s) :
    mediaIdsLoop host fuel s [] = .ok [] := by
  cases fuel with
  | zero => rfl
  | succ fuel => rw [mediaIdsLoop, afterMarker_eq_none.2 hs]

theorem inert_iff {host : Host} {body : MessageBody} (hmention : NoMention body.text.toList) :
    Inert host body ↔ NoMarker body.text.toList := by
  refine ⟨fun h => h.marker, fun hmarker => ⟨hmarker, ?_, ?_⟩⟩
  · refine eq_nil_iff_forall_not_mem.2 fun handle hhandle => ?_
    obtain ⟨-, word, hword, -⟩ := mem_mentionHandles.1 hhandle
    exact hmention _ hword rfl
  · rw [mediaIdsFromBody, mediaIdsLoop_noMarker hmarker]
    rfl

/-- The texts of an alert or a report are read as plain text, whatever they are. Its links are
too if none of those that are shown has a media marker in it. -/
theorem untrusted_text_is_inert {host : Host} (hr : r.Documented) :
    (∀ alert state truncated body, validateAlert alert = .ok state →
      renderAlert r alert state truncated = .ok body →
      (Inert host body ↔
        ∀ f ∈ alert.links r, ∀ url ∈ f.2, ¬ mediaMarker <:+: url.toList)) ∧
    ∀ report body, renderReport r report = .ok body →
      (Inert host body ↔
        ∀ link ∈ report.links, ∀ url ∈ safeUrl r link.url, ¬ mediaMarker <:+: url.toList) := by
  refine ⟨fun alert state truncated body _ hbody => ?_, fun report body hbody => ?_⟩
  · have hmention := (wordwise_noMention.renderAlert hr hbody).2 (links_noMention hr)
    rw [inert_iff hmention]
    exact wordwise_noMarker.renderAlert hr hbody
  · have hmention := (wordwise_noMention.renderReport hr hbody).2
      fun link _ url hurl => safeUrl_noMention hr hurl
    rw [inert_iff hmention]
    exact wordwise_noMarker.renderReport hr hbody

end

namespace Sample

/-- A parser that takes texts as they are, and the date of the instant 0. -/
def rendering : Rendering where
  parseUrl s :=
    if "https:".toList <+: s.toList ∧ ∀ c ∈ s.toList, isWhitespace c = false then
      some ⟨"https", "", none, s⟩
    else none
  toRfc3339 _ := "1970-01-01T00:00:00+00:00"

theorem rendering_documented : rendering.Documented where
  dates _ := by
    change ∀ c ∈ "1970-01-01T00:00:00+00:00".toList, c ≠ '@' ∧ c ≠ '['
    decide
  scheme s url h := by
    simp only [rendering, Option.ite_none_right_eq_some] at h
    rw [← Option.some.inj h.2]
    exact h.1.1
  spaces s url h _ := by
    simp only [rendering, Option.ite_none_right_eq_some] at h
    rw [← Option.some.inj h.2]
    exact h.1.2

def alertOn (dashboard : String) : GrafanaAlert where
  status := "firing"
  labels := ⟨[], by decide⟩
  annotations := ⟨[("summary", "@alle [[media:x|y]]")], by decide⟩
  startsAt := 0
  endsAt := none
  fingerprint := "abc"
  generatorUrl := none
  dashboardUrl := some dashboard
  panelUrl := none

def dashboard : String := "https://x.no/@api"

def forgedDashboard : String :=
  "https://x.no/[[media:7|x]]"

def uuidHost : Host := { host with parseUuid := fun _ => some 7 }

end Sample

/-- An alert whose summary tries to mention everyone and to attach an object. -/
theorem sample_untrusted_text_is_inert :
    ∃ body, renderAlert Sample.rendering (Sample.alertOn Sample.dashboard) .firing none = .ok body ∧
      Inert Sample.uuidHost body := by
  obtain ⟨halert, -⟩ := @untrusted_text_is_inert Sample.rendering Sample.uuidHost
    Sample.rendering_documented
  have hok : (renderAlert Sample.rendering (Sample.alertOn Sample.dashboard) .firing
      none).toBool = true := by decide +kernel
  cases hbody : renderAlert Sample.rendering (Sample.alertOn Sample.dashboard) .firing none with
  | error e =>
    rw [hbody] at hok
    cases hok
  | ok body =>
    refine ⟨body, rfl, (halert _ _ _ body (by decide +kernel) hbody).2 ?_⟩
    decide +kernel

/-- The path of a link becomes a media token of the message. -/
theorem link_forges_a_media_token :
    ∃ body, validateAlert (Sample.alertOn Sample.forgedDashboard) = .ok .firing ∧
      renderAlert Sample.rendering (Sample.alertOn Sample.forgedDashboard) .firing none =
        .ok body ∧
      mediaIdsFromBody Sample.uuidHost body = .ok [⟨7⟩] ∧ ¬ Inert Sample.uuidHost body := by
  have hread : ((renderAlert Sample.rendering (Sample.alertOn Sample.forgedDashboard) .firing
      none).toOption.map (mediaIdsFromBody Sample.uuidHost)) = some (.ok [⟨7⟩]) := by
    decide +kernel
  cases hbody : renderAlert Sample.rendering (Sample.alertOn Sample.forgedDashboard) .firing
    none with
  | error e =>
    rw [hbody] at hread
    cases hread
  | ok body =>
    rw [hbody] at hread
    have hmedia := Option.some.inj hread
    refine ⟨body, by decide +kernel, rfl, hmedia, fun h => ?_⟩
    have hnone := h.media
    rw [hmedia] at hnone
    cases hnone

end Sproyt
