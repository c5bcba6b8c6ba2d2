import Sproyt.Db.Messages
import Sproyt.Domain.Handle

/-!
# Mentions

A word of a body that starts with `@` mentions the members of the channel whose handle it is.
`Handle::new` lowers a text as a whole, where a capital sigma at the end of a word becomes `ς`.
The scanner lowers one character at a time, where it becomes `σ`.
-/

namespace Sproyt

open List Handle

theorem mem_mentionHandles {host : Host} {body : String} {handle : List Char} :
    handle ∈ mentionHandles host body ↔
      handle ≠ [] ∧ ∃ word, '@' :: word ∈ splitWhitespace body.toList ∧
        mentionHandle host word = handle := by
  rw [mentionHandles, mem_filter, decide_eq_true_eq, mem_filterMap]
  constructor
  · rintro ⟨⟨word, hword, hsome⟩, hne⟩
    split at hsome
    · next rest => exact ⟨hne, rest, hword, Option.some.inj hsome⟩
    · cases hsome
  · rintro ⟨hne, word, hword, rfl⟩
    exact ⟨⟨'@' :: word, hword, rfl⟩, hne⟩

/-! ### Two ways of lowering a text -/

/-- Does a text have a capital sigma at the end of a word? What comes before it is reversed. -/
def finalSigma (host : Host) : List Char → List Char → Bool
  | _, [] => false
  | before, c :: after =>
    (c == 'Σ' && host.endsWord before after) || finalSigma host (c :: before) after

variable {handle : Handle}

variable {host : Host} {cs before : List Char}

theorem flatMap_eq_lowercaseAfter_iff (h : Unicode host) (before cs : List Char) :
    cs.flatMap host.toLowercase = host.lowercaseAfter before cs ↔
      finalSigma host before cs = false := by
  induction cs generalizing before with
  | nil => exact iff_of_true rfl rfl
  | cons c cs ih =>
    rw [flatMap_cons, Host.lowercaseAfter, finalSigma, Bool.or_eq_false_iff, ← ih]
    by_cases hc : c = 'Σ'
    · subst hc
      rw [h.sigma, if_pos rfl, singleton_append, singleton_append, List.cons.injEq]
      refine and_congr_left fun _ => ?_
      cases host.endsWord before cs <;> decide
    · rw [if_neg hc, append_cancel_left_eq, beq_eq_false_iff_ne.2 hc, Bool.false_and]
      exact (and_iff_right rfl).symm

theorem mentionHandle_of_isHandleChar (hcs : ∀ c ∈ cs, isHandleChar host c = true) :
    mentionHandle host cs = cs.flatMap host.toLowercase := by
  have hfilter : cs.filter (isHandleChar host) = cs := filter_eq_self.2 hcs
  exact congrArg (List.flatMap host.toLowercase) hfilter

theorem mentionHandle_lowered (hl : handle.Lowered host) :
    mentionHandle host handle.text.toList = handle.text.toList := by
  rw [mentionHandle_of_isHandleChar hl.characters]
  conv_rhs => rw [← flatMap_singleton' handle.text.toList]
  exact flatMap_congr fun c hc => (hl.unchanged c hc).2

theorem isHandleChar_of_lowercaseAfter (h : Unicode host)
    (hcs : ∀ c ∈ host.lowercaseAfter before cs, isHandleChar host c = true) :
    ∀ c ∈ cs, isHandleChar host c = true := by
  induction cs generalizing before with
  | nil => exact fun c hc => absurd hc not_mem_nil
  | cons x xs ih =>
    rw [Host.lowercaseAfter] at hcs
    intro c hc
    rcases mem_cons.1 hc with rfl | hc
    · by_cases hsigma : c = 'Σ'
      · rw [hsigma, isHandleChar, h.capitalSigma]
        rfl
      · rw [if_neg hsigma] at hcs
        exact h.upper c fun d hd => hcs d (mem_append_left _ hd)
    · exact ih (fun d hd => hcs d (mem_append_right _ hd)) c hc

structure PlainHandle (host : Host) (word : List Char) : Prop where
  characters : ∀ c ∈ word, Handle.isHandleChar host c = true
  bounded : String.utf8Len word ≤ Handle.maxBytes
  sigma : finalSigma host [] word = false

theorem bare_of_not_isWhitespace {s : String} (hs : ∀ c ∈ s.toList, isWhitespace c = false) :
    Bare s :=
  ⟨fun c hc => hs c (mem_of_head? hc), fun c hc => hs c (mem_of_getLast? hc)⟩

theorem new_isHandleChar (h : Unicode host) {s : String}
    (hs : ∀ c ∈ s.toList, isWhitespace c = false) (hnew : new host s = .ok handle) :
    s ≠ "" ∧ s.utf8ByteSize ≤ maxBytes ∧ handle.text = host.lowercaseText s ∧
      ∀ c ∈ s.toList, isHandleChar host c = true := by
  obtain ⟨hne, hsize, htext, hcharacters⟩ := new_ok hnew
  rw [trim_of_bare (bare_of_not_isWhitespace hs)] at hne hsize htext
  rw [htext, Host.lowercaseText, String.toList_ofList] at hcharacters
  exact ⟨hne, hsize, htext, isHandleChar_of_lowercaseAfter h hcharacters⟩

/-- The two normalisations agree on a text that is validated if no capital sigma ends a word. -/
theorem mentionHandle_eq_iff (h : Unicode host) {s : String}
    (hs : ∀ c ∈ s.toList, isWhitespace c = false) (hnew : new host s = .ok handle) :
    mentionHandle host s.toList = handle.text.toList ↔ finalSigma host [] s.toList = false := by
  obtain ⟨-, -, htext, hcharacters⟩ := new_isHandleChar h hs hnew
  rw [mentionHandle_of_isHandleChar hcharacters, htext, Host.lowercaseText, String.toList_ofList]
  exact flatMap_eq_lowercaseAfter_iff h [] _

/-- A word that the scanner reads as a handle is validated to that handle if it is plain. -/
theorem new_word_iff (h : Unicode host)
    (hl : handle.Lowered host) (hword : ∀ c ∈ word, isWhitespace c = false)
    (hmention : mentionHandle host word = handle.text.toList) :
    new host (String.ofList word) = .ok handle ↔ PlainHandle host word := by
  have hspaces : ∀ c ∈ (String.ofList word).toList, isWhitespace c = false := by
    rw [String.toList_ofList]
    exact hword
  constructor
  · intro hnew
    obtain ⟨-, hsize, -, hcharacters⟩ := new_isHandleChar h hspaces hnew
    have hsigma := (mentionHandle_eq_iff h hspaces hnew).1
      (by rw [String.toList_ofList]; exact hmention)
    rw [String.toList_ofList] at hcharacters hsigma
    rw [String.utf8ByteSize_ofList] at hsize
    exact ⟨hcharacters, hsize, hsigma⟩
  · rintro ⟨hcharacters, hsize, hsigma⟩
    have hlower : host.lowercaseText (String.ofList word) = handle.text := by
      rw [Host.lowercaseText, String.toList_ofList,
        ← (flatMap_eq_lowercaseAfter_iff h [] word).2 hsigma,
        ← mentionHandle_of_isHandleChar hcharacters, hmention, String.ofList_toList]
    have hne : String.ofList word ≠ "" := by
      refine ofList_ne_empty ?_
      rintro rfl
      exact toList_ne_nil hl.nonEmpty hmention.symm
    have hbounded : boundedNonEmpty (String.ofList word) "handle" maxBytes =
        .ok (String.ofList word) := by
      rw [boundedNonEmpty, trim_of_bare (bare_of_not_isWhitespace hspaces), if_neg hne,
        if_neg (Nat.not_lt.2 (by rwa [String.utf8ByteSize_ofList]))]
    have hall : handle.text.toList.all (isHandleChar host) = true :=
      all_eq_true.2 hl.characters
    simp only [new, hbounded, hlower, hall, if_true]

/-! ### What is recorded -/

variable {m : ChatMessage}

/-- The mentions after `persist_mentions_sqlite` are the earlier ones and those of the members
that the body mentions. -/
theorem persistMentions_rows {db db' : Db}
    (h : (persistMentions host m).run db = .ok ((), db')) {r : MentionRow} :
    r ∈ db'.messageMentions ↔
      r ∈ db.messageMentions ∨ ∃ u ∈ db.mentioned host m, r = ⟨m.id, u.id⟩ := by
  have hdb : db' = { db with messageMentions := db.messageMentions ++
      ((db.mentioned host m).filter fun u => !db.messageMentions.any fun r =>
        r.messageId = m.id ∧ r.mentionedUserId = u.id).map fun u => ⟨m.id, u.id⟩ } := by
    simp only [persistMentions, Txn.write_ok] at h
    exact h.symm
  subst hdb
  rw [mem_append, mem_map]
  constructor
  · rintro (hr | ⟨u, hu, rfl⟩)
    · exact .inl hr
    · exact .inr ⟨u, (mem_filter.1 hu).1, rfl⟩
  · rintro (hr | ⟨u, hu, rfl⟩)
    · exact .inl hr
    · by_cases hold : (⟨m.id, u.id⟩ : MentionRow) ∈ db.messageMentions
      · exact .inl hold
      · refine .inr ⟨u, mem_filter.2 ⟨hu, ?_⟩, rfl⟩
        rw [Bool.not_eq_true', any_eq_false]
        rintro ⟨id, user⟩ hr heq
        obtain ⟨rfl, rfl⟩ := of_decide_eq_true heq
        exact hold hr

/-- Handles belong to people, who have them from `upsert_user` or from the migration that gave
out the first ones. -/
structure Db.HandlesKept (host : Host) (db : Db) : Prop where
  human : ∀ u ∈ db.users, u.handle ≠ none → u.kind = .human
  lowered : ∀ u ∈ db.users, ∀ handle : Handle, u.handle = some handle.text → handle.Lowered host

theorem mem_mentioned {db : Db} (h : db.HandlesKept host)
    {u : UserRow} : u ∈ db.mentioned host m ↔
      u ∈ db.users ∧ db.inChannel m.channelId u.id = true ∧
        ∃ handle : Handle, u.handle = some handle.text ∧
          handle.text.toList ∈ mentionHandles host m.body.text := by
  rw [Db.mentioned, mem_filter, decide_eq_true_eq, Option.any_eq_true]
  refine and_congr_right fun hu => ⟨?_, ?_⟩
  · rintro ⟨-, hmember, text, htext, hmention⟩
    have hl := h.lowered u hu ⟨text⟩ htext
    rw [decide_eq_true_eq] at hmention
    exact ⟨hmember, ⟨text⟩, htext, mentionHandle_lowered hl ▸ hmention⟩
  · rintro ⟨hmember, handle, hhandle, hmention⟩
    have hkind := h.human u hu (by rw [hhandle]; exact Option.some_ne_none _)
    refine ⟨hkind, hmember, handle.text, hhandle, decide_eq_true ?_⟩
    rw [mentionHandle_lowered (h.lowered u hu handle hhandle)]
    exact hmention

/-- A body may consist of one mention alone. -/
theorem exists_body_of_word {s : String} (hs : ∀ c ∈ s.toList, isWhitespace c = false)
    (hsize : s.utf8ByteSize ≤ Handle.maxBytes) :
    ∃ body : MessageBody, splitWhitespace body.text.toList = ['@' :: s.toList] := by
  have htext : ("@" ++ s).toList = '@' :: s.toList := String.toList_append
  have hbytes : ("@" ++ s).utf8ByteSize ≤ 64 * 1024 := by
    have hat : "@".utf8ByteSize = 1 := by decide
    have hmax : Handle.maxBytes = 80 := rfl
    rw [String.utf8ByteSize_append]
    omega
  have hbody : "@" ++ s ≠ "" := fun hempty => by
    rw [hempty] at htext
    cases htext
  refine ⟨⟨"@" ++ s, hbody, hbytes⟩, ?_⟩
  rw [htext]
  refine splitWhitespace_word ⟨cons_ne_nil _ _, fun c hc => ?_⟩
  rcases mem_cons.1 hc with rfl | hc
  · decide
  · exact hs c hc

/-- A mention by an arbitrary spelling of a handle reaches its owner, except where a capital
sigma ends a word. A member is recorded only if the scanner reads their handle in a word of the
body. Such a word is a spelling of the handle exactly if it is plain: the scanner also drops
characters that no handle has. -/
theorem mentions_resolve_handles {host : Host} (h : Unicode host) :
    (∀ (s : String) (handle : Handle), (∀ c ∈ s.toList, isWhitespace c = false) →
      Handle.new host s = .ok handle →
      ((∀ body : MessageBody, '@' :: s.toList ∈ splitWhitespace body.text.toList →
          handle.text.toList ∈ mentionHandles host body.text) ↔
        finalSigma host [] s.toList = false)) ∧
    ∀ (m : ChatMessage) (db db' : Db), db.HandlesKept host →
      (persistMentions host m).run db = .ok ((), db') →
      (∀ u ∈ db.users, ∀ handle : Handle, db.inChannel m.channelId u.id = true →
        u.handle = some handle.text → handle.text.toList ∈ mentionHandles host m.body.text →
        ⟨m.id, u.id⟩ ∈ db'.messageMentions) ∧
      ∀ r ∈ db'.messageMentions, r ∉ db.messageMentions →
        r.messageId = m.id ∧ ∃ u ∈ db.users, u.id = r.mentionedUserId ∧
          db.inChannel m.channelId u.id = true ∧ ∃ handle : Handle, u.handle = some handle.text ∧
            (∃ word, '@' :: word ∈ splitWhitespace m.body.text.toList ∧
              mentionHandle host word = handle.text.toList) ∧
            ∀ word, '@' :: word ∈ splitWhitespace m.body.text.toList →
              mentionHandle host word = handle.text.toList →
              (Handle.new host (String.ofList word) = .ok handle ↔ PlainHandle host word) := by
  refine ⟨fun s handle hs hnew => ?_, fun m db db' hkept hrun => ⟨?_, ?_⟩⟩
  · obtain ⟨-, hsize, -, -⟩ := new_isHandleChar h hs hnew
    rw [← mentionHandle_eq_iff h hs hnew]
    constructor
    · intro hall
      obtain ⟨body, hword⟩ := exists_body_of_word hs hsize
      have hmem := hall body (by rw [hword]; exact mem_singleton_self _)
      obtain ⟨-, word, hmem, heq⟩ := mem_mentionHandles.1 hmem
      rw [hword, mem_singleton, List.cons.injEq] at hmem
      rw [← heq, hmem.2]
    · exact fun heq body hword => mem_mentionHandles.2
        ⟨Handle.toList_ne_nil (Handle.new_lowered h hnew).nonEmpty, s.toList, hword, heq⟩
  · exact fun u hu handle hmember hhandle hmention => (persistMentions_rows hrun).2
      (.inr ⟨u, (mem_mentioned hkept).2 ⟨hu, hmember, handle, hhandle, hmention⟩, rfl⟩)
  · intro r hr hnew
    rcases (persistMentions_rows hrun).1 hr with hr | ⟨u, hu, rfl⟩
    · exact absurd hr hnew
    · obtain ⟨hu, hmember, handle, hhandle, hmention⟩ := (mem_mentioned hkept).1 hu
      refine ⟨rfl, u, hu, rfl, hmember, handle, hhandle, (mem_mentionHandles.1 hmention).2,
        fun word hword heq => ?_⟩
      have hspaces : ∀ c ∈ word, isWhitespace c = false := fun c hc =>
        (isWord_of_mem hword).solid c (mem_cons_of_mem _ hc)
      exact new_word_iff h (hkept.lowered u hu handle hhandle) hspaces heq

namespace Sample

def sigmaHandle : Handle := ⟨"ας"⟩

def sigmaDb : Db :=
  { Db.empty with
    users := [⟨alice, .human, aliceName, some "ας"⟩]
    channelMemberships := [⟨room, alice, .member, 0⟩] }

def mentioning (body : MessageBody) : ChatMessage :=
  ⟨⟨20⟩, room, none, bob, bobName, body, 1, 0, none, none⟩

def smallMention : MessageBody := ⟨"Hei @ας", by decide, by decide⟩

def capitalMention : MessageBody := ⟨"Hei @ΑΣ", by decide, by decide⟩

theorem sigmaDb_handlesKept : sigmaDb.HandlesKept unicodeHost where
  human := by
    intro u hu _
    rw [mem_singleton.1 hu]
  lowered := by
    intro u hu handle hhandle
    rw [mem_singleton.1 hu] at hhandle
    have hnew : new unicodeHost "ΑΣ" = .ok sigmaHandle := by decide +kernel
    obtain rfl : handle = sigmaHandle := congrArg Handle.mk (Option.some.inj hhandle).symm
    exact new_lowered unicodeHost_unicode hnew

end Sample

/-- A member who is mentioned in small letters. -/
theorem sample_mentions_resolve_handles :
    finalSigma Sample.unicodeHost [] "ας".toList = false ∧
      ∃ db, (persistMentions Sample.unicodeHost (Sample.mentioning Sample.smallMention)).run
          Sample.sigmaDb = .ok ((), db) ∧
        ⟨⟨20⟩, Sample.alice⟩ ∈ db.messageMentions := by
  obtain ⟨hspelling, hrecord⟩ := mentions_resolve_handles Sample.unicodeHost_unicode
  have hsigma : finalSigma Sample.unicodeHost [] "ας".toList = false := by decide +kernel
  have hmention := (hspelling "ας" Sample.sigmaHandle (by decide) (by decide +kernel)).2 hsigma
    Sample.smallMention (by decide +kernel)
  refine ⟨hsigma, _, rfl, ?_⟩
  exact (hrecord (Sample.mentioning Sample.smallMention) Sample.sigmaDb _
    Sample.sigmaDb_handlesKept rfl).1 _ (mem_singleton_self _) Sample.sigmaHandle rfl rfl
    hmention

/-- The capital spelling of the same handle is not read as the handle, and nobody is recorded. -/
theorem capital_mention_is_lost :
    Handle.new Sample.unicodeHost "ΑΣ" = .ok Sample.sigmaHandle ∧
      '@' :: "ΑΣ".toList ∈ splitWhitespace Sample.capitalMention.text.toList ∧
      Sample.sigmaHandle.text.toList ∉
        mentionHandles Sample.unicodeHost Sample.capitalMention.text ∧
      ∃ db, (persistMentions Sample.unicodeHost (Sample.mentioning Sample.capitalMention)).run
          Sample.sigmaDb = .ok ((), db) ∧ db.messageMentions = [] :=
  ⟨by decide +kernel, by decide +kernel, by decide +kernel, _, rfl, by decide +kernel⟩

end Sproyt
