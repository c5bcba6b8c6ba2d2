import Sproyt.Db.Numbering
import Sproyt.Db.Rewriting

/-!
# The personal space of a user

A personal space has a note, which clients write under the revision they have read, and a log of
saved messages. Below, clients of any number of users read and write notes, save messages and
delete messages, in any order.
-/

namespace Sproyt

open List Txn

structure PersonalNote where
  markdown : String
  revision : Int
deriving DecidableEq

def PersonalSpaceRow.note (r : PersonalSpaceRow) : PersonalNote := ⟨r.noteMarkdown, r.noteRevision⟩

def Db.note? (db : Db) (owner : UserId) : Option PersonalNote :=
  (db.personalSpaces.find? fun r => r.ownerId = owner).map (·.note)

def personalNote (owner : UserId) : Sql PersonalNote := do
  let note ← Txn.read fun db => db.note? owner
  Txn.demand note .notFound

def PersonalSpaceRow.expects (owner : UserId) (note : PersonalNote) (r : PersonalSpaceRow) : Bool :=
  r.ownerId = owner ∧ r.noteRevision = note.revision

def PersonalSpaceRow.write (note : PersonalNote) (r : PersonalSpaceRow) : PersonalSpaceRow :=
  { r with noteMarkdown := note.markdown, noteRevision := r.noteRevision + 1 }

/-- `update personal_spaces … where owner_id = ? and note_revision = ? returning note_revision`. -/
def savePersonalNote (owner : UserId) (note : PersonalNote) : Sql PersonalNote := do
  let row ← Txn.read fun db => db.personalSpaces.find? (·.expects owner note)
  Txn.write fun db =>
    { db with personalSpaces := db.personalSpaces.map fun r =>
        if r.expects owner note then r.write note else r }
  let row ← Txn.demand row .conflict
  pure { note with revision := (row.write note).noteRevision }

namespace Desk

def UniqueSpaces (db : Db) : Prop := (db.personalSpaces.map (·.ownerId)).Nodup

/-- `unique (owner_id, source_message_id)`. -/
def UniqueLinks (db : Db) : Prop :=
  (db.personalSavedLinks.map fun r => (r.ownerId, r.sourceMessageId)).Nodup

variable {db db' : Db} {owner : UserId} {source : MessageId} {note : PersonalNote}

theorem personalNote_ok :
    (personalNote owner).run db = .ok (note, db') ↔ db.note? owner = some note ∧ db' = db := by
  simp only [personalNote, answers]
  exact and_congr_right fun _ => eq_comm

/-- A save that answers has replaced the note of the revision it names by the next one. -/
theorem savePersonalNote_ok {note saved : PersonalNote} (hdb : UniqueSpaces db)
    (h : (savePersonalNote owner note).run db = .ok (saved, db')) :
    saved = ⟨note.markdown, note.revision + 1⟩ ∧
      (∃ old, db.note? owner = some old ∧ old.revision = note.revision) ∧
      db'.note? owner = some saved ∧ (∀ other, other ≠ owner → db'.note? other = db.note? other) ∧
      db' = { db with personalSpaces := db'.personalSpaces } ∧ UniqueSpaces db' := by
  simp only [savePersonalNote, answers] at h
  obtain ⟨row, hfind, rfl, rfl⟩ := h
  have hmem := mem_of_find?_eq_some hfind
  have hexpects := find?_some hfind
  obtain ⟨hid, hrevision⟩ : row.ownerId = owner ∧ row.noteRevision = note.revision := by
    simpa [PersonalSpaceRow.expects] using hexpects
  have hsame : ∀ r : PersonalSpaceRow,
      (if r.expects owner note then r.write note else r).ownerId = r.ownerId := by
    intro r
    split
    · rfl
    · rfl
  -- The row is the one that is found by its owner.
  have hrow : db.personalSpaces.find? (fun r => r.ownerId = owner) = some row := by
    subst hid
    exact Table.find?_of_mem hdb hmem
  have hafter : ∀ other, (db.personalSpaces.map fun r =>
      if r.expects owner note then r.write note else r).find? (fun r => r.ownerId = other) =
      (db.personalSpaces.find? fun r => r.ownerId = other).map fun r =>
        if r.expects owner note then r.write note else r := by
    intro other
    apply Table.find?_map_same
    intro r
    rw [hsame]
  refine ⟨?_, ⟨row.note, ?_, hrevision⟩, ?_, ?_, rfl, ?_⟩
  · simp [PersonalSpaceRow.write, hrevision]
  · rw [Db.note?, hrow]
    rfl
  · rw [Db.note?, hafter, hrow]
    simp [hexpects, PersonalSpaceRow.write, PersonalSpaceRow.note]
  · intro other hne
    rw [Db.note?, hafter, Db.note?]
    cases hother : db.personalSpaces.find? fun r => r.ownerId = other with
    | none => rfl
    | some r =>
      have hr : r.ownerId = other := by simpa using find?_some hother
      have hnot : r.expects owner note = false := by
        simp [PersonalSpaceRow.expects, hr, hne]
      simp [hnot]
  · unfold UniqueSpaces
    rw [Table.map_key_map hsame]
    exact hdb

/-! ### Saved messages -/

variable {row : PersonalSavedLinkRow} {env : LinkEnv} {o : Option MessageId} {m : ChatMessage}

theorem bare_bracketed {link thread : String} :
    Bare ("[[[Lagra melding](" ++ link ++ thread ++ ")]]") := by
  have hopen : "[[[Lagra melding](".toList = '[' :: "[[Lagra melding](".toList := rfl
  have hclose : ")]]".toList = ")]".toList ++ [']'] := rfl
  constructor
  · intro c hc
    rw [String.toList_append, String.toList_append, String.toList_append, hopen] at hc
    cases hc
    rfl
  · intro c hc
    rw [String.toList_append, hclose, ← append_assoc, getLast?_concat] at hc
    cases hc
    rfl

theorem trim_personalLinkText : trim (personalLinkText m) = personalLinkText m :=
  trim_of_bare (bare_bracketed)

theorem openPersonalSpace_opens {id : ChannelId} {ch : Channel}
    (h : (openPersonalSpace owner id).run db = .ok (ch, db')) :
    db'.messages = db.messages ∧ db'.personalSavedLinks = db.personalSavedLinks ∧
      (db'.personalSpaces = db.personalSpaces ∨ (∀ r ∈ db.personalSpaces, r.ownerId ≠ owner) ∧
        db'.personalSpaces = db.personalSpaces ++ [{ ownerId := owner, channelId := id }]) := by
  simp only [openPersonalSpace, answers] at h
  replace h := h.2
  split at h
  · obtain ⟨-, rfl⟩ := pure_ok.1 h
    exact ⟨rfl, rfl, .inl rfl⟩
  · simp only [createPersonalSpace, Sql.insertNumberedChannel, Sql.insertChannel,
      Sql.insertChannelSequence, Sql.insertMembership, Sql.insertPersonalSpace, Sql.answers,
      answers] at h
    obtain ⟨-, -, -, -, -, -, hfree, -, -, rfl⟩ := h
    refine ⟨rfl, rfl, .inr ⟨fun r hr heq => ?_, rfl⟩⟩
    have hnone := any_eq_false.1 hfree r hr
    simp [heq] at hnone

/-- The row of a link is written under its key and the other rows stay. -/
theorem mem_upsertLink {r : PersonalSavedLinkRow} (hr : r ∈ db.personalSavedLinks)
    (hne : ¬ (r.ownerId = row.ownerId ∧ r.sourceMessageId = row.sourceMessageId)) :
    r ∈ (upsertLink row db).personalSavedLinks := by
  unfold upsertLink
  split
  · exact mem_map.2 ⟨r, hr, if_neg hne⟩
  · exact mem_append_left _ hr

theorem upsertLink_self :
    ∃ r ∈ (upsertLink row db).personalSavedLinks, r.ownerId = row.ownerId ∧
      r.sourceMessageId = row.sourceMessageId ∧ r.logMessageId = row.logMessageId := by
  unfold upsertLink
  split
  · next hany =>
    obtain ⟨r, hr, hkey⟩ := any_eq_true.1 hany
    rw [decide_eq_true_eq] at hkey
    exact ⟨_, mem_map.2 ⟨r, hr, if_pos hkey⟩, hkey.1, hkey.2, rfl⟩
  · exact ⟨row, mem_append_right _ (mem_singleton_self row), rfl, rfl, rfl⟩

theorem upsertLink_unique (row : PersonalSavedLinkRow) (hdb : UniqueLinks db) :
    UniqueLinks (upsertLink row db) := by
  unfold upsertLink UniqueLinks
  split
  · rw [Table.map_key_map]
    · exact hdb
    · intro r
      split
      · rfl
      · rfl
  · next hany =>
    refine Table.nodup_append_single hdb fun r hr heq => hany ?_
    refine any_eq_true.2 ⟨r, hr, ?_⟩
    simpa using heq

theorem upsertLink_messages : (upsertLink row db).messages = db.messages := by
  unfold upsertLink
  split
  · rfl
  · rfl

theorem upsertLink_personalSpaces : (upsertLink row db).personalSpaces = db.personalSpaces := by
  unfold upsertLink
  split
  · rfl
  · rfl

theorem upsertLink_links (h : db'.personalSavedLinks = db.personalSavedLinks) :
    (upsertLink row db').personalSavedLinks = (upsertLink row db).personalSavedLinks := by
  unfold upsertLink
  rw [h]
  split
  · rfl
  · rfl

theorem storageText_ok {α : Type} {r : Except TextValidationError α} {a : α}
    (h : storageText r = .ok a) : r = .ok a := by
  cases r with
  | error e => cases h
  | ok b => rw [← Except.ok.inj h]

structure LogsLink (db : Db) (owner : UserId) (source m : ChatMessage) (db' : Db) : Prop where
  found : source ∈ db.messages
  text : m.body.text = personalLinkText source
  live : m.deletedAt = none
  fresh : ∀ r ∈ db.messages, r.id ≠ m.id
  messages : db'.messages = db.messages ++ [m]
  unsaved : db.hasLiveLink owner source.id = false
  links : ∃ row, row.ownerId = owner ∧ row.sourceMessageId = source.id ∧
    row.logMessageId = some m.id ∧
    db'.personalSavedLinks = (upsertLink row db).personalSavedLinks

theorem savePersonalLink_ok (h : (savePersonalLink owner source env).run db = .ok (o, db')) :
    (db'.personalSpaces = db.personalSpaces ∨ (∀ r ∈ db.personalSpaces, r.ownerId ≠ owner) ∧
      db'.personalSpaces =
        db.personalSpaces ++ [{ ownerId := owner, channelId := env.channelId }]) ∧
    (o = none ∧ db'.messages = db.messages ∧ db'.personalSavedLinks = db.personalSavedLinks ∨
      ∃ src m, src.id = source ∧ o = some m.id ∧ LogsLink db owner src m db') := by
  simp only [savePersonalLink, answers] at h
  obtain ⟨ch, db₁, hopen, src, hfind, h⟩ := h
  obtain ⟨hmessages, hlinks, hspaces⟩ := openPersonalSpace_opens hopen
  obtain ⟨hmem, hid⟩ : src ∈ db.messages ∧ src.id = source := by
    refine ⟨hmessages ▸ mem_of_find?_eq_some hfind, ?_⟩
    have hsrc := find?_some hfind
    rw [decide_eq_true_eq] at hsrc
    exact hsrc.1
  split at h
  · obtain ⟨rfl, rfl⟩ := pure_ok.1 h
    exact ⟨hspaces, .inl ⟨rfl, hmessages, hlinks⟩⟩
  · next hlive =>
    simp only [logLink, Sql.bumpSequence, senderName, Sql.insertMessage, Sql.answers, answers] at h
    obtain ⟨body, hbody, sequence, -, row, -, hfree, -, rfl, rfl⟩ := h
    have hnew : ∀ r ∈ db.messages, r.id ≠ env.messageId := by
      intro r hr heq
      have hnone := any_eq_false.1 hfree r (hmessages ▸ hr)
      simp [heq] at hnone
    refine ⟨?_, .inr ⟨src, ⟨env.messageId, ch.id, none, owner, row.displayName, body, sequence,
      env.now, none, none⟩, hid, rfl, hmem, ?_, rfl, hnew, ?_, ?_,
      ⟨env.linkId, owner, src.channelId, src.id, some env.messageId, env.now⟩, rfl, rfl, rfl, ?_⟩⟩
    · rw [upsertLink_personalSpaces]
      exact hspaces
    · rw [MessageBody.new_text (storageText_ok hbody), trim_personalLinkText]
    · rw [upsertLink_messages, hmessages]
    · rw [Db.hasLiveLink, hmessages, hlinks] at hlive
      rw [hid]
      exact Bool.eq_false_iff.2 hlive
    · exact upsertLink_links hlinks

/-! ### Clients at work -/

structure Client where
  owner : UserId
  window : Nat

inductive Event
  | read (client : Client) (answer : Except RepositoryError PersonalNote)
  | saved (client : Client) (note : PersonalNote) (answer : Except RepositoryError PersonalNote)
  | linked (owner : UserId) (source : MessageId)
      (answer : Except RepositoryError (Option MessageId))
  | deleted

inductive Step : Db → Event → Db → Prop
  | read (db : Db) (client : Client) :
      Step db (.read client ((personalNote client.owner).commit db).1)
        ((personalNote client.owner).commit db).2
  | save (db : Db) (client : Client) (note : PersonalNote) :
      Step db (.saved client note ((savePersonalNote client.owner note).commit db).1)
        ((savePersonalNote client.owner note).commit db).2
  | link (db : Db) (owner : UserId) (source : MessageId) (env : LinkEnv) :
      Step db (.linked owner source ((savePersonalLink owner source env).commit db).1)
        ((savePersonalLink owner source env).commit db).2
  | delete (db : Db) (command : DeleteMessage) (now : Time) :
      Step db .deleted ((deleteMessage command now).commit db).2

def Event.Shows (client : Client) (note : PersonalNote) : Event → Prop
  | .read c answer => c = client ∧ answer = .ok note
  | .saved c _ answer => c = client ∧ answer = .ok note
  | .linked _ _ _ => False
  | .deleted => False

def Shown (past : List Event) (client : Client) (note : PersonalNote) : Prop :=
  ∃ e ∈ past, e.Shows client note

def Logged (past : List Event) (owner : UserId) (source id : MessageId) : Prop :=
  .linked owner source (.ok (some id)) ∈ past

/-- What the tables say about the answers so far. A note that was shown is the stored one unless
that has a later revision, and a log entry that is alive is the one its link names. -/
structure Kept (past : List Event) (db : Db) : Prop where
  spaces : UniqueSpaces db
  messages : UniqueMessages db
  links : UniqueLinks db
  shown : ∀ client note, Shown past client note → ∃ stored, db.note? client.owner = some stored ∧
    note.revision ≤ stored.revision ∧ (note.revision = stored.revision → note = stored)
  logged : ∀ owner source id, Logged past owner source id → ∃ m ∈ db.messages, m.id = id ∧
    (m.deletedAt = none →
      (∃ r ∈ db.personalSavedLinks, r.ownerId = owner ∧ r.sourceMessageId = source ∧
        r.logMessageId = some id) ∧
      ∃ src ∈ db.messages, src.id = source ∧ m.body.text = personalLinkText src)

variable {past : List Event} {e : Event} {client : Client}

theorem shown_append :
    Shown (past ++ [e]) client note ↔ Shown past client note ∨ e.Shows client note := by
  simp [Shown, or_and_right, exists_or]

theorem logged_append {id : MessageId} :
    Logged (past ++ [e]) owner source id ↔
      Logged past owner source id ∨ e = .linked owner source (.ok (some id)) := by
  simp [Logged, eq_comm]

def Opens (owner : UserId) (db db' : Db) : Prop :=
  db'.personalSpaces = db.personalSpaces ∨ (∀ r ∈ db.personalSpaces, r.ownerId ≠ owner) ∧
    ∃ id, db'.personalSpaces = db.personalSpaces ++ [{ ownerId := owner, channelId := id }]

theorem Opens.note? (h : Opens owner db db') {other : UserId}
    (hnote : db.note? other = some note) : db'.note? other = some note := by
  rcases h with h | ⟨-, id, h⟩
  · rw [Db.note?, h]
    exact hnote
  · obtain ⟨row, hrow, rfl⟩ := Option.map_eq_some_iff.1 hnote
    rw [Db.note?, h, find?_append, hrow]
    rfl

theorem Opens.unique (h : Opens owner db db') (hdb : UniqueSpaces db) : UniqueSpaces db' := by
  unfold UniqueSpaces
  rcases h with h | ⟨hnone, id, h⟩
  · rw [h]
    exact hdb
  · rw [h]
    exact Table.nodup_append_single hdb hnone

theorem rewritten_source {row x : ChatMessage} (h : Rewritten db row m db')
    (hdb : UniqueMessages db) (hx : x ∈ db.messages) :
    ∃ y ∈ db'.messages, y.id = x.id ∧ personalLinkText y = personalLinkText x := by
  rw [h.messages]
  by_cases hid : x.id = m.id
  · have hrow := Table.eq_of_key_eq hdb hx h.found (hid.trans h.id_eq)
    refine ⟨m, Table.mem_set_self ⟨x, hx, hid⟩, hid.symm, ?_⟩
    rw [hrow, h.same]
    rfl
  · exact ⟨x, Table.mem_set_of_ne hx hid, rfl, rfl⟩

namespace Kept

section

variable (h : Kept past db)

include h

theorem quiet (hshow : ∀ client note, e.Shows client note → db.note? client.owner = some note)
    (hlog : ∀ owner source id, e ≠ .linked owner source (.ok (some id))) :
    Kept (past ++ [e]) db := by
  refine ⟨h.spaces, h.messages, h.links, fun client note hs => ?_, fun owner source id hl => ?_⟩
  · rcases shown_append.1 hs with hs | hs
    · exact h.shown client note hs
    · exact ⟨note, hshow client note hs, Int.le_refl _, fun _ => rfl⟩
  · rcases logged_append.1 hl with hl | hl
    · exact h.logged owner source id hl
    · exact (hlog owner source id hl).elim

theorem saved {note stored : PersonalNote}
    (hrun : (savePersonalNote client.owner note).run db = .ok (stored, db')) :
    Kept (past ++ [.saved client note (.ok stored)]) db' := by
  obtain ⟨rfl, ⟨old, hold, hrevision⟩, hnote, hother, hrest, hunique⟩ :=
    savePersonalNote_ok h.spaces hrun
  rw [hrest] at hunique ⊢
  refine ⟨hunique, h.messages, h.links, fun c n hs => ?_, fun owner source id hl => ?_⟩
  · rw [← hrest]
    rcases shown_append.1 hs with hs | ⟨rfl, htold⟩
    · obtain ⟨s, hs, hle, heq⟩ := h.shown c n hs
      by_cases hc : c.owner = client.owner
      · -- What was shown before is older than the new revision.
        rw [hc, hold] at hs
        cases hs
        refine ⟨_, hc ▸ hnote, ?_, ?_⟩
        · show n.revision ≤ note.revision + 1
          omega
        · intro hsame
          replace hsame : n.revision = note.revision + 1 := hsame
          omega
      · exact ⟨s, (hother _ hc).trans hs, hle, heq⟩
    · rw [← Except.ok.inj htold]
      exact ⟨_, hnote, Int.le_refl _, fun _ => rfl⟩
  · rcases logged_append.1 hl with hl | hl
    · exact h.logged owner source id hl
    · cases hl

theorem linked (hrun : (savePersonalLink owner source env).run db = .ok (o, db')) :
    Kept (past ++ [.linked owner source (.ok o)]) db' := by
  obtain ⟨hspaces, heffect⟩ := savePersonalLink_ok hrun
  have hopens : Opens owner db db' := hspaces.imp_right fun ⟨hnone, heq⟩ => ⟨hnone, _, heq⟩
  have hshown : ∀ c n, Shown (past ++ [.linked owner source (.ok o)]) c n →
      ∃ stored, db'.note? c.owner = some stored ∧ n.revision ≤ stored.revision ∧
        (n.revision = stored.revision → n = stored) := by
    intro c n hs
    rcases shown_append.1 hs with hs | hs
    · obtain ⟨stored, hstored, hrest⟩ := h.shown c n hs
      exact ⟨stored, hopens.note? hstored, hrest⟩
    · exact hs.elim
  rcases heffect with ⟨rfl, hmessages, hlinks⟩ | ⟨src, m, rfl, rfl, hlogs⟩
  · refine ⟨hopens.unique h.spaces, ?_, ?_, hshown, fun owner' source' id hl => ?_⟩
    · unfold UniqueMessages
      rw [hmessages]
      exact h.messages
    · unfold UniqueLinks
      rw [hlinks]
      exact h.links
    · rw [hmessages, hlinks]
      rcases logged_append.1 hl with hl | hl
      · exact h.logged owner' source' id hl
      · cases hl
  · obtain ⟨row, howner, hsource, hlog, hrows⟩ := hlogs.links
    refine ⟨hopens.unique h.spaces, ?_, ?_, hshown, fun owner' source' id hl => ?_⟩
    · unfold UniqueMessages
      rw [hlogs.messages]
      exact Table.nodup_append_single h.messages hlogs.fresh
    · have hunique := upsertLink_unique row h.links
      unfold UniqueLinks at hunique ⊢
      rw [hrows]
      exact hunique
    · rw [hlogs.messages, hrows]
      rcases logged_append.1 hl with hl | hl
      · obtain ⟨x, hx, rfl, hlive⟩ := h.logged owner' source' id hl
        refine ⟨x, mem_append_left _ hx, rfl, fun halive => ?_⟩
        obtain ⟨⟨r, hr, hro, hrs, hrl⟩, src', hsrc', hid', htext⟩ := hlive halive
        refine ⟨⟨r, mem_upsertLink hr ?_, hro, hrs, hrl⟩, src', mem_append_left _ hsrc', hid',
          htext⟩
        -- A live entry for this source would have ended the call.
        rintro ⟨hsameOwner, hsameSource⟩
        have hfalse := any_eq_false.1 hlogs.unsaved r hr
        rw [decide_eq_true_eq] at hfalse
        refine hfalse ⟨hsameOwner.trans howner, hsameSource.trans hsource, ?_⟩
        rw [hrl]
        simpa using ⟨x, hx, rfl, halive⟩
      · cases hl
        obtain ⟨r, hr, hro, hrs, hrl⟩ := upsertLink_self
        exact ⟨m, mem_append_right _ (mem_singleton_self m), rfl, fun _ =>
          ⟨⟨r, hr, hro.trans howner, hrs.trans hsource, hrl.trans hlog⟩, src,
            mem_append_left _ hlogs.found, rfl, hlogs.text⟩⟩

theorem deleted {command : DeleteMessage} {now : Time}
    (hrun : (deleteMessage command now).run db = .ok (m, db')) : Kept (past ++ [.deleted]) db' := by
  obtain ⟨row, hrewritten, -, hm, rfl⟩ := deleteMessage_ok hrun
  refine ⟨h.spaces, hrewritten.unique h.messages, h.links, fun client note hs => ?_,
    fun owner source id hl => ?_⟩
  · rcases shown_append.1 hs with hs | hs
    · exact h.shown client note hs
    · exact hs.elim
  · rcases logged_append.1 hl with hl | hl
    · obtain ⟨x, hx, rfl, hlive⟩ := h.logged owner source id hl
      by_cases hsame : x.id = m.id
      · -- The entry itself is deleted.
        refine ⟨m, Table.mem_set_self ⟨x, hx, hsame⟩, hsame.symm, fun halive => ?_⟩
        rw [hm] at halive
        cases halive
      · refine ⟨x, Table.mem_set_of_ne hx hsame, rfl, fun halive => ?_⟩
        obtain ⟨hlink, src, hsrc, hid, htext⟩ := hlive halive
        obtain ⟨src', hsrc', hid', htext'⟩ := rewritten_source hrewritten h.messages hsrc
        exact ⟨hlink, src', hsrc', hid'.trans hid, htext.trans htext'.symm⟩
    · cases hl

theorem step (hstep : Step db e db') : Kept (past ++ [e]) db' := by
  cases hstep with
  | read client =>
    rcases commit_cases (personalNote client.owner) db with ⟨note, db', hrun, hc⟩ | ⟨e, -, hc⟩
    · rw [hc]
      obtain ⟨hnote, rfl⟩ := personalNote_ok.1 hrun
      refine h.quiet ?_ fun _ _ _ heq => by cases heq
      rintro _ _ ⟨rfl, htold⟩
      rw [← Except.ok.inj htold]
      exact hnote
    · rw [hc]
      refine h.quiet ?_ fun _ _ _ heq => by cases heq
      rintro _ _ ⟨rfl, htold⟩
      cases htold
  | save client note =>
    rcases commit_cases (savePersonalNote client.owner note) db with
      ⟨stored, db', hrun, hc⟩ | ⟨e, -, hc⟩
    · rw [hc]
      exact h.saved hrun
    · rw [hc]
      refine h.quiet ?_ fun _ _ _ heq => by cases heq
      rintro _ _ ⟨rfl, htold⟩
      cases htold
  | link owner source env =>
    rcases commit_cases (savePersonalLink owner source env) db with
      ⟨o, db', hrun, hc⟩ | ⟨e, -, hc⟩
    · rw [hc]
      exact h.linked hrun
    · rw [hc]
      exact h.quiet (fun _ _ hs => hs.elim) fun _ _ _ heq => by cases heq
  | delete command now =>
    rcases commit_cases (deleteMessage command now) db with ⟨m, db', hrun, hc⟩ | ⟨e, -, hc⟩
    · rw [hc]
      exact h.deleted hrun
    · rw [hc]
      exact h.quiet (fun _ _ hs => hs.elim) fun _ _ _ heq => by cases heq

end

end Kept

/-- Whatever the clients do: a save is committed only over the revision it names, which is the
note its client was shown, and makes it the next one; and of the log entries of one message in
one personal space at most one is alive, with a text that links to the message. -/
theorem personal_spaces_are_consistent (hspaces : UniqueSpaces db)
    (hmessages : UniqueMessages db) (hlinks : db.personalSavedLinks = [])
    (hrun : Run Step db past db') :
    (∀ client note answer db'', Step db' (.saved client note answer) db'' →
      (∀ saved, answer = .ok saved → ∃ old, db'.note? client.owner = some old ∧
        old.revision = note.revision ∧ saved = ⟨note.markdown, note.revision + 1⟩ ∧
        db''.note? client.owner = some saved ∧
        ∀ seen, Shown past client seen → seen.revision = note.revision → seen = old) ∧
      ∀ e, answer = .error e → db'' = db') ∧
    ∀ owner source id, Logged past owner source id →
      ∀ m ∈ db'.messages, m.id = id → m.deletedAt = none →
        (∃ src ∈ db'.messages, src.id = source ∧ m.body.text = personalLinkText src) ∧
        ∀ id', Logged past owner source id' →
          ∀ m' ∈ db'.messages, m'.id = id' → m'.deletedAt = none → m' = m := by
  have hstart : Kept [] db := by
    refine ⟨hspaces, hmessages, ?_, ?_, ?_⟩
    · rw [UniqueLinks, hlinks]
      exact nodup_nil
    · rintro _ _ ⟨e, he, -⟩
      cases he
    · intro _ _ _ hl
      cases hl
  have hkept : Kept past db' := hrun.history (P := Kept) (fun _ _ _ _ hk hst => hk.step hst) hstart
  constructor
  · intro client note answer db'' hstep
    cases hstep with
    | save _ _ =>
      rcases commit_cases (savePersonalNote client.owner note) db' with
        ⟨stored, db₁, hrun, hc⟩ | ⟨e, -, hc⟩
      · rw [hc]
        refine ⟨fun saved heq => ?_, fun e heq => by cases heq⟩
        cases heq
        obtain ⟨rfl, ⟨old, hold, hrevision⟩, hnote, -⟩ := savePersonalNote_ok hkept.spaces hrun
        refine ⟨old, hold, hrevision, rfl, hnote, fun seen hseen hsame => ?_⟩
        obtain ⟨stored, hstored, -, heq⟩ := hkept.shown client seen hseen
        rw [hold] at hstored
        cases hstored
        exact heq (hsame.trans hrevision.symm)
      · rw [hc]
        exact ⟨fun saved heq => (by cases heq), fun _ _ => rfl⟩
  · intro owner source id hl m hm hid halive
    obtain ⟨x, hx, hxid, hlive⟩ := hkept.logged owner source id hl
    have hxm := Table.eq_of_key_eq hkept.messages hx hm (hxid.trans hid.symm)
    subst hxm
    obtain ⟨⟨r, hr, hro, hrs, hrl⟩, hsource⟩ := hlive halive
    refine ⟨hsource, fun id' hl' m' hm' hid' halive' => ?_⟩
    obtain ⟨y, hy, hyid, hlive'⟩ := hkept.logged owner source id' hl'
    have hym := Table.eq_of_key_eq hkept.messages hy hm' (hyid.trans hid'.symm)
    subst hym
    obtain ⟨⟨r', hr', hro', hrs', hrl'⟩, -⟩ := hlive' halive'
    -- Both entries are the one that the link of this source names.
    have hrow := Table.eq_of_key_eq hkept.links hr' hr (by rw [hro', hro, hrs', hrs])
    rw [hrow, hrl] at hrl'
    refine Table.eq_of_key_eq hkept.messages hy hx ?_
    rw [hyid, hxid, Option.some.inj hrl']

/-! ### A saved message and a first note -/

def proposal : ChatMessage :=
  ⟨⟨20⟩, Sample.room, none, Sample.alice, Sample.aliceName, Sample.hello, 1, 0, none, none⟩

def desk : Db := { Sample.chat with messages := [proposal] }

def linkEnv : LinkEnv := ⟨⟨30⟩, ⟨31⟩, 32, 5⟩

def linkedDesk : Db := ((savePersonalLink Sample.alice ⟨20⟩ linkEnv).commit desk).2

def window : Client := ⟨Sample.alice, 0⟩

def shopping : PersonalNote := ⟨"Mjølk", 0⟩

theorem Step.read_of_note (h : db.note? client.owner = some note) :
    Step db (.read client (.ok note)) db := by
  have hstep := Step.read db client
  rwa [commit_eq_ok.2 (personalNote_ok.2 ⟨h, rfl⟩)] at hstep

theorem first_note_is_saved :
    let past := [.linked Sample.alice ⟨20⟩ (.ok (some ⟨31⟩)), .read window (.ok ⟨"", 0⟩)]
    Run Step desk past linkedDesk ∧
    (∃ m ∈ linkedDesk.messages, m.id = ⟨31⟩ ∧
      ∃ src ∈ linkedDesk.messages, src.id = ⟨20⟩ ∧ m.body.text = personalLinkText src) ∧
    ∃ db', Step linkedDesk (.saved window shopping (.ok ⟨"Mjølk", 1⟩)) db' ∧
      db'.note? window.owner = some ⟨"Mjølk", 1⟩ ∧
      ∀ seen, Shown past window seen → seen.revision = 0 →
        linkedDesk.note? window.owner = some seen := by
  intro past
  have hlink : Step desk (.linked Sample.alice ⟨20⟩ (.ok (some ⟨31⟩))) linkedDesk := by
    have hanswer : ((savePersonalLink Sample.alice ⟨20⟩ linkEnv).commit desk).1 = .ok (some ⟨31⟩) :=
      by decide +kernel
    rw [← hanswer, linkedDesk]
    exact .link desk Sample.alice ⟨20⟩ linkEnv
  have hread : Step linkedDesk (.read window (.ok ⟨"", 0⟩)) linkedDesk :=
    Step.read_of_note (by decide +kernel)
  have hrun : Run Step desk past linkedDesk := (Run.single hlink).step hread
  have hanswer :
      ((savePersonalNote window.owner shopping).commit linkedDesk).1 = .ok ⟨"Mjølk", 1⟩ :=
    by decide +kernel
  have hsave := Step.save linkedDesk window shopping
  rw [hanswer] at hsave
  obtain ⟨hnotes, hlinks⟩ :=
    personal_spaces_are_consistent (show UniqueSpaces desk from nodup_nil) (nodup_singleton _) rfl
      hrun
  obtain ⟨old, hold, -, -, hnote, hseen⟩ := (hnotes window shopping _ _ hsave).1 ⟨"Mjølk", 1⟩ rfl
  obtain ⟨m, hm, hid, halive⟩ : ∃ m ∈ linkedDesk.messages, m.id = ⟨31⟩ ∧ m.deletedAt = none := by
    decide +kernel
  refine ⟨hrun, ⟨m, hm, hid, ?_⟩, _, hsave, hnote, fun seen hs hrevision => ?_⟩
  · exact (hlinks Sample.alice ⟨20⟩ ⟨31⟩ mem_cons_self m hm hid halive).1
  · rw [hold, hseen seen hs hrevision]

end Desk

end Sproyt
