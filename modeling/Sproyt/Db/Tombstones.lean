import Sproyt.Db.Rewriting
import Sproyt.Lib.Run

/-!
# Deleted messages

A deletion leaves the row of the message as a tombstone and removes what refers to it. No
later call brings any of that back.
-/

namespace Sproyt

open List Txn

variable {actor : UserId} {emoji : String} {command : DeleteMessage}

section

variable {host : Host} {db db' : Db} {row m : ChatMessage} {id : MessageId}

/-- A call that wrote about one message. All other messages stay, and what refers to them
was there before. -/
structure Touches (id : MessageId) (db db' : Db) : Prop where
  unique : UniqueMessages db → UniqueMessages db'
  messages : ∀ r ∈ db.messages, r.id ≠ id → r ∈ db'.messages
  mentions : ∀ r ∈ db'.messageMentions, r.messageId ≠ id → r ∈ db.messageMentions
  reactions : ∀ r ∈ db'.messageReactions, r.messageId ≠ id → r ∈ db.messageReactions
  outbox : ∀ r ∈ db'.notificationOutbox, r.messageId ≠ id → r ∈ db.notificationOutbox

theorem Appended.touches {command : SendMessage} {env : SendEnv}
    (h : Appended host command env db m db') : Touches m.id db db' := by
  refine ⟨h.toPosted.unique, ?_, h.mentions, ?_, h.outbox⟩
  · intro r hr _
    rw [h.messages]
    exact mem_append_left _ hr
  · intro r hr _
    rw [h.rest] at hr
    exact hr

theorem Rewritten.touches (h : Rewritten db row m db') : Touches m.id db db' := by
  refine ⟨h.unique, ?_, h.mentions, fun r hr _ => h.reactions r hr, h.outbox⟩
  intro r hr hne
  rw [h.messages]
  exact mem_map.2 ⟨r, hr, if_neg hne⟩

theorem removeUnless_ok {inserted : Bool} {u : Unit}
    (h : (removeUnless inserted id actor emoji).run db = .ok (u, db')) :
    ∃ rows, db' = { db with messageReactions := rows } ∧
      ∀ r ∈ rows, r ∈ db.messageReactions := by
  unfold removeUnless at h
  cases inserted with
  | true =>
    rw [if_pos rfl, pure_ok] at h
    exact ⟨db.messageReactions, h.2.symm, fun r hr => hr⟩
  | false =>
    rw [if_neg Bool.false_ne_true, write_ok] at h
    exact ⟨_, h.symm, fun r hr => (mem_filter.1 hr).1⟩

theorem toggleMessageReaction_ok {c : MessageReactionChange}
    (h : (toggleMessageReaction actor id emoji).run db = .ok (c, db')) :
    (∃ r ∈ db.messages, r.id = id ∧ r.deletedAt = none) ∧ Touches id db db' := by
  simp only [toggleMessageReaction, answers] at h
  obtain ⟨row, hfind, added, db₁, hadd, _, db₂, hremove, -, rfl⟩ := h
  have hlive := find?_some hfind
  rw [decide_eq_true_eq] at hlive
  refine ⟨⟨row, mem_of_find?_eq_some hfind, hlive.1, hlive.2.1⟩, ?_⟩
  obtain ⟨rows, rfl, hrows⟩ := removeUnless_ok hremove
  rcases Sql.insertOrIgnore_ok.1 hadd with ⟨-, -, rfl⟩ | ⟨-, -, -, -, rfl⟩
  · exact ⟨fun h => h, fun r hr _ => hr, fun r hr _ => hr, fun r hr _ => hrows r hr,
      fun r hr _ => hr⟩
  · refine ⟨fun h => h, fun r hr _ => hr, fun r hr _ => hr, ?_, fun r hr _ => hr⟩
    intro r hr hne
    rcases mem_append.1 (hrows r hr) with hr | hr
    · exact hr
    · rw [mem_singleton.1 hr] at hne
      exact absurd rfl hne

/-! ### Tombstones -/

structure Buried (row : ChatMessage) (db : Db) : Prop where
  unique : UniqueMessages db
  stored : row ∈ db.messages
  text : row.body = tombstone
  unedited : row.editedAt = none
  deleted : ∃ t, row.deletedAt = some t
  mentions : ∀ r ∈ db.messageMentions, r.messageId ≠ row.id
  reactions : ∀ r ∈ db.messageReactions, r.messageId ≠ row.id
  outbox : ∀ r ∈ db.notificationOutbox, r.messageId ≠ row.id

theorem Buried.touches (h : Buried row db) (ht : Touches id db db') (hne : row.id ≠ id) :
    Buried row db' := by
  refine ⟨ht.unique h.unique, ht.messages row h.stored hne, h.text, h.unedited, h.deleted, ?_, ?_,
    ?_⟩
  · intro r hr heq
    exact h.mentions r (ht.mentions r hr (heq ▸ hne)) heq
  · intro r hr heq
    exact h.reactions r (ht.reactions r hr (heq ▸ hne)) heq
  · intro r hr heq
    exact h.outbox r (ht.outbox r hr (heq ▸ hne)) heq

theorem Buried.not_live (h : Buried row db) {r : ChatMessage} (hr : r ∈ db.messages)
    (hid : r.id = row.id) : r.deletedAt ≠ none := by
  have heq : r = row := Table.eq_of_key_eq h.unique hr h.stored hid
  obtain ⟨t, ht⟩ := h.deleted
  rw [heq, ht]
  simp

theorem deleteMessage_buried {now : Time} (hdb : UniqueMessages db)
    (h : (deleteMessage command now).run db = .ok (m, db')) : Buried m db' := by
  obtain ⟨row, hw, -, hm, rfl⟩ := deleteMessage_ok h
  refine ⟨hw.unique hdb, ?_, ?_, ?_, ?_, ?_, ?_, ?_⟩
  · exact mem_map.2 ⟨row, hw.found, if_pos hw.id_eq.symm⟩
  · rw [hm]
  · rw [hm]
  · exact ⟨_, by rw [hm]⟩
  · exact fun r hr => of_decide_eq_true (mem_filter.1 hr).2
  · exact fun r hr => of_decide_eq_true (mem_filter.1 hr).2
  · exact fun r hr => of_decide_eq_true (mem_filter.1 hr).2

theorem Buried.withDeleted (h : Buried row db) : db.withDeleted row = db := by
  have hset := Table.set_of_mem h.unique h.stored
  have hmentions := filter_eq_self.2 fun r hr => decide_eq_true (h.mentions r hr)
  have hreactions := filter_eq_self.2 fun r hr => decide_eq_true (h.reactions r hr)
  have houtbox := filter_eq_self.2 fun r hr => decide_eq_true (h.outbox r hr)
  unfold Db.withDeleted
  rw [hset, hmentions, hreactions, houtbox]

section Again

variable (h : Buried row db)
include h

theorem Buried.edit {command : EditMessage} (hid : command.messageId = row.id) {now : Time} :
    ((editMessage host command now).commit db).2 = db := by
  rcases commit_cases (editMessage host command now) db with ⟨m, db', hr, hc⟩ | ⟨e, -, hc⟩
  · obtain ⟨r, hw, hrid, -, hlive, -⟩ := editMessage_ok hr
    exact absurd hlive (h.not_live hw.found (hrid.trans hid))
  · rw [hc]

theorem Buried.toggle (hid : id = row.id) :
    ((toggleMessageReaction actor id emoji).commit db).2 = db := by
  rcases commit_cases (toggleMessageReaction actor id emoji) db with
    ⟨m, db', hr, hc⟩ | ⟨e, -, hc⟩
  · obtain ⟨⟨r, hmem, hrid, hlive⟩, -⟩ := toggleMessageReaction_ok hr
    exact absurd hlive (h.not_live hmem (hrid.trans hid))
  · rw [hc]

theorem Buried.delete (hid : command.messageId = row.id) (now : Time) :
    ((deleteMessage command now).commit db).2 = db := by
  rcases commit_cases (deleteMessage command now) db with ⟨m, db', hr, hc⟩ | ⟨e, -, hc⟩
  · rw [hc]
    obtain ⟨r, hw, hrid, hm, rfl⟩ := deleteMessage_ok hr
    obtain rfl : r = row := Table.eq_of_key_eq h.unique hw.found h.stored (hrid.trans hid)
    obtain ⟨t, ht⟩ := h.deleted
    have hsame : m = r := by
      rw [hm, ht, ← h.text, ← h.unedited]
      cases r
      simp_all
    rw [hsame]
    exact h.withDeleted
  · rw [hc]

end Again

/-! ### Runs -/

inductive MessageCall
  | append (command : SendMessage) (env : SendEnv)
  | appendIdempotent (command : SendMessage) (requestId : String) (env : SendEnv)
  | edit (command : EditMessage) (now : Time)
  | delete (command : DeleteMessage) (now : Time)
  | toggle (actor : UserId) (id : MessageId) (emoji : String)

def MessageCall.body (host : Host) : MessageCall → Sql (Option ChatMessage)
  | append command env => do
    let m ← appendMessage host command env
    pure (some m)
  | appendIdempotent command requestId env => do
    let m ← appendMessageIdempotent host command requestId env
    pure (some m)
  | edit command now => do
    let m ← editMessage host command now
    pure (some m)
  | delete command now => do
    let m ← deleteMessage command now
    pure (some m)
  | toggle actor id emoji => do
    let _ ← toggleMessageReaction actor id emoji
    pure none

inductive MessageStep (host : Host) (db : Db) :
    MessageCall × Except RepositoryError (Option ChatMessage) → Db → Prop
  | finish (call : MessageCall) {answer : Except RepositoryError (Option ChatMessage)} {db' : Db}
      (h : (call.body host).commit db = (answer, db')) : MessageStep host db (call, answer) db'
  | abort (call : MessageCall) (e : RepositoryError) :
      MessageStep host db (call, .error e) db

def Spares (id : MessageId) (db db' : Db) : Prop :=
  ∀ row, Buried row db → row.id ≠ id ∨ db' = db

theorem Posted.spares (h : Posted db m db') : Spares m.id db db' :=
  fun row hrow => .inl (h.fresh row hrow.stored)

/-- A call that answers has written about one message at most. -/
theorem MessageCall.touches {call : MessageCall} {o : Option ChatMessage}
    (h : (call.body host).run db = .ok (o, db')) : ∃ id, Touches id db db' ∧ Spares id db db' := by
  cases call with
  | append command env =>
    obtain ⟨m, hcall, -⟩ := bind_pure_ok.1 h
    have happ := appendMessage_ok hcall
    exact ⟨m.id, happ.touches, happ.toPosted.spares⟩
  | appendIdempotent command requestId env =>
    obtain ⟨m, hcall, -⟩ := bind_pure_ok.1 h
    rcases (appendMessageIdempotent_ok hcall).2 with ⟨-, db₁, happ, rfl⟩ | ⟨rfl, -⟩
    · -- receipts are none of the tables that a tombstone is about
      obtain ⟨hu, hm, hn, hr, ho⟩ := happ.touches
      exact ⟨m.id, ⟨hu, hm, hn, hr, ho⟩, fun row hrow => .inl (happ.fresh row hrow.stored)⟩
    · exact ⟨m.id, ⟨fun h => h, fun r hr _ => hr, fun r hr _ => hr, fun r hr _ => hr,
        fun r hr _ => hr⟩, fun row _ => .inr rfl⟩
  | edit command now =>
    obtain ⟨m, hcall, -⟩ := bind_pure_ok.1 h
    obtain ⟨r, hw, -, -, hlive, -⟩ := editMessage_ok hcall
    refine ⟨m.id, hw.touches, fun row hrow => .inl fun hid => ?_⟩
    exact hrow.not_live hw.found (hw.id_eq.symm.trans hid.symm) hlive
  | delete command now =>
    obtain ⟨m, hcall, -⟩ := bind_pure_ok.1 h
    obtain ⟨r, hw, hrid, -⟩ := deleteMessage_ok hcall
    refine ⟨m.id, hw.touches, fun row hrow => ?_⟩
    by_cases hid : row.id = m.id
    · have hsame := hrow.delete (hrid.symm.trans (hw.id_eq.symm.trans hid.symm)) now
      rw [commit_eq_ok.2 hcall] at hsame
      exact .inr hsame
    · exact .inl hid
  | toggle actor id emoji =>
    obtain ⟨c, hcall, -⟩ := bind_pure_ok.1 h
    obtain ⟨⟨r, hmem, hrid, hlive⟩, ht⟩ := toggleMessageReaction_ok hcall
    refine ⟨id, ht, fun row hrow => .inl fun hid => ?_⟩
    exact hrow.not_live hmem (hrid.trans hid.symm) hlive

theorem MessageStep.keeps {l : MessageCall × Except RepositoryError (Option ChatMessage)}
    (h : MessageStep host db l db') :
    (UniqueMessages db → UniqueMessages db') ∧ ∀ row, Buried row db → Buried row db' := by
  cases h with
  | abort call e => exact ⟨fun h => h, fun row h => h⟩
  | finish call h =>
    rcases commit_cases (call.body host) db with ⟨o, db₁, hr, hc⟩ | ⟨e, -, hc⟩
    · rw [hc] at h
      cases h
      obtain ⟨id, ht, hspares⟩ := MessageCall.touches hr
      refine ⟨ht.unique, fun row hrow => ?_⟩
      rcases hspares row hrow with hne | rfl
      · exact hrow.touches ht hne
      · exact hrow
    · rw [hc] at h
      cases h
      exact ⟨fun h => h, fun row h => h⟩

/-- Once a deletion has committed, every later state has the row as the deletion left it and
nothing that refers to it, and editing it, reacting to it or deleting it again changes
nothing at all. -/
theorem deletion_is_permanent
    {trace : List (MessageCall × Except RepositoryError (Option ChatMessage))}
    {command : DeleteMessage} {now : Time} (hkeys : UniqueMessages db)
    (hrun : Run (MessageStep host) db trace db')
    (hdeleted : (.delete command now, .ok (some m)) ∈ trace) :
    (m.id = command.messageId ∧ db'.message? m.id = some m ∧ m.body = tombstone ∧
      ∃ t, m.deletedAt = some t) ∧
    (∀ r ∈ db'.messageReactions, r.messageId ≠ m.id) ∧
    (∀ r ∈ db'.messageMentions, r.messageId ≠ m.id) ∧
    (∀ r ∈ db'.notificationOutbox, r.messageId ≠ m.id) ∧
    (∀ edit : EditMessage, edit.messageId = m.id →
      ∀ time, ((editMessage host edit time).commit db').2 = db') ∧
    (∀ actor emoji, ((toggleMessageReaction actor m.id emoji).commit db').2 = db') ∧
    (∀ again : DeleteMessage, again.messageId = m.id →
      ∀ time, ((deleteMessage again time).commit db').2 = db') := by
  obtain ⟨past, future, rfl⟩ := append_of_mem hdeleted
  obtain ⟨db₁, db₂, hpast, hstep, hfuture⟩ := hrun.split
  have hunique : UniqueMessages db₁ :=
    hpast.invariant (fun _ _ _ hdb hstep => hstep.keeps.1 hdb) hkeys
  have hdone : (deleteMessage command now).run db₁ = .ok (m, db₂) := by
    cases hstep with
    | finish call h =>
      obtain ⟨m', hr, hm⟩ := bind_pure_ok.1 (commit_eq_ok.1 h)
      cases hm
      exact hr
  have hburied : Buried m db' :=
    hfuture.invariant (fun _ _ _ hdb hstep => hstep.keeps.2 m hdb)
      (deleteMessage_buried hunique hdone)
  have hid : m.id = command.messageId := by
    obtain ⟨row, hw, hrid, -⟩ := deleteMessage_ok hdone
    exact hw.id_eq.trans hrid
  refine ⟨⟨hid, hburied.unique.message?_of_mem hburied.stored, hburied.text, hburied.deleted⟩,
    hburied.reactions, hburied.mentions, hburied.outbox, ?_, ?_, ?_⟩
  · exact fun edit hedit time => hburied.edit hedit
  · exact fun actor emoji => hburied.toggle rfl
  · exact fun again hagain time => hburied.delete hagain time

end

namespace Sample

def after (db : Db) (call : MessageCall) : Db := ((call.body host).commit db).2

def liked : Db :=
  after (after chat (.append ⟨alice, room, none, hello⟩ (.quiet 20 0))) (.toggle alice ⟨20⟩ "👍")

def removal : MessageCall := .delete ⟨alice, ⟨20⟩⟩ 5

def removed : ChatMessage :=
  ⟨⟨20⟩, room, none, alice, aliceName, tombstone, 1, 0, none, some 5⟩

end Sample

open Sample in
/-- The sender deletes a message that has a reaction. -/
theorem deletion_is_permanent_for_liked :
    UniqueMessages liked ∧ liked.messageReactions.length = 1 ∧
      (after liked removal).messageReactions = [] ∧
      ((deleteMessage ⟨alice, ⟨20⟩⟩ 9).commit (after liked removal)).2 = after liked removal := by
  have hkeys : UniqueMessages liked := nodup_singleton _
  have hrun : Run (MessageStep host) liked [(removal, .ok (some removed))] (after liked removal) :=
    .single (.finish removal rfl)
  obtain ⟨-, -, -, -, -, -, hagain⟩ :=
    deletion_is_permanent hkeys hrun (mem_singleton_self _)
  exact ⟨hkeys, rfl, rfl, hagain ⟨alice, ⟨20⟩⟩ rfl 9⟩

end Sproyt
