import Sproyt.Db.Posting
import Sproyt.Lib.Table

/-!
# What editing and deleting a message changes

`edit_message` and `delete_message` write the row of one message in place. Ids are unique
among messages, so the row they find by id is the row they write.
-/

namespace Sproyt

open List Txn

variable {host : Host} {db db' : Db} {row m : ChatMessage} {id : MessageId}

def UniqueMessages (db : Db) : Prop := (db.messages.map (·.id)).Nodup

theorem UniqueMessages.message?_of_mem (hdb : UniqueMessages db) (hrow : row ∈ db.messages) :
    db.message? row.id = some row :=
  Table.find?_of_mem hdb hrow

theorem Posted.unique (h : Posted db m db') (hdb : UniqueMessages db) : UniqueMessages db' := by
  unfold UniqueMessages
  rw [h.messages]
  exact Table.nodup_append_single hdb h.fresh

theorem Posted.message?_of_ne (h : Posted db m db') (hne : id ≠ m.id) :
    db'.message? id = db.message? id := by
  unfold Db.message?
  rw [h.messages, find?_append]
  simp [hne.symm]

theorem Posted.message?_of_some (h : Posted db m db') (hrow : db.message? id = some row) :
    db'.message? id = some row := by
  have hmem := mem_of_find?_eq_some hrow
  have hid := find?_some hrow
  rw [decide_eq_true_eq] at hid
  rw [h.message?_of_ne, hrow]
  rw [← hid]
  exact h.fresh row hmem

theorem Posted.message?_self (h : Posted db m db') : db'.message? m.id = some m := by
  have hnone : db.messages.find? (fun r => r.id = m.id) = none := by
    rw [find?_eq_none]
    intro r hr heq
    exact h.fresh r hr (of_decide_eq_true heq)
  unfold Db.message?
  rw [h.messages, find?_append, hnone]
  simp

/-- One row was written in place, from `row` to `m`. Only its text and times are new, and
only rows that refer to it come with it. -/
structure Rewritten (db : Db) (row m : ChatMessage) (db' : Db) : Prop where
  found : row ∈ db.messages
  same : m = { row with body := m.body, editedAt := m.editedAt, deletedAt := m.deletedAt }
  messages : db'.messages = Table.set (·.id) m db.messages
  mentions : ∀ r ∈ db'.messageMentions, r.messageId ≠ m.id → r ∈ db.messageMentions
  reactions : ∀ r ∈ db'.messageReactions, r ∈ db.messageReactions
  outbox : ∀ r ∈ db'.notificationOutbox, r.messageId ≠ m.id → r ∈ db.notificationOutbox
  rest : db' = { db with
    messages := db'.messages
    messageMentions := db'.messageMentions
    messageReactions := db'.messageReactions
    notificationOutbox := db'.notificationOutbox }

theorem Rewritten.id_eq (h : Rewritten db row m db') : m.id = row.id := by
  rw [h.same]

theorem Rewritten.unique (h : Rewritten db row m db') (hdb : UniqueMessages db) :
    UniqueMessages db' := by
  unfold UniqueMessages
  rw [h.messages, Table.map_key_set]
  exact hdb

theorem Rewritten.message? (h : Rewritten db row m db') (id : MessageId) :
    db'.message? id = if id = m.id then some m else db.message? id := by
  unfold Db.message?
  rw [h.messages, Table.find?_set ⟨row, h.found, h.id_eq.symm⟩]

theorem editMessage_ok {command : EditMessage} {now : Time}
    (h : (editMessage host command now).run db = .ok (m, db')) :
    ∃ row, Rewritten db row m db' ∧ row.id = command.messageId ∧ row.senderId = command.actor ∧
      row.deletedAt = none ∧ m.body = command.body ∧ m.deletedAt = none := by
  simp only [editMessage, answers] at h
  split at h
  · simp only [refuseMessage, answers, fail_ok] at h
  · next row ho =>
    have hmem := mem_of_find?_eq_some ho
    have hrow := find?_some ho
    rw [decide_eq_true_eq] at hrow
    simp only [storeEdit, replaceMessage, deleteMentions, persistMentions, enqueueMessage,
      answers] at h
    obtain ⟨rfl, rfl⟩ := h
    refine ⟨row, ⟨hmem, rfl, rfl, ?_, fun r hr => hr, ?_, rfl⟩, hrow.1, hrow.2.1, hrow.2.2, rfl,
      hrow.2.2⟩
    · intro r hr hne
      rcases mem_append.1 hr with hr | hr
      · exact (mem_filter.1 hr).1
      · obtain ⟨x, -, rfl⟩ := mem_map.1 hr
        exact absurd rfl hne
    · intro r hr hne
      rcases mem_addToOutbox hr with hr | hr
      · exact hr
      · exact absurd (notifications_messageId hr) hne

/-- The database once nothing refers to the deleted message `m` any more. -/
def Db.withDeleted (db : Db) (m : ChatMessage) : Db :=
  { db with
    messages := Table.set (·.id) m db.messages
    messageMentions := db.messageMentions.filter fun r => r.messageId ≠ m.id
    messageReactions := db.messageReactions.filter fun r => r.messageId ≠ m.id
    notificationOutbox := db.notificationOutbox.filter fun r => r.messageId ≠ m.id }

theorem withDeleted_rewritten (hrow : row ∈ db.messages)
    (hm : m = { row with body := m.body, editedAt := m.editedAt, deletedAt := m.deletedAt }) :
    Rewritten db row m (db.withDeleted m) := by
  refine ⟨hrow, hm, rfl, ?_, ?_, ?_, rfl⟩
  · exact fun r hr _ => (mem_filter.1 hr).1
  · exact fun r hr => (mem_filter.1 hr).1
  · exact fun r hr _ => (mem_filter.1 hr).1

theorem deleteMessage_ok {command : DeleteMessage} {now : Time}
    (h : (deleteMessage command now).run db = .ok (m, db')) :
    ∃ row, Rewritten db row m db' ∧ row.id = command.messageId ∧
      m = { row with
        body := tombstone
        editedAt := none
        deletedAt := some (row.deletedAt.getD now) } ∧
      db' = db.withDeleted m := by
  simp only [deleteMessage, answers] at h
  split at h
  · simp only [refuseMessage, answers, fail_ok] at h
  · next row ho =>
    have hmem := mem_of_find?_eq_some ho
    have hrow := find?_some ho
    rw [decide_eq_true_eq] at hrow
    simp only [storeDeletion, replaceMessage, deleteMentions, answers] at h
    obtain ⟨rfl, rfl⟩ := h
    exact ⟨row, withDeleted_rewritten hmem rfl, hrow.1, rfl, rfl⟩

end Sproyt
