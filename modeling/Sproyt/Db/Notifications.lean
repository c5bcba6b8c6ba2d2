import Sproyt.Db.Statements

/-!
# The notification outbox

`enqueue_message_sqlite` adds at most one row for each push subscription and message. Its
six inserts differ in whom they notify.
-/

namespace Sproyt

open List

variable {r : NotificationOutboxRow}

namespace Db

variable (db : Db)

/-- Does this user want notifications at once, and of this sort? People without stored
preferences want all of them. -/
def wantsInstant (u : UserId) (sort : NotificationPreferenceRow → Bool) : Bool :=
  match db.notificationPreferences.find? fun p => p.userId = u with
  | none => true
  | some p => p.mode = .instant && sort p

/-- The subscriptions of a user that were registered before the message. -/
def subscriptionsBefore (u : UserId) (m : MessageId) : List PushSubscriptionRow :=
  db.pushSubscriptions.filter fun s => s.userId = u ∧ s.notificationAfterMessageId.uuid < m.uuid

/-- The same for thread notifications, which have their own cursor. -/
def threadSubscriptionsBefore (u : UserId) (m : MessageId) : List PushSubscriptionRow :=
  db.pushSubscriptions.filter fun s =>
    s.userId = u ∧ s.threadNotificationAfterMessageId.uuid < m.uuid

def notify (m : MessageId) (kind : NotificationKind) (u : UserId)
    (subscriptions : List PushSubscriptionRow) : List NotificationOutboxRow :=
  subscriptions.map fun s =>
    { subscriptionId := s.id, recipientId := u, messageId := m, kind := kind }

def mentionNotifications (m : ChatMessage) : List NotificationOutboxRow :=
  (db.messageMentions.filter fun r => r.messageId = m.id ∧ r.mentionedUserId ≠ m.senderId ∧
      db.wantsInstant r.mentionedUserId (·.mentions)).flatMap fun r =>
    notify m.id .mention r.mentionedUserId (db.subscriptionsBefore r.mentionedUserId m.id)

def otherParty (m : ChatMessage) (d : DirectConversationRow) : UserId :=
  if d.userA = m.senderId then d.userB else d.userA

def directNotifications (m : ChatMessage) : List NotificationOutboxRow :=
  (db.directConversations.filter fun d => d.channelId = m.channelId ∧
      db.wantsInstant (otherParty m d) (·.directMessages)).flatMap fun d =>
    notify m.id .directMessage (otherParty m d) (db.subscriptionsBefore (otherParty m d) m.id)

def directGroupNotifications (m : ChatMessage) : List NotificationOutboxRow :=
  if db.directGroupConversations.any fun g => g.channelId = m.channelId then
    (db.channelMemberships.filter fun r => r.channelId = m.channelId ∧ r.userId ≠ m.senderId ∧
        db.isHuman r.userId ∧ db.wantsInstant r.userId (·.directMessages)).flatMap fun r =>
      notify m.id .directMessage r.userId (db.subscriptionsBefore r.userId m.id)
  else []

def threadNotifications (m : ChatMessage) (earlier : List ChatMessage) :
    List NotificationOutboxRow :=
  (earlier.filter fun r => r.senderId ≠ m.senderId ∧ db.inChannel m.channelId r.senderId ∧
      db.wantsInstant r.senderId fun _ => true).flatMap fun r =>
    notify m.id .threadReply r.senderId (db.threadSubscriptionsBefore r.senderId m.id)

def threadRoot (m : ChatMessage) : List ChatMessage :=
  db.messages.filter fun r => m.parentMessageId = some r.id

def priorReplies (m : ChatMessage) : List ChatMessage :=
  db.messages.filter fun r => r.parentMessageId.isSome ∧ r.parentMessageId = m.parentMessageId ∧
    r.sequence < m.sequence

def channelNotifications (m : ChatMessage) : List NotificationOutboxRow :=
  (db.channelNotificationSubscriptions.filter fun c => c.channelId = m.channelId ∧
      c.userId ≠ m.senderId ∧ db.inChannel c.channelId c.userId ∧
      c.notificationAfterMessageId.uuid < m.id.uuid ∧
      db.wantsInstant c.userId fun _ => true).flatMap fun c =>
    notify m.id .channelMessage c.userId (db.subscriptionsBefore c.userId m.id)

def notifications (m : ChatMessage) : List NotificationOutboxRow :=
  db.mentionNotifications m ++ db.directNotifications m ++ db.directGroupNotifications m ++
    db.threadNotifications m (db.threadRoot m) ++ db.threadNotifications m (db.priorReplies m) ++
    db.channelNotifications m

end Db

/-- `on conflict(subscription_id, message_id) do nothing`, row by row. -/
def addToOutbox (outbox : List NotificationOutboxRow) :
    List NotificationOutboxRow → List NotificationOutboxRow
  | [] => outbox
  | r :: rest =>
    if outbox.any fun x => x.subscriptionId = r.subscriptionId ∧ x.messageId = r.messageId then
      addToOutbox outbox rest
    else
      addToOutbox (outbox ++ [r]) rest

/-- `enqueue_message_sqlite`. -/
def enqueueMessage (m : ChatMessage) : Sql Unit :=
  Txn.write fun db =>
    { db with notificationOutbox := addToOutbox db.notificationOutbox (db.notifications m) }

/-! ### Every new row is about the message -/

theorem mem_addToOutbox {outbox rows : List NotificationOutboxRow}
    (h : r ∈ addToOutbox outbox rows) : r ∈ outbox ∨ r ∈ rows := by
  induction rows generalizing outbox with
  | nil => exact .inl h
  | cons x rest ih =>
    unfold addToOutbox at h
    split at h
    · rcases ih h with h | h
      · exact .inl h
      · exact .inr (mem_cons_of_mem _ h)
    · rcases ih h with h | h
      · rcases mem_append.1 h with h | h
        · exact .inl h
        · exact .inr (by simp [mem_singleton.1 h])
      · exact .inr (mem_cons_of_mem _ h)

theorem notify_messageId {m : MessageId} {kind : NotificationKind} {u : UserId}
    {subscriptions : List PushSubscriptionRow}
    (h : r ∈ Db.notify m kind u subscriptions) : r.messageId = m := by
  obtain ⟨s, -, rfl⟩ := mem_map.1 h
  rfl

theorem notifications_messageId {db : Db} {m : ChatMessage}
    (h : r ∈ db.notifications m) : r.messageId = m.id := by
  simp only [Db.notifications, mem_append] at h
  rcases h with ((((h | h) | h) | h) | h) | h
  · obtain ⟨x, -, hx⟩ := mem_flatMap.1 h
    exact notify_messageId hx
  · obtain ⟨x, -, hx⟩ := mem_flatMap.1 h
    exact notify_messageId hx
  · unfold Db.directGroupNotifications at h
    split at h
    · obtain ⟨x, -, hx⟩ := mem_flatMap.1 h
      exact notify_messageId hx
    · simp at h
  · obtain ⟨x, -, hx⟩ := mem_flatMap.1 h
    exact notify_messageId hx
  · obtain ⟨x, -, hx⟩ := mem_flatMap.1 h
    exact notify_messageId hx
  · obtain ⟨x, -, hx⟩ := mem_flatMap.1 h
    exact notify_messageId hx

end Sproyt
