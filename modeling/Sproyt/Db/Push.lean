import Sproyt.Db.WorkItems

/-!
# Push notifications

The settings of the people who are notified, and the worker that delivers. When the worker
starts it goes through all messages again with the statements that sending a message uses.
-/

namespace Sproyt

open Txn

/-- `coalesce((select id from messages order by id desc limit 1), …)`: where a new cursor starts. -/
def Db.newestMessage (db : Db) : MessageId :=
  db.messages.foldl (fun newest m => if newest.uuid < m.id.uuid then m.id else newest)
    ⟨0x00000000000070008000000000000000⟩

structure NotificationPreferences where
  mode : NotificationMode
  directMessages : Bool
  mentions : Bool
  weeklyWeekday : Int

def setPreferences (u : UserId) (value : NotificationPreferences)
    (rows : List NotificationPreferenceRow) : List NotificationPreferenceRow :=
  let row : NotificationPreferenceRow :=
    ⟨u, value.mode, value.directMessages, value.mentions, value.weeklyWeekday⟩
  if rows.any fun p => p.userId = u then rows.map fun p => if p.userId = u then row else p
  else rows ++ [row]

def savePreferences (u : UserId) (value : NotificationPreferences) :
    Sql NotificationPreferences := do
  ensure (1 ≤ value.weeklyWeekday ∧ value.weeklyWeekday ≤ 7) .conflict
  mapError (asStorage "") (Sql.insert (fun _ => false) (fun db => db.hasUser u)
    fun db =>
      { db with notificationPreferences := setPreferences u value db.notificationPreferences })
  pure value

structure PushSubscriptionInput where
  endpoint : String
  p256dh : String
  auth : String

/-- A known endpoint gets new keys if it is the same person's. Its cursors stay as they are. -/
def renewKeys (u : UserId) (input : PushSubscriptionInput) (userAgent : Option String) :
    Sql Nat := do
  let rows ← read fun db => db.pushSubscriptions.filter fun s =>
    s.endpoint = input.endpoint ∧ s.userId = u
  write fun db =>
    { db with pushSubscriptions := db.pushSubscriptions.map fun s =>
        if s.endpoint = input.endpoint ∧ s.userId = u then
          { s with p256dh := input.p256dh, auth := input.auth, userAgent := userAgent }
        else s }
  pure rows.length

def insertSubscription (u : UserId) (input : PushSubscriptionInput) (userAgent : Option String)
    (id : Uuid) : Sql Nat := do
  mapError (asStorage "") (Sql.insert (fun db => db.pushSubscriptions.any fun s => s.id = id)
    (fun db => db.hasUser u)
    fun db =>
      { db with pushSubscriptions := db.pushSubscriptions ++
          [⟨id, u, input.endpoint, input.p256dh, input.auth, userAgent, db.newestMessage,
            db.newestMessage⟩] })
  pure 1

/-- Register a device. The answer of `validate_subscription` is an input. -/
def subscribe (u : UserId) (input : PushSubscriptionInput) (userAgent : Option String) (id : Uuid)
    (validated : Except RepositoryError Unit) : Sql Unit := do
  ofExcept validated
  let known ← read fun db => db.pushSubscriptions.any fun s => s.endpoint = input.endpoint
  let affected ← (if known then renewKeys u input userAgent
    else insertSubscription u input userAgent id)
  ensure (affected = 1) .conflict

/-- `delete from push_subscriptions`, with the notifications that cascade. -/
def Db.removeSubscriptions (db : Db) (gone : PushSubscriptionRow → Bool) : Db :=
  { db with
    pushSubscriptions := db.pushSubscriptions.filter fun s => !gone s
    notificationOutbox := db.notificationOutbox.filter fun r =>
      !db.pushSubscriptions.any fun s => s.id = r.subscriptionId ∧ gone s }

def unsubscribe (u : UserId) (endpoint : String) : Sql Unit :=
  write fun db => db.removeSubscriptions fun s => s.userId = u ∧ s.endpoint = endpoint

/-- A member may ask to hear of every message of a channel that is not a direct one. -/
def Db.mayFollow (db : Db) (u : UserId) (c : ChannelId) : Bool :=
  db.hasChannel c && db.inChannel c u &&
    !(db.directConversations.any fun d => d.channelId = c) &&
    !(db.directGroupConversations.any fun g => g.channelId = c)

def Db.follows (db : Db) (u : UserId) (c : ChannelId) : Bool :=
  db.channelNotificationSubscriptions.any fun r => r.userId = u ∧ r.channelId = c

def setChannelSubscription (u : UserId) (c : ChannelId) (enabled : Bool) : Sql Unit :=
  if enabled then do
    write fun db =>
      if db.mayFollow u c && !db.follows u c then
        { db with channelNotificationSubscriptions :=
            db.channelNotificationSubscriptions ++ [⟨u, c, db.newestMessage⟩] }
      else db
    let follows ← read fun db => db.follows u c
    ensure (follows = true) .permissionDenied
  else
    write fun db =>
      { db with channelNotificationSubscriptions :=
          db.channelNotificationSubscriptions.filter fun r => ¬ (r.userId = u ∧ r.channelId = c) }

/-! ### The worker -/

structure PushJob where
  subscriptionId : Uuid
  messageId : MessageId
deriving DecidableEq

def NotificationOutboxRow.job (r : NotificationOutboxRow) : PushJob :=
  ⟨r.subscriptionId, r.messageId⟩

/-- Is this row not delivered, and not leased at this time? -/
def NotificationOutboxRow.isOpen (r : NotificationOutboxRow) (now : Int) : Bool :=
  r.deliveredAt = none && r.leasedUntil.all (· < now)

def updateJob (job : PushJob) (f : NotificationOutboxRow → NotificationOutboxRow) : Sql Unit :=
  write fun db =>
    { db with notificationOutbox := db.notificationOutbox.map fun r =>
        if r.job = job then f r else r }

/-- The second statement of `claim`. The first one has selected the job, and another worker may
have leased it in between. -/
def leaseJob (job : PushJob) (now : Int) : Sql Bool := do
  let free ← read fun db => db.notificationOutbox.any fun r => r.job = job ∧ r.isOpen now
  updateJob job fun r =>
    if r.isOpen now then
      { r with leasedUntil := some (now + 30), attempts := r.attempts + 1 }
    else r
  pure free

inductive DeliveryOutcome
  | delivered
  | expired
  | retry (error : String)

def completeJob (job : PushJob) (now : Int) : DeliveryOutcome → Sql Unit
  | .delivered => updateJob job fun r =>
      { r with deliveredAt := some now, leasedUntil := none, lastError := none }
  | .expired => write fun db => db.removeSubscriptions fun s => s.id = job.subscriptionId
  | .retry error => updateJob job fun r =>
      { r with leasedUntil := none, availableAt := some (now + 30), lastError := some error }

/-! ### The statements of sending and of the backfill -/

inductive NotificationInsert
  | mention
  | direct
  | directGroup
  | threadRoot
  | threadParticipant
  | channel
deriving DecidableEq, Repr

def Db.selected (db : Db) (m : ChatMessage) : NotificationInsert → List NotificationOutboxRow
  | .mention => db.mentionNotifications m
  | .direct => db.directNotifications m
  | .directGroup => db.directGroupNotifications m
  | .threadRoot => db.threadNotifications m (db.threadRoot m)
  | .threadParticipant => db.threadNotifications m (db.priorReplies m)
  | .channel => db.channelNotifications m

/-- One of the six statements of `backfill_current_cursors_once`, which select for all messages and
commit one by one. -/
def backfillInsert (insert : NotificationInsert) : Sql Unit :=
  write fun db =>
    { db with
      notificationOutbox := addToOutbox db.notificationOutbox
        (db.messages.flatMap fun m => db.selected m insert) }

variable {m : ChatMessage}

theorem mem_notifications {db : Db} {r : NotificationOutboxRow} :
    r ∈ db.notifications m ↔ ∃ insert, r ∈ db.selected m insert := by
  simp only [Db.notifications, List.mem_append]
  constructor
  · rintro (((((h | h) | h) | h) | h) | h)
    exacts [⟨.mention, h⟩, ⟨.direct, h⟩, ⟨.directGroup, h⟩, ⟨.threadRoot, h⟩,
      ⟨.threadParticipant, h⟩, ⟨.channel, h⟩]
  · rintro ⟨insert, h⟩
    cases insert with
    | mention => exact .inl (.inl (.inl (.inl (.inl h))))
    | direct => exact .inl (.inl (.inl (.inl (.inr h))))
    | directGroup => exact .inl (.inl (.inl (.inr h)))
    | threadRoot => exact .inl (.inl (.inr h))
    | threadParticipant => exact .inl (.inr h)
    | channel => exact .inr h

theorem le_newestMessage {db : Db} (hm : m ∈ db.messages) : m.id.uuid ≤ db.newestMessage.uuid := by
  suffices hgen : ∀ (rows : List ChatMessage) (newest : MessageId),
      newest.uuid ≤ (rows.foldl (fun newest m => if newest.uuid < m.id.uuid then m.id else newest)
        newest).uuid ∧
      ∀ m ∈ rows, m.id.uuid ≤ (rows.foldl
        (fun newest m => if newest.uuid < m.id.uuid then m.id else newest) newest).uuid from
    (hgen db.messages _).2 m hm
  intro rows
  induction rows with
  | nil => exact fun newest => ⟨BitVec.le_refl _, fun m hm => absurd hm List.not_mem_nil⟩
  | cons x rows ih =>
    intro newest
    obtain ⟨hstart, hrest⟩ := ih (if newest.uuid < x.id.uuid then x.id else newest)
    have hboth : newest.uuid ≤ (if newest.uuid < x.id.uuid then x.id else newest).uuid ∧
        x.id.uuid ≤ (if newest.uuid < x.id.uuid then x.id else newest).uuid := by
      split
      · next hlt => exact ⟨BitVec.le_of_lt hlt, BitVec.le_refl _⟩
      · next hnot => exact ⟨BitVec.le_refl _, BitVec.not_lt.1 hnot⟩
    refine ⟨BitVec.le_trans hboth.1 hstart, fun m hm => ?_⟩
    rcases List.mem_cons.1 hm with rfl | hm
    · exact BitVec.le_trans hboth.2 hstart
    · exact hrest m hm

end Sproyt
