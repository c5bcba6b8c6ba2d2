import Sproyt.Db.Conversations
import Sproyt.Db.Integrations
import Sproyt.Db.Mentions
import Sproyt.Db.Push

/-!
# The recipients of notifications

A message notifies the devices of members for the first reason that applies. The reasons are
computed by six inserts. All of them ask for membership, the mentions where they are recorded and
the others by a join, except the insert for the two parties of a direct conversation.
-/

namespace Sproyt

open List Txn

/-! ### Why a device is notified -/

namespace NotificationKind

def rank : NotificationKind → Nat
  | .mention => 0
  | .directMessage => 1
  | .threadReply => 2
  | .channelMessage => 3

def wanted : NotificationKind → NotificationPreferenceRow → Bool
  | .mention => (·.mentions)
  | .directMessage => (·.directMessages)
  | .threadReply => fun _ => true
  | .channelMessage => fun _ => true

def cursor : NotificationKind → PushSubscriptionRow → MessageId
  | .threadReply => (·.threadNotificationAfterMessageId)
  | .mention => (·.notificationAfterMessageId)
  | .directMessage => (·.notificationAfterMessageId)
  | .channelMessage => (·.notificationAfterMessageId)

end NotificationKind

def PushSubscriptionRow.notification (s : PushSubscriptionRow) (m : MessageId)
    (kind : NotificationKind) : NotificationOutboxRow :=
  { subscriptionId := s.id, recipientId := s.userId, messageId := m, kind := kind }

namespace Db

variable (db : Db) (m : ChatMessage)

def InThread (u : UserId) : Prop :=
  ∃ r ∈ db.messages, r.senderId = u ∧ (m.parentMessageId = some r.id ∨
    r.parentMessageId.isSome ∧ r.parentMessageId = m.parentMessageId ∧ r.sequence < m.sequence)

def OtherParty (u : UserId) : Prop :=
  ∃ d ∈ db.directConversations, d.channelId = m.channelId ∧ otherParty m d = u

def InGroup (u : UserId) : Prop :=
  (∃ g ∈ db.directGroupConversations, g.channelId = m.channelId) ∧ db.isHuman u = true

def Follows (u : UserId) : Prop :=
  ∃ c ∈ db.channelNotificationSubscriptions, c.channelId = m.channelId ∧ c.userId = u ∧
    c.notificationAfterMessageId.uuid < m.id.uuid

/-- What makes a message concern a person. -/
def Reason (u : UserId) : NotificationKind → Prop
  | .mention => ⟨m.id, u⟩ ∈ db.messageMentions
  | .directMessage => db.OtherParty m u ∨ db.InGroup m u
  | .threadReply => db.InThread m u
  | .channelMessage => db.Follows m u

/-- A device is to be notified for this reason: its owner is another member of the channel and
wants to hear of it at once, and the message is after the cursor of the device. -/
structure Applies (kind : NotificationKind) (s : PushSubscriptionRow) : Prop where
  other : s.userId ≠ m.senderId
  member : db.inChannel m.channelId s.userId = true
  wanted : db.wantsInstant s.userId kind.wanted = true
  due : (kind.cursor s).uuid < m.id.uuid
  reason : db.Reason m s.userId kind

/-- What the inserts ask for. The one for the two parties of a conversation takes the other party
without asking whether they are a member. -/
def Asked (u : UserId) : NotificationKind → Prop
  | .mention => ⟨m.id, u⟩ ∈ db.messageMentions ∧ u ≠ m.senderId
  | .directMessage => db.OtherParty m u ∨
      db.InGroup m u ∧ db.inChannel m.channelId u = true ∧ u ≠ m.senderId
  | .threadReply => db.InThread m u ∧ db.inChannel m.channelId u = true ∧ u ≠ m.senderId
  | .channelMessage => db.Follows m u ∧ db.inChannel m.channelId u = true ∧ u ≠ m.senderId

/-- The devices that the inserts select. -/
structure Selects (kind : NotificationKind) (s : PushSubscriptionRow) : Prop where
  wanted : db.wantsInstant s.userId kind.wanted = true
  due : (kind.cursor s).uuid < m.id.uuid
  asked : db.Asked m s.userId kind

end Db

/-! ### What the inserts select -/

variable {db : Db} {m : ChatMessage} {r : NotificationOutboxRow}

/-- A row for a device whose owner has the property and wants to hear of it at once. -/
def Db.Chosen (db : Db) (m : ChatMessage) (kind : NotificationKind) (q : UserId → Prop)
    (r : NotificationOutboxRow) : Prop :=
  ∃ s ∈ db.pushSubscriptions, r = s.notification m.id kind ∧
    db.wantsInstant s.userId kind.wanted = true ∧ (kind.cursor s).uuid < m.id.uuid ∧ q s.userId

variable {q : UserId → Prop}

theorem mem_flatMap_notify {α : Type} {kind : NotificationKind} {rows : List α} {who : α → UserId}
    {p : α → Bool} (h : ∀ u, (∃ x ∈ rows, p x = true ∧ who x = u) ↔
      db.wantsInstant u kind.wanted = true ∧ q u) :
    (r ∈ (rows.filter p).flatMap fun x => Db.notify m.id kind (who x)
        (db.pushSubscriptions.filter fun s =>
          s.userId = who x ∧ (kind.cursor s).uuid < m.id.uuid)) ↔ db.Chosen m kind q r := by
  simp only [mem_flatMap, mem_filter, Db.notify, mem_map, decide_eq_true_eq]
  constructor
  · rintro ⟨x, ⟨hx, hp⟩, s, ⟨hs, hwho, hdue⟩, rfl⟩
    obtain ⟨hwants, hq⟩ := (h s.userId).1 ⟨x, hx, hp, hwho.symm⟩
    exact ⟨s, hs, by rw [PushSubscriptionRow.notification, hwho], hwants, hdue, hq⟩
  · rintro ⟨s, hs, rfl, hwants, hdue, hq⟩
    obtain ⟨x, hx, hp, hwho⟩ := (h s.userId).2 ⟨hwants, hq⟩
    exact ⟨x, ⟨hx, hp⟩, s, ⟨hs, hwho.symm, hdue⟩, by rw [PushSubscriptionRow.notification, hwho]⟩

theorem mem_mentionNotifications :
    r ∈ db.mentionNotifications m ↔ db.Chosen m .mention (db.Asked m · .mention) r := by
  refine mem_flatMap_notify fun u => ?_
  simp only [decide_eq_true_eq]
  constructor
  · rintro ⟨⟨id, u⟩, hx, ⟨rfl, hother, hwants⟩, rfl⟩
    exact ⟨hwants, hx, hother⟩
  · rintro ⟨hwants, hx, hother⟩
    exact ⟨_, hx, ⟨rfl, hother, hwants⟩, rfl⟩

theorem mem_directNotifications :
    r ∈ db.directNotifications m ↔ db.Chosen m .directMessage (db.OtherParty m) r := by
  refine mem_flatMap_notify fun u => ?_
  simp only [decide_eq_true_eq]
  constructor
  · rintro ⟨d, hd, ⟨hchannel, hwants⟩, rfl⟩
    exact ⟨hwants, d, hd, hchannel, rfl⟩
  · rintro ⟨hwants, d, hd, hchannel, rfl⟩
    exact ⟨d, hd, ⟨hchannel, hwants⟩, rfl⟩

theorem inChannel_iff {c : ChannelId} {u : UserId} : db.inChannel c u = true ↔
    ∃ x ∈ db.channelMemberships, x.channelId = c ∧ x.userId = u := by
  rw [Db.inChannel, any_eq_true]
  exact exists_congr fun x => and_congr_right fun _ => decide_eq_true_iff

theorem mem_directGroupNotifications : r ∈ db.directGroupNotifications m ↔
    db.Chosen m .directMessage (fun u => db.InGroup m u ∧ db.inChannel m.channelId u = true ∧
      u ≠ m.senderId) r := by
  have hgroup : (db.directGroupConversations.any fun g => g.channelId = m.channelId) = true ↔
      ∃ g ∈ db.directGroupConversations, g.channelId = m.channelId := by
    rw [any_eq_true]
    exact exists_congr fun g => and_congr_right fun _ => decide_eq_true_iff
  rw [Db.directGroupNotifications]
  split
  · next hany =>
    refine mem_flatMap_notify fun u => ?_
    simp only [decide_eq_true_eq]
    constructor
    · rintro ⟨x, hx, ⟨hchannel, hother, hhuman, hwants⟩, rfl⟩
      exact ⟨hwants, ⟨hgroup.1 hany, hhuman⟩, inChannel_iff.2 ⟨x, hx, hchannel, rfl⟩, hother⟩
    · rintro ⟨hwants, ⟨-, hhuman⟩, hmember, hother⟩
      obtain ⟨x, hx, hchannel, rfl⟩ := inChannel_iff.1 hmember
      exact ⟨x, hx, ⟨hchannel, hother, hhuman, hwants⟩, rfl⟩
  · next hany =>
    refine iff_of_false not_mem_nil ?_
    rintro ⟨s, -, -, -, -, ⟨hexists, -⟩, -⟩
    exact hany (hgroup.2 hexists)

theorem mem_threadNotifications {earlier : List ChatMessage} :
    r ∈ db.threadNotifications m earlier ↔ db.Chosen m .threadReply (fun u =>
      (∃ x ∈ earlier, x.senderId = u) ∧ db.inChannel m.channelId u = true ∧ u ≠ m.senderId) r := by
  refine mem_flatMap_notify fun u => ?_
  simp only [decide_eq_true_eq]
  constructor
  · rintro ⟨x, hx, ⟨hother, hmember, hwants⟩, rfl⟩
    exact ⟨hwants, ⟨x, hx, rfl⟩, hmember, hother⟩
  · rintro ⟨hwants, ⟨x, hx, rfl⟩, hmember, hother⟩
    exact ⟨x, hx, ⟨hother, hmember, hwants⟩, rfl⟩

theorem mem_channelNotifications :
    r ∈ db.channelNotifications m ↔
      db.Chosen m .channelMessage (db.Asked m · .channelMessage) r := by
  refine mem_flatMap_notify fun u => ?_
  simp only [decide_eq_true_eq]
  constructor
  · rintro ⟨c, hc, ⟨hchannel, hother, hmember, hafter, hwants⟩, rfl⟩
    exact ⟨hwants, ⟨c, hc, hchannel, rfl, hafter⟩, hchannel ▸ hmember, hother⟩
  · rintro ⟨hwants, ⟨c, hc, hchannel, rfl, hafter⟩, hmember, hother⟩
    exact ⟨c, hc, ⟨hchannel, hother, hchannel ▸ hmember, hafter, hwants⟩, rfl⟩

theorem inThread_iff {u : UserId} : db.InThread m u ↔
    (∃ x ∈ db.threadRoot m, x.senderId = u) ∨ ∃ x ∈ db.priorReplies m, x.senderId = u := by
  simp only [Db.threadRoot, Db.priorReplies, mem_filter, decide_eq_true_eq, Db.InThread]
  constructor
  · rintro ⟨x, hx, hsender, hroot | hprior⟩
    · exact .inl ⟨x, ⟨hx, hroot⟩, hsender⟩
    · exact .inr ⟨x, ⟨hx, hprior⟩, hsender⟩
  · rintro (⟨x, ⟨hx, hroot⟩, hsender⟩ | ⟨x, ⟨hx, hprior⟩, hsender⟩)
    · exact ⟨x, hx, hsender, .inl hroot⟩
    · exact ⟨x, hx, hsender, .inr hprior⟩

def NotificationInsert.kind : NotificationInsert → NotificationKind
  | .mention => .mention
  | .direct => .directMessage
  | .directGroup => .directMessage
  | .threadRoot => .threadReply
  | .threadParticipant => .threadReply
  | .channel => .channelMessage

theorem Db.Chosen.selects {kind : NotificationKind} (h : db.Chosen m kind q r)
    (hq : ∀ u, q u → db.Asked m u kind) :
    ∃ s ∈ db.pushSubscriptions, r = s.notification m.id kind ∧ db.Selects m kind s := by
  obtain ⟨s, hs, hr, hwants, hdue, hasked⟩ := h
  exact ⟨s, hs, hr, hwants, hdue, hq s.userId hasked⟩

theorem selects_of_mem {insert : NotificationInsert} (h : r ∈ db.selected m insert) :
    ∃ s ∈ db.pushSubscriptions, r = s.notification m.id insert.kind ∧
      db.Selects m insert.kind s := by
  cases insert with
  | mention => exact (mem_mentionNotifications.1 h).selects fun _ h => h
  | direct => exact (mem_directNotifications.1 h).selects fun _ h => .inl h
  | directGroup => exact (mem_directGroupNotifications.1 h).selects fun _ h => .inr h
  | threadRoot =>
    exact (mem_threadNotifications.1 h).selects fun _ h => ⟨inThread_iff.2 (.inl h.1), h.2⟩
  | threadParticipant =>
    exact (mem_threadNotifications.1 h).selects fun _ h => ⟨inThread_iff.2 (.inr h.1), h.2⟩
  | channel => exact (mem_channelNotifications.1 h).selects fun _ h => h

theorem Db.Selects.mem {kind : NotificationKind} {s : PushSubscriptionRow}
    (h : db.Selects m kind s) (hs : s ∈ db.pushSubscriptions) :
    ∃ insert, s.notification m.id kind ∈ db.selected m insert := by
  obtain ⟨hwants, hdue, hasked⟩ := h
  cases kind with
  | mention =>
    exact ⟨.mention, mem_mentionNotifications.2 ⟨s, hs, rfl, hwants, hdue, hasked⟩⟩
  | directMessage =>
    rcases hasked with hother | hgroup
    · exact ⟨.direct, mem_directNotifications.2 ⟨s, hs, rfl, hwants, hdue, hother⟩⟩
    · exact ⟨.directGroup, mem_directGroupNotifications.2 ⟨s, hs, rfl, hwants, hdue, hgroup⟩⟩
  | threadReply =>
    obtain ⟨hthread, hmember⟩ := hasked
    rcases inThread_iff.1 hthread with hroot | hprior
    · exact ⟨.threadRoot, mem_threadNotifications.2 ⟨s, hs, rfl, hwants, hdue, hroot, hmember⟩⟩
    · exact ⟨.threadParticipant,
        mem_threadNotifications.2 ⟨s, hs, rfl, hwants, hdue, hprior, hmember⟩⟩
  | channelMessage =>
    exact ⟨.channel, mem_channelNotifications.2 ⟨s, hs, rfl, hwants, hdue, hasked⟩⟩

theorem mem_notifications_iff : r ∈ db.notifications m ↔
    ∃ s ∈ db.pushSubscriptions, ∃ kind, r = s.notification m.id kind ∧ db.Selects m kind s := by
  rw [mem_notifications]
  constructor
  · rintro ⟨insert, h⟩
    obtain ⟨s, hs, hr, hselects⟩ := selects_of_mem h
    exact ⟨s, hs, insert.kind, hr, hselects⟩
  · rintro ⟨s, hs, kind, rfl, hselects⟩
    exact hselects.mem hs

theorem notifications_sorted (db : Db) (m : ChatMessage) :
    (db.notifications m).Pairwise fun x y => x.kind.rank ≤ y.kind.rank := by
  have hkind : ∀ insert, ∀ r ∈ db.selected m insert, r.kind = insert.kind := by
    intro insert r hr
    obtain ⟨s, -, rfl, -⟩ := selects_of_mem hr
    rfl
  have hconst : ∀ insert, (db.selected m insert).Pairwise fun x y => x.kind.rank ≤ y.kind.rank :=
    fun insert => pairwise_of_forall_mem_list fun x hx y hy => by
      rw [hkind insert x hx, hkind insert y hy]
  have hflat : db.notifications m = [NotificationInsert.mention, .direct, .directGroup,
      .threadRoot, .threadParticipant, .channel].flatMap (db.selected m) := by
    simp [Db.notifications, Db.selected]
  rw [hflat, pairwise_flatMap]
  refine ⟨fun insert _ => hconst insert, List.Pairwise.imp (R := fun a b =>
    a.kind.rank ≤ b.kind.rank) (fun hle x hx y hy => ?_) (by decide)⟩
  rw [hkind _ x hx, hkind _ y hy]
  exact hle

/-! ### The outbox takes the first row of a device -/

def NotificationOutboxRow.SamePair (x r : NotificationOutboxRow) : Prop :=
  x.subscriptionId = r.subscriptionId ∧ x.messageId = r.messageId

instance (x r : NotificationOutboxRow) : Decidable (x.SamePair r) :=
  inferInstanceAs (Decidable (_ ∧ _))

/-- The rows that are added: each is the first of its pair, and its pair was not there. -/
theorem addToOutbox_added (outbox rows : List NotificationOutboxRow) :
    ∃ added, addToOutbox outbox rows = outbox ++ added ∧
      added.Pairwise (fun x y => ¬ x.SamePair y) ∧
      ∀ r ∈ added, (∀ x ∈ outbox, ¬ x.SamePair r) ∧
        ∃ before after, rows = before ++ r :: after ∧ ∀ x ∈ before, ¬ x.SamePair r := by
  induction rows generalizing outbox with
  | nil =>
    exact ⟨[], (append_nil outbox).symm, .nil, fun r hr => absurd hr not_mem_nil⟩
  | cons row rows ih =>
    rw [addToOutbox]
    split
    · next hany =>
      obtain ⟨added, heq, hpair, hadded⟩ := ih outbox
      obtain ⟨x, hx, hsame⟩ := any_eq_true.1 hany
      have hsame : x.SamePair row := of_decide_eq_true hsame
      refine ⟨added, heq, hpair, fun r hr => ?_⟩
      obtain ⟨hfresh, before, after, rfl, hbefore⟩ := hadded r hr
      refine ⟨hfresh, row :: before, after, rfl, fun y hy => ?_⟩
      rcases mem_cons.1 hy with rfl | hy
      · exact fun h => hfresh x hx ⟨hsame.1.trans h.1, hsame.2.trans h.2⟩
      · exact hbefore y hy
    · next hany =>
      obtain ⟨added, heq, hpair, hadded⟩ := ih (outbox ++ [row])
      refine ⟨row :: added, by rw [heq, append_assoc]; rfl, ?_, fun r hr => ?_⟩
      · refine pairwise_cons.2 ⟨fun r hr h => ?_, hpair⟩
        exact (hadded r hr).1 row (mem_append_right _ mem_cons_self) h
      · rcases mem_cons.1 hr with rfl | hr
        · refine ⟨fun x hx h => hany (any_eq_true.2 ⟨x, hx, decide_eq_true h⟩), [], rows, rfl,
            fun x hx => absurd hx not_mem_nil⟩
        · obtain ⟨hfresh, before, after, rfl, hbefore⟩ := hadded r hr
          refine ⟨fun x hx => hfresh x (mem_append_left _ hx), row :: before, after, rfl,
            fun x hx => ?_⟩
          rcases mem_cons.1 hx with rfl | hx
          · exact hfresh x (mem_append_right _ mem_cons_self)
          · exact hbefore x hx

theorem addToOutbox_covers (outbox : List NotificationOutboxRow)
    {rows : List NotificationOutboxRow} (hr : r ∈ rows) :
    ∃ x ∈ addToOutbox outbox rows, x.SamePair r := by
  have hkept : ∀ (rows outbox : List NotificationOutboxRow), ∀ x ∈ outbox,
      x ∈ addToOutbox outbox rows := by
    intro rows outbox x hx
    obtain ⟨added, heq, -⟩ := addToOutbox_added outbox rows
    rw [heq]
    exact mem_append_left _ hx
  induction rows generalizing outbox with
  | nil => exact absurd hr not_mem_nil
  | cons row rows ih =>
    rw [addToOutbox]
    rcases mem_cons.1 hr with rfl | hr
    · split
      · next hany =>
        obtain ⟨x, hx, hsame⟩ := any_eq_true.1 hany
        exact ⟨x, hkept rows outbox x hx, of_decide_eq_true hsame⟩
      · exact ⟨r, hkept rows _ r (mem_append_right _ mem_cons_self), rfl, rfl⟩
    · split
      · exact ih _ hr
      · exact ih _ hr

/-! ### Storing a message -/

/-- Constraints of the tables: the key of the devices, `check (user_a_id < user_b_id)`, and the
reference of a mention to its message. -/
structure Db.PushRules (db : Db) : Prop where
  devices : ∀ s ∈ db.pushSubscriptions, ∀ t ∈ db.pushSubscriptions, s.id = t.id → s = t
  pairs : ∀ d ∈ db.directConversations, d.userA ≠ d.userB
  mentions : ∀ r ∈ db.messageMentions, db.hasMessage r.messageId = true

/-- The transactions that store a message and then notify of it: a message that is sent or edited,
a delivery of an integration, and a task. -/
inductive Stores (host : Host) (m : ChatMessage) (db db' : Db) : Prop
  | sent (env : SendEnv) (h : (storeMessage host m env).run db = .ok (m, db'))
  | edited (h : (storeEdit host m).run db = .ok (m, db'))
  | delivered (agent : UserId) (c : ChannelId) (body : MessageBody) (env : DeliveryEnv)
      (h : (insertIntegrationMessage agent c body env).run db = .ok (m, db'))
  | projected (item : Uuid) (task : HeartTask)
      (h : (storeTask item task m).run db = .ok (some m.id, db'))

structure Enqueued (m : ChatMessage) (db db' : Db) : Prop where
  outbox : db'.notificationOutbox = addToOutbox db.notificationOutbox (db'.notifications m)
  devices : db'.pushSubscriptions = db.pushSubscriptions
  directs : db'.directConversations = db.directConversations
  members : db'.channelMemberships = db.channelMemberships
  preferences : db'.notificationPreferences = db.notificationPreferences
  mentions : ∀ r ∈ db'.messageMentions, r.messageId = m.id →
    db'.inChannel m.channelId r.mentionedUserId = true

section

variable {kind : NotificationKind} {s : PushSubscriptionRow}

variable {host : Host} {m : ChatMessage} {db db' : Db}

theorem mentioned_inChannel {u : UserRow} (hu : u ∈ db.mentioned host m) :
    db.inChannel m.channelId u.id = true := by
  have hu := (mem_filter.1 hu).2
  rw [decide_eq_true_eq] at hu
  exact hu.2.1

theorem Stores.enqueued (hrules : db.PushRules) (h : Stores host m db db') : Enqueued m db db' := by
  have hnone : (db.messages.any fun r => r.id = m.id ∨ r.channelId = m.channelId ∧
      r.sequence = m.sequence) = false → ∀ r ∈ db.messageMentions, r.messageId ≠ m.id := by
    intro hfree r hr heq
    obtain ⟨row, hrow, hid⟩ := any_eq_true.1 (hrules.mentions r hr)
    have htaken := any_eq_false.1 hfree row hrow
    exact htaken (decide_eq_true (.inl ((of_decide_eq_true hid).trans heq)))
  cases h with
  | sent env h =>
    simp only [storeMessage, Sql.insertMessage, persistMentions, runHook, enqueueMessage,
      Sql.answers, answers] at h
    obtain ⟨hfree, -, _, -, _, db₂, hatt, _, -, -, rfl⟩ := h
    obtain ⟨ids, -, -, rfl⟩ := persistAttachments_ok hatt
    refine ⟨rfl, rfl, rfl, rfl, rfl, fun r hr hid => ?_⟩
    rcases mem_append.1 hr with hr | hr
    · exact absurd hid (hnone hfree r hr)
    · obtain ⟨u, hu, rfl⟩ := mem_map.1 hr
      exact mentioned_inChannel (mem_filter.1 hu).1
  | edited h =>
    simp only [storeEdit, replaceMessage, deleteMentions, persistMentions, enqueueMessage,
      answers] at h
    obtain ⟨-, rfl⟩ := h
    refine ⟨rfl, rfl, rfl, rfl, rfl, fun r hr hid => ?_⟩
    rcases mem_append.1 hr with hr | hr
    · exact absurd hid (of_decide_eq_true (mem_filter.1 hr).2)
    · obtain ⟨u, hu, rfl⟩ := mem_map.1 hr
      exact mentioned_inChannel (mem_filter.1 hu).1
  | delivered agent c body env h =>
    simp only [insertIntegrationMessage, Sql.bumpSequence, senderName, Sql.insertMessage,
      enqueueMessage, Sql.answers, answers] at h
    obtain ⟨sequence, -, row, -, hfree, -, rfl, rfl⟩ := h
    exact ⟨rfl, rfl, rfl, rfl, rfl, fun r hr hid => absurd hid (hnone hfree r hr)⟩
  | projected item task h =>
    simp only [storeTask, Sql.insertMessage, enqueueMessage, insertTask, Sql.answers, answers] at h
    obtain ⟨hfree, -, _, -, -, -, -, rfl⟩ := h
    exact ⟨rfl, rfl, rfl, rfl, rfl, fun r hr hid => absurd hid (hnone hfree r hr)⟩

/-! ### Confinement -/

/-- The rows that a transaction adds: at most one for a device and a message, each for a device
that is to be notified, and of the first kind that applies to it. -/
def Confined (m : ChatMessage) (db db' : Db) : Prop :=
  ∃ added, db'.notificationOutbox = db.notificationOutbox ++ added ∧
    added.Pairwise (fun x y => ¬ x.SamePair y) ∧
    ∀ r ∈ added, (∀ x ∈ db.notificationOutbox, ¬ x.SamePair r) ∧
      ∃ s ∈ db'.pushSubscriptions, r = s.notification m.id r.kind ∧ db'.Applies m r.kind s ∧
        ∀ kind, kind.rank < r.kind.rank → ¬ db'.Applies m kind s

/-- The other party of a direct conversation is in it, unless none of their devices is to hear of
a direct message now. -/
def Db.OtherPartyPresent (db : Db) (m : ChatMessage) : Prop :=
  ∀ s ∈ db.pushSubscriptions, db.OtherParty m s.userId →
    db.wantsInstant s.userId (·.directMessages) = true →
    s.notificationAfterMessageId.uuid < m.id.uuid →
    (∀ x ∈ db.notificationOutbox, ¬ x.SamePair (s.notification m.id .directMessage)) →
    db.inChannel m.channelId s.userId = true

theorem Db.Applies.selects (h : db.Applies m kind s) : db.Selects m kind s := by
  refine ⟨h.wanted, h.due, ?_⟩
  cases kind with
  | mention => exact ⟨h.reason, h.other⟩
  | directMessage =>
    rcases h.reason with hother | hgroup
    · exact .inl hother
    · exact .inr ⟨hgroup, h.member, h.other⟩
  | threadReply | channelMessage => exact ⟨h.reason, h.member, h.other⟩

theorem otherParty_ne_sender (hpairs : ∀ d ∈ db.directConversations, d.userA ≠ d.userB)
    {u : UserId} (h : db.OtherParty m u) : u ≠ m.senderId := by
  obtain ⟨d, hd, -, rfl⟩ := h
  rw [Db.otherParty]
  split
  · next hsender => exact fun heq => hpairs d hd (hsender.trans heq.symm)
  · next hsender => exact hsender

/-- What is selected applies, if the other party of a conversation is in it. -/
theorem Db.Selects.applies (hpairs : ∀ d ∈ db.directConversations, d.userA ≠ d.userB)
    (hmentions : ∀ r ∈ db.messageMentions, r.messageId = m.id →
      db.inChannel m.channelId r.mentionedUserId = true) (h : db.Selects m kind s)
    (hpresent : kind = .directMessage → db.OtherParty m s.userId →
      db.inChannel m.channelId s.userId = true) : db.Applies m kind s := by
  obtain ⟨hwants, hdue, hasked⟩ := h
  cases kind with
  | mention => exact ⟨hasked.2, hmentions _ hasked.1 rfl, hwants, hdue, hasked.1⟩
  | directMessage =>
    rcases hasked with hother | ⟨hgroup, hmember, hne⟩
    · exact ⟨otherParty_ne_sender hpairs hother, hpresent rfl hother, hwants, hdue, .inl hother⟩
    · exact ⟨hne, hmember, hwants, hdue, .inr hgroup⟩
  | threadReply | channelMessage => exact ⟨hasked.2.2, hasked.2.1, hwants, hdue, hasked.1⟩

namespace Enqueued

variable (h : Enqueued m db db')
include h

variable {u : UserId}

theorem wantsInstant {sort : NotificationPreferenceRow → Bool} :
    db'.wantsInstant u sort = db.wantsInstant u sort := by
  rw [Db.wantsInstant, Db.wantsInstant, h.preferences]

theorem inChannel (c : ChannelId) : db'.inChannel c u = db.inChannel c u := by
  rw [Db.inChannel, Db.inChannel, h.members]

theorem otherParty : db'.OtherParty m u ↔ db.OtherParty m u := by
  rw [Db.OtherParty, Db.OtherParty, h.directs]

end Enqueued

theorem not_applies_of_rank_lt {before after : List NotificationOutboxRow}
    (hrows : db.notifications m = before ++ r :: after) (hbefore : ∀ x ∈ before, ¬ x.SamePair r)
    (hs : s ∈ db.pushSubscriptions) (hr : r = s.notification m.id r.kind)
    (hrank : kind.rank < r.kind.rank) : ¬ db.Applies m kind s := by
  intro happlies
  have hmem := mem_notifications_iff.2 ⟨s, hs, kind, rfl, happlies.selects⟩
  have hsorted := notifications_sorted db m
  rw [hrows] at hmem hsorted
  rcases mem_append.1 hmem with hmem | hmem
  · refine hbefore _ hmem ?_
    rw [hr]
    exact ⟨rfl, rfl⟩
  · rcases mem_cons.1 hmem with heq | hmem
    · rw [← heq] at hrank
      exact absurd hrank (Nat.lt_irrefl _)
    · have hle := (pairwise_cons.1 (pairwise_append.1 hsorted).2.1).1 _ hmem
      exact absurd hrank (Nat.not_lt.2 hle)

theorem Stores.confined (hrules : db.PushRules) (h : Stores host m db db')
    (hpresent : db.OtherPartyPresent m) : Confined m db db' := by
  have he := h.enqueued hrules
  obtain ⟨added, hadd, hpair, hadded⟩ :=
    addToOutbox_added db.notificationOutbox (db'.notifications m)
  refine ⟨added, he.outbox.trans hadd, hpair, fun r hr => ?_⟩
  obtain ⟨hfresh, before, after, hrows, hbefore⟩ := hadded r hr
  have hmem : r ∈ db'.notifications m := by
    rw [hrows]
    exact mem_append_right _ mem_cons_self
  obtain ⟨s, hs, kind, heq, hselects⟩ := mem_notifications_iff.1 hmem
  obtain rfl : r.kind = kind := by rw [heq]; rfl
  refine ⟨hfresh, s, hs, heq, hselects.applies (he.directs ▸ hrules.pairs) he.mentions
    fun hkind hother => ?_, fun kind hrank => not_applies_of_rank_lt hrows hbefore hs heq hrank⟩
  -- the insert for the two parties does not ask for membership
  have hwants := hselects.wanted
  have hdue := hselects.due
  rw [hkind] at hwants hdue heq
  rw [he.inChannel]
  refine hpresent s (he.devices ▸ hs) ((he.otherParty).1 hother)
    ((he.wantsInstant).symm.trans hwants) hdue fun x hx => ?_
  rw [← heq]
  exact hfresh x hx

/-- Notifications go to members only, to the devices that are to hear of the message and for the
first reason that applies, if and only if the other party of a direct conversation is in it. -/
theorem notifications_are_confined (hrules : db.PushRules) (h : Stores host m db db') :
    Confined m db db' ↔ db.OtherPartyPresent m := by
  refine ⟨?_, h.confined hrules⟩
  rintro ⟨added, hadd, -, hadded⟩ s hs hother hwants hdue hfresh
  have he := h.enqueued hrules
  have hselects : db'.Selects m .directMessage s :=
    ⟨(he.wantsInstant).trans hwants, hdue, .inl ((he.otherParty).2 hother)⟩
  have hmem := mem_notifications_iff.2 ⟨s, he.devices.symm ▸ hs, .directMessage, rfl, hselects⟩
  obtain ⟨x, hx, hsame⟩ := addToOutbox_covers db.notificationOutbox hmem
  rw [← he.outbox, hadd] at hx
  rcases mem_append.1 hx with hx | hx
  · exact absurd hsame (hfresh x hx)
  · obtain ⟨-, t, ht, heq, happlies, -⟩ := hadded x hx
    have hid : t.id = s.id := by
      have hsub := hsame.1
      rw [heq] at hsub
      exact hsub
    obtain rfl := hrules.devices t (he.devices ▸ ht) s hs hid
    rw [← he.inChannel]
    exact happlies.member

end

namespace Sample

def phone : PushSubscriptionInput := ⟨"https://push.apple.com/1", "key", "auth"⟩

def withPhone (calls : List RollCall) : Db :=
  ((subscribe alice phone none 30 (.ok ())).commit (execAll host calls .empty)).2

def inTouch : List RollCall := partedWays.take 3

def bobsNote : ChatMessage :=
  ⟨⟨0x01900000000070008000000000000001⟩, ⟨9⟩, none, bob, bobName, hello, 1, 0, none, none⟩

end Sample

open Sample in
/-- Alice hears of a message to a conversation that she is in. -/
theorem conversation_notifies_its_member :
    ∃ db', Stores host bobsNote (withPhone inTouch) db' ∧
      Confined bobsNote (withPhone inTouch) db' ∧
      db'.notificationOutbox.length = 1 := by
  have hstores : Stores host bobsNote (withPhone inTouch) _ := .sent (.quiet 1 0) rfl
  refine ⟨_, hstores, (notifications_are_confined ?_ hstores).2 ?_, rfl⟩
  · refine ⟨fun s hs t ht _ => ?_, fun d hd => ?_, fun r hr => absurd hr not_mem_nil⟩
    · rw [mem_singleton.1 hs, mem_singleton.1 ht]
    · rw [mem_singleton.1 hd]
      decide
  · intro s hs _ _ _ _
    rw [mem_singleton.1 hs]
    rfl

open Sample in
/-- Alice has left the conversation and hears of a message to it all the same. -/
theorem departed_party_is_notified :
    ∃ db', (withPhone partedWays).PushRules ∧ Stores host bobsNote (withPhone partedWays) db' ∧
      db'.inChannel bobsNote.channelId alice = false ∧
      ∃ r ∈ db'.notificationOutbox, r.recipientId = alice ∧ r.messageId = bobsNote.id := by
  refine ⟨_, ⟨fun s hs t ht _ => ?_, fun d hd => ?_, fun r hr => absurd hr not_mem_nil⟩,
    .sent (.quiet 1 0) rfl, rfl, _, mem_singleton_self _, rfl, rfl⟩
  · rw [mem_singleton.1 hs, mem_singleton.1 ht]
  · rw [mem_singleton.1 hd]
    decide

end Sproyt
