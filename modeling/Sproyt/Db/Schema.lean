import Sproyt.Domain.Types
import Sproyt.Lib.Txn

/-!
# The chat database

Tables of the SQLite adapter as lists of rows in insertion order, and the lookups its
statements share. Audit events and the agent subsystem's own tables are not kept here.
-/

namespace Sproyt

open Txn

structure UserRow where
  id : UserId
  kind : PrincipalKind
  displayName : DisplayName
  handle : Option String

structure CircleRow where
  id : CircleId
  slug : String
  name : DisplayName
  createdBy : UserId

structure CircleMembershipRow where
  circleId : CircleId
  userId : UserId
  role : CircleRole
  joinedAt : Time

structure CircleInvitationRow where
  id : Uuid
  circleId : CircleId
  invitedBy : UserId
  tokenHash : Hash
  expiresAt : Time
  acceptedBy : Option UserId
  acceptedAt : Option Time

inductive EnrollmentInvitationState
  | inactive
  | active
  | consumed
deriving DecidableEq, Repr

structure EnrollmentInvitationRow where
  id : Uuid
  circleId : Option CircleId
  invitedBy : UserId
  tokenHash : Hash
  expectedEmailHash : Hash
  expiresAt : Time
  state : EnrollmentInvitationState
  authentikInvitationId : Option Uuid
  consumedBy : Option UserId

structure ChatInvitationRow where
  id : Uuid
  tokenHash : Hash
  target : InvitationTarget
  invitedBy : UserId
  expiresAt : Time

inductive InvitationResponse
  | declined
  | accepted
deriving DecidableEq, Repr

structure ChatInvitationResponseRow where
  invitationId : Uuid
  userId : UserId
  response : InvitationResponse

structure MembershipRow where
  channelId : ChannelId
  userId : UserId
  role : MembershipRole
  lastReadSequence : Nat

structure SequenceRow where
  channelId : ChannelId
  nextSequence : Nat
deriving DecidableEq

structure ThreadReadMarkerRow where
  rootMessageId : MessageId
  userId : UserId
  lastReadSequence : Nat

structure DirectConversationRow where
  channelId : ChannelId
  userA : UserId
  userB : UserId

structure DirectGroupConversationRow where
  channelId : ChannelId
  sourceChannelId : ChannelId

structure DirectGroupExpansionRow where
  sourceChannelId : ChannelId
  addedUserId : UserId
  channelId : ChannelId

structure PersonalSpaceRow where
  ownerId : UserId
  channelId : ChannelId
  noteMarkdown : String := ""
  noteRevision : Int := 0

structure PersonalSavedLinkRow where
  id : Uuid
  ownerId : UserId
  sourceChannelId : ChannelId
  sourceMessageId : MessageId
  logMessageId : Option MessageId
  savedAt : Time

structure MentionRow where
  messageId : MessageId
  mentionedUserId : UserId

structure ReactionRow where
  messageId : MessageId
  userId : UserId
  emoji : String

structure MediaObjectRow where
  id : MediaId
  ownerId : UserId
  channelId : ChannelId

structure AttachmentRow where
  messageId : MessageId
  mediaId : MediaId
  position : Nat

structure CommandReceiptRow where
  principalId : UserId
  requestId : String
  messageId : Option MessageId

structure PushSubscriptionRow where
  id : Uuid
  userId : UserId
  endpoint : String
  p256dh : String
  auth : String
  userAgent : Option String
  notificationAfterMessageId : MessageId
  threadNotificationAfterMessageId : MessageId

inductive NotificationMode
  | instant
  | weekly
  | muted
deriving DecidableEq, Repr

structure NotificationPreferenceRow where
  userId : UserId
  mode : NotificationMode
  directMessages : Bool
  mentions : Bool
  weeklyWeekday : Int

structure ChannelNotificationSubscriptionRow where
  userId : UserId
  channelId : ChannelId
  notificationAfterMessageId : MessageId

inductive NotificationKind
  | mention
  | directMessage
  | threadReply
  | channelMessage
deriving DecidableEq, Repr

/-- A notification to deliver. Its times are in seconds, as `current_timestamp` has them; a row
is available from the start unless a time is set. -/
structure NotificationOutboxRow where
  subscriptionId : Uuid
  recipientId : UserId
  messageId : MessageId
  kind : NotificationKind
  availableAt : Option Int := none
  leasedUntil : Option Int := none
  attempts : Nat := 0
  deliveredAt : Option Int := none
  lastError : Option String := none
deriving DecidableEq

structure AgentProfileRow where
  agentId : UserId
  ownerId : UserId
  provider : String
  serviceIdentity : String
  expiresAt : Option Time
  revokedAt : Option Time

inductive AgentScope
  | readHistory
  | sendMessages
  | startProcesses
  | completeProcessWork
deriving DecidableEq, Repr

structure AgentGrantRow where
  id : Uuid
  agentId : UserId
  circleId : Option CircleId
  channelId : Option ChannelId
  scope : AgentScope
  expiresAt : Option Time
  revokedAt : Option Time

structure AgentCredentialRow where
  id : Uuid
  agentId : UserId
  expiresAt : Time
  revokedAt : Option Time

inductive OccurrenceState
  | pending
  | firing
  | resolved
deriving DecidableEq, Repr

structure AlertOccurrenceRow where
  agentId : UserId
  fingerprint : String
  startsAt : Time
  state : OccurrenceState
  firingMessageId : Option MessageId
  resolvedMessageId : Option MessageId

structure ReportDeliveryRow where
  agentId : UserId
  reportId : String
  messageId : Option MessageId

inductive TaskNode
  | review
  | provideInformation
  | followupReview
  | publishGithub
  | other (name : String)
deriving DecidableEq, Repr

inductive TaskStatus
  | pending
  | completed
  | cancelled
deriving DecidableEq, Repr

inductive DefinitionVersion
  | v100
  | v110
deriving DecidableEq, Repr

inductive ProcessStatus
  | starting
  | waiting
  | completed
  | cancelled
  | failed
deriving DecidableEq, Repr

inductive StartStatus
  | pending
  | leased
  | started
  | failed
deriving DecidableEq, Repr

structure TaskDecision where
  requestId : Option Uuid
  category : Option String
  priority : Option String
  status : Option String
  note : Option String
  revision : Option Int
  supplementId : Option Uuid
deriving DecidableEq

def TaskDecision.undecided : TaskDecision := ⟨none, none, none, none, none, none, none⟩

structure WorkItemRow where
  id : Uuid
  sourceChannelId : ChannelId
  taskChannelId : ChannelId
  requestedBy : UserId
  reviewerId : UserId
  definitionVersion : DefinitionVersion
  syncLeaseToken : Option Uuid
  category : Option String
  priority : Option String
  status : String
  sourceMessageId : MessageId
  applicationId : Uuid
  bindingId : Uuid
  revision : Int := 1
  processStatus : ProcessStatus := .starting
  startStatus : StartStatus := .pending
  leaseUntil : Option Int := none
  availableAt : Int := 0
  heartInstanceId : Option Uuid := none
  syncLeaseUntil : Option Int := none

structure ExportProcessRow where
  workItemId : Uuid
  channelId : ChannelId
  assigneeId : UserId
  waiting : Bool
  leaseToken : Option Uuid

structure WorkItemTaskRow where
  id : Uuid
  workItemId : Uuid
  messageId : MessageId
  channelId : ChannelId
  assigneeId : UserId
  nodeId : TaskNode
  status : TaskStatus
  deliveryReady : Bool
  decision : TaskDecision

structure Db where
  users : List UserRow
  circles : List CircleRow
  circleMemberships : List CircleMembershipRow
  circleInvitations : List CircleInvitationRow
  enrollmentInvitations : List EnrollmentInvitationRow
  chatInvitations : List ChatInvitationRow
  chatInvitationResponses : List ChatInvitationResponseRow
  channels : List Channel
  channelMemberships : List MembershipRow
  channelSequences : List SequenceRow
  messages : List ChatMessage
  threadReadMarkers : List ThreadReadMarkerRow
  directConversations : List DirectConversationRow
  directGroupConversations : List DirectGroupConversationRow
  directGroupExpansions : List DirectGroupExpansionRow
  personalSpaces : List PersonalSpaceRow
  personalSavedLinks : List PersonalSavedLinkRow
  messageMentions : List MentionRow
  messageReactions : List ReactionRow
  mediaObjects : List MediaObjectRow
  messageAttachments : List AttachmentRow
  commandReceipts : List CommandReceiptRow
  pushSubscriptions : List PushSubscriptionRow
  notificationPreferences : List NotificationPreferenceRow
  channelNotificationSubscriptions : List ChannelNotificationSubscriptionRow
  notificationOutbox : List NotificationOutboxRow
  agentProfiles : List AgentProfileRow
  agentGrants : List AgentGrantRow
  agentCredentials : List AgentCredentialRow
  incomingAlertOccurrences : List AlertOccurrenceRow
  incomingReportDeliveries : List ReportDeliveryRow
  workItems : List WorkItemRow
  workItemExportProcesses : List ExportProcessRow
  workItemTasks : List WorkItemTaskRow

def Db.empty : Db :=
  ⟨[], [], [], [], [], [], [], [], [], [], [], [], [], [], [], [], [], [], [], [], [], [], [], [],
    [], [], [], [], [], [], [], [], [], []⟩

abbrev Sql (α : Type) := Txn Db RepositoryError α

/-! ### Lookups -/

namespace Db

variable (db : Db)

def user? (u : UserId) : Option UserRow := db.users.find? fun r => r.id = u

def hasUser (u : UserId) : Bool := db.users.any fun r => r.id = u

def isHuman (u : UserId) : Bool := db.users.any fun r => r.id = u ∧ r.kind = .human

def hasCircle (k : CircleId) : Bool := db.circles.any fun r => r.id = k

def channel? (c : ChannelId) : Option Channel := db.channels.find? fun r => r.id = c

def hasChannel (c : ChannelId) : Bool := db.channels.any fun r => r.id = c

def message? (m : MessageId) : Option ChatMessage := db.messages.find? fun r => r.id = m

def hasMessage (m : MessageId) : Bool := db.messages.any fun r => r.id = m

def circleRole? (k : CircleId) (u : UserId) : Option CircleRole :=
  (db.circleMemberships.find? fun r => r.circleId = k ∧ r.userId = u).map (·.role)

def inCircle (k : CircleId) (u : UserId) : Bool :=
  db.circleMemberships.any fun r => r.circleId = k ∧ r.userId = u

def channelRole? (c : ChannelId) (u : UserId) : Option MembershipRole :=
  (db.channelMemberships.find? fun r => r.channelId = c ∧ r.userId = u).map (·.role)

def inChannel (c : ChannelId) (u : UserId) : Bool :=
  db.channelMemberships.any fun r => r.channelId = c ∧ r.userId = u

end Db

/-! ### Statements with constraints -/

namespace Sql

/-- The error of `fetch_one` on no row. -/
def rowNotFound : RepositoryError :=
  .storage "no rows returned by a query that expected to return at least one row"

/-- A violated check, as `sqlx` prints the error of SQLite. -/
def checkViolation (check : String) : RepositoryError :=
  .storage ("error returned from database: (code: 275) CHECK constraint failed: " ++ check)

/-- Insert a row. A taken key is a unique violation and a dangling reference is a foreign
key violation; `sql_error` names them `Conflict` and `PermissionDenied`. -/
def insert (taken resolves : Db → Bool) (put : Db → Db) : Sql Unit := do
  let db ← Txn.read id
  Txn.ensure (taken db = false) .conflict
  Txn.ensure (resolves db = true) .permissionDenied
  Txn.write put

/-- `insert … on conflict (key) do nothing`, answering whether a row was inserted. Only a
conflict on the named key is ignored. -/
def insertOrIgnore (present taken resolves : Db → Bool) (put : Db → Db) : Sql Bool := do
  if ← Txn.read present then
    pure false
  else
    insert taken resolves put
    pure true

/-- `fetch_one`. -/
def fetchOne {α : Type} (o : Option α) : Sql α := Txn.demand o rowNotFound

variable {taken resolves present : Db → Bool} {put : Db → Db} {db db' : Db} {e : RepositoryError}

@[simp] theorem insert_ok {u : Unit} :
    (insert taken resolves put).run db = .ok (u, db') ↔
      taken db = false ∧ resolves db = true ∧ put db = db' := by
  simp [insert]

@[simp] theorem fetchOne_ok {α : Type} {o : Option α} {a : α} :
    (fetchOne o).run db = .ok (a, db') ↔ o = some a ∧ db = db' := by
  simp [fetchOne]

@[simp] theorem insert_error :
    (insert taken resolves put).run db = .error e ↔
      (taken db = true ∧ RepositoryError.conflict = e) ∨
        (taken db = false ∧ resolves db = false ∧ RepositoryError.permissionDenied = e) := by
  cases ht : taken db with
  | true | false => simp [insert, ht]

@[simp] theorem insertOrIgnore_ok {b : Bool} :
    (insertOrIgnore present taken resolves put).run db = .ok (b, db') ↔
      (present db = true ∧ false = b ∧ db = db') ∨
        (present db = false ∧ taken db = false ∧ resolves db = true ∧ true = b ∧
          put db = db') := by
  cases hp : present db with
  | true => simp [insertOrIgnore, hp]
  | false =>
    simp only [insertOrIgnore, bind_ok, read_ok, hp]
    simp
    tauto

@[simp] theorem insertOrIgnore_error :
    (insertOrIgnore present taken resolves put).run db = .error e ↔
      present db = false ∧ ((taken db = true ∧ RepositoryError.conflict = e) ∨
        (taken db = false ∧ resolves db = false ∧ RepositoryError.permissionDenied = e)) := by
  cases hp : present db with
  | true | false => simp [insertOrIgnore, hp]

/-- The rules for statements that answer, as one set for `simp`. -/
theorem answers :
    (∀ {taken resolves : Db → Bool} {put : Db → Db} {db : Db} {P : Unit → Db → Prop},
      (insert taken resolves put).Then db P ↔
        taken db = false ∧ resolves db = true ∧ P () (put db)) ∧
    (∀ {present taken resolves : Db → Bool} {put : Db → Db} {db : Db} {P : Bool → Db → Prop},
      (insertOrIgnore present taken resolves put).Then db P ↔
        (present db = true ∧ P false db) ∨
          (present db = false ∧ taken db = false ∧ resolves db = true ∧ P true (put db))) ∧
    (∀ {α : Type} {o : Option α} {db : Db} {P : α → Db → Prop},
      (fetchOne o).Then db P ↔ ∃ a, o = some a ∧ P a db) ∧
    (∀ {taken resolves : Db → Bool} {put : Db → Db} {db db' : Db} {u : Unit},
      (insert taken resolves put).run db = .ok (u, db') ↔
        taken db = false ∧ resolves db = true ∧ put db = db') ∧
    ∀ {α : Type} {o : Option α} {db db' : Db} {a : α},
      (fetchOne o).run db = .ok (a, db') ↔ o = some a ∧ db = db' := by
  refine ⟨by simp [insert, Txn.answers], ?_, by simp [fetchOne, Txn.answers], insert_ok,
    fetchOne_ok⟩
  intro present taken resolves put db P
  cases hp : present db with
  | true | false => simp [insertOrIgnore, insert, hp, Txn.answers]

theorem insert_frame {γ : Type} {view : Db → γ} (h : ∀ db, view (put db) = view db) :
    Frame view (insert taken resolves put) := by
  intro db u db' hr
  obtain ⟨-, -, rfl⟩ := insert_ok.1 hr
  exact h db

theorem insertOrIgnore_frame {γ : Type} {view : Db → γ} (h : ∀ db, view (put db) = view db) :
    Frame view (insertOrIgnore present taken resolves put) := by
  intro db b db' hr
  rcases insertOrIgnore_ok.1 hr with ⟨-, -, rfl⟩ | ⟨-, -, -, -, rfl⟩
  · rfl
  · exact h db

end Sql

namespace Sample

def db : Db :=
  { Db.empty with
    users := [⟨alice, .human, aliceName, some "alice"⟩,
      ⟨bob, .human, bobName, some "bob"⟩]
    circles := [⟨circle, "familie", circleName, alice⟩]
    circleMemberships := [⟨circle, alice, .owner, 0⟩] }

def chat : Db :=
  { db with
    channels := [⟨room, "familie-rom", roomName, .localChannel, some circle, alice⟩]
    channelSequences := [⟨room, 1⟩]
    channelMemberships := [⟨room, alice, .owner, 0⟩] }

end Sample

end Sproyt
