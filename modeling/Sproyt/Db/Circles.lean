import Sproyt.Db.Channels

/-!
# Circles and invitations

Circles, the three kinds of invitations into them, and the channel that accepting a chat
invitation brings about.
-/

namespace Sproyt

open Sql Txn

/-! ### Circles -/

def createCircle (command : CreateCircle) (id : CircleId) (createdAt : Time) : Sql CircleRow := do
  let circle : CircleRow := ⟨id, command.slug.text, command.name, command.actor⟩
  insert (fun db => db.circles.any fun r => r.id = circle.id ∨ r.slug = circle.slug)
    (fun db => db.hasUser circle.createdBy)
    fun db => { db with circles := db.circles ++ [circle] }
  insert (fun db => db.inCircle circle.id circle.createdBy)
    (fun db => db.hasCircle circle.id && db.hasUser circle.createdBy)
    fun db =>
      { db with circleMemberships :=
          db.circleMemberships ++ [⟨circle.id, circle.createdBy, .owner, createdAt⟩] }
  pure circle

/-- `delete_circle`. References without a cascade, such as a thread reply's parent, make the
database refuse the delete; `refused` says that it did. -/
def deleteCircle (actor : UserId) (k : CircleId) (refused : Bool) : Sql Unit := do
  let role ← read fun db => db.circleRole? k actor
  ensure (Policy.canDeleteCircle role) .permissionDenied
  let present ← read fun db => db.hasCircle k
  ensure (refused = false) .permissionDenied
  write fun db => db.removeCircle k
  ensure (present = true) .notFound

def Db.channelOfCircle (db : Db) (k : CircleId) (c : ChannelId) : Bool :=
  db.channels.any fun r => r.id = c ∧ r.circleId = some k

def leaveCircle (actor : UserId) (k : CircleId) : Sql Unit := do
  let role ← read fun db => db.circleRole? k actor
  ensure (Policy.canLeaveCircle role) .permissionDenied
  write fun db =>
    { db with channelNotificationSubscriptions :=
        db.channelNotificationSubscriptions.filter fun r =>
          !(r.userId = actor ∧ db.channelOfCircle k r.channelId) }
  write fun db =>
    { db with channelMemberships :=
        db.channelMemberships.filter fun r =>
          !(r.userId = actor ∧ db.channelOfCircle k r.channelId) }
  write fun db =>
    { db with circleMemberships :=
        db.circleMemberships.filter fun r => !(r.circleId = k ∧ r.userId = actor) }

/-! ### Circle invitations -/

def Db.humanCircleRole? (db : Db) (k : CircleId) (u : UserId) : Option CircleRole :=
  if db.isHuman u then db.circleRole? k u else none

def day : Time := 86400 * 1000000000

/-- The row `create_circle_invitation` inserts. -/
def circleInvitation (host : Host) (actor : UserId) (k : CircleId) (id : Uuid) (token : String)
    (now : Time) : CircleInvitationRow :=
  ⟨id, k, actor, host.hashToken token, now + 7 * day, none, none⟩

def insertCircleInvitation (row : CircleInvitationRow) : Sql Unit :=
  insert
    (fun db => db.circleInvitations.any fun r => r.id = row.id ∨ r.tokenHash = row.tokenHash)
    (fun db => db.hasCircle row.circleId && db.hasUser row.invitedBy)
    fun db => { db with circleInvitations := db.circleInvitations ++ [row] }

def acceptCircleInvitation (host : Host) (actor : UserId) (token : String) (now joinedAt : Time) :
    Sql CircleMembershipRow := do
  let row ← read fun db => db.circleInvitations.find? fun r =>
    r.tokenHash = host.hashToken token ∧ r.acceptedAt = none
  let invitation ← demand row .notFound
  ensure (¬ invitation.expiresAt < now) .notFound
  write fun db =>
    { db with circleInvitations := db.circleInvitations.map fun r =>
        if r.id = invitation.id ∧ r.acceptedAt = none then
          { r with acceptedBy := some actor, acceptedAt := some joinedAt }
        else r }
  let _ ← joinCircle invitation.circleId actor .member joinedAt
  pure ⟨invitation.circleId, actor, .member, joinedAt⟩

/-- `accept_circle_invitation` of `postgres.rs`. The columns keep whole microseconds, and the answer
has the instant as it was taken. -/
def Postgres.acceptCircleInvitation (host : Host) (actor : UserId) (token : String)
    (now joinedAt : Time) : Sql CircleMembershipRow := do
  let m ← Sproyt.acceptCircleInvitation host actor token now (postgresTime joinedAt)
  pure { m with joinedAt }

/-! ### Enrollment invitations -/

/-- The check of `prepare_enrollment_invitation`. -/
def Db.mayEnroll (db : Db) (actor : UserId) : Option CircleId → Bool
  | none => db.isHuman actor
  | some k => Policy.canInviteToCircle (db.humanCircleRole? k actor)

def insertEnrollmentInvitation (row : EnrollmentInvitationRow) : Sql Unit :=
  insert
    (fun db => db.enrollmentInvitations.any fun r => r.id = row.id ∨ r.tokenHash = row.tokenHash)
    (fun db => row.circleId.all db.hasCircle && db.hasUser row.invitedBy)
    fun db => { db with enrollmentInvitations := db.enrollmentInvitations ++ [row] }

/-- The rows `activate_enrollment_invitation` updates. -/
def EnrollmentInvitationRow.activatable (tokenHash : Hash) (now : Time)
    (r : EnrollmentInvitationRow) : Bool :=
  r.tokenHash = tokenHash ∧ r.state = .inactive ∧ now < r.expiresAt

def activateEnrollmentInvitation (host : Host) (token : String) (authentikId : Uuid)
    (now : Time) : Sql EnrollmentInvitationRow := do
  let tokenHash := host.hashToken token
  let row ← read fun db => db.enrollmentInvitations.find? (·.activatable tokenHash now)
  let taken ← read fun db =>
    db.enrollmentInvitations.any fun r => r.authentikInvitationId = some authentikId
  let invitation ← demand row .notFound
  ensure (taken = false) .conflict
  write fun db =>
    { db with enrollmentInvitations := db.enrollmentInvitations.map fun r =>
        if r.activatable tokenHash now then
          { r with state := .active, authentikInvitationId := some authentikId }
        else r }
  pure { invitation with state := .active, authentikInvitationId := some authentikId }

/-- The rows `accept_enrollment_invitation` consumes. -/
def EnrollmentInvitationRow.consumable (tokenHash emailHash : Hash) (now : Time)
    (r : EnrollmentInvitationRow) : Bool :=
  r.tokenHash = tokenHash ∧ r.expectedEmailHash = emailHash ∧ r.state = .active ∧
    now < r.expiresAt

def joinEnrolledCircle (actor : UserId) (now : Time) :
    Option CircleId → Sql (Option CircleMembershipRow)
  | none => pure none
  | some k => do
    let _ ← joinCircle k actor .member now
    let row ← read fun db =>
      db.circleMemberships.find? fun r => r.circleId = k ∧ r.userId = actor
    let row ← fetchOne row
    pure (some row)

def acceptEnrollmentInvitation (host : Host) (actor : UserId) (token email : String)
    (now : Time) : Sql (Option CircleMembershipRow) := do
  let tokenHash := host.hashToken token
  let emailHash := host.emailHash email
  let row ← read fun db =>
    db.enrollmentInvitations.find? (·.consumable tokenHash emailHash now)
  let invitation ← demand row .notFound
  let known ← read fun db => db.hasUser actor
  ensure (known = true) .permissionDenied
  write fun db =>
    { db with enrollmentInvitations := db.enrollmentInvitations.map fun r =>
        if r.consumable tokenHash emailHash now then
          { r with state := .consumed, consumedBy := some actor }
        else r }
  joinEnrolledCircle actor now invitation.circleId

/-! ### Chat invitations -/

/-- `expires_at > current_timestamp`. The stored text is RFC 3339 and the other one puts a
space where RFC 3339 puts a `T`, so on equal dates the stored text is the greater one. -/
def afterCurrentTimestamp (expiresAt now : Time) : Bool := now / day ≤ expiresAt / day

def Db.chatInvitation? (db : Db) (tokenHash : Hash) (now : Time) : Option ChatInvitationRow :=
  db.chatInvitations.find? fun r => r.tokenHash = tokenHash ∧ afterCurrentTimestamp r.expiresAt now

/-- The check of `create_chat_invitation`. -/
def Db.mayInvite (db : Db) (actor : UserId) : InvitationTarget → Bool
  | .circle k => Policy.canInviteToCircle (db.humanCircleRole? k actor)
  | .channel k c =>
    (db.channels.any fun r => r.id = c ∧ r.circleId = some k) &&
      db.channelMemberships.any fun m => m.channelId = c ∧ m.userId = actor ∧
        (m.role = .owner ∨ m.role = .moderator)

/-- The row `create_chat_invitation` inserts. -/
def chatInvitation (host : Host) (actor : UserId) (target : InvitationTarget) (id : Uuid)
    (token : String) (now : Time) : ChatInvitationRow :=
  ⟨id, host.hashToken token, target, actor, now + 7 * day⟩

def Db.targetResolves (db : Db) : InvitationTarget → Bool
  | .circle k => db.hasCircle k
  | .channel k c => db.hasCircle k && db.hasChannel c

def insertChatInvitation (row : ChatInvitationRow) : Sql Unit :=
  insert
    (fun db => db.chatInvitations.any fun r => r.id = row.id ∨ r.tokenHash = row.tokenHash)
    (fun db => db.targetResolves row.target && db.hasUser row.invitedBy)
    fun db => { db with chatInvitations := db.chatInvitations ++ [row] }

/-- What `accept_chat_invitation` reads before its transaction. -/
def previewInvitation (host : Host) (actor : UserId) (token : String) (now : Time) (db : Db) :
    Except RepositoryError InvitationTarget :=
  match db.chatInvitation? (host.hashToken token) now with
  | none => .error .notFound
  | some row => if row.invitedBy = actor then .error .permissionDenied else .ok row.target

def pratName : DisplayName := ⟨"Prat", by decide⟩

def Db.prat? (db : Db) (k : CircleId) : Option Channel :=
  leastById (db.channels.filter fun r => r.circleId = some k ∧ asciiLower r.name.text = "prat")

/-- Join the invited circle and find its chat channel, creating one where there is none.
No `channel_sequences` row is inserted for it. -/
def acceptCircleTarget (actor : UserId) (k : CircleId) (id : ChannelId) (now : Time) :
    Sql ChannelId := do
  let _ ← joinCircle k actor .member now
  let existing ← read fun db => db.prat? k
  let id := (existing.map (·.id)).getD id
  let _ ← insertChannelUnlessSlug
    ⟨id, k.uuid.simple ++ "-prat", pratName, .privateChannel, some k, actor⟩
  pure id

def acceptTarget (actor : UserId) (id : ChannelId) (now : Time) :
    InvitationTarget → Sql ChannelId
  | .circle k => acceptCircleTarget actor k id now
  | .channel k c => do
    let member ← read fun db => db.inCircle k actor
    ensure (member = true) .permissionDenied
    pure c

/-- `insert into chat_invitation_responses … on conflict do update`. -/
def respond (invitation : Uuid) (actor : UserId) (response : InvitationResponse) (db : Db) : Db :=
  { db with chatInvitationResponses :=
      (db.chatInvitationResponses.filter fun r =>
        !(r.invitationId = invitation ∧ r.userId = actor)) ++ [⟨invitation, actor, response⟩] }

/-- The transaction of `accept_chat_invitation`, for the target read before it. -/
def acceptChatInvitation (host : Host) (actor : UserId) (token : String)
    (target : InvitationTarget) (id : ChannelId) (now : Time) : Sql Channel := do
  let invitation ← read fun db => db.chatInvitation? (host.hashToken token) now
  let invitation ← fetchOne invitation
  let channelId ← acceptTarget actor id now target
  let _ ← joinMembership channelId actor .member
  write (respond invitation.id actor .accepted)
  let channel ← read fun db => db.channel? channelId
  fetchOne channel

end Sproyt
