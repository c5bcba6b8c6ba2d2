import Sproyt.Db.Circles
import Sproyt.Db.Posting
import Sproyt.Lib.Run

/-!
# Repository calls in flight

A call is cut where other calls may commit: between the statements of an operation that runs
outside a transaction, and between the reads and the transaction of one that reads first.
`Pending` says where a call stands, `Pending.exec` runs its next statement or transaction,
and `Step` interleaves any number of calls.
-/

namespace Sproyt

/-- A call, at its next statement or transaction. -/
inductive Pending
  | createCircle (command : CreateCircle) (id : CircleId) (now : Time)
  | createChannel (command : CreateChannel) (id : ChannelId)
  | openDirect (actor other : UserId) (id : ChannelId) (slug : Uuid)
  | createDirect (channel : Channel) (actor other : UserId)
  | expandDirect (actor : UserId) (source : ChannelId) (other : UserId) (id : ChannelId)
      (slug : Uuid)
  | openPersonal (owner : UserId) (id : ChannelId)
  | inviteToCircle (actor : UserId) (k : CircleId) (id : Uuid) (token : String) (now : Time)
  | insertCircleInvitation (row : CircleInvitationRow)
  | acceptCircleInvitation (actor : UserId) (token : String) (now joinedAt : Time)
  | prepareEnrollment (actor : UserId) (k : Option CircleId) (id : Uuid) (token email : String)
      (expiresAt : Time)
  | insertEnrollment (row : EnrollmentInvitationRow)
  | activateEnrollment (token : String) (authentikId : Uuid) (now : Time)
  | acceptEnrollment (actor : UserId) (token email : String) (now : Time)
  | inviteToChat (actor : UserId) (target : InvitationTarget) (id : Uuid) (token : String)
      (now : Time)
  | insertChatInvitation (row : ChatInvitationRow)
  | previewChatInvitation (actor : UserId) (token : String) (id : ChannelId) (seen now : Time)
  | acceptChatInvitation (actor : UserId) (token : String) (target : InvitationTarget)
      (id : ChannelId) (now : Time)
  | resolveJoin (actor : UserId) (channel : ChannelRef)
  | existsJoin (actor : UserId) (c : ChannelId)
  | checkJoin (actor : UserId) (c : ChannelId)
  | checkAdd (actor : UserId) (c : ChannelId) (u : UserId)
  | insertMember (c : ChannelId) (u : UserId)
  | loadMember (c : ChannelId) (u : UserId)
  | readLeave (actor : UserId) (c : ChannelId)
  | deleteLeave (actor : UserId) (c : ChannelId)
  | unsubscribeLeave (actor : UserId) (c : ChannelId)
  | leaveCircle (actor : UserId) (k : CircleId)
  | deleteCircle (actor : UserId) (k : CircleId) (refused : Bool)
  | append (command : SendMessage) (env : SendEnv)

inductive Outcome
  | next (p : Pending)
  | done (r : Except RepositoryError Unit)

namespace Pending

def finish {α : Type} (t : Sql α) (db : Db) : Outcome × Db :=
  (.done ((t.commit db).1.map fun _ => ()), (t.commit db).2)

/-- A statement that only reads, and goes on when it allows to. -/
def check (allowed : Except RepositoryError Pending) (db : Db) : Outcome × Db :=
  match allowed with
  | .ok p => (.next p, db)
  | .error e => (.done (.error e), db)

/-- A statement with more to follow. It stays done when a later one fails. -/
def proceed (t : Sql Unit) (p : Pending) (db : Db) : Outcome × Db :=
  match t.run db with
  | .ok (_, db') => (.next p, db')
  | .error e => (.done (.error e), db)

def allow (c : Bool) (e : RepositoryError) (p : Pending) : Except RepositoryError Pending :=
  if c then .ok p else .error e

def exec (host : Host) (p : Pending) (db : Db) : Outcome × Db :=
  match p with
  | createCircle command id now => finish (Sproyt.createCircle command id now) db
  | createChannel command id => finish (Sproyt.createChannel command id) db
  | openDirect actor other id slug =>
    match lookupDirectChannel actor other id slug db with
    | .error e => (.done (.error e), db)
    | .ok (.inl _) => (.done (.ok ()), db)
    | .ok (.inr channel) => (.next (createDirect channel actor other), db)
  | createDirect channel actor other => finish (createDirectChannel channel actor other) db
  | expandDirect actor source other id slug =>
    finish (expandDirectChannel actor source other id slug) db
  | openPersonal owner id => finish (openPersonalSpace owner id) db
  | inviteToCircle actor k id token now =>
    check (allow (Policy.canInviteToCircle (db.humanCircleRole? k actor)) .permissionDenied
      (insertCircleInvitation (circleInvitation host actor k id token now))) db
  | insertCircleInvitation row => finish (Sproyt.insertCircleInvitation row) db
  | acceptCircleInvitation actor token now joinedAt =>
    finish (Sproyt.acceptCircleInvitation host actor token now joinedAt) db
  | prepareEnrollment actor k id token email expiresAt =>
    check (allow (db.mayEnroll actor k) .permissionDenied
      (insertEnrollment ⟨id, k, actor, host.hashToken token, host.emailHash email, expiresAt,
        .inactive, none, none⟩)) db
  | insertEnrollment row => finish (insertEnrollmentInvitation row) db
  | activateEnrollment token authentikId now =>
    finish (activateEnrollmentInvitation host token authentikId now) db
  | acceptEnrollment actor token email now =>
    finish (acceptEnrollmentInvitation host actor token email now) db
  | inviteToChat actor target id token now =>
    check (allow (db.mayInvite actor target) .permissionDenied
      (insertChatInvitation (chatInvitation host actor target id token now))) db
  | insertChatInvitation row => finish (Sproyt.insertChatInvitation row) db
  | previewChatInvitation actor token id seen now =>
    check ((previewInvitation host actor token seen db).map fun target =>
      acceptChatInvitation actor token target id now) db
  | acceptChatInvitation actor token target id now =>
    finish (Sproyt.acceptChatInvitation host actor token target id now) db
  | resolveJoin actor ref =>
    match db.resolveChannel ref with
    | some c => (.next (existsJoin actor c), db)
    | none => (.done (.error .notFound), db)
  | existsJoin actor c => check (allow (db.hasChannel c) .notFound (checkJoin actor c)) db
  | checkJoin actor c =>
    check (allow (db.mayJoin c actor) .permissionDenied (insertMember c actor)) db
  | checkAdd actor c u =>
    check (allow (db.mayAdd actor c u) .permissionDenied (insertMember c u)) db
  | insertMember c u =>
    proceed (do let _ ← Sql.joinMembership c u .member; pure ()) (loadMember c u) db
  | loadMember c u => finish (loadMembership c u) db
  | readLeave actor c => check ((leaveAllowed actor c db).map fun _ => deleteLeave actor c) db
  | deleteLeave actor c => proceed (deleteMembership actor c) (unsubscribeLeave actor c) db
  | unsubscribeLeave actor c => finish (deleteNotificationSubscription actor c) db
  | leaveCircle actor k => finish (Sproyt.leaveCircle actor k) db
  | deleteCircle actor k refused => finish (Sproyt.deleteCircle actor k refused) db
  | append command env => finish (appendMessage host command env) db

def starting : Pending → Bool
  | createDirect .. | insertCircleInvitation .. | insertEnrollment .. | insertChatInvitation ..
  | acceptChatInvitation .. | existsJoin .. | checkJoin .. | insertMember .. | loadMember ..
  | deleteLeave .. | unsubscribeLeave .. => false
  | _ => true

def newChannel : Pending → Option ChannelId
  | createChannel _ id | openDirect _ _ id _ | expandDirect _ _ _ id _ | openPersonal _ id
  | previewChatInvitation _ _ id _ _ => some id
  | _ => none

end Pending

theorem check_snd (allowed : Except RepositoryError Pending) (db : Db) :
    (Pending.check allowed db).2 = db := by
  cases allowed <;> rfl

structure World where
  db : Db
  pending : List Pending
  issued : List ChannelId

inductive Label
  | call (p : Pending)
  | resume (p : Pending)
  | abort (p : Pending)

/-- Calls begin, take their next statement, or die. Generated ids are new. -/
inductive Step (host : Host) : World → Label → World → Prop
  | call {w : World} {p : Pending} (hp : p.starting = true)
      (hnew : ∀ c, p.newChannel = some c → c ∉ w.issued) :
      Step host w (.call p) ⟨w.db, p :: w.pending, p.newChannel.toList ++ w.issued⟩
  | next {db db' : Db} {before after : List Pending} {p q : Pending} {issued : List ChannelId}
      (h : p.exec host db = (.next q, db')) :
      Step host ⟨db, before ++ p :: after, issued⟩ (.resume p) ⟨db', before ++ q :: after, issued⟩
  | done {db db' : Db} {before after : List Pending} {p : Pending} {issued : List ChannelId}
      {r : Except RepositoryError Unit} (h : p.exec host db = (.done r, db')) :
      Step host ⟨db, before ++ p :: after, issued⟩ (.resume p) ⟨db', before ++ after, issued⟩
  | abort {db : Db} {before after : List Pending} {p : Pending} {issued : List ChannelId} :
      Step host ⟨db, before ++ p :: after, issued⟩ (.abort p) ⟨db, before ++ after, issued⟩

end Sproyt
