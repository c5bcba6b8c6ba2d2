import Sproyt.Db.Effects

/-!
# The rolls of the circles

Circles, their members and the invitations into them are four tables. This module says what
one statement or transaction of any call can do to them, so that what holds of the rolls over
whole runs is a case analysis over `RollEffect`.
-/

namespace Sproyt

open Txn

/-! ### Accounts and roles -/

/-- `upsert_user`, with the handles that the search for a free one has settled on: for a new
account, and for one that is known. A known account keeps its display name. -/
def upsertUser (id : UserId) (kind : PrincipalKind) (name : DisplayName)
    (handle known : Option String) : Sql Unit :=
  Txn.write fun db =>
    { db with
      users :=
        if db.hasUser id then
          db.users.map fun r => if r.id = id then { r with kind := kind, handle := known } else r
        else db.users ++ [⟨id, kind, name, handle⟩]
      channelMemberships := db.channelMemberships ++
        (db.channels.filter fun c =>
          c.slug = "general" ∧ c.circleId = none ∧ !db.inChannel c.id id).map fun c =>
            ⟨c.id, id, .member, 0⟩ }

def Db.renamable (db : Db) (actor : UserId) : List UserRow :=
  db.users.filter fun r => r.id = actor ∧ r.kind = .human

/-- The update of `update_profile`. The row that is answered is read by a statement of its own. -/
def updateProfile (actor : UserId) (name : DisplayName) : Sql Unit :=
  Txn.updateOne (fun db => (db.renamable actor).length)
    (fun db =>
      { db with users := db.users.map fun r =>
          if r.id = actor ∧ r.kind = .human then { r with displayName := name } else r })
    .permissionDenied

structure SetCircleMemberRole where
  actor : UserId
  circleId : CircleId
  userId : UserId
  role : CircleRole

def Db.appointable (db : Db) (command : SetCircleMemberRole) (r : CircleMembershipRow) : Bool :=
  r.circleId = command.circleId ∧ r.userId = command.userId ∧
    (r.role = .member ∨ r.role = .moderator) ∧
    (db.circleMemberships.any fun x =>
      x.circleId = r.circleId ∧ x.userId = command.actor ∧ x.role = .owner) ∧
    db.isHuman r.userId

def setCircleMemberRole (command : SetCircleMemberRole) : Sql CircleMembershipRow := do
  Txn.ensure (command.role ≠ .owner) .permissionDenied
  let row ← Txn.read fun db => db.circleMemberships.find? (db.appointable command)
  let row ← Txn.demand row .permissionDenied
  Txn.write fun db =>
    { db with circleMemberships := db.circleMemberships.map fun r =>
        if db.appointable command r then { r with role := command.role } else r }
  pure ⟨command.circleId, command.userId, command.role, row.joinedAt⟩

/-! ### Calls and their events -/

inductive RollCall
  | statement (p : Pending)
  | upsertUser (id : UserId) (kind : PrincipalKind) (name : DisplayName)
      (handle known : Option String)
  | updateProfile (actor : UserId) (name : DisplayName)
  | setCircleMemberRole (command : SetCircleMemberRole)

inductive RollEvent
  | quiet
  | issued (hash : Hash)
  | accepted (hash : Hash) (u : UserId)
  | prepared (hash : Hash)
  | activated (hash : Hash)
  | consumed (hash : Hash) (u : UserId)
deriving DecidableEq

def RollEvent.ofCommit {α : Type} (t : Sql α) (db : Db) (e : RollEvent) : RollEvent :=
  match (t.commit db).1 with
  | .ok _ => e
  | .error _ => .quiet

namespace RollCall

def exec (host : Host) (call : RollCall) (db : Db) : Db :=
  match call with
  | statement p => (p.exec host db).2
  | upsertUser id kind name handle known =>
    ((Sproyt.upsertUser id kind name handle known).commit db).2
  | updateProfile actor name => ((Sproyt.updateProfile actor name).commit db).2
  | setCircleMemberRole command => ((Sproyt.setCircleMemberRole command).commit db).2

def event (host : Host) (call : RollCall) (db : Db) : RollEvent :=
  match call with
  | statement (.insertCircleInvitation row) =>
    .ofCommit (Sproyt.insertCircleInvitation row) db (.issued row.tokenHash)
  | statement (.acceptCircleInvitation actor token now joinedAt) =>
    .ofCommit (Sproyt.acceptCircleInvitation host actor token now joinedAt) db
      (.accepted (host.hashToken token) actor)
  | statement (.insertEnrollment row) =>
    .ofCommit (insertEnrollmentInvitation row) db (.prepared row.tokenHash)
  | statement (.activateEnrollment token authentikId now) =>
    .ofCommit (activateEnrollmentInvitation host token authentikId now) db
      (.activated (host.hashToken token))
  | statement (.acceptEnrollment actor token email now) =>
    .ofCommit (acceptEnrollmentInvitation host actor token email now) db
      (.consumed (host.hashToken token) actor)
  | _ => .quiet

/-- Accounts come with valid names, and what is inserted is what the statements before have
built. -/
def Built (host : Host) : RollCall → Prop
  | upsertUser _ _ name _ _ | updateProfile _ name => ∃ value, DisplayName.new value = .ok name
  | statement (.createDirect channel actor _) =>
    ∃ id slug name, channel = ⟨id, "dm-" ++ Uuid.simple slug, name, .privateChannel, none, actor⟩
  | statement (.insertCircleInvitation row) =>
    ∃ actor k id token now, row = circleInvitation host actor k id token now
  | statement (.insertEnrollment row) =>
    ∃ id k actor token email expiresAt, row = ⟨id, k, actor, host.hashToken token,
      host.emailHash email, expiresAt, .inactive, none, none⟩
  | _ => True

end RollCall

inductive RollStep (host : Host) : Db → RollEvent → Db → Prop
  | call {db : Db} (c : RollCall) (hbuilt : c.Built host) :
      RollStep host db (c.event host db) (c.exec host db)

def execAll (host : Host) (calls : List RollCall) (db : Db) : Db :=
  calls.foldl (fun db c => c.exec host db) db

def eventsOf (host : Host) : List RollCall → Db → List RollEvent
  | [], _ => []
  | c :: calls, db => c.event host db :: eventsOf host calls (c.exec host db)

theorem run_execAll {host : Host} {calls : List RollCall} (hbuilt : ∀ c ∈ calls, c.Built host)
    (db : Db) : Run (RollStep host) db (eventsOf host calls db) (execAll host calls db) := by
  induction calls generalizing db with
  | nil => exact .refl
  | cons c calls ih =>
    exact .cons (.call c (hbuilt c List.mem_cons_self))
      (ih (fun x hx => hbuilt x (List.mem_cons_of_mem _ hx)) (c.exec host db))

/-! ### Effects -/

def Db.rolls (db : Db) : List CircleRow × List CircleMembershipRow × List CircleInvitationRow ×
    List EnrollmentInvitationRow :=
  (db.circles, db.circleMemberships, db.circleInvitations, db.enrollmentInvitations)

inductive RollEffect (db : Db) : RollEvent → Db → Prop
  | quiet {db' : Db} (h : db'.rolls = db.rolls) : RollEffect db .quiet db'
  | founded {db' : Db} (circle : CircleRow) (joinedAt : Time)
      (hnew : ∀ r ∈ db.circles, r.id ≠ circle.id)
      (h : db'.rolls = (db.circles ++ [circle],
        db.circleMemberships ++ [⟨circle.id, circle.createdBy, .owner, joinedAt⟩],
        db.circleInvitations, db.enrollmentInvitations)) : RollEffect db .quiet db'
  | appointed {db' : Db} (command : SetCircleMemberRole) (hrole : command.role ≠ .owner)
      (h : db'.rolls = (db.circles, db.circleMemberships.map fun r =>
          if db.appointable command r then { r with role := command.role } else r,
        db.circleInvitations, db.enrollmentInvitations)) : RollEffect db .quiet db'
  | left {db' : Db} (k : CircleId) (u : UserId)
      (hrole : db.circleRole? k u = some .member ∨ db.circleRole? k u = some .moderator)
      (h : db'.rolls = (db.circles,
        db.circleMemberships.filter (fun r => !(r.circleId = k ∧ r.userId = u)),
        db.circleInvitations, db.enrollmentInvitations)) : RollEffect db .quiet db'
  | dissolved {db' : Db} (k : CircleId)
      (h : db'.rolls = (db.circles.filter (fun r => r.id ≠ k),
        db.circleMemberships.filter (fun r => r.circleId ≠ k),
        db.circleInvitations.filter (fun r => r.circleId ≠ k),
        db.enrollmentInvitations.filter fun r => r.circleId ≠ some k)) : RollEffect db .quiet db'
  | joined {db' : Db} (k : CircleId) (u : UserId) (joinedAt : Time)
      (hcircle : db.inCircle k u = false → db.hasCircle k = true)
      (h : db'.rolls = (db.circles, joinedRows k u joinedAt db.circleMemberships,
        db.circleInvitations, db.enrollmentInvitations)) : RollEffect db .quiet db'
  | issued {db' : Db} (row : CircleInvitationRow) (hopen : row.acceptedAt = none)
      (hnew : ∀ r ∈ db.circleInvitations, r.id ≠ row.id ∧ r.tokenHash ≠ row.tokenHash)
      (h : db'.rolls = (db.circles, db.circleMemberships, db.circleInvitations ++ [row],
        db.enrollmentInvitations)) : RollEffect db (.issued row.tokenHash) db'
  | accepted {db' : Db} (row : CircleInvitationRow) (u : UserId) (joinedAt : Time)
      (hrow : row ∈ db.circleInvitations) (hopen : row.acceptedAt = none)
      (hcircle : db.inCircle row.circleId u = false → db.hasCircle row.circleId = true)
      (h : db'.rolls = (db.circles, joinedRows row.circleId u joinedAt db.circleMemberships,
        db.circleInvitations.map (fun r =>
          if r.id = row.id ∧ r.acceptedAt = none then
            { r with acceptedBy := some u, acceptedAt := some joinedAt } else r),
        db.enrollmentInvitations)) : RollEffect db (.accepted row.tokenHash u) db'
  | prepared {db' : Db} (row : EnrollmentInvitationRow) (hstate : row.state = .inactive)
      (hnew : ∀ r ∈ db.enrollmentInvitations, r.id ≠ row.id ∧ r.tokenHash ≠ row.tokenHash)
      (h : db'.rolls = (db.circles, db.circleMemberships, db.circleInvitations,
        db.enrollmentInvitations ++ [row])) : RollEffect db (.prepared row.tokenHash) db'
  | activated {db' : Db} (hash : Hash) (authentikId : Uuid) (now : Time)
      (hrow : ∃ r ∈ db.enrollmentInvitations, r.activatable hash now = true)
      (h : db'.rolls = (db.circles, db.circleMemberships, db.circleInvitations,
        db.enrollmentInvitations.map fun r =>
          if r.activatable hash now then
            { r with state := .active, authentikInvitationId := some authentikId } else r)) :
      RollEffect db (.activated hash) db'
  | consumed {db' : Db} (hash email : Hash) (u : UserId) (now : Time)
      (rows : List CircleMembershipRow)
      (hrow : ∃ r ∈ db.enrollmentInvitations, r.consumable hash email now = true ∧
        (r.circleId = none ∧ rows = db.circleMemberships ∨
          ∃ k, r.circleId = some k ∧ rows = joinedRows k u now db.circleMemberships ∧
            (db.inCircle k u = false → db.hasCircle k = true)))
      (h : db'.rolls = (db.circles, rows, db.circleInvitations,
        db.enrollmentInvitations.map fun r =>
          if r.consumable hash email now then
            { r with state := .consumed, consumedBy := some u } else r)) :
      RollEffect db (.consumed hash u) db'

def CircleMembershipRow.key (r : CircleMembershipRow) : CircleId × UserId := (r.circleId, r.userId)

variable {row : EnrollmentInvitationRow} {target : InvitationTarget} {id : ChannelId}
    {ch : Channel} {t : Sql α}

variable {joinedAt now : Time} {x : Unit} {token : String} {α : Type}

variable {host : Host} {db db' : Db} {k : CircleId} {u : UserId}

theorem find?_membership {rows : List CircleMembershipRow} {r : CircleMembershipRow}
    (hkeys : (rows.map (·.key)).Nodup) (hr : r ∈ rows) :
    rows.find? (fun x => x.circleId = r.circleId ∧ x.userId = r.userId) = some r := by
  have hfind := Table.find?_of_mem hkeys hr
  simpa only [CircleMembershipRow.key, Prod.mk.injEq] using hfind

/-! ### The transactions that write the rolls -/

theorem createCircle_effect {command : CreateCircle} {id : CircleId} {row : CircleRow}
    (h : (createCircle command id now).run db = .ok (row, db')) : RollEffect db .quiet db' := by
  simp only [createCircle, Sql.answers, answers] at h
  obtain ⟨htaken, -, -, -, rfl, rfl⟩ := h
  refine .founded ⟨id, command.slug.text, command.name, command.actor⟩ now (fun r hr heq => ?_) rfl
  have hnone := List.any_eq_false.1 htaken r hr
  simp [heq] at hnone

theorem setCircleMemberRole_effect {command : SetCircleMemberRole} {row : CircleMembershipRow}
    (h : (setCircleMemberRole command).run db = .ok (row, db')) : RollEffect db .quiet db' := by
  simp only [setCircleMemberRole, answers] at h
  obtain ⟨hrole, _, -, -, rfl⟩ := h
  exact .appointed command hrole rfl

theorem leaveCircle_effect (h : (leaveCircle u k).run db = .ok (x, db')) :
    RollEffect db .quiet db' := by
  simp only [leaveCircle, answers] at h
  obtain ⟨hmay, rfl⟩ := h
  refine .left k u ?_ rfl
  generalize db.circleRole? k u = role at hmay
  rcases role with - | role
  · cases hmay
  · cases role with
    | owner => cases hmay
    | moderator => exact .inr rfl
    | member => exact .inl rfl

theorem deleteCircle_effect {refused : Bool}
    (h : (deleteCircle u k refused).run db = .ok (x, db')) : RollEffect db .quiet db' := by
  simp only [deleteCircle, answers] at h
  obtain ⟨-, -, -, rfl⟩ := h
  exact .dissolved k rfl

theorem insertCircleInvitation_effect {row : CircleInvitationRow} (hopen : row.acceptedAt = none)
    (h : (insertCircleInvitation row).run db = .ok (x, db')) :
    RollEffect db (.issued row.tokenHash) db' := by
  obtain ⟨htaken, -, rfl⟩ := Sql.insert_ok.1 h
  refine .issued row hopen (fun r hr => ?_) rfl
  have hnone := List.any_eq_false.1 htaken r hr
  simpa using hnone

theorem acceptCircleInvitation_effect {m : CircleMembershipRow}
    (h : (acceptCircleInvitation host u token now joinedAt).run db = .ok (m, db')) :
    RollEffect db (.accepted (host.hashToken token) u) db' := by
  obtain ⟨row, hrow, hhash, hopen, -, -, hcircle, rfl⟩ := acceptCircleInvitation_ok h
  rw [← hhash]
  exact .accepted row u joinedAt hrow hopen hcircle rfl

theorem insertEnrollmentInvitation_effect (hstate : row.state = .inactive)
    (h : (insertEnrollmentInvitation row).run db = .ok (x, db')) :
    RollEffect db (.prepared row.tokenHash) db' := by
  obtain ⟨htaken, -, rfl⟩ := Sql.insert_ok.1 h
  refine .prepared row hstate (fun r hr => ?_) rfl
  have hnone := List.any_eq_false.1 htaken r hr
  simpa using hnone

theorem activateEnrollmentInvitation_effect {authentikId : Uuid}
    (h : (activateEnrollmentInvitation host token authentikId now).run db = .ok (row, db')) :
    RollEffect db (.activated (host.hashToken token)) db' := by
  simp only [activateEnrollmentInvitation, answers] at h
  obtain ⟨_, hfind, -, -, rfl⟩ := h
  exact .activated _ authentikId now ⟨_, List.mem_of_find?_eq_some hfind, List.find?_some hfind⟩ rfl

theorem acceptEnrollmentInvitation_effect {email : String} {o : Option CircleMembershipRow}
    (h : (acceptEnrollmentInvitation host u token email now).run db = .ok (o, db')) :
    RollEffect db (.consumed (host.hashToken token) u) db' := by
  obtain ⟨row, hrow, hconsumable, rows, rfl, hcase⟩ := acceptEnrollmentInvitation_ok h
  refine .consumed _ (host.emailHash email) u now rows ⟨row, hrow, hconsumable, ?_⟩ rfl
  rcases hcase with ⟨hnone, -, hsame⟩ | ⟨k, m, hk, -, hjoined, hcircle, -⟩
  · exact .inl ⟨hnone, hsame⟩
  · exact .inr ⟨k, hk, hjoined, hcircle⟩

theorem joinMembership_rolls {c : ChannelId} {role : MembershipRole} :
    Frame Db.rolls (Sql.joinMembership c u role) :=
  Sql.insertOrIgnore_frame fun _ => rfl

theorem insertChannelUnlessSlug_rolls : Frame Db.rolls (Sql.insertChannelUnlessSlug ch) :=
  Sql.insertOrIgnore_frame fun _ => rfl

theorem acceptChatInvitation_ok
    (h : (acceptChatInvitation host u token target id now).run db = .ok (ch, db')) :
    db'.rolls = db.rolls ∨ ∃ k, (db.inCircle k u = false → db.hasCircle k = true) ∧
      db'.rolls = (db.circles, joinedRows k u now db.circleMemberships, db.circleInvitations,
        db.enrollmentInvitations) := by
  simp only [acceptChatInvitation, Sql.answers, answers] at h
  obtain ⟨_, -, c, db₁, htarget, _, db₂, hjoin, -, rfl⟩ := h
  have hrest : db₂.rolls = db₁.rolls := joinMembership_rolls hjoin
  cases target with
  | channel k c' =>
    simp only [acceptTarget, answers] at htarget
    obtain ⟨-, -, rfl⟩ := htarget
    exact .inl hrest
  | circle k =>
    simp only [acceptTarget, acceptCircleTarget, answers] at htarget
    obtain ⟨_, _, hcircle, _, db₃, hinsert, -, rfl⟩ := htarget
    obtain ⟨rfl, hresolves⟩ := joinCircle_ok hcircle
    exact .inr ⟨k, hresolves, hrest.trans (insertChannelUnlessSlug_rolls hinsert)⟩

theorem acceptChatInvitation_effect
    (h : (acceptChatInvitation host u token target id now).run db = .ok (ch, db')) :
    RollEffect db .quiet db' := by
  rcases acceptChatInvitation_ok h with hsame | ⟨k, hcircle, hjoined⟩
  · exact .quiet hsame
  · exact .joined k u now hcircle hjoined

theorem effect_of_commit {e : RollEvent}
    (h : ∀ a db', t.run db = .ok (a, db') → RollEffect db e db') :
    RollEffect db (.ofCommit t db e) (t.commit db).2 := by
  rcases commit_cases t db with ⟨a, db', hrun, hcommit⟩ | ⟨e', -, hcommit⟩
  · rw [RollEvent.ofCommit, hcommit]
    exact h a db' hrun
  · rw [RollEvent.ofCommit, hcommit]
    exact .quiet rfl

theorem quiet_of_commit (h : ∀ a db', t.run db = .ok (a, db') → RollEffect db .quiet db') :
    RollEffect db .quiet (t.commit db).2 :=
  commit_snd (P := RollEffect db .quiet) (.quiet rfl) h

theorem rolls_of_does {p : Pending} (h : Does host db p db') (hp : p.writesRolls = false) :
    db'.rolls = db.rolls := by
  obtain ⟨d, heffect, hd⟩ := h
  rw [hd]
  cases heffect with
  | rolled hrolls => rw [hp] at hrolls; cases hrolls
  | left | dissolved | accepted => cases hp
  | appended command env m h => rw [h.rest]; rfl
  | _ => rfl

theorem exec_effect {c : RollCall} (hbuilt : c.Built host) (db : Db) :
    RollEffect db (c.event host db) (c.exec host db) := by
  cases c with
  | upsertUser => exact .quiet rfl
  | updateProfile =>
    refine quiet_of_commit fun _ _ h => ?_
    obtain ⟨-, rfl⟩ := updateOne_ok.1 h
    exact .quiet rfl
  | setCircleMemberRole command => exact quiet_of_commit fun _ _ h => setCircleMemberRole_effect h
  | statement p =>
    cases p with
    | createCircle command id now => exact quiet_of_commit fun _ _ h => createCircle_effect h
    | insertCircleInvitation row =>
      obtain ⟨actor, k, id, token, now, rfl⟩ := hbuilt
      exact effect_of_commit fun _ _ h => insertCircleInvitation_effect rfl h
    | acceptCircleInvitation actor token now joinedAt =>
      exact effect_of_commit fun _ _ h => acceptCircleInvitation_effect h
    | insertEnrollment row =>
      obtain ⟨id, k, actor, token, email, expiresAt, rfl⟩ := hbuilt
      exact effect_of_commit fun _ _ h => insertEnrollmentInvitation_effect rfl h
    | activateEnrollment token authentikId now =>
      exact effect_of_commit fun _ _ h => activateEnrollmentInvitation_effect h
    | acceptEnrollment actor token email now =>
      exact effect_of_commit fun _ _ h => acceptEnrollmentInvitation_effect h
    | acceptChatInvitation actor token target id now =>
      exact quiet_of_commit fun _ _ h => acceptChatInvitation_effect h
    | leaveCircle actor k => exact quiet_of_commit fun _ _ h => leaveCircle_effect h
    | deleteCircle actor k refused => exact quiet_of_commit fun _ _ h => deleteCircle_effect h
    | _ => exact .quiet (rolls_of_does (exec_does host _ db) rfl)

end Sproyt
