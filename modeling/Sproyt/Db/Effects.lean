import Sproyt.Db.Calls
import Sproyt.Lib.Table

/-!
# What calls do to the channels

A statement or transaction of a call opens a channel, lets somebody in or out, changes the rolls
of the circles, or posts. `CallEffect` says which, so that an invariant of the channels and their
members is a case analysis over it.
-/

namespace Sproyt

open List Txn

def Pending.creates : Pending → Option ChannelId
  | createChannel _ id | openDirect _ _ id _ | expandDirect _ _ _ id _ | openPersonal _ id
  | previewChatInvitation _ _ id _ _ | acceptChatInvitation _ _ _ id _ => some id
  | createDirect channel _ _ => some channel.id
  | _ => none

def Pending.writesRolls : Pending → Bool
  | createCircle .. | insertCircleInvitation .. | acceptCircleInvitation .. | insertEnrollment ..
  | activateEnrollment .. | acceptEnrollment .. | acceptChatInvitation .. | leaveCircle ..
  | deleteCircle .. => true
  | _ => false

def Db.aside (db other : Db) : Db :=
  { db with
    chatInvitationResponses := other.chatInvitationResponses
    directGroupConversations := other.directGroupConversations
    directGroupExpansions := other.directGroupExpansions
    personalSpaces := other.personalSpaces
    personalSavedLinks := other.personalSavedLinks
    channelNotificationSubscriptions := other.channelNotificationSubscriptions }

def Db.withChannel (db : Db) (ch : Channel) : Db :=
  { db with
    channels := db.channels ++ [ch]
    channelSequences := db.channelSequences ++ [⟨ch.id, 1⟩] }

def Db.withDirect (db : Db) (ch : Channel) (actor other : UserId) : Db :=
  { db.withChannel ch with
    directConversations := db.directConversations ++
      [⟨ch.id, (normalizedPair actor other).1, (normalizedPair actor other).2⟩]
    channelMemberships := db.channelMemberships ++
      [⟨ch.id, actor, .member, 0⟩, ⟨ch.id, other, .member, 0⟩] }

/-- `insert into circle_memberships … on conflict do nothing`, on the rows. -/
def joinedRows (k : CircleId) (u : UserId) (at_ : Time) (rows : List CircleMembershipRow) :
    List CircleMembershipRow :=
  if rows.any fun r => r.circleId = k ∧ r.userId = u then rows else rows ++ [⟨k, u, .member, at_⟩]

structure Free (db : Db) (c : ChannelId) : Prop where
  channel : ∀ r ∈ db.channels, r.id ≠ c
  counter : ∀ r ∈ db.channelSequences, r.channelId ≠ c

/-- These were members, or are members of the new channel who may be in its circle. -/
def Seats (db : Db) (ch : Channel) (rows : List MembershipRow) : Prop :=
  ∀ r ∈ rows, (∃ r₀ ∈ db.channelMemberships, r = { r₀ with role := r.role }) ∨
    r.channelId = ch.id ∧ r.lastReadSequence = 0 ∧
      ∀ k, ch.circleId = some k → db.inCircle k r.userId = true

def newPrat (k : CircleId) (id : ChannelId) (actor : UserId) : Channel :=
  ⟨id, k.uuid.simple ++ "-prat", pratName, .privateChannel, some k, actor⟩

/-- What an accepted chat invitation adds: the chat channel of the circle where it has none, and
a member of the channel it is for. -/
structure ChatAccepts (db : Db) (actor : UserId) (target : InvitationTarget) (id : ChannelId)
    (added : List Channel) (rows : List CircleMembershipRow) (seats : List MembershipRow) :
    Prop where
  joined : db.circleMemberships ⊆ rows
  prat : added = [] ∨ db.hasChannel id = false ∧ ∃ k, target = .circle k ∧ db.prat? k = none ∧
    added = [newPrat k id actor]
  seated : ∀ r ∈ seats, r.userId = actor ∧ r.lastReadSequence = 0 ∧
    ∃ ch ∈ db.channels ++ added, ch.id = r.channelId ∧ ∃ k,
      (rows.any fun m => m.circleId = k ∧ m.userId = actor) = true ∧
      (target = .channel k ch.id ∨ ch.circleId = some k ∨ db.hasChannel id = true)

inductive CallEffect (host : Host) (db : Db) : Pending → Db → Prop
  | stay (p : Pending) : CallEffect host db p db
  | opened {p : Pending} (ch : Channel) (rows : List MembershipRow) (hp : p.creates = some ch.id)
      (hfree : Free db ch.id) (hrows : Seats db ch rows) :
      CallEffect host db p { db.withChannel ch with channelMemberships := rows }
  | paired (ch : Channel) (actor other : UserId) (hfree : Free db ch.id) :
      CallEffect host db (.createDirect ch actor other) (db.withDirect ch actor other)
  | takenBack {p : Pending} (ch : Channel) (hp : p.creates = some ch.id) (hfree : Free db ch.id) :
      CallEffect host db p ((db.withChannel ch).removeChannels fun c => c = ch.id)
  | seated (c : ChannelId) (u : UserId) (hc : db.hasChannel c = true) :
      CallEffect host db (.insertMember c u)
        { db with channelMemberships := db.channelMemberships ++ [⟨c, u, .member, 0⟩] }
  | unseated (actor : UserId) (c : ChannelId) :
      CallEffect host db (.deleteLeave actor c)
        { db with channelMemberships :=
            db.channelMemberships.filter fun r => !(r.channelId = c ∧ r.userId = actor) }
  | left (actor : UserId) (k : CircleId) :
      CallEffect host db (.leaveCircle actor k)
        { db with
          channelMemberships := db.channelMemberships.filter fun r =>
            !(r.userId = actor ∧ db.channelOfCircle k r.channelId)
          circleMemberships :=
            db.circleMemberships.filter fun r => !(r.circleId = k ∧ r.userId = actor) }
  | dissolved (actor : UserId) (k : CircleId) (refused : Bool) :
      CallEffect host db (.deleteCircle actor k refused) (db.removeCircle k)
  | rolled {p : Pending} (hp : p.writesRolls = true) (circles : List CircleRow)
      (rows : List CircleMembershipRow) (invitations : List CircleInvitationRow)
      (enrollments : List EnrollmentInvitationRow) (hrows : db.circleMemberships ⊆ rows) :
      CallEffect host db p
        { db with
          circles := circles
          circleMemberships := rows
          circleInvitations := invitations
          enrollmentInvitations := enrollments }
  | invited (row : ChatInvitationRow) :
      CallEffect host db (.insertChatInvitation row)
        { db with chatInvitations := db.chatInvitations ++ [row] }
  | accepted (actor : UserId) (token : String) (target : InvitationTarget) (id : ChannelId)
      (now : Time) (added : List Channel) (rows : List CircleMembershipRow)
      (seats : List MembershipRow) (h : ChatAccepts db actor target id added rows seats) :
      CallEffect host db (.acceptChatInvitation actor token target id now)
        { db with
          channels := db.channels ++ added
          circleMemberships := rows
          channelMemberships := db.channelMemberships ++ seats }
  | appended (command : SendMessage) (env : SendEnv) (m : ChatMessage) {d : Db}
      (h : Appended host command env db m d) : CallEffect host db (.append command env) d

/-- The call ends with an effect, and with whatever it does beside the channels. -/
def Does (host : Host) (db : Db) (p : Pending) (db' : Db) : Prop :=
  ∃ d, CallEffect host db p d ∧ db' = d.aside db'

variable {c id source : ChannelId} {other : UserId} {slug : Uuid} {b : Bool}

variable {host : Host} {db db' : Db} {ch ch' : Channel} {p : Pending} {actor u : UserId}
  {k : CircleId} {joinedAt now : Time} {token : String} {x : Unit}

theorem CallEffect.does {d : Db} (h : CallEffect host db p d) : Does host db p d :=
  ⟨d, h, rfl⟩

theorem does_stay : Does host db p db := (CallEffect.stay p).does

theorem finish_does {α : Type} {t : Sql α}
    (h : ∀ a db', t.run db = .ok (a, db') → Does host db p db') :
    Does host db p (Pending.finish t db).2 :=
  commit_snd (P := Does host db p) (does_stay) h

theorem proceed_does {t : Sql Unit} {q : Pending}
    (h : ∀ a db', t.run db = .ok (a, db') → Does host db p db') :
    Does host db p (Pending.proceed t q db).2 := by
  unfold Pending.proceed
  cases hr : t.run db with
  | error e => exact does_stay
  | ok r => exact h r.1 r.2 hr

/-! ### Opening channels -/

theorem insertNumberedChannel_iff :
    (Sql.insertNumberedChannel ch).run db = .ok (x, db') ↔
      ((∀ r ∈ db.channels, r.id ≠ ch.id ∧ r.slug ≠ ch.slug) ∧
        (∀ r ∈ db.channelSequences, r.channelId ≠ ch.id) ∧
        db.hasUser ch.createdBy = true ∧ ch.circleId.all db.hasCircle = true) ∧
        db.withChannel ch = db' := by
  simp only [Sql.insertNumberedChannel, Sql.insertChannel, Sql.insertChannelSequence, Sql.answers,
    answers]
  constructor
  · rintro ⟨hfree, hresolves, hcounter, -, rfl⟩
    refine ⟨⟨fun r hr => ?_, fun r hr => ?_, Bool.and_eq_true_iff.1 hresolves⟩, rfl⟩
    · simpa using any_eq_false.1 hfree r hr
    · simpa using any_eq_false.1 hcounter r hr
  · rintro ⟨⟨hfree, hcounter, hresolves⟩, rfl⟩
    refine ⟨?_, Bool.and_eq_true_iff.2 hresolves, ?_, ?_, rfl⟩
    · refine any_eq_false.2 fun r hr => ?_
      simpa using hfree r hr
    · refine any_eq_false.2 fun r hr => ?_
      simpa using hcounter r hr
    · simp [Db.hasChannel]

theorem insertNumberedChannel_free (h : (Sql.insertNumberedChannel ch).run db = .ok (x, db')) :
    Free db ch.id ∧ db.withChannel ch = db' := by
  obtain ⟨⟨hfree, hcounter, -⟩, hdb⟩ := insertNumberedChannel_iff.1 h
  exact ⟨⟨fun r hr => (hfree r hr).1, hcounter⟩, hdb⟩

theorem Seats.append {rows n : List MembershipRow} (h : Seats db ch rows)
    (hnew : ∀ r ∈ n, r.channelId = ch.id ∧ r.lastReadSequence = 0 ∧
      ∀ k, ch.circleId = some k → db.inCircle k r.userId = true) : Seats db ch (rows ++ n) := by
  intro r hr
  rcases mem_append.1 hr with hr | hr
  · exact h r hr
  · exact .inr (hnew r hr)

theorem seats_self : Seats db ch db.channelMemberships := fun r hr => .inl ⟨r, hr, rfl⟩

theorem inCircle_of_role {role : CircleRole} (h : db.circleRole? k u = some role) :
    db.inCircle k u = true := by
  obtain ⟨r, hr, -⟩ := Option.map_eq_some_iff.1 h
  have hrow := find?_some hr
  exact any_eq_true.2 ⟨r, mem_of_find?_eq_some hr, hrow⟩

theorem requireCircleRole_ok {circle : Option CircleId}
    (h : (requireCircleRole actor circle).run db = .ok (x, db')) :
    db = db' ∧ ∀ k, circle = some k → db.inCircle k actor = true := by
  cases circle with
  | none =>
    obtain ⟨-, rfl⟩ := pure_ok.1 h
    exact ⟨rfl, fun k hk => by cases hk⟩
  | some k =>
    simp only [requireCircleRole, answers] at h
    obtain ⟨hcan, rfl⟩ := h
    refine ⟨rfl, ?_⟩
    rintro k' ⟨⟩
    cases hrole : db.circleRole? k actor with
    | none =>
      rw [hrole] at hcan
      cases hcan
    | some role => exact inCircle_of_role hrole

theorem ownMembership_ok (h : (Sql.ownMembership c u).run db = .ok (x, db')) :
    ∃ rows, db' = { db with channelMemberships := rows } ∧
      ∀ r ∈ rows, (∃ r₀ ∈ db.channelMemberships, r = { r₀ with role := r.role }) ∨
        r = ⟨c, u, .owner, 0⟩ := by
  obtain ⟨inserted, db₁, hjoin, h⟩ := bind_ok.1 h
  rcases Sql.insertOrIgnore_ok.1 hjoin with ⟨-, rfl, rfl⟩ | ⟨-, -, -, rfl, rfl⟩
  · rw [if_neg nofun] at h
    obtain rfl := write_ok.1 h
    refine ⟨_, rfl, fun r hr => .inl ?_⟩
    obtain ⟨r₀, hr₀, rfl⟩ := mem_map.1 hr
    refine ⟨r₀, hr₀, ?_⟩
    split <;> rfl
  · obtain ⟨-, rfl⟩ := pure_ok.1 h
    refine ⟨_, rfl, fun r hr => ?_⟩
    rcases mem_append.1 hr with hr | hr
    · exact .inl ⟨r, hr, rfl⟩
    · exact .inr (mem_singleton.1 hr)

theorem joinEverybody_ok (h : (joinEverybody ch).run db = .ok (x, db')) :
    ∃ rows, db' = { db with channelMemberships := db.channelMemberships ++ rows } ∧
      ∀ r ∈ rows, r.channelId = ch.id ∧ r.lastReadSequence = 0 ∧ ch.circleId = none := by
  unfold joinEverybody at h
  split at h
  · next hgeneral =>
    obtain rfl := write_ok.1 h
    refine ⟨_, rfl, fun r hr => ?_⟩
    obtain ⟨u, -, rfl⟩ := mem_map.1 hr
    exact ⟨rfl, rfl, hgeneral.1⟩
  · obtain ⟨-, rfl⟩ := pure_ok.1 h
    exact ⟨[], by rw [append_nil], fun _ hr => absurd hr not_mem_nil⟩

theorem createChannel_does {command : CreateChannel}
    (h : (createChannel command id).run db = .ok (ch, db')) :
    Does host db (.createChannel command id) db' := by
  simp only [createChannel, answers] at h
  obtain ⟨_, _, hrole, _, db₁, hinsert, _, db₂, hjoin, _, db₃, hown, rfl, rfl⟩ := h
  obtain ⟨rfl, hcircle⟩ := requireCircleRole_ok hrole
  obtain ⟨hfree, rfl⟩ := insertNumberedChannel_free hinsert
  obtain ⟨joined, rfl, hjoined⟩ := joinEverybody_ok hjoin
  obtain ⟨rows, rfl, hrows⟩ := ownMembership_ok hown
  refine (CallEffect.opened ⟨id, command.slug.text, command.name, command.kind, command.circleId,
    command.actor⟩ rows rfl hfree fun r hr => ?_).does
  rcases hrows r hr with ⟨r₀, hr₀, hrow⟩ | rfl
  · rcases mem_append.1 hr₀ with hr₀ | hr₀
    · exact .inl ⟨r₀, hr₀, hrow⟩
    · obtain ⟨hid, hread, hnone⟩ := hjoined r₀ hr₀
      rw [hrow]
      exact .inr ⟨hid, hread, fun k hk => by rw [hnone] at hk; cases hk⟩
  · exact .inr ⟨rfl, rfl, hcircle⟩

/-- The creating transaction creates the conversation, or finds the one of a faster call. -/
theorem createDirectChannel_ok (h : (createDirectChannel ch actor other).run db = .ok (ch', db')) :
    Free db ch.id ∧
      ((db.directConversation? (normalizedPair actor other) = none ∧ ch' = ch ∧
          db' = db.withDirect ch actor other) ∨
        ∃ row, db'.directConversation? (normalizedPair actor other) = some row ∧
          db'.channel? row.channelId = some ch' ∧
          db' = (db.withChannel ch).removeChannels fun c => c = ch.id) := by
  rw [createDirectChannel] at h
  obtain ⟨_, _, hinsert, h⟩ := bind_ok.1 h
  obtain ⟨hfree, rfl⟩ := insertNumberedChannel_free hinsert
  refine ⟨hfree, ?_⟩
  obtain ⟨b, _, hdirect, h⟩ := bind_ok.1 h
  rcases Sql.insertOrIgnore_ok.1 hdirect with ⟨-, rfl, rfl⟩ | ⟨habsent, -, -, rfl, rfl⟩
  · rw [if_neg nofun] at h
    simp only [Sql.answers, answers] at h
    obtain ⟨row, hrow, hchannel, rfl⟩ := h
    exact .inr ⟨row, hrow, hchannel, rfl⟩
  · rw [if_pos rfl] at h
    simp only [Sql.insertMembership, Sql.answers, answers] at h
    obtain ⟨-, -, -, -, rfl, rfl⟩ := h
    refine .inl ⟨Option.not_isSome_iff_eq_none.1 (Bool.eq_false_iff.1 habsent), rfl, ?_⟩
    rw [Db.withDirect, Db.withChannel]
    simp only [append_assoc, cons_append, nil_append]

theorem createDirectChannel_does
    (h : (createDirectChannel ch actor other).run db = .ok (ch', db')) :
    Does host db (.createDirect ch actor other) db' := by
  obtain ⟨hfree, ⟨-, -, rfl⟩ | ⟨row, -, -, rfl⟩⟩ := createDirectChannel_ok h
  · exact (CallEffect.paired ch actor other hfree).does
  · exact (CallEffect.takenBack ch rfl hfree).does

theorem planDirectGroup_ok {plan : Channel × List UserRow}
    (h : (planDirectGroup actor other source id slug).run db = .ok (plan, db')) :
    db = db' ∧ plan.1.id = id ∧ plan.1.circleId = none := by
  simp only [planDirectGroup, answers] at h
  obtain ⟨-, -, -, _, -, rfl, rfl⟩ := h
  exact ⟨rfl, rfl, rfl⟩

theorem insertMemberships_ok {people : List UserRow}
    (h : (Txn.forEach (fun p : UserRow => Sql.insertMembership c p.id .member) people).run db =
      .ok (x, db')) : db' = { db with channelMemberships :=
      db.channelMemberships ++ people.map fun p => ⟨c, p.id, .member, 0⟩ } := by
  induction people generalizing db with
  | nil =>
    obtain ⟨-, rfl⟩ := pure_ok.1 h
    rw [map_nil, append_nil]
  | cons p people ih =>
    obtain ⟨_, _, hinsert, h⟩ := bind_ok.1 h
    obtain ⟨-, -, rfl⟩ := Sql.insert_ok.1 hinsert
    rw [ih h]
    simp only [map_cons, append_assoc, cons_append, nil_append]

theorem expandDirectChannel_does
    (h : (expandDirectChannel actor source other id slug).run db = .ok (ch, db')) :
    Does host db (.expandDirect actor source other id slug) db' := by
  simp only [expandDirectChannel, answers] at h
  obtain ⟨-, h⟩ := h
  split at h
  · obtain rfl := loadExpansion_frame (fun db => db) source other h
    exact does_stay
  · obtain ⟨plan, _, hplan, hcreate⟩ := bind_ok.1 h
    obtain ⟨rfl, rfl, hnone⟩ := planDirectGroup_ok hplan
    simp only [createDirectGroup, answers] at hcreate
    obtain ⟨_, _, hinsert, _, _, hgroup, b, _, hexpansion, h⟩ := hcreate
    obtain ⟨hfree, rfl⟩ := insertNumberedChannel_free hinsert
    obtain ⟨-, -, rfl⟩ := Sql.insert_ok.1 hgroup
    rcases Sql.insertOrIgnore_ok.1 hexpansion with ⟨-, rfl, rfl⟩ | ⟨-, -, -, rfl, rfl⟩
    · rw [if_neg Bool.false_ne_true] at h
      obtain ⟨_, _, hremove, h⟩ := bind_ok.1 h
      obtain rfl := write_ok.1 hremove
      obtain rfl := loadExpansion_frame (fun db => db) source other h
      exact ⟨_, .takenBack plan.1 rfl hfree, rfl⟩
    · rw [if_pos rfl] at h
      obtain ⟨_, hjoin, -⟩ := bind_pure_ok.1 h
      obtain rfl := insertMemberships_ok hjoin
      refine ⟨_, .opened plan.1 (db.channelMemberships ++ plan.2.map fun p =>
        ⟨plan.1.id, p.id, .member, 0⟩) rfl hfree (seats_self.append fun r hr => ?_), rfl⟩
      obtain ⟨p, -, rfl⟩ := mem_map.1 hr
      exact ⟨rfl, rfl, fun k hk => by rw [hnone] at hk; cases hk⟩

theorem openPersonalSpace_does {owner : UserId}
    (h : (openPersonalSpace owner id).run db = .ok (ch, db')) :
    Does host db (.openPersonal owner id) db' := by
  simp only [openPersonalSpace, answers] at h
  replace h := h.2
  split at h
  · obtain ⟨-, rfl⟩ := pure_ok.1 h
    exact does_stay
  · simp only [createPersonalSpace, Sql.insertMembership, Sql.insertPersonalSpace, Sql.answers,
      answers] at h
    obtain ⟨_, _, hinsert, -, -, -, -, -, rfl⟩ := h
    obtain ⟨hfree, rfl⟩ := insertNumberedChannel_free hinsert
    refine ⟨_, .opened (personalChannel owner id) (db.channelMemberships ++
      [⟨id, owner, .member, 0⟩]) rfl hfree (seats_self.append fun r hr => ?_), rfl⟩
    rw [mem_singleton.1 hr]
    exact ⟨rfl, rfl, fun k hk => by cases hk⟩

/-! ### Circles -/

theorem joinedRows_of_member (h : db.inCircle k u = true) :
    joinedRows k u joinedAt db.circleMemberships = db.circleMemberships :=
  if_pos h

theorem joinedRows_of_absent (h : db.inCircle k u = false) :
    joinedRows k u joinedAt db.circleMemberships =
      db.circleMemberships ++ [⟨k, u, .member, joinedAt⟩] :=
  if_neg (by rw [show List.any _ _ = false from h]; exact nofun)

theorem subset_joinedRows :
    db.circleMemberships ⊆ joinedRows k u joinedAt db.circleMemberships := by
  cases h : db.inCircle k u with
  | true => rw [joinedRows_of_member h]; exact Subset.refl _
  | false => rw [joinedRows_of_absent h]; exact subset_append_left _ _

theorem any_joinedRows :
    ((joinedRows k u joinedAt db.circleMemberships).any fun r =>
      r.circleId = k ∧ r.userId = u) = true := by
  cases h : db.inCircle k u with
  | true => rw [joinedRows_of_member h]; exact h
  | false => rw [joinedRows_of_absent h]; simp

theorem joinCircle_ok (h : (Sql.joinCircle k u .member joinedAt).run db = .ok (b, db')) :
    db' = { db with circleMemberships := joinedRows k u joinedAt db.circleMemberships } ∧
      (db.inCircle k u = false → db.hasCircle k = true) := by
  rcases Sql.insertOrIgnore_ok.1 h with ⟨hpresent, -, rfl⟩ | ⟨habsent, -, hresolves, -, rfl⟩
  · rw [joinedRows_of_member hpresent]
    exact ⟨rfl, fun hnone => by rw [hpresent] at hnone; cases hnone⟩
  · rw [joinedRows_of_absent habsent]
    exact ⟨rfl, fun _ => (Bool.and_eq_true_iff.1 hresolves).1⟩

theorem acceptCircleInvitation_ok {m : CircleMembershipRow}
    (h : (acceptCircleInvitation host u token now joinedAt).run db = .ok (m, db')) :
    ∃ row ∈ db.circleInvitations, row.tokenHash = host.hashToken token ∧ row.acceptedAt = none ∧
      ¬row.expiresAt < now ∧ m = ⟨row.circleId, u, .member, joinedAt⟩ ∧
      (db.inCircle row.circleId u = false → db.hasCircle row.circleId = true) ∧
      db' = { db with
        circleMemberships := joinedRows row.circleId u joinedAt db.circleMemberships
        circleInvitations := db.circleInvitations.map fun r =>
          if r.id = row.id ∧ r.acceptedAt = none then
            { r with acceptedBy := some u, acceptedAt := some joinedAt } else r } := by
  simp only [acceptCircleInvitation, answers] at h
  obtain ⟨row, hfind, hexpires, _, _, hjoin, rfl, rfl⟩ := h
  have hrow := List.find?_some hfind
  rw [decide_eq_true_eq] at hrow
  obtain ⟨rfl, hcircle⟩ := joinCircle_ok hjoin
  exact ⟨row, List.mem_of_find?_eq_some hfind, hrow.1, hrow.2, hexpires, rfl, hcircle, rfl⟩

theorem acceptEnrollmentInvitation_ok {email : String} {o : Option CircleMembershipRow}
    (h : (acceptEnrollmentInvitation host u token email now).run db = .ok (o, db')) :
    ∃ row ∈ db.enrollmentInvitations,
      row.consumable (host.hashToken token) (host.emailHash email) now = true ∧ ∃ rows,
      db' = { db with
        circleMemberships := rows
        enrollmentInvitations := db.enrollmentInvitations.map fun r =>
          if r.consumable (host.hashToken token) (host.emailHash email) now then
            { r with state := .consumed, consumedBy := some u } else r } ∧
      ((row.circleId = none ∧ o = none ∧ rows = db.circleMemberships) ∨
        ∃ k m, row.circleId = some k ∧ o = some m ∧
          rows = joinedRows k u now db.circleMemberships ∧
          (db.inCircle k u = false → db.hasCircle k = true) ∧
          rows.find? (fun r => r.circleId = k ∧ r.userId = u) = some m) := by
  simp only [acceptEnrollmentInvitation, answers] at h
  obtain ⟨row, hfind, -, hjoin⟩ := h
  refine ⟨row, List.mem_of_find?_eq_some hfind, List.find?_some hfind, ?_⟩
  rcases Option.eq_none_or_eq_some row.circleId with hnone | ⟨k, hk⟩
  · rw [hnone] at hjoin
    obtain ⟨rfl, rfl⟩ := pure_ok.1 hjoin
    exact ⟨_, rfl, .inl ⟨hnone, rfl, rfl⟩⟩
  · rw [hk] at hjoin
    simp only [joinEnrolledCircle, Sql.answers, answers] at hjoin
    obtain ⟨_, _, hjoined, m, hread, rfl, rfl⟩ := hjoin
    obtain ⟨rfl, hcircle⟩ := joinCircle_ok hjoined
    exact ⟨_, rfl, .inr ⟨k, m, hk, rfl, rfl, hcircle, hread⟩⟩

theorem joinMembership_ok (h : (Sql.joinMembership c u .member).run db = .ok (b, db')) :
    ∃ seats, db' = { db with channelMemberships := db.channelMemberships ++ seats } ∧
      ∀ r ∈ seats, r = ⟨c, u, .member, 0⟩ ∧ db.hasChannel c = true := by
  rcases Sql.insertOrIgnore_ok.1 h with ⟨-, -, rfl⟩ | ⟨-, -, hresolves, -, rfl⟩
  · exact ⟨[], by rw [append_nil], fun _ hr => absurd hr not_mem_nil⟩
  · exact ⟨_, rfl, fun r hr => ⟨mem_singleton.1 hr, (Bool.and_eq_true_iff.1 hresolves).1⟩⟩

theorem acceptCircleTarget_ok (h : (acceptCircleTarget actor k id now).run db = .ok (c, db')) :
    ∃ added, db' = { db with
        channels := db.channels ++ added
        circleMemberships := joinedRows k actor now db.circleMemberships } ∧
      (added = [] ∨ db.hasChannel id = false ∧ db.prat? k = none ∧
        added = [newPrat k id actor]) ∧
      ∀ ch ∈ db.channels ++ added, ch.id = c → (∃ e ∈ db.channels, e.id = c ∧
        e.circleId = some k) ∨ ch.circleId = some k ∨ db.hasChannel id = true := by
  simp only [acceptCircleTarget, Sql.insertChannelUnlessSlug, answers] at h
  obtain ⟨_, _, hjoin, _, _, hinsert, rfl, rfl⟩ := h
  obtain ⟨rfl, -⟩ := joinCircle_ok hjoin
  generalize hprat : Db.prat? _ k = existing at hinsert
  cases existing with
  | some e =>
    have he := mem_filter.1 (leastById_mem hprat)
    rcases Sql.insertOrIgnore_ok.1 hinsert with ⟨-, -, rfl⟩ | ⟨-, htaken, -⟩
    · refine ⟨[], by rw [append_nil], .inl rfl, fun ch _ _ => .inl ⟨e, he.1, rfl, ?_⟩⟩
      exact (of_decide_eq_true he.2).1
    · -- an id that is taken is not inserted
      exact absurd (decide_eq_true rfl) (any_eq_false.1 htaken e he.1)
  | none =>
    rcases Sql.insertOrIgnore_ok.1 hinsert with ⟨-, -, rfl⟩ | ⟨-, htaken, -, -, rfl⟩
    · refine ⟨[], by rw [append_nil], .inl rfl, fun ch hch hid => .inr (.inr ?_)⟩
      rw [append_nil] at hch
      exact any_eq_true.2 ⟨ch, hch, decide_eq_true hid⟩
    · refine ⟨_, rfl, .inr ⟨htaken, hprat, rfl⟩, fun ch hch hid => .inr (.inl ?_)⟩
      rcases mem_append.1 hch with hch | hch
      · exact absurd (decide_eq_true hid) (any_eq_false.1 htaken ch hch)
      · rw [mem_singleton.1 hch]

theorem acceptChatInvitation_does {target : InvitationTarget}
    (h : (acceptChatInvitation host actor token target id now).run db = .ok (ch, db')) :
    Does host db (.acceptChatInvitation actor token target id now) db' := by
  simp only [acceptChatInvitation, Sql.answers, answers] at h
  obtain ⟨_, -, c, db₁, htarget, _, db₂, hjoin, -, rfl⟩ := h
  obtain ⟨seats, rfl, hseats⟩ := joinMembership_ok hjoin
  cases target with
  | channel k c' =>
    simp only [acceptTarget, answers] at htarget
    obtain ⟨hmember, rfl, rfl⟩ := htarget
    refine ⟨_, .accepted actor token _ id now [] db.circleMemberships seats
      ⟨Subset.refl _, .inl rfl, fun r hr => ?_⟩, by rw [append_nil]; rfl⟩
    obtain ⟨rfl, hthere⟩ := hseats r hr
    obtain ⟨ch, hch, hid⟩ := any_eq_true.1 hthere
    obtain rfl := of_decide_eq_true hid
    exact ⟨rfl, rfl, ch, mem_append_left _ hch, rfl, k, hmember, .inl rfl⟩
  | circle k =>
    obtain ⟨added, rfl, hadded, hplaced⟩ := acceptCircleTarget_ok htarget
    refine ⟨_, .accepted actor token _ id now added _ seats
      ⟨subset_joinedRows, hadded.imp_right fun h => ⟨h.1, k, rfl, h.2⟩,
        fun r hr => ?_⟩, rfl⟩
    obtain ⟨rfl, hthere⟩ := hseats r hr
    obtain ⟨ch, hch, hid⟩ := any_eq_true.1 hthere
    obtain rfl := of_decide_eq_true hid
    rcases hplaced ch hch rfl with ⟨e, he, hid, hcircle⟩ | hcircle
    · exact ⟨rfl, rfl, e, mem_append_left _ he, hid, k, any_joinedRows, .inr (.inl hcircle)⟩
    · exact ⟨rfl, rfl, ch, hch, rfl, k, any_joinedRows, .inr hcircle⟩

theorem exec_does (host : Host) (p : Pending) (db : Db) : Does host db p (p.exec host db).2 := by
  cases p with
  | createCircle command id now =>
    refine finish_does fun _ _ h => ?_
    simp only [createCircle, Sql.answers, answers] at h
    obtain ⟨-, -, -, -, -, rfl⟩ := h
    exact (CallEffect.rolled rfl _ _ _ _ (subset_append_left _ _)).does
  | createChannel => exact finish_does fun _ _ => createChannel_does
  | createDirect => exact finish_does fun _ _ => createDirectChannel_does
  | expandDirect => exact finish_does fun _ _ => expandDirectChannel_does
  | openPersonal => exact finish_does fun _ _ => openPersonalSpace_does
  | insertCircleInvitation | insertEnrollment =>
    refine finish_does fun _ _ h => ?_
    obtain ⟨-, -, rfl⟩ := Sql.insert_ok.1 h
    exact (CallEffect.rolled rfl _ _ _ _ (Subset.refl _)).does
  | acceptCircleInvitation actor token now joinedAt =>
    refine finish_does fun _ _ h => ?_
    obtain ⟨row, -, -, -, -, -, -, rfl⟩ := acceptCircleInvitation_ok h
    exact (CallEffect.rolled rfl _ _ _ _ (subset_joinedRows)).does
  | activateEnrollment token authentikId now =>
    refine finish_does fun _ _ h => ?_
    simp only [activateEnrollmentInvitation, answers] at h
    obtain ⟨_, -, -, -, rfl⟩ := h
    exact (CallEffect.rolled rfl _ _ _ _ (Subset.refl _)).does
  | acceptEnrollment actor token email now =>
    refine finish_does fun _ _ h => ?_
    obtain ⟨row, -, -, rows, rfl, ⟨-, -, rfl⟩ | ⟨k, m, -, -, rfl, -⟩⟩ :=
      acceptEnrollmentInvitation_ok h
    · exact (CallEffect.rolled rfl _ _ _ _ (Subset.refl _)).does
    · exact (CallEffect.rolled rfl _ _ _ _ (subset_joinedRows)).does
  | insertChatInvitation row =>
    refine finish_does fun _ _ h => ?_
    obtain ⟨-, -, rfl⟩ := Sql.insert_ok.1 h
    exact (CallEffect.invited row).does
  | acceptChatInvitation => exact finish_does fun _ _ => acceptChatInvitation_does
  | insertMember c u =>
    refine proceed_does fun _ _ h => ?_
    obtain ⟨_, hjoin, -⟩ := bind_pure_ok.1 h
    rcases Sql.insertOrIgnore_ok.1 hjoin with ⟨-, -, rfl⟩ | ⟨-, -, hresolves, -, rfl⟩
    · exact does_stay
    · exact (CallEffect.seated c u (Bool.and_eq_true_iff.1 hresolves).1).does
  | deleteLeave actor c =>
    refine proceed_does fun _ _ h => ?_
    simp only [deleteMembership, answers] at h
    obtain ⟨-, rfl⟩ := h
    exact (CallEffect.unseated actor c).does
  | unsubscribeLeave actor c =>
    refine finish_does fun _ _ h => ?_
    obtain rfl := write_ok.1 h
    exact ⟨db, .stay _, rfl⟩
  | leaveCircle actor k =>
    refine finish_does fun _ _ h => ?_
    simp only [leaveCircle, answers] at h
    obtain ⟨-, rfl⟩ := h
    exact ⟨_, .left actor k, rfl⟩
  | deleteCircle actor k refused =>
    refine finish_does fun _ _ h => ?_
    simp only [deleteCircle, answers] at h
    obtain ⟨-, -, -, rfl⟩ := h
    exact (CallEffect.dissolved actor k refused).does
  | append command env =>
    refine finish_does fun m _ h => ?_
    exact (CallEffect.appended command env m (appendMessage_ok h)).does
  | loadMember c u =>
    refine finish_does fun _ _ h => ?_
    simp only [loadMembership, answers] at h
    obtain ⟨-, rfl⟩ := h
    exact does_stay
  | openDirect | resolveJoin =>
    simp only [Pending.exec]
    split <;> exact does_stay
  | _ =>
    simp only [Pending.exec, check_snd]
    exact does_stay

end Sproyt
