import Sproyt.Db.Ownership
import Sproyt.Lib.Lifecycle

/-!
# Invitations and enrollments are used once

An invitation into a circle is issued and then accepted at most once. An enrollment is prepared,
activated and consumed, in this order. Accepting an enrollment reads the membership back, while
accepting an invitation answers with the membership it would have inserted.
-/

namespace Sproyt

open List

/-- An invitation into a circle is issued, or (`true`) accepted. -/
def RollEvent.use : RollEvent → Option (Hash × Bool)
  | .issued hash => some (hash, false)
  | .accepted hash _ => some (hash, true)
  | _ => none

def RollEvent.enrollment : RollEvent → Option (Hash × EnrollmentInvitationState)
  | .prepared hash => some (hash, .inactive)
  | .activated hash => some (hash, .active)
  | .consumed hash _ => some (hash, .consumed)
  | _ => none

/-- Whether the invitation with a hash has been issued and accepted, since it was last issued. -/
def usesOf (hash : Hash) (trace : List RollEvent) : List Bool :=
  Lifecycle.latest false hash (trace.filterMap RollEvent.use)

def statesOf (hash : Hash) (trace : List RollEvent) : List EnrollmentInvitationState :=
  Lifecycle.latest .inactive hash (trace.filterMap RollEvent.enrollment)

def CircleInvitationRow.stage (r : CircleInvitationRow) : Nat :=
  if r.acceptedAt = none then 1 else 2

def EnrollmentInvitationRow.stage (r : EnrollmentInvitationRow) : Nat :=
  match r.state with
  | .inactive => 1
  | .active => 2
  | .consumed => 3

variable {row : CircleInvitationRow} {u : UserId} {joinedAt : Time} {email : Hash}

section

variable {host : Host} {db db' : Db} {trace : List RollEvent} {e : RollEvent}

/-! ### Invitations into circles -/

/-- Tokens are unique, and the invitations with them stand where the run has brought them. -/
structure Invited (trace : List RollEvent) (db : Db) : Prop where
  ids : (db.circleInvitations.map (·.id)).Nodup
  uses : Lifecycle.Follows (·.tokenHash) (·.stage) false [true] db.circleInvitations
    (trace.filterMap RollEvent.use)

theorem filterMap_concat {α β : Type} (f : α → Option β) (xs : List α) (a : α) :
    (xs ++ [a]).filterMap f = xs.filterMap f ++ (f a).toList := by
  rw [filterMap_append, filterMap_cons]
  cases f a <;> rfl

theorem Invited.kept (h : Invited trace db) (he : e.use = none)
    (hrows : db'.circleInvitations.Sublist db.circleInvitations) : Invited (trace ++ [e]) db' := by
  refine ⟨h.ids.sublist (hrows.map _), ?_⟩
  rw [filterMap_concat, he, Option.toList_none, append_nil]
  exact h.uses.sublist hrows

theorem Invited.same (h : Invited trace db) (he : e.use = none)
    (hrows : db'.circleInvitations = db.circleInvitations) : Invited (trace ++ [e]) db' :=
  h.kept he (hrows ▸ List.Sublist.refl _)

theorem Invited.issued (h : Invited trace db) (hopen : row.acceptedAt = none)
    (hnew : ∀ r ∈ db.circleInvitations, r.id ≠ row.id ∧ r.tokenHash ≠ row.tokenHash)
    (hrows : db'.circleInvitations = db.circleInvitations ++ [row]) :
    Invited (trace ++ [.issued row.tokenHash]) db' := by
  refine ⟨?_, ?_⟩
  · rw [hrows]
    exact Table.nodup_append_single h.ids fun r hr => (hnew r hr).1
  · rw [filterMap_concat, hrows]
    exact h.uses.begin (fun r hr => (hnew r hr).2) (if_pos hopen)

theorem Invited.accepted (h : Invited trace db) (hrow : row ∈ db.circleInvitations)
    (hopen : row.acceptedAt = none)
    (hrows : db'.circleInvitations = db.circleInvitations.map fun r =>
      if r.id = row.id ∧ r.acceptedAt = none then
        { r with acceptedBy := some u, acceptedAt := some joinedAt } else r) :
    Invited (trace ++ [.accepted row.tokenHash u]) db' := by
  have hstage : row.stage = 1 := if_pos hopen
  refine ⟨?_, ?_⟩
  · rw [hrows, Table.map_key_map fun r => by split <;> rfl]
    exact h.ids
  · rw [filterMap_concat, hrows]
    refine h.uses.advance hrow ⟨rfl, hopen⟩ (fun r hr hsame => ?_) (by rw [hstage]; rfl) nofun
      (fun _ => rfl) (by rw [hstage]; exact if_neg nofun)
    -- the id and the hash single out the same row
    rw [Table.eq_of_key_eq h.ids hr hrow hsame.1]

theorem RollEffect.invited (h : RollEffect db e db') (hdb : Invited trace db) :
    Invited (trace ++ [e]) db' := by
  cases h with
  | quiet h | founded _ _ _ h | appointed _ _ h | left _ _ _ h | joined _ _ _ _ h
  | prepared _ _ _ h | activated _ _ _ _ h | consumed _ _ _ _ _ _ h =>
    exact hdb.same rfl (congrArg (·.2.2.1) h)
  | dissolved _ h =>
    refine hdb.kept rfl ?_
    rw [show db'.circleInvitations = _ from congrArg (·.2.2.1) h]
    exact filter_sublist
  | issued row hopen hnew h => exact hdb.issued hopen hnew (congrArg (·.2.2.1) h)
  | accepted row u joinedAt hrow hopen _ h =>
    exact hdb.accepted hrow hopen (congrArg (·.2.2.1) h)

theorem invited_of_run (h : Run (RollStep host) .empty trace db) : Invited trace db := by
  refine h.history (P := Invited) ?_ ⟨nodup_nil, Lifecycle.follows_nil⟩
  rintro trace db e db' hdb ⟨c, hbuilt⟩
  exact (exec_effect hbuilt db).invited hdb

theorem find?_joinedRows {k : CircleId} (hdb : Owned db) (answered : Time) :
    (joinedRows k u joinedAt db.circleMemberships).find? (fun r => r.circleId = k ∧ r.userId = u) =
        some ⟨k, u, .member, answered⟩ ↔
      (∀ r ∈ db.circleMemberships, r.key = (k, u) → r = ⟨k, u, .member, answered⟩) ∧
        (db.inCircle k u = false → joinedAt = answered) := by
  cases hmember : db.inCircle k u with
  | true =>
    rw [joinedRows_of_member hmember]
    obtain ⟨r, hr, hkey⟩ := any_eq_true.1 hmember
    obtain ⟨rfl, rfl⟩ := of_decide_eq_true hkey
    rw [find?_membership hdb.keys hr]
    refine ⟨fun h => ⟨fun r' hr' hkey' => ?_, nofun⟩, fun h => congrArg some (h.1 r hr rfl)⟩
    rw [Table.eq_of_key_eq hdb.keys hr' hr hkey']
    exact Option.some.inj h
  | false =>
    rw [joinedRows_of_absent hmember, find?_append]
    have hnone : db.circleMemberships.find? (fun r => r.circleId = k ∧ r.userId = u) = none :=
      find?_eq_none.2 (any_eq_false.1 hmember)
    have habsent : ∀ r ∈ db.circleMemberships, r.key = (k, u) → r = ⟨k, u, .member, answered⟩ :=
      fun r hr hkey => absurd hkey (key_ne_of_absent hmember r hr)
    rw [hnone]
    simpa using fun _ => habsent

theorem accepted_answer_iff (h : Run (RollStep host) .empty trace db) {token : String}
    {now : Time} {m : CircleMembershipRow}
    (haccept : (acceptCircleInvitation host u token now joinedAt).run db = .ok (m, db'))
    (answered : Time) :
    db'.circleMemberships.find? (fun r => r.circleId = m.circleId ∧ r.userId = u) =
        some { m with joinedAt := answered } ↔
      (∀ row ∈ db.circleInvitations, row.tokenHash = host.hashToken token →
        ∀ r ∈ db.circleMemberships, r.key = (row.circleId, u) →
          r = ⟨row.circleId, u, .member, answered⟩) ∧
        (db.inCircle m.circleId u = false → joinedAt = answered) := by
  obtain ⟨row, hrow, hhash, -, -, rfl, -, rfl⟩ := acceptCircleInvitation_ok haccept
  have hdb : Owned db := h.invariant (fun _ _ _ hdb hstep => hstep.owned hdb) owned_empty
  refine (find?_joinedRows hdb answered).trans (and_congr_left fun _ =>
    ⟨fun hstored row' hrow' hhash' => ?_, fun hall => hall row hrow hhash⟩)
  have hunique := (invited_of_run h).uses.unique
  rw [Table.eq_of_key_eq hunique hrow' hrow (hhash'.trans hhash.symm)]
  exact hstored

/-- From the empty database on, an invitation is accepted at most once for each time it is issued.
Whoever accepts one is answered the membership that is stored if and only if they had no other
membership of the circle before, and from PostgreSQL a newcomer only at a whole microsecond. -/
theorem accepted_membership_is_stored (h : Run (RollStep host) .empty trace db) :
    (∀ hash, usesOf hash trace <+: [false, true]) ∧
      (∀ u token now joinedAt m db',
        (acceptCircleInvitation host u token now joinedAt).run db = .ok (m, db') →
        (db'.circleMemberships.find? (fun r => r.circleId = m.circleId ∧ r.userId = u) = some m ↔
          ∀ row ∈ db.circleInvitations, row.tokenHash = host.hashToken token →
            ∀ r ∈ db.circleMemberships, r.key = (row.circleId, u) →
              r = ⟨row.circleId, u, .member, joinedAt⟩)) ∧
      ∀ u token now joinedAt m db',
        (Postgres.acceptCircleInvitation host u token now joinedAt).run db = .ok (m, db') →
        (db'.circleMemberships.find? (fun r => r.circleId = m.circleId ∧ r.userId = u) = some m ↔
          (∀ row ∈ db.circleInvitations, row.tokenHash = host.hashToken token →
            ∀ r ∈ db.circleMemberships, r.key = (row.circleId, u) →
              r = ⟨row.circleId, u, .member, joinedAt⟩) ∧
            (db.inCircle m.circleId u = false → 1000 ∣ joinedAt)) := by
  refine ⟨(invited_of_run h).uses.latest_isPrefix, ?_, ?_⟩
  · intro u token now joinedAt m db' haccept
    obtain ⟨row, -, -, -, -, rfl, -⟩ := acceptCircleInvitation_ok haccept
    refine (accepted_answer_iff h haccept joinedAt).trans ?_
    simp
  · intro u token now joinedAt m db' haccept
    simp only [Postgres.acceptCircleInvitation, Txn.answers] at haccept
    obtain ⟨m, _, haccept, rfl, rfl⟩ := haccept
    refine (accepted_answer_iff h haccept joinedAt).trans ?_
    rw [postgresTime_eq_iff]

end

open Sample in
/-- A newcomer, whose membership PostgreSQL keeps at a whole microsecond. -/
theorem accepted_membership_is_stored_for_newcomer :
    (∃ m db', (acceptCircleInvitation host bob "token" 1 1).run (execAll host inviting .empty) =
        .ok (m, db') ∧
      db'.circleMemberships.find? (fun r => r.circleId = m.circleId ∧ r.userId = bob) = some m) ∧
    ∃ m db', (Postgres.acceptCircleInvitation host bob "token" 1 1000).run
        (execAll host inviting .empty) = .ok (m, db') ∧
      db'.circleMemberships.find? (fun r => r.circleId = m.circleId ∧ r.userId = bob) =
        some m := by
  obtain ⟨-, hsqlite, hpostgres⟩ :=
    accepted_membership_is_stored (run_execAll inviting_built .empty)
  -- the only membership is that of the circle's owner
  have hother : ∀ r ∈ (execAll host inviting .empty).circleMemberships, ∀ k, r.key ≠ (k, bob) := by
    intro r hr k hkey
    obtain rfl := mem_singleton.1 hr
    cases congrArg Prod.snd hkey
  refine ⟨⟨_, _, rfl, (hsqlite bob "token" 1 1 _ _ rfl).2 fun row _ _ r hr hkey =>
    absurd hkey (hother r hr _)⟩, _, _, rfl, (hpostgres bob "token" 1 1000 _ _ rfl).2
      ⟨fun row _ _ r hr hkey => absurd hkey (hother r hr _), fun _ => by decide⟩⟩

open Sample in
/-- The owner is answered as a member; from PostgreSQL a newcomer is answered an instant that is not
stored. -/
theorem accepted_membership_differs_for_owner :
    ∃ trace db m db', Run (RollStep host) .empty trace db ∧
      (acceptCircleInvitation host alice "token" 1 1).run db = .ok (m, db') ∧
      db'.circleMemberships.find? (fun r => r.circleId = m.circleId ∧ r.userId = alice) =
        some ⟨circle, alice, .owner, 0⟩ ∧ m = ⟨circle, alice, .member, 1⟩ ∧
      ∃ m db', (Postgres.acceptCircleInvitation host bob "token" 1 1).run db = .ok (m, db') ∧
        db'.circleMemberships.find? (fun r => r.circleId = m.circleId ∧ r.userId = bob) =
          some ⟨circle, bob, .member, 1000⟩ ∧ m = ⟨circle, bob, .member, 1⟩ :=
  ⟨_, _, _, _, run_execAll inviting_built .empty, rfl, rfl, rfl, _, _, rfl, rfl, rfl⟩

/-! ### Enrollments -/

section

variable {hash : Hash} {now : Time} {r : EnrollmentInvitationRow}

variable {host : Host} {db db' : Db} {trace : List RollEvent} {e : RollEvent}

def Enrolled (trace : List RollEvent) (db : Db) : Prop :=
  Lifecycle.Follows (·.tokenHash) (·.stage) .inactive [.active, .consumed]
    db.enrollmentInvitations (trace.filterMap RollEvent.enrollment)

theorem Enrolled.kept (h : Enrolled trace db) (he : e.enrollment = none)
    (hrows : db'.enrollmentInvitations.Sublist db.enrollmentInvitations) :
    Enrolled (trace ++ [e]) db' := by
  rw [Enrolled, filterMap_concat, he, Option.toList_none, append_nil]
  exact h.sublist hrows

theorem Enrolled.same (h : Enrolled trace db) (he : e.enrollment = none)
    (hrows : db'.enrollmentInvitations = db.enrollmentInvitations) : Enrolled (trace ++ [e]) db' :=
  h.kept he (hrows ▸ List.Sublist.refl _)

theorem activatable_iff :
    r.activatable hash now = true ↔ r.tokenHash = hash ∧ r.state = .inactive ∧ now < r.expiresAt :=
  decide_eq_true_iff

theorem consumable_iff :
    r.consumable hash email now = true ↔ r.tokenHash = hash ∧ r.expectedEmailHash = email ∧
      r.state = .active ∧ now < r.expiresAt :=
  decide_eq_true_iff

theorem RollEffect.enrolled (h : RollEffect db e db') (hdb : Enrolled trace db) :
    Enrolled (trace ++ [e]) db' := by
  cases h with
  | quiet h | founded _ _ _ h | appointed _ _ h | left _ _ _ h | joined _ _ _ _ h | issued _ _ _ h
  | accepted _ _ _ _ _ _ h => exact hdb.same rfl (congrArg (·.2.2.2) h)
  | dissolved _ h =>
    refine hdb.kept rfl ?_
    rw [show db'.enrollmentInvitations = _ from congrArg (·.2.2.2) h]
    exact filter_sublist
  | prepared row hstate hnew h =>
    rw [Enrolled, filterMap_concat, show db'.enrollmentInvitations = _ from congrArg (·.2.2.2) h]
    refine hdb.begin (fun r hr => (hnew r hr).2) ?_
    rw [EnrollmentInvitationRow.stage, hstate]
  | activated hash authentikId now hrow h =>
    obtain ⟨row, hrow, hp⟩ := hrow
    obtain ⟨rfl, hstate, -⟩ := activatable_iff.1 hp
    have hstage : row.stage = 1 := by rw [EnrollmentInvitationRow.stage, hstate]
    rw [Enrolled, filterMap_concat, show db'.enrollmentInvitations = _ from congrArg (·.2.2.2) h]
    exact hdb.advance hrow hp (fun r _ hr => (activatable_iff.1 hr).1) (by rw [hstage]; rfl) nofun
      (fun _ => rfl) (by rw [hstage]; rfl)
  | consumed hash email u now rows hrow h =>
    obtain ⟨row, hrow, hp, -⟩ := hrow
    obtain ⟨rfl, -, hstate, -⟩ := consumable_iff.1 hp
    have hstage : row.stage = 2 := by rw [EnrollmentInvitationRow.stage, hstate]
    rw [Enrolled, filterMap_concat, show db'.enrollmentInvitations = _ from congrArg (·.2.2.2) h]
    exact hdb.advance hrow hp (fun r _ hr => (consumable_iff.1 hr).1) (by rw [hstage]; rfl) nofun
      (fun _ => rfl) (by rw [hstage]; rfl)

theorem enrolled_of_run (h : Run (RollStep host) .empty trace db) : Enrolled trace db := by
  refine h.history (P := Enrolled) ?_ Lifecycle.follows_nil
  rintro trace db e db' hdb ⟨c, hbuilt⟩
  exact (exec_effect hbuilt db).enrolled hdb

/-- From the empty database on, enrollments go from inactive to active and from active to
consumed, at most once for each time they are prepared. Whoever consumes one has the address it
was sent to, it was active and had not expired, and the answer is the membership that is stored,
with the role its member had before. -/
theorem enrollments_follow_their_life (h : Run (RollStep host) .empty trace db) :
    (∀ hash, statesOf hash trace <+: [.inactive, .active, .consumed]) ∧
      (∀ r ∈ db.enrollmentInvitations, (statesOf r.tokenHash trace).getLast? = some r.state) ∧
      ∀ u token email now o db',
        (acceptEnrollmentInvitation host u token email now).run db = .ok (o, db') →
        ∃ row ∈ db.enrollmentInvitations, row.tokenHash = host.hashToken token ∧
          row.expectedEmailHash = host.emailHash email ∧ row.state = .active ∧
          now < row.expiresAt ∧
          (∀ r ∈ db.enrollmentInvitations, (if r.tokenHash = row.tokenHash then
            { r with state := .consumed, consumedBy := some u } else r) ∈
              db'.enrollmentInvitations) ∧
          (row.circleId = none ∧ o = none ∨ ∃ k m, row.circleId = some k ∧ o = some m ∧
            m ∈ db'.circleMemberships ∧ m.key = (k, u) ∧
            ∀ role, db.circleRole? k u = some role → m.role = role) := by
  have hdb := enrolled_of_run h
  refine ⟨hdb.latest_isPrefix, fun r hr => ?_, ?_⟩
  · rw [statesOf, hdb.rows r hr, EnrollmentInvitationRow.stage]
    cases r.state <;> rfl
  intro u token email now o db' haccept
  obtain ⟨row, hrow, hconsumable, _, hwritten, hcase⟩ := acceptEnrollmentInvitation_ok haccept
  obtain ⟨hhash, hemail, hactive, hexpires⟩ := consumable_iff.1 hconsumable
  refine ⟨row, hrow, hhash, hemail, hactive, hexpires, fun r hr => ?_, ?_⟩
  · rw [hwritten]
    refine mem_map.2 ⟨r, hr, ?_⟩
    by_cases hsame : r.tokenHash = row.tokenHash
    · rw [if_pos hsame, Table.eq_of_key_eq hdb.unique hr hrow hsame, if_pos hconsumable]
    · rw [if_neg hsame, if_neg fun hr' => hsame ((consumable_iff.1 hr').1.trans hhash.symm)]
  · rcases hcase with ⟨hnone, ho, -⟩ | ⟨k, m, hk, ho, hjoined, -, hfind⟩
    · exact .inl ⟨hnone, ho⟩
    · have hm := find?_some hfind
      rw [decide_eq_true_eq] at hm
      obtain rfl : db'.circleMemberships = _ := congrArg Db.circleMemberships hwritten
      refine .inr ⟨k, m, hk, ho, mem_of_find?_eq_some hfind, Prod.ext hm.1 hm.2,
        fun role hrole => ?_⟩
      have hkept := role_of_joined hrole hjoined
      rw [Db.circleRole?, hfind, Option.map_some] at hkept
      exact Option.some.inj hkept

end

namespace Sample

def enrolling : List RollCall :=
  inviting.take 3 ++
    [.statement (.insertEnrollment ⟨6, some circle, alice, host.hashToken "token",
      host.emailHash "bob@example.test", 10, .inactive, none, none⟩),
    .statement (.activateEnrollment "token" 7 1)]

theorem enrolling_built : ∀ c ∈ enrolling, c.Built host := by
  intro c hc
  rcases mem_append.1 hc with hc | hc
  · exact inviting_built c (mem_of_mem_take hc)
  · simp only [mem_cons, not_mem_nil, or_false] at hc
    rcases hc with rfl | rfl
    · exact ⟨6, some circle, alice, "token", "bob@example.test", 10, rfl⟩
    · trivial

end Sample

open Sample in
theorem enrollments_follow_their_life_when_accepted :
    ∃ m db', (acceptEnrollmentInvitation host bob "token" "bob@example.test" 2).run
        (execAll host enrolling .empty) = .ok (some m, db') ∧
      m ∈ db'.circleMemberships ∧
      ∃ row ∈ (execAll host enrolling .empty).enrollmentInvitations, row.state = .active ∧
        (statesOf row.tokenHash (eventsOf host enrolling .empty)).getLast? = some .active := by
  obtain ⟨-, hlast, haccept⟩ := enrollments_follow_their_life (run_execAll enrolling_built .empty)
  obtain ⟨row, hrow, -, -, hactive, -, -, hcase⟩ :=
    haccept bob "token" "bob@example.test" 2 _ _ rfl
  rcases hcase with ⟨-, hnone⟩ | ⟨k, m, -, ho, hm, -⟩
  · cases hnone
  · obtain rfl := Option.some.inj ho
    exact ⟨_, _, rfl, hm, row, hrow, hactive, hactive ▸ hlast row hrow⟩

end Sproyt
