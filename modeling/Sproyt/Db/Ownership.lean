import Sproyt.Db.Rolls

/-!
# Who owns a circle

Whatever order circles are founded and dissolved in and people are appointed, leave and accept
invitations, every circle has one owner, and nobody loses a role by accepting an invitation.
-/

namespace Sproyt

open List Db

section

variable {joinedAt : Time} {role : CircleRole}

variable {host : Host} {db db' : Db} {k : CircleId} {u : UserId} {e : RollEvent}

def Db.owners (db : Db) (k : CircleId) : List CircleMembershipRow :=
  db.circleMemberships.filter fun r => r.circleId = k ∧ r.role = .owner

/-- Every circle has one owner, and members are in circles that exist, once each. -/
structure Owned (db : Db) : Prop where
  owned : ∀ k, db.hasCircle k = true → ∃ r, db.owners k = [r]
  placed : ∀ r ∈ db.circleMemberships, db.hasCircle r.circleId = true
  keys : (db.circleMemberships.map (·.key)).Nodup

theorem hasCircle_congr (h : db'.circles = db.circles) : db'.hasCircle k = db.hasCircle k := by
  rw [hasCircle, h, hasCircle]

theorem Owned.of_owners (h : Owned db) (hcircles : db'.circles = db.circles)
    (howners : ∀ k, db'.owners k = db.owners k)
    (hplaced : ∀ r ∈ db'.circleMemberships,
      (∃ r₀ ∈ db.circleMemberships, r₀.circleId = r.circleId) ∨ db.hasCircle r.circleId = true)
    (hkeys : (db'.circleMemberships.map (·.key)).Nodup) : Owned db' := by
  refine ⟨fun k hk => ?_, fun r hr => ?_, hkeys⟩
  · rw [hasCircle_congr hcircles] at hk
    rw [howners]
    exact h.owned k hk
  · rw [hasCircle_congr hcircles]
    rcases hplaced r hr with ⟨r₀, hr₀, heq⟩ | hthere
    · exact heq ▸ h.placed r₀ hr₀
    · exact hthere

theorem Owned.same (h : Owned db) (hcircles : db'.circles = db.circles)
    (hmembers : db'.circleMemberships = db.circleMemberships) : Owned db' := by
  refine h.of_owners hcircles (fun k => ?_) (fun r hr => .inl ⟨r, hmembers ▸ hr, rfl⟩) ?_
  · rw [owners, hmembers, owners]
  · rw [hmembers]
    exact h.keys

theorem key_ne_of_absent (h : db.inCircle k u = false) :
    ∀ r ∈ db.circleMemberships, r.key ≠ (k, u) := by
  intro r hr heq
  obtain ⟨hk, hu⟩ := Prod.mk.inj heq
  have hnone := any_eq_false.1 h r hr
  simp [hk, hu] at hnone

theorem Owned.joined (h : Owned db) (hcircles : db'.circles = db.circles)
    (hmembers : db'.circleMemberships = joinedRows k u joinedAt db.circleMemberships)
    (hcircle : db.inCircle k u = false → db.hasCircle k = true) : Owned db' := by
  cases hmember : db.inCircle k u with
  | true =>
    rw [joinedRows_of_member hmember] at hmembers
    exact h.same hcircles hmembers
  | false =>
    rw [joinedRows_of_absent hmember] at hmembers
    refine h.of_owners hcircles (fun k' => ?_) (fun r hr => ?_) ?_
    · rw [owners, hmembers, filter_append]
      simp [owners]
    · rw [hmembers] at hr
      rcases mem_append.1 hr with hr | hr
      · exact .inl ⟨r, hr, rfl⟩
      · rw [mem_singleton.1 hr]
        exact .inr (hcircle hmember)
    · rw [hmembers]
      exact Table.nodup_append_single h.keys (key_ne_of_absent hmember)

theorem Owned.founded (h : Owned db) {circle : CircleRow}
    (hnew : ∀ r ∈ db.circles, r.id ≠ circle.id) (hcircles : db'.circles = db.circles ++ [circle])
    (hmembers : db'.circleMemberships =
      db.circleMemberships ++ [⟨circle.id, circle.createdBy, .owner, joinedAt⟩]) : Owned db' := by
  have hhas : ∀ k, db'.hasCircle k = (db.hasCircle k || decide (circle.id = k)) := by
    intro k
    rw [hasCircle, hcircles, any_append]
    simp [hasCircle]
  -- nobody was in the circle before it was founded
  have hnobody : ∀ r ∈ db.circleMemberships, r.circleId ≠ circle.id := by
    intro r hr heq
    obtain ⟨c, hc, hid⟩ := any_eq_true.1 (h.placed r hr)
    exact hnew c hc ((of_decide_eq_true hid).trans heq)
  refine ⟨fun k hk => ?_, fun r hr => ?_, ?_⟩
  · rw [owners, hmembers, filter_append]
    by_cases hid : circle.id = k
    · have hnone : db.circleMemberships.filter (fun r => r.circleId = k ∧ r.role = .owner) = [] :=
        filter_eq_nil_iff.2 fun r hr hrow =>
          hnobody r hr ((of_decide_eq_true hrow).1.trans hid.symm)
      exact ⟨⟨circle.id, circle.createdBy, .owner, joinedAt⟩, by rw [hnone]; simp [hid]⟩
    · rw [hhas, decide_eq_false hid, Bool.or_false] at hk
      obtain ⟨r, hr⟩ := h.owned k hk
      refine ⟨r, ?_⟩
      rw [← hr, owners]
      simp [hid]
  · rw [hmembers] at hr
    rw [hhas]
    rcases mem_append.1 hr with hr | hr
    · rw [h.placed r hr, Bool.true_or]
    · rw [mem_singleton.1 hr]
      simp
  · rw [hmembers]
    exact Table.nodup_append_single h.keys fun r hr heq =>
      hnobody r hr (congrArg Prod.fst heq)

theorem Owned.appointed (h : Owned db) {command : SetCircleMemberRole}
    (hrole : command.role ≠ .owner) (hcircles : db'.circles = db.circles)
    (hmembers : db'.circleMemberships = db.circleMemberships.map fun r =>
      if db.appointable command r then { r with role := command.role } else r) : Owned db' := by
  have hnot : ∀ r, db.appointable command r = true → r.role ≠ .owner := by
    intro r hrow howner
    simp [appointable, howner] at hrow
  refine h.of_owners hcircles (fun k => ?_) (fun r hr => ?_) ?_
  · -- the rows that are rewritten are no owners before and after
    rw [owners, hmembers, filter_map]
    have hkept : (fun r : CircleMembershipRow => decide (r.circleId = k ∧ r.role = .owner)) ∘
        (fun r => if db.appointable command r then { r with role := command.role } else r) =
        fun r => decide (r.circleId = k ∧ r.role = .owner) := by
      funext r
      simp only [Function.comp]
      split
      · next hrow => simp [hrole, hnot r hrow]
      · rfl
    rw [hkept]
    have hid : ∀ r ∈ db.owners k,
        (if db.appointable command r then { r with role := command.role } else r) = r := by
      intro r hr
      have howner := (of_decide_eq_true (mem_filter.1 hr).2).2
      exact if_neg fun hrow => hnot r hrow howner
    exact (map_congr_left hid).trans (map_id' _)
  · rw [hmembers] at hr
    obtain ⟨r₀, hr₀, rfl⟩ := mem_map.1 hr
    refine .inl ⟨r₀, hr₀, ?_⟩
    split <;> rfl
  · rw [hmembers, Table.map_key_map fun r => by split <;> rfl]
    exact h.keys

theorem Owned.left (h : Owned db)
    (hrole : db.circleRole? k u = some .member ∨ db.circleRole? k u = some .moderator)
    (hcircles : db'.circles = db.circles)
    (hmembers : db'.circleMemberships =
      db.circleMemberships.filter fun r => !(r.circleId = k ∧ r.userId = u)) : Owned db' := by
  refine h.of_owners hcircles (fun k' => ?_) (fun r hr => ?_) ?_
  · rw [owners, hmembers, filter_filter, owners]
    refine filter_congr fun r hr => ?_
    by_cases hrow : r.circleId = k ∧ r.userId = u
    · -- the row that is found for the key is this one, and it is no owner
      have hfound : db.circleRole? k u = some r.role := by
        rw [circleRole?, ← hrow.1, ← hrow.2, find?_membership h.keys hr, Option.map_some]
      have hnot : r.role ≠ .owner := by
        intro howner
        rw [hfound, howner] at hrole
        rcases hrole with hrole | hrole <;> cases hrole
      simp [hrow, hnot]
    · simp [hrow]
  · rw [hmembers] at hr
    exact .inl ⟨r, (mem_filter.1 hr).1, rfl⟩
  · rw [hmembers]
    exact h.keys.sublist (filter_sublist.map _)

theorem Owned.dissolved (h : Owned db) (hcircles : db'.circles = db.circles.filter (·.id ≠ k))
    (hmembers : db'.circleMemberships = db.circleMemberships.filter (·.circleId ≠ k)) :
    Owned db' := by
  have hhas : ∀ k', db'.hasCircle k' = true ↔ db.hasCircle k' = true ∧ k' ≠ k := by
    intro k'
    simp only [hasCircle, hcircles, any_eq_true, mem_filter, decide_eq_true_eq]
    constructor
    · rintro ⟨c, ⟨hc, hne⟩, rfl⟩
      exact ⟨⟨c, hc, rfl⟩, hne⟩
    · rintro ⟨⟨c, hc, rfl⟩, hne⟩
      exact ⟨c, ⟨hc, hne⟩, rfl⟩
  refine ⟨fun k' hk' => ?_, fun r hr => ?_, ?_⟩
  · obtain ⟨hold, hne⟩ := (hhas k').1 hk'
    obtain ⟨r, hr⟩ := h.owned k' hold
    refine ⟨r, ?_⟩
    rw [← hr, owners, hmembers, filter_filter, owners]
    refine filter_congr fun x _ => ?_
    by_cases hx : x.circleId = k'
    · simp [hx, hne]
    · simp [hx]
  · rw [hmembers] at hr
    obtain ⟨hr, hne⟩ := mem_filter.1 hr
    exact (hhas r.circleId).2 ⟨h.placed r hr, of_decide_eq_true hne⟩
  · rw [hmembers]
    exact h.keys.sublist (filter_sublist.map _)

/-! ### Steps and runs -/

theorem rolls_eq {circles : List CircleRow} {members : List CircleMembershipRow}
    {rest : List CircleInvitationRow × List EnrollmentInvitationRow}
    (h : db.rolls = (circles, members, rest)) :
    db.circles = circles ∧ db.circleMemberships = members :=
  ⟨congrArg Prod.fst h, congrArg (·.2.1) h⟩

theorem RollEffect.owned (h : RollEffect db e db') (hdb : Owned db) : Owned db' := by
  cases h with
  | quiet h | issued _ _ _ h | prepared _ _ _ h | activated _ _ _ _ h =>
    exact hdb.same (rolls_eq h).1 (rolls_eq h).2
  | founded circle joinedAt hnew h => exact hdb.founded hnew (rolls_eq h).1 (rolls_eq h).2
  | appointed command hrole h => exact hdb.appointed hrole (rolls_eq h).1 (rolls_eq h).2
  | left k u hrole h => exact hdb.left hrole (rolls_eq h).1 (rolls_eq h).2
  | dissolved k h => exact hdb.dissolved (rolls_eq h).1 (rolls_eq h).2
  | joined _ _ _ hcircle h | accepted _ _ _ _ _ hcircle h =>
    exact hdb.joined (rolls_eq h).1 (rolls_eq h).2 hcircle
  | consumed hash email u now rows hrow h =>
    obtain ⟨r, -, -, ⟨-, rfl⟩ | ⟨k, -, rfl, hcircle⟩⟩ := hrow
    · exact hdb.same (rolls_eq h).1 (rolls_eq h).2
    · exact hdb.joined (rolls_eq h).1 (rolls_eq h).2 hcircle

theorem owned_empty : Owned .empty :=
  ⟨fun _ hk => (by cases hk), fun _ hr => absurd hr not_mem_nil, nodup_nil⟩

theorem RollStep.owned (h : RollStep host db e db') (hdb : Owned db) : Owned db' := by
  obtain ⟨c, hbuilt⟩ := h
  exact (exec_effect hbuilt db).owned hdb

def RollCall.accepts : RollCall → Bool
  | statement (.acceptCircleInvitation ..) | statement (.acceptEnrollment ..)
  | statement (.acceptChatInvitation ..) => true
  | _ => false

theorem role_of_joined {k' : CircleId} {u' : UserId} (hrole : db.circleRole? k u = some role)
    (hmembers : db'.circleMemberships = joinedRows k' u' joinedAt db.circleMemberships) :
    db'.circleRole? k u = some role := by
  obtain ⟨r, hfound, hrow⟩ := Option.map_eq_some_iff.1 hrole
  have hsame : db'.circleMemberships.find? (fun r => r.circleId = k ∧ r.userId = u) = some r := by
    rw [hmembers, joinedRows]
    split
    · exact hfound
    · rw [find?_append, hfound]
      rfl
  rw [circleRole?, hsame, Option.map_some, hrow]

theorem role_of_same (hrole : db.circleRole? k u = some role)
    (hmembers : db'.circleMemberships = db.circleMemberships) :
    db'.circleRole? k u = some role := by
  rw [circleRole?, hmembers]
  exact hrole

theorem accept_keeps_role {c : RollCall} (hc : c.accepts = true)
    (hrole : db.circleRole? k u = some role) : (c.exec host db).circleRole? k u = some role := by
  cases c with
  | upsertUser | updateProfile | setCircleMemberRole => cases hc
  | statement p =>
    cases p with
    | acceptCircleInvitation actor token now joinedAt =>
      refine Txn.commit_snd (P := fun db' : Db => db'.circleRole? k u = some role) hrole
        fun _ db' h => ?_
      obtain ⟨row, -, -, -, -, -, -, rfl⟩ := acceptCircleInvitation_ok h
      exact role_of_joined hrole rfl
    | acceptEnrollment actor token email now =>
      refine Txn.commit_snd (P := fun db' : Db => db'.circleRole? k u = some role) hrole
        fun _ db' h => ?_
      obtain ⟨row, -, -, rows, rfl, hcase⟩ := acceptEnrollmentInvitation_ok h
      rcases hcase with ⟨-, -, hsame⟩ | ⟨k', m, -, -, hjoined, -⟩
      · exact role_of_same hrole hsame
      · exact role_of_joined hrole hjoined
    | acceptChatInvitation actor token target id now =>
      refine Txn.commit_snd (P := fun db' : Db => db'.circleRole? k u = some role) hrole
        fun _ db' h => ?_
      rcases acceptChatInvitation_ok h with hsame | ⟨k', -, hjoined⟩
      · exact role_of_same hrole (rolls_eq hsame).2
      · exact role_of_joined hrole (rolls_eq hjoined).2
    | _ => cases hc

/-- Starting from an empty database, every circle has one owner, and accepting an invitation
changes nobody's role. -/
theorem circles_have_one_owner {trace : List RollEvent} (h : Run (RollStep host) .empty trace db) :
    (∀ circle ∈ db.circles, ∃ r, db.owners circle.id = [r]) ∧
      ∀ c : RollCall, c.accepts = true → ∀ k u role, db.circleRole? k u = some role →
        (c.exec host db).circleRole? k u = some role := by
  have hdb : Owned db := h.invariant (fun _ _ _ hdb hstep => hstep.owned hdb) owned_empty
  refine ⟨fun circle hcircle => hdb.owned circle.id ?_,
    fun c hc k u role hrole => accept_keeps_role hc hrole⟩
  exact any_eq_true.2 ⟨circle, hcircle, decide_eq_true rfl⟩

end

namespace Sample

def inviting : List RollCall :=
  [.upsertUser alice .human aliceName (some "alice") (some "alice"),
    .upsertUser bob .human bobName (some "bob") (some "bob"),
    .statement (.createCircle
      ⟨alice, ⟨"familie", by decide, by decide⟩, circleName⟩ circle 0),
    .statement (.insertCircleInvitation (circleInvitation host alice circle 5 "token" 0))]

theorem inviting_built : ∀ c ∈ inviting, c.Built host := by
  intro c hc
  simp only [inviting, mem_cons, not_mem_nil, or_false] at hc
  rcases hc with rfl | rfl | rfl | rfl
  · exact ⟨"Alice", rfl⟩
  · exact ⟨"Bob", rfl⟩
  · trivial
  · exact ⟨alice, circle, 5, "token", 0, rfl⟩

end Sample

open Sample in
theorem circles_have_one_owner_after_invitation :
    (execAll host inviting .empty).circles ≠ [] ∧
      (∀ k ∈ (execAll host inviting .empty).circles,
        ∃ r, (execAll host inviting .empty).owners k.id = [r]) ∧
      ((RollCall.statement (.acceptCircleInvitation alice "token" 1 1)).exec host
        (execAll host inviting .empty)).circleRole? circle alice = some .owner := by
  obtain ⟨howned, hkept⟩ := circles_have_one_owner (run_execAll inviting_built .empty)
  exact ⟨cons_ne_nil _ _, howned, hkept _ rfl circle alice .owner rfl⟩

end Sproyt
