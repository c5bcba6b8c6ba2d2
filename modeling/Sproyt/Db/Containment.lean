import Sproyt.Db.Access

/-!
# Access containment

`join_channel` and `add_channel_member` check that somebody is in the circle in one statement
and insert the membership in another. When `leave_circle` commits in between, the insert
leaves a member of the channel who is not in its circle. Without that, whatever the
interleaving, members of a circle's channels are members of the circle.
-/

namespace Sproyt

open List Pending Option

section

variable {ch : Channel} {w : World} {actor : UserId}

variable {host : Host} {db db' : Db} {p q : Pending} {c : ChannelId} {k : CircleId} {u : UserId}
  {before after : List Pending}

namespace Pending

def pins : Pending → ChannelId → CircleId → Prop
  | insertChatInvitation row, c, k => row.target = .channel k c
  | acceptChatInvitation _ _ target _ _, c, k => target = .channel k c
  | _, _, _ => False

theorem creates_of_starting (h : p.starting = true) : p.creates = p.newChannel := by
  cases p <;> first | rfl | cases h

theorem not_pins_of_starting (h : p.starting = true) : ¬ p.pins c k := by
  cases p <;> first | exact fun h => h | cases h

end Pending

/-- The condition: nobody leaves a circle between the check and the insert of a statement
that makes them a member of one of its channels. -/
def LeavesUndisturbed (w : World) : Label → Prop
  | .resume (.leaveCircle actor k) =>
    ∀ c, w.db.channelOfCircle k c = true → .insertMember c actor ∉ w.pending
  | _ => True

/-- What holds of the database and the calls in flight, with the circles of the channels that
invitations were ever made for. -/
structure Safe (pinned : ChannelId → CircleId → Prop) (w : World) : Prop where
  sound : Sound ⟨none, (w.db.hasChannel · = true), pinned,
    fun c u => .insertMember c u ∈ w.pending, fun _ h => by cases h⟩ w.db
  issued : ∀ c, w.db.hasChannel c = true → c ∈ w.issued
  fresh : ∀ p ∈ w.pending, ∀ c, p.creates = some c → c ∈ w.issued ∧ w.db.hasChannel c = false ∧
    (∀ k, ¬ pinned c k) ∧ ∀ u, .insertMember c u ∉ w.pending
  distinct : (w.pending.filterMap (·.creates)).Nodup
  known : ∀ c k, pinned c k → c ∈ w.issued
  seats : ∀ c u, .insertMember c u ∈ w.pending → c ∈ w.issued
  pins : ∀ p ∈ w.pending, ∀ c k, p.pins c k → pinned c k
  direct : ∀ ch a o, .createDirect ch a o ∈ w.pending → ch.circleId = none

variable {pinned : ChannelId → CircleId → Prop} {issued : List ChannelId}

theorem hasChannel_of_mem (h : ch ∈ db.channels) : db.hasChannel ch.id = true :=
  any_eq_true.2 ⟨ch, h, by simp⟩

theorem creates_ne (h : ((before ++ p :: after).filterMap (·.creates)).Nodup)
    (hp : p.creates = some c) : ∀ p' ∈ before ++ after, p'.creates ≠ some c := by
  intro p' hp' heq
  rw [filterMap_append, filterMap_cons_some hp] at h
  have hnot := (nodup_middle.1 h).notMem
  rw [← filterMap_append] at hnot
  exact hnot (mem_filterMap.2 ⟨p', hp', heq⟩)

def Safe.reliance {w : World} (h : Safe pinned w) (hp : p ∈ w.pending) : Reliance where
  created := p.creates
  old := (w.db.hasChannel · = true)
  pinned := pinned
  seated := fun c u => .insertMember c u ∈ w.pending
  apart := fun c hc => (h.fresh p hp c hc).2.2

theorem Safe.sound_reliance (h : Safe pinned w) (hp : p ∈ w.pending) : Sound (h.reliance hp) w.db :=
  ⟨h.sound.contained, h.sound.placed, h.sound.unique,
    fun _ hch => .inl (hasChannel_of_mem hch), h.sound.invited, h.sound.pinned, h.sound.seated⟩

/-- One statement or transaction keeps the members of channels inside the circles. -/
theorem exec_sound (host : Host) (h : Safe pinned w) (hp : p ∈ w.pending)
    (hallowed : LeavesUndisturbed w (.resume p)) : Sound (h.reliance hp) (p.exec host w.db).2 := by
  have hs := h.sound_reliance hp
  obtain ⟨d, heffect, hd⟩ := exec_does host p w.db
  suffices hd' : Sound (h.reliance hp) d from hd'.of_access (by rw [hd]; rfl)
  cases heffect with
  | stay => exact hs
  | opened ch rows hcreates hfree hrows => exact hs.opened hcreates hfree hrows
  | paired ch actor other hfree =>
    have hnone := h.direct _ _ _ hp
    refine (hs.opened rfl hfree (seats_self.append (n := [⟨ch.id, actor, .member, 0⟩,
      ⟨ch.id, other, .member, 0⟩]) fun r hr => ?_)).of_access rfl
    simp only [mem_cons, not_mem_nil, or_false] at hr
    rcases hr with rfl | rfl <;> exact ⟨rfl, rfl, fun k hk => by rw [hnone] at hk; cases hk⟩
  | takenBack ch hcreates hfree => exact removeChannels_sound (hs.withChannel hcreates hfree) _
  | seated c u hc =>
    refine hs.seats fun r hr => (mem_append.1 hr).imp (fun hr => ⟨r, hr, rfl⟩) fun hr => ?_
    rw [mem_singleton.1 hr]
    exact ⟨hc, h.sound.seated c u hp⟩
  | unseated => exact hs.seats fun r hr => .inl ⟨r, (mem_filter.1 hr).1, rfl⟩
  | left actor k => exact hs.left hallowed
  | dissolved _ k => exact removeCircle_sound hs k
  | rolled _ _ _ _ _ hrows => exact (hs.joined hrows).of_access rfl
  | invited row => exact hs.invite fun k c htarget => h.pins _ hp c k htarget
  | accepted actor token target id now added rows seats haccepts =>
    exact hs.accepted haccepts rfl (h.fresh _ hp id rfl).2.1 fun k c htarget =>
      h.pins _ hp c k htarget
  | appended command env m happ => exact hs.of_access (by rw [happ.rest]; rfl)

/-- How a call goes on: with the channel it may create, invitations that are right about the
circle, and people who were just found to be in the circle. -/
structure GoesOn (db : Db) (p q : Pending) (db' : Db) : Prop where
  creates : ∀ c, q.creates = some c → p.creates = some c ∧ db' = db
  pins : ∀ c k, q.pins c k → db' = db ∧ ((∃ ch ∈ db.channels, ch.id = c ∧ ch.circleId = some k) ∨
    ∃ r ∈ db.chatInvitations, r.target = .channel k c)
  seats : ∀ c u, q = .insertMember c u → db' = db ∧
    ∃ ch ∈ db.channels, ch.id = c ∧ ∀ k, ch.circleId = some k → db.inCircle k u = true
  direct : ∀ ch a o, q = .createDirect ch a o → ch.circleId = none

theorem GoesOn.plain (hcreates : q.creates = none) (hpins : ∀ c k, ¬ q.pins c k)
    (hseats : ∀ c u, q ≠ .insertMember c u) : GoesOn db p q db' := by
  refine ⟨?_, fun c k h => absurd h (hpins c k), fun c u h => absurd h (hseats c u), ?_⟩
  · intro c h
    rw [hcreates] at h
    cases h
  · rintro ch a o rfl
    cases hcreates

theorem check_next {allowed : Except RepositoryError Pending}
    (h : check allowed db = (.next q, db')) : allowed = .ok q ∧ db' = db := by
  cases allowed with
  | error e => cases h
  | ok p =>
    cases h
    exact ⟨rfl, rfl⟩

theorem allow_ok {b : Bool} {e : RepositoryError} (h : allow b e p = .ok q) : b = true ∧ p = q := by
  unfold allow at h
  cases b with
  | false => cases h
  | true =>
    cases h
    exact ⟨rfl, rfl⟩

theorem proceed_next {t : Sql Unit} (h : proceed t p db = (.next q, db')) : p = q := by
  unfold proceed at h
  cases hr : t.run db with
  | error e =>
    rw [hr] at h
    cases h
  | ok r =>
    rw [hr] at h
    cases h
    rfl

theorem lookupDirectChannel_inr {other : UserId} {id : ChannelId} {slug : Uuid}
    (h : lookupDirectChannel actor other id slug db = .ok (.inr ch)) :
    ch.id = id ∧ ch.circleId = none := by
  unfold lookupDirectChannel at h
  split at h
  · cases h
  · split at h
    · split at h <;> cases h
    · cases hn : directName db actor other with
      | error e => simp [hn, Except.map] at h
      | ok name =>
        simp only [hn, Except.map, Except.ok.injEq, Sum.inr.injEq] at h
        rw [← h]
        exact ⟨rfl, rfl⟩

theorem previewInvitation_ok {token : String} {now : Time}
    {target : InvitationTarget} (h : previewInvitation host actor token now db = .ok target) :
    ∃ r ∈ db.chatInvitations, r.target = target := by
  unfold previewInvitation at h
  cases hr : db.chatInvitation? (host.hashToken token) now with
  | none => simp [hr] at h
  | some r =>
    simp only [hr] at h
    split at h
    · cases h
    · cases h
      exact ⟨r, mem_of_find?_eq_some hr, rfl⟩

theorem mayInvite_channel (h : db.mayInvite actor (.channel k c) = true) :
    ∃ ch ∈ db.channels, ch.id = c ∧ ch.circleId = some k := by
  simp only [Db.mayInvite, Bool.and_eq_true] at h
  obtain ⟨ch, hch, hmatch⟩ := any_eq_true.1 h.1
  exact ⟨ch, hch, of_decide_eq_true hmatch⟩

theorem mayJoin_admits (h : db.mayJoin c u = true) :
    ∃ ch ∈ db.channels, ch.id = c ∧ ∀ k, ch.circleId = some k → db.inCircle k u = true := by
  obtain ⟨ch, hch, hmatch⟩ := any_eq_true.1 h
  obtain ⟨hid, -, hcircle⟩ := of_decide_eq_true hmatch
  refine ⟨ch, hch, hid, fun k hk => ?_⟩
  rw [hk] at hcircle
  exact hcircle

theorem mayAdd_admits (h : db.mayAdd actor c u = true) :
    ∃ ch ∈ db.channels, ch.id = c ∧ ∀ k, ch.circleId = some k → db.inCircle k u = true := by
  obtain ⟨ch, hch, hmatch⟩ := any_eq_true.1 h
  obtain ⟨hid, -, haddable⟩ := of_decide_eq_true hmatch
  refine ⟨ch, hch, hid, fun k hk => ?_⟩
  rw [Db.addable, hk] at haddable
  exact haddable

theorem exec_next (h : p.exec host db = (.next q, db')) : GoesOn db p q db' := by
  cases p with
  | openDirect actor other id slug =>
    simp only [exec] at h
    split at h
    · cases h
    · cases h
    · next ch hlookup =>
      obtain ⟨hid, hnone⟩ := lookupDirectChannel_inr hlookup
      cases h
      refine ⟨fun c hc => ⟨?_, rfl⟩, fun c k hpin => hpin.elim, ?_, ?_⟩
      · rw [← hc]
        exact congrArg some hid.symm
      · rintro c u ⟨⟩
      · rintro ch' a o ⟨⟩
        exact hnone
  | inviteToCircle | prepareEnrollment | existsJoin =>
    obtain ⟨hq, -⟩ := check_next h
    obtain ⟨-, rfl⟩ := allow_ok hq
    exact .plain rfl (fun _ _ h => h) (by rintro _ _ ⟨⟩)
  | inviteToChat actor target id token now =>
    obtain ⟨hq, rfl⟩ := check_next h
    obtain ⟨hmay, rfl⟩ := allow_ok hq
    refine ⟨by rintro _ ⟨⟩, ?_, by rintro _ _ ⟨⟩, by rintro _ _ _ ⟨⟩⟩
    intro c k hpin
    have htarget : target = .channel k c := hpin
    rw [htarget] at hmay
    exact ⟨rfl, .inl (mayInvite_channel hmay)⟩
  | previewChatInvitation actor token id seen now =>
    obtain ⟨hq, rfl⟩ := check_next h
    cases hpreview : previewInvitation host actor token seen db' with
    | error e => simp [hpreview, Except.map] at hq
    | ok target =>
      simp only [hpreview, Except.map, Except.ok.injEq] at hq
      subst hq
      refine ⟨fun c hc => ⟨hc, rfl⟩, ?_, by rintro _ _ ⟨⟩, by rintro _ _ _ ⟨⟩⟩
      intro c k hpin
      obtain ⟨r, hr, htarget⟩ := previewInvitation_ok hpreview
      exact ⟨rfl, .inr ⟨r, hr, htarget.trans hpin⟩⟩
  | resolveJoin actor ref =>
    simp only [exec] at h
    split at h
    · cases h
      exact .plain rfl (fun _ _ h => h) (by rintro _ _ ⟨⟩)
    · cases h
  | checkJoin actor c =>
    obtain ⟨hq, rfl⟩ := check_next h
    obtain ⟨hmay, rfl⟩ := allow_ok hq
    refine ⟨by rintro _ ⟨⟩, fun c k hpin => hpin.elim, ?_, by rintro _ _ _ ⟨⟩⟩
    rintro c' u ⟨⟩
    exact ⟨rfl, mayJoin_admits hmay⟩
  | checkAdd actor c u =>
    obtain ⟨hq, rfl⟩ := check_next h
    obtain ⟨hmay, rfl⟩ := allow_ok hq
    refine ⟨by rintro _ ⟨⟩, fun c k hpin => hpin.elim, ?_, by rintro _ _ _ ⟨⟩⟩
    rintro c' u' ⟨⟩
    exact ⟨rfl, mayAdd_admits hmay⟩
  | insertMember | deleteLeave =>
    obtain rfl := proceed_next h
    exact .plain rfl (fun _ _ h => h) (by rintro _ _ ⟨⟩)
  | readLeave actor c =>
    obtain ⟨hq, -⟩ := check_next h
    cases hleave : leaveAllowed actor c db with
    | error e => simp [hleave, Except.map] at hq
    | ok x =>
      simp only [hleave, Except.map, Except.ok.injEq] at hq
      subst hq
      exact .plain rfl (fun _ _ h => h) (by rintro _ _ ⟨⟩)
  | _ => cases h

theorem Safe.pinned_or (h : Safe pinned w) (hgo : GoesOn w.db p q db') (hpin : q.pins c k) :
    pinned c k ∨ db' = w.db ∧ ∃ ch ∈ w.db.channels, ch.id = c ∧ ch.circleId = some k := by
  obtain ⟨hdb, hch | ⟨r, hr, htarget⟩⟩ := hgo.pins c k hpin
  · exact .inr ⟨hdb, hch⟩
  · exact .inl (h.sound.invited r hr k c htarget)

theorem admitted_of_channel (hunique : (db.channels.map (·.id)).Nodup)
    (hch : ch ∈ db.channels) (hid : ch.id = c)
    (hin : ∀ k, ch.circleId = some k → db.inCircle k u = true) : Admitted c u db := by
  intro ch' hch' hid' k hk
  rw [Table.eq_of_key_eq hunique hch' hch (hid'.trans hid.symm)] at hk
  exact hin k hk

/-! ### The calls in flight after a step of `p`, which goes on with `q` or is over -/

section

variable {rest : Option Pending} (h : Safe pinned ⟨db, before ++ p :: after, issued⟩)
  (hsound : Sound (h.reliance mem_append_cons_self) db')
  (hgo : ∀ q ∈ rest, GoesOn db p q db')

theorem mem_old_or_rest (hq : q ∈ before ++ rest.toList ++ after) :
    q ∈ before ++ after ∨ q ∈ rest := by
  simp only [mem_append, mem_toList] at hq ⊢
  tauto

include hsound in
/-- The only channel a call brings is the one with its new id. -/
theorem Safe.hasChannel_step (hc : db'.hasChannel c = true) :
    db.hasChannel c = true ∨ p.creates = some c := by
  obtain ⟨ch, hch, hid⟩ := any_eq_true.1 hc
  have hid : ch.id = c := of_decide_eq_true hid
  rw [← hid]
  exact hsound.ids ch hch

include h hgo in
theorem Safe.pinned_step (hpin : ∃ q ∈ rest, q.pins c k) :
    pinned c k ∨ db' = db ∧ ∃ ch ∈ db.channels, ch.id = c ∧ ch.circleId = some k := by
  obtain ⟨q, hq, hpin⟩ := hpin
  exact h.pinned_or (hgo q hq) hpin

include hgo in
theorem seat_step (hmem : .insertMember c u ∈ before ++ rest.toList ++ after) :
    .insertMember c u ∈ before ++ p :: after ∨ db' = db ∧ ∃ ch ∈ db.channels, ch.id = c ∧
      ∀ k, ch.circleId = some k → db.inCircle k u = true := by
  rcases mem_old_or_rest hmem with hmem | hmem
  · exact .inl (mem_middle_of_mem hmem)
  · exact .inr ((hgo _ hmem).seats c u rfl)

include hsound hgo in
/-- A channel still to be created was to be created before, and is not there yet. -/
theorem Safe.creates_step (hq : q ∈ before ++ rest.toList ++ after) (hc : q.creates = some c) :
    db'.hasChannel c = false ∧ ∃ p₀ ∈ before ++ p :: after, p₀.creates = some c := by
  rcases mem_old_or_rest hq with hmem | hmem
  · refine ⟨?_, q, mem_middle_of_mem hmem, hc⟩
    rw [Bool.eq_false_iff]
    intro hhas
    rcases h.hasChannel_step hsound hhas with hhas | hcreates
    · rw [(h.fresh q (mem_middle_of_mem hmem) c hc).2.1] at hhas
      cases hhas
    · exact creates_ne h.distinct hcreates q hmem hc
  · obtain ⟨hcreates, rfl⟩ := (hgo q hmem).creates c hc
    have hp : p ∈ before ++ p :: after := mem_append_cons_self
    exact ⟨(h.fresh p hp c hcreates).2.1, p, hp, hcreates⟩

include hsound hgo in
theorem Safe.fresh_step (hq : q ∈ before ++ rest.toList ++ after) (hc : q.creates = some c) :
    c ∈ issued ∧ db'.hasChannel c = false ∧ (∀ k, ¬ (pinned c k ∨ ∃ q ∈ rest, q.pins c k)) ∧
      ∀ u, .insertMember c u ∉ before ++ rest.toList ++ after := by
  obtain ⟨hnone, p₀, hp₀, hc₀⟩ := h.creates_step hsound hgo hq hc
  obtain ⟨hissued, habsent, hunpinned, hunseated⟩ := h.fresh p₀ hp₀ c hc₀
  have hno : ¬ ∃ ch ∈ db.channels, ch.id = c := by
    rintro ⟨ch, hch, rfl⟩
    rw [hasChannel_of_mem hch] at habsent
    cases habsent
  refine ⟨hissued, hnone, ?_, ?_⟩
  · rintro k (hpin | hpin)
    · exact hunpinned k hpin
    · rcases h.pinned_step hgo hpin with hpin | ⟨-, ch, hch, hid, -⟩
      · exact hunpinned k hpin
      · exact hno ⟨ch, hch, hid⟩
  · intro u hmem
    rcases seat_step hgo hmem with hmem | ⟨-, ch, hch, hid, -⟩
    · exact hunseated u hmem
    · exact hno ⟨ch, hch, hid⟩

include h hgo in
theorem Safe.distinct_step : ((before ++ rest.toList ++ after).filterMap (·.creates)).Nodup := by
  have hsub : (rest.toList.filterMap (·.creates)).Sublist ([p].filterMap (·.creates)) := by
    cases rest with
    | none => exact nil_sublist _
    | some q =>
      cases hq : q.creates with
      | none => simp [hq]
      | some c => simp [hq, ((hgo q rfl).creates c hq).1]
  have hsplit : before ++ p :: after = before ++ [p] ++ after := by simp
  have hdistinct := h.distinct
  rw [hsplit] at hdistinct
  refine hdistinct.sublist ?_
  simp only [filterMap_append]
  exact ((List.Sublist.refl _).append hsub).append (List.Sublist.refl _)

include hsound hgo in
theorem Safe.sound_step :
    Sound ⟨none, (db'.hasChannel · = true), fun c k => pinned c k ∨ ∃ q ∈ rest, q.pins c k,
      fun c u => .insertMember c u ∈ before ++ rest.toList ++ after,
        fun _ h => by cases h⟩ db' := by
  refine ⟨hsound.contained, hsound.placed, hsound.unique,
    fun _ hch => .inl (hasChannel_of_mem hch), fun r hr k c ht => .inl (hsound.invited r hr k c ht),
    ?_, ?_⟩
  · intro c k hpin ch hch hid
    rcases hpin with hpin | hpin
    · exact hsound.pinned c k hpin ch hch hid
    · rcases h.pinned_step hgo hpin with hpin | ⟨rfl, ch', hch', hid', hk⟩
      · exact hsound.pinned c k hpin ch hch hid
      · rw [Table.eq_of_key_eq hsound.unique hch hch' (hid.trans hid'.symm)]
        exact hk
  · intro c u hmem
    rcases seat_step hgo hmem with hmem | ⟨rfl, ch, hch, hid, hin⟩
    · exact hsound.seated c u hmem
    · exact admitted_of_channel hsound.unique hch hid hin

include hsound hgo in
theorem Safe.step :
    Safe (fun c k => pinned c k ∨ ∃ q ∈ rest, q.pins c k)
      ⟨db', before ++ rest.toList ++ after, issued⟩ := by
  refine ⟨h.sound_step hsound hgo, ?_, fun q hq c hc => h.fresh_step hsound hgo hq hc,
    h.distinct_step hgo, ?_, ?_, ?_, ?_⟩
  · intro c hc
    rcases h.hasChannel_step hsound hc with hc | hc
    · exact h.issued c hc
    · exact (h.fresh p mem_append_cons_self c hc).1
  · rintro c k (hpin | hpin)
    · exact h.known c k hpin
    · rcases h.pinned_step hgo hpin with hpin | ⟨-, ch, hch, rfl, -⟩
      · exact h.known c k hpin
      · exact h.issued _ (hasChannel_of_mem hch)
  · intro c u hmem
    rcases seat_step hgo hmem with hmem | ⟨-, ch, hch, rfl, -⟩
    · exact h.seats c u hmem
    · exact h.issued _ (hasChannel_of_mem hch)
  · intro q hq c k hpin
    rcases mem_old_or_rest hq with hmem | hmem
    · exact .inl (h.pins q (mem_middle_of_mem hmem) c k hpin)
    · exact .inr ⟨q, hmem, hpin⟩
  · intro ch a o hmem
    rcases mem_old_or_rest hmem with hmem | hmem
    · exact h.direct ch a o (mem_middle_of_mem hmem)
    · exact (hgo _ hmem).direct ch a o rfl

end

theorem Safe.call (h : Safe pinned w) (hp : p.starting = true)
    (hnew : ∀ c, p.newChannel = some c → c ∉ w.issued) :
    Safe pinned ⟨w.db, p :: w.pending, p.newChannel.toList ++ w.issued⟩ := by
  rw [← creates_of_starting hp] at hnew ⊢
  have hseat : ∀ c u, .insertMember c u ∈ p :: w.pending → .insertMember c u ∈ w.pending := by
    intro c u hmem
    rcases mem_cons.1 hmem with rfl | hmem
    · cases hp
    · exact hmem
  have hused : ∀ c, c ∈ w.issued → c ∈ p.creates.toList ++ w.issued :=
    fun c hc => mem_append.2 (.inr hc)
  refine ⟨⟨h.sound.contained, h.sound.placed, h.sound.unique, h.sound.ids, h.sound.invited,
    h.sound.pinned, fun c u hmem => h.sound.seated c u (hseat c u hmem)⟩,
    fun c hc => hused c (h.issued c hc), ?_, ?_, fun c k hpin => hused c (h.known c k hpin),
    fun c u hmem => hused c (h.seats c u (hseat c u hmem)), ?_, ?_⟩
  · intro p' hp' c hc
    rcases mem_cons.1 hp' with rfl | hp'
    · have hunused := hnew c hc
      refine ⟨mem_append.2 (.inl (mem_toList.2 hc)), ?_, ?_, ?_⟩
      · rw [Bool.eq_false_iff]
        exact fun hhas => hunused (h.issued c hhas)
      · exact fun k hpin => hunused (h.known c k hpin)
      · exact fun u hmem => hunused (h.seats c u (hseat c u hmem))
    · obtain ⟨hissued, hrest, hunpinned, hunseated⟩ := h.fresh p' hp' c hc
      exact ⟨hused c hissued, hrest, hunpinned, fun u hmem => hunseated u (hseat c u hmem)⟩
  · cases hc : p.creates with
    | none => simpa [hc] using h.distinct
    | some c =>
      simp only [filterMap_cons, hc, nodup_cons]
      refine ⟨fun hmem => ?_, h.distinct⟩
      obtain ⟨p', hp', hc'⟩ := mem_filterMap.1 hmem
      exact hnew c hc (h.fresh p' hp' c hc').1
  · intro p' hp' c k hpin
    rcases mem_cons.1 hp' with rfl | hp'
    · exact absurd hpin (not_pins_of_starting hp)
    · exact h.pins p' hp' c k hpin
  · intro ch a o hmem
    rcases mem_cons.1 hmem with rfl | hmem
    · cases hp
    · exact h.direct ch a o hmem

theorem step_safe {w' : World} {l : Label} (h : Safe pinned w)
    (hstep : Guarded LeavesUndisturbed (Step host) w l w') : ∃ pinned', Safe pinned' w' := by
  obtain ⟨hallowed, hstep⟩ := hstep
  cases hstep with
  | call hp hnew => exact ⟨_, h.call hp hnew⟩
  | @next db db' _ _ p q _ hexec =>
    have hsound := exec_sound host h mem_append_cons_self hallowed
    rw [hexec] at hsound
    have hgo : ∀ q' ∈ some q, GoesOn db p q' db' := by
      rintro q' ⟨⟩
      exact exec_next hexec
    have hsafe := h.step hsound hgo
    rw [toList_some, append_assoc] at hsafe
    exact ⟨_, hsafe⟩
  | done hexec =>
    have hsound := exec_sound host h mem_append_cons_self hallowed
    rw [hexec] at hsound
    have hsafe := h.step hsound fun _ hq => absurd hq (not_mem_none _)
    rw [toList_none, append_nil] at hsafe
    exact ⟨_, hsafe⟩
  | abort =>
    have hsafe := h.step (h.sound_reliance mem_append_cons_self) fun _ hq =>
      absurd hq (not_mem_none _)
    rw [toList_none, append_nil] at hsafe
    exact ⟨_, hsafe⟩

theorem Safe.init (hcontained : Contained db)
    (hplaced : ∀ r ∈ db.channelMemberships, db.hasChannel r.channelId = true)
    (hunique : (db.channels.map (·.id)).Nodup)
    (hinvited : ∀ r ∈ db.chatInvitations, ∀ k c, r.target = .channel k c →
      c ∈ issued ∧ ∀ ch ∈ db.channels, ch.id = c → ch.circleId = some k)
    (hissued : ∀ ch ∈ db.channels, ch.id ∈ issued) :
    Safe (fun c k => ∃ r ∈ db.chatInvitations, r.target = .channel k c) ⟨db, [], issued⟩ := by
  refine ⟨⟨hcontained, hplaced, hunique, fun _ hch => .inl (hasChannel_of_mem hch),
    fun r hr k c ht => ⟨r, hr, ht⟩, ?_, fun _ _ h => absurd h not_mem_nil⟩, ?_,
    fun _ h => absurd h not_mem_nil, nodup_nil, ?_,
    fun _ _ h => absurd h not_mem_nil, fun _ h => absurd h not_mem_nil,
    fun _ _ _ h => absurd h not_mem_nil⟩
  · rintro c k ⟨r, hr, ht⟩
    exact (hinvited r hr k c ht).2
  · intro c hc
    obtain ⟨ch, hch, hid⟩ := any_eq_true.1 hc
    have hid : ch.id = c := of_decide_eq_true hid
    exact hid ▸ hissued ch hch
  · rintro c k ⟨r, hr, ht⟩
    exact (hinvited r hr k c ht).1

/-- Unless somebody leaves a circle between the check and the insert that makes them a member
of one of its channels, the human members of a circle's channels stay members of the circle. -/
theorem members_are_in_the_circle {w : World} {trace : List Label}
    (hrun : Run (Guarded LeavesUndisturbed (Step host)) ⟨db, [], issued⟩ trace w)
    (hcontained : Contained db)
    (hplaced : ∀ r ∈ db.channelMemberships, db.hasChannel r.channelId = true)
    (hunique : (db.channels.map (·.id)).Nodup)
    (hinvited : ∀ r ∈ db.chatInvitations, ∀ k c, r.target = .channel k c →
      c ∈ issued ∧ ∀ ch ∈ db.channels, ch.id = c → ch.circleId = some k)
    (hissued : ∀ ch ∈ db.channels, ch.id ∈ issued) : Contained w.db := by
  have hinit : ∃ pinned, Safe pinned ⟨db, [], issued⟩ :=
    ⟨_, .init hcontained hplaced hunique hinvited hissued⟩
  obtain ⟨_, hsafe⟩ := hrun.invariant (P := fun w => ∃ pinned, Safe pinned w)
    (fun _ _ _ ⟨_, h⟩ hstep => step_safe h hstep) hinit
  exact hsafe.sound.contained

end

/-! ### Adding somebody who leaves -/

namespace Sample

def bobInCircle : Db :=
  { chat with circleMemberships := chat.circleMemberships ++ [⟨circle, bob, .member, 0⟩] }

def addBob : Pending := .checkAdd alice room bob

def insertBob : Pending := .insertMember room bob

def loadBob : Pending := .loadMember room bob

def leaveBob : Pending := .leaveCircle bob circle

def stepped (p : Pending) (db : Db) : Db := (p.exec host db).2

theorem bobInCircle_contained : Contained bobInCircle := by
  intro r hr _ ch hch _ k hk
  simp only [bobInCircle, chat, mem_singleton] at hr hch
  subst hr hch
  cases hk
  rfl

end Sample

open Sample in
/-- Bob is added, and leaves after that. -/
theorem members_are_in_the_circle_after_leaving :
    (stepped insertBob bobInCircle).inChannel room bob = true ∧
      Contained (stepped leaveBob (stepped loadBob (stepped insertBob bobInCircle))) := by
  refine ⟨rfl, ?_⟩
  have hrun : Run (Guarded LeavesUndisturbed (Step host)) ⟨bobInCircle, [], [room]⟩
      [.call addBob, .resume addBob, .resume insertBob, .resume loadBob, .call leaveBob,
        .resume leaveBob]
      ⟨stepped leaveBob (stepped loadBob (stepped insertBob bobInCircle)), [], [room]⟩ := by
    refine .cons ⟨trivial, .call rfl nofun⟩ ?_
    refine .cons ⟨trivial, @Step.next _ _ bobInCircle [] [] addBob insertBob _ rfl⟩ ?_
    refine .cons ⟨trivial, @Step.next _ _ (stepped insertBob bobInCircle) [] [] insertBob loadBob _
      rfl⟩ ?_
    refine .cons ⟨trivial, @Step.done _ _ _ [] [] loadBob _ _ rfl⟩ ?_
    refine .cons ⟨trivial, .call rfl nofun⟩ ?_
    refine .single ⟨?_, @Step.done _ _ _ [] [] leaveBob _ _ rfl⟩
    intro c _ hmem
    simp [leaveBob] at hmem
  refine members_are_in_the_circle hrun bobInCircle_contained ?_ (by decide) nofun ?_
  · intro r hr
    simp only [bobInCircle, chat, mem_singleton] at hr
    subst hr
    rfl
  · intro ch hch
    simp only [bobInCircle, chat, mem_singleton] at hch
    subst hch
    exact mem_singleton_self _

open Sample in
/-- Bob leaves after the check that they are in the circle and before the insert. -/
theorem added_after_leaving :
    ∃ trace w, Run (Step host) ⟨bobInCircle, [], [room]⟩ trace w ∧ Contained bobInCircle ∧
      w.pending = [] ∧ w.db.isHuman bob = true ∧ w.db.inChannel room bob = true ∧
      w.db.channelOfCircle circle room = true ∧ w.db.inCircle circle bob = false ∧
      ¬ Contained w.db := by
  refine ⟨[.call addBob, .resume addBob, .call leaveBob, .resume leaveBob, .resume insertBob,
    .resume loadBob], ⟨stepped loadBob (stepped insertBob (stepped leaveBob bobInCircle)), [],
      [room]⟩,
    ?_, bobInCircle_contained, rfl, rfl, rfl, rfl, rfl, ?_⟩
  · refine .cons (.call rfl nofun) ?_
    refine .cons (@Step.next _ _ bobInCircle [] [] addBob insertBob _ rfl) ?_
    refine .cons (.call rfl nofun) ?_
    refine .cons (@Step.done _ _ _ [] [insertBob] leaveBob _ _ rfl) ?_
    refine .cons (@Step.next _ _ _ [] [] insertBob loadBob _ rfl) ?_
    exact .single (@Step.done _ _ _ [] [] loadBob _ _ rfl)
  · intro h
    have hin := h ⟨room, bob, .member, 0⟩ (.tail _ (.head _)) rfl
      ⟨room, "familie-rom", roomName, .localChannel, some circle, alice⟩ (.head _)
      rfl circle rfl
    exact absurd hin (by decide)

end Sproyt
