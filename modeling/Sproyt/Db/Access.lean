import Sproyt.Db.Effects

/-!
# Members of a circle's channels

A channel of a circle is for members of the circle. Each statement is shown to keep this, and
to keep what the calls in flight rely on: which circle the channel of an invitation belongs
to, and that somebody who was let into a channel is in its circle.
-/

namespace Sproyt

variable {ch : Channel} {actor : UserId}

open List Txn

variable {db db' : Db} {c : ChannelId} {k : CircleId} {u : UserId}

/-- This user is in the circle of the channel, if the channel has one. -/
def Admitted (c : ChannelId) (u : UserId) (db : Db) : Prop :=
  ∀ ch ∈ db.channels, ch.id = c → ∀ k, ch.circleId = some k → db.inCircle k u = true

/-- Every human member of a circle's channel is a member of the circle. -/
def Contained (db : Db) : Prop :=
  ∀ r ∈ db.channelMemberships, db.isHuman r.userId = true → Admitted r.channelId r.userId db

/-- What is relied on while a call takes a step: the id of the channel the call may create,
the channels there were before, the circles of channels that invitations name, and who was
let into a channel but is not a member yet. -/
structure Reliance where
  created : Option ChannelId
  old : ChannelId → Prop
  pinned : ChannelId → CircleId → Prop
  seated : ChannelId → UserId → Prop
  apart : ∀ c, created = some c → (∀ k, ¬ pinned c k) ∧ ∀ u, ¬ seated c u

variable {g : Reliance}

structure Sound (g : Reliance) (db : Db) : Prop where
  contained : Contained db
  placed : ∀ r ∈ db.channelMemberships, db.hasChannel r.channelId = true
  unique : (db.channels.map (·.id)).Nodup
  ids : ∀ ch ∈ db.channels, g.old ch.id ∨ g.created = some ch.id
  invited : ∀ r ∈ db.chatInvitations, ∀ k c, r.target = .channel k c → g.pinned c k
  pinned : ∀ c k, g.pinned c k → ∀ ch ∈ db.channels, ch.id = c → ch.circleId = some k
  seated : ∀ c u, g.seated c u → Admitted c u db

theorem isHuman_congr (h : db'.users = db.users) : db'.isHuman u = db.isHuman u := by
  rw [Db.isHuman, h, Db.isHuman]

/-- A step that brings no channel keeps the invariant when it brings members who are in the
circle, and takes nobody out of a circle who is in a channel of it or about to be. -/
theorem Sound.transfer (hs : Sound g db) (husers : db'.users = db.users)
    (hchannels : db'.channels.Sublist db.channels)
    (hplaced : ∀ r ∈ db'.channelMemberships, db'.hasChannel r.channelId = true)
    (hmembers : ∀ r ∈ db'.channelMemberships,
      (∃ r₀ ∈ db.channelMemberships, r₀.channelId = r.channelId ∧ r₀.userId = r.userId) ∨
        Admitted r.channelId r.userId db)
    (hcircles : ∀ ch ∈ db'.channels, ∀ k, ch.circleId = some k → ∀ u,
      (g.seated ch.id u ∨ ∃ r ∈ db'.channelMemberships, r.channelId = ch.id ∧ r.userId = u) →
        db.inCircle k u = true → db'.inCircle k u = true)
    (hinvited : ∀ r ∈ db'.chatInvitations, r ∈ db.chatInvitations) : Sound g db' := by
  refine ⟨?_, hplaced, hs.unique.sublist (hchannels.map _), ?_, ?_, ?_, ?_⟩
  · intro r hr hhuman ch hch hid k hk
    rw [isHuman_congr husers] at hhuman
    have hbefore : Admitted r.channelId r.userId db := by
      rcases hmembers r hr with ⟨r₀, hr₀, hc, hu⟩ | h
      · rw [← hu] at hhuman
        rw [← hc, ← hu]
        exact hs.contained r₀ hr₀ hhuman
      · exact h
    exact hcircles ch hch k hk _ (.inr ⟨r, hr, hid.symm, rfl⟩)
      (hbefore ch (hchannels.subset hch) hid k hk)
  · exact fun ch hch => hs.ids ch (hchannels.subset hch)
  · exact fun r hr => hs.invited r (hinvited r hr)
  · exact fun c k hpin ch hch => hs.pinned c k hpin ch (hchannels.subset hch)
  · intro c u hseat ch hch hid k hk
    exact hcircles ch hch k hk u (.inl (hid ▸ hseat))
      (hs.seated c u hseat ch (hchannels.subset hch) hid k hk)

/-! ### Statements -/

def access (db : Db) :
    List UserRow × List Channel × List MembershipRow × List CircleMembershipRow ×
      List ChatInvitationRow :=
  (db.users, db.channels, db.channelMemberships, db.circleMemberships, db.chatInvitations)

section

variable (hs : Sound g db)

include hs

theorem Sound.of_access (h : access db' = access db) : Sound g db' := by
  simp only [access, Prod.mk.injEq] at h
  obtain ⟨hu, hc, hm, hk, hi⟩ := h
  refine hs.transfer hu (hc ▸ .refl _) ?_ ?_ ?_ (fun r hr => hi ▸ hr)
  · intro r hr
    rw [Db.hasChannel, hc]
    exact hs.placed r (hm ▸ hr)
  · exact fun r hr => .inl ⟨r, hm ▸ hr, rfl, rfl⟩
  · intro ch _ k _ u _ h
    rwa [Db.inCircle, hk]

theorem Sound.addChannel (hnew : g.created = some ch.id) (hfree : db.hasChannel ch.id = false)
    (h : access db' = (db.users, db.channels ++ [ch], db.channelMemberships,
      db.circleMemberships, db.chatInvitations)) : Sound g db' := by
  simp only [access, Prod.mk.injEq] at h
  obtain ⟨hu, hc, hm, hk, hi⟩ := h
  have hcircle : ∀ k u, db'.inCircle k u = db.inCircle k u := by
    intro k u
    rw [Db.inCircle, hk, Db.inCircle]
  have hgrow : ∀ c, db.hasChannel c = true → db'.hasChannel c = true := by
    intro c h
    rw [Db.hasChannel] at h ⊢
    rw [hc, any_append, h, Bool.true_or]
  -- an old channel is admitted to as before, and the new one is somebody else's id
  have hkept : ∀ c u, c ≠ ch.id → Admitted c u db → Admitted c u db' := by
    intro c u hne hold x hx hid k hk
    rw [hc] at hx
    rw [hcircle]
    rcases mem_append.1 hx with hx | hx
    · exact hold x hx hid k hk
    · rw [mem_singleton.1 hx] at hid
      exact absurd hid.symm hne
  obtain ⟨hunpinned, hunseated⟩ := g.apart ch.id hnew
  refine ⟨?_, ?_, ?_, ?_, ?_, ?_, ?_⟩
  · intro r hr hhuman
    rw [hm] at hr
    rw [isHuman_congr hu] at hhuman
    refine hkept _ _ ?_ (hs.contained r hr hhuman)
    intro heq
    have hplaced := hs.placed r hr
    rw [heq, hfree] at hplaced
    cases hplaced
  · intro r hr
    rw [hm] at hr
    exact hgrow _ (hs.placed r hr)
  · rw [hc]
    apply Table.nodup_append_single hs.unique
    intro x hx heq
    have hnone := any_eq_false.1 hfree x hx
    simp [heq] at hnone
  · intro x hx
    rw [hc] at hx
    rcases mem_append.1 hx with hx | hx
    · exact hs.ids x hx
    · rw [mem_singleton.1 hx]
      exact .inr hnew
  · rw [hi]
    exact hs.invited
  · intro c k hpin x hx hid
    rw [hc] at hx
    rcases mem_append.1 hx with hx | hx
    · exact hs.pinned c k hpin x hx hid
    · rw [mem_singleton.1 hx] at hid
      exact absurd (hid ▸ hpin) (hunpinned k)
  · intro c u hseat
    refine hkept c u ?_ (hs.seated c u hseat)
    rintro rfl
    exact hunseated u hseat

theorem Sound.withChannel (hnew : g.created = some ch.id)
    (hfree : Free db ch.id) : Sound g (db.withChannel ch) := by
  refine hs.addChannel hnew (any_eq_false.2 fun r hr => ?_) rfl
  simpa using hfree.channel r hr

variable {rows : List MembershipRow}

/-- Members stay, go, or come who are in the circle. -/
theorem Sound.seats
    (hrows : ∀ r ∈ rows, (∃ r₀ ∈ db.channelMemberships, r = { r₀ with role := r.role }) ∨
      db.hasChannel r.channelId = true ∧ Admitted r.channelId r.userId db) :
    Sound g { db with channelMemberships := rows } := by
  refine hs.transfer rfl (.refl _) (fun r hr => ?_) (fun r hr => ?_) (fun _ _ _ _ _ _ h => h)
    fun _ hr => hr
  · rcases hrows r hr with ⟨r₀, hr₀, hrow⟩ | ⟨hthere, -⟩
    · rw [hrow]
      exact hs.placed r₀ hr₀
    · exact hthere
  · rcases hrows r hr with ⟨r₀, hr₀, hrow⟩ | ⟨-, hin⟩
    · rw [hrow]
      exact .inl ⟨r₀, hr₀, rfl, rfl⟩
    · exact .inr hin

theorem Sound.opened (hnew : g.created = some ch.id) (hfree : Free db ch.id)
    (hrows : Seats db ch rows) :
    Sound g { db.withChannel ch with channelMemberships := rows } := by
  have hadded := hs.withChannel hnew hfree
  have hthere : ch ∈ (db.withChannel ch).channels := mem_append_right _ (mem_singleton_self ch)
  refine hadded.seats fun r hr => (hrows r hr).imp_right fun ⟨hid, _, hin⟩ => ?_
  refine ⟨any_eq_true.2 ⟨ch, hthere, decide_eq_true hid.symm⟩, fun x hx hxid k hk => ?_⟩
  rw [Table.eq_of_key_eq hadded.unique hx hthere (hxid.trans hid)] at hk
  exact hin k hk

theorem Sound.joined {rows : List CircleMembershipRow}
    (hrows : db.circleMemberships ⊆ rows) : Sound g { db with circleMemberships := rows } := by
  refine hs.transfer rfl (.refl _) hs.placed (fun r hr => .inl ⟨r, hr, rfl, rfl⟩) ?_
    fun _ hr => hr
  intro ch _ k _ u _ h
  obtain ⟨r, hr, hkey⟩ := any_eq_true.1 h
  exact any_eq_true.2 ⟨r, hrows hr, hkey⟩

theorem removeChannels_sound (gone : ChannelId → Bool) : Sound g (db.removeChannels gone) := by
  have hmember : ∀ r ∈ (db.removeChannels gone).channelMemberships,
      r ∈ db.channelMemberships ∧ gone r.channelId = false := by
    intro r hr
    obtain ⟨hr, hstay⟩ := mem_filter.1 hr
    exact ⟨hr, by simpa using hstay⟩
  refine hs.transfer rfl filter_sublist ?_ ?_ (fun _ _ _ _ _ _ h => h) ?_
  · intro r hr
    obtain ⟨hr, hstay⟩ := hmember r hr
    obtain ⟨ch, hch, hid⟩ := any_eq_true.1 (hs.placed r hr)
    refine any_eq_true.2 ⟨ch, mem_filter.2 ⟨hch, ?_⟩, hid⟩
    rw [of_decide_eq_true hid, hstay]
    rfl
  · exact fun r hr => .inl ⟨r, (hmember r hr).1, rfl, rfl⟩
  · exact fun r hr => (mem_filter.1 hr).1

/-- Deleting a circle takes its channels along. -/
theorem removeCircle_sound (k : CircleId) : Sound g (db.removeCircle k) := by
  have hinner := removeChannels_sound hs fun c =>
    db.channels.any fun r => r.id = c ∧ r.circleId = some k
  refine hinner.transfer rfl (.refl _) hinner.placed (fun r hr => .inl ⟨r, hr, rfl, rfl⟩) ?_ ?_
  · intro ch hch k' hk' u _ h
    have hne : k' ≠ k := by
      rintro rfl
      obtain ⟨hch, hstay⟩ := mem_filter.1 hch
      simp only [Bool.not_eq_true', any_eq_false, decide_eq_true_eq] at hstay
      exact hstay ch hch ⟨rfl, hk'⟩
    obtain ⟨r, hr, hrow⟩ := any_eq_true.1 h
    have hrow' := of_decide_eq_true hrow
    refine any_eq_true.2 ⟨r, mem_filter.2 ⟨hr, ?_⟩, hrow⟩
    rw [hrow'.1]
    exact decide_eq_true hne
  · exact fun r hr => (mem_filter.1 hr).1

/-- An accepted invitation lets somebody in who is in the circle. -/
theorem Sound.accepted {target : InvitationTarget} {id : ChannelId} {added : List Channel}
    {rows : List CircleMembershipRow} {seats : List MembershipRow}
    (h : ChatAccepts db actor target id added rows seats) (hnew : g.created = some id)
    (hfree : db.hasChannel id = false) (hpin : ∀ k c, target = .channel k c → g.pinned c k) :
    Sound g { db with
      channels := db.channels ++ added
      circleMemberships := rows
      channelMemberships := db.channelMemberships ++ seats } := by
  have hadded : Sound g { db with
      channels := db.channels ++ added
      circleMemberships := rows } := by
    rcases h.prat with rfl | ⟨-, k, -, -, rfl⟩
    · rw [append_nil]
      exact hs.joined h.joined
    · have hroom : db.hasChannel (newPrat k id actor).id = false := hfree
      exact (hs.joined h.joined).addChannel hnew hroom rfl
  refine hadded.seats fun r hr => ?_
  rcases mem_append.1 hr with hr | hr
  · exact .inl ⟨r, hr, rfl⟩
  obtain ⟨rfl, -, ch, hch, hid, k, hin, hplaced⟩ := h.seated r hr
  refine .inr ⟨any_eq_true.2 ⟨ch, hch, decide_eq_true hid⟩, fun x hx hxid k' hk' => ?_⟩
  obtain rfl := Table.eq_of_key_eq hadded.unique hx hch (hxid.trans hid.symm)
  have hcircle : x.circleId = some k := by
    rcases hplaced with htarget | hcircle | hthere
    · exact hadded.pinned x.id k (hpin k x.id htarget) x hch rfl
    · exact hcircle
    · rw [hfree] at hthere
      cases hthere
  rw [hcircle] at hk'
  cases hk'
  exact hin

/-- Leaving a circle keeps the invariant unless somebody is about to seat the leaver. -/
theorem Sound.left (hunseated : ∀ c, db.channelOfCircle k c = true → ¬ g.seated c actor) :
    Sound g { db with
      channelMemberships := db.channelMemberships.filter fun r =>
        !(r.userId = actor ∧ db.channelOfCircle k r.channelId)
      circleMemberships :=
        db.circleMemberships.filter fun r => !(r.circleId = k ∧ r.userId = actor) } := by
  refine hs.transfer rfl (.refl _) ?_ ?_ ?_ fun _ hr => hr
  · exact fun r hr => hs.placed r (mem_filter.1 hr).1
  · exact fun r hr => .inl ⟨r, (mem_filter.1 hr).1, rfl, rfl⟩
  · intro ch hch k' hk' u hkept hin
    obtain ⟨row, hrow, hkey⟩ := any_eq_true.1 hin
    refine any_eq_true.2 ⟨row, mem_filter.2 ⟨hrow, ?_⟩, hkey⟩
    obtain ⟨rfl, rfl⟩ := of_decide_eq_true hkey
    rw [Bool.not_eq_true', decide_eq_false_iff_not]
    rintro ⟨rfl, rfl⟩
    have hof : db.channelOfCircle row.circleId ch.id = true :=
      any_eq_true.2 ⟨ch, hch, by simp [hk']⟩
    rcases hkept with hseat | ⟨r, hr, hid, huser⟩
    · exact hunseated ch.id hof hseat
    · have hstay := (mem_filter.1 hr).2
      rw [Bool.not_eq_true', decide_eq_false_iff_not] at hstay
      refine hstay ⟨huser, ?_⟩
      rw [hid]
      exact hof

theorem Sound.invite {row : ChatInvitationRow}
    (hpin : ∀ k c, row.target = .channel k c → g.pinned c k) :
    Sound g { db with chatInvitations := db.chatInvitations ++ [row] } := by
  refine { hs with invited := fun r hr k c htarget => ?_ }
  rcases mem_append.1 hr with hr | hr
  · exact hs.invited r hr k c htarget
  · rw [mem_singleton.1 hr] at htarget
    exact hpin k c htarget

end

end Sproyt
