import Sproyt.Db.Rolls

/-!
# Accounts, channels and direct conversations

Counters, members and direct conversations refer to channels, and no statement or transaction
leaves a reference behind whose channel has gone. Accounts and direct conversations stay.
-/

namespace Sproyt

open List Txn

section

variable {ch : Channel}

variable {host : Host} {old db db' : Db} {c : ChannelId} {u : UserId}

def spaces (db : Db) : List UserRow × List Channel × List ChannelId × List ChannelId ×
    List DirectConversationRow :=
  (db.users, db.channels, db.channelSequences.map (·.channelId),
    db.channelMemberships.map (·.channelId), db.directConversations)

/-- References resolve, and since the state `old` no account and no conversation has gone. -/
structure Spaces (old db : Db) : Prop where
  unique : (db.channels.map (·.id)).Nodup
  counters : ∀ c ∈ db.channelSequences.map (·.channelId), db.hasChannel c = true
  seats : ∀ c ∈ db.channelMemberships.map (·.channelId), db.hasChannel c = true
  directs : ∀ r ∈ db.directConversations, ∃ ch ∈ db.channels,
    ch.id = r.channelId ∧ ch.circleId = none
  people : (db.users.map (·.id)).Nodup
  named : ∀ r ∈ db.users, Bare r.displayName.text
  held : old.directConversations <+: db.directConversations
  known : ∀ u, old.hasUser u = true → db.hasUser u = true

section

variable (h : Spaces old db)

include h

theorem Spaces.grow (husers : db'.users = db.users)
    (hdirects : db'.directConversations = db.directConversations)
    (hunique : (db'.channels.map (·.id)).Nodup) (hchannels : db.channels ⊆ db'.channels)
    (hcounters : ∀ c ∈ db'.channelSequences.map (·.channelId),
      c ∈ db.channelSequences.map (·.channelId) ∨ db'.hasChannel c = true)
    (hseats : ∀ c ∈ db'.channelMemberships.map (·.channelId),
      c ∈ db.channelMemberships.map (·.channelId) ∨ db'.hasChannel c = true) : Spaces old db' := by
  have hgrow : ∀ c, db.hasChannel c = true → db'.hasChannel c = true := by
    intro c hc
    obtain ⟨ch, hch, hid⟩ := any_eq_true.1 hc
    exact any_eq_true.2 ⟨ch, hchannels hch, hid⟩
  exact {
    unique := hunique
    counters := fun c hc => (hcounters c hc).elim (fun hold => hgrow c (h.counters c hold)) id
    seats := fun c hc => (hseats c hc).elim (fun hold => hgrow c (h.seats c hold)) id
    directs := by
      intro r hr
      rw [hdirects] at hr
      obtain ⟨ch, hch, hrest⟩ := h.directs r hr
      exact ⟨ch, hchannels hch, hrest⟩
    people := husers ▸ h.people
    named := husers ▸ h.named
    held := hdirects ▸ h.held
    known := by
      intro u hu
      rw [Db.hasUser, husers]
      exact h.known u hu }

theorem Spaces.of_view (hview : spaces db' = spaces db) : Spaces old db' := by
  simp only [spaces, Prod.mk.injEq] at hview
  obtain ⟨husers, hchannels, hcounters, hseats, hdirects⟩ := hview
  refine h.grow husers hdirects (hchannels ▸ h.unique) (hchannels ▸ List.Subset.refl _) ?_ ?_
  · exact fun c hc => .inl (hcounters ▸ hc)
  · exact fun c hc => .inl (hseats ▸ hc)

/-! ### Statements -/

theorem Spaces.members (rows : List MembershipRow)
    (hrows : ∀ r ∈ rows, r ∈ db.channelMemberships ∨ db.hasChannel r.channelId = true) :
    Spaces old { db with channelMemberships := rows } := by
  refine h.grow rfl rfl h.unique (List.Subset.refl _) (fun c hc => .inl hc) fun c hc => ?_
  obtain ⟨r, hr, rfl⟩ := mem_map.1 hc
  exact (hrows r hr).imp (fun hold => mem_map.2 ⟨r, hold, rfl⟩) id

theorem Spaces.member {row : MembershipRow} (hrow : db.hasChannel row.channelId = true) :
    Spaces old { db with channelMemberships := db.channelMemberships ++ [row] } := by
  refine h.members _ fun r hr => ?_
  rcases mem_append.1 hr with hr | hr
  · exact .inl hr
  · exact .inr (mem_singleton.1 hr ▸ hrow)

theorem Spaces.channel (counters : List SequenceRow)
    (hfree : db.hasChannel ch.id = false) (hcounters : ∀ r ∈ counters, r.channelId = ch.id) :
    Spaces old { db with
      channels := db.channels ++ [ch]
      channelSequences := db.channelSequences ++ counters } := by
  refine h.grow rfl rfl ?_ (subset_append_left _ _) ?_ fun c hc => .inl hc
  · refine Table.nodup_append_single h.unique fun x hx heq => ?_
    have hnone := any_eq_false.1 hfree x hx
    simp [heq] at hnone
  · intro c hc
    rw [map_append] at hc
    rcases mem_append.1 hc with hc | hc
    · exact .inl hc
    · obtain ⟨r, hr, rfl⟩ := mem_map.1 hc
      refine .inr (any_eq_true.2 ⟨ch, mem_append_right _ (mem_singleton_self ch), ?_⟩)
      rw [hcounters r hr]
      exact decide_eq_true rfl

theorem Spaces.withChannel (hfree : ∀ r ∈ db.channels, r.id ≠ ch.id) :
    Spaces old (db.withChannel ch) := by
  refine h.channel _ (any_eq_false.2 fun r hr => ?_) fun r hr => ?_
  · simpa using hfree r hr
  · rw [mem_singleton.1 hr]

theorem Spaces.remove {gone : ChannelId → Bool}
    (hkept : ∀ r ∈ db.directConversations, gone r.channelId = false) :
    Spaces old (db.removeChannels gone) := by
  have hhas : ∀ c, gone c = false → db.hasChannel c = true →
      (db.removeChannels gone).hasChannel c = true := by
    intro c hc hthere
    obtain ⟨ch, hch, hid⟩ := any_eq_true.1 hthere
    refine any_eq_true.2 ⟨ch, mem_filter.2 ⟨hch, ?_⟩, hid⟩
    rw [of_decide_eq_true hid, hc]
    rfl
  have hdirects : (db.removeChannels gone).directConversations = db.directConversations :=
    filter_eq_self.2 fun r hr => by rw [hkept r hr]; rfl
  exact {
    unique := h.unique.sublist (filter_sublist.map _)
    counters := by
      intro c hc
      obtain ⟨r, hr, rfl⟩ := mem_map.1 hc
      obtain ⟨hr, hstay⟩ := mem_filter.1 hr
      exact hhas _ (Bool.not_eq_true' _ ▸ hstay) (h.counters _ (mem_map.2 ⟨r, hr, rfl⟩))
    seats := by
      intro c hc
      obtain ⟨r, hr, rfl⟩ := mem_map.1 hc
      obtain ⟨hr, hstay⟩ := mem_filter.1 hr
      exact hhas _ (Bool.not_eq_true' _ ▸ hstay) (h.seats _ (mem_map.2 ⟨r, hr, rfl⟩))
    directs := by
      intro r hr
      rw [hdirects] at hr
      obtain ⟨ch, hch, hid, hnone⟩ := h.directs r hr
      refine ⟨ch, mem_filter.2 ⟨hch, ?_⟩, hid, hnone⟩
      rw [hid, hkept r hr]
      rfl
    people := h.people
    named := h.named
    held := hdirects ▸ h.held
    known := h.known }

theorem Spaces.no_direct (hfree : ∀ r ∈ db.channels, r.id ≠ c) :
    ∀ r ∈ db.directConversations, r.channelId ≠ c := by
  intro r hr heq
  obtain ⟨ch, hch, hid, -⟩ := h.directs r hr
  exact hfree ch hch (hid.trans heq)

theorem removeCircle_spaces {k : CircleId} : Spaces old (db.removeCircle k) := by
  refine Spaces.of_view (h.remove fun r hr => ?_ : Spaces old (db.removeChannels fun c =>
    db.channels.any fun r => r.id = c ∧ r.circleId = some k)) rfl
  -- the channel of a conversation belongs to no circle
  obtain ⟨ch, hch, hid, hnone⟩ := h.directs r hr
  refine any_eq_false.2 fun x hx hrow => ?_
  obtain ⟨hxid, hcircle⟩ := of_decide_eq_true hrow
  rw [Table.eq_of_key_eq h.unique hx hch (hxid.trans hid.symm), hnone] at hcircle
  cases hcircle

theorem Spaces.direct (row : DirectConversationRow)
    (hrow : ∃ ch ∈ db.channels, ch.id = row.channelId ∧ ch.circleId = none) :
    Spaces old { db with directConversations := db.directConversations ++ [row] } := by
  refine { h with directs := fun r hr => ?_, held := h.held.trans (prefix_append _ _) }
  rcases mem_append.1 hr with hr | hr
  · exact h.directs r hr
  · exact mem_singleton.1 hr ▸ hrow

theorem Spaces.taken_back (hfree : ∀ r ∈ db.channels, r.id ≠ ch.id) :
    let back := (db.withChannel ch).removeChannels fun c => c = ch.id
    back.channels = db.channels ∧ back.channelMemberships = db.channelMemberships ∧
      back.directConversations = db.directConversations ∧ spaces back = spaces db := by
  have hnone : db.hasChannel ch.id = false :=
    any_eq_false.2 fun r hr => by simpa using hfree r hr
  have hne : ∀ c, db.hasChannel c = true → c ≠ ch.id := by
    rintro c hc rfl
    rw [hnone] at hc
    cases hc
  have hchannels : (db.channels ++ [ch]).filter (fun r => !decide (r.id = ch.id)) =
      db.channels := by
    rw [filter_append, filter_eq_self.2 fun r hr => by simpa using hfree r hr]
    simp
  have hcounters : (db.channelSequences ++ [SequenceRow.mk ch.id 1]).filter
      (fun r => !decide (r.channelId = ch.id)) = db.channelSequences := by
    rw [filter_append, filter_eq_self.2 fun r hr => ?_]
    · simp
    · simpa using hne _ (h.counters _ (mem_map.2 ⟨r, hr, rfl⟩))
  have hseats : db.channelMemberships.filter (fun r => !decide (r.channelId = ch.id)) =
      db.channelMemberships := by
    refine filter_eq_self.2 fun r hr => ?_
    simpa using hne _ (h.seats _ (mem_map.2 ⟨r, hr, rfl⟩))
  have hdirects : db.directConversations.filter (fun r => !decide (r.channelId = ch.id)) =
      db.directConversations := by
    refine filter_eq_self.2 fun r hr => ?_
    simpa using h.no_direct hfree r hr
  refine ⟨hchannels, hseats, hdirects, ?_⟩
  simp only [spaces, Db.removeChannels, Db.withChannel, hchannels, hcounters, hseats, hdirects]

theorem Spaces.withDirect {actor other : UserId}
    (hnone : ch.circleId = none) (hfree : ∀ r ∈ db.channels, r.id ≠ ch.id) :
    Spaces old (db.withDirect ch actor other) := by
  have hchannel := h.withChannel hfree
  have hthere : ch ∈ (db.withChannel ch).channels :=
    mem_append_right _ (mem_singleton_self ch)
  refine Spaces.direct (hchannel.members (db.channelMemberships ++
    [⟨ch.id, actor, .member, 0⟩, ⟨ch.id, other, .member, 0⟩]) fun r hr => ?_)
    ⟨ch.id, (normalizedPair actor other).1, (normalizedPair actor other).2⟩
    ⟨ch, hthere, rfl, hnone⟩
  rcases mem_append.1 hr with hr | hr
  · exact .inl hr
  · refine .inr (any_eq_true.2 ⟨ch, hthere, ?_⟩)
    simp only [mem_cons, not_mem_nil, or_false] at hr
    rcases hr with rfl | rfl <;> exact decide_eq_true rfl

end

/-- The rows of people may be rewritten under their ids, with valid names. -/
theorem Spaces.people_map (hdb : Spaces old db) {f : UserRow → UserRow} (hid : ∀ r, (f r).id = r.id)
    (hname : ∀ r, Bare r.displayName.text → Bare (f r).displayName.text) :
    Spaces old { db with users := db.users.map f } := by
  refine { hdb with people := ?_, named := ?_, known := ?_ }
  · rw [Table.map_key_map hid]
    exact hdb.people
  · intro r hr
    obtain ⟨r₀, hr₀, rfl⟩ := mem_map.1 hr
    exact hname r₀ (hdb.named r₀ hr₀)
  · intro u hu
    obtain ⟨r, hr, hu⟩ := any_eq_true.1 (hdb.known u hu)
    refine any_eq_true.2 ⟨f r, mem_map.2 ⟨r, hr, rfl⟩, ?_⟩
    rw [hid]
    exact hu

theorem updateProfile_spaces {actor : UserId} {name : DisplayName} (hname : Bare name.text) :
    Keeps (Spaces old) (updateProfile actor name) := by
  intro db _ db' hdb h
  obtain ⟨-, rfl⟩ := updateOne_ok.1 h
  refine hdb.people_map (fun r => by split <;> rfl) fun r hr => ?_
  split
  · exact hname
  · exact hr

theorem upsertUser_spaces {id : UserId} {kind : PrincipalKind} {name : DisplayName}
    {handle known : Option String} (hname : Bare name.text) :
    Keeps (Spaces old) (upsertUser id kind name handle known) := by
  refine .write fun db hdb => ?_
  have hseated := hdb.members (db.channelMemberships ++
    (db.channels.filter fun c =>
      c.slug = "general" ∧ c.circleId = none ∧ !db.inChannel c.id id).map fun c =>
        ⟨c.id, id, .member, 0⟩) fun r hr => by
    rcases mem_append.1 hr with hr | hr
    · exact .inl hr
    · obtain ⟨ch, hch, rfl⟩ := mem_map.1 hr
      exact .inr (any_eq_true.2 ⟨ch, (mem_filter.1 hch).1, decide_eq_true rfl⟩)
  cases hknown : db.hasUser id with
  | true =>
    rw [if_pos rfl]
    exact hseated.people_map (fun r => by split <;> rfl) fun r hr => by split <;> exact hr
  | false =>
    rw [if_neg nofun]
    refine { hseated with people := ?_, named := ?_, known := ?_ }
    · refine Table.nodup_append_single hdb.people fun r hr heq => ?_
      have hnone := any_eq_false.1 hknown r hr
      simp [heq] at hnone
    · intro r hr
      rcases mem_append.1 hr with hr | hr
      · exact hdb.named r hr
      · rw [mem_singleton.1 hr]
        exact hname
    · intro u hu
      obtain ⟨r, hr, hid⟩ := any_eq_true.1 (hdb.known u hu)
      exact any_eq_true.2 ⟨r, mem_append_left _ hr, hid⟩

/-! ### Steps and runs -/

theorem Spaces.of_effect {p : Pending} (hdb : Spaces old db) (h : CallEffect host db p db')
    (hdirect : ∀ ch actor other, p = .createDirect ch actor other → ch.circleId = none) :
    Spaces old db' := by
  cases h with
  | stay => exact hdb
  | opened ch rows _ hfree hrows =>
    refine (hdb.withChannel hfree.channel).members rows fun r hr => ?_
    rcases hrows r hr with ⟨r₀, hr₀, hrow⟩ | ⟨hid, -⟩
    · rw [hrow]
      exact .inr ((hdb.withChannel hfree.channel).seats _ (mem_map.2 ⟨r₀, hr₀, rfl⟩))
    · exact .inr (any_eq_true.2 ⟨ch, mem_append_right _ (mem_singleton_self ch),
        decide_eq_true hid.symm⟩)
  | paired ch actor other hfree => exact hdb.withDirect (hdirect _ _ _ rfl) hfree.channel
  | takenBack ch _ hfree => exact hdb.of_view (hdb.taken_back hfree.channel).2.2.2
  | seated c u hc => exact hdb.member hc
  | unseated => exact hdb.members _ fun r hr => .inl (mem_filter.1 hr).1
  | left => exact (hdb.members _ fun r hr => .inl (mem_filter.1 hr).1).of_view rfl
  | dissolved _ k => exact removeCircle_spaces hdb
  | rolled | invited => exact hdb.of_view rfl
  | accepted actor token target id now added rows seats h =>
    have hadded : Spaces old { db with channels := db.channels ++ added } := by
      rcases h.prat with rfl | ⟨hfree, k, -, -, rfl⟩
      · exact hdb.of_view (by rw [append_nil])
      · have hroom : db.hasChannel (newPrat k id actor).id = false := hfree
        have hchannel := hdb.channel [] hroom fun _ hr => absurd hr not_mem_nil
        rwa [append_nil] at hchannel
    refine (hadded.members (db.channelMemberships ++ seats) fun r hr => ?_).of_view rfl
    refine (mem_append.1 hr).imp_right fun hr => ?_
    obtain ⟨-, -, ch, hch, hid, -⟩ := h.seated r hr
    exact any_eq_true.2 ⟨ch, hch, decide_eq_true hid⟩
  | appended command env m h =>
    have hcounters : db'.channelSequences.map (·.channelId) =
        db.channelSequences.map (·.channelId) := by
      rw [h.channelSequences, bumpRows, Table.map_key_map fun r => by split <;> rfl]
    refine hdb.of_view ?_
    rw [h.rest, spaces, spaces]
    simp only [hcounters]

theorem spaces_of_rollCall {call : RollCall} (hbuilt : call.Built host) (hdb : Spaces old db) :
    Spaces old (call.exec host db) := by
  cases call with
  | upsertUser id kind name handle known =>
    obtain ⟨value, hvalue⟩ := hbuilt
    exact (upsertUser_spaces (DisplayName.bare hvalue)).commit hdb
  | updateProfile actor name =>
    obtain ⟨value, hvalue⟩ := hbuilt
    exact (updateProfile_spaces (DisplayName.bare hvalue)).commit hdb
  | setCircleMemberRole command =>
    have hframe : Frame spaces (setCircleMemberRole command) :=
      .check <| .look fun _ => .bind .demand fun _ =>
        .bind (.write fun _ => rfl) fun _ => .pure
    exact (hframe.keeps fun _ _ hview hdb => hdb.of_view hview).commit hdb
  | statement p =>
    obtain ⟨d, heffect, hd⟩ := exec_does host p db
    refine (hdb.of_effect heffect ?_).of_view (by rw [RollCall.exec, hd]; rfl)
    rintro ch actor other rfl
    obtain ⟨id, slug, name, rfl⟩ := hbuilt
    rfl

theorem spaces_of_run {trace : List RollEvent} (h : Run (RollStep host) db trace db')
    (hdb : Spaces old db) : Spaces old db' := by
  refine h.invariant (P := Spaces old) ?_ hdb
  rintro db e db' hdb ⟨call, hbuilt⟩
  exact spaces_of_rollCall hbuilt hdb

theorem spaces_empty : Spaces .empty .empty :=
  ⟨nodup_nil, fun _ hc => absurd hc not_mem_nil, fun _ hc => absurd hc not_mem_nil,
    fun _ hr => absurd hr not_mem_nil, nodup_nil,
    fun _ hr => absurd hr not_mem_nil, prefix_rfl, fun _ hu => hu⟩

theorem Spaces.restart (h : Spaces old db) : Spaces db db :=
  { h with held := prefix_rfl, known := fun _ hu => hu }

theorem Spaces.same_direct (h : Spaces old db) {pair : UserId × UserId}
    {row : DirectConversationRow} (hrow : old.directConversation? pair = some row) :
    db.directConversation? pair = some row := by
  obtain ⟨rest, hrest⟩ := h.held
  rw [Db.directConversation?, ← hrest, find?_append]
  rw [Db.directConversation?] at hrow
  rw [hrow, Option.some_or]

theorem normalizedPair_comm (a b : UserId) : normalizedPair a b = normalizedPair b a := by
  rw [normalizedPair, normalizedPair]
  by_cases hab : a.uuid < b.uuid
  · rw [if_pos hab, if_neg (BitVec.lt_asymm hab)]
  · by_cases hba : b.uuid < a.uuid
    · rw [if_neg hab, if_pos hba]
    · have huuid : a.uuid = b.uuid :=
        BitVec.le_antisymm (BitVec.not_lt.1 hba) (BitVec.not_lt.1 hab)
      have hsame : a = b := by
        cases a
        cases b
        exact congrArg UserId.mk huuid
      rw [hsame]

end

end Sproyt
