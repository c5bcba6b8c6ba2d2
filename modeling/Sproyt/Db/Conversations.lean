import Sproyt.Db.Spaces

/-!
# Direct conversations

Two people have at most one direct conversation, whoever of them opens it and however their calls
interleave. A conversation that is found is answered as it is: whoever has left it stays out.
-/

namespace Sproyt

open List Txn

section

variable {host : Host} {old db db' : Db}

variable {ra rb : UserRow}

theorem named_pair (h : Spaces old db) (hra : ra ∈ db.users)
    (hrb : rb ∈ db.users) (hhuman : ra.kind = .human) (hhuman' : rb.kind = .human)
    (hne : ra.id ≠ rb.id) :
    ∃ x y, sortByName (db.users.filter fun r => (r.id = ra.id ∨ r.id = rb.id) ∧ r.kind = .human) =
      [x, y] ∧ [x, y].Perm [ra, rb] := by
  have hpair : (db.users.filter fun r =>
      (r.id = ra.id ∨ r.id = rb.id) ∧ r.kind = .human).Perm [ra, rb] := by
    refine (perm_ext_iff_of_nodup (h.people.of_map _ |>.filter _) ?_).2 fun r => ?_
    · rw [nodup_cons, mem_singleton]
      exact ⟨fun heq => hne (congrArg _ heq), nodup_singleton _⟩
    · rw [mem_filter, decide_eq_true_eq, mem_cons, mem_singleton]
      constructor
      · rintro ⟨hr, hid | hid, -⟩
        · exact .inl (Table.eq_of_key_eq h.people hr hra hid)
        · exact .inr (Table.eq_of_key_eq h.people hr hrb hid)
      · rintro (rfl | rfl)
        · exact ⟨hra, .inl rfl, hhuman⟩
        · exact ⟨hrb, .inr rfl, hhuman'⟩
  have hsorted := (perm_insertionSort (fun a b : UserRow =>
    asciiLower a.displayName.text ≤ asciiLower b.displayName.text) _).trans hpair
  obtain ⟨x, y, hxy⟩ := length_eq_two.1 hsorted.length_eq
  exact ⟨x, y, hxy, hxy ▸ hsorted⟩

theorem directName_iff (h : Spaces old db) (hra : ra ∈ db.users)
    (hrb : rb ∈ db.users) (hhuman : ra.kind = .human) (hhuman' : rb.kind = .human)
    (hne : ra.id ≠ rb.id) :
    (∃ name, directName db ra.id rb.id = .ok name) ↔
      ra.displayName.text.utf8ByteSize + rb.displayName.text.utf8ByteSize + 5 ≤
        DisplayName.maxBytes := by
  obtain ⟨x, y, hsorted, hperm⟩ := named_pair h hra hrb hhuman hhuman' hne
  have hsizes : x.displayName.text.utf8ByteSize + y.displayName.text.utf8ByteSize =
      ra.displayName.text.utf8ByteSize + rb.displayName.text.utf8ByteSize := by
    simpa using (hperm.map fun r : UserRow => r.displayName.text.utf8ByteSize).sum_nat
  have hmem : ∀ r ∈ [x, y], r ∈ db.users := by
    intro r hr
    have hr' := hperm.subset hr
    simp only [mem_cons, not_mem_nil, or_false] at hr'
    rcases hr' with rfl | rfl
    · exact hra
    · exact hrb
  have hbare := (h.named x (hmem x mem_cons_self)).between x.displayName.nonEmpty
    (h.named y (hmem y (mem_cons_of_mem _ mem_cons_self))) y.displayName.nonEmpty " ↔ "
  have hsize : (x.displayName.text ++ " ↔ " ++ y.displayName.text).utf8ByteSize =
      x.displayName.text.utf8ByteSize + y.displayName.text.utf8ByteSize + 5 := by
    rw [String.utf8ByteSize_append, String.utf8ByteSize_append]
    have harrow : " ↔ ".utf8ByteSize = 5 := rfl
    omega
  have hname : directName db ra.id rb.id =
      storageText (DisplayName.new (x.displayName.text ++ " ↔ " ++ y.displayName.text)) := by
    rw [directName, hsorted]
  rw [hname, ← hsizes, ← hsize, ← DisplayName.exists_new_iff hbare]
  · cases DisplayName.new (x.displayName.text ++ " ↔ " ++ y.displayName.text) with
    | ok name => exact ⟨fun _ => ⟨name, rfl⟩, fun _ => ⟨name, rfl⟩⟩
    | error e => exact ⟨fun ⟨_, h⟩ => (by cases h), fun ⟨_, h⟩ => (by cases h)⟩
  · intro hempty
    have hzero := congrArg String.utf8ByteSize hempty
    rw [hsize] at hzero
    exact absurd hzero (Nat.succ_ne_zero _)

/-! ### Opening conversations -/

/-- A call of `open_direct_channel`. It looks the conversation up in `db`, and when there is none
it creates one in the state `later` that other calls have led to in the meantime. -/
def openDirectChannel (actor other : UserId) (id : ChannelId) (slug : Uuid) (db later : Db) :
    Except RepositoryError Channel × Db :=
  match lookupDirectChannel actor other id slug db with
  | .error e => (.error e, db)
  | .ok (.inl channel) => (.ok channel, db)
  | .ok (.inr channel) => (createDirectChannel channel actor other).commit later

def Db.BothIn (db : Db) (a b : UserId) : Prop :=
  ∀ row, db.directConversation? (normalizedPair a b) = some row →
    db.inChannel row.channelId a = true ∧ db.inChannel row.channelId b = true

variable {a b : UserId} {id : ChannelId} {slug : Uuid} {later : Db} {ch : Channel}
  {row : DirectConversationRow}

theorem Spaces.channel_of_direct (h : Spaces old db) {pair : UserId × UserId}
    (hrow : db.directConversation? pair = some row) :
    ∃ ch, db.channel? row.channelId = some ch ∧ ch.id = row.channelId := by
  obtain ⟨ch, hch, hid, -⟩ := h.directs row (mem_of_find?_eq_some hrow)
  refine ⟨ch, ?_, hid⟩
  rw [← hid]
  exact Table.find?_of_mem h.unique hch

theorem createDirectChannel_creates (h : Spaces old db) (hab : a ≠ b)
    (ha : db.hasUser a = true) (hb : db.hasUser b = true) (hcreator : ch.createdBy = a)
    (hnone : ch.circleId = none) (hfree : ∀ r ∈ db.channels, r.id ≠ ch.id ∧ r.slug ≠ ch.slug)
    (habsent : db.directConversation? (normalizedPair a b) = none) :
    (createDirectChannel ch a b).run db = .ok (ch, db.withDirect ch a b) := by
  have hnew : db.hasChannel ch.id = false :=
    any_eq_false.2 fun r hr => by simpa using (hfree r hr).1
  have hne : ∀ c, db.hasChannel c = true → c ≠ ch.id := by
    rintro c hc rfl
    rw [hnew] at hc
    cases hc
  have hthere : (db.withChannel ch).hasChannel ch.id = true := by
    simp [Db.hasChannel, Db.withChannel]
  have hpair : ∀ u ∈ [(normalizedPair a b).1, (normalizedPair a b).2], db.hasUser u = true := by
    intro u hu
    simp only [mem_cons, not_mem_nil, or_false, normalizedPair] at hu
    split at hu <;> rcases hu with rfl | rfl <;> assumption
  rw [createDirectChannel]
  refine bind_ok.2 ⟨(), _, insertNumberedChannel_iff.2 ⟨⟨hfree, fun r hr => ?_, ?_, ?_⟩, rfl⟩, ?_⟩
  · exact hne _ (h.counters _ (mem_map.2 ⟨r, hr, rfl⟩))
  · rw [hcreator]
    exact ha
  · rw [hnone]
    rfl
  refine bind_ok.2 ⟨true, _, Sql.insertOrIgnore_ok.2 (.inr ⟨?_, ?_, ?_, rfl, rfl⟩), ?_⟩
  · rw [show (db.withChannel ch).directConversation? _ = none from habsent]
    rfl
  · refine any_eq_false.2 fun r hr => ?_
    simpa using h.no_direct (fun r hr => (hfree r hr).1) r hr
  · rw [hthere, Bool.true_and, Bool.and_eq_true]
    exact ⟨hpair _ mem_cons_self, hpair _ (mem_cons_of_mem _ mem_cons_self)⟩
  rw [if_pos rfl]
  -- nobody is in the new channel yet
  have hseats : ∀ r ∈ db.channelMemberships, r.channelId ≠ ch.id := fun r hr =>
    hne _ (h.seats _ (mem_map.2 ⟨r, hr, rfl⟩))
  refine bind_ok.2 ⟨(), _, Sql.insert_ok.2 ⟨?_, ?_, rfl⟩, ?_⟩
  · refine any_eq_false.2 fun r hr hrow => ?_
    exact hseats r hr (of_decide_eq_true hrow).1
  · exact Bool.and_eq_true_iff.2 ⟨hthere, ha⟩
  refine bind_ok.2 ⟨(), _, Sql.insert_ok.2 ⟨?_, ?_, rfl⟩, ?_⟩
  · refine any_eq_false.2 fun r hr hrow => ?_
    rcases mem_append.1 hr with hr | hr
    · exact hseats r hr (of_decide_eq_true hrow).1
    · rw [mem_singleton.1 hr] at hrow
      exact hab (of_decide_eq_true hrow).2
  · exact Bool.and_eq_true_iff.2 ⟨hthere, hb⟩
  refine pure_ok.2 ⟨rfl, ?_⟩
  rw [Db.withDirect, Db.withChannel]
  simp only [append_assoc, cons_append, nil_append]

theorem createDirectChannel_finds (h : Spaces old db) (ha : db.hasUser ch.createdBy = true)
    (hnone : ch.circleId = none) (hfree : ∀ r ∈ db.channels, r.id ≠ ch.id ∧ r.slug ≠ ch.slug)
    (hrow : db.directConversation? (normalizedPair a b) = some row) :
    ∃ winner, winner.id = row.channelId ∧ (createDirectChannel ch a b).run db =
      .ok (winner, (db.withChannel ch).removeChannels fun c => c = ch.id) := by
  obtain ⟨winner, hwinner, hid⟩ := h.channel_of_direct hrow
  obtain ⟨hchannels, -, hdirects, -⟩ := h.taken_back fun r hr => (hfree r hr).1
  have hnew : db.hasChannel ch.id = false :=
    any_eq_false.2 fun r hr => by simpa using (hfree r hr).1
  refine ⟨winner, hid, ?_⟩
  rw [createDirectChannel]
  refine bind_ok.2 ⟨(), _, insertNumberedChannel_iff.2 ⟨⟨hfree, fun r hr heq => ?_, ha, ?_⟩,
    rfl⟩, ?_⟩
  · have hthere := h.counters _ (mem_map.2 ⟨r, hr, rfl⟩)
    rw [heq, hnew] at hthere
    cases hthere
  · rw [hnone]
    rfl
  refine bind_ok.2 ⟨false, _, Sql.insertOrIgnore_ok.2 (.inl ⟨?_, rfl, rfl⟩), ?_⟩
  · rw [show (db.withChannel ch).directConversation? _ = some row from hrow]
    rfl
  rw [if_neg Bool.false_ne_true]
  simp only [Sql.answers, answers]
  refine ⟨row, ?_, ?_, trivial⟩
  · rw [Db.directConversation?, hdirects]
    exact hrow
  · rw [Db.channel?, hchannels]
    exact hwinner

theorem Db.BothIn.of_direct (hrow : db.directConversation? (normalizedPair a b) = some row) :
    db.BothIn a b ↔ db.inChannel row.channelId a = true ∧ db.inChannel row.channelId b = true := by
  refine ⟨fun h => h row hrow, fun h row' hrow' => ?_⟩
  rw [hrow] at hrow'
  rwa [← Option.some.inj hrow']

theorem Db.BothIn.of_none (hnone : db.directConversation? (normalizedPair a b) = none) :
    db.BothIn a b := by
  intro row hrow
  rw [hnone] at hrow
  cases hrow

/-- The creating transaction succeeds, and answers a channel with both people in it unless one of
them has left the conversation that a faster call has created. -/
theorem createDirectChannel_answers (h : Spaces old db) (hab : a ≠ b)
    (ha : db.hasUser a = true) (hb : db.hasUser b = true) (hcreator : ch.createdBy = a)
    (hnone : ch.circleId = none) (hfree : ∀ r ∈ db.channels, r.id ≠ ch.id ∧ r.slug ≠ ch.slug) :
    (∃ ch' db', (createDirectChannel ch a b).commit db = (.ok ch', db') ∧
      db'.inChannel ch'.id a = true ∧ db'.inChannel ch'.id b = true) ↔ db.BothIn a b := by
  rcases Option.eq_none_or_eq_some (db.directConversation? (normalizedPair a b)) with
    habsent | ⟨row, hrow⟩
  · refine ⟨fun _ => .of_none habsent, fun _ => ⟨ch, db.withDirect ch a b, ?_, ?_, ?_⟩⟩
    · exact commit_eq_ok.2 (createDirectChannel_creates h hab ha hb hcreator hnone hfree habsent)
    · simp [Db.inChannel, Db.withDirect]
    · simp [Db.inChannel, Db.withDirect]
  · obtain ⟨winner, hid, hfound⟩ :=
      createDirectChannel_finds h (hcreator ▸ ha) hnone hfree hrow
    obtain ⟨-, hseats, -⟩ := h.taken_back fun r hr => (hfree r hr).1
    have hsame : ∀ u, ((db.withChannel ch).removeChannels fun c => c = ch.id).inChannel
        winner.id u = db.inChannel row.channelId u := by
      intro u
      rw [Db.inChannel, hseats, hid, Db.inChannel]
    rw [Db.BothIn.of_direct hrow, commit_eq_ok.2 hfound, ← hsame, ← hsame]
    constructor
    · rintro ⟨_, _, ⟨⟩, hboth⟩
      exact hboth
    · exact fun hboth => ⟨_, _, rfl, hboth⟩

theorem open_of_direct (h : Spaces old db) (hab : a ≠ b)
    (hrow : db.directConversation? (normalizedPair a b) = some row) :
    ∃ ch, ch.id = row.channelId ∧ openDirectChannel a b id slug db later = (.ok ch, db) := by
  obtain ⟨ch, hch, hid⟩ := h.channel_of_direct hrow
  refine ⟨ch, hid, ?_⟩
  simp only [openDirectChannel, lookupDirectChannel, if_neg hab, hrow, hch]

theorem open_of_none (hab : a ≠ b) (hnone : db.directConversation? (normalizedPair a b) = none) :
    (∃ e, directName db a b = .error e ∧
        openDirectChannel a b id slug db later = (.error e, db)) ∨
      ∃ name, directName db a b = .ok name ∧ openDirectChannel a b id slug db later =
        (createDirectChannel ⟨id, "dm-" ++ slug.simple, name, .privateChannel, none, a⟩
          a b).commit later := by
  simp only [openDirectChannel, lookupDirectChannel, if_neg hab, hnone]
  cases hname : directName db a b with
  | error e => exact .inl ⟨e, rfl, rfl⟩
  | ok name => exact .inr ⟨name, rfl, rfl⟩

/-- When a call succeeds with both people in the channel it answers. -/
theorem openDirectChannel_iff (hdb : Spaces old db) (hlater : Spaces db later)
    (hra : ra ∈ db.users) (hrb : rb ∈ db.users) (hhuman : ra.kind = .human)
    (hhuman' : rb.kind = .human) (hne : ra.id ≠ rb.id)
    (hfresh : ∀ r ∈ later.channels, r.id ≠ id ∧ r.slug ≠ "dm-" ++ slug.simple) :
    (∃ ch db', openDirectChannel ra.id rb.id id slug db later = (.ok ch, db') ∧
        db'.inChannel ch.id ra.id = true ∧ db'.inChannel ch.id rb.id = true) ↔
      db.BothIn ra.id rb.id ∧
        (db.directConversation? (normalizedPair ra.id rb.id) = none →
          ra.displayName.text.utf8ByteSize + rb.displayName.text.utf8ByteSize + 5 ≤
            DisplayName.maxBytes ∧ later.BothIn ra.id rb.id) := by
  have hknown : ∀ r ∈ db.users, later.hasUser r.id = true := fun r hr =>
    hlater.known _ (any_eq_true.2 ⟨r, hr, decide_eq_true rfl⟩)
  rcases Option.eq_none_or_eq_some (db.directConversation? (normalizedPair ra.id rb.id)) with
    hnone | ⟨row, hrow⟩
  · rw [← directName_iff hdb hra hrb hhuman hhuman' hne]
    rcases open_of_none hne hnone with ⟨e, hname, hopen⟩ | ⟨name, hname, hopen⟩
    · rw [hopen]
      refine ⟨fun ⟨_, _, hok, _⟩ => (by cases hok), fun ⟨_, hrest⟩ => ?_⟩
      obtain ⟨⟨_, hok⟩, -⟩ := hrest hnone
      rw [hname] at hok
      cases hok
    · rw [hopen]
      refine (createDirectChannel_answers hlater hne (hknown ra hra) (hknown rb hrb) rfl rfl
        hfresh).trans ⟨fun hboth => ⟨.of_none hnone, fun _ => ⟨⟨name, hname⟩, hboth⟩⟩, ?_⟩
      exact fun hrest => (hrest.2 hnone).2
  · obtain ⟨ch, hid, hopen⟩ := open_of_direct hdb hne hrow
    rw [hopen, Db.BothIn.of_direct hrow, ← hid]
    constructor
    · rintro ⟨_, _, ⟨⟩, hboth⟩
      refine ⟨hboth, fun hnone => ?_⟩
      rw [hrow] at hnone
      cases hnone
    · exact fun hboth => ⟨_, _, rfl, hboth.1⟩

theorem open_answers (hdb : Spaces old db) (hlater : Spaces old later)
    (h : openDirectChannel a b id slug db later = (.ok ch, db')) :
    Spaces old db' ∧
      ∃ row, db'.directConversation? (normalizedPair a b) = some row ∧ row.channelId = ch.id := by
  have hab : a ≠ b := by
    rintro rfl
    simp [openDirectChannel, lookupDirectChannel] at h
  rcases Option.eq_none_or_eq_some (db.directConversation? (normalizedPair a b)) with
    hnone | ⟨row, hrow⟩
  · rcases open_of_none hab hnone with ⟨e, -, hopen⟩ | ⟨name, -, hopen⟩
    · rw [hopen] at h
      cases h
    · rw [hopen] at h
      have hrun := commit_eq_ok.1 h
      obtain ⟨hfree, ⟨habsent, rfl, rfl⟩ | ⟨row, hrow, hchannel, rfl⟩⟩ :=
        createDirectChannel_ok hrun
      · refine ⟨hlater.withDirect rfl hfree.channel,
          ⟨id, (normalizedPair a b).1, (normalizedPair a b).2⟩, ?_, rfl⟩
        rw [Db.directConversation?] at habsent ⊢
        rw [Db.withDirect, find?_append, habsent]
        simp
      · refine ⟨hlater.of_view (hlater.taken_back hfree.channel).2.2.2, row, hrow, ?_⟩
        have hid := find?_some hchannel
        exact (of_decide_eq_true hid).symm
  · obtain ⟨ch', hid, hopen⟩ := open_of_direct hdb hab hrow
    rw [hopen] at h
    cases h
    exact ⟨hdb, row, hrow, hid.symm⟩

/-- In every state that is reached, a call that opens the direct conversation of two people is
answered a channel with both of them in it if and only if they have a conversation that neither
has left, or have none yet, their names fit into its name, and nobody has left the one that a
faster call has created. All calls for the two are answered the same channel. -/
theorem direct_channels_open {trace since : List RollEvent}
    (h : Run (RollStep host) .empty trace db) (hlater : Run (RollStep host) db since later) :
    (∀ ra ∈ db.users, ∀ rb ∈ db.users, ra.kind = .human → rb.kind = .human → ra.id ≠ rb.id →
      ∀ id slug, (∀ r ∈ later.channels, r.id ≠ id ∧ r.slug ≠ "dm-" ++ Uuid.simple slug) →
        ((∃ ch db', openDirectChannel ra.id rb.id id slug db later = (.ok ch, db') ∧
            db'.inChannel ch.id ra.id = true ∧ db'.inChannel ch.id rb.id = true) ↔
          db.BothIn ra.id rb.id ∧
            (db.directConversation? (normalizedPair ra.id rb.id) = none →
              ra.displayName.text.utf8ByteSize + rb.displayName.text.utf8ByteSize + 5 ≤
                DisplayName.maxBytes ∧ later.BothIn ra.id rb.id))) ∧
      ∀ a b id slug ch db₁, openDirectChannel a b id slug db later = (.ok ch, db₁) →
        ∀ trace₂ db₂ since₂ later₂ a' b' id' slug' ch' db₂',
          Run (RollStep host) .empty trace₂ db₂ → Run (RollStep host) db₂ since₂ later₂ →
          (a' = a ∧ b' = b ∨ a' = b ∧ b' = a) →
          openDirectChannel a' b' id' slug' db₂ later₂ = (.ok ch', db₂') →
          ∀ between, Run (RollStep host) db₁ between db₂' → ch'.id = ch.id := by
  have hspaces := spaces_of_run h spaces_empty
  have hspaces' := spaces_of_run hlater hspaces
  refine ⟨fun ra hra rb hrb hhuman hhuman' hne id slug hfresh => ?_, ?_⟩
  · exact openDirectChannel_iff hspaces (spaces_of_run hlater hspaces.restart) hra hrb hhuman
      hhuman' hne hfresh
  intro a b id slug ch db₁ hopen trace₂ db₂ since₂ later₂ a' b' id' slug' ch' db₂' h₂ hlater₂ hpair
    hopen₂ between hbetween
  obtain ⟨hspaces₁, row, hrow, hid⟩ := open_answers hspaces hspaces' hopen
  have hreached₂ := spaces_of_run h₂ spaces_empty
  obtain ⟨-, row₂, hrow₂, hid₂⟩ :=
    open_answers hreached₂ (spaces_of_run hlater₂ hreached₂) hopen₂
  have hsame : normalizedPair a' b' = normalizedPair a b := by
    rcases hpair with ⟨rfl, rfl⟩ | ⟨rfl, rfl⟩
    · rfl
    · exact normalizedPair_comm _ _
  rw [hsame, (spaces_of_run hbetween hspaces₁.restart).same_direct hrow] at hrow₂
  rw [← hid, ← hid₂, Option.some.inj hrow₂]

end

namespace Sample

def longName : DisplayName :=
  ⟨"aaaaaaaaaaaaaaaaaaaaaaaaaaaaaaaaaaaaaaaaaaaaaaaaaaaaaaaaaaaa", by decide⟩

def acquainted (nameA nameB : DisplayName) : List RollCall :=
  [.upsertUser alice .human nameA none none, .upsertUser bob .human nameB none none]

def partedWays : List RollCall :=
  acquainted aliceName bobName ++
    [.statement (.createDirect
      ⟨⟨9⟩, "dm-" ++ Uuid.simple 1, ⟨"Alice ↔ Bob", by decide⟩, .privateChannel, none, alice⟩
      alice bob),
    .statement (.readLeave alice ⟨9⟩), .statement (.deleteLeave alice ⟨9⟩),
    .statement (.unsubscribeLeave alice ⟨9⟩)]

theorem acquainted_built {nameA nameB : DisplayName} (valueA valueB : String)
    (hA : DisplayName.new valueA = .ok nameA) (hB : DisplayName.new valueB = .ok nameB) :
    ∀ c ∈ acquainted nameA nameB, c.Built host := by
  intro c hc
  simp only [acquainted, mem_cons, not_mem_nil, or_false] at hc
  rcases hc with rfl | rfl
  · exact ⟨valueA, hA⟩
  · exact ⟨valueB, hB⟩

theorem partedWays_built : ∀ c ∈ partedWays, c.Built host := by
  intro c hc
  rcases mem_append.1 hc with hc | hc
  · exact acquainted_built "Alice" "Bob" rfl rfl c hc
  · simp only [mem_cons, not_mem_nil, or_false] at hc
    rcases hc with rfl | rfl | rfl | rfl
    · exact ⟨_, _, _, rfl⟩
    · trivial
    · trivial
    · trivial

end Sample

open Sample in
theorem direct_channels_open_for_strangers :
    ∃ ch db', openDirectChannel alice bob ⟨9⟩ 1
        (execAll host (acquainted aliceName bobName) .empty)
        (execAll host (acquainted aliceName bobName) .empty) = (.ok ch, db') ∧
      db'.inChannel ch.id alice = true ∧ db'.inChannel ch.id bob = true := by
  have hbuilt : ∀ c ∈ acquainted aliceName bobName, c.Built host :=
    acquainted_built "Alice" "Bob" rfl rfl
  obtain ⟨hopens, -⟩ := direct_channels_open (run_execAll hbuilt .empty) .refl
  refine (hopens ⟨alice, .human, aliceName, none⟩ ?_ ⟨bob, .human, bobName, none⟩ ?_ rfl rfl nofun
    ⟨9⟩ 1 fun r hr => absurd hr not_mem_nil).2 ⟨.of_none rfl, fun _ => ⟨?_, .of_none rfl⟩⟩
  · exact mem_cons_self
  · exact mem_cons_of_mem _ mem_cons_self
  · decide

open Sample in
/-- Two names of 60 bytes are too much for one conversation, and opening a conversation after
leaving it answers a channel one is not in. -/
theorem direct_channel_refused_or_left :
    (∃ trace db e, Run (RollStep host) .empty trace db ∧ db.isHuman alice = true ∧
      db.isHuman bob = true ∧ openDirectChannel alice bob ⟨9⟩ 1 db db = (.error e, db)) ∧
      ∃ trace db ch, Run (RollStep host) .empty trace db ∧ db.isHuman alice = true ∧
        db.isHuman bob = true ∧ openDirectChannel alice bob ⟨10⟩ 2 db db = (.ok ch, db) ∧
        db.inChannel ch.id alice = false := by
  have hbuilt : ∀ c ∈ acquainted longName longName, c.Built host :=
    acquainted_built longName.text longName.text rfl rfl
  have hrun := run_execAll hbuilt .empty
  refine ⟨?_, _, _, _, run_execAll partedWays_built .empty, rfl, rfl, rfl, rfl⟩
  have hne : alice ≠ bob := nofun
  have hnone : (execAll host (acquainted longName longName) .empty).directConversation?
      (normalizedPair alice bob) = none := rfl
  rcases open_of_none hne hnone with
    ⟨e, -, hopen⟩ | ⟨name, hname, -⟩
  · exact ⟨_, _, e, hrun, rfl, rfl, hopen⟩
  · -- 60 + 60 + 5 bytes are more than 120
    have hnames : ∀ r ∈ [UserRow.mk alice .human longName none, ⟨bob, .human, longName, none⟩],
        r ∈ (execAll host (acquainted longName longName) .empty).users := fun _ hr => hr
    have hfits := (directName_iff (spaces_of_run hrun spaces_empty) (hnames _ mem_cons_self)
      (hnames _ (mem_cons_of_mem _ mem_cons_self)) rfl rfl hne).1 ⟨name, hname⟩
    exact absurd hfits (by decide)

end Sproyt
