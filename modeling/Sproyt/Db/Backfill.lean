import Sproyt.Db.Recipients
import Sproyt.Db.Threads

/-!
# The backfill

The worker that delivers notifications starts by selecting the recipients of all messages again.
It selects by the settings of that moment and it does not ask whether a message was deleted. So a
restart adds nothing that was muted when it was sent as long as no preference allows more than
before, and nothing deleted as long as the cursors are past the deleted messages.
-/

namespace Sproyt

open List Txn

/-! ### Runs -/

inductive PushCall
  | send (command : SendMessage) (env : SendEnv)
  | sendIdempotent (command : SendMessage) (requestId : String) (env : SendEnv)
  | delete (command : DeleteMessage) (now : Time)
  | savePreferences (u : UserId) (value : NotificationPreferences)
  | subscribe (u : UserId) (input : PushSubscriptionInput) (userAgent : Option String) (id : Uuid)
      (validated : Except RepositoryError Unit)
  | unsubscribe (u : UserId) (endpoint : String)
  | setChannelSubscription (u : UserId) (c : ChannelId) (enabled : Bool)
  | lease (job : PushJob) (now : Int)
  | complete (job : PushJob) (now : Int) (outcome : DeliveryOutcome)
  | backfill (insert : NotificationInsert)

def PushCall.body (host : Host) : PushCall → Sql Unit
  | send command env => do let _ ← appendMessage host command env
  | sendIdempotent command requestId env => do
    let _ ← appendMessageIdempotent host command requestId env
  | delete command now => do let _ ← deleteMessage command now
  | savePreferences u value => do let _ ← Sproyt.savePreferences u value
  | subscribe u input userAgent id validated => Sproyt.subscribe u input userAgent id validated
  | unsubscribe u endpoint => Sproyt.unsubscribe u endpoint
  | setChannelSubscription u c enabled => Sproyt.setChannelSubscription u c enabled
  | lease job now => do let _ ← leaseJob job now
  | complete job now outcome => completeJob job now outcome
  | backfill insert => backfillInsert insert

/-- The devices that would hear of a message if everyone wanted everything, and do not. -/
def Db.mutedBy (db : Db) (m : ChatMessage) : List PushJob :=
  (({ db with notificationPreferences := [] } : Db).notifications m).map (·.job) |>.filter
    fun job => !(db.notifications m).any fun r => r.job = job

/-- A database with a record of what was muted when it was sent. -/
structure Watched where
  db : Db
  muted : List PushJob

def Watched.next (w : Watched) (db : Db) : Watched :=
  ⟨db, w.muted ++ (db.messages.filter fun m => !w.db.hasMessage m.id).flatMap db.mutedBy⟩

def PushCall.exec (host : Host) (call : PushCall) (w : Watched) : Watched :=
  w.next ((call.body host).commit w.db).2

inductive PushStep (host : Host) (w : Watched) : PushCall → Watched → Prop
  | call (call : PushCall) : PushStep host w call (call.exec host w)

def NotificationPreferences.allows (value : NotificationPreferences) (u : UserId)
    (kind : NotificationKind) : Bool :=
  value.mode = .instant &&
    kind.wanted ⟨u, value.mode, value.directMessages, value.mentions, value.weeklyWeekday⟩

/-- New preferences of a person with a device allow nothing that was not allowed before, and a
restart finds all cursors past the deleted messages. -/
def Careful (w : Watched) : PushCall → Prop
  | .savePreferences u value => (∃ s ∈ w.db.pushSubscriptions, s.userId = u) → ∀ kind,
      value.allows u kind = true → w.db.wantsInstant u kind.wanted = true
  | .backfill _ => ∀ m ∈ w.db.messages, m.deletedAt ≠ none → ∀ s ∈ w.db.pushSubscriptions,
      s.userId ≠ m.senderId → ∀ kind : NotificationKind, m.id.uuid ≤ (kind.cursor s).uuid
  | _ => True

/-! ### Selecting again selects no more -/

/-- All but the text and the times of a message. -/
structure SameMessage (x y : ChatMessage) : Prop where
  id : x.id = y.id
  channel : x.channelId = y.channelId
  parent : x.parentMessageId = y.parentMessageId
  sender : x.senderId = y.senderId
  sequence : x.sequence = y.sequence

structure Newcomer (db : Db) (x : ChatMessage) : Prop where
  fresh : ∀ r ∈ db.messages, r.id ≠ x.id
  rooted : Rooted db.messages x
  later : ∀ r ∈ db.messages, r.channelId = x.channelId → r.sequence < x.sequence

/-- The messages stay, and nobody gets a reason to hear of them. -/
structure Narrowed (db db' : Db) : Prop where
  flat : Flat db.ledger → Flat db'.ledger
  kept : ∀ m ∈ db.messages, ∃ x ∈ db'.messages, x.id = m.id
  devices : ∀ s ∈ db'.pushSubscriptions,
    (∃ t ∈ db.pushSubscriptions, t.id = s.id ∧ t.userId = s.userId ∧
      ∀ kind : NotificationKind, kind.cursor t = kind.cursor s) ∨
    ∀ m ∈ db.messages, ∀ kind : NotificationKind, m.id.uuid ≤ (kind.cursor s).uuid
  wants : ∀ t ∈ db.pushSubscriptions, ∀ kind : NotificationKind,
    db'.wantsInstant t.userId kind.wanted = true → db.wantsInstant t.userId kind.wanted = true
  mentions : ∀ r ∈ db'.messageMentions, r ∈ db.messageMentions ∨
    ∀ m ∈ db.messages, m.id ≠ r.messageId
  follows : ∀ c ∈ db'.channelNotificationSubscriptions,
    c ∈ db.channelNotificationSubscriptions ∨
      ∀ m ∈ db.messages, m.id.uuid ≤ c.notificationAfterMessageId.uuid
  messages : ∀ x ∈ db'.messages, (∃ y ∈ db.messages, SameMessage y x) ∨ Newcomer db x
  directs : db'.directConversations = db.directConversations
  groups : db'.directGroupConversations = db.directGroupConversations
  members : db'.channelMemberships = db.channelMemberships
  people : db'.users = db.users

section

variable {α : Type} {host : Host} {db db' : Db} {m x : ChatMessage} {r : NotificationOutboxRow}
  {u : UserId} {command : SendMessage} {env : SendEnv} {t : Sql α} {a : Unit} {w : Watched}

theorem SameMessage.refl (m : ChatMessage) : SameMessage m m := ⟨rfl, rfl, rfl, rfl, rfl⟩

theorem Narrowed.refl (db : Db) : Narrowed db db where
  flat := id
  kept m hm := ⟨m, hm, rfl⟩
  devices s hs := .inl ⟨s, hs, rfl, rfl, fun _ => rfl⟩
  wants _ _ _ h := h
  mentions _ hr := .inl hr
  follows _ hc := .inl hc
  messages x hx := .inl ⟨x, hx, .refl x⟩
  directs := rfl
  groups := rfl
  members := rfl
  people := rfl

theorem Narrowed.inThread (h : Narrowed db db') (hflat : Flat db.ledger) (hm : m ∈ db.messages)
    (hsame : SameMessage m x) (hthread : db'.InThread x u) : db.InThread m u := by
  obtain ⟨r, hr, hsender, hplace⟩ := hthread
  rw [← hsame.parent, ← hsame.sequence] at hplace
  rcases h.messages r hr with ⟨y, hy, hyr⟩ | hnew
  · rw [← hyr.id, ← hyr.parent, ← hyr.sequence] at hplace
    exact ⟨y, hy, hyr.sender.trans hsender, hplace⟩
  · -- a new message is neither the root nor an earlier reply
    exfalso
    rcases hplace with hroot | ⟨hsome, hparent, hlt⟩
    · obtain ⟨p, hp, hid, -⟩ := hflat.threaded m hm r.id hroot
      exact hnew.fresh p hp hid
    · obtain ⟨root, hroot⟩ := Option.isSome_iff_exists.1 hsome
      obtain ⟨p, hp, hid, hchannel, -⟩ := hflat.threaded m hm root (hparent ▸ hroot)
      obtain ⟨q, hq, hqid, hqchannel, -⟩ := hnew.rooted root hroot
      obtain rfl := Table.eq_of_key_eq hflat.unique hp hq (hid.trans hqid.symm)
      have hlater := hnew.later m hm (hchannel.symm.trans hqchannel)
      omega

theorem Narrowed.asked (h : Narrowed db db') (hflat : Flat db.ledger) (hm : m ∈ db.messages)
    (hsame : SameMessage m x) {kind : NotificationKind}
    (hasked : db'.Asked x u kind) : db.Asked m u kind := by
  have hmember : db'.inChannel x.channelId u = db.inChannel m.channelId u := by
    rw [Db.inChannel, Db.inChannel, h.members, hsame.channel]
  cases kind with
  | mention =>
    obtain ⟨hmention, hother⟩ := hasked
    rw [← hsame.id] at hmention
    rw [← hsame.sender] at hother
    exact ⟨(h.mentions _ hmention).resolve_right fun hnone => hnone m hm rfl, hother⟩
  | directMessage =>
    rcases hasked with ⟨d, hd, hchannel, hother⟩ | ⟨⟨⟨g, hg, hchannel⟩, hhuman⟩, hin, hother⟩
    · rw [h.directs] at hd
      refine .inl ⟨d, hd, hchannel.trans hsame.channel.symm, ?_⟩
      rw [← hother, Db.otherParty, Db.otherParty, hsame.sender]
    · rw [h.groups] at hg
      rw [Db.isHuman, h.people] at hhuman
      exact .inr ⟨⟨⟨g, hg, hchannel.trans hsame.channel.symm⟩, hhuman⟩, hmember ▸ hin,
        hsame.sender ▸ hother⟩
  | threadReply =>
    obtain ⟨hthread, hin, hother⟩ := hasked
    exact ⟨h.inThread hflat hm hsame hthread, hmember ▸ hin, hsame.sender ▸ hother⟩
  | channelMessage =>
    obtain ⟨⟨c, hc, hchannel, hwho, hafter⟩, hin, hother⟩ := hasked
    rw [← hsame.id] at hafter
    have hold := (h.follows c hc).resolve_right fun hpast =>
      absurd hafter (BitVec.not_lt.2 (hpast m hm))
    exact ⟨⟨c, hold, hchannel.trans hsame.channel.symm, hwho, hafter⟩, hmember ▸ hin,
      hsame.sender ▸ hother⟩

theorem Narrowed.notifications (h : Narrowed db db') (hflat : Flat db.ledger)
    (hm : m ∈ db.messages) (hx : x ∈ db'.messages) (hid : x.id = m.id)
    (hr : r ∈ db'.notifications x) : ∃ r₀ ∈ db.notifications m, r₀.job = r.job := by
  have hsame : SameMessage m x := by
    rcases h.messages x hx with ⟨y, hy, hyx⟩ | hnew
    · obtain rfl := Table.eq_of_key_eq hflat.unique hy hm (hyx.id.trans hid)
      exact hyx
    · exact absurd hid.symm (hnew.fresh m hm)
  obtain ⟨s, hs, kind, rfl, hwants, hdue, hasked⟩ := mem_notifications_iff.1 hr
  rw [← hsame.id] at hdue
  rcases h.devices s hs with ⟨t, ht, htid, hwho, hcursor⟩ | hpast
  · rw [← hwho] at hwants hasked
    refine ⟨t.notification m.id kind, mem_notifications_iff.2 ⟨t, ht, kind, rfl,
      h.wants t ht kind hwants, hcursor kind ▸ hdue, h.asked hflat hm hsame hasked⟩, ?_⟩
    rw [NotificationOutboxRow.job, NotificationOutboxRow.job, PushSubscriptionRow.notification,
      PushSubscriptionRow.notification, htid, hid]
  · exact absurd hdue (BitVec.not_lt.2 (hpast m hm kind))

/-! ### What the calls do -/

theorem Posted.newcomer (h : Posted db m db') (hflat : Flat db.ledger) : Newcomer db m :=
  ⟨h.fresh, h.rooted, fun _ hr hchannel => hflat.number_ahead h.sequence hr hchannel⟩

theorem Appended.narrowed (h : Appended host command env db m db') (hflat : Flat db.ledger) :
    Narrowed db db' := by
  have hmessages : ∀ x ∈ db'.messages, (∃ y ∈ db.messages, SameMessage y x) ∨ Newcomer db x := by
    intro x hx
    rw [h.toPosted.messages] at hx
    rcases mem_append.1 hx with hx | hx
    · exact .inl ⟨x, hx, .refl x⟩
    · rw [mem_singleton.1 hx]
      exact .inr (h.toPosted.newcomer hflat)
  have hmentions : ∀ r ∈ db'.messageMentions, r ∈ db.messageMentions ∨
      ∀ m ∈ db.messages, m.id ≠ r.messageId := by
    intro r hr
    by_cases hid : r.messageId = m.id
    · exact .inr fun x hx => hid ▸ h.fresh x hx
    · exact .inl (h.mentions r hr hid)
  have hkept : ∀ x ∈ db.messages, ∃ y ∈ db'.messages, y.id = x.id := by
    intro x hx
    rw [h.toPosted.messages]
    exact ⟨x, mem_append_left _ hx, rfl⟩
  have hflat' := flat_upheld.posted hflat h.toPosted (by rw [h.rest]; rfl)
  rw [h.rest] at hmessages hmentions hkept hflat' ⊢
  exact { Narrowed.refl db with
    flat := fun _ => hflat', kept := hkept, messages := hmessages, mentions := hmentions }

/-- Calls that write none of the tables that are selected from. -/
def Db.selection (db : Db) := (db.ledger, db.pushSubscriptions, db.notificationPreferences,
  db.messageMentions, db.channelNotificationSubscriptions, db.directConversations,
  db.directGroupConversations, db.channelMemberships, db.users)

theorem narrowed_of_selection (h : db'.selection = db.selection) : Narrowed db db' := by
  simp only [Db.selection, Prod.mk.injEq] at h
  obtain ⟨hledger, hdevices, hpreferences, hmentions, hfollows, hdirects, hgroups, hmembers,
    hpeople⟩ := h
  have hmessages : db'.messages = db.messages := congrArg (·.2.2) hledger
  exact {
    flat := fun hflat => hledger ▸ hflat
    kept := fun m hm => ⟨m, hmessages ▸ hm, rfl⟩
    devices := fun s hs => .inl ⟨s, hdevices ▸ hs, rfl, rfl, fun _ => rfl⟩
    wants := fun t _ kind hwants => by
      rw [Db.wantsInstant, hpreferences] at hwants
      exact hwants
    mentions := fun r hr => .inl (hmentions ▸ hr)
    follows := fun c hc => .inl (hfollows ▸ hc)
    messages := fun x hx => .inl ⟨x, hmessages ▸ hx, .refl x⟩
    directs := hdirects
    groups := hgroups
    members := hmembers
    people := hpeople }

theorem Narrowed.of_frame (h : Frame Db.selection t) (db : Db) : Narrowed db (t.commit db).2 := by
  rcases commit_cases t db with ⟨a, db', hr, hc⟩ | ⟨e, -, hc⟩
  · rw [hc]
    exact narrowed_of_selection (h hr)
  · rw [hc]
    exact .refl db

theorem Narrowed.of_commit (h : ∀ a db', t.run db = .ok (a, db') → Narrowed db db') : Narrowed db
    (t.commit db).2 := by
  rcases commit_cases t db with ⟨a, db', hr, hc⟩ | ⟨e, -, hc⟩
  · rw [hc]
    exact h a db' hr
  · rw [hc]
    exact .refl db

theorem Narrowed.of_answer (h : ∀ a db', t.run db = .ok (a, db') → Narrowed db db') :
    Narrowed db ((t >>= fun _ => pure ()).commit db).2 := by
  refine .of_commit fun _ db' hr => ?_
  obtain ⟨a, ht, -⟩ := bind_pure_ok.1 hr
  exact h a _ ht

theorem appendMessage_narrowed (hflat : Flat db.ledger)
    (h : (appendMessage host command env).run db = .ok (m, db')) : Narrowed db db' :=
  (appendMessage_ok h).narrowed hflat

theorem appendMessageIdempotent_narrowed (hflat : Flat db.ledger) {requestId : String}
    (h : (appendMessageIdempotent host command requestId env).run db = .ok (m, db')) :
    Narrowed db db' := by
  rcases (appendMessageIdempotent_ok h).2 with ⟨-, db₁, happend, rfl⟩ | ⟨rfl, -⟩
  · have hn := happend.narrowed hflat
    refine ⟨hn.flat, hn.kept, hn.devices, hn.wants, hn.mentions, hn.follows, fun x hx => ?_,
      hn.directs, hn.groups,
      hn.members, hn.people⟩
    exact (hn.messages x hx).imp_right fun hnew => ⟨hnew.fresh, hnew.rooted, hnew.later⟩
  · exact .refl db'

theorem deleteMessage_narrowed {command : DeleteMessage} {now : Time}
    (h : (deleteMessage command now).run db = .ok (m, db')) : Narrowed db db' := by
  obtain ⟨row, hrewritten, -, -, rfl⟩ := deleteMessage_ok h
  exact { Narrowed.refl db with
    flat := fun hflat => flat_upheld.rewritten hflat hrewritten
    kept := fun x hx => by
      refine ⟨_, mem_map_of_mem hx, Table.key_set (·.id) m x⟩
    messages := fun x hx => by
      rcases Table.mem_set hx with rfl | ⟨hx, -⟩
      · refine .inl ⟨row, hrewritten.found, ?_⟩
        rw [hrewritten.same]
        exact ⟨rfl, rfl, rfl, rfl, rfl⟩
      · exact .inl ⟨x, hx, .refl x⟩
    mentions := fun r hr => .inl (mem_filter.1 hr).1 }

theorem find?_setPreferences (u v : UserId) (value : NotificationPreferences)
    (rows : List NotificationPreferenceRow) :
    ((setPreferences u value rows).find? fun p => p.userId = v) =
      if v = u then
        some ⟨u, value.mode, value.directMessages, value.mentions, value.weeklyWeekday⟩
      else rows.find? fun p => p.userId = v := by
  by_cases hany : (rows.any fun p => p.userId = u) = true
  · rw [setPreferences, if_pos hany, Table.find?_map_same fun r => by
      by_cases hr : r.userId = u
      · rw [if_pos hr, hr]
      · rw [if_neg hr]]
    by_cases hv : v = u
    · subst hv
      obtain ⟨r, hfind⟩ := Option.isSome_iff_exists.1 (find?_isSome.2 (any_eq_true.1 hany))
      have hr : r.userId = v := by simpa using find?_some hfind
      rw [hfind, if_pos rfl, Option.map_some, if_pos hr]
    · rw [if_neg hv]
      cases hfind : rows.find? fun p => p.userId = v with
      | none => rfl
      | some r =>
        have hr : r.userId = v := by simpa using find?_some hfind
        rw [Option.map_some, if_neg (hr ▸ hv)]
  · rw [setPreferences, if_neg hany, find?_append]
    by_cases hv : v = u
    · subst hv
      have hnone : rows.find? (fun p => p.userId = v) = none :=
        find?_eq_none.2 (any_eq_false.1 (Bool.eq_false_iff.2 hany))
      rw [hnone, if_pos rfl]
      simp
    · rw [if_neg hv, find?_singleton, if_neg (by simpa using Ne.symm hv), Option.or_none]

theorem savePreferences_narrowed {value answer : NotificationPreferences}
    (hallowed : (∃ s ∈ db.pushSubscriptions, s.userId = u) → ∀ kind,
      value.allows u kind = true → db.wantsInstant u kind.wanted = true)
    (h : (savePreferences u value).run db = .ok (answer, db')) : Narrowed db db' := by
  simp only [savePreferences, Sql.answers, answers] at h
  obtain ⟨-, -, -, -, rfl⟩ := h
  refine { Narrowed.refl db with wants := fun t ht kind hwants => ?_ }
  rw [Db.wantsInstant, find?_setPreferences] at hwants
  by_cases hu : t.userId = u
  · rw [if_pos hu] at hwants
    rw [hu]
    exact hallowed ⟨t, ht, hu⟩ kind hwants
  · rw [if_neg hu] at hwants
    exact hwants

theorem subscribe_narrowed {input : PushSubscriptionInput}
    {userAgent : Option String} {id : Uuid} {validated : Except RepositoryError Unit}
    (h : (subscribe u input userAgent id validated).run db = .ok (a, db')) : Narrowed db db' := by
  simp only [subscribe, answers] at h
  obtain ⟨_, -, n, _, hdevice, -, rfl⟩ := h
  split at hdevice
  · simp only [renewKeys, answers] at hdevice
    obtain ⟨-, rfl⟩ := hdevice
    refine { Narrowed.refl db with devices := fun s hs => ?_ }
    obtain ⟨t, ht, rfl⟩ := mem_map.1 hs
    refine .inl ⟨t, ht, ?_⟩
    split
    · exact ⟨rfl, rfl, fun kind => by cases kind <;> rfl⟩
    · exact ⟨rfl, rfl, fun _ => rfl⟩
  · simp only [insertSubscription, Sql.answers, answers] at hdevice
    obtain ⟨-, -, -, rfl⟩ := hdevice
    refine { Narrowed.refl db with devices := fun s hs => ?_ }
    rcases mem_append.1 hs with hs | hs
    · exact .inl ⟨s, hs, rfl, rfl, fun _ => rfl⟩
    · rw [mem_singleton.1 hs]
      exact .inr fun m hm kind => by cases kind <;> exact le_newestMessage hm

theorem removeSubscriptions_narrowed {gone : PushSubscriptionRow → Bool} :
    Narrowed db (db.removeSubscriptions gone) :=
  { Narrowed.refl db with
    devices := fun s hs => .inl ⟨s, (mem_filter.1 hs).1, rfl, rfl, fun _ => rfl⟩ }

theorem setChannelSubscription_narrowed {c : ChannelId} {enabled : Bool}
    (h : (setChannelSubscription u c enabled).run db = .ok (a, db')) : Narrowed db db' := by
  cases enabled with
  | true =>
    simp only [setChannelSubscription, if_true, answers] at h
    obtain ⟨-, hdb⟩ := h
    split at hdb
    · subst hdb
      refine { Narrowed.refl db with follows := fun r hr => ?_ }
      rcases mem_append.1 hr with hr | hr
      · exact .inl hr
      · rw [mem_singleton.1 hr]
        exact .inr fun m hm => le_newestMessage hm
    · exact hdb ▸ .refl db
  | false =>
    simp only [setChannelSubscription, Bool.false_eq_true, if_false, write_ok] at h
    subst h
    exact { Narrowed.refl db with follows := fun r hr => .inl (mem_filter.1 hr).1 }

theorem updateJob_frame {job : PushJob} {f : NotificationOutboxRow → NotificationOutboxRow} :
    Frame Db.selection (updateJob job f) :=
  .write fun _ => rfl

variable {call : PushCall}

theorem PushCall.narrowed (call : PushCall) (hflat : Flat w.db.ledger)
    (hcareful : Careful w call) : Narrowed w.db ((call.body host).commit w.db).2 := by
  cases call with
  | send command env => exact .of_answer fun _ _ h => appendMessage_narrowed hflat h
  | sendIdempotent command requestId env =>
    exact .of_answer fun _ _ h => appendMessageIdempotent_narrowed hflat h
  | delete command now => exact .of_answer fun _ _ h => deleteMessage_narrowed h
  | savePreferences u value =>
    exact .of_answer fun _ _ h => savePreferences_narrowed hcareful h
  | subscribe u input userAgent id validated =>
    exact .of_commit fun _ _ h => subscribe_narrowed h
  | unsubscribe u endpoint => exact removeSubscriptions_narrowed
  | setChannelSubscription u c enabled =>
    exact .of_commit fun _ _ h => setChannelSubscription_narrowed h
  | lease job now =>
    have hlease : Frame Db.selection (leaseJob job now) :=
      .look fun _ => .bind (updateJob_frame) fun _ => .pure
    exact .of_answer fun _ _ h => narrowed_of_selection (hlease h)
  | complete job now outcome =>
    cases outcome with
    | delivered => exact .of_frame (updateJob_frame) _
    | expired => exact removeSubscriptions_narrowed
    | retry error => exact .of_frame (updateJob_frame) _
  | backfill insert =>
    have hinsert : Frame Db.selection (backfillInsert insert) := .write fun _ => rfl
    exact .of_frame hinsert _

/-! ### Runs -/

/-- What is kept along a run: what was muted is not selected. -/
structure Watchful (w : Watched) : Prop where
  flat : Flat w.db.ledger
  pairs : ∀ d ∈ w.db.directConversations, d.userA ≠ d.userB
  known : ∀ job ∈ w.muted, ∃ m ∈ w.db.messages, m.id = job.messageId
  quiet : ∀ job ∈ w.muted, ∀ m ∈ w.db.messages, m.id = job.messageId →
    ∀ r ∈ w.db.notifications m, r.job ≠ job

theorem mem_mutedBy {job : PushJob} (h : job ∈ db.mutedBy m) :
    job.messageId = m.id ∧ ∀ r ∈ db.notifications m, r.job ≠ job := by
  obtain ⟨hmem, hnone⟩ := mem_filter.1 h
  obtain ⟨r, hr, rfl⟩ := mem_map.1 hmem
  refine ⟨notifications_messageId hr, fun x hx heq => ?_⟩
  rw [Bool.not_eq_true', any_eq_false] at hnone
  exact hnone x hx (decide_eq_true heq)

theorem Watchful.step {w' : Watched} (h : Watchful w)
    (hstep : Guarded Careful (PushStep host) w call w') : Watchful w' := by
  obtain ⟨hcareful, ⟨⟩⟩ := hstep
  have hn : Narrowed w.db ((call.body host).commit w.db).2 := call.narrowed h.flat hcareful
  have hflat := hn.flat h.flat
  -- what is muted now was muted before, or is a new message's
  have hmuted : ∀ job ∈ (call.exec host w).muted, job ∈ w.muted ∨
      ∃ m ∈ (call.exec host w).db.messages, job ∈ (call.exec host w).db.mutedBy m := by
    intro job hjob
    rcases mem_append.1 hjob with hjob | hjob
    · exact .inl hjob
    · obtain ⟨m, hm, hjob⟩ := mem_flatMap.1 hjob
      exact .inr ⟨m, (mem_filter.1 hm).1, hjob⟩
  refine ⟨hflat, hn.directs ▸ h.pairs, fun job hjob => ?_, fun job hjob x hx hid r hr => ?_⟩
  · rcases hmuted job hjob with hold | ⟨m, hm, hnew⟩
    · obtain ⟨m, hm, hid⟩ := h.known job hold
      obtain ⟨x, hx, hxid⟩ := hn.kept m hm
      exact ⟨x, hx, hxid.trans hid⟩
    · exact ⟨m, hm, (mem_mutedBy hnew).1.symm⟩
  · rcases hmuted job hjob with hold | ⟨m, hm, hnew⟩
    · obtain ⟨m, hm, hmid⟩ := h.known job hold
      obtain ⟨r₀, hr₀, heq⟩ := hn.notifications h.flat hm hx (hid.trans hmid.symm) hr
      exact heq ▸ h.quiet job hold m hm hmid r₀ hr₀
    · obtain ⟨hjobid, hnone⟩ := mem_mutedBy hnew
      obtain rfl := Table.eq_of_key_eq hflat.unique hx hm (hid.trans hjobid)
      exact hnone r hr

/-- In a run where no preference comes to allow more, a restart that finds the cursors past the
deleted messages adds no notification of a deleted message, and none that was muted when the
message was sent. -/
theorem backfill_is_conservative {trace : List PushCall} {w : Watched}
    (hflat : Flat db.ledger) (hpairs : ∀ d ∈ db.directConversations, d.userA ≠ d.userB)
    (h : Run (Guarded Careful (PushStep host)) ⟨db, []⟩ trace w) (insert : NotificationInsert)
    (hcareful : Careful w (.backfill insert)) :
    ∀ r ∈ ((PushCall.backfill insert).exec host w).db.notificationOutbox,
      r ∉ w.db.notificationOutbox →
        (∀ m ∈ w.db.messages, m.id = r.messageId → m.deletedAt = none) ∧ r.job ∉ w.muted := by
  have hw : Watchful w := h.invariant (fun _ _ _ hw hstep => hw.step hstep)
    ⟨hflat, hpairs, fun job hjob => absurd hjob not_mem_nil,
      fun job hjob => absurd hjob not_mem_nil⟩
  intro r hr hnew
  obtain ⟨x, hx, hselected⟩ :=
    mem_flatMap.1 ((mem_addToOutbox hr).resolve_left hnew)
  have hmem := mem_notifications.2 ⟨insert, hselected⟩
  obtain ⟨s, hs, kind, rfl, hselects⟩ := mem_notifications_iff.1 hmem
  refine ⟨fun m hm hid => ?_, fun hmuted => hw.quiet _ hmuted x hx rfl _ hmem rfl⟩
  obtain rfl := Table.eq_of_key_eq hw.flat.unique hm hx hid
  by_contra hdeleted
  have hother : s.userId ≠ m.senderId := by
    have hasked := hselects.asked
    cases kind with
    | mention => exact hasked.2
    | directMessage =>
      rcases hasked with hother | ⟨-, -, hne⟩
      · exact otherParty_ne_sender hw.pairs hother
      · exact hne
    | threadReply | channelMessage => exact hasked.2.2
  exact absurd hselects.due (BitVec.not_lt.2 (hcareful m hm hdeleted s hs hother kind))

end

namespace Sample

def watch (calls : List PushCall) : Watched :=
  calls.foldl (fun w call => call.exec host w) ⟨withPhone inTouch, []⟩

def noteId : MessageId := ⟨0x01900000000070008000000000000001⟩

def write : PushCall :=
  .send ⟨bob, ⟨9⟩, none, hello⟩ { SendEnv.quiet 1 0 with id := noteId }

def setMode (mode : NotificationMode) : PushCall := .savePreferences alice ⟨mode, true, true, 1⟩

def noteJob : PushJob := ⟨30, noteId⟩

variable {calls : List PushCall}

theorem watch_append : watch (calls ++ [call]) = call.exec host (watch calls) := by
  rw [watch, foldl_append]
  rfl

theorem run_watch : Run (PushStep host) ⟨withPhone inTouch, []⟩ calls (watch calls) := by
  induction calls using List.reverseRecOn with
  | nil => exact .refl
  | append_singleton calls call ih =>
    rw [watch_append]
    exact .step ih (.call call)

theorem withPhone_flat {calls : List RollCall} : Flat (withPhone calls).ledger := by
  have hcalls : ∀ (calls : List RollCall) (db : Db), Flat db.ledger →
      Flat (execAll host calls db).ledger := by
    intro calls
    induction calls with
    | nil => exact fun db h => h
    | cons call calls ih => exact fun db h => ih _ (upheld_of_rollCall flat_upheld call h)
  exact (Narrowed.of_commit fun _ _ h => subscribe_narrowed h).flat (hcalls calls .empty flat_nil)

end Sample

open Sample in
/-- What Alice muted stays muted. -/
theorem muted_note_stays_muted :
    noteJob ∈ (watch [setMode .muted, write]).muted ∧
      ∀ r ∈ ((PushCall.backfill .direct).exec host
        (watch [setMode .muted, write])).db.notificationOutbox, r.job ≠ noteJob := by
  have hmuted : (watch [setMode .muted, write]).muted = [noteJob] := by decide +kernel
  have hempty : (watch [setMode .muted, write]).db.notificationOutbox = [] := by decide +kernel
  have hlive : (watch [setMode .muted, write]).db.messages.map (·.deletedAt) = [none] := by
    decide +kernel
  have hrun : Run (Guarded Careful (PushStep host)) ⟨withPhone inTouch, []⟩
      [setMode .muted, write] (watch [setMode .muted, write]) :=
    .cons ⟨fun _ kind hallows => absurd hallows (by cases kind <;> decide), .call _⟩
      (.single ⟨trivial, .call _⟩)
  have hpairs : ∀ d ∈ (withPhone inTouch).directConversations, d.userA ≠ d.userB := by
    intro d hd
    rw [mem_singleton.1 hd]
    decide
  rw [hmuted]
  refine ⟨mem_singleton_self _, fun r hr heq => ?_⟩
  refine (backfill_is_conservative (withPhone_flat) hpairs hrun .direct ?_ r hr ?_).2 ?_
  · intro m hm hdeleted
    have hnone := mem_map_of_mem (f := (·.deletedAt)) hm
    rw [hlive, mem_singleton] at hnone
    exact absurd hnone hdeleted
  · rw [hempty]
    exact not_mem_nil
  · rw [hmuted, heq]
    exact mem_singleton_self _

open Sample in
/-- A restart notifies of a message that was deleted, and of one that was muted when it came. -/
theorem backfill_revives_notifications :
    (∃ w, Run (PushStep host) ⟨withPhone inTouch, []⟩ [write, .delete ⟨bob, noteId⟩ 5] w ∧
      w.db.notificationOutbox = [] ∧ w.db.messages.map (·.deletedAt) = [some 5] ∧
      ((PushCall.backfill .direct).exec host w).db.notificationOutbox.map (·.job) = [noteJob]) ∧
    ∃ w, Run (PushStep host) ⟨withPhone inTouch, []⟩
        [setMode .muted, write, setMode .instant] w ∧
      w.db.notificationOutbox = [] ∧ w.muted = [noteJob] ∧
      ((PushCall.backfill .direct).exec host w).db.notificationOutbox.map (·.job) = [noteJob] :=
  ⟨⟨_, run_watch, by decide +kernel, by decide +kernel, by decide +kernel⟩,
    _, run_watch, by decide +kernel, by decide +kernel, by decide +kernel⟩

end Sproyt
