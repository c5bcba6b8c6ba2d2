import Sproyt.Chat.Actor
import Sproyt.Db.Threads
import Sproyt.Lib.Marks

/-!
# Read markers

Members mark a channel as read up to a number, and a thread up to a reply. Marking a channel
takes two statements, between which messages are sent and others mark. Markers never fall, they
stay behind the messages, and the unread replies of a thread are those beyond its marker.
-/

namespace Sproyt

open List Txn

/-! ### mark_read -/

structure MarkRead where
  actor : UserId
  channelId : ChannelId
  sequence : Nat

/-- The first statement of `mark_read`, and the check of the number. -/
def checkRead (command : MarkRead) (db : Db) : Except RepositoryError Unit := do
  let requested ← signedSequence command.sequence
  if db.latestSequence command.channelId < requested then .error .notFound else .ok ()

def seatMarks : Marks MembershipRow where
  mark := (·.lastReadSequence)
  set r n := { r with lastReadSequence := n }
  mark_set _ _ := rfl

def isSeat (c : ChannelId) (u : UserId) (r : MembershipRow) : Bool :=
  r.channelId = c ∧ r.userId = u

/-- The second statement of `mark_read`. It answers with the membership, which is read again. -/
def updateRead (command : MarkRead) : Sql Unit := do
  let present ← Txn.read fun db => db.inChannel command.channelId command.actor
  Txn.write fun db => { db with
    channelMemberships := seatMarks.raise (isSeat command.channelId command.actor)
      command.sequence db.channelMemberships }
  Txn.ensure (present = true) .permissionDenied

def Db.lastRead? (db : Db) (c : ChannelId) (u : UserId) : Option Nat :=
  seatMarks.lookup (isSeat c u) db.channelMemberships

/-! ### mark_thread_read -/

def threadMarks : Marks ThreadReadMarkerRow where
  mark := (·.lastReadSequence)
  set r n := { r with lastReadSequence := n }
  mark_set _ _ := rfl

def isMarker (root : MessageId) (u : UserId) (r : ThreadReadMarkerRow) : Bool :=
  r.rootMessageId = root ∧ r.userId = u

def Db.repliesTo (db : Db) (root : MessageId) : List ChatMessage :=
  Grouping.group (·.parentMessageId) root db.messages

/-- `select max(reply.sequence) from messages root join … left join messages reply …`. -/
def Db.latestReply? (db : Db) (actor : UserId) (root : MessageId) : Option Nat :=
  if db.seesRoot actor root then ((db.repliesTo root).map (·.sequence)).max? else none

/-- `insert into thread_read_markers … on conflict(root_message_id, user_id) do update`. -/
def Sql.upsertMarker (row : ThreadReadMarkerRow) : Sql Unit :=
  Sql.insert (fun _ => false) (fun db => db.hasMessage row.rootMessageId && db.hasUser row.userId)
    fun db => { db with
      threadReadMarkers := threadMarks.upsert (isMarker row.rootMessageId row.userId) row
        db.threadReadMarkers }

def markThreadRead (actor : UserId) (root : MessageId) (sequence : Nat) : Sql ThreadSummary := do
  let latest ← Txn.read fun db => db.latestReply? actor root
  let latest ← Txn.demand latest .notFound
  let requested ← Txn.ofExcept (signedSequence sequence)
  Txn.ensure (requested ≤ latest) .notFound
  Sql.upsertMarker ⟨root, actor, requested⟩
  let summary ← Txn.read fun db =>
    threadSummary actor (db.threadMarker root actor) root (db.repliesTo root)
  Txn.ofExcept summary

/-! ### Calls that run together -/

structure Readers where
  db : Db
  checked : List MarkRead

inductive ReadCall
  | append (command : SendMessage) (env : SendEnv)
  | appendIdempotent (command : SendMessage) (requestId : String) (env : SendEnv)
  | check (command : MarkRead)
  | update (command : MarkRead)
  | markThread (actor : UserId) (root : MessageId) (sequence : Nat)

inductive ReadStep (host : Host) : Readers → ReadCall → Readers → Prop
  | append {db : Db} {checked : List MarkRead} (command : SendMessage) (env : SendEnv) :
      ReadStep host ⟨db, checked⟩ (.append command env)
        ⟨((appendMessage host command env).commit db).2, checked⟩
  | appendIdempotent {db : Db} {checked : List MarkRead} (command : SendMessage)
      (requestId : String) (env : SendEnv) :
      ReadStep host ⟨db, checked⟩ (.appendIdempotent command requestId env)
        ⟨((appendMessageIdempotent host command requestId env).commit db).2, checked⟩
  | passed {db : Db} {checked : List MarkRead} (command : MarkRead)
      (h : checkRead command db = .ok ()) :
      ReadStep host ⟨db, checked⟩ (.check command) ⟨db, command :: checked⟩
  | refused {db : Db} {checked : List MarkRead} (command : MarkRead) (e : RepositoryError)
      (h : checkRead command db = .error e) :
      ReadStep host ⟨db, checked⟩ (.check command) ⟨db, checked⟩
  | update {db : Db} {before after : List MarkRead} (command : MarkRead) :
      ReadStep host ⟨db, before ++ command :: after⟩ (.update command)
        ⟨((updateRead command).commit db).2, before ++ after⟩
  | markThread {db : Db} {checked : List MarkRead} (actor : UserId) (root : MessageId)
      (sequence : Nat) :
      ReadStep host ⟨db, checked⟩ (.markThread actor root sequence)
        ⟨((markThreadRead actor root sequence).commit db).2, checked⟩

section

variable {host : Host} {db db' : Db} {m : ChatMessage} {c : ChannelId} {u actor : UserId}
  {root : MessageId} {sequence n : Nat} {summary : ThreadSummary} {command : MarkRead}

theorem seat_blind : seatMarks.Blind (isSeat c u) := fun _ _ => rfl

theorem marker_blind (root : MessageId) (u : UserId) : threadMarks.Blind (isMarker root u) :=
  fun _ _ => rfl

theorem threadMarker_eq (db : Db) (root : MessageId) (u : UserId) :
    db.threadMarker root u =
      (threadMarks.lookup (isMarker root u) db.threadReadMarkers).getD 0 := rfl

/-! ### The latest number -/

variable {replies : List ChatMessage}

theorem latestOf_le_iff : latestOf replies ≤ n ↔ ∀ m ∈ replies, m.sequence ≤ n := by
  rw [latestOf, Marks.foldl_max_le_iff, forall_mem_map]
  exact and_iff_right (Nat.zero_le n)

theorem le_latestOf (h : m ∈ replies) : m.sequence ≤ latestOf replies :=
  latestOf_le_iff.1 (Nat.le_refl _) m h

theorem latestOf_mono {replies more : List ChatMessage} (h : replies ⊆ more) :
    latestOf replies ≤ latestOf more :=
  latestOf_le_iff.2 fun _ hm => le_latestOf (h hm)

theorem latestSequence_mono (h : db.messages ⊆ db'.messages) :
    db.latestSequence c ≤ db'.latestSequence c :=
  latestOf_mono (filter_subset _ h)

theorem latestReply_mono (h : db.messages ⊆ db'.messages) :
    latestOf (db.repliesTo root) ≤ latestOf (db'.repliesTo root) :=
  latestOf_mono (filter_subset _ h)

/-! ### What each call does -/

theorem signedSequence_ok (h : signedSequence sequence = .ok n) : n = sequence := by
  rw [signedSequence] at h
  split at h
  · exact (Except.ok.inj h).symm
  · cases h

theorem checkRead_ok (h : checkRead command db = .ok ()) :
    command.sequence ≤ db.latestSequence command.channelId := by
  rw [checkRead] at h
  cases hsigned : signedSequence command.sequence with
  | error e =>
    rw [hsigned] at h
    cases h
  | ok n =>
    rw [hsigned, signedSequence_ok hsigned] at h
    by_contra hlt
    have hbeyond : (if db.latestSequence command.channelId < command.sequence then
        Except.error RepositoryError.notFound else Except.ok ()) = Except.ok () := h
    rw [if_pos (Nat.lt_of_not_le hlt)] at hbeyond
    cases hbeyond

theorem markThreadRead_ok (h : (markThreadRead actor root sequence).run db = .ok (summary, db')) :
    db.seesRoot actor root = true ∧
      (∃ m ∈ db.messages, m.parentMessageId = some root ∧ sequence ≤ m.sequence) ∧
      db' = { db with
        threadReadMarkers := threadMarks.upsert (isMarker root actor) ⟨root, actor, sequence⟩
          db.threadReadMarkers } := by
  simp only [markThreadRead, Sql.upsertMarker, ofExcept_ok, Sql.answers, answers] at h
  obtain ⟨latest, hlatest, requested, hsigned, hle, -, -, -, rfl⟩ := h
  rw [signedSequence_ok hsigned] at hle ⊢
  rw [Db.latestReply?] at hlatest
  split at hlatest
  · next hsees =>
    obtain ⟨m, hm, rfl⟩ := mem_map.1 (max?_mem hlatest)
    obtain ⟨hm, hp⟩ := Grouping.mem_group.1 hm
    exact ⟨hsees, ⟨m, hm, hp, hle⟩, rfl⟩
  · cases hlatest

inductive ReadChange (db : Db) : Db → Prop
  | same : ReadChange db db
  | sent {db' : Db} (m : ChatMessage) (hposted : Posted db m db')
      (hreadings : db'.readings = db.readings) (hlive : m.deletedAt = none) : ReadChange db db'
  | read (c : ChannelId) (u : UserId) (n : Nat) (hn : n ≤ db.latestSequence c) :
      ReadChange db { db with
        channelMemberships := seatMarks.raise (isSeat c u) n db.channelMemberships }
  | thread (root : MessageId) (u : UserId) (n : Nat) (hn : n ≤ latestOf (db.repliesTo root)) :
      ReadChange db { db with
        threadReadMarkers := threadMarks.upsert (isMarker root u) ⟨root, u, n⟩
          db.threadReadMarkers }

theorem Appended.change {command : SendMessage} {env : SendEnv}
    (h : Appended host command env db m db') : ReadChange db db' :=
  .sent m h.toPosted h.readings (by rw [h.message])

variable {env : SendEnv}

theorem appendMessage_change {command : SendMessage} :
    ReadChange db ((appendMessage host command env).commit db).2 :=
  commit_snd (P := ReadChange db) .same fun _ _ h => (appendMessage_ok h).change

theorem appendMessageIdempotent_change {command : SendMessage} {requestId : String} :
    ReadChange db ((appendMessageIdempotent host command requestId env).commit db).2 := by
  refine commit_snd (P := ReadChange db) .same fun m db' h => ?_
  rcases (appendMessageIdempotent_ok h).2 with ⟨-, db₁, happ, rfl⟩ | ⟨rfl, -⟩
  · exact .sent m (happ.toPosted.of_ledger rfl rfl) happ.readings (by rw [happ.message])
  · exact .same

theorem updateRead_change (h : command.sequence ≤ db.latestSequence command.channelId) :
    ReadChange db ((updateRead command).commit db).2 := by
  refine commit_snd (P := ReadChange db) .same fun _ db' hrun => ?_
  simp only [updateRead, answers] at hrun
  obtain ⟨-, rfl⟩ := hrun
  exact .read command.channelId command.actor command.sequence h

theorem markThreadRead_change :
    ReadChange db ((markThreadRead actor root sequence).commit db).2 := by
  refine commit_snd (P := ReadChange db) .same fun _ db' h => ?_
  obtain ⟨-, ⟨m, hm, hp, hle⟩, rfl⟩ := markThreadRead_ok h
  exact .thread root actor sequence (hle.trans (le_latestOf (Grouping.mem_group.2 ⟨hm, hp⟩)))

/-! ### What follows, call by call -/

structure Later (db db' : Db) : Prop where
  messages : db.messages ⊆ db'.messages
  live : ∀ m ∈ db'.messages, m ∈ db.messages ∨ m.deletedAt = none
  seats : ∀ c u n, db.lastRead? c u = some n → ∃ n', db'.lastRead? c u = some n' ∧ n ≤ n'
  threads : ∀ root u, db.threadMarker root u ≤ db'.threadMarker root u

theorem Later.refl (db : Db) : Later db db :=
  ⟨fun _ hm => hm, fun _ hm => .inl hm, fun _ _ n hn => ⟨n, hn, Nat.le_refl n⟩,
    fun _ _ => Nat.le_refl _⟩

theorem Later.trans {db₁ db₂ db₃ : Db} (h : Later db₁ db₂) (h' : Later db₂ db₃) :
    Later db₁ db₃ := by
  refine ⟨fun _ hm => h'.messages (h.messages hm), fun m hm => ?_, fun c u n hn => ?_,
    fun root u => (h.threads root u).trans (h'.threads root u)⟩
  · rcases h'.live m hm with hm | hlive
    · exact h.live m hm
    · exact .inr hlive
  · obtain ⟨n₂, hn₂, hle⟩ := h.seats c u n hn
    obtain ⟨n₃, hn₃, hle'⟩ := h'.seats c u n₂ hn₂
    exact ⟨n₃, hn₃, hle.trans hle'⟩

theorem ReadChange.later (h : ReadChange db db') : Later db db' := by
  cases h with
  | same => exact .refl db
  | sent m hposted hreadings hlive =>
    obtain ⟨hseats, hmarks⟩ := Prod.mk.inj hreadings
    refine ⟨?_, fun x hx => ?_, fun c u n hn => ⟨n, ?_, Nat.le_refl n⟩, fun root u => ?_⟩
    · rw [hposted.messages]
      exact subset_append_left _ _
    · rw [hposted.messages, mem_append, mem_singleton] at hx
      rcases hx with hx | rfl
      · exact .inl hx
      · exact .inr hlive
    · rw [Db.lastRead?, hseats]
      exact hn
    · rw [Db.threadMarker, Db.threadMarker, hmarks]
  | read c u n hn =>
    exact ⟨fun _ hm => hm, fun _ hm => .inl hm,
      fun c' u' v hv => Marks.lookup_raise_le (seat_blind) hv, fun _ _ => Nat.le_refl _⟩
  | thread root u n hn =>
    refine ⟨fun _ hm => hm, fun _ hm => .inl hm, fun _ _ v hv => ⟨v, hv, Nat.le_refl v⟩,
      fun root' u' => ?_⟩
    rw [threadMarker_eq, threadMarker_eq]
    cases hv : threadMarks.lookup (isMarker root' u') db.threadReadMarkers with
    | none => exact Nat.zero_le _
    | some v =>
      obtain ⟨v', hv', hle⟩ := Marks.lookup_upsert_le (marker_blind root' u') hv
      rw [hv', Option.getD_some, Option.getD_some]
      exact hle

structure Marked (db : Db) : Prop where
  flat : Flat db.ledger
  seats : ∀ r ∈ db.channelMemberships, r.lastReadSequence ≤ db.latestSequence r.channelId
  threads : ∀ r ∈ db.threadReadMarkers,
    r.lastReadSequence ≤ latestOf (db.repliesTo r.rootMessageId)

theorem ReadChange.marked (h : ReadChange db db') (hdb : Marked db) : Marked db' := by
  have hmessages := h.later.messages
  cases h with
  | same => exact hdb
  | sent m hposted hreadings hlive =>
    obtain ⟨hseats, hmarks⟩ := Prod.mk.inj hreadings
    refine ⟨flat_upheld.posted hdb.flat hposted hreadings, fun r hr => ?_, fun r hr => ?_⟩
    · rw [hseats] at hr
      exact (hdb.seats r hr).trans (latestSequence_mono hmessages)
    · rw [hmarks] at hr
      exact (hdb.threads r hr).trans (latestReply_mono hmessages)
  | read c u n hn =>
    refine ⟨hdb.flat, Marks.raise_within (fun _ _ => rfl) hdb.seats fun r hr => ?_, hdb.threads⟩
    obtain ⟨hc, -⟩ := of_decide_eq_true hr
    rw [hc]
    exact hn
  | thread root u n hn =>
    refine ⟨hdb.flat, hdb.seats,
      Marks.upsert_within (fun _ _ => rfl) hdb.threads (fun r hr => ?_) (decide_eq_true ⟨rfl, rfl⟩)⟩
    obtain ⟨hroot, -⟩ := of_decide_eq_true hr
    rw [hroot]
    exact hn

/-! ### Runs -/

/-- Calls between their statements ask for numbers that the channel has. -/
structure Readers.Kept (s : Readers) : Prop where
  marked : Marked s.db
  checked : ∀ command ∈ s.checked, command.sequence ≤ s.db.latestSequence command.channelId

variable {s t : Readers} {call : ReadCall} {trace : List ReadCall}

theorem Readers.Kept.of_change (hs : s.Kept) (hchange : ReadChange s.db t.db)
    (hchecked : t.checked ⊆ s.checked) : ReadChange s.db t.db ∧ t.Kept :=
  ⟨hchange, hchange.marked hs.marked, fun command hmem =>
    (hs.checked command (hchecked hmem)).trans (latestSequence_mono hchange.later.messages)⟩

theorem ReadStep.change (h : ReadStep host s call t) (hs : s.Kept) :
    ReadChange s.db t.db ∧ t.Kept := by
  cases h with
  | append command env => exact hs.of_change (appendMessage_change) fun _ h => h
  | appendIdempotent command requestId env =>
    exact hs.of_change (appendMessageIdempotent_change) fun _ h => h
  | passed command hpassed =>
    refine ⟨.same, hs.marked, fun x hx => ?_⟩
    rcases mem_cons.1 hx with rfl | hx
    · exact checkRead_ok hpassed
    · exact hs.checked x hx
  | refused command e _ => exact ⟨.same, hs⟩
  | @update _ before after command =>
    -- the number was checked against fewer messages
    have hmem : command ∈ before ++ command :: after := by simp
    refine hs.of_change (updateRead_change (hs.checked command hmem)) fun x hx => ?_
    exact (mem_append.1 hx).elim (mem_append_left _) fun hx =>
      mem_append_right _ (mem_cons_of_mem _ hx)
  | markThread actor root sequence =>
    exact hs.of_change (markThreadRead_change) fun _ h => h

theorem later_of_run (h : Run (ReadStep host) s trace t) (hs : s.Kept) :
    Later s.db t.db ∧ t.Kept := by
  refine h.invariant (P := fun t => Later s.db t.db ∧ t.Kept) (fun x call y hx hstep => ?_)
    ⟨.refl _, hs⟩
  obtain ⟨hchange, hy⟩ := hstep.change hx.2
  exact ⟨hx.1.trans hchange.later, hy⟩

def Unread (db : Db) : Prop :=
  (∀ r ∈ db.channelMemberships, r.lastReadSequence = 0) ∧ db.threadReadMarkers = []

theorem Unread.of_readings (h : Unread db) (hreadings : db'.readings = db.readings) :
    Unread db' := by
  obtain ⟨hseats, hmarks⟩ := Prod.mk.inj hreadings
  rw [Unread, hseats, hmarks]
  exact h

theorem unread_upheld : Upheld Unread where
  same hdb _ hreadings := hdb.of_readings hreadings
  opened _ _ hdb _ _ hreadings := hdb.of_readings hreadings
  seated hdb hseated := by
    refine ⟨fun r hr => ?_, hdb.2⟩
    rcases hseated r hr with hzero | ⟨r₀, hr₀, hr⟩
    · exact hzero
    · rw [hr]
      exact hdb.1 r₀ hr₀
  removed gone hdb := by
    refine ⟨fun r hr => hdb.1 r (mem_filter.1 hr).1, ?_⟩
    rw [Db.removeChannels, hdb.2]
    rfl
  posted hdb _ hreadings := hdb.of_readings hreadings
  rewritten hdb hrewritten := by
    refine hdb.of_readings ?_
    rw [Db.readings, hrewritten.rest]
    rfl

theorem kept_of_setup {setup : List AnyCall} (h : Run (AnyStep host) .empty setup db) :
    Readers.Kept ⟨db, []⟩ := by
  have hempty : Unread .empty := ⟨fun _ hr => absurd hr not_mem_nil, rfl⟩
  have hunread : Unread db := unread_upheld.of_run h hempty
  refine ⟨⟨flat_upheld.of_run h flat_nil, fun r hr => ?_, fun r hr => ?_⟩, fun _ hmem => ?_⟩
  · rw [hunread.1 r hr]
    exact Nat.zero_le _
  · rw [hunread.2] at hr
    exact absurd hr not_mem_nil
  · exact absurd hmem not_mem_nil

/-! ### Unread replies -/

/-- The summary of a thread counts what is beyond the marker, in the channel of its root. -/
theorem unreadCount_eq {later : Db} (hflat : Flat later.ledger) {r : ChatMessage}
    (hr : r ∈ later.messages) {summaries : List ThreadSummary}
    (hlist : listThreadSummaries actor r.channelId db later = .ok summaries)
    (hsummary : summary ∈ summaries) (hroot : summary.rootMessageId = r.id) :
    summary.unreadCount = later.messages.countP fun m => m.parentMessageId = some r.id ∧
      m.senderId ≠ actor ∧ later.threadMarker r.id actor < m.sequence ∧ m.deletedAt = none := by
  have hgroup := (listThreadSummaries_ok hlist).2 summary hsummary
  rw [hroot] at hgroup
  rw [threadSummary_ok hgroup]
  refine (countP_group later r.channelId r.id _).trans (countP_congr fun m hm => ?_)
  simp only [isUnread, isLive, Bool.and_eq_true, decide_eq_true_eq, Option.isNone_iff_eq_none]
  constructor
  · rintro ⟨-, hp, ⟨hlive, hbeyond⟩, hother⟩
    exact ⟨hp, hother, hbeyond, hlive⟩
  · rintro ⟨hp, hother, hbeyond, hlive⟩
    obtain ⟨r', hr', hid, hchannel, -⟩ := hflat.threaded m hm _ hp
    rw [Table.eq_of_key_eq hflat.unique hr' hr hid] at hchannel
    exact ⟨hchannel.symm, hp, ⟨hlive, hbeyond⟩, hother⟩

end

/-- Markers of channels and threads stay behind the messages and never fall. Once a thread is
marked as read, its summary counts the replies of others beyond the marker. -/
theorem read_markers_follow_messages {host : Host} {setup : List AnyCall} {db : Db}
    (hsetup : Run (AnyStep host) .empty setup db) {trace : List ReadCall} {s : Readers}
    (hrun : Run (ReadStep host) ⟨db, []⟩ trace s) :
    (∀ r ∈ s.db.channelMemberships, r.lastReadSequence ≤ s.db.latestSequence r.channelId) ∧
      (∀ r ∈ s.db.threadReadMarkers,
        r.lastReadSequence ≤ latestOf (s.db.repliesTo r.rootMessageId)) ∧
      (∀ trace' t, Run (ReadStep host) s trace' t →
        (∀ c u n, s.db.lastRead? c u = some n → ∃ n', t.db.lastRead? c u = some n' ∧ n ≤ n') ∧
          ∀ root u, s.db.threadMarker root u ≤ t.db.threadMarker root u) ∧
      ∀ actor root sequence summary db',
        (markThreadRead actor root sequence).commit s.db = (.ok summary, db') →
        ∀ trace' t, Run (ReadStep host) ⟨db', s.checked⟩ trace' t →
        ∃ r ∈ t.db.messages, r.id = root ∧ sequence ≤ t.db.threadMarker root actor ∧
          ∀ trace'' u, Run (ReadStep host) t trace'' u →
          ∀ summaries, listThreadSummaries actor r.channelId t.db u.db = .ok summaries →
          ∃ x ∈ summaries, x.rootMessageId = root ∧
            (x.unreadCount = u.db.messages.countP fun m => m.parentMessageId = some root ∧
              m.senderId ≠ actor ∧ u.db.threadMarker root actor < m.sequence ∧
              m.deletedAt = none) ∧
            ((∀ m ∈ db.messages, m.deletedAt = none) →
              x.unreadCount = u.db.messages.countP fun m => m.parentMessageId = some root ∧
                m.senderId ≠ actor ∧ u.db.threadMarker root actor < m.sequence) := by
  obtain ⟨hlater, hs⟩ := later_of_run hrun (kept_of_setup hsetup)
  refine ⟨hs.marked.seats, hs.marked.threads, fun trace' t ht => ?_, ?_⟩
  · obtain ⟨hrise, -⟩ := later_of_run ht hs
    exact ⟨hrise.seats, hrise.threads⟩
  intro actor root sequence summary db' hmark trace' t ht
  have hstep : ReadStep host s (.markThread actor root sequence) ⟨db', s.checked⟩ := by
    have hafter : ((markThreadRead actor root sequence).commit s.db).2 = db' := by rw [hmark]
    exact hafter ▸ .markThread actor root sequence
  obtain ⟨hchange, hkept⟩ := hstep.change hs
  obtain ⟨ht, htkept⟩ := later_of_run ht hkept
  obtain ⟨hsees, ⟨reply, hreply, hp, -⟩, rfl⟩ := markThreadRead_ok (commit_eq_ok.1 hmark)
  obtain ⟨r, hr, rfl, -, -⟩ := seesRoot_iff.1 hsees
  refine ⟨r, ht.messages hr, rfl, le_trans ?_ (ht.threads r.id actor), fun trace'' u hu => ?_⟩
  · -- the marker was raised to the number
    rw [threadMarker_eq, Marks.lookup_upsert_self (marker_blind r.id actor)
      (decide_eq_true ⟨rfl, rfl⟩), Option.getD_some]
    exact Nat.le_max_right _ _
  intro summaries hlist
  obtain ⟨hu, hukept⟩ := later_of_run hu htkept
  have hmem : ∀ m ∈ s.db.messages, m ∈ u.db.messages := fun m hm => hu.messages (ht.messages hm)
  have hchannel : reply.channelId = r.channelId := by
    obtain ⟨r', hr', hid, hchannel, -⟩ := hs.marked.flat.threaded reply hreply _ hp
    rw [← hchannel, Table.eq_of_key_eq hs.marked.flat.unique hr' hr hid]
  obtain ⟨x, ⟨hx, hroot⟩, -⟩ := exists_unique_summary hlist (hmem reply hreply) hchannel hp
  have hcount := unreadCount_eq hukept.marked.flat (hmem r hr) hlist hx hroot
  refine ⟨x, hx, hroot, hcount, fun hnone => hcount.trans (countP_congr fun m hm => ?_)⟩
  -- no call of these runs deletes
  have hlive : m.deletedAt = none := by
    rcases (((hlater.trans hchange.later).trans ht).trans hu).live m hm with hm | hlive
    · exact hnone m hm
    · exact hlive
  simp only [decide_eq_true_eq, hlive, and_true]

namespace Sample

def answered : Db :=
  [AnyCall.roll (.upsertUser alice .human aliceName (some "alice") (some "alice")),
    .roll (.upsertUser bob .human bobName (some "bob") (some "bob")),
    .roll (.statement (.createChannel
      ⟨alice, ⟨"general", by decide, by decide⟩, roomName, .publicChannel, none⟩ room)),
    .message (.append ⟨alice, room, none, hello⟩ (.quiet 20 0)),
    .message (.append ⟨bob, room, some ⟨20⟩, hello⟩ (.quiet 21 1)),
    .message (.append ⟨bob, room, some ⟨20⟩, hello⟩ (.quiet 22 2))].foldl
      (fun db call => call.exec host db) .empty

def markAll : MarkRead := ⟨alice, room, 3⟩

def moreAnswers : Db :=
  ((appendMessage host ⟨bob, room, some ⟨20⟩, hello⟩ (.quiet 23 3)).commit answered).2

def caughtUp : Db := ((updateRead markAll).commit moreAnswers).2

theorem caughtUp_run : Run (ReadStep host) ⟨answered, []⟩
    [.check markAll, .append ⟨bob, room, some ⟨20⟩, hello⟩ (.quiet 23 3), .update markAll]
    ⟨caughtUp, []⟩ := by
  refine .cons (.passed markAll rfl) (.cons (.append _ _) (.single ?_))
  exact @ReadStep.update host moreAnswers [] [] markAll

def partlyRead : Db := ((markThreadRead alice ⟨20⟩ 2).commit caughtUp).2

end Sample

open Sample in
theorem read_markers_follow_messages_in_general :
    caughtUp.lastRead? room alice = some 3 ∧ caughtUp.latestSequence room = 4 ∧
      listThreadSummaries alice room partlyRead partlyRead = .ok [⟨⟨20⟩, 3, 2, 4⟩] ∧
      2 ≤ partlyRead.threadMarker ⟨20⟩ alice ∧
      2 = partlyRead.messages.countP fun m => m.parentMessageId = some ⟨20⟩ ∧
        m.senderId ≠ alice ∧ partlyRead.threadMarker ⟨20⟩ alice < m.sequence := by
  have hlist : listThreadSummaries alice room partlyRead partlyRead = .ok [⟨⟨20⟩, 3, 2, 4⟩] := rfl
  obtain ⟨-, -, -, hmark⟩ := read_markers_follow_messages (run_anyCalls host _ .empty) caughtUp_run
  obtain ⟨r, hr, hid, hmarker, hcount⟩ :=
    hmark alice ⟨20⟩ 2 ⟨⟨20⟩, 3, 2, 4⟩ partlyRead rfl [] _ .refl
  have hroom : r.channelId = room := by
    have hall : ∀ m ∈ partlyRead.messages, m.channelId = room := by decide
    exact hall r hr
  obtain ⟨x, hx, -, -, hunread⟩ := hcount [] _ .refl _ (hroom ▸ hlist)
  rw [mem_singleton.1 hx] at hunread
  exact ⟨rfl, rfl, hlist, hmarker, hunread (by decide)⟩

end Sproyt
