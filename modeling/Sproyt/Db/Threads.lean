import Mathlib.Data.List.Sort
import Sproyt.Db.Ledger
import Sproyt.Lib.Grouping

/-!
# Threads

A reply belongs to a top-level message of its channel with a smaller number, in every state that
is reached. So a thread is its root and the messages that name it, and the summaries of a channel
sort its replies by their roots.
-/

namespace Sproyt

open List Grouping Table

/-! ### The shape of the ledger -/

/-- Threads have one level. That roots come before their replies rests on the counters, which are
ahead of the messages of their channel. -/
structure Flat (ledger : Ledger) : Prop where
  counted : (ledger.2.1.map (·.channelId)).Nodup
  counters : ∀ s ∈ ledger.2.1, ∃ ch ∈ ledger.1, ch.id = s.channelId
  placed : ∀ m ∈ ledger.2.2, ∃ ch ∈ ledger.1, ch.id = m.channelId
  ahead : ∀ m ∈ ledger.2.2, ∀ s ∈ ledger.2.1, s.channelId = m.channelId →
    m.sequence < s.nextSequence
  unique : (ledger.2.2.map (·.id)).Nodup
  threaded : ∀ m ∈ ledger.2.2, ∀ p, m.parentMessageId = some p → ∃ r ∈ ledger.2.2, r.id = p ∧
    r.channelId = m.channelId ∧ r.parentMessageId = none ∧ r.sequence < m.sequence

section

variable {channels : List Channel} {counters : List SequenceRow} {messages : List ChatMessage}
  {m row : ChatMessage}

theorem mem_firstCounter {numbered : Bool} {c : ChannelId} {s : SequenceRow}
    (h : s ∈ firstCounter numbered c) : s = ⟨c, 1⟩ := by
  cases numbered with
  | true => exact mem_singleton.1 h
  | false => exact absurd h not_mem_nil

section

variable (h : Flat (channels, counters, messages))

include h

theorem Flat.opened {ch : Channel} (numbered : Bool) (hfree : ∀ r ∈ channels, r.id ≠ ch.id) :
    Flat (channels ++ [ch], counters ++ firstCounter numbered ch.id, messages) := by
  have hgrow : ∀ {c}, (∃ r ∈ channels, r.id = c) → ∃ r ∈ channels ++ [ch], r.id = c := by
    rintro c ⟨r, hr, hid⟩
    exact ⟨r, mem_append_left _ hr, hid⟩
  refine ⟨?_, ?_, fun m hm => hgrow (h.placed m hm), ?_, h.unique, h.threaded⟩
  · cases numbered with
    | false =>
      rw [firstCounter, if_neg Bool.false_ne_true, append_nil]
      exact h.counted
    | true =>
      refine nodup_append_single h.counted fun s hs heq => ?_
      obtain ⟨r, hr, hid⟩ := h.counters s hs
      exact hfree r hr (hid.trans heq)
  · intro s hs
    rcases mem_append.1 hs with hs | hs
    · exact hgrow (h.counters s hs)
    · rw [mem_firstCounter hs]
      exact ⟨ch, mem_append_right _ (mem_singleton_self ch), rfl⟩
  · intro m hm s hs hid
    rcases mem_append.1 hs with hs | hs
    · exact h.ahead m hm s hs hid
    · -- there are no messages in a channel that is opened
      rw [mem_firstCounter hs] at hid
      obtain ⟨r, hr, hrid⟩ := h.placed m hm
      exact absurd (hrid.trans hid.symm) (hfree r hr)

theorem Flat.closed {gone : ChannelId → Bool} :
    Flat (channels.filter fun r => !gone r.id, counters.filter fun r => !gone r.channelId,
      messages.filter fun r => !gone r.channelId) := by
  have hkept : ∀ {c}, (!gone c) = true → (∃ r ∈ channels, r.id = c) →
      ∃ r ∈ channels.filter (fun r => !gone r.id), r.id = c := by
    rintro c hc ⟨r, hr, rfl⟩
    exact ⟨r, mem_filter.2 ⟨hr, hc⟩, rfl⟩
  refine ⟨h.counted.sublist (filter_sublist.map _), ?_, ?_, ?_,
    h.unique.sublist (filter_sublist.map _), ?_⟩
  · intro s hs
    obtain ⟨hs, hstay⟩ := mem_filter.1 hs
    exact hkept hstay (h.counters s hs)
  · intro m hm
    obtain ⟨hm, hstay⟩ := mem_filter.1 hm
    exact hkept hstay (h.placed m hm)
  · exact fun m hm s hs => h.ahead m (mem_filter.1 hm).1 s (mem_filter.1 hs).1
  · intro m hm p hp
    obtain ⟨hm, hstay⟩ := mem_filter.1 hm
    obtain ⟨r, hr, hid, hchannel, hrest⟩ := h.threaded m hm p hp
    -- the root is in the channel of the reply, which stays
    exact ⟨r, mem_filter.2 ⟨hr, hchannel.symm ▸ hstay⟩, hid, hchannel, hrest⟩

variable {r : ChatMessage}

theorem Flat.number_ahead
    (hsequence : (counters.find? fun r => r.channelId = m.channelId).map (·.nextSequence) =
      some m.sequence) (hr : r ∈ messages) (hchannel : r.channelId = m.channelId) :
    r.sequence < m.sequence := by
  obtain ⟨s, hfind, hs⟩ := Option.map_eq_some_iff.1 hsequence
  have hid := find?_some hfind
  rw [← hs]
  exact h.ahead r hr s (mem_of_find?_eq_some hfind) ((of_decide_eq_true hid).trans hchannel.symm)

theorem Flat.posted
    (hsequence : (counters.find? fun r => r.channelId = m.channelId).map (·.nextSequence) =
      some m.sequence)
    (hfresh : ∀ r ∈ messages, r.id ≠ m.id) (hplaced : ∃ ch ∈ channels, ch.id = m.channelId)
    (hrooted : Rooted messages m) :
    Flat (channels, bumpRows m.channelId counters, messages ++ [m]) := by
  have hkeys : (bumpRows m.channelId counters).map (·.channelId) = counters.map (·.channelId) :=
    map_key_map (fun r => by split <;> rfl) _
  refine ⟨hkeys ▸ h.counted, ?_, ?_, ?_, nodup_append_single h.unique hfresh, ?_⟩
  · intro s hs
    obtain ⟨s₀, hs₀, rfl⟩ := mem_map.1 hs
    obtain ⟨r, hr, hid⟩ := h.counters s₀ hs₀
    refine ⟨r, hr, ?_⟩
    split <;> exact hid
  · intro x hx
    rcases mem_append.1 hx with hx | hx
    · exact h.placed x hx
    · rw [mem_singleton.1 hx]
      exact hplaced
  · intro x hx s hs hid
    obtain ⟨s₀, hs₀, rfl⟩ := mem_map.1 hs
    have hid₀ : s₀.channelId = x.channelId := by
      split at hid <;> exact hid
    rcases mem_append.1 hx with hx | hx
    · have hlt := h.ahead x hx s₀ hs₀ hid₀
      split
      · exact Nat.lt_succ_of_lt hlt
      · exact hlt
    · obtain rfl := mem_singleton.1 hx
      -- the counter of the channel is the one that was read
      obtain ⟨s₁, hfind, hs₁⟩ := Option.map_eq_some_iff.1 hsequence
      have hid₁ := find?_some hfind
      rw [eq_of_key_eq h.counted (mem_of_find?_eq_some hfind) hs₀
        ((of_decide_eq_true hid₁).trans hid₀.symm)] at hs₁
      rw [if_pos hid₀, ← hs₁]
      exact Nat.lt_succ_self _
  · intro x hx p hp
    rcases mem_append.1 hx with hx | hx
    · obtain ⟨r, hr, hrest⟩ := h.threaded x hx p hp
      exact ⟨r, mem_append_left _ hr, hrest⟩
    · rw [mem_singleton.1 hx] at hp ⊢
      obtain ⟨r, hr, hid, hchannel, htop, -⟩ := hrooted p hp
      exact ⟨r, mem_append_left _ hr, hid, hchannel, htop, h.number_ahead hsequence hr hchannel⟩

end

theorem mem_rewritten (hrow : row ∈ messages)
    (hsame : m = { row with body := m.body, editedAt := m.editedAt, deletedAt := m.deletedAt })
    {x : ChatMessage} (hx : x ∈ set (·.id) m messages) :
    ∃ y ∈ messages, y.id = x.id ∧ y.channelId = x.channelId ∧
      y.parentMessageId = x.parentMessageId ∧ y.sequence = x.sequence := by
  rcases mem_set hx with rfl | ⟨hx, -⟩
  · refine ⟨row, hrow, ?_⟩
    rw [hsame]
    exact ⟨rfl, rfl, rfl, rfl⟩
  · exact ⟨x, hx, rfl, rfl, rfl, rfl⟩

theorem Flat.rewritten (h : Flat (channels, counters, messages)) (hrow : row ∈ messages)
    (hsame : m = { row with body := m.body, editedAt := m.editedAt, deletedAt := m.deletedAt }) :
    Flat (channels, counters, set (·.id) m messages) := by
  have hid : row.id = m.id := by rw [hsame]
  refine ⟨h.counted, h.counters, ?_, ?_, ?_, ?_⟩
  · intro x hx
    obtain ⟨y, hy, -, hchannel, -⟩ := mem_rewritten hrow hsame hx
    exact hchannel ▸ h.placed y hy
  · intro x hx s hs heq
    obtain ⟨y, hy, -, hchannel, -, hsequence⟩ := mem_rewritten hrow hsame hx
    exact hsequence ▸ h.ahead y hy s hs (heq.trans hchannel.symm)
  · rw [map_key_set]
    exact h.unique
  · intro x hx p hp
    obtain ⟨y, hy, -, hchannel, hparent, hsequence⟩ := mem_rewritten hrow hsame hx
    obtain ⟨r, hr, hrid, hrchannel, htop, hlt⟩ := h.threaded y hy p (hparent.trans hp)
    rw [hchannel] at hrchannel
    rw [hsequence] at hlt
    by_cases hroot : r.id = m.id
    · -- the root itself was rewritten
      have hr' := eq_of_key_eq h.unique hr hrow (hroot.trans hid.symm)
      refine ⟨m, mem_set_self ⟨row, hrow, hid⟩, hroot.symm.trans hrid, ?_⟩
      rw [hr'] at hrchannel htop hlt
      rw [hsame]
      exact ⟨hrchannel, htop, hlt⟩
    · exact ⟨r, mem_set_of_ne hr hroot, hrid, hrchannel, htop, hlt⟩

theorem flat_nil : Flat ([], [], []) :=
  ⟨nodup_nil, fun _ hs => absurd hs not_mem_nil, fun _ hm => absurd hm not_mem_nil,
    fun _ hm => absurd hm not_mem_nil, nodup_nil,
    fun _ hm => absurd hm not_mem_nil⟩

theorem flat_upheld : Upheld fun db => Flat db.ledger where
  same hdb hledger _ := hledger ▸ hdb
  opened ch numbered hdb hfree hledger _ := hledger ▸ hdb.opened numbered hfree
  seated hdb _ := hdb
  removed gone hdb := hdb.closed
  posted {db db' m} hdb hposted _ := by
    obtain ⟨ch, hch, hid⟩ := any_eq_true.1 hposted.placed
    rw [hposted.ledger]
    exact hdb.posted hposted.sequence hposted.fresh ⟨ch, hch, of_decide_eq_true hid⟩ hposted.rooted
  rewritten {db db' row m} hdb hrewritten := by
    have hledger : db'.ledger =
        (db.channels, db.channelSequences, set (·.id) m db.messages) := by
      rw [Db.ledger, hrewritten.messages, hrewritten.rest]
    rw [hledger]
    exact hdb.rewritten hrewritten.found hrewritten.same

end

/-! ### Reading threads -/

structure ThreadSummary where
  rootMessageId : MessageId
  replyCount : Nat
  unreadCount : Nat
  latestSequence : Nat
deriving DecidableEq

/-- `order by (parent_message_id is not null), sequence`. -/
def threadOrder (a b : ChatMessage) : Bool :=
  if a.parentMessageId.isSome = b.parentMessageId.isSome then a.sequence ≤ b.sequence
  else b.parentMessageId.isSome

def Db.seesRoot (db : Db) (actor : UserId) (root : MessageId) : Bool :=
  db.messages.any fun r => r.id = root ∧ db.inChannel r.channelId actor ∧ r.parentMessageId = none

/-- The two statements of `load_thread`, each on the database it finds. -/
def loadThread (actor : UserId) (root : MessageId) (db later : Db) :
    Except RepositoryError (List ChatMessage) :=
  if db.seesRoot actor root then
    .ok ((later.messages.filter fun m => m.id = root ∨ m.parentMessageId = some root).insertionSort
      fun a b => threadOrder a b)
  else .error .permissionDenied

def latestOf (replies : List ChatMessage) : Nat := (replies.map (·.sequence)).foldl max 0

def isLive (r : ChatMessage) : Bool := r.deletedAt.isNone

def isUnread (actor : UserId) (marker : Nat) (r : ChatMessage) : Bool :=
  isLive r && decide (marker < r.sequence) && decide (r.senderId ≠ actor)

/-- `thread_summary_sqlite` of the group of a root. -/
def threadSummary (actor : UserId) (marker : Nat) (root : MessageId)
    (replies : List ChatMessage) : Except RepositoryError ThreadSummary := do
  let replyCount ← unsignedCount (replies.countP isLive)
  let unreadCount ← unsignedCount (replies.countP (isUnread actor marker))
  return ⟨root, replyCount, unreadCount, latestOf replies⟩

/-- `coalesce(trm.last_read_sequence, 0)`. -/
def Db.threadMarker (db : Db) (root : MessageId) (u : UserId) : Nat :=
  ((db.threadReadMarkers.find? fun r => r.rootMessageId = root ∧ r.userId = u).map
    (·.lastReadSequence)).getD 0

def Db.repliesIn (db : Db) (c : ChannelId) : List ChatMessage :=
  db.messages.filter fun r => r.channelId = c ∧ r.parentMessageId.isSome

/-- `group by r.parent_message_id order by max(r.sequence)`. -/
def threadRoots (replies : List ChatMessage) : List MessageId :=
  (Grouping.keys (·.parentMessageId) replies).insertionSort fun p q =>
    latestOf (Grouping.group (·.parentMessageId) p replies) ≤
      latestOf (Grouping.group (·.parentMessageId) q replies)

/-- The two statements of `list_thread_summaries`. -/
def listThreadSummaries (actor : UserId) (c : ChannelId) (db later : Db) :
    Except RepositoryError (List ThreadSummary) :=
  if db.inChannel c actor then
    (threadRoots (later.repliesIn c)).mapM fun p =>
      threadSummary actor (later.threadMarker p actor) p
        (Grouping.group (·.parentMessageId) p (later.repliesIn c))
  else .error .permissionDenied

variable {actor : UserId} {c : ChannelId} {db later : Db}
  {summaries : List ThreadSummary} {summary : ThreadSummary} {marker : Nat} {root p : MessageId}
  {replies rows : List ChatMessage} {m : ChatMessage}

theorem unsignedCount_ok {count n : Nat} (h : unsignedCount count = .ok n) : n = count := by
  rw [unsignedCount] at h
  split at h
  · exact (Except.ok.inj h).symm
  · cases h

def threadRow (actor : UserId) (marker : Nat) (root : MessageId) (replies : List ChatMessage) :
    ThreadSummary :=
  ⟨root, replies.countP isLive, replies.countP (isUnread actor marker), latestOf replies⟩

theorem threadSummary_ok (h : threadSummary actor marker root replies = .ok summary) :
    summary = threadRow actor marker root replies := by
  rw [threadSummary] at h
  cases hcount : unsignedCount (replies.countP isLive) with
  | error e =>
    rw [hcount] at h
    cases h
  | ok count =>
    cases hunread : unsignedCount (replies.countP (isUnread actor marker)) with
    | error e =>
      rw [hcount, hunread] at h
      cases h
    | ok unread =>
      rw [hcount, hunread] at h
      rw [threadRow, ← unsignedCount_ok hcount, ← unsignedCount_ok hunread]
      exact (Except.ok.inj h).symm

theorem mem_repliesIn : m ∈ db.repliesIn c ↔
    m ∈ db.messages ∧ m.channelId = c ∧ m.parentMessageId.isSome = true := by
  rw [Db.repliesIn, mem_filter, decide_eq_true_eq]

theorem mem_threadRoots : p ∈ threadRoots (db.repliesIn c) ↔
    ∃ m ∈ db.messages, m.channelId = c ∧ m.parentMessageId = some p := by
  rw [threadRoots, mem_insertionSort, Grouping.mem_keys]
  constructor
  · rintro ⟨m, hm, hp⟩
    obtain ⟨hm, hchannel, -⟩ := mem_repliesIn.1 hm
    exact ⟨m, hm, hchannel, hp⟩
  · rintro ⟨m, hm, hchannel, hp⟩
    exact ⟨m, mem_repliesIn.2 ⟨hm, hchannel, hp ▸ rfl⟩, hp⟩

theorem nodup_threadRoots : (threadRoots replies).Nodup :=
  (perm_insertionSort _ _).nodup_iff.2 (nodup_keys _ _)

/-- Each root of a reply is listed once, with its group. -/
theorem listThreadSummaries_ok (h : listThreadSummaries actor c db later = .ok summaries) :
    summaries.map (·.rootMessageId) = threadRoots (later.repliesIn c) ∧
      ∀ s ∈ summaries, threadSummary actor
        (later.threadMarker s.rootMessageId actor) s.rootMessageId
        (group (·.parentMessageId) s.rootMessageId (later.repliesIn c)) = .ok s := by
  rw [listThreadSummaries] at h
  split at h
  · have hroot : ∀ {p s}, threadSummary actor (later.threadMarker p actor) p
        (group (·.parentMessageId) p (later.repliesIn c)) = .ok s →
        s.rootMessageId = p := fun hs => by rw [threadSummary_ok hs, threadRow]
    refine ⟨(map_of_mapM h fun p s hs => hroot hs).trans (map_id _), fun s hs => ?_⟩
    obtain ⟨p, -, hread⟩ := (mem_of_mapM h).1 hs
    rw [hroot hread]
    exact hread
  · cases h

theorem countP_group (db : Db) (c : ChannelId) (p : MessageId) (q : ChatMessage → Bool) :
    (group (·.parentMessageId) p (db.repliesIn c)).countP q =
      db.messages.countP fun m => m.channelId = c ∧ m.parentMessageId = some p ∧ q m := by
  rw [group, Db.repliesIn, filter_filter, countP_filter]
  refine countP_congr fun m _ => ?_
  simp only [Bool.and_eq_true, decide_eq_true_eq]
  constructor
  · rintro ⟨hq, hp, hchannel, -⟩
    exact ⟨hchannel, hp, hq⟩
  · rintro ⟨hchannel, hp, hq⟩
    exact ⟨hq, hp, hchannel, hp ▸ rfl⟩

theorem seesRoot_iff : db.seesRoot actor root = true ↔
    ∃ r ∈ db.messages, r.id = root ∧ db.inChannel r.channelId actor = true ∧
      r.parentMessageId = none := by
  simp only [Db.seesRoot, any_eq_true, decide_eq_true_eq]

theorem loadThread_of_member (hr : r ∈ db.messages)
    (htop : r.parentMessageId = none) (hmember : db.inChannel r.channelId actor = true) :
    ∃ rows, loadThread actor r.id db later = .ok rows ∧
      ∀ m, m ∈ rows ↔ m ∈ later.messages ∧ (m.id = r.id ∨ m.parentMessageId = some r.id) := by
  rw [loadThread, if_pos (seesRoot_iff.2 ⟨r, hr, rfl, hmember, htop⟩)]
  refine ⟨_, rfl, fun m => ?_⟩
  rw [mem_insertionSort, mem_filter, decide_eq_true_eq]

theorem Flat.reply_ne_root (h : Flat db.ledger) (hm : m ∈ db.messages)
    (hp : m.parentMessageId = some p) : m.id ≠ p := by
  intro heq
  obtain ⟨r, hr, hid, -, htop, -⟩ := h.threaded m hm p hp
  rw [eq_of_key_eq h.unique hm hr (heq.trans hid.symm), htop] at hp
  cases hp

theorem exists_unique_summary (h : listThreadSummaries actor c db later = .ok summaries)
    (hm : m ∈ later.messages) (hchannel : m.channelId = c) (hp : m.parentMessageId = some p) :
    ∃! s, s ∈ summaries ∧ s.rootMessageId = p := by
  obtain ⟨hroots, -⟩ := listThreadSummaries_ok h
  have hlisted : p ∈ summaries.map (·.rootMessageId) :=
    hroots ▸ mem_threadRoots.2 ⟨m, hm, hchannel, hp⟩
  obtain ⟨s, hs, rfl⟩ := mem_map.1 hlisted
  refine ⟨s, ⟨hs, rfl⟩, fun s' hs' => ?_⟩
  exact eq_of_key_eq (hroots ▸ nodup_threadRoots) hs'.1 hs hs'.2

/-- Replies have one level below messages of their channel that come before them. A thread is
loaded with the messages that name its root, and each reply of a channel is in one of the listed
threads. -/
theorem threads_keep_their_shape {host : Host} {trace trace' : List AnyCall} {db later : Db}
    (h : Run (AnyStep host) .empty trace db) (hlater : Run (AnyStep host) db trace' later) :
    (∀ m ∈ db.messages, ∀ p, m.parentMessageId = some p → ∃ r ∈ db.messages, r.id = p ∧
        r.channelId = m.channelId ∧ r.parentMessageId = none ∧ r.sequence < m.sequence) ∧
      (∀ actor, ∀ r ∈ db.messages, r.parentMessageId = none →
        db.inChannel r.channelId actor = true →
        ∃ rows, loadThread actor r.id db later = .ok rows ∧ ∀ m, m ∈ rows ∧ m.id ≠ r.id ↔
          m ∈ later.messages ∧ m.parentMessageId = some r.id) ∧
      ∀ actor c summaries, listThreadSummaries actor c db later = .ok summaries →
        (∀ s ∈ summaries, (∃ r ∈ later.messages, r.id = s.rootMessageId ∧ r.channelId = c ∧
            r.parentMessageId = none) ∧
          s.replyCount = later.messages.countP fun m => m.channelId = c ∧
            m.parentMessageId = some s.rootMessageId ∧ m.deletedAt = none) ∧
        ∀ m ∈ later.messages, m.channelId = c → ∀ p, m.parentMessageId = some p →
          ∃! s, s ∈ summaries ∧ s.rootMessageId = p := by
  have hdb : Flat db.ledger := flat_upheld.of_run h flat_nil
  have hend : Flat later.ledger := flat_upheld.of_run hlater hdb
  refine ⟨hdb.threaded, fun actor r hr htop hmember => ?_, fun actor c summaries hlist => ⟨?_, ?_⟩⟩
  · obtain ⟨rows, hload, hrows⟩ := loadThread_of_member hr htop hmember
    refine ⟨rows, hload, fun m => ⟨?_, ?_⟩⟩
    · rintro ⟨hm, hne⟩
      obtain ⟨hm, hid | hp⟩ := (hrows m).1 hm
      · exact absurd hid hne
      · exact ⟨hm, hp⟩
    · rintro ⟨hm, hp⟩
      exact ⟨(hrows m).2 ⟨hm, .inr hp⟩, hend.reply_ne_root hm hp⟩
  · intro s hs
    obtain ⟨hroots, hgroups⟩ := listThreadSummaries_ok hlist
    have hlisted : s.rootMessageId ∈ threadRoots (later.repliesIn c) :=
      hroots ▸ mem_map_of_mem hs
    obtain ⟨m, hm, hchannel, hp⟩ := mem_threadRoots.1 hlisted
    obtain ⟨r, hr, hid, hsame, htop, -⟩ := hend.threaded m hm _ hp
    refine ⟨⟨r, hr, hid, hsame.trans hchannel, htop⟩, ?_⟩
    rw [threadSummary_ok (hgroups s hs), threadRow, countP_group]
    simp only [isLive, Option.isNone_iff_eq_none]
  · exact fun m hm hchannel p hp => exists_unique_summary hlist hm hchannel hp

namespace Sample

def replying : List AnyCall :=
  [.roll (.upsertUser alice .human aliceName (some "alice") (some "alice")),
    .roll (.statement (.createChannel
      ⟨alice, ⟨"rom", by decide, by decide⟩, roomName, .publicChannel, none⟩ room)),
    .message (.append ⟨alice, room, none, hello⟩ (.quiet 20 0)),
    .message (.append ⟨alice, room, some ⟨20⟩, hello⟩ (.quiet 21 1)),
    .message (.append ⟨alice, room, some ⟨20⟩, hello⟩ (.quiet 22 2)),
    .message (.delete ⟨alice, ⟨21⟩⟩ 3)]

def replied : Db := replying.foldl (fun db call => call.exec host db) .empty

end Sample

theorem run_anyCalls (host : Host) (calls : List AnyCall) (db : Db) :
    Run (AnyStep host) db calls (calls.foldl (fun db call => call.exec host db) db) := by
  induction calls generalizing db with
  | nil => exact .refl
  | cons call calls ih => exact .cons (.call call) (ih _)

open Sample in
theorem threads_keep_their_shape_for_replies :
    (replied.messages.map fun m => (m.id, m.parentMessageId, m.sequence)) =
        [(⟨20⟩, none, 1), (⟨21⟩, some ⟨20⟩, 2), (⟨22⟩, some ⟨20⟩, 3)] ∧
      listThreadSummaries alice room replied replied = .ok [⟨⟨20⟩, 1, 0, 3⟩] ∧
      ∀ m ∈ replied.messages, m.channelId = room → ∀ p, m.parentMessageId = some p →
        ∃! s, s ∈ [(⟨⟨20⟩, 1, 0, 3⟩ : ThreadSummary)] ∧ s.rootMessageId = p := by
  have hlist : listThreadSummaries alice room replied replied = .ok [⟨⟨20⟩, 1, 0, 3⟩] := rfl
  obtain ⟨-, -, hsummaries⟩ := threads_keep_their_shape (run_anyCalls host replying .empty) .refl
  exact ⟨rfl, hlist, (hsummaries alice room _ hlist).2⟩

end Sproyt
