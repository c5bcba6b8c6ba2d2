import Sproyt.Chat.Actor
import Sproyt.Db.Numbering

/-!
# The history of a channel

A client reads the messages of a channel page by page, forwards or backwards, and an event
stream that is resumed opens with the newest page and the interval that lies between the last
message the client has and that page.
-/

namespace Sproyt

open List
open Paging (Ascending Pages lastRows)

variable {db : Db} {c : ChannelId} {m : ChatMessage} {actor : UserId} {limit n : Nat}

theorem ordered_perm : (db.ordered c).Perm (db.messages.filter fun m => m.channelId = c) :=
  perm_insertionSort _ _

theorem mem_ordered : m ∈ db.ordered c ↔ m ∈ db.messages ∧ m.channelId = c := by
  rw [(ordered_perm).mem_iff, mem_filter, decide_eq_true_iff]

theorem ordered_sequences : ((db.ordered c).map (·.sequence)).Perm (db.sequences c) :=
  (ordered_perm).map _

theorem ordered_ascending (h : (db.sequences c).Nodup) : Ascending (·.sequence) (db.ordered c) := by
  have hsorted : (db.ordered c).Pairwise fun a b => a.sequence ≤ b.sequence := by
    have : Std.Total fun a b : ChatMessage => a.sequence ≤ b.sequence :=
      ⟨fun a b => Nat.le_total a.sequence b.sequence⟩
    have : IsTrans ChatMessage fun a b => a.sequence ≤ b.sequence :=
      ⟨fun _ _ _ => Nat.le_trans⟩
    exact pairwise_insertionSort _ _
  have hdistinct : (db.ordered c).Pairwise fun a b => a.sequence ≠ b.sequence :=
    pairwise_map.1 ((ordered_sequences).nodup_iff.2 h)
  exact (hsorted.and hdistinct).imp fun h => Nat.lt_of_le_of_ne h.1 h.2

/-! ### Pages -/

def Db.pageAfter (db : Db) (actor : UserId) (c : ChannelId) (limit after : Nat) :
    Except RepositoryError (List ChatMessage) :=
  db.loadRecentMessages ⟨actor, c, limit, some after, none⟩

def Db.pageBefore (db : Db) (actor : UserId) (c : ChannelId) (limit before : Nat) :
    Except RepositoryError (List ChatMessage) :=
  db.loadRecentMessages ⟨actor, c, limit, none, some before⟩

def lastNumber (page : List ChatMessage) : Option Nat := page.getLast?.map (·.sequence)

def firstNumber (page : List ChatMessage) : Option Nat := page.head?.map (·.sequence)

theorem pageAfter_eq (hmember : (db.channelRole? c actor).isSome) {a : Nat} (ha : a < 2 ^ 63) :
    db.pageAfter actor c limit a =
      .ok (((db.ordered c).filter fun m => a < m.sequence).take limit) := by
  have hsome : ¬(db.channelRole? c actor).isNone := by
    simpa [Option.isSome_iff_ne_none] using hmember
  simp only [Db.pageAfter, Db.loadRecentMessages, if_neg hsome, signedSequence, if_pos ha]
  rfl

theorem pageBefore_eq (hmember : (db.channelRole? c actor).isSome) {b : Nat} (hb : b < 2 ^ 63) :
    db.pageBefore actor c limit b =
      .ok (lastRows limit ((db.ordered c).filter fun m => m.sequence < b)) := by
  have hsome : ¬(db.channelRole? c actor).isNone := by
    simpa [Option.isSome_iff_ne_none] using hmember
  simp only [Db.pageBefore, Db.loadRecentMessages, if_neg hsome, signedSequence, if_pos hb]
  rfl

/-! ### Resuming a stream -/

/-- `missing_before_history`, over the values of `u64`. -/
def missingBeforeHistory (after firstAvailable : Option Nat) : Option (Nat × Nat) := do
  let after ← after.filter (0 < ·)
  let skipped := (← firstAvailable) - min (after + 1) (2 ^ 64 - 1)
  if 0 < skipped then some (after, skipped) else none

/-- How `events_handler` opens the stream of a channel: the history, and the interval before it
that is reported as lagged. -/
def Db.openStream (db : Db) (u : UserId) (c : ChannelId) (after : Option Nat) :
    Except RepositoryError (List ChatMessage × Option (Nat × Nat)) := do
  let history ← db.loadRecentMessages ⟨u, c, messageLimit 50, none, none⟩
  return (history, missingBeforeHistory after (firstNumber history))

/-- The numbers that a notice reports: those that follow the last one seen. -/
def Reported (notice : Option (Nat × Nat)) (sequence : Nat) : Prop :=
  ∃ x ∈ notice, x.1 < sequence ∧ sequence ≤ x.1 + x.2

theorem recent_eq (hmember : (db.channelRole? c actor).isSome) :
    db.loadRecentMessages ⟨actor, c, messageLimit 50, none, none⟩ =
      .ok (lastRows 50 (db.ordered c)) := by
  have hsome : ¬(db.channelRole? c actor).isNone := by
    simpa [Option.isSome_iff_ne_none] using hmember
  simp only [Db.loadRecentMessages, if_neg hsome]
  rfl

theorem reported_iff {after first sequence : Nat} (hafter : 0 < after) (hfirst : first < 2 ^ 63) :
    Reported (missingBeforeHistory (some after) (some first)) sequence ↔
      after < sequence ∧ sequence < first := by
  have hfilter : (some after).filter (0 < ·) = some after := by simp [hafter]
  simp only [missingBeforeHistory, hfilter, Option.bind_eq_bind, Option.bind_some]
  by_cases hskipped : 0 < first - min (after + 1) (2 ^ 64 - 1)
  · rw [if_pos hskipped]
    constructor
    · rintro ⟨x, hx, hlt, hle⟩
      obtain rfl := Option.some.inj hx
      exact ⟨hlt, by omega⟩
    · rintro ⟨hlt, hle⟩
      exact ⟨_, rfl, hlt, by omega⟩
  · rw [if_neg hskipped]
    constructor
    · rintro ⟨x, hx, -⟩
      cases hx
    · rintro ⟨hlt, hle⟩
      omega

/-- The history and the notice part the numbers that follow the last one seen. -/
theorem resumed_iff (hnumbers : (db.sequences c).Perm (List.range' 1 n)) (hn : n < 2 ^ 63)
    {after sequence : Nat} (hafter : 0 < after) :
    (after < sequence ∧ sequence ≤ n ↔
      Reported (missingBeforeHistory (some after) (firstNumber (lastRows 50 (db.ordered c))))
          sequence ∨
        after < sequence ∧ ∃ m ∈ lastRows 50 (db.ordered c), m.sequence = sequence) ∧
      ¬(Reported (missingBeforeHistory (some after) (firstNumber (lastRows 50 (db.ordered c))))
          sequence ∧ ∃ m ∈ lastRows 50 (db.ordered c), m.sequence = sequence) := by
  have hascending : Ascending (·.sequence) (db.ordered c) :=
    ordered_ascending (hnumbers.nodup_iff.2 nodup_range')
  have hmem : ∀ s, (∃ m ∈ db.ordered c, m.sequence = s) ↔ 1 ≤ s ∧ s ≤ n := by
    intro s
    rw [← mem_map, ((ordered_sequences).trans hnumbers).mem_iff, mem_range'_1]
    omega
  rcases Option.eq_none_or_eq_some (lastRows 50 (db.ordered c)).head? with hnone | ⟨x, hx⟩
  · -- the channel is empty
    have hnil := head?_eq_none_iff.1 hnone
    have hrows := Paging.lastRows_eq_nil (by omega) hnil
    have hzero : n = 0 := by
      have hlast := (hmem n).not.1 (by simp [hrows])
      omega
    have hnotice : ¬Reported (missingBeforeHistory (some after)
        (firstNumber (lastRows 50 (db.ordered c)))) sequence := by
      rintro ⟨y, hy, -⟩
      rw [firstNumber, hnone] at hy
      cases (Option.bind_eq_some_iff.1 hy).choose_spec.2
    rw [hnil] at hnotice ⊢
    simp only [not_mem_nil, false_and, exists_false, and_false, or_false, not_false_iff, and_true]
    exact ⟨fun h => by omega, fun h => absurd h hnotice⟩
  · have hmemx : x ∈ db.ordered c := mem_of_mem_drop (mem_of_mem_head? hx)
    have hbound := (hmem x.sequence).1 ⟨x, hmemx, rfl⟩
    have hreported := @reported_iff after x.sequence sequence hafter (by omega)
    have hpage : (∃ m ∈ lastRows 50 (db.ordered c), m.sequence = sequence) ↔
        x.sequence ≤ sequence ∧ sequence ≤ n := by
      constructor
      · rintro ⟨m, hm, rfl⟩
        have hrow := mem_of_mem_drop hm
        exact ⟨(hascending.mem_lastRows hx hrow).1 hm, ((hmem _).1 ⟨m, hrow, rfl⟩).2⟩
      · rintro ⟨hle, hlast⟩
        obtain ⟨m, hm, rfl⟩ := (hmem sequence).2 ⟨by omega, hlast⟩
        exact ⟨m, (hascending.mem_lastRows hx hm).2 hle, rfl⟩
    rw [firstNumber, hx, Option.map_some, hreported, hpage]
    omega

/-- Reading forwards from a number gives each later message once, in their order; reading
backwards gives each earlier message once. A stream that is resumed after a message opens with
a page and a notice that together have each later number once. -/
theorem history_is_complete (hnumbers : (db.sequences c).Perm (List.range' 1 n))
    (hn : n < 2 ^ 63) (hmember : (db.channelRole? c actor).isSome) (hlimit : 1 ≤ limit) :
    (∀ a < 2 ^ 63, (∃ pages, Pages (db.pageAfter actor c limit) lastNumber a pages) ∧
      ∀ pages, Pages (db.pageAfter actor c limit) lastNumber a pages →
        pages.flatten.Perm
          ((db.messages.filter fun m => m.channelId = c).filter fun m => a < m.sequence) ∧
        Ascending (·.sequence) pages.flatten) ∧
    (∀ b < 2 ^ 63, (∃ pages, Pages (db.pageBefore actor c limit) firstNumber b pages) ∧
      ∀ pages, Pages (db.pageBefore actor c limit) firstNumber b pages →
        pages.flatten.Perm
          ((db.messages.filter fun m => m.channelId = c).filter fun m => m.sequence < b)) ∧
    ∀ after, 0 < after → ∃ history notice,
      db.openStream actor c (some after) = .ok (history, notice) ∧
      ∀ sequence,
        (after < sequence ∧ sequence ≤ n ↔
          Reported notice sequence ∨
            after < sequence ∧ ∃ m ∈ history, m.sequence = sequence) ∧
        ¬(Reported notice sequence ∧ ∃ m ∈ history, m.sequence = sequence) := by
  have hascending : Ascending (·.sequence) (db.ordered c) :=
    ordered_ascending (hnumbers.nodup_iff.2 nodup_range')
  have hgood : ∀ m ∈ db.ordered c, m.sequence < 2 ^ 63 := by
    intro m hm
    have hmem := ((ordered_sequences).trans hnumbers).mem_iff.1 (mem_map_of_mem hm)
    rw [mem_range'_1] at hmem
    omega
  refine ⟨fun a ha => ?_, fun b hb => ?_, fun after hafter => ?_⟩
  · have hload : ∀ a, a < 2 ^ 63 → db.pageAfter actor c limit a = .ok _ :=
      fun a ha => pageAfter_eq hmember ha
    have hreads := hascending.consumes_after hlimit hload hgood
    refine ⟨hreads.pages_end ha, fun pages hpages => ?_⟩
    have hall : pages.flatten = (db.ordered c).filter fun m => a < m.sequence := by
      rw [← Paging.foldr_append]
      exact hreads.pages_join ha hpages
    rw [hall]
    exact ⟨(ordered_perm).filter _, hascending.filter _⟩
  · have hload : ∀ b, b < 2 ^ 63 → db.pageBefore actor c limit b = .ok _ :=
      fun b hb => pageBefore_eq hmember hb
    have hreads := hascending.consumes_before hlimit hload hgood
    refine ⟨hreads.pages_end hb, fun pages hpages => ?_⟩
    have hall := (Paging.foldr_older_perm pages).trans (.of_eq (hreads.pages_join hb hpages))
    exact hall.trans ((ordered_perm).filter _)
  · refine ⟨lastRows 50 (db.ordered c), _, ?_, fun sequence => resumed_iff hnumbers hn hafter⟩
    rw [Db.openStream, recent_eq hmember]
    rfl

namespace Sample

def crowded (n : Nat) : Db :=
  { chat with
    channelSequences := [⟨room, n + 1⟩]
    messages := (List.range' 1 n).map fun k =>
      ⟨⟨BitVec.ofNat 128 k⟩, room, none, alice, aliceName, hello, k, 0, none, none⟩ }

end Sample

open Sample in
theorem history_is_complete_for_three :
    (∃ pages, Pages ((crowded 3).pageAfter alice room 1) lastNumber 1 pages ∧
      (pages.flatten.map (·.sequence)).Perm [2, 3] ∧ Ascending (·.sequence) pages.flatten) ∧
    (∃ pages, Pages ((crowded 3).pageBefore alice room 1) firstNumber 3 pages ∧
      (pages.flatten.map (·.sequence)).Perm [1, 2]) ∧
    ∃ history notice, (crowded 3).openStream alice room (some 1) = .ok (history, notice) ∧
      ∀ sequence, 1 < sequence ∧ sequence ≤ 3 ↔
        Reported notice sequence ∨ 1 < sequence ∧ ∃ m ∈ history, m.sequence = sequence := by
  have hnumbers : (crowded 3).sequences room = List.range' 1 3 := rfl
  have hmember : ((crowded 3).channelRole? room alice).isSome := rfl
  obtain ⟨hafter, hbefore, hresume⟩ :=
    history_is_complete (.of_eq hnumbers) (by decide) hmember (Nat.le_refl 1)
  obtain ⟨⟨later, hlater⟩, hforwards⟩ := hafter 1 (by decide)
  obtain ⟨⟨earlier, hearlier⟩, hbackwards⟩ := hbefore 3 (by decide)
  obtain ⟨history, notice, hopen, hall⟩ := hresume 1 Nat.one_pos
  exact ⟨⟨later, hlater, (hforwards later hlater).1.map _, (hforwards later hlater).2⟩,
    ⟨earlier, hearlier, (hbackwards earlier hearlier).map _⟩,
    history, notice, hopen, fun sequence => (hall sequence).1⟩

open Sample in
/-- A client that has seen nothing is not told of the messages before the page, and a number
beyond the signed range is refused. -/
theorem history_incomplete_from_zero :
    (∃ history, (crowded 51).openStream alice room (some 0) = .ok (history, none) ∧
      ∃ m ∈ (crowded 51).messages, m.channelId = room ∧ 0 < m.sequence ∧
        ∀ x ∈ history, x.sequence ≠ m.sequence) ∧
      ¬∃ pages, Pages ((crowded 51).pageAfter alice room 50) lastNumber (2 ^ 63) pages := by
  refine ⟨⟨(crowded 51).messages.drop 1, rfl, (crowded 51).messages.head (by decide), ?_⟩, ?_⟩
  · refine ⟨head_mem _, rfl, Nat.one_pos, ?_⟩
    decide
  · rintro ⟨pages, hpages⟩
    have hrefused : (crowded 51).pageAfter alice room 50 (2 ^ 63) = .error .tooLarge := rfl
    cases hpages with
    | done hload => cases hrefused.symm.trans hload
    | more hload => cases hrefused.symm.trans hload

end Sproyt
