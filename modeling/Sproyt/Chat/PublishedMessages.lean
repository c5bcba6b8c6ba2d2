import Mathlib.Data.Finset.Card
import Mathlib.Data.Finset.Dedup
import Sproyt.Chat.World

/-!
# Messages are published once

A message reaches the actor from its sender and once more from the announcements of the store.
`publish_message` remembers the ids it has published last: a set to look them up in, and a queue
that tells which of them to forget.
-/

namespace Sproyt

open List

/-- `published_messages` and `published_order`. -/
structure PublishedMessages where
  messages : Finset MessageId
  order : List MessageId

namespace PublishedMessages

variable {since : List ChatMessage}

def new : PublishedMessages := ⟨∅, []⟩

/-- `pop_front` of a full queue, whose id is removed from the set. -/
def expire (p : PublishedMessages) : PublishedMessages :=
  if p.order.length = publishedMessageCache then
    match p.order with
    | expired :: order => ⟨p.messages.erase expired, order⟩
    | [] => p
  else p

/-- `publish_message`, with what it broadcasts. -/
def publishMessage (p : PublishedMessages) (m : ChatMessage) : PublishedMessages × Broadcast :=
  if m.id ∈ p.messages then (p, none)
  else
    let p' := expire { p with messages := insert m.id p.messages }
    ({ p' with order := p'.order ++ [m.id] }, some (m.channelId, .messageAccepted m))

def publishAll (p : PublishedMessages) (ms : List ChatMessage) : PublishedMessages :=
  ms.foldl (fun p m => (p.publishMessage m).1) p

def broadcasts : PublishedMessages → List ChatMessage → List (ChannelId × ChatEvent)
  | _, [] => []
  | p, m :: ms => (p.publishMessage m).2.toList ++ broadcasts (p.publishMessage m).1 ms

def timesBroadcast (x : MessageId) (events : List (ChannelId × ChatEvent)) : Nat :=
  events.countP fun e => e.2.accepted.any (·.id = x)

def othersAfter (x : MessageId) (ms : List ChatMessage) : Finset MessageId :=
  ((ms.map (·.id)).dropWhile (· ≠ x)).toFinset.erase x

structure Coherent (p : PublishedMessages) : Prop where
  messages_eq : p.messages = p.order.toFinset
  nodup : p.order.Nodup
  length_le : p.order.length ≤ publishedMessageCache

variable {p : PublishedMessages} {m : ChatMessage} {x : MessageId} {ms : List ChatMessage}

theorem Coherent.new : Coherent new := ⟨rfl, nodup_nil, Nat.zero_le _⟩

theorem Coherent.mem (h : p.Coherent) : x ∈ p.messages ↔ x ∈ p.order := by
  rw [h.messages_eq, mem_toFinset]

def kept (p : PublishedMessages) : List MessageId :=
  if p.order.length = publishedMessageCache then p.order.drop 1 else p.order

theorem publishMessage_old (h : m.id ∈ p.messages) : p.publishMessage m = (p, none) := if_pos h

theorem kept_sublist (p : PublishedMessages) : p.kept.Sublist p.order := by
  unfold kept
  split
  · exact drop_sublist 1 p.order
  · exact List.Sublist.refl _

theorem kept_length_lt (h : p.Coherent) : p.kept.length < publishedMessageCache := by
  have hle := h.length_le
  have hpos : 0 < publishedMessageCache := by decide
  unfold kept
  split
  · rw [length_drop]
    omega
  · omega

theorem publishMessage_new (h : p.Coherent) (hnew : m.id ∉ p.messages) :
    p.publishMessage m =
      (⟨(p.kept ++ [m.id]).toFinset, p.kept ++ [m.id]⟩,
        some (m.channelId, .messageAccepted m)) := by
  have horder : m.id ∉ p.order := fun hmem => hnew (h.mem.2 hmem)
  have hset : ({ p with messages := insert m.id p.messages } : PublishedMessages).expire =
      ⟨insert m.id p.kept.toFinset, p.kept⟩ := by
    rw [h.messages_eq]
    unfold expire kept
    by_cases hfull : p.order.length = publishedMessageCache
    · rw [if_pos hfull, if_pos hfull]
      have hnodup := h.nodup
      cases horder' : p.order with
      | nil => simp [horder', publishedMessageCache] at hfull
      | cons expired order =>
        rw [horder'] at hnodup horder
        -- the id that goes is neither the new one nor still queued
        have hne : expired ≠ m.id := fun he => horder (he ▸ mem_cons_self)
        have hgone : expired ∉ order := (nodup_cons.1 hnodup).1
        refine congrArg (PublishedMessages.mk · order) ?_
        ext y
        simp only [toFinset_cons, Finset.mem_erase, Finset.mem_insert, mem_toFinset]
        grind
    · rw [if_neg hfull, if_neg hfull]
  unfold publishMessage
  rw [if_neg hnew, hset]
  simp only [toFinset_append, toFinset_cons, toFinset_nil, insert_empty_eq, Finset.union_singleton]

theorem Coherent.publishMessage (h : p.Coherent) (m : ChatMessage) :
    (p.publishMessage m).1.Coherent := by
  by_cases hold : m.id ∈ p.messages
  · rw [publishMessage_old hold]
    exact h
  · rw [publishMessage_new h hold]
    have horder : m.id ∉ p.order := fun hmem => hold (h.mem.2 hmem)
    refine ⟨rfl, ?_, ?_⟩
    · exact (h.nodup.sublist p.kept_sublist).append (nodup_singleton _)
        (disjoint_singleton.2 fun hmem => horder (p.kept_sublist.subset hmem))
    · have := kept_length_lt h
      simp only [length_append, length_singleton]
      omega

theorem Coherent.publishAll (h : p.Coherent) (ms : List ChatMessage) :
    (p.publishAll ms).Coherent := by
  induction ms generalizing p with
  | nil => exact h
  | cons m ms ih => exact ih (h.publishMessage m)

/-! ### How long an id is remembered -/

/-- What has been published after `x` stands behind it in the queue. -/
def Behind (x : MessageId) (since : List ChatMessage) (p : PublishedMessages) : Prop :=
  ∃ front back, p.order = front ++ x :: back ∧ ∀ y ∈ back, y ∈ since.map (·.id)

def others (x : MessageId) (ms : List ChatMessage) : Finset MessageId :=
  (ms.map (·.id)).toFinset.erase x

/-- An id is forgotten only when as many others as the queue holds have come after it. -/
theorem Behind.publishMessage (h : p.Coherent) (hx : Behind x since p)
    (m : ChatMessage) (hfew : (others x (since ++ [m])).card < publishedMessageCache) :
    Behind x (since ++ [m]) (p.publishMessage m).1 := by
  obtain ⟨front, back, horder, hback⟩ := hx
  have hmono : ∀ y ∈ back, y ∈ (since ++ [m]).map (·.id) := fun y hy => by
    rw [map_append]
    exact mem_append_left _ (hback y hy)
  by_cases hold : m.id ∈ p.messages
  · rw [publishMessage_old hold]
    exact ⟨front, back, horder, hmono⟩
  rw [publishMessage_new h hold]
  have hm : m.id ∉ p.order := fun hmem => hold (h.mem.2 hmem)
  have hlast : ∀ y ∈ back ++ [m.id], y ∈ (since ++ [m]).map (·.id) := by
    intro y hy
    rcases mem_append.1 hy with hy | hy
    · exact hmono y hy
    · simp_all
  -- `x` itself would go only if it were the oldest of a full queue
  have hkept : ∃ front', p.kept = front' ++ x :: back := by
    unfold kept
    by_cases hfull : p.order.length = publishedMessageCache
    · rw [if_pos hfull, horder]
      cases front with
      | cons y front => exact ⟨front, rfl⟩
      | nil =>
        exfalso
        have hnodup := h.nodup
        rw [horder] at hnodup hm hfull
        have hall : (back ++ [m.id]).toFinset ⊆ others x (since ++ [m]) := by
          intro y hy
          rw [mem_toFinset] at hy
          refine Finset.mem_erase.2 ⟨?_, mem_toFinset.2 (hlast y hy)⟩
          rintro rfl
          simp_all
        have hcard : (back ++ [m.id]).toFinset.card = publishedMessageCache := by
          rw [toFinset_card_of_nodup]
          · simpa using hfull
          · simp_all [nodup_append]
            grind
        have := Finset.card_le_card hall
        omega
    · rw [if_neg hfull]
      exact ⟨front, horder⟩
  obtain ⟨front', hfront⟩ := hkept
  exact ⟨front', back ++ [m.id], by simp [hfront], hlast⟩

/-- Only a message whose id is not remembered is broadcast. -/
theorem timesBroadcast_cons (h : p.Coherent) :
    timesBroadcast x (p.broadcasts (m :: ms)) =
      (if m.id = x ∧ x ∉ p.messages then 1 else 0) +
        timesBroadcast x ((p.publishMessage m).1.broadcasts ms) := by
  rw [broadcasts]
  unfold timesBroadcast
  rw [countP_append]
  congr 1
  by_cases hold : m.id ∈ p.messages
  · rw [publishMessage_old hold, if_neg fun hx => hx.2 (hx.1 ▸ hold)]
    rfl
  · rw [publishMessage_new h hold]
    by_cases hx : m.id = x
    · simp [ChatEvent.accepted, ← hx, hold]
    · simp [ChatEvent.accepted, hx]

theorem Behind.mem (h : p.Coherent) (hx : Behind x since p) : x ∈ p.messages := by
  obtain ⟨front, back, horder, -⟩ := hx
  rw [h.mem, horder]
  exact mem_append_right _ mem_cons_self

theorem others_mono {ms ms' : List ChatMessage} (h : ∀ m ∈ ms, m ∈ ms') :
    others x ms ⊆ others x ms' := by
  refine Finset.erase_subset_erase _ fun y hy => ?_
  simp only [mem_toFinset, mem_map] at hy ⊢
  obtain ⟨m, hm, rfl⟩ := hy
  exact ⟨m, h m hm, rfl⟩

/-- While it is remembered, an id is not broadcast again. -/
theorem timesBroadcast_behind (h : p.Coherent) (hx : Behind x since p)
    (hfew : (others x (since ++ ms)).card < publishedMessageCache) :
    timesBroadcast x (p.broadcasts ms) = 0 := by
  induction ms generalizing p since with
  | nil => rfl
  | cons m ms ih =>
    have hstep := hx.publishMessage h m
      (lt_of_le_of_lt (Finset.card_le_card (others_mono (by simp; tauto))) hfew)
    have hrest := ih (h.publishMessage m) hstep (by simpa using hfew)
    rw [timesBroadcast_cons h, hrest, if_neg fun hnew => hnew.2 (hx.mem h)]

/-- A broadcast puts the id at the end of the queue, and from there it is not broadcast again. -/
theorem timesBroadcast_le_one (h : p.Coherent)
    (hfew : (othersAfter x ms).card < publishedMessageCache) :
    timesBroadcast x (p.broadcasts ms) ≤ 1 := by
  induction ms generalizing p with
  | nil => exact Nat.zero_le 1
  | cons m ms ih =>
    have hnext := h.publishMessage m
    by_cases hx : m.id = x
    · -- from here on all other ids count
      have hothers : othersAfter x (m :: ms) = others x (m :: ms) := by
        simp [othersAfter, others, hx]
      rw [hothers] at hfew
      have hrest : (othersAfter x ms).card < publishedMessageCache := by
        refine lt_of_le_of_lt
          (Finset.card_le_card (Finset.erase_subset_erase _ fun y hy => ?_)) hfew
        rw [mem_toFinset] at hy ⊢
        exact mem_cons_of_mem _ ((dropWhile_sublist _).subset hy)
      rw [timesBroadcast_cons h]
      by_cases hold : x ∈ p.messages
      · rw [if_neg fun hnew => hnew.2 hold, Nat.zero_add]
        exact ih hnext hrest
      · have hbehind : Behind x [] (p.publishMessage m).1 := by
          rw [publishMessage_new h (hx ▸ hold)]
          exact ⟨p.kept, [], by rw [hx], by simp⟩
        have hall : others x ([] ++ ms) ⊆ others x (m :: ms) :=
          others_mono fun _ => mem_cons_of_mem m
        rw [if_pos ⟨hx, hold⟩,
          timesBroadcast_behind hnext hbehind (lt_of_le_of_lt (Finset.card_le_card hall) hfew)]
    · rw [timesBroadcast_cons h, if_neg fun hnew => hx hnew.1, Nat.zero_add]
      exact ih hnext (by simpa [othersAfter, hx] using hfew)

/-- The actor's own list of ids is the queue, and it broadcasts what `publish_message` does. -/
theorem publishMessage_actor {a : ChatActor} (h : p.Coherent) (horder : a.published = p.order)
    (distributed : Bool) :
    (a.publishMessage m).published = (p.publishMessage m).1.order ∧
      (Task.accept m).emits distributed a = (p.publishMessage m).2 := by
  simp only [ChatActor.publishMessage, Task.emits]
  rw [horder]
  by_cases hold : m.id ∈ p.messages
  · rw [publishMessage_old hold, if_pos (h.mem.1 hold), if_pos (h.mem.1 hold)]
    exact ⟨horder, rfl⟩
  · have hm : m.id ∉ p.order := fun hmem => hold (h.mem.2 hmem)
    rw [publishMessage_new h hold, if_neg hm, if_neg hm]
    exact ⟨rfl, rfl⟩

end PublishedMessages

open PublishedMessages in
/-- For every sequence of messages: the set is that of the queue, the queue names nothing twice
and is bounded; and no stretch that goes on from some of them broadcasts an id twice, unless as
many other ids as the queue holds come after its first publication there. -/
theorem published_at_most_once (before stretch : List ChatMessage) :
    let p := new.publishAll before
    p.messages = p.order.toFinset ∧ p.order.Nodup ∧ p.order.length ≤ 4096 ∧
      ∀ x, (othersAfter x stretch).card < 4096 → timesBroadcast x (p.broadcasts stretch) ≤ 1 := by
  have h := Coherent.new.publishAll before
  exact ⟨h.messages_eq, h.nodup, h.length_le, fun x hfew => timesBroadcast_le_one h hfew⟩

def Sample.numbered (n : Nat) : ChatMessage :=
  ⟨⟨n⟩, ⟨7⟩, none, ⟨1⟩, ⟨"Ola", by decide⟩, tombstone, n, n, none, none⟩

open PublishedMessages Sample in
theorem published_at_most_once_announced :
    (othersAfter ⟨1⟩ [numbered 1, numbered 2, numbered 1]).card < 4096 ∧
      timesBroadcast ⟨1⟩ (new.broadcasts [numbered 1, numbered 2, numbered 1]) ≤ 1 :=
  ⟨by decide, (published_at_most_once [] _).2.2.2 ⟨1⟩ (by decide)⟩

end Sproyt
