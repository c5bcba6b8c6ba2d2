import Sproyt.Chat.World
import Mathlib.Data.List.Chain

/-!
# Presence

A replica that announces presence itself says that a participant has joined a channel with the
first connection, and that they have left with the last one. With presence shared between
replicas the announcements come from the store, and the actor only keeps its connections.
-/

namespace Sproyt

open Broadcast ChatActor List Option

/-! ### The connections of a participant -/

variable {history : List ChatMessage}

namespace ChatActor

variable {a : ChatActor} {c c' : ChannelId} {u u' : UserId} {k : ConnectionId}
  {distributed : Bool}

def connections (a : ChatActor) (c : ChannelId) (u : UserId) : Option (List ConnectionId) :=
  (a.channel c).participants u

theorem connections_setParticipant (x : Option (List ConnectionId)) :
    (a.setParticipant c u x).connections c' u' =
      if c' = c ∧ u' = u then x else a.connections c' u' := by
  rw [connections, setParticipant, channel_setChannel]
  by_cases hc : c' = c
  · subst hc
    by_cases hu : u' = u
    · simp [ChannelState.setParticipant, hu]
    · simp [ChannelState.setParticipant, hu, connections]
  · simp [hc, connections]

theorem connections_publish {e : ChatEvent} :
    (a.publish c e).connections c' u' = a.connections c' u' := by
  rw [connections, publish, channel_setChannel]
  by_cases hc : c' = c
  · rw [if_pos hc, hc]
    rfl
  · rw [if_neg hc]
    rfl

theorem connections_publishMessage {m : ChatMessage} :
    (a.publishMessage m).connections c u = a.connections c u := by
  rw [publishMessage]
  split
  · rfl
  · exact connections_publish

theorem channels_bind : (a.channels c).bind (·.participants u) = a.connections c u := by
  rcases eq_none_or_eq_some (a.channels c) with h | ⟨state, h⟩
  · simp [connections, channel, h, ChannelState.new]
  · simp [connections, channel, h]

/-- `subscribe` adds the connection, and takes it back if the store refuses the presence. -/
theorem connections_register {presence : Except RepositoryError Unit} :
    (a.register distributed presence k c u history).1.connections c' u' =
      if c' = c ∧ u' = u then
        if (a.register distributed presence k c u history).2.isSome then
          some (((a.connections c u).getD []).insert k)
        else
          let rest := without k (((a.connections c u).getD []).insert k)
          if rest.isEmpty then none else some rest
      else a.connections c' u' := by
  simp only [register]
  split
  · split
    · rw [connections_setParticipant]
      rfl
    · rw [connections_setParticipant, connections_setParticipant]
      split
      · rfl
      · rfl
  · split
    · rw [connections_publish, connections_setParticipant]
      rfl
    · rw [connections_setParticipant]
      rfl

theorem connections_leave :
    (a.leave distributed c u k).connections c' u' =
      if c' = c ∧ u' = u then
        (a.connections c u).bind fun connections =>
          if distributed || !(without k connections).isEmpty then some (without k connections)
          else none else a.connections c' u' := by
  rw [← channels_bind (c := c) (u := u), leave]
  rcases eq_none_or_eq_some (a.channels c) with h | ⟨channel, h⟩
  · simp only [h, bind_none]
    split
    · next heq =>
      rw [heq.1, heq.2, ← channels_bind, h]
      rfl
    · rfl
  · rcases eq_none_or_eq_some (channel.participants u) with hu | ⟨connections, hu⟩
    · simp only [h, hu, bind_some, bind_none]
      split
      · next heq => rw [heq.1, heq.2, ← channels_bind, h, bind_some, hu]
      · rfl
    · simp only [h, hu, bind_some]
      split
      · rw [connections_setParticipant]
      · rw [connections_publish, connections_setParticipant]

end ChatActor

/-! ### Commands -/

/-- A command that the actor has handled: the connection it was for, whether a subscription was
opened, and what was broadcast. -/
structure Handled where
  task : Task
  connection : ConnectionId
  opened : Bool
  event : Broadcast

def Task.relays : Task → Bool
  | publish _ (.participantJoined ..) | publish _ (.participantLeft ..) => true
  | _ => false

inductive PresenceStep (distributed : Bool) : ChatActor → Handled → ChatActor → Prop
  | handle {a : ChatActor} (t : Task) (presence : Except RepositoryError Unit)
      (connection : ConnectionId) (hown : t.relays = false) :
      PresenceStep distributed a
        ⟨t, connection, (t.run distributed presence connection a).2.isSome, t.emits distributed a⟩
        (t.run distributed presence connection a).1

def Handled.subscribed (c : ChannelId) (u : UserId) (before : List ConnectionId)
    (h : Handled) : List ConnectionId :=
  match h.task with
  | .register c' u' _ => if c = c' ∧ u = u' ∧ h.opened then before.insert h.connection else before
  | .leave c' u' k => if c = c' ∧ u = u' then ChatActor.without k before else before
  | _ => before

def subscribed (c : ChannelId) (u : UserId) (trace : List Handled) : List ConnectionId :=
  trace.foldl (Handled.subscribed c u) []

inductive Presence
  | joined
  | left
deriving DecidableEq

def Broadcast.presence (c : ChannelId) (u : UserId) : Broadcast → Option Presence
  | some (_, .participantJoined c' u') => if c = c' ∧ u = u' then some .joined else none
  | some (_, .participantLeft c' u') => if c = c' ∧ u = u' then some .left else none
  | _ => none

def presenceEvents (c : ChannelId) (u : UserId) (trace : List Handled) : List Presence :=
  trace.filterMap fun h => h.event.presence c u

/-! ### Joined and left in turn -/

/-- The events of a participant alternate, from joined on, and the last one says whether there
are connections. -/
structure InTurn (events : List Presence) (connections : List ConnectionId) : Prop where
  turns : events.IsChain (· ≠ ·)
  first : events.head? ≠ some .left
  last : events.getLast? = some .joined ↔ connections ≠ []

def Turns (before : List ConnectionId) : Option Presence → List ConnectionId → Prop
  | some .joined, after => before = [] ∧ after ≠ []
  | some .left, after => before ≠ [] ∧ after = []
  | none, after => before = [] ↔ after = []

variable {distributed : Bool} {events : List Presence} {before after : List ConnectionId}
  {a a' : ChatActor} {c : ChannelId} {u : UserId} {l : Handled} {trace : List Handled}

theorem InTurn.step (h : InTurn events before) {e : Option Presence}
    (hturns : Turns before e after) : InTurn (events ++ e.toList) after := by
  rcases e with - | e
  · rw [toList_none, append_nil]
    exact ⟨h.turns, h.first, h.last.trans (not_congr hturns)⟩
  · have hother : ∀ x ∈ events.getLast?, x ≠ e := by
      rintro x hx rfl
      cases x with
      | joined => exact h.last.1 hx hturns.1
      | left => cases hx.symm.trans (h.last.2 hturns.1)
    refine ⟨?_, ?_, ?_⟩
    · refine isChain_append.2 ⟨h.turns, isChain_singleton _, fun x hx y hy => ?_⟩
      rw [← some.inj hy]
      exact hother x hx
    · rcases events with - | ⟨x, events⟩
      · cases e with
        | joined => exact fun heq => by cases heq
        | left => cases h.last.2 hturns.1
      · exact h.first
    · rw [toList_some, getLast?_concat]
      cases e with
      | joined => exact ⟨fun _ => hturns.2, fun _ => rfl⟩
      | left => exact ⟨fun heq => (by cases heq), fun hne => absurd hturns.2 hne⟩

/-- The actor has the connections that are subscribed, and no entry without any. -/
def Registered (a : ChatActor) (c : ChannelId) (u : UserId)
    (connections : List ConnectionId) : Prop :=
  a.connections c u = if connections.isEmpty then none else some connections

theorem Registered.getD (h : Registered a c u before) : (a.connections c u).getD [] = before := by
  rw [h]
  split
  · next hempty => exact (isEmpty_iff.1 hempty).symm
  · rfl

theorem insert_ne_nil {k : ConnectionId} : before.insert k ≠ [] :=
  ne_nil_of_mem mem_insert_self

theorem presence_of_own {c' : ChannelId} {e : ChatEvent}
    (hown : (Task.publish c' e).relays = false) : presence c u (some (c', e)) = none := by
  cases e <;> first | rfl | cases hown

/-- Without shared presence every subscription is opened. -/
theorem register_opened {presence : Except RepositoryError Unit} {k : ConnectionId} :
    (a.register false presence k c u history).2.isSome = true := by
  simp only [register, Bool.false_eq_true, if_false]
  split <;> rfl

theorem register_step {presence : Except RepositoryError Unit} {k : ConnectionId}
    {c' : ChannelId} {u' : UserId} (h : Registered a c u before) :
    Registered (a.register false presence k c' u' history).1 c u
        (if c = c' ∧ u = u' then before.insert k else before) ∧
      Turns before
        (Broadcast.presence c u
          (if a.joins false c' u' then some (c', .participantJoined c' u') else none))
        (if c = c' ∧ u = u' then before.insert k else before) := by
  by_cases hsame : c = c' ∧ u = u'
  · obtain ⟨rfl, rfl⟩ := hsame
    have hjoins : a.joins false c u = before.isEmpty := by
      show ((a.connections c u).getD []).isEmpty = _
      rw [h.getD]
    rw [if_pos ⟨rfl, rfl⟩, Registered, ChatActor.connections_register, if_pos ⟨rfl, rfl⟩,
      if_pos register_opened, h.getD, hjoins]
    refine ⟨(if_neg (by simp [insert_ne_nil])).symm, ?_⟩
    by_cases hempty : before = []
    · rw [if_pos (isEmpty_iff.2 hempty)]
      simp only [Broadcast.presence, and_self, if_true]
      exact ⟨hempty, insert_ne_nil⟩
    · rw [if_neg (by simpa using hempty)]
      exact ⟨fun hnil => absurd hnil hempty, fun hnil => absurd hnil (insert_ne_nil)⟩
  · rw [if_neg hsame, Registered, ChatActor.connections_register, if_neg hsame]
    refine ⟨h, ?_⟩
    split
    · simp only [Broadcast.presence, if_neg hsame]
      exact Iff.rfl
    · exact Iff.rfl

theorem leave_step {k : ConnectionId} {c' : ChannelId} {u' : UserId} (h : Registered a c u before) :
    Registered (a.leave false c' u' k) c u
        (if c = c' ∧ u = u' then without k before else before) ∧
      Turns before
        (presence c u (if a.leaves false c' u' k then some (c', .participantLeft c' u') else none))
        (if c = c' ∧ u = u' then without k before else before) := by
  by_cases hsame : c = c' ∧ u = u'
  · obtain ⟨rfl, rfl⟩ := hsame
    have hleaves : a.leaves false c u k =
        (a.connections c u).any fun x => (without k x).isEmpty := by
      rw [leaves, channels_bind]
      rfl
    rw [if_pos ⟨rfl, rfl⟩, Registered, connections_leave, if_pos ⟨rfl, rfl⟩, hleaves, h]
    by_cases hempty : before = []
    · subst hempty
      exact ⟨rfl, Iff.rfl⟩
    · have hentry : (if before.isEmpty then none else some before) = some before :=
        if_neg (by simpa using hempty)
      rw [hentry, bind_some, any_some]
      by_cases hrest : without k before = []
      · simp only [hrest, isEmpty_nil, Bool.not_true, Bool.or_false, Bool.false_eq_true,
          if_false, if_true, presence, and_self, true_and]
        exact ⟨hempty, rfl⟩
      · have hsome : (without k before).isEmpty = false := by simpa using hrest
        simp only [hsome, Bool.not_false, Bool.or_true, if_true, Bool.false_eq_true, if_false,
          true_and]
        exact ⟨fun hnil => absurd hnil hempty, fun hnil => absurd hnil hrest⟩
  · rw [if_neg hsame, Registered, connections_leave, if_neg hsame]
    refine ⟨h, ?_⟩
    split
    · simp only [presence, if_neg hsame]
      exact Iff.rfl
    · exact Iff.rfl

theorem PresenceStep.turns (hstep : PresenceStep false a l a') (h : Registered a c u before) :
    Registered a' c u (l.subscribed c u before) ∧
      Turns before (l.event.presence c u) (l.subscribed c u before) := by
  obtain ⟨t, presence, k, hown⟩ := hstep
  cases t with
  | publish c' e =>
    refine ⟨(ChatActor.connections_publish).trans h, ?_⟩
    show Turns before (Broadcast.presence c u (some (c', e))) before
    rw [presence_of_own hown]
    exact Iff.rfl
  | accept m =>
    refine ⟨(ChatActor.connections_publishMessage).trans h, ?_⟩
    show Turns before (Broadcast.presence c u (Task.emits false (.accept m) a)) before
    simp only [Task.emits]
    split <;> exact Iff.rfl
  | register c' u' history =>
    simp only [Handled.subscribed, Task.run, register_opened, and_true]
    exact register_step h
  | leave c' u' k' => exact leave_step h

/-! ### Runs -/

/-- The condition on a command while presence is shared: the connection that leaves is not the
last one of its participant. -/
def LeavesOthers (distributed : Bool) (a : ChatActor) (l : Handled) : Prop :=
  distributed = true → ∀ c u k connections, l.task = .leave c u k →
    a.connections c u = some connections → ChatActor.without k connections ≠ []

def Populated (a : ChatActor) : Prop := ∀ c u, a.connections c u ≠ some []

theorem populated_of_registered (h : ∀ c u, ∃ connections, Registered a c u connections) :
    Populated a := by
  intro c u
  obtain ⟨connections, hentry⟩ := h c u
  rw [hentry]
  split
  · exact fun heq => by cases heq
  · next hempty =>
    intro heq
    rw [some.inj heq] at hempty
    exact hempty rfl

theorem PresenceStep.populated (hstep : PresenceStep true a l a') (hl : LeavesOthers true a l)
    (h : Populated a) : Populated a' := by
  obtain ⟨t, presence, k, -⟩ := hstep
  intro c u
  cases t with
  | publish c' e =>
    show (a.publish c' e).connections c u ≠ _
    rw [connections_publish]
    exact h c u
  | accept m =>
    show (a.publishMessage m).connections c u ≠ _
    rw [connections_publishMessage]
    exact h c u
  | register c' u' history =>
    show (a.register true presence k c' u' history).1.connections c u ≠ _
    rw [connections_register]
    split
    · split
      · exact fun heq => insert_ne_nil (some.inj heq)
      · simp only
        split
        · exact fun heq => by cases heq
        · next hrest =>
          intro heq
          rw [some.inj heq] at hrest
          exact hrest rfl
    · exact h c u
  | leave c' u' k' =>
    show (a.leave true c' u' k').connections c u ≠ _
    rw [connections_leave]
    split
    · intro heq
      obtain ⟨connections, hentry, hrest⟩ := bind_eq_some_iff.1 heq
      rw [Bool.true_or, if_pos rfl] at hrest
      exact hl rfl c' u' k' connections rfl hentry (some.inj hrest)
    · exact h c u

/-- With shared presence the actor announces nobody itself. -/
theorem PresenceStep.silent (hstep : PresenceStep true a l a') : l.event.presence c u = none := by
  obtain ⟨t, presence, k, hown⟩ := hstep
  cases t with
  | publish c' e => exact presence_of_own hown
  | accept m =>
    show Broadcast.presence c u (Task.emits true (.accept m) a) = none
    simp only [Task.emits]
    split <;> rfl
  | register | leave => rfl

theorem presenceEvents_concat :
    presenceEvents c u (trace ++ [l]) =
      presenceEvents c u trace ++ (l.event.presence c u).toList := by
  rw [presenceEvents, filterMap_append]
  rcases eq_none_or_eq_some (l.event.presence c u) with he | ⟨e, he⟩ <;>
    simp [presenceEvents, he]

theorem registered_run (h : Run (Guarded (LeavesOthers false) (PresenceStep false)) .new trace a) :
    Registered a c u (subscribed c u trace) ∧
      InTurn (presenceEvents c u trace) (subscribed c u trace) := by
  induction h with
  | refl => exact ⟨rfl, ⟨isChain_nil, nofun, by simp [presenceEvents, subscribed]⟩⟩
  | @step trace b b' l _ hstep ih =>
    obtain ⟨hregistered, hturns⟩ := hstep.2.turns ih.1
    have hsubscribed : subscribed c u (trace ++ [l]) =
        l.subscribed c u (subscribed c u trace) := foldl_concat ..
    rw [hsubscribed, presenceEvents_concat]
    exact ⟨hregistered, ih.2.step hturns⟩

theorem silent_run (h : Run (Guarded (LeavesOthers true) (PresenceStep true)) .new trace a)
    (c : ChannelId) (u : UserId) : presenceEvents c u trace = [] := by
  induction h with
  | refl => rfl
  | step _ hstep ih => rw [presenceEvents_concat, ih, hstep.2.silent, toList_none]; rfl

/-- Whatever connections subscribe and leave, a replica that announces presence itself does so
in turn and in step with the connections, and no participant stays without connections. -/
theorem presence_is_consistent
    (h : Run (Guarded (LeavesOthers distributed) (PresenceStep distributed)) .new trace a) :
    (distributed = false → ∀ c u, InTurn (presenceEvents c u trace) (subscribed c u trace)) ∧
      (distributed = true → ∀ c u, presenceEvents c u trace = []) ∧ Populated a := by
  cases distributed with
  | false =>
    exact ⟨fun _ c u => (registered_run h).2, nofun,
      populated_of_registered fun c u => ⟨_, (registered_run h).1⟩⟩
  | true =>
    refine ⟨nofun, fun _ => silent_run h, ?_⟩
    refine h.invariant (fun b l b' hb hstep => hstep.2.populated hstep.1 hb) fun c u => ?_
    exact fun heq => by cases heq

/-! ### Two connections -/

namespace Sample

def joining (k : ConnectionId) : Handled :=
  ⟨.register room alice [], k, true, none⟩

def leaving (k : ConnectionId) : Handled := ⟨.leave room alice k, ⟨0⟩, false, none⟩

def attended (connections : List ConnectionId) : ChatActor :=
  connections.foldl (fun a k => (a.register true (.ok ()) k room alice []).1) .new

theorem joining_step (k : ConnectionId) :
    PresenceStep true a (joining k) (a.register true (.ok ()) k room alice []).1 :=
  .handle (.register room alice []) (.ok ()) k rfl

theorem leaving_step (k : ConnectionId) :
    PresenceStep true a (leaving k) (a.leave true room alice k) :=
  .handle (.leave room alice k) (.ok ()) ⟨0⟩ rfl

end Sample

open Sample in
theorem presence_is_consistent_for_two_connections :
    Run (Guarded (LeavesOthers true) (PresenceStep true)) .new
        [joining ⟨1⟩, joining ⟨2⟩, leaving ⟨1⟩] ((attended [⟨1⟩, ⟨2⟩]).leave true room alice ⟨1⟩) ∧
      Populated ((attended [⟨1⟩, ⟨2⟩]).leave true room alice ⟨1⟩) := by
  have hjoin : ∀ a k, Guarded (LeavesOthers true) (PresenceStep true) a (joining k)
      (a.register true (.ok ()) k room alice []).1 :=
    fun a k => ⟨fun _ _ _ _ _ htask => (by cases htask), joining_step k⟩
  have hleave : LeavesOthers true (attended [⟨1⟩, ⟨2⟩]) (leaving ⟨1⟩) := by
    intro _ c u k connections htask hentry
    cases htask
    obtain rfl := Option.some.inj hentry
    decide
  have hrun := ((Run.single (hjoin .new ⟨1⟩)).step (hjoin _ ⟨2⟩)).step ⟨hleave, leaving_step ⟨1⟩⟩
  exact ⟨hrun, (presence_is_consistent hrun).2.2⟩

open Sample in
/-- With shared presence, the last connection leaves an empty set behind. -/
theorem presence_leaves_an_empty_set :
    ∃ trace a, Run (PresenceStep true) .new trace a ∧ a.connections room alice = some [] :=
  ⟨_, _, (Run.single (joining_step ⟨1⟩)).step (leaving_step ⟨1⟩), rfl⟩

end Sproyt
