import Sproyt.Chat.Actor
import Sproyt.Db.Growth

/-!
# The actor, the store and the subscriptions together

The store is written by any task of any replica. The actor of this replica takes a command,
asks the store and then publishes at most one event; each subscription receives at its own
pace.
-/

namespace Sproyt

abbrev Broadcast := Option (ChannelId × ChatEvent)

namespace ChatActor

variable {a : ChatActor} {c c' : ChannelId} {state : ChannelState}

theorem channel_setChannel :
    (a.setChannel c state).channel c' = if c' = c then state else a.channel c' := by
  by_cases h : c' = c
  · simp [channel, setChannel, h]
  · simp [channel, setChannel, h]

theorem events_setParticipant (u : UserId) (connections : Option (List ConnectionId)) :
    ((a.setParticipant c u connections).channel c').events = (a.channel c').events := by
  rw [setParticipant, channel_setChannel]
  by_cases h : c' = c
  · rw [if_pos h, h]
    rfl
  · rw [if_neg h]

theorem events_publish {e : ChatEvent} :
    ((a.publish c e).channel c').events =
      if c' = c then (a.channel c').events.send e else (a.channel c').events := by
  rw [publish, channel_setChannel]
  by_cases h : c' = c
  · rw [if_pos h, if_pos h, h]
  · rw [if_neg h, if_neg h]

def leaves (a : ChatActor) (distributed : Bool) (c : ChannelId) (u : UserId)
    (connection : ConnectionId) : Bool :=
  !distributed && ((a.channels c).bind (·.participants u)).any fun connections =>
    (without connection connections).isEmpty

def joins (a : ChatActor) (distributed : Bool) (c : ChannelId) (u : UserId) : Bool :=
  !distributed && (((a.channel c).participants u).getD []).isEmpty

end ChatActor

def Task.emits (distributed : Bool) (t : Task) (a : ChatActor) : Broadcast :=
  match t with
  | publish c event => some (c, event)
  | accept m => if m.id ∈ a.published then none else some (m.channelId, .messageAccepted m)
  | register c u _ => if a.joins distributed c u then some (c, .participantJoined c u) else none
  | leave c u connection =>
    if a.leaves distributed c u connection then some (c, .participantLeft c u) else none

def Broadcast.to (c : ChannelId) (events : Events) : Broadcast → Events
  | some (c', e) => if c = c' then events.send e else events
  | none => events

theorem Task.run_events {distributed : Bool} {presence : Except RepositoryError Unit}
    {connection : ConnectionId} (t : Task) (a : ChatActor) (c : ChannelId) :
    ((t.run distributed presence connection a).1.channel c).events =
      (t.emits distributed a).to c (a.channel c).events := by
  cases t with
  | publish c' event => exact ChatActor.events_publish
  | accept m =>
    simp only [Task.run, Task.emits, ChatActor.publishMessage]
    by_cases h : m.id ∈ a.published
    · rw [if_pos h, if_pos h]
      rfl
    · rw [if_neg h, if_neg h, ChatActor.events_publish]
      rfl
  | register c' u history =>
    simp only [Task.run, Task.emits, ChatActor.joins]
    by_cases hempty : (((a.channel c').participants u).getD []).isEmpty = true
    · rcases distributed with - | - <;> rcases presence with - | - <;>
        simp [ChatActor.register, hempty, ChatActor.events_publish,
          ChatActor.events_setParticipant, Broadcast.to]
    · rcases distributed with - | - <;> rcases presence with - | - <;>
        simp [ChatActor.register, hempty, ChatActor.events_setParticipant, Broadcast.to]
  | leave c' u k =>
    simp only [Task.run, Task.emits, ChatActor.leave, ChatActor.leaves]
    rcases Option.eq_none_or_eq_some (a.channels c') with hchannel | ⟨channel, hchannel⟩
    · simp [hchannel, Broadcast.to]
    · rcases Option.eq_none_or_eq_some (channel.participants u) with hu | ⟨connections, hu⟩
      · simp [hchannel, hu, Broadcast.to]
      · by_cases hrest : (ChatActor.without k connections).isEmpty = true
        · rcases distributed with - | - <;>
            simp [hchannel, hu, hrest, ChatActor.events_publish, ChatActor.events_setParticipant,
              Broadcast.to]
        · rcases distributed with - | - <;>
            simp [hchannel, hu, hrest, ChatActor.events_setParticipant, Broadcast.to]

/-! ### Steps -/

/-- The store, the actor with the rest of the command it is at, and the subscriptions. `known`
are the messages that were there when the actor started and those it has published since. -/
structure ChatWorld where
  db : Db
  actor : ChatActor
  task : Option Task
  subscriptions : List Subscription
  known : List MessageId

def ChatWorld.start (db : Db) : ChatWorld :=
  ⟨db, .new, none, [], db.messages.map (·.id)⟩

def Broadcast.message : Broadcast → Option ChatMessage
  | some (_, e) => e.accepted
  | none => none

/-- Any task writes the store; the actor takes a command or finishes it; a subscription receives,
gives notice of a lag, or ends: aborted, or refused by its queue or the store. -/
inductive ChatStep (host : Host) (distributed : Bool) : ChatWorld → Broadcast → ChatWorld → Prop
  | write {w : ChatWorld} (writer : Writer) :
      ChatStep host distributed w none { w with db := ((writer.body host).commit w.db).2 }
  | message {w : ChatWorld} (call : MessageCall) :
      ChatStep host distributed w none { w with db := ((call.body host).commit w.db).2 }
  | ask {w : ChatWorld} (command : Command) (env : SendEnv) (hidle : w.task = none) :
      ChatStep host distributed w none
        { w with
          db := (command.ask host env w.db).2
          task := (command.ask host env w.db).1 }
  | act {w : ChatWorld} (t : Task) (presence : Except RepositoryError Unit)
      (connection : ConnectionId) (htask : w.task = some t) :
      ChatStep host distributed w (t.emits distributed w.actor)
        ⟨w.db, (t.run distributed presence connection w.actor).1, none,
          (t.run distributed presence connection w.actor).2.toList ++ w.subscriptions,
          ((t.emits distributed w.actor).message.map (·.id)).toList ++ w.known⟩
  | receive {db : Db} {actor : ChatActor} {task : Option Task} {known : List MessageId}
      {before after : List Subscription} {s s' : Subscription}
      (h : s.receive (actor.channel s.channel).events = some s') :
      ChatStep host distributed ⟨db, actor, task, before ++ s :: after, known⟩ none
        ⟨db, actor, task, before ++ s' :: after, known⟩
  | notify {db : Db} {actor : ChatActor} {task : Option Task} {known : List MessageId}
      {before after : List Subscription} {s s' : Subscription}
      (h : s.notify (db.latestSequence s.channel) = some s') :
      ChatStep host distributed ⟨db, actor, task, before ++ s :: after, known⟩ none
        ⟨db, actor, task, before ++ s' :: after, known⟩
  | close {db : Db} {actor : ChatActor} {task : Option Task} {known : List MessageId}
      {before after : List Subscription} {s : Subscription} :
      ChatStep host distributed ⟨db, actor, task, before ++ s :: after, known⟩ none
        ⟨db, actor, task, before ++ after, known⟩

end Sproyt
