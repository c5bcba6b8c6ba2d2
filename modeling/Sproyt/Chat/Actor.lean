import Sproyt.Db.Messages
import Sproyt.Lib.Broadcast
import Sproyt.Lib.Paging
import Mathlib.Data.List.Sort

/-!
# The chat actor

One actor takes the commands of a replica in turn. It asks the repository, and publishes what
has come of it to the rings of the channels, from which each subscription reads at its own
pace. Messages of other tasks and replicas are announced to it by their id.
-/

namespace Sproyt

structure ConnectionId where
  uuid : Uuid
deriving DecidableEq

inductive ChatEvent
  | channelCreated (channel : ChannelId) (createdBy : UserId) (source : Option ChannelId)
  | participantJoined (channel : ChannelId) (participant : UserId)
  | participantLeft (channel : ChannelId) (participant : UserId)
  | messageAccepted (message : ChatMessage)
  | messageEdited (message : ChatMessage)
  | messageDeleted (message : ChatMessage)
  | messageReactionChanged (change : MessageReactionChange)
  | readMarkerUpdated (channel : ChannelId) (user : UserId) (sequence : Nat)

def ChatEvent.accepted : ChatEvent → Option ChatMessage
  | messageAccepted m => some m
  | _ => none

/-! ### What the actor reads -/

/-- `MessageLimit::new`. -/
def messageLimit (value : Nat) : Nat := min value 200

structure LoadRecentMessages where
  actor : UserId
  channelId : ChannelId
  limit : Nat
  after : Option Nat
  before : Option Nat

/-- The messages of a channel, `order by sequence`. -/
def Db.ordered (db : Db) (c : ChannelId) : List ChatMessage :=
  (db.messages.filter fun m => m.channelId = c).insertionSort fun a b => a.sequence ≤ b.sequence

/-- `i64::try_from` of a sequence. -/
def signedSequence (sequence : Nat) : Except RepositoryError Nat :=
  if sequence < 2 ^ 63 then .ok sequence
  else .error .tooLarge

/-- `order by sequence desc limit ?` and a reversal give the last rows. -/
def Db.loadRecentMessages (db : Db) (query : LoadRecentMessages) :
    Except RepositoryError (List ChatMessage) :=
  if (db.channelRole? query.channelId query.actor).isNone then .error .permissionDenied
  else match query.after, query.before with
    | some _, some _ => .error .conflict
    | some after, none => do
      let after ← signedSequence after
      return ((db.ordered query.channelId).filter fun m => after < m.sequence).take query.limit
    | none, some before => do
      let before ← signedSequence before
      return Paging.lastRows query.limit
        ((db.ordered query.channelId).filter fun m => m.sequence < before)
    | none, none => return Paging.lastRows query.limit (db.ordered query.channelId)

/-- `select max(sequence)`, 0 without messages. -/
def Db.latestSequence (db : Db) (c : ChannelId) : Nat :=
  ((db.messages.filter fun m => m.channelId = c).map (·.sequence)).foldl max 0

/-! ### Subscriptions -/

inductive ServerEvent
  | chat (event : ChatEvent)
  | lagged (lastSeen latest skipped : Nat)

def channelEventCapacity : Nat := 256

abbrev Events := EventRing ChatEvent channelEventCapacity

def lastSequence (history : List ChatMessage) : Nat := (history.getLast?.map (·.sequence)).getD 0

/-- The task of `spawn_subscription`: the receiver, the last sequence seen, the number of events
skipped while it waits for the latest sequence, and what it has queued for the client, who has
the history from the answer to the command. -/
structure Subscription where
  connection : ConnectionId
  channel : ChannelId
  history : List ChatMessage
  next : Nat
  lastSeen : Nat
  lagging : Option Nat
  outbound : List ServerEvent

/-- `receiver.recv()`, should there be anything to receive. -/
def Subscription.receive (s : Subscription) (events : Events) : Option Subscription :=
  match s.lagging, events.recv s.next with
  | none, (.event e, next) =>
    some { s with
      next := next
      lastSeen := (e.accepted.map (·.sequence)).getD s.lastSeen
      outbound := s.outbound ++ [.chat e] }
  | none, (.lagged skipped, next) => some { s with next := next, lagging := some skipped }
  | _, _ => none

/-- The notice of a lag, once the latest sequence is known. -/
def Subscription.notify (s : Subscription) (latest : Nat) : Option Subscription :=
  s.lagging.map fun skipped =>
    { s with lagging := none, outbound := s.outbound ++ [.lagged s.lastSeen latest skipped] }

/-! ### The actor -/

structure ChannelState where
  participants : UserId → Option (List ConnectionId)
  events : Events

def ChannelState.new : ChannelState := ⟨fun _ => none, .new ChatEvent channelEventCapacity⟩

def ChannelState.setParticipant (channel : ChannelState) (u : UserId)
    (connections : Option (List ConnectionId)) : ChannelState :=
  { channel with participants := fun x => if x = u then connections else channel.participants x }

def publishedMessageCache : Nat := 4096

/-- The channels, and the ids of the messages published last, oldest first. -/
structure ChatActor where
  channels : ChannelId → Option ChannelState
  published : List MessageId

namespace ChatActor

def new : ChatActor := ⟨fun _ => none, []⟩

/-- `channel_mut`: a channel without subscriptions yet is new. -/
def channel (a : ChatActor) (c : ChannelId) : ChannelState := (a.channels c).getD .new

def setChannel (a : ChatActor) (c : ChannelId) (state : ChannelState) : ChatActor :=
  { a with channels := fun x => if x = c then some state else a.channels x }

/-- `publish` of a channel. Without a receiver the event is not kept, which nobody can tell:
a new receiver starts at the tail. -/
def publish (a : ChatActor) (c : ChannelId) (e : ChatEvent) : ChatActor :=
  a.setChannel c { a.channel c with events := (a.channel c).events.send e }

def publishMessage (a : ChatActor) (m : ChatMessage) : ChatActor :=
  if m.id ∈ a.published then a
  else
    let kept := if a.published.length = publishedMessageCache then a.published.drop 1
      else a.published
    { a with published := kept ++ [m.id] }.publish m.channelId (.messageAccepted m)

def setParticipant (a : ChatActor) (c : ChannelId) (u : UserId)
    (connections : Option (List ConnectionId)) : ChatActor :=
  a.setChannel c ((a.channel c).setParticipant u connections)

def without (connection : ConnectionId) (connections : List ConnectionId) : List ConnectionId :=
  connections.filter (· ≠ connection)

/-- `subscribe`, after the history is loaded. The receiver is there before the participant is
announced. -/
def register (a : ChatActor) (distributed : Bool) (presence : Except RepositoryError Unit)
    (connection : ConnectionId) (c : ChannelId) (u : UserId) (history : List ChatMessage) :
    ChatActor × Option Subscription :=
  let before := ((a.channel c).participants u).getD []
  let a' := a.setParticipant c u (some (before.insert connection))
  let subscription : Subscription :=
    ⟨connection, c, history, (a.channel c).events.tail, lastSequence history, none, []⟩
  if distributed then
    match presence with
    | .ok _ => (a', some subscription)
    | .error _ =>
      let rest := without connection (before.insert connection)
      (a'.setParticipant c u (if rest.isEmpty then none else some rest), none)
  else if before.isEmpty then (a'.publish c (.participantJoined c u), some subscription)
  else (a', some subscription)

def leave (a : ChatActor) (distributed : Bool) (c : ChannelId) (u : UserId)
    (connection : ConnectionId) : ChatActor :=
  match a.channels c with
  | none => a
  | some channel =>
    match channel.participants u with
    | none => a
    | some connections =>
      let rest := without connection connections
      if distributed || !rest.isEmpty then a.setParticipant c u (some rest)
      else (a.setParticipant c u none).publish c (.participantLeft c u)

end ChatActor

inductive Command
  | channelCreated (source channel : ChannelId) (createdBy : UserId)
  | subscribe (channel : ChannelId) (participant : UserId)
  | leave (channel : ChannelId) (participant : UserId) (connection : ConnectionId)
  | sendMessage (command : SendMessage) (requestId : Option String)
  | toggleReaction (actor : UserId) (message : MessageId) (emoji : String)
  | editMessage (command : EditMessage)
  | deleteMessage (command : DeleteMessage)
  | externalMessage (message : MessageId)
  | externalReaction (event : ChatEvent)
  | externalUpdate (event : ChatEvent)
  | externalChannel (event : ChatEvent)
  | externalPresence (event : ChatEvent)
  | expirePresence

/-- What the actor has still to do for a command, when the repository has answered. -/
inductive Task
  | publish (channel : ChannelId) (event : ChatEvent)
  | accept (message : ChatMessage)
  | register (channel : ChannelId) (participant : UserId) (history : List ChatMessage)
  | leave (channel : ChannelId) (participant : UserId) (connection : ConnectionId)

/-- A transaction of the actor: its answer gives the task, a refusal ends the command. -/
def answered {α : Type} (t : Sql α) (db : Db) (f : α → Task) : Option Task × Db :=
  match t.commit db with
  | (.ok a, db') => (some (f a), db')
  | (.error _, db') => (none, db')

/-- The transaction of `send_message`. -/
def sendBody (host : Host) (command : SendMessage) (requestId : Option String) (env : SendEnv) :
    Sql ChatMessage :=
  match requestId with
  | some id => appendMessageIdempotent host command id env
  | none => appendMessage host command env

def Command.ask (host : Host) (env : SendEnv) (command : Command) (db : Db) : Option Task × Db :=
  match command with
  | channelCreated source channel createdBy =>
    (some (.publish source (.channelCreated channel createdBy (some source))), db)
  | subscribe c u =>
    match db.loadRecentMessages ⟨u, c, messageLimit 50, none, none⟩ with
    | .ok history => (some (.register c u history), db)
    | .error _ => (none, db)
  | leave c u connection => (some (.leave c u connection), db)
  | sendMessage command requestId => answered (sendBody host command requestId env) db .accept
  | toggleReaction actor message emoji =>
    answered (toggleMessageReaction actor message emoji) db fun change =>
      .publish change.channelId (.messageReactionChanged change)
  | editMessage command =>
    answered (Sproyt.editMessage host command env.now) db fun m =>
      .publish m.channelId (.messageEdited m)
  | deleteMessage command =>
    answered (Sproyt.deleteMessage command env.now) db fun m =>
      .publish m.channelId (.messageDeleted m)
  | externalMessage id => ((db.message? id).map .accept, db)
  | externalReaction event =>
    match event with
    | .messageReactionChanged change => (some (.publish change.channelId event), db)
    | _ => (none, db)
  | externalUpdate event =>
    match event with
    | .messageEdited m | .messageDeleted m => (some (.publish m.channelId event), db)
    | _ => (none, db)
  | externalChannel event =>
    match event with
    | .channelCreated _ _ (some source) => (some (.publish source event), db)
    | _ => (none, db)
  | externalPresence event =>
    match event with
    | .participantJoined c _ | .participantLeft c _ => (some (.publish c event), db)
    | _ => (none, db)
  | expirePresence => (none, db)

def Task.run (distributed : Bool) (presence : Except RepositoryError Unit)
    (connection : ConnectionId) (t : Task) (a : ChatActor) : ChatActor × Option Subscription :=
  match t with
  | publish c event => (a.publish c event, none)
  | accept message => (a.publishMessage message, none)
  | register c u history => a.register distributed presence connection c u history
  | leave c u connection => (a.leave distributed c u connection, none)

end Sproyt
