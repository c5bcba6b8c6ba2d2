import Sproyt.Chat.History
import Sproyt.Chat.World

/-!
# The event stream socket

Browsers that cannot keep a web socket read the events of a channel from a stream and post
their commands. The sockets of a page share one map of the highest number seen in each channel,
from which a stream that is opened again says where it goes on.
-/

namespace Sproyt

/-- The frames of the wire: those that numbers are remembered from, and the others. -/
inductive SseFrame
  | chat (event : ChatEvent)
  | lagged (channel : ChannelId) (lastSeen latest skipped : Nat)
  | messageAccepted (message : ChatMessage)
  | messagesLoaded (channel : ChannelId) (messages : List ChatMessage)
  | subscriptionStarted (channel : ChannelId) (requestId : String) (history : List ChatMessage)
  | subscriptionEnded (channel : ChannelId) (requestId : String)
  | other

/-! ### The numbers that are remembered -/

/-- The map `lastSequence` that all sockets share. -/
abbrev LastSequence := ChannelId → Option Nat

namespace LastSequence

def number (last : LastSequence) (c : ChannelId) : Nat := (last c).getD 0

def raise (last : LastSequence) (c : ChannelId) (sequence : Nat) : LastSequence :=
  fun x => if x = c then some (max (last.number c) sequence) else last x

/-- The parameter `after` of a stream. -/
def after (last : LastSequence) (c : ChannelId) : Option Nat := (last c).filter (0 < ·)

end LastSequence

/-- The channel whose number a frame raises, and the number. -/
def SseFrame.sequence? : SseFrame → Option (ChannelId × Nat)
  | chat (.messageAccepted m) => some (m.channelId, m.sequence)
  | messageAccepted m => some (m.channelId, m.sequence)
  | messagesLoaded c messages => messages.getLast?.map fun m => (c, m.sequence)
  | subscriptionStarted c _ history => history.getLast?.map fun m => (c, m.sequence)
  | _ => none

def LastSequence.rememberSequence (last : LastSequence) (frame : SseFrame) : LastSequence :=
  match frame.sequence? with
  | some (c, sequence) => last.raise c sequence
  | none => last

/-! ### Streams -/

/-- A stream of a channel, from the server to the client: what was asked for, the subscription
once the server has it, and how many frames the client has taken. -/
structure SseStream where
  channel : ChannelId
  requestId : String
  after : Option Nat
  subscription : Option Subscription
  read : Nat

def ServerEvent.frame (c : ChannelId) : ServerEvent → SseFrame
  | chat e => .chat e
  | lagged lastSeen latest skipped => .lagged c lastSeen latest skipped

/-- What `events_handler` tells a client of the messages before its history. -/
def SseStream.notice (st : SseStream) (history : List ChatMessage) : List SseFrame :=
  ((missingBeforeHistory st.after (firstNumber history)).map fun missing =>
    .lagged st.channel missing.1 (lastSequence history) missing.2).toList

/-- The frames that `events_handler` has yielded: the history, a notice of what it lacks, and
what the subscription has received. -/
def SseStream.frames (st : SseStream) : List SseFrame :=
  match st.subscription with
  | none => []
  | some s =>
    .subscriptionStarted st.channel st.requestId s.history ::
      (st.notice s.history ++ s.outbound.map (·.frame st.channel))

/-! ### Sockets -/

inductive ReadyState
  | connecting
  | opened
  | closing
  | closed
deriving DecidableEq

inductive SseCommand
  | subscribeChannel (channel : ChannelId) (requestId : String)
  | unsubscribeChannel (channel : ChannelId) (requestId : String)
  | sendMessage (command : SendMessage) (requestId : String)
  | loadRecentMessages (query : LoadRecentMessages)
  | other

/-- A command that is being posted: the actor is at it, or it was answered. -/
inductive SseFetch
  | asked (message : ChatMessage)
  | answered (frame : SseFrame)

/-- `source` is the stream of the current generation, `none` for one without a channel. The
first command of the queue is the one being carried out. -/
structure SseSocket where
  readyState : ReadyState
  activeChannel : Option ChannelId
  pendingSubscription : Option (ChannelId × String)
  source : Option SseStream
  queue : List SseCommand
  fetch : Option SseFetch

namespace SseSocket

def new : SseSocket := ⟨.connecting, none, none, none, [], none⟩

/-- `openStream`, with the end of a subscription that was not acknowledged. -/
def openStream (last : LastSequence) (k : SseSocket) (target : Option (ChannelId × String)) :
    SseSocket × List SseFrame :=
  ({ k with
      activeChannel := target.map (·.1)
      pendingSubscription := target
      source := target.map fun x => ⟨x.1, x.2, last.after x.1, none, 0⟩ },
    (k.pendingSubscription.map fun x => .subscriptionEnded x.1 x.2).toList)

def unsubscribe (last : LastSequence) (k : SseSocket) (c : ChannelId) (requestId : String) :
    SseSocket × List SseFrame :=
  let opened := if k.activeChannel = some c then k.openStream last none else (k, [])
  (opened.1, opened.2 ++ [.subscriptionEnded c requestId])

def close (k : SseSocket) : SseSocket :=
  { k with readyState := .closed, source := none, fetch := none }

def take (k : SseSocket) (st : SseStream) (frame : SseFrame) : SseSocket :=
  { k with
    source := some { st with read := st.read + 1 }
    pendingSubscription :=
      match frame with
      | .subscriptionStarted _ id _ => if id = st.requestId then none else k.pendingSubscription
      | _ => k.pendingSubscription }

def subscription? (k : SseSocket) : Option Subscription := k.source.bind (·.subscription)

def loaded (db : Db) (query : LoadRecentMessages) : SseFrame :=
  match db.loadRecentMessages query with
  | .ok messages => .messagesLoaded query.channelId messages
  | .error _ => .other

def sending : Option Task → SseFetch
  | some (.accept m) => .asked m
  | _ => .answered .other

end SseSocket

/-! ### Steps -/

/-- What a step publishes at the server, what it emits to the client, and the stream it opens. -/
structure SseLabel where
  published : Broadcast
  emitted : List SseFrame
  opened : Option (ChannelId × Option Nat)

namespace SseLabel

def silent : SseLabel := ⟨none, [], none⟩

def emits (frames : List SseFrame) : SseLabel := ⟨none, frames, none⟩

end SseLabel

inductive SocketStep (host : Host) (distributed : Bool) (last : LastSequence) :
    ChatWorld → SseSocket → SseLabel → ChatWorld → SseSocket → Prop
  -- the client
  | opens {chat : ChatWorld} {k : SseSocket} (h : k.readyState = .connecting) :
      SocketStep host distributed last chat k .silent chat { k with readyState := .opened }
  | send {chat : ChatWorld} {k : SseSocket} (h : k.readyState = .opened) (command : SseCommand) :
      SocketStep host distributed last chat k .silent chat
        { k with queue := k.queue ++ [command] }
  | subscribe {chat : ChatWorld} {k : SseSocket} {c : ChannelId} {id : String}
      {rest : List SseCommand} (h : k.readyState = .opened)
      (hqueue : k.queue = .subscribeChannel c id :: rest) :
      SocketStep host distributed last chat k
        ⟨none, ({ k with queue := rest }.openStream last (some (c, id))).2, some (c, last.after c)⟩
        chat ({ k with queue := rest }.openStream last (some (c, id))).1
  | unsubscribe {chat : ChatWorld} {k : SseSocket} {c : ChannelId} {id : String}
      {rest : List SseCommand} (h : k.readyState = .opened)
      (hqueue : k.queue = .unsubscribeChannel c id :: rest) :
      SocketStep host distributed last chat k
        (.emits ({ k with queue := rest }.unsubscribe last c id).2) chat
        ({ k with queue := rest }.unsubscribe last c id).1
  | respond {chat : ChatWorld} {k : SseSocket} {frame : SseFrame} {command : SseCommand}
      {rest : List SseCommand} (h : k.readyState = .opened) (hqueue : k.queue = command :: rest)
      (hfetch : k.fetch = some (.answered frame)) :
      SocketStep host distributed last chat k (.emits [frame]) chat
        { k with queue := rest, fetch := none }
  | message {chat : ChatWorld} {k : SseSocket} {st : SseStream} {frame : SseFrame}
      (h : k.readyState = .opened) (hsource : k.source = some st)
      (hframe : st.frames[st.read]? = some frame) :
      SocketStep host distributed last chat k (.emits [frame]) chat (k.take st frame)
  -- `circles_changed` comes on every stream
  | notice {chat : ChatWorld} {k : SseSocket} (h : k.readyState = .opened) :
      SocketStep host distributed last chat k (.emits [.other]) chat k
  -- an error, a timer, an answer that is not OK, or the connection
  | close {chat : ChatWorld} {k : SseSocket} :
      SocketStep host distributed last chat k .silent chat k.close
  -- the commands, at the server
  | post {chat : ChatWorld} {k : SseSocket} {command : SendMessage} {id : String}
      {rest : List SseCommand} (env : SendEnv) (hqueue : k.queue = .sendMessage command id :: rest)
      (hfetch : k.fetch = none) (hidle : chat.task = none) :
      SocketStep host distributed last chat k .silent
        { chat with
          db := ((Command.sendMessage command (some id)).ask host env chat.db).2
          task := ((Command.sendMessage command (some id)).ask host env chat.db).1 }
        { k with
          fetch := some (SseSocket.sending
            ((Command.sendMessage command (some id)).ask host env chat.db).1) }
  | reply {chat : ChatWorld} {k : SseSocket} {m : ChatMessage}
      (presence : Except RepositoryError Unit) (connection : ConnectionId)
      (hfetch : k.fetch = some (.asked m)) (htask : chat.task = some (.accept m)) :
      SocketStep host distributed last chat k
        ⟨(Task.accept m).emits distributed chat.actor, [], none⟩
        ⟨chat.db, ((Task.accept m).run distributed presence connection chat.actor).1, none,
          chat.subscriptions,
          (((Task.accept m).emits distributed chat.actor).message.map (·.id)).toList ++
            chat.known⟩
        { k with fetch := some (.answered (.messageAccepted m)) }
  | load {chat : ChatWorld} {k : SseSocket} {query : LoadRecentMessages}
      {rest : List SseCommand} (hqueue : k.queue = .loadRecentMessages query :: rest)
      (hfetch : k.fetch = none) :
      SocketStep host distributed last chat k .silent chat
        { k with fetch := some (.answered (SseSocket.loaded chat.db query)) }
  | serve {chat : ChatWorld} {k : SseSocket} {rest : List SseCommand}
      (hqueue : k.queue = .other :: rest) (hfetch : k.fetch = none) :
      SocketStep host distributed last chat k .silent chat
        { k with fetch := some (.answered .other) }
  -- the stream, at the server
  | started {chat : ChatWorld} {k : SseSocket} {st : SseStream} {u : UserId}
      {history : List ChatMessage} {s : Subscription} (presence : Except RepositoryError Unit)
      (connection : ConnectionId) (hsource : k.source = some st) (hnone : st.subscription = none)
      (htask : chat.task = some (.register st.channel u history))
      (hs : ((Task.register st.channel u history).run distributed presence connection
        chat.actor).2 = some s) :
      SocketStep host distributed last chat k
        ⟨(Task.register st.channel u history).emits distributed chat.actor, [], none⟩
        ⟨chat.db, ((Task.register st.channel u history).run distributed presence connection
          chat.actor).1, none, chat.subscriptions,
          (((Task.register st.channel u history).emits distributed chat.actor).message.map
            (·.id)).toList ++ chat.known⟩
        { k with source := some { st with subscription := some s } }
  | receive {chat : ChatWorld} {k : SseSocket} {st : SseStream} {s s' : Subscription}
      (hsource : k.source = some st) (hs : st.subscription = some s)
      (h : s.receive (chat.actor.channel s.channel).events = some s') :
      SocketStep host distributed last chat k .silent chat
        { k with source := some { st with subscription := some s' } }
  | notify {chat : ChatWorld} {k : SseSocket} {st : SseStream} {s s' : Subscription}
      (hsource : k.source = some st) (hs : st.subscription = some s)
      (h : s.notify (chat.db.latestSequence s.channel) = some s') :
      SocketStep host distributed last chat k .silent chat
        { k with source := some { st with subscription := some s' } }

/-- The server, the map of numbers, the sockets, and all frames they have emitted so far. -/
structure SseWorld where
  chat : ChatWorld
  last : LastSequence
  sockets : List SseSocket
  emitted : List SseFrame

def SseWorld.start (db : Db) : SseWorld := ⟨.start db, fun _ => none, [], []⟩

/-- The server goes on by itself, the page makes another socket, or a socket takes a step: what
it emits is remembered. -/
inductive SseStep (host : Host) (distributed : Bool) : SseWorld → SseLabel → SseWorld → Prop
  | server {w : SseWorld} {l : Broadcast} {chat : ChatWorld}
      (h : ChatStep host distributed w.chat l chat) :
      SseStep host distributed w ⟨l, [], none⟩ { w with chat := chat }
  | connect {w : SseWorld} :
      SseStep host distributed w .silent { w with sockets := w.sockets ++ [.new] }
  | socket {chat chat' : ChatWorld} {last : LastSequence} {before after : List SseSocket}
      {k k' : SseSocket} {emitted : List SseFrame} {l : SseLabel}
      (h : SocketStep host distributed last chat k l chat' k') :
      SseStep host distributed ⟨chat, last, before ++ k :: after, emitted⟩ l
        ⟨chat', l.emitted.foldl LastSequence.rememberSequence last, before ++ k' :: after,
          emitted ++ l.emitted⟩

end Sproyt
