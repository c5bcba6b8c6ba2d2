import Sproyt.Frontend.SseSocket

/-!
# The connection of a page

A page keeps one active socket. While it is open it may be handed over to another one, the
candidate, which takes its place once it has announced the same participant and has the channel
that is wanted. Everything the browser or the application does is an input here: what comes late
or in another order is another list of inputs.
-/

namespace Sproyt

abbrev SocketId := Nat

inductive ConnectionCommand
  | subscribeChannel (channel : ChannelId)
  | unsubscribeChannel (channel : ChannelId)
  | ping
  | other
deriving DecidableEq

inductive WireBody
  | hello (participant : String)
  | subscriptionStarted (channel : ChannelId)
  | subscriptionEnded (channel : ChannelId)
  | other
deriving DecidableEq

structure WireEvent where
  requestId : Option String
  body : WireBody
deriving DecidableEq

/-- A socket, `previousSocket` of its listeners, and what the maps of the controller hold for
it. -/
structure ConnectionSocket where
  readyState : ReadyState
  fallback : Bool
  previous : Option SocketId
  participant : Option String
  pending : List String
  connectTimer : Bool

def ConnectionSocket.none : ConnectionSocket := ⟨.connecting, false, .none, .none, [], false⟩

structure SocketHandoff where
  previousSocket : SocketId
  nextSocket : SocketId
  ready : Bool
  expectedChannelId : Option ChannelId
  expectedGeneration : Nat
  expectedSubscriptionRequestId : Option String
  readySubscriptionEvent : Option (Option String × ChannelId)
  probe : Bool

/-- A candidate becomes the active socket: what is known of both at that moment. -/
structure Commit where
  replaced : Option SocketId
  next : SocketId
  candidateOpen : Bool
  replacedParticipant : Option String
  nextParticipant : Option String
  replacedPending : List String
  desiredChannelId : Option ChannelId
  subscriptionGeneration : Nat
  subscribedChannelId : Option ChannelId
deriving DecidableEq

/-- What has happened: a request is accepted, an event is received, requests are reported to the
application as lost, an event is passed to it, a close event is handled, a candidate commits. -/
inductive ConnectionEntry
  | accepted (socket : SocketId) (requestId : String) (command : ConnectionCommand)
      (generation : Nat)
  | received (socket : SocketId) (event : WireEvent)
  | lost (socket : SocketId) (requestIds : List String) (uncertain : Bool)
  | passed (socket : SocketId) (candidate : Bool) (active : Option SocketId)
      (participant : Option String) (event : WireEvent)
  | closed (socket : SocketId)
  | committed (commit : Commit)
deriving DecidableEq

inductive ProbeTimer
  | scheduled
  | onOpen
deriving DecidableEq

structure ConnectionConfig where
  hasFallback : Bool
  forceFallback : Bool

/-- The sockets, the requests on them and what is wanted, and the log of what has happened. -/
structure ConnectionCore where
  info : SocketId → ConnectionSocket
  created : Nat
  socket : Option SocketId
  socketHandoff : Option SocketHandoff
  desiredChannelId : Option ChannelId
  subscriptionGeneration : Nat
  log : List ConnectionEntry

structure Connection extends ConnectionCore where
  subscribedChannelId : Option ChannelId
  reconnectTimer : Bool
  livenessTimer : Option SocketId
  stableConnectionTimer : Option SocketId
  probeTimer : Option ProbeTimer
  websocketFailures : Nat
  fallbackActive : Bool
  probeOnOpen : Bool

instance : Coe Connection ConnectionCore := ⟨Connection.toConnectionCore⟩

def Connection.start (cfg : ConnectionConfig) : Connection where
  info _ := .none
  created := 0
  socket := none
  socketHandoff := none
  subscribedChannelId := none
  desiredChannelId := none
  subscriptionGeneration := 0
  reconnectTimer := false
  livenessTimer := none
  stableConnectionTimer := none
  probeTimer := none
  websocketFailures := 0
  fallbackActive := cfg.forceFallback
  probeOnOpen := false
  log := []

namespace ReadyState

/-- `OPEN` or `CONNECTING`. -/
def isLive : ReadyState → Bool
  | connecting => true
  | opened => true
  | closing => false
  | closed => false

/-- `close()`. -/
def close : ReadyState → ReadyState
  | closed => closed
  | _ => closing

def rank : ReadyState → Nat
  | connecting => 0
  | opened => 1
  | closing => 2
  | closed => 3

end ReadyState

namespace ConnectionCore

def readyState (c : ConnectionCore) (k : SocketId) : ReadyState := (c.info k).readyState

def participant (c : ConnectionCore) (k : SocketId) : Option String := (c.info k).participant

def pending (c : ConnectionCore) (k : SocketId) : List String := (c.info k).pending

def candidate (c : ConnectionCore) : Option SocketId := c.socketHandoff.map (·.nextSocket)

end ConnectionCore

namespace Connection

/-! ### Sockets and the log -/

def modify (c : Connection) (k : SocketId) (f : ConnectionSocket → ConnectionSocket) :
    Connection :=
  { c with info := fun x => if x = k then f (c.info x) else c.info x }

def write (c : Connection) (x : ConnectionEntry) : Connection := { c with log := c.log ++ [x] }

def closeSocket (c : Connection) (k : SocketId) : Connection :=
  c.modify k fun s => { s with readyState := s.readyState.close }

def clearConnectTimeout (c : Connection) (k : SocketId) : Connection :=
  c.modify k fun s => { s with connectTimer := false }

def loseSocketRequests (c : Connection) (k : SocketId) (uncertain : Bool) : Connection :=
  if c.pending k = [] then c
  else (c.modify k fun s => { s with pending := [] }).write (.lost k (c.pending k) uncertain)

def receive (c : Connection) (k : SocketId) (e : WireEvent) : Connection :=
  (c.modify k fun s => { s with pending := s.pending.filter (some · ≠ e.requestId) }).write
    (.received k e)

/-- `onEvent`, for an event that has come when `active` was the active socket. -/
def pass (c : Connection) (k : SocketId) (fromCandidate : Bool) (active : Option SocketId)
    (participant : Option String) (e : WireEvent) : Connection :=
  c.write (.passed k fromCandidate active participant e)

/-! ### Sending -/

/-- `sendViaRequest`; `sent` says whether the socket takes the data. -/
def sendViaRequest (c : Connection) (target : Option SocketId) (requestId : String)
    (command : ConnectionCommand) (sent : Bool) : Connection × Option String :=
  match target with
  | none => (c, none)
  | some k =>
    if c.readyState k ≠ .opened ∨ sent = false then (c, none)
    else if command = .ping then (c, some requestId)
    else
      ((c.modify k fun s => { s with pending := s.pending.insert requestId }).write
        (.accepted k requestId command c.subscriptionGeneration), some requestId)

end Connection

namespace ConnectionCommand

def subscriptionChannelId : ConnectionCommand → Option ChannelId
  | subscribeChannel c => some c
  | unsubscribeChannel c => some c
  | _ => none

end ConnectionCommand

namespace Connection

def nextDesired (c : Connection) : ConnectionCommand → Option ChannelId
  | .subscribeChannel channel => some channel
  | .unsubscribeChannel channel =>
    if c.desiredChannelId = some channel then none else c.desiredChannelId
  | _ => c.desiredChannelId

def updateDesiredSubscription (c : Connection) (command : ConnectionCommand) : Connection :=
  if c.nextDesired command = c.desiredChannelId then c
  else
    { c with
      desiredChannelId := c.nextDesired command
      subscriptionGeneration := c.subscriptionGeneration + 1
      socketHandoff := c.socketHandoff.map fun h =>
        { h with
          ready := false
          expectedChannelId := c.nextDesired command
          expectedGeneration := c.subscriptionGeneration + 1
          expectedSubscriptionRequestId := none } }

def rememberCandidateSubscription (c : Connection) (k : SocketId) (command : ConnectionCommand)
    (requestId : Option String) : Connection :=
  match c.socketHandoff, command, requestId with
  | some h, .subscribeChannel channel, some id =>
    if h.nextSocket = k ∧ c.desiredChannelId = some channel then
      { c with
        socketHandoff := some { h with
          ready := false
          expectedChannelId := some channel
          expectedGeneration := c.subscriptionGeneration
          expectedSubscriptionRequestId := some id } }
    else c
  | _, _, _ => c

/-- Where a command goes: channel changes of the active socket go to the candidate. -/
def route (c : Connection) (socket : Option SocketId) (command : ConnectionCommand) :
    Option SocketId :=
  match c.socketHandoff with
  | some h =>
    if command.subscriptionChannelId ≠ none ∧ socket = c.socket then some h.nextSocket else socket
  | none => socket

def sendWithSubscription (c : Connection) (socket : Option SocketId) (requestId : String)
    (command : ConnectionCommand) (sent : Bool) : Connection :=
  let c := c.updateDesiredSubscription command
  let target := c.route socket command
  let (c, id) := c.sendViaRequest target requestId command sent
  match target with
  | some k => c.rememberCandidateSubscription k command id
  | none => c

def resendIfSubscribed (c : Connection) (requestId : String) (channel : ChannelId)
    (command : ConnectionCommand) (sent : Bool) : Connection :=
  if c.socketHandoff.isSome ∨ c.subscribedChannelId ≠ some channel then c
  else (c.sendViaRequest c.socket requestId command sent).1

def reconcileDesiredSubscription (c : Connection) (k : SocketId) (requestId : String)
    (sent : Bool) : Connection :=
  match c.desiredChannelId with
  | some channel => (c.sendViaRequest (some k) requestId (.subscribeChannel channel) sent).1
  | none => c

/-! ### Timers and probes -/

def clearTimers (c : Connection) : Connection :=
  { c with livenessTimer := none, stableConnectionTimer := none }

def scheduleReconnect (c : Connection) : Connection := { c with reconnectTimer := true }

def recordWebsocketFailure (cfg : ConnectionConfig) (c : Connection) : Connection :=
  { c with
    websocketFailures := c.websocketFailures + 1
    fallbackActive := c.fallbackActive || (2 ≤ c.websocketFailures + 1 && cfg.hasFallback) }

def scheduleProbe (cfg : ConnectionConfig) (c : Connection) : Connection :=
  if !c.fallbackActive || cfg.forceFallback || c.probeTimer.isSome then c
  else { c with probeTimer := some .scheduled }

def activateSocket (cfg : ConnectionConfig) (c : Connection) (k : SocketId) : Connection :=
  let c := { c with livenessTimer := some k, stableConnectionTimer := some k }
  if (c.info k).fallback then
    if c.probeOnOpen then { c with probeOnOpen := false, probeTimer := some .onOpen }
    else c.scheduleProbe cfg
  else { c with probeTimer := none }

/-! ### Connecting -/

def make (cfg : ConnectionConfig) (c : Connection) (previous : Option SocketId)
    (forceWebsocket : Bool) : Connection :=
  { c.modify c.created fun _ =>
      ⟨.connecting, c.fallbackActive && !forceWebsocket && cfg.hasFallback, previous, none, [],
        previous.isNone⟩ with
    created := c.created + 1 }

/-- `connectSocket` without a previous socket. -/
def connectFresh (cfg : ConnectionConfig) (c : Connection) : Connection :=
  let c := { c with reconnectTimer := false }
  if (c.socket.map c.readyState).any (·.isLive) then c
  else
    { c.clearTimers.make cfg none false with
      socket := some c.created
      subscribedChannelId := none }

/-- `connectSocket` with one: a handoff begins. -/
def connectHandoff (cfg : ConnectionConfig) (c : Connection) (previous : SocketId)
    (forceWebsocket : Bool) : Connection :=
  { c.make cfg (some previous) forceWebsocket with
    reconnectTimer := false
    socketHandoff := some
      ⟨previous, c.created, false, c.desiredChannelId, c.subscriptionGeneration, none, none,
        forceWebsocket⟩ }

def connect (cfg : ConnectionConfig) (c : Connection) (replaceCurrent : Bool) : Connection :=
  match c.socket with
  | some k =>
    if replaceCurrent ∧ c.readyState k = .opened then c.connectHandoff cfg k false
    else c.connectFresh cfg
  | none => c.connectFresh cfg

def replaceAfterSessionRefresh (cfg : ConnectionConfig) (c : Connection) : Connection :=
  if c.socketHandoff.isSome then c
  else match c.socket with
    | none => c.connectFresh cfg
    | some k =>
      match c.readyState k with
      | .closed => c.connectFresh cfg
      | .closing => c.connectFresh cfg
      | .opened => c.connectHandoff cfg k false
      | .connecting => c

def dropCandidate (c : Connection) : Connection :=
  match c.socketHandoff with
  | some h =>
    ({ c with socketHandoff := none }.loseSocketRequests h.nextSocket false).closeSocket
      h.nextSocket
  | none => c

def retire (c : Connection) (current : Option SocketId) : Connection :=
  match current with
  | some k =>
    if (c.readyState k).isLive then
      ((c.clearConnectTimeout k).loseSocketRequests k true).closeSocket k
    else c
  | none => c

def recoverAfterResume (cfg : ConnectionConfig) (c : Connection) : Connection :=
  let current := c.socket
  let c := { c.dropCandidate.clearTimers with
    reconnectTimer := false
    socket := none
    subscribedChannelId := none }
  (c.retire current).connectFresh cfg

/-- `recent` says that the last probe was less than half a minute ago. -/
def probeWebsocket (cfg : ConnectionConfig) (c : Connection) (recent : Bool) : Connection :=
  if !c.fallbackActive || cfg.forceFallback || recent then c
  else match c.socket with
    | some k =>
      if c.readyState k ≠ .opened ∨ c.socketHandoff.isSome then { c with probeOnOpen := true }
      else { c with probeTimer := none }.connectHandoff cfg k true
    | none => { c with probeOnOpen := true }

/-! ### The handoff -/

def canCommit (c : Connection) (h : SocketHandoff) : Bool :=
  h.ready && decide (h.expectedChannelId = c.desiredChannelId) &&
    decide (h.expectedGeneration = c.subscriptionGeneration) &&
    (c.pending h.previousSocket).isEmpty &&
    (c.participant h.previousSocket).any (· ≠ "") &&
    decide (c.participant h.nextSocket = c.participant h.previousSocket)

def commitOf (c : Connection) (h : SocketHandoff) : Commit where
  replaced := c.socket
  next := h.nextSocket
  candidateOpen := c.readyState h.nextSocket = .opened
  replacedParticipant := c.socket.bind c.participant
  nextParticipant := c.participant h.nextSocket
  replacedPending := (c.socket.map c.pending).getD []
  desiredChannelId := c.desiredChannelId
  subscriptionGeneration := c.subscriptionGeneration
  subscribedChannelId := (h.readySubscriptionEvent.map (·.2)).or c.subscribedChannelId

def endProbe (c : Connection) (probe : Bool) : Connection :=
  if probe then { c with fallbackActive := false, websocketFailures := 0, probeTimer := none }
  else c

/-- `tryCommitHandoff`, and the event of the subscription that is passed on after it. -/
def tryCommitHandoff (cfg : ConnectionConfig) (c : Connection) : Connection :=
  match c.socketHandoff with
  | none => c
  | some h =>
    if c.canCommit h then
      let x := c.commitOf h
      let c := { (c.endProbe h.probe).write (.committed x) with
        socketHandoff := none
        socket := some h.nextSocket
        subscribedChannelId := x.subscribedChannelId }
      let c := c.activateSocket cfg h.nextSocket
      let c := if c.readyState h.previousSocket = .opened then c.closeSocket h.previousSocket else c
      match h.readySubscriptionEvent with
      | some (id, channel) =>
        c.pass h.nextSocket true x.replaced x.replacedParticipant ⟨id, .subscriptionStarted channel⟩
      | none => c
    else c

/-! ### Events of the sockets -/

def opened (cfg : ConnectionConfig) (c : Connection) (k : SocketId) : Connection :=
  let c := c.clearConnectTimeout k
  match (c.info k).previous with
  | some p => if c.socket ≠ some p ∨ c.candidate ≠ some k then c.closeSocket k else c
  | none => if c.socket ≠ some k then c else c.activateSocket cfg k

def candidateHello (cfg : ConnectionConfig) (c : Connection) (h : SocketHandoff) (name : String)
    (e : WireEvent) : Connection :=
  let active := c.socket
  let activeParticipant := c.socket.bind c.participant
  if c.participant h.previousSocket = some name ∧ name ≠ "" then
    let c := c.modify h.nextSocket fun s => { s with participant := some name }
    if h.expectedChannelId = none ∧ h.expectedGeneration = c.subscriptionGeneration then
      let c := { c with socketHandoff := some { h with ready := true } }.tryCommitHandoff cfg
      if c.socket ≠ some h.nextSocket then c
      else c.pass h.nextSocket true active activeParticipant e
    else (c.tryCommitHandoff cfg).pass h.nextSocket true active activeParticipant e
  else c.recoverAfterResume cfg

def candidateStarted (cfg : ConnectionConfig) (c : Connection) (h : SocketHandoff)
    (channel : ChannelId) (e : WireEvent) (fresh : String) (sent : Bool) : Connection :=
  if h.expectedChannelId = some channel ∧ h.expectedGeneration = c.subscriptionGeneration ∧
      e.requestId ≠ none ∧ e.requestId = h.expectedSubscriptionRequestId then
    { c with
      socketHandoff := some { h with
        ready := true
        readySubscriptionEvent := some (e.requestId, channel) } }.tryCommitHandoff cfg
  else (c.sendViaRequest (some h.nextSocket) fresh (.unsubscribeChannel channel) sent).1

def activeEvent (cfg : ConnectionConfig) (c : Connection) (k : SocketId) (e : WireEvent)
    (fresh : String) (sent : Bool) : Connection :=
  let passOn (c : Connection) : Connection :=
    (c.tryCommitHandoff cfg).pass k false c.socket (c.socket.bind c.participant) e
  match e.body with
  | .hello name => passOn (c.modify k fun s => { s with participant := some name })
  | .subscriptionStarted channel =>
    if c.desiredChannelId = some channel then passOn { c with subscribedChannelId := some channel }
    else (c.sendViaRequest (some k) fresh (.unsubscribeChannel channel) sent).1
  | _ => passOn c

def candidateEvent (cfg : ConnectionConfig) (c : Connection) (h : SocketHandoff) (e : WireEvent)
    (fresh : String) (sent : Bool) : Connection :=
  match e.body with
  | .hello name => c.candidateHello cfg h name e
  | .subscriptionStarted channel => c.candidateStarted cfg h channel e fresh sent
  | .subscriptionEnded _ => c
  | .other =>
    (c.tryCommitHandoff cfg).pass h.nextSocket true c.socket (c.socket.bind c.participant) e

/-- A message that can be read; `fresh` is the id of what is sent in answer to it. -/
def message (cfg : ConnectionConfig) (c : Connection) (k : SocketId) (e : WireEvent)
    (fresh : String) (sent : Bool) : Connection :=
  if c.socket ≠ some k ∧ c.candidate ≠ some k then c
  else
    let c := c.receive k e
    match c.socketHandoff with
    | some h =>
      if h.nextSocket = k then c.candidateEvent cfg h e fresh sent
      else c.activeEvent cfg k e fresh sent
    | none => c.activeEvent cfg k e fresh sent

def lostActive (cfg : ConnectionConfig) (c : Connection) (k : SocketId) (code : Nat) :
    Connection :=
  match (c.info k).previous with
  | some p =>
    if c.socket = some p ∧ c.readyState p = .opened then c
    else if c.socket ≠ some k then c
    else { (c.loseSocketRequests k true).clearTimers with
      subscribedChannelId := none }.scheduleReconnect
  | none =>
    if c.socket ≠ some k then c
    else
      let c := if code ≠ 1008 ∧ (c.info k).fallback = false then c.recordWebsocketFailure cfg else c
      { (c.loseSocketRequests k true).clearTimers with
        subscribedChannelId := none }.scheduleReconnect

def lostCandidate (cfg : ConnectionConfig) (c : Connection) (h : SocketHandoff) (code : Nat)
    (fresh : String) (sent : Bool) : Connection :=
  let c := { c with socketHandoff := none }
  if c.readyState h.previousSocket = .opened then
    let c := (c.loseSocketRequests h.nextSocket false).reconcileDesiredSubscription
      h.previousSocket fresh sent
    if h.probe then c.scheduleProbe cfg else c
  else
    let c := c.loseSocketRequests h.previousSocket true
    let c := if c.socket = some h.previousSocket then { c with socket := some h.nextSocket } else c
    c.lostActive cfg h.nextSocket code

def lostPrevious (cfg : ConnectionConfig) (c : Connection) (h : SocketHandoff) (code : Nat) :
    Connection :=
  let c := c.loseSocketRequests h.previousSocket true
  if (c.readyState h.nextSocket).isLive then c.tryCommitHandoff cfg
  else
    ({ c with socketHandoff := none }.loseSocketRequests h.nextSocket false).lostActive cfg
      h.previousSocket code

/-- A close event. After a policy violation the application authenticates first, and schedules
the reconnection if that fails. -/
def closed (cfg : ConnectionConfig) (c : Connection) (k : SocketId) (code : Nat) (fresh : String)
    (sent : Bool) : Connection :=
  if c.readyState k ≠ .closed then c
  else
    let c := c.clearConnectTimeout k
    let c :=
      match c.socketHandoff with
      | some h =>
        if h.previousSocket = k then c.lostPrevious cfg h code
        else if h.nextSocket = k then c.lostCandidate cfg h code fresh sent
        else c.lostActive cfg k code
      | none => c.lostActive cfg k code
    c.write (.closed k)

/-! ### Timers -/

def connectTimeout (cfg : ConnectionConfig) (c : Connection) (k : SocketId) : Connection :=
  if (c.info k).connectTimer = false ∨ c.socket ≠ some k ∨ c.readyState k ≠ .connecting then c
  else
    let c := c.clearConnectTimeout k
    let c := if (c.info k).fallback then c else c.recordWebsocketFailure cfg
    ({ c.loseSocketRequests k true with socket := none }.scheduleReconnect).closeSocket k

def handoffTimeout (cfg : ConnectionConfig) (c : Connection) (k : SocketId) (fresh : String)
    (sent : Bool) : Connection :=
  match c.socketHandoff with
  | none => c
  | some h =>
    if h.nextSocket ≠ k then c
    else
      let c := c.dropCandidate
      if c.readyState h.previousSocket = .opened then
        let c := c.reconcileDesiredSubscription h.previousSocket fresh sent
        if h.probe then c.scheduleProbe cfg else c
      else
        let c := c.loseSocketRequests h.previousSocket true
        let c := if c.socket = some h.previousSocket then { c with socket := none } else c
        c.connectFresh cfg

/-- `stale`: nothing has come for twenty seconds, and the page is visible. -/
def liveness (cfg : ConnectionConfig) (c : Connection) (k : SocketId) (stale : Bool) :
    Connection :=
  if c.livenessTimer ≠ some k ∨ c.socket ≠ some k ∨ c.readyState k ≠ .opened ∨ stale = false then c
  else
    let c := if (c.info k).fallback then c else c.recordWebsocketFailure cfg
    (({ (c.loseSocketRequests k true).clearTimers with
      socket := none
      subscribedChannelId := none }.closeSocket k)).scheduleReconnect

def stable (c : Connection) (k : SocketId) : Connection :=
  if c.stableConnectionTimer = some k ∧ c.socket = some k ∧ c.readyState k = .opened ∧
      (c.info k).fallback = false then
    { c with stableConnectionTimer := none, websocketFailures := 0 }
  else c

def probe (cfg : ConnectionConfig) (c : Connection) (visible recent : Bool) : Connection :=
  match c.probeTimer with
  | none => c
  | some .onOpen => { c with probeTimer := none }.probeWebsocket cfg recent
  | some .scheduled =>
    let c := { c with probeTimer := none }
    match c.socket with
    | some k =>
      if !c.fallbackActive ∨ c.socketHandoff.isSome ∨ !visible ∨ c.readyState k ≠ .opened then
        c.scheduleProbe cfg
      else c.connectHandoff cfg k true
    | none => c.scheduleProbe cfg

/-! ### The channel that is recorded -/

def setSubscribedChannel (c : Connection) (channel : ChannelId) : Connection :=
  let c := { c with subscribedChannelId := some channel }
  if c.desiredChannelId = some channel then c
  else
    { c with
      desiredChannelId := some channel
      subscriptionGeneration := c.subscriptionGeneration + 1 }

def clearSubscribedChannel (c : Connection) (expected : Option ChannelId) : Connection :=
  if expected ≠ none ∧ c.subscribedChannelId ≠ expected then c
  else
    let c := { c with subscribedChannelId := none }
    if expected = none ∨ c.desiredChannelId = expected then
      { c with
        desiredChannelId := none
        subscriptionGeneration := c.subscriptionGeneration + 1 }
    else c

end Connection

/-! ### Runs -/

inductive ConnectionInput
  -- the application
  | connect (replaceCurrent : Bool)
  | replaceAfterSessionRefresh
  | recoverAfterResume
  | probeWebsocket (recent : Bool)
  | send (requestId : String) (command : ConnectionCommand) (sent : Bool)
  -- the function that `onOpen` is given for the socket
  | sendOn (socket : SocketId) (requestId : String) (command : ConnectionCommand) (sent : Bool)
  | resend (requestId : String) (command : ConnectionCommand) (sent : Bool)
  | resendIfSubscribed (requestId : String) (channel : ChannelId) (command : ConnectionCommand)
      (sent : Bool)
  | setSubscribedChannel (channel : ChannelId)
  | clearSubscribedChannel (expected : Option ChannelId)
  | takeSubscribedChannel
  -- the browser
  | moves (socket : SocketId) (readyState : ReadyState)
  | opened (socket : SocketId)
  | message (socket : SocketId) (event : WireEvent) (fresh : String) (sent : Bool)
  | closed (socket : SocketId) (code : Nat) (fresh : String) (sent : Bool)
  | connectTimeout (socket : SocketId)
  | handoffTimeout (socket : SocketId) (fresh : String) (sent : Bool)
  | liveness (socket : SocketId) (stale : Bool)
  | stable (socket : SocketId)
  -- `recover` of the application, which may connect, is an input of its own
  | reconnect
  | probe (visible recent : Bool)

namespace Connection

def moves (c : Connection) (k : SocketId) (state : ReadyState) : Connection :=
  if k < c.created ∧ (c.readyState k).rank < state.rank then
    c.modify k fun s => { s with readyState := state }
  else c

def step (cfg : ConnectionConfig) (c : Connection) : ConnectionInput → Connection
  | .connect replaceCurrent => c.connect cfg replaceCurrent
  | .replaceAfterSessionRefresh => c.replaceAfterSessionRefresh cfg
  | .recoverAfterResume => c.recoverAfterResume cfg
  | .probeWebsocket recent => c.probeWebsocket cfg recent
  | .send id command sent => c.sendWithSubscription c.socket id command sent
  | .sendOn k id command sent => c.sendWithSubscription (some k) id command sent
  | .resend id command sent => (c.sendViaRequest c.socket id command sent).1
  | .resendIfSubscribed id channel command sent => c.resendIfSubscribed id channel command sent
  | .setSubscribedChannel channel => c.setSubscribedChannel channel
  | .clearSubscribedChannel expected => c.clearSubscribedChannel expected
  | .takeSubscribedChannel => { c with subscribedChannelId := none }
  | .moves k state => c.moves k state
  | .opened k => if k < c.created then c.opened cfg k else c
  | .message k e fresh sent => c.message cfg k e fresh sent
  | .closed k code fresh sent => c.closed cfg k code fresh sent
  | .connectTimeout k => c.connectTimeout cfg k
  | .handoffTimeout k fresh sent => c.handoffTimeout cfg k fresh sent
  | .liveness k stale => c.liveness cfg k stale
  | .stable k => c.stable k
  | .reconnect => { c with reconnectTimer := false }
  | .probe visible recent => c.probe cfg visible recent

end Connection

def ConnectionStep (cfg : ConnectionConfig) (c : Connection) (i : ConnectionInput)
    (c' : Connection) : Prop :=
  c' = c.step cfg i

end Sproyt
