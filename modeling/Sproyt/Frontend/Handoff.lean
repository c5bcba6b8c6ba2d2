import Sproyt.Frontend.ConnectionParts

/-!
# Handing the connection over

A candidate commits when it is ready for the channel that is wanted and has announced the
participant of the socket it replaces. What it is compared with is the socket that the handoff
began with: as long as no other socket is made during a handoff, that is the active one.
-/

namespace Sproyt

open List Connection Option

/-- The socket was asked for the channel in the generation, and has answered that. -/
def ChannelAcknowledged (log : List ConnectionEntry) (k : SocketId) (channel : ChannelId)
    (generation : Nat) : Prop :=
  ∃ id before after, log = before ++ .received k ⟨some id, .subscriptionStarted channel⟩ :: after ∧
    .accepted k id (.subscribeChannel channel) generation ∈ before

theorem ChannelAcknowledged.append {log : List ConnectionEntry} {k : SocketId} {channel : ChannelId}
    {generation : Nat} (h : ChannelAcknowledged log k channel generation)
    {entries : List ConnectionEntry} :
    ChannelAcknowledged (log ++ entries) k channel generation := by
  obtain ⟨id, before, after, rfl, hmem⟩ := h
  refine ⟨id, before, after ++ entries, ?_, hmem⟩
  rw [append_assoc, cons_append]

/-- What a commit needs, after the log so far. -/
structure Commit.Sound (x : Commit) (before : List ConnectionEntry) : Prop where
  participant : ∀ k, x.replaced = some k →
    ∃ name, name ≠ "" ∧ x.replacedParticipant = some name ∧ x.nextParticipant = some name
  channel : ∀ d, x.desiredChannelId = some d →
    ChannelAcknowledged before x.next d x.subscriptionGeneration
  idle : ∀ k, x.replaced = some k → x.replacedPending = []
  subscribed : ∀ d, x.desiredChannelId = some d → x.subscribedChannelId = some d

/-- A `hello` that a candidate has passed on beside an active socket of somebody else. -/
def ForeignHello : ConnectionEntry → Prop
  | .passed _ true (some _) participant e => ∃ name, e.body = .hello name ∧ participant ≠ some name
  | _ => False

/-- What the handoff expects was asked of the candidate, and once it is ready the candidate has
acknowledged it. -/
structure SocketHandoff.Sound (h : SocketHandoff) (c : ConnectionCore) : Prop where
  active : c.socket = some h.previousSocket ∨ c.socket = none
  expected : ∀ id, h.expectedSubscriptionRequestId = some id →
    ∃ d, h.expectedChannelId = some d ∧
      .accepted h.nextSocket id (.subscribeChannel d) h.expectedGeneration ∈ c.log
  ready : h.ready = true → ∀ d, h.expectedChannelId = some d →
    h.readySubscriptionEvent.map (·.2) = some d ∧
      ChannelAcknowledged c.log h.nextSocket d h.expectedGeneration

structure HandoffSafe (c : ConnectionCore) : Prop where
  handoff : ∀ h, c.socketHandoff = some h → h.Sound c
  commits : ∀ before x after, c.log = before ++ .committed x :: after → x.Sound before
  hellos : ∀ x ∈ c.log, ¬ForeignHello x

/-- An entry that commits nothing and is no `hello` of somebody else. -/
structure Plain (x : ConnectionEntry) : Prop where
  commit : ∀ y, x ≠ .committed y
  hello : ¬ForeignHello x

/-- What most parts of the handlers do: they may end the handoff or give up the active socket,
but the handoff itself stays as it is. -/
structure Follows (c c' : ConnectionCore) : Prop where
  log : ∃ entries, c'.log = c.log ++ entries ∧ ∀ x ∈ entries, Plain x
  handoff : c'.socketHandoff = none ∨
    c'.socketHandoff = c.socketHandoff ∧ (c'.socket = c.socket ∨ c'.socket = none)

namespace Follows

variable {c c' c'' : ConnectionCore}

theorem of_log (hlog : c'.log = c.log) (hhandoff : c'.socketHandoff = none ∨
    c'.socketHandoff = c.socketHandoff ∧ (c'.socket = c.socket ∨ c'.socket = none)) :
    Follows c c' := by
  refine ⟨⟨[], ?_, fun x hx => absurd hx not_mem_nil⟩, hhandoff⟩
  rw [append_nil]
  exact hlog

theorem refl (c : ConnectionCore) : Follows c c := of_log rfl (.inr ⟨rfl, .inl rfl⟩)

theorem of_eq (heq : c' = c) : Follows c c' := heq ▸ refl c

theorem trans (h : Follows c c') (h' : Follows c' c'') : Follows c c'' := by
  constructor
  · obtain ⟨first, hfirst, hplain⟩ := h.log
    obtain ⟨second, hsecond, hplain'⟩ := h'.log
    refine ⟨first ++ second, ?_, fun x hx => ?_⟩
    · rw [hsecond, hfirst, append_assoc]
    · exact (mem_append.1 hx).elim (hplain x) (hplain' x)
  · rcases h'.handoff with hnone | ⟨hsame, hsocket'⟩
    · exact .inl hnone
    · rw [hsame]
      refine h.handoff.imp id fun ⟨hsame', hsocket⟩ => ⟨hsame', ?_⟩
      rcases hsocket' with heq | hnone
      · rw [heq]
        exact hsocket
      · exact .inr hnone

theorem none (h : Follows c c') (hnone : c.socketHandoff = none) : c'.socketHandoff = none := by
  rcases h.handoff with hnone' | ⟨hsame, -⟩
  · exact hnone'
  · exact hsame.trans hnone

end Follows

theorem HandoffSafe.follows {c c' : ConnectionCore} (hc : HandoffSafe c) (h : Follows c c') :
    HandoffSafe c' := by
  obtain ⟨entries, hlog, hplain⟩ := h.log
  refine ⟨fun g hg => ?_, fun before x after hsplit => ?_, fun x hx => ?_⟩
  · rcases h.handoff with hnone | ⟨hsame, hsocket⟩
    · rw [hnone] at hg
      cases hg
    · obtain ⟨hactive, hexpected, hready⟩ := hc.handoff g (hsame.symm.trans hg)
      refine ⟨?_, fun id hid => ?_, fun hg d hd => ?_⟩
      · rcases hsocket with heq | hnone
        · exact heq ▸ hactive
        · exact .inr hnone
      · obtain ⟨d, hd, hmem⟩ := hexpected id hid
        exact ⟨d, hd, hlog ▸ mem_append_left _ hmem⟩
      · obtain ⟨hevent, hacknowledged⟩ := hready hg d hd
        exact ⟨hevent, hlog ▸ hacknowledged.append⟩
  · rw [hlog] at hsplit
    -- the commit is among the old entries, as the new ones are plain
    rcases append_eq_append_iff.1 hsplit with ⟨rest, hbefore, hentries⟩ | ⟨rest, hold, hrest⟩
    · refine absurd rfl ((hplain (.committed x) ?_).commit x)
      rw [hentries]
      exact mem_append_right _ (mem_cons_self ..)
    · cases rest with
      | nil =>
        rw [nil_append] at hrest
        refine absurd rfl ((hplain (.committed x) ?_).commit x)
        rw [← hrest]
        exact mem_cons_self ..
      | cons y rest =>
        obtain ⟨rfl, -⟩ := List.cons.inj hrest
        exact hc.commits before x rest hold
  · rw [hlog] at hx
    exact (mem_append.1 hx).elim (hc.hellos x) fun hnew => (hplain x hnew).hello

section

variable {cfg : ConnectionConfig} {c c' : Connection} {k : SocketId} {h : SocketHandoff}
  {f : ConnectionSocket → ConnectionSocket} {x : ConnectionEntry} {e : WireEvent}

/-! ### The parts of the handlers -/

theorem follows_modify : Follows c (c.modify k f) :=
  .of_log rfl (.inr ⟨rfl, .inl rfl⟩)

theorem follows_write (hx : Plain x) : Follows c (c.write x) :=
  ⟨⟨[x], rfl, fun _ hy => mem_singleton.1 hy ▸ hx⟩, .inr ⟨rfl, .inl rfl⟩⟩

theorem follows_close : Follows c (c.closeSocket k) :=
  follows_modify

theorem follows_clearTimeout : Follows c (c.clearConnectTimeout k) :=
  follows_modify

theorem follows_lose (k : SocketId) (uncertain : Bool) :
    Follows c (c.loseSocketRequests k uncertain) := by
  by_cases hempty : c.pending k = []
  · rw [lose_of_nil hempty]
    exact .refl _
  · rw [lose_of_ne_nil hempty]
    exact follows_modify.trans (follows_write ⟨nofun, id⟩)

theorem follows_receive : Follows c (c.receive k e) :=
  follows_modify.trans (follows_write ⟨nofun, id⟩)

variable {id : String} {command : ConnectionCommand} {sent : Bool}

theorem follows_send (target : Option SocketId) (id : String) (command : ConnectionCommand)
    (sent : Bool) : Follows c (c.sendViaRequest target id command sent).1.toConnectionCore := by
  rcases sendViaRequest_cases c target id command sent with heq | ⟨k, -, -, heq⟩
  · rw [heq]
    exact .refl _
  · rw [heq]
    exact follows_modify.trans (follows_write ⟨nofun, fun hforeign => hforeign⟩)

theorem follows_reconcile (k : SocketId) (id : String) (sent : Bool) :
    Follows c (c.reconcileDesiredSubscription k id sent) := by
  rw [reconcileDesiredSubscription]
  split
  · exact follows_send _ _ _ _
  · exact .refl _

theorem follows_end (c : Connection) : Follows c ({ c with socketHandoff := none } : Connection) :=
  .of_log rfl (.inl rfl)

theorem follows_of_none (hlog : c'.log = c.log) (hnone : c'.socketHandoff = none) : Follows c c' :=
  .of_log hlog (.inl hnone)

theorem follows_connectFresh (hnone : c.socketHandoff = none ∨
    (c.socket.map c.readyState).any (·.isLive) = true) : Follows c (c.connectFresh cfg) := by
  simp only [connectFresh]
  split
  · exact .refl _
  · next hlive => exact follows_of_none rfl (hnone.resolve_right hlive)

theorem follows_dropCandidate : Follows c c.dropCandidate := by
  rw [dropCandidate]
  split
  · next h _ =>
    exact (follows_end c).trans ((follows_lose h.nextSocket false).trans follows_close)
  · exact .refl _

theorem dropCandidate_ends (c : Connection) : c.dropCandidate.socketHandoff = none := by
  rw [dropCandidate]
  split
  · exact ((follows_lose _ _).trans follows_close).none rfl
  · next hnone => exact hnone

theorem follows_retire {current : Option SocketId} : Follows c (c.retire current) := by
  unfold retire
  split
  · split
    · exact follows_clearTimeout.trans ((follows_lose _ _).trans follows_close)
    · exact .refl _
  · exact .refl _

theorem follows_recover : Follows c (c.recoverAfterResume cfg) := by
  simp only [recoverAfterResume]
  obtain ⟨d, hd⟩ : ∃ d : Connection, d = { c.dropCandidate.clearTimers with
    reconnectTimer := false
    socket := none
    subscribedChannelId := none } := ⟨_, rfl⟩
  have hnone : d.socketHandoff = none := by
    rw [hd]
    exact dropCandidate_ends c
  have hfollows : Follows c d := by
    refine follows_dropCandidate.trans (follows_of_none ?_ hnone)
    rw [hd]
    rfl
  rw [← hd]
  refine hfollows.trans ((follows_retire).trans (follows_connectFresh (.inl ?_)))
  exact (follows_retire).none hnone

variable {code : Nat}

theorem follows_lostActive : Follows c (c.lostActive cfg k code) := by
  rcases core_lostActive cfg c k code with ⟨heq, -⟩ | heq
  · exact .of_eq heq
  · rw [heq]
    exact follows_lose k true

variable {fresh : String}

theorem follows_lostCandidate : Follows c (c.lostCandidate cfg h code fresh sent) := by
  simp only [lostCandidate]
  split
  · refine (follows_end c).trans ((follows_lose h.nextSocket false).trans
      ((follows_reconcile h.previousSocket fresh sent).trans ?_))
    split
    · exact .of_eq (core_scheduleProbe cfg _)
    · exact .refl _
  · have hlost := (follows_end c).trans (follows_lose h.previousSocket true)
    have hnone := (follows_lose h.previousSocket true).none
      (show ({ c with socketHandoff := none } : Connection).socketHandoff = none from rfl)
    refine hlost.trans (Follows.trans ?_ (follows_lostActive))
    split
    · exact follows_of_none rfl hnone
    · exact .refl _

theorem follows_opened : Follows c (c.opened cfg k) := by
  simp only [opened]
  split
  · split
    · exact follows_clearTimeout.trans follows_close
    · exact follows_clearTimeout
  · split
    · exact follows_clearTimeout
    · rw [core_activateSocket]
      exact follows_clearTimeout

theorem follows_moves {state : ReadyState} : Follows c (c.moves k state) := by
  rw [moves]
  split
  · exact follows_modify
  · exact .refl _

theorem follows_giveUp (hlog : c'.log = c.log) (hhandoff : c'.socketHandoff = c.socketHandoff)
    (hsocket : c'.socket = none) : Follows c c' :=
  .of_log hlog (.inr ⟨hhandoff, .inr hsocket⟩)

theorem follows_connectTimeout : Follows c (c.connectTimeout cfg k) := by
  simp only [connectTimeout]
  split
  · exact .refl _
  · obtain ⟨d, hd⟩ : ∃ d, d = if ((c.clearConnectTimeout k).info k).fallback then
        c.clearConnectTimeout k else (c.clearConnectTimeout k).recordWebsocketFailure cfg :=
      ⟨_, rfl⟩
    have hfollows : Follows c d := by
      rw [hd]
      split <;> exact follows_clearTimeout
    rw [← hd]
    exact hfollows.trans ((follows_lose k true).trans (follows_giveUp rfl rfl rfl))

theorem follows_liveness {stale : Bool} : Follows c (c.liveness cfg k stale) := by
  simp only [liveness]
  split
  · exact .refl _
  · obtain ⟨d, hd⟩ : ∃ d, d = if (c.info k).fallback then c else c.recordWebsocketFailure cfg :=
      ⟨_, rfl⟩
    have hfollows : Follows c d := by
      rw [hd]
      split <;> exact .refl _
    rw [← hd]
    exact hfollows.trans ((follows_lose k true).trans (follows_giveUp rfl rfl rfl))

theorem follows_handoffTimeout : Follows c (c.handoffTimeout cfg k fresh sent) := by
  simp only [handoffTimeout]
  split
  · exact .refl _
  · next h hh =>
    split
    · exact .refl _
    · refine follows_dropCandidate.trans ?_
      split
      · refine (follows_reconcile h.previousSocket fresh sent).trans ?_
        split
        · exact .of_eq (core_scheduleProbe cfg _)
        · exact .refl _
      · have hnone := (follows_lose h.previousSocket true).none (dropCandidate_ends c)
        refine (follows_lose h.previousSocket true).trans ?_
        obtain ⟨d, hd⟩ : ∃ d, d = c.dropCandidate.loseSocketRequests h.previousSocket true :=
          ⟨_, rfl⟩
        rw [← hd] at hnone ⊢
        refine Follows.trans ?_ (follows_connectFresh (.inl ?_))
        · split
          · exact follows_of_none rfl hnone
          · exact .refl _
        · split <;> exact hnone

/-! ### Beginning a handoff and changing what it expects -/

theorem HandoffSafe.expect {c c' : ConnectionCore} (hc : HandoffSafe c) (hlog : c'.log = c.log)
    (hhandoff : ∀ h, c'.socketHandoff = some h → h.Sound c') : HandoffSafe c' where
  handoff := hhandoff
  commits := by
    rw [hlog]
    exact hc.commits
  hellos := by
    rw [hlog]
    exact hc.hellos

theorem HandoffSafe.connectHandoff (hc : HandoffSafe c) (hk : c.socket = some k)
    {probe : Bool} : HandoffSafe (c.connectHandoff cfg k probe) := by
  refine hc.expect rfl fun h hh => ?_
  obtain rfl := some.inj hh
  exact ⟨.inl hk, nofun, nofun⟩

theorem HandoffSafe.updateDesired (hc : HandoffSafe c) :
    HandoffSafe (c.updateDesiredSubscription command) := by
  rw [updateDesiredSubscription]
  split
  · exact hc
  · refine hc.expect rfl fun h' hh' => ?_
    obtain ⟨h, hh, rfl⟩ := map_eq_some_iff.1 hh'
    exact ⟨(hc.handoff h hh).active, nofun, nofun⟩

theorem HandoffSafe.remember (hc : HandoffSafe c) {id : Option String} (hid : ∀ id', id = some id' →
      command ≠ .ping → .accepted k id' command c.subscriptionGeneration ∈ c.log) :
    HandoffSafe (c.rememberCandidateSubscription k command id) := by
  unfold rememberCandidateSubscription
  split
  · next h channel id' hh =>
    split
    · next heq =>
      refine hc.expect rfl fun h' hh' => ?_
      obtain rfl := some.inj hh'
      refine ⟨(hc.handoff h hh).active, fun id'' hid'' => ⟨channel, rfl, ?_⟩, nofun⟩
      obtain rfl := some.inj hid''
      rw [show ({ h with
          ready := false
          expectedChannelId := some channel
          expectedGeneration := c.subscriptionGeneration
          expectedSubscriptionRequestId := some id' } : SocketHandoff).nextSocket = k from heq.1]
      exact hid id' rfl nofun
    · exact hc
  · exact hc

theorem send_accepts {target : Option SocketId} {id id' : String}
    (hid : (c.sendViaRequest target id command sent).2 = some id')
    (hping : command ≠ .ping) (hk : target = some k) :
    .accepted k id' command c.subscriptionGeneration ∈
        (c.sendViaRequest target id command sent).1.log ∧
      (c.sendViaRequest target id command sent).1.subscriptionGeneration =
        c.subscriptionGeneration := by
  subst hk
  simp only [sendViaRequest, if_neg hping] at hid ⊢
  split at hid
  · cases hid
  · next hopen =>
    obtain rfl := some.inj hid
    rw [if_neg hopen]
    exact ⟨mem_append_right _ (mem_singleton_self _), rfl⟩

theorem HandoffSafe.sendWithSubscription (hc : HandoffSafe c)
    (socket : Option SocketId) (id : String) (command : ConnectionCommand) (sent : Bool) :
    HandoffSafe (c.sendWithSubscription socket id command sent) := by
  simp only [Connection.sendWithSubscription]
  obtain ⟨d, hd⟩ : ∃ d, d = c.updateDesiredSubscription command := ⟨_, rfl⟩
  have hupdated : HandoffSafe d := hd ▸ hc.updateDesired
  rw [← hd]
  have hsent := hupdated.follows (follows_send (d.route socket command) id command sent)
  split
  · next k hk =>
    refine hsent.remember fun id' hid' hping => ?_
    obtain ⟨hmem, hgeneration⟩ := send_accepts hid' hping hk
    rw [hgeneration]
    exact hmem
  · exact hsent

/-- What a candidate finds when it may commit. -/
theorem commitOf_sound (hc : HandoffSafe c) (hh : c.socketHandoff = some h)
    (hcan : c.canCommit h = true) : (c.commitOf h).Sound c.log := by
  obtain ⟨hactive, -, hready⟩ := hc.handoff h hh
  simp only [canCommit, Bool.and_eq_true, decide_eq_true_eq, List.isEmpty_iff,
    Option.any_eq_true] at hcan
  obtain ⟨⟨⟨⟨⟨his, hchannel⟩, hgeneration⟩, hidle⟩, name, hname, hne⟩, hsame⟩ := hcan
  -- the active socket is the one that the candidate was compared with
  have hreplaced : ∀ k, c.socket = some k → k = h.previousSocket := by
    intro k hk
    rcases hactive with hsocket | hnone
    · exact Option.some.inj (hk.symm.trans hsocket)
    · rw [hnone] at hk
      cases hk
  refine ⟨fun k hk => ⟨name, hne, ?_, hsame.trans hname⟩, fun d hd => ?_, fun k hk => ?_,
    fun d hd => ?_⟩
  · obtain rfl := hreplaced k hk
    show c.socket.bind c.participant = some name
    rw [show c.socket = some h.previousSocket from hk]
    exact hname
  · have hacknowledged := (hready his d (hchannel.trans hd)).2
    rw [hgeneration] at hacknowledged
    exact hacknowledged
  · obtain rfl := hreplaced k hk
    show (c.socket.map c.pending).getD [] = []
    rw [show c.socket = some h.previousSocket from hk]
    exact hidle
  · have hevent := (hready his d (hchannel.trans hd)).1
    show (h.readySubscriptionEvent.map (·.2)).or c.subscribedChannelId = some d
    rw [hevent]
    rfl

theorem HandoffSafe.tryCommit (hc : HandoffSafe c) : HandoffSafe (c.tryCommitHandoff cfg) := by
  rcases tryCommit_cases cfg c with heq | ⟨h, hh, hcan⟩
  · rw [heq]
    exact hc
  · obtain ⟨entries, hentries, hcore⟩ := core_tryCommit cfg hh hcan
    have hcommitted : HandoffSafe { c.toConnectionCore with
        socket := some h.nextSocket
        socketHandoff := none
        log := c.log ++ [.committed (c.commitOf h)] } := by
      refine ⟨nofun, fun before x after hsplit => ?_, fun x hx => ?_⟩
      · rcases concat_eq_append_cons hsplit with ⟨rest, -, hold⟩ | ⟨-, hbefore, heq⟩
        · exact hc.commits before x rest hold
        · obtain rfl := ConnectionEntry.committed.inj heq
          rw [← hbefore]
          exact commitOf_sound hc hh hcan
      · rcases mem_append.1 hx with hold | hnew
        · exact hc.hellos x hold
        · rw [mem_singleton.1 hnew]
          exact id
    rw [hcore]
    refine hcommitted.follows ⟨⟨entries, ?_, fun x hx => ?_⟩, .inl rfl⟩
    · rw [append_assoc]
      rfl
    · obtain ⟨k, a, p, e, rfl, hhello⟩ := hentries x hx
      refine ⟨nofun, fun hforeign => ?_⟩
      cases a with
      | none => exact hforeign
      | some k' =>
        obtain ⟨name, hname, -⟩ := hforeign
        exact hhello name hname

/-! ### Messages -/

theorem follows_pass {candidate : Bool} {active : Option SocketId} {participant : Option String}
    (hhello : candidate = true → active ≠ none → ∀ name, e.body = .hello name →
      participant = some name) : Follows c (c.pass k candidate active participant e) := by
  refine follows_write ⟨nofun, fun hforeign => ?_⟩
  cases candidate with
  | false => exact hforeign
  | true =>
    cases active with
    | none => exact hforeign
    | some k' =>
      obtain ⟨name, hname, hne⟩ := hforeign
      exact hne (hhello rfl nofun name hname)

theorem HandoffSafe.activeEvent (hc : HandoffSafe c) :
    HandoffSafe (c.activeEvent cfg k e fresh sent) := by
  have hpass : ∀ d : Connection, HandoffSafe d → HandoffSafe ((d.tryCommitHandoff
      cfg).pass k false d.socket (d.socket.bind d.participant) e) :=
    fun d hd => hd.tryCommit.follows (follows_pass nofun)
  simp only [Connection.activeEvent]
  split
  · exact hpass _ (hc.follows follows_modify)
  · split
    · exact hpass _ hc
    · exact hc.follows (follows_send _ _ _ _)
  · exact hpass _ hc

theorem HandoffSafe.candidateHello (hc : HandoffSafe c)
    (hh : c.socketHandoff = some h) {name : String} (he : e.body = .hello name) :
    HandoffSafe (c.candidateHello cfg h name e) := by
  have hnamed : HandoffSafe (c.modify h.nextSocket fun s => { s with
      participant := some name }) := hc.follows follows_modify
  obtain ⟨hactive, hexpected, -⟩ := hc.handoff h hh
  simp only [Connection.candidateHello]
  split
  · next hsame =>
    -- the active socket, if there is one, is the one that was compared with
    have hparticipant : true = true → c.socket ≠ none → ∀ name', e.body = .hello name' →
        c.socket.bind c.participant = some name' := by
      intro _ hsome name' hname'
      obtain rfl := WireBody.hello.inj (he.symm.trans hname')
      rw [hactive.resolve_right hsome]
      exact hsame.1
    split
    · next hnone =>
      have hready : HandoffSafe ({ (c.modify h.nextSocket fun s => { s with
          participant := some name }) with
            socketHandoff := some { h with ready := true } } : Connection) := by
        refine hnamed.expect rfl fun h' hh' => ?_
        obtain rfl := some.inj hh'
        refine ⟨hactive, hexpected, fun _ d hd => ?_⟩
        rw [show ({ h with ready := true } : SocketHandoff).expectedChannelId = none from
          hnone.1] at hd
        cases hd
      split
      · exact hready.tryCommit
      · exact hready.tryCommit.follows (follows_pass hparticipant)
    · exact hnamed.tryCommit.follows (follows_pass hparticipant)
  · exact hc.follows follows_recover

theorem HandoffSafe.candidateStarted (hc : HandoffSafe c)
    (hh : c.socketHandoff = some h) {before : List ConnectionEntry}
    (hlog : c.log = before ++ [.received h.nextSocket e])
    {channel : ChannelId} (he : e.body = .subscriptionStarted channel) :
    HandoffSafe (c.candidateStarted cfg h channel e fresh sent) := by
  obtain ⟨hactive, hexpected, -⟩ := hc.handoff h hh
  rw [Connection.candidateStarted]
  split
  · next hmatch =>
    obtain ⟨hchannel, -, hsome, hid⟩ := hmatch
    obtain ⟨id, hid'⟩ := ne_none_iff_exists'.1 hsome
    refine HandoffSafe.tryCommit (hc.expect rfl fun h' hh' => ?_)
    obtain rfl := some.inj hh'
    refine ⟨hactive, hexpected, fun _ d hd => ?_⟩
    obtain rfl := some.inj (hchannel.symm.trans hd)
    refine ⟨rfl, id, before, [], ?_, ?_⟩
    · rw [← he, ← hid']
      exact hlog
    · obtain ⟨d, hd', hmem⟩ := hexpected id (hid.symm.trans hid')
      obtain rfl := some.inj (hchannel.symm.trans hd')
      rw [hlog] at hmem
      refine (mem_append.1 hmem).resolve_right fun hnew => ?_
      cases mem_singleton.1 hnew
  · exact hc.follows (follows_send _ _ _ _)

theorem HandoffSafe.message (hc : HandoffSafe c) : HandoffSafe (c.message cfg k e fresh sent) := by
  have hreceived : HandoffSafe (c.receive k e) := hc.follows follows_receive
  simp only [Connection.message]
  split
  · exact hc
  split
  · next h hh =>
    split
    · next hk =>
      obtain ⟨hactive, -⟩ := hreceived.handoff h hh
      simp only [Connection.candidateEvent]
      split
      · next name he => exact hreceived.candidateHello hh he
      · next channel he =>
        have hlog : (c.receive k e).log = c.log ++ [.received h.nextSocket e] := by
          rw [hk]
          rfl
        exact hreceived.candidateStarted hh hlog he
      · exact hreceived
      · next he =>
        refine hreceived.tryCommit.follows (follows_pass fun _ _ name hname => ?_)
        rw [he] at hname
        cases hname
    · exact hreceived.activeEvent
  · exact hreceived.activeEvent

/-! ### Steps and runs -/

/-- The condition on a step: while a handoff is going on, no other socket is made beside it. -/
def OneAtATime (c : Connection) : ConnectionInput → Prop
  | .connect _ => c.socketHandoff = none ∨ (c.socket.map c.readyState).any (·.isLive) = true
  | _ => True

section

variable (hc : HandoffSafe c)

include hc

theorem HandoffSafe.lostPrevious (code : Nat) : HandoffSafe (c.lostPrevious cfg h code) := by
  have hlost := hc.follows (follows_lose h.previousSocket true)
  simp only [Connection.lostPrevious]
  split
  · exact hlost.tryCommit
  · exact hlost.follows ((follows_end _).trans
      ((follows_lose h.nextSocket false).trans (follows_lostActive)))

theorem HandoffSafe.closed : HandoffSafe (c.closed cfg k code fresh sent) := by
  have hcleared : HandoffSafe (c.clearConnectTimeout k) :=
    hc.follows follows_clearTimeout
  simp only [Connection.closed]
  split
  · exact hc
  · refine HandoffSafe.follows ?_ (follows_write ⟨nofun, id⟩)
    split
    · split
      · exact hcleared.lostPrevious code
      · split
        · exact hcleared.follows (follows_lostCandidate)
        · exact hcleared.follows (follows_lostActive)
    · exact hcleared.follows (follows_lostActive)

theorem HandoffSafe.probeWebsocket {recent : Bool} : HandoffSafe (c.probeWebsocket cfg recent) := by
  rw [Connection.probeWebsocket]
  split
  · exact hc
  split
  · next k hk =>
    split
    · exact hc
    · exact HandoffSafe.connectHandoff (c := { c with probeTimer := none }) hc hk
  · exact hc

theorem HandoffSafe.probe {visible recent : Bool} : HandoffSafe (c.probe cfg visible recent) := by
  have hcleared : HandoffSafe ({ c with probeTimer := none } : Connection) := hc
  simp only [Connection.probe]
  split
  · exact hc
  · exact hcleared.probeWebsocket
  · split
    · next k hk =>
      split
      · rw [core_scheduleProbe]
        exact hc
      · exact hcleared.connectHandoff hk
    · rw [core_scheduleProbe]
      exact hc

theorem HandoffSafe.connect {replaceCurrent : Bool}
    (hone : c.socketHandoff = none ∨ (c.socket.map c.readyState).any (·.isLive) = true) :
    HandoffSafe (c.connect cfg replaceCurrent) := by
  rw [Connection.connect]
  split
  · next k hk =>
    split
    · exact hc.connectHandoff hk
    · exact hc.follows (follows_connectFresh hone)
  · exact hc.follows (follows_connectFresh hone)

theorem HandoffSafe.replaceAfterSessionRefresh :
    HandoffSafe (c.replaceAfterSessionRefresh cfg) := by
  rw [Connection.replaceAfterSessionRefresh]
  split
  · exact hc
  · next hsome =>
    rw [not_isSome_iff_eq_none] at hsome
    have hfresh := hc.follows (follows_connectFresh (.inl hsome) : Follows c (c.connectFresh cfg))
    split
    · exact hfresh
    · next k hk =>
      split
      · exact hfresh
      · exact hfresh
      · exact hc.connectHandoff hk
      · exact hc

theorem HandoffSafe.step {i : ConnectionInput} (hi : OneAtATime c i) : HandoffSafe
    (c.step cfg i) := by
  cases i with
  | connect replaceCurrent => exact hc.connect hi
  | replaceAfterSessionRefresh => exact hc.replaceAfterSessionRefresh
  | recoverAfterResume => exact hc.follows follows_recover
  | probeWebsocket recent => exact hc.probeWebsocket
  | send | sendOn => exact hc.sendWithSubscription _ _ _ _
  | resend id command sent => exact hc.follows (follows_send _ _ _ _)
  | resendIfSubscribed id channel command sent =>
    simp only [Connection.step, Connection.resendIfSubscribed]
    split
    · exact hc
    · exact hc.follows (follows_send _ _ _ _)
  | setSubscribedChannel channel =>
    simp only [Connection.step, Connection.setSubscribedChannel]
    split
    · exact hc
    · exact hc.follows (.of_log rfl (.inr ⟨rfl, .inl rfl⟩))
  | clearSubscribedChannel expected =>
    simp only [Connection.step, Connection.clearSubscribedChannel]
    split
    · exact hc
    · split
      · exact hc.follows (.of_log rfl (.inr ⟨rfl, .inl rfl⟩))
      · exact hc
  | takeSubscribedChannel => exact hc
  | moves k state => exact hc.follows (follows_moves)
  | opened k =>
    simp only [Connection.step]
    split
    · exact hc.follows (follows_opened)
    · exact hc
  | message k e fresh sent => exact hc.message
  | closed k code fresh sent => exact hc.closed
  | connectTimeout k => exact hc.follows (follows_connectTimeout)
  | handoffTimeout k fresh sent => exact hc.follows (follows_handoffTimeout)
  | liveness k stale => exact hc.follows (follows_liveness)
  | stable k =>
    simp only [Connection.step, Connection.stable]
    split <;> exact hc
  | reconnect => exact hc
  | probe visible recent => exact hc.probe

end

theorem handoffSafe_start :
    HandoffSafe (start cfg) where
  handoff := nofun
  commits before x after hlog := by
    cases before <;> cases hlog
  hellos := nofun

theorem handoffSafe_run {inputs : List ConnectionInput}
    (hrun : Run (Guarded OneAtATime (ConnectionStep cfg)) (.start cfg) inputs c) :
    HandoffSafe c := by
  refine hrun.invariant (P := fun c : Connection => HandoffSafe c) (fun c i c' hc hstep => ?_)
    (handoffSafe_start)
  obtain ⟨hi, rfl⟩ := hstep
  exact hc.step hi

end

/-- In every run in which no other socket is made beside a handoff: every commit replaces an
active socket of the same participant on which nothing is pending, with a candidate that has
acknowledged the channel wanted then, and records that channel; and candidates pass on no `hello`
of somebody else. -/
theorem handoff_commits_safely (cfg : ConnectionConfig) {inputs : List ConnectionInput}
    {c : Connection} (hrun : Run (Guarded OneAtATime (ConnectionStep cfg)) (.start cfg) inputs c) :
    (∀ before x after, c.log = before ++ .committed x :: after → x.Sound before) ∧
      ∀ x ∈ c.log, ¬ForeignHello x := by
  have hc := handoffSafe_run hrun
  exact ⟨hc.commits, hc.hellos⟩

/-- The connection is handed over with channel 7. -/
theorem handoff_commits_safely_channel :
    ∃ (c : Connection) (inputs : List ConnectionInput) (before after : List ConnectionEntry)
      (x : Commit),
      Run (Guarded OneAtATime (ConnectionStep ⟨true, false⟩)) (.start ⟨true, false⟩) inputs c ∧
        c.log = before ++ .committed x :: after ∧ x.replaced = some 0 ∧ x.next = 1 ∧
          x.desiredChannelId = some ⟨7⟩ ∧ x.Sound before := by
  have hrun : Run (Guarded OneAtATime (ConnectionStep ⟨true, false⟩)) (.start ⟨true, false⟩)
      [.connect false, .moves 0 .opened, .opened 0, .message 0 ⟨none, .hello "ada"⟩ "u1" true,
        .connect true, .moves 1 .opened, .opened 1, .sendOn 1 "s1" (.subscribeChannel ⟨7⟩) true,
        .message 1 ⟨none, .hello "ada"⟩ "u2" true,
        .message 1 ⟨some "s1", .subscriptionStarted ⟨7⟩⟩ "u3" true] _ :=
    .cons ⟨.inl rfl, rfl⟩ (.cons ⟨trivial, rfl⟩ (.cons ⟨trivial, rfl⟩ (.cons ⟨trivial, rfl⟩
      (.cons ⟨.inl rfl, rfl⟩ (.cons ⟨trivial, rfl⟩ (.cons ⟨trivial, rfl⟩ (.cons ⟨trivial, rfl⟩
        (.cons ⟨trivial, rfl⟩ (.cons ⟨trivial, rfl⟩ .refl)))))))))
  let before : List ConnectionEntry := [.received 0 ⟨none, .hello "ada"⟩,
    .passed 0 false (some 0) (some "ada") ⟨none, .hello "ada"⟩,
    .accepted 1 "s1" (.subscribeChannel ⟨7⟩) 1, .received 1 ⟨none, .hello "ada"⟩,
    .passed 1 true (some 0) (some "ada") ⟨none, .hello "ada"⟩,
    .received 1 ⟨some "s1", .subscriptionStarted ⟨7⟩⟩]
  let x : Commit := ⟨some 0, 1, true, some "ada", some "ada", [], some ⟨7⟩, 1, some ⟨7⟩⟩
  let after : List ConnectionEntry := [.passed 1 true (some 0) (some "ada")
    ⟨some "s1", .subscriptionStarted ⟨7⟩⟩]
  refine ⟨_, _, before, after, x, hrun, by decide +kernel, rfl, rfl, rfl, ?_⟩
  exact (handoff_commits_safely _ hrun).1 before x after (by decide +kernel)

/-- The active socket falls silent during a handoff and another one is made. The candidate is
still compared with the first one: it replaces the second, which has announced nobody and has a
request on it. -/
theorem commits_beside_handoff :
    ∃ (c : Connection) (inputs : List ConnectionInput) (before after : List ConnectionEntry)
      (x : Commit),
      Run (ConnectionStep ⟨true, false⟩) (.start ⟨true, false⟩) inputs c ∧
        c.log = before ++ .committed x :: after ∧ x.candidateOpen = true ∧ x.replaced = some 2 ∧
          x.replacedParticipant = none ∧ x.nextParticipant = some "ada" ∧
            x.replacedPending = ["r2"] ∧ ¬x.Sound before := by
  let x : Commit := ⟨some 2, 1, true, none, some "ada", ["r2"], none, 0, none⟩
  refine ⟨_, [.connect false, .moves 0 .opened, .opened 0,
    .message 0 ⟨none, .hello "ada"⟩ "u1" true, .connect true, .moves 1 .opened, .opened 1,
    .liveness 0 true, .connect false, .moves 2 .opened, .opened 2, .send "r2" .other true,
    .message 1 ⟨none, .hello "ada"⟩ "u2" true],
    [.received 0 ⟨none, .hello "ada"⟩, .passed 0 false (some 0) (some "ada")
      ⟨none, .hello "ada"⟩, .accepted 2 "r2" .other 0, .received 1 ⟨none, .hello "ada"⟩],
    [.passed 1 true (some 2) none ⟨none, .hello "ada"⟩], x, run_inputs _ _,
    by decide +kernel, rfl, rfl, rfl, rfl, rfl, fun hsound => ?_⟩
  exact absurd (hsound.idle 2 rfl) (by decide)

end Sproyt
