import Sproyt.Frontend.Connection

/-!
# The parts of the connection's handlers

What the functions that the handlers are put together from do to the sockets, the requests and
the log.
-/

namespace Sproyt

open Connection ConnectionCore

variable {cfg : ConnectionConfig} {c c' : Connection} {k k' : SocketId} {h : SocketHandoff}
  {f : ConnectionSocket → ConnectionSocket} {x : ConnectionEntry} {uncertain : Bool} {e : WireEvent}

/-! ### Sockets and the log -/

@[simp] theorem info_write : (c.write x).info = c.info := rfl

@[simp] theorem info_modify :
    (c.modify k f).info k' = if k' = k then f (c.info k') else c.info k' := rfl

theorem ReadyState.isLive_iff (s : ReadyState) : s.isLive = true ↔ s.rank < 2 := by
  cases s <;> decide

theorem ReadyState.rank_close (s : ReadyState) : s.rank ≤ s.close.rank ∧ 2 ≤ s.close.rank := by
  cases s <;> decide

theorem ReadyState.eq_closed (s : ReadyState) (hs : 3 ≤ s.rank) : s = .closed := by
  cases s <;> first | rfl | exact absurd hs (by decide)

theorem ReadyState.not_isLive {s : ReadyState} (hconnecting : s ≠ .connecting)
    (hopened : s ≠ .opened) : s.isLive = false := by
  cases s <;> first | rfl | contradiction

theorem isLive_close (s : ReadyState) : s.close.isLive = false := by
  cases s <;> rfl

theorem pending_closeSocket : (c.closeSocket k).pending k' = c.pending k' := by
  rw [closeSocket, pending, info_modify]
  split <;> rfl

theorem readyState_closeSocket : (c.closeSocket k).readyState k' =
    if k' = k then (c.readyState k').close else c.readyState k' := by
  rw [closeSocket, readyState, info_modify]
  split <;> rfl

/-! ### Requests -/

theorem lose_of_nil (hempty : c.pending k = []) : c.loseSocketRequests k uncertain = c :=
  if_pos hempty

theorem lose_of_ne_nil (hne : c.pending k ≠ []) : c.loseSocketRequests k uncertain =
    (c.modify k fun s => { s with pending := [] }).write (.lost k (c.pending k) uncertain) :=
  if_neg hne

theorem lose_with_handoff (c : Connection) (o : Option SocketHandoff) :
    { c with socketHandoff := o }.loseSocketRequests k uncertain =
      { c.loseSocketRequests k uncertain with socketHandoff := o } := by
  by_cases hempty : c.pending k = []
  · have hempty' : ({ c with socketHandoff := o } : Connection).pending k = [] := hempty
    rw [lose_of_nil hempty', lose_of_nil hempty]
  · have hempty' : ({ c with socketHandoff := o } : Connection).pending k ≠ [] := hempty
    rw [lose_of_ne_nil hempty', lose_of_ne_nil hempty]
    rfl

theorem core_lose_with_socket {socket : Option SocketId} (hcore : c'.toConnectionCore =
    { c.toConnectionCore with socket := socket }) :
    (c'.loseSocketRequests k uncertain).toConnectionCore =
      { (c.loseSocketRequests k uncertain).toConnectionCore with socket := socket } := by
  have hpending : c'.pending k = c.pending k := by
    rw [hcore]
    rfl
  by_cases hempty : c.pending k = []
  · rw [lose_of_nil hempty, lose_of_nil (hpending.trans hempty), hcore]
  · rw [lose_of_ne_nil hempty, lose_of_ne_nil (hpending ▸ hempty), hpending]
    simp only [Connection.write, Connection.modify, hcore]

theorem core_lose_congr (hcore : c'.toConnectionCore = c.toConnectionCore) :
    (c'.loseSocketRequests k uncertain).toConnectionCore =
      (c.loseSocketRequests k uncertain).toConnectionCore := by
  rw [core_lose_with_socket (show c'.toConnectionCore = { c.toConnectionCore with
    socket := c.socket } from hcore), loseSocketRequests]
  split <;> rfl

theorem pending_lose :
    (c.loseSocketRequests k uncertain).pending k' = if k' = k then [] else c.pending k' := by
  rw [loseSocketRequests]
  split
  · next hempty =>
    split
    · next heq => rw [heq, hempty]
    · rfl
  · rw [pending, info_write, info_modify]
    split <;> rfl

theorem readyState_lose : (c.loseSocketRequests k uncertain).readyState k' = c.readyState k' := by
  rw [loseSocketRequests]
  split
  · rfl
  · rw [readyState, info_write, info_modify]
    split <;> rfl

theorem handoff_lose : (c.loseSocketRequests k uncertain).socketHandoff = c.socketHandoff := by
  rw [loseSocketRequests]
  split <;> rfl

theorem dropped (c : Connection) (k : SocketId) (uncertain : Bool) :
    ((c.loseSocketRequests k uncertain).closeSocket k).pending k = [] ∧
      (((c.loseSocketRequests k uncertain).closeSocket k).readyState k).isLive = false := by
  constructor
  · rw [pending_closeSocket, pending_lose, if_pos rfl]
  · rw [readyState_closeSocket, if_pos rfl, isLive_close]

theorem dropped_other (hne : k' ≠ k) :
    ((c.loseSocketRequests k uncertain).closeSocket k).pending k' = c.pending k' ∧
      ((c.loseSocketRequests k uncertain).closeSocket k).readyState k' = c.readyState k' := by
  constructor
  · rw [pending_closeSocket, pending_lose, if_neg hne]
  · rw [readyState_closeSocket, if_neg hne, readyState_lose]

theorem pending_receive : (c.receive k e).pending k' =
    if k' = k then (c.pending k').filter (some · ≠ e.requestId) else c.pending k' := by
  rw [receive, pending, info_write, info_modify]
  split <;> rfl

theorem readyState_receive : (c.receive k e).readyState k' = c.readyState k' := by
  rw [receive, readyState, info_write, info_modify]
  split <;> rfl

theorem participant_receive : (c.receive k e).participant k' = c.participant k' := by
  rw [receive, participant, info_write, info_modify]
  split <;> rfl

theorem sendViaRequest_cases (c : Connection) (target : Option SocketId) (requestId : String)
    (command : ConnectionCommand) (sent : Bool) :
    (c.sendViaRequest target requestId command sent).1 = c ∨
      ∃ k, target = some k ∧ c.readyState k = .opened ∧
        (c.sendViaRequest target requestId command sent) =
          ((c.modify k fun s => { s with pending := s.pending.insert requestId }).write
            (.accepted k requestId command c.subscriptionGeneration), some requestId) := by
  cases target with
  | none => exact .inl rfl
  | some k =>
    simp only [sendViaRequest]
    split
    · exact .inl rfl
    · next hopen =>
      split
      · exact .inl rfl
      · rw [not_or, not_not] at hopen
        exact .inr ⟨k, rfl, hopen.1, rfl⟩

/-! ### Timers -/

variable (cfg)

theorem core_scheduleProbe (c : Connection) :
    (c.scheduleProbe cfg).toConnectionCore = c.toConnectionCore := by
  rw [scheduleProbe]
  split <;> rfl

theorem core_activateSocket (c : Connection) (k : SocketId) :
    (c.activateSocket cfg k).toConnectionCore = c.toConnectionCore := by
  simp only [activateSocket]
  split
  · split
    · rfl
    · exact core_scheduleProbe cfg _
  · rfl

theorem core_endProbe (probe : Bool) :
    (c.endProbe probe).toConnectionCore = c.toConnectionCore := by
  rw [endProbe]
  split <;> rfl

theorem core_recordFailure (c : Connection) :
    (c.recordWebsocketFailure cfg).toConnectionCore = c.toConnectionCore := rfl

/-! ### Handoffs and close events -/

theorem dropCandidate_of_none (hnone : c.socketHandoff = none) : c.dropCandidate = c := by
  rw [dropCandidate, hnone]

theorem core_dropCandidate (hh : c.socketHandoff = some h) :
    c.dropCandidate.toConnectionCore =
      { ((c.loseSocketRequests h.nextSocket false).closeSocket h.nextSocket).toConnectionCore with
        socketHandoff := none } := by
  simp only [dropCandidate, hh, lose_with_handoff]
  rfl

/-- A candidate commits, or nothing happens. -/
theorem tryCommit_cases (c : Connection) :
    c.tryCommitHandoff cfg = c ∨ ∃ h, c.socketHandoff = some h ∧ c.canCommit h = true := by
  rcases Option.eq_none_or_eq_some c.socketHandoff with hnone | ⟨h, hh⟩
  · exact .inl (by simp only [tryCommitHandoff, hnone])
  · by_cases hcan : c.canCommit h = true
    · exact .inr ⟨h, hh, hcan⟩
    · exact .inl (by simp only [tryCommitHandoff, hh, if_neg hcan])

theorem core_tryCommit (hh : c.socketHandoff = some h) (hcan : c.canCommit h = true) :
    ∃ entries : List ConnectionEntry,
      (∀ x ∈ entries, ∃ k a p e, x = .passed k true a p e ∧ ∀ name, e.body ≠ .hello name) ∧
      (c.tryCommitHandoff cfg).toConnectionCore =
        { (if c.readyState h.previousSocket = .opened then c.closeSocket h.previousSocket
            else c).toConnectionCore with
          socket := some h.nextSocket
          socketHandoff := none
          log := c.log ++ .committed (c.commitOf h) :: entries } := by
  obtain ⟨d, hd⟩ : ∃ d : Connection, d = { (c.endProbe h.probe).write
      (.committed (c.commitOf h)) with
        socketHandoff := none
        socket := some h.nextSocket
        subscribedChannelId := (c.commitOf h).subscribedChannelId } := ⟨_, rfl⟩
  have hcore : (d.activateSocket cfg h.nextSocket).toConnectionCore =
      { c.toConnectionCore with
        socket := some h.nextSocket
        socketHandoff := none
        log := c.log ++ [.committed (c.commitOf h)] } := by
    rw [core_activateSocket, hd]
    simp only [Connection.write, core_endProbe]
  have hstate : (d.activateSocket cfg h.nextSocket).readyState h.previousSocket =
      c.readyState h.previousSocket := by
    rw [hcore]
    rfl
  obtain ⟨g, hg⟩ : ∃ g, g = d.activateSocket cfg h.nextSocket := ⟨_, rfl⟩
  rw [← hg] at hcore hstate
  have hclosed : (if g.readyState h.previousSocket = .opened then g.closeSocket h.previousSocket
      else g).toConnectionCore =
      { (if c.readyState h.previousSocket = .opened then c.closeSocket h.previousSocket
          else c).toConnectionCore with
        socket := some h.nextSocket
        socketHandoff := none
        log := c.log ++ [.committed (c.commitOf h)] } := by
    rw [hstate]
    split
    · simp only [Connection.closeSocket, Connection.modify, hcore]
    · exact hcore
  simp only [Connection.tryCommitHandoff, hh, if_pos hcan, ← hd, ← hg]
  rcases hevent : h.readySubscriptionEvent with - | ⟨id, channel⟩
  · exact ⟨[], fun x hx => absurd hx List.not_mem_nil, hclosed⟩
  · refine ⟨[.passed h.nextSocket true (c.commitOf h).replaced (c.commitOf h).replacedParticipant
      ⟨id, .subscriptionStarted channel⟩], fun x hx => ?_, ?_⟩
    · exact ⟨_, _, _, _, List.mem_singleton.1 hx, fun name heq => by cases heq⟩
    · simp only [Connection.pass, Connection.write, hclosed, List.append_assoc,
        List.singleton_append]

theorem core_lostActive (c : Connection) (k : SocketId) (code : Nat) :
    ((c.lostActive cfg k code).toConnectionCore = c.toConnectionCore ∧
      (c.socket ≠ some k ∨ ∃ p, (c.info k).previous = some p ∧ c.socket = some p ∧
        c.readyState p = .opened)) ∨
    (c.lostActive cfg k code).toConnectionCore =
      (c.loseSocketRequests k true).toConnectionCore := by
  simp only [lostActive]
  split
  · next p hp =>
    split
    · next hopen => exact .inl ⟨rfl, .inr ⟨p, hp, hopen⟩⟩
    · split
      · next hne => exact .inl ⟨rfl, .inl hne⟩
      · exact .inr rfl
  · split
    · next hne => exact .inl ⟨rfl, .inl hne⟩
    · split
      · exact .inr (core_lose_congr (core_recordFailure cfg c))
      · exact .inr rfl

theorem run_inputs (inputs : List ConnectionInput) :
    Run (ConnectionStep cfg) (.start cfg) inputs (inputs.foldl (step cfg) (.start cfg)) := by
  induction inputs using List.reverseRecOn with
  | nil => exact .refl
  | append_singleton inputs i ih =>
    rw [List.foldl_append]
    exact ih.step rfl

end Sproyt
