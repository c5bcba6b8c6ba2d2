import Sproyt.Frontend.ConnectionParts

/-!
# What becomes of a request

A request that a socket has accepted is answered there or reported to the application, once,
when the socket is given up. A socket that is replaced while it is closing is forgotten with the
requests on it, and so is a candidate whose handoff is overwritten.
-/

namespace Sproyt

open List Connection ConnectionCore ConnectionEntry Option

/-! ### The ledger -/

/-- Whether a request on a socket is still owed an answer or a report, after one more entry. -/
def ConnectionEntry.owes (k : SocketId) (id : String) (before : Bool) : ConnectionEntry → Bool
  | accepted k' id' _ _ => if k' = k ∧ id' = id then true else before
  | received k' e => if k' = k ∧ e.requestId = some id then false else before
  | lost k' ids _ => if k' = k ∧ id ∈ ids then false else before
  | _ => before

def owed (k : SocketId) (id : String) (log : List ConnectionEntry) : Bool :=
  log.foldl (fun before x => x.owes k id before) false

def ConnectionEntry.isNeutral : ConnectionEntry → Bool
  | passed .. => true
  | committed _ => true
  | _ => false

theorem owed_concat (k : SocketId) (id : String) (log : List ConnectionEntry)
    (x : ConnectionEntry) : owed k id (log ++ [x]) = x.owes k id (owed k id log) := by
  rw [owed, foldl_append]
  rfl

def RequestAnswered (k : SocketId) (id : String) (log : List ConnectionEntry) : Prop :=
  ∃ e, .received k e ∈ log ∧ e.requestId = some id

def RequestReported (k : SocketId) (id : String) (log : List ConnectionEntry) : Prop :=
  ∃ ids uncertain, .lost k ids uncertain ∈ log ∧ id ∈ ids

def RequestAccepted (k : SocketId) (id : String) (log : List ConnectionEntry) : Prop :=
  ∃ command generation, .accepted k id command generation ∈ log

section

variable {k : SocketId} {id : String} {x : ConnectionEntry} {before after : List ConnectionEntry}

theorem owes_of_true (hx : x.owes k id true = false) :
    (∃ e, x = .received k e ∧ e.requestId = some id) ∨
      ∃ ids uncertain, x = .lost k ids uncertain ∧ id ∈ ids := by
  cases x with
  | received k' e =>
    rw [owes] at hx
    split at hx
    · next heq => exact .inl ⟨e, by rw [heq.1], heq.2⟩
    · cases hx
  | lost k' ids uncertain =>
    rw [owes] at hx
    split at hx
    · next heq => exact .inr ⟨ids, uncertain, by rw [heq.1], heq.2⟩
    · cases hx
  | accepted k' id' command generation =>
    rw [owes, ite_self] at hx
    cases hx
  | _ => cases hx

theorem owes_of_false (hx : x.owes k id false = true) :
    ∃ command generation, x = .accepted k id command generation := by
  cases x with
  | accepted k' id' command generation =>
    rw [owes] at hx
    split at hx
    · next heq => exact ⟨command, generation, by rw [heq.1, heq.2]⟩
    · cases hx
  | received | lost =>
    rw [owes, ite_self] at hx
    cases hx
  | _ => cases hx

theorem exists_of_owed_ne {b : Bool} (hbefore : owed k id before = b)
    (hafter : owed k id (before ++ after) = !b) : ∃ x ∈ after, x.owes k id b = !b := by
  induction after using List.reverseRecOn with
  | nil =>
    rw [append_nil, hbefore] at hafter
    cases b <;> cases hafter
  | append_singleton after x ih =>
    rw [← append_assoc, owed_concat] at hafter
    by_cases hmiddle : owed k id (before ++ after) = b
    · rw [hmiddle] at hafter
      exact ⟨x, mem_append_right _ (mem_singleton_self x), hafter⟩
    · obtain ⟨y, hy, hchange⟩ := ih (Bool.eq_not_of_ne hmiddle)
      exact ⟨y, mem_append_left _ hy, hchange⟩

/-- What is owed and then not owed any more was answered or reported in between. -/
theorem settled_of_owed (hbefore : owed k id before = true)
    (hafter : owed k id (before ++ after) = false) :
    RequestAnswered k id after ∨ RequestReported k id after := by
  obtain ⟨x, hx, hchange⟩ := exists_of_owed_ne hbefore hafter
  rcases owes_of_true hchange with ⟨e, rfl, hid⟩ | ⟨ids, uncertain, rfl, hid⟩
  · exact .inl ⟨e, hx, hid⟩
  · exact .inr ⟨ids, uncertain, hx, hid⟩

/-- What is not owed and then owed was accepted in between. -/
theorem accepted_of_owed (hbefore : owed k id before = false)
    (hafter : owed k id (before ++ after) = true) : RequestAccepted k id after := by
  obtain ⟨x, hx, hchange⟩ := exists_of_owed_ne hbefore hafter
  obtain ⟨command, generation, rfl⟩ := owes_of_false hchange
  exact ⟨command, generation, hx⟩

end

variable {command : ConnectionCommand}

def Held (c : ConnectionCore) (k : SocketId) : Prop := c.socket = some k ∨ c.candidate = some k

theorem Held.active {c : ConnectionCore} {k : SocketId} (hk : Held c k)
    (hnone : c.socketHandoff = none) : c.socket = some k := by
  refine hk.resolve_right fun hcandidate => ?_
  rw [candidate, hnone] at hcandidate
  cases hcandidate

/-- Only held sockets have requests on them and are not closing, and the requests on a socket
are those that are owed. -/
structure Tidy (c : ConnectionCore) : Prop where
  held : ∀ k, c.pending k ≠ [] → Held c k
  live : ∀ k, k < c.created → (c.readyState k).isLive → Held c k
  closed : ∀ k, .closed k ∈ c.log → c.readyState k = .closed ∧ c.pending k = []
  handoff : ∀ h, c.socketHandoff = some h → c.socket = some h.previousSocket ∧
    h.nextSocket ≠ h.previousSocket ∧ (c.info h.nextSocket).previous = some h.previousSocket ∧
      c.readyState h.previousSocket ≠ .connecting ∧ h.nextSocket < c.created
  unborn : ∀ k, c.created ≤ k → c.info k = .none
  born : ∀ k, c.socket = some k → k < c.created
  books : ∀ k id, id ∈ c.pending k ↔ owed k id c.log = true
  distinct : ∀ k, (c.pending k).Nodup
  reported : ∀ before after k ids uncertain, c.log = before ++ .lost k ids uncertain :: after →
    ids.Nodup ∧ ∀ id ∈ ids, owed k id before = true

section

variable {cfg : ConnectionConfig} {c c' : Connection} {k k' : SocketId} {id : String}
  {h : SocketHandoff} {f : ConnectionSocket → ConnectionSocket} {x : ConnectionEntry}
  {uncertain : Bool} {e : WireEvent}

/-! ### What the parts of a handler change -/

/-- The socket keeps its predecessor, and its ready state does not go back. -/
structure Onward (s s' : ConnectionSocket) : Prop where
  previous : s'.previous = s.previous
  rank : s.readyState.rank ≤ s'.readyState.rank

theorem Onward.refl (s : ConnectionSocket) : Onward s s := ⟨rfl, Nat.le_refl _⟩

/-- No socket is made, and the active socket and the candidate stay. -/
structure Keeps (c c' : ConnectionCore) : Prop where
  created : c'.created = c.created
  socket : c'.socket = c.socket
  candidate : c'.socketHandoff.map (fun h => (h.previousSocket, h.nextSocket)) =
    c.socketHandoff.map fun h => (h.previousSocket, h.nextSocket)
  later : ∀ k, Onward (c.info k) (c'.info k)
  unborn : ∀ k, c.created ≤ k → c.info k = .none → c'.info k = .none

theorem Keeps.held {c c' : ConnectionCore} (hkeeps : Keeps c c') (hk : Held c k) : Held c' k := by
  refine hk.imp (fun hsocket => hkeeps.socket.trans hsocket) fun hcandidate => ?_
  have hmap := congrArg (Option.map Prod.snd) hkeeps.candidate
  rw [Option.map_map, Option.map_map] at hmap
  exact hmap.trans hcandidate

theorem Tidy.keeps {c c' : ConnectionCore} (hc : Tidy c) (hkeeps : Keeps c c')
    (hpending : ∀ k, c'.pending k ≠ [] → Held c k)
    (hclosed : ∀ k, .closed k ∈ c'.log → .closed k ∈ c.log ∧ c'.pending k = [])
    (hbooks : ∀ k id, id ∈ c'.pending k ↔ owed k id c'.log = true)
    (hdistinct : ∀ k, (c'.pending k).Nodup)
    (hreported : ∀ before after k ids uncertain, c'.log = before ++ .lost k ids uncertain :: after →
        ids.Nodup ∧ ∀ id ∈ ids, owed k id before = true) :
    Tidy c' where
  held k hk := hkeeps.held (hpending k hk)
  live k hlt hlive := by
    rw [hkeeps.created] at hlt
    refine hkeeps.held (hc.live k hlt ?_)
    rw [ReadyState.isLive_iff] at hlive ⊢
    exact Nat.lt_of_le_of_lt (hkeeps.later k).rank hlive
  closed k hk := by
    refine ⟨ReadyState.eq_closed _ ?_, (hclosed k hk).2⟩
    have hstate := (hc.closed k (hclosed k hk).1).1
    have hrank := (hkeeps.later k).rank
    rw [show (c.info k).readyState = .closed from hstate] at hrank
    exact hrank
  handoff h' hh' := by
    have hmap := hkeeps.candidate
    rw [hh'] at hmap
    obtain ⟨h, hh, heq⟩ := map_eq_some_iff.1 hmap.symm
    obtain ⟨hprevious, hnext⟩ := Prod.mk.inj heq
    obtain ⟨hsocket, hne, hof, hstate, hlt⟩ := hc.handoff h hh
    rw [hprevious, hnext] at *
    refine ⟨hkeeps.socket.trans hsocket, hne, (hkeeps.later _).previous.trans hof,
      fun hstate' => ?_, hkeeps.created ▸ hlt⟩
    have hrank := (hkeeps.later h'.previousSocket).rank
    rw [show (c'.info h'.previousSocket).readyState = .connecting from hstate'] at hrank
    apply hstate
    show (c.info h'.previousSocket).readyState = .connecting
    cases hs : (c.info h'.previousSocket).readyState with
    | connecting => rfl
    | _ => rw [hs] at hrank; exact absurd hrank (by decide)
  unborn k hk := by
    rw [hkeeps.created] at hk
    exact hkeeps.unborn k hk (hc.unborn k hk)
  born k hk := by
    rw [hkeeps.socket] at hk
    exact hkeeps.created ▸ hc.born k hk
  books := hbooks
  distinct := hdistinct
  reported := hreported

theorem Tidy.quiet {c c' : ConnectionCore} (hc : Tidy c) (hkeeps : Keeps c c')
    (hpending : ∀ k, c'.pending k = c.pending k) (hlog : c'.log = c.log) : Tidy c' := by
  refine hc.keeps hkeeps (fun k hk => hc.held k ?_) (fun k hk => ?_) (fun k id => ?_)
    (fun k => ?_) ?_
  · rwa [hpending] at hk
  · rw [hlog] at hk
    exact ⟨hk, (hpending k).trans (hc.closed k hk).2⟩
  · rw [hpending, hlog]
    exact hc.books k id
  · rw [hpending]
    exact hc.distinct k
  · rw [hlog]
    exact hc.reported

theorem Tidy.entry {c c' : ConnectionCore} (hc : Tidy c) (hkeeps : Keeps c c')
    (hlog : c'.log = c.log ++ [x]) (hx : ∀ k, x ≠ .closed k)
    (hpending : ∀ k, c'.pending k ≠ [] → Held c k)
    (hclosed : ∀ k, .closed k ∈ c.log → c'.pending k = [])
    (hbooks : ∀ k id, id ∈ c'.pending k ↔ x.owes k id (owed k id c.log) = true)
    (hdistinct : ∀ k, (c'.pending k).Nodup)
    (hlost : ∀ k ids uncertain, x = .lost k ids uncertain → ids = c.pending k) : Tidy c' := by
  refine hc.keeps hkeeps hpending (fun k hk => ?_) (fun k id => ?_) hdistinct
    fun before after k ids uncertain hsplit => ?_
  · rw [hlog] at hk
    rcases mem_append.1 hk with hk | hk
    · exact ⟨hk, hclosed k hk⟩
    · exact absurd (mem_singleton.1 hk).symm (hx k)
  · rw [hlog, owed_concat]
    exact hbooks k id
  · rw [hlog] at hsplit
    rcases concat_eq_append_cons hsplit with ⟨rest, -, hold⟩ | ⟨-, rfl, heq⟩
    · exact hc.reported before rest k ids uncertain hold
    · obtain rfl := hlost k ids uncertain heq
      exact ⟨hc.distinct k, fun id => (hc.books k id).1⟩

theorem Tidy.write {c : ConnectionCore} (hc : Tidy c) (hx : x.isNeutral) :
    Tidy { c with log := c.log ++ [x] } := by
  have howes : ∀ k id b, x.owes k id b = b := by
    intro k id b
    cases x <;> first | rfl | cases hx
  refine hc.entry ⟨rfl, rfl, rfl, fun _ => .refl _, fun _ _ h => h⟩ rfl (fun k heq => ?_)
    (fun k hk => hc.held k hk) (fun k hk => (hc.closed k hk).2) (fun k id => ?_) hc.distinct
    fun k ids uncertain heq => ?_
  · rw [heq] at hx
    cases hx
  · rw [howes]
    exact hc.books k id
  · rw [heq] at hx
    cases hx

theorem keeps_modify (hf : Onward (c.info k) (f (c.info k)))
    (hborn : k < c.created ∨ f .none = .none) : Keeps c (c.modify k f) := by
  refine ⟨rfl, rfl, rfl, fun k' => ?_, fun k' hk' hnone => ?_⟩
  · rw [info_modify]
    split
    · next heq => exact heq ▸ hf
    · exact .refl _
  · rw [info_modify]
    split
    · next heq =>
      rw [hnone]
      exact hborn.resolve_left (Nat.not_lt_of_le (heq ▸ hk'))
    · exact hnone

theorem Keeps.write (hkeeps : Keeps c c') (x : ConnectionEntry) : Keeps c (c'.write x) :=
  ⟨hkeeps.created, hkeeps.socket, hkeeps.candidate, hkeeps.later, hkeeps.unborn⟩

theorem Tidy.modify (hc : Tidy c) (hf : Onward (c.info k) (f (c.info k)))
    (hpending : ∀ s, (f s).pending = s.pending) (hborn : k < c.created ∨ f .none = .none) :
    Tidy (c.modify k f) := by
  refine hc.quiet (keeps_modify hf hborn) (fun k' => ?_) rfl
  rw [pending, info_modify]
  split
  · exact hpending _
  · rfl

theorem Tidy.closeSocket (hc : Tidy c) (hk : k < c.created) : Tidy (c.closeSocket k) :=
  hc.modify ⟨rfl, (c.info k).readyState.rank_close.1⟩ (fun _ => rfl) (.inl hk)

theorem Tidy.clearConnectTimeout (hc : Tidy c) (k : SocketId) : Tidy (c.clearConnectTimeout k) :=
  hc.modify ⟨rfl, Nat.le_refl _⟩ (fun _ => rfl) (.inr rfl)

theorem keeps_lose (c : Connection) (k : SocketId) (uncertain : Bool) :
    Keeps c.toConnectionCore (c.loseSocketRequests k uncertain).toConnectionCore := by
  rw [loseSocketRequests]
  split
  · exact ⟨rfl, rfl, rfl, fun _ => .refl _, fun _ _ h => h⟩
  · exact (keeps_modify ⟨rfl, Nat.le_refl _⟩ (.inr rfl)).write _

theorem Tidy.lose (hc : Tidy c) (k : SocketId) (uncertain : Bool) :
    Tidy (c.loseSocketRequests k uncertain) := by
  by_cases hempty : c.pending k = []
  · rw [loseSocketRequests, if_pos hempty]
    exact hc
  · have hlog : (c.loseSocketRequests k uncertain).log =
        c.log ++ [.lost k (c.pending k) uncertain] := by
      rw [loseSocketRequests, if_neg hempty]
      rfl
    refine hc.entry (keeps_lose c k uncertain) hlog (fun _ heq => by cases heq)
      (fun k' hk' => hc.held k' fun hnil => hk' ?_) (fun k' hk' => ?_) (fun k' id => ?_)
      (fun k' => ?_) fun k' ids u heq => ?_
    · rw [pending_lose, hnil, ite_self]
    · rw [pending_lose, (hc.closed k' hk').2, ite_self]
    · rw [pending_lose, owes]
      by_cases hk : k' = k
      · rw [if_pos hk, hk]
        by_cases hid : id ∈ c.pending k
        · simp [hid]
        · simpa [hid] using mt (hc.books k id).2 hid
      · rw [if_neg hk, if_neg fun hand => hk hand.1.symm]
        exact hc.books k' id
    · rw [pending_lose]
      split
      · exact nodup_nil
      · exact hc.distinct k'
    · cases heq
      rfl

theorem Tidy.receive (hc : Tidy c) (k : SocketId) (e : WireEvent) : Tidy (c.receive k e) := by
  have hsub : ∀ k', c.pending k' = [] → (c.receive k e).pending k' = [] := by
    intro k' hnil
    rw [pending_receive, hnil]
    split <;> rfl
  refine hc.entry ((keeps_modify ⟨rfl, Nat.le_refl _⟩ (.inr rfl)).write _) rfl
    (fun _ heq => by cases heq) (fun k' hk' => hc.held k' (mt (hsub k') hk'))
    (fun k' hk' => hsub k' (hc.closed k' hk').2)
    (fun k' id => ?_) (fun k' => ?_) fun k' ids u heq => by cases heq
  · rw [pending_receive, owes]
    by_cases hk : k' = k
    · rw [if_pos hk, mem_filter, hc.books k' id, hk]
      by_cases hid : e.requestId = some id
      · simp [hid]
      · simp [hid, Ne.symm hid]
    · rw [if_neg hk, if_neg fun hand => hk hand.1.symm]
      exact hc.books k' id
  · rw [pending_receive]
    split
    · exact (hc.distinct k').filter _
    · exact hc.distinct k'

variable {target : Option SocketId} {sent : Bool}

theorem Tidy.sendViaRequest (hc : Tidy c) (target : Option SocketId)
    (requestId : String) (command : ConnectionCommand) (sent : Bool) :
    Tidy (c.sendViaRequest target requestId command sent).1.toConnectionCore := by
  rcases sendViaRequest_cases c target requestId command sent with heq | ⟨k, -, hopen, heq⟩
  · rw [heq]
    exact hc
  · rw [heq]
    have hborn : k < c.created := by
      by_contra hge
      rw [readyState, hc.unborn k (Nat.le_of_not_lt hge)] at hopen
      cases hopen
    have hheld : Held c k := hc.live k hborn (by rw [hopen]; rfl)
    have hpending : ∀ k', ((c.modify k fun s => { s with
        pending := s.pending.insert requestId }).write (.accepted k requestId command
          c.subscriptionGeneration)).pending k' =
        if k' = k then (c.pending k').insert requestId else c.pending k' := by
      intro k'
      rw [pending, info_write, info_modify]
      split <;> rfl
    refine hc.entry ((keeps_modify ⟨rfl, Nat.le_refl _⟩ (.inl hborn)).write _) rfl
      (fun _ heq => by cases heq) (fun k' hk' => ?_) (fun k' hk' => ?_) (fun k' id => ?_)
      (fun k' => ?_) fun k' ids u heq => by cases heq
    · rw [hpending] at hk'
      by_cases heq : k' = k
      · exact heq ▸ hheld
      · rw [if_neg heq] at hk'
        exact hc.held k' hk'
    · have hclosed := hc.closed k' hk'
      rw [hpending, if_neg]
      · exact hclosed.2
      · rintro rfl
        rw [hopen] at hclosed
        cases hclosed.1
    · rw [hpending, owes]
      by_cases hk : k' = k
      · rw [if_pos hk, mem_insert_iff, hc.books k' id, hk]
        by_cases hid : id = requestId
        · simp [hid]
        · simp [hid, Ne.symm hid]
      · rw [if_neg hk, if_neg fun hand => hk hand.1.symm]
        exact hc.books k' id
    · rw [hpending]
      split
      · exact (hc.distinct k').insert
      · exact hc.distinct k'

/-! ### Giving up a socket -/

def Gone (c : ConnectionCore) (k : SocketId) : Prop :=
  c.pending k = [] ∧ (c.readyState k).isLive = false

theorem Tidy.rehold {c : ConnectionCore} (hc : Tidy c) {socket : Option SocketId}
    {handoff : Option SocketHandoff} (hnone : handoff = none)
    (hheld : ∀ k, Held c k → socket = some k ∨ Gone c k)
    (hborn : ∀ k, socket = some k → k < c.created) :
    Tidy { c with socket := socket, socketHandoff := handoff } := by
  refine ⟨fun k hk => ?_, fun k hlt hlive => ?_, hc.closed, fun h' hh' => ?_, hc.unborn, hborn,
    hc.books, hc.distinct, hc.reported⟩
  · exact .inl ((hheld k (hc.held k hk)).resolve_right fun hgone => hk hgone.1)
  · exact .inl ((hheld k (hc.live k hlt hlive)).resolve_right fun hgone =>
      Bool.false_ne_true (hgone.2.symm.trans hlive))
  · cases hnone.symm.trans hh'

theorem Tidy.dropHandoff {c : ConnectionCore} (hc : Tidy c) (hh : c.socketHandoff = some h)
    (hgone : Gone c h.nextSocket) : Tidy { c with socketHandoff := none } := by
  refine hc.rehold rfl (fun k hk => hk.imp_right fun hcandidate => ?_) hc.born
  rw [candidate, hh] at hcandidate
  exact some.inj hcandidate ▸ hgone

theorem Tidy.dropSocket {c : ConnectionCore} (hc : Tidy c) (hnone : c.socketHandoff = none)
    (hgone : ∀ k, c.socket = some k → Gone c k) : Tidy { c with socket := none } :=
  hc.rehold hnone (fun k hk => .inr (hgone k (hk.active hnone))) nofun

theorem Tidy.switch {c : ConnectionCore} (hc : Tidy c) (hh : c.socketHandoff = some h)
    (hgone : Gone c h.previousSocket) :
    Tidy { c with socket := some h.nextSocket, socketHandoff := none } := by
  obtain ⟨hsocket, -, -, -, hlt⟩ := hc.handoff h hh
  refine hc.rehold rfl (fun k hk => ?_) fun k hk => some.inj hk ▸ hlt
  rcases hk with hk | hk
  · rw [hsocket] at hk
    exact .inr (some.inj hk ▸ hgone)
  · rw [candidate, hh] at hk
    exact .inl hk

/-! ### Connecting -/

theorem Tidy.make {c c' : ConnectionCore} (hc : Tidy c) {s : ConnectionSocket}
    (hs : s.pending = []) (hcreated : c'.created = c.created + 1)
    (hinfo : ∀ k, c'.info k = if k = c.created then s else c.info k) (hlog : c'.log = c.log)
    (hheld : ∀ k, k < c.created → Held c k → c.pending k ≠ [] ∨ (c.readyState k).isLive = true →
      Held c' k) (hnew : Held c' c.created)
    (hhandoff : ∀ h, c'.socketHandoff = some h → c'.socket = some h.previousSocket ∧
      h.nextSocket ≠ h.previousSocket ∧ (c'.info h.nextSocket).previous = some h.previousSocket ∧
        c'.readyState h.previousSocket ≠ .connecting ∧ h.nextSocket < c'.created)
    (hborn : ∀ k, c'.socket = some k → k < c'.created) : Tidy c' := by
  have hfresh : c.info c.created = .none := hc.unborn _ (Nat.le_refl _)
  have hpending : ∀ k, c'.pending k = c.pending k := by
    intro k
    rw [pending, pending, hinfo]
    split
    · next heq => rw [heq, hfresh, hs]; rfl
    · rfl
  have hlt : ∀ k, c.pending k ≠ [] → k < c.created := by
    intro k hk
    by_contra hge
    rw [pending, hc.unborn k (Nat.le_of_not_lt hge)] at hk
    exact hk rfl
  refine ⟨fun k hk => ?_, fun k hk hlive => ?_, fun k hk => ?_, hhandoff, fun k hk => ?_, hborn,
    fun k id => ?_, fun k => ?_, fun before after k ids u hsplit => ?_⟩
  · rw [hpending] at hk
    exact hheld k (hlt k hk) (hc.held k hk) (.inl hk)
  · rw [hcreated] at hk
    by_cases heq : k = c.created
    · exact heq ▸ hnew
    · have hbefore : k < c.created := by omega
      rw [readyState, hinfo, if_neg heq] at hlive
      exact hheld k hbefore (hc.live k hbefore hlive) (.inr hlive)
  · rw [hlog] at hk
    obtain ⟨hstate, hempty⟩ := hc.closed k hk
    refine ⟨?_, (hpending k).trans hempty⟩
    rw [readyState, hinfo, if_neg]
    · exact hstate
    · rintro rfl
      rw [readyState, hfresh] at hstate
      cases hstate
  · rw [hcreated] at hk
    rw [hinfo, if_neg (show k ≠ c.created by omega)]
    exact hc.unborn k (by omega)
  · rw [hpending, hlog]
    exact hc.books k id
  · rw [hpending]
    exact hc.distinct k
  · rw [hlog] at hsplit
    exact hc.reported before after k ids u hsplit

def Unburdened (c : ConnectionCore) : Prop :=
  ∀ k, c.socket = some k → (c.readyState k).isLive = false → c.pending k = []

theorem Tidy.connectFresh (hc : Tidy c) (hnone : c.socketHandoff = none)
    (hsettled : Unburdened c) : Tidy (c.connectFresh cfg) := by
  simp only [Connection.connectFresh]
  split
  · exact hc
  · next hlive =>
    have hdead : ∀ k, c.socket = some k → (c.readyState k).isLive = false := by
      intro k hk
      rw [hk] at hlive
      exact Bool.eq_false_of_not_eq_true hlive
    refine hc.make rfl rfl (fun _ => rfl) rfl (fun k _ hk hpending => ?_) (.inl rfl)
      (fun h hh => ?_) fun k hk => ?_
    · have hsocket := hk.active hnone
      rw [hsettled k hsocket (hdead k hsocket), hdead k hsocket] at hpending
      exact absurd hpending (by simp)
    · cases hnone.symm.trans (show c.socketHandoff = some h from hh)
    · cases hk
      exact Nat.lt_succ_self _

theorem Tidy.connectHandoff (hc : Tidy c) (hnone : c.socketHandoff = none)
    (hsocket : c.socket = some k) (hopen : c.readyState k = .opened) {probe : Bool} :
    Tidy (c.connectHandoff cfg k probe) := by
  have hborn := hc.born k hsocket
  refine hc.make rfl rfl (fun _ => rfl) rfl (fun k' _ hk' _ => .inl (hk'.active hnone)) (.inr rfl)
    (fun h hh => ?_) fun k' hk' => ?_
  · cases hh
    refine ⟨hsocket, Nat.ne_of_gt hborn, ?_, ?_, Nat.lt_succ_self _⟩
    · show (if c.created = c.created then _ else c.info c.created).previous = some k
      rw [if_pos rfl]
    · show (if k = c.created then _ else c.info k).readyState ≠ .connecting
      rw [if_neg (Nat.ne_of_lt hborn), show (c.info k).readyState = .opened from hopen]
      decide
  · exact Nat.lt_succ_of_lt (hc.born k' hk')

theorem Tidy.drop (hc : Tidy c) (hk : k < c.created) :
    Tidy ((c.loseSocketRequests k uncertain).closeSocket k) :=
  (hc.lose k uncertain).closeSocket (by rw [(keeps_lose c k uncertain).created]; exact hk)

theorem Tidy.dropCandidate (hc : Tidy c) : Tidy c.dropCandidate := by
  rcases eq_none_or_eq_some c.socketHandoff with hnone | ⟨h, hh⟩
  · rw [dropCandidate_of_none hnone]
    exact hc
  · obtain ⟨-, -, -, -, hlt⟩ := hc.handoff h hh
    rw [core_dropCandidate hh]
    refine (hc.drop hlt).dropHandoff ?_ (dropped c h.nextSocket false)
    rw [show ((c.loseSocketRequests _ _).closeSocket _).socketHandoff =
      (c.loseSocketRequests h.nextSocket false).socketHandoff from rfl, handoff_lose]
    exact hh

theorem dropCandidate_none :
    c.dropCandidate.socketHandoff = none ∧ c.dropCandidate.socket = c.socket ∧
      c.dropCandidate.created = c.created := by
  rcases eq_none_or_eq_some c.socketHandoff with hnone | ⟨h, hh⟩
  · rw [dropCandidate_of_none hnone]
    exact ⟨hnone, rfl, rfl⟩
  · have hkeeps := keeps_lose c h.nextSocket false
    rw [core_dropCandidate hh]
    exact ⟨rfl, hkeeps.socket, hkeeps.created⟩

theorem dropCandidate_active (hc : Tidy c) (hk : c.socket = some k) :
    c.dropCandidate.pending k = c.pending k ∧ c.dropCandidate.readyState k = c.readyState k := by
  rcases eq_none_or_eq_some c.socketHandoff with hnone | ⟨h, hh⟩
  · rw [dropCandidate_of_none hnone]
    exact ⟨rfl, rfl⟩
  · obtain ⟨hsocket, hne, -⟩ := hc.handoff h hh
    have hother : k ≠ h.nextSocket := by
      rintro rfl
      exact hne (some.inj (hk.symm.trans hsocket))
    rw [core_dropCandidate hh]
    exact dropped_other hother

theorem Tidy.retire (hc : Tidy c) (hnone : c.socketHandoff = none) (hsettled : Unburdened c)
    (hcore : c'.toConnectionCore = { c.toConnectionCore with socket := none }) :
    Tidy (c'.retire c.socket) ∧ (c'.retire c.socket).socketHandoff = none ∧
      (c'.retire c.socket).socket = none := by
  have hstate : ∀ k, c'.readyState k = c.readyState k := by
    intro k
    rw [hcore]
    rfl
  rcases eq_none_or_eq_some c.socket with hsocket | ⟨k, hsocket⟩
  · rw [hsocket]
    simp only [Connection.retire, hcore]
    exact ⟨hc.dropSocket hnone fun k hk => absurd (hsocket.symm.trans hk) (by simp), hnone, trivial⟩
  · rw [hsocket]
    simp only [Connection.retire]
    split
    · obtain ⟨d, hd⟩ : ∃ d, d = c.clearConnectTimeout k := ⟨_, rfl⟩
      have hcleared : (c'.clearConnectTimeout k).toConnectionCore =
          { d.toConnectionCore with socket := none } := by
        simp only [hd, Connection.clearConnectTimeout, Connection.modify, hcore]
      have hdropped : (((c'.clearConnectTimeout k).loseSocketRequests k true).closeSocket
          k).toConnectionCore =
          { ((d.loseSocketRequests k true).closeSocket k).toConnectionCore with
            socket := none } := by
        simp only [Connection.closeSocket, Connection.modify, core_lose_with_socket hcleared]
      have htidy : Tidy d := hd ▸ hc.clearConnectTimeout k
      have hborn : k < d.created := by
        rw [hd]
        exact hc.born k hsocket
      have hhandoff : ((d.loseSocketRequests k true).closeSocket k).socketHandoff = none := by
        show (d.loseSocketRequests k true).socketHandoff = none
        rw [handoff_lose, hd]
        exact hnone
      rw [hdropped]
      refine ⟨(htidy.drop hborn).dropSocket hhandoff fun k' hk' => ?_, hhandoff, rfl⟩
      have heq : k' = k := by
        have hk : d.socket = some k' := (keeps_lose d k true).socket.symm.trans hk'
        rw [hd] at hk
        exact some.inj (hk.symm.trans hsocket)
      rw [heq]
      exact dropped d k true
    · next hdead =>
      rw [hstate] at hdead
      have hfalse := Bool.eq_false_of_not_eq_true hdead
      rw [hcore]
      refine ⟨hc.dropSocket hnone fun k' hk' => ?_, hnone, rfl⟩
      obtain rfl := some.inj (hsocket.symm.trans hk')
      exact ⟨hsettled k hsocket hfalse, hfalse⟩

theorem Tidy.recoverAfterResume (hc : Tidy c) (hsettled : Unburdened c) :
    Tidy (c.recoverAfterResume cfg) := by
  obtain ⟨hnone, hsocket, -⟩ := dropCandidate_none
  have hsettled' : Unburdened c.dropCandidate := by
    intro k hk hdead
    rw [hsocket] at hk
    obtain ⟨hpending, hstate⟩ := dropCandidate_active hc hk
    rw [hstate] at hdead
    exact hpending.trans (hsettled k hk hdead)
  simp only [Connection.recoverAfterResume]
  rw [← hsocket]
  obtain ⟨d, hd⟩ : ∃ d : Connection, d = { c.dropCandidate.clearTimers with
      reconnectTimer := false
      socket := none
      subscribedChannelId := none } := ⟨_, rfl⟩
  have hcore : d.toConnectionCore =
      { c.dropCandidate.toConnectionCore with socket := none } := by
    rw [hd]
    rfl
  rw [← hd]
  obtain ⟨htidy, hnone', hsocket'⟩ := hc.dropCandidate.retire hnone hsettled' hcore
  refine htidy.connectFresh hnone' fun k hk => ?_
  rw [hsocket'] at hk
  cases hk

/-! ### The handoff -/

theorem Tidy.writes {c : ConnectionCore} (hc : Tidy c) {entries : List ConnectionEntry}
    (hneutral : ∀ x ∈ entries, x.isNeutral = true) : Tidy { c with log := c.log ++ entries } := by
  induction entries generalizing c with
  | nil =>
    rw [append_nil]
    exact hc
  | cons x rest ih =>
    obtain ⟨hx, hrest⟩ := forall_mem_cons.1 hneutral
    have htidy := ih (hc.write hx) hrest
    simp only [append_assoc, singleton_append] at htidy
    exact htidy

theorem Tidy.tryCommit (hc : Tidy c) : Tidy (c.tryCommitHandoff cfg) := by
  rcases tryCommit_cases cfg c with heq | ⟨h, hh, hcan⟩
  · rw [heq]
    exact hc
  · obtain ⟨entries, hentries, hcore⟩ := core_tryCommit cfg hh hcan
    obtain ⟨hsocket, -, -, hstate, -⟩ := hc.handoff h hh
    have hborn := hc.born _ hsocket
    have hempty : c.pending h.previousSocket = [] := by
      simp only [canCommit, Bool.and_eq_true, List.isEmpty_iff] at hcan
      exact hcan.1.1.2
    rw [hcore]
    obtain ⟨d, hd⟩ : ∃ d, d = if c.readyState h.previousSocket = .opened then
      c.closeSocket h.previousSocket else c := ⟨_, rfl⟩
    have hdrop : Tidy d ∧ d.socketHandoff = some h ∧ d.log = c.log ∧ Gone d h.previousSocket := by
      rw [hd]
      split
      · refine ⟨hc.closeSocket hborn, hh, rfl, pending_closeSocket.trans hempty, ?_⟩
        rw [readyState_closeSocket, if_pos rfl, isLive_close]
      · next hopen => exact ⟨hc, hh, rfl, hempty, ReadyState.not_isLive hstate hopen⟩
    obtain ⟨htidy, hhandoff, hlog, hgone⟩ := hdrop
    have hneutral : ∀ x ∈ committed (c.commitOf h) :: entries,
        x.isNeutral = true := by
      intro x hx
      rcases mem_cons.1 hx with rfl | hx
      · rfl
      · obtain ⟨k, a, p, e, rfl, -⟩ := hentries x hx
        rfl
    have hfinal := (htidy.switch hhandoff hgone).writes hneutral
    rw [show ({ d.toConnectionCore with socket := some h.nextSocket, socketHandoff := none } :
      ConnectionCore).log = c.log from hlog] at hfinal
    rw [← hd]
    exact hfinal

theorem Tidy.handoffData {c : ConnectionCore} (hc : Tidy c) (hh : c.socketHandoff = some h)
    {h' : SocketHandoff} (hprevious : h'.previousSocket = h.previousSocket)
    (hnext : h'.nextSocket = h.nextSocket) : Tidy { c with socketHandoff := some h' } := by
  refine hc.quiet ⟨rfl, rfl, ?_, fun _ => .refl _, fun _ _ hnone => hnone⟩ (fun _ => rfl) rfl
  rw [hh]
  exact congrArg some (Prod.ext hprevious hnext)

section

variable (hc : Tidy c)

include hc

theorem Tidy.updateDesired (command : ConnectionCommand) :
    Tidy (c.updateDesiredSubscription command) := by
  rw [updateDesiredSubscription]
  split
  · exact hc
  · refine hc.quiet ⟨rfl, rfl, ?_, fun _ => .refl _, fun _ _ hnone => hnone⟩ (fun _ => rfl) rfl
    rw [Option.map_map]
    rfl

theorem Tidy.remember {id : Option String} :
    Tidy (c.rememberCandidateSubscription k command id) := by
  unfold rememberCandidateSubscription
  split
  · next h channel id hh =>
    split
    · exact hc.handoffData hh rfl rfl
    · exact hc
  · exact hc

theorem Tidy.sendWithSubscription (socket : Option SocketId)
    (id : String) (command : ConnectionCommand) (sent : Bool) :
    Tidy (c.sendWithSubscription socket id command sent) := by
  have hsent := (hc.updateDesired command).sendViaRequest
    ((c.updateDesiredSubscription command).route socket command) id command sent
  simp only [Connection.sendWithSubscription]
  split
  · exact hsent.remember
  · exact hsent

theorem Tidy.reconcile : Tidy (c.reconcileDesiredSubscription k id sent) := by
  rw [reconcileDesiredSubscription]
  split
  · exact hc.sendViaRequest _ _ _ _
  · exact hc

/-! ### Messages -/

theorem Tidy.pass (k : SocketId) (candidate : Bool)
    (active : Option SocketId) (participant : Option String) (e : WireEvent) :
    Tidy (c.pass k candidate active participant e) :=
  hc.write rfl

variable {name : String}

theorem Tidy.participant (hk : k < c.created) (name : String) :
    Tidy (c.modify k fun s => { s with participant := some name }) :=
  hc.modify ⟨rfl, Nat.le_refl _⟩ (fun _ => rfl) (.inl hk)

theorem Tidy.activeEvent (hk : k < c.created) {fresh : String} :
    Tidy (c.activeEvent cfg k e fresh sent) := by
  simp only [Connection.activeEvent]
  split
  · exact (hc.participant hk _).tryCommit.pass _ _ _ _ _
  · next channel _ =>
    split
    · have hrecorded : Tidy { c with subscribedChannelId := some channel }.toConnectionCore := hc
      exact hrecorded.tryCommit.pass _ _ _ _ _
    · exact hc.sendViaRequest _ _ _ _
  · exact hc.tryCommit.pass _ _ _ _ _

theorem Tidy.candidateHello (hh : c.socketHandoff = some h) (e : WireEvent)
    (hsettled : ¬(c.participant h.previousSocket = some name ∧
      name ≠ "") → Unburdened c) : Tidy (c.candidateHello cfg h name e) := by
  obtain ⟨-, -, -, -, hborn⟩ := hc.handoff h hh
  have hnamed := hc.participant hborn name
  simp only [Connection.candidateHello]
  split
  · split
    · have hready : Tidy { c.modify h.nextSocket fun s => { s with participant := some name } with
          socketHandoff := some { h with ready := true } }.toConnectionCore :=
        hnamed.handoffData hh rfl rfl
      split
      · exact hready.tryCommit
      · exact hready.tryCommit.pass _ _ _ _ _
    · exact hnamed.tryCommit.pass _ _ _ _ _
  · next hother => exact hc.recoverAfterResume (hsettled hother)

theorem Tidy.candidateStarted (hh : c.socketHandoff = some h)
    {channel : ChannelId} {fresh : String} :
    Tidy (c.candidateStarted cfg h channel e fresh sent) := by
  rw [Connection.candidateStarted]
  split
  · have hready : Tidy { c with socketHandoff := some { h with
        ready := true
        readySubscriptionEvent := some (e.requestId, channel) } }.toConnectionCore :=
      hc.handoffData hh rfl rfl
    exact hready.tryCommit
  · exact hc.sendViaRequest _ _ _ _

end

def Refused (c : ConnectionCore) (k : SocketId) (e : WireEvent) : Prop :=
  ∃ h name, c.socketHandoff = some h ∧ h.nextSocket = k ∧ e.body = .hello name ∧
    ¬(c.participant h.previousSocket = some name ∧ name ≠ "")

variable {fresh : String}

theorem Tidy.message (hc : Tidy c) (hsettled : Refused c k e → Unburdened c) :
    Tidy (c.message cfg k e fresh sent) := by
  have hsettled' : Unburdened c → Unburdened (c.receive k e) := by
    intro hsettled k' hk' hdead
    rw [readyState_receive] at hdead
    have hempty := hsettled k' hk' hdead
    rw [pending_receive, hempty]
    split <;> rfl
  simp only [Connection.message]
  split
  · exact hc
  · next hheld =>
    have hreceived := hc.receive k e
    have hborn : k < c.created := by
      by_cases hk : c.socket = some k
      · exact hc.born k hk
      · obtain ⟨h, hh, rfl⟩ := map_eq_some_iff.1 (not_not.1 fun hne => hheld ⟨hk, hne⟩)
        exact (hc.handoff h hh).2.2.2.2
    split
    · next h hh =>
      split
      · next hnext =>
        simp only [Connection.candidateEvent]
        split
        · next name hbody =>
          refine hreceived.candidateHello hh e fun hother => hsettled' (hsettled ?_)
          refine ⟨h, name, hh, hnext, hbody, ?_⟩
          rwa [participant_receive] at hother
        · exact hreceived.candidateStarted hh
        · exact hreceived
        · exact hreceived.tryCommit.pass _ _ _ _ _
      · exact hreceived.activeEvent hborn
    · exact hreceived.activeEvent hborn

/-! ### Close events -/

variable {code : Nat}

theorem Tidy.lostActive (hc : Tidy c) (k : SocketId) (code : Nat) :
    Tidy (c.lostActive cfg k code) := by
  rcases core_lostActive cfg c k code with ⟨heq, -⟩ | heq
  · rw [heq]
    exact hc
  · rw [heq]
    exact hc.lose k true

theorem gone_lose (hdead : (c.readyState k).isLive = false) :
    Gone (c.loseSocketRequests k uncertain) k :=
  ⟨by rw [pending_lose, if_pos rfl], by rw [readyState_lose]; exact hdead⟩

theorem Tidy.lostPrevious (hc : Tidy c) (hh : c.socketHandoff = some h)
    (code : Nat) : Tidy (c.lostPrevious cfg h code) := by
  have hlost := hc.lose h.previousSocket true
  simp only [Connection.lostPrevious]
  split
  · exact hlost.tryCommit
  · next hdead =>
    rw [lose_with_handoff]
    refine Tidy.lostActive ?_ h.previousSocket code
    exact (hlost.lose h.nextSocket false).dropHandoff ((handoff_lose.trans handoff_lose).trans hh)
      (gone_lose (Bool.eq_false_of_not_eq_true hdead))

theorem Tidy.promote (hc : Tidy c) (hh : c.socketHandoff = some h)
    (hopen : c.readyState h.previousSocket ≠ .opened) :
    Tidy { (c.loseSocketRequests h.previousSocket true).toConnectionCore with
      socket := some h.nextSocket
      socketHandoff := none } := by
  obtain ⟨-, -, -, hstate, -⟩ := hc.handoff h hh
  exact (hc.lose h.previousSocket true).switch (handoff_lose.trans hh)
    (gone_lose (ReadyState.not_isLive hstate hopen))

theorem Tidy.lostCandidate (hc : Tidy c) (hh : c.socketHandoff = some h)
    (hclosed : c.readyState h.nextSocket = .closed) :
    Tidy (c.lostCandidate cfg h code fresh sent) := by
  obtain ⟨hsocket, -⟩ := hc.handoff h hh
  simp only [Connection.lostCandidate]
  split
  · have hdropped : Tidy ({ c with socketHandoff := none }.loseSocketRequests h.nextSocket
        false) := by
      rw [lose_with_handoff]
      exact (hc.lose h.nextSocket false).dropHandoff (handoff_lose.trans hh)
        (gone_lose (by rw [hclosed]; rfl))
    split
    · rw [core_scheduleProbe]
      exact hdropped.reconcile
    · exact hdropped.reconcile
  · next hopen =>
    rw [lose_with_handoff]
    refine Tidy.lostActive ?_ h.nextSocket code
    rw [if_pos ((keeps_lose c h.previousSocket true).socket.trans hsocket)]
    exact hc.promote hh hopen

structure Spent (c : ConnectionCore) (k : SocketId) : Prop where
  state : c.readyState k = .closed
  pending : c.pending k = []

theorem Tidy.writeClosed (hc : Tidy c) (hk : Spent c k) : Tidy (c.write (.closed k)) where
  held := hc.held
  live := hc.live
  closed k' hk' := by
    rcases mem_append.1 hk' with hk' | hk'
    · exact hc.closed k' hk'
    · cases mem_singleton.1 hk'
      exact ⟨hk.state, hk.pending⟩
  handoff := hc.handoff
  unborn := hc.unborn
  born := hc.born
  books k' id := (hc.books k' id).trans (by rw [Connection.write, owed_concat]; rfl)
  distinct := hc.distinct
  reported before after k' ids u hsplit := by
    rcases concat_eq_append_cons hsplit with ⟨rest, -, hold⟩ | ⟨-, -, heq⟩
    · exact hc.reported before rest k' ids u hold
    · cases heq

theorem Spent.lose (hk : Spent c k) (k' : SocketId) (uncertain : Bool) :
    Spent (c.loseSocketRequests k' uncertain) k := by
  refine ⟨readyState_lose.trans hk.state, ?_⟩
  rw [pending_lose, hk.pending, ite_self]

theorem Spent.tryCommit (hk : Spent c k) : Spent (c.tryCommitHandoff cfg) k := by
  rcases tryCommit_cases cfg c with heq | ⟨h, hh, hcan⟩
  · rw [heq]
    exact hk
  · obtain ⟨entries, -, hcore⟩ := core_tryCommit cfg hh hcan
    rw [hcore]
    split
    · refine ⟨?_, pending_closeSocket.trans hk.pending⟩
      show (c.closeSocket h.previousSocket).readyState k = .closed
      rw [readyState_closeSocket, hk.state]
      split <;> rfl
    · exact ⟨hk.state, hk.pending⟩

theorem Spent.lostActive (hk : Spent c k) (k' : SocketId) (code : Nat) :
    Spent (c.lostActive cfg k' code) k := by
  rcases core_lostActive cfg c k' code with ⟨heq, -⟩ | heq
  · rw [heq]
    exact hk
  · rw [heq]
    exact hk.lose k' true

theorem Spent.sendViaRequest (hk : Spent c k) (target : Option SocketId)
    (id : String) (command : ConnectionCommand) (sent : Bool) :
    Spent (c.sendViaRequest target id command sent).1.toConnectionCore k := by
  rcases sendViaRequest_cases c target id command sent with heq | ⟨k', -, hopen, heq⟩
  · rw [heq]
    exact hk
  · have hne : k ≠ k' := by
      rintro rfl
      cases hk.state.symm.trans hopen
    rw [heq]
    constructor
    · rw [ConnectionCore.readyState, info_write, info_modify, if_neg hne]
      exact hk.state
    · rw [ConnectionCore.pending, info_write, info_modify, if_neg hne]
      exact hk.pending

theorem Spent.reconcile (hk : Spent c k) : Spent (c.reconcileDesiredSubscription k' id sent) k := by
  rw [reconcileDesiredSubscription]
  split
  · exact hk.sendViaRequest _ _ _ _
  · exact hk

theorem spent_lostActive (hc : Tidy c) (hstate : c.readyState k = .closed)
    (hcandidate : c.candidate ≠ some k) : Spent (c.lostActive cfg k code) k := by
  rcases core_lostActive cfg c k code with ⟨heq, hother⟩ | heq
  · rw [heq]
    refine ⟨hstate, ?_⟩
    by_contra hne
    have hsocket := (hc.held k hne).resolve_right hcandidate
    rcases hother with hother | ⟨p, -, hp, hopen⟩
    · exact hother hsocket
    · obtain rfl := some.inj (hsocket.symm.trans hp)
      cases hstate.symm.trans hopen
  · rw [heq]
    exact ⟨readyState_lose.trans hstate, by rw [pending_lose, if_pos rfl]⟩

theorem spent_lostPrevious (hstate : c.readyState h.previousSocket = .closed) :
    Spent (c.lostPrevious cfg h code) h.previousSocket := by
  have hlost : Spent (c.loseSocketRequests h.previousSocket true)
      h.previousSocket :=
    ⟨readyState_lose.trans hstate, by rw [pending_lose, if_pos rfl]⟩
  simp only [lostPrevious]
  split
  · exact hlost.tryCommit
  · rw [lose_with_handoff]
    have hnext := hlost.lose h.nextSocket false
    refine Spent.lostActive ?_ _ _
    exact ⟨hnext.state, hnext.pending⟩

section

variable (hc : Tidy c)

include hc

theorem spent_lostCandidate (hh : c.socketHandoff = some h)
    (hstate : c.readyState h.nextSocket = .closed) :
    Spent (c.lostCandidate cfg h code fresh sent) h.nextSocket := by
  obtain ⟨hsocket, -⟩ := hc.handoff h hh
  simp only [lostCandidate]
  split
  · have hlost : Spent ({ c with socketHandoff := none }.loseSocketRequests h.nextSocket
        false) h.nextSocket :=
      ⟨readyState_lose.trans hstate, by rw [pending_lose, if_pos rfl]⟩
    split
    · rw [core_scheduleProbe]
      exact hlost.reconcile
    · exact hlost.reconcile
  · next hopen =>
    rw [lose_with_handoff, if_pos ((keeps_lose c h.previousSocket true).socket.trans hsocket)]
    refine spent_lostActive (hc.promote hh hopen) ?_ (by simp [candidate])
    exact readyState_lose.trans hstate

theorem Tidy.closedEvent : Tidy (c.closed cfg k code fresh sent) := by
  simp only [Connection.closed]
  split
  · exact hc
  · next hstate =>
    rw [not_not] at hstate
    have htidy := hc.clearConnectTimeout k
    have hstate' : (c.clearConnectTimeout k).readyState k = .closed := by
      rw [Connection.clearConnectTimeout, ConnectionCore.readyState, info_modify, if_pos rfl]
      exact hstate
    obtain ⟨d, hd⟩ : ∃ d, d = c.clearConnectTimeout k := ⟨_, rfl⟩
    rw [← hd] at htidy hstate' ⊢
    split
    · next h hh =>
      split
      · next hprevious =>
        subst hprevious
        exact (htidy.lostPrevious hh code).writeClosed (spent_lostPrevious hstate')
      · split
        · next hnext =>
          subst hnext
          exact (htidy.lostCandidate hh hstate').writeClosed (spent_lostCandidate htidy hh hstate')
        · next hnext =>
          have hcandidate : d.candidate ≠ some k := by
            rw [ConnectionCore.candidate, hh]
            exact fun heq => hnext (some.inj heq)
          exact (htidy.lostActive k code).writeClosed (spent_lostActive htidy hstate' hcandidate)
    · next hnone =>
      have hcandidate : d.candidate ≠ some k := by
        rw [ConnectionCore.candidate, hnone]
        intro heq
        cases heq
      exact (htidy.lostActive k code).writeClosed (spent_lostActive htidy hstate' hcandidate)

/-! ### Timers and the rest -/

theorem Tidy.openedEvent (hk : k < c.created) : Tidy (c.opened cfg k) := by
  have hcleared := hc.clearConnectTimeout k
  simp only [opened]
  split
  · split
    · exact hcleared.closeSocket hk
    · exact hcleared
  · split
    · exact hcleared
    · rw [core_activateSocket]
      exact hcleared

theorem Tidy.moves {state : ReadyState} : Tidy (c.moves k state) := by
  rw [Connection.moves]
  split
  · next hmoves =>
    exact hc.modify ⟨rfl, Nat.le_of_lt hmoves.2⟩ (fun _ => rfl) (.inl hmoves.1)
  · exact hc

theorem Tidy.abandon (hnone : c.socketHandoff = none) (hsocket : c.socket = some k) :
    Tidy { ((c.loseSocketRequests k true).closeSocket k).toConnectionCore with
      socket := none } := by
  refine (hc.drop (hc.born k hsocket)).dropSocket (handoff_lose.trans hnone) fun k' hk' => ?_
  have heq : c.socket = some k' := (keeps_lose c k true).socket.symm.trans hk'
  obtain rfl := some.inj (hsocket.symm.trans heq)
  exact dropped c k true

theorem Tidy.connectTimeout : Tidy (c.connectTimeout cfg k) := by
  simp only [Connection.connectTimeout]
  split
  · exact hc
  · next hfires =>
    rw [not_or, not_or, not_not, not_not] at hfires
    obtain ⟨-, hsocket, hstate⟩ := hfires
    have hnone : c.socketHandoff = none := by
      by_contra hsome
      obtain ⟨h, hh⟩ := ne_none_iff_exists'.1 hsome
      obtain ⟨hprevious, -, -, hne, -⟩ := hc.handoff h hh
      obtain rfl := some.inj (hsocket.symm.trans hprevious)
      exact hne hstate
    have habandoned := (hc.clearConnectTimeout k).abandon hnone hsocket
    split
    · exact habandoned
    · have hcore : (((c.clearConnectTimeout k).recordWebsocketFailure cfg).loseSocketRequests k
          true).toConnectionCore = ((c.clearConnectTimeout k).loseSocketRequests k
            true).toConnectionCore := core_lose_congr rfl
      simp only [Connection.closeSocket, Connection.modify, Connection.scheduleReconnect, hcore]
      exact habandoned

theorem Tidy.liveness {stale : Bool}
    (hnone : c.socketHandoff = none) : Tidy (c.liveness cfg k stale) := by
  simp only [Connection.liveness]
  split
  · exact hc
  · next hfires =>
    rw [not_or, not_or, not_not, not_not] at hfires
    have habandoned := hc.abandon hnone hfires.2.1
    split
    · exact habandoned
    · have hcore : ((c.recordWebsocketFailure cfg).loseSocketRequests k true).toConnectionCore =
          (c.loseSocketRequests k true).toConnectionCore := core_lose_congr rfl
      simp only [Connection.closeSocket, Connection.modify, Connection.scheduleReconnect,
        Connection.clearTimers, hcore]
      exact habandoned

theorem Tidy.handoffTimeout : Tidy (c.handoffTimeout cfg k fresh sent) := by
  simp only [Connection.handoffTimeout]
  split
  · exact hc
  · next h hh =>
    split
    · exact hc
    · obtain ⟨hsocket, -, -, hstate, -⟩ := hc.handoff h hh
      obtain ⟨hnone, hsocket', -⟩ := dropCandidate_none
      obtain ⟨-, hstate'⟩ := dropCandidate_active hc hsocket
      have hdropped := hc.dropCandidate
      split
      · split
        · rw [core_scheduleProbe]
          exact hdropped.reconcile
        · exact hdropped.reconcile
      · next hopen =>
        obtain ⟨d, hd⟩ : ∃ d, d = c.dropCandidate.loseSocketRequests h.previousSocket true :=
          ⟨_, rfl⟩
        have htidy : Tidy d := hd ▸ hdropped.lose _ _
        have hdsocket : d.socket = some h.previousSocket := by
          rw [hd]
          exact ((keeps_lose _ _ _).socket.trans hsocket').trans hsocket
        have hdnone : d.socketHandoff = none := by
          rw [hd]
          exact handoff_lose.trans hnone
        rw [← hd, if_pos hdsocket]
        refine Tidy.connectFresh (htidy.dropSocket hdnone fun k' hk' => ?_) hdnone
          fun k' hk' => by cases hk'
        obtain rfl := some.inj (hdsocket.symm.trans hk')
        rw [hd]
        rw [← hstate'] at hstate
        exact gone_lose (ReadyState.not_isLive hstate hopen)

end

/-! ### Steps and runs -/

/-- The condition on a step. During a handoff a connect finds a live active socket that it leaves
as it is, and the active socket does not fall silent. A socket that is closing is given up for a
new one only when there is no request left on it. -/
def Patient (c : Connection) : ConnectionInput → Prop
  | .connect replaceCurrent => c.socketHandoff = none ∧ Unburdened c ∨
      ∃ k, c.socket = some k ∧ (c.readyState k).isLive = true ∧
        (replaceCurrent = true → c.readyState k ≠ .opened)
  | .replaceAfterSessionRefresh => Unburdened c
  | .recoverAfterResume => Unburdened c
  | .message k e _ _ => Refused c k e → Unburdened c
  | .liveness _ stale => stale = true → c.socketHandoff = none
  | _ => True

theorem Tidy.probeWebsocket (hc : Tidy c) {recent : Bool} : Tidy (c.probeWebsocket cfg recent) := by
  rw [Connection.probeWebsocket]
  split
  · exact hc
  split
  · next k hk =>
    split
    · exact hc
    · next hfree =>
      rw [not_or, not_not, not_isSome_iff_eq_none] at hfree
      exact Tidy.connectHandoff (c := { c with probeTimer := none }) hc hfree.2 hk hfree.1
  · exact hc

theorem Tidy.probe (hc : Tidy c) {visible recent : Bool} : Tidy (c.probe cfg visible recent) := by
  have hcleared : Tidy ({ c with probeTimer := none } : Connection) := hc
  simp only [Connection.probe]
  split
  · exact hc
  · exact hcleared.probeWebsocket
  · split
    · next k hk =>
      split
      · rw [core_scheduleProbe]
        exact hc
      · next hfree =>
        rw [not_or, not_or, not_or, not_not, not_isSome_iff_eq_none] at hfree
        exact hcleared.connectHandoff hfree.2.1 hk hfree.2.2.2
    · rw [core_scheduleProbe]
      exact hc

theorem Tidy.connectsAgain (hc : Tidy c) (hk : c.socket = some k)
    (hlive : (c.readyState k).isLive = true) {replaceCurrent : Bool}
    (hstays : replaceCurrent = true → c.readyState k ≠ .opened) :
    Tidy (c.connect cfg replaceCurrent) := by
  have hfound : (c.socket.map c.readyState).any (·.isLive) = true := by rw [hk]; exact hlive
  simp only [connect, hk]
  rw [if_neg fun h => hstays h.1 h.2, Connection.connectFresh, if_pos hfound]
  exact hc

theorem Tidy.connects (hc : Tidy c) (hnone : c.socketHandoff = none)
    (hsettled : Unburdened c) {replaceCurrent : Bool} : Tidy (c.connect cfg replaceCurrent) := by
  rw [connect]
  split
  · next k hk =>
    split
    · next hopen => exact hc.connectHandoff hnone hk hopen.2
    · exact hc.connectFresh hnone hsettled
  · exact hc.connectFresh hnone hsettled

theorem Tidy.replaces (hc : Tidy c) (hsettled : Unburdened c) :
    Tidy (c.replaceAfterSessionRefresh cfg) := by
  rw [replaceAfterSessionRefresh]
  split
  · exact hc
  · next hsome =>
    rw [not_isSome_iff_eq_none] at hsome
    split
    · exact hc.connectFresh hsome hsettled
    · next k hk =>
      split
      · exact hc.connectFresh hsome hsettled
      · exact hc.connectFresh hsome hsettled
      · next hopen => exact hc.connectHandoff hsome hk hopen
      · exact hc

theorem Tidy.channels {c : ConnectionCore} (hc : Tidy c) {channel : Option ChannelId} {n : Nat} :
    Tidy { c with desiredChannelId := channel, subscriptionGeneration := n } :=
  hc.quiet ⟨rfl, rfl, rfl, fun _ => .refl _, fun _ _ hnone => hnone⟩ (fun _ => rfl) rfl

theorem Tidy.step {i : ConnectionInput} (hc : Tidy c) (hi : Patient c i) : Tidy (c.step cfg i) := by
  cases i with
  | connect replaceCurrent =>
    rcases hi with ⟨hnone, hsettled⟩ | ⟨k, hk, hlive, hstays⟩
    · exact hc.connects hnone hsettled
    · exact hc.connectsAgain hk hlive hstays
  | replaceAfterSessionRefresh => exact hc.replaces hi
  | recoverAfterResume => exact hc.recoverAfterResume hi
  | probeWebsocket recent => exact hc.probeWebsocket
  | send | sendOn => exact hc.sendWithSubscription _ _ _ _
  | resend id command sent => exact hc.sendViaRequest _ _ _ _
  | resendIfSubscribed id channel command sent =>
    simp only [Connection.step, Connection.resendIfSubscribed]
    split
    · exact hc
    · exact hc.sendViaRequest _ _ _ _
  | setSubscribedChannel channel =>
    simp only [Connection.step, Connection.setSubscribedChannel]
    split
    · exact hc
    · exact hc.channels
  | clearSubscribedChannel expected =>
    simp only [Connection.step, Connection.clearSubscribedChannel]
    split
    · exact hc
    · split
      · exact hc.channels
      · exact hc
  | takeSubscribedChannel => exact hc
  | moves k state => exact hc.moves
  | opened k =>
    simp only [Connection.step]
    split
    · next hk => exact hc.openedEvent hk
    · exact hc
  | message k e fresh sent => exact hc.message hi
  | closed k code fresh sent => exact hc.closedEvent
  | connectTimeout k => exact hc.connectTimeout
  | handoffTimeout k fresh sent => exact hc.handoffTimeout
  | liveness k stale =>
    cases stale with
    | true => exact hc.liveness (hi rfl)
    | false =>
      rw [Connection.step, Connection.liveness, if_pos (.inr (.inr (.inr rfl)))]
      exact hc
  | stable k =>
    simp only [Connection.step, Connection.stable]
    split <;> exact hc
  | reconnect => exact hc
  | probe visible recent => exact hc.probe

theorem tidy_start : Tidy (start cfg) where
  held k hk := absurd rfl hk
  live k hk := absurd hk (Nat.not_lt_zero k)
  closed k hk := by cases hk
  handoff h hh := by cases hh
  unborn k _ := rfl
  born k hk := by cases hk
  books k id := by
    constructor <;> exact nofun
  distinct k := nodup_nil
  reported before after k ids u hlog := by
    cases before <;> cases hlog

/-- In a run of such steps the books are kept. -/
theorem tidy_run {inputs : List ConnectionInput}
    (hrun : Run (Guarded Patient (ConnectionStep cfg)) (.start cfg) inputs c) : Tidy c := by
  refine hrun.invariant (P := fun c : Connection => Tidy c) (fun c i c' hc hstep => ?_) (tidy_start)
  obtain ⟨hi, rfl⟩ := hstep
  exact hc.step hi

/-- Nothing is owed on a socket that has closed or been replaced. -/
theorem Tidy.nothing_owed {c : ConnectionCore} (hc : Tidy c)
    (hk : .closed k ∈ c.log ∨ ¬Held c k) : owed k id c.log = false := by
  have hempty : c.pending k = [] := by
    rcases hk with hclosed | hheld
    · exact (hc.closed k hclosed).2
    · by_contra hne
      exact hheld (hc.held k hne)
  rw [Bool.eq_false_iff]
  intro howed
  have hmem := (hc.books k id).2 howed
  rw [hempty] at hmem
  cases hmem

end

/-- In every run of patient steps, a request that a socket has accepted is answered or reported
once the socket has closed or is neither the active one nor the candidate. A report names no
request twice, names only requests that were accepted, and names a request again only if it was
accepted again. -/
theorem requests_accounted (cfg : ConnectionConfig) {inputs : List ConnectionInput} {c : Connection}
    (hrun : Run (Guarded Patient (ConnectionStep cfg)) (.start cfg) inputs c) :
    (∀ k, (.closed k ∈ c.log ∨ ¬Held c k) →
      ∀ before id command generation after,
        c.log = before ++ .accepted k id command generation :: after →
          RequestAnswered k id after ∨ RequestReported k id after) ∧
    (∀ before k ids uncertain after, c.log = before ++ .lost k ids uncertain :: after →
      ids.Nodup ∧ ∀ id ∈ ids, RequestAccepted k id before) ∧
    ∀ before k ids uncertain between ids' uncertain' after,
      c.log = before ++ .lost k ids uncertain :: between ++ .lost k ids' uncertain' :: after →
        ∀ id ∈ ids, id ∈ ids' → RequestAccepted k id between := by
  have hc := tidy_run hrun
  refine ⟨fun k hk before id command generation after hlog => ?_,
    fun before k ids uncertain after hlog => ?_,
    fun before k ids uncertain between ids' uncertain' after hlog id hid hid' => ?_⟩
  · have howed : owed k id (before ++ [.accepted k id command generation]) = true := by
      rw [owed_concat, owes, if_pos ⟨rfl, rfl⟩]
    refine settled_of_owed howed ?_
    rw [append_assoc, singleton_append, ← hlog]
    exact hc.nothing_owed hk
  · obtain ⟨hdistinct, howed⟩ := hc.reported before after k ids uncertain hlog
    refine ⟨hdistinct, fun id hid => ?_⟩
    have hnothing : owed k id [] = false := rfl
    exact accepted_of_owed hnothing (howed id hid)
  · have howed := (hc.reported _ _ _ _ _ hlog).2 id hid'
    rw [← singleton_append, ← append_assoc] at howed
    exact accepted_of_owed (by rw [owed_concat, owes, if_pos ⟨rfl, hid⟩]) howed

/-- The socket closes with a request on it, which is reported. -/
theorem requests_accounted_closed :
    ∃ (c : Connection) (inputs : List ConnectionInput),
      Run (Guarded Patient (ConnectionStep ⟨true, false⟩)) (.start ⟨true, false⟩) inputs c ∧
        c.log = [] ++ .accepted 0 "r1" .other 0 :: [.lost 0 ["r1"] true, .closed 0] ∧
          (RequestAnswered 0 "r1" [.lost 0 ["r1"] true, .closed 0] ∨
            RequestReported 0 "r1" [.lost 0 ["r1"] true, .closed 0]) := by
  have hrun : Run (Guarded Patient (ConnectionStep ⟨true, false⟩)) (.start ⟨true, false⟩)
      [.connect false, .moves 0 .opened, .opened 0, .send "r1" .other true, .moves 0 .closed,
        .closed 0 1006 "u1" true] _ :=
    .cons ⟨.inl ⟨rfl, nofun⟩, rfl⟩ (.cons ⟨trivial, rfl⟩ (.cons ⟨trivial, rfl⟩ (.cons ⟨trivial, rfl⟩
      (.cons ⟨trivial, rfl⟩ (.cons ⟨trivial, rfl⟩ .refl)))))
  refine ⟨_, _, hrun, by decide +kernel, ?_⟩
  exact (requests_accounted _ hrun).1 0 (.inl (by decide +kernel)) [] "r1" .other 0 _
    (by decide +kernel)

def liveSockets (c : ConnectionCore) : List SocketId :=
  (range c.created).filter fun k => (c.readyState k).isLive

/-- No socket leaks: in every run of patient steps, the live sockets are among the active one and
the candidate. -/
theorem at_most_two_live_sockets (cfg : ConnectionConfig) {inputs : List ConnectionInput}
    {c : Connection} (hrun : Run (Guarded Patient (ConnectionStep cfg)) (.start cfg) inputs c) :
    (∀ k ∈ liveSockets c, Held c k) ∧ (liveSockets c).length ≤ 2 := by
  have hheld : ∀ k ∈ liveSockets c, Held c k := by
    intro k hk
    obtain ⟨hk, hlive⟩ := mem_filter.1 hk
    exact (tidy_run hrun).live k (mem_range.1 hk) hlive
  have hsubset : liveSockets c ⊆ c.socket.toList ++ c.candidate.toList := fun k hk => by
    simpa [Held] using hheld k hk
  have hle := (subperm_of_subset (nodup_range.filter _) hsubset).length_le
  rw [length_append] at hle
  exact ⟨hheld, hle.trans (Nat.add_le_add Option.length_toList_le Option.length_toList_le)⟩

/-- During a handoff both sockets are live. -/
theorem at_most_two_live_sockets_replacing :
    ∃ c : Connection, liveSockets c = [0, 1] ∧ c.socket = some 0 ∧ c.candidate = some 1 ∧
      (∀ k ∈ liveSockets c, Held c k) ∧ (liveSockets c).length ≤ 2 := by
  have hrun : Run (Guarded Patient (ConnectionStep ⟨true, false⟩)) (.start ⟨true, false⟩)
      [.connect false, .moves 0 .opened, .opened 0, .connect true] _ :=
    .cons ⟨.inl ⟨rfl, nofun⟩, rfl⟩ (.cons ⟨trivial, rfl⟩ (.cons ⟨trivial, rfl⟩
      (.single ⟨.inl ⟨rfl, fun k hk hdead => by cases hk; cases hdead⟩, rfl⟩)))
  exact ⟨_, by decide +kernel, rfl, rfl, at_most_two_live_sockets _ hrun⟩

/-- A socket that is closing with a request on it is replaced, and its close event comes after
that: the request is neither answered nor reported. -/
theorem replaced_while_closing :
    ∃ (c : Connection) (inputs : List ConnectionInput),
      Run (ConnectionStep ⟨true, false⟩) (.start ⟨true, false⟩) inputs c ∧ .closed 0 ∈ c.log ∧
        ¬Held c 0 ∧ c.log = [] ++ .accepted 0 "r1" .other 0 :: [.closed 0] ∧
          ¬(RequestAnswered 0 "r1" [.closed 0] ∨ RequestReported 0 "r1" [.closed 0]) := by
  refine ⟨_, [.connect false, .moves 0 .opened, .opened 0, .send "r1" .other true,
    .moves 0 .closing, .connect false, .moves 0 .closed, .closed 0 1006 "u1" true],
    run_inputs _ _, by decide +kernel, ?_, by decide +kernel, ?_⟩
  · rintro (hsocket | hcandidate)
    · exact absurd hsocket (by decide +kernel)
    · exact absurd hcandidate (by decide +kernel)
  · rintro (⟨e, he, -⟩ | ⟨ids, uncertain, hids, -⟩)
    · cases mem_singleton.1 he
    · cases mem_singleton.1 hids

end Sproyt
