import Mathlib.Order.Bounds.Basic
import Sproyt.Lib.Run
import Sproyt.Lib.Upsert

/-!
# Which messages are reported as read

The furthest visible message is reported as read, together with the deleted ones right after it.
`createVisibleReadPolicy` remembers what the server has confirmed and what is on its way, and
reports only what is beyond both.
-/

namespace Sproyt

open List

structure LoadedMessage where
  channelId : String
  sequence : Nat
  deleted : Bool

def passDeleted (sequence : Nat) : List LoadedMessage → Nat
  | [] => sequence
  | message :: rest =>
    if message.sequence ≠ sequence + 1 ∨ message.deleted = false then sequence
    else passDeleted message.sequence rest

def readSequencePastDeleted (sequence : Nat) (channelId : String)
    (messages : List LoadedMessage) : Nat :=
  passDeleted sequence ((messages.filter fun m => m.channelId = channelId ∧ sequence < m.sequence)
    |>.mergeSort fun left right => left.sequence ≤ right.sequence)

/-- What has the channel deleted at a sequence, as far as it is loaded. -/
def DeletedAt (channelId : String) (messages : List LoadedMessage) (x : Nat) : Prop :=
  ∃ m ∈ messages, m.channelId = channelId ∧ m.sequence = x ∧ m.deleted = true

/-- The sequences that can be reached over deleted messages. -/
def Passable (sequence : Nat) (deleted : Nat → Prop) : Set Nat :=
  {n | sequence ≤ n ∧ ∀ x, sequence < x → x ≤ n → deleted x}

variable {deleted : Nat → Prop}

theorem passable_stop {sequence : Nat} (h : ¬ deleted (sequence + 1)) :
    IsGreatest (Passable sequence deleted) sequence := by
  refine ⟨⟨le_refl _, fun x hlt hle => absurd hle (not_le.2 hlt)⟩, fun n hn => ?_⟩
  by_contra hlt
  exact h (hn.2 _ (by omega) (by omega))

theorem passable_go {sequence n : Nat} (h : deleted (sequence + 1))
    (hn : IsGreatest (Passable (sequence + 1) deleted) n) :
    IsGreatest (Passable sequence deleted) n := by
  obtain ⟨⟨hle, hall⟩, hmax⟩ := hn
  refine ⟨⟨by omega, fun x hlt hx => ?_⟩, fun k hk => ?_⟩
  · by_cases heq : x = sequence + 1
    · exact heq ▸ h
    · exact hall x (by omega) hx
  · by_cases hlt : sequence + 1 ≤ k
    · exact hmax ⟨hlt, fun x hx => hk.2 x (by omega)⟩
    · omega

theorem passable_congr {sequence n : Nat} {p q : Nat → Prop} (h : ∀ x, sequence < x → (p x ↔ q x))
    (hn : IsGreatest (Passable sequence p) n) : IsGreatest (Passable sequence q) n := by
  have heq : Passable sequence p = Passable sequence q := by
    ext k
    exact and_congr_right fun _ => forall_congr' fun x => imp_congr_right fun hx => by rw [h x hx]
  exact heq ▸ hn

theorem passDeleted_isGreatest {sequence : Nat} {rest : List LoadedMessage}
    (hsorted : rest.Pairwise fun a b => a.sequence < b.sequence)
    (hlater : ∀ m ∈ rest, sequence < m.sequence) :
    IsGreatest (Passable sequence fun x => ∃ m ∈ rest, m.sequence = x ∧ m.deleted = true)
      (passDeleted sequence rest) := by
  induction rest generalizing sequence with
  | nil => exact passable_stop nofun
  | cons message rest ih =>
    obtain ⟨hbefore, hsorted⟩ := pairwise_cons.1 hsorted
    have hfirst := hlater message mem_cons_self
    rw [passDeleted]
    by_cases hstop : message.sequence ≠ sequence + 1 ∨ message.deleted = false
    · rw [if_pos hstop]
      -- only the first message can be the next one
      refine passable_stop ?_
      rintro ⟨m, hm, hseq, hdeleted⟩
      rcases mem_cons.1 hm with rfl | hm
      · rcases hstop with hstop | hstop
        · exact hstop hseq
        · exact absurd (hstop.symm.trans hdeleted) nofun
      · have hlt := hbefore m hm
        omega
    · rw [if_neg hstop]
      obtain ⟨hseq, hdeleted⟩ := not_or.1 hstop
      have hseq := not_not.1 hseq
      refine passable_go ⟨message, mem_cons_self, hseq, Bool.eq_true_of_not_eq_false hdeleted⟩ ?_
      rw [← hseq]
      refine passable_congr (fun x hx => ?_) (ih hsorted hbefore)
      simp only [mem_cons, exists_eq_or_imp]
      exact ⟨.inr, fun h => h.resolve_left fun heq => by omega⟩

theorem readSequencePastDeleted_isGreatest {messages : List LoadedMessage}
    (hunique : messages.Pairwise fun a b => a.channelId = b.channelId → a.sequence ≠ b.sequence)
    (sequence : Nat) (channelId : String) :
    IsGreatest (Passable sequence (DeletedAt channelId messages))
      (readSequencePastDeleted sequence channelId messages) := by
  let later := messages.filter fun m => m.channelId = channelId ∧ sequence < m.sequence
  let sorted := later.mergeSort fun left right => left.sequence ≤ right.sequence
  have hmem : ∀ m, m ∈ sorted ↔ m ∈ messages ∧ m.channelId = channelId ∧ sequence < m.sequence := by
    intro m
    rw [mem_mergeSort, mem_filter, decide_eq_true_iff]
  have hdistinct : sorted.Pairwise fun a b => a.sequence ≠ b.sequence := by
    refine (mergeSort_perm later _).pairwise_iff (fun h => Ne.symm h) |>.2 ?_
    refine (hunique.filter _).imp_of_mem fun {a b} ha hb hab => hab ?_
    rw [(of_decide_eq_true (mem_filter.1 ha).2).1, (of_decide_eq_true (mem_filter.1 hb).2).1]
  have hle : sorted.Pairwise fun a b => a.sequence ≤ b.sequence := by
    refine (pairwise_mergeSort ?_ ?_ later).imp of_decide_eq_true
    · intro a b c hab hbc
      exact decide_eq_true ((of_decide_eq_true hab).trans (of_decide_eq_true hbc))
    · intro a b
      simpa using le_total a.sequence b.sequence
  have hlt : sorted.Pairwise fun a b => a.sequence < b.sequence :=
    hle.imp₂ (fun _ _ hle hne => lt_of_le_of_ne hle hne) hdistinct
  refine passable_congr (fun x hx => ?_)
    (passDeleted_isGreatest hlt fun m hm => ((hmem m).1 hm).2.2)
  constructor
  · rintro ⟨m, hm, hseq, hdeleted⟩
    exact ⟨m, ((hmem m).1 hm).1, ((hmem m).1 hm).2.1, hseq, hdeleted⟩
  · rintro ⟨m, hm, hchannel, hseq, hdeleted⟩
    exact ⟨m, (hmem m).2 ⟨hm, hchannel, hseq ▸ hx⟩, hseq, hdeleted⟩

/-! ### The policy -/

structure ReadRequest where
  id : String
  key : String
  sequence : Nat
deriving DecidableEq

/-- The id that `send` answers with, as `if (id)` reads it: an empty one is none. -/
def sentId (send : Option String) : Option String := send.filter (· ≠ "")

/-- The maps of the policy. A key that nothing is confirmed for is at zero. -/
structure VisibleReadPolicy where
  confirmed : String → Nat
  pending : List ReadRequest

namespace VisibleReadPolicy

def init : VisibleReadPolicy := ⟨fun _ => 0, []⟩

def confirm (p : VisibleReadPolicy) (key : String) (sequence : Nat) : VisibleReadPolicy where
  confirmed k := if k = key then max (p.confirmed key) sequence else p.confirmed k
  pending := p.pending.filter fun r => ¬ (r.key = key ∧ r.sequence ≤ sequence)

/-- The test of `acknowledge`. -/
def due (p : VisibleReadPolicy) (key : String) (sequence : Nat) : Bool :=
  ¬ (sequence ≤ p.confirmed key ∨ p.pending.any fun r => r.key = key ∧ sequence ≤ r.sequence)

/-- The callback answers with an id, or with nothing when it could not send. -/
def acknowledge (p : VisibleReadPolicy) (key : String) (sequence : Nat) (send : Option String) :
    VisibleReadPolicy :=
  if p.due key sequence then
    match sentId send with
    | some id => { p with pending := Table.put (·.id) ⟨id, key, sequence⟩ p.pending }
    | none => p
  else p

def complete (p : VisibleReadPolicy) (id : String) : VisibleReadPolicy :=
  match p.pending.find? fun r => id ≠ "" ∧ r.id = id with
  | some request => p.confirm request.key request.sequence
  | none => p

def fail (p : VisibleReadPolicy) (id : String) : VisibleReadPolicy :=
  { p with pending := Table.erase (·.id) id p.pending }

def disconnect (p : VisibleReadPolicy) : VisibleReadPolicy := { p with pending := [] }

end VisibleReadPolicy

/-- What happens to the policy. A report of what is visible is sent or passed by. -/
inductive ReadEvent
  | sent (key : String) (sequence : Nat) (id : Option String)
  | passed (key : String) (sequence : Nat)
  | confirmed (key : String) (sequence : Nat)
  | completed (id : String)
  | failed (id : String)
  | disconnected

inductive PolicyStep (p : VisibleReadPolicy) : ReadEvent → VisibleReadPolicy → Prop
  | sent {key : String} {sequence : Nat} (send : Option String) (h : p.due key sequence = true) :
      PolicyStep p (.sent key sequence (sentId send)) (p.acknowledge key sequence send)
  | passed {key : String} {sequence : Nat} (send : Option String) (h : p.due key sequence = false) :
      PolicyStep p (.passed key sequence) (p.acknowledge key sequence send)
  | confirmed (key : String) (sequence : Nat) :
      PolicyStep p (.confirmed key sequence) (p.confirm key sequence)
  | completed (id : String) : PolicyStep p (.completed id) (p.complete id)
  | failed (id : String) : PolicyStep p (.failed id) (p.fail id)
  | disconnected : PolicyStep p .disconnected p.disconnect

/-- An answer to the request with an id. An id that is used again stands for the new request. -/
def ReadEvent.closes (id : String) : ReadEvent → Prop
  | sent _ _ id' => id' = some id
  | completed id' | failed id' => id' = id
  | disconnected => True
  | passed .. | confirmed .. => False

/-- A request that has been sent and has had no answer since. -/
def Unanswered (trace : List ReadEvent) (r : ReadRequest) : Prop :=
  ∃ before after, trace = before ++ .sent r.key r.sequence (some r.id) :: after ∧
    ∀ e ∈ after, ¬ e.closes r.id

/-- A request on its way, which nothing else has confirmed meanwhile. -/
def Outstanding (trace : List ReadEvent) (p : VisibleReadPolicy) (r : ReadRequest) : Prop :=
  Unanswered trace r ∧ p.confirmed r.key < r.sequence

variable {p p' : VisibleReadPolicy} {key : String} {sequence n : Nat} {r : ReadRequest}
  {trace : List ReadEvent} {e : ReadEvent}

theorem unanswered_snoc : Unanswered (trace ++ [e]) r ↔
    e = .sent r.key r.sequence (some r.id) ∨ Unanswered trace r ∧ ¬ e.closes r.id := by
  constructor
  · rintro ⟨before, after, heq, hopen⟩
    rcases eq_nil_or_concat' after with rfl | ⟨after, x, rfl⟩
    · obtain ⟨-, heq⟩ := append_inj' heq rfl
      exact .inl (cons.inj heq).1
    · rw [← cons_append, ← append_assoc] at heq
      obtain ⟨rfl, hlast⟩ := append_inj' heq rfl
      cases hlast
      exact .inr ⟨⟨before, after, rfl, fun y hy => hopen y (mem_append_left _ hy)⟩,
        hopen e (mem_append_right _ mem_cons_self)⟩
  · rintro (rfl | ⟨⟨before, after, rfl, hopen⟩, he⟩)
    · exact ⟨trace, [], rfl, nofun⟩
    · refine ⟨before, after ++ [e], by simp, fun y hy => ?_⟩
      rcases mem_append.1 hy with hy | hy
      · exact hopen y hy
      · rwa [mem_singleton.1 hy]

open VisibleReadPolicy

variable {send : Option String}

theorem acknowledge_none (h : sentId send = none) :
    p.acknowledge key sequence send = p := by
  simp [acknowledge, h]

theorem acknowledge_passed (h : p.due key sequence = false) :
    p.acknowledge key sequence send = p := by
  simp [acknowledge, h]

theorem acknowledge_some {id : String} (h : p.due key sequence = true)
    (hid : sentId send = some id) : p.acknowledge key sequence send =
      { p with pending := Table.put (·.id) ⟨id, key, sequence⟩ p.pending } := by
  simp [acknowledge, h, hid]

theorem due_iff : p.due key sequence = true ↔
    p.confirmed key < sequence ∧ ∀ r ∈ p.pending, r.key = key → r.sequence < sequence := by
  simp [due]

theorem lt_confirm {k : String} : (p.confirm key sequence).confirmed k < n ↔
    p.confirmed k < n ∧ (k = key → sequence < n) := by
  by_cases hk : k = key
  · simp [confirm, hk]
  · simp [confirm, hk]

theorem mem_confirm : r ∈ (p.confirm key sequence).pending ↔
    r ∈ p.pending ∧ (r.key = key → sequence < r.sequence) := by
  simp [confirm, imp_iff_not_or]

/-- What is pending is what is on its way. -/
structure Tracked (trace : List ReadEvent) (p : VisibleReadPolicy) : Prop where
  unique : (p.pending.map (·.id)).Nodup
  named : ∀ r ∈ p.pending, r.id ≠ ""
  mem : ∀ r, r ∈ p.pending ↔ Outstanding trace p r

theorem Tracked.confirm (h : Tracked trace p) {c : String → Prop}
    (hclosed : ∀ r, Unanswered (trace ++ [e]) r ↔ Unanswered trace r ∧ ¬ c r.id)
    (hgone : ∀ r ∈ p.pending, c r.id → r.key = key ∧ r.sequence ≤ sequence) :
    Tracked (trace ++ [e]) (p.confirm key sequence) := by
  refine ⟨h.unique.sublist (filter_sublist.map _), fun r hr => h.named r (mem_confirm.1 hr).1,
    fun r => ?_⟩
  rw [mem_confirm, Outstanding, lt_confirm, hclosed]
  constructor
  · rintro ⟨hr, hlater⟩
    obtain ⟨hsent, hlt⟩ := (h.mem r).1 hr
    refine ⟨⟨hsent, fun hr' => ?_⟩, hlt, hlater⟩
    obtain ⟨hkey, hle⟩ := hgone r hr hr'
    exact absurd (hlater hkey) (not_lt.2 hle)
  · rintro ⟨⟨hsent, -⟩, hlt, hlater⟩
    exact ⟨(h.mem r).2 ⟨hsent, hlt⟩, hlater⟩

theorem Tracked.quiet (h : Tracked trace p)
    (hsame : ∀ r, Unanswered (trace ++ [e]) r ↔ Unanswered trace r) :
    Tracked (trace ++ [e]) p := by
  refine ⟨h.unique, h.named, fun r => ?_⟩
  rw [h.mem, Outstanding, Outstanding, hsame]

theorem Tracked.sent {id : String} (h : Tracked trace p) (hdue : p.due key sequence = true)
    (hid : id ≠ "") : Tracked (trace ++ [.sent key sequence (some id)])
      { p with pending := Table.put (·.id) ⟨id, key, sequence⟩ p.pending } := by
  refine ⟨Table.nodup_put h.unique, fun r hr => ?_, fun r => ?_⟩
  · rcases Table.mem_put.1 hr with rfl | ⟨hr, -⟩
    · exact hid
    · exact h.named r hr
  · rw [Table.mem_put, h.mem, Outstanding, Outstanding, unanswered_snoc]
    obtain ⟨rid, rkey, rsequence⟩ := r
    have hlt := (due_iff.1 hdue).1
    -- an id that comes again takes the place of its pending request, and closes it in the trace
    simp only [ReadRequest.mk.injEq, ReadEvent.sent.injEq, ReadEvent.closes, Option.some.injEq]
    constructor
    · rintro (⟨rfl, rfl, rfl⟩ | ⟨⟨hsent, hlater⟩, hid⟩)
      · exact ⟨.inl ⟨rfl, rfl, rfl⟩, hlt⟩
      · exact ⟨.inr ⟨hsent, fun heq => hid heq.symm⟩, hlater⟩
    · rintro ⟨⟨rfl, rfl, rfl⟩ | ⟨hsent, hid⟩, hlater⟩
      · exact .inl ⟨rfl, rfl, rfl⟩
      · exact .inr ⟨⟨hsent, hlater⟩, fun heq => hid heq.symm⟩

theorem Tracked.completed (h : Tracked trace p) (id : String) :
    Tracked (trace ++ [.completed id]) (p.complete id) := by
  have hclosed : ∀ r, Unanswered (trace ++ [.completed id]) r ↔
      Unanswered trace r ∧ ¬ id = r.id := by
    intro r
    rw [unanswered_snoc]
    simp [ReadEvent.closes]
  rw [complete]
  split
  · next request hfind =>
    refine h.confirm (c := fun x => id = x) hclosed fun r hr hid => ?_
    have hrequest : id ≠ "" ∧ request.id = id := by simpa using find?_some hfind
    rw [Table.eq_of_key_eq h.unique hr (mem_of_find?_eq_some hfind)
      (hid.symm.trans hrequest.2.symm)]
    exact ⟨rfl, le_refl _⟩
  · next hfind =>
    -- an id that no pending request has closes none, since requests are named
    refine ⟨h.unique, h.named, fun r => ?_⟩
    rw [Outstanding, hclosed, and_right_comm, ← Outstanding, ← h.mem]
    refine ⟨fun hr => ⟨hr, fun hid => ?_⟩, And.left⟩
    simpa [hid, h.named r hr] using find?_eq_none.1 hfind r hr

theorem Tracked.failed (h : Tracked trace p) (id : String) :
    Tracked (trace ++ [.failed id]) (p.fail id) := by
  refine ⟨Table.nodup_erase h.unique, fun r hr => h.named r (Table.mem_erase.1 hr).1, fun r => ?_⟩
  have hiff := h.mem r
  rw [fail, Table.mem_erase, hiff, Outstanding, Outstanding, unanswered_snoc]
  simp only [ReadEvent.closes, reduceCtorEq, false_or, ne_comm (a := r.id)]
  tauto

theorem Tracked.step (h : Tracked trace p) (hstep : PolicyStep p e p') :
    Tracked (trace ++ [e]) p' := by
  cases hstep with
  | sent send hdue =>
    rcases Option.eq_none_or_eq_some (sentId send) with hid | ⟨id, hid⟩
    · rw [acknowledge_none hid, hid]
      exact h.quiet fun r => by simp [unanswered_snoc, ReadEvent.closes]
    · rw [acknowledge_some hdue hid, hid]
      exact h.sent hdue (by simpa using (Option.filter_eq_some_iff.1 hid).2)
  | passed send hdue =>
    rw [acknowledge_passed hdue]
    exact h.quiet fun r => by simp [unanswered_snoc, ReadEvent.closes]
  | confirmed key sequence =>
    refine h.confirm (c := fun _ => False) (fun r => ?_) nofun
    simp [unanswered_snoc, ReadEvent.closes]
  | completed id => exact h.completed id
  | failed id => exact h.failed id
  | disconnected =>
    refine ⟨nodup_nil, nofun, fun r => ?_⟩
    rw [Outstanding, unanswered_snoc]
    simp [disconnect, ReadEvent.closes]

theorem tracked_of_run (hrun : Run PolicyStep .init trace p) : Tracked trace p := by
  refine hrun.history (P := Tracked) (fun _ _ _ _ h hstep => h.step hstep)
    ⟨nodup_nil, nofun, fun r => ?_⟩
  simp [init, Outstanding, Unanswered]

theorem confirmed_le (hstep : PolicyStep p e p') (k : String) : p.confirmed k ≤ p'.confirmed k := by
  have hconfirm : ∀ key sequence, p.confirmed k ≤ (p.confirm key sequence).confirmed k := by
    intro key sequence
    by_contra hlt
    exact absurd ((lt_confirm).1 (not_le.1 hlt)).1 (lt_irrefl _)
  cases hstep with
  | sent send hdue =>
    rcases Option.eq_none_or_eq_some (sentId send) with hid | ⟨id, hid⟩
    · rw [acknowledge_none hid]
    · rw [acknowledge_some hdue hid]
  | passed send hdue => rw [acknowledge_passed hdue]
  | confirmed key sequence => exact hconfirm key sequence
  | completed id =>
    rw [complete]
    split
    · exact hconfirm _ _
    · exact le_refl _
  | failed | disconnected => exact le_refl _

theorem Tracked.due_iff (h : Tracked trace p) : p.due key sequence = true ↔
    p.confirmed key < sequence ∧
      ∀ r, Outstanding trace p r → r.key = key → r.sequence < sequence := by
  rw [Sproyt.due_iff]
  simp only [h.mem]

/-- Over deleted messages the reported sequence goes as far as it can. In every run a sequence can
be sent exactly if it is not confirmed and no request on its way covers it. So nothing else is
sent; after a disconnect everything that is not confirmed can be sent; and after a failure, what
no other request on its way covers. -/
theorem visible_read_policy :
    (∀ messages : List LoadedMessage, messages.Pairwise
        (fun a b => a.channelId = b.channelId → a.sequence ≠ b.sequence) →
      ∀ sequence channelId, IsGreatest (Passable sequence (DeletedAt channelId messages))
        (readSequencePastDeleted sequence channelId messages)) ∧
    ∀ trace p, Run PolicyStep .init trace p →
      (∀ key sequence, p.due key sequence = true ↔ p.confirmed key < sequence ∧
        ∀ r, Outstanding trace p r → r.key = key → r.sequence < sequence) ∧
      ∀ e p', PolicyStep p e p' →
        (∀ k, p.confirmed k ≤ p'.confirmed k) ∧
        (∀ key sequence id, e = .sent key sequence id → p.confirmed key < sequence ∧
          (∀ r, Outstanding trace p r → r.key = key → r.sequence < sequence) ∧
          (id = none → p'.due key sequence = true)) ∧
        (∀ id, e = .failed id → ∀ key sequence, p'.due key sequence = true ↔
          p'.confirmed key < sequence ∧
            ∀ q, Outstanding trace p q → q.key = key → q.id ≠ id → q.sequence < sequence) ∧
        (e = .disconnected → ∀ key sequence,
          p'.due key sequence = true ↔ p'.confirmed key < sequence) := by
  refine ⟨fun messages hunique => readSequencePastDeleted_isGreatest hunique, ?_⟩
  intro trace p hrun
  have htracked := tracked_of_run hrun
  refine ⟨fun key sequence => htracked.due_iff, fun e p' hstep => ⟨confirmed_le hstep, ?_, ?_, ?_⟩⟩
  · rintro key sequence id rfl
    cases hstep with
    | sent send hdue =>
      obtain ⟨hlt, hall⟩ := htracked.due_iff.1 hdue
      exact ⟨hlt, hall, fun hid => by rwa [acknowledge_none hid]⟩
  · rintro id rfl key sequence
    cases hstep with
    | failed =>
      rw [due_iff]
      simp only [VisibleReadPolicy.fail, Table.mem_erase, htracked.mem]
      exact and_congr_right fun _ =>
        ⟨fun h q hq hkey hid => h q ⟨hq, hid⟩ hkey, fun h q hq hkey => h q hq.1 hkey hq.2⟩
  · rintro rfl key sequence
    cases hstep with
    | disconnected => simp [due_iff, disconnect]

/-- Sequence 5 fails while 7 is on its way, and can be sent again after a disconnect. -/
theorem visible_read_policy_disconnected :
    IsGreatest (Passable 1 (DeletedAt "channel" [⟨"channel", 3, true⟩, ⟨"channel", 2, true⟩]))
        (readSequencePastDeleted 1 "channel" [⟨"channel", 3, true⟩, ⟨"channel", 2, true⟩]) ∧
      ∃ trace p p', Run PolicyStep .init trace p ∧ p.due "channel" 5 = false ∧
        PolicyStep p .disconnected p' ∧ p'.due "channel" 5 = true := by
  obtain ⟨hpast, hpolicy⟩ := visible_read_policy
  let sent := (VisibleReadPolicy.init.acknowledge "channel" 5 (some "a")).acknowledge "channel" 7
    (some "b")
  have hrun : Run PolicyStep .init _ (sent.fail "a") :=
    .cons (.sent (some "a") (by decide)) (.cons (.sent (some "b") (by decide))
      (.single (.failed "a")))
  refine ⟨hpast _ (by decide) 1 "channel", _, _, _, hrun, by decide, .disconnected, ?_⟩
  exact (((hpolicy _ _ hrun).2 _ _ .disconnected).2.2.2 rfl _ _).2 (by decide)

/-- A failed request is not sent again while a later one is on its way. -/
theorem failed_read_not_due :
    ∃ trace p p' r, Run PolicyStep .init trace p ∧ Outstanding trace p r ∧
      PolicyStep p (.failed r.id) p' ∧ p'.due r.key r.sequence = false := by
  let first : VisibleReadPolicy := VisibleReadPolicy.init.acknowledge "channel" 5 (some "a")
  let second := first.acknowledge "channel" 7 (some "b")
  have hrun : Run PolicyStep .init _ second :=
    .cons (.sent (some "a") (by decide)) (.single (.sent (some "b") (by decide)))
  refine ⟨_, second, second.fail "a", ⟨"a", "channel", 5⟩, hrun, ?_, .failed "a", by decide⟩
  refine ((tracked_of_run hrun).mem _).1 ?_
  decide

end Sproyt
