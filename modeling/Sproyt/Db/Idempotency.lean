import Sproyt.Db.Rewriting
import Sproyt.Lib.Run

/-!
# Repeated sends

`append_message_idempotent` keeps a receipt for each principal and request id. A retry is
answered from the receipt and never makes a second message. It is compared with the message
as it is stored at that time, so that an edit or a deletion in between turns the answer to
the very same request into `Conflict`.
-/

namespace Sproyt

open List Txn

section

variable {trace : List SendEvent}

variable {host : Host} {db db₁ db' : Db} {m row : ChatMessage} {principal p : UserId}
  {requestId q : String}

/-! ### Receipts -/

theorem receipt?_key {r : CommandReceiptRow} (h : db.receipt? p q = some r) :
    r.principalId = p ∧ r.requestId = q := by
  have hr := find?_some h
  rwa [decide_eq_true_eq] at hr

theorem receipt?_reserved :
    (db.reserved principal requestId).receipt? p q =
      (db.receipt? p q).or
        (if principal = p ∧ requestId = q then some ⟨principal, requestId, none⟩ else none) := by
  unfold Db.receipt? Db.reserved
  rw [find?_append]
  by_cases h : principal = p ∧ requestId = q
  · simp [h]
  · simp [h]

theorem receipt?_settled (id : MessageId) :
    (db.settled principal requestId id).receipt? p q =
      (db.receipt? p q).map fun r =>
        if r.principalId = principal ∧ r.requestId = requestId then
          { r with messageId := some id }
        else r := by
  unfold Db.receipt? Db.settled
  apply Table.find?_map_same
  intro r
  by_cases h : r.principalId = principal ∧ r.requestId = requestId
  · rw [if_pos h]
  · rw [if_neg h]

/-- What no step takes back: a receipt, and of a message all but its text and times. -/
structure Retains (db db' : Db) : Prop where
  receipts : ∀ {p q r}, db.receipt? p q = some r → db'.receipt? p q = some r
  messages : ∀ {id row}, db.message? id = some row →
    ∃ row', db'.message? id = some row' ∧ row' = { row with
      body := row'.body
      editedAt := row'.editedAt
      deletedAt := row'.deletedAt }

theorem Retains.refl (db : Db) : Retains db db :=
  ⟨fun h => h, fun h => ⟨_, h, rfl⟩⟩

theorem Retains.trans (h : Retains db db₁) (h' : Retains db₁ db') : Retains db db' := by
  refine ⟨fun hr => h'.receipts (h.receipts hr), ?_⟩
  intro id row hrow
  obtain ⟨row₁, hrow₁, hsame₁⟩ := h.messages hrow
  obtain ⟨row', hrow', hsame'⟩ := h'.messages hrow₁
  exact ⟨row', hrow', by rw [hsame', hsame₁]⟩

theorem Rewritten.retains (h : Rewritten db row m db') (hdb : UniqueMessages db) :
    Retains db db' := by
  constructor
  · intro p q r hr
    rw [h.rest]
    exact hr
  · intro id old hold
    rw [h.message?]
    by_cases hid : id = m.id
    · subst hid
      have hrow := hdb.message?_of_mem h.found
      rw [← h.id_eq, hold] at hrow
      cases hrow
      exact ⟨m, if_pos rfl, h.same⟩
    · exact ⟨old, by rw [if_neg hid, hold], rfl⟩

/-! ### Sends -/

section Sent

variable {command : SendMessage} {env : SendEnv}

theorem Appended.commandReceipts (h : Appended host command env db m db') :
    db'.commandReceipts = db.commandReceipts := by
  rw [h.rest]

theorem receipt?_sent (habsent : db.receipt? principal requestId = none)
    (happ : Appended host command env (db.reserved principal requestId) m db₁) (p : UserId)
    (q : String) :
    (db₁.settled principal requestId m.id).receipt? p q =
      if principal = p ∧ requestId = q then some ⟨principal, requestId, some m.id⟩
      else db.receipt? p q := by
  have hsame : db₁.receipt? p q = (db.reserved principal requestId).receipt? p q := by
    unfold Db.receipt?
    rw [happ.commandReceipts]
  rw [receipt?_settled, hsame, receipt?_reserved]
  by_cases hkey : principal = p ∧ requestId = q
  · obtain ⟨rfl, rfl⟩ := hkey
    simp [habsent]
  · rw [if_neg hkey, if_neg hkey, Option.or_none]
    cases hr : db.receipt? p q with
    | none => rfl
    | some r =>
      obtain ⟨rfl, rfl⟩ := receipt?_key hr
      have hne : ¬ (r.principalId = principal ∧ r.requestId = requestId) :=
        fun h => hkey ⟨h.1.symm, h.2.symm⟩
      rw [Option.map_some, if_neg hne]

theorem appendMessageIdempotent_retains
    (h : (appendMessageIdempotent host command requestId env).run db = .ok (m, db')) :
    Retains db db' := by
  rcases (appendMessageIdempotent_ok h).2 with ⟨habsent, db₁, happ, rfl⟩ | ⟨rfl, -⟩
  · constructor
    · intro p q r hr
      have hne : ¬ (command.actor = p ∧ requestId = q) := by
        rintro ⟨rfl, rfl⟩
        rw [habsent] at hr
        cases hr
      rw [receipt?_sent habsent happ, if_neg hne, hr]
    · intro id row hrow
      exact ⟨row, happ.toPosted.message?_of_some hrow, rfl⟩
  · exact .refl db'

/-- The receipt of this request names the message, which has its channel, parent and number. -/
def Settled (command : SendMessage) (requestId : String) (m : ChatMessage) (db : Db) : Prop :=
  ∃ r row, db.receipt? command.actor requestId = some r ∧ r.messageId = some m.id ∧
    db.message? m.id = some row ∧ row.id = m.id ∧ row.sequence = m.sequence ∧
    row.channelId = command.channelId ∧ row.parentMessageId = command.parentMessageId

theorem Settled.retains (h : Settled command requestId m db) (hkeep : Retains db db') :
    Settled command requestId m db' := by
  obtain ⟨r, row, hr, hid, hrow, hsame, hsequence, hchannel, hparent⟩ := h
  obtain ⟨row', hrow', heq⟩ := hkeep.messages hrow
  refine ⟨r, row', hkeep.receipts hr, hid, hrow', ?_, ?_, ?_, ?_⟩
  · rw [heq, hsame]
  · rw [heq, hsequence]
  · rw [heq, hchannel]
  · rw [heq, hparent]

theorem appendMessageIdempotent_settled
    (h : (appendMessageIdempotent host command requestId env).run db = .ok (m, db')) :
    Settled command requestId m db' := by
  rcases (appendMessageIdempotent_ok h).2 with
    ⟨habsent, db₁, happ, rfl⟩ | ⟨rfl, row, hrow, hmatch, rfl⟩
  · have hreceipt := receipt?_sent habsent happ command.actor requestId
    rw [if_pos ⟨rfl, rfl⟩] at hreceipt
    refine ⟨_, m, hreceipt, rfl, happ.toPosted.message?_self, rfl, rfl, ?_, ?_⟩
    · rw [happ.message]
    · rw [happ.message]
  · obtain ⟨id, hreceipt, hmessage⟩ := Option.bind_eq_some_iff.1 hrow
    obtain ⟨r, hr, hid⟩ := Option.bind_eq_some_iff.1 hreceipt
    have hkey := find?_some hmessage
    rw [decide_eq_true_eq] at hkey
    simp only [payloadMatches, decide_eq_true_eq] at hmatch
    subst hkey
    exact ⟨r, row, hr, hid, hmessage, rfl, rfl, hmatch.1, hmatch.2.1⟩

theorem commit_of_settled (h : Settled command requestId m db)
    (hlength : 1 ≤ requestId.length ∧ requestId.length ≤ 128) :
    ∃ row, db.message? m.id = some row ∧ row.id = m.id ∧ row.sequence = m.sequence ∧
      ∀ env, (appendMessageIdempotent host command requestId env).commit db =
        if row.body = command.body then
          (.ok { row with editedAt := none, deletedAt := none }, db)
        else (.error .conflict, db) := by
  obtain ⟨r, row, hr, hid, hrow, hsame, hsequence, hchannel, hparent⟩ := h
  have hreserve : (reserveReceipt command.actor requestId).run db = .ok (false, db) := by
    simp [reserveReceipt, hlength, hr]
  have hmessage : db.receiptMessage? command.actor requestId = some row := by
    rw [Db.receiptMessage?, hr, Option.bind_some, hid, Option.bind_some, hrow]
  have hmatch : payloadMatches row command = decide (row.body = command.body) := by
    simp [payloadMatches, hchannel, hparent]
  refine ⟨row, hrow, hsame, hsequence, fun env => ?_⟩
  by_cases hbody : row.body = command.body
  · rw [if_pos hbody, commit_eq_ok]
    refine bind_ok.2 ⟨false, db, hreserve, ?_⟩
    rw [if_neg Bool.false_ne_true]
    simp only [replayReceipt, answers]
    exact ⟨row, hmessage, by rw [hmatch, decide_eq_true hbody], rfl, trivial⟩
  · rw [if_neg hbody, commit_eq_error]
    refine ⟨bind_error.2 (.inr ⟨false, db, hreserve, ?_⟩), rfl⟩
    rw [if_neg Bool.false_ne_true]
    refine bind_error.2 (.inr ⟨_, db, read_ok.2 ⟨hmessage, rfl⟩, ?_⟩)
    refine bind_error.2 (.inr ⟨row, db, demand_ok.2 ⟨rfl, rfl⟩, ?_⟩)
    refine bind_error.2 (.inl (ensure_error.2 ⟨?_, rfl⟩))
    rw [hmatch, decide_eq_true_eq]
    exact hbody

end Sent

/-! ### Runs -/

inductive SendCall
  | send (command : SendMessage) (requestId : String) (env : SendEnv)
  | edit (command : EditMessage) (now : Time)
  | delete (command : DeleteMessage) (now : Time)

def SendCall.body (host : Host) : SendCall → Sql ChatMessage
  | send command requestId env => appendMessageIdempotent host command requestId env
  | edit command now => editMessage host command now
  | delete command now => deleteMessage command now

structure SendEvent where
  call : SendCall
  answer : Except RepositoryError ChatMessage
  created : List ChatMessage

def SendEvent.isFor (principal : UserId) (requestId : String) (e : SendEvent) : Bool :=
  match e.call with
  | .send command q _ => command.actor = principal ∧ q = requestId
  | _ => false

inductive SendStep (host : Host) (db : Db) : SendEvent → Db → Prop
  | finish (call : SendCall) {answer : Except RepositoryError ChatMessage} {db' : Db}
      (h : (call.body host).commit db = (answer, db')) :
      SendStep host db ⟨call, answer, db'.messages.drop db.messages.length⟩ db'
  | abort (call : SendCall) (e : RepositoryError) : SendStep host db ⟨call, .error e, []⟩ db

variable {e : SendEvent}

theorem SendStep.retains (h : SendStep host db e db') (hdb : UniqueMessages db) :
    UniqueMessages db' ∧ Retains db db' := by
  cases h with
  | abort call e => exact ⟨hdb, .refl db⟩
  | finish call h =>
    rcases commit_cases (call.body host) db with ⟨m, db₁, hr, hc⟩ | ⟨err, hr, hc⟩
    · rw [hc] at h
      cases h
      cases call with
      | send command requestId env =>
        refine ⟨?_, appendMessageIdempotent_retains hr⟩
        rcases (appendMessageIdempotent_ok hr).2 with ⟨-, db₂, happ, rfl⟩ | ⟨rfl, -⟩
        · exact happ.toPosted.unique hdb
        · exact hdb
      | edit command now =>
        obtain ⟨row, hw, -⟩ := editMessage_ok hr
        exact ⟨hw.unique hdb, hw.retains hdb⟩
      | delete command now =>
        obtain ⟨row, hw, -⟩ := deleteMessage_ok hr
        exact ⟨hw.unique hdb, hw.retains hdb⟩
    · rw [hc] at h
      cases h
      exact ⟨hdb, .refl db⟩

theorem run_retains (hrun : Run (SendStep host) db trace db')
    (hdb : UniqueMessages db) : UniqueMessages db' ∧ Retains db db' := by
  induction hrun with
  | refl => exact ⟨hdb, .refl _⟩
  | step _ hstep ih =>
    obtain ⟨hunique, hkeep⟩ := hstep.retains ih.1
    exact ⟨hunique, ih.2.trans hkeep⟩

/-- A send adds a row only when its request id is new, and leaves a receipt when it does. -/
theorem SendStep.created (h : SendStep host db e db') (hfor : e.isFor principal requestId = true) :
    e.created = [] ∨ (db.receipt? principal requestId = none ∧ e.created.length = 1 ∧
      ∃ r, db'.receipt? principal requestId = some r) := by
  cases h with
  | abort call e => exact .inl rfl
  | finish call h =>
    rcases commit_cases (call.body host) db with ⟨m, db₁, hr, hc⟩ | ⟨err, hr, hc⟩
    · rw [hc] at h
      cases h
      cases call with
      | edit | delete => cases hfor
      | send command q env =>
        obtain ⟨rfl, rfl⟩ := of_decide_eq_true hfor
        rcases (appendMessageIdempotent_ok hr).2 with ⟨habsent, db₂, happ, rfl⟩ | ⟨rfl, -⟩
        · have hreceipt := receipt?_sent habsent happ command.actor q
          rw [if_pos ⟨rfl, rfl⟩] at hreceipt
          refine .inr ⟨habsent, ?_, _, hreceipt⟩
          show (db₂.messages.drop db.messages.length).length = 1
          rw [happ.messages, length_drop]
          simp [Db.reserved]
        · exact .inl (drop_length)
    · rw [hc] at h
      cases h
      exact .inl (drop_length)

theorem run_created (hrun : Run (SendStep host) db trace db') (hdb : UniqueMessages db) :
    (trace.filter (·.isFor principal requestId)).flatMap (·.created) = [] ∨
      (((trace.filter (·.isFor principal requestId)).flatMap (·.created)).length = 1 ∧
        ∃ r, db'.receipt? principal requestId = some r) := by
  induction hrun with
  | refl => exact .inl rfl
  | @step trace db₁ db₂ e hpast hstep ih =>
    rw [filter_append, flatMap_append]
    have hkeep := (hstep.retains (run_retains hpast hdb).1).2
    by_cases hfor : e.isFor principal requestId = true
    · simp only [filter_cons, hfor, if_true, filter_nil, flatMap_cons, flatMap_nil, append_nil]
      rcases hstep.created hfor with hnone | ⟨habsent, hone, hreceipt⟩
      · rw [hnone, append_nil]
        exact ih.imp id fun ⟨hlen, r, hr⟩ => ⟨hlen, r, hkeep.receipts hr⟩
      · -- the request id was new, so that no earlier send of it added a row
        rcases ih with hnil | ⟨-, r, hr⟩
        · rw [hnil, nil_append]
          exact .inr ⟨hone, hreceipt⟩
        · rw [habsent] at hr
          cases hr
    · simp only [filter_cons, hfor, filter_nil]
      rw [if_neg Bool.false_ne_true, flatMap_nil, append_nil]
      exact ih.imp id fun ⟨hlen, r, hr⟩ => ⟨hlen, r, hkeep.receipts hr⟩

theorem run_settled {command : SendMessage} {env : SendEnv}
    {created : List ChatMessage} (hrun : Run (SendStep host) db trace db') (hdb : UniqueMessages db)
    (hsent : ⟨.send command requestId env, .ok m, created⟩ ∈ trace) :
    Settled command requestId m db' ∧ 1 ≤ requestId.length ∧ requestId.length ≤ 128 := by
  obtain ⟨past, future, rfl⟩ := append_of_mem hsent
  obtain ⟨db₁, db₂, hpast, hstep, hfuture⟩ := hrun.split
  have hunique := (run_retains hpast hdb).1
  have hrest := run_retains hfuture (hstep.retains hunique).1
  cases hstep with
  | finish call h =>
    have hr := commit_eq_ok.1 h
    exact ⟨(appendMessageIdempotent_settled hr).retains hrest.2, (appendMessageIdempotent_ok hr).1⟩

/-- Whatever is sent, retried, edited and deleted, no request makes two messages, and a
request that was answered is answered again with the same message as long as the text of the
message is what the request says. It is refused with `Conflict` otherwise. -/
theorem retry_answered_while_text_stands {trace : List SendEvent} (hkeys : UniqueMessages db)
    (hrun : Run (SendStep host) db trace db') :
    (∀ principal requestId,
      ((trace.filter (·.isFor principal requestId)).flatMap (·.created)).length ≤ 1) ∧
    ∀ command requestId env m created,
      ⟨.send command requestId env, .ok m, created⟩ ∈ trace →
        ∃ row, db'.message? m.id = some row ∧ ∀ env',
          (row.body = command.body →
            ∃ m', (appendMessageIdempotent host command requestId env').commit db' = (.ok m', db') ∧
              m'.id = m.id ∧ m'.sequence = m.sequence) ∧
          (row.body ≠ command.body →
            (appendMessageIdempotent host command requestId env').commit db' =
              (.error .conflict, db')) := by
  constructor
  · intro principal requestId
    rcases run_created hrun hkeys with hnil | ⟨hone, -⟩
    · rw [hnil]
      exact Nat.zero_le 1
    · exact hone.le
  · intro command requestId env m created hsent
    obtain ⟨hsettled, hlength⟩ := run_settled hrun hkeys hsent
    obtain ⟨row, hrow, hid, hsequence, hcommit⟩ := commit_of_settled hsettled hlength
    refine ⟨row, hrow, fun env' => ⟨?_, ?_⟩⟩
    · intro hbody
      exact ⟨_, (hcommit env').trans (if_pos hbody), hid, hsequence⟩
    · intro hbody
      exact (hcommit env').trans (if_neg hbody)

end

namespace Sample

def request : SendMessage := ⟨alice, room, none, hello⟩

def firstSend : SendCall := .send request "request-1" (.quiet 20 0)

def sent : Db := ((firstSend.body host).commit chat).2

def stored : ChatMessage :=
  ⟨⟨20⟩, room, none, alice, aliceName, hello, 1, 0, none, none⟩

def correction : SendCall := .edit ⟨alice, ⟨20⟩, ⟨"Hallo", by decide, by decide⟩⟩ 1

def corrected : Db := ((correction.body host).commit sent).2

theorem send_step : SendStep host chat ⟨firstSend, .ok stored, [stored]⟩ sent :=
  .finish firstSend rfl

end Sample

open Sample in
theorem retry_answered_after_send :
    UniqueMessages chat ∧ ∃ m,
      (appendMessageIdempotent host request "request-1" (.quiet 21 1)).commit sent = (.ok m, sent) ∧
        m.id = ⟨20⟩ ∧ m.sequence = 1 := by
  have hkeys : UniqueMessages chat := nodup_nil
  obtain ⟨-, hretry⟩ := retry_answered_while_text_stands hkeys (.single send_step)
  obtain ⟨row, hrow, hanswer⟩ := hretry _ _ _ _ _ (mem_singleton_self _)
  have hbody : row.body = request.body := by
    rw [show sent.message? stored.id = some stored from rfl] at hrow
    cases hrow
    rfl
  exact ⟨hkeys, (hanswer (.quiet 21 1)).1 hbody⟩

open Sample in
/-- The sender edits the message and the client repeats the request, which it has no answer
to. The sender is still in the channel, and the answer is `Conflict`. -/
theorem retry_refused_after_edit :
    ∃ trace, Run (SendStep host) chat trace corrected ∧ UniqueMessages chat ∧
      ⟨.send request "request-1" (.quiet 20 0), .ok stored, [stored]⟩ ∈ trace ∧
      corrected.inChannel room alice = true ∧
      ((appendMessageIdempotent host request "request-1" (.quiet 21 1)).commit corrected).1 =
        .error .conflict := by
  exact ⟨_, .cons send_step (.single (.finish correction rfl)), nodup_nil, mem_cons_self, rfl, rfl⟩

end Sproyt
