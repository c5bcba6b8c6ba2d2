import Sproyt.Lib.Run
import Sproyt.Lib.Table
import Sproyt.Process.Store

/-!
# Request ids of process commands

A client repeats a command under the request id it has first used for it. What the tables keep
of a request is a view of the store that no worker changes, and a command is either answered
from that view or added to it.
-/

namespace Sproyt

open List Txn Frame ProcessDb Table

namespace Process

/-! ### The requests in the tables -/

structure LinkRequest where
  id : ProcessLinkId
  channelId : ChannelId
  nameSpace : String
  definitionName : String
  definitionVersion : Option String
  initiatedBy : UserId
  requestId : String

structure JobRequest where
  id : OutboxId
  processLinkId : ProcessLinkId
  operation : OutboxOperation

structure Requests where
  links : List LinkRequest
  jobs : List JobRequest
  receipts : List CommandReceipt

def linkRequest (l : ProcessLinkRow) : LinkRequest :=
  ⟨l.id, l.channelId, l.nameSpace, l.definitionName, l.definitionVersion, l.initiatedBy,
    l.requestId⟩

def jobRequest (r : ProcessOutboxRow) : JobRequest := ⟨r.id, r.processLinkId, r.operation⟩

end Process

def ProcessDb.requests (db : ProcessDb) : Process.Requests :=
  ⟨db.links.map Process.linkRequest, db.outbox.map Process.jobRequest, db.receipts⟩

namespace Process

theorem updateOutbox_requests {id : OutboxId} {f : ProcessOutboxRow → ProcessOutboxRow}
    (hf : ∀ r, jobRequest (f r) = jobRequest r) :
    Frame requests (updateOutbox id f) := by
  refine write fun db => ?_
  simp only [requests, map_key_ite hf]

theorem updateLink_requests {id : ProcessLinkId} {f : ProcessLinkRow → ProcessLinkRow}
    (hf : ∀ l, linkRequest (f l) = linkRequest l) :
    Frame requests (updateLink id f) := by
  refine write fun db => ?_
  simp only [requests, map_key_ite hf]

theorem insertEvent_frame {γ : Type} {view : ProcessDb → γ} {row : ProcessEventRow}
    (hview : ∀ db events, view { db with events := events } = view db) :
    Frame view (insertEvent row) := by
  refine .look fun present => .ite .pure ?_
  intro db u db' h
  obtain ⟨-, -, rfl⟩ := insert_ok.1 h
  exact hview db _

theorem leaseNext_requests {leaseFor : Int} {now : Time} :
    Frame requests (leaseNext leaseFor now) := by
  refine look fun row => ?_
  cases row with
  | none => exact .pure
  | some row =>
    refine look fun updated => ?_
    refine bind (updateOutbox_requests fun r => ?_) fun _ => .pure
    unfold lease
    split
    · rfl
    · rfl

variable {job : OutboxJob} {env : SettleEnv}

theorem completeOperation_requests {eventType : String} {payload : Json} :
    Frame requests (completeOperation job eventType payload env) :=
  look fun _ =>
    bind (insertEvent_frame fun _ _ => rfl) fun _ => updateOutbox_requests fun _ => rfl

theorem completeStart_requests {result : StartedProcess} :
    Frame requests (completeStart job result env) := by
  refine look fun clash => ?_
  refine check ?_
  refine bind (updateLink_requests fun l => ?_) fun _ => ?_
  · split
    · rfl
    · rfl
  refine look fun actor => ?_
  exact bind (insertEvent_frame fun _ _ => rfl) fun _ => updateOutbox_requests fun _ => rfl

theorem reschedule_requests {error : ProcessError} {delay : Int} :
    Frame requests (reschedule job error delay env) := by
  refine bind (updateOutbox_requests fun _ => rfl) fun _ => ?_
  refine ite ?_ pure
  refine bind (updateLink_requests fun _ => rfl) fun _ => ?_
  exact look fun _ => insertEvent_frame fun _ _ => rfl

theorem settle_requests {operation : OutboxOperation} {outcome : Outcome operation} :
    Frame requests (settle job outcome env) := by
  cases outcome with
  | started result => exact completeStart_requests
  | correlated | inspected => exact completeOperation_requests
  | failed error => exact reschedule_requests

/-! ### Commands and the rows they leave -/

inductive LinkCommand
  | correlate (command : EnqueueCorrelation)
  | inspect (command : EnqueueInspection)

namespace LinkCommand

def kind : LinkCommand → CommandType
  | .correlate _ => .correlate
  | .inspect _ => .inspect

def link : LinkCommand → ProcessLinkId
  | .correlate c => c.processLinkId
  | .inspect c => c.processLinkId

def actor : LinkCommand → UserId
  | .correlate c => c.actor
  | .inspect c => c.actor

def requestId : LinkCommand → String
  | .correlate c => c.requestId
  | .inspect c => c.requestId

def admission : LinkCommand → ProcessDb → Except RepositoryError OutboxOperation
  | .correlate c => admitCorrelation c
  | .inspect c => admitInspection c

def enqueue : LinkCommand → Generated → ProcessSql OutboxId
  | .correlate c => enqueueCorrelation c
  | .inspect c => enqueueInspection c

theorem enqueue_eq (c : LinkCommand) :
    c.enqueue = enqueueCommand c.kind c.link c.actor c.requestId c.admission := by
  cases c with
  | correlate | inspect => rfl

/-- The operation is the one this command asks for. -/
def Performs : LinkCommand → OutboxOperation → Prop
  | .correlate c, operation => ∃ nameSpace, operation = correlateOperation c nameSpace
  | .inspect _, operation => ∃ instanceId, operation = .inspect instanceId

theorem eq_of_performs {c c' : LinkCommand} (h : c.Performs operation) (h' : c'.Performs operation)
    (hlink : c.link = c'.link)
    (hactor : c.actor = c'.actor) (hid : c.requestId = c'.requestId) : c = c' := by
  cases c with
  | correlate c =>
    obtain ⟨space, rfl⟩ := h
    cases c' with
    | correlate c' =>
      obtain ⟨space', heq⟩ := h'
      injection heq with hmessage
      injection hmessage with _ _ _ hpayload
      cases c
      cases c'
      simp_all [link, actor, requestId]
    | inspect c' =>
      obtain ⟨instanceId, heq⟩ := h'
      cases heq
  | inspect c =>
    obtain ⟨instanceId, rfl⟩ := h
    cases c' with
    | correlate c' =>
      obtain ⟨space, heq⟩ := h'
      cases heq
    | inspect c' =>
      cases c
      cases c'
      simp_all [link, actor, requestId]

end LinkCommand

inductive Command
  | start (command : EnqueueProcessStart)
  | about (command : LinkCommand)

inductive Reply
  | link (link : ProcessLink)
  | outbox (id : OutboxId)

/-- Starts and the commands about a link have request ids of their own. -/
inductive Key
  | start (actor : UserId) (requestId : String)
  | about (actor : UserId) (requestId : String)
deriving DecidableEq

def Command.key : Command → Key
  | .start c => .start c.actor c.requestId
  | .about c => .about c.actor c.requestId

def Command.exec : Command → Generated → ProcessSql Reply
  | .start c, gen => do
    let link ← enqueueStart c gen
    pure (.link link)
  | .about c, gen => do
    let id ← c.enqueue gen
    pure (.outbox id)

def startRequest (c : EnqueueProcessStart) (id : ProcessLinkId) : LinkRequest :=
  ⟨id, c.channelId, c.nameSpace, c.definitionName, c.definitionVersion, c.actor, c.requestId⟩

def LinkCommand.receipt (c : LinkCommand) (job : OutboxId) : CommandReceipt :=
  ⟨c.actor, c.requestId, c.link, job, c.kind⟩

/-- The tables hold the rows this command leaves when it is first accepted. -/
def Records (q : Requests) : Command → Prop
  | .start c => ∃ link job, startRequest c link ∈ q.links ∧
      ⟨job, link, startOperation c⟩ ∈ q.jobs
  | .about c => ∃ job operation, c.Performs operation ∧ c.receipt job ∈ q.receipts ∧
      ⟨job, c.link, operation⟩ ∈ q.jobs

def Taken (q : Requests) : Key → Prop
  | .start actor requestId => ∃ l ∈ q.links, l.initiatedBy = actor ∧ l.requestId = requestId
  | .about actor requestId => ∃ r ∈ q.receipts, r.actorId = actor ∧ r.requestId = requestId

theorem Records.taken {q : Requests} {c : Command} (h : Records q c) : Taken q c.key := by
  cases c with
  | start c =>
    obtain ⟨link, job, hl, -⟩ := h
    exact ⟨_, hl, rfl, rfl⟩
  | about c =>
    obtain ⟨job, _, -, hr, -⟩ := h
    exact ⟨_, hr, rfl, rfl⟩

/-- The constraints of the tables, and one start for each link. -/
structure WellKept (q : Requests) : Prop where
  linkIds : (q.links.map (·.id)).Nodup
  linkKeys : (q.links.map fun l => (l.initiatedBy, l.requestId)).Nodup
  jobIds : (q.jobs.map (·.id)).Nodup
  receiptKeys : (q.receipts.map fun r => (r.actorId, r.requestId)).Nodup
  linked : ∀ j ∈ q.jobs, ∃ l ∈ q.links, l.id = j.processLinkId
  oneStart : ∀ j ∈ q.jobs, ∀ j' ∈ q.jobs, ∀ p p', j.processLinkId = j'.processLinkId →
    j.operation = .start p → j'.operation = .start p' → p = p'

theorem WellKept.eq_of_records {q : Requests} (hq : WellKept q) {c c' : Command}
    (h : Records q c) (h' : Records q c') (hkey : c.key = c'.key) : c = c' := by
  cases c with
  | start c =>
    cases c' with
    | start c' =>
      obtain ⟨link, job, hl, hj⟩ := h
      obtain ⟨link', job', hl', hj'⟩ := h'
      injection hkey with hactor hid
      have heq := eq_of_key_eq hq.linkKeys hl hl' (by simp [startRequest, hactor, hid])
      injection heq with hlink hchannel hspace hname hversion
      have hstart := hq.oneStart _ hj _ hj' _ _ hlink rfl rfl
      injection hstart with _ _ _ hmeta
      cases c
      cases c'
      simp_all
    | about => cases hkey
  | about c =>
    cases c' with
    | start => cases hkey
    | about c' =>
      obtain ⟨job, operation, hp, hr, hj⟩ := h
      obtain ⟨job', operation', hp', hr', hj'⟩ := h'
      injection hkey with hactor hid
      -- Two receipts of one key are one, and so are the rows of the outbox they name.
      have heq := eq_of_key_eq hq.receiptKeys hr hr' (by simp [LinkCommand.receipt, hactor, hid])
      injection heq with _ _ hlink hjob
      have hrow := eq_of_key_eq hq.jobIds hj hj' hjob
      injection hrow with _ _ hop
      subst hop
      rw [LinkCommand.eq_of_performs hp hp' hlink hactor hid]

/-! ### What a command that answers has done -/

def MayAsk (db : ProcessDb) : Command → Prop
  | .start c => db.chat.inChannel c.channelId c.actor = true
  | .about c => ∃ l ∈ db.links, l.id = c.link ∧ db.chat.inChannel l.channelId c.actor = true

/-- The command is answered from the rows of its request id. -/
def Replays (db : ProcessDb) : Command → Prop
  | .start c => Policy.canStartProcess (db.plannerRole? c.channelId c.actor) = true ∧
      ∃ l, db.startedBy? c.actor c.requestId = some l ∧ l.channelId = c.channelId
  | .about c => ∃ r, db.receipt? c.actor c.requestId = some r

inductive Adds (q : Requests) (gen : Generated) : Command → Requests → Prop
  | start {c : EnqueueProcessStart} (hlink : ∀ l ∈ q.links, l.id ≠ gen.linkId)
      (hjob : ∀ j ∈ q.jobs, j.id ≠ gen.outboxId) :
      Adds q gen (.start c) ⟨q.links ++ [startRequest c gen.linkId],
        q.jobs ++ [⟨gen.outboxId, gen.linkId, startOperation c⟩], q.receipts⟩
  | about {c : LinkCommand} {operation : OutboxOperation} (hop : c.Performs operation)
      (hlink : ∃ l ∈ q.links, l.id = c.link) (hjob : ∀ j ∈ q.jobs, j.id ≠ gen.outboxId) :
      Adds q gen (.about c) ⟨q.links, q.jobs ++ [⟨gen.outboxId, c.link, operation⟩],
        q.receipts ++ [c.receipt gen.outboxId]⟩

variable {operation : OutboxOperation} {u : UserId} {role : MembershipRole}

theorem inChannel_of_channelRole? {db : Db} {c : ChannelId}
    (h : db.channelRole? c u = some role) : db.inChannel c u = true := by
  obtain ⟨row, hrow, -⟩ := Option.map_eq_some_iff.1 h
  have hkey : row.channelId = c ∧ row.userId = u := by simpa using find?_some hrow
  refine any_eq_true.2 ⟨row, mem_of_find?_eq_some hrow, ?_⟩
  simpa using hkey

theorem inChannel_of_plannerRole? {db : ProcessDb} {c : ChannelId}
    (h : db.plannerRole? c u = some role) : db.chat.inChannel c u = true := by
  unfold plannerRole? at h
  split at h
  · exact inChannel_of_channelRole? h
  · cases h

theorem mem_of_linkAccess? {db : ProcessDb} {link : ProcessLinkId} {row : ProcessLinkRow}
    (h : db.linkAccess? link u = some (row, role)) :
    row ∈ db.links ∧ row.id = link ∧ db.chat.inChannel row.channelId u = true := by
  simp only [linkAccess?, Option.bind_eq_bind, Option.bind_eq_some_iff, Option.pure_def,
    Option.some.injEq, Prod.mk.injEq] at h
  obtain ⟨row', hfind, role', hrole, rfl, rfl⟩ := h
  exact ⟨mem_of_find?_eq_some hfind, by simpa using find?_some hfind,
    inChannel_of_plannerRole? hrole⟩

theorem LinkCommand.admission_ok {c : LinkCommand} {db : ProcessDb}
    (h : c.admission db = .ok operation) : c.Performs operation ∧
      ∃ l ∈ db.links, l.id = c.link ∧ db.chat.inChannel l.channelId c.actor = true := by
  cases c with
  | correlate c =>
    simp only [LinkCommand.admission, admitCorrelation] at h
    split at h
    · cases h
    · next row role haccess =>
      split at h
      · rw [← Except.ok.inj h]
        exact ⟨⟨row.nameSpace, rfl⟩, row, mem_of_linkAccess? haccess⟩
      · cases h
  | inspect c =>
    simp only [LinkCommand.admission, admitInspection] at h
    split at h
    · cases h
    · next row role haccess =>
      split at h
      · split at h
        · cases h
        · next instanceId _ =>
          rw [← Except.ok.inj h]
          exact ⟨⟨instanceId, rfl⟩, row, mem_of_linkAccess? haccess⟩
      · cases h

variable {actor : UserId} {requestId : String}

theorem taken_start_iff {db : ProcessDb} :
    Taken db.requests (.start actor requestId) ↔
      ∃ l, db.startedBy? actor requestId = some l := by
  constructor
  · rintro ⟨_, hl, hactor, hid⟩
    obtain ⟨l, hmem, rfl⟩ := mem_map.1 hl
    apply Option.isSome_iff_exists.1
    rw [startedBy?, find?_isSome]
    exact ⟨l, hmem, by simpa using ⟨hactor, hid⟩⟩
  · rintro ⟨l, hl⟩
    have hkey : l.initiatedBy = actor ∧ l.requestId = requestId := by
      simpa using find?_some hl
    exact ⟨linkRequest l, mem_map_of_mem (mem_of_find?_eq_some hl), hkey⟩

theorem taken_about_iff {db : ProcessDb} :
    Taken db.requests (.about actor requestId) ↔
      ∃ r, db.receipt? actor requestId = some r := by
  constructor
  · rintro ⟨r, hr, hactor, hid⟩
    apply Option.isSome_iff_exists.1
    rw [receipt?, find?_isSome]
    exact ⟨r, hr, by simpa using ⟨hactor, hid⟩⟩
  · rintro ⟨r, hr⟩
    have hkey : r.actorId = actor ∧ r.requestId = requestId := by
      simpa using find?_some hr
    exact ⟨r, mem_of_find?_eq_some hr, hkey⟩

theorem Replays.taken {db : ProcessDb} {c : Command} (h : Replays db c) :
    Taken db.requests c.key := by
  cases c with
  | start c =>
    obtain ⟨-, l, hl, -⟩ := h
    exact taken_start_iff.2 ⟨l, hl⟩
  | about c => exact taken_about_iff.2 h

theorem Replays.exec {db : ProcessDb} {c : Command} (h : Replays db c) {gen : Generated} :
    ∃ reply, (c.exec gen).run db = .ok (reply, db) := by
  cases c with
  | start c =>
    obtain ⟨hpolicy, l, hl, hchannel⟩ := h
    refine ⟨.link { l.toProcessLink with channelId := c.channelId, initiatedBy := c.actor }, ?_⟩
    simp only [Command.exec, enqueueStart, answers]
    refine ⟨hpolicy, ?_⟩
    rw [hl]
    simp [hchannel, answers]
  | about c =>
    obtain ⟨r, hr⟩ := h
    refine ⟨.outbox r.outboxId, ?_⟩
    simp [Command.exec, LinkCommand.enqueue_eq, enqueueCommand, hr]

theorem canStartProcess_inChannel {db : ProcessDb} {c : ChannelId}
    (h : Policy.canStartProcess (db.plannerRole? c u) = true) : db.chat.inChannel c u = true := by
  cases hrole : db.plannerRole? c u with
  | none =>
    rw [hrole] at h
    cases h
  | some role => exact inChannel_of_plannerRole? hrole

theorem fresh_job {id : OutboxId} {db : ProcessDb}
    (h : (db.outbox.any fun r => r.id = id) = false) :
    ∀ j ∈ db.requests.jobs, j.id ≠ id := by
  intro j hj
  obtain ⟨r, hr, rfl⟩ := mem_map.1 hj
  have hne : r.id ≠ id := by simpa using any_eq_false.1 h r hr
  exact hne

theorem enqueueStart_ok {c : EnqueueProcessStart} {gen : Generated} {db db' : ProcessDb}
    {link : ProcessLink} (h : (enqueueStart c gen).run db = .ok (link, db')) :
    MayAsk db (.start c) ∧ (Replays db (.start c) ∧ db' = db ∨
      ¬ Taken db.requests (Command.start c).key ∧
        Adds db.requests gen (.start c) db'.requests) := by
  simp only [enqueueStart, answers] at h
  obtain ⟨hpolicy, h⟩ := h
  refine ⟨canStartProcess_inChannel hpolicy, ?_⟩
  split at h
  · next l hfound =>
    simp only [answers] at h
    obtain ⟨hchannel, -, rfl⟩ := h
    exact .inl ⟨⟨hpolicy, l, hfound, hchannel⟩, rfl⟩
  · next hfound =>
    simp only [insertLink, insertOutbox, insert, id_eq, answers] at h
    obtain ⟨-, hlink, -, hjob, -, -, rfl⟩ := h
    refine .inr ⟨fun htaken => ?_, ?_⟩
    · obtain ⟨l, hl⟩ := taken_start_iff.1 htaken
      rw [hfound] at hl
      cases hl
    · simp only [requests, map_append, map_cons, map_nil]
      refine Adds.start ?_ (fresh_job hjob)
      intro q hq
      obtain ⟨l, hl, rfl⟩ := mem_map.1 hq
      intro heq
      have hnot := any_eq_false.1 hlink l hl
      rw [decide_eq_true_eq] at hnot
      exact hnot (.inl heq)

theorem LinkCommand.enqueue_ok {c : LinkCommand} {gen : Generated} {id : OutboxId}
    {db db' : ProcessDb}
    (h : (c.enqueue gen).run db = .ok (id, db')) :
    Replays db (.about c) ∧ db' = db ∨
      MayAsk db (.about c) ∧ ¬ Taken db.requests (Command.about c).key ∧
        Adds db.requests gen (.about c) db'.requests := by
  simp only [LinkCommand.enqueue_eq, enqueueCommand, answers] at h
  split at h
  · next r hfound =>
    obtain ⟨-, rfl⟩ := pure_ok.1 h
    exact .inl ⟨⟨r, hfound⟩, rfl⟩
  · next hfound =>
    simp only [insertOutbox, insertReceipt, insert, id_eq, answers] at h
    obtain ⟨operation, hadmission, hjob, -, -, -, -, rfl⟩ := h
    obtain ⟨hop, l, hl, hid, hmember⟩ := LinkCommand.admission_ok hadmission
    refine .inr ⟨⟨l, hl, hid, hmember⟩, fun htaken => ?_, ?_⟩
    · obtain ⟨r, hr⟩ := taken_about_iff.1 htaken
      rw [hfound] at hr
      cases hr
    · simp only [requests, map_append, map_cons, map_nil]
      exact Adds.about hop ⟨linkRequest l, mem_map_of_mem hl, hid⟩ (fresh_job hjob)

/-- A command that answers is answered from its request id, or it is new and its actor may ask
it. -/
theorem Command.exec_ok {c : Command} {gen : Generated} {reply : Reply} {db db' : ProcessDb}
    (h : (c.exec gen).run db = .ok (reply, db')) : Replays db c ∧ db' = db ∨
      MayAsk db c ∧ ¬ Taken db.requests c.key ∧ Adds db.requests gen c db'.requests := by
  cases c with
  | start c =>
    obtain ⟨link, h, -⟩ := bind_pure_ok.1 h
    obtain ⟨hmay, h | h⟩ := enqueueStart_ok h
    · exact .inl h
    · exact .inr ⟨hmay, h⟩
  | about c =>
    obtain ⟨id, h, -⟩ := bind_pure_ok.1 h
    exact LinkCommand.enqueue_ok h

/-! ### Adding rows -/

namespace Adds

variable {q q' : Requests} {gen : Generated} {c : Command}

section

variable (h : Adds q gen c q')

include h

theorem links : ∃ ls, q'.links = q.links ++ ls := by
  cases h with
  | start => exact ⟨_, rfl⟩
  | about => exact ⟨[], (append_nil _).symm⟩

theorem receipts : ∃ rs, q'.receipts = q.receipts ++ rs := by
  cases h with
  | start => exact ⟨[], (append_nil _).symm⟩
  | about => exact ⟨_, rfl⟩

theorem jobs : (∀ j ∈ q.jobs, j.id ≠ gen.outboxId) ∧
    ∃ j, j.id = gen.outboxId ∧ q'.jobs = q.jobs ++ [j] := by
  cases h with
  | start _ hjob => exact ⟨hjob, _, rfl, rfl⟩
  | about _ _ hjob => exact ⟨hjob, _, rfl, rfl⟩

theorem records : Records q' c := by
  cases h with
  | start => exact ⟨gen.linkId, gen.outboxId, by simp, by simp⟩
  | about hop => exact ⟨gen.outboxId, _, hop, by simp, by simp⟩

theorem records_mono {d : Command} (hd : Records q d) : Records q' d := by
  obtain ⟨ls, hls⟩ := h.links
  obtain ⟨rs, hrs⟩ := h.receipts
  obtain ⟨-, j, -, hj⟩ := h.jobs
  cases d with
  | start d =>
    obtain ⟨link, job, hlink, hjob⟩ := hd
    exact ⟨link, job, hls ▸ mem_append_left _ hlink, hj ▸ mem_append_left _ hjob⟩
  | about d =>
    obtain ⟨job, operation, hop, hr, hjob⟩ := hd
    exact ⟨job, operation, hop, hrs ▸ mem_append_left _ hr, hj ▸ mem_append_left _ hjob⟩

theorem taken {key : Key} (hkey : Taken q' key) : Taken q key ∨ key = c.key := by
  cases h with
  | start =>
    cases key with
    | start actor requestId =>
      obtain ⟨l, hl, rfl, rfl⟩ := hkey
      rcases mem_append.1 hl with hl | hl
      · exact .inl ⟨l, hl, rfl, rfl⟩
      · rw [mem_singleton.1 hl]
        exact .inr rfl
    | about actor requestId => exact .inl hkey
  | about =>
    cases key with
    | start actor requestId => exact .inl hkey
    | about actor requestId =>
      obtain ⟨r, hr, rfl, rfl⟩ := hkey
      rcases mem_append.1 hr with hr | hr
      · exact .inl ⟨r, hr, rfl, rfl⟩
      · rw [mem_singleton.1 hr]
        exact .inr rfl

theorem wellKept (hfree : ¬ Taken q c.key) (hq : WellKept q) : WellKept q' := by
  cases h with
  | @start c hlink hjob =>
    have hnot : ∀ l ∈ q.links, (l.initiatedBy, l.requestId) ≠ (c.actor, c.requestId) := by
      intro l hl heq
      exact hfree ⟨l, hl, congrArg Prod.fst heq, congrArg Prod.snd heq⟩
    -- No row of the outbox belongs to the new link yet.
    have hnone : ∀ j ∈ q.jobs, j.processLinkId ≠ gen.linkId := by
      intro j hj heq
      obtain ⟨l, hl, hid⟩ := hq.linked j hj
      exact hlink l hl (hid.trans heq)
    refine ⟨nodup_append_single hq.linkIds hlink, nodup_append_single hq.linkKeys hnot,
      nodup_append_single hq.jobIds hjob, hq.receiptKeys, ?_, ?_⟩
    · intro j hj
      rcases mem_append.1 hj with hj | hj
      · obtain ⟨l, hl, hid⟩ := hq.linked j hj
        exact ⟨l, mem_append_left _ hl, hid⟩
      · rw [mem_singleton.1 hj]
        exact ⟨_, mem_append_right _ (mem_singleton_self _), rfl⟩
    · intro j hj j' hj' p p' hsame hp hp'
      rcases mem_append.1 hj with hj | hj
      · rcases mem_append.1 hj' with hj' | hj'
        · exact hq.oneStart j hj j' hj' p p' hsame hp hp'
        · rw [mem_singleton.1 hj'] at hsame
          exact (hnone j hj hsame).elim
      · rcases mem_append.1 hj' with hj' | hj'
        · rw [mem_singleton.1 hj] at hsame
          exact (hnone j' hj' hsame.symm).elim
        · rw [mem_singleton.1 hj] at hp
          rw [mem_singleton.1 hj'] at hp'
          exact OutboxOperation.start.inj (hp.symm.trans hp')
  | @about c operation hop hlink hjob =>
    have hnot : ∀ r ∈ q.receipts, (r.actorId, r.requestId) ≠ (c.actor, c.requestId) := by
      intro r hr heq
      exact hfree ⟨r, hr, congrArg Prod.fst heq, congrArg Prod.snd heq⟩
    -- The new row is not a start.
    have hother : ∀ p, operation ≠ .start p := by
      intro p hp
      cases c with
      | correlate | inspect =>
        obtain ⟨_, rfl⟩ := hop
        cases hp
    refine ⟨hq.linkIds, hq.linkKeys, nodup_append_single hq.jobIds hjob,
      nodup_append_single hq.receiptKeys hnot, ?_, ?_⟩
    · intro j hj
      rcases mem_append.1 hj with hj | hj
      · exact hq.linked j hj
      · rw [mem_singleton.1 hj]
        exact hlink
    · intro j hj j' hj' p p' hsame hp hp'
      rcases mem_append.1 hj with hj | hj
      · rcases mem_append.1 hj' with hj' | hj'
        · exact hq.oneStart j hj j' hj' p p' hsame hp hp'
        · rw [mem_singleton.1 hj'] at hp'
          exact (hother p' hp').elim
      · rw [mem_singleton.1 hj] at hp
        exact (hother p hp).elim

end

end Adds

/-! ### Runs -/

inductive WorkerCall
  | lease (leaseFor : Int) (now : Time)
  | settle (job : OutboxJob) (operation : OutboxOperation) (outcome : Outcome operation)
      (env : SettleEnv)

def WorkerCall.exec : WorkerCall → ProcessSql Unit
  | .lease leaseFor now => do
    let _ ← leaseNext leaseFor now
    pure ()
  | .settle job _ outcome env => Process.settle job outcome env

theorem WorkerCall.requests (call : WorkerCall) : Frame requests call.exec := by
  cases call with
  | lease leaseFor now =>
    exact bind (leaseNext_requests) fun _ => .pure
  | settle job operation outcome env => exact settle_requests

def created (db db' : ProcessDb) : List OutboxId :=
  (db'.requests.jobs.map (·.id)).filter fun id => id ∉ db.requests.jobs.map (·.id)

theorem created_of_eq {db db' : ProcessDb} (h : db'.requests = db.requests) :
    created db db' = [] := by
  rw [created, h, filter_eq_nil_iff]
  intro id hid
  simpa using hid

inductive Event
  | asked (command : Command) (answer : Except RepositoryError Reply) (created : List OutboxId)
  | aside

/-- Clients ask, workers work, and the chat changes: roles, features and bindings among it. -/
inductive Step : ProcessDb → Event → ProcessDb → Prop
  | ask (db : ProcessDb) (c : Command) (gen : Generated) :
      Step db (.asked c ((c.exec gen).commit db).1 (created db ((c.exec gen).commit db).2))
        ((c.exec gen).commit db).2
  | work (db : ProcessDb) (call : WorkerCall) : Step db .aside (call.exec.commit db).2
  | change (db : ProcessDb) (chat : Db) (features : List CircleFeatureRow)
      (bindings : List ProcessBindingRow) :
      Step db .aside { db with chat := chat, circleFeatures := features, bindings := bindings }

def Event.accepted? : Event → Option Command
  | .asked c (.ok _) _ => some c
  | .asked _ (.error _) _ => none
  | .aside => none

/-- The rows that came into the outbox with a call under this request id. -/
def Event.createdFor (key : Key) : Event → List OutboxId
  | .asked c _ ids => if c.key = key then ids else []
  | .aside => []

def accepted (past : List Event) : List Command := past.filterMap Event.accepted?

def createdFor (key : Key) (past : List Event) : List OutboxId :=
  past.flatMap (Event.createdFor key)

/-- What a client may expect of a call: the request id stands for one command, its reuse for
another one fails and changes nothing, it makes one row of the outbox at most, and only members
of the channel are answered. -/
structure Honoured (past : List Event) (db : ProcessDb) (c : Command)
    (answer : Except RepositoryError Reply) (ids : List OutboxId) (db' : ProcessDb) : Prop where
  same : ∀ reply, answer = .ok reply → ∀ d ∈ accepted past, d.key = c.key → d = c
  refused : (∃ d ∈ accepted past, d.key = c.key ∧ d ≠ c) →
    (∃ e, answer = .error e) ∧ db' = db
  once : (createdFor c.key (past ++ [.asked c answer ids])).length ≤ 1
  access : ∀ reply, answer = .ok reply → MayAsk db c

/-- A call that is answered from its request id is the command the rows are of, by somebody who
may still ask it. -/
def Admissible (db : ProcessDb) : Event → Prop
  | .asked c _ _ => Replays db c → Records db.requests c ∧ MayAsk db c
  | .aside => True

/-- What the tables know of the calls so far. -/
structure Kept (past : List Event) (db : ProcessDb) : Prop where
  tables : WellKept db.requests
  recorded : ∀ c ∈ accepted past, Records db.requests c
  source : ∀ key, Taken db.requests key → ∃ c ∈ accepted past, c.key = key
  once : ∀ key, (createdFor key past).length ≤ 1
  none : ∀ key, ¬ Taken db.requests key → createdFor key past = []

theorem created_of_adds {db db' : ProcessDb} {gen : Generated} {c : Command}
    (h : Adds db.requests gen c db'.requests) : created db db' = [gen.outboxId] := by
  obtain ⟨hfresh, j, hj, hjobs⟩ := h.jobs
  have hnew : gen.outboxId ∉ db.requests.jobs.map (·.id) := by
    intro hmem
    obtain ⟨r, hr, hid⟩ := mem_map.1 hmem
    exact hfresh r hr hid
  have hold : (db.requests.jobs.map (·.id)).filter
      (fun id => id ∉ db.requests.jobs.map (·.id)) = [] := by
    rw [filter_eq_nil_iff]
    intro id hid
    simpa using hid
  rw [created, hjobs, map_append, filter_append, hold, map_cons, map_nil, hj]
  simpa using hnew

variable {past : List Event} {e : Event}

@[simp] theorem accepted_append :
    accepted (past ++ [e]) = accepted past ++ e.accepted?.toList := by
  rw [accepted, filterMap_append]
  cases h : e.accepted? with
  | none | some => simp [accepted, h]

@[simp] theorem createdFor_append (key : Key) :
    createdFor key (past ++ [e]) = createdFor key past ++ e.createdFor key := by
  simp [createdFor]

theorem Command.commit_cases (c : Command) (gen : Generated) (db : ProcessDb) :
    (∃ e, (c.exec gen).commit db = (.error e, db)) ∨
    (∃ reply, (c.exec gen).commit db = (.ok reply, db) ∧ Replays db c) ∨
    ∃ reply db', (c.exec gen).commit db = (.ok reply, db') ∧ MayAsk db c ∧
      ¬ Taken db.requests c.key ∧ Adds db.requests gen c db'.requests := by
  rcases Txn.commit_cases (c.exec gen) db with ⟨reply, db', hrun, hcommit⟩ | ⟨e, -, hcommit⟩
  · rcases Command.exec_ok hrun with ⟨hreplays, rfl⟩ | hnew
    · exact .inr (.inl ⟨reply, hcommit, hreplays⟩)
    · exact .inr (.inr ⟨reply, db', hcommit, hnew⟩)
  · exact .inl ⟨e, hcommit⟩

namespace Kept

variable {db db' : ProcessDb}

theorem unchanged (h : Kept past db) (hreq : db'.requests = db.requests)
    (hacc : ∀ c, e.accepted? = some c → Records db.requests c)
    (hnone : ∀ key, e.createdFor key = []) : Kept (past ++ [e]) db' := by
  refine ⟨hreq ▸ h.tables, ?_, ?_, ?_, ?_⟩
  · intro c hc
    rw [accepted_append, mem_append, Option.mem_toList] at hc
    rw [hreq]
    rcases hc with hc | hc
    · exact h.recorded c hc
    · exact hacc c hc
  · intro key hkey
    rw [hreq] at hkey
    obtain ⟨c, hc, heq⟩ := h.source key hkey
    rw [accepted_append]
    exact ⟨c, mem_append_left _ hc, heq⟩
  · intro key
    rw [createdFor_append, hnone, append_nil]
    exact h.once key
  · intro key hkey
    rw [hreq] at hkey
    rw [createdFor_append, hnone, append_nil]
    exact h.none key hkey

theorem added (h : Kept past db) {gen : Generated} {c : Command} (hfree : ¬ Taken db.requests c.key)
    (hadds : Adds db.requests gen c db'.requests) :
    Kept (past ++ [.asked c (.ok reply) (created db db')]) db' := by
  have hids := created_of_adds hadds
  refine ⟨hadds.wellKept hfree h.tables, ?_, ?_, ?_, ?_⟩
  · intro d hd
    rw [accepted_append, mem_append] at hd
    rcases hd with hd | hd
    · exact hadds.records_mono (h.recorded d hd)
    · rw [mem_singleton.1 hd]
      exact hadds.records
  · intro key hkey
    rw [accepted_append]
    rcases hadds.taken hkey with hkey | rfl
    · obtain ⟨d, hd, heq⟩ := h.source key hkey
      exact ⟨d, mem_append_left _ hd, heq⟩
    · exact ⟨c, mem_append_right _ (mem_singleton_self c), rfl⟩
  · intro key
    rw [createdFor_append, hids]
    by_cases hkey : c.key = key
    · subst hkey
      simp [h.none c.key hfree, Event.createdFor]
    · simpa [Event.createdFor, hkey] using h.once key
  · intro key hkey
    have hne : c.key ≠ key := by
      rintro rfl
      exact hkey hadds.records.taken
    have hbefore : ¬ Taken db.requests key := by
      intro htaken
      obtain ⟨d, hd, rfl⟩ := h.source key htaken
      exact hkey (hadds.records_mono (h.recorded d hd)).taken
    rw [createdFor_append, h.none key hbefore]
    simp [Event.createdFor, hne]

theorem step (h : Kept past db) (hadm : Admissible db e) (hstep : Step db e db') :
    Kept (past ++ [e]) db' := by
  cases hstep with
  | ask c gen =>
    rcases Command.commit_cases c gen db with ⟨e, hc⟩ | ⟨reply, hc, hreplays⟩ |
      ⟨reply, db', hc, -, hfree, hadds⟩
    · rw [hc]
      refine h.unchanged rfl ?_ ?_
      · intro d hd
        cases hd
      · intro key
        simp [Event.createdFor, created_of_eq]
    · rw [hc]
      refine h.unchanged rfl ?_ ?_
      · intro d hd
        cases hd
        exact (hadm hreplays).1
      · intro key
        simp [Event.createdFor, created_of_eq]
    · rw [hc]
      exact h.added hfree hadds
  | work call =>
    refine h.unchanged ?_ (fun c hc => by cases hc) fun key => rfl
    rcases commit_cases call.exec db with ⟨_, db', hrun, hcommit⟩ | ⟨e, -, hcommit⟩
    · rw [hcommit]
      exact call.requests hrun
    · rw [hcommit]
  | change chat features bindings =>
    exact h.unchanged rfl (fun c hc => by cases hc) fun key => rfl

end Kept

def Blank (db : ProcessDb) : Prop := db.links = [] ∧ db.outbox = [] ∧ db.receipts = []

theorem Blank.kept {db : ProcessDb} (h : Blank db) : Kept [] db := by
  obtain ⟨hlinks, houtbox, hreceipts⟩ := h
  have hq : db.requests = ⟨[], [], []⟩ := by
    rw [requests, hlinks, houtbox, hreceipts]
    rfl
  refine ⟨?_, ?_, ?_, ?_, ?_⟩
  · rw [hq]
    exact ⟨.nil, .nil, .nil, .nil, by simp, by simp⟩
  · intro c hc
    cases hc
  · intro key hkey
    rw [hq] at hkey
    cases key with
    | start | about => simp [Taken] at hkey
  · intro key
    exact Nat.zero_le 1
  · intro key _
    rfl

/-- After calls that were all admissible, the next one is honoured exactly if it is admissible
too. -/
theorem request_ids_are_honoured {db db' db'' : ProcessDb} {past : List Event} (hblank : Blank db)
    (hrun : Run (Guarded Admissible Step) db past db') {c : Command}
    {answer : Except RepositoryError Reply} {ids : List OutboxId}
    (hstep : Step db' (.asked c answer ids) db'') :
    Honoured past db' c answer ids db'' ↔ Admissible db' (.asked c answer ids) := by
  have hkept : Kept past db' := hrun.history (P := Kept)
    (fun _ _ _ _ hk hst => hk.step hst.1 hst.2) hblank.kept
  cases hstep with
  | ask _ gen =>
    constructor
    · intro hhon hreplays
      obtain ⟨reply, hexec⟩ := hreplays.exec
      have hok : ((c.exec gen).commit db').1 = .ok reply := by
        rw [commit_eq_ok.2 hexec]
      obtain ⟨d, hd, hkey⟩ := hkept.source _ hreplays.taken
      rw [← hhon.same reply hok d hd hkey]
      refine ⟨hkept.recorded d hd, ?_⟩
      rw [hhon.same reply hok d hd hkey]
      exact hhon.access reply hok
    · intro hadm
      have hnext := hkept.step hadm (Step.ask db' c gen)
      -- Whatever was accepted under one request id is recorded, so it is one command.
      have hsame : ∀ reply, ((c.exec gen).commit db').1 = .ok reply →
          ∀ d ∈ accepted past, d.key = c.key → d = c := by
        intro reply hok d hd hkey
        rw [hok] at hnext
        refine hnext.tables.eq_of_records (hnext.recorded d ?_) (hnext.recorded c ?_) hkey
        · exact accepted_append ▸ mem_append_left _ hd
        · exact accepted_append ▸ mem_append_right _ (mem_singleton_self c)
      refine ⟨hsame, ?_, hnext.once c.key, ?_⟩
      · rintro ⟨d, hd, hkey, hne⟩
        rcases commit_cases (c.exec gen) db' with ⟨reply, _, -, hc⟩ | ⟨e, -, hc⟩
        · exact (hne (hsame reply (by rw [hc]) d hd hkey)).elim
        · rw [hc]
          exact ⟨⟨e, rfl⟩, rfl⟩
      · intro reply hok
        rcases Command.commit_cases c gen db' with ⟨e, hc⟩ | ⟨_, -, hreplays⟩ | ⟨_, _, -, hmay, -⟩
        · rw [hc] at hok
          cases hok
        · exact (hadm hreplays).2
        · exact hmay

/-! ### A circle that plans a party -/

namespace Party

open Sproyt.Sample

def planning : ProcessDb where
  chat := Sproyt.Sample.chat
  circleFeatures := [⟨circle, "heart.event-planning", true⟩]
  bindings := [⟨room, "sproyt", "event-planning", "", true⟩]
  links := []
  outbox := []
  events := []
  receipts := []

def ids (n : Uuid) : Generated := ⟨⟨n⟩, ⟨n⟩, 0⟩

def party : EnqueueProcessStart :=
  ⟨room, alice, "r1", "sproyt", "event-planning", none, .string "fest"⟩

def tour : EnqueueProcessStart := { party with metadata := .string "tur" }

def vote : LinkCommand := .correlate ⟨⟨1⟩, alice, "r2", .bool true⟩

def look : LinkCommand := .inspect ⟨⟨1⟩, alice, "r2"⟩

def after (db : ProcessDb) (c : Command) (n : Uuid) : ProcessDb := ((c.exec (ids n)).commit db).2

def event (db : ProcessDb) (c : Command) (n : Uuid) : Event :=
  .asked c ((c.exec (ids n)).commit db).1 (created db (after db c n))

def started : ProcessDb := after planning (.start party) 1

def voted : ProcessDb := after started (.about vote) 2

def left : ProcessDb := { voted with chat := { voted.chat with channelMemberships := [] } }

end Party

open Party

/-- The start is repeated and honoured. -/
theorem repeated_start_is_honoured :
    ((Command.start party).exec (ids 3)).commit started = (.ok (.link (newLink party (ids 1)).1),
      started) ∧
    Honoured [event planning (.start party) 1] started (.start party)
      (((Command.start party).exec (ids 3)).commit started).1
      (created started (after started (.start party) 3)) (after started (.start party) 3) := by
  have hblank : Blank planning := ⟨rfl, rfl, rfl⟩
  have hfirst : Guarded Admissible Step planning (event planning (.start party) 1) started := by
    refine ⟨?_, Step.ask planning (.start party) (ids 1)⟩
    rintro ⟨-, l, hl, -⟩
    cases hl
  have hkept := hblank.kept.step hfirst.1 hfirst.2
  refine ⟨rfl, (request_ids_are_honoured hblank (Run.single hfirst)
    (Step.ask started (.start party) (ids 3))).2 fun _ => ⟨hkept.recorded _ ?_, ?_⟩⟩
  · exact mem_singleton_self _
  · exact (by decide +kernel : started.chat.inChannel Sample.room Sample.alice = true)

/-- A start with other metadata and an inspection under the id of a vote are accepted, and a vote
is repeated to somebody who has left the room. -/
theorem request_ids_are_conflated :
    Run Step planning [event planning (.start party) 1, event started (.start tour) 3,
        event started (.about vote) 2, event voted (.about look) 4, .aside,
        event left (.about vote) 5] left ∧
      (((Command.start tour).exec (ids 3)).commit started).1.isOk = true ∧
      Command.start party ∈ accepted [event planning (.start party) 1] ∧
      Command.start party ≠ .start tour ∧ (Command.start party).key = (Command.start tour).key ∧
      (((Command.about look).exec (ids 4)).commit voted).1.isOk = true ∧
      Command.about vote ∈ accepted [event started (.about vote) 2] ∧
      Command.about vote ≠ .about look ∧ (Command.about vote).key = (Command.about look).key ∧
      (((Command.about vote).exec (ids 5)).commit left).1.isOk = true ∧
      ¬ MayAsk left (.about vote) := by
  refine ⟨?_, by decide +kernel, ?_, ?_, rfl, by decide +kernel, ?_, ?_, rfl, by decide +kernel, ?_⟩
  · refine Run.cons (t := started) (Step.ask planning (.start party) (ids 1)) ?_
    refine Run.cons (t := started) (Step.ask started (.start tour) (ids 3)) ?_
    refine Run.cons (t := voted) (Step.ask started (.about vote) (ids 2)) ?_
    refine Run.cons (t := voted) (Step.ask voted (.about look) (ids 4)) ?_
    refine Run.cons (t := left) (Step.change voted _ _ _) ?_
    exact Run.single (Step.ask left (.about vote) (ids 5))
  · exact mem_singleton_self _
  · intro h
    injection h with h
    injection h with _ _ _ _ _ _ h
    injection h with h
    exact absurd h (by decide)
  · exact mem_singleton_self _
  · intro h
    injection h with h
    cases h
  · rintro ⟨l, -, -, h⟩
    cases h

end Process

end Sproyt
