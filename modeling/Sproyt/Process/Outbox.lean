import Sproyt.Process.Receipts

/-!
# Workers of the process outbox

Every replica runs the loop of `run_outbox`: lease a row for thirty seconds, call Heart, settle.
Between the lease and the settlement anything may happen, a takeover of the row by another
worker included. Each lease raises `attempts`, so a job with the attempts of its row is held
under the latest lease.
-/

namespace Sproyt

open List Txn

variable {leaseFor : Int} {now clock : Time} {r : ProcessOutboxRow} {env : SettleEnv}
    {store : ProcessDb}

namespace Process

variable {db db' : ProcessDb} {operation : OutboxOperation}

/-! ### What the two transactions do to the outbox -/

theorem leaseNext_ok {job : Option OutboxJob}
    (h : (leaseNext leaseFor now).run db = .ok (job, db')) :
    job = none ∧ db' = db ∨ ∃ row ∈ db.outbox, ready now row = true ∧
      job = some ⟨row.id, row.processLinkId, row.operation, row.attempts + 1⟩ ∧
      db' = { db with outbox := db.outbox.map fun r =>
        if r.id = row.id then lease leaseFor now r else r } := by
  simp only [leaseNext, answers] at h
  split at h
  · obtain ⟨rfl, rfl⟩ := pure_ok.1 h
    exact .inl ⟨rfl, rfl⟩
  · next row hfound =>
    simp only [updateOutbox, answers] at h
    obtain ⟨rfl, rfl⟩ := h
    obtain ⟨hmem, hready⟩ := mem_filter.1 (argmin_mem hfound)
    have hyes : (db.outbox.any fun r => r.id = row.id && (r.status = .pending || lapsed now r)) =
        true := by
      refine any_eq_true.2 ⟨row, hmem, ?_⟩
      simp only [ready, Bool.and_eq_true, Bool.or_eq_true] at hready
      simp only [Bool.and_eq_true, Bool.or_eq_true]
      exact ⟨by simp, hready.1.imp_right And.right⟩
    exact .inr ⟨row, hmem, hready, by rw [if_pos hyes], rfl⟩

def leasedRow (leaseFor : Int) (now : Time) (r : ProcessOutboxRow) : ProcessOutboxRow :=
  { r with status := .leased, leaseUntil := some (now + leaseFor), attempts := r.attempts + 1 }

theorem lease_of_ready (h : ready now r = true) :
    lease leaseFor now r = leasedRow leaseFor now r := by
  simp only [ready, Bool.and_eq_true, Bool.or_eq_true] at h
  refine if_pos ?_
  simp only [Bool.or_eq_true]
  exact h.1.imp_right And.right

@[simp] theorem lease_id : (lease leaseFor now r).id = r.id := by
  unfold lease
  split
  · rfl
  · rfl

def settledRow (job : OutboxJob) {operation : OutboxOperation} :
    Process.Outcome operation → SettleEnv → ProcessOutboxRow → ProcessOutboxRow
  | .started _, env => completed env.now
  | .correlated _ _, env => completed env.now
  | .inspected _ _ _, env => completed env.now
  | .failed error, env =>
    rescheduled (terminal job error) (env.now + backoff job.attempts) error

variable {job : OutboxJob} {outcome : Process.Outcome operation}

@[simp] theorem settledRow_id : (settledRow job outcome env r).id = r.id := by
  cases outcome with
  | _ => rfl

@[simp] theorem settledRow_attempts : (settledRow job outcome env r).attempts = r.attempts := by
  cases outcome with
  | _ => rfl

theorem insertEvent_outbox {row : ProcessEventRow} : Frame ProcessDb.outbox (insertEvent row) :=
  insertEvent_frame fun _ _ => rfl

theorem settle_outbox {u : Unit}
    (h : (settle job outcome env).run db = .ok (u, db')) : db'.outbox = db.outbox.map fun r =>
      if r.id = job.id then settledRow job outcome env r else r := by
  have hcomplete : ∀ {eventType payload} {db db' : ProcessDb} {u : Unit},
      (completeOperation job eventType payload env).run db = .ok (u, db') →
      db'.outbox = db.outbox.map fun r => if r.id = job.id then completed env.now r else r := by
    intro eventType payload db db' u h
    simp only [completeOperation, updateOutbox, answers] at h
    obtain ⟨_, mid, hevent, rfl⟩ := h
    rw [← insertEvent_outbox hevent]
  cases outcome with
  | started result =>
    simp only [settle, completeStart, updateLink, updateOutbox, answers] at h
    obtain ⟨-, _, mid, hevent, rfl⟩ := h
    simp only [insertEvent_outbox hevent]
    rfl
  | correlated | inspected => exact hcomplete h
  | failed error =>
    simp only [settle, reschedule, updateOutbox, answers] at h
    split at h
    · simp only [updateLink, answers] at h
      rw [insertEvent_outbox h]
      rfl
    · obtain ⟨-, rfl⟩ := pure_ok.1 h
      rfl

theorem exec_outbox {c : Command} {gen : Generated} {reply : Reply}
    (h : (c.exec gen).run db = .ok (reply, db')) : db'.outbox = db.outbox ∨
      ∃ row, (∀ r ∈ db.outbox, r.id ≠ row.id) ∧ db'.outbox = db.outbox ++ [row] := by
  have hfresh : ∀ {id : OutboxId}, (db.outbox.any fun r => r.id = id) = false →
      ∀ r ∈ db.outbox, r.id ≠ id := by
    intro id hany r hr
    simpa using any_eq_false.1 hany r hr
  cases c with
  | start c =>
    obtain ⟨link, h, -⟩ := bind_pure_ok.1 h
    simp only [enqueueStart, answers] at h
    replace h := h.2
    split at h
    · simp only [answers] at h
      exact .inl (by rw [h.2.2])
    · simp only [insertLink, insertOutbox, Process.insert, id_eq, answers] at h
      obtain ⟨-, -, -, hjob, -, -, rfl⟩ := h
      exact .inr ⟨_, hfresh hjob, rfl⟩
  | about c =>
    obtain ⟨job, h, -⟩ := bind_pure_ok.1 h
    simp only [LinkCommand.enqueue_eq, enqueueCommand, answers] at h
    split at h
    · obtain ⟨-, rfl⟩ := pure_ok.1 h
      exact .inl rfl
    · simp only [insertOutbox, insertReceipt, Process.insert, id_eq, answers] at h
      obtain ⟨_, -, hjob, -, -, -, -, rfl⟩ := h
      exact .inr ⟨_, hfresh hjob, rfl⟩

end Process

/-! ### Workers -/

structure Flight where
  job : OutboxJob
  leasedAt : Time

structure Fleet where
  store : ProcessDb
  flights : List Flight
  clock : Time

variable {f : Flight}

namespace Fleet

open Process

def leaseTime : Int := 30000000000

inductive Event
  | leased (now : Time) (job : Option OutboxJob)
  | settled (flight : Flight) (outcome : Process.Outcome flight.job.operation) (now : Time)
      (committed : Bool)
  | lost (flight : Flight)
  | elsewhere

/-- A lease, the settlement of a job with whatever Heart has answered, a worker that dies or
cannot reach the database, and the clients. -/
inductive Step : Fleet → Event → Fleet → Prop
  | lease {store store' : ProcessDb} {flights : List Flight} {clock : Time} (now : Time)
      {job : Option OutboxJob}
      (h : (leaseNext leaseTime now).commit store = (.ok job, store')) :
      Step ⟨store, flights, clock⟩ (.leased now job)
        ⟨store', flights ++ (job.map fun j => ⟨j, now⟩).toList, max clock now⟩
  | settle {store : ProcessDb} (before after : List Flight) {clock : Time} (flight : Flight)
      (outcome : Process.Outcome flight.job.operation) (env : SettleEnv) :
      Step ⟨store, before ++ flight :: after, clock⟩
        (.settled flight outcome env.now
          ((Process.settle flight.job outcome env).commit store).1.isOk)
        ⟨((Process.settle flight.job outcome env).commit store).2, before ++ after,
          max clock env.now⟩
  | lose {store : ProcessDb} (before after : List Flight) {clock : Time} (flight : Flight) :
      Step ⟨store, before ++ flight :: after, clock⟩ (.lost flight) ⟨store, before ++ after, clock⟩
  | ask {store : ProcessDb} {flights : List Flight} {clock : Time} (c : Process.Command)
      (gen : Generated) :
      Step ⟨store, flights, clock⟩ .elsewhere ⟨((c.exec gen).commit store).2, flights, clock⟩
  | change {store : ProcessDb} {flights : List Flight} {clock : Time} (chat : Db)
      (features : List CircleFeatureRow) (bindings : List ProcessBindingRow) :
      Step ⟨store, flights, clock⟩ .elsewhere
        ⟨{ store with chat := chat, circleFeatures := features, bindings := bindings }, flights,
          clock⟩

/-- Nobody reads a time before one that was read already, and a job is settled before its lease
ends. -/
def Punctual (s : Fleet) : Event → Prop
  | .leased now _ => s.clock ≤ now
  | .settled flight _ now _ => s.clock ≤ now ∧ now ≤ flight.leasedAt + leaseTime
  | .lost _ => True
  | .elsewhere => True

/-- The job is held under the latest lease of the row. -/
def Holds (job : OutboxJob) (r : ProcessOutboxRow) : Prop :=
  r.id = job.id ∧ r.status = .leased ∧ r.attempts = job.attempts

def isStart {operation : OutboxOperation} : Process.Outcome operation → Bool
  | .started _ => true
  | .correlated _ _ => false
  | .inspected _ _ _ => false
  | .failed _ => false

theorem settledRow_of_isStart {job : OutboxJob} {operation : OutboxOperation}
    {outcome : Process.Outcome operation} (h : isStart outcome = true) :
    (settledRow job outcome env r).status = .completed := by
  cases outcome with
  | started => rfl
  | correlated | inspected | failed => cases h

/-- A start with this id has been completed. -/
def Event.Activates (id : OutboxId) : Event → Prop
  | .settled flight outcome _ committed =>
    flight.job.id = id ∧ isStart outcome = true ∧ committed = true
  | .leased _ _ => False
  | .lost _ => False
  | .elsewhere => False

def Idle (s : Fleet) : Prop := s.flights = [] ∧ (s.store.outbox.map (·.id)).Nodup

def Held (f : Flight) (r : ProcessOutboxRow) : Prop :=
  Holds f.job r ∧ r.leaseUntil = some (f.leasedAt + leaseTime)

structure Sound (past : List Event) (s : Fleet) : Prop where
  ids : (s.store.outbox.map (·.id)).Nodup
  apart : (s.flights.map fun f => (f.job.id, f.job.attempts)).Nodup
  known : ∀ f ∈ s.flights, ∃ r ∈ s.store.outbox, r.id = f.job.id ∧ f.job.attempts ≤ r.attempts
  held : ∀ f ∈ s.flights, f.leasedAt + leaseTime < s.clock ∨ ∃ r ∈ s.store.outbox, Held f r
  done : ∀ id, (∃ e ∈ past, e.Activates id) →
    ∃ r ∈ s.store.outbox, r.id = id ∧ r.status = .completed

theorem lapsed_of_held (h : Held f r)
    (hready : ready now r = true) : f.leasedAt + leaseTime < now := by
  obtain ⟨⟨-, hleased, -⟩, huntil⟩ := h
  simp only [ready, hleased, lapsed, huntil, Bool.and_eq_true] at hready
  simpa using hready.1

namespace Sound

variable {e : Event}

variable {past : List Event} {s t : Fleet}

theorem row_eq (h : Sound past s) {r' : ProcessOutboxRow} (hr : r ∈ s.store.outbox)
    (hr' : r' ∈ s.store.outbox) (hid : r.id = r'.id) : r = r' :=
  Table.eq_of_key_eq h.ids hr hr' hid

/-- A punctual settlement finds its row held. -/
theorem holds (h : Sound past s) (hf : f ∈ s.flights)
    {outcome : Process.Outcome f.job.operation} {committed : Bool}
    (hp : Punctual s (.settled f outcome now committed)) : ∃ r ∈ s.store.outbox, Held f r := by
  rcases h.held f hf with hlate | hheld
  · exact absurd (Int.le_trans hp.1 hp.2) (Int.not_le.2 hlate)
  · exact hheld

theorem completed_stays (h : Sound past s) (hp : Punctual s e) (hstep : Step s e t)
    (hr : r ∈ s.store.outbox) (hdone : r.status = .completed) : r ∈ t.store.outbox := by
  cases hstep with
  | lease now hcommit =>
    rcases leaseNext_ok (commit_eq_ok.1 hcommit) with ⟨-, rfl⟩ | ⟨row, hrow, hready, -, rfl⟩
    · exact hr
    · refine mem_map.2 ⟨r, hr, if_neg fun hid => ?_⟩
      rw [← h.row_eq hr hrow hid, ready, hdone] at hready
      simp at hready
  | @settle store before after clock flight outcome env =>
    obtain ⟨row, hrow, ⟨hid, hleased, -⟩, -⟩ := h.holds (by simp) hp
    rcases commit_cases (Process.settle flight.job outcome env) store with
      ⟨_, store', hrun, hc⟩ | ⟨e, -, hc⟩
    · rw [hc]
      rw [settle_outbox hrun]
      refine mem_map.2 ⟨r, hr, if_neg fun hsame => ?_⟩
      rw [h.row_eq hr hrow (hsame.trans hid.symm), hleased] at hdone
      cases hdone
    · rw [hc]
      exact hr
  | lose => exact hr
  | @ask store flights clock c gen =>
    rcases commit_cases (c.exec gen) store with ⟨_, store', hrun, hc⟩ | ⟨e, -, hc⟩
    · rw [hc]
      rcases exec_outbox hrun with heq | ⟨row, -, heq⟩
      · exact heq ▸ hr
      · exact heq ▸ mem_append_left _ hr
    · rw [hc]
      exact hr
  | change => exact hr

theorem done_before (h : Sound past s) (hp : Punctual s e) (hstep : Step s e t)
    (hnew : ∀ id, e.Activates id → ∃ r ∈ t.store.outbox, r.id = id ∧ r.status = .completed) :
    ∀ id, (∃ e' ∈ past ++ [e], e'.Activates id) →
      ∃ r ∈ t.store.outbox, r.id = id ∧ r.status = .completed := by
  rintro id ⟨e', he', hact⟩
  rcases mem_append.1 he' with he' | he'
  · obtain ⟨r, hr, hid, hdone⟩ := h.done id ⟨e', he', hact⟩
    exact ⟨r, h.completed_stays hp hstep hr hdone, hid, hdone⟩
  · rw [mem_singleton.1 he'] at hact
    exact hnew id hact

theorem lease {store' : ProcessDb} {flights : List Flight} {job : Option OutboxJob}
    (h : Sound past ⟨store, flights, clock⟩) (hp : clock ≤ now)
    (hcommit : (leaseNext leaseTime now).commit store = (.ok job, store')) :
    Sound (past ++ [.leased now job])
      ⟨store', flights ++ (job.map fun j => ⟨j, now⟩).toList, max clock now⟩ := by
  have hdone := h.done_before (e := .leased now job) hp (Step.lease now hcommit)
    fun id hact => hact.elim
  rw [Int.max_eq_right hp] at hdone ⊢
  rcases leaseNext_ok (commit_eq_ok.1 hcommit) with
    ⟨rfl, rfl⟩ | ⟨row, hrow, hready, rfl, rfl⟩
  · simp only [Option.map_none, Option.toList_none, append_nil] at hdone ⊢
    refine ⟨h.ids, h.apart, h.known, fun f hf => ?_, hdone⟩
    exact (h.held f hf).imp_left fun hlate => Int.lt_of_lt_of_le hlate hp
  · have hnew : leasedRow leaseTime now row ∈ store.outbox.map fun r =>
        if r.id = row.id then Process.lease leaseTime now r else r :=
      mem_map.2 ⟨row, hrow, by rw [if_pos rfl, lease_of_ready hready]⟩
    -- Another row stays as it is, and the leased row is the only one with its id.
    have hother : ∀ r ∈ store.outbox, r.id ≠ row.id → r ∈ store.outbox.map fun r =>
        if r.id = row.id then Process.lease leaseTime now r else r :=
      fun r hr hne => mem_map.2 ⟨r, hr, if_neg hne⟩
    refine ⟨?_, ?_, ?_, ?_, hdone⟩
    · refine (Table.map_key_map (fun r => ?_) store.outbox).symm ▸ h.ids
      by_cases hid : r.id = row.id
      · rw [if_pos hid, lease_id]
      · rw [if_neg hid]
    · refine Table.nodup_append_single h.apart fun f hf heq => ?_
      obtain ⟨r, hr, hid, hle⟩ := h.known f hf
      have hjob : f.job.id = row.id := congrArg Prod.fst heq
      have hattempts : f.job.attempts = row.attempts + 1 := congrArg Prod.snd heq
      rw [h.row_eq hr hrow (hid.trans hjob)] at hle
      omega
    · intro f hf
      rcases mem_append.1 hf with hf | hf
      · obtain ⟨r, hr, hid, hle⟩ := h.known f hf
        by_cases hrid : r.id = row.id
        · have heq := h.row_eq hr hrow hrid
          subst heq
          exact ⟨_, hnew, hid, Nat.le_succ_of_le hle⟩
        · exact ⟨r, hother r hr hrid, hid, hle⟩
      · rw [mem_singleton.1 hf]
        exact ⟨_, hnew, rfl, Nat.le_refl _⟩
    · intro f hf
      rcases mem_append.1 hf with hf | hf
      · rcases h.held f hf with hlate | ⟨r, hr, hheld⟩
        · exact .inl (Int.lt_of_lt_of_le hlate hp)
        · by_cases hrid : r.id = row.id
          · -- A row that is held can only be leased once its lease has lapsed.
            rw [← h.row_eq hr hrow hrid] at hready
            exact .inl (lapsed_of_held hheld hready)
          · exact .inr ⟨r, hother r hr hrid, hheld⟩
      · rw [mem_singleton.1 hf]
        exact .inr ⟨_, hnew, ⟨rfl, rfl, rfl⟩, rfl⟩

theorem settle {before after : List Flight} {flight : Flight}
    {outcome : Process.Outcome flight.job.operation}
    (h : Sound past ⟨store, before ++ flight :: after, clock⟩)
    (hp : Punctual ⟨store, before ++ flight :: after, clock⟩ (.settled flight outcome env.now
      ((Process.settle flight.job outcome env).commit store).1.isOk)) :
    Sound (past ++ [.settled flight outcome env.now
        ((Process.settle flight.job outcome env).commit store).1.isOk])
      ⟨((Process.settle flight.job outcome env).commit store).2, before ++ after,
        max clock env.now⟩ := by
  obtain ⟨row, hrow, ⟨hid, hleased, hattempts⟩, -⟩ := h.holds (by simp) hp
  have hsub : ∀ f ∈ before ++ after, f ∈ before ++ flight :: after :=
    fun f hf => mem_middle_of_mem hf
  have hkeys := h.apart
  rw [map_append, map_cons, nodup_middle, ← map_append, nodup_cons] at hkeys
  -- Nobody else holds the row that is settled.
  have halone : ∀ f ∈ before ++ after, ∀ r ∈ store.outbox, Held f r → r.id ≠ flight.job.id := by
    rintro f hf r hr ⟨⟨hfid, -, hfattempts⟩, -⟩ hsame
    have heq := h.row_eq hr hrow (hsame.trans hid.symm)
    subst heq
    refine hkeys.1 (mem_map.2 ⟨f, hf, ?_⟩)
    rw [← hfid, hsame, ← hfattempts, hattempts]
  have hlater : ∀ f : Flight, f.leasedAt + leaseTime < clock →
      f.leasedAt + leaseTime < max clock env.now :=
    fun f hlate => Int.lt_of_lt_of_le hlate (Int.le_max_left _ _)
  have hdone := h.done_before hp (Step.settle before after flight outcome env)
  rcases commit_cases (Process.settle flight.job outcome env) store with
    ⟨_, store', hrun, hc⟩ | ⟨e, -, hc⟩
  · rw [hc] at hdone ⊢
    have houtbox := settle_outbox hrun
    have hmem : ∀ r ∈ store.outbox, (if r.id = flight.job.id then
        settledRow flight.job outcome env r else r) ∈ store'.outbox :=
      fun r hr => houtbox ▸ mem_map_of_mem hr
    refine ⟨?_, hkeys.2, ?_, ?_, hdone ?_⟩
    · show (store'.outbox.map (·.id)).Nodup
      rw [houtbox]
      refine (Table.map_key_map (fun r => ?_) store.outbox).symm ▸ h.ids
      by_cases hr : r.id = flight.job.id
      · rw [if_pos hr, settledRow_id]
      · rw [if_neg hr]
    · intro f hf
      obtain ⟨r, hr, hfid, hle⟩ := h.known f (hsub f hf)
      refine ⟨_, hmem r hr, ?_⟩
      by_cases hsame : r.id = flight.job.id
      · rw [if_pos hsame, settledRow_id, settledRow_attempts]
        exact ⟨hfid, hle⟩
      · rw [if_neg hsame]
        exact ⟨hfid, hle⟩
    · intro f hf
      rcases h.held f (hsub f hf) with hlate | ⟨r, hr, hheld⟩
      · exact .inl (hlater f hlate)
      · have hr' := hmem r hr
        rw [if_neg (halone f hf r hr hheld)] at hr'
        exact .inr ⟨r, hr', hheld⟩
    · rintro id ⟨rfl, hstart, -⟩
      have hrow' := hmem row hrow
      rw [if_pos hid] at hrow'
      exact ⟨_, hrow', by rw [settledRow_id, hid], settledRow_of_isStart hstart⟩
  · rw [hc] at hdone ⊢
    refine ⟨h.ids, hkeys.2, fun f hf => h.known f (hsub f hf), fun f hf => ?_, hdone ?_⟩
    · exact (h.held f (hsub f hf)).imp_left (hlater f)
    · rintro id ⟨-, -, hcommitted⟩
      cases hcommitted

theorem step (h : Sound past s) (hp : Punctual s e) (hstep : Step s e t) : Sound
    (past ++ [e]) t := by
  have hdone := h.done_before hp hstep
  cases hstep with
  | lease now hcommit => exact h.lease hp hcommit
  | settle before after flight outcome env => exact h.settle hp
  | lose before after flight =>
    have hsub : ∀ f ∈ before ++ after, f ∈ before ++ flight :: after :=
      fun f hf => mem_middle_of_mem hf
    refine ⟨h.ids, ?_, fun f hf => h.known f (hsub f hf), fun f hf => h.held f (hsub f hf),
      hdone fun id hact => hact.elim⟩
    exact h.apart.sublist
      (((List.Sublist.refl before).append (sublist_cons_self flight after)).map _)
  | @ask store flights clock c gen =>
    have hdone := hdone fun id hact => hact.elim
    rcases commit_cases (c.exec gen) store with ⟨_, store', hrun, hc⟩ | ⟨e, -, hc⟩
    · rw [hc] at hdone ⊢
      rcases exec_outbox hrun with heq | ⟨row, hfresh, heq⟩
      · refine ⟨?_, h.apart, ?_, ?_, hdone⟩
        · exact heq ▸ h.ids
        · exact heq ▸ h.known
        · exact heq ▸ h.held
      · refine ⟨?_, h.apart, fun f hf => ?_, fun f hf => ?_, hdone⟩
        · show (store'.outbox.map (·.id)).Nodup
          rw [heq]
          exact Table.nodup_append_single h.ids hfresh
        · obtain ⟨r, hr, hrest⟩ := h.known f hf
          exact ⟨r, heq ▸ mem_append_left _ hr, hrest⟩
        · rcases h.held f hf with hlate | ⟨r, hr, hheld⟩
          · exact .inl hlate
          · exact .inr ⟨r, heq ▸ mem_append_left _ hr, hheld⟩
    · rw [hc] at hdone ⊢
      exact ⟨h.ids, h.apart, h.known, h.held, hdone⟩
  | change => exact ⟨h.ids, h.apart, h.known, h.held, hdone fun id hact => hact.elim⟩

theorem of_idle (h : s.Idle) : Sound [] s := by
  obtain ⟨hflights, hids⟩ := h
  refine ⟨hids, ?_, ?_, ?_, ?_⟩
  · rw [hflights]
    exact nodup_nil
  · rw [hflights]
    simp
  · rw [hflights]
    simp
  · rintro id ⟨e, he, -⟩
    cases he

theorem run {past later : List Event} (h : Sound past s)
    (hrun : Run (Guarded Punctual Step) s later t) : Sound (past ++ later) t := by
  induction hrun with
  | refl => exact (append_nil past).symm ▸ h
  | step _ hst ih => exact append_assoc past _ _ ▸ ih.step hst.1 hst.2

end Sound

/-- As long as clocks agree and jobs are settled before their lease ends: a completed row stays
as it is, a settlement only changes the row its worker holds, and a start that was completed does
not mark its link as failed afterwards. -/
theorem settlements_keep_to_leases {s t : Fleet} {past : List Event} (hidle : s.Idle)
    (hrun : Run (Guarded Punctual Step) s past t) :
    (∀ later u, Run (Guarded Punctual Step) t later u →
      ∀ r ∈ t.store.outbox, r.status = .completed → r ∈ u.store.outbox) ∧
    ∀ flight outcome now committed u,
      Guarded Punctual Step t (.settled flight outcome now committed) u →
      (∀ r ∈ t.store.outbox, r ∉ u.store.outbox → Holds flight.job r) ∧
      ((∃ e ∈ past, e.Activates flight.job.id) → ∀ l ∈ u.store.links, l.status = .failed →
        ∃ k ∈ t.store.links, k.id = l.id ∧ k.status = .failed) := by
  have hsound := (Sound.of_idle hidle).run hrun
  constructor
  · intro later u hlater r hr hdone
    induction hlater with
    | refl => exact hr
    | step hbefore hst ih => exact (hsound.run hbefore).completed_stays hst.1 hst.2 ih hdone
  · rintro flight outcome now committed u ⟨hp, hstep⟩
    cases hstep with
    | @settle store before after clock _ _ env =>
      obtain ⟨row, hrow, hholds, -⟩ := hsound.holds (by simp) hp
      constructor
      · intro r hr hgone
        rcases commit_cases (Process.settle flight.job outcome env) store with
          ⟨_, store', hrun, hc⟩ | ⟨e, -, hc⟩
        · rw [hc, settle_outbox hrun] at hgone
          by_cases hid : r.id = flight.job.id
          · rw [hsound.row_eq hr hrow (hid.trans hholds.1.symm)]
            exact hholds
          · refine absurd (mem_map.2 ⟨r, hr, ?_⟩) hgone
            rw [if_neg hid]
        · rw [hc] at hgone
          exact absurd hr hgone
      · intro hact l hl hfailed
        obtain ⟨r, hr, hid, hdone⟩ := hsound.done _ hact
        rw [hsound.row_eq hr hrow (hid.trans hholds.1.symm), hholds.2.1] at hdone
        cases hdone

/-! ### Two workers and one start -/

namespace Party

open Process.Party

def idle : Fleet := ⟨started, [], 0⟩

def job (attempts : Nat) : OutboxJob := ⟨⟨1⟩, ⟨1⟩, startOperation party, attempts⟩

def begun : Process.Outcome (startOperation party) := .started ⟨7⟩

def refused : Process.Outcome (startOperation party) := .failed ⟨.conflict, "Heart conflict", false⟩

def leased (db : ProcessDb) (now : Time) : ProcessDb := ((leaseNext leaseTime now).commit db).2

def settled (db : ProcessDb) (attempts : Nat) (outcome : Process.Outcome (startOperation party))
    (env : SettleEnv) : ProcessDb :=
  ((Process.settle (job attempts) outcome env).commit db).2

def takenOver : ProcessDb := leased (leased started 0) 31000000000

def active : ProcessDb := settled takenOver 2 begun ⟨20, 32000000000⟩

end Party

open Party Process.Party

/-- A start that is settled in time. -/
theorem punctual_start_stays_completed :
    ∃ past t, Run (Guarded Punctual Step) idle past t ∧
      (∃ r ∈ t.store.outbox, r.status = .completed) ∧
      ∀ later u, Run (Guarded Punctual Step) t later u →
        ∀ r ∈ t.store.outbox, r.status = .completed → r ∈ u.store.outbox := by
  have hidle : idle.Idle := ⟨rfl, by decide +kernel⟩
  have hlease : Guarded Punctual Step idle (.leased 0 (some (job 1)))
      ⟨leased idle.store 0, [⟨job 1, 0⟩], 0⟩ :=
    ⟨Int.le_refl 0, Step.lease 0 rfl⟩
  have hsettle : Guarded Punctual Step ⟨leased idle.store 0, [⟨job 1, 0⟩], 0⟩
      (.settled ⟨job 1, 0⟩ begun 5 true)
      ⟨settled (leased idle.store 0) 1 begun ⟨20, 5⟩, [], 5⟩ :=
    ⟨⟨by decide, by decide⟩, Step.settle [] [] ⟨job 1, 0⟩ begun ⟨20, 5⟩⟩
  have hrun := Run.cons hlease (Run.single hsettle)
  refine ⟨_, _, hrun, ?_, (settlements_keep_to_leases hidle hrun).1⟩
  exact ⟨_, mem_singleton_self _, rfl⟩

/-- A worker comes back with a refusal after its row was taken over and the process was started:
the completed row and the active link become failed. -/
theorem late_refusal_fails_a_started_process :
    ∃ past flights clock u, Run Step idle past ⟨active, ⟨job 1, 0⟩ :: flights, clock⟩ ∧
      Step ⟨active, ⟨job 1, 0⟩ :: flights, clock⟩
        (.settled ⟨job 1, 0⟩ refused 33000000000 true) u ∧
      (∃ e ∈ past, e.Activates (job 1).id) ∧
      (active.outbox.map (·.status) = [.completed] ∧
        u.store.outbox.map (·.status) = [.failed]) ∧
      (∀ r ∈ active.outbox, ¬ Holds (job 1) r) ∧
      active.links.map (·.status) = [.active] ∧ u.store.links.map (·.status) = [.failed] := by
  refine ⟨[.leased 0 (some (job 1)), .leased 31000000000 (some (job 2)),
      .settled ⟨job 2, 31000000000⟩ begun 32000000000 true], [], 32000000000,
    ⟨settled active 1 refused ⟨21, 33000000000⟩, [], 33000000000⟩, ?_, ?_, ?_, ?_, ?_, ?_⟩
  · refine Run.cons (t := ⟨leased started 0, [⟨job 1, 0⟩], 0⟩) (Step.lease 0 rfl) ?_
    refine Run.cons (t := ⟨takenOver, [⟨job 1, 0⟩, ⟨job 2, 31000000000⟩], 31000000000⟩)
      (Step.lease 31000000000 rfl) ?_
    exact Run.single (Step.settle [⟨job 1, 0⟩] [] ⟨job 2, 31000000000⟩ begun ⟨20, 32000000000⟩)
  · exact Step.settle [] [] ⟨job 1, 0⟩ refused ⟨21, 33000000000⟩
  · exact ⟨.settled ⟨job 2, 31000000000⟩ begun 32000000000 true, by simp, rfl, rfl, rfl⟩
  · exact ⟨rfl, rfl⟩
  · intro r hr hholds
    rw [mem_singleton.1 hr] at hholds
    cases hholds.2.1
  · exact ⟨rfl, rfl⟩

end Fleet

end Sproyt
