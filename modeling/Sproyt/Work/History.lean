import Mathlib.Data.List.Chain
import Sproyt.Work.Steps

/-!
# The history of a status

The status of a work item is written by the reconciliation of its review and, after the review,
by hand. A pass writes under a lease that is only given while the review is open, so a pass that
still holds the lease has not seen the review end, and a status change can not have begun.
-/

namespace Sproyt

open List

def WorkItemRow.Open (w : WorkItemRow) : Prop :=
  w.processStatus = .starting ∨ w.processStatus = .waiting

theorem WorkItemRow.Open.not_completed {w : WorkItemRow} (h : w.Open) :
    w.processStatus ≠ .completed := by
  rcases h with h | h <;> rw [h] <;> exact ProcessStatus.noConfusion

def WorkLabel.MovesStatus (l : WorkLabel) : Prop :=
  ∃ actor task c id now, l = .command (.changeStatus actor task c id now) (.ok .accepted)

structure ItemMoved (l : WorkLabel) (w w' : WorkItemRow) : Prop where
  id : w'.id = w.id
  version : w'.definitionVersion = w.definitionVersion
  revision : w.revision ≤ w'.revision
  claimed : ∀ token, l = .claimed w.id token → w.Open
  token : w'.syncLeaseToken = w.syncLeaseToken ∨ w'.syncLeaseToken = none ∨
    ∃ token, l = .claimed w.id token
  process : w'.processStatus = w.processStatus ∨
    ∃ token state, l = .settled w.id token state ∧ w.syncLeaseToken = some token
  status : w'.status = w.status ∨
    (∃ token channel task, l = .projected w.id token channel task none ∧
      w.syncLeaseToken = some token ∧ task.status = .known .completed) ∨
    l.MovesStatus

section

variable {x x' : WorkItemRow} {item token : Uuid}

variable {service : WorkItems} {host : Host} {decode : String → Option Json}
  {t t' : WorkTables} {l : WorkLabel} {w w' : WorkWorld}

/-! ### Work items step by step -/

theorem ItemMoved.refl (hl : ∀ token, l ≠ .claimed x.id token) : ItemMoved l x x :=
  ⟨rfl, rfl, le_rfl, fun token h => absurd h (hl token), .inl rfl, .inl rfl, .inl rfl⟩

theorem item_moved_set {y' : WorkItemRow} (hx : x ∈ t.items)
    (hy' : y' ∈ (t.setItem x').items) (hmoved : ItemMoved l x x')
    (hl : ∀ id token, l = .claimed id token → id = x.id) : ∃ y ∈ t.items, ItemMoved l y y' := by
  rcases Table.mem_set hy' with rfl | ⟨hmem, hne⟩
  · exact ⟨x, hx, hmoved⟩
  · refine ⟨y', hmem, .refl fun token h => hne ?_⟩
    exact (hl _ token h).trans hmoved.id.symm

theorem settledBy_moved (x : WorkItemRow) (node : TaskNode) (d : TaskDecision) :
    (x.settledBy node d).id = x.id ∧ (x.settledBy node d).definitionVersion = x.definitionVersion ∧
      (x.settledBy node d).revision = x.revision ∧
      (x.settledBy node d).syncLeaseToken = x.syncLeaseToken ∧
      (x.settledBy node d).processStatus = x.processStatus := by
  unfold WorkItemRow.settledBy
  split
  · exact ⟨rfl, rfl, rfl, rfl, rfl⟩
  · split
    · exact ⟨rfl, rfl, rfl, rfl, rfl⟩
    · exact ⟨rfl, rfl, rfl, rfl, rfl⟩

theorem WorkChange.item_moved (h : WorkChange service decode l t t') {y' : WorkItemRow}
    (hy' : y' ∈ t'.items) : ∃ y ∈ t.items, ItemMoved l y y' := by
  have hnext : ∀ n : Int, n ≤ n + 1 := fun n => by omega
  cases h with
  | accepted haccepts =>
    cases haccepts with
    | decide hr hw | addSupplement hw | exportGithub hr hw =>
      refine item_moved_set hw hy' ⟨rfl, rfl, hnext _, nofun, .inl rfl, .inl rfl, .inl rfl⟩ nofun
    | noChange => exact ⟨y', hy', .refl nofun⟩
    | changeStatus hx hw =>
      refine item_moved_set hw hy' ⟨rfl, rfl, hnext _, nofun, .inl rfl, .inl rfl,
        .inr (.inr ⟨_, _, _, _, _, rfl⟩)⟩ nofun
  | claimed hw hopen =>
    refine item_moved_set hw hy' ⟨rfl, rfl, le_rfl, fun _ _ => hopen, .inr (.inr ⟨_, rfl⟩),
      .inl rfl, .inl rfl⟩ fun _ _ hl => ?_
    cases hl
    rfl
  | @updated t w r token channel task status hw hr hid hitem htoken hstatus =>
    refine item_moved_set hw hy' ?_ nofun
    by_cases hdone : status = .completed
    · rw [if_pos hdone]
      obtain ⟨hid, hversion, hrevision, htoken', hprocess⟩ :=
        settledBy_moved w task.nodeId r.decision
      exact ⟨hid, hversion, hrevision.ge, nofun, .inl htoken', .inl hprocess,
        .inr (.inl ⟨token, channel, task, rfl, htoken, hdone ▸ hstatus⟩)⟩
    · rw [if_neg hdone]
      exact .refl nofun
  | settled hw htoken =>
    exact item_moved_set hw hy' ⟨rfl, rfl, le_rfl, nofun, .inl rfl,
      .inr ⟨_, _, rfl, htoken⟩, .inl rfl⟩ nofun
  | released hw htoken =>
    exact item_moved_set hw hy' ⟨rfl, rfl, le_rfl, nofun, .inr (.inl rfl), .inl rfl, .inl rfl⟩ nofun
  | starting hw =>
    exact item_moved_set hw hy' ⟨rfl, rfl, le_rfl, nofun, .inl rfl, .inl rfl, .inl rfl⟩ nofun
  | _ => exact ⟨y', hy', .refl nofun⟩

/-! ### Passes step by step -/

def TaskPhase.working : TaskPhase → Bool
  | .claimed | .detailed _ | .projecting _ _ _ => true
  | .settled _ | .ending => false

theorem TaskMove.working {db db' : WorkDb} {phase phase' : TaskPhase}
    (h : TaskMove host decode item token db phase l db' phase') (hworking : phase'.working = true) :
    phase.working = true := by
  cases h with
  | details | answered | projected => rfl
  | settled | undelivered | ended => cases hworking

theorem WorkStep.pass_origin (h : WorkStep service host decode w l w') {p' : TaskPass}
    (hp' : p' ∈ w'.taskPasses) :
    (∃ p ∈ w.taskPasses, p.item = p'.item ∧ p.token = p'.token ∧
      (p'.phase.working = true → p.phase.working = true)) ∨
      (l = .claimed p'.item p'.token ∧ p'.token ∉ w.issued) := by
  have hsame : p' ∈ w.taskPasses → ∃ p ∈ w.taskPasses, p.item = p'.item ∧ p.token = p'.token ∧
      (p'.phase.working = true → p.phase.working = true) :=
    fun hp => ⟨p', hp, rfl, rfl, fun hworking => hworking⟩
  cases h with
  | claimSync hnew hrun =>
    rcases mem_cons.1 hp' with rfl | hp'
    · exact .inr ⟨rfl, hnew⟩
    · exact .inl (hsame hp')
  | taskMove hmove =>
    rcases mem_append.1 hp' with hp' | hp'
    · exact .inl (hsame (mem_append_left _ hp'))
    · rcases mem_cons.1 hp' with rfl | hp'
      · exact .inl ⟨_, mem_append_cons_self, rfl, rfl, hmove.working⟩
      · exact .inl (hsame (mem_append_right _ (mem_cons_of_mem _ hp')))
  | releaseSync | taskCrash => exact .inl (hsame (mem_middle_of_mem hp'))
  | _ => exact .inl (hsame hp')

theorem WorkStep.projecting {channel : ChannelId} {task : ReportedTask} {o : Option MessageId}
    (h : WorkStep service host decode w (.projected item token channel task o) w') :
    ∃ p ∈ w.taskPasses, p.item = item ∧ p.token = token ∧ p.phase.working = true := by
  cases h with
  | taskMove hmove =>
    generalize hphase : TaskPass.phase _ = phase at hmove
    cases hmove with
    | projected =>
      refine ⟨_, mem_append_cons_self, rfl, rfl, ?_⟩
      rw [hphase]
      rfl

theorem WorkStep.settling {state : ProcessStatus} (htokens : (w.taskPasses.map (·.token)).Nodup)
    (h : WorkStep service host decode w (.settled item token state) w') :
    (∃ p ∈ w.taskPasses, p.item = item ∧ p.token = token ∧ p.phase.working = true) ∧
      ∀ p' ∈ w'.taskPasses, p'.token = token → p'.phase.working = false := by
  cases h with
  | @taskMove db db' before after p phase passes issued l hmove =>
    generalize hphase : p.phase = phase₀ at hmove
    cases hmove with
    | settled =>
      refine ⟨⟨p, mem_append_cons_self, rfl, rfl, by rw [hphase]; rfl⟩, ?_⟩
      rw [map_append, map_cons, nodup_middle, nodup_cons, ← map_append] at htokens
      have hother : ∀ p' ∈ before ++ after, p'.token ≠ p.token := by
        intro p' hp' htoken
        exact htokens.1 (mem_map.2 ⟨p', hp', htoken⟩)
      intro p' hp' htoken
      rcases mem_append.1 hp' with hmem | hmem
      · exact absurd htoken (hother p' (mem_append_left _ hmem))
      · rcases mem_cons.1 hmem with rfl | hmem
        · rfl
        · exact absurd htoken (hother p' (mem_append_right _ hmem))

theorem WorkStep.issued (h : WorkStep service host decode w l w') :
    ∀ token ∈ w.issued, token ∈ w'.issued := by
  intro token htoken
  cases h with
  | claimSync | claimChange => exact mem_cons_of_mem _ htoken
  | _ => exact htoken

theorem WorkStep.claims
    (h : WorkStep service host decode w (.claimed item token) w') : token ∈ w'.issued := by
  cases h with
  | claimSync => exact mem_cons_self
  | taskMove hmove =>
    generalize TaskPass.phase _ = phase at hmove
    cases hmove

theorem WorkStep.tokens (htokens : (w.taskPasses.map (·.token)).Nodup)
    (hissued : ∀ p ∈ w.taskPasses, p.token ∈ w.issued)
    (h : WorkStep service host decode w l w') : (w'.taskPasses.map (·.token)).Nodup := by
  cases h with
  | claimSync hnew hrun =>
    rw [map_cons, nodup_cons]
    refine ⟨fun hmem => ?_, htokens⟩
    obtain ⟨p, hp, rfl⟩ := mem_map.1 hmem
    exact hnew (hissued p hp)
  | taskMove hmove =>
    rw [map_append, map_cons] at htokens ⊢
    exact htokens
  | releaseSync | taskCrash =>
    refine htokens.sublist (List.Sublist.map _ ?_)
    exact (List.Sublist.refl _).append (sublist_cons_self _ _)
  | _ => exact htokens

/-- A pass that works and holds the lease works on an open review. -/
structure WorkWorld.Fenced (w : WorkWorld) : Prop where
  tokens : (w.taskPasses.map (·.token)).Nodup
  issued : ∀ p ∈ w.taskPasses, p.token ∈ w.issued
  fenced : ∀ p ∈ w.taskPasses, p.phase.working = true → ∀ x ∈ w.db.items, x.id = p.item →
    x.syncLeaseToken = some p.token → x.Open

theorem WorkWorld.Fenced.holder (h : w.Fenced)
    (hx : x ∈ w.db.items) (htoken : x.syncLeaseToken = some token)
    (hp : ∃ p ∈ w.taskPasses, p.item = x.id ∧ p.token = token ∧ p.phase.working = true) :
    x.Open := by
  obtain ⟨p, hp, hitem, rfl, hworking⟩ := hp
  exact h.fenced p hp hworking x hx hitem.symm htoken

theorem WorkStep.fenced (hw : w.Sound) (hfenced : w.Fenced)
    (h : WorkStep service host decode w l w') : w'.Fenced := by
  have hchange := h.change hw.keyed hw.sane
  refine ⟨h.tokens hfenced.tokens hfenced.issued, fun p' hp' => ?_, ?_⟩
  · rcases h.pass_origin hp' with ⟨p, hp, -, htoken, -⟩ | ⟨rfl, -⟩
    · exact htoken ▸ h.issued _ (hfenced.issued p hp)
    · exact h.claims
  · intro p' hp' hworking x' hx' hid htoken'
    obtain ⟨x, hx, hmoved⟩ := hchange.item_moved hx'
    -- the row was leased under the same token, or it is the one that was just claimed
    have hbefore : x.syncLeaseToken = some p'.token ∨ ∃ token, l = .claimed x.id token := by
      rcases hmoved.token with hsame | hnone | hclaimed
      · exact .inl (hsame.symm.trans htoken')
      · rw [hnone] at htoken'
        cases htoken'
      · exact .inr hclaimed
    have hopen : x.Open := by
      rcases h.pass_origin hp' with ⟨p, hp, hitem, htoken, hphase⟩ | ⟨rfl, -⟩
      · rcases hbefore with hheld | ⟨token, hclaimed⟩
        · exact hfenced.fenced p hp (hphase hworking) x hx (by rw [← hmoved.id, hid, hitem])
            (by rw [hheld, htoken])
        · exact hmoved.claimed token hclaimed
      · exact hmoved.claimed p'.token (by rw [← hmoved.id, hid])
    rcases hmoved.process with hsame | ⟨token, state, rfl, hheld⟩
    · unfold WorkItemRow.Open
      rw [hsame]
      exact hopen
    · -- the pass with this token has just stopped working
      rcases hbefore with hbefore | ⟨_, hl⟩
      · have hsame : p'.token = token := Option.some.inj (hbefore.symm.trans hheld)
        have hnot := (h.settling hfenced.tokens).2 p' hp' hsame
        rw [hworking] at hnot
        cases hnot
      · cases hl

/-! ### Chains -/

/-- The history of a work item leads, step by allowed step, to its status. -/
structure StatusChain (x : WorkItemRow) (entries : List StatusHistoryRow) : Prop where
  increasing : entries.Pairwise fun a b => a.revision < b.revision
  connected : entries.IsChain fun a b => b.fromStatus = a.toStatus
  allowed : ∀ h ∈ entries, h.toStatus ∈ transitions h.fromStatus
  last : ∀ h ∈ entries.getLast?, h.toStatus = x.status
  bounded : ∀ h ∈ entries, h.revision ≤ x.revision

theorem StatusChain.nil (x : WorkItemRow) : StatusChain x [] :=
  ⟨.nil, .nil, nofun, nofun, nofun⟩

theorem StatusChain.same {entries : List StatusHistoryRow}
    (h : StatusChain x entries) (hstatus : x'.status = x.status)
    (hrevision : x.revision ≤ x'.revision) :
    StatusChain x' entries :=
  ⟨h.increasing, h.connected, h.allowed, fun e he => (h.last e he).trans hstatus.symm,
    fun e he => (h.bounded e he).trans hrevision⟩

theorem StatusChain.append {entries : List StatusHistoryRow}
    {e : StatusHistoryRow} (h : StatusChain x entries) (hfrom : e.fromStatus = x.status)
    (hallowed : e.toStatus ∈ transitions e.fromStatus) (hrevision : x.revision < e.revision)
    (hstatus : e.toStatus = x'.status) (hrevision' : e.revision ≤ x'.revision) :
    StatusChain x' (entries ++ [e]) := by
  refine ⟨?_, ?_, ?_, ?_, ?_⟩
  · rw [pairwise_append]
    refine ⟨h.increasing, pairwise_singleton _ _, fun a ha b hb => ?_⟩
    rw [mem_singleton.1 hb]
    exact lt_of_le_of_lt (h.bounded a ha) hrevision
  · rw [isChain_append]
    refine ⟨h.connected, .singleton e, fun a ha b hb => ?_⟩
    obtain rfl : e = b := by simpa using hb
    rw [hfrom, h.last a ha]
  · intro a ha
    rcases mem_append.1 ha with ha | ha
    · exact h.allowed a ha
    · rw [mem_singleton.1 ha]
      exact hallowed
  · intro a ha
    obtain rfl : e = a := by simpa using ha
    exact hstatus
  · intro a ha
    rcases mem_append.1 ha with ha | ha
    · exact (h.bounded a ha).trans (hrevision.le.trans hrevision')
    · rw [mem_singleton.1 ha]
      exact hrevision'

def WorkTables.entries (t : WorkTables) (id : Uuid) : List StatusHistoryRow :=
  t.history.filter (·.workItemId = id)

structure WorkTables.Chained (t : WorkTables) : Prop where
  completed : ∀ x ∈ t.changes, ∀ w ∈ t.items, w.id = x.workItemId → w.processStatus = .completed
  begun : ∀ h ∈ t.history, ∃ x ∈ t.changes, x.workItemId = h.workItemId
  chain : ∀ w ∈ t.items, StatusChain w (t.entries w.id)

theorem WorkTables.Chained.entries_nil (h : t.Chained) (hx : x ∈ t.items)
    (hopen : x.Open) : t.entries x.id = [] := by
  rw [WorkTables.entries, filter_eq_nil_iff]
  intro e he hitem
  obtain ⟨y, hy, hye⟩ := h.begun e he
  exact hopen.not_completed (h.completed y hy x hx (by rw [hye, of_decide_eq_true hitem]))

theorem WorkChange.change_origin (h : WorkChange service decode l t t') {y' : StatusChangeRow}
    (hy' : y' ∈ t'.changes) : (∃ y ∈ t.changes, y.workItemId = y'.workItemId) ∨
      ∃ x ∈ t.items, x.id = y'.workItemId ∧ x.processStatus = .completed := by
  have hset : ∀ y x : StatusChangeRow, y ∈ t.changes → y' ∈ (t.setChange x).changes →
      x.workItemId = y.workItemId → ∃ y ∈ t.changes, y.workItemId = y'.workItemId := by
    intro y x hy hmem hitem
    rcases Table.mem_set hmem with rfl | ⟨hmem, -⟩
    · exact ⟨y, hy, hitem.symm⟩
    · exact ⟨y', hmem, rfl⟩
  cases h with
  | accepted haccepts =>
    cases haccepts with
    | noChange hx | changeStatus hx => exact .inl (hset _ _ hx hy' rfl)
    | decide | addSupplement | exportGithub => exact .inl ⟨y', hy', rfl⟩
  | opened hw hitem hover =>
    rcases mem_append.1 hy' with hy' | hy'
    · exact .inl ⟨y', hy', rfl⟩
    · rw [mem_singleton.1 hy']
      exact .inr ⟨_, hw, hitem.symm, hover⟩
  | held hx | located hx | shown hx | terminal hx => exact .inl (hset _ _ hx hy' rfl)
  | _ => exact .inl ⟨y', hy', rfl⟩

theorem WorkChange.history_same (h : WorkChange service decode l t t') (hl : ¬ l.MovesStatus) :
    t'.history = t.history := by
  cases h with
  | accepted haccepts =>
    cases haccepts with
    | decide | addSupplement | exportGithub => rfl
    | noChange | changeStatus => exact absurd ⟨_, _, _, _, _, rfl⟩ hl
  | _ => rfl

theorem WorkChange.accepts {c : WorkCommand}
    (h : WorkChange service decode (.command c (.ok .accepted)) t t') : Accepts service c t t' := by
  cases h with
  | refused hno => exact absurd rfl hno
  | accepted haccepts => exact haccepts

theorem Accepts.chained {actor : UserId} {task id : Uuid} {c : StatusDecision} {now : Int}
    (hchained : t.Chained) (h : Accepts service (.changeStatus actor task c id now) t t') :
    (∀ e ∈ t'.history, e ∈ t.history ∨ ∃ y ∈ t.changes, y.workItemId = e.workItemId) ∧
      ∀ x' ∈ t'.items, StatusChain x' (t'.entries x'.id) := by
  cases h with
  | noChange => exact ⟨fun e he => .inl he, hchained.chain⟩
  | @changeStatus _ _ _ _ _ _ y x hy hx hitem htask hmessage hactor hvalid hopen hwaiting hrevision
      hmove hallowed =>
    refine ⟨fun e he => ?_, fun x' hx' => ?_⟩
    · rcases mem_append.1 he with he | he
      · exact .inl he
      · rw [mem_singleton.1 he]
        exact .inr ⟨y, hy, hitem.symm⟩
    · show StatusChain x' ((t.history ++ [_]).filter (·.workItemId = x'.id))
      rw [filter_append]
      rcases Table.mem_set hx' with rfl | ⟨hmem, hne⟩
      · rw [filter_singleton, decide_eq_true rfl]
        refine (hchained.chain x hx).append rfl hallowed ?_ rfl ?_
        · show x.revision < c.revision
          rw [StatusDecision.revision, hmove, hrevision]
          simp
        · show c.revision ≤ x.revision + 1
          rw [StatusDecision.revision, hmove, hrevision]
          simp
      · rw [filter_singleton, decide_eq_false (Ne.symm hne), cond_false, append_nil]
        exact hchained.chain x' hmem

theorem WorkStep.chained (hw : w.Sound) (hfenced : w.Fenced) (hchained : w.db.tables.Chained)
    (h : WorkStep service host decode w l w') : w'.db.tables.Chained := by
  have hchange := h.change hw.keyed hw.sane
  have hkept := hchange.kept hw.keyed
  refine ⟨?_, ?_, ?_⟩
  · intro y' hy' x' hx' hid
    obtain ⟨x, hx, hmoved⟩ := hchange.item_moved hx'
    have hover : x.processStatus = .completed := by
      rcases hchange.change_origin hy' with ⟨y, hy, hitem⟩ | ⟨z, hz, hitem, hover⟩
      · exact hchained.completed y hy x hx (by rw [← hmoved.id, hid, hitem])
      · obtain rfl : z = x :=
          Table.eq_of_key_eq hw.keyed.items hz hx (hitem.trans (hid.symm.trans hmoved.id))
        exact hover
    rcases hmoved.process with hsame | ⟨token, state, rfl, htoken⟩
    · exact hsame.trans hover
    · have hopen := hfenced.holder hx htoken (h.settling hfenced.tokens).1
      exact absurd hover hopen.not_completed
  · intro e he
    have hbegun : ∃ y ∈ w.db.tables.changes, y.workItemId = e.workItemId := by
      by_cases hl : l.MovesStatus
      · obtain ⟨actor, task, c, id, now, rfl⟩ := hl
        exact ((hchange.accepts.chained hchained).1 e he).elim (hchained.begun e) fun hy => hy
      · rw [hchange.history_same hl] at he
        exact hchained.begun e he
    obtain ⟨y, hy, hitem⟩ := hbegun
    obtain ⟨y', hy', hyy⟩ := hkept.changes y hy
    exact ⟨y', hy', hyy.item.trans hitem⟩
  · intro x' hx'
    by_cases hl : l.MovesStatus
    · obtain ⟨actor, task, c, id, now, rfl⟩ := hl
      exact (hchange.accepts.chained hchained).2 x' hx'
    · obtain ⟨x, hx, hmoved⟩ := hchange.item_moved hx'
      rw [WorkTables.entries, hchange.history_same hl, hmoved.id]
      rcases hmoved.status with hsame | ⟨token, channel, task, rfl, htoken, -⟩ | hyes
      · exact (hchained.chain x hx).same hsame hmoved.revision
      · have hnone := hchained.entries_nil hx (hfenced.holder hx htoken h.projecting)
        rw [WorkTables.entries] at hnone
        rw [hnone]
        exact .nil x'
      · exact absurd hyes hl

theorem chained_of_run {w₀ w : WorkWorld} {ls : List WorkLabel}
    (hkeys : w₀.db.tables.Keyed) (hpasses : w₀.taskPasses = [])
    (hchanges : w₀.db.statusChanges = [])
    (hhistory : w₀.db.statusHistory = []) (hrun : Run (WorkStep service host decode) w₀ ls w) :
    w.Sound ∧ w.Fenced ∧ w.db.tables.Chained := by
  have hsound₀ : w₀.Sound := ⟨hkeys, by rw [hpasses]; exact fun p hp => absurd hp not_mem_nil⟩
  have hfenced₀ : w₀.Fenced := by
    refine ⟨?_, ?_, ?_⟩ <;> rw [hpasses]
    · exact nodup_nil
    · exact nofun
    · exact nofun
  have hchained₀ : w₀.db.tables.Chained := by
    have hnil : ∀ id, w₀.db.tables.entries id = [] := by
      intro id
      show w₀.db.statusHistory.filter _ = []
      rw [hhistory]
      rfl
    refine ⟨fun y (hy : y ∈ w₀.db.statusChanges) => ?_, fun e (he : e ∈ w₀.db.statusHistory) => ?_,
      fun x _ => ?_⟩
    · rw [hchanges] at hy
      cases hy
    · rw [hhistory] at he
      cases he
    · rw [hnil]
      exact .nil x
  refine hrun.invariant (P := fun u => u.Sound ∧ u.Fenced ∧ u.db.tables.Chained) ?_
    ⟨hsound₀, hfenced₀, hchained₀⟩
  rintro u l u' ⟨hsound, hfenced, hchained⟩ hstep
  exact ⟨hstep.sound hsound, hstep.fenced hsound hfenced, hstep.chained hsound hfenced hchained⟩

/-- Whatever is interleaved, the history of a work item is a chain that ends in its status, one
status change at most is under way, and once one has begun only `change_status` writes the
status. -/
theorem status_history_is_chain {w₀ w : WorkWorld} {ls : List WorkLabel}
    (hkeys : w₀.db.tables.Keyed) (hpasses : w₀.taskPasses = [])
    (hchanges : w₀.db.statusChanges = [])
    (hhistory : w₀.db.statusHistory = []) (hrun : Run (WorkStep service host decode) w₀ ls w) :
    (∀ x ∈ w.db.items, StatusChain x (w.db.statusHistory.filter (·.workItemId = x.id))) ∧
    (∀ y ∈ w.db.statusChanges, ∀ z ∈ w.db.statusChanges, y.active = true → z.active = true →
      y.workItemId = z.workItemId → y = z) ∧
    ∀ l w', WorkStep service host decode w l w' → ∀ y ∈ w.db.statusChanges, ∀ x ∈ w.db.items,
      x.id = y.workItemId → l.MovesStatus ∨
        ∃ x' ∈ w'.db.items, x'.id = x.id ∧ x'.status = x.status := by
  obtain ⟨hsound, hfenced, hchained⟩ := chained_of_run hkeys hpasses hchanges hhistory hrun
  refine ⟨hchained.chain, ?_, ?_⟩
  · intro y hy z hz hyactive hzactive hitem
    exact Table.eq_of_key_eq hsound.keyed.columns.2.2.2 (mem_filter.2 ⟨hy, hyactive⟩)
      (mem_filter.2 ⟨hz, hzactive⟩) hitem
  · intro l w' hstep y hy x hx hid
    have hchange := hstep.change hsound.keyed hsound.sane
    obtain ⟨x', hx', hxx⟩ := (hchange.kept hsound.keyed).items x hx
    obtain ⟨z, hz, hmoved⟩ := hchange.item_moved hx'
    obtain rfl : z = x := Table.eq_of_key_eq hsound.keyed.items hz hx (hmoved.id.symm.trans hxx.id)
    rcases hmoved.status with hsame | ⟨token, channel, task, rfl, htoken, -⟩ | hyes
    · exact .inr ⟨x', hx', hxx.id, hsame⟩
    · have hopen := hfenced.holder hx htoken hstep.projecting
      exact absurd (hchained.completed y hy z hx hid) hopen.not_completed
    · exact .inl hyes

end

/-! ### A status change in the small store -/

namespace Sample

open WorkItems

def reviewed : WorkDb :=
  { workDb with
    chat := { workDb.chat with
      workItems := [{ workItem with processStatus := .completed, status := "planned" }] }
    config := { workDb.config with
      taskRoutes := [⟨71, 43, room, "change-status", "product-handler", true⟩] } }

def opened : StatusChangeRow :=
  { id := 70, workItemId := 40, actorId := alice, channelId := room, routeId := 71
    sourceTaskId := 45, sourceMessageId := ⟨46⟩, requestId := 72, startRevision := 1, createdAt := 0
    leaseUntil := 280, leaseToken := some 73 }

def changeView : Json :=
  .object [("id", .uuid 74),
    ("input_metadata", .object [("handler_id", .uuid 1), ("status_change_id", .uuid 70),
      ("task_channel_id", .uuid 8), ("work_item_id", .uuid 40)]),
    ("namespace", .string "sproyt"), ("runtime", .string "v2"), ("status", .string "waiting")]

def changeTask : ReportedTask := ⟨⟨76, .other "change-status", alice, .known .pending⟩, 74, none⟩

def changing : WorkCommand :=
  .changeStatus alice 76 ⟨⟨75⟩, 78, 1, "in_development", "", "", false⟩ 77 0

def begun : WorkDb :=
  ((workItems.startStatus alice 40 ⟨45, ⟨46⟩, 72, 1⟩ 70 0).commit reviewed).2

def begunClaimed : WorkDb := ((claimChange 70 73 100).commit begun).2

def begunLocated : WorkDb := ((saveInstance 70 73 74).commit begunClaimed).2

def begunShown : WorkDb := ((showChange host 70 73 changeTask ⟨75⟩ 0 101).commit begunLocated).2

def changed : WorkDb := ((changing.exec workItems).commit begunShown).2

theorem changed_run :
    Run (WorkStep workItems host noText) ⟨reviewed, [], [], []⟩
      [.silent, .silent, .silent, .silent, .silent, .silent, .silent,
        .command changing (.ok .accepted)]
      ⟨changed, [], [⟨70, 73, .ending⟩], [73]⟩ := by
  have hclaim : (claimChange 70 73 100).run begun = .ok (true, begunClaimed) := rfl
  have hread : (leasedChange 70 73).run begunClaimed = .ok (opened, begunClaimed) := rfl
  have hsave : (saveInstance 70 73 74).run begunClaimed = .ok ((), begunLocated) := rfl
  have hverdict : opened.verdict 74 ⟨changeView, [changeTask]⟩ =
      .ok (.shown changeTask (.ok (some .waiting))) := rfl
  have hshow : (showChange host 70 73 changeTask ⟨75⟩ 0 101).run begunLocated =
      .ok (some ⟨75⟩, begunShown) := rfl
  have hmove : ∀ {db db' : WorkDb} {phase phase' : StatusPhase},
      StatusMove host 70 73 db phase db' phase' →
      WorkStep workItems host noText ⟨db, [], [⟨70, 73, phase⟩], [73]⟩ .silent
        ⟨db', [], [⟨70, 73, phase'⟩], [73]⟩ :=
    fun {_ _ phase _} h => @WorkStep.statusMove _ _ _ _ _ [] [] ⟨70, 73, phase⟩ _ _ _ h
  exact .cons (.startStatus alice 40 ⟨45, ⟨46⟩, 72, 1⟩ 70 0) <|
    .cons (.claimChange (by decide) hclaim) <| .cons (hmove (.read hread)) <|
    .cons (hmove (.undecided rfl)) <| .cons (hmove (.started rfl hsave)) <|
    .cons (hmove (.answered hverdict)) <| .cons (hmove (.shownOnly hshow)) <|
    .single (.command changing)

end Sample

theorem status_history_is_chain_changed :
    Sample.changed.statusHistory.length = 1 ∧ ∀ x ∈ Sample.changed.items,
      StatusChain x (Sample.changed.statusHistory.filter (·.workItemId = x.id)) := by
  have hkeys : Sample.reviewed.tables.Keyed := by
    constructor <;> decide
  exact ⟨rfl, (status_history_is_chain hkeys rfl rfl rfl Sample.changed_run).1⟩

end Sproyt
