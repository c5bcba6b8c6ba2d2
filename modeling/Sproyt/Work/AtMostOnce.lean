import Sproyt.Work.Delivery

/-!
# One issue for each export

A receipt that is being sent never becomes sendable again unless the request was definitively
rejected: whoever takes the receipt over finds it uncertain, and whoever has lost it can not
write to it. So at most one request to create an issue stays without a rejection.
-/

namespace Sproyt

open List Txn ExportLabel Table

variable {attempt : Option Int} {u : Unit} {r : Receipt} {issue : Issue} {k : Uuid}
    {x' : ExportRow}

section

variable {now : Int} {phase phase' : ExportPhase}

variable {service : WorkItems} {db db' : WorkDb} {item token : Uuid}

/-! ### Commands -/

variable {id : Uuid}

theorem advanceItem_exports {expected : Int} {also : WorkDb → WorkItemRow → Bool}
    {f : WorkItemRow → WorkItemRow} : Frame WorkDb.githubExports (advanceItem id expected also f) :=
  .updateOne fun _ => rfl

theorem decideTask_exports {decision : TaskDecision} :
    Frame WorkDb.githubExports (decideTask id decision) :=
  .updateOne fun _ => rfl

variable {actor : UserId}

theorem decide_exports {d : Decision} :
    Frame WorkDb.githubExports (WorkItems.decide actor id d) := by
  refine .check <| .look fun _ => .bind .demand fun p => ?_
  obtain ⟨task, w⟩ := p
  refine .check <| .check <| .ite ?_ ?_
  · exact .check <| .pure
  · exact .check <| .look fun _ => .check <|
      .bind (decideTask_exports) fun _ => .bind (advanceItem_exports) fun _ => .pure

theorem addSupplement_exports {c : SupplementCommand} {new : Uuid} :
    Frame WorkDb.githubExports (service.addSupplement actor id c new) := by
  refine .check <| .look fun _ => .bind .demand fun _ =>
    .look fun existing => ?_
  cases existing with
  | some s => exact .check <| .pure
  | none =>
    refine .check <| .bind (advanceItem_exports) fun _ => .bind ?_
      fun _ => .pure
    exact .look fun _ => .check <| .write fun _ => rfl

theorem changeStatus_exports {task : Uuid} {c : StatusDecision} :
    Frame WorkDb.githubExports (WorkItems.changeStatus actor task c id now) := by
  have hmove : ∀ x w, Frame WorkDb.githubExports (WorkItems.moveStatus actor c x w id now) :=
    fun x w => .bind (advanceItem_exports) fun _ => .look fun _ =>
      .check <| .write fun _ => rfl
  refine .check <| .look fun _ => .bind .demand fun p => ?_
  obtain ⟨x, w⟩ := p
  refine .look fun _ => .bind .demand fun r => .check <| ?_
  cases x.decision with
  | some old => exact .check <| .pure
  | none =>
    exact .check <| .bind (.updateOne fun _ => rfl) fun _ =>
      .ite (.bind (hmove x w) fun _ => .pure) (.bind (.pure (x := ())) fun _ => .pure)

def ReceiptAdded (db db' : WorkDb) : Prop :=
  db'.githubExports = db.githubExports ∨
    ∃ e, (∀ x ∈ db.githubExports, x.workItemId ≠ e.workItemId) ∧ e.leaseToken = none ∧
      e.status ≠ .sent ∧ db'.githubExports = db.githubExports ++ [e]

theorem WorkCommand.exec_exports {c : WorkCommand} {a : Acceptance}
    (h : (c.exec service).run db = .ok (a, db')) : ReceiptAdded db db' := by
  cases c with
  | decide actor task d => exact .inl (decide_exports h)
  | addSupplement actor item c id => exact .inl (addSupplement_exports h)
  | changeStatus actor task c id now => exact .inl (changeStatus_exports h)
  | exportGithub actor id c now =>
    simp only [WorkCommand.exec, WorkItems.exportGithub, answers] at h
    obtain ⟨-, ⟨task, w, process, canExport⟩, -, -, h⟩ := h
    split at h
    · simp only [answers] at h
      obtain ⟨-, -, rfl⟩ := h
      exact .inl rfl
    · next hexisting =>
      simp only [WorkItems.acceptExport, WorkItems.insertExport, answers] at h
      obtain ⟨-, -, -, -, _, mid, hadvance, _, _, hdecide, -, rfl⟩ := h
      refine .inr ⟨c.row w.id id actor (db.exportTarget w) now, ?_, rfl, ?_, ?_⟩
      · intro x hx (hitem : x.workItemId = w.id)
        exact find?_eq_none.1 hexisting x hx (decide_eq_true hitem)
      · show (if c.send then ExportStatus.pending else .skipped) ≠ .sent
        split <;> exact ExportStatus.noConfusion
      · rw [decideTask_exports hdecide, advanceItem_exports hadvance]

/-! ### One row of the receipts -/

structure Rewrites (db db' : WorkDb) (e e' : ExportRow) : Prop where
  mem : e ∈ db.githubExports
  item : e'.workItemId = e.workItemId
  exports : db'.githubExports = Table.set (·.workItemId) e' db.githubExports

namespace Rewrites

variable {e e' x : ExportRow}

section

variable (h : Rewrites db db' e e')

include h

theorem keys (hkeys : (db.githubExports.map (·.workItemId)).Nodup) :
    (db'.githubExports.map (·.workItemId)).Nodup := by
  rw [h.exports, map_key_set]
  exact hkeys

theorem cases_mem (hx : x ∈ db'.githubExports) :
    x = e' ∨ x ∈ db.githubExports ∧ x.workItemId ≠ e.workItemId := by
  rw [h.exports] at hx
  rw [← h.item]
  exact mem_set hx

theorem self_mem : e' ∈ db'.githubExports := by
  rw [h.exports]
  exact mem_set_self ⟨e, h.mem, h.item.symm⟩

theorem other_mem (hx : x ∈ db.githubExports)
    (hne : x.workItemId ≠ e.workItemId) : x ∈ db'.githubExports := by
  rw [h.exports]
  exact mem_set_of_ne hx (h.item ▸ hne)

end

end Rewrites

namespace WorkItems

section

variable (hkeys : (db.githubExports.map (·.workItemId)).Nodup)

include hkeys

theorem claimExport_ok (h : (claimExport item token now).run db = .ok (true, db')) :
    ∃ e, e.workItemId = item ∧ e.status.undelivered = true ∧ Rewrites db db' e
      { e with
        leaseUntil := now + 600
        leaseToken := some token
        status := if e.status = .sending then .uncertain else e.status } := by
  simp only [claimExport, answers] at h
  obtain ⟨hclaimed, rfl⟩ := h
  rcases map_ite_cases (f := fun e : ExportRow => { e with
      leaseUntil := now + 600
      leaseToken := some token
      status := if e.status = .sending then .uncertain else e.status }) hkeys
    (p := fun e => e.workItemId = item ∧ e.leaseUntil < now ∧ e.status.undelivered = true)
    (fun e he => he.1) (fun _ => rfl) with ⟨hnone, -⟩ | ⟨e, he, hfree, hset⟩
  · obtain ⟨e, he, hfree⟩ := any_eq_true.1 hclaimed
    exact absurd (of_decide_eq_true hfree) (hnone e he)
  · exact ⟨e, hfree.1, hfree.2.2, he, rfl, hset⟩

variable {state : ExportStatus}

theorem exportState_ok (h : (exportState item token state attempt).run db = .ok (u, db')) :
    ∃ e, e.workItemId = item ∧ e.leaseToken = some token ∧ Rewrites db db' e
      { e with status := state, attemptedAt := attempt <|> e.attemptedAt } := by
  obtain ⟨hone, rfl⟩ := updateOne_ok.1 h
  obtain ⟨e, he, ⟨hitem, htoken⟩, hset⟩ := map_ite_of_one
    (f := fun e : ExportRow => { e with status := state, attemptedAt := attempt <|> e.attemptedAt })
    hkeys (fun e he => he.1) (fun _ => rfl) hone
  exact ⟨e, hitem, htoken, he, rfl, hset⟩

theorem settleExport_ok (h : (settleExport r token issue).run db = .ok (u, db')) :
    ∃ e, e.leaseToken = some token ∧ (e.status = .sending ∨ e.status = .uncertain) ∧
      Rewrites db db' e { e with status := .sent, issue := some issue } := by
  simp only [settleExport, answers] at h
  obtain ⟨hone, rfl⟩ := h
  obtain ⟨e, he, ⟨hitem, htoken, hstatus⟩, hset⟩ := map_ite_of_one
    (f := fun e : ExportRow => { e with status := .sent, issue := some issue })
    hkeys (fun e he => he.1) (fun _ => rfl) hone
  exact ⟨e, htoken, hstatus, he, rfl, hset⟩

end

theorem releaseExport_cases (hkeys : (db.githubExports.map (·.workItemId)).Nodup) :
    (((releaseExport item token now).commit db).2).githubExports = db.githubExports ∨
      ∃ e, Rewrites db ((releaseExport item token now).commit db).2 e
        { e with leaseUntil := now + 60, leaseToken := none } := by
  rcases map_ite_cases
    (f := fun e : ExportRow => { e with leaseUntil := now + 60, leaseToken := none }) hkeys
    (p := fun e => e.workItemId = item ∧ e.leaseToken = some token) (fun e he => he.1)
    (fun _ => rfl) with ⟨-, hsame⟩ | ⟨e, he, -, hset⟩
  · exact .inl hsame
  · exact .inr ⟨e, he, rfl, hset⟩

theorem exportReceipt_ok (h : (exportReceipt item token).run db = .ok (r, db')) :
    ∃ e ∈ db.githubExports, e.workItemId = item ∧ e.leaseToken = some token ∧
      r.status = e.status := by
  simp only [exportReceipt, answers] at h
  obtain ⟨e, hrow, target, -, rfl, -⟩ := h
  have hfound := find?_some hrow
  obtain ⟨hitem, htoken⟩ := of_decide_eq_true hfound
  exact ⟨e, mem_of_find?_eq_some hrow, hitem, htoken, rfl⟩

end WorkItems

/-! ### Requests -/

/-- A request that is about to be sent or was sent, and was not rejected. -/
def Live (ls : List ExportLabel) (item token : Uuid) : Prop :=
  .marked item token ∈ ls ∧ .rejected item token ∉ ls

namespace ExportLabel

def subject : ExportLabel → Option Uuid
  | .marked _ t | .sent _ t | .rejected _ t => some t
  | .silent => none

def isMarked : ExportLabel → Bool
  | .marked _ _ => true
  | _ => false

def createdBy (item : Uuid) : ExportLabel → Option Uuid
  | .sent i t => if i = item then some t else none
  | _ => none

theorem createdBy_eq_some {item t : Uuid} {l : ExportLabel} :
    l.createdBy item = some t ↔ l = .sent item t := by
  cases l with
  | sent i k => simp [createdBy]
  | marked | rejected | silent => simp [createdBy]

end ExportLabel

/-- The requests to create an issue for the work item, by the passes that have sent them. -/
def creates (ls : List ExportLabel) (item : Uuid) : List Uuid := ls.filterMap (·.createdBy item)

/-- The requests that were not definitively rejected. -/
def openCreates (ls : List ExportLabel) (item : Uuid) : List Uuid :=
  (creates ls item).filter fun t => ExportLabel.rejected item t ∉ ls

theorem mem_creates {ls : List ExportLabel} {item t : Uuid} :
    t ∈ creates ls item ↔ .sent item t ∈ ls := by
  simp only [creates, mem_filterMap, createdBy_eq_some, exists_eq_right]

variable {ls : List ExportLabel} {l : ExportLabel} {t : Uuid}

theorem mem_append_label {m : ExportLabel} (hm : m.subject = some t) (hl : l.subject ≠ some t) :
    m ∈ ls ++ [l] ↔ m ∈ ls := by
  rw [mem_append, mem_singleton]
  refine ⟨fun h => h.resolve_right ?_, .inl⟩
  rintro rfl
  exact hl hm

theorem Live.of_append (hl : l.isMarked = false) (h : Live (ls ++ [l]) item t) :
    Live ls item t := by
  obtain ⟨hmarked, hrejected⟩ := h
  refine ⟨?_, fun hmem => hrejected (mem_append_left _ hmem)⟩
  rcases mem_append.1 hmarked with hmem | hmem
  · exact hmem
  · rw [← mem_singleton.1 hmem] at hl
    cases hl

theorem Live.cases_marked {i : Uuid} (h : Live (ls ++ [.marked i k]) item t) :
    Live ls item t ∨ item = i ∧ t = k := by
  obtain ⟨hmarked, hrejected⟩ := h
  rcases mem_append.1 hmarked with hmem | hmem
  · exact .inl ⟨hmem, fun hmem => hrejected (mem_append_left _ hmem)⟩
  · cases mem_singleton.1 hmem
    exact .inr ⟨rfl, rfl⟩

def ExportStatus.attempted : ExportStatus → Bool
  | .sending | .uncertain | .sent => true
  | .pending | .blocked | .skipped => false

namespace ExportPhase

/-- The status that a pass finds as long as it holds the lease. -/
def Fits : ExportPhase → ExportStatus → Prop
  | .claimed, s => s = .pending ∨ s = .blocked ∨ s = .uncertain
  | .read r, s | .checked r, s | .authorized r, s =>
    s = r.status ∧ (s = .pending ∨ s = .blocked ∨ s = .uncertain)
  | .verified r, s | .ready r, s => s = r.status ∧ (s = .pending ∨ s = .blocked)
  | .sending _, s | .waiting _, s | .created _ _, s | .rejected, s | .unsure, s => s = .sending
  | .ending, _ => True

theorem Fits.claimed {s : ExportStatus} (h : s.undelivered = true) :
    ExportPhase.claimed.Fits (if s = .sending then .uncertain else s) := by
  cases s with
  | pending => exact .inl rfl
  | blocked => exact .inr (.inl rfl)
  | sending | uncertain => exact .inr (.inr rfl)
  | sent | skipped => cases h

/-- What a pass has told so far. Only a receipt that is not uncertain is sent. -/
def Told (ls : List ExportLabel) (item token : Uuid) : ExportPhase → Prop
  | .claimed | .read _ | .checked _ | .authorized _ => .marked item token ∉ ls
  | .verified r | .ready r => .marked item token ∉ ls ∧ r.status ≠ .uncertain
  | .sending r => .marked item token ∈ ls ∧ .sent item token ∉ ls ∧ r.status ≠ .uncertain
  | .waiting r => .sent item token ∈ ls ∧ .rejected item token ∉ ls ∧ r.status ≠ .uncertain
  | .created _ _ | .rejected | .unsure | .ending => True

theorem Told.append (h : phase.Told ls item token)
    (hl : l.subject ≠ some token) : phase.Told (ls ++ [l]) item token := by
  have hmarked : ExportLabel.marked item token ∈ ls ++ [l] ↔ .marked item token ∈ ls :=
    mem_append_label rfl hl
  have hsent : ExportLabel.sent item token ∈ ls ++ [l] ↔ .sent item token ∈ ls :=
    mem_append_label rfl hl
  have hrejected : ExportLabel.rejected item token ∈ ls ++ [l] ↔ .rejected item token ∈ ls :=
    mem_append_label rfl hl
  cases phase with
  | claimed | read | checked | authorized | verified | ready => simpa only [Told, hmarked] using h
  | sending => simpa only [Told, hmarked, hsent] using h
  | waiting => simpa only [Told, hsent, hrejected] using h
  | _ => trivial

end ExportPhase

/-! ### The invariant -/

structure LogSound (ls : List ExportLabel) (issued : List Uuid) : Prop where
  marked : ∀ i t, .marked i t ∈ ls → t ∈ issued
  sent : ∀ i t, .sent i t ∈ ls → .marked i t ∈ ls
  rejected : ∀ i t, .rejected i t ∈ ls → .sent i t ∈ ls
  once : ∀ i, (creates ls i).Nodup
  one : ∀ i t t', Live ls i t → Live ls i t' → t = t'

structure DeliveredOnce (ls : List ExportLabel) (db : WorkDb) (issued : List Uuid) : Prop where
  log : LogSound ls issued
  keys : (db.githubExports.map (·.workItemId)).Nodup
  attempted : ∀ i t, Live ls i t → ∃ e ∈ db.githubExports, e.workItemId = i ∧
    e.status.attempted = true
  issue : ∀ e ∈ db.githubExports, e.status = .sent → e.issue ≠ none

structure ExportPass.InStep (ls : List ExportLabel) (db : WorkDb) (p : ExportPass) : Prop where
  told : p.phase.Told ls p.item p.token
  current : ∀ e ∈ db.githubExports, e.workItemId = p.item → e.leaseToken = some p.token →
    p.phase.Fits e.status ∧ (p.phase = .rejected → ∀ t, ¬ Live ls p.item t)

/-- When a label can be told. -/
def ExportLabel.Follows (ls : List ExportLabel) (issued : List Uuid) : ExportLabel → Prop
  | .silent => True
  | .marked i t => t ∈ issued ∧ ∀ k, ¬ Live ls i k
  | .sent i t => .marked i t ∈ ls ∧ .sent i t ∉ ls
  | .rejected i t => .sent i t ∈ ls

theorem LogSound.append {issued : List Uuid} (h : LogSound ls issued) (hl : l.Follows ls issued) :
    LogSound (ls ++ [l]) issued := by
  refine ⟨?_, ?_, ?_, ?_, ?_⟩
  · intro i t hmem
    rcases mem_append.1 hmem with hmem | hmem
    · exact h.marked i t hmem
    · cases mem_singleton.1 hmem
      exact hl.1
  · intro i t hmem
    rcases mem_append.1 hmem with hmem | hmem
    · exact mem_append_left _ (h.sent i t hmem)
    · cases mem_singleton.1 hmem
      exact mem_append_left _ hl.1
  · intro i t hmem
    rcases mem_append.1 hmem with hmem | hmem
    · exact mem_append_left _ (h.rejected i t hmem)
    · cases mem_singleton.1 hmem
      exact mem_append_left _ hl
  · intro i
    rw [creates, filterMap_append]
    refine List.Nodup.append (h.once i) ?_ ?_
    · cases hl' : l.createdBy i with
      | none | some => simp [hl']
    · intro t ht ht'
      obtain ⟨m, hm, hcreated⟩ := mem_filterMap.1 ht'
      rw [mem_singleton.1 hm, createdBy_eq_some] at hcreated
      subst hcreated
      exact hl.2 (mem_creates.1 ht)
  · intro i t t' ht ht'
    cases l with
    | marked j k =>
      rcases ht.cases_marked with hold | ⟨hj, hk⟩
      · rcases ht'.cases_marked with hold' | ⟨rfl, -⟩
        · exact h.one i t t' hold hold'
        · exact absurd hold (hl.2 t)
      · rcases ht'.cases_marked with hold' | ⟨-, hk'⟩
        · exact absurd (hj ▸ hold') (hl.2 t')
        · rw [hk, hk']
    | silent | sent | rejected => exact h.one i t t' (ht.of_append rfl) (ht'.of_append rfl)

/-- How a step of the pass with this token writes over a receipt. -/
structure ReceiptMove (ls : List ExportLabel) (l : ExportLabel) (token : Uuid) (e e' : ExportRow) :
    Prop where
  lease : e'.leaseToken = some token ∨ e'.leaseToken = none
  live : ∀ t, Live ls e.workItemId t → e'.status.attempted = true
  uncertain : e.status = .uncertain → e'.status = .uncertain ∨ e'.status = .sent
  sent : e.status = .sent → e'.status = .sent ∧ e'.issue = e.issue
  issue : e'.status = .sent → e'.issue = e.issue ∧ e.status = .sent ∨ e'.issue ≠ none
  marked : ∀ i t, l = .marked i t → i = e.workItemId ∧ t = token ∧
    e.status.attempted = false ∧ e'.status = .sending

theorem LogSound.mono {issued issued' : List Uuid} (h : LogSound ls issued)
    (hsub : ∀ t ∈ issued, t ∈ issued') : LogSound ls issued' :=
  { h with marked := fun i t hmem => hsub t (h.marked i t hmem) }

variable {issued : List Uuid} {e e' : ExportRow}

theorem LogSound.of_open (h : LogSound ls issued) (ht : t ∈ openCreates ls item) :
    .sent item t ∈ ls ∧ Live ls item t := by
  obtain ⟨hcreated, hrejected⟩ := mem_filter.1 ht
  have hsent := mem_creates.1 hcreated
  exact ⟨hsent, h.sent _ _ hsent, of_decide_eq_true hrejected⟩

theorem LogSound.openCreates_length (h : LogSound ls issued) (item : Uuid) :
    (openCreates ls item).length ≤ 1 := by
  have hnodup : (openCreates ls item).Nodup := (h.once item).filter _
  have hone : ∀ t ∈ openCreates ls item, ∀ t' ∈ openCreates ls item, t = t' :=
    fun t ht t' ht' => h.one item t t' (h.of_open ht).2 (h.of_open ht').2
  generalize openCreates ls item = ts at hnodup hone
  match ts with
  | [] => exact Nat.zero_le 1
  | [_] => exact le_rfl
  | t :: t' :: rest =>
    have heq := hone t mem_cons_self t' (mem_cons_of_mem _ mem_cons_self)
    rw [heq] at hnodup
    exact absurd mem_cons_self (nodup_cons.1 hnodup).1

theorem DeliveredOnce.empty (h : db.githubExports = []) : DeliveredOnce [] db issued := by
  have hnone : ∀ i t, ¬ Live [] i t := fun i t hlive => not_mem_nil hlive.1
  have hlog : LogSound [] issued :=
    ⟨fun _ _ hmem => absurd hmem not_mem_nil, fun _ _ hmem => absurd hmem not_mem_nil,
      fun _ _ hmem => absurd hmem not_mem_nil, fun _ => nodup_nil,
      fun i t _ hlive => absurd hlive (hnone i t)⟩
  refine ⟨hlog, ?_, fun i t hlive => absurd hlive (hnone i t), ?_⟩ <;> rw [h]
  · exact nodup_nil
  · exact fun _ hmem => absurd hmem not_mem_nil

theorem DeliveredOnce.tell (h : DeliveredOnce ls db issued)
    (hexports : db'.githubExports = db.githubExports) (hl : l.Follows ls issued)
    (hmark : l.isMarked = false) : DeliveredOnce (ls ++ [l]) db' issued := by
  refine ⟨h.log.append hl, ?_, ?_, ?_⟩ <;> rw [hexports]
  · exact h.keys
  · exact fun i t hlive => h.attempted i t (hlive.of_append hmark)
  · exact h.issue

theorem DeliveredOnce.rewrite (h : DeliveredOnce ls db issued) (hrw : Rewrites db db' e e')
    (hmove : ReceiptMove ls l token e e') (hl : l.Follows ls issued) :
    DeliveredOnce (ls ++ [l]) db' issued := by
  refine ⟨h.log.append hl, hrw.keys h.keys, ?_, ?_⟩
  · intro i t hlive
    have hrow : Live ls i t ∨ i = e.workItemId ∧ e'.status = .sending := by
      cases l with
      | marked j k =>
        obtain ⟨rfl, rfl, -, hsending⟩ := hmove.marked j k rfl
        exact hlive.cases_marked.imp_right fun hi => ⟨hi.1, hsending⟩
      | silent | sent | rejected => exact .inl (hlive.of_append rfl)
    rcases hrow with hold | ⟨rfl, hsending⟩
    · by_cases hi : i = e.workItemId
      · subst hi
        exact ⟨e', hrw.self_mem, hrw.item, hmove.live t hold⟩
      · obtain ⟨x, hx, rfl, hstatus⟩ := h.attempted i t hold
        exact ⟨x, hrw.other_mem hx hi, rfl, hstatus⟩
    · exact ⟨e', hrw.self_mem, hrw.item, by rw [hsending]; rfl⟩
  · intro x hx hsent
    rcases hrw.cases_mem hx with rfl | ⟨hmem, -⟩
    · rcases hmove.issue hsent with ⟨hissue, hold⟩ | hissue
      · rw [hissue]
        exact h.issue e hrw.mem hold
      · exact hissue
    · exact h.issue x hmem hsent

theorem DeliveredOnce.insert (h : DeliveredOnce ls db issued)
    (hnew : ∀ x ∈ db.githubExports, x.workItemId ≠ e.workItemId) (hstatus : e.status ≠ .sent)
    (hexports : db'.githubExports = db.githubExports ++ [e]) :
    DeliveredOnce (ls ++ [.silent]) db' issued := by
  refine ⟨h.log.append trivial, ?_, ?_, ?_⟩ <;> rw [hexports]
  · exact nodup_append_single h.keys hnew
  · intro i t hlive
    obtain ⟨x, hx, hrow⟩ := h.attempted i t (hlive.of_append rfl)
    exact ⟨x, mem_append_left _ hx, hrow⟩
  · intro x hx hsent
    rcases mem_append.1 hx with hx | hx
    · exact h.issue x hx hsent
    · rw [mem_singleton.1 hx] at hsent
      exact absurd hsent hstatus

namespace ExportPass.InStep

variable {p q : ExportPass}

theorem tell (h : q.InStep ls db) (hexports : db'.githubExports = db.githubExports)
    (hl : l.subject ≠ some q.token) (hmark : l.isMarked = false) : q.InStep (ls ++ [l]) db' := by
  refine ⟨h.told.append hl, fun x hx hitem htoken => ?_⟩
  rw [hexports] at hx
  obtain ⟨hfits, hnone⟩ := h.current x hx hitem htoken
  exact ⟨hfits, fun hphase t hlive => hnone hphase t (hlive.of_append hmark)⟩

theorem rewrite (h : q.InStep ls db) (hrw : Rewrites db db' e e')
    (hmove : ReceiptMove ls l token e e')
    (hne : q.token ≠ token) (hl : l.subject ≠ some q.token) : q.InStep (ls ++ [l]) db' := by
  refine ⟨h.told.append hl, fun x hx hitem htoken => ?_⟩
  rcases hrw.cases_mem hx with rfl | ⟨hmem, hother⟩
  · rcases hmove.lease with hlease | hlease
    · rw [hlease, Option.some.injEq] at htoken
      exact absurd htoken.symm hne
    · rw [hlease] at htoken
      cases htoken
  · obtain ⟨hfits, hnone⟩ := h.current x hmem hitem htoken
    refine ⟨hfits, fun hphase t hlive => ?_⟩
    cases l with
    | marked i k =>
      rcases hlive.cases_marked with hold | ⟨hi, -⟩
      · exact hnone hphase t hold
      · exact hother (hitem.trans (hi.trans (hmove.marked i k rfl).1))
    | silent | sent | rejected => exact hnone hphase t (hlive.of_append rfl)

end ExportPass.InStep

/-! ### Steps of a pass -/

/-- What a step of the pass with this token does to the receipts. -/
def Affects (ls : List ExportLabel) (l : ExportLabel) (token : Uuid) (db db' : WorkDb) : Prop :=
  (db'.githubExports = db.githubExports ∧ l.isMarked = false) ∨
    ∃ e e', Rewrites db db' e e' ∧ ReceiptMove ls l token e e'

theorem DeliveredOnce.attempted_of_mem (h : DeliveredOnce ls db issued) (he : e ∈ db.githubExports)
    (hlive : Live ls e.workItemId t) : e.status.attempted = true := by
  obtain ⟨x, hx, hitem, hstatus⟩ := h.attempted _ t hlive
  obtain rfl : x = e := eq_of_key_eq h.keys hx he hitem
  exact hstatus

theorem ReceiptMove.state {state : ExportStatus} (hlease : e.leaseToken = some token)
    (hlive : ∀ t, Live ls e.workItemId t → state.attempted = true)
    (hold : e.status = .pending ∨ e.status = .blocked ∨ e.status = .sending)
    (hstate : state ≠ .sent) :
    ReceiptMove ls .silent token e
      { e with status := state, attemptedAt := attempt <|> e.attemptedAt } := by
  refine ⟨.inl hlease, hlive, ?_, ?_, fun hsent => absurd hsent hstate, nofun⟩
  · intro huncertain
    rw [huncertain] at hold
    rcases hold with hold | hold | hold <;> cases hold
  · intro hsent
    rw [hsent] at hold
    rcases hold with hold | hold | hold <;> cases hold

theorem ReceiptMove.settle (hlease : e.leaseToken = some token)
    (hold : e.status = .sending ∨ e.status = .uncertain) :
    ReceiptMove ls .silent token e { e with status := .sent, issue := some issue } := by
  refine ⟨.inl hlease, fun _ _ => rfl, fun _ => .inr rfl, ?_, fun _ => .inr nofun, nofun⟩
  intro hsent
  rw [hsent] at hold
  rcases hold with hold | hold <;> cases hold

theorem DeliveredOnce.state {state : ExportStatus} (h : DeliveredOnce ls db issued)
    (hstate : state ≠ .sent)
    (hrow : ∀ e ∈ db.githubExports, e.workItemId = item → e.leaseToken = some token →
      (e.status = .pending ∨ e.status = .blocked ∨ e.status = .sending) ∧
        ∀ t, Live ls item t → state.attempted = true) :
    Affects ls .silent token db ((WorkItems.exportState item token state none).commit db).2 := by
  refine commit_snd (P := Affects ls .silent token db) (.inl ⟨rfl, rfl⟩) fun u db' hrun => ?_
  obtain ⟨e, rfl, hlease, hrw⟩ := WorkItems.exportState_ok h.keys hrun
  obtain ⟨hold, hlive⟩ := hrow e hrw.mem rfl hlease
  exact .inr ⟨e, _, hrw, .state hlease hlive hold hstate⟩

theorem DeliveredOnce.block (h : DeliveredOnce ls db issued)
    (hfits : ∀ e ∈ db.githubExports, e.workItemId = item → e.leaseToken = some token →
      e.status = .pending ∨ e.status = .blocked) :
    Affects ls .silent token db ((WorkItems.exportState item token .blocked none).commit db).2 := by
  refine h.state nofun fun e he hitem hlease => ?_
  have hstatus := hfits e he hitem hlease
  refine ⟨hstatus.imp_right .inl, fun t hlive => ?_⟩
  have hattempted := h.attempted_of_mem he (hitem ▸ hlive)
  rcases hstatus with hstatus | hstatus <;> rw [hstatus] at hattempted <;> cases hattempted

theorem DeliveredOnce.settle (h : DeliveredOnce ls db issued) :
    Affects ls .silent token db ((WorkItems.settleExport r token issue).commit db).2 := by
  refine commit_snd (P := Affects ls .silent token db) (.inl ⟨rfl, rfl⟩) fun u db' hrun => ?_
  obtain ⟨e, hlease, hstatus, hrw⟩ := WorkItems.settleExport_ok h.keys hrun
  exact .inr ⟨e, _, hrw, .settle hlease hstatus⟩

theorem Affects.shared (h : Affects ls l token db db') (hG : DeliveredOnce ls db issued)
    (hl : l.Follows ls issued) : DeliveredOnce (ls ++ [l]) db' issued := by
  rcases h with ⟨hsame, hmark⟩ | ⟨e, e', hrw, hmove⟩
  · exact hG.tell hsame hl hmark
  · exact hG.rewrite hrw hmove hl

theorem Affects.other {q : ExportPass} (h : Affects ls l token db db') (hq : q.InStep ls db)
    (hne : q.token ≠ token) (hl : l.subject ≠ some q.token) : q.InStep (ls ++ [l]) db' := by
  rcases h with ⟨hsame, hmark⟩ | ⟨e, e', hrw, hmove⟩
  · exact hq.tell hsame hl hmark
  · exact hq.rewrite hrw hmove hne hl

section

variable (hG : DeliveredOnce ls db issued)

include hG

theorem DeliveredOnce.claimed (he : e ∈ db.githubExports) (hopen : e.status.undelivered = true) :
    ReceiptMove ls .silent token e
      { e with
        leaseUntil := now + 600
        leaseToken := some token
        status := if e.status = .sending then .uncertain else e.status } := by
  refine ⟨.inl rfl, fun t hlive => ?_, fun hold => ?_, fun hold => ?_, fun hsent => ?_, nofun⟩
  · show (if e.status = .sending then ExportStatus.uncertain else e.status).attempted = true
    split
    · rfl
    · exact hG.attempted_of_mem he hlive
  · rw [hold]
    exact .inl rfl
  · rw [hold] at hopen
    cases hopen
  · have hboth : e.status = .sent := by
      by_cases hsending : e.status = .sending
      · rw [hsending] at hsent
        cases hsent
      · rwa [if_neg hsending] at hsent
    exact .inl ⟨rfl, hboth⟩

theorem DeliveredOnce.release :
    Affects ls .silent token db ((WorkItems.releaseExport item token now).commit db).2 := by
  rcases WorkItems.releaseExport_cases hG.keys with hsame | ⟨e, hrw⟩
  · exact .inl ⟨hsame, rfl⟩
  · have hlive : ∀ t, Live ls e.workItemId t → e.status.attempted = true :=
      fun t => hG.attempted_of_mem hrw.mem
    exact .inr ⟨e, _, hrw, .inr rfl, hlive, .inl, fun hold => ⟨hold, rfl⟩,
      fun hsent => .inl ⟨rfl, hsent⟩, nofun⟩

theorem DeliverMove.touches {p : ExportPass} (hp : p.InStep ls db)
    (h : DeliverMove p.item p.token p.now db p.phase l db' phase) :
    Affects ls l p.token db db' := by
  have hcurrent := hp.current
  generalize p.phase = phase₀ at h hcurrent
  cases h with
  | refused hstatus =>
    refine hG.block fun e he hitem hlease => ?_
    obtain ⟨hsame, hfits⟩ := (hcurrent e he hitem hlease).1
    exact hfits.imp_right fun h => h.resolve_right (hsame ▸ hstatus)
  | refusedAgain =>
    exact hG.block fun e he hitem hlease => (hcurrent e he hitem hlease).1.2
  | marked hrun =>
    obtain ⟨e, hitem, hlease, hrw⟩ := WorkItems.exportState_ok hG.keys hrun
    obtain ⟨-, hstatus⟩ := (hcurrent e hrw.mem hitem hlease).1
    have hbefore : e.status.attempted = false := by
      rcases hstatus with hstatus | hstatus <;> rw [hstatus] <;> rfl
    refine .inr ⟨e, _, hrw, .inl hlease, fun _ _ => rfl, ?_, ?_, nofun, ?_⟩
    · intro huncertain
      rw [huncertain] at hbefore
      cases hbefore
    · intro hsent
      rw [hsent] at hbefore
      cases hbefore
    · rintro i k hlabel
      cases hlabel
      exact ⟨hitem.symm, rfl, hbefore, rfl⟩
  | blocked =>
    refine hG.state nofun fun e he hitem hlease => ?_
    obtain ⟨hstatus, hnone⟩ := hcurrent e he hitem hlease
    exact ⟨.inr (.inr hstatus), fun t hlive => absurd hlive (hnone rfl t)⟩
  | doubted =>
    exact hG.state nofun fun e he hitem hlease =>
      ⟨.inr (.inr (hcurrent e he hitem hlease).1), fun _ _ => rfl⟩
  | found | settled => exact hG.settle
  | _ => exact .inl ⟨rfl, rfl⟩

theorem DeliverMove.follows {p : ExportPass} (hp : p.InStep ls db) (hissued : p.token ∈ issued)
    (h : DeliverMove p.item p.token p.now db p.phase l db' phase) : l.Follows ls issued := by
  have hcurrent := hp.current
  have htold := hp.told
  generalize p.phase = phase₀ at h hcurrent htold
  cases h with
  | marked hrun =>
    obtain ⟨e, hitem, hlease, hrw⟩ := WorkItems.exportState_ok hG.keys hrun
    obtain ⟨-, hstatus⟩ := (hcurrent e hrw.mem hitem hlease).1
    refine ⟨hissued, fun k hlive => ?_⟩
    have hattempted := hG.attempted_of_mem hrw.mem (hitem ▸ hlive)
    rcases hstatus with hstatus | hstatus <;> rw [hstatus] at hattempted <;> cases hattempted
  | sent => exact ⟨htold.1, htold.2.1⟩
  | rejected => exact htold.1
  | _ => trivial

end

theorem DeliverMove.told (hlog : LogSound ls issued)
    (htold : phase.Told ls item token) (h : DeliverMove item token now db phase l db' phase') :
    phase'.Told (ls ++ [l]) item token := by
  have hsilent : ∀ {m : ExportLabel}, m ≠ .silent → m ∈ ls ++ [.silent] → m ∈ ls := by
    intro m hm hmem
    exact (mem_append.1 hmem).resolve_right fun h => hm (mem_singleton.1 h)
  cases h with
  | read | checked | authorized => exact fun hmem => htold (hsilent nofun hmem)
  | verified hstatus => exact ⟨fun hmem => htold (hsilent nofun hmem), hstatus⟩
  | permitted => exact ⟨fun hmem => htold.1 (hsilent nofun hmem), htold.2⟩
  | marked =>
    refine ⟨mem_append_right _ (mem_singleton_self _), fun hmem => ?_, htold.2⟩
    rcases mem_append.1 hmem with hmem | hmem
    · exact htold.1 (hlog.sent _ _ hmem)
    · cases mem_singleton.1 hmem
  | sent =>
    refine ⟨mem_append_right _ (mem_singleton_self _), fun hmem => ?_, htold.2.2⟩
    rcases mem_append.1 hmem with hmem | hmem
    · exact htold.2.1 (hlog.rejected _ _ hmem)
    · cases mem_singleton.1 hmem
  | _ => trivial

theorem DeliverMove.current (hG : DeliveredOnce ls db issued) (htold : phase.Told ls item token)
    (hcurrent : ∀ e ∈ db.githubExports, e.workItemId = item → e.leaseToken = some token →
      phase.Fits e.status ∧ (phase = .rejected → ∀ t, ¬ Live ls item t))
    (h : DeliverMove item token now db phase l db' phase') :
    ∀ e ∈ db'.githubExports, e.workItemId = item → e.leaseToken = some token →
      phase'.Fits e.status ∧ (phase' = .rejected → ∀ t, ¬ Live (ls ++ [l]) item t) := by
  intro e he hitem hlease
  cases h with
  | read hrun =>
    obtain ⟨x, hx, hitem', -, hstatus⟩ := WorkItems.exportReceipt_ok hrun
    obtain rfl : x = e := eq_of_key_eq hG.keys hx he (hitem'.trans hitem.symm)
    exact ⟨⟨hstatus.symm, (hcurrent x hx hitem hlease).1⟩, nofun⟩
  | checked | authorized | permitted | sent | created | unsure =>
    exact ⟨(hcurrent e he hitem hlease).1, nofun⟩
  | verified hstatus =>
    obtain ⟨hsame, hfits⟩ := (hcurrent e he hitem hlease).1
    exact ⟨⟨hsame, hfits.imp_right fun h => h.resolve_right (hsame ▸ hstatus)⟩, nofun⟩
  | marked hrun =>
    obtain ⟨x, hitem', -, hrw⟩ := WorkItems.exportState_ok hG.keys hrun
    rcases hrw.cases_mem he with rfl | ⟨-, hne⟩
    · exact ⟨rfl, nofun⟩
    · exact absurd (hitem.trans hitem'.symm) hne
  | rejected =>
    refine ⟨(hcurrent e he hitem hlease).1, fun _ t hlive => ?_⟩
    -- the only request that was live is the one that was rejected
    have hown : Live ls item token := ⟨hG.log.sent _ _ htold.1, htold.2.1⟩
    obtain rfl := hG.log.one item t token (hlive.of_append rfl) hown
    exact hlive.2 (mem_append_right _ (mem_singleton_self _))
  | _ => exact ⟨trivial, nofun⟩

theorem DeliverMove.subject (hk : k ≠ token)
    (h : DeliverMove item token now db phase l db' phase') : l.subject ≠ some k := by
  cases h with
  | marked | sent | rejected => exact fun heq => hk (Option.some.inj heq).symm
  | _ => nofun

theorem DeliverEnd.touches {p : ExportPass} (hG : DeliveredOnce ls db issued)
    (h : DeliverEnd db p l db') : l = .silent ∧ Affects ls .silent p.token db db' := by
  cases h with
  | released now => exact ⟨rfl, hG.release⟩
  | crashed => exact ⟨rfl, .inl ⟨rfl, rfl⟩⟩

theorem DeliverOutside.exports (h : DeliverOutside service db l db') :
    l = .silent ∧ ReceiptAdded db db' := by
  cases h with
  | command c => exact ⟨rfl, commit_snd (.inl rfl) fun a u hrun => WorkCommand.exec_exports hrun⟩
  | other hsame => exact ⟨rfl, .inl hsame⟩

/-- The invariant is kept by all passes, whatever else goes on. -/
theorem deliveries_keep : (deliveries service).Keeps DeliveredOnce ExportPass.InStep where
  claim := by
    rintro ls db db' issued l p hG hnew ⟨rfl, hphase, hrun⟩
    obtain ⟨e, hitem, hopen, hrw⟩ := WorkItems.claimExport_ok hG.keys hrun
    have htouches : Affects ls .silent p.token db db' := .inr ⟨e, _, hrw, hG.claimed hrw.mem hopen⟩
    have hG' := htouches.shared hG trivial
    refine ⟨{ hG' with log := hG'.log.mono fun t => mem_cons_of_mem _ }, ⟨?_, ?_⟩,
      fun q hne hq => htouches.other hq hne nofun⟩
    · rw [hphase]
      exact fun hmem => hnew (hG'.log.marked _ _ hmem)
    · intro x hx hitem' _
      rw [hphase]
      refine ⟨?_, nofun⟩
      rcases hrw.cases_mem hx with rfl | ⟨-, hne⟩
      · exact .claimed hopen
      · exact absurd (hitem'.trans hitem.symm) hne
  move := by
    rintro ls db db' issued l p p' hG hissued hp ⟨hitem, htoken, -, hmove⟩
    have htouches := hmove.touches hG hp
    refine ⟨htouches.shared hG (hmove.follows hG hp hissued), ⟨?_, ?_⟩,
      fun q hne hq => htouches.other hq hne (hmove.subject hne)⟩
    · rw [hitem, htoken]
      exact hmove.told hG.log hp.told
    · rw [hitem, htoken]
      exact hmove.current hG hp.told hp.current
  drop := by
    intro ls db db' issued l p hG _ _ hend
    obtain ⟨rfl, htouches⟩ := DeliverEnd.touches hG hend
    exact ⟨htouches.shared hG trivial, fun q hne hq => htouches.other hq hne nofun⟩
  outside := by
    intro ls db db' issued l hG hother
    obtain ⟨rfl, hsame | ⟨e, hnew, hlease, hstatus, hexports⟩⟩ := DeliverOutside.exports hother
    · exact ⟨hG.tell hsame trivial rfl, fun q hq => hq.tell hsame nofun rfl⟩
    · refine ⟨hG.insert hnew hstatus hexports, fun q hq => ⟨hq.told.append nofun, ?_⟩⟩
      intro x hx hitem htoken
      rw [hexports] at hx
      rcases mem_append.1 hx with hx | hx
      · obtain ⟨hfits, hnone⟩ := hq.current x hx hitem htoken
        exact ⟨hfits, fun hphase t hlive => hnone hphase t (hlive.of_append rfl)⟩
      · rw [mem_singleton.1 hx, hlease] at htoken
        cases htoken

/-! ### Runs -/

structure ReceiptKept (l : ExportLabel) (e e' : ExportRow) : Prop where
  item : e'.workItemId = e.workItemId
  uncertain : e.status = .uncertain → e'.status = .uncertain ∨ e'.status = .sent
  sent : e.status = .sent → e'.status = .sent ∧ e'.issue = e.issue
  marked : ∀ t, l = .marked e.workItemId t → e.status.attempted = false

theorem ReceiptKept.refl (e : ExportRow) (hl : l.isMarked = false) : ReceiptKept l e e := by
  refine ⟨rfl, .inl, fun h => ⟨h, rfl⟩, ?_⟩
  rintro t rfl
  cases hl

theorem Affects.kept (h : Affects ls l token db db')
    (hkeys : (db.githubExports.map (·.workItemId)).Nodup) (he : e ∈ db.githubExports) :
    ∃ e' ∈ db'.githubExports, ReceiptKept l e e' := by
  rcases h with ⟨hsame, hmark⟩ | ⟨x, x', hrw, hmove⟩
  · exact ⟨e, hsame ▸ he, .refl e hmark⟩
  · by_cases hitem : e.workItemId = x.workItemId
    · obtain rfl : e = x := eq_of_key_eq hkeys he hrw.mem hitem
      exact ⟨x', hrw.self_mem, hrw.item, hmove.uncertain, hmove.sent,
        fun t hl => (hmove.marked _ t hl).2.2.1⟩
    · exact ⟨e, hrw.other_mem he hitem, rfl, .inl, fun h => ⟨h, rfl⟩,
        fun t hl => absurd (hmove.marked _ t hl).1 hitem⟩

variable {w w' : Workers WorkDb ExportPass Uuid} {ms : List ExportLabel}

theorem receipt_kept (hw : (deliveries service).Sound DeliveredOnce ExportPass.InStep ls w)
    (h : (deliveries service).Step w l w') (he : e ∈ w.store.githubExports) :
    ∃ e' ∈ w'.store.githubExports, ReceiptKept l e e' := by
  have hG := hw.shared
  cases h with
  | claim hnew hclaim =>
    obtain ⟨rfl, -, hrun⟩ := hclaim
    obtain ⟨x, -, hopen, hrw⟩ := WorkItems.claimExport_ok hG.keys hrun
    have htouches : Affects ls .silent _ w.store _ := .inr ⟨x, _, hrw, hG.claimed hrw.mem hopen⟩
    exact htouches.kept hG.keys he
  | move hmove =>
    have hp := hw.each _ mem_append_cons_self
    exact (hmove.2.2.2.touches hG hp).kept hG.keys he
  | drop hend =>
    obtain ⟨rfl, htouches⟩ := DeliverEnd.touches hG hend
    exact htouches.kept hG.keys he
  | outside hother =>
    obtain ⟨rfl, hsame | ⟨x, -, -, -, hexports⟩⟩ := DeliverOutside.exports hother
    · exact ⟨e, hsame ▸ he, .refl e rfl⟩
    · exact ⟨e, hexports ▸ mem_append_left _ he, .refl e rfl⟩

/-- What every step keeps of a receipt that was attempted. As long as it holds, nothing is
recorded as about to be sent. -/
theorem receipt_kept_run {P : ExportRow → Prop}
    (hP : ∀ l x x', ReceiptKept l x x' → P x → P x' ∧ x.status.attempted = true)
    (hw : (deliveries service).Sound DeliveredOnce ExportPass.InStep ls w)
    (hrun : Run (deliveries service).Step w ms w') (he : e ∈ w.store.githubExports) (hPe : P e) :
    (deliveries service).Sound DeliveredOnce ExportPass.InStep (ls ++ ms) w' ∧
      (∃ e' ∈ w'.store.githubExports, e'.workItemId = e.workItemId ∧ P e') ∧
      ∀ t, .marked e.workItemId t ∉ ms := by
  refine hrun.history (P := fun ms u =>
    (deliveries service).Sound DeliveredOnce ExportPass.InStep (ls ++ ms) u ∧
      (∃ e' ∈ u.store.githubExports, e'.workItemId = e.workItemId ∧ P e') ∧
      ∀ t, .marked e.workItemId t ∉ ms) ?_ ⟨by rwa [append_nil], ⟨e, he, rfl, hPe⟩, nofun⟩
  rintro ms u l u' ⟨hu, ⟨x, hx, hitem, hPx⟩, hnone⟩ hstep
  obtain ⟨x', hx', hkept⟩ := receipt_kept hu hstep hx
  obtain ⟨hPx', hattempted⟩ := hP l x x' hkept hPx
  rw [← append_assoc]
  refine ⟨deliveries_keep.step hu hstep, ⟨x', hx', hkept.item.trans hitem, hPx'⟩, fun t hmem => ?_⟩
  rcases mem_append.1 hmem with hmem | hmem
  · exact hnone t hmem
  · have hbefore := hkept.marked t (hitem ▸ (mem_singleton.1 hmem).symm)
    rw [hattempted] at hbefore
    cases hbefore

theorem ReceiptKept.of_sent {x : ExportRow} {issue : Option Issue} (h : ReceiptKept l x x')
    (hx : x.status = .sent ∧ x.issue = issue) :
    (x'.status = .sent ∧ x'.issue = issue) ∧ x.status.attempted = true := by
  obtain ⟨hstatus, hissue⟩ := h.sent hx.1
  exact ⟨⟨hstatus, hissue.trans hx.2⟩, by rw [hx.1]; rfl⟩

theorem ReceiptKept.of_uncertain {x : ExportRow} (h : ReceiptKept l x x')
    (hx : x.status = .uncertain ∨ x.status = .sent) :
    (x'.status = .uncertain ∨ x'.status = .sent) ∧ x.status.attempted = true := by
  refine ⟨hx.elim h.uncertain fun hsent => .inr (h.sent hsent).1, ?_⟩
  rcases hx with hx | hx <;> rw [hx] <;> rfl

/-- For each receipt at most one request stays without a rejection. From an uncertain receipt
only a request can still be sent that was recorded before, and none while another one is open;
an issue that was stored stays. -/
theorem export_at_most_once {w₀ : Workers WorkDb ExportPass Uuid}
    (hexports : w₀.store.githubExports = []) (hpasses : w₀.passes = [])
    (hrun : Run (deliveries service).Step w₀ ls w) :
    (∀ item, (openCreates ls item).length ≤ 1) ∧
    (∀ p ∈ w.passes, ∀ r, p.phase = .sending r ∨ p.phase = .waiting r → r.status ≠ .uncertain) ∧
    ∀ e ∈ w.store.githubExports,
      (e.status = .uncertain → ∀ ms w', Run (deliveries service).Step w ms w' →
        (∃ e' ∈ w'.store.githubExports, e'.workItemId = e.workItemId ∧
          (e'.status = .uncertain ∨ e'.status = .sent)) ∧
        (∀ t ∈ creates ms e.workItemId, .marked e.workItemId t ∈ ls) ∧
        (openCreates ls e.workItemId ≠ [] → creates ms e.workItemId = [])) ∧
      (e.status = .sent → e.issue ≠ none ∧ ∀ ms w', Run (deliveries service).Step w ms w' →
        ∃ e' ∈ w'.store.githubExports, e'.workItemId = e.workItemId ∧ e'.status = .sent ∧
          e'.issue = e.issue) := by
  have hw : (deliveries service).Sound DeliveredOnce ExportPass.InStep ls w :=
    deliveries_keep.run (Workers.Rules.Sound.idle hpasses (.empty hexports)) hrun
  have hlog := hw.shared.log
  refine ⟨hlog.openCreates_length, fun p hp r hphase => ?_, fun e he =>
    ⟨fun huncertain ms w' hmore => ?_,
    fun hsent => ⟨hw.shared.issue e he hsent, fun ms w' hmore => ?_⟩⟩⟩
  · have htold := (hw.each p hp).told
    rcases hphase with hphase | hphase <;> rw [hphase] at htold
    · exact htold.2.2
    · exact htold.2.2
  · obtain ⟨hw', hstays, hnone⟩ :=
      receipt_kept_run (fun _ _ _ => ReceiptKept.of_uncertain) hw hmore he (.inl huncertain)
    have hbefore : ∀ t ∈ creates ms e.workItemId, .marked e.workItemId t ∈ ls := by
      intro t ht
      have hmarked := hw'.shared.log.sent _ _ (mem_append_right ls (mem_creates.1 ht))
      exact (mem_append.1 hmarked).resolve_right (hnone t)
    refine ⟨hstays, hbefore, fun hne => eq_nil_iff_forall_not_mem.2 fun t ht => ?_⟩
    obtain ⟨k, hk⟩ := exists_mem_of_ne_nil _ hne
    obtain ⟨hsent, hlive⟩ := hlog.of_open hk
    -- a request is sent once, so this one was not rejected before
    have hnew : .sent e.workItemId t ∉ ls := by
      intro hmem
      have hnodup := hw'.shared.log.once e.workItemId
      rw [creates, filterMap_append] at hnodup
      exact (nodup_append.1 hnodup).2.2 t (mem_creates.2 hmem) t ht rfl
    have hlive' : Live ls e.workItemId t := ⟨hbefore t ht, fun h => hnew (hlog.rejected _ _ h)⟩
    exact hnew (hlog.one _ k t hlive hlive' ▸ hsent)
  · exact (receipt_kept_run (fun _ _ _ => ReceiptKept.of_sent) hw hmore he ⟨hsent, rfl⟩).2.1

end

/-! ### A request without an answer -/

namespace Sample

open WorkItems

def repository : Destination := ⟨1, 2, "team/prat", "sproyt[bot]"⟩

def exportable : WorkDb :=
  { workDb with
    chat := { workDb.chat with
      workItems := [{ workItem with processStatus := .completed, status := "planned" }]
      workItemTasks := [⟨90, 40, ⟨91⟩, room, alice, .publishGithub, .pending, true, .undecided⟩]
      workItemExportProcesses := [⟨40, room, alice, true, none⟩] }
    config := { workDb.config with
      taskRoutes := [⟨92, 43, room, "publish-github", "product-handler", true⟩]
      githubBindings := [⟨42, repository, true, true, 1⟩] } }

def exporting : WorkCommand :=
  .exportGithub alice 90 ⟨⟨91⟩, 93, 1, "Faster start", "It is slow.", true, some 2, some 1⟩ 0

def receipt : Receipt :=
  ⟨40, 90, alice, repository, 1, "Faster start", "It is slow.",
    exportMarker ++ Uuid.hyphenated 93 ++ " -->", .pending⟩

def exportAccepted : WorkDb := ((exporting.exec workItems).commit exportable).2

def exportClaimed : WorkDb := ((claimExport 40 94 100).commit exportAccepted).2

def exportSending : WorkDb := ((exportState 40 94 .sending (some 100)).commit exportClaimed).2

def exportTaken : WorkDb := ((claimExport 40 95 1000).commit exportSending).2

def exportLabels : List ExportLabel :=
  [.silent, .silent, .silent, .silent, .silent, .silent, .silent, .marked 40 94, .sent 40 94,
    .silent,
    .silent]

theorem export_run : Run (deliveries workItems).Step ⟨exportable, [], []⟩ exportLabels
    ⟨exportTaken, [⟨40, 95, 1000, .claimed⟩], [95, 94]⟩ := by
  have hclaim : (claimExport 40 94 100).run exportAccepted = .ok (true, exportClaimed) := rfl
  have hread : (exportReceipt 40 94).run exportClaimed = .ok (receipt, exportClaimed) := rfl
  have hallowed : exportClaimed.exportAllowed 40 alice (some receipt) = true := rfl
  have hmark : (exportState 40 94 .sending (some 100)).run exportClaimed =
      .ok ((), exportSending) := rfl
  have htake : (claimExport 40 95 1000).run exportSending = .ok (true, exportTaken) := rfl
  have hmove : ∀ {db db' : WorkDb} {phase phase' : ExportPhase} {l : ExportLabel},
      DeliverMove 40 94 100 db phase l db' phase' →
      (deliveries workItems).Step ⟨db, [⟨40, 94, 100, phase⟩], [94]⟩ l
        ⟨db', [⟨40, 94, 100, phase'⟩], [94]⟩ :=
    fun {_ _ phase phase' _} h => @Workers.Rules.Step.move _ _ _ _ (deliveries workItems) _ _ [] []
      ⟨40, 94, 100, phase⟩ ⟨40, 94, 100, phase'⟩ _ _ ⟨rfl, rfl, rfl, h⟩
  have hclaimed : (deliveries workItems).Step ⟨exportAccepted, [], []⟩ .silent
      ⟨exportClaimed, [⟨40, 94, 100, .claimed⟩], [94]⟩ :=
    .claim not_mem_nil ⟨rfl, rfl, hclaim⟩
  have hcrash : (deliveries workItems).Step
      ⟨exportSending, [⟨40, 94, 100, .waiting receipt⟩], [94]⟩ .silent ⟨exportSending, [], [94]⟩ :=
    @Workers.Rules.Step.drop _ _ _ _ (deliveries workItems) _ _ [] [] _ _ _ .crashed
  have htaken : (deliveries workItems).Step ⟨exportSending, [], [94]⟩ .silent
      ⟨exportTaken, [⟨40, 95, 1000, .claimed⟩], [95, 94]⟩ :=
    .claim (show (95 : Uuid) ∉ [94] by decide) ⟨rfl, rfl, htake⟩
  exact .cons (.outside (.command exporting)) <| .cons hclaimed <| .cons (hmove (.read hread)) <|
    .cons (hmove (.checked (.inr hallowed))) <| .cons (hmove .authorized) <|
    .cons (hmove (.verified nofun)) <| .cons (hmove (.permitted hallowed)) <|
    .cons (hmove (.marked hmark)) <| .cons (hmove .sent) <| .cons hcrash <| .single htaken

end Sample

theorem export_at_most_once_taken :
    Sample.exportTaken.githubExports.map (·.status) = [.uncertain] ∧
      openCreates Sample.exportLabels 40 = [94] ∧
      (openCreates Sample.exportLabels 40).length ≤ 1 :=
  ⟨rfl, rfl, (export_at_most_once rfl rfl Sample.export_run).1 40⟩

end Sproyt
