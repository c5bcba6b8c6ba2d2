import Mathlib.Logic.Function.Basic
import Sproyt.Db.Integrations
import Sproyt.Db.Rewriting
import Sproyt.Lib.Replay
import Sproyt.Lib.Run

/-!
# Alerts are delivered once

A webhook repeats its alerts, in any order and as often as it likes. The row of an
occurrence records which of its two messages were sent and whether it is resolved, and that
decides what a delivery does.
-/

namespace Sproyt

open List Txn Option

variable {s : AlertState} {fate : Fate} {alerts : List IncomingAlert}

section

variable {row : AlertOccurrenceRow} {known : Occurrence → Standing}

variable {db db' : Db} {m : ChatMessage} {alert : IncomingAlert} {env : DeliveryEnv}
  {r : DeliveryResult} {o : Occurrence}

/-! ### One delivery -/

inductive Delivered (alert : IncomingAlert) (env : DeliveryEnv) (db : Db) :
    DeliveryResult → Db → Prop
  | duplicate {row : AlertOccurrenceRow} {id : MessageId} {m : ChatMessage}
      (hrow : db.occurrence? alert.occurrence = some row)
      (hsent : row.messageFor alert.state = some id) (hm : db.message? id = some m) :
      Delivered alert env db (.duplicate m) db
  | ignored {row : AlertOccurrenceRow} (hrow : db.occurrence? alert.occurrence = some row)
      (hunsent : row.messageFor alert.state = none) (hfiring : alert.state = .firing)
      (hresolved : row.state = .resolved) :
      Delivered alert env db .ignoredResolved db
  | accepted {row : AlertOccurrenceRow} {m : ChatMessage} {db' : Db}
      (hchannel : db.integrationChannels alert.agentId alert.credentialId env.checkedAt =
        [m.channelId])
      (hrow : (db.occurrence? alert.occurrence).getD alert.newRow = row)
      (hunsent : row.messageFor alert.state = none)
      (hopen : alert.state = .firing → row.state ≠ .resolved) (hposted : Posted db m db')
      (hsender : m.senderId = alert.agentId) (hbody : m.body = alert.body)
      (hsettled : ∀ o, db'.occurrence? o =
        if o = alert.occurrence then some (row.settle m.id alert.state) else db.occurrence? o)
      (haccess : ∀ agent credential now, db'.integrationChannels agent credential now =
          db.integrationChannels agent credential now) :
      Delivered alert env db (.accepted m) db'

variable {id : MessageId}

theorem settle_occurrence : (row.settle id s).occurrence = row.occurrence := by
  cases s <;> rfl

theorem occurrence?_key (h : db.occurrence? o = some row) : row.occurrence = o := by
  have hrow := find?_some h
  rwa [decide_eq_true_eq] at hrow

theorem occurrence?_settled (rows : List AlertOccurrenceRow) :
    (rows.map fun r =>
        if r.occurrence = alert.occurrence then r.settle id alert.state else r).find?
        (fun r => r.occurrence = o) =
      (rows.find? fun r => r.occurrence = o).map fun r =>
        if r.occurrence = alert.occurrence then r.settle id alert.state else r := by
  apply Table.find?_map_same
  intro r
  by_cases h : r.occurrence = alert.occurrence
  · rw [if_pos h, settle_occurrence]
  · rw [if_neg h]

theorem registerOccurrence_ok {b : Bool} (h : (registerOccurrence alert).run db = .ok (b, db')) :
    ∃ rows, db' = { db with incomingAlertOccurrences := rows } ∧
      (∀ row, db.occurrence? alert.occurrence = some row → db' = db) ∧
      ∀ o, db'.occurrence? o =
        if o = alert.occurrence then some ((db.occurrence? alert.occurrence).getD alert.newRow)
        else db.occurrence? o := by
  rcases Sql.insertOrIgnore_ok.1 h with ⟨hpresent, -, rfl⟩ | ⟨habsent, -, -, -, rfl⟩
  · refine ⟨_, rfl, fun _ _ => rfl, fun o => ?_⟩
    obtain ⟨row, hrow⟩ := isSome_iff_exists.1 hpresent
    by_cases ho : o = alert.occurrence
    · rw [if_pos ho, ho, hrow, getD_some]
    · rw [if_neg ho]
  · have hnone : db.occurrence? alert.occurrence = none := by
      rwa [isSome_eq_false_iff, isNone_iff_eq_none] at habsent
    refine ⟨_, rfl, ?_, fun o => ?_⟩
    · intro row hrow
      rw [hnone] at hrow
      cases hrow
    unfold Db.occurrence? at hnone ⊢
    rw [find?_append]
    by_cases ho : o = alert.occurrence
    · rw [if_pos ho, ho, hnone]
      simp [IncomingAlert.newRow, AlertOccurrenceRow.occurrence, IncomingAlert.occurrence]
    · have hne : alert.newRow.occurrence ≠ o := fun h => ho h.symm
      rw [if_neg ho]
      simp [hne]

theorem occurrence?_of_used (hrow : (db.occurrence? alert.occurrence).getD alert.newRow = row)
    (hused : (∃ id, row.messageFor alert.state = some id) ∨ row.state = .resolved) :
    db.occurrence? alert.occurrence = some row := by
  cases hfound : db.occurrence? alert.occurrence with
  | some row' =>
    rw [hfound, getD_some] at hrow
    rw [hrow]
  | none =>
    rw [hfound, getD_none] at hrow
    subst hrow
    rcases hused with ⟨id, hid⟩ | hstate
    · cases hs : alert.state <;> rw [hs] at hid <;> cases hid
    · cases hstate

theorem deliverAlert_ok (h : (deliverAlert alert env).run db = .ok (r, db')) :
    Delivered alert env db r db' := by
  simp only [deliverAlert, Sql.answers, answers] at h
  obtain ⟨c, _, hchannel, _, db₁, hregister, row, hfind, h⟩ := h
  obtain ⟨hc, rfl⟩ := integrationChannel_ok.1 hchannel
  obtain ⟨rows, hrest, hsame, hrows⟩ := registerOccurrence_ok hregister
  have hkey := occurrence?_key hfind
  rw [hrows, if_pos rfl, some.injEq] at hfind
  unfold answerAlert at h
  cases hsent : row.messageFor alert.state with
  | some id =>
    rw [hsent] at h
    have hrow := occurrence?_of_used hfind (.inl ⟨id, hsent⟩)
    obtain rfl := hsame row hrow
    simp only [duplicateOf, Sql.answers, answers] at h
    obtain ⟨m, hm, rfl, rfl⟩ := h
    exact .duplicate hrow hsent hm
  | none =>
    simp only [hsent] at h
    by_cases hold : alert.state = .firing ∧ row.state = .resolved
    · rw [if_pos hold, pure_ok] at h
      obtain ⟨rfl, rfl⟩ := h
      have hrow := occurrence?_of_used hfind (.inr hold.2)
      obtain rfl := hsame row hrow
      exact .ignored hrow hsent hold.1 hold.2
    · rw [if_neg hold] at h
      simp only [postAlert, settleOccurrence, answers] at h
      obtain ⟨m, db₂, hinsert, rfl, rfl⟩ := h
      obtain ⟨hposted, hm, hdb₂⟩ := insertIntegrationMessage_ok hinsert
      have hchannel : m.channelId = c := by rw [hm]
      refine .accepted (by rw [hc, hchannel]) hfind hsent (fun hf hr => hold ⟨hf, hr⟩)
        (hposted.of_ledger (by rw [hrest]; rfl) rfl) (by rw [hm]) (by rw [hm]) ?_ ?_
      · intro o
        have hfind₂ : db₂.incomingAlertOccurrences.find? (fun r => r.occurrence = o) =
            db₁.occurrence? o := by
          rw [hdb₂]
          rfl
        rw [Db.occurrence?, occurrence?_settled, hfind₂, hrows]
        by_cases ho : o = alert.occurrence
        · rw [if_pos ho, if_pos ho, hfind, map_some, if_pos hkey]
        · rw [if_neg ho, if_neg ho]
          cases hr : db.occurrence? o with
          | none => rfl
          | some r =>
            have hne : r.occurrence ≠ alert.occurrence := occurrence?_key hr ▸ ho
            rw [map_some, if_neg hne]
      · intro agent credential now
        rw [hdb₂, hrest]
        rfl

/-! ### What the rows of the occurrences decide -/

/-- What is known of an occurrence: whether it is resolved and which messages were sent. -/
structure Standing where
  resolved : Bool
  firingSent : Bool
  resolvedSent : Bool

def Standing.takes (s : Standing) : AlertState → Bool
  | .firing => !s.firingSent && !s.resolved
  | .resolved => !s.resolvedSent

def Standing.mark (s : Standing) : AlertState → Standing
  | .firing => { s with firingSent := true }
  | .resolved => { s with resolvedSent := true, resolved := true }

def judge (known : Occurrence → Standing) (alert : IncomingAlert) :
    (Occurrence → Standing) × List (UserId × MessageBody) :=
  if (known alert.occurrence).takes alert.state then
    (Function.update known alert.occurrence ((known alert.occurrence).mark alert.state),
      [(alert.agentId, alert.body)])
  else (known, [])

theorem judge_of_takes (h : (known alert.occurrence).takes alert.state = true) : judge known alert =
      (Function.update known alert.occurrence ((known alert.occurrence).mark alert.state),
        [(alert.agentId, alert.body)]) :=
  if_pos h

theorem judge_of_not_takes
    (h : (known alert.occurrence).takes alert.state = false) : judge known alert = (known, []) :=
  if_neg (Bool.eq_false_iff.1 h)

theorem mark_takes_self {s : Standing} {a : AlertState} : (s.mark a).takes a = false := by
  cases a <;> simp [Standing.mark, Standing.takes]

theorem mark_takes_of_not {s : Standing} {a b : AlertState} (h : s.takes a = false) :
    (s.mark b).takes a = false := by
  cases a <;> cases b <;> simp_all [Standing.mark, Standing.takes]

theorem absorbed_iff : Replay.Absorbed judge known alert ↔
      (known alert.occurrence).takes alert.state = false := by
  unfold Replay.Absorbed
  cases htakes : (known alert.occurrence).takes alert.state with
  | true => simp [judge_of_takes htakes]
  | false => simp [judge_of_not_takes htakes]

theorem judge_absorbs_self (known : Occurrence → Standing) (alert : IncomingAlert) :
    Replay.Absorbed judge (judge known alert).1 alert := by
  cases htakes : (known alert.occurrence).takes alert.state with
  | true =>
    rw [judge_of_takes htakes, absorbed_iff]
    show (Function.update known _ _ alert.occurrence).takes alert.state = false
    rw [Function.update_self]
    exact mark_takes_self
  | false =>
    rw [judge_of_not_takes htakes, absorbed_iff]
    exact htakes

theorem judge_keeps_absorbed (known : Occurrence → Standing) (alert other : IncomingAlert)
    (h : Replay.Absorbed judge known alert) :
    Replay.Absorbed judge (judge known other).1 alert := by
  rw [absorbed_iff] at h ⊢
  cases htakes : (known other.occurrence).takes other.state with
  | true =>
    rw [judge_of_takes htakes]
    show (Function.update known _ _ alert.occurrence).takes alert.state = false
    by_cases ho : alert.occurrence = other.occurrence
    · rw [ho, Function.update_self]
      exact mark_takes_of_not (ho ▸ h)
    · rw [Function.update_of_ne ho]
      exact h
  | false =>
    rw [judge_of_not_takes htakes]
    exact h

def AlertOccurrenceRow.standing (row : AlertOccurrenceRow) : Standing :=
  ⟨row.state = .resolved, row.firingMessageId.isSome, row.resolvedMessageId.isSome⟩

def Db.standing (db : Db) (o : Occurrence) : Standing :=
  ((db.occurrence? o).map (·.standing)).getD ⟨false, false, false⟩

def Db.contents (db : Db) : List (UserId × MessageBody) :=
  db.messages.map fun m => (m.senderId, m.body)

theorem standing_eq :
    db.standing alert.occurrence =
      ((db.occurrence? alert.occurrence).getD alert.newRow).standing := by
  unfold Db.standing
  cases db.occurrence? alert.occurrence with
  | none | some => rfl

theorem takes_of_unsent (hunsent : row.messageFor s = none)
    (hopen : s = .firing → row.state ≠ .resolved) : row.standing.takes s = true := by
  cases s with
  | firing =>
    have hfiring : row.firingMessageId = none := hunsent
    simp [AlertOccurrenceRow.standing, Standing.takes, hfiring, hopen rfl]
  | resolved =>
    have hresolved : row.resolvedMessageId = none := hunsent
    simp [AlertOccurrenceRow.standing, Standing.takes, hresolved]

theorem not_takes_of_sent (hsent : row.messageFor s = some id) : row.standing.takes s = false := by
  cases s with
  | firing =>
    have hfiring : row.firingMessageId = some id := hsent
    simp [AlertOccurrenceRow.standing, Standing.takes, hfiring]
  | resolved =>
    have hresolved : row.resolvedMessageId = some id := hsent
    simp [AlertOccurrenceRow.standing, Standing.takes, hresolved]

theorem standing_settle
    (hopen : s = .firing → row.state ≠ .resolved) :
    (row.settle id s).standing = row.standing.mark s := by
  cases s with
  | firing => simp [AlertOccurrenceRow.settle, AlertOccurrenceRow.standing, Standing.mark,
    hopen rfl]
  | resolved => simp [AlertOccurrenceRow.settle, AlertOccurrenceRow.standing, Standing.mark]

/-- A delivery does what the standings say. -/
theorem Delivered.refines (h : Delivered alert env db r db') :
    db'.standing = (judge db.standing alert).1 ∧
      db'.contents = db.contents ++ (judge db.standing alert).2 := by
  cases h with
  | duplicate hrow hsent hm =>
    have htakes : (db.standing alert.occurrence).takes alert.state = false := by
      rw [standing_eq, hrow]
      exact not_takes_of_sent hsent
    rw [judge_of_not_takes htakes, append_nil]
    exact ⟨rfl, rfl⟩
  | @ignored row hrow hunsent hfiring hresolved =>
    have htakes : (db.standing alert.occurrence).takes alert.state = false := by
      rw [standing_eq, hrow, getD_some, hfiring]
      simp [AlertOccurrenceRow.standing, Standing.takes, hresolved]
    rw [judge_of_not_takes htakes, append_nil]
    exact ⟨rfl, rfl⟩
  | @accepted row m _ hchannel hrow hunsent hopen hposted hsender hbody hsettled haccess =>
    have hstanding : db.standing alert.occurrence = row.standing := by rw [standing_eq, hrow]
    have htakes : (db.standing alert.occurrence).takes alert.state = true := by
      rw [hstanding]
      exact takes_of_unsent hunsent hopen
    rw [judge_of_takes htakes]
    constructor
    · funext o
      show db'.standing o = Function.update db.standing alert.occurrence _ o
      by_cases ho : o = alert.occurrence
      · rw [ho, Function.update_self, hstanding, Db.standing, hsettled, if_pos rfl]
        exact standing_settle hopen
      · rw [Function.update_of_ne ho, Db.standing, hsettled, if_neg ho, Db.standing]
    · simp only [Db.contents, hposted.messages, map_append, map_cons, map_nil, hsender, hbody]

/-! ### Webhook batches -/

/-- What meets a delivery: its surroundings, and a failure from outside if there is one. -/
structure Fate where
  env : DeliveryEnv
  fault : Option RepositoryError

structure DeliverySummary where
  accepted : Nat
  duplicate : Nat
  ignored : Nat

def DeliverySummary.count (s : DeliverySummary) : DeliveryResult → DeliverySummary
  | .accepted _ => { s with accepted := s.accepted + 1 }
  | .duplicate _ => { s with duplicate := s.duplicate + 1 }
  | .ignoredResolved => { s with ignored := s.ignored + 1 }

def deliverOne (alert : IncomingAlert) (fate : Fate) (db : Db) :
    Except RepositoryError DeliveryResult × Db :=
  match fate.fault with
  | some e => (.error e, db)
  | none => (deliverAlert alert fate.env).commit db

/-- The loop of `receive_grafana_alerts`: alert by alert, up to the first error. -/
def deliverBatch : List (IncomingAlert × Fate) → DeliverySummary → Db →
    Except RepositoryError DeliverySummary × Db
  | [], summary, db => (.ok summary, db)
  | (alert, fate) :: rest, summary, db =>
    match deliverOne alert fate db with
    | (.ok r, db') => deliverBatch rest (summary.count r) db'
    | (.error e, db') => (.error e, db')

def deliverBatches (attempts : List (List (IncomingAlert × Fate))) (db : Db) : Db :=
  attempts.foldl (fun db batch => (deliverBatch batch ⟨0, 0, 0⟩ db).2) db

def Plays (db : Db) (alerts : List IncomingAlert) (db' : Db) : Prop :=
  db'.standing = (Replay.play judge db.standing alerts).1 ∧
    db'.contents = db.contents ++ (Replay.play judge db.standing alerts).2

theorem Plays.nil (db : Db) : Plays db [] db :=
  ⟨rfl, (append_nil _).symm⟩

theorem Plays.append {db₁ : Db} {xs ys : List IncomingAlert} (h : Plays db xs db₁)
    (h' : Plays db₁ ys db') : Plays db (xs ++ ys) db' := by
  unfold Plays at h h' ⊢
  rw [Replay.play_append, h'.1, h'.2, h.1, h.2, append_assoc]
  exact ⟨rfl, rfl⟩

theorem Delivered.plays (h : Delivered alert env db r db') : Plays db [alert] db' := by
  obtain ⟨hstanding, hcontents⟩ := h.refines
  refine ⟨hstanding, ?_⟩
  rw [hcontents]
  simp [Replay.play]

theorem deliverOne_ok (h : deliverOne alert fate db = (.ok r, db')) :
    Delivered alert fate.env db r db' := by
  unfold deliverOne at h
  cases hfault : fate.fault with
  | some e => simp [hfault] at h
  | none =>
    simp only [hfault] at h
    exact deliverAlert_ok (commit_eq_ok.1 h)

theorem deliverOne_error {e : RepositoryError}
    (h : deliverOne alert fate db = (.error e, db')) : db = db' := by
  unfold deliverOne at h
  cases hfault : fate.fault with
  | some e' =>
    simp only [hfault, Prod.mk.injEq] at h
    exact h.2
  | none =>
    simp only [hfault] at h
    exact (commit_eq_error.1 h).2

/-- A batch delivers the alerts up to its first error. -/
theorem deliverBatch_plays (batch : List (IncomingAlert × Fate)) (summary : DeliverySummary)
    (db : Db) :
    ∃ n, Plays db ((batch.map Prod.fst).take n) (deliverBatch batch summary db).2 ∧
      ∀ s, (deliverBatch batch summary db).1 = .ok s → batch.length ≤ n := by
  induction batch generalizing summary db with
  | nil => exact ⟨0, .nil db, fun s _ => Nat.le_refl 0⟩
  | cons x rest ih =>
    obtain ⟨alert, fate⟩ := x
    unfold deliverBatch
    cases hone : deliverOne alert fate db with
    | mk answer db₁ =>
      cases answer with
      | ok r =>
        obtain ⟨n, hplays, hfull⟩ := ih (summary.count r) db₁
        refine ⟨n + 1, (deliverOne_ok hone).plays.append hplays, fun s hs => ?_⟩
        have hlength := hfull s hs
        simp only [length_cons]
        omega
      | error e =>
        obtain rfl := deliverOne_error hone
        refine ⟨0, .nil db, fun s hs => ?_⟩
        cases hs

theorem deliverBatches_plays (attempts : List (List (IncomingAlert × Fate)))
    (halerts : ∀ batch ∈ attempts, batch.map Prod.fst = alerts) (db : Db) :
    ∃ ns : List Nat, Plays db (ns.flatMap (alerts.take ·)) (deliverBatches attempts db) := by
  induction attempts generalizing db with
  | nil => exact ⟨[], .nil db⟩
  | cons batch rest ih =>
    obtain ⟨n, hplays, -⟩ := deliverBatch_plays batch ⟨0, 0, 0⟩ db
    rw [halerts batch mem_cons_self] at hplays
    obtain ⟨ns, hrest⟩ := ih (fun b hb => halerts b (mem_cons_of_mem _ hb))
      (deliverBatch batch ⟨0, 0, 0⟩ db).2
    exact ⟨n :: ns, hplays.append hrest⟩

theorem deliverBatch_complete {batch : List (IncomingAlert × Fate)} {summary s : DeliverySummary}
    (h : (deliverBatch batch summary db).1 = .ok s) :
    Plays db (batch.map Prod.fst) (deliverBatch batch summary db).2 := by
  obtain ⟨n, hplays, hfull⟩ := deliverBatch_plays batch summary db
  have hn : (batch.map Prod.fst).length ≤ n := by
    rw [length_map]
    exact hfull s h
  rwa [take_of_length_le hn] at hplays

/-- A batch that is repeated until it goes through, and any number of times after that, adds
what it adds when it goes through at once. -/
theorem deliverBatches_contents {before after : List (List (IncomingAlert × Fate))}
    {last once : List (IncomingAlert × Fate)} {s s' : DeliverySummary}
    (halerts : ∀ batch ∈ before ++ last :: once :: after, batch.map Prod.fst = alerts)
    (hlast : (deliverBatch last ⟨0, 0, 0⟩ (deliverBatches before db)).1 = .ok s)
    (honce : (deliverBatch once ⟨0, 0, 0⟩ db).1 = .ok s') :
    (deliverBatches (before ++ last :: after) db).contents =
      (deliverBatch once ⟨0, 0, 0⟩ db).2.contents := by
  have hbatch : last.map Prod.fst = alerts := halerts last (by simp)
  have hsame : once.map Prod.fst = alerts := halerts once (by simp)
  obtain ⟨ns, hbefore⟩ := deliverBatches_plays before
    (fun b hb => halerts b (mem_append_left _ hb)) db
  obtain ⟨ms, hafter⟩ := deliverBatches_plays after
    (fun b hb => halerts b (by simp [hb]))
      (deliverBatch last ⟨0, 0, 0⟩ (deliverBatches before db)).2
  have hall := hbefore.append ((hbatch ▸ deliverBatch_complete hlast).append hafter)
  have hwhole := deliverBatch_complete honce
  rw [hsame] at hwhole
  have hfold : deliverBatches (before ++ last :: after) db =
      deliverBatches after (deliverBatch last ⟨0, 0, 0⟩ (deliverBatches before db)).2 := by
    simp [deliverBatches]
  rw [hfold, hall.2, hwhole.2, Replay.play_attempts judge_absorbs_self judge_keeps_absorbed]

/-! ### Runs -/

def SentAs (o : Occurrence) (s : AlertState) (m : ChatMessage) (db : Db) : Prop :=
  ∃ row, db.occurrence? o = some row ∧ row.messageFor s = some m.id ∧ db.message? m.id = some m

def ResolvedIn (o : Occurrence) (db : Db) : Prop :=
  ∃ row, db.occurrence? o = some row ∧ row.state = .resolved

theorem messageFor_settle (s s' : AlertState) :
    (row.settle id s).messageFor s' = if s' = s then some id else row.messageFor s' := by
  cases s <;> cases s' <;> rfl

theorem Delivered.sent (h : Delivered alert env db (.accepted m) db') :
    SentAs alert.occurrence alert.state m db' := by
  cases h with
  | @accepted row _ _ hchannel hrow hunsent hopen hposted hsender hbody hsettled haccess =>
    refine ⟨row.settle m.id alert.state, ?_, ?_, hposted.message?_self⟩
    · rw [hsettled, if_pos rfl]
    · rw [messageFor_settle, if_pos rfl]

theorem SentAs.keep (hsent : SentAs o s m db)
    (h : Delivered alert env db r db') : SentAs o s m db' := by
  cases h with
  | duplicate | ignored => exact hsent
  | @accepted row m' _ hchannel hrow hunsent hopen hposted hsender hbody hsettled haccess =>
    obtain ⟨old, hold, hid, hm⟩ := hsent
    have hm' := hposted.message?_of_some hm
    by_cases ho : o = alert.occurrence
    · subst ho
      rw [hold, getD_some] at hrow
      subst hrow
      have hs : s ≠ alert.state := by
        rintro rfl
        rw [hunsent] at hid
        cases hid
      refine ⟨old.settle m'.id alert.state, ?_, ?_, hm'⟩
      · rw [hsettled, if_pos rfl]
      · rw [messageFor_settle, if_neg hs, hid]
    · exact ⟨old, by rw [hsettled, if_neg ho, hold], hid, hm'⟩

theorem ResolvedIn.keep (hresolved : ResolvedIn o db) (h : Delivered alert env db r db') :
    ResolvedIn o db' := by
  cases h with
  | duplicate | ignored => exact hresolved
  | @accepted row m' _ hchannel hrow hunsent hopen hposted hsender hbody hsettled haccess =>
    obtain ⟨old, hold, hstate⟩ := hresolved
    by_cases ho : o = alert.occurrence
    · subst ho
      rw [hold, getD_some] at hrow
      subst hrow
      refine ⟨old.settle m'.id alert.state, by rw [hsettled, if_pos rfl], ?_⟩
      cases hs : alert.state with
      | firing => exact absurd hstate (hopen hs)
      | resolved => rfl
    · exact ⟨old, by rw [hsettled, if_neg ho, hold], hstate⟩

theorem deliverAlert_again {c : ChannelId} (hsent : SentAs alert.occurrence alert.state m db)
    (hc : db.integrationChannels alert.agentId alert.credentialId env.checkedAt = [c]) :
    (deliverAlert alert env).commit db = (.ok (.duplicate m), db) := by
  obtain ⟨row, hrow, hid, hm⟩ := hsent
  have hregister : (registerOccurrence alert).run db = .ok (false, db) := by
    rw [registerOccurrence, Sql.insertOrIgnore_ok]
    exact .inl ⟨by rw [hrow]; rfl, rfl, rfl⟩
  rw [commit_eq_ok]
  simp only [deliverAlert, Sql.answers, answers]
  refine ⟨c, db, integrationChannel_ok.2 ⟨hc, rfl⟩, false, db, hregister, row, hrow, ?_⟩
  rw [answerAlert, hid]
  simp only [duplicateOf, Sql.answers, answers]
  exact ⟨m, hm, rfl, trivial⟩

structure AlertEvent where
  alert : IncomingAlert
  env : DeliveryEnv
  answer : Except RepositoryError DeliveryResult

inductive AlertStep (db : Db) : AlertEvent → Db → Prop
  | finish (alert : IncomingAlert) (env : DeliveryEnv)
      {answer : Except RepositoryError DeliveryResult} {db' : Db}
      (h : (deliverAlert alert env).commit db = (answer, db')) :
      AlertStep db ⟨alert, env, answer⟩ db'
  | abort (alert : IncomingAlert) (env : DeliveryEnv) (e : RepositoryError) :
      AlertStep db ⟨alert, env, .error e⟩ db

def AlertEvent.message? (e : AlertEvent) : Option ChatMessage :=
  match e.answer with
  | .ok (.accepted m) => some m
  | _ => none

def AlertEvent.inserts (o : Occurrence) (s : AlertState) (e : AlertEvent) : Bool :=
  e.alert.occurrence = o ∧ e.alert.state = s ∧ e.message?.isSome

variable {e : AlertEvent} {trace : List AlertEvent}

section

variable (h : AlertStep db e db')

include h

theorem AlertStep.cases :
    (∃ m, e.message? = some m ∧ Delivered e.alert e.env db (.accepted m) db') ∨
      (e.message? = none ∧ db' = db) := by
  cases h with
  | abort alert env e => exact .inr ⟨rfl, rfl⟩
  | finish alert env h =>
    rcases commit_cases (deliverAlert alert env) db with ⟨r, db₁, hr, hc⟩ | ⟨e, -, hc⟩
    · rw [hc] at h
      cases h
      have hdelivered := deliverAlert_ok hr
      cases r with
      | accepted m => exact .inl ⟨m, rfl, hdelivered⟩
      | duplicate | ignoredResolved =>
        cases hdelivered
        exact .inr ⟨rfl, rfl⟩
    · rw [hc] at h
      cases h
      exact .inr ⟨rfl, rfl⟩

theorem AlertStep.delivered (hm : e.message? = some m) :
    Delivered e.alert e.env db (.accepted m) db' := by
  rcases h.cases with ⟨m', hm', hdelivered⟩ | ⟨hnone, -⟩
  · rw [hm] at hm'
    cases hm'
    exact hdelivered
  · rw [hm] at hnone
    cases hnone

theorem AlertStep.keeps :
    (∀ o s m, SentAs o s m db → SentAs o s m db') ∧ ∀ o, ResolvedIn o db → ResolvedIn o db' := by
  rcases h.cases with ⟨m, -, hdelivered⟩ | ⟨-, rfl⟩
  · exact ⟨fun o s m hsent => hsent.keep hdelivered, fun o hres => hres.keep hdelivered⟩
  · exact ⟨fun o s m hsent => hsent, fun o hres => hres⟩

theorem AlertStep.inserted (hins : e.inserts o s = true) :
    (∀ m, ¬ SentAs o s m db) ∧ (s = .firing → ¬ ResolvedIn o db) ∧
      (∃ m, SentAs o s m db') ∧ (s = .resolved → ResolvedIn o db') := by
  obtain ⟨rfl, rfl, hsome⟩ := of_decide_eq_true hins
  rcases h.cases with ⟨m, -, hdelivered⟩ | ⟨hnone, -⟩
  · refine ⟨?_, ?_, ⟨m, hdelivered.sent⟩, ?_⟩
    · rintro m' ⟨old, hold, hid, -⟩
      cases hdelivered with
      | accepted hchannel hrow hunsent =>
        rw [hold, getD_some] at hrow
        rw [hrow, hunsent] at hid
        cases hid
    · rintro hfiring ⟨old, hold, hstate⟩
      cases hdelivered with
      | accepted hchannel hrow hunsent hopen =>
        rw [hold, getD_some] at hrow
        rw [hrow] at hstate
        exact hopen hfiring hstate
    · intro hresolved
      cases hdelivered with
      | @accepted row _ _ hchannel hrow hunsent hopen hposted hsender hbody hsettled =>
        refine ⟨row.settle m.id e.alert.state, by rw [hsettled, if_pos rfl], ?_⟩
        rw [hresolved]
        rfl
  · rw [hnone] at hsome
    cases hsome

end

section

variable (hrun : Run AlertStep db trace db')

include hrun

theorem run_keeps :
    (∀ o s m, SentAs o s m db → SentAs o s m db') ∧ ∀ o, ResolvedIn o db → ResolvedIn o db' := by
  induction hrun with
  | refl => exact ⟨fun _ _ _ h => h, fun _ h => h⟩
  | step _ hstep ih =>
    exact ⟨fun o s m h => hstep.keeps.1 o s m (ih.1 o s m h),
      fun o h => hstep.keeps.2 o (ih.2 o h)⟩

theorem run_access (agent : UserId) (credential : Uuid) (now : Time) :
    db'.integrationChannels agent credential now = db.integrationChannels agent credential now := by
  induction hrun with
  | refl => rfl
  | step _ hstep ih =>
    rcases hstep.cases with ⟨m, -, hdelivered⟩ | ⟨-, rfl⟩
    · cases hdelivered with
      | accepted _ _ _ _ _ _ _ _ haccess => rw [haccess, ih]
    · exact ih

/-- A run adds the messages its calls answer with, in the order of the calls. -/
theorem run_messages : db'.messages = db.messages ++ trace.filterMap (·.message?) := by
  induction hrun with
  | refl => simp
  | @step trace db₁ db₂ e hpast hstep ih =>
    rw [filterMap_append]
    rcases hstep.cases with ⟨m, hm, hdelivered⟩ | ⟨hnone, rfl⟩
    · cases hdelivered with
      | accepted hchannel hrow hunsent hopen hposted =>
        rw [hposted.messages, ih]
        simp [hm]
    · rw [ih]
      simp [hnone]

theorem run_inserts_once (o : Occurrence) (s : AlertState) :
    (trace.filter (·.inserts o s)).length = 0 ∨
      ((trace.filter (·.inserts o s)).length = 1 ∧ ∃ m, SentAs o s m db') := by
  induction hrun with
  | refl => exact .inl rfl
  | @step trace db₁ db₂ e hpast hstep ih =>
    rw [filter_append, length_append]
    by_cases hins : e.inserts o s = true
    · obtain ⟨hunsent, -, hsent, -⟩ := hstep.inserted hins
      rcases ih with hzero | ⟨-, m, hm⟩
      · exact .inr ⟨by simp [hzero, hins], hsent⟩
      · exact absurd hm (hunsent m)
    · have hskip : ([e].filter (·.inserts o s)).length = 0 := by simp [hins]
      rw [hskip, Nat.add_zero]
      exact ih.imp id fun ⟨hone, m, hm⟩ => ⟨hone, m, hstep.keeps.1 o s m hm⟩

theorem run_no_firing (hresolved : ResolvedIn o db) : ∀ e ∈ trace, e.inserts o .firing = false := by
  intro e he
  obtain ⟨past, future, rfl⟩ := append_of_mem he
  obtain ⟨db₁, db₂, hpast, hstep, -⟩ := hrun.split
  rw [Bool.eq_false_iff]
  intro hins
  exact (hstep.inserted hins).2.1 rfl ((run_keeps hpast).2 o hresolved)

end

/-- For every sequence of deliveries: exactly the accepted messages are inserted, as the alerts
say and where the agent may deliver, at most one for each status of an occurrence, none for
firing once the occurrence is resolved, which it stays. A status that was delivered is answered
with the message of the first delivery. And a batch that is repeated until it goes through adds
what it adds when it goes through at once. -/
theorem alerts_are_delivered_once (hrun : Run AlertStep db trace db') :
    db'.messages = db.messages ++ trace.filterMap (·.message?) ∧
    (∀ e ∈ trace, ∀ m, e.message? = some m →
      m.senderId = e.alert.agentId ∧ m.body = e.alert.body ∧
      db.integrationChannels e.alert.agentId e.alert.credentialId e.env.checkedAt =
        [m.channelId]) ∧
    (∀ o s, (trace.filter (·.inserts o s)).length ≤ 1) ∧
    (∀ o, ResolvedIn o db → ResolvedIn o db' ∧ ∀ e ∈ trace, e.inserts o .firing = false) ∧
    (∀ o past e future, trace = past ++ e :: future → e.inserts o .resolved = true →
      ∀ e' ∈ future, e'.inserts o .firing = false) ∧
    (∀ e ∈ trace, ∀ m, e.message? = some m → ∀ alert env c,
      alert.occurrence = e.alert.occurrence → alert.state = e.alert.state →
      db'.integrationChannels alert.agentId alert.credentialId env.checkedAt = [c] →
      (deliverAlert alert env).commit db' = (.ok (.duplicate m), db')) ∧
    (∀ (alerts : List IncomingAlert) (before after : List (List (IncomingAlert × Fate)))
      (last once : List (IncomingAlert × Fate)) (s s' : DeliverySummary),
      (∀ batch ∈ before ++ last :: once :: after, batch.map Prod.fst = alerts) →
      (deliverBatch last ⟨0, 0, 0⟩ (deliverBatches before db')).1 = .ok s →
      (deliverBatch once ⟨0, 0, 0⟩ db').1 = .ok s' →
      (deliverBatches (before ++ last :: after) db').contents =
        (deliverBatch once ⟨0, 0, 0⟩ db').2.contents) := by
  refine ⟨run_messages hrun, ?_, ?_, ?_, ?_, ?_, ?_⟩
  · intro e he m hm
    obtain ⟨past, future, rfl⟩ := append_of_mem he
    obtain ⟨db₁, db₂, hpast, hstep, -⟩ := hrun.split
    cases hstep.delivered hm with
    | accepted hchannel _ _ _ _ hsender hbody =>
      exact ⟨hsender, hbody, run_access hpast _ _ _ ▸ hchannel⟩
  · intro o s
    rcases run_inserts_once hrun o s with hzero | ⟨hone, -⟩
    · omega
    · omega
  · intro o hresolved
    exact ⟨(run_keeps hrun).2 o hresolved, run_no_firing hrun hresolved⟩
  · rintro o past e future rfl hins
    obtain ⟨db₁, db₂, -, hstep, hfuture⟩ := hrun.split
    exact run_no_firing hfuture ((hstep.inserted hins).2.2.2 rfl)
  · intro e he m hm alert env c ho hs hc
    obtain ⟨past, future, rfl⟩ := append_of_mem he
    obtain ⟨db₁, db₂, -, hstep, hfuture⟩ := hrun.split
    have hend := (run_keeps hfuture).1 _ _ _ (hstep.delivered hm).sent
    rw [← ho, ← hs] at hend
    exact deliverAlert_again hend hc
  · intro alerts before after last once s s' halerts hlast honce
    exact deliverBatches_contents halerts hlast honce

end

namespace Sample

def agent : UserId := ⟨30⟩

def integrated : Db :=
  { chat with
    users := chat.users ++ [⟨agent, .agent, ⟨"Grafana", by decide⟩, none⟩]
    channelMemberships := chat.channelMemberships ++ [⟨room, agent, .member, 0⟩]
    agentProfiles := [⟨agent, alice, grafanaProvider, "grafana", none, none⟩]
    agentGrants := [⟨31, agent, none, some room, .sendMessages, none, none⟩]
    agentCredentials := [⟨32, agent, 100, none⟩] }

def alarm (state : AlertState) : IncomingAlert := ⟨agent, 32, "disk", 5, state, hello⟩

def moment (id : Nat) : DeliveryEnv := ⟨⟨BitVec.ofNat 128 id⟩, 10, 10⟩

def alerted (db : Db) (state : AlertState) (id : Nat) : Db :=
  ((deliverAlert (alarm state) (moment id)).commit db).2

def alertMessage (id : Nat) (sequence : Nat) : ChatMessage :=
  ⟨⟨BitVec.ofNat 128 id⟩, room, none, agent, ⟨"Grafana", by decide⟩, hello, sequence, 10,
    none, none⟩

end Sample

open Sample in
/-- An alert fires and is resolved. When the webhook repeats that it fires, the answer is the
first message. -/
theorem alert_is_delivered_once :
    Run AlertStep integrated
      [⟨alarm .firing, moment 40, .ok (.accepted (alertMessage 40 1))⟩,
        ⟨alarm .resolved, moment 41, .ok (.accepted (alertMessage 41 2))⟩]
      (alerted (alerted integrated .firing 40) .resolved 41) ∧
    (deliverAlert (alarm .firing) (moment 42)).commit
        (alerted (alerted integrated .firing 40) .resolved 41) =
      (.ok (.duplicate (alertMessage 40 1)),
        alerted (alerted integrated .firing 40) .resolved 41) := by
  have hrun : Run AlertStep integrated
      [⟨alarm .firing, moment 40, .ok (.accepted (alertMessage 40 1))⟩,
        ⟨alarm .resolved, moment 41, .ok (.accepted (alertMessage 41 2))⟩]
      (alerted (alerted integrated .firing 40) .resolved 41) :=
    .cons (.finish (alarm .firing) (moment 40) rfl)
      (.single (.finish (alarm .resolved) (moment 41) rfl))
  obtain ⟨-, -, -, -, -, hagain, -⟩ := alerts_are_delivered_once hrun
  exact ⟨hrun, hagain _ mem_cons_self _ rfl (alarm .firing) (moment 42) room rfl rfl rfl⟩

end Sproyt
