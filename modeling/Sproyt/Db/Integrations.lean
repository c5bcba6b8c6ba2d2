import Sproyt.Db.Posting

/-!
# Incoming webhooks

An integration's agent delivers alerts and reports to the one channel its only grant names.
Each delivery is one transaction.
-/

namespace Sproyt

open Txn

inductive AlertState
  | firing
  | resolved
deriving DecidableEq, Repr

structure IncomingAlert where
  agentId : UserId
  credentialId : Uuid
  fingerprint : String
  startsAt : Time
  state : AlertState
  body : MessageBody

structure IncomingReport where
  agentId : UserId
  credentialId : Uuid
  reportId : String
  body : MessageBody

inductive DeliveryResult
  | accepted (m : ChatMessage)
  | duplicate (m : ChatMessage)
  | ignoredResolved
deriving DecidableEq

structure DeliveryEnv where
  id : MessageId
  checkedAt : Time
  sentAt : Time

def grafanaProvider : String := "grafana-webhook"

/-- `expires_at is null or expires_at > now`. -/
def unexpired (expiresAt : Option Time) (now : Time) : Bool := expiresAt.all fun t => now < t

def AgentGrantRow.effective (agent : UserId) (now : Time) (g : AgentGrantRow) : Bool :=
  g.agentId = agent ∧ g.revokedAt = none ∧ unexpired g.expiresAt now

/-- The rows of the query in `integration_channel_sqlite`. -/
def Db.integrationChannels (db : Db) (agent : UserId) (credential : Uuid) (now : Time) :
    List ChannelId :=
  if (db.agentProfiles.any fun p => p.agentId = agent ∧ p.provider = grafanaProvider ∧
        p.revokedAt = none ∧ unexpired p.expiresAt now) ∧
      (db.agentCredentials.any fun x => x.id = credential ∧ x.agentId = agent ∧
        x.revokedAt = none ∧ now < x.expiresAt) then
    (db.agentGrants.filter fun g => g.effective agent now ∧ g.scope = .sendMessages ∧
      g.circleId = none ∧
      ¬ db.agentGrants.any fun x => x.effective agent now ∧ x.id ≠ g.id).filterMap fun g =>
        g.channelId.filter fun c => db.inChannel c agent
  else []

def integrationChannel (agent : UserId) (credential : Uuid) (now : Time) : Sql ChannelId := do
  match ← Txn.read fun db => db.integrationChannels agent credential now with
  | [c] => pure c
  | _ => Txn.fail .permissionDenied

variable {agent : UserId} {db db' : Db} {c : ChannelId}

@[simp] theorem integrationChannel_ok {credential : Uuid} {now : Time} :
    (integrationChannel agent credential now).run db = .ok (c, db') ↔
      db.integrationChannels agent credential now = [c] ∧ db = db' := by
  simp only [integrationChannel, answers]
  constructor
  · intro h
    split at h
    · next c' hc =>
      obtain ⟨rfl, rfl⟩ := pure_ok.1 h
      exact ⟨hc, rfl⟩
    · exact (fail_ok.1 h).elim
  · rintro ⟨hc, rfl⟩
    rw [hc]
    rfl

def insertIntegrationMessage (agent : UserId) (c : ChannelId) (body : MessageBody)
    (env : DeliveryEnv) : Sql ChatMessage := do
  let sequence ← Sql.bumpSequence c
  let sequence ← Txn.demand sequence .notFound
  let name ← senderName agent
  let message : ChatMessage :=
    ⟨env.id, c, none, agent, name, body, sequence, env.sentAt, none, none⟩
  Sql.insertMessage message
  enqueueMessage message
  pure message

theorem insertIntegrationMessage_ok {body : MessageBody} {env : DeliveryEnv} {m : ChatMessage}
    (h : (insertIntegrationMessage agent c body env).run db = .ok (m, db')) :
    Posted db m db' ∧
      m = ⟨env.id, c, none, agent, m.senderDisplayName, body, m.sequence, env.sentAt, none, none⟩ ∧
      db' = { db with
        channelSequences := db'.channelSequences
        messages := db'.messages
        notificationOutbox := db'.notificationOutbox } := by
  simp only [insertIntegrationMessage, Sql.bumpSequence, senderName, Sql.insertMessage,
    enqueueMessage, Sql.answers, answers] at h
  obtain ⟨sequence, hseq, row, -, hfree, hresolves, rfl, rfl⟩ := h
  have hplaced : db.hasChannel c = true := by
    simp only [Bool.and_eq_true] at hresolves
    exact hresolves.1.1
  exact ⟨posted_of_insert hseq hfree hplaced (fun p hp => by cases hp) rfl, rfl, rfl⟩

/-! ### deliver_alert -/

/-- What identifies the occurrence of an alert: agent, fingerprint and start. -/
abbrev Occurrence := UserId × String × Time

def IncomingAlert.occurrence (alert : IncomingAlert) : Occurrence :=
  (alert.agentId, alert.fingerprint, alert.startsAt)

def AlertOccurrenceRow.occurrence (r : AlertOccurrenceRow) : Occurrence :=
  (r.agentId, r.fingerprint, r.startsAt)

def Db.occurrence? (db : Db) (o : Occurrence) : Option AlertOccurrenceRow :=
  db.incomingAlertOccurrences.find? fun r => r.occurrence = o

def IncomingAlert.newRow (alert : IncomingAlert) : AlertOccurrenceRow :=
  ⟨alert.agentId, alert.fingerprint, alert.startsAt, .pending, none, none⟩

/-- `insert into incoming_alert_occurrences … on conflict do nothing`. -/
def registerOccurrence (alert : IncomingAlert) : Sql Bool :=
  Sql.insertOrIgnore (fun db => (db.occurrence? alert.occurrence).isSome) (fun _ => false)
    (fun db => db.agentProfiles.any fun p => p.agentId = alert.agentId)
    fun db =>
      { db with incomingAlertOccurrences := db.incomingAlertOccurrences ++ [alert.newRow] }

def AlertOccurrenceRow.messageFor (r : AlertOccurrenceRow) : AlertState → Option MessageId
  | .firing => r.firingMessageId
  | .resolved => r.resolvedMessageId

def AlertOccurrenceRow.settle (r : AlertOccurrenceRow) (m : MessageId) :
    AlertState → AlertOccurrenceRow
  | .firing => { r with firingMessageId := some m, state := .firing }
  | .resolved => { r with resolvedMessageId := some m, state := .resolved }

def settleOccurrence (alert : IncomingAlert) (m : MessageId) : Sql Unit :=
  Txn.write fun db =>
    { db with incomingAlertOccurrences := db.incomingAlertOccurrences.map fun r =>
        if r.occurrence = alert.occurrence then r.settle m alert.state else r }

def duplicateOf (m : MessageId) : Sql DeliveryResult := do
  let message ← Txn.read fun db => db.message? m
  let message ← Sql.fetchOne message
  pure (.duplicate message)

def postAlert (alert : IncomingAlert) (c : ChannelId) (env : DeliveryEnv) : Sql DeliveryResult := do
  let message ← insertIntegrationMessage alert.agentId c alert.body env
  settleOccurrence alert message.id
  pure (.accepted message)

def answerAlert (alert : IncomingAlert) (c : ChannelId) (row : AlertOccurrenceRow)
    (env : DeliveryEnv) : Sql DeliveryResult :=
  match row.messageFor alert.state with
  | some m => duplicateOf m
  | none =>
    if alert.state = .firing ∧ row.state = .resolved then pure .ignoredResolved
    else postAlert alert c env

def deliverAlert (alert : IncomingAlert) (env : DeliveryEnv) : Sql DeliveryResult := do
  let c ← integrationChannel alert.agentId alert.credentialId env.checkedAt
  let _ ← registerOccurrence alert
  let row ← Txn.read fun db => db.occurrence? alert.occurrence
  let row ← Sql.fetchOne row
  answerAlert alert c row env

/-! ### deliver_report -/

def Db.report? (db : Db) (report : IncomingReport) : Option ReportDeliveryRow :=
  db.incomingReportDeliveries.find? fun r =>
    r.agentId = report.agentId ∧ r.reportId = report.reportId

/-- `insert into incoming_report_deliveries … on conflict do nothing`. -/
def registerReport (report : IncomingReport) : Sql Bool :=
  Sql.insertOrIgnore (fun db => (db.report? report).isSome) (fun _ => false)
    (fun db => db.agentProfiles.any fun p => p.agentId = report.agentId)
    fun db =>
      { db with incomingReportDeliveries := db.incomingReportDeliveries ++
          [⟨report.agentId, report.reportId, none⟩] }

def settleReport (report : IncomingReport) (m : MessageId) : Sql Unit :=
  Txn.write fun db =>
    { db with incomingReportDeliveries := db.incomingReportDeliveries.map fun r =>
        if r.agentId = report.agentId ∧ r.reportId = report.reportId then
          { r with messageId := some m }
        else r }

def answerReport (report : IncomingReport) (c : ChannelId) (row : ReportDeliveryRow)
    (env : DeliveryEnv) : Sql DeliveryResult :=
  match row.messageId with
  | some m => duplicateOf m
  | none => do
    let message ← insertIntegrationMessage report.agentId c report.body env
    settleReport report message.id
    pure (.accepted message)

def deliverReport (report : IncomingReport) (env : DeliveryEnv) : Sql DeliveryResult := do
  let c ← integrationChannel report.agentId report.credentialId env.checkedAt
  let _ ← registerReport report
  let row ← Txn.read fun db => db.report? report
  let row ← Sql.fetchOne row
  answerReport report c row env

end Sproyt
