import Sproyt.Db.JsonText
import Sproyt.Lib.Workers
import Sproyt.Work.Sync

/-!
# Exports on their way to GitHub

An accepted export leaves a receipt. Workers of any replica lease it, check that it may still be
sent, store that it is being sent, and only then ask GitHub to create the issue. What comes of
the request decides the next state of the receipt; a receipt that was left while it was being
sent is only ever compared with the issues that exist.
-/

namespace Sproyt

/-! ### GitHub -/

namespace Json

def asI64 : Json → Option Int
  | .number literal => literal.toInt?.filter fun n => -2 ^ 63 ≤ n ∧ n < 2 ^ 63
  | _ => none

def asArray : Json → Option (List Json)
  | .array items => some items
  | _ => none

def isObject : Json → Bool
  | .object _ => true
  | _ => false

end Json

namespace GitHub

/-- What is heard of a request: nothing, or a status and what its body decodes to. -/
inductive HttpReply
  | unavailable
  | answered (status : Nat) (body : Except String Json)

def isSuccess (status : Nat) : Bool := 200 ≤ status ∧ status < 300

def response : HttpReply → Except String Json
  | .unavailable => .error "GitHub transport unavailable"
  | .answered status body => if isSuccess status then body else .error "GitHub rejected the request"

inductive CreateError
  | rejected
  | uncertain
deriving DecidableEq, Repr

def positive (value : Json) : Option Int := value.asI64.filter (0 < ·)

/-- The issue is the one that was asked for, and our own. -/
def checkedIssue (value : Json) (target : Destination) (title body : String) :
    Except String Issue := do
  let number ← (positive (value.get "number")).elim (.error "GitHub issue number invalid") .ok
  let id ← (positive (value.get "id")).elim (.error "GitHub issue ID invalid") .ok
  let url := "https://github.com/" ++ target.repository ++ "/issues/" ++ toString number
  if value.get "html_url" = .string url ∧ value.get "title" = .string title ∧
      value.get "body" = .string body ∧
      (value.get "user").get "login" = .string target.botLogin ∧
      (value.get "pull_request").isObject = false then
    .ok ⟨id, number, url⟩
  else .error "GitHub issue provenance or content mismatch"

def refusals : List Nat := [400, 401, 403, 404, 410, 415, 422, 429]

def create (target : Destination) (title body : String) : HttpReply → Except CreateError Issue
  | .unavailable => .error .uncertain
  | .answered status value =>
    if status ∈ refusals then .error .rejected
    else if isSuccess status then
      match value with
      | .error _ => .error .uncertain
      | .ok value => (checkedIssue value target title body).mapError fun _ => .uncertain
    else .error .uncertain

/-- The issues of one page, after what was found on the pages before. -/
def findOn (target : Destination) (marker title body : String) :
    Option Issue → List Json → Except String (Option Issue)
  | found, [] => .ok found
  | found, value :: rest =>
    if (value.get "body").asStr.any fun text => marker.toList <:+: text.toList then
      if found.isSome then .error "GitHub marker is ambiguous"
      else do
        let issue ← checkedIssue value target title body
        findOn target marker title body (some issue) rest
    else findOn target marker title body found rest

def findFrom (target : Destination) (marker title body : String) :
    Option Issue → List HttpReply → Except String (Option Issue)
  | _, [] => .error "GitHub reconciliation needs an operator: issue list incomplete"
  | found, reply :: rest => do
    let value ← response reply
    let issues ← value.asArray.elim (.error "GitHub issue list invalid") .ok
    let found ← findOn target marker title body found issues
    if issues.length < 100 then .ok found else findFrom target marker title body found rest

def find (target : Destination) (marker title body : String) (replies : Nat → HttpReply) :
    Except String (Option Issue) :=
  findFrom target marker title body none ((List.range 10).map replies)

end GitHub

/-! ### Receipts -/

structure Receipt where
  item : Uuid
  task : Uuid
  actor : UserId
  target : Destination
  bindingRevision : Int
  title : String
  body : String
  marker : String
  status : ExportStatus

/-- The body of the issue ends with the marker. -/
def Receipt.text (r : Receipt) : String := r.body ++ "\n\n" ++ r.marker

def ExportStatus.undelivered : ExportStatus → Bool
  | .pending | .blocked | .sending | .uncertain => true
  | .sent | .skipped => false

/-- Whether the actor may send, and still to the place the receipt names. -/
def WorkDb.exportAllowed (db : WorkDb) (item : Uuid) (actor : UserId) (receipt : Option Receipt) :
    Bool :=
  (db.item? item).any fun w =>
    w.processStatus = .completed && w.status = "planned" &&
    (db.chat.workItemExportProcesses.any fun x => x.workItemId = w.id ∧ x.assigneeId = actor ∧
      x.waiting ∧ db.isActive x.channelId actor) &&
    db.mayReview w.applicationId actor &&
    (db.config.processors.any fun p => p.applicationId = w.applicationId ∧ p.userId = actor ∧
      p.canReview ∧ p.canExport) &&
    (db.exportTarget w).any fun b =>
      receipt.all fun e => b.target = e.target ∧ b.revision = e.bindingRevision

def sentNote (issue : Issue) : String :=
  "\x7b\"github_export\":\"sent\",\"issue_number\":" ++ toString issue.number ++
    ",\"issue_url\":\"" ++ String.ofList (stringText issue.url) ++ "\x7d"

namespace WorkItems

/-- A receipt that was left while it was being sent is uncertain from then on. -/
def claimExport (item token : Uuid) (now : Int) : WorkSql Bool := do
  let free := fun e : ExportRow => e.workItemId = item ∧ e.leaseUntil < now ∧ e.status.undelivered
  let claimed ← Txn.read fun (db : WorkDb) => db.githubExports.any fun e => free e
  Txn.write fun db => db.mapExports fun e =>
    if free e then
      { e with
        leaseUntil := now + 600
        leaseToken := some token
        status := if e.status = .sending then .uncertain else e.status }
    else e
  pure claimed

def exportReceipt (item token : Uuid) : WorkSql Receipt := do
  let row ← Txn.read fun (db : WorkDb) =>
    db.githubExports.find? fun e => e.workItemId = item ∧ e.leaseToken = some token
  let e ← Txn.demand row Sql.rowNotFound
  let target ← Txn.demand e.target (storageError "unexpected null; try decoding as an Option")
  pure ⟨item, e.taskId, e.actorId, target.1, target.2, e.title, e.body, e.marker, e.status⟩

def exportState (item token : Uuid) (state : ExportStatus) (attempt : Option Int) : WorkSql Unit :=
  Txn.updateOne
    (fun (db : WorkDb) => db.githubExports.countP fun e =>
      e.workItemId = item ∧ e.leaseToken = some token)
    (fun db => db.mapExports fun e =>
      if e.workItemId = item ∧ e.leaseToken = some token then
        { e with status := state, attemptedAt := attempt <|> e.attemptedAt }
      else e)
    .conflict

/-- The issue is stored with the receipt and with the decision that Heart is told. -/
def settleExport (receipt : Receipt) (token : Uuid) (issue : Issue) : WorkSql Unit := do
  Txn.updateOne
    (fun (db : WorkDb) => db.githubExports.countP fun e => e.workItemId = receipt.item ∧
      e.leaseToken = some token ∧ (e.status = .sending ∨ e.status = .uncertain))
    (fun db => db.mapExports fun e =>
      if e.workItemId = receipt.item ∧ e.leaseToken = some token ∧
          (e.status = .sending ∨ e.status = .uncertain) then
        { e with status := .sent, issue := some issue }
      else e)
    .conflict
  Txn.write fun db => db.mapTasks fun t =>
    if t.id = receipt.task ∧ t.workItemId = receipt.item ∧ t.decision.requestId.isSome then
      { t with decision := { t.decision with note := some (sentNote issue) } }
    else t

def releaseExport (item token : Uuid) (now : Int) : WorkSql Unit :=
  Txn.write fun db => db.mapExports fun e =>
    if e.workItemId = item ∧ e.leaseToken = some token then
      { e with leaseUntil := now + 60, leaseToken := none }
    else e

end WorkItems

/-! ### Passes -/

/-- Where a pass of `deliver_exports` is: `ready` to store that it sends, `sending` once that is
stored, `waiting` for the answer. -/
inductive ExportPhase
  | claimed
  | read (r : Receipt)
  | checked (r : Receipt)
  | authorized (r : Receipt)
  | verified (r : Receipt)
  | ready (r : Receipt)
  | sending (r : Receipt)
  | waiting (r : Receipt)
  | created (r : Receipt) (issue : Issue)
  | rejected
  | unsure
  | ending

structure ExportPass where
  item : Uuid
  token : Uuid
  now : Int
  phase : ExportPhase

/-- What is told of a step: that the request is about to be sent, that it is sent, and that it
was definitively rejected. -/
inductive ExportLabel
  | marked (item token : Uuid)
  | sent (item token : Uuid)
  | rejected (item token : Uuid)
  | silent
deriving DecidableEq

open WorkItems GitHub in
inductive DeliverMove (item token : Uuid) (now : Int) :
    WorkDb → ExportPhase → ExportLabel → WorkDb → ExportPhase → Prop
  | read {db : WorkDb} {r : Receipt} (h : (exportReceipt item token).run db = .ok (r, db)) :
      DeliverMove item token now db .claimed .silent db (.read r)
  | checked {db : WorkDb} {r : Receipt}
      (h : r.status = .uncertain ∨ db.exportAllowed item r.actor (some r) = true) :
      DeliverMove item token now db (.read r) .silent db (.checked r)
  | refused {db : WorkDb} {r : Receipt} (hstatus : r.status ≠ .uncertain)
      (h : db.exportAllowed item r.actor (some r) = false) :
      DeliverMove item token now db (.read r) .silent
        ((exportState item token .blocked none).commit db).2 .ending
  | authorized {db : WorkDb} {r : Receipt} :
      DeliverMove item token now db (.checked r) .silent db (.authorized r)
  | found {db : WorkDb} {r : Receipt} {replies : Nat → HttpReply} {issue : Issue}
      (hstatus : r.status = .uncertain)
      (h : find r.target r.marker r.title r.text replies = .ok (some issue)) :
      DeliverMove item token now db (.authorized r) .silent
        ((settleExport r token issue).commit db).2 .ending
  | verified {db : WorkDb} {r : Receipt} (hstatus : r.status ≠ .uncertain) :
      DeliverMove item token now db (.authorized r) .silent db (.verified r)
  | permitted {db : WorkDb} {r : Receipt}
      (h : db.exportAllowed item r.actor (some r) = true) :
      DeliverMove item token now db (.verified r) .silent db (.ready r)
  | refusedAgain {db : WorkDb} {r : Receipt}
      (h : db.exportAllowed item r.actor (some r) = false) :
      DeliverMove item token now db (.verified r) .silent
        ((exportState item token .blocked none).commit db).2 .ending
  | marked {db db' : WorkDb} {r : Receipt} {u : Unit}
      (h : (exportState item token .sending (some now)).run db = .ok (u, db')) :
      DeliverMove item token now db (.ready r) (.marked item token) db' (.sending r)
  | sent {db : WorkDb} {r : Receipt} :
      DeliverMove item token now db (.sending r) (.sent item token) db (.waiting r)
  | created {db : WorkDb} {r : Receipt} {reply : HttpReply} {issue : Issue}
      (h : create r.target r.title r.text reply = .ok issue) :
      DeliverMove item token now db (.waiting r) .silent db (.created r issue)
  | rejected {db : WorkDb} {r : Receipt} {reply : HttpReply}
      (h : create r.target r.title r.text reply = .error .rejected) :
      DeliverMove item token now db (.waiting r) (.rejected item token) db .rejected
  | unsure {db : WorkDb} {r : Receipt} {reply : HttpReply}
      (h : create r.target r.title r.text reply = .error .uncertain) :
      DeliverMove item token now db (.waiting r) .silent db .unsure
  | settled {db : WorkDb} {r : Receipt} {issue : Issue} :
      DeliverMove item token now db (.created r issue) .silent
        ((settleExport r token issue).commit db).2 .ending
  | blocked {db : WorkDb} :
      DeliverMove item token now db .rejected .silent
        ((exportState item token .blocked none).commit db).2 .ending
  | doubted {db : WorkDb} :
      DeliverMove item token now db .unsure .silent
        ((exportState item token .uncertain none).commit db).2 .ending
  | failed {db : WorkDb} {phase : ExportPhase} :
      DeliverMove item token now db phase .silent db .ending

/-- A pass is over once it has let go of its lease, or because its worker is gone. -/
inductive DeliverEnd : WorkDb → ExportPass → ExportLabel → WorkDb → Prop
  | released {db : WorkDb} {p : ExportPass} (now : Int) (h : p.phase = .ending) :
      DeliverEnd db p .silent ((WorkItems.releaseExport p.item p.token now).commit db).2
  | crashed {db : WorkDb} {p : ExportPass} : DeliverEnd db p .silent db

/-- What else goes on: the commands, and whatever does not touch the receipts. -/
inductive DeliverOutside (service : WorkItems) : WorkDb → ExportLabel → WorkDb → Prop
  | command {db : WorkDb} (c : WorkCommand) :
      DeliverOutside service db .silent ((c.exec service).commit db).2
  | other {db db' : WorkDb} (h : db'.githubExports = db.githubExports) :
      DeliverOutside service db .silent db'

def deliveries (service : WorkItems) : Workers.Rules WorkDb ExportPass Uuid ExportLabel where
  token := ExportPass.token
  claim db l db' p := l = .silent ∧ p.phase = .claimed ∧
    (WorkItems.claimExport p.item p.token p.now).run db = .ok (true, db')
  move db p l db' p' := p'.item = p.item ∧ p'.token = p.token ∧ p'.now = p.now ∧
    DeliverMove p.item p.token p.now db p.phase l db' p'.phase
  drop := DeliverEnd
  outside := DeliverOutside service
  token_move h := h.2.1

end Sproyt
