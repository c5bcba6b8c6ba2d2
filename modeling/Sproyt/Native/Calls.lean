import Sproyt.Lib.Run
import Sproyt.Native.Sessions

/-!
# Native calls and their interleaving

A call that asks the provider has more than one transaction. Between them other calls run,
the provider answers what it likes, and the process may die.
-/

namespace Sproyt

namespace Native

inductive Call
  /-- `callback` has claimed the attempt and asks the provider. -/
  | verifying (attempt : AttemptRow) (secret : AttemptSecret)
  | failing (id : String)
  | confirming (attempt : AttemptRow) (secret : AttemptSecret) (user : String)
  /-- `recheck`, before its first look at the family and between the two. -/
  | rechecking (reference : SessionRef)
  | authenticating (reference : SessionRef) (secret : FamilySecret)
  /-- `refresh` has claimed the family; then the provider has renewed the session. -/
  | renewing (r : Refreshing)
  | renewed (r : Refreshing)
  | reauthing (family lease : String)

/-- What a step has committed, or let through. -/
inductive Label
  | quiet
  | started (id : String)
  | advanced (id : String) (phase : AttemptPhase)
  | failed (id : String)
  | exchanged (id : String) (result : ExchangeResult) (created : Bool)
  | cancelled (id : String)
  | authenticated (family : String)
  | claimed (family : String) (generation : Nat) (lease : String)
  | renewal (family : String) (generation : Nat)
  | replayed (family : String) (grant : Grant)
  | committed (family lease : String) (now : Nat) (grant : Grant)

structure Outcome where
  label : Label
  next : Option Call
  db : NativeDb

/-- Commit a transaction; one that is rolled back ends its call. -/
def settle {α : Type} (t : NativeSql α) (db : NativeDb) (f : α → Label × Option Call) : Outcome :=
  match t.commit db with
  | (.ok a, db') => ⟨(f a).1, (f a).2, db'⟩
  | (.error _, db') => ⟨.quiet, none, db'⟩

/-- A transaction that may be committed and refuse all the same. -/
def admitted {α : Type} (f : α → Label × Option Call) : Except NativeError α → Label × Option Call
  | .ok a => f a
  | .error _ => (.quiet, none)

/-- The calls, up to the end of their first transaction. -/
inductive Request
  | login (input : LoginRequest) (provider : Except NativeError ProviderLogin)
  | browser (id : String)
  | callback (code state : String) (header : Option String)
  | confirm (id nonce : String) (header : Option String)
  | exchange (input : ExchangeRequest)
  | cancelLogin (input : CancelRequest)
  | revoke (token : String)
  | authenticate (token : String)
  | recheck (reference : SessionRef)
  | refresh (token : String) (input : RefreshRequest)

variable (service : NativeSessions)

def Request.exec (env : Env) (q : Request) (db : NativeDb) : Outcome :=
  match q with
  | login input provider =>
    settle (Native.login service input provider env) db fun id => (.started id, none)
  | browser id =>
    settle (Native.browser service id env) db fun _ => (.advanced id .authorizing, none)
  | callback code state header =>
    settle (Native.callback service code state header env) db fun (attempt, secret) =>
      (.advanced attempt.id .verifying, some (.verifying attempt secret))
  | confirm id nonce header =>
    settle (Native.confirm service id nonce header env) db fun (_, confirmed) =>
      (if confirmed then .advanced id .ready else .quiet, none)
  | exchange input =>
    settle (Native.exchange service input env) db <| admitted fun (result, created) =>
      (.exchanged input.transactionId result created, none)
  | cancelLogin input =>
    settle (Native.cancelLogin service input) db fun _ => (.cancelled input.transactionId, none)
  | revoke token => settle (Native.revoke service token) db fun _ => (.quiet, none)
  | authenticate token =>
    settle (lookup service token) db fun reference => (.quiet, some (.rechecking reference))
  | recheck reference => ⟨.quiet, some (.rechecking reference), db⟩
  | refresh token input =>
    settle (Native.refresh service token input env) db <| admitted fun
      | .replayed family grant => (.replayed family grant, none)
      | .claimed r => (.claimed r.family.family r.input.generation r.lease, some (.renewing r))

structure Answer where
  login : Option VerifiedLogin
  session : Option String
  renewed : Bool
  renewal : Renewal

/-- The step a call takes when it is resumed. An early return ends it. -/
def Call.exec (env : Env) (answer : Answer) (c : Call) (db : NativeDb) : Outcome :=
  match c with
  | verifying attempt secret =>
    match answer.login with
    | none => ⟨.quiet, some (.failing attempt.id), db⟩
    | some login =>
      match verified attempt secret login (env.random 0) with
      | .ok secret' => ⟨.quiet, some (.confirming attempt secret' login.userId), db⟩
      | .error _ => ⟨.quiet, none, db⟩
  | failing id => settle (callbackFailed id) db fun _ => (.failed id, none)
  | confirming attempt secret user =>
    settle (callbackVerified service attempt secret user env) db fun _ =>
      (.advanced attempt.id .confirm, none)
  | rechecking reference =>
    settle (referenced service reference env) db <| admitted fun secret =>
      (.quiet, some (.authenticating reference secret))
  | authenticating reference secret =>
    if answer.session = some secret.grant.userId then
      settle (referenced service reference env) db <| admitted fun _ =>
        (.authenticated reference.family, none)
    else ⟨.quiet, none, db⟩
  | renewing r =>
    ⟨.renewal r.family.family r.input.generation,
      some (if answer.renewed then .renewed r else .reauthing r.family.family r.lease), db⟩
  | renewed r =>
    if answer.renewal.userId = r.family.userId then
      match renewedSecret r answer.renewal env with
      | .ok secret =>
        settle (commitRefresh service r secret env) db <| admitted fun grant =>
          (.committed r.family.family r.lease (env.clock 0) grant, none)
      | .error _ => ⟨.quiet, none, db⟩
    else ⟨.quiet, some (.reauthing r.family.family r.lease), db⟩
  | reauthing family lease =>
    settle (requireReauthentication family lease) db fun _ => (.quiet, none)

structure World where
  db : NativeDb
  calls : List Call

/-- Calls begin, are resumed, or die; the epochs of users change. -/
inductive Step : World → Label → World → Prop
  | request {w : World} (q : Request) (env : Env) :
      Step w (q.exec service env w.db).label
        ⟨(q.exec service env w.db).db, (q.exec service env w.db).next.toList ++ w.calls⟩
  | resume {db : NativeDb} {before after : List Call} (c : Call) (env : Env) (answer : Answer) :
      Step ⟨db, before ++ c :: after⟩ (c.exec service env answer db).label
        ⟨(c.exec service env answer db).db,
          before ++ (c.exec service env answer db).next.toList ++ after⟩
  | crash {db : NativeDb} {before after : List Call} (c : Call) :
      Step ⟨db, before ++ c :: after⟩ .quiet ⟨db, before ++ after⟩
  | epochs {w : World} (rows : List EpochRow) :
      Step w .quiet ⟨{ w.db with epochs := rows }, w.calls⟩

end Native

end Sproyt
