import Sproyt.Lib.Txn
import Sproyt.Domain.Types

/-!
# Native sessions

A login attempt goes through the browser and the identity provider and is exchanged for a
session family; a family is refreshed generation by generation, under a lease while the
provider is asked. Every function below is one transaction, or the part of a call between
two transactions. What comes from outside — the clock, random texts, the provider's answers —
is an argument.
-/

namespace Sproyt

open Txn

namespace Native

def scope : String := "sproyt_native_v1"

def environment : String := "canary"

def destination : String := "windows-loopback"

inductive NativeError
  | unauthorized
  | invalid
  | unavailable
deriving DecidableEq

/-! ### Credentials -/

structure Grant where
  scope : String
  environment : String
  instanceId : String
  userId : String
  family : String
  generation : Nat
  epoch : Nat
  accessToken : String
  refreshToken : String
  revokeToken : String
  expiresAt : Nat
  displayName : String
deriving DecidableEq

structure FamilySecret where
  cookies : String
  grant : Grant
deriving DecidableEq

structure AttemptSecret where
  authorizationUrl : String
  loginCookie : String
  browserCookie : String
  confirmationNonce : String
  providerCookies : String
  providerExpires : Nat
  displayName : String
  handoffCode : String
deriving DecidableEq

structure ExchangeResult where
  userId : String
  nativeSession : Grant
  displayName : String
deriving DecidableEq

/-- Sealing values of one type: what opens under a purpose is what was sealed under it. -/
structure Sealing (α : Type) where
  sealValue : String → Bytes → α → Except NativeError String
  openValue : String → String → Except NativeError α
  open_seal : ∀ {purpose text : String} {nonce : Bytes} {value value' : α},
    sealValue purpose nonce value = .ok text → openValue purpose text = .ok value' → value' = value

/-- `Codec`, for each of the types it is used at. -/
structure Codec where
  attempt : Sealing AttemptSecret
  family : Sealing FamilySecret
  handoff : Sealing ExchangeResult
  refresh : Sealing Grant

/-- Base64 without padding, beside the crates of the rest of the code. -/
structure NativeHost extends Host where
  encode : Bytes → String
  decode : String → Option Bytes

/-- What `random` returns: 32 bytes in Base64. -/
structure Random where
  text : String
  length : text.length = 43

structure NativeSessions where
  host : NativeHost
  codec : Codec
  instanceId : String

/-- Successive readings of the clock, random texts and nonces in one transaction. -/
structure Env where
  clock : Nat → Nat
  random : Nat → Random
  nonces : Nat → Bytes

/-! ### Checks of texts -/

def NativeHost.hash (host : NativeHost) (value : String) : String :=
  host.encode (host.sha256 value.toUTF8.toList)

/-- `proof`: 32 bytes in canonical Base64. -/
def NativeHost.proof (host : NativeHost) (value : String) : Bool :=
  value.utf8ByteSize == 43 &&
    (host.decode value).any fun bytes => bytes.length == 32 && host.encode bytes == value

def stateValid (value : String) : Bool :=
  16 ≤ value.utf8ByteSize && value.utf8ByteSize ≤ 256 &&
    value.toList.all fun c => c.isAlphanum || c == '-' || c == '_'

def verifierValid (value : String) : Bool :=
  43 ≤ value.utf8ByteSize && value.utf8ByteSize ≤ 128 &&
    value.toList.all fun c => c.isAlphanum || c == '-' || c == '.' || c == '_' || c == '~'

def operation (value : String) : Bool :=
  value.utf8ByteSize == 32 &&
    value.toList.all fun c => c.isDigit || ('a' ≤ c && c ≤ 'f') || ('A' ≤ c && c ≤ 'F')

def NativeHost.canonicalUser (host : NativeHost) (value : String) : Bool :=
  (host.parseUuid value).any fun id => id.hyphenated == value

/-- `str::strip_prefix`. -/
def stripPrefix (start text : String) : Option String :=
  if start.toList.isPrefixOf text.toList then some (String.ofList (text.toList.drop start.length))
  else none

/-- A token of a kind, such as `sproyt-access.`. -/
def NativeHost.tokenValid (host : NativeHost) (kind token : String) : Bool :=
  (stripPrefix kind token).any host.proof

def cookiePair (value name : String) : Except NativeError String :=
  let pair := String.ofList (value.toList.takeWhile (· ≠ ';'))
  match stripPrefix (name ++ "=") pair with
  | some rest => if rest = "" then .error .unauthorized else .ok pair
  | none => .error .unauthorized

/-- `str::split_once('=')`, of a part of the header. -/
def splitCookie (part : List Char) : Option (String × String) :=
  if part.contains '=' then
    some (String.ofList (part.takeWhile (· ≠ '=')),
      String.ofList ((part.dropWhile (· ≠ '=')).drop 1))
  else none

def NativeHost.cookieValue (host : NativeHost) (header : Option String) (name : String) :
    Except NativeError String :=
  match header with
  | none => .error .unauthorized
  | some text =>
    let cookies := (text.toList.splitOn ';').filterMap fun part =>
      splitCookie (trim (String.ofList part)).toList
    match (cookies.filter (·.1 = name)).map (·.2) with
    | [value] => if host.proof value then .ok value else .error .unauthorized
    | _ => .error .unauthorized

/-! ### Tables -/

inductive AttemptPhase
  | new
  | authorizing
  | verifying
  | confirm
  | ready
  | redeemed
  | failed
  | cancelled
deriving DecidableEq

inductive FamilyPhase
  | active
  | refreshing
  | reauth
  | revoked
deriving DecidableEq

/-- A number column is empty until it is first written. -/
structure AttemptRow where
  id : String
  stateHash : String
  challenge : String
  expectedUserId : String
  startEpoch : Nat
  epoch : Option Nat
  userId : String
  callbackPort : Nat
  createdAt : Nat
  expiresAt : Nat
  phase : AttemptPhase
  cookieHash : String
  confirmHash : String
  codeHash : String
  handoffExpires : Option Nat
  redemptionId : String
  receiptExpires : Option Nat
  family : String
  secret : String
  receipt : String

structure FamilyRow where
  family : String
  userId : String
  epoch : Nat
  generation : Nat
  phase : FamilyPhase
  accessHash : String
  refreshHash : String
  revokeHash : String
  expiresAt : Nat
  secret : String
  leaseId : String
  leaseExpires : Nat

structure EpochRow where
  userId : String
  epoch : Nat
  changedAt : Nat

structure ReceiptRow where
  oldHash : String
  operationId : String
  generation : Nat
  family : String
  expiresAt : Nat
  result : String

structure NativeDb where
  epochs : List EpochRow
  attempts : List AttemptRow
  families : List FamilyRow
  receipts : List ReceiptRow

abbrev NativeSql := Txn NativeDb NativeError

/-- `number`, of a column that may be empty. -/
def number (column : Option Nat) : Except NativeError Nat :=
  match column with
  | some n => .ok n
  | none => .error .unavailable

/-- `update native_attempts set … where …`, with the number of rows. -/
def updateAttempts (p : AttemptRow → Bool) (f : AttemptRow → AttemptRow) : NativeSql Nat := do
  let n ← read fun (db : NativeDb) => db.attempts.countP p
  write fun db => { db with attempts := db.attempts.map fun a => if p a then f a else a }
  pure n

def updateFamilies (p : FamilyRow → Bool) (f : FamilyRow → FamilyRow) : NativeSql Nat := do
  let n ← read fun (db : NativeDb) => db.families.countP p
  write fun db => { db with families := db.families.map fun r => if p r then f r else r }
  pure n

/-- `attempt` and `locked_attempt`: a transaction that reads an attempt has it to itself. -/
def lockedAttempt (id : String) : NativeSql AttemptRow := do
  let row ← read fun (db : NativeDb) => db.attempts.find? (·.id = id)
  demand row .unauthorized

def familyRow (id : String) : NativeSql FamilyRow := do
  let row ← read fun (db : NativeDb) => db.families.find? (·.family = id)
  demand row .unauthorized

/-- The epoch of a user and when it changed, both 0 without a row. -/
def NativeDb.epoch (db : NativeDb) (user : String) : Nat × Nat :=
  match db.epochs.find? (·.userId = user) with
  | some row => (row.epoch, row.changedAt)
  | none => (0, 0)

/-! ### Families -/

def FamilyRow.lapse (f : FamilyRow) : FamilyRow := { f with phase := .reauth, secret := "" }

def FamilyRow.revoke (f : FamilyRow) : FamilyRow := { f with phase := .revoked, secret := "" }

/-- The update of `fence` and of `require_reauthentication`. -/
def requireReauthentication (family lease : String) : NativeSql Unit := do
  let _ ← updateFamilies
    (fun f => f.family = family ∧ f.phase = .refreshing ∧ f.leaseId = lease) FamilyRow.lapse
  pure ()

def FamilyRow.usable (db : NativeDb) (f : FamilyRow) : Bool :=
  (f.phase = .active ∨ f.phase = .refreshing) ∧ (db.epoch f.userId).1 = f.epoch

/-- `fence`, and what follows when it lets the family through. Where it does not, the
transaction is committed all the same: a lapsed lease has ended the family. -/
def fenced {α : Type} (now : Nat) (f : FamilyRow) (body : NativeSql α) :
    NativeSql (Except NativeError α) := do
  let usable ← read fun db => f.usable db
  if usable = false then pure (.error .unauthorized)
  else if f.phase = .refreshing ∧ f.leaseExpires ≤ now then do
    requireReauthentication f.family f.leaseId
    pure (.error .unauthorized)
  else do
    let a ← body
    pure (.ok a)

variable (service : NativeSessions)

/-- The checks of `family_secret`. -/
def FamilyRow.matches (f : FamilyRow) (grant : Grant) : Prop :=
  grant.scope = scope ∧ grant.environment = environment ∧
    grant.instanceId = service.instanceId ∧ grant.userId = f.userId ∧ grant.family = f.family ∧
    grant.epoch = f.epoch ∧ grant.generation = f.generation ∧
    service.host.hash grant.accessToken = f.accessHash ∧
    service.host.hash grant.refreshToken = f.refreshHash ∧
    service.host.hash grant.revokeToken = f.revokeHash ∧ grant.expiresAt = f.expiresAt

instance (f : FamilyRow) (grant : Grant) : Decidable (f.matches service grant) :=
  inferInstanceAs (Decidable (_ ∧ _))

def familySecret (f : FamilyRow) : NativeSql FamilySecret := do
  let secret ← ofExcept (service.codec.family.openValue ("family:" ++ f.family) f.secret)
  ensure (f.matches service secret.grant) .unauthorized
  pure secret

/-! ### Logging in -/

structure LoginRequest where
  challenge : String
  destinationId : String
  callbackPort : Nat
  expectedUserId : Option String

/-- What the provider begins a login with: its address, its cookie, and the `state`
parameters of the address, should it parse. -/
structure ProviderLogin where
  authorizationUrl : String
  setCookie : String
  states : Option (List String)

def loginCookie : String := "sproyt_oidc_tx"

def sessionCookie : String := "sproyt_session"

def refreshCookie : String := "sproyt_refresh"

def login (input : LoginRequest) (provider : Except NativeError ProviderLogin) (env : Env) :
    NativeSql String := do
  ensure (service.host.proof input.challenge ∧ input.destinationId = destination ∧
    1024 ≤ input.callbackPort ∧ input.expectedUserId.all service.host.canonicalUser) .invalid
  let start ← ofExcept provider
  let states ← demand start.states .unavailable
  let state ← demand states.head? .unavailable
  ensure (states.length = 1 ∧ stateValid state) .unavailable
  let id := (env.random 0).text
  let expected := input.expectedUserId.getD ""
  let cookie ← ofExcept (cookiePair start.setCookie loginCookie)
  let payload : AttemptSecret :=
    ⟨start.authorizationUrl, cookie, (env.random 1).text, "", "", 0, "", ""⟩
  let secret ← ofExcept
    (service.codec.attempt.sealValue ("attempt:" ++ id) (env.nonces 0) payload)
  let epoch ← read fun db => (db.epoch expected).1
  let count ← read fun db => db.attempts.length
  ensure (count < 4096) .unavailable
  let stateHash := service.host.hash state
  let taken ← read fun (db : NativeDb) =>
    db.attempts.any fun a => a.id = id ∨ a.stateHash = stateHash
  ensure (taken = false) .unavailable
  write fun db => { db with attempts := db.attempts ++ [⟨id, stateHash, input.challenge,
    expected, epoch, none, "", input.callbackPort, env.clock 0, env.clock 0 + 600, .new, "", "",
    "", none, "", none, "", secret, ""⟩] }
  pure id

def openAttempt (a : AttemptRow) : NativeSql AttemptSecret :=
  ofExcept (service.codec.attempt.openValue ("attempt:" ++ a.id) a.secret)

/-- A compare-and-set of one attempt: the row as it is to be, if it is in the phase. -/
def advance (id : String) (phase : AttemptPhase) (f : AttemptRow → AttemptRow) :
    NativeSql Unit := do
  let n ← updateAttempts (fun a => a.id = id ∧ a.phase = phase) f
  ensure (n = 1) .unauthorized

def browser (id : String) (env : Env) : NativeSql AttemptSecret := do
  ensure (service.host.proof id) .unauthorized
  let attempt ← lockedAttempt id
  ensure (attempt.phase = .new ∧ env.clock 0 < attempt.expiresAt) .unauthorized
  let secret ← openAttempt service attempt
  advance id .new fun a =>
    { a with phase := .authorizing, cookieHash := service.host.hash secret.browserCookie }
  pure secret

def attemptCookie (id : String) : String := "sproyt_native_" ++ id

/-- The first transaction of `callback`: the attempt is claimed before the provider sees the
code. -/
def callback (code state : String) (header : Option String) (env : Env) :
    NativeSql (AttemptRow × AttemptSecret) := do
  ensure (code ≠ "" ∧ code.utf8ByteSize ≤ 4096 ∧ stateValid state) .unauthorized
  let found ← read fun (db : NativeDb) =>
    db.attempts.find? (·.stateHash = service.host.hash state)
  let row ← demand found .unauthorized
  let attempt ← lockedAttempt row.id
  let cookie ← ofExcept (service.host.cookieValue header (attemptCookie attempt.id))
  ensure (attempt.phase = .authorizing ∧ env.clock 0 < attempt.expiresAt ∧
    service.host.hash cookie = attempt.cookieHash) .unauthorized
  let secret ← openAttempt service attempt
  advance attempt.id .authorizing fun a => { a with phase := .verifying }
  pure (attempt, secret)

def callbackFailed (id : String) : NativeSql Unit := do
  let _ ← updateAttempts (fun a => a.id = id ∧ a.phase = .verifying) fun a =>
    { a with phase := .failed, secret := "" }
  pure ()

/-- What the provider has verified: the user, the cookies, and when the session expires. -/
structure VerifiedLogin where
  userId : String
  displayName : String
  setCookie : String
  setRefreshCookie : Option String
  expiresAt : Except NativeError Nat

/-- Between the transactions of `callback`: the checks of the login, and the secret with it. -/
def verified (attempt : AttemptRow) (secret : AttemptSecret) (login : VerifiedLogin)
    (nonce : Random) : Except NativeError AttemptSecret := do
  if attempt.expectedUserId ≠ "" ∧ attempt.expectedUserId ≠ login.userId then
    throw .unauthorized
  match login.setRefreshCookie with
  | none => throw .unauthorized
  | some setRefreshCookie =>
    let session ← cookiePair login.setCookie sessionCookie
    let refresh ← cookiePair setRefreshCookie refreshCookie
    let expires ← login.expiresAt
    pure { secret with
      providerCookies := session ++ "; " ++ refresh, providerExpires := expires,
      displayName := login.displayName, confirmationNonce := nonce.text, loginCookie := "",
      authorizationUrl := "" }

/-- The second transaction of `callback`. -/
def callbackVerified (attempt : AttemptRow) (secret : AttemptSecret) (user : String)
    (env : Env) : NativeSql Unit := do
  let epoch ← read fun db => db.epoch user
  ensure ((attempt.expectedUserId ≠ "" → attempt.startEpoch = epoch.1) ∧
    (attempt.expectedUserId = "" → epoch.2 < attempt.createdAt ∨ epoch.2 = 0)) .unauthorized
  let text ← ofExcept
    (service.codec.attempt.sealValue ("attempt:" ++ attempt.id) (env.nonces 0) secret)
  advance attempt.id .verifying fun a =>
    { a with phase := .confirm, userId := user, epoch := some epoch.1,
             confirmHash := service.host.hash secret.confirmationNonce, secret := text }

def handOff (attempt : AttemptRow) (secret : AttemptSecret) (env : Env) : NativeSql String := do
  let code := (env.random 0).text
  let text ← ofExcept (service.codec.attempt.sealValue ("attempt:" ++ attempt.id)
    (env.nonces 0) { secret with handoffCode := code })
  advance attempt.id .confirm fun a =>
    { a with phase := .ready, codeHash := service.host.hash code,
             handoffExpires := some (min (env.clock 2 + 60) attempt.expiresAt), secret := text }
  pure code

def handedOff (attempt : AttemptRow) (secret : AttemptSecret) (env : Env) : NativeSql String := do
  let expires ← ofExcept (number attempt.handoffExpires)
  ensure (env.clock 2 < expires) .unauthorized
  pure secret.handoffCode

/-- The handoff code, and whether the attempt was confirmed by this call. -/
def confirm (id nonce : String) (header : Option String) (env : Env) :
    NativeSql (String × Bool) := do
  ensure (service.host.proof id ∧ service.host.proof nonce) .unauthorized
  let attempt ← lockedAttempt id
  ensure ((attempt.phase = .confirm ∨ attempt.phase = .ready) ∧
    env.clock 0 < attempt.expiresAt) .unauthorized
  let cookie ← ofExcept (service.host.cookieValue header (attemptCookie id))
  ensure (service.host.hash cookie = attempt.cookieHash ∧
    service.host.hash nonce = attempt.confirmHash) .unauthorized
  let current ← read fun db => (db.epoch attempt.userId).1
  let epoch ← ofExcept (number attempt.epoch)
  ensure (current = epoch) .unauthorized
  let secret ← openAttempt service attempt
  ensure (env.clock 1 < secret.providerExpires) .unauthorized
  if attempt.phase = .confirm then do
    let code ← handOff service attempt secret env
    pure (code, true)
  else do
    let code ← handedOff attempt secret env
    pure (code, false)

structure ExchangeRequest where
  transactionId : String
  code : String
  verifier : String
  redemptionId : String
  environment : String
  destinationId : String

def insertFamily (row : FamilyRow) : NativeSql Unit := do
  let taken ← read fun (db : NativeDb) => db.families.any fun f =>
    f.family = row.family ∨ f.accessHash = row.accessHash ∨ f.refreshHash = row.refreshHash ∨
      f.revokeHash = row.revokeHash
  ensure (taken = false) .unavailable
  write fun db => { db with families := db.families ++ [row] }

def newGrant (attempt : AttemptRow) (epoch : Nat) (secret : AttemptSecret) (env : Env) : Grant :=
  ⟨scope, environment, service.instanceId, attempt.userId, (env.random 0).text, 0, epoch,
    "sproyt-access." ++ (env.random 1).text, "sproyt-refresh." ++ (env.random 2).text,
    "sproyt-revoke." ++ (env.random 3).text, min (env.clock 1 + 300) secret.providerExpires,
    secret.displayName⟩

def newFamily (grant : Grant) (secret : String) : FamilyRow :=
  ⟨grant.family, grant.userId, grant.epoch, 0, .active, service.host.hash grant.accessToken,
    service.host.hash grant.refreshToken, service.host.hash grant.revokeToken, grant.expiresAt,
    secret, "", 0⟩

def redeem (input : ExchangeRequest) (attempt : AttemptRow) (epoch : Nat) (env : Env) :
    NativeSql ExchangeResult := do
  let expires ← ofExcept (number attempt.handoffExpires)
  ensure (env.clock 0 < expires) .unauthorized
  let secret ← openAttempt service attempt
  let grant := newGrant service attempt epoch secret env
  ensure (env.clock 2 < grant.expiresAt) .unauthorized
  let text ← ofExcept (service.codec.family.sealValue ("family:" ++ grant.family)
    (env.nonces 0) ⟨secret.providerCookies, grant⟩)
  let result : ExchangeResult := ⟨grant.userId, grant, grant.displayName⟩
  let receipt ← ofExcept
    (service.codec.handoff.sealValue ("handoff:" ++ attempt.id) (env.nonces 1) result)
  advance attempt.id .ready fun a =>
    { a with phase := .redeemed, redemptionId := input.redemptionId,
             receiptExpires := some (env.clock 3 + 60), family := grant.family, secret := "",
             receipt := receipt }
  insertFamily (newFamily service grant text)
  pure result

def redeemed (input : ExchangeRequest) (attempt : AttemptRow) (env : Env) :
    NativeSql (Except NativeError ExchangeResult) := do
  ensure (attempt.redemptionId = input.redemptionId) .unauthorized
  let expires ← ofExcept (number attempt.receiptExpires)
  ensure (env.clock 0 < expires) .unauthorized
  let family ← familyRow attempt.family
  fenced (env.clock 1) family
    (ofExcept (service.codec.handoff.openValue ("handoff:" ++ attempt.id) attempt.receipt))

/-- The answer, and whether the family was created for it. -/
def exchange (input : ExchangeRequest) (env : Env) :
    NativeSql (Except NativeError (ExchangeResult × Bool)) := do
  ensure (service.host.proof input.transactionId ∧ service.host.proof input.code ∧
    verifierValid input.verifier ∧ operation input.redemptionId ∧
    input.environment = environment ∧ input.destinationId = destination) .unauthorized
  let attempt ← lockedAttempt input.transactionId
  ensure (service.host.hash input.verifier = attempt.challenge ∧
    service.host.hash input.code = attempt.codeHash) .unauthorized
  let current ← read fun db => (db.epoch attempt.userId).1
  let epoch ← ofExcept (number attempt.epoch)
  ensure (current = epoch) .unauthorized
  if attempt.phase = .redeemed then do
    let result ← redeemed service input attempt env
    pure (result.map (·, false))
  else do
    ensure (attempt.phase = .ready) .unauthorized
    let result ← redeem service input attempt epoch env
    pure (.ok (result, true))

structure CancelRequest where
  transactionId : String
  verifier : String
  environment : String
  destinationId : String

def revokeFamily (family : String) : NativeSql Unit :=
  if family = "" then pure ()
  else do
    let _ ← updateFamilies (fun f => f.family = family) FamilyRow.revoke
    pure ()

def cancelLogin (input : CancelRequest) : NativeSql Unit := do
  ensure (service.host.proof input.transactionId ∧ verifierValid input.verifier ∧
    input.environment = environment ∧ input.destinationId = destination) .unauthorized
  let attempt ← lockedAttempt input.transactionId
  ensure (service.host.hash input.verifier = attempt.challenge) .unauthorized
  let _ ← updateAttempts (fun a => a.id = attempt.id) fun a =>
    { a with phase := .cancelled, secret := "" }
  revokeFamily attempt.family

/-! ### Using a family -/

def revoke (token : String) : NativeSql Unit := do
  ensure (service.host.tokenValid "sproyt-revoke." token) .unauthorized
  let n ← updateFamilies (fun f => f.revokeHash = service.host.hash token) FamilyRow.revoke
  ensure (n = 1) .unauthorized

structure SessionRef where
  family : String
  accessHash : String
  generation : Nat
  epoch : Nat

/-- The first statement of `authenticate_ref`. -/
def lookup (token : String) : NativeSql SessionRef := do
  ensure (service.host.tokenValid "sproyt-access." token) .unauthorized
  let hash := service.host.hash token
  let row ← read fun (db : NativeDb) => db.families.find? (·.accessHash = hash)
  let family ← demand row .unauthorized
  pure ⟨family.family, hash, family.generation, family.epoch⟩

def checkReference (reference : SessionRef) (family : FamilyRow) (env : Env) :
    NativeSql FamilySecret := do
  ensure (family.accessHash = reference.accessHash ∧
    family.generation = reference.generation ∧ family.epoch = reference.epoch ∧
    env.clock 1 < family.expiresAt) .unauthorized
  familySecret service family

/-- `referenced`, which `recheck` runs before and after it asks the provider. -/
def referenced (reference : SessionRef) (env : Env) :
    NativeSql (Except NativeError FamilySecret) := do
  let family ← familyRow reference.family
  fenced (env.clock 0) family (checkReference service reference family env)

structure RefreshRequest where
  operationId : String
  generation : Nat

def receiptPurpose (oldHash : String) (input : RefreshRequest) : String :=
  "refresh:" ++ oldHash ++ ":" ++ input.operationId ++ ":" ++ toString input.generation

/-- A refresh that has claimed its family: the row it read, what was sealed in it, and the
lease. -/
structure Refreshing where
  family : FamilyRow
  secret : FamilySecret
  lease : String
  oldHash : String
  input : RefreshRequest

/-- The answer to a refresh that was committed before, or the claim. -/
inductive Claim
  | replayed (family : String) (grant : Grant)
  | claimed (r : Refreshing)

def openReceipt (oldHash : String) (input : RefreshRequest) (row : ReceiptRow) (env : Env) :
    NativeSql Claim := do
  ensure (env.clock 1 < row.expiresAt) .unauthorized
  let grant ← ofExcept
    (service.codec.refresh.openValue (receiptPurpose oldHash input) row.result)
  pure (.replayed row.family grant)

def replay (oldHash : String) (input : RefreshRequest) (row : ReceiptRow) (env : Env) :
    NativeSql (Except NativeError Claim) := do
  let family ← familyRow row.family
  fenced (env.clock 0) family (openReceipt service oldHash input row env)

/-- The compare-and-set that makes a refresh the only one of its generation. -/
def takeLease (family : FamilyRow) (oldHash : String) (input : RefreshRequest) (env : Env) :
    NativeSql Claim := do
  ensure (family.generation = input.generation) .unauthorized
  ensure (family.phase ≠ .refreshing) .unavailable
  let secret ← familySecret service family
  let lease := (env.random 0).text
  let n ← updateFamilies (fun f => f.family = family.family ∧ f.phase = .active ∧
      f.refreshHash = oldHash ∧ f.generation = input.generation) fun f =>
    { f with phase := .refreshing, leaseId := lease, leaseExpires := env.clock 1 + 30 }
  ensure (n = 1) .unavailable
  pure (.claimed ⟨family, secret, lease, oldHash, input⟩)

def claim (oldHash : String) (input : RefreshRequest) (env : Env) :
    NativeSql (Except NativeError Claim) := do
  let row ← read fun (db : NativeDb) => db.families.find? (·.refreshHash = oldHash)
  let family ← demand row .unauthorized
  fenced (env.clock 0) family (takeLease service family oldHash input env)

/-- The first transaction of `refresh`. -/
def refresh (token : String) (input : RefreshRequest) (env : Env) :
    NativeSql (Except NativeError Claim) := do
  ensure (service.host.tokenValid "sproyt-refresh." token ∧ operation input.operationId ∧
    input.generation ≠ 2 ^ 64 - 1) .unauthorized
  let oldHash := service.host.hash token
  let receipt ← read fun (db : NativeDb) => db.receipts.find? fun r =>
    r.oldHash = oldHash ∧ r.operationId = input.operationId ∧ r.generation = input.generation
  match receipt with
  | some row => replay service oldHash input row env
  | none => claim service oldHash input env

/-- What the provider has renewed, who it says the session is of, and when it expires. -/
structure Renewal where
  setCookie : String
  setRefreshCookie : String
  userId : String
  displayName : String
  expiresAt : Except NativeError Nat

def renewedSecret (r : Refreshing) (renewal : Renewal) (env : Env) :
    Except NativeError FamilySecret := do
  let session ← cookiePair renewal.setCookie sessionCookie
  let refresh ← cookiePair renewal.setRefreshCookie refreshCookie
  let expires ← renewal.expiresAt
  pure ⟨session ++ "; " ++ refresh, { r.secret.grant with
    generation := r.secret.grant.generation + 1
    accessToken := "sproyt-access." ++ (env.random 0).text
    refreshToken := "sproyt-refresh." ++ (env.random 1).text
    expiresAt := min (env.clock 0 + 300) expires
    displayName := renewal.displayName }⟩

def storeGeneration (r : Refreshing) (grant : Grant) (text : String) : NativeSql Unit := do
  let access := service.host.hash grant.accessToken
  let refresh := service.host.hash grant.refreshToken
  let taken ← read fun (db : NativeDb) => db.families.any fun f =>
    f.family ≠ r.family.family ∧ (f.accessHash = access ∨ f.refreshHash = refresh)
  ensure (taken = false) .unavailable
  let n ← updateFamilies (fun f => f.family = r.family.family ∧ f.phase = .refreshing ∧
      f.leaseId = r.lease) fun f =>
    { f with phase := .active, generation := grant.generation, accessHash := access,
             refreshHash := refresh, expiresAt := grant.expiresAt, secret := text,
             leaseId := "", leaseExpires := 0 }
  ensure (n = 1) .unauthorized

def insertReceipt (row : ReceiptRow) : NativeSql Unit := do
  let taken ← read fun (db : NativeDb) => db.receipts.any fun r =>
    r.oldHash = row.oldHash ∧ r.operationId = row.operationId ∧ r.generation = row.generation
  ensure (taken = false) .unavailable
  write fun db => { db with receipts := db.receipts ++ [row] }

/-- What only the holder of the lease may write. -/
def storeRefresh (r : Refreshing) (current : FamilyRow) (grant : Grant) (text receipt : String)
    (env : Env) : NativeSql Grant := do
  ensure (current.leaseId = r.lease ∧ current.phase = .refreshing) .unauthorized
  storeGeneration service r grant text
  insertReceipt ⟨r.oldHash, r.input.operationId, r.input.generation, r.family.family,
    env.clock 1 + 60, receipt⟩
  pure grant

/-- The second transaction of `refresh`. -/
def commitRefresh (r : Refreshing) (secret : FamilySecret) (env : Env) :
    NativeSql (Except NativeError Grant) := do
  let text ← ofExcept
    (service.codec.family.sealValue ("family:" ++ r.family.family) (env.nonces 0) secret)
  let receipt ← ofExcept (service.codec.refresh.sealValue (receiptPurpose r.oldHash r.input)
    (env.nonces 1) secret.grant)
  let current ← familyRow r.family.family
  fenced (env.clock 0) current (storeRefresh service r current secret.grant text receipt env)

end Native

end Sproyt
