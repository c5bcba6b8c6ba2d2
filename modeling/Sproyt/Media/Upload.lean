import Sproyt.Lib.Table
import Sproyt.Lib.Txn
import Sproyt.Media.Attachments

/-!
# Chunked uploads

An upload declares its size, receives its chunks in order, is sealed and then published as a
media object. Each call is one write transaction, but for `complete`, which seals the upload,
reads its chunks one statement at a time and publishes in a transaction of its own.
-/

namespace Sproyt

def chunkBytes : Nat := 1024 * 1024

def uploadTtl : Int := 24 * 60 * 60

def hexText (hash : Hash) : String :=
  String.ofList (hash.flatMap fun b =>
    [Uuid.hexDigits.getD (b.toNat / 16) '0', Uuid.hexDigits.getD (b.toNat % 16) '0'])

/-- `format!("{:x}", Sha256::digest(bytes))`. -/
def Host.sha256Text (host : Host) (bytes : Bytes) : String := hexText (host.sha256 bytes)

/-! ### Tables -/

/-- The budgets, as `connect` admits them. -/
structure UploadLimits where
  maxFileBytes : Nat
  ownerBytes : Nat
  totalBytes : Nat
  positive : maxFileBytes ≠ 0
  bounded : maxFileBytes ≤ 1024 * 1024 * 1024
  owner : maxFileBytes ≤ ownerBytes
  total : ownerBytes ≤ totalBytes
  signed : totalBytes < 2 ^ 63

inductive UploadState
  | receiving
  | sealed
  | complete
deriving DecidableEq

structure UploadRow where
  id : Uuid
  ownerId : UserId
  channelId : ChannelId
  requestId : Uuid
  originalFilename : String
  declaredType : String
  expectedBytes : Nat
  receivedBytes : Nat
  nextChunk : Nat
  state : UploadState
  expiresAt : Int
  mediaId : Option MediaId
deriving DecidableEq

structure ChunkRow where
  uploadId : Uuid
  chunkIndex : Nat
  content : Bytes
  sha256 : String
deriving DecidableEq

structure ObjectRow where
  id : MediaId
  ownerId : UserId
  channelId : ChannelId
  storageKey : String
  originalFilename : String
  contentType : String
  sizeBytes : Nat
  sha256 : String
deriving DecidableEq

structure PreviewJobRow where
  mediaId : MediaId
  availableAt : Int

structure MediaDb where
  memberships : List (ChannelId × UserId)
  budget : Option UploadLimits
  uploads : List UploadRow
  chunks : List ChunkRow
  objects : List ObjectRow
  previewJobs : List PreviewJobRow

structure MediaStore where
  limits : UploadLimits
  allowedChannels : Option (List ChannelId)

inductive UploadError
  | notFound
  | conflict
  | quota
  | invalid
  | unsupported
  | storage
deriving DecidableEq

abbrev MediaSql := Txn MediaDb UploadError

structure NewUpload where
  requestId : Uuid
  filename : String
  contentType : String
  sizeBytes : Nat

structure UploadStatus where
  id : Uuid
  channelId : ChannelId
  originalFilename : String
  declaredType : String
  sizeBytes : Nat
  receivedBytes : Nat
  nextChunk : Nat
  state : UploadState
  expiresAt : Int
  mediaId : Option MediaId
deriving DecidableEq

def UploadRow.status (u : UploadRow) : UploadStatus :=
  ⟨u.id, u.channelId, u.originalFilename, u.declaredType, u.expectedBytes, u.receivedBytes,
    u.nextChunk, u.state, u.expiresAt, u.mediaId⟩

namespace MediaDb

variable (db : MediaDb)

def isMember (c : ChannelId) (u : UserId) : Bool := db.memberships.contains (c, u)

def chunksOf (id : Uuid) : List ChunkRow := db.chunks.filter (·.uploadId = id)

def chunk? (id : Uuid) (index : Nat) : Option Bytes :=
  (db.chunks.find? fun c => c.uploadId = id ∧ c.chunkIndex = index).map (·.content)

def content (id : Uuid) : Bytes := (db.chunksOf id).flatMap (·.content)

/-- `update media_uploads set … where id = ?`. -/
def updateUpload (id : Uuid) (f : UploadRow → UploadRow) : MediaDb :=
  { db with uploads := db.uploads.map fun u => if u.id = id then f u else u }

/-- `delete from media_uploads where …`, with the chunks. -/
def deleteUploads (gone : UploadRow → Bool) : MediaDb :=
  { db with
    uploads := db.uploads.filter fun u => !gone u
    chunks := db.chunks.filter fun c => !db.uploads.any fun u => gone u && u.id = c.uploadId }

/-! ### Budgets -/

/-- The minimum charge covers the rows of tiny files. -/
def charge (size : Nat) : Nat := max size 1048576

def stored (p : ObjectRow → Bool) : Nat := ((db.objects.filter p).map (charge ·.sizeBytes)).sum

def reserved (p : UploadRow → Bool) : Nat :=
  ((db.uploads.filter fun u => p u && u.state ≠ .complete).map (charge ·.expectedBytes)).sum

def ownReservation (o : ObjectRow) : Nat :=
  ((db.uploads.filter fun u =>
    o.storageKey = "chunks:v1:" ++ u.id.hyphenated ∧ u.ownerId = o.ownerId ∧
      u.channelId = o.channelId ∧ u.expectedBytes = o.sizeBytes ∧
      u.receivedBytes = u.expectedBytes ∧ u.state = .sealed ∧ u.mediaId = none).map
    (charge ·.expectedBytes)).sum

/-- The trigger `media_object_budget`, with the subtrahends on the other side. -/
def overBudget (o : ObjectRow) : Bool :=
  match db.budget with
  | none => false
  | some limits =>
    limits.maxFileBytes < o.sizeBytes ||
    limits.totalBytes + db.ownReservation o <
      db.stored (fun _ => true) + db.reserved (fun _ => true) + charge o.sizeBytes ||
    limits.ownerBytes + db.ownReservation o <
      db.stored (·.ownerId = o.ownerId) + db.reserved (·.ownerId = o.ownerId) + charge o.sizeBytes

end MediaDb

namespace MediaStore

variable (store : MediaStore) (host : Host)

def channelEnabled (channel : ChannelId) : Bool :=
  store.allowedChannels.all (·.contains channel)

/-- `read_upload!`. -/
def readUpload (actor : UserId) (id : Uuid) (now : Int) : MediaSql UploadStatus := do
  let row ← Txn.read fun db => db.uploads.find? fun u =>
    u.id = id ∧ u.ownerId = actor ∧ db.isMember u.channelId u.ownerId
  let upload ← Txn.demand row .notFound
  let status := upload.status
  Txn.ensure (status.state = .complete ∨ now < status.expiresAt) .notFound
  Txn.ensure (store.channelEnabled status.channelId) .notFound
  pure status

/-! ### Creating -/

def contentTypes : List String :=
  ["application/octet-stream", "image/jpeg", "image/jpg", "image/png", "image/gif", "image/webp",
    "image/heic", "image/heif", "image/avif", "video/mp4", "video/quicktime", "video/webm",
    "video/x-matroska", "application/pdf", "application/zip", "application/x-zip-compressed",
    "text/plain", "text/csv"]

def validate (channel : ChannelId) (input : NewUpload) : Except UploadError Unit :=
  if !store.channelEnabled channel then .error .notFound
  else if !contentTypes.contains input.contentType then .error .unsupported
  else if input.sizeBytes = 0 ∨ store.limits.maxFileBytes < input.sizeBytes ∨
      input.filename = "" ∨ 255 < input.filename.length ∨ input.filename.toList.any isControl ∨
      input.contentType = "" ∨ 127 < input.contentType.utf8ByteSize ∨
      input.contentType.toList.any isControl then .error .invalid
  else .ok ()

/-- `u64::saturating_add`. -/
def saturatingAdd (a b : Nat) : Nat := min (a + b) (2 ^ 64 - 1)

def admits (db : MediaDb) (actor : UserId) (size : Nat) : Bool :=
  let active := db.uploads.countP (·.state ≠ .complete)
  let ownerActive := db.uploads.countP fun u => u.ownerId = actor ∧ u.state ≠ .complete
  let reservation := max size chunkBytes
  active < 64 && ownerActive < 8 &&
    saturatingAdd (db.stored (fun _ => true) + db.reserved (fun _ => true)) reservation ≤
      store.limits.totalBytes &&
    saturatingAdd (db.stored (·.ownerId = actor) + db.reserved (·.ownerId = actor)) reservation ≤
      store.limits.ownerBytes

def newRow (actor : UserId) (channel : ChannelId) (input : NewUpload) (id : Uuid) (now : Int) :
    UploadRow :=
  ⟨id, actor, channel, input.requestId, input.filename, input.contentType, input.sizeBytes, 0, 0,
    .receiving, now + uploadTtl, none⟩

/-- What the insert into `media_uploads` is refused for: its keys. -/
def insertUpload (row : UploadRow) : MediaSql Unit := do
  let taken ← Txn.read fun (db : MediaDb) => db.uploads.any fun u =>
    u.id = row.id ∨ (u.ownerId = row.ownerId ∧ u.requestId = row.requestId)
  Txn.ensure (taken = false) .storage
  Txn.write fun db => { db with uploads := db.uploads ++ [row] }

/-- An earlier request with this id, which has to have asked for the same. -/
def sameRequest (channel : ChannelId) (input : NewUpload) (previous : UploadStatus) : Prop :=
  previous.channelId = channel ∧ previous.sizeBytes = input.sizeBytes ∧
    previous.originalFilename = input.filename ∧ previous.declaredType = input.contentType

instance (channel : ChannelId) (input : NewUpload) (previous : UploadStatus) :
    Decidable (sameRequest channel input previous) :=
  inferInstanceAs (Decidable (_ ∧ _))

def admitUpload (actor : UserId) (channel : ChannelId) (input : NewUpload) (id : Uuid) (now : Int) :
    MediaSql Uuid := do
  let room ← Txn.read fun db => store.admits db actor input.sizeBytes
  Txn.ensure room .quota
  insertUpload (newRow actor channel input id now)
  pure id

def repeated (actor : UserId) (channel : ChannelId) (input : NewUpload) (previous : Uuid)
    (now : Int) : MediaSql Uuid := do
  let status ← store.readUpload actor previous now
  Txn.ensure (sameRequest channel input status) .conflict
  pure previous

/-- The upload of this request, which is made unless there is one. -/
def request (actor : UserId) (channel : ChannelId) (input : NewUpload) (id : Uuid) (now : Int) :
    Option UploadRow → MediaSql Uuid
  | some previous => store.repeated actor channel input previous.id now
  | none => store.admitUpload actor channel input id now

/-- `create`. The clock is read for the earlier request or the new row, and again for the
answer; `id` is the generated id. -/
def create (actor : UserId) (channel : ChannelId) (input : NewUpload) (id : Uuid)
    (now read : Int) : MediaSql UploadStatus := do
  Txn.ofExcept (store.validate channel input)
  let allowed ← Txn.read fun db => db.isMember channel actor
  Txn.ensure allowed .notFound
  let previous ← Txn.read fun db =>
    db.uploads.find? fun u => u.ownerId = actor ∧ u.requestId = input.requestId
  let upload ← store.request actor channel input id now previous
  store.readUpload actor upload read

/-! ### Receiving -/

def acceptChunk (id : Uuid) (index : Nat) (bytes : Bytes) (hash : String) : MediaSql Unit := do
  let taken ← Txn.read fun (db : MediaDb) => (db.chunk? id index).isSome
  Txn.ensure (taken = false) .storage
  Txn.write fun db => { db with chunks := db.chunks ++ [⟨id, index, bytes, hash⟩] }
  Txn.write fun db => db.updateUpload id fun u =>
    { u with nextChunk := u.nextChunk + 1, receivedBytes := u.receivedBytes + bytes.length }

def repeatChunk (id : Uuid) (index : Nat) (bytes : Bytes) : MediaSql Unit := do
  let previous ← Txn.read fun db => db.chunk? id index
  Txn.ensure (previous = some bytes) .conflict

def storeChunk (status : UploadStatus) (id : Uuid) (index : Nat) (bytes : Bytes)
    (hash : String) : MediaSql Unit :=
  if index < status.nextChunk then repeatChunk id index bytes else acceptChunk id index bytes hash

def putChunk (actor : UserId) (id : Uuid) (index : Nat) (bytes : Bytes) (claimedHash : String)
    (now read : Int) : MediaSql UploadStatus := do
  Txn.ensure (bytes ≠ [] ∧ bytes.length ≤ chunkBytes) .invalid
  Txn.ensure (host.sha256Text bytes = claimedHash) .invalid
  let status ← store.readUpload actor id now
  Txn.ensure (status.state = .receiving ∧ index ≤ status.nextChunk) .conflict
  let offset := index * chunkBytes
  Txn.ensure (offset < status.sizeBytes ∧
    bytes.length = min (status.sizeBytes - offset) chunkBytes) .invalid
  storeChunk status id index bytes (host.sha256Text bytes)
  store.readUpload actor id read

def closeUpload (status : UploadStatus) (id : Uuid) : MediaSql Unit :=
  if status.state = .receiving then
    Txn.write fun db => db.updateUpload id fun u => { u with state := .sealed }
  else pure ()

/-- `seal`: nothing is received any more. -/
def sealUpload (actor : UserId) (id : Uuid) (now read : Int) : MediaSql UploadStatus := do
  let status ← store.readUpload actor id now
  Txn.ensure (status.receivedBytes = status.sizeBytes) .conflict
  closeUpload status id
  store.readUpload actor id read

/-! ### Completing -/

/-- A `complete` call that is reading the chunks: what sealing told it, the next chunk to
read, and what it knows of those it has read. The hasher is the bytes it has been fed. -/
structure Completing where
  actor : UserId
  id : Uuid
  status : UploadStatus
  index : Nat
  hashed : Bytes
  detectedType : Option String
  attachment : Option Validator
  length : Nat

/-- A `complete` call goes on, or it has its answer. -/
inductive Progress
  | reading (c : Completing)
  | done (r : Except UploadError MediaId)

/-- Seal the upload. One that has its media object is answered at once. -/
def complete (actor : UserId) (id : Uuid) (now read : Int) (db : MediaDb) : Progress × MediaDb :=
  match (store.sealUpload actor id now read).commit db with
  | (.error e, db') => (.done (.error e), db')
  | (.ok status, db') =>
    match status.mediaId with
    | some m => (.done (.ok m), db')
    | none => (.reading ⟨actor, id, status, 0, [], none, none, 0⟩, db')

/-- `read_sealed_chunk`. -/
def readSealedChunk (actor : UserId) (id : Uuid) (index : Nat) (now : Int) (db : MediaDb) :
    Option Bytes :=
  let readable := db.uploads.any fun u =>
    u.id = id ∧ u.ownerId = actor ∧ db.isMember u.channelId u.ownerId ∧ u.state ≠ .receiving ∧
      (u.state = .complete ∨ now < u.expiresAt)
  if readable then db.chunk? id index else none

def Completing.inspect (c : Completing) (bytes : Bytes) : Option String × Option Validator :=
  if c.index = 0 then
    let detected := completedType bytes c.status.declaredType
    (detected, detected.map Validator.new)
  else (c.detectedType, c.attachment)

/-- `!validator.push(&bytes)` refuses. -/
def pushAttachment (attachment : Option Validator) (bytes : Bytes) :
    Except UploadError (Option Validator) :=
  match attachment with
  | none => .ok none
  | some v =>
    match v.push bytes with
    | some v' => .ok (some v')
    | none => .error .unsupported

def Completing.read (c : Completing) (now : Int) (db : MediaDb) : Progress :=
  match readSealedChunk c.actor c.id c.index now db with
  | none => .done (.error .notFound)
  | some bytes =>
    match pushAttachment (c.inspect bytes).2 bytes with
    | .error e => .done (.error e)
    | .ok attachment =>
      .reading { c with
        index := c.index + 1, hashed := c.hashed ++ bytes, detectedType := (c.inspect bytes).1,
        attachment, length := c.length + bytes.length }

/-- What the object has to pass before it is stored. -/
def Completing.verdict (c : Completing) : Except UploadError String :=
  if c.length ≠ c.status.sizeBytes then .error .conflict
  else
    match c.detectedType, c.attachment with
    | none, _ => .error .unsupported
    | some contentType, some v => if v.finish then .ok contentType else .error .unsupported
    | some _, none => .error .unsupported

def object (c : Completing) (status : UploadStatus) (contentType : String) (mediaId : MediaId) :
    ObjectRow :=
  ⟨mediaId, c.actor, status.channelId, "chunks:v1:" ++ c.id.hyphenated, status.originalFilename,
    contentType, status.sizeBytes, host.sha256Text c.hashed⟩

/-- The insert into `media_objects`, with its keys and the budget trigger. -/
def insertObject (o : ObjectRow) : MediaSql Unit := do
  let exceeded ← Txn.read fun (db : MediaDb) => db.overBudget o
  Txn.ensure (exceeded = false) .quota
  let taken ← Txn.read fun (db : MediaDb) =>
    db.objects.any fun r => r.id = o.id ∨ r.storageKey = o.storageKey
  Txn.ensure (taken = false) .storage
  Txn.write fun db => { db with objects := db.objects ++ [o] }

def enqueuePreview (o : ObjectRow) (now : Int) : MediaSql Unit :=
  if "image/".toList.isPrefixOf o.contentType.toList then
    Txn.write fun db => { db with previewJobs := db.previewJobs ++ [⟨o.id, now⟩] }
  else pure ()

/-- The last transaction of `complete`: the object and the upload's new state. -/
def publishObject (c : Completing) (status : UploadStatus) (contentType : String)
    (mediaId : MediaId) (now : Int) : MediaSql Unit := do
  Txn.ensure (status.state = .sealed) .conflict
  let o := object host c status contentType mediaId
  insertObject o
  Txn.write fun db => db.updateUpload c.id fun u =>
    { u with state := .complete, mediaId := some mediaId }
  enqueuePreview o now

def publish (c : Completing) (mediaId : MediaId) (now : Int) : MediaSql (MediaId × Bool) := do
  let contentType ← Txn.ofExcept c.verdict
  let status ← store.readUpload c.actor c.id now
  match status.mediaId with
  | some m => pure (m, false)
  | none =>
    publishObject host c status contentType mediaId now
    pure (mediaId, true)

def abort (actor : UserId) (id : Uuid) (now : Int) : MediaSql Unit := do
  let status ← store.readUpload actor id now
  Txn.ensure (status.state ≠ .complete) .conflict
  Txn.write fun db => db.deleteUploads (·.id = id)

def cleanupExpired (now : Int) : MediaSql Nat := do
  let gone := fun u : UploadRow => u.state ≠ .complete && u.expiresAt ≤ now
  let count ← Txn.read fun (db : MediaDb) => db.uploads.countP gone
  Txn.write fun db => db.deleteUploads gone
  pure count

end MediaStore

/-! ### Interleaved calls -/

inductive MediaCall
  | create (actor : UserId) (channel : ChannelId) (input : NewUpload) (id : Uuid) (now read : Int)
  | putChunk (actor : UserId) (id : Uuid) (index : Nat) (bytes : Bytes) (claimedHash : String)
      (now read : Int)
  | sealUpload (actor : UserId) (id : Uuid) (now read : Int)
  | abort (actor : UserId) (id : Uuid) (now : Int)
  | cleanupExpired (now : Int)

namespace MediaCall

def exec (store : MediaStore) (host : Host) (call : MediaCall) (db : MediaDb) : MediaDb :=
  match call with
  | create actor channel input id now read =>
    ((store.create actor channel input id now read).commit db).2
  | putChunk actor id index bytes claimedHash now read =>
    ((store.putChunk host actor id index bytes claimedHash now read).commit db).2
  | sealUpload actor id now read => ((store.sealUpload actor id now read).commit db).2
  | abort actor id now => ((store.abort actor id now).commit db).2
  | cleanupExpired now => ((MediaStore.cleanupExpired now).commit db).2

def newUpload : MediaCall → Option Uuid
  | create _ _ _ id _ _ => some id
  | _ => none

end MediaCall

structure MediaWorld where
  db : MediaDb
  completing : List MediaStore.Completing
  issued : List Uuid

/-- A call, a step of a `complete` call, or its answer, with whether it stored the object. -/
inductive MediaLabel
  | call (c : MediaCall)
  | completing (id : Uuid)
  | returned (id : Uuid) (m : MediaId) (stored : Bool)
  | memberships

open MediaStore in
/-- Generated ids are new, the clock is arbitrary, and memberships come and go. -/
inductive MediaStep (store : MediaStore) (host : Host) : MediaWorld → MediaLabel → MediaWorld → Prop
  | call {w : MediaWorld} {c : MediaCall} (hnew : ∀ id, c.newUpload = some id → id ∉ w.issued) :
      MediaStep store host w (.call c)
        ⟨c.exec store host w.db, w.completing, c.newUpload.toList ++ w.issued⟩
  | started {w : MediaWorld} {actor : UserId} {id : Uuid} {now read : Int} {c : Completing}
      {db' : MediaDb} (h : store.complete actor id now read w.db = (.reading c, db')) :
      MediaStep store host w (.completing id) ⟨db', c :: w.completing, w.issued⟩
  | answered {w : MediaWorld} {actor : UserId} {id : Uuid} {now read : Int} {m : MediaId}
      {db' : MediaDb} (h : store.complete actor id now read w.db = (.done (.ok m), db')) :
      MediaStep store host w (.returned id m false) ⟨db', w.completing, w.issued⟩
  | refused {w : MediaWorld} {actor : UserId} {id : Uuid} {now read : Int} {e : UploadError}
      {db' : MediaDb} (h : store.complete actor id now read w.db = (.done (.error e), db')) :
      MediaStep store host w (.completing id) ⟨db', w.completing, w.issued⟩
  | read {db : MediaDb} {before after : List Completing} {c c' : Completing} {issued : List Uuid}
      {now : Int} (hmore : c.index < c.status.nextChunk) (h : c.read now db = .reading c') :
      MediaStep store host ⟨db, before ++ c :: after, issued⟩ (.completing c.id)
        ⟨db, before ++ c' :: after, issued⟩
  | published {db db' : MediaDb} {before after : List Completing} {c : Completing}
      {issued : List Uuid} {mediaId m : MediaId} {now : Int} {stored : Bool}
      (hread : c.index = c.status.nextChunk)
      (h : (store.publish host c mediaId now).commit db = (.ok (m, stored), db')) :
      MediaStep store host ⟨db, before ++ c :: after, issued⟩ (.returned c.id m stored)
        ⟨db', before ++ after, issued⟩
  -- a chunk that is gone, a refused type, a failed publication, or a crash: nothing is written
  | ended {db : MediaDb} {before after : List Completing} {c : Completing} {issued : List Uuid} :
      MediaStep store host ⟨db, before ++ c :: after, issued⟩ (.completing c.id)
        ⟨db, before ++ after, issued⟩
  | memberships {w : MediaWorld} (members : List (ChannelId × UserId)) :
      MediaStep store host w .memberships
        ⟨{ w.db with memberships := members }, w.completing, w.issued⟩

end Sproyt
