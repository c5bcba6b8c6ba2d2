import Sproyt.Lib.Chunks
import Sproyt.Media.Upload

/-!
# What the calls do to the media tables

Every transaction leaves the tables alone, adds an upload, stores the next chunk of one,
seals or publishes one, or deletes uploads that are not complete. What holds of the stored
chunks is proved once for these changes.
-/

namespace Sproyt

open Txn MediaStore

section

variable {channel : ChannelId} {input : NewUpload}

variable {host : Host} {store : MediaStore} {db db' : MediaDb} {actor : UserId} {id : Uuid}
  {now read : Int} {status : UploadStatus} {issued : List Uuid}

def MediaDb.files (db : MediaDb) : List UploadRow × List ChunkRow × List ObjectRow :=
  (db.uploads, db.chunks, db.objects)

def MediaDb.object? (db : MediaDb) (m : MediaId) : Option ObjectRow :=
  db.objects.find? (·.id = m)

/-- What a transaction that may add an upload with the id `new` can do. -/
inductive Change (host : Host) (new : Option Uuid) (db db' : MediaDb) : Prop
  | same (hfiles : db'.files = db.files)
  | added (row : UploadRow) (hnew : new = some row.id) (hstate : row.state = .receiving)
      (hnext : row.nextChunk = 0) (hreceived : row.receivedBytes = 0) (hmedia : row.mediaId = none)
      (hfiles : db'.files = (db.uploads ++ [row], db.chunks, db.objects))
  | accepted (u : UploadRow) (bytes : Bytes) (hash : String) (hu : u ∈ db.uploads)
      (hstate : u.state = .receiving)
      (hlength : bytes.length = Chunks.pieceLength chunkBytes u.expectedBytes u.nextChunk)
      (hfiles : db'.files = (Table.set (·.id)
        { u with nextChunk := u.nextChunk + 1, receivedBytes := u.receivedBytes + bytes.length }
        db.uploads, db.chunks ++ [⟨u.id, u.nextChunk, bytes, hash⟩], db.objects))
  | closed (u : UploadRow) (hu : u ∈ db.uploads) (hstate : u.state = .receiving)
      (hreceived : u.receivedBytes = u.expectedBytes)
      (hfiles : db'.files =
        (Table.set (·.id) { u with state := .sealed } db.uploads, db.chunks, db.objects))
  | published (u : UploadRow) (o : ObjectRow) (hu : u ∈ db.uploads) (hstate : u.state = .sealed)
      (hnone : db.object? o.id = none) (howner : o.ownerId = u.ownerId)
      (hsize : o.sizeBytes = u.expectedBytes)
      (hsha256 : o.sha256 = host.sha256Text (db.content u.id))
      (hfiles : db'.files = (Table.set (·.id)
        { u with state := .complete, mediaId := some o.id } db.uploads, db.chunks,
        db.objects ++ [o]))
  | deleted (gone : UploadRow → Bool)
      (hgone : ∀ u ∈ db.uploads, gone u = true → u.state ≠ .complete)
      (hfiles : db'.files = (db.deleteUploads gone).files)

/-! ### The calls -/

theorem updateUpload_files {u : UploadRow} {f : UploadRow → UploadRow}
    (hunique : (db.uploads.map (·.id)).Nodup) (hu : u ∈ db.uploads) (hf : (f u).id = u.id) :
    (db.updateUpload u.id f).files =
      (Table.set (·.id) (f u) db.uploads, db.chunks, db.objects) := by
  have hset := Table.map_update_eq_set (f := f) hunique hu hf
  rw [MediaDb.files, MediaDb.updateUpload, ← hset]

theorem readUpload_ok (h : (store.readUpload actor id now).run db = .ok (status, db')) :
    db' = db ∧ ∃ u ∈ db.uploads, u.id = id ∧ status = u.status ∧ u.ownerId = actor := by
  simp only [readUpload, answers] at h
  obtain ⟨u, hfind, -, -, rfl, rfl⟩ := h
  have hu := List.find?_some hfind
  rw [decide_eq_true_eq] at hu
  exact ⟨rfl, u, List.mem_of_find?_eq_some hfind, hu.1, rfl, hu.2.1⟩

theorem validate_ok
    (h : store.validate channel input = .ok ()) : input.sizeBytes ≤ store.limits.maxFileBytes := by
  unfold validate at h
  split at h
  · cases h
  split at h
  · cases h
  split at h
  · cases h
  · next hvalid =>
    rw [not_or, not_or] at hvalid
    exact Nat.le_of_not_lt hvalid.2.1

theorem create_ok (h : (store.create actor channel input id now read).run db = .ok (status, db')) :
    db' = db ∨ input.sizeBytes ≤ store.limits.maxFileBytes ∧
      store.admits db actor input.sizeBytes = true ∧
      db' = { db with
        uploads := db.uploads ++ [newRow actor channel input id now] } := by
  simp only [create, answers] at h
  obtain ⟨_, hvalid, -, upload, db₁, hrequest, hread⟩ := h
  obtain ⟨rfl, -⟩ := readUpload_ok hread
  unfold request at hrequest
  split at hrequest
  · simp only [repeated, answers] at hrequest
    obtain ⟨_, _, hread', -, -, rfl⟩ := hrequest
    obtain ⟨rfl, -⟩ := readUpload_ok hread'
    exact .inl rfl
  · simp only [admitUpload, insertUpload, answers] at hrequest
    obtain ⟨hroom, -, -, rfl⟩ := hrequest
    exact .inr ⟨validate_ok hvalid, hroom, rfl⟩

theorem create_change
    (h : (store.create actor channel input id now read).run db = .ok (status, db')) :
    Change host (some id) db db' := by
  rcases create_ok h with rfl | ⟨-, -, rfl⟩
  · exact .same rfl
  · exact .added (newRow actor channel input id now) rfl rfl rfl rfl rfl rfl

section

variable (hunique : (db.uploads.map (·.id)).Nodup)

include hunique

theorem putChunk_change {index : Nat} {bytes : Bytes} {claimedHash : String}
    (h : (store.putChunk host actor id index bytes claimedHash now read).run db =
      .ok (status, db')) : Change host none db db' := by
  simp only [putChunk, answers] at h
  obtain ⟨-, -, found, _, hread, hopen, hfits, _, db₁, hstore, hread'⟩ := h
  obtain ⟨rfl, u, hu, rfl, rfl, -⟩ := readUpload_ok hread
  obtain ⟨rfl, -⟩ := readUpload_ok hread'
  by_cases hindex : index < u.status.nextChunk
  · simp only [storeChunk, hindex, if_true, repeatChunk, answers] at hstore
    obtain ⟨-, -, rfl⟩ := hstore
    exact .same rfl
  · simp only [storeChunk, hindex, if_false, acceptChunk, answers] at hstore
    obtain ⟨-, rfl⟩ := hstore
    have hnext : index = u.nextChunk := Nat.le_antisymm hopen.2 (Nat.le_of_not_lt hindex)
    subst hnext
    refine .accepted u bytes (host.sha256Text bytes) hu hopen.1 ?_ ?_
    · rw [hfits.2, Chunks.pieceLength, Nat.min_comm]
      rfl
    · exact updateUpload_files hunique hu rfl

theorem sealUpload_change (h : (store.sealUpload actor id now read).run db = .ok (status, db')) :
    Change host none db db' ∧
      ∃ u ∈ db'.uploads, u.id = id ∧ u.state ≠ .receiving ∧ status = u.status := by
  simp only [sealUpload, answers] at h
  obtain ⟨found, _, hread, hreceived, _, db₁, hclose, hread'⟩ := h
  obtain ⟨rfl, u, hu, rfl, rfl, -⟩ := readUpload_ok hread
  obtain ⟨rfl, u', hu', hid, rfl, -⟩ := readUpload_ok hread'
  by_cases hstate : u.status.state = .receiving
  · simp only [closeUpload, hstate, if_true, write_ok] at hclose
    subst hclose
    have hfiles := updateUpload_files (f := fun u => { u with state := .sealed }) hunique hu rfl
    refine ⟨.closed u hu hstate hreceived hfiles, u', hu', hid, ?_, rfl⟩
    obtain ⟨x, -, rfl⟩ := List.mem_map.1 hu'
    by_cases hx : x.id = u.id
    · simp [hx]
    · rw [if_neg hx] at hid
      exact absurd hid hx
  · simp only [closeUpload, hstate, if_false, pure_ok] at hclose
    obtain ⟨-, rfl⟩ := hclose
    refine ⟨.same rfl, u', hu', hid, ?_, rfl⟩
    rw [Table.eq_of_key_eq hunique hu' hu hid]
    exact hstate

theorem abort_change {r : Unit}
    (h : (store.abort actor id now).run db = .ok (r, db')) : Change host none db db' := by
  simp only [abort, answers] at h
  obtain ⟨found, _, hread, hstate, rfl⟩ := h
  obtain ⟨rfl, u, hu, rfl, rfl, -⟩ := readUpload_ok hread
  refine .deleted (·.id = u.id) ?_ rfl
  intro x hx hgone
  rw [Table.eq_of_key_eq hunique hx hu (of_decide_eq_true hgone)]
  exact hstate

end

theorem cleanupExpired_change {n : Nat}
    (h : (cleanupExpired now).run db = .ok (n, db')) : Change host none db db' := by
  simp only [cleanupExpired, answers] at h
  obtain ⟨-, rfl⟩ := h
  refine .deleted _ ?_ rfl
  intro u _ hgone
  rw [Bool.and_eq_true] at hgone
  exact of_decide_eq_true hgone.1

/-- The answer is the id of the upload's media object, which is stored by this call unless it
was there. -/
theorem publish_change {c : MediaStore.Completing} {mediaId m : MediaId} {stored : Bool}
    (hunique : (db.uploads.map (·.id)).Nodup)
    (hhashed : ∀ u ∈ db.uploads, u.id = c.id → c.hashed = db.content c.id)
    (h : (store.publish host c mediaId now).run db = .ok ((m, stored), db')) :
    Change host none db db' ∧ (∃ u ∈ db'.uploads, u.id = c.id ∧ u.mediaId = some m) ∧
      (stored = true → ∀ u ∈ db.uploads, u.id = c.id → u.mediaId = none) := by
  simp only [publish, answers] at h
  obtain ⟨contentType, -, found, _, hread, h⟩ := h
  obtain ⟨rfl, u, hu, hid, rfl, howner⟩ := readUpload_ok hread
  cases hmedia : u.status.mediaId with
  | some m' =>
    simp only [hmedia, pure_ok, Prod.mk.injEq] at h
    obtain ⟨⟨rfl, rfl⟩, rfl⟩ := h
    exact ⟨.same rfl, ⟨u, hu, hid, hmedia⟩, fun hstored => absurd hstored Bool.false_ne_true⟩
  | none =>
    have hpreview : Frame MediaDb.files
        (enqueuePreview (object host c u.status contentType mediaId) now) :=
      .ite (.write fun _ => rfl) .pure
    simp only [hmedia, publishObject, insertObject, Prod.mk.injEq, answers] at h
    obtain ⟨hstate, -, hfree, _, db₂, hjobs, ⟨rfl, rfl⟩, rfl⟩ := h
    have hfiles := hpreview hjobs
    rw [← hid] at hfiles
    replace hfiles := hfiles.trans (updateUpload_files hunique hu rfl)
    refine ⟨.published u (object host c u.status contentType mediaId) hu hstate ?_
      howner.symm rfl ?_ hfiles, ?_, ?_⟩
    · refine List.find?_eq_none.2 fun r hr hrid => ?_
      have hnot := List.any_eq_false.1 hfree r hr
      exact hnot (decide_eq_true (.inl (of_decide_eq_true hrid)))
    · show host.sha256Text c.hashed = _
      rw [hhashed u hu hid, hid]
    · have huploads := congrArg Prod.fst hfiles
      refine ⟨{ u with state := .complete, mediaId := some mediaId }, ?_, hid, rfl⟩
      rw [show db₂.uploads = _ from huploads]
      exact Table.mem_set_self ⟨u, hu, rfl⟩
    · intro _ x hx hxid
      rw [Table.eq_of_key_eq hunique hx hu (hxid.trans hid.symm)]
      exact hmedia

end

end Sproyt
