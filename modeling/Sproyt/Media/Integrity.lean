import Sproyt.Lib.Run
import Sproyt.Media.Changes

/-!
# Upload integrity

Whatever calls interleave, an upload stores exactly the chunks it has counted, each of the
length its size asks for; chunks do not change while the upload exists; and the media object
of a complete upload has the length and the SHA-256 of its chunks, one after the other.
-/

namespace Sproyt

open List Txn MediaDb Table

variable {gone : UploadRow → Bool} {bytes : Bytes} {actor : UserId} {trace : List MediaLabel}

section

variable {u' : UploadRow} {now : Int}

variable {host : Host} {store : MediaStore} {db db' : MediaDb} {id : Uuid} {issued : List Uuid}
  {new : Option Uuid} {u : UploadRow} {m : MediaId}

structure Intact (host : Host) (db : MediaDb) (u : UploadRow) : Prop where
  indexes : (db.chunksOf u.id).map (·.chunkIndex) = List.range u.nextChunk
  lengths : ∀ c ∈ db.chunksOf u.id,
    c.content.length = min chunkBytes (u.expectedBytes - c.chunkIndex * chunkBytes)
  received : u.receivedBytes = ((db.chunksOf u.id).map (·.content.length)).sum
  full : u.state ≠ .receiving → u.receivedBytes = u.expectedBytes
  unpublished : u.state ≠ .complete → u.mediaId = none
  published : u.state = .complete → ∃ m o, u.mediaId = some m ∧ db.object? m = some o ∧
    o.sizeBytes = (db.content u.id).length ∧ o.sha256 = host.sha256Text (db.content u.id)

structure SoundMedia (host : Host) (issued : List Uuid) (db : MediaDb) : Prop where
  unique : (db.uploads.map (·.id)).Nodup
  intact : ∀ u ∈ db.uploads, Intact host db u
  owned : ∀ c ∈ db.chunks, ∃ u ∈ db.uploads, u.id = c.uploadId
  issued : ∀ u ∈ db.uploads, u.id ∈ issued

theorem Intact.length_chunksOf (h : Intact host db u) :
    (db.chunksOf u.id).length = u.nextChunk := by
  have hlength := congrArg List.length h.indexes
  simpa using hlength

theorem length_content (db : MediaDb) (id : Uuid) :
    (db.content id).length = ((db.chunksOf id).map (·.content.length)).sum := by
  rw [content, length_flatMap]

theorem Intact.chunk?_eq (h : Intact host db u) (i : Nat) :
    db.chunk? u.id i = (db.chunksOf u.id)[i]?.map (·.content) := by
  rw [← find?_key_range h.indexes, chunksOf, find?_filter, chunk?]
  congr 2
  funext c
  simp

/-- The chunks cover the upload from its beginning. In particular the table's own check, that
no more is received than declared, never refuses a chunk. -/
theorem Intact.receivedBytes_eq (h : Intact host db u) :
    u.receivedBytes = min (u.nextChunk * chunkBytes) u.expectedBytes := by
  -- for pieces of any size, so that nothing computes with the number
  have hcover : ∀ n, (∀ c ∈ db.chunksOf u.id, c.content.length =
      Chunks.pieceLength n u.expectedBytes c.chunkIndex) →
      u.receivedBytes = min (u.nextChunk * n) u.expectedBytes := by
    intro n hpieces
    have hlengths : (db.chunksOf u.id).map (·.content.length) =
        ((db.chunksOf u.id).map (·.chunkIndex)).map (Chunks.pieceLength n u.expectedBytes) := by
      rw [map_map]
      exact map_congr_left hpieces
    rw [h.received, hlengths, h.indexes, Chunks.sum_pieceLength]
  exact hcover chunkBytes h.lengths

theorem Intact.congr (h : Intact host db u) (hchunks : db'.chunksOf u.id = db.chunksOf u.id)
    (hobjects : ∀ m o, db.object? m = some o → db'.object? m = some o) : Intact host db' u := by
  have hcontent : db'.content u.id = db.content u.id := by
    rw [content, hchunks, content]
  refine ⟨?_, ?_, ?_, h.full, h.unpublished, ?_⟩
  · rw [hchunks]
    exact h.indexes
  · rw [hchunks]
    exact h.lengths
  · rw [hchunks]
    exact h.received
  · intro hstate
    obtain ⟨m, o, hm, ho, hsize, hsha⟩ := h.published hstate
    exact ⟨m, o, hm, hobjects m o ho, hcontent ▸ hsize, hcontent ▸ hsha⟩

theorem chunksOf_of_chunks (h : db'.chunks = db.chunks) (id : Uuid) :
    db'.chunksOf id = db.chunksOf id := by
  rw [chunksOf, h, chunksOf]

theorem chunksOf_append {c : ChunkRow} (h : db'.chunks = db.chunks ++ [c]) :
    db'.chunksOf id = db.chunksOf id ++ if c.uploadId = id then [c] else [] := by
  rw [chunksOf, h, filter_append, chunksOf]
  congr 1
  by_cases hid : c.uploadId = id
  · simp [hid]
  · simp [hid]

theorem object?_append (o : ObjectRow) (h : db'.objects = db.objects ++ [o]) {r : ObjectRow}
    (hr : db.object? m = some r) : db'.object? m = some r := by
  rw [object?, h, find?_append, ← object?, hr]
  rfl

theorem chunksOf_delete (hunique : (db.uploads.map (·.id)).Nodup)
    (hu : u ∈ db.uploads) (hstays : gone u = false) :
    (db.deleteUploads gone).chunksOf u.id = db.chunksOf u.id := by
  rw [chunksOf, deleteUploads, filter_filter, chunksOf]
  apply filter_congr
  intro c _
  by_cases hid : c.uploadId = u.id
  · have hkept : (db.uploads.any fun x => gone x && x.id = c.uploadId) = false := by
      rw [any_eq_false]
      intro x hx hgone
      rw [Bool.and_eq_true, decide_eq_true_eq] at hgone
      rw [eq_of_key_eq hunique hx hu (hgone.2.trans hid), hstays] at hgone
      exact absurd hgone.1 (by decide)
    simp [hid, hid ▸ hkept]
  · simp [hid]

/-! ### What a change keeps -/

theorem files_eq {uploads : List UploadRow} {chunks : List ChunkRow} {objects : List ObjectRow}
    (h : db'.files = (uploads, chunks, objects)) :
    db'.uploads = uploads ∧ db'.chunks = chunks ∧ db'.objects = objects := by
  simpa only [files, Prod.mk.injEq] using h

theorem SoundMedia.write (hs : SoundMedia host issued db) (hu : u ∈ db.uploads)
    (huploads : db'.uploads = set (·.id) u' db.uploads) (hid : u'.id = u.id)
    (hself : Intact host db' u')
    (hothers : ∀ x ∈ db.uploads, x.id ≠ u.id → db'.chunksOf x.id = db.chunksOf x.id)
    (hobjects : ∀ m o, db.object? m = some o → db'.object? m = some o)
    (howned : ∀ c ∈ db'.chunks, c ∈ db.chunks ∨ c.uploadId = u.id) :
    SoundMedia host issued db' := by
  have hids : db'.uploads.map (·.id) = db.uploads.map (·.id) := by
    rw [huploads]
    exact map_key_set u' db.uploads
  refine ⟨?_, ?_, ?_, ?_⟩
  · rw [hids]
    exact hs.unique
  · intro x hx
    rw [huploads] at hx
    rcases mem_set hx with rfl | ⟨hx, hne⟩
    · exact hself
    · exact (hs.intact x hx).congr (hothers x hx (hid ▸ hne)) hobjects
  · intro c hc
    have hmem : c.uploadId ∈ db.uploads.map (·.id) := by
      rcases howned c hc with hc | hc
      · obtain ⟨x, hx, hxid⟩ := hs.owned c hc
        exact mem_map.2 ⟨x, hx, hxid⟩
      · exact mem_map.2 ⟨u, hu, hc.symm⟩
    rw [← hids] at hmem
    exact mem_map.1 hmem
  · intro x hx
    have hmem : x.id ∈ db'.uploads.map (·.id) := mem_map_of_mem hx
    rw [hids] at hmem
    obtain ⟨y, hy, hyid⟩ := mem_map.1 hmem
    exact hyid ▸ hs.issued y hy

theorem Intact.accept {hash : String} (h : Intact host db u) (hstate : u.state = .receiving)
    (hlength : bytes.length = Chunks.pieceLength chunkBytes u.expectedBytes u.nextChunk)
    (hchunks : db'.chunks = db.chunks ++ [⟨u.id, u.nextChunk, bytes, hash⟩]) :
    Intact host db' { u with
      nextChunk := u.nextChunk + 1, receivedBytes := u.receivedBytes + bytes.length } := by
  have hof : db'.chunksOf u.id = db.chunksOf u.id ++ [⟨u.id, u.nextChunk, bytes, hash⟩] := by
    rw [chunksOf_append hchunks, if_pos rfl]
  refine ⟨?_, ?_, ?_, fun hnot => absurd hstate hnot, h.unpublished, ?_⟩
  · show (db'.chunksOf u.id).map (·.chunkIndex) = List.range (u.nextChunk + 1)
    rw [hof, map_append, h.indexes, range_succ]
    rfl
  · intro c hc
    replace hc : c ∈ db'.chunksOf u.id := hc
    rw [hof, mem_append, mem_singleton] at hc
    rcases hc with hc | rfl
    · exact h.lengths c hc
    · exact hlength
  · show u.receivedBytes + bytes.length = ((db'.chunksOf u.id).map (·.content.length)).sum
    rw [hof, map_append, sum_append, ← h.received]
    rfl
  · intro hcomplete
    rw [show u.state = .complete from hcomplete] at hstate
    cases hstate

theorem Intact.publish {o : ObjectRow} (h : Intact host db u) (hstate : u.state = .sealed)
    (hnone : db.object? o.id = none) (hsize : o.sizeBytes = u.expectedBytes)
    (hsha256 : o.sha256 = host.sha256Text (db.content u.id)) (hchunks : db'.chunks = db.chunks)
    (hobjects : db'.objects = db.objects ++ [o]) :
    Intact host db' { u with state := .complete, mediaId := some o.id } := by
  have hof := chunksOf_of_chunks hchunks u.id
  have hcontent : db'.content u.id = db.content u.id := by
    rw [content, hof, content]
  have hfull : u.receivedBytes = u.expectedBytes := by
    apply h.full
    rw [hstate]
    decide
  refine ⟨?_, ?_, ?_, fun _ => hfull, fun hnot => absurd rfl hnot, fun _ =>
    ⟨o.id, o, rfl, ?_, ?_, ?_⟩⟩
  · show (db'.chunksOf u.id).map (·.chunkIndex) = _
    rw [hof]
    exact h.indexes
  · show ∀ c ∈ db'.chunksOf u.id, _
    rw [hof]
    exact h.lengths
  · show u.receivedBytes = ((db'.chunksOf u.id).map (·.content.length)).sum
    rw [hof]
    exact h.received
  · rw [object?, hobjects, find?_append, ← object?, hnone]
    simp
  · show o.sizeBytes = (db'.content u.id).length
    rw [hcontent, length_content, ← h.received, hsize, hfull]
  · show o.sha256 = host.sha256Text (db'.content u.id)
    rw [hcontent]
    exact hsha256

theorem SoundMedia.add {row : UploadRow} (hs : SoundMedia host issued db)
    (hnew : row.id ∉ issued) (hstate : row.state = .receiving) (hnext : row.nextChunk = 0)
    (hreceived : row.receivedBytes = 0) (hmedia : row.mediaId = none)
    (hfiles : db'.files = (db.uploads ++ [row], db.chunks, db.objects)) :
    SoundMedia host (row.id :: issued) db' := by
  obtain ⟨huploads, hchunks, hobjects⟩ := files_eq hfiles
  have hnone : db'.chunksOf row.id = [] := by
    rw [chunksOf_of_chunks hchunks]
    refine filter_eq_nil_iff.2 fun c hc hid => ?_
    obtain ⟨x, hx, hxid⟩ := hs.owned c hc
    rw [decide_eq_true_eq] at hid
    exact hnew (hid ▸ hxid ▸ hs.issued x hx)
  refine ⟨?_, ?_, ?_, ?_⟩
  · rw [huploads]
    exact nodup_append_single hs.unique fun x hx hid => hnew (hid ▸ hs.issued x hx)
  · intro x hx
    rw [huploads, mem_append, mem_singleton] at hx
    rcases hx with hx | rfl
    · refine (hs.intact x hx).congr (chunksOf_of_chunks hchunks _) fun m o ho => ?_
      rw [object?, hobjects]
      exact ho
    · refine ⟨?_, ?_, ?_, fun hnot => absurd hstate hnot, fun _ => hmedia, ?_⟩
      · rw [hnone, hnext]
        rfl
      · rw [hnone]
        exact fun c hc => absurd hc not_mem_nil
      · rw [hnone, hreceived]
        rfl
      · intro hcomplete
        rw [hstate] at hcomplete
        cases hcomplete
  · intro c hc
    rw [hchunks] at hc
    obtain ⟨x, hx, hxid⟩ := hs.owned c hc
    rw [huploads]
    exact ⟨x, mem_append_left _ hx, hxid⟩
  · intro x hx
    rw [huploads, mem_append, mem_singleton] at hx
    rcases hx with hx | rfl
    · exact mem_cons_of_mem _ (hs.issued x hx)
    · exact mem_cons_self

theorem SoundMedia.delete (hs : SoundMedia host issued db)
    (hfiles : db'.files = (db.deleteUploads gone).files) : SoundMedia host issued db' := by
  obtain ⟨huploads, hchunks, hobjects⟩ := files_eq hfiles
  have hkept : ∀ x ∈ db'.uploads, x ∈ db.uploads ∧ gone x = false := by
    intro x hx
    rw [huploads] at hx
    simpa [deleteUploads] using hx
  refine ⟨?_, ?_, ?_, fun x hx => hs.issued x (hkept x hx).1⟩
  · rw [huploads]
    exact hs.unique.sublist (filter_sublist.map _)
  · intro x hx
    obtain ⟨hx, hstays⟩ := hkept x hx
    refine (hs.intact x hx).congr ?_ fun m o ho => ?_
    · rw [chunksOf_of_chunks hchunks, chunksOf_delete hs.unique hx hstays]
    · rw [object?, hobjects]
      exact ho
  · intro c hc
    rw [hchunks] at hc
    obtain ⟨hc, hstays⟩ := mem_filter.1 hc
    obtain ⟨x, hx, hxid⟩ := hs.owned c hc
    refine ⟨x, ?_, hxid⟩
    rw [huploads]
    refine mem_filter.2 ⟨hx, ?_⟩
    rw [Bool.not_eq_true', any_eq_false] at hstays
    have hgone := hstays x hx
    simpa [hxid] using hgone

theorem Change.sound (h : Change host new db db') (hs : SoundMedia host issued db)
    (hnew : ∀ id, new = some id → id ∉ issued) : SoundMedia host (new.toList ++ issued) db' := by
  have hmono : ∀ {db : MediaDb}, SoundMedia host issued db →
      SoundMedia host (new.toList ++ issued) db := fun h =>
    ⟨h.unique, h.intact, h.owned, fun u hu => mem_append_right _ (h.issued u hu)⟩
  cases h with
  | same hfiles =>
    obtain ⟨huploads, hchunks, hobjects⟩ := files_eq hfiles
    refine hmono ⟨huploads ▸ hs.unique, ?_, ?_, huploads ▸ hs.issued⟩
    · intro u hu
      refine (hs.intact u (huploads ▸ hu)).congr (chunksOf_of_chunks hchunks _) fun m o ho => ?_
      rw [object?, hobjects]
      exact ho
    · rw [huploads, hchunks]
      exact hs.owned
  | added row hid hstate hnext hreceived hmedia hfiles =>
    subst hid
    exact hs.add (hnew _ rfl) hstate hnext hreceived hmedia hfiles
  | accepted u bytes hash hu hstate hlength hfiles =>
    obtain ⟨huploads, hchunks, hobjects⟩ := files_eq hfiles
    refine hmono (hs.write hu huploads rfl
      ((hs.intact u hu).accept hstate hlength hchunks) ?_ ?_ ?_)
    · intro x _ hne
      rw [chunksOf_append hchunks, if_neg (Ne.symm hne), append_nil]
    · intro m o ho
      rw [object?, hobjects]
      exact ho
    · intro c hc
      rw [hchunks, mem_append, mem_singleton] at hc
      exact hc.imp id (congrArg ChunkRow.uploadId)
  | closed u hu hstate hreceived hfiles =>
    obtain ⟨huploads, hchunks, hobjects⟩ := files_eq hfiles
    have hof := chunksOf_of_chunks hchunks
    have hsame : ∀ m o, db.object? m = some o → db'.object? m = some o := by
      intro m o ho
      rw [object?, hobjects]
      exact ho
    have hu' := (hs.intact u hu).congr (hof u.id) hsame
    refine hmono (hs.write hu huploads rfl ?_ (fun x _ _ => hof x.id) hsame fun c hc => ?_)
    · refine ⟨hu'.indexes, hu'.lengths, hu'.received, fun _ => hreceived, fun _ => ?_, nofun⟩
      apply hu'.unpublished
      rw [hstate]
      decide
    · exact .inl (hchunks ▸ hc)
  | published u o hu hstate hnone _ hsize hsha256 hfiles =>
    obtain ⟨huploads, hchunks, hobjects⟩ := files_eq hfiles
    refine hmono (hs.write hu huploads rfl
      ((hs.intact u hu).publish hstate hnone hsize hsha256 hchunks hobjects)
      (fun x _ _ => chunksOf_of_chunks hchunks x.id) (fun m r hr => object?_append o hobjects hr)
      fun c hc => .inl (hchunks ▸ hc))
  | deleted gone _ hfiles => exact hmono (hs.delete hfiles)

/-- An upload after a change: it has all the chunks it had, and the same ones once nothing is
received any more. -/
structure Continues (db db' : MediaDb) (u u' : UploadRow) : Prop where
  id : u'.id = u.id
  chunks : db.chunksOf u.id <+: db'.chunksOf u.id
  closed : u.state ≠ .receiving → u'.state ≠ .receiving ∧ u'.nextChunk = u.nextChunk ∧
    db'.chunksOf u.id = db.chunksOf u.id

theorem Continues.of_chunksOf (hid : u'.id = u.id)
    (hchunks : db'.chunksOf u.id = db.chunksOf u.id) (hnext : u'.nextChunk = u.nextChunk)
    (hstate : u.state ≠ .receiving → u'.state ≠ .receiving) : Continues db db' u u' :=
  ⟨hid, hchunks ▸ prefix_rfl, fun h => ⟨hstate h, hnext, hchunks⟩⟩

theorem Change.origin (h : Change host new db db') (hs : SoundMedia host issued db)
    (hu' : u' ∈ db'.uploads) : new = some u'.id ∨ ∃ u ∈ db.uploads, Continues db db' u u' := by
  cases h with
  | same hfiles =>
    obtain ⟨huploads, hchunks, -⟩ := files_eq hfiles
    rw [huploads] at hu'
    exact .inr ⟨u', hu', .of_chunksOf rfl (chunksOf_of_chunks hchunks _) rfl id⟩
  | added row hid _ _ _ _ hfiles =>
    obtain ⟨huploads, hchunks, -⟩ := files_eq hfiles
    rw [huploads, mem_append, mem_singleton] at hu'
    rcases hu' with hu' | rfl
    · exact .inr ⟨u', hu', .of_chunksOf rfl (chunksOf_of_chunks hchunks _) rfl id⟩
    · exact .inl hid
  | accepted u bytes hash hu hstate _ hfiles =>
    obtain ⟨huploads, hchunks, -⟩ := files_eq hfiles
    rw [huploads] at hu'
    rcases mem_set hu' with rfl | ⟨hu', hne⟩
    · refine .inr ⟨u, hu, rfl, ?_, fun hnot => absurd hstate hnot⟩
      rw [chunksOf_append hchunks]
      exact prefix_append _ _
    · refine .inr ⟨u', hu', .of_chunksOf rfl ?_ rfl id⟩
      rw [chunksOf_append hchunks, if_neg (Ne.symm hne), append_nil]
  | closed u hu _ _ hfiles | published u o hu _ _ _ _ _ hfiles =>
    obtain ⟨huploads, hchunks, -⟩ := files_eq hfiles
    rw [huploads] at hu'
    rcases mem_set hu' with rfl | ⟨hu', -⟩
    · exact .inr ⟨u, hu, .of_chunksOf rfl (chunksOf_of_chunks hchunks _) rfl fun _ => nofun⟩
    · exact .inr ⟨u', hu', .of_chunksOf rfl (chunksOf_of_chunks hchunks _) rfl id⟩
  | deleted gone _ hfiles =>
    obtain ⟨huploads, hchunks, -⟩ := files_eq hfiles
    rw [huploads] at hu'
    obtain ⟨hu', hstays⟩ := mem_filter.1 hu'
    refine .inr ⟨u', hu', .of_chunksOf rfl ?_ rfl id⟩
    rw [chunksOf_of_chunks hchunks]
    exact chunksOf_delete hs.unique hu' (by simpa using hstays)

theorem Intact.complete_of_media (h : Intact host db u) (hm : u.mediaId = some m) :
    u.state = .complete := by
  by_contra hstate
  rw [h.unpublished hstate] at hm
  cases hm

theorem Change.keeps_complete (h : Change host new db db') (hs : SoundMedia host issued db)
    (hu : u ∈ db.uploads) (hm : u.mediaId = some m) : u ∈ db'.uploads := by
  have hcomplete := (hs.intact u hu).complete_of_media hm
  have hset : ∀ {x x' : UploadRow}, x ∈ db.uploads → x.state ≠ .complete → x'.id = x.id →
      u ∈ set (·.id) x' db.uploads := by
    intro x x' hx hstate hid
    refine mem_set_of_ne hu fun heq => hstate ?_
    rw [← eq_of_key_eq hs.unique hu hx (heq.trans hid)]
    exact hcomplete
  cases h with
  | same hfiles =>
    rw [(files_eq hfiles).1]
    exact hu
  | added row _ _ _ _ _ hfiles =>
    rw [(files_eq hfiles).1]
    exact mem_append_left _ hu
  | accepted x _ _ hx hstate _ hfiles | closed x hx hstate _ hfiles
  | published x o hx hstate _ _ _ _ hfiles =>
    rw [(files_eq hfiles).1]
    exact hset hx (by rw [hstate]; decide) rfl
  | deleted gone hgone hfiles =>
    rw [(files_eq hfiles).1]
    refine mem_filter.2 ⟨hu, ?_⟩
    rw [Bool.not_eq_true', Bool.eq_false_iff]
    exact fun h => hgone u hu h hcomplete

/-! ### Runs -/

open MediaStore (Completing)

/-- A `complete` call has hashed the chunks before the one it reads next. -/
def InFlight (db : MediaDb) (c : Completing) : Prop :=
  ∀ u ∈ db.uploads, u.id = c.id → u.state ≠ .receiving ∧ u.nextChunk = c.status.nextChunk ∧
    c.hashed = ((db.chunksOf c.id).take c.index).flatMap (·.content)

structure SafeMedia (host : Host) (w : MediaWorld) : Prop where
  sound : SoundMedia host w.issued w.db
  flights : ∀ c ∈ w.completing, c.id ∈ w.issued ∧ InFlight w.db c

variable {c c' : Completing} {w w' : MediaWorld} {l : MediaLabel} {before after : List Completing}

theorem InFlight.change (hc : InFlight db c) (h : Change host new db db')
    (hs : SoundMedia host issued db) (hnew : new ≠ some c.id) : InFlight db' c := by
  intro u' hu' hid
  rcases h.origin hs hu' with hcreated | ⟨u, hu, hcontinues⟩
  · exact absurd (hid ▸ hcreated) hnew
  · have huid : u.id = c.id := hcontinues.id.symm.trans hid
    obtain ⟨hstate, hnext, hhashed⟩ := hc u hu huid
    obtain ⟨hstate', hnext', hchunks⟩ := hcontinues.closed hstate
    rw [huid] at hchunks
    exact ⟨hstate', hnext'.trans hnext, hchunks ▸ hhashed⟩

theorem exec_change (store : MediaStore) (call : MediaCall) (hs : SoundMedia host issued db) :
    Change host call.newUpload db (call.exec store host db) := by
  cases call with
  | create actor channel input id now read =>
    exact commit_snd (.same rfl) fun _ _ h => create_change h
  | putChunk actor id index bytes claimedHash now read =>
    exact commit_snd (.same rfl) fun _ _ h => putChunk_change hs.unique h
  | sealUpload actor id now read =>
    exact commit_snd (.same rfl) fun _ _ h => (sealUpload_change hs.unique h).1
  | abort actor id now => exact commit_snd (.same rfl) fun _ _ h => abort_change hs.unique h
  | cleanupExpired now =>
    exact commit_snd (.same rfl) fun _ _ h => cleanupExpired_change h

theorem complete_change {read : Int} {p : MediaStore.Progress}
    (hs : SoundMedia host issued db) (h : store.complete actor id now read db = (p, db')) :
    Change host none db db' ∧ match p with
      | .reading c => c.id = id ∧ c.index = 0 ∧ c.hashed = [] ∧
        ∃ u ∈ db'.uploads, u.id = id ∧ u.state ≠ .receiving ∧ u.nextChunk = c.status.nextChunk
      | .done (.ok m) => ∃ u ∈ db'.uploads, u.id = id ∧ u.mediaId = some m
      | .done (.error _) => True := by
  unfold MediaStore.complete at h
  rcases commit_cases (store.sealUpload actor id now read) db with
    ⟨status, db₁, hrun, hcommit⟩ | ⟨e, -, hcommit⟩
  · rw [hcommit] at h
    obtain ⟨hchange, u, hu, hid, hstate, rfl⟩ :
        Change host none db db₁ ∧ ∃ u ∈ db₁.uploads, u.id = id ∧ u.state ≠ .receiving ∧
          status = u.status := sealUpload_change hs.unique hrun
    cases hmedia : u.mediaId with
    | some m =>
      have hstatus : u.status.mediaId = some m := hmedia
      simp only [hstatus] at h
      cases h
      exact ⟨hchange, u, hu, hid, hmedia⟩
    | none =>
      have hstatus : u.status.mediaId = none := hmedia
      simp only [hstatus] at h
      cases h
      exact ⟨hchange, rfl, rfl, rfl, u, hu, hid, hstate, rfl⟩
  · rw [hcommit] at h
    cases h
    exact ⟨.same rfl, trivial⟩

theorem readSealedChunk_some {index : Nat}
    (h : MediaStore.readSealedChunk actor id index now db = some bytes) :
    db.chunk? id index = some bytes := by
  simp only [MediaStore.readSealedChunk, Option.ite_none_right_eq_some] at h
  exact h.2

theorem read_reading (h : c.read now db = .reading c') :
    ∃ bytes, db.chunk? c.id c.index = some bytes ∧ c'.id = c.id ∧ c'.status = c.status ∧
      c'.index = c.index + 1 ∧ c'.hashed = c.hashed ++ bytes := by
  unfold MediaStore.Completing.read at h
  split at h
  · cases h
  · next bytes hbytes =>
    split at h
    · cases h
    · cases h
      exact ⟨bytes, readSealedChunk_some hbytes, rfl, rfl, rfl, rfl⟩

theorem InFlight.read (hc : InFlight db c) (hs : SoundMedia host issued db)
    (h : c.read now db = .reading c') : InFlight db c' := by
  obtain ⟨bytes, hbytes, hid', hstatus, hindex, hhashed'⟩ := read_reading h
  intro u hu hid
  rw [hid'] at hid
  obtain ⟨hstate, hnext, hhashed⟩ := hc u hu hid
  refine ⟨hstate, hstatus ▸ hnext, ?_⟩
  rw [← hid, (hs.intact u hu).chunk?_eq, Option.map_eq_some_iff] at hbytes
  obtain ⟨row, hrow, rfl⟩ := hbytes
  rw [hhashed', hid', hindex, take_add_one, flatMap_append, ← hhashed, ← hid, hrow]
  simp

theorem InFlight.content (hc : InFlight db c) (hs : SoundMedia host issued db)
    (hread : c.index = c.status.nextChunk) (hu : u ∈ db.uploads) (hid : u.id = c.id) :
    c.hashed = db.content c.id := by
  obtain ⟨-, hnext, hhashed⟩ := hc u hu hid
  have hlength : (db.chunksOf c.id).length = c.index := by
    rw [← hid, (hs.intact u hu).length_chunksOf, hnext, hread]
  rw [hhashed, ← hlength, take_length, MediaDb.content]

/-- Every step is a change of the tables, with the ids that are issued. -/
theorem step_change (h : SafeMedia host w) (hstep : MediaStep store host w l w') :
    ∃ new, Change host new w.db w'.db ∧ (∀ id, new = some id → id ∉ w.issued) ∧
      w'.issued = new.toList ++ w.issued := by
  have hnone : ∀ id : Uuid, none = some id → id ∉ w.issued := fun _ h => by cases h
  cases hstep with
  | call hnew => exact ⟨_, exec_change store _ h.sound, hnew, rfl⟩
  | started hcomplete | answered hcomplete | refused hcomplete =>
    exact ⟨none, (complete_change h.sound hcomplete).1, hnone, rfl⟩
  | read _ hread => exact ⟨none, .same rfl, hnone, rfl⟩
  | published hread hpublish =>
    have hflight := (h.flights _ mem_append_cons_self).2
    obtain ⟨hchange, -⟩ := publish_change h.sound.unique
      (fun u hu hid => hflight.content h.sound hread hu hid) (commit_eq_ok.1 hpublish)
    exact ⟨none, hchange, hnone, rfl⟩
  | ended | memberships => exact ⟨none, .same rfl, hnone, rfl⟩

theorem step_safe_media (h : SafeMedia host w) (hstep : MediaStep store host w l w') :
    SafeMedia host w' := by
  obtain ⟨new, hchange, hnew, hissued⟩ := step_change h hstep
  have hsound : SoundMedia host w'.issued w'.db := hissued ▸ hchange.sound h.sound hnew
  have hold : ∀ c ∈ w.completing, c.id ∈ w'.issued ∧ InFlight w'.db c := by
    intro c hc
    obtain ⟨hid, hflight⟩ := h.flights c hc
    refine ⟨?_, hflight.change hchange h.sound fun heq => hnew c.id heq hid⟩
    rw [hissued]
    exact mem_append_right _ hid
  refine ⟨hsound, fun x hx => ?_⟩
  cases hstep with
  | started hcomplete =>
    rcases mem_cons.1 hx with rfl | hx
    · obtain ⟨-, hid, hindex, hhashed, u, hu, huid, hstate, hnext⟩ :=
        complete_change h.sound hcomplete
      refine ⟨hid ▸ huid ▸ hsound.issued u hu, fun y hy hyid => ?_⟩
      have hyu : y = u := eq_of_key_eq hsound.unique hy hu ((hyid.trans hid).trans huid.symm)
      rw [hyu, hhashed, hindex]
      exact ⟨hstate, hnext, rfl⟩
    · exact hold x hx
  | read _ hread =>
    rcases mem_append.1 hx with hx | hx
    · exact hold x (mem_append_left _ hx)
    · rcases mem_cons.1 hx with rfl | hx
      · obtain ⟨hid, hflight⟩ := h.flights _ mem_append_cons_self
        obtain ⟨_, -, hsame, -⟩ := read_reading hread
        exact ⟨hsame ▸ hid, hflight.read h.sound hread⟩
      · exact hold x (mem_append_right _ (mem_cons_of_mem _ hx))
  | published | ended => exact hold x (mem_middle_of_mem hx)
  | _ => exact hold x hx

theorem step_returned {stored : Bool} (h : SafeMedia host w)
    (hstep : MediaStep store host w (.returned id m stored) w') :
    (∃ u ∈ w'.db.uploads, u.id = id ∧ u.mediaId = some m) ∧
      (stored = true → ∀ u ∈ w.db.uploads, u.id = id → u.mediaId = none) := by
  cases hstep with
  | answered hcomplete => exact ⟨(complete_change h.sound hcomplete).2, nofun⟩
  | published hread hpublish =>
    have hflight := (h.flights _ mem_append_cons_self).2
    exact (publish_change h.sound.unique (fun u hu hid => hflight.content h.sound hread hu hid)
      (commit_eq_ok.1 hpublish)).2

def MediaLabel.stores : MediaLabel → Option Uuid
  | .returned id _ true => some id
  | _ => none

theorem stores_eq_some (h : l.stores = some id) : ∃ m, l = .returned id m true := by
  unfold MediaLabel.stores at h
  split at h
  · cases h
    exact ⟨_, rfl⟩
  · cases h

theorem run_returned (hinit : SafeMedia host w) (hrun : Run (MediaStep store host) w trace w') :
    SafeMedia host w' ∧
      (∀ id m b, .returned id m b ∈ trace → ∃ u ∈ w'.db.uploads, u.id = id ∧ u.mediaId = some m) ∧
      (trace.filterMap MediaLabel.stores).Nodup := by
  induction hrun with
  | refl => exact ⟨hinit, fun _ _ _ h => absurd h not_mem_nil, nodup_nil⟩
  | @step trace w₁ w₂ l _ hstep ih =>
    obtain ⟨hsafe, hreturned, hnodup⟩ := ih
    obtain ⟨new, hchange, -⟩ := step_change hsafe hstep
    have hkept : ∀ id m b, .returned id m b ∈ trace →
        ∃ u ∈ w₂.db.uploads, u.id = id ∧ u.mediaId = some m := by
      intro id m b hmem
      obtain ⟨u, hu, hid, hm⟩ := hreturned id m b hmem
      exact ⟨u, hchange.keeps_complete hsafe.sound hu hm, hid, hm⟩
    refine ⟨step_safe_media hsafe hstep, ?_, ?_⟩
    · intro id m b hmem
      rcases mem_append.1 hmem with hmem | hmem
      · exact hkept id m b hmem
      · rw [mem_singleton] at hmem
        subst hmem
        exact (step_returned hsafe hstep).1
    · rw [filterMap_append]
      cases hl : l.stores with
      | none => simpa [hl] using hnodup
      | some id =>
        have hfresh : id ∉ trace.filterMap MediaLabel.stores := by
          intro hmem
          obtain ⟨l', hl', hstores⟩ := mem_filterMap.1 hmem
          obtain ⟨m', rfl⟩ := stores_eq_some hstores
          obtain ⟨m, rfl⟩ := stores_eq_some hl
          obtain ⟨u, hu, hid, hm⟩ := hreturned id m' true hl'
          have hnone := (step_returned hsafe hstep).2 rfl u hu hid
          rw [hm] at hnone
          cases hnone
        simp only [filterMap_cons, hl, filterMap_nil]
        exact nodup_append_comm.1 (nodup_cons.2 ⟨hfresh, hnodup⟩)

def KeepsChunks (w w' : MediaWorld) : Prop :=
  (∀ id ∈ w.issued, id ∈ w'.issued) ∧ ∀ u' ∈ w'.db.uploads, u'.id ∈ w.issued →
    ∃ u ∈ w.db.uploads, u.id = u'.id ∧ w.db.chunksOf u.id <+: w'.db.chunksOf u.id

theorem run_keeps_chunks (hinit : SafeMedia host w)
    (hrun : Run (MediaStep store host) w trace w') : SafeMedia host w' ∧ KeepsChunks w w' := by
  induction hrun with
  | refl => exact ⟨hinit, fun _ h => h, fun u hu _ => ⟨u, hu, rfl, prefix_rfl⟩⟩
  | @step trace w₁ w₂ l _ hstep ih =>
    obtain ⟨hsafe, hissued, hkept⟩ := ih
    obtain ⟨new, hchange, hnew, hissued'⟩ := step_change hsafe hstep
    have hmono : ∀ id ∈ w₁.issued, id ∈ w₂.issued := fun id hid =>
      hissued' ▸ mem_append_right _ hid
    refine ⟨step_safe_media hsafe hstep, fun id hid => hmono id (hissued id hid), ?_⟩
    intro u₂ hu₂ hid
    rcases hchange.origin hsafe.sound hu₂ with hcreated | ⟨u₁, hu₁, hcontinues⟩
    · exact absurd (hissued _ hid) (hnew _ hcreated)
    · rw [hcontinues.id] at hid ⊢
      obtain ⟨u, hu, huid, hchunks⟩ := hkept u₁ hu₁ hid
      refine ⟨u, hu, huid, hchunks.trans ?_⟩
      rw [huid]
      exact hcontinues.chunks

theorem SafeMedia.init (members : List (ChannelId × UserId)) (budget : Option UploadLimits)
    (objects : List ObjectRow) (jobs : List PreviewJobRow) :
    SafeMedia host ⟨⟨members, budget, [], [], objects, jobs⟩, [], []⟩ :=
  ⟨⟨nodup_nil, fun _ h => absurd h not_mem_nil, fun _ h => absurd h not_mem_nil,
    fun _ h => absurd h not_mem_nil⟩, fun _ h => absurd h not_mem_nil⟩

/-- However calls interleave: uploads store exactly the chunks they have counted, chunks stay
as they are while their upload exists, a complete upload's media object has the length and
the SHA-256 of its chunks, and no upload gets a second object or answers with another one. -/
theorem uploads_are_intact {members : List (ChannelId × UserId)} {budget : Option UploadLimits}
    {objects : List ObjectRow} {jobs : List PreviewJobRow} {trace : List MediaLabel}
    (hrun : Run (MediaStep store host) ⟨⟨members, budget, [], [], objects, jobs⟩, [], []⟩ trace w) :
    (∀ u ∈ w.db.uploads, Intact host w.db u) ∧
      (∀ trace' w', Run (MediaStep store host) w trace' w' →
        ∀ c ∈ w.db.chunks, ∀ u ∈ w'.db.uploads, u.id = c.uploadId → c ∈ w'.db.chunks) ∧
      (trace.filterMap MediaLabel.stores).Nodup ∧
      ∀ id m m' b b', .returned id m b ∈ trace → .returned id m' b' ∈ trace → m = m' := by
  obtain ⟨hsafe, hreturned, hnodup⟩ :=
    run_returned (SafeMedia.init members budget objects jobs) hrun
  refine ⟨hsafe.sound.intact, ?_, hnodup, ?_⟩
  · intro trace' w' hrun' c hc u' hu' hid
    obtain ⟨x, hx, hxid⟩ := hsafe.sound.owned c hc
    have hissued : u'.id ∈ w.issued := by
      rw [hid, ← hxid]
      exact hsafe.sound.issued x hx
    obtain ⟨u, -, huid, hchunks⟩ := (run_keeps_chunks hsafe hrun').2.2 u' hu' hissued
    have hmem : c ∈ w.db.chunksOf u.id :=
      mem_filter.2 ⟨hc, decide_eq_true ((huid.trans hid).symm)⟩
    exact (mem_filter.1 (hchunks.subset hmem)).1
  · intro id m m' b b' hm hm'
    obtain ⟨u, hu, hid, hmedia⟩ := hreturned id m b hm
    obtain ⟨u', hu', hid', hmedia'⟩ := hreturned id m' b' hm'
    rw [Table.eq_of_key_eq hsafe.sound.unique hu' hu (hid'.trans hid.symm), hmedia] at hmedia'
    exact Option.some.inj hmedia'

end

/-! ### A text of three bytes -/

namespace Sample

def store : MediaStore :=
  ⟨⟨1048576, 1048576, 1048576, by decide, by decide, by decide, by decide, by decide⟩, none⟩

def media : MediaDb := ⟨[(room, alice)], none, [], [], [], []⟩

def note : NewUpload := ⟨11, "hei.txt", "text/plain", 3⟩

def noteBytes : Bytes := [72, 101, 105]

def createNote : MediaCall := .create alice room note 12 0 0

def putNote : MediaCall := .putChunk alice 12 0 noteBytes (host.sha256Text noteBytes) 1 1

def receivedNote : MediaDb := putNote.exec store host (createNote.exec store host media)

def noteStatus : UploadStatus :=
  ⟨12, room, "hei.txt", "text/plain", 3, 3, 1, .sealed, uploadTtl, none⟩

def sealedNote : MediaDb := (store.complete alice 12 2 2 receivedNote).2

def reading : MediaStore.Completing := ⟨alice, 12, noteStatus, 0, [], none, none, 0⟩

def allRead : MediaStore.Completing :=
  ⟨alice, 12, noteStatus, 1, noteBytes, some "text/plain", some ⟨.text, [], [], 3⟩, 3⟩

def publishedNote : MediaDb := ((store.publish host allRead ⟨13⟩ 3).commit sealedNote).2

end Sample

open Sample in
theorem Sample.note_run : Run (MediaStep store host) ⟨media, [], []⟩
    [.call createNote, .call putNote, .completing 12, .completing 12, .returned 12 ⟨13⟩ true]
    ⟨publishedNote, [], [12]⟩ := by
  have hput : Run (MediaStep store host) ⟨media, [], []⟩ [.call createNote, .call putNote]
      ⟨receivedNote, [], [12]⟩ := by
    refine .cons (.call ?_) (.single (.call fun _ h => by cases h))
    rintro id ⟨rfl⟩
    exact not_mem_nil
  have hread : Run (MediaStep store host) ⟨receivedNote, [], [12]⟩ [.completing 12, .completing 12]
      ⟨sealedNote, [allRead], [12]⟩ :=
    .cons (t := ⟨sealedNote, [reading], [12]⟩)
      (@MediaStep.started _ _ _ alice 12 2 2 reading sealedNote rfl)
      (.single (@MediaStep.read _ _ _ [] [] reading allRead _ 2 (by decide) rfl))
  have hpublish : Run (MediaStep store host) ⟨sealedNote, [allRead], [12]⟩ [.returned 12 ⟨13⟩ true]
      ⟨publishedNote, [], [12]⟩ :=
    .single (@MediaStep.published _ _ _ _ [] [] allRead _ ⟨13⟩ _ 3 _ rfl rfl)
  exact hput.append (hread.append hpublish)

open Sample in
theorem uploads_are_intact_for_note :
    publishedNote.content 12 = noteBytes ∧
      ∃ o, publishedNote.object? ⟨13⟩ = some o ∧ o.sizeBytes = 3 ∧
        ∀ u ∈ publishedNote.uploads, Intact host publishedNote u := by
  obtain ⟨hintact, -⟩ := uploads_are_intact note_run
  exact ⟨rfl, MediaStore.object host allRead noteStatus "text/plain" ⟨13⟩, rfl, rfl, hintact⟩

end Sproyt
