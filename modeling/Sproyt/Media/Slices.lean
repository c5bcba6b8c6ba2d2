import Sproyt.Media.Integrity

/-!
# Reading a slice of a media object

The bytes of an object are in one blob, or in the chunks of the upload it was published from. A
slice of either is what the whole content has there.
-/

namespace Sproyt

open List

def mediaReadBlockBytes : Nat := 1024 * 1024

/-- SQLite's `substr` of a blob, whose first byte has the number 1. The start is cut to a signed
32-bit number: a negative one counts from the end, and zero stands for the place before the first
byte. -/
def substr (content : Bytes) (start count : Nat) : Bytes :=
  let p : Int := (start : Int).bmod (2 ^ 32)
  if 0 < p then (content.drop (p.toNat - 1)).take count
  else if p = 0 then content.take (count - 1)
  else if 0 ≤ p + content.length then (content.drop (p + content.length).toNat).take count
  else content.take (count + (p + content.length)).toNat

/-- What a read fails with; an overflow would be a panic. -/
inductive SliceError
  | repository (e : RepositoryError)
  | overflow
deriving DecidableEq

/-- The media tables with `media_blobs`, whose key is the object's id. -/
structure SliceDb extends MediaDb where
  blobs : MediaId → Option Bytes

namespace SliceDb

variable (db : SliceDb) (actor : UserId) (m : MediaId)

def legacy? : Option Bytes :=
  if db.objects.any fun o => o.id = m ∧ db.isMember o.channelId actor then db.blobs m else none

/-- `media_metadata`. -/
def metadata? : Option ObjectRow :=
  db.objects.find? fun o => o.id = m ∧ db.isMember o.channelId actor

def objectChunk? (index : Nat) : Option Bytes :=
  (db.chunks.find? fun c => c.chunkIndex = index ∧ db.uploads.any fun u =>
    u.id = c.uploadId ∧ u.mediaId = some m ∧ u.state = .complete ∧
      db.isMember u.channelId actor).map (·.content)

/-- The loop of `read_media_slice`. -/
def readChunks (length position : Nat) (result : Bytes) : Except SliceError Bytes :=
  if _hmore : result.length < length then
    let localOffset := position % chunkBytes
    let count := min (length - result.length) (chunkBytes - localOffset)
    -- `index as i32`: chunks are stored under the same cast of a `u32`
    match db.objectChunk? actor m (position / chunkBytes % 2 ^ 32) with
    | none => .error (.repository .notFound)
    | some content =>
      let bytes := substr content (localOffset + 1) count
      if hcount : bytes.length = count then
        if position + bytes.length < 2 ^ 64 then
          readChunks length (position + bytes.length) (result ++ bytes)
        else .error .overflow
      else .error (.repository (.storage "incomplete stored media chunk"))
  else .ok result
termination_by length - result.length
decreasing_by
  have hlocal : localOffset < chunkBytes := Nat.mod_lt _ (by decide)
  have hpos : 0 < count := Nat.lt_min.2 ⟨by omega, by omega⟩
  have hlt : result.length < result.length + bytes.length := by omega
  rw [length_append]
  exact Nat.sub_lt_sub_left _hmore hlt

def readMediaSlice (offset length : Nat) : Except SliceError Bytes :=
  if length = 0 ∨ mediaReadBlockBytes < length then .error (.repository .conflict)
  -- `checked_add` and `i64::try_from`
  else if 2 ^ 63 ≤ offset + 1 then .error (.repository .conflict)
  else
    match db.legacy? actor m with
    | some content => .ok (substr content (offset + 1) length)
    | none =>
      match db.metadata? actor m with
      | none => .error (.repository .notFound)
      | some o => db.readChunks actor m (min (o.sizeBytes - offset) length) offset []

end SliceDb

def sliceOf (content : Bytes) (offset length : Nat) : Bytes := (content.drop offset).take length

/-- How the content of an object is stored. An object has one upload at most (`media_id` is
unique), whose size the table bounds. -/
inductive StoredAs (host : Host) (db : SliceDb) (o : ObjectRow) (content : Bytes) : Prop
  | legacy (hblob : db.blobs o.id = some content)
  | chunked (u : UploadRow) (hblob : db.blobs o.id = none) (hu : u ∈ db.uploads)
      (hmedia : u.mediaId = some o.id) (hchannel : u.channelId = o.channelId)
      (hunique : ∀ u' ∈ db.uploads, u'.mediaId = some o.id → u' = u)
      (hintact : Intact host db.toMediaDb u) (hsize : u.expectedBytes ≤ 1073741824)
      (hcontent : db.content u.id = content)

section

variable {host : Host} {db : SliceDb} {actor : UserId} {o : ObjectRow} {u : UploadRow}
  {content : Bytes}

theorem objectChunk?_eq (hu : u ∈ db.uploads) (hmedia : u.mediaId = some o.id)
    (hunique : ∀ u' ∈ db.uploads, u'.mediaId = some o.id → u' = u)
    (hintact : Intact host db.toMediaDb u) (hmember : db.isMember u.channelId actor = true)
    {i : Nat} (hi : i < u.nextChunk) :
    db.objectChunk? actor o.id i =
      some (((db.content u.id).drop (i * chunkBytes)).take chunkBytes) := by
  have hstate := hintact.complete_of_media hmedia
  -- the row is that of the upload, by its index
  have hrow : db.objectChunk? actor o.id i = db.chunk? u.id i := by
    unfold SliceDb.objectChunk? MediaDb.chunk?
    congr 2
    funext c
    rw [decide_eq_decide, and_comm]
    refine and_congr_left fun _ => ?_
    rw [any_eq_true]
    constructor
    · rintro ⟨u', hu', h⟩
      simp only [Bool.decide_and, Bool.and_eq_true, decide_eq_true_eq] at h
      rw [← h.1, hunique u' hu' h.2.1]
    · intro hid
      exact ⟨u, hu, by simp [hid, hmedia, hstate, hmember]⟩
  have hpiece : ∀ j p, ((db.chunksOf u.id).map (·.content))[j]? = some p →
      p.length = Chunks.pieceLength chunkBytes u.expectedBytes j := by
    intro j p hp
    obtain ⟨c, hc, rfl⟩ := Option.map_eq_some_iff.1 (getElem?_map ▸ hp)
    have hindex : c.chunkIndex = j := by
      have h := congrArg (·[j]?) hintact.indexes
      simp only [getElem?_map, hc, Option.map_some] at h
      exact Option.some.inj (h.trans (getElem?_range
        (hintact.length_chunksOf ▸ (List.getElem?_eq_some_iff.1 hc).1)))
    rw [hintact.lengths c (mem_of_getElem? hc), hindex, Chunks.pieceLength]
  have hlt : i < (db.chunksOf u.id).length := hintact.length_chunksOf.symm ▸ hi
  rw [hrow, hintact.chunk?_eq, getElem?_eq_getElem hlt, Option.map_some]
  refine congrArg some ?_
  rw [MediaDb.content, flatMap_def]
  exact Chunks.piece_eq hpiece (by simp [getElem?_eq_getElem hlt])

theorem substr_eq {offset count : Nat} (hlt : offset + 1 < 2 ^ 31) :
    substr content (offset + 1) count = sliceOf content offset count := by
  have hstart : ((offset + 1 : Nat) : Int).bmod (2 ^ 32) = ((offset + 1 : Nat) : Int) := by
    apply Int.bmod_eq_of_le <;> push_cast <;> omega
  unfold substr
  rw [hstart, if_pos (by omega), Int.toNat_natCast, Nat.add_sub_cancel, sliceOf]

theorem substr_piece {position count : Nat} (hcount : count ≤ chunkBytes - position % chunkBytes) :
    substr ((content.drop (position / chunkBytes * chunkBytes)).take chunkBytes)
      (position % chunkBytes + 1) count = sliceOf content position count := by
  have hposition : position / chunkBytes * chunkBytes + position % chunkBytes = position :=
    Nat.div_add_mod' position chunkBytes
  have hlocal : position % chunkBytes < chunkBytes := Nat.mod_lt _ (by decide)
  have hchunk : chunkBytes < 2 ^ 31 - 1 := by decide
  rw [substr_eq (by omega), sliceOf, drop_take, drop_drop, take_take, hposition,
    Nat.min_eq_left hcount, sliceOf]

theorem sliceOf_append (offset a b : Nat) :
    sliceOf content offset a ++
      sliceOf content (offset + a) b = sliceOf content offset (a + b) := by
  rw [sliceOf, sliceOf, sliceOf, ← drop_drop, ← take_add]

theorem readChunks_eq {m : MediaId} {offset length : Nat}
    (hpiece : ∀ i, i * chunkBytes < content.length → db.objectChunk? actor m i =
      some ((content.drop (i * chunkBytes)).take chunkBytes))
    (hsize : content.length ≤ 1073741824) (hend : offset + length ≤ content.length) {k : Nat}
    (hk : k ≤ length) :
    db.readChunks actor m length (offset + k) (sliceOf content offset k) =
      .ok (sliceOf content offset length) := by
  have hread : (sliceOf content offset k).length = k := by
    rw [sliceOf, length_take, length_drop]
    omega
  -- by the bytes that are still to be read: every round reads one at least
  induction hrest : length - k using Nat.strong_induction_on generalizing k with
  | _ rest ih =>
    rw [SliceDb.readChunks, hread]
    by_cases hmore : k < length
    · have hdiv : (offset + k) / chunkBytes * chunkBytes ≤ offset + k := Nat.div_mul_le_self _ _
      have hlocal : (offset + k) % chunkBytes < chunkBytes := Nat.mod_lt _ (by decide)
      have hindex : (offset + k) / chunkBytes % 2 ^ 32 = (offset + k) / chunkBytes :=
        Nat.mod_eq_of_lt (lt_of_le_of_lt (Nat.div_le_self _ _) (by omega))
      rw [dif_pos hmore, hindex, hpiece _ (by omega)]
      simp only
      generalize hcount : min (length - k) (chunkBytes - (offset + k) % chunkBytes) = count
      rw [substr_piece (by omega)]
      have hbytes : (sliceOf content (offset + k) count).length = count := by
        rw [sliceOf, length_take, length_drop]
        omega
      rw [dif_pos hbytes, if_pos (by omega), hbytes, sliceOf_append, Nat.add_assoc]
      refine ih (length - (k + count)) (by omega) (by omega) ?_ rfl
      rw [← sliceOf_append, length_append, hread, hbytes]
    · rw [dif_neg hmore, show k = length by omega]

theorem sliceOf_min {offset length : Nat} :
    sliceOf content offset (min (content.length - offset) length) =
      sliceOf content offset length := by
  rw [sliceOf, sliceOf, ← length_drop, Nat.min_comm, ← take_eq_take_min]

theorem metadata?_eq (hobject : db.object? o.id = some o)
    (hmember : db.isMember o.channelId actor = true) : db.metadata? actor o.id = some o := by
  obtain ⟨-, before, after, hsplit, hbefore⟩ := find?_eq_some_iff_append.1 hobject
  refine find?_eq_some_iff_append.2 ⟨by simp [hmember], before, after, hsplit, ?_⟩
  intro x hx
  have hne := hbefore x hx
  simp_all

/-- The loop over the chunks reads the slice of the content they make up. -/
theorem readChunks_slice {offset length : Nat}
    (hpiece : ∀ i, i * chunkBytes < content.length → db.objectChunk? actor o.id i =
      some ((content.drop (i * chunkBytes)).take chunkBytes))
    (hsize : content.length ≤ 1073741824) :
    db.readChunks actor o.id (min (content.length - offset) length) offset [] =
      .ok (sliceOf content offset length) := by
  by_cases hpast : content.length ≤ offset
  · rw [SliceDb.readChunks, dif_neg (by simp; omega), sliceOf, drop_of_length_le hpast, take_nil]
  · rw [← sliceOf_min]
    exact readChunks_eq hpiece hsize (by omega) (Nat.zero_le _)

/-- Both representations give the same bytes: those of the slice. Empty reads, reads of more than
a block and offsets beyond the signed range are refused. A blob is read right only where the start
has 32 bits. -/
theorem read_media_slice_exact (hobject : db.object? o.id = some o)
    (hmember : db.isMember o.channelId actor = true) (hstored : StoredAs host db o content)
    (offset length : Nat) (hstart : db.blobs o.id ≠ none → offset + 1 < 2 ^ 31) :
    db.readMediaSlice actor o.id offset length =
      if length = 0 ∨ 1048576 < length ∨ 2 ^ 63 ≤ offset + 1 then .error (.repository .conflict)
      else .ok (sliceOf content offset length) := by
  unfold SliceDb.readMediaSlice
  by_cases hlength : length = 0 ∨ mediaReadBlockBytes < length
  · rw [if_pos hlength, if_pos (hlength.imp_right .inl)]
  rw [if_neg hlength]
  by_cases hoffset : 2 ^ 63 ≤ offset + 1
  · rw [if_pos hoffset, if_pos (.inr (.inr hoffset))]
  rw [if_neg hoffset, if_neg fun h => ?_]
  swap
  · exact hlength (h.imp_right fun h => h.resolve_right hoffset)
  have ho : o ∈ db.objects := mem_of_find?_eq_some hobject
  cases hstored with
  | legacy hblob =>
    have hlegacy : db.legacy? actor o.id = some content := by
      rw [SliceDb.legacy?, if_pos, hblob]
      exact any_eq_true.2 ⟨o, ho, by simp [hmember]⟩
    have hsmall := hstart (by rw [hblob]; nofun)
    simp only [hlegacy, substr_eq hsmall]
  | chunked u hblob hu hmedia hchannel hunique hintact hsize hcontent =>
    have hlegacy : db.legacy? actor o.id = none := by
      rw [SliceDb.legacy?, hblob, ite_self]
    obtain ⟨m, o', hm, ho', hbytes, -⟩ := hintact.published (hintact.complete_of_media hmedia)
    obtain rfl : o.id = m := Option.some.inj (hmedia.symm.trans hm)
    obtain rfl : o = o' := Option.some.inj (hobject.symm.trans ho')
    rw [hcontent] at hbytes
    -- the chunks cover the content, so each of its bytes lies in one of them
    have hlength : content.length = min (u.nextChunk * chunkBytes) u.expectedBytes := by
      rw [← hintact.receivedBytes_eq, hintact.received, ← hcontent, length_content]
    rw [hlegacy, metadata?_eq hobject hmember]
    simp only
    rw [hbytes]
    refine readChunks_slice (fun i hi => ?_) (by omega)
    rw [← hcontent]
    refine objectChunk?_eq hu hmedia hunique hintact (hchannel ▸ hmember) ?_
    exact Nat.lt_of_mul_lt_mul_right (lt_of_lt_of_le hi (by omega))

end

open Sample in
theorem Sample.note_stored : StoredAs host ⟨publishedNote, fun _ => none⟩
    (MediaStore.object host allRead noteStatus "text/plain" ⟨13⟩) noteBytes := by
  have hintact := (run_returned (SafeMedia.init _ _ _ _) note_run).1.sound.intact
  exact .chunked _ rfl (mem_singleton_self _) rfl rfl
    (fun u' hu' _ => mem_singleton.1 hu') (hintact _ (mem_singleton_self _)) (by decide) rfl

open Sample in
/-- A read past the end, from the chunks and from a blob. -/
theorem read_media_slice_exact_for_note :
    SliceDb.readMediaSlice ⟨publishedNote, fun _ => none⟩ alice ⟨13⟩ 1 5 = .ok [101, 105] ∧
      SliceDb.readMediaSlice ⟨publishedNote, fun _ => some noteBytes⟩ alice ⟨13⟩ 1 5 =
        .ok [101, 105] := by
  have hlegacy : StoredAs host ⟨publishedNote, fun _ => some noteBytes⟩
      (MediaStore.object host allRead noteStatus "text/plain" ⟨13⟩) noteBytes := .legacy rfl
  exact ⟨read_media_slice_exact rfl rfl note_stored 1 5 fun h => absurd rfl h,
    read_media_slice_exact rfl rfl hlegacy 1 5 fun _ => by decide⟩

open Sample in
/-- An empty slice of a stored object is refused, and a slice far behind the end of a blob is
taken from its start. -/
theorem slices_not_exact :
    StoredAs host ⟨publishedNote, fun _ => none⟩
        (MediaStore.object host allRead noteStatus "text/plain" ⟨13⟩) noteBytes ∧
      SliceDb.readMediaSlice ⟨publishedNote, fun _ => none⟩ alice ⟨13⟩ 0 0 ≠
        .ok (sliceOf noteBytes 0 0) ∧
      SliceDb.readMediaSlice ⟨publishedNote, fun _ => some noteBytes⟩ alice ⟨13⟩ (2 ^ 32) 2 =
        .ok [72, 101] ∧ sliceOf noteBytes (2 ^ 32) 2 = [] :=
  ⟨note_stored, by decide, by decide, by decide⟩

end Sproyt
