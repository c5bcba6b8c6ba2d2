import Mathlib.Algebra.Order.BigOperators.Group.List
import Sproyt.Media.Integrity

/-!
# The media budget

Objects and unfinished uploads are charged to the total and to their owner. Uploads are
admitted by `create` and other objects by the trigger on `media_objects`; publishing an upload
moves its charge from the one table to the other.
-/

namespace Sproyt

open List Txn MediaDb MediaStore UploadRow

/-- The row of a multipart upload or of a generated picture: the writers of `media_objects`
other than `complete` take the storage key from the media id. -/
def directObject (id : MediaId) (owner : UserId) (channel : ChannelId)
    (filename contentType : String) (size : Nat) (sha256 : String) : ObjectRow :=
  ⟨id, owner, channel, "db:" ++ id.uuid.hyphenated, filename, contentType, size, sha256⟩

/-- Calls of any number of stores with the same limits, and direct inserts. -/
inductive BudgetStep (limits : UploadLimits) (host : Host) :
    MediaWorld → Option MediaLabel → MediaWorld → Prop
  | call {store : MediaStore} {w w' : MediaWorld} {l : MediaLabel} (hlimits : store.limits = limits)
      (h : MediaStep store host w l w') : BudgetStep limits host w (some l) w'
  | direct {w : MediaWorld} (id : MediaId) (owner : UserId) (channel : ChannelId)
      (filename contentType : String) (size : Nat) (sha256 : String) :
      BudgetStep limits host w none
        ⟨((MediaStore.insertObject
          (directObject id owner channel filename contentType size sha256)).commit w.db).2,
          w.completing, w.issued⟩

section

variable {actor : UserId} {id : Uuid} {now read : Int}

variable {host : Host} {store : MediaStore} {limits : UploadLimits} {db db' : MediaDb}
  {u u' : UploadRow} {o : ObjectRow} {q : UserId → Bool} {f : Nat → Nat} {w w' : MediaWorld}
  {issued : List Uuid}

/-! ### Charges -/

/-- What the unfinished uploads of some owners weigh, by their sizes: their charge, their
number, or how many of them are too large. -/
def MediaDb.held (db : MediaDb) (q : UserId → Bool) (f : Nat → Nat) : Nat :=
  ((db.uploads.filter fun u => q u.ownerId && u.state ≠ .complete).map (f ·.expectedBytes)).sum

def UploadRow.weight (u : UploadRow) (q : UserId → Bool) (f : Nat → Nat) : Nat :=
  if q u.ownerId && u.state ≠ .complete then f u.expectedBytes else 0

def MediaDb.used (db : MediaDb) (q : UserId → Bool) : Nat :=
  db.stored (q ·.ownerId) + db.reserved (q ·.ownerId)

theorem sum_map_filter {α : Type} {p : α → Bool} {g : α → Nat} {rows : List α} :
    ((rows.filter p).map g).sum = (rows.map fun r => if p r then g r else 0).sum := by
  induction rows with
  | nil => rfl
  | cons r rows ih =>
    by_cases hr : p r
    · simp [hr, ih]
    · simp [hr, ih]

theorem held_eq : db.held q f = (db.uploads.map (·.weight q f)).sum :=
  sum_map_filter

theorem weight_le_held (hu : u ∈ db.uploads) : u.weight q f ≤ db.held q f := by
  rw [held_eq]
  exact le_sum_of_mem (mem_map.2 ⟨u, hu, rfl⟩)

theorem held_congr (huploads : db'.uploads = db.uploads) : db'.held q f = db.held q f := by
  rw [held, huploads, held]

variable {row : UploadRow}

theorem held_append (huploads : db'.uploads = db.uploads ++ [row]) :
    db'.held q f = db.held q f + row.weight q f := by
  rw [held_eq, huploads, held_eq, map_append, sum_append]
  simp

theorem held_set (hunique : (db.uploads.map (·.id)).Nodup) (hu : u ∈ db.uploads)
    (huploads : db'.uploads = Table.set (·.id) u' db.uploads) (hid : u'.id = u.id) :
    db'.held q f + u.weight q f = db.held q f + u'.weight q f := by
  rw [held_eq, huploads, held_eq]
  exact Table.sum_set hunique hu hid

theorem held_sublist (huploads : db'.uploads.Sublist db.uploads) : db'.held q f ≤ db.held q f := by
  rw [held_eq, held_eq]
  exact (huploads.map _).sum_le_sum fun _ _ => Nat.zero_le _

theorem count_eq_held (db : MediaDb) (q : UserId → Bool) :
    (db.uploads.countP fun u => q u.ownerId && u.state ≠ .complete) = db.held q fun _ => 1 := by
  rw [countP_eq_length_filter, held, map_const', sum_replicate]
  simp

theorem stored_congr {p : ObjectRow → Bool} (hobjects : db'.objects = db.objects) :
    db'.stored p = db.stored p := by
  rw [stored, hobjects, stored]

theorem stored_append (hobjects : db'.objects = db.objects ++ [o]) :
    db'.stored (q ·.ownerId) =
      db.stored (q ·.ownerId) + if q o.ownerId then charge o.sizeBytes else 0 := by
  rw [stored, hobjects, filter_append, map_append, sum_append, stored]
  by_cases ho : q o.ownerId
  · simp [ho]
  · simp [ho]

theorem used_eq :
    db.used q = db.stored (q ·.ownerId) + db.held q charge := rfl

/-! ### What a change does to the charges -/

def NoHigher (db db' : MediaDb) : Prop :=
  ∀ q, db'.used q ≤ db.used q ∧ ∀ f, db'.held q f ≤ db.held q f

theorem NoHigher.of_held (hobjects : db'.objects = db.objects)
    (hheld : ∀ q f, db'.held q f ≤ db.held q f) : NoHigher db db' := by
  intro q
  refine ⟨?_, hheld q⟩
  rw [used_eq, used_eq, stored_congr hobjects]
  exact Nat.add_le_add_left (hheld q _) _

/-- Only `create` reserves anything; publishing moves the charge to the object. -/
theorem Change.noHigher (h : Change host none db db') (hunique : (db.uploads.map (·.id)).Nodup) :
    NoHigher db db' := by
  cases h with
  | same hfiles =>
    obtain ⟨huploads, -, hobjects⟩ := files_eq hfiles
    exact .of_held hobjects fun q f => Nat.le_of_eq (held_congr huploads)
  | added row hnew => cases hnew
  | accepted u bytes hash hu hstate hlength hfiles =>
    obtain ⟨huploads, -, hobjects⟩ := files_eq hfiles
    refine .of_held hobjects fun q f => ?_
    have hset := held_set (q := q) (f := f) hunique hu huploads rfl
    exact Nat.le_of_add_le_add_right (Nat.le_of_eq hset)
  | closed u hu hstate hreceived hfiles =>
    obtain ⟨huploads, -, hobjects⟩ := files_eq hfiles
    refine .of_held hobjects fun q f => ?_
    have hset := held_set (q := q) (f := f) hunique hu huploads rfl
    have hweight : weight { u with state := .sealed } q f = u.weight q f := by
      simp [weight, hstate]
    omega
  | published u o hu hstate hnone howner hsize hsha256 hfiles =>
    obtain ⟨huploads, -, hobjects⟩ := files_eq hfiles
    intro q
    have hset : ∀ f, db'.held q f + u.weight q f = db.held q f := by
      intro f
      rw [held_set hunique hu huploads rfl]
      simp [weight]
    have hweight : u.weight q charge =
        if q o.ownerId then charge o.sizeBytes else 0 := by
      simp [weight, hstate, howner, hsize]
    constructor
    · rw [used_eq, used_eq, stored_append hobjects, ← hweight]
      have := hset charge
      omega
    · intro f
      have := hset f
      omega
  | deleted gone hgone hfiles =>
    obtain ⟨huploads, -, hobjects⟩ := files_eq hfiles
    refine .of_held hobjects fun q f => held_sublist ?_
    rw [huploads]
    exact filter_sublist

/-! ### The invariant -/

/-- Within the budget, with the counts and the sizes that `create` admits. -/
structure Budgeted (limits : UploadLimits) (db : MediaDb) : Prop where
  policy : db.budget = some limits
  total : db.used (fun _ => true) ≤ limits.totalBytes
  owner : ∀ a, db.used (· = a) ≤ limits.ownerBytes
  active : db.held (fun _ => true) (fun _ => 1) ≤ 64
  ownerActive : ∀ a, db.held (· = a) (fun _ => 1) ≤ 8
  size : db.held (fun _ => true) (fun n => if limits.maxFileBytes < n then 1 else 0) = 0

theorem Budgeted.noHigher (hb : Budgeted limits db) (h : NoHigher db db')
    (hpolicy : db'.budget = db.budget) : Budgeted limits db' where
  policy := hpolicy.trans hb.policy
  total := Nat.le_trans (h _).1 hb.total
  owner a := Nat.le_trans (h _).1 (hb.owner a)
  active := Nat.le_trans ((h _).2 _) hb.active
  ownerActive a := Nat.le_trans ((h _).2 _) (hb.ownerActive a)
  size := Nat.le_zero.1 (Nat.le_trans ((h _).2 _) (Nat.le_of_eq hb.size))

theorem Budgeted.size_le (hb : Budgeted limits db) (hu : u ∈ db.uploads)
    (hstate : u.state ≠ .complete) : u.expectedBytes ≤ limits.maxFileBytes := by
  by_contra hlarge
  have hweight := weight_le_held (q := fun _ => true)
    (f := fun n => if limits.maxFileBytes < n then 1 else 0) hu
  rw [hb.size] at hweight
  simp [weight, hstate] at hweight
  omega

theorem of_saturatingAdd_le {a b bound : Nat} (hbound : bound < 2 ^ 63)
    (h : saturatingAdd a b ≤ bound) : a + b ≤ bound := by
  unfold saturatingAdd at h
  omega

/-- What `create` checks: one more unfinished upload, and its charge. -/
theorem admits_eq_true {size : Nat} (hlimits : store.limits = limits) :
    store.admits db actor size = true →
      db.held (fun _ => true) (fun _ => 1) < 64 ∧ db.held (· = actor) (fun _ => 1) < 8 ∧
      db.used (fun _ => true) + charge size ≤ limits.totalBytes ∧
      db.used (· = actor) + charge size ≤ limits.ownerBytes := by
  intro h
  have hsigned : limits.ownerBytes < 2 ^ 63 := Nat.lt_of_le_of_lt limits.total limits.signed
  simp only [admits, Bool.and_eq_true, decide_eq_true_eq, hlimits] at h
  obtain ⟨⟨⟨hactive, howner⟩, hroom⟩, hownerRoom⟩ := h
  have hall : (db.uploads.countP fun u => u.state ≠ .complete) =
      db.held (fun _ => true) fun _ => 1 := by
    rw [← count_eq_held]
    simp
  have hown : (db.uploads.countP fun u => u.ownerId = actor ∧ u.state ≠ .complete) =
      db.held (· = actor) fun _ => 1 := by
    rw [← count_eq_held]
    simp
  exact ⟨hall ▸ hactive, hown ▸ howner, of_saturatingAdd_le limits.signed hroom,
    of_saturatingAdd_le hsigned hownerRoom⟩

theorem Budgeted.reserve (hb : Budgeted limits db)
    (hlimits : store.limits = limits) (hstate : row.state ≠ .complete)
    (hsize : row.expectedBytes ≤ limits.maxFileBytes)
    (hroom : store.admits db row.ownerId row.expectedBytes = true) :
    Budgeted limits { db with uploads := db.uploads ++ [row] } := by
  obtain ⟨hactive, hownerActive, htotal, howner⟩ := admits_eq_true hlimits hroom
  have hheld : ∀ q f, held { db with uploads := db.uploads ++ [row] } q f =
      db.held q f + if q row.ownerId then f row.expectedBytes else 0 := by
    intro q f
    rw [held_append rfl]
    simp [weight, hstate]
  have hused : ∀ q, used { db with uploads := db.uploads ++ [row] } q =
      db.used q + if q row.ownerId then charge row.expectedBytes else 0 := by
    intro q
    show db.stored (q ·.ownerId) + held { db with uploads := db.uploads ++ [row] } q charge = _
    rw [hheld, used_eq, Nat.add_assoc]
  refine ⟨hb.policy, ?_, ?_, ?_, ?_, ?_⟩
  · rw [hused]
    exact htotal
  · intro a
    rw [hused]
    by_cases ha : row.ownerId = a
    · subst ha
      simpa using howner
    · simpa [ha] using hb.owner a
  · rw [hheld]
    exact hactive
  · intro a
    rw [hheld]
    by_cases ha : row.ownerId = a
    · subst ha
      simpa [Nat.succ_le_iff] using hownerActive
    · simpa [ha] using hb.ownerActive a
  · rw [hheld, hb.size]
    simpa using hsize

/-! ### The trigger -/

theorem insertObject_ok {r : Unit} (h : (insertObject o).run db = .ok (r, db')) :
    db.overBudget o = false ∧ db' = { db with objects := db.objects ++ [o] } := by
  simp only [insertObject, answers] at h
  exact ⟨h.1, h.2.2.symm⟩

theorem overBudget_eq_false (hpolicy : db.budget = some limits) :
    db.overBudget o = false ↔ o.sizeBytes ≤ limits.maxFileBytes ∧
      db.used (fun _ => true) + charge o.sizeBytes ≤
        limits.totalBytes + db.ownReservation o ∧
      db.used (· = o.ownerId) + charge o.sizeBytes ≤ limits.ownerBytes + db.ownReservation o := by
  simp only [overBudget, hpolicy, Bool.or_eq_false_iff, decide_eq_false_iff_not, Nat.not_lt,
    and_assoc]
  rfl

theorem ownReservation_eq_zero
    (hkey : ∀ u ∈ db.uploads, o.storageKey ≠ "chunks:v1:" ++ u.id.hyphenated) :
    db.ownReservation o = 0 := by
  rw [ownReservation, filter_eq_nil_iff.2]
  · rfl
  · intro u hu hmatch
    exact hkey u hu (of_decide_eq_true hmatch).1

theorem directKey_ne {a b : String} : "db:" ++ a ≠ "chunks:v1:" ++ b := by
  intro h
  have hchars := congrArg String.toList h
  simp at hchars

theorem Budgeted.insert (hb : Budgeted limits db) (hbudget : db.overBudget o = false)
    (hown : db.ownReservation o = 0) :
    Budgeted limits { db with objects := db.objects ++ [o] } := by
  obtain ⟨-, htotal, howner⟩ := (overBudget_eq_false hb.policy).1 hbudget
  rw [hown] at htotal howner
  have hused : ∀ q, used { db with objects := db.objects ++ [o] } q =
      db.used q + if q o.ownerId then charge o.sizeBytes else 0 := by
    intro q
    show stored { db with objects := db.objects ++ [o] } (q ·.ownerId) + db.held q charge = _
    rw [stored_append rfl, used_eq]
    omega
  refine ⟨hb.policy, ?_, ?_, hb.active, hb.ownerActive, hb.size⟩
  · rw [hused]
    exact htotal
  · intro a
    rw [hused]
    by_cases ha : o.ownerId = a
    · subst ha
      simpa using howner
    · simpa [ha] using hb.owner a

theorem overBudget_sealed (hb : Budgeted limits db) (hu : u ∈ db.uploads)
    (hstate : u.state = .sealed) (hreceived : u.receivedBytes = u.expectedBytes)
    (hmedia : u.mediaId = none) (hkey : o.storageKey = "chunks:v1:" ++ u.id.hyphenated)
    (howner : u.ownerId = o.ownerId) (hchannel : u.channelId = o.channelId)
    (hsize : u.expectedBytes = o.sizeBytes) : db.overBudget o = false := by
  have hown : charge o.sizeBytes ≤ db.ownReservation o := by
    refine le_sum_of_mem (mem_map.2 ⟨u, mem_filter.2 ⟨hu, ?_⟩, ?_⟩)
    · exact decide_eq_true ⟨hkey, howner, hchannel, hsize, hreceived, hstate, hmedia⟩
    · rw [hsize]
  have hfits : u.expectedBytes ≤ limits.maxFileBytes := by
    apply hb.size_le hu
    rw [hstate]
    decide
  have htotal := hb.total
  have hownerTotal := hb.owner o.ownerId
  refine (overBudget_eq_false hb.policy).2 ⟨hsize ▸ hfits, ?_, ?_⟩
  · omega
  · omega

variable {c : MediaStore.Completing}

theorem verdict_ne_quota : c.verdict ≠ .error .quota := by
  unfold MediaStore.Completing.verdict
  split
  · simp
  · split
    · simp
    · split <;> simp
    · simp

theorem readUpload_never_quota : Never .quota (store.readUpload actor id now) :=
  .bind .read fun _ => .bind (.demand (by decide)) fun _ =>
    .bind (.ensure (by decide)) fun _ => .bind (.ensure (by decide)) fun _ => .pure

theorem insertObject_ne_quota (hbudget : db.overBudget o = false) :
    (insertObject o).run db ≠ .error .quota := by
  intro h
  simp only [insertObject, bind_error, read_error, read_ok,
    ensure_error, ensure_ok, write_error, false_or] at h
  obtain ⟨_, _, ⟨rfl, rfl⟩, ⟨hexceeded, -⟩ | h⟩ := h
  · exact hexceeded hbudget
  · simp at h

theorem enqueuePreview_never_quota : Never .quota (enqueuePreview o now) :=
  .ite .write .pure

/-- Publishing an upload that was admitted is never refused by the budget. -/
theorem publish_ne_quota {mediaId : MediaId}
    (hs : SoundMedia host issued db) (hb : Budgeted store.limits db) :
    (store.publish host c mediaId now).run db ≠ .error .quota := by
  intro h
  simp only [publish, bind_error, ofExcept_error, ofExcept_ok] at h
  rcases h with hverdict | ⟨contentType, db₁, ⟨-, hsame⟩, h⟩
  · exact verdict_ne_quota hverdict
  subst db₁
  rcases h with hread | ⟨status, db₁, hread, h⟩
  · exact readUpload_never_quota _ hread
  obtain ⟨hsame, u, hu, hid, rfl, howner⟩ := readUpload_ok hread
  subst db₁
  cases hmedia : u.status.mediaId with
  | some m => simp [hmedia] at h
  | none =>
    simp only [hmedia, publishObject, bind_error, ensure_error,
      ensure_ok, write_error, write_ok, pure_error, false_or] at h
    rcases h with (⟨-, hconflict⟩ | ⟨_, db₁, ⟨hstate, hsame⟩, h⟩) | ⟨_, _, -, h⟩
    · cases hconflict
    · subst db₁
      have hreceived : u.receivedBytes = u.expectedBytes := by
        apply (hs.intact u hu).full
        rw [show u.state = .sealed from hstate]
        decide
      have hbudget : db.overBudget (object host c u.status contentType mediaId) = false :=
        overBudget_sealed hb hu hstate hreceived hmedia (by rw [hid]; rfl) howner rfl rfl
      rcases h with h | ⟨_, _, -, _, _, -, h⟩
      · exact insertObject_ne_quota hbudget h
      · exact enqueuePreview_never_quota _ h
    · exact h

theorem seal_never_quota : Never .quota (store.sealUpload actor id now read) :=
  .bind readUpload_never_quota fun _ => .bind (.ensure (by decide)) fun _ =>
    .bind (.ite .write .pure) fun _ => readUpload_never_quota

theorem complete_spec : (store.complete actor id now read db).2 =
      ((store.sealUpload actor id now read).commit db).2 ∧
    ∀ e, (store.complete actor id now read db).1 = .done (.error e) →
      (store.sealUpload actor id now read).run db = .error e := by
  unfold complete
  rcases commit_cases (store.sealUpload actor id now read) db with
    ⟨status, db₁, -, hcommit⟩ | ⟨e, hrun, hcommit⟩
  · rw [hcommit]
    cases hmedia : status.mediaId with
    | some | none => simp [hmedia]
  · rw [hcommit]
    refine ⟨rfl, ?_⟩
    rintro e' ⟨rfl⟩
    exact hrun

theorem complete_ne_quota : (store.complete actor id now read db).1 ≠ .done (.error .quota) :=
  fun h => seal_never_quota db (complete_spec.2 _ h)

theorem read_ne_quota : c.read now db ≠ .done (.error .quota) := by
  unfold MediaStore.Completing.read
  split
  · simp
  · split
    · next hpush =>
      rintro ⟨rfl⟩
      unfold pushAttachment at hpush
      split at hpush
      · cases hpush
      · split at hpush <;> cases hpush
    · simp

/-! ### Runs -/

theorem readUpload_frame {γ : Type} {view : MediaDb → γ} :
    Frame view (store.readUpload actor id now) :=
  .look fun _ => .bind .demand fun _ => .check <|
    .check <| .pure

theorem storeChunk_frame {status : UploadStatus} {index : Nat} {bytes : Bytes} {hash : String} :
    Frame budget (storeChunk status id index bytes hash) := by
  refine .ite ?_ ?_
  · exact .look fun _ => .ensure
  · exact .look fun _ => .check <| .bind (.write fun _ => rfl) fun _ =>
      .write fun _ => rfl

theorem sealUpload_frame : Frame budget (store.sealUpload actor id now read) :=
  .bind readUpload_frame fun _ => .check <|
    .bind (.ite (.write fun _ => rfl) .pure) fun _ => readUpload_frame

variable {call : MediaCall}

theorem exec_budget (store : MediaStore) (host : Host) (call : MediaCall) (db : MediaDb) :
    (call.exec store host db).budget = db.budget := by
  have hcommit : ∀ {α : Type} {t : MediaSql α}, Frame budget t →
      (t.commit db).2.budget = db.budget := fun ht =>
    commit_snd (P := fun db' : MediaDb => db'.budget = db.budget) rfl fun _ _ h => ht h
  cases call with
  | create actor channel input id now read =>
    refine commit_snd (P := fun db' : MediaDb => db'.budget = db.budget) rfl fun _ _ h => ?_
    rcases create_ok h with rfl | ⟨-, -, rfl⟩
    · rfl
    · rfl
  | putChunk actor id index bytes claimedHash now read =>
    exact hcommit (.check <| .check <|
      .bind readUpload_frame fun _ => .check <| .check <|
      .bind storeChunk_frame fun _ => readUpload_frame)
  | sealUpload actor id now read => exact hcommit sealUpload_frame
  | abort actor id now =>
    exact hcommit (.bind readUpload_frame fun _ => .check <|
      .write fun _ => rfl)
  | cleanupExpired now =>
    exact hcommit (.look fun _ => .bind (.write fun _ => rfl) fun _ => .pure)

theorem complete_budget {p : MediaStore.Progress}
    (h : store.complete actor id now read db = (p, db')) : db'.budget = db.budget := by
  have hsnd : (store.complete actor id now read db).2 = _ := complete_spec.1
  rw [h] at hsnd
  rw [show db' = _ from hsnd]
  exact commit_snd (P := fun db' : MediaDb => db'.budget = db.budget) rfl
    fun _ _ h => sealUpload_frame h

theorem publish_frame {mediaId : MediaId} : Frame budget (store.publish host c mediaId now) := by
  refine .bind .ofExcept fun contentType => .bind readUpload_frame fun status => ?_
  cases status.mediaId with
  | some m => exact .pure
  | none =>
    refine .bind (.check <| .bind ?_ fun _ => .bind (.write fun _ => rfl)
      fun _ => .ite (.write fun _ => rfl) .pure) fun _ => .pure
    exact .look fun _ => .check <| .look fun _ =>
      .check <| .write fun _ => rfl

theorem exec_budgeted (call : MediaCall) (hs : SoundMedia host issued db)
    (hb : Budgeted store.limits db) : Budgeted store.limits (call.exec store host db) := by
  have hchange := exec_change store call hs
  have hbudget := exec_budget store host call db
  cases call with
  | create actor channel input id now read =>
    refine commit_snd hb fun _ _ h => ?_
    rcases create_ok h with rfl | ⟨hsize, hroom, rfl⟩
    · exact hb
    · exact hb.reserve rfl (by simp [newRow]) hsize hroom
  | _ =>
    exact hb.noHigher (hchange.noHigher hs.unique) hbudget

theorem mediaStep_budgeted {l : MediaLabel} (hsafe : SafeMedia host w)
    (hb : Budgeted store.limits w.db) (hstep : MediaStep store host w l w') :
    Budgeted store.limits w'.db := by
  have hunique := hsafe.sound.unique
  cases hstep with
  | call hnew => exact exec_budgeted _ hsafe.sound hb
  | started h | answered h | refused h =>
    exact hb.noHigher ((complete_change hsafe.sound h).1.noHigher hunique) (complete_budget h)
  | published hread hpublish =>
    have hflight := (hsafe.flights _ mem_append_cons_self).2
    have hrun := commit_eq_ok.1 hpublish
    obtain ⟨hchange, -⟩ := publish_change hunique
      (fun u hu hid => hflight.content hsafe.sound hread hu hid) hrun
    exact hb.noHigher (hchange.noHigher hunique) (publish_frame hrun)
  | read | ended => exact hb
  | memberships members =>
    exact ⟨hb.policy, hb.total, hb.owner, hb.active, hb.ownerActive, hb.size⟩

theorem SafeMedia.insert (hsafe : SafeMedia host w) :
    SafeMedia host ⟨{ w.db with objects := w.db.objects ++ [o] }, w.completing, w.issued⟩ := by
  obtain ⟨hs, hflights⟩ := hsafe
  refine ⟨⟨hs.unique, fun u hu => (hs.intact u hu).congr rfl fun m r hr => ?_, hs.owned, hs.issued⟩,
    hflights⟩
  exact object?_append o rfl hr

theorem budgetStep_keeps {l : Option MediaLabel} (hsafe : SafeMedia host w)
    (hb : Budgeted limits w.db) (hstep : BudgetStep limits host w l w') :
    SafeMedia host w' ∧ Budgeted limits w'.db := by
  cases hstep with
  | call hlimits h =>
    subst hlimits
    exact ⟨step_safe_media hsafe h, mediaStep_budgeted hsafe hb h⟩
  | direct id owner channel filename contentType size sha256 =>
    rcases commit_cases (insertObject
      (directObject id owner channel filename contentType size sha256)) w.db with
      ⟨_, db₁, hrun, hcommit⟩ | ⟨e, -, hcommit⟩
    · obtain ⟨hbudget, rfl⟩ := insertObject_ok hrun
      rw [hcommit]
      refine ⟨hsafe.insert, hb.insert hbudget ?_⟩
      exact ownReservation_eq_zero fun u _ => directKey_ne
    · rw [hcommit]
      exact ⟨hsafe, hb⟩

/-- Whatever calls and direct inserts interleave, once what is stored is within the budget:
the charges stay within the total and within each owner's share, no more uploads are
unfinished than `create` allows, and no `complete` call is refused by the budget, when it
seals, when it reads and when it publishes. -/
theorem media_budget_holds {members : List (ChannelId × UserId)} {objects : List ObjectRow}
    {jobs : List PreviewJobRow} {trace : List (Option MediaLabel)}
    (htotal : MediaDb.stored ⟨members, some limits, [], [], objects, jobs⟩ (fun _ => true) ≤
      limits.totalBytes)
    (howner : ∀ a, MediaDb.stored ⟨members, some limits, [], [], objects, jobs⟩ (·.ownerId = a) ≤
      limits.ownerBytes) (hrun : Run (BudgetStep limits host)
      ⟨⟨members, some limits, [], [], objects, jobs⟩, [], []⟩ trace w) :
    (w.db.stored (fun _ => true) + w.db.reserved (fun _ => true) ≤ limits.totalBytes ∧
      ∀ a, w.db.stored (·.ownerId = a) + w.db.reserved (·.ownerId = a) ≤ limits.ownerBytes) ∧
    (w.db.uploads.countP (fun u => u.state ≠ .complete) ≤ 64 ∧
      ∀ a, w.db.uploads.countP (fun u => u.ownerId = a ∧ u.state ≠ .complete) ≤ 8) ∧
    ∀ store : MediaStore, store.limits = limits → ∀ actor id now read,
      (store.complete actor id now read w.db).1 ≠ .done (.error .quota) ∧
      ∀ c : MediaStore.Completing, c.read now w.db ≠ .done (.error .quota) ∧
        ∀ mediaId, ((store.publish host c mediaId now).commit w.db).1 ≠ .error .quota := by
  obtain ⟨hsafe, hb⟩ : SafeMedia host w ∧ Budgeted limits w.db := by
    refine hrun.invariant (P := fun w => SafeMedia host w ∧ Budgeted limits w.db) ?_ ?_
    · intro w l w' h hstep
      exact budgetStep_keeps h.1 h.2 hstep
    · exact ⟨SafeMedia.init members (some limits) objects jobs,
        ⟨rfl, htotal, howner, Nat.zero_le _, fun _ => Nat.zero_le _, rfl⟩⟩
  refine ⟨⟨hb.total, hb.owner⟩, ⟨?_, fun a => ?_⟩, ?_⟩
  · have hcount := count_eq_held w.db fun _ => true
    simp only [Bool.true_and] at hcount
    exact hcount ▸ hb.active
  · have hcount := count_eq_held w.db (· = a)
    simp only [Bool.decide_and]
    exact hcount ▸ hb.ownerActive a
  · intro store hlimits actor id now read
    subst hlimits
    refine ⟨complete_ne_quota, fun c => ⟨read_ne_quota, ?_⟩⟩
    intro mediaId herror
    exact publish_ne_quota hsafe.sound hb (commit_error_of_fst herror).1

end

open Sample in
/-- A note of three bytes is charged the whole budget of one MiB, and publishing it is not refused
by the budget. -/
theorem media_budget_holds_for_note :
    let db := createNote.exec store host { media with budget := some store.limits }
    db.stored (fun _ => true) + db.reserved (fun _ => true) = 1048576 ∧
      db.stored (fun _ => true) + db.reserved (fun _ => true) ≤ store.limits.totalBytes ∧
      ∀ (c : MediaStore.Completing) mediaId now,
        ((store.publish host c mediaId now).commit db).1 ≠ .error .quota := by
  have hrun : Run (BudgetStep store.limits host)
      ⟨{ media with budget := some store.limits }, [], []⟩ [some (.call createNote)]
      ⟨createNote.exec store host { media with budget := some store.limits }, [], [12]⟩ := by
    refine .single (@BudgetStep.call _ _ store _ _ _ rfl (.call ?_))
    rintro id ⟨rfl⟩
    exact not_mem_nil
  have hholds := media_budget_holds (by decide) (fun _ => Nat.zero_le _) hrun
  refine ⟨by decide +kernel, hholds.1.1, fun c mediaId now => ?_⟩
  exact ((hholds.2.2 store rfl alice 12 now now).2 c).2 mediaId

end Sproyt
