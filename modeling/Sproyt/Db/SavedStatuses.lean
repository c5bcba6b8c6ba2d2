import Mathlib.Data.List.Sort
import Mathlib.Data.Prod.Lex
import Mathlib.Data.String.Basic
import Sproyt.Db.Schema
import Sproyt.Lib.Upsert

/-!
# Saved statuses

Every status that a user sets is counted in a list of the twenty they use most. A new status
starts with the count one, and the list is cut right after: beside twenty that have been used more
often the new one does not stay.
-/

namespace Sproyt

open List Txn Table

structure StatusUser where
  user : UserRow
  statusText : String
  statusEmoji : String
  statusExpiresAt : Option Time

/-- A row of `personal_statuses`. -/
structure SavedStatus where
  userId : UserId
  text : String
  emoji : String
  saveCount : Nat
  lastUsedAt : Time

structure StatusDb where
  users : List StatusUser
  personalStatuses : List SavedStatus

abbrev StatusKey := UserId × String × String

def SavedStatus.key (r : SavedStatus) : StatusKey := (r.userId, r.text, r.emoji)

def maxSaveCount : Nat := 9223372036854775807

/-- `save_count desc, last_used_at desc, text, emoji`. -/
def SavedStatus.rank (r : SavedStatus) : ℕᵒᵈ ×ₗ ℤᵒᵈ ×ₗ String ×ₗ String :=
  toLex (.toDual r.saveCount, toLex (.toDual r.lastUsedAt, toLex (r.text, r.emoji)))

def savedRow (key : StatusKey) (now : Time) (rows : List SavedStatus) : SavedStatus where
  userId := key.1
  text := key.2.1
  emoji := key.2.2
  saveCount :=
    match rows.find? (·.key = key) with
    | some r => if r.saveCount < maxSaveCount then r.saveCount + 1 else r.saveCount
    | none => 1
  lastUsedAt := now

def upsertStatus (key : StatusKey) (now : Time) (rows : List SavedStatus) : List SavedStatus :=
  Table.put SavedStatus.key (savedRow key now rows) rows

/-- `saved_statuses` -/
def savedStatuses (user : UserId) (rows : List SavedStatus) : List SavedStatus :=
  (rows.filter (·.userId = user)).insertionSort fun a b => a.rank ≤ b.rank

def evict (user : UserId) (rows : List SavedStatus) : List SavedStatus :=
  rows.filter fun r => ¬ (r.userId = user ∧
    ((savedStatuses user rows).drop 20).any fun x => x.text = r.text ∧ x.emoji = r.emoji)

def humanOf (actor : UserId) (u : StatusUser) : Bool := u.user.id = actor ∧ u.user.kind = .human

def writeStatuses (f : List SavedStatus → List SavedStatus) : Txn StatusDb RepositoryError Unit :=
  write fun db => { db with personalStatuses := f db.personalStatuses }

def setStatus (actor : UserId) (text emoji : String) (expiresAt : Option Time) (u : StatusUser) :
    StatusUser :=
  if humanOf actor u then ⟨u.user, text, emoji, expiresAt⟩ else u

def saveStatus (actor : UserId) (text emoji : String) (now : Time) :
    Txn StatusDb RepositoryError Unit :=
  if text ≠ "" ∨ emoji ≠ "" then do
    ensure (emoji.length ≤ 16) (Sql.checkViolation "length(emoji) <= 16")
    writeStatuses (upsertStatus (actor, text, emoji) now)
    writeStatuses (evict actor)
  else pure ()

def setUserStatus (actor : UserId) (text emoji : String) (expiresAt : Option Time) (now : Time) :
    Txn StatusDb RepositoryError StatusUser := do
  let human ← read fun db => db.users.any (humanOf actor)
  ensure (human = true) .permissionDenied
  ensure (text.length ≤ 100) (Sql.checkViolation "length(status_text) <= 100")
  ensure (emoji.length ≤ 32) (Sql.checkViolation "length(status_emoji) <= 32")
  write fun db => { db with users := db.users.map (setStatus actor text emoji expiresAt) }
  let row ← read fun db => db.users.find? (·.user.id = actor)
  let profile ← demand row Sql.rowNotFound
  saveStatus actor text emoji now
  pure profile

def removeSavedStatus (actor : UserId) (text emoji : String) :
    Txn StatusDb RepositoryError Unit := do
  let human ← read fun db => db.users.any (humanOf actor)
  ensure (human = true) .permissionDenied
  writeStatuses (Table.erase SavedStatus.key (actor, text, emoji))

inductive StatusCall
  | set (actor : UserId) (text emoji : String) (expiresAt : Option Time) (now : Time)
  | remove (actor : UserId) (text emoji : String)

namespace StatusCall

def exec (db : StatusDb) : StatusCall → StatusDb
  | set actor text emoji expiresAt now =>
    ((setUserStatus actor text emoji expiresAt now).commit db).2
  | remove actor text emoji => ((removeSavedStatus actor text emoji).commit db).2

def saves (db : StatusDb) : StatusCall → Option StatusKey
  | set actor text emoji expiresAt now =>
    if ((setUserStatus actor text emoji expiresAt now).commit db).1.isOk ∧ (text ≠ "" ∨ emoji ≠ "")
    then some (actor, text, emoji) else none
  | remove .. => none

end StatusCall

/-- The saves of a status since it was last absent, counted along the calls. -/
def tallyStep (key : StatusKey) (s : Nat × StatusDb) (c : StatusCall) : Nat × StatusDb :=
  (if (c.exec s.2).personalStatuses.any (·.key = key) then
      s.1 + if c.saves s.2 = some key then 1 else 0
    else 0, c.exec s.2)

variable {user : UserId} {rows : List SavedStatus} {r x : SavedStatus} {key : StatusKey}
  {now : Time} {n : Nat} {db db' : StatusDb}

/-! ### The list -/

theorem savedStatuses_perm : (savedStatuses user rows).Perm (rows.filter (·.userId = user)) :=
  perm_insertionSort _ _

theorem mem_savedStatuses : r ∈ savedStatuses user rows ↔ r ∈ rows ∧ r.userId = user := by
  rw [savedStatuses_perm.mem_iff, mem_filter, decide_eq_true_iff]

theorem savedStatuses_ranked (hkeys : (rows.map SavedStatus.key).Nodup) :
    (savedStatuses user rows).Pairwise fun a b => a.rank < b.rank := by
  have hle : (savedStatuses user rows).Pairwise fun a b => a.rank ≤ b.rank :=
    pairwise_insertionSort (fun a b : SavedStatus => a.rank ≤ b.rank) _
  have hkeys' : ((savedStatuses user rows).map SavedStatus.key).Nodup :=
    (savedStatuses_perm.map _).nodup_iff.2 (hkeys.sublist (filter_sublist.map _))
  refine (hle.and (pairwise_map.1 hkeys')).imp_of_mem fun {a b} ha hb h => lt_of_le_of_ne h.1 ?_
  intro heq
  obtain ⟨-, heq⟩ := Prod.mk.inj (toLex.injective heq)
  obtain ⟨-, heq⟩ := Prod.mk.inj (toLex.injective heq)
  obtain ⟨htext, hemoji⟩ := Prod.mk.inj (toLex.injective heq)
  apply h.2
  rw [SavedStatus.key, (mem_savedStatuses.1 ha).2, htext, hemoji, ← (mem_savedStatuses.1 hb).2]
  rfl

def ahead (x : SavedStatus) (rows : List SavedStatus) : Nat :=
  rows.countP fun r => r.userId = x.userId ∧ r.key ≠ x.key ∧ r.rank < x.rank

theorem mem_take_iff (hkeys : (rows.map SavedStatus.key).Nodup) (hx : x ∈ rows) :
    x ∈ (savedStatuses x.userId rows).take n ↔ ahead x rows < n := by
  have hcount : ahead x rows = ((savedStatuses x.userId rows).countP fun r => r.rank < x.rank) := by
    rw [savedStatuses_perm.countP_eq, countP_filter, ahead]
    refine countP_congr fun r _ => ?_
    have hne : r.rank < x.rank → r.key = x.key → r ∈ rows → False := fun hlt hkey hr =>
      lt_irrefl _ (eq_of_key_eq hkeys hr hx hkey ▸ hlt)
    simp only [decide_eq_true_eq, Bool.and_eq_true]
    exact ⟨fun h => ⟨h.2.2, h.1⟩, fun h => ⟨h.2, fun hkey => hne h.1 hkey ‹_›, h.1⟩⟩
  obtain ⟨before, after, heq⟩ := append_of_mem (mem_savedStatuses.2 ⟨hx, rfl⟩)
  have hranked : (savedStatuses x.userId rows).Pairwise _ := savedStatuses_ranked hkeys
  rw [heq] at hranked
  obtain ⟨-, hafter, hbefore⟩ := pairwise_append.1 hranked
  have hall : before.countP (fun r => r.rank < x.rank) = before.length :=
    countP_eq_length.2 fun r hr => decide_eq_true (hbefore r hr x mem_cons_self)
  have hnone : (x :: after).countP (fun r => r.rank < x.rank) = 0 := by
    refine countP_eq_zero.2 fun r hr => ?_
    rcases mem_cons.1 hr with rfl | hr
    · simp
    · simpa using ((pairwise_cons.1 hafter).1 r hr).le
  rw [hcount, heq, countP_append, hall, hnone, Nat.add_zero]
  constructor
  · intro hmem
    by_contra hle
    rw [take_append_of_le_length (not_lt.1 hle)] at hmem
    exact lt_irrefl _ (hbefore x (mem_of_mem_take hmem) x mem_cons_self)
  · intro hlt
    obtain ⟨k, rfl⟩ := Nat.exists_eq_add_of_lt hlt
    rw [show before.length + k + 1 = before.length + (k + 1) from rfl, take_length_add_append]
    exact mem_append_right _ mem_cons_self

theorem ahead_upsert : ahead (savedRow key now rows) (upsertStatus key now rows) =
    ahead (savedRow key now rows) rows := by
  unfold upsertStatus Table.put
  split
  · rw [ahead, Table.set, countP_map]
    refine countP_congr fun y _ => ?_
    by_cases hkey : y.key = (savedRow key now rows).key
    · simp [hkey]
    · simp [hkey]
  · simp [ahead]

/-- The first twenty of the user stay, and all entries of others. -/
theorem mem_evict (hkeys : (rows.map SavedStatus.key).Nodup) :
    x ∈ evict user rows ↔ x ∈ rows ∧ (x.userId = user → ahead x rows < 20) := by
  rw [evict, mem_filter]
  refine and_congr_right fun hx => ?_
  rw [decide_eq_true_iff, not_and]
  refine forall_congr' fun huser => ?_
  subst huser
  rw [← mem_take_iff hkeys hx, Bool.not_eq_true, any_eq_false]
  have hsorted : (savedStatuses x.userId rows).Pairwise _ := savedStatuses_ranked hkeys
  rw [← take_append_drop 20 (savedStatuses x.userId rows)] at hsorted
  obtain ⟨-, -, hbetween⟩ := pairwise_append.1 hsorted
  have hmem : x ∈ (savedStatuses x.userId rows).take 20 ++
    (savedStatuses x.userId rows).drop 20 := by
    rw [take_append_drop]
    exact mem_savedStatuses.2 ⟨hx, rfl⟩
  constructor
  · intro hgone
    refine (mem_append.1 hmem).resolve_right fun hdrop => ?_
    simpa using hgone x hdrop
  · intro htake y hy hsame
    obtain ⟨hyrows, huser⟩ := mem_savedStatuses.1 (mem_of_mem_drop hy)
    have hkey : y.key = x.key := by
      rw [SavedStatus.key, huser, (of_decide_eq_true hsame).1, (of_decide_eq_true hsame).2]
      rfl
    exact lt_irrefl _ (eq_of_key_eq hkeys hyrows hx hkey ▸ hbetween x htake y hy)

theorem setUserStatus_ok {actor : UserId} {text emoji : String} {expiresAt : Option Time}
    {profile : StatusUser}
    (h : (setUserStatus actor text emoji expiresAt now).run db = .ok (profile, db')) :
    db'.personalStatuses = if text ≠ "" ∨ emoji ≠ "" then
      evict actor (upsertStatus (actor, text, emoji) now db.personalStatuses)
      else db.personalStatuses := by
  simp only [setUserStatus, answers] at h
  obtain ⟨-, -, -, _, -, _, _, hsave, -, rfl⟩ := h
  unfold saveStatus at hsave
  split at hsave
  · next hsome =>
    simp only [writeStatuses, answers] at hsave
    obtain ⟨-, rfl⟩ := hsave
    rw [if_pos hsome]
  · next hnone =>
    obtain ⟨-, rfl⟩ := pure_ok.1 hsave
    rw [if_neg hnone]

variable {c : StatusCall}

/-- What a call does to the table: nothing, a save and a cut, or a removal. -/
theorem StatusCall.exec_cases (c : StatusCall) :
    (c.saves db = none ∧ (c.exec db).personalStatuses = db.personalStatuses) ∨
      (∃ key now, c.saves db = some key ∧ (c.exec db).personalStatuses =
        evict key.1 (upsertStatus key now db.personalStatuses)) ∨
      ∃ key, c.saves db = none ∧
        (c.exec db).personalStatuses = erase SavedStatus.key key db.personalStatuses := by
  cases c with
  | set actor text emoji expiresAt now =>
    rcases commit_cases (setUserStatus actor text emoji expiresAt now) db with
      ⟨profile, db', hrun, hcommit⟩ | ⟨e, -, hcommit⟩
    · have hrows := setUserStatus_ok hrun
      by_cases hsome : text ≠ "" ∨ emoji ≠ ""
      · rw [if_pos hsome] at hrows
        refine .inr (.inl ⟨(actor, text, emoji), now, ?_, ?_⟩)
        · rw [StatusCall.saves, if_pos ⟨by rw [hcommit]; rfl, hsome⟩]
        · rw [StatusCall.exec, hcommit]
          exact hrows
      · rw [if_neg hsome] at hrows
        refine .inl ⟨?_, ?_⟩
        · rw [StatusCall.saves, if_neg fun h => hsome h.2]
        · rw [StatusCall.exec, hcommit]
          exact hrows
    · refine .inl ⟨?_, ?_⟩
      · rw [StatusCall.saves, hcommit]
        exact if_neg fun h => nomatch h.1
      · rw [StatusCall.exec, hcommit]
  | remove actor text emoji =>
    rw [StatusCall.exec]
    rcases commit_cases (removeSavedStatus actor text emoji) db with
      ⟨_, db', hrun, hcommit⟩ | ⟨e, -, hcommit⟩
    · simp only [removeSavedStatus, writeStatuses, answers] at hrun
      obtain ⟨-, rfl⟩ := hrun
      exact .inr (.inr ⟨(actor, text, emoji), rfl, by rw [hcommit]⟩)
    · exact .inl ⟨rfl, by rw [hcommit]⟩

/-! ### Runs -/

structure StatusInv (key : StatusKey) (n : Nat) (db : StatusDb) : Prop where
  unique : (db.personalStatuses.map SavedStatus.key).Nodup
  short : ∀ u, (savedStatuses u db.personalStatuses).length ≤ 20
  counts : ∀ r ∈ db.personalStatuses, r.key = key → r.saveCount = min n maxSaveCount
  absent : (∀ r ∈ db.personalStatuses, r.key ≠ key) → n = 0

theorem short_of_subset {entries : List SavedStatus} (hkeys : (rows.map SavedStatus.key).Nodup)
    (h : ∀ r ∈ savedStatuses user rows, r ∈ entries) (hshort : entries.length ≤ 20) :
    (savedStatuses user rows).length ≤ 20 := by
  have hnodup : (savedStatuses user rows).Nodup :=
    savedStatuses_perm.nodup_iff.2 ((hkeys.of_map _).filter _)
  exact (sum_le_of_subset (w := fun _ => 0) hnodup h).1.trans hshort

theorem StatusInv.savedRow_count (h : StatusInv key n db) :
    (savedRow key now db.personalStatuses).saveCount = min (n + 1) maxSaveCount := by
  unfold savedRow
  cases hfind : db.personalStatuses.find? (·.key = key) with
  | none =>
    have hzero := h.absent fun r hr hkey => by simpa [hkey] using find?_eq_none.1 hfind r hr
    rw [hzero]
    rfl
  | some r =>
    have hcount := h.counts r (mem_of_find?_eq_some hfind) (by simpa using find?_some hfind)
    show (if r.saveCount < maxSaveCount then r.saveCount + 1 else r.saveCount) = _
    split <;> omega

theorem StatusInv.step (h : StatusInv key n db) :
    StatusInv key (tallyStep key (n, db) c).1 (c.exec db) := by
  have habsent : (∀ r ∈ (c.exec db).personalStatuses, r.key ≠ key) →
      (tallyStep key (n, db) c).1 = 0 := by
    intro hnone
    refine if_neg fun hany => ?_
    obtain ⟨r, hr, hkey⟩ := any_eq_true.1 hany
    exact hnone r hr (of_decide_eq_true hkey)
  have hpresent : ∀ r ∈ (c.exec db).personalStatuses, r.key = key →
      (tallyStep key (n, db) c).1 = n + if c.saves db = some key then 1 else 0 := fun r hr hkey =>
    if_pos (any_eq_true.2 ⟨r, hr, decide_eq_true hkey⟩)
  rcases c.exec_cases with ⟨hsaves, hrows⟩ | ⟨k, now, hsaves, hrows⟩ | ⟨k, hsaves, hrows⟩
  · rw [hrows, hsaves] at hpresent
    refine ⟨hrows ▸ h.unique, fun u => hrows ▸ h.short u, fun r hr hkey => ?_, habsent⟩
    rw [hrows] at hr
    rw [hpresent r hr hkey, h.counts r hr hkey]
    simp
  · have hkeys : ((upsertStatus k now db.personalStatuses).map SavedStatus.key).Nodup :=
      nodup_put h.unique
    have hstay : ∀ r ∈ evict k.1 (upsertStatus k now db.personalStatuses),
        r ∈ upsertStatus k now db.personalStatuses := fun r hr => ((mem_evict hkeys).1 hr).1
    have hkeys' : ((c.exec db).personalStatuses.map SavedStatus.key).Nodup := by
      rw [hrows]
      exact hkeys.sublist (filter_sublist.map _)
    refine ⟨hkeys', fun u => ?_, fun r hr hkey => ?_, habsent⟩
    · by_cases hu : u = k.1
      · -- the list that has been cut
        subst hu
        refine short_of_subset hkeys' (fun r hr => ?_) (length_take_le 20
          (savedStatuses k.1 (upsertStatus k now db.personalStatuses)))
        rw [hrows] at hr
        obtain ⟨hr, huser⟩ := mem_savedStatuses.1 hr
        rw [← huser, mem_take_iff hkeys (hstay r hr)]
        exact ((mem_evict hkeys).1 hr).2 huser
      · refine short_of_subset hkeys' (fun r hr => ?_) (h.short u)
        rw [hrows] at hr
        obtain ⟨hr, huser⟩ := mem_savedStatuses.1 hr
        rcases mem_put.1 (hstay r hr) with rfl | ⟨hr, -⟩
        · exact absurd huser.symm hu
        · exact mem_savedStatuses.2 ⟨hr, huser⟩
    · rw [hpresent r hr hkey, hsaves]
      rw [hrows] at hr
      rcases mem_put.1 (hstay r hr) with rfl | ⟨hr, hother⟩
      · obtain rfl : k = key := hkey
        rw [if_pos rfl, h.savedRow_count]
      · have hother : r.key ≠ k := hother
        rw [if_neg fun heq => hother (hkey.trans (Option.some.inj heq).symm), h.counts r hr hkey]
        rfl
  · have hkeys' : ((c.exec db).personalStatuses.map SavedStatus.key).Nodup := by
      rw [hrows]
      exact nodup_erase h.unique
    have hold : ∀ r ∈ (c.exec db).personalStatuses, r ∈ db.personalStatuses := by
      rw [hrows]
      exact fun r hr => (mem_erase.1 hr).1
    refine ⟨hkeys', fun u => ?_, fun r hr hkey => ?_, habsent⟩
    · refine short_of_subset hkeys' (fun r hr => ?_) (h.short u)
      obtain ⟨hr, huser⟩ := mem_savedStatuses.1 hr
      exact mem_savedStatuses.2 ⟨hold r hr, huser⟩
    · rw [hpresent r hr hkey, hsaves, h.counts r (hold r hr) hkey]
      rfl

theorem statusInv_of_calls (key : StatusKey) (hempty : db.personalStatuses = [])
    (calls : List StatusCall) : StatusInv key (calls.foldl (tallyStep key) (0, db)).1
      (calls.foldl StatusCall.exec db) := by
  have hinit : StatusInv key 0 db := by
    refine ⟨?_, ?_, ?_, fun _ => rfl⟩ <;> simp [hempty, savedStatuses]
  clear hempty
  generalize (0 : Nat) = n at hinit ⊢
  induction calls generalizing n db with
  | nil => exact hinit
  | cons c calls ih => exact ih _ (hinit.step)

/-- After any calls the list of a user has at most twenty entries, and an entry has been saved as
often as it says, up to the largest count, since it was last absent. The status that a call has
saved is in the list exactly when fewer than twenty others come before it. -/
theorem saved_statuses_counted (hempty : db.personalStatuses = []) (calls : List StatusCall) :
    let after := calls.foldl StatusCall.exec db
    (∀ u, (savedStatuses u after.personalStatuses).length ≤ 20) ∧
      (∀ u, ∀ r ∈ savedStatuses u after.personalStatuses, r.saveCount =
        min (calls.foldl (tallyStep r.key) (0, db)).1 maxSaveCount) ∧
      ∀ actor text emoji expiresAt now profile db',
        (setUserStatus actor text emoji expiresAt now).commit after = (.ok profile, db') →
        text ≠ "" ∨ emoji ≠ "" →
        ((∃ r ∈ savedStatuses actor db'.personalStatuses, r.text = text ∧ r.emoji = emoji) ↔
          ahead (savedRow (actor, text, emoji) now after.personalStatuses)
            after.personalStatuses < 20) := by
  intro after
  refine ⟨(statusInv_of_calls (⟨0⟩, "", "") hempty calls).short, fun u r hr => ?_, ?_⟩
  · exact (statusInv_of_calls r.key hempty calls).counts r (mem_savedStatuses.1 hr).1 rfl
  · intro actor text emoji expiresAt now profile db' hcommit hsome
    have hinv := statusInv_of_calls (actor, text, emoji) hempty calls
    have hrows := setUserStatus_ok (commit_eq_ok.1 hcommit)
    rw [if_pos hsome] at hrows
    let x := savedRow (actor, text, emoji) now after.personalStatuses
    have hkeys : ((upsertStatus (actor, text, emoji) now after.personalStatuses).map
        SavedStatus.key).Nodup := Table.nodup_put hinv.unique
    have hx : x ∈ upsertStatus (actor, text, emoji) now after.personalStatuses := Table.mem_put_self
    rw [hrows, ← ahead_upsert]
    constructor
    · rintro ⟨r, hr, htext, hemoji⟩
      obtain ⟨hr, huser⟩ := mem_savedStatuses.1 hr
      obtain ⟨hmem, hahead⟩ := (mem_evict hkeys).1 hr
      have hkey : r.key = x.key := by rw [SavedStatus.key, huser, htext, hemoji]; rfl
      have hahead := hahead huser
      rwa [Table.eq_of_key_eq hkeys hmem hx hkey] at hahead
    · intro hahead
      exact ⟨x, mem_savedStatuses.2 ⟨(mem_evict hkeys).2 ⟨hx, fun _ => hahead⟩, rfl⟩, rfl, rfl⟩

/-! ### Twenty-one statuses -/

namespace Sample

def noStatuses : StatusDb := ⟨Sample.db.users.map fun u => ⟨u, "", "", none⟩, []⟩

def twiceTwenty : List StatusCall :=
  (range 40).map fun i => .set alice (String.ofList [Char.ofNat (97 + i % 20)]) "" none i

end Sample

open Sample in
/-- Alice saves a status of the full list once more, and it stays in the list. -/
theorem saved_statuses_of_letters :
    ∃ after, twiceTwenty.foldl StatusCall.exec noStatuses = after ∧
      (savedStatuses alice after.personalStatuses).length ≤ 20 ∧
      ∃ profile db', (setUserStatus alice "a" "" none 40).commit after = (.ok profile, db') ∧
        ∃ r ∈ savedStatuses alice db'.personalStatuses, r.text = "a" ∧ r.emoji = "" := by
  obtain ⟨hshort, -, hsaved⟩ :=
    saved_statuses_counted (rfl : noStatuses.personalStatuses = []) twiceTwenty
  refine ⟨_, rfl, hshort alice, ?_⟩
  rcases hcommit : (setUserStatus alice "a" "" none 40).commit
    (twiceTwenty.foldl StatusCall.exec noStatuses) with ⟨e | profile, db'⟩
  · have hok : ((setUserStatus alice "a" "" none 40).commit
        (twiceTwenty.foldl StatusCall.exec noStatuses)).1.isOk = true := by decide +kernel
    rw [hcommit] at hok
    cases hok
  · exact ⟨profile, db', rfl, (hsaved alice "a" "" none 40 profile db' hcommit
      (.inl (by decide))).2 (by decide +kernel)⟩

open Sample in
/-- Alice has saved twenty statuses twice each, and saves another one: it is not in the list. -/
theorem new_status_not_saved :
    ∃ db, twiceTwenty.foldl StatusCall.exec noStatuses = db ∧
      ((setUserStatus alice "z" "" none 40).commit db).1.isOk = true ∧
      ∀ r ∈ savedStatuses alice ((setUserStatus alice "z" "" none 40).commit db).2.personalStatuses,
        r.text ≠ "z" := by
  refine ⟨_, rfl, ?_, ?_⟩
  · decide +kernel
  · decide +kernel

end Sproyt
