import Mathlib.Data.Char
import Sproyt.Db.Circles
import Sproyt.Db.Posting
import Sproyt.Lib.Calendar
import Sproyt.Lib.FixedWidth
import Sproyt.Lib.Table

/-!
# The end of an invitation

Chat invitations are looked up with `expires_at > current_timestamp`, which compares two texts.
The stored one is RFC 3339 and the other one is SQLite's own, with a space between date and
time. Dates decide as they should, but on one date the stored text is always the greater one: an
invitation is taken to be valid until the end of the day on which it expires.
-/

namespace Sproyt

open List Txn Calendar

/-! ### Instants as texts

A text is its characters, in the order of their code points. These texts are ASCII, where that is
the order of the bytes.
-/

def epochDay : Nat := 719528

def dayNumber (t : Time) : Nat := (t / day + epochDay).toNat

def secondOfDay (t : Time) : Nat := (t % day).toNat / 1000000000

def nanosecond (t : Time) : Nat := (t % 1000000000).toNat

def decimal (w n : Nat) : List Char := FixedWidth.decimal Nat.digitChar w n

/-- `YYYY-MM-DD`. -/
def dateText (d : Calendar.Date) : List Char :=
  decimal 4 d.year ++ ('-' :: decimal 2 d.month ++ '-' :: decimal 2 d.day)

/-- `HH:MM:SS`. -/
def timeText (t : Time) : List Char :=
  decimal 2 (secondOfDay t / 3600) ++ (':' :: decimal 2 (secondOfDay t / 60 % 60) ++
    ':' :: decimal 2 (secondOfDay t % 60))

/-- The fraction of a second in as many groups of three digits as it takes. -/
def fractionText (t : Time) : List Char :=
  if nanosecond t = 0 then []
  else if nanosecond t % 1000000 = 0 then '.' :: decimal 3 (nanosecond t / 1000000)
  else if nanosecond t % 1000 = 0 then '.' :: decimal 6 (nanosecond t / 1000)
  else '.' :: decimal 9 (nanosecond t)

/-- The text that is bound for an instant: `to_rfc3339_opts(SecondsFormat::AutoSi, false)`. -/
def rfc3339 (t : Time) : List Char :=
  dateText (Calendar.date (dayNumber t)) ++
    ('T' :: timeText t ++ fractionText t ++ "+00:00".toList)

/-- `current_timestamp`. -/
def currentTimestamp (t : Time) : List Char :=
  dateText (Calendar.date (dayNumber t)) ++ (' ' :: timeText t)

/-- The instants of the years 0 to 9999, which are written with four digits. -/
def FourDigitYear (t : Time) : Prop :=
  0 ≤ t / day + epochDay ∧ t / day + epochDay < Calendar.yearStart 10000

instance (t : Time) : Decidable (FourDigitYear t) := inferInstanceAs (Decidable (_ ∧ _))

/-! ### The order of the texts -/

theorem date_epochDay : date epochDay = ⟨1970, 1, 1⟩ :=
  date_yearStart 1970

example : currentTimestamp 0 = "1970-01-01 00:00:00".toList := by
  rw [currentTimestamp, show dayNumber 0 = epochDay from rfl, date_epochDay]
  decide

theorem digitChar_ordered : FixedWidth.Ordered Nat.digitChar := by
  unfold FixedWidth.Ordered
  decide

theorem length_decimal (w n : Nat) : (decimal w n).length = w := FixedWidth.length_decimal _ w n

variable {s t : List Char}

theorem decimal_append_lt_iff {w m n : Nat} (hm : m < 10 ^ w)
    (hn : n < 10 ^ w) : decimal w m ++ s < decimal w n ++ t ↔ m < n ∨ m = n ∧ s < t := by
  rw [FixedWidth.append_lt_append_iff (by rw [length_decimal, length_decimal]), decimal, decimal,
    FixedWidth.decimal_lt_iff digitChar_ordered hm hn,
    FixedWidth.decimal_eq_iff digitChar_ordered hm hn]

theorem cons_lt_cons_same {c : Char} : c :: s < c :: t ↔ s < t := by
  rw [cons_lt_cons_iff]
  simp

/-- Dates with what follows them: the dates decide unless they are equal. -/
theorem dateText_append_lt_iff {d e : Calendar.Date} (hd : d.Valid) (he : e.Valid)
    (hdyear : d.year < 10000) (heyear : e.year < 10000) :
    dateText d ++ s < dateText e ++ t ↔ d.Before e ∨ d = e ∧ s < t := by
  have hsmall : ∀ {x : Calendar.Date}, x.Valid → x.month < 10 ^ 2 ∧ x.day < 10 ^ 2 := by
    intro x hx
    have hmonth := hx.month_le
    have hday := hx.day_le
    have hdays := (daysInMonth_bounds x.year x.month).2
    omega
  have heq : d = e ↔ d.year = e.year ∧ d.month = e.month ∧ d.day = e.day := by
    cases d
    cases e
    rw [Calendar.Date.mk.injEq]
  simp only [dateText, append_assoc, cons_append]
  rw [decimal_append_lt_iff (w := 4) hdyear heyear, cons_lt_cons_same,
    decimal_append_lt_iff (hsmall hd).1 (hsmall he).1, cons_lt_cons_same,
    decimal_append_lt_iff (hsmall hd).2 (hsmall he).2, Calendar.Date.Before, heq]
  tauto

theorem dayNumber_eq {t : Time} (h : FourDigitYear t) : (dayNumber t : Int) = t / day + epochDay :=
  Int.toNat_of_nonneg h.1

theorem year_of_fourDigitYear {t : Time} (h : FourDigitYear t) :
    (date (dayNumber t)).year < 10000 := by
  refine year_lt_of_lt ?_
  have hlt := h.2
  rw [← dayNumber_eq h] at hlt
  exact Int.ofNat_lt.1 hlt

/-- The texts are compared by their days: on one day, `T` comes after the space. -/
theorem currentTimestamp_lt_rfc3339_iff {now expiresAt : Time} (hnow : FourDigitYear now)
    (hexpires : FourDigitYear expiresAt) :
    currentTimestamp now < rfc3339 expiresAt ↔ now / day ≤ expiresAt / day := by
  have hspace : ∀ s t : List Char, ' ' :: s < 'T' :: t := fun s t =>
    cons_lt_cons_iff.2 (.inl (by decide))
  rw [currentTimestamp, rfc3339, dateText_append_lt_iff (valid_date _)
    (valid_date _) (year_of_fourDigitYear hnow) (year_of_fourDigitYear hexpires),
    date_before_iff, date_inj, cons_append, cons_append]
  simp only [hspace, and_true]
  rw [← Nat.le_iff_lt_or_eq, ← Int.ofNat_le, dayNumber_eq hnow, dayNumber_eq hexpires]
  exact Int.add_le_add_iff_right _

/-! ### The calls of an invited person -/

structure InvitationPreview where
  target : InvitationTarget
  circleName : DisplayName
  channelName : Option DisplayName
  invitedBy : UserId
  invitedByName : DisplayName
  expiresAt : Time
  response : Option InvitationResponse
  acceptedCount : Nat
  declinedCount : Nat
deriving DecidableEq

/-- A row of the query: an invitation with its circle, its channel and its inviter. -/
structure InvitationDetails where
  invitation : ChatInvitationRow
  circle : CircleRow
  channel : Option Channel
  inviter : UserRow

def invitationChannel : InvitationTarget → Option ChannelId
  | .circle _ => none
  | .channel _ c => some c

namespace Db

variable (db : Db)

def invitationDetails (r : ChatInvitationRow) : Option InvitationDetails := do
  let circle ← db.circles.find? fun c => c.id = invitationCircle r.target
  let inviter ← db.user? r.invitedBy
  pure ⟨r, circle, (invitationChannel r.target).bind db.channel?, inviter⟩

def responseOf (invitation : Uuid) (u : UserId) : Option InvitationResponse :=
  (db.chatInvitationResponses.find? fun r => r.invitationId = invitation ∧ r.userId = u).map
    (·.response)

def countResponses (invitation : Uuid) (response : InvitationResponse) : Nat :=
  db.chatInvitationResponses.countP fun r => r.invitationId = invitation ∧ r.response = response

end Db

/-- The row of `load_sqlite_invitation`, read into a preview. -/
def previewOf (actor : UserId) (db : Db) (row : InvitationDetails) :
    Except RepositoryError InvitationPreview := do
  let circleName ← storageText (DisplayName.circleName row.circle.name.text)
  let channelName ← row.channel.mapM fun ch => storageText (DisplayName.new ch.name.text)
  let invitedByName ← storageText (DisplayName.new row.inviter.displayName.text)
  let acceptedCount ← unsignedCount (db.countResponses row.invitation.id .accepted)
  let declinedCount ← unsignedCount (db.countResponses row.invitation.id .declined)
  pure ⟨row.invitation.target, circleName, channelName, row.invitation.invitedBy, invitedByName,
    row.invitation.expiresAt, db.responseOf row.invitation.id actor, acceptedCount, declinedCount⟩

section

variable (host : Host) (actor : UserId) (token : String) (now : Time)

def loadSqliteInvitation (db : Db) : Except RepositoryError InvitationPreview :=
  match (db.chatInvitation? (host.hashToken token) now).bind db.invitationDetails with
  | none => .error .notFound
  | some row => previewOf actor db row

def inspectChatInvitation (db : Db) : Except RepositoryError InvitationPreview :=
  loadSqliteInvitation host actor token now db

/-- The response of `decline_chat_invitation`. -/
def declineResponse : Sql Unit := do
  let invitation ← Txn.read fun db => db.chatInvitation? (host.hashToken token) now
  let invitation ← Txn.demand invitation .notFound
  Sql.insert (fun _ => false) (fun db => db.hasUser actor) (respond invitation.id actor .declined)

/-- What declining and accepting begin with. Nobody answers an invitation of their own. -/
def answerInvitation {α : Type}
    (proceed : InvitationPreview → Db → Except RepositoryError α × Db) (db : Db) :
    Except RepositoryError α × Db :=
  match loadSqliteInvitation host actor token now db with
  | .error e => (.error e, db)
  | .ok preview =>
    if preview.invitedBy = actor then (.error .permissionDenied, db) else proceed preview db

def declineChatInvitation (db : Db) : Except RepositoryError InvitationPreview × Db :=
  answerInvitation host actor token now (fun _ db =>
    match (declineResponse host actor token now).commit db with
    | (.error e, db') => (.error e, db')
    | (.ok _, db') => (loadSqliteInvitation host actor token now db', db')) db

/-- `accept_chat_invitation` as a whole: its preview, then its transaction. -/
def acceptPreviewed (id : ChannelId) (db : Db) :
    Except RepositoryError (InvitationTarget × Channel) × Db :=
  answerInvitation host actor token now (fun preview db =>
    match (acceptChatInvitation host actor token preview.target id now).commit db with
    | (.error e, db') => (.error e, db')
    | (.ok channel, db') => (.ok (preview.target, channel), db')) db

end

/-- A call that goes by the invitation, whatever else it may then refuse. -/
def TakenAsValid {α : Type} (answer : Except RepositoryError α) : Prop :=
  answer ≠ .error .notFound

/-- The constraints of `chat_invitations`, for an invitation with the hash of a token. -/
structure Issued (db : Db) (hash : Hash) (r : ChatInvitationRow) : Prop where
  stored : r ∈ db.chatInvitations
  hash_eq : r.tokenHash = hash
  unique : (db.chatInvitations.map (·.tokenHash)).Nodup
  circle : db.hasCircle (Db.invitationCircle r.target) = true
  inviter : db.hasUser r.invitedBy = true

section

variable {host : Host} {actor : UserId} {token : String} {now : Time} {db db' : Db}
  {r : ChatInvitationRow} {hash : Hash}

theorem Issued.congr (h : Issued db hash r) (hsame : (db'.users, db'.circles, db'.chatInvitations) =
      (db.users, db.circles, db.chatInvitations)) : Issued db' hash r := by
  simp only [Prod.mk.injEq] at hsame
  obtain ⟨husers, hcircles, hinvitations⟩ := hsame
  refine ⟨?_, h.hash_eq, ?_, ?_, ?_⟩
  · rw [hinvitations]
    exact h.stored
  · rw [hinvitations]
    exact h.unique
  · rw [Db.hasCircle, hcircles]
    exact h.circle
  · rw [Db.hasUser, husers]
    exact h.inviter

theorem insertChatInvitation_issued {x : Unit}
    (hunique : (db.chatInvitations.map (·.tokenHash)).Nodup)
    (h : (insertChatInvitation r).run db = .ok (x, db')) : Issued db' r.tokenHash r := by
  obtain ⟨htaken, hresolves, rfl⟩ := Sql.insert_ok.1 h
  obtain ⟨htarget, hinviter⟩ := Bool.and_eq_true_iff.1 hresolves
  refine ⟨mem_append_right _ (mem_singleton_self r), rfl, ?_, ?_, hinviter⟩
  · refine Table.nodup_append_single hunique fun x hx heq => ?_
    have hnone := any_eq_false.1 htaken x hx
    simp [heq] at hnone
  · cases htarget' : r.target with
    | circle k =>
      rw [htarget'] at htarget
      exact htarget
    | channel k c =>
      rw [htarget'] at htarget
      exact (Bool.and_eq_true_iff.1 htarget).1

/-! ### Who is let through -/

theorem Issued.chatInvitation? (h : Issued db hash r) (now : Time) :
    db.chatInvitation? hash now =
      if afterCurrentTimestamp r.expiresAt now then some r else none := by
  have honly : ∀ x ∈ db.chatInvitations, x.tokenHash = hash → x = r := fun x hx hhash =>
    Table.eq_of_key_eq h.unique hx h.stored (hhash.trans h.hash_eq.symm)
  rw [Db.chatInvitation?]
  split
  · next hafter =>
    cases hfind : db.chatInvitations.find? fun x =>
        x.tokenHash = hash ∧ afterCurrentTimestamp x.expiresAt now with
    | none =>
      have hnone := find?_eq_none.1 hfind r h.stored
      simp [h.hash_eq, hafter] at hnone
    | some x =>
      have hx := find?_some hfind
      rw [decide_eq_true_eq] at hx
      rw [honly x (mem_of_find?_eq_some hfind) hx.1]
  · next hpast =>
    refine find?_eq_none.2 fun x hx hfound => hpast ?_
    have hx' := of_decide_eq_true hfound
    rw [← honly x hx hx'.1]
    exact hx'.2

theorem Issued.invitationDetails (h : Issued db hash r) :
    ∃ row, db.invitationDetails r = some row := by
  obtain ⟨circle, hcircle⟩ := Option.isSome_iff_exists.1
    (show (db.circles.find? fun c => c.id = Db.invitationCircle r.target).isSome = true by
      rw [find?_isSome]; exact any_eq_true.1 h.circle)
  obtain ⟨inviter, hinviter⟩ := Option.isSome_iff_exists.1
    (show (db.user? r.invitedBy).isSome = true by
      rw [Db.user?, find?_isSome]; exact any_eq_true.1 h.inviter)
  refine ⟨⟨r, circle, (invitationChannel r.target).bind db.channel?, inviter⟩, ?_⟩
  rw [Db.invitationDetails, hcircle, hinviter]
  rfl

theorem unsignedCount_ne_notFound {n : Nat} : unsignedCount n ≠ .error .notFound := by
  unfold unsignedCount
  split <;> simp [RepositoryError.tooLarge]

theorem previewOf_ne_notFound {row : InvitationDetails} :
    previewOf actor db row ≠ .error .notFound := by
  refine bind_ne_error (storageText_ne_notFound _) fun _ => bind_ne_error ?_ fun _ => ?_
  · cases row.channel with
    | none => exact nofun
    | some ch => exact bind_ne_error (storageText_ne_notFound _) fun _ => nofun
  · refine bind_ne_error (storageText_ne_notFound _) fun _ => ?_
    refine bind_ne_error (unsignedCount_ne_notFound) fun _ => ?_
    exact bind_ne_error (unsignedCount_ne_notFound) fun _ => nofun

theorem Issued.load_valid_iff (h : Issued db (host.hashToken token) r) (actor : UserId) :
    TakenAsValid (loadSqliteInvitation host actor token now db) ↔
      afterCurrentTimestamp r.expiresAt now = true := by
  rw [TakenAsValid, loadSqliteInvitation, h.chatInvitation? now]
  obtain ⟨row, hrow⟩ := h.invitationDetails
  by_cases hafter : afterCurrentTimestamp r.expiresAt now = true
  · rw [if_pos hafter, Option.bind_some, hrow]
    exact iff_of_true (previewOf_ne_notFound) hafter
  · rw [if_neg hafter]
    exact iff_of_false (fun hne => hne rfl) hafter

/-- An answer to an invitation is let through when the preview is. -/
theorem Issued.answer_valid_iff {α : Type}
    {proceed : InvitationPreview → Db → Except RepositoryError α × Db}
    (h : Issued db (host.hashToken token) r)
    (hproceed : afterCurrentTimestamp r.expiresAt now = true →
      ∀ preview, TakenAsValid (proceed preview db).1) :
    TakenAsValid (answerInvitation host actor token now proceed db).1 ↔
      afterCurrentTimestamp r.expiresAt now = true := by
  rw [← h.load_valid_iff actor]
  rw [← h.load_valid_iff actor] at hproceed
  unfold answerInvitation
  cases hload : loadSqliteInvitation host actor token now db with
  | error e =>
    refine not_congr ⟨fun heq => ?_, fun heq => ?_⟩
    · cases heq
      rfl
    · cases heq
      rfl
  | ok preview =>
    rw [hload] at hproceed
    refine iff_of_true ?_ nofun
    dsimp only
    split
    · exact nofun
    · exact hproceed nofun preview

theorem declineResponse_ne_notFound {x : ChatInvitationRow}
    (hfound : db.chatInvitation? (host.hashToken token) now = some x) :
    (declineResponse host actor token now).run db ≠ .error .notFound := by
  intro hrun
  simp only [declineResponse, bind_error, read_error, read_ok,
    demand_error, demand_ok, false_or] at hrun
  obtain ⟨_, _, ⟨rfl, rfl⟩, ⟨hnone, -⟩ | ⟨_, _, -, hinsert⟩⟩ := hrun
  · rw [hfound] at hnone
    cases hnone
  · exact Sql.insert_never _ hinsert

theorem declineResponse_frame :
    Frame (fun db : Db => (db.users, db.circles, db.chatInvitations))
      (declineResponse host actor token now) :=
  .look fun _ => .bind .demand fun _ => Sql.insert_frame fun _ => rfl

theorem Sql.insertOrIgnore_never {present taken resolves : Db → Bool} {put : Db → Db} :
    Never .notFound (Sql.insertOrIgnore present taken resolves put) := by
  intro db h
  rcases (Sql.insertOrIgnore_error.1 h).2 with ⟨-, h⟩ | ⟨-, -, h⟩
  · cases h
  · cases h

variable {id : ChannelId} {target : InvitationTarget}

theorem acceptTarget_never : Never .notFound (acceptTarget actor id now target) := by
  cases target with
  | circle k =>
    exact .bind Sql.insertOrIgnore_never fun _ => .bind .read fun _ =>
      .bind Sql.insertOrIgnore_never fun _ => .pure
  | channel k c => exact .bind .read fun _ => .bind (.ensure nofun) fun _ => .pure

theorem acceptChatInvitation_never :
    Never .notFound (acceptChatInvitation host actor token target id now) :=
  .bind .read fun _ => .bind (.demand nofun) fun _ => .bind (acceptTarget_never)
    fun _ => .bind Sql.insertOrIgnore_never fun _ => .bind .write fun _ =>
      .bind .read fun _ => .demand nofun

theorem Issued.decline_valid_iff (h : Issued db (host.hashToken token) r) (actor : UserId) :
    TakenAsValid (declineChatInvitation host actor token now db).1 ↔
      afterCurrentTimestamp r.expiresAt now = true := by
  refine h.answer_valid_iff fun hafter _ => ?_
  have hfound := h.chatInvitation? now
  rw [if_pos hafter] at hfound
  rcases commit_cases (declineResponse host actor token now) db with
    ⟨_, db', hrun, hcommit⟩ | ⟨e, hrun, hcommit⟩
  · -- the second look finds the invitation as the first one did
    rw [hcommit]
    exact ((h.congr (declineResponse_frame hrun)).load_valid_iff actor).2 hafter
  · rw [hcommit]
    rintro ⟨rfl⟩
    exact declineResponse_ne_notFound hfound hrun

theorem Issued.accept_valid_iff (h : Issued db (host.hashToken token) r) :
    TakenAsValid (acceptPreviewed host actor token now id db).1 ↔
      afterCurrentTimestamp r.expiresAt now = true := by
  refine h.answer_valid_iff fun _ preview => ?_
  rcases commit_cases (acceptChatInvitation host actor token preview.target id now) db with
    ⟨_, db', -, hcommit⟩ | ⟨e, hrun, hcommit⟩
  · rw [hcommit]
    exact nofun
  · rw [hcommit]
    rintro ⟨rfl⟩
    exact acceptChatInvitation_never db hrun

/-- Days go by the day and instants do not: they disagree from the end of an invitation to the
end of that day. -/
theorem afterCurrentTimestamp_eq_lt_iff {expiresAt : Time} :
    (afterCurrentTimestamp expiresAt now = true ↔ now < expiresAt) ↔
      now < expiresAt ∨ expiresAt / day < now / day := by
  have hmono : now < expiresAt → now / day ≤ expiresAt / day := fun hlt =>
    Int.ediv_le_ediv (by decide) (Int.le_of_lt hlt)
  rw [afterCurrentTimestamp, decide_eq_true_eq, ← Int.not_le (a := now / day)]
  tauto

/-- The three calls go by an invitation exactly until it expires, provided that it has not
expired earlier on the same day. -/
theorem invitation_valid_until_expiry_iff (h : Issued db (host.hashToken token) r)
    (hexpires : FourDigitYear r.expiresAt) (hnow : FourDigitYear now) (actor : UserId)
    (id : ChannelId) :
    (afterCurrentTimestamp r.expiresAt now = true ↔
        currentTimestamp now < rfc3339 r.expiresAt) ∧
      (((TakenAsValid (inspectChatInvitation host actor token now db) ↔ now < r.expiresAt) ∧
          (TakenAsValid (declineChatInvitation host actor token now db).1 ↔ now < r.expiresAt) ∧
          (TakenAsValid (acceptPreviewed host actor token now id db).1 ↔ now < r.expiresAt)) ↔
        now < r.expiresAt ∨ r.expiresAt / day < now / day) := by
  refine ⟨?_, ?_⟩
  · rw [afterCurrentTimestamp, decide_eq_true_eq, currentTimestamp_lt_rfc3339_iff hnow hexpires]
  rw [inspectChatInvitation, h.load_valid_iff actor, h.decline_valid_iff actor,
    h.accept_valid_iff, and_self, and_self]
  exact afterCurrentTimestamp_eq_lt_iff

end

/-! ### An invitation that ends at ten in the morning -/

namespace Sample

def morning : Time := 1794132000 * 1000000000

def weekly : ChatInvitationRow := chatInvitation host alice (.circle circle) 7 "token" morning

def invitedForAWeek : Db := ((insertChatInvitation weekly).commit db).2

def anHourLate : Time := weekly.expiresAt + 3600 * 1000000000

def aDayLate : Time := weekly.expiresAt + day

theorem invitedForAWeek_issued : Issued invitedForAWeek (host.hashToken "token") weekly := by
  have hnone : (db.chatInvitations.map (·.tokenHash)).Nodup := nodup_nil
  have hrun : (insertChatInvitation weekly).run db = .ok ((), invitedForAWeek) := rfl
  exact insertChatInvitation_issued hnone hrun

end Sample

open Sample in
theorem invitation_valid_until_expiry_iff_next_day :
    (TakenAsValid (inspectChatInvitation host bob "token" aDayLate invitedForAWeek) ↔
        aDayLate < weekly.expiresAt) ∧
      (TakenAsValid (declineChatInvitation host bob "token" aDayLate invitedForAWeek).1 ↔
        aDayLate < weekly.expiresAt) ∧
      (TakenAsValid (acceptPreviewed host bob "token" aDayLate ⟨9⟩ invitedForAWeek).1 ↔
        aDayLate < weekly.expiresAt) :=
  (invitation_valid_until_expiry_iff invitedForAWeek_issued (by decide) (by decide) bob ⟨9⟩).2.2
    (.inr (by decide))

open Sample in
/-- An hour after the end the invitation is shown, declined and accepted. -/
theorem invitation_outlives_its_expiry :
    weekly.expiresAt < anHourLate ∧
      currentTimestamp anHourLate < rfc3339 weekly.expiresAt ∧
      (inspectChatInvitation host bob "token" anHourLate invitedForAWeek).isOk = true ∧
      (declineChatInvitation host bob "token" anHourLate invitedForAWeek).1.isOk = true ∧
      (acceptPreviewed host bob "token" anHourLate ⟨9⟩ invitedForAWeek).1.isOk = true ∧
      (acceptPreviewed host bob "token" anHourLate ⟨9⟩ invitedForAWeek).2.inCircle circle bob =
        true :=
  ⟨by decide, (currentTimestamp_lt_rfc3339_iff (by decide) (by decide)).2 (by decide), by decide,
    by decide, by decide, by decide⟩

end Sproyt
