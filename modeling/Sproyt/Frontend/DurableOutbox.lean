import Sproyt.Db.JsonText
import Sproyt.Lib.Run
import Sproyt.Lib.Upsert

/-!
# The durable outbox of the browser

What a user has sent and the server has not yet acknowledged is kept in a journal, so that it
can be sent again after a reload. The outbox holds the journal of the current user in memory.
Its calls are asynchronous: a call runs up to its storage operation, the operation acts some
time later, and some time after that the call goes on and answers. In between, other calls run.

The storage is any implementation of `DurableOutboxStorage` that keeps one entry for each user
and request id; nothing is said about the order in which it lists entries.
-/

namespace Sproyt

/-! ### Entries -/

structure DurableMedia where
  id : String
  contentType : String
  originalFilename : String
deriving DecidableEq

structure SendInput where
  requestId : String
  channelId : String
  parentMessageId : Option String
  body : String
  draft : String
  media : List DurableMedia
  shareTarget : Bool
deriving DecidableEq

/-- An entry of version 1 that has not been attempted again. -/
structure DurableSend extends SendInput where
  userId : String
  createdAt : Int
deriving DecidableEq

def SendInput.entry (input : SendInput) (owner : String) (now : Int) : DurableSend :=
  { input with userId := owner, createdAt := now }

def maxEntries : Nat := 20

def maxBytes : Nat := 1024 * 1024

def maxAgeMs : Int := 7 * 24 * 60 * 60 * 1000

def DurableMedia.text (m : DurableMedia) : List Char :=
  "\x7b\"id\":\"".toList ++ (stringText m.id ++
  (",\"contentType\":\"".toList ++ (stringText m.contentType ++
  (",\"originalFilename\":\"".toList ++ (stringText m.originalFilename ++ "\x7d".toList)))))

namespace DurableSend

def key (e : DurableSend) : String × String := (e.userId, e.requestId)

/-- `JSON.stringify`. -/
def text (e : DurableSend) : List Char :=
  "\x7b\"requestId\":\"".toList ++ (stringText e.requestId ++
  (",\"channelId\":\"".toList ++ (stringText e.channelId ++
  (",\"parentMessageId\":".toList ++
    (e.parentMessageId.elim "null".toList (fun p => '"' :: stringText p) ++
  (",\"body\":\"".toList ++ (stringText e.body ++
  (",\"draft\":\"".toList ++ (stringText e.draft ++
  (",\"media\":[".toList ++ ([','].intercalate (e.media.map DurableMedia.text) ++
  ((if e.shareTarget then "],\"source\":\"share-target\"" else "]").toList ++
  (",\"version\":1,\"userId\":\"".toList ++ (stringText e.userId ++
  (",\"createdAt\":".toList ++ ((if e.createdAt < 0 then ['-'] else []) ++
    (numberText e.createdAt.natAbs ++ ",\"attempts\":0\x7d".toList)))))))))))))))))

def entryBytes (e : DurableSend) : Nat := String.utf8Len e.text

end DurableSend

inductive DurableOutboxProblem
  | unavailable
  | capacity
  | identity
deriving DecidableEq, Repr

structure DurableOutboxError where
  problem : DurableOutboxProblem
  message : String
deriving DecidableEq

def notSignedIn : DurableOutboxError :=
  ⟨.unavailable, "Ventar på innlogging før meldinga kan lagrast."⟩

def entryTooLarge : DurableOutboxError :=
  ⟨.capacity, "Meldinga er for stor til trygg mellombels lagring."⟩

def journalFull : DurableOutboxError :=
  ⟨.capacity, "Det ligg for mange usende meldingar. Opne att appen og avklar dei først."⟩

def userChanged : DurableOutboxError :=
  ⟨.identity, "Innlogginga vart endra medan meldinga blei lagra. Meldinga vart ikkje send."⟩

/-! ### The outbox -/

/-- `entries` is a map from request ids, in the order of insertion. A load is known by the
generation it was started in. -/
structure DurableOutbox where
  userId : Option String := none
  entries : List DurableSend := []
  generation : Nat := 0
  loading : Option Nat := none
  removed : List String := []
deriving DecidableEq

/-- A call that waits for its storage operation. The last one is no call: a load does not wait
for the deletion of what is too old. -/
inductive Operation
  | load (user : String) (generation : Nat)
  | enqueue (entry : DurableSend) (generation : Nat)
  | acknowledge (owner requestId : String) (generation : Nat)
  | permanentFailure (owner requestId : String) (generation : Nat) (entry : Option DurableSend)
  | safeDelete (entry : DurableSend) (generation : Nat)
deriving DecidableEq

inductive OutboxCall
  | setUser (user : Option String)
  | enqueue (input : SendInput)
  | acknowledge (requestId : String)
  | permanentFailure (requestId : String)
  | pending
deriving DecidableEq

inductive OutboxAnswer
  | entries (entries : List DurableSend)
  | entry (entry : DurableSend)
  | dropped (entry : Option DurableSend)
  | done
  | error (error : DurableOutboxError)
deriving DecidableEq

/-- A user that is there in the sense of `if (userId)`: the empty text is not. -/
def signedIn (user : Option String) : Option String := user.filter (· ≠ "")

def byAge (entries : List DurableSend) : List DurableSend :=
  entries.mergeSort fun left right => left.createdAt ≤ right.createdAt

/-- What the loop over the loaded entries has led to: the map, the entries that were too old,
and whether the loop was left because the journal is full. -/
structure Loaded where
  entries : List DurableSend
  expired : List DurableSend
  full : Bool

variable {answer : Option OutboxAnswer}

namespace DurableOutbox

/-- The loop of a load: `bytes` is what the entries so far take. -/
def fill (user : String) (cutoff : Int) (removed : List String) :
    List DurableSend → Nat → List DurableSend → Loaded
  | [], _, entries => ⟨entries, [], false⟩
  | e :: rest, bytes, entries =>
    if e.userId ≠ user then fill user cutoff removed rest bytes entries
    else if e.createdAt < cutoff then
      let loaded := fill user cutoff removed rest bytes entries
      { loaded with expired := e :: loaded.expired }
    else if e.requestId ∈ removed then fill user cutoff removed rest bytes entries
    else if maxEntries ≤ entries.length ∨ maxBytes < bytes + e.entryBytes then ⟨entries, [], true⟩
    else
      fill user cutoff removed rest (bytes + e.entryBytes)
        (Table.put (·.requestId) e entries)

variable (o : DurableOutbox) (now : Int)

/-- Takes a request id out of the map, for good as far as a load in progress is concerned. -/
def drop (requestId : String) : DurableOutbox :=
  { o with
    removed := requestId :: o.removed
    entries := Table.erase (·.requestId) requestId o.entries }

def setUser (user : Option String) : DurableOutbox × List Operation × Option OutboxAnswer :=
  if user = o.userId then
    (o, [], if o.loading = none then some (.entries (byAge o.entries)) else none)
  else
    let next := { o with userId := user, entries := [], removed := [],
                         generation := o.generation + 1 }
    match signedIn user with
    | none => (next, [], some (.entries []))
    | some nextUser =>
      ({ next with loading := some next.generation }, [.load nextUser next.generation], none)

def enqueue (input : SendInput) : DurableOutbox × List Operation × Option OutboxAnswer :=
  match signedIn o.userId with
  | none => (o, [], some (.error notSignedIn))
  | some owner =>
    let entry := input.entry owner now
    if maxBytes < entry.entryBytes then (o, [], some (.error entryTooLarge))
    else if maxEntries ≤ o.entries.length ∨
        maxBytes < o.entries.foldl (fun sum item => sum + item.entryBytes) entry.entryBytes then
      (o, [], some (.error journalFull))
    else (o, [.enqueue entry o.generation], none)

def acknowledge (requestId : String) : DurableOutbox × List Operation × Option OutboxAnswer :=
  match signedIn o.userId with
  | none => (o.drop requestId, [], some .done)
  | some owner => (o, [.acknowledge owner requestId o.generation], none)

def permanentFailure (requestId : String) :
    DurableOutbox × List Operation × Option OutboxAnswer :=
  let entry := o.entries.find? (·.requestId = requestId)
  match signedIn o.userId with
  | none => (o.drop requestId, [], some (.dropped entry))
  | some owner =>
    (o.drop requestId, [.permanentFailure owner requestId o.generation entry], none)

/-- A call up to its storage operation: the outbox afterwards, the operation, if one is issued,
and the answer, if the call is over. -/
def call : OutboxCall → DurableOutbox × List Operation × Option OutboxAnswer
  | .setUser user => o.setUser user
  | .enqueue input => o.enqueue now input
  | .acknowledge requestId => o.acknowledge requestId
  | .permanentFailure requestId => o.permanentFailure requestId
  | .pending => (o, [], some (.entries (byAge o.entries)))

/-- `load.finally`: the load is over. -/
def settleLoad (generation : Nat) : DurableOutbox :=
  { o with loading := if o.loading = some generation then none else o.loading }

def resumeLoad (user : String) (generation : Nat) (listed : List DurableSend) :
    DurableOutbox × List Operation × OutboxAnswer :=
  if generation ≠ o.generation ∨ o.userId ≠ some user then (o, [], .entries o.entries)
  else
    let loaded := fill user (now - maxAgeMs) o.removed listed 0 o.entries
    ({ o with entries := loaded.entries }, loaded.expired.map (.safeDelete · o.generation),
      if loaded.full then .error journalFull else .entries (byAge loaded.entries))

/-- A call from its storage operation on; `listed` is what the operation has listed. -/
def resume (listed : List DurableSend) :
    Operation → DurableOutbox × List Operation × OutboxAnswer
  | .load user generation => (o.settleLoad generation).resumeLoad now user generation listed
  | .enqueue entry generation =>
    if generation ≠ o.generation ∨ o.userId ≠ some entry.userId then (o, [], .error userChanged)
    else ({ o with entries := Table.put (·.requestId) entry o.entries }, [], .entry entry)
  | .acknowledge owner requestId generation =>
    (if generation ≠ o.generation ∨ o.userId ≠ some owner then o else o.drop requestId, [], .done)
  | .permanentFailure _ _ _ entry => (o, [], .dropped entry)
  | .safeDelete _ _ => (o, [], .done)

/-! ### What calls do -/

/-- What a call can do up to its storage operation: the outbox afterwards, the operation and the
answer. -/
inductive Calls (o : DurableOutbox) (now : Int) :
    OutboxCall → DurableOutbox → List Operation → Option OutboxAnswer → Prop
  | same {user : Option String} (huser : user = o.userId) :
      Calls o now (.setUser user) o []
        (if o.loading = none then some (.entries (byAge o.entries)) else none)
  | left {user : Option String} (hne : user ≠ o.userId) (hnone : signedIn user = none) :
      Calls o now (.setUser user) ⟨user, [], o.generation + 1, o.loading, []⟩ []
        (some (.entries []))
  | entered {user : Option String} {next : String} (hne : user ≠ o.userId)
      (hnext : signedIn user = some next) :
      Calls o now (.setUser user) ⟨user, [], o.generation + 1, some (o.generation + 1), []⟩
        [.load next (o.generation + 1)] none
  | refused {input : SendInput} {error : DurableOutboxError} :
      Calls o now (.enqueue input) o [] (some (.error error))
  | offered {input : SendInput} {owner : String} (howner : signedIn o.userId = some owner)
      (hlength : o.entries.length < maxEntries)
      (hbytes : o.entries.foldl (fun sum item => sum + item.entryBytes)
        (input.entry owner now).entryBytes ≤ maxBytes) :
      Calls o now (.enqueue input) o [.enqueue (input.entry owner now) o.generation] none
  | acknowledging {owner requestId : String} (howner : signedIn o.userId = some owner) :
      Calls o now (.acknowledge requestId) o [.acknowledge owner requestId o.generation] none
  | unowned {requestId : String} (hnone : signedIn o.userId = none) :
      Calls o now (.acknowledge requestId) (o.drop requestId) [] (some .done)
  | failing {owner requestId : String} {entry : Option DurableSend}
      (howner : signedIn o.userId = some owner) :
      Calls o now (.permanentFailure requestId) (o.drop requestId)
        [.permanentFailure owner requestId o.generation entry] none
  | failed {requestId : String} {entry : Option DurableSend} (hnone : signedIn o.userId = none) :
      Calls o now (.permanentFailure requestId) (o.drop requestId) [] (some (.dropped entry))
  | pending : Calls o now .pending o [] (some (.entries (byAge o.entries)))

/-- What becomes of the outbox when a call goes on, and what is deleted. -/
inductive Resumes (o : DurableOutbox) (now : Int) (listed : List DurableSend) :
    Operation → DurableOutbox → List Operation → OutboxAnswer → Prop
  | superseded {user : String} {g : Nat} (h : ¬ (g = o.generation ∧ o.userId = some user)) :
      Resumes o now listed (.load user g) (o.settleLoad g) [] (.entries o.entries)
  | loaded {user : String} {loaded : Loaded} (huser : o.userId = some user)
      (hloaded : loaded = fill user (now - maxAgeMs) o.removed listed 0 o.entries) :
      Resumes o now listed (.load user o.generation)
        { o.settleLoad o.generation with entries := loaded.entries }
        (loaded.expired.map (.safeDelete · o.generation))
        (if loaded.full then .error journalFull else .entries (byAge loaded.entries))
  | changed {e : DurableSend} {g : Nat} (h : ¬ (g = o.generation ∧ o.userId = some e.userId)) :
      Resumes o now listed (.enqueue e g) o [] (.error userChanged)
  | enqueued {e : DurableSend} (huser : o.userId = some e.userId) :
      Resumes o now listed (.enqueue e o.generation)
        { o with entries := Table.put (·.requestId) e o.entries } [] (.entry e)
  | late {owner requestId : String} {g : Nat}
      (h : ¬ (g = o.generation ∧ o.userId = some owner)) :
      Resumes o now listed (.acknowledge owner requestId g) o [] .done
  | acknowledged {owner requestId : String} (huser : o.userId = some owner) :
      Resumes o now listed (.acknowledge owner requestId o.generation) (o.drop requestId) [] .done
  | failed {owner requestId : String} {g : Nat} {entry : Option DurableSend} :
      Resumes o now listed (.permanentFailure owner requestId g entry) o [] (.dropped entry)
  | deleted {e : DurableSend} {g : Nat} : Resumes o now listed (.safeDelete e g) o [] .done

variable {o o' : DurableOutbox} {now : Int} {c : OutboxCall} {op : Operation}
  {ops : List Operation} {listed : List DurableSend}

theorem call_enqueue {input : SendInput} (h : o.enqueue now input = (o', ops, answer)) :
    Calls o now (.enqueue input) o' ops answer := by
  unfold enqueue at h
  cases howner : signedIn o.userId with
  | none =>
    rw [howner] at h
    cases h
    exact .refused
  | some owner =>
    rw [howner] at h
    dsimp only at h
    split at h
    · cases h
      exact .refused
    · split at h
      · cases h
        exact .refused
      · rename_i hroom
        cases h
        obtain ⟨hlength, hbytes⟩ := not_or.1 hroom
        exact .offered howner (Nat.lt_of_not_le hlength) (Nat.le_of_not_lt hbytes)

theorem call_setUser {user : Option String} (h : o.setUser user = (o', ops, answer)) : Calls o now
    (.setUser user) o' ops answer := by
  unfold setUser at h
  by_cases huser : user = o.userId
  · rw [if_pos huser] at h
    cases h
    exact .same huser
  · rw [if_neg huser] at h
    cases hnext : signedIn user with
    | none =>
      rw [hnext] at h
      cases h
      exact .left huser hnext
    | some next =>
      rw [hnext] at h
      cases h
      exact .entered huser hnext

theorem call_spec (h : o.call now c = (o', ops, answer)) : Calls o now c o' ops answer := by
  cases c with
  | setUser user => exact call_setUser h
  | enqueue input => exact call_enqueue h
  | acknowledge requestId =>
    unfold call acknowledge at h
    cases howner : signedIn o.userId <;> rw [howner] at h <;> cases h
    · exact .unowned howner
    · exact .acknowledging howner
  | permanentFailure requestId =>
    unfold call permanentFailure at h
    dsimp only at h
    cases howner : signedIn o.userId <;> rw [howner] at h <;> cases h
    · exact .failed howner
    · exact .failing howner
  | pending =>
    cases h
    exact .pending

theorem resume_load {user : String} {g : Nat} {answer : OutboxAnswer}
    (h : o.resume now listed (.load user g) = (o', ops, answer)) :
    Resumes o now listed (.load user g) o' ops answer := by
  by_cases hg : g = o.generation ∧ o.userId = some user
  · obtain ⟨rfl, huser⟩ := hg
    have hif : ¬ (o.generation ≠ (o.settleLoad o.generation).generation ∨
        (o.settleLoad o.generation).userId ≠ some user) :=
      fun hne => hne.elim (fun hne => hne rfl) fun hne => hne huser
    rw [resume, resumeLoad, if_neg hif] at h
    cases h
    exact .loaded huser rfl
  · have hif : g ≠ (o.settleLoad g).generation ∨ (o.settleLoad g).userId ≠ some user :=
      not_and_or.1 hg
    rw [resume, resumeLoad, if_pos hif] at h
    cases h
    exact .superseded hg

theorem resume_spec {answer : OutboxAnswer} (h : o.resume now listed op = (o', ops, answer)) :
    Resumes o now listed op o' ops answer := by
  cases op with
  | load user g => exact resume_load h
  | enqueue e g =>
    rw [resume] at h
    by_cases hg : g = o.generation ∧ o.userId = some e.userId
    · rw [if_neg fun hne => hne.elim (fun hne => hne hg.1) fun hne => hne hg.2] at h
      obtain ⟨rfl, huser⟩ := hg
      cases h
      exact .enqueued huser
    · rw [if_pos (not_and_or.1 hg)] at h
      cases h
      exact .changed hg
  | acknowledge owner requestId g =>
    rw [resume] at h
    by_cases hg : g = o.generation ∧ o.userId = some owner
    · rw [if_neg fun hne => hne.elim (fun hne => hne hg.1) fun hne => hne hg.2] at h
      obtain ⟨rfl, huser⟩ := hg
      cases h
      exact .acknowledged huser
    · rw [if_pos (not_and_or.1 hg)] at h
      cases h
      exact .late hg
  | permanentFailure owner requestId g entry =>
    cases h
    exact .failed
  | safeDelete e g =>
    cases h
    exact .deleted

end DurableOutbox

/-! ### The storage and the calls in between -/

namespace Operation

def generation : Operation → Nat
  | .load _ g | .enqueue _ g | .acknowledge _ _ g | .permanentFailure _ _ g _ | .safeDelete _ g => g

def act (journal : List DurableSend) : Operation → List DurableSend
  | .load _ _ => journal
  | .enqueue entry _ => Table.put DurableSend.key entry journal
  | .acknowledge owner requestId _ | .permanentFailure owner requestId _ _ =>
    Table.erase DurableSend.key (owner, requestId) journal
  | .safeDelete entry _ => Table.erase DurableSend.key entry.key journal

/-- What the operation may answer; only `list` answers anything. -/
def Lists (journal listed : List DurableSend) : Operation → Prop
  | .load user _ => listed.Perm (journal.filter (·.userId = user))
  | _ => listed = []

end Operation

structure OutboxWorld where
  outbox : DurableOutbox := {}
  journal : List DurableSend := []
  clock : Int := 0
  issued : List Operation := []
  acted : List (Operation × List DurableSend) := []

def OutboxWorld.outstanding (w : OutboxWorld) : List Operation := w.issued ++ w.acted.map (·.1)

/-- An operation that acts is recorded with the number of those that were issued before it and
have not acted. -/
inductive OutboxLabel
  | called (call : OutboxCall) (answer : Option OutboxAnswer)
  | acted (ahead : Nat)
  | settled (operation : Operation) (answer : OutboxAnswer)
  | ticked (now : Int)

inductive OutboxStep : OutboxWorld → OutboxLabel → OutboxWorld → Prop
  | call {w : OutboxWorld} {c : OutboxCall} {o : DurableOutbox} {ops : List Operation}
      {answer : Option OutboxAnswer} (h : w.outbox.call w.clock c = (o, ops, answer)) :
      OutboxStep w (.called c answer) { w with outbox := o, issued := w.issued ++ ops }
  | act {w : OutboxWorld} {before after : List Operation} {op : Operation}
      {listed : List DurableSend} (hissued : w.issued = before ++ op :: after)
      (hlisted : op.Lists w.journal listed) :
      OutboxStep w (.acted before.length)
        { w with journal := op.act w.journal, issued := before ++ after,
                 acted := w.acted ++ [(op, listed)] }
  | settle {w : OutboxWorld} {before after : List (Operation × List DurableSend)}
      {op : Operation} {listed : List DurableSend} {o : DurableOutbox} {ops : List Operation}
      {answer : OutboxAnswer} (hacted : w.acted = before ++ (op, listed) :: after)
      (h : w.outbox.resume w.clock listed op = (o, ops, answer)) :
      OutboxStep w (.settled op answer)
        { w with outbox := o, issued := w.issued ++ ops, acted := before ++ after }
  | tick {w : OutboxWorld} (now : Int) : OutboxStep w (.ticked now) { w with clock := now }

end Sproyt
