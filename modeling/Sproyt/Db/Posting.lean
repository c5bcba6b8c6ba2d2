import Sproyt.Db.Messages

/-!
# What sending a message changes

One lemma for each operation that writes messages says what a successful run has done. The
results about runs use these lemmas and do not open the operations again.
-/

namespace Sproyt

variable {c : ChannelId} {command : SendMessage} {env : SendEnv} {requestId : String}

open List Txn

variable {host : Host} {db db' : Db} {m : ChatMessage}

def Db.ledger (db : Db) : List Channel × List SequenceRow × List ChatMessage :=
  (db.channels, db.channelSequences, db.messages)

def Rooted (messages : List ChatMessage) (m : ChatMessage) : Prop :=
  ∀ p, m.parentMessageId = some p → ∃ r ∈ messages, r.id = p ∧ r.channelId = m.channelId ∧
    r.parentMessageId = none ∧ r.deletedAt = none

/-- The message took the next number of its channel and went to the end of the table. -/
structure Posted (db : Db) (m : ChatMessage) (db' : Db) : Prop where
  sequence : (db.channelSequences.find? fun r => r.channelId = m.channelId).map
    (·.nextSequence) = some m.sequence
  fresh : ∀ r ∈ db.messages, r.id ≠ m.id
  placed : db.hasChannel m.channelId = true
  rooted : Rooted db.messages m
  ledger : db'.ledger =
    (db.channels, bumpRows m.channelId db.channelSequences, db.messages ++ [m])

theorem Posted.channels (h : Posted db m db') : db'.channels = db.channels :=
  congrArg Prod.fst h.ledger

theorem Posted.channelSequences (h : Posted db m db') :
    db'.channelSequences = bumpRows m.channelId db.channelSequences :=
  congrArg (·.2.1) h.ledger

theorem Posted.messages (h : Posted db m db') : db'.messages = db.messages ++ [m] :=
  congrArg (·.2.2) h.ledger

theorem Posted.of_ledger {db₁ db₂ : Db} (h : Posted db₁ m db₂) (h₁ : db₁.ledger = db.ledger)
    (h₂ : db'.ledger = db₂.ledger) : Posted db m db' := by
  simp only [Db.ledger, Prod.mk.injEq] at h₁
  obtain ⟨hc, hs, hm⟩ := h₁
  refine ⟨hs ▸ h.sequence, hm ▸ h.fresh, ?_, hm ▸ h.rooted, ?_⟩
  · simpa only [Db.hasChannel, hc] using h.placed
  · rw [h₂, h.ledger, hc, hs, hm]

theorem posted_of_insert (hseq : (db.channelSequences.find? fun r => r.channelId = m.channelId).map
      (·.nextSequence) = some m.sequence)
    (hfree : (db.messages.any fun r =>
      r.id = m.id ∨ (r.channelId = m.channelId ∧ r.sequence = m.sequence)) = false)
    (hplaced : db.hasChannel m.channelId = true) (hrooted : Rooted db.messages m)
    (hledger : db'.ledger =
      (db.channels, bumpRows m.channelId db.channelSequences, db.messages ++ [m])) :
    Posted db m db' := by
  refine ⟨hseq, ?_, hplaced, hrooted, hledger⟩
  intro r hr heq
  have hnone := any_eq_false.1 hfree r hr
  simp [heq] at hnone

def Db.attachable (db : Db) (u : UserId) (c : ChannelId) (id : MediaId) : Bool :=
  (db.mediaObjects.any fun r => r.id = id ∧ r.ownerId = u ∧ r.channelId = c) &&
    !db.messageAttachments.any fun r => r.mediaId = id

def attachmentRow (m : MessageId) (entry : MediaId × Nat) : AttachmentRow :=
  ⟨m, entry.1, entry.2⟩

variable {u : Unit}

theorem attachMedia_ok {entry : MediaId × Nat} (h : (attachMedia m entry).run db = .ok (u, db')) :
    db.attachable m.senderId m.channelId entry.1 = true ∧
      db' = { db with
        messageAttachments := db.messageAttachments ++ [attachmentRow m.id entry] } := by
  simp only [attachMedia, Sql.answers, answers] at h
  obtain ⟨hfree, -, -, rfl⟩ := h
  exact ⟨hfree, rfl⟩

theorem attachAll_ok {entries : List (MediaId × Nat)}
    (h : (Txn.forEach (attachMedia m) entries).run db = .ok (u, db')) :
    (∀ e ∈ entries, db.attachable m.senderId m.channelId e.1 = true) ∧
      db' = { db with
        messageAttachments := db.messageAttachments ++ entries.map (attachmentRow m.id) } := by
  induction entries generalizing db with
  | nil =>
    obtain ⟨-, rfl⟩ := pure_ok.1 h
    refine ⟨fun e he => absurd he not_mem_nil, ?_⟩
    rw [map_nil, append_nil]
  | cons e entries ih =>
    obtain ⟨_, db₁, hfirst, hrest⟩ := bind_ok.1 h
    obtain ⟨hfree, rfl⟩ := attachMedia_ok hfirst
    obtain ⟨hothers, rfl⟩ := ih hrest
    refine ⟨fun x hx => ?_, ?_⟩
    · rcases mem_cons.1 hx with rfl | hx
      · exact hfree
      · have hother := hothers x hx
        simp only [Db.attachable, any_append, Bool.not_or, Bool.and_eq_true] at hother ⊢
        exact ⟨hother.1, hother.2.1⟩
    · simp only [map_cons, append_assoc, singleton_append]

theorem persistAttachments_ok (h : (persistAttachments host m).run db = .ok (u, db')) :
    ∃ ids, mediaIdsFromBody host m.body = .ok ids ∧
      (∀ id ∈ ids, db.attachable m.senderId m.channelId id = true) ∧
      db' = { db with
        messageAttachments := db.messageAttachments ++ ids.zipIdx.map (attachmentRow m.id) } := by
  obtain ⟨ids, _, hscan, hattach⟩ := bind_ok.1 h
  obtain ⟨hids, rfl⟩ := ofExcept_ok.1 hscan
  obtain ⟨hfree, rfl⟩ := attachAll_ok hattach
  refine ⟨ids, hids, fun id hid => ?_, rfl⟩
  obtain ⟨k, hk⟩ := mem_iff_getElem?.1 hid
  exact hfree (id, k) (mk_mem_zipIdx_iff_getElem?.2 hk)

theorem validateThreadParent_ok {parent : Option MessageId}
    (h : (validateThreadParent c parent).run db = .ok (u, db')) :
    db = db' ∧ ∀ p, parent = some p → ∃ r ∈ db.messages, r.id = p ∧ r.channelId = c ∧
      r.parentMessageId = none ∧ r.deletedAt = none := by
  cases parent with
  | none => exact ⟨(pure_ok.1 h).2, fun p hp => by cases hp⟩
  | some parent =>
    simp only [validateThreadParent, answers] at h
    obtain ⟨row, hfind, hroot, rfl⟩ := h
    have hrow := find?_some hfind
    rw [decide_eq_true_eq] at hrow
    refine ⟨rfl, fun p hp => ?_⟩
    cases hp
    exact ⟨row, mem_of_find?_eq_some hfind, hrow.1, hrow.2, hroot⟩

/-- A sent message: posted as the command says, with the objects of its body attached, with
mentions and notifications of its own and nothing else changed. -/
structure Appended (host : Host) (command : SendMessage) (env : SendEnv) (db : Db)
    (m : ChatMessage) (db' : Db) : Prop extends Posted db m db' where
  message : m = ⟨env.id, command.channelId, command.parentMessageId, command.actor,
    m.senderDisplayName, command.body, m.sequence, env.now, none, none⟩
  mentions : ∀ r ∈ db'.messageMentions, r.messageId ≠ m.id → r ∈ db.messageMentions
  outbox : ∀ r ∈ db'.notificationOutbox, r.messageId ≠ m.id → r ∈ db.notificationOutbox
  attachments : ∃ ids, mediaIdsFromBody host command.body = .ok ids ∧
    (∀ id ∈ ids, db.attachable command.actor command.channelId id = true) ∧
    db'.messageAttachments = db.messageAttachments ++ ids.zipIdx.map (attachmentRow m.id)
  rest : db' = { db with
    channelSequences := db'.channelSequences
    messages := db'.messages
    messageMentions := db'.messageMentions
    messageAttachments := db'.messageAttachments
    notificationOutbox := db'.notificationOutbox }

theorem appendChecked_ok (h : (appendChecked host command env).run db = .ok (m, db')) :
    Appended host command env db m db' := by
  simp only [appendChecked, Sql.bumpSequence, senderName, storeMessage, Sql.insertMessage,
    persistMentions, runHook, enqueueMessage, Sql.answers, answers] at h
  obtain ⟨_, db₀, hparent, sequence, hseq, row, -, hfree, hresolves, _, -, _, db₁, hatt, _, -, rfl,
    rfl⟩ := h
  obtain ⟨rfl, hrooted⟩ := validateThreadParent_ok hparent
  obtain ⟨ids, hids, hattachable, rfl⟩ := persistAttachments_ok hatt
  have hplaced : db.hasChannel command.channelId = true := by
    simp only [Bool.and_eq_true] at hresolves
    exact hresolves.1.1
  refine ⟨posted_of_insert hseq hfree hplaced hrooted rfl, rfl, ?_, ?_,
    ⟨ids, hids, hattachable, rfl⟩, rfl⟩
  · intro r hr hne
    rcases mem_append.1 hr with hr | hr
    · exact hr
    · obtain ⟨x, -, rfl⟩ := mem_map.1 hr
      exact absurd rfl hne
  · intro r hr hne
    rcases mem_addToOutbox hr with hr | hr
    · exact hr
    · exact absurd (notifications_messageId hr) hne

theorem requireSender_ok {actor : UserId} (h : (requireSender c actor).run db = .ok (u, db')) :
    db = db' := by
  simp only [requireSender, answers] at h
  exact h.2

theorem appendMessage_ok (h : (appendMessage host command env).run db = .ok (m, db')) :
    Appended host command env db m db' := by
  obtain ⟨_, db₁, hsender, happend⟩ := bind_ok.1 h
  obtain rfl := requireSender_ok hsender
  exact appendChecked_ok happend

theorem authorizeSend_ok (h : (authorizeSend command requestId env).run db = .ok (u, db')) :
    db = db' := by
  unfold authorizeSend at h
  by_cases ha : isAgentRequest requestId = true
  · rw [if_pos ha] at h
    exact (ofExcept_ok.1 h).2
  · rw [if_neg ha] at h
    exact requireSender_ok h

theorem finalizeRequest_ok (h : (finalizeRequest requestId env).run db = .ok (u, db')) :
    db = db' := by
  unfold finalizeRequest at h
  by_cases hi : isImageRequest requestId = true
  · rw [if_pos hi] at h
    exact (ofExcept_ok.1 h).2
  · rw [if_neg hi] at h
    exact (pure_ok.1 h).2

/-- A request id that is new sends the message and settles its receipt; one that is known
answers with its message and changes nothing. -/
theorem appendMessageIdempotent_ok
    (h : (appendMessageIdempotent host command requestId env).run db = .ok (m, db')) :
    (1 ≤ requestId.length ∧ requestId.length ≤ 128) ∧
      ((db.receipt? command.actor requestId = none ∧
          ∃ db₁, Appended host command env (db.reserved command.actor requestId) m db₁ ∧
            db' = db₁.settled command.actor requestId m.id) ∨
        (db' = db ∧ ∃ row, db.receiptMessage? command.actor requestId = some row ∧
          payloadMatches row command = true ∧
          m = { row with editedAt := none, deletedAt := none })) := by
  simp only [appendMessageIdempotent, reserveReceipt, Sql.answers, answers] at h
  obtain ⟨hlength, ⟨-, h⟩ | ⟨habsent, -, -, h⟩⟩ := h
  all_goals refine ⟨hlength, ?_⟩
  · right
    simp only [Bool.false_eq_true, if_false, replayReceipt, answers] at h
    obtain ⟨row, hrow, hmatch, rfl, rfl⟩ := h
    exact ⟨rfl, row, hrow, hmatch, rfl⟩
  · left
    simp only [if_true, sendReserved, settleReceipt, answers] at h
    obtain ⟨_, _, hauth, m', db₁, happend, _, _, hfinal, rfl, rfl⟩ := h
    obtain rfl := authorizeSend_ok hauth
    obtain rfl := finalizeRequest_ok hfinal
    have happ := appendChecked_ok happend
    have hsender : m'.senderId = command.actor := by rw [happ.message]
    rw [hsender]
    exact ⟨Option.isSome_eq_false_iff.1 habsent |> Option.isNone_iff_eq_none.1, db₁, happ, rfl⟩

/-! ### Storing a message finds no row missing -/

theorem storageText_ne_notFound {α : Type} (r : Except TextValidationError α) :
    storageText r ≠ .error .notFound := by
  cases r with
  | ok | error => simp [storageText]

theorem mediaIdsLoop_ne_notFound (fuel : Nat) (rest : List Char)
    (ids : List MediaId) : mediaIdsLoop host fuel rest ids ≠ .error .notFound := by
  induction fuel generalizing rest ids with
  | zero => simp [mediaIdsLoop]
  | succ fuel ih =>
    unfold mediaIdsLoop
    cases afterMarker rest with
    | none => simp
    | some rest =>
      dsimp only
      split
      · simp
      · refine bind_ne_error (storageText_ne_notFound _) fun id => ?_
        split
        · simp
        · exact ih _ _

theorem mediaIdsFromBody_ne_notFound {body : MessageBody} :
    mediaIdsFromBody host body ≠ .error .notFound := by
  refine bind_ne_error (mediaIdsLoop_ne_notFound _ _ _) fun ids => ?_
  split <;> simp

theorem Sql.insert_never {taken resolves : Db → Bool} {put : Db → Db} :
    Never .notFound (Sql.insert taken resolves put) := by
  intro db h
  rcases Sql.insert_error.1 h with ⟨-, h⟩ | ⟨-, -, h⟩
  · cases h
  · cases h

theorem runHook_never {answer : Except HookError Unit} : Never .notFound (runHook answer) := by
  apply Never.ofExcept
  cases answer with
  | ok a => simp
  | error e => cases e <;> simp [HookError.toRepositoryError]

theorem attachMedia_never (entry : MediaId × Nat) : Never .notFound (attachMedia m entry) :=
  .bind .read fun _ => .bind (.ensure (by simp)) fun _ => Sql.insert_never

theorem storeMessage_never : Never .notFound (storeMessage host m env) := by
  refine .bind Sql.insert_never fun _ => .bind .write fun _ => .bind (runHook_never) ?_
  refine fun _ => .bind (.bind (.ofExcept (mediaIdsFromBody_ne_notFound)) fun _ => ?_) fun _ => ?_
  · exact .forEach (attachMedia_never) _
  · exact .bind .write fun _ => .bind (runHook_never) fun _ => .pure

variable {actor : UserId}

theorem requireSender_never : Never .notFound (requireSender c actor) :=
  .bind .read fun _ => .ensure (by simp)

theorem senderName_never : Never .notFound (senderName actor) :=
  .bind .read fun _ => .bind (.demand (by simp [Sql.rowNotFound])) fun _ => .pure

theorem appendMessage_ne_notFound
    (hrow : ∃ r ∈ db.channelSequences, r.channelId = command.channelId)
    (hparent : command.parentMessageId = none) :
    (appendMessage host command env).run db ≠ .error .notFound := by
  have hfound : ∃ r, (db.channelSequences.find? fun r => r.channelId = command.channelId) =
      some r := by
    rw [← Option.isSome_iff_exists, find?_isSome]
    obtain ⟨r, hr, hc⟩ := hrow
    exact ⟨r, hr, by simp [hc]⟩
  obtain ⟨row, hfound⟩ := hfound
  intro h
  rcases bind_error.1 h with h | ⟨_, _, hsender, h⟩
  · exact requireSender_never _ h
  obtain rfl := requireSender_ok hsender
  simp only [appendChecked, hparent, validateThreadParent] at h
  rcases bind_error.1 h with h | ⟨_, _, hpure, h⟩
  · exact pure_error.1 h
  obtain ⟨-, rfl⟩ := pure_ok.1 hpure
  rcases bind_error.1 h with h | ⟨o, _, hbump, h⟩
  · exact Sql.bumpSequence_error.1 h
  obtain ⟨ho, rfl⟩ := Sql.bumpSequence_ok.1 hbump
  -- the counter is there, so what follows starts from a number
  rw [hfound, Option.map_some] at ho
  subst ho
  rcases bind_error.1 h with h | ⟨n, _, -, h⟩
  · exact absurd (demand_error.1 h).1 (by simp)
  exact Never.bind (senderName_never) (fun _ => storeMessage_never) _ h

end Sproyt
