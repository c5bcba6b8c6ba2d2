import Sproyt.Db.Posting
import Sproyt.Lib.Run
import Sproyt.Lib.Table

/-!
# Media in messages

A message carries the media objects that its text names. They are the sender's own, they are in
the channel of the message, and no other message has them. A text that asks for anything else is
not sent.
-/

namespace Sproyt

open List

section

variable {host : Host} {db db' start : Db} {m : ChatMessage} {ids : List MediaId}

/-! ### The tokens of a text -/

theorem afterMarker_length {text rest : List Char} (h : afterMarker text = some rest) :
    rest.length < text.length := by
  induction text with
  | nil => cases h
  | cons c cs ih =>
    rw [afterMarker] at h
    split at h
    · rw [← Option.some.inj h, length_drop]
      have hmarker : mediaMarker.length = 8 := rfl
      rw [hmarker, length_cons]
      omega
    · exact (ih h).trans (Nat.lt_succ_self _)

theorem mediaIdsLoop_enough (fuel : Nat) (text : List Char) (ids : List MediaId)
    (h : text.length ≤ fuel) :
    mediaIdsLoop host (fuel + 1) text ids = mediaIdsLoop host fuel text ids := by
  induction fuel generalizing text ids with
  | zero =>
    rw [length_eq_zero_iff.1 (Nat.le_zero.1 h)]
    rfl
  | succ fuel ih =>
    rw [mediaIdsLoop, mediaIdsLoop]
    cases hmarker : afterMarker text with
    | none => rfl
    | some rest =>
      have hshorter := afterMarker_length hmarker
      have hfits : ((rest.dropWhile (· ≠ '|')).drop 1).length ≤ fuel := by
        have hdrop := (dropWhile_sublist (l := rest) (· ≠ '|')).length_le
        rw [length_drop]
        omega
      simp only [ih _ _ hfits]

theorem mediaIdsLoop_nodup {fuel : Nat} {text : List Char} {found : List MediaId}
    (h : mediaIdsLoop host fuel text found = .ok ids) (hfound : found.Nodup) : ids.Nodup := by
  induction fuel generalizing text found with
  | zero => exact Except.ok.inj h ▸ hfound
  | succ fuel ih =>
    rw [mediaIdsLoop] at h
    cases hmarker : afterMarker text with
    | none =>
      rw [hmarker] at h
      exact Except.ok.inj h ▸ hfound
    | some rest =>
      simp only [hmarker] at h
      split at h
      · cases h
      · cases hid : storageText (parseMediaId host (rest.takeWhile (· ≠ '|'))) with
        | error e =>
          rw [hid] at h
          cases h
        | ok id =>
          simp only [hid, bind, Except.bind] at h
          split at h
          · cases h
          · next hnew =>
            exact ih h (hfound.append (nodup_singleton id) (disjoint_singleton.2 hnew))

theorem mediaIdsFromBody_ok {body : MessageBody} (h : mediaIdsFromBody host body = .ok ids) :
    ids.Nodup ∧ ids.length ≤ 10 := by
  rw [mediaIdsFromBody] at h
  cases hloop : mediaIdsLoop host body.text.toList.length body.text.toList [] with
  | error e =>
    rw [hloop] at h
    cases h
  | ok found =>
    simp only [hloop, bind, Except.bind] at h
    split at h
    · cases h
    · next hfew =>
      obtain rfl := Except.ok.inj h
      exact ⟨mediaIdsLoop_nodup hloop nodup_nil, Nat.le_of_not_lt hfew⟩

/-! ### Sending -/

inductive AppendCall
  | append (command : SendMessage) (env : SendEnv)
  | appendIdempotent (command : SendMessage) (requestId : String) (env : SendEnv)

namespace AppendCall

def command : AppendCall → SendMessage
  | append command _ => command
  | appendIdempotent command _ _ => command

def body (host : Host) : AppendCall → Sql ChatMessage
  | append command env => appendMessage host command env
  | appendIdempotent command requestId env => appendMessageIdempotent host command requestId env

end AppendCall

inductive AppendStep (host : Host) : Db → AppendCall → Db → Prop
  | call {db : Db} (call : AppendCall) : AppendStep host db call ((call.body host).commit db).2

def Db.attachmentsOf (db : Db) (m : MessageId) : List MediaId :=
  (db.messageAttachments.filter fun r => r.messageId = m).map (·.mediaId)

structure Carried (host : Host) (command : SendMessage) (db : Db) (m : ChatMessage)
    (ids : List MediaId) (db' : Db) : Prop where
  message : m.senderId = command.actor ∧ m.channelId = command.channelId ∧ m.body = command.body
  fresh : ∀ r ∈ db.messages, r.id ≠ m.id
  tokens : mediaIdsFromBody host m.body = .ok ids
  attachable : ∀ id ∈ ids, db.attachable m.senderId m.channelId id = true
  messages : db'.messages = db.messages ++ [m]
  attachments : db'.messageAttachments =
    db.messageAttachments ++ ids.zipIdx.map (attachmentRow m.id)
  objects : db'.mediaObjects = db.mediaObjects

variable {command : SendMessage}

theorem Appended.carried {env : SendEnv}
    (h : Appended host command env db m db') : ∃ ids, Carried host command db m ids db' := by
  obtain ⟨ids, hids, hfree, hattachments⟩ := h.attachments
  have hm : m.senderId = command.actor ∧ m.channelId = command.channelId ∧
      m.body = command.body := by
    rw [h.message]
    exact ⟨rfl, rfl, rfl⟩
  refine ⟨ids, hm, h.fresh, hm.2.2 ▸ hids, ?_, h.messages, hattachments, ?_⟩
  · rw [hm.1, hm.2.1]
    exact hfree
  · rw [h.rest]

theorem append_cases {call : AppendCall} :
    ((call.body host).commit db).2 = db ∨
      ∃ m ids, Carried host call.command db m ids ((call.body host).commit db).2 := by
  refine Txn.commit_snd (P := fun db' => db' = db ∨ ∃ m ids, Carried host call.command db m ids db')
    (.inl rfl) fun m db' h => ?_
  cases call with
  | append command env =>
    obtain ⟨ids, hcarried⟩ := (appendMessage_ok h).carried
    exact .inr ⟨m, ids, hcarried⟩
  | appendIdempotent command requestId env =>
    rcases (appendMessageIdempotent_ok h).2 with ⟨-, db₁, happ, rfl⟩ | ⟨rfl, -⟩
    · -- the receipt is reserved and settled in a table of its own
      obtain ⟨ids, hcarried⟩ := happ.carried
      exact .inr ⟨m, ids, hcarried.message, hcarried.fresh, hcarried.tokens, hcarried.attachable,
        hcarried.messages, hcarried.attachments, hcarried.objects⟩
    · exact .inl rfl

/-! ### Attachments over a run -/

/-- What the table of attachments declares: `media_id` is unique and `message_id` references a
message. -/
structure Db.AttachmentsDeclared (db : Db) : Prop where
  unique : (db.messageAttachments.map (·.mediaId)).Nodup
  references : ∀ a ∈ db.messageAttachments, ∃ m ∈ db.messages, m.id = a.messageId

def Db.Carries (db : Db) (host : Host) (m : ChatMessage) : Prop :=
  ∃ ids, mediaIdsFromBody host m.body = .ok ids ∧ db.attachmentsOf m.id = ids ∧
    ∀ id ∈ ids, ∃ o ∈ db.mediaObjects, o.id = id ∧ o.ownerId = m.senderId ∧
      o.channelId = m.channelId

theorem map_mediaId_rows (m : MessageId) :
    (ids.zipIdx.map (attachmentRow m)).map (·.mediaId) = ids := by
  rw [map_map]
  exact zipIdx_map_fst 0 ids

theorem attachmentsOf_append (h : db'.messageAttachments =
    db.messageAttachments ++ ids.zipIdx.map (attachmentRow m.id)) (x : MessageId) :
    db'.attachmentsOf x = db.attachmentsOf x ++ if x = m.id then ids else [] := by
  rw [Db.attachmentsOf, h, filter_append, map_append, Db.attachmentsOf]
  congr 1
  split
  · next heq =>
    rw [filter_eq_self.2 fun r hr => ?_, map_mediaId_rows]
    obtain ⟨e, -, rfl⟩ := mem_map.1 hr
    exact decide_eq_true heq.symm
  · next hne =>
    rw [filter_eq_nil_iff.2 fun r hr => ?_, map_nil]
    obtain ⟨e, -, rfl⟩ := mem_map.1 hr
    rw [decide_eq_true_eq]
    exact fun heq => hne heq.symm

theorem Carried.declared (h : Carried host command db m ids db')
    (hdb : db.AttachmentsDeclared) : db'.AttachmentsDeclared := by
  constructor
  · rw [h.attachments, map_append, map_mediaId_rows]
    refine hdb.unique.append (mediaIdsFromBody_ok h.tokens).1 fun id hold hnew => ?_
    -- an object that can be attached has no row
    obtain ⟨a, ha, rfl⟩ := mem_map.1 hold
    have hfree := (Bool.and_eq_true _ _ ▸ h.attachable _ hnew).2
    rw [Bool.not_eq_true', any_eq_false] at hfree
    exact hfree a ha (decide_eq_true rfl)
  · intro a ha
    rw [h.messages]
    rw [h.attachments, mem_append] at ha
    rcases ha with ha | ha
    · obtain ⟨x, hx, hid⟩ := hdb.references a ha
      exact ⟨x, mem_append_left _ hx, hid⟩
    · obtain ⟨e, -, rfl⟩ := mem_map.1 ha
      exact ⟨m, mem_append_right _ (mem_singleton_self m), rfl⟩

theorem Carried.attachmentsOf_old (h : Carried host command db m ids db')
    {x : ChatMessage} (hx : x ∈ db.messages) : db'.attachmentsOf x.id = db.attachmentsOf x.id := by
  rw [attachmentsOf_append h.attachments, if_neg (h.fresh x hx), append_nil]

theorem Carried.attachmentsOf_new (h : Carried host command db m ids db')
    (hdb : db.AttachmentsDeclared) : db'.attachmentsOf m.id = ids := by
  have hnone : db.attachmentsOf m.id = [] := by
    rw [Db.attachmentsOf, filter_eq_nil_iff.2 fun a ha => ?_, map_nil]
    obtain ⟨x, hx, hid⟩ := hdb.references a ha
    rw [decide_eq_true_eq, ← hid]
    exact h.fresh x hx
  rw [attachmentsOf_append h.attachments, hnone, if_pos rfl, nil_append]

/-- What has come of the attachments since the start of a run. -/
structure SentSince (host : Host) (start db : Db) : Prop where
  declared : db.AttachmentsDeclared
  objects : db.mediaObjects = start.mediaObjects
  sent : ∃ new, db.messages = start.messages ++ new ∧ ∀ m ∈ new, db.Carries host m
  old : ∀ m ∈ start.messages, db.attachmentsOf m.id = start.attachmentsOf m.id

theorem Carried.sentSince (h : Carried host command db m ids db')
    (hdb : SentSince host start db) : SentSince host start db' := by
  obtain ⟨new, hnew, hcarries⟩ := hdb.sent
  refine ⟨h.declared hdb.declared, h.objects.trans hdb.objects, ⟨new ++ [m], ?_, fun x hx => ?_⟩,
    fun x hx => ?_⟩
  · rw [h.messages, hnew, append_assoc]
  · rcases mem_append.1 hx with hx | hx
    · have hmem : x ∈ db.messages := hnew ▸ mem_append_right _ hx
      obtain ⟨found, htokens, hfound, howned⟩ := hcarries x hx
      exact ⟨found, htokens, (h.attachmentsOf_old hmem).trans hfound, h.objects.symm ▸ howned⟩
    · rw [mem_singleton.1 hx]
      refine ⟨ids, h.tokens, h.attachmentsOf_new hdb.declared, fun id hid => ?_⟩
      have howned := (Bool.and_eq_true _ _ ▸ h.attachable id hid).1
      obtain ⟨o, ho, hsame⟩ := any_eq_true.1 howned
      exact ⟨o, h.objects.symm ▸ ho, of_decide_eq_true hsame⟩
  · have hmem : x ∈ db.messages := hnew ▸ mem_append_left _ hx
    exact (h.attachmentsOf_old hmem).trans (hdb.old x hx)

theorem sentSince_of_run {trace : List AppendCall} (h : Run (AppendStep host) start trace db)
    (hstart : start.AttachmentsDeclared) : SentSince host start db := by
  refine h.invariant (P := SentSince host start) (fun x call y hx hstep => ?_)
    ⟨hstart, rfl, ⟨[], (append_nil _).symm, fun _ hm => absurd hm not_mem_nil⟩, fun _ _ => rfl⟩
  obtain ⟨call⟩ := hstep
  rcases append_cases with hsame | ⟨m, ids, hcarried⟩
  · rw [hsame]
    exact hx
  · exact hcarried.sentSince hx

/-- A text with a token that cannot be honoured changes nothing. -/
theorem refused_of_tokens {call : AppendCall}
    (h : ¬ ∃ ids, mediaIdsFromBody host call.command.body = .ok ids ∧
      ∀ id ∈ ids, db.attachable call.command.actor call.command.channelId id = true) :
    ((call.body host).commit db).2 = db := by
  rcases append_cases with hsame | ⟨m, ids, hcarried⟩
  · exact hsame
  · obtain ⟨hactor, hchannel, hbody⟩ := hcarried.message
    exact absurd ⟨ids, hbody ▸ hcarried.tokens, hactor ▸ hchannel ▸ hcarried.attachable⟩ h

end

/-- Each object is attached to one message at most. A sent message has the objects of its tokens,
ten at most, all of them its sender's and in its channel. A call whose tokens cannot be honoured
leaves everything as it was. -/
theorem attachments_follow_tokens {host : Host} {start db : Db} {trace : List AppendCall}
    (hstart : start.AttachmentsDeclared) (h : Run (AppendStep host) start trace db) :
    (∀ a ∈ db.messageAttachments, ∀ b ∈ db.messageAttachments, a.mediaId = b.mediaId →
        a.messageId = b.messageId) ∧
      (∃ new, db.messages = start.messages ++ new ∧ ∀ m ∈ new, ∃ ids,
        mediaIdsFromBody host m.body = .ok ids ∧ ids.Nodup ∧ ids.length ≤ 10 ∧
          db.attachmentsOf m.id = ids ∧ ∀ id ∈ ids, ∃ o ∈ db.mediaObjects, o.id = id ∧
            o.ownerId = m.senderId ∧ o.channelId = m.channelId) ∧
      (∀ m ∈ start.messages, db.attachmentsOf m.id = start.attachmentsOf m.id) ∧
      ∀ call : AppendCall, (¬ ∃ ids, mediaIdsFromBody host call.command.body = .ok ids ∧
        ∀ id ∈ ids, db.attachable call.command.actor call.command.channelId id = true) →
        ((call.body host).commit db).2 = db := by
  have hsince := sentSince_of_run h hstart
  obtain ⟨new, hnew, hcarries⟩ := hsince.sent
  refine ⟨fun a ha b hb heq => ?_, ⟨new, hnew, fun m hm => ?_⟩, hsince.old,
    fun call => refused_of_tokens⟩
  · rw [Table.eq_of_key_eq hsince.declared.unique ha hb heq]
  · obtain ⟨ids, htokens, hids, howned⟩ := hcarries m hm
    obtain ⟨hnodup, hfew⟩ := mediaIdsFromBody_ok htokens
    exact ⟨ids, htokens, hnodup, hfew, hids, howned⟩

namespace Sample

def mediaHost : Host :=
  { host with
    parseUuid := fun s => if s = "00000000-0000-0000-0000-000000000007" then some 7 else none }

def picture : MessageBody :=
  ⟨"[[media:00000000-0000-0000-0000-000000000007|x]]", by decide, by decide⟩

def uploaded : Db := { chat with mediaObjects := [⟨⟨7⟩, alice, room⟩] }

def sendPicture (id : Nat) : AppendCall := .append ⟨alice, room, none, picture⟩ (.quiet id 0)

def pictured : Db := (((sendPicture 20).body mediaHost).commit uploaded).2

end Sample

open Sample in
/-- Alice sends the picture, and cannot send it again. -/
theorem attachments_follow_tokens_of_picture :
    pictured.attachmentsOf ⟨20⟩ = [⟨7⟩] ∧ pictured.attachable alice room ⟨7⟩ = false ∧
      (((sendPicture 21).body mediaHost).commit pictured).2 = pictured := by
  have hstart : uploaded.AttachmentsDeclared :=
    ⟨nodup_nil, fun _ ha => absurd ha not_mem_nil⟩
  have htokens : mediaIdsFromBody mediaHost picture = .ok [⟨7⟩] := by decide
  have hattached : pictured.attachmentsOf ⟨20⟩ = [⟨7⟩] := by decide
  have htaken : pictured.attachable alice room ⟨7⟩ = false := by decide
  obtain ⟨-, -, -, hrefused⟩ :=
    attachments_follow_tokens hstart
      (.single (@AppendStep.call mediaHost uploaded (sendPicture 20)))
  refine ⟨hattached, htaken, hrefused (sendPicture 21) ?_⟩
  rintro ⟨ids, hids, hfree⟩
  obtain rfl := Except.ok.inj (htokens.symm.trans hids)
  exact absurd (hfree ⟨7⟩ (mem_singleton_self _)) (Bool.eq_false_iff.1 htaken)

end Sproyt
