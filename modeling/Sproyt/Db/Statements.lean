import Sproyt.Db.Schema

/-!
# Statements of the SQLite adapter

The inserts, updates and cascading deletes that several repository operations share.
-/

namespace Sproyt

/-- The counters after `next_sequence = next_sequence + 1` for one channel. -/
def bumpRows (c : ChannelId) (rows : List SequenceRow) : List SequenceRow :=
  rows.map fun r => if r.channelId = c then { r with nextSequence := r.nextSequence + 1 } else r

theorem bumpRows_filter (c d : ChannelId) (rows : List SequenceRow) :
    (bumpRows c rows).filter (fun r => r.channelId = d) =
      bumpRows c (rows.filter fun r => r.channelId = d) := by
  rw [bumpRows, List.filter_map, bumpRows]
  congr 1
  apply List.filter_congr
  intro r _
  by_cases hr : r.channelId = c
  · simp [hr]
  · simp [hr]

def leastById (cs : List Channel) : Option Channel :=
  cs.foldl (fun best c =>
    match best with
    | none => some c
    | some b => if c.id.uuid < b.id.uuid then some c else some b) none

theorem leastById_mem {cs : List Channel} {c : Channel} (h : leastById cs = some c) : c ∈ cs := by
  suffices hgen : ∀ (cs : List Channel) (best : Option Channel),
      cs.foldl (fun best c =>
        match best with
        | none => some c
        | some b => if c.id.uuid < b.id.uuid then some c else some b) best = some c →
      best = some c ∨ c ∈ cs by
    rcases hgen cs none h with h | h
    · cases h
    · exact h
  intro cs
  induction cs with
  | nil => exact fun best h => .inl h
  | cons x cs ih =>
    intro best h
    rcases ih _ h with h | h
    · cases best with
      | none => exact .inr (by simp [Option.some.inj h])
      | some b =>
        dsimp only at h
        split at h
        · exact .inr (by simp [Option.some.inj h])
        · exact .inl h
    · exact .inr (List.mem_cons_of_mem _ h)

namespace Db

variable (db : Db)

def messageGone (gone : ChannelId → Bool) (m : MessageId) : Bool :=
  db.messages.any fun r => r.id = m ∧ gone r.channelId

def invitationGone (gone : ChannelId → Bool) : InvitationTarget → Bool
  | .circle _ => false
  | .channel _ c => gone c

/-- `delete from channels`, with the rows that cascade. -/
def removeChannels (gone : ChannelId → Bool) : Db :=
  let goneMessage := db.messageGone gone
  let goneOwner := fun u => db.personalSpaces.any fun r => r.ownerId = u ∧ gone r.channelId
  let goneInvitation := fun i =>
    db.chatInvitations.any fun r => r.id = i ∧ invitationGone gone r.target
  { db with
    channels := db.channels.filter fun r => !gone r.id
    channelMemberships := db.channelMemberships.filter fun r => !gone r.channelId
    channelSequences := db.channelSequences.filter fun r => !gone r.channelId
    messages := db.messages.filter fun r => !gone r.channelId
    threadReadMarkers := db.threadReadMarkers.filter fun r => !goneMessage r.rootMessageId
    directConversations := db.directConversations.filter fun r => !gone r.channelId
    directGroupConversations := db.directGroupConversations.filter fun r => !gone r.channelId
    directGroupExpansions := db.directGroupExpansions.filter fun r =>
      !(gone r.sourceChannelId || gone r.channelId)
    personalSpaces := db.personalSpaces.filter fun r => !gone r.channelId
    personalSavedLinks := (db.personalSavedLinks.filter fun r => !goneOwner r.ownerId).map fun r =>
      { r with logMessageId := r.logMessageId.filter fun m => !goneMessage m }
    messageMentions := db.messageMentions.filter fun r => !goneMessage r.messageId
    messageReactions := db.messageReactions.filter fun r => !goneMessage r.messageId
    mediaObjects := db.mediaObjects.filter fun r => !gone r.channelId
    messageAttachments := db.messageAttachments.filter fun r => !goneMessage r.messageId
    commandReceipts := db.commandReceipts.filter fun r => !r.messageId.any goneMessage
    channelNotificationSubscriptions :=
      db.channelNotificationSubscriptions.filter fun r => !gone r.channelId
    notificationOutbox := db.notificationOutbox.filter fun r => !goneMessage r.messageId
    chatInvitations := db.chatInvitations.filter fun r => !invitationGone gone r.target
    chatInvitationResponses :=
      db.chatInvitationResponses.filter fun r => !goneInvitation r.invitationId
    agentGrants := db.agentGrants.filter fun r => !r.channelId.any gone }

def invitationCircle : InvitationTarget → CircleId
  | .circle k => k
  | .channel k _ => k

/-- `delete from circles where id = k`, with the rows that cascade. -/
def removeCircle (k : CircleId) : Db :=
  let inner := db.removeChannels fun c => db.channels.any fun r => r.id = c ∧ r.circleId = some k
  let goneInvitation := fun i =>
    db.chatInvitations.any fun r => r.id = i ∧ invitationCircle r.target = k
  { inner with
    circles := db.circles.filter fun r => r.id ≠ k
    circleMemberships := db.circleMemberships.filter fun r => r.circleId ≠ k
    circleInvitations := db.circleInvitations.filter fun r => r.circleId ≠ k
    enrollmentInvitations := db.enrollmentInvitations.filter fun r => r.circleId ≠ some k
    chatInvitations := inner.chatInvitations.filter fun r => invitationCircle r.target ≠ k
    chatInvitationResponses :=
      inner.chatInvitationResponses.filter fun r => !goneInvitation r.invitationId
    agentGrants := inner.agentGrants.filter fun r => r.circleId ≠ some k }

end Db

namespace Sql

def insertChannel (c : Channel) : Sql Unit :=
  insert (fun db => db.channels.any fun r => r.id = c.id ∨ r.slug = c.slug)
    (fun db => db.hasUser c.createdBy && c.circleId.all db.hasCircle)
    fun db => { db with channels := db.channels ++ [c] }

/-- `insert into channels … on conflict(slug) do nothing`: a taken id is still an error. -/
def insertChannelUnlessSlug (c : Channel) : Sql Bool :=
  insertOrIgnore (fun db => db.channels.any fun r => r.slug = c.slug)
    (fun db => db.hasChannel c.id)
    (fun db => db.hasUser c.createdBy && c.circleId.all db.hasCircle)
    fun db => { db with channels := db.channels ++ [c] }

/-- `insert into channel_sequences (channel_id)`: counting starts at 1. -/
def insertChannelSequence (c : ChannelId) : Sql Unit :=
  insert (fun db => db.channelSequences.any fun r => r.channelId = c)
    (fun db => db.hasChannel c)
    fun db => { db with channelSequences := db.channelSequences ++ [⟨c, 1⟩] }

def insertNumberedChannel (c : Channel) : Sql Unit := do
  insertChannel c
  insertChannelSequence c.id

/-- `update channel_sequences … returning next_sequence - 1`. -/
def bumpSequence (c : ChannelId) : Sql (Option Nat) := do
  let row ← Txn.read fun db => db.channelSequences.find? fun r => r.channelId = c
  Txn.write fun db => { db with channelSequences := bumpRows c db.channelSequences }
  pure (row.map (·.nextSequence))

def insertMessage (m : ChatMessage) : Sql Unit :=
  insert
    (fun db => db.messages.any fun r =>
      r.id = m.id ∨ (r.channelId = m.channelId ∧ r.sequence = m.sequence))
    (fun db => db.hasChannel m.channelId && db.hasUser m.senderId &&
      m.parentMessageId.all db.hasMessage)
    fun db => { db with messages := db.messages ++ [m] }

def insertMembership (c : ChannelId) (u : UserId) (role : MembershipRole) : Sql Unit :=
  insert (fun db => db.inChannel c u) (fun db => db.hasChannel c && db.hasUser u)
    fun db => { db with channelMemberships := db.channelMemberships ++ [⟨c, u, role, 0⟩] }

/-- `insert into channel_memberships … on conflict(channel_id, user_id) do nothing`. -/
def joinMembership (c : ChannelId) (u : UserId) (role : MembershipRole) : Sql Bool :=
  insertOrIgnore (fun db => db.inChannel c u) (fun _ => false)
    (fun db => db.hasChannel c && db.hasUser u)
    fun db => { db with channelMemberships := db.channelMemberships ++ [⟨c, u, role, 0⟩] }

/-- `insert into channel_memberships … on conflict do update set role = 'owner'`. -/
def ownMembership (c : ChannelId) (u : UserId) : Sql Unit := do
  if ← joinMembership c u .owner then
    pure ()
  else
    Txn.write fun db => { db with channelMemberships := db.channelMemberships.map fun r =>
      if r.channelId = c ∧ r.userId = u then { r with role := .owner } else r }

/-- `insert into circle_memberships … on conflict(circle_id, user_id) do nothing`. -/
def joinCircle (k : CircleId) (u : UserId) (role : CircleRole) (joinedAt : Time) : Sql Bool :=
  insertOrIgnore (fun db => db.inCircle k u) (fun _ => false)
    (fun db => db.hasCircle k && db.hasUser u)
    fun db => { db with circleMemberships := db.circleMemberships ++ [⟨k, u, role, joinedAt⟩] }

variable {c : ChannelId}

@[simp] theorem bumpSequence_ok {db db' : Db} {o : Option Nat} :
    (bumpSequence c).run db = .ok (o, db') ↔
      (db.channelSequences.find? fun r => r.channelId = c).map (·.nextSequence) = o ∧
        { db with channelSequences := bumpRows c db.channelSequences } = db' := by
  simp [bumpSequence, and_comm]

@[simp] theorem bumpSequence_error {db : Db} {e : RepositoryError} :
    (bumpSequence c).run db = .error e ↔ False := by
  simp [bumpSequence]

end Sql

end Sproyt
