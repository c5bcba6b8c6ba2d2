import Mathlib.Data.List.Sort
import Sproyt.Db.Statements

/-!
# Channels

Creating, opening, joining and leaving channels. Operations that run outside a transaction
are cut into the statements between which other calls may commit.
-/

namespace Sproyt

open Sql Txn

/-- The text SQLite compares under `lower` and `collate nocase`: ASCII letters only. -/
def asciiLower (s : String) : String := String.ofList (s.toList.map Char.toLower)

def storageText {α : Type} (r : Except TextValidationError α) : Except RepositoryError α :=
  r.mapError fun e => .storage e.display

/-- `u32::try_from` of a count. -/
def unsignedCount (count : Nat) : Except RepositoryError Nat :=
  if count < 2 ^ 32 then .ok count
  else .error .tooLarge

/-- `order by display_name collate nocase`. -/
def sortByName (rows : List UserRow) : List UserRow :=
  rows.insertionSort fun a b => asciiLower a.displayName.text ≤ asciiLower b.displayName.text

/-! ### create_channel -/

/-- The role check of `create_channel` for a channel of a circle. -/
def requireCircleRole (actor : UserId) : Option CircleId → Sql Unit
  | none => pure ()
  | some circleId => do
    let role ← read fun db => db.circleRole? circleId actor
    ensure (Policy.canCreateChannelInCircle role) .permissionDenied

def joinEverybody (channel : Channel) : Sql Unit :=
  if channel.circleId = none ∧ channel.slug = "general" then
    write fun db =>
      { db with channelMemberships := db.channelMemberships ++
          (db.users.filter fun u => !db.inChannel channel.id u.id).map fun u =>
            ⟨channel.id, u.id, if u.id = channel.createdBy then .owner else .member, 0⟩ }
  else
    pure ()

def createChannel (command : CreateChannel) (id : ChannelId) : Sql Channel := do
  let channel : Channel :=
    ⟨id, command.slug.text, command.name, command.kind, command.circleId, command.actor⟩
  requireCircleRole channel.createdBy channel.circleId
  insertNumberedChannel channel
  joinEverybody channel
  ownMembership channel.id channel.createdBy
  pure channel

/-! ### open_direct_channel -/

/-- The pair of a direct conversation, lesser id first. -/
def normalizedPair (actor other : UserId) : UserId × UserId :=
  if actor.uuid < other.uuid then (actor, other) else (other, actor)

def Db.directConversation? (db : Db) (pair : UserId × UserId) : Option DirectConversationRow :=
  db.directConversations.find? fun r => r.userA = pair.1 ∧ r.userB = pair.2

/-- `insert into direct_conversations … on conflict(user_a_id, user_b_id) do nothing`. -/
def Sql.insertDirectConversation (c : ChannelId) (pair : UserId × UserId) : Sql Bool :=
  insertOrIgnore (fun db => (db.directConversation? pair).isSome)
    (fun db => db.directConversations.any fun r => r.channelId = c)
    (fun db => db.hasChannel c && db.hasUser pair.1 && db.hasUser pair.2)
    fun db => { db with directConversations := db.directConversations ++ [⟨c, pair.1, pair.2⟩] }

/-- The name of a direct conversation, from the two human participants. -/
def directName (db : Db) (actor other : UserId) : Except RepositoryError DisplayName :=
  match sortByName (db.users.filter fun r => (r.id = actor ∨ r.id = other) ∧ r.kind = .human) with
  | [a, b] => storageText (DisplayName.new (a.displayName.text ++ " ↔ " ++ b.displayName.text))
  | _ => .error .notFound

def createDirectChannel (channel : Channel) (actor other : UserId) : Sql Channel := do
  let pair := normalizedPair actor other
  insertNumberedChannel channel
  if ← insertDirectConversation channel.id pair then
    insertMembership channel.id actor .member
    insertMembership channel.id other .member
    pure channel
  else
    write fun db => db.removeChannels fun c => c = channel.id
    let row ← read fun db => db.directConversation? pair
    let row ← fetchOne row
    let winner ← read fun db => db.channel? row.channelId
    fetchOne winner

/-- What `open_direct_channel` decides before its transaction: an existing conversation, or
the channel to create. -/
def lookupDirectChannel (actor other : UserId) (id : ChannelId) (slug : Uuid) (db : Db) :
    Except RepositoryError (Channel ⊕ Channel) :=
  if actor = other then .error .conflict
  else match db.directConversation? (normalizedPair actor other) with
    | some row =>
      match db.channel? row.channelId with
      | some channel => .ok (.inl channel)
      | none => .error rowNotFound
    | none =>
      (directName db actor other).map fun name =>
        .inr ⟨id, "dm-" ++ slug.simple, name, .privateChannel, none, actor⟩

/-! ### expand_direct_channel -/

/-- `order by display_name collate nocase, id`. -/
def sortByNameThenId (rows : List UserRow) : List UserRow :=
  rows.insertionSort fun a b =>
    asciiLower a.displayName.text < asciiLower b.displayName.text ∨
      (asciiLower a.displayName.text = asciiLower b.displayName.text ∧ a.id.uuid ≤ b.id.uuid)

/-- The human members of the source conversation and the person who is added. -/
def Db.expandedParticipants (db : Db) (source : ChannelId) (other : UserId) : List UserRow :=
  sortByNameThenId
    ((db.users.filter fun u => u.kind = .human ∧ db.inChannel source u.id) ++
      db.users.filter fun u => u.id = other ∧ u.kind = .human)

def joinTexts (separator : String) : List String → String
  | [] => ""
  | [s] => s
  | s :: rest => s ++ separator ++ joinTexts separator rest

def groupName (names : List String) : String :=
  if 3 < names.length then
    joinTexts ", " (names.take 3) ++ ", + " ++ toString (names.length - 3)
  else
    joinTexts ", " names

def Db.expansion? (db : Db) (source : ChannelId) (other : UserId) :
    Option DirectGroupExpansionRow :=
  db.directGroupExpansions.find? fun r => r.sourceChannelId = source ∧ r.addedUserId = other

def Sql.insertDirectGroupConversation (c source : ChannelId) : Sql Unit :=
  insert (fun db => db.directGroupConversations.any fun r => r.channelId = c)
    (fun db => db.hasChannel c && db.hasChannel source)
    fun db => { db with
      directGroupConversations := db.directGroupConversations ++ [⟨c, source⟩] }

/-- `insert into direct_group_expansions … on conflict(source_channel_id, added_user_id) do
nothing`. -/
def Sql.insertExpansion (source : ChannelId) (other : UserId) (c : ChannelId) : Sql Bool :=
  insertOrIgnore (fun db => (db.expansion? source other).isSome)
    (fun db => db.directGroupExpansions.any fun r => r.channelId = c)
    (fun db => db.hasChannel source && db.hasUser other && db.hasChannel c)
    fun db => { db with
      directGroupExpansions := db.directGroupExpansions ++ [⟨source, other, c⟩] }

def loadExpansion (source : ChannelId) (other : UserId) : Sql Channel := do
  let row ← read fun db => db.expansion? source other
  let row ← fetchOne row
  let channel ← read fun db => db.channel? row.channelId
  fetchOne channel

theorem loadExpansion_frame {γ : Type} (view : Db → γ) (source : ChannelId) (other : UserId) :
    Txn.Frame view (loadExpansion source other) :=
  .look fun _ => .bind .demand fun _ => .look fun _ => .demand

def createDirectGroup (channel : Channel) (source : ChannelId) (other : UserId)
    (participants : List UserRow) : Sql Channel := do
  insertNumberedChannel channel
  insertDirectGroupConversation channel.id source
  if ← insertExpansion source other channel.id then
    forEach (fun p : UserRow => insertMembership channel.id p.id .member) participants
    pure channel
  else
    write fun db => db.removeChannels fun c => c = channel.id
    loadExpansion source other

def planDirectGroup (actor other : UserId) (source : ChannelId) (id : ChannelId) (slug : Uuid) :
    Sql (Channel × List UserRow) := do
  let human ← read fun db => db.isHuman other
  ensure (human = true ∧ other ≠ actor) .notFound
  let already ← read fun db => db.inChannel source other
  ensure (already = false) .conflict
  let participants ← read fun db => db.expandedParticipants source other
  ensure (3 ≤ participants.length) .conflict
  let name ← ofExcept
    (storageText (DisplayName.new (groupName (participants.map (·.displayName.text)))))
  pure (⟨id, "dm-group-" ++ slug.simple, name, .privateChannel, none, actor⟩, participants)

/-- `expand_direct_channel`. A retry finds the conversation of the first call. -/
def expandDirectChannel (actor : UserId) (source : ChannelId) (other : UserId) (id : ChannelId)
    (slug : Uuid) : Sql Channel := do
  let permitted ← read fun db => db.inChannel source actor &&
    (db.directConversations.any (fun r => r.channelId = source) ||
      db.directGroupConversations.any fun r => r.channelId = source)
  ensure (permitted = true) .permissionDenied
  if ← read fun db => (db.expansion? source other).isSome then
    loadExpansion source other
  else
    let plan ← planDirectGroup actor other source id slug
    createDirectGroup plan.1 source other plan.2

/-! ### Personal spaces -/

def personalSpaceName : DisplayName := ⟨"Området mitt", by decide⟩

def personalChannel (owner : UserId) (id : ChannelId) : Channel :=
  ⟨id, "personal-" ++ id.uuid.simple, personalSpaceName, .privateChannel, none, owner⟩

def Db.personalChannel? (db : Db) (owner : UserId) : Option Channel :=
  (db.personalSpaces.find? fun r => r.ownerId = owner).bind fun r => db.channel? r.channelId

def Sql.insertPersonalSpace (owner : UserId) (c : ChannelId) : Sql Unit :=
  insert (fun db => db.personalSpaces.any fun r => r.ownerId = owner ∨ r.channelId = c)
    (fun db => db.hasUser owner && db.hasChannel c)
    fun db =>
      { db with personalSpaces := db.personalSpaces ++ [{ ownerId := owner, channelId := c }] }

/-- Create the personal channel of somebody who has none. A member can use chat and media
and has no delegation rights. -/
def createPersonalSpace (owner : UserId) (id : ChannelId) : Sql Channel := do
  let channel := personalChannel owner id
  insertNumberedChannel channel
  insertMembership channel.id owner .member
  insertPersonalSpace owner channel.id
  pure channel

def openPersonalSpace (owner : UserId) (id : ChannelId) : Sql Channel := do
  let human ← read fun db => db.isHuman owner
  ensure (human = true) .permissionDenied
  match ← read fun db => db.personalChannel? owner with
  | some channel => pure channel
  | none => createPersonalSpace owner id

/-! ### join_channel, add_channel_member, leave_channel -/

def Db.mayJoin (db : Db) (c : ChannelId) (u : UserId) : Bool :=
  db.channels.any fun r => r.id = c ∧
    (r.kind ≠ .privateChannel ∨ (r.slug = "general" ∧ r.circleId = none)) ∧
    r.circleId.all fun k => db.inCircle k u

def Db.addable (db : Db) (channel : Channel) (u : UserId) : Bool :=
  match channel.circleId with
  | none => (channel.kind = .publicChannel || channel.kind = .localChannel) && db.isHuman u
  | some k => db.inCircle k u

def Db.mayAdd (db : Db) (actor : UserId) (c : ChannelId) (u : UserId) : Bool :=
  db.channels.any fun r => r.id = c ∧
    (db.channelMemberships.any fun m => m.channelId = c ∧ m.userId = actor ∧
      (m.role = .owner ∨ m.role = .moderator)) ∧
    db.addable r u

/-- `load_membership`. -/
def loadMembership (c : ChannelId) (u : UserId) : Sql MembershipRow := do
  let row ← read fun db =>
    db.channelMemberships.find? fun r => r.channelId = c ∧ r.userId = u
  demand row .notFound

def Db.resolveChannel (db : Db) : ChannelRef → Option ChannelId
  | .id c => some c
  | .slug s => (db.channels.find? fun r => r.slug = s.text).map (·.id)

/-- The reading statement of `leave_channel`: who may leave. -/
def leaveAllowed (actor : UserId) (c : ChannelId) (db : Db) : Except RepositoryError Unit :=
  match db.channelRole? c actor, db.channel? c with
  | some _, some channel =>
    if db.personalSpaces.any (fun r => r.channelId = c) ∨
        (channel.circleId.isSome ∧ asciiLower channel.name.text = "prat") then
      .error .permissionDenied
    else .ok ()
  | _, _ => .error .notFound

/-- The deleting statement of `leave_channel`. -/
def deleteMembership (actor : UserId) (c : ChannelId) : Sql Unit := do
  let present ← read fun db => db.inChannel c actor
  ensure (present = true) .notFound
  write fun db =>
    { db with channelMemberships :=
        db.channelMemberships.filter fun r => !(r.channelId = c ∧ r.userId = actor) }

/-- The last statement of `leave_channel`. -/
def deleteNotificationSubscription (actor : UserId) (c : ChannelId) : Sql Unit :=
  write fun db =>
    { db with channelNotificationSubscriptions :=
        db.channelNotificationSubscriptions.filter fun r => !(r.channelId = c ∧ r.userId = actor) }

end Sproyt
