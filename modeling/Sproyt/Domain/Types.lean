import Sproyt.Domain.Text

/-!
# Domain types

Identifiers, roles, policy and commands shared by the repository and the services above it.
-/

namespace Sproyt

/-- A UUID, as the 128-bit number its bytes spell. -/
abbrev Uuid := BitVec 128

namespace Uuid

def hexDigits : List Char :=
  ['0', '1', '2', '3', '4', '5', '6', '7', '8', '9', 'a', 'b', 'c', 'd', 'e', 'f']

def nibble (u : Uuid) (n : Nat) : Char :=
  hexDigits.getD ((u.toNat / 16 ^ (31 - n)) % 16) '0'

def digits (u : Uuid) (start len : Nat) : List Char :=
  (List.range' start len).map u.nibble

def simple (u : Uuid) : String := String.ofList (u.digits 0 32)

/-- The usual text form, in groups of 8, 4, 4, 4 and 12 digits. -/
def hyphenated (u : Uuid) : String :=
  String.ofList (u.digits 0 8 ++ '-' :: u.digits 8 4 ++ '-' :: u.digits 12 4 ++
    '-' :: u.digits 16 4 ++ '-' :: u.digits 20 12)

end Uuid

structure UserId where
  uuid : Uuid
deriving DecidableEq

structure ChannelId where
  uuid : Uuid
deriving DecidableEq

structure CircleId where
  uuid : Uuid
deriving DecidableEq

structure MessageId where
  uuid : Uuid
deriving DecidableEq

structure MediaId where
  uuid : Uuid
deriving DecidableEq

/-- Instants, in nanoseconds since the epoch. -/
abbrev Time := Int

def postgresEpoch : Int := 946684800 * 1000000000

/-- A `timestamptz` is a number of microseconds, counted from 2000 and cut towards it. -/
def postgresTime (t : Int) : Int := postgresEpoch + (t - postgresEpoch).tdiv 1000 * 1000

/-- Exactly the whole microseconds are stored as they are. -/
theorem postgresTime_eq_iff {t : Int} : postgresTime t = t ↔ 1000 ∣ t := by
  constructor
  · simp only [postgresTime, postgresEpoch]
    omega
  · rintro ⟨n, rfl⟩
    have hsplit : 1000 * n - postgresEpoch = (n - 946684800000000) * 1000 := by
      simp only [postgresEpoch]
      omega
    rw [postgresTime, hsplit, Int.mul_tdiv_cancel _ (by decide), ← hsplit]
    omega

abbrev Bytes := List UInt8

abbrev Hash := List UInt8

/-- What the code takes from outside the repository: the SHA-256 of the `sha2` crate, the
Unicode tables of the standard library, and from the `uuid` crate the parser and the
name-based ids of version 5. -/
structure Host where
  sha256 : List UInt8 → Hash
  isAlphanumeric : Char → Bool
  toLowercase : Char → List Char
  cased : Char → Bool
  caseIgnorable : Char → Bool
  parseUuid : String → Option Uuid
  nameUuid : String → Uuid

/-- Is the first character that counts a letter with case? -/
def Host.caseIgnorableThenCased (host : Host) (cs : List Char) : Bool :=
  ((cs.dropWhile host.caseIgnorable).head?).any host.cased

/-- Does a capital sigma between these texts end its word? The text before it is reversed. -/
def Host.endsWord (host : Host) (before after : List Char) : Bool :=
  host.caseIgnorableThenCased before && !host.caseIgnorableThenCased after

/-- The loop of `str::to_lowercase`. A capital sigma has a lower-case form of its own at the end
of a word. -/
def Host.lowercaseAfter (host : Host) : List Char → List Char → List Char
  | _, [] => []
  | before, c :: after =>
    (if c = 'Σ' then [if host.endsWord before after then 'ς' else 'σ'] else host.toLowercase c) ++
      host.lowercaseAfter (c :: before) after

/-- `str::to_lowercase`. -/
def Host.lowercaseText (host : Host) (s : String) : String :=
  String.ofList (host.lowercaseAfter [] s.toList)

/-- `Sha256::digest(token.as_bytes())`. -/
def Host.hashToken (host : Host) (token : String) : Hash :=
  host.sha256 token.toUTF8.toList

/-- `enrollment_email_hash`. -/
def Host.emailHash (host : Host) (email : String) : Hash :=
  host.hashToken (host.lowercaseText (trim email))

inductive PrincipalKind
  | human
  | agent
deriving DecidableEq, Repr

inductive ChannelKind
  | publicChannel
  | localChannel
  | privateChannel
deriving DecidableEq, Repr

inductive MembershipRole
  | owner
  | moderator
  | member
  | observer
deriving DecidableEq, Repr

inductive CircleRole
  | owner
  | moderator
  | member
deriving DecidableEq, Repr

inductive RepositoryError
  | quota
  | conflict
  | notFound
  | permissionDenied
  | storage (text : String)
deriving DecidableEq, Repr

/-- A `TryFromIntError` for a number that is too large, as `storage` prints it. -/
def RepositoryError.tooLarge : RepositoryError := .storage "number too large to fit in target type"

/-! ### Policy -/

namespace Policy

def canInviteToCircle : Option CircleRole → Bool
  | some .owner | some .moderator => true
  | _ => false

def canRenameCircle : Option CircleRole → Bool
  | some .owner => true
  | _ => false

def canDeleteCircle (role : Option CircleRole) : Bool := canRenameCircle role

def canLeaveCircle : Option CircleRole → Bool
  | some .member | some .moderator => true
  | _ => false

def canCreateChannelInCircle : Option CircleRole → Bool
  | some .owner | some .moderator | some .member => true
  | _ => false

def canSendToChannel : Option MembershipRole → Bool
  | some .owner | some .moderator | some .member => true
  | _ => false

end Policy

/-! ### Models and commands -/

structure Channel where
  id : ChannelId
  slug : String
  name : DisplayName
  kind : ChannelKind
  circleId : Option CircleId
  createdBy : UserId
deriving DecidableEq

structure ChatMessage where
  id : MessageId
  channelId : ChannelId
  parentMessageId : Option MessageId
  senderId : UserId
  senderDisplayName : DisplayName
  body : MessageBody
  sequence : Nat
  sentAt : Time
  editedAt : Option Time
  deletedAt : Option Time
deriving DecidableEq

inductive ChannelRef
  | id (channel : ChannelId)
  | slug (slug : ChannelSlug)
deriving DecidableEq

inductive InvitationTarget
  | circle (circleId : CircleId)
  | channel (circleId : CircleId) (channelId : ChannelId)
deriving DecidableEq

structure CreateChannel where
  actor : UserId
  slug : ChannelSlug
  name : DisplayName
  kind : ChannelKind
  circleId : Option CircleId
deriving DecidableEq

structure CreateCircle where
  actor : UserId
  slug : ChannelSlug
  name : DisplayName
deriving DecidableEq

structure SendMessage where
  actor : UserId
  channelId : ChannelId
  parentMessageId : Option MessageId
  body : MessageBody
deriving DecidableEq

structure EditMessage where
  actor : UserId
  messageId : MessageId
  body : MessageBody
deriving DecidableEq

structure DeleteMessage where
  actor : UserId
  messageId : MessageId
deriving DecidableEq

/-! ### People, a circle and a channel for examples -/

namespace Sample

/-- The SHA-256 of the text `token`. -/
def digest : Hash :=
  [60, 70, 158, 157, 108, 88, 117, 211, 122, 67, 243, 83, 212, 248, 142, 97, 252, 248, 18, 198,
    110, 238, 52, 87, 70, 90, 64, 176, 218, 65, 83, 224]

/-- The host as it is on ASCII texts and the token `token`. -/
def host : Host where
  sha256 _ := digest
  isAlphanumeric := Char.isAlphanum
  toLowercase c := [c.toLower]
  cased := Char.isAlpha
  caseIgnorable c := c.toNat ∈ [0x27, 0x2E, 0x3A, 0x5E, 0x60]
  parseUuid _ := none
  nameUuid _ := 5

def alice : UserId := ⟨1⟩

def bob : UserId := ⟨2⟩

def circle : CircleId := ⟨3⟩

def hello : MessageBody := ⟨"Hei", by decide, by decide⟩

def aliceName : DisplayName := ⟨"Alice", by decide⟩

def bobName : DisplayName := ⟨"Bob", by decide⟩

def roomName : DisplayName := ⟨"Rom", by decide⟩

def circleName : DisplayName := ⟨"Familie", by decide⟩

def room : ChannelId := ⟨8⟩

end Sample

end Sproyt
