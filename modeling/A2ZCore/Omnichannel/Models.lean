import A2ZCore.Core.Sql

/-!
# Omni-Channel's tables

The tables of the `omnichannel` schema that the message flow reads and writes, with their
constraints, and the statuses of a message. A status column is `TEXT` and takes what a provider's
webhook says, so it is a string here.

## Main definitions

* `ChannelConnection`, `ChannelIdentity`, `Conversation`, `Message`, `MessageAttachment`,
  `ConversationAssignment` — the rows
* `Db` — the tables
* `statusRank` — the ladder that delivery updates move along
-/

namespace A2ZCore.Omnichannel

open Relational

/-- The values of `Message.direction`. -/
inductive Direction where
  | inbound
  | outbound
  deriving DecidableEq, Repr

/-! ### Rows -/

/-- A row of `channel_connections`, without the time of its last update. -/
structure ChannelConnection where
  id : String
  orgId : String
  channelType : String
  displayName : String
  providerAccountId : String
  credentialsSecretKey : String
  status : String
  createdAt : DateTime
  deriving DecidableEq, Repr

/-- A row of `channel_identities`. -/
structure ChannelIdentity where
  id : String
  orgId : String
  channelType : String
  externalId : String
  displayName : Option String
  customerId : Option String
  createdAt : DateTime
  deriving DecidableEq, Repr

/-- A row of `conversations`. -/
structure Conversation where
  id : String
  orgId : String
  customerIdentityId : String
  status : String
  assignedUserId : Option String
  lastMessageAt : Option DateTime
  lastMessagePreview : Option String
  unreadCount : ℤ
  createdAt : DateTime
  deriving DecidableEq, Repr

/-- A row of `messages`. -/
structure Message where
  id : String
  orgId : String
  conversationId : String
  direction : Direction
  channelType : String
  externalMessageId : String
  bodyText : Option String
  subject : Option String
  contentType : String
  status : String
  sentByUserId : Option String
  clientDedupKey : Option String
  createdAt : DateTime
  deriving DecidableEq, Repr

/-- A row of `message_attachments`. -/
structure MessageAttachment where
  id : String
  messageId : String
  orgId : String
  s3Key : String
  contentType : String
  sizeBytes : ℤ
  deriving DecidableEq, Repr

/-- A row of `conversation_assignments`. -/
structure ConversationAssignment where
  id : String
  orgId : String
  conversationId : String
  assignedUserId : String
  assignedBy : String
  reason : Option String
  createdAt : DateTime
  deriving DecidableEq, Repr

/-! ### Constraints -/

/-- The range of an `INTEGER` column. -/
def isInteger (n : ℤ) : Bool := -2 ^ 31 ≤ n && n < 2 ^ 31

/-- `channel_connections`: the primary key. -/
def connectionSchema : Schema ChannelConnection where
  valid _ := true
  clash c d := c.id == d.id
  clash_symm c d := by simp only [Bool.beq_comm]

/-- `channel_identities`: the primary key, and `uq_channel_identity`. -/
def identitySchema : Schema ChannelIdentity where
  valid _ := true
  clash i j := i.id == j.id ||
    (i.orgId == j.orgId && i.channelType == j.channelType && i.externalId == j.externalId)
  clash_symm i j := by simp only [Bool.beq_comm]

/-- `conversations`: the primary key. -/
def conversationSchema : Schema Conversation where
  valid c := isInteger c.unreadCount
  clash c d := c.id == d.id
  clash_symm c d := by simp only [Bool.beq_comm]

/-- The rows of `messages` that `uq_message_client_dedup` keeps apart: it does not cover the rows
without a key. -/
def Message.sameDedupKey (m n : Message) : Bool :=
  match m.clientDedupKey, n.clientDedupKey with
  | some k, some l => m.orgId == n.orgId && m.conversationId == n.conversationId && k == l
  | _, _ => false

/-- `messages`: the primary key, `uq_message_idempotency`, and `uq_message_client_dedup`. -/
def messageSchema : Schema Message where
  valid _ := true
  clash m n := m.id == n.id ||
    (m.channelType == n.channelType && m.externalMessageId == n.externalMessageId) ||
    m.sameDedupKey n
  clash_symm m n := by
    have hkey : m.sameDedupKey n = n.sameDedupKey m := by
      unfold Message.sameDedupKey
      cases m.clientDedupKey <;> cases n.clientDedupKey <;> simp only [Bool.beq_comm]
    simp only [hkey, Bool.beq_comm]

/-- `message_attachments`: the primary key. -/
def attachmentSchema : Schema MessageAttachment where
  valid a := isInteger a.sizeBytes
  clash a b := a.id == b.id
  clash_symm a b := by simp only [Bool.beq_comm]

/-- `conversation_assignments`: the primary key. -/
def assignmentSchema : Schema ConversationAssignment where
  valid _ := true
  clash a b := a.id == b.id
  clash_symm a b := by simp only [Bool.beq_comm]

/-- The `omnichannel` schema. -/
structure Db where
  connections : Table connectionSchema
  identities : Table identitySchema
  conversations : Table conversationSchema
  messages : Table messageSchema
  attachments : Table attachmentSchema
  assignments : Table assignmentSchema

namespace Db

/-- No rows. -/
def empty : Db :=
  ⟨Table.empty _, Table.empty _, Table.empty _, Table.empty _, Table.empty _, Table.empty _⟩

/-- The message with an id. -/
def message (db : Db) (id : String) : Option Message := db.messages.rows.find? fun m => m.id == id

/-- The status of a message. -/
def statusOf (db : Db) (id : String) : Option String := (db.message id).map (·.status)

/-- The conversation with an id. -/
def conversation (db : Db) (id : String) : Option Conversation :=
  db.conversations.rows.find? fun c => c.id == id

/-- The identity with an id. -/
def identity (db : Db) (id : String) : Option ChannelIdentity :=
  db.identities.rows.find? fun i => i.id == id

end Db

/-! ### Statuses -/

/-- `_STATUS_RANK`, with the default of its lookups. -/
def statusRank : String → ℤ
  | "queued" => 0
  | "sent" => 1
  | "delivered" => 2
  | "read" => 3
  | _ => -1

end A2ZCore.Omnichannel
