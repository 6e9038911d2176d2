import A2ZCore.Lib.Keyset
import A2ZCore.Lib.Truth
import A2ZCore.Omnichannel.Models

/-!
# The inbox

`list_conversations` and `get_conversation` of `inbox.py`: one `SELECT` each with the filters, the
continuation predicate of the cursor, the order and the limit. The caller's membership is the one that
`require_membership` looks up.

The database's text search and its order of strings are parameters: `search` says which texts match a
query, and `collate` gives a string's place in the collation's order. So is `sign`, which signs the
URL of a file, or takes it from the cache. A cursor is the pair that its text encodes, or text that
does not decode.

## Main definitions

* `Cursor`, `encodeCursor`, `decodeCursor` — continuation tokens
* `cursorPredicate`, `precedes` — what comes after a cursor, and the order of the rows
* `listConversations`, `getConversation`
-/

namespace A2ZCore.Omnichannel

open Relational

/-- `MAX_LIMIT`. -/
def maxLimit : ℤ := 100

/-- `DEFAULT_CONVERSATION_LIMIT`. -/
def defaultConversationLimit : ℤ := 50

/-- `_SORT_FIELDS`. -/
def sortFields : List String := ["-last_message_at", "last_message_at"]

/-- `inbox.ConversationSummary`. -/
structure ConversationSummary where
  id : String
  status : String
  assignedUserId : Option String
  lastMessageAt : Option DateTime
  lastMessagePreview : Option String
  unreadCount : ℤ
  channelType : String
  customerExternalId : String
  customerDisplayName : Option String
  deriving DecidableEq, Repr

/-- A continuation token: the pair that it encodes, or text that does not decode. -/
inductive Cursor where
  | page (ts : Option DateTime) (id : String)
  | malformed (text : String)
  deriving DecidableEq, Repr

/-- `inbox.ConversationPage`. -/
structure ConversationPage where
  items : List ConversationSummary
  nextCursor : Option Cursor
  deriving DecidableEq, Repr

/-- `_encode_cursor`. -/
def encodeCursor (ts : Option DateTime) (id : String) : Cursor := .page ts id

/-- `_decode_cursor`. -/
def decodeCursor : Cursor → Except PyErr (Option DateTime × String)
  | .page ts id => .ok (ts, id)
  | .malformed text => .error ⟨.invalidQueryError, "Malformed cursor: " ++ pyRepr text⟩

/-- `_clamp`. -/
def clamp (limit default : ℤ) : ℤ := if limit ≤ 0 then default else min limit maxLimit

/-- `_summary`. -/
def summary (row : Conversation × ChannelIdentity) : ConversationSummary where
  id := row.1.id
  status := row.1.status
  assignedUserId := row.1.assignedUserId
  lastMessageAt := row.1.lastMessageAt
  lastMessagePreview := row.1.lastMessagePreview
  unreadCount := row.1.unreadCount
  channelType := row.2.channelType
  customerExternalId := row.2.externalId
  customerDisplayName := row.2.displayName

/-- What the database's text operators find: `to_tsvector(body) @@ plainto_tsquery(q)`, and
`display_name ILIKE '%q%'`. -/
structure TextSearch where
  fullText : String → String → Bool
  ilike : String → String → Bool

section Query

variable {ι : Type} [LinearOrder ι] (collate : String ↪ ι) (search : TextSearch)

/-- `_cursor_predicate`. -/
def cursorPredicate (sortDesc : Bool) (ts : Option DateTime) (id : String) (row : Conversation) :
    Truth :=
  let col := row.lastMessageAt
  let before (s t : DateTime) : Bool := s.ordinal < t.ordinal
  let same (s t : DateTime) : Bool := s.ordinal = t.ordinal
  if sortDesc then
    match ts with
    | some ts => ((Truth.compare before col ts).or
        ((Truth.compare same col ts).and (some (collate row.id < collate id)))).or (Truth.isNull col)
    | none => (Truth.isNull col).and (some (collate row.id < collate id))
  else
    match ts with
    | some ts => (Truth.compare (fun s t => before t s) col ts).or
        ((Truth.compare same col ts).and (some (collate id < collate row.id)))
    | none => (Truth.isNull col).and (some (collate id < collate row.id))

/-- `ORDER BY last_message_at NULLS LAST, id`, both descending or both ascending. -/
def precedes (sortDesc : Bool) (a b : Conversation) : Bool :=
  let before {α : Type} [LinearOrder α] (x y : α) : Bool := if sortDesc then y < x else x < y
  match a.lastMessageAt, b.lastMessageAt with
  | some s, some t =>
    if s.ordinal = t.ordinal then before (collate a.id) (collate b.id)
    else before s.ordinal t.ordinal
  | some _, none => true
  | none, some _ => false
  | none, none => before (collate a.id) (collate b.id)

/-- The conversations, each with its customer's identity. -/
def joinIdentities (db : Db) : List (Conversation × ChannelIdentity) :=
  db.conversations.rows.flatMap fun c =>
    (db.identities.rows.filter fun i => c.customerIdentityId == i.id).map fun i => (c, i)

/-- The filters of a request. -/
structure InboxFilter where
  orgId : String
  status : Option String
  assignedUserId : Option String
  q : Option String

/-- The `WHERE` of the filters. -/
def InboxFilter.selects (filter : InboxFilter) (db : Db) (row : Conversation × ChannelIdentity) :
    Bool :=
  row.1.orgId == filter.orgId &&
  (match filter.status with
    | some status => row.1.status == status
    | none => true) &&
  (match filter.assignedUserId with
    | some userId => (Truth.compare (· == ·) row.1.assignedUserId userId).holds
    | none => true) &&
  (match filter.q.filter (· ≠ "") with
    | some q =>
      (Truth.or (some (db.messages.rows.any fun m =>
          m.orgId == filter.orgId && m.conversationId == row.1.id &&
            search.fullText (m.bodyText.getD "") q))
        (Truth.compare search.ilike row.2.displayName q)).holds
    | none => true)

/-- The rows that match the filters. -/
def InboxFilter.matching (filter : InboxFilter) (db : Db) : List (Conversation × ChannelIdentity) :=
  (joinIdentities db).filter (filter.selects search db)

/-- The continuation predicate of a request. -/
def continues (sortDesc : Bool) : Option Cursor → Except PyErr (Conversation → Bool)
  | none => .ok fun _ => true
  | some cursor => do
    let (ts, id) ← decodeCursor cursor
    return fun row => (cursorPredicate collate sortDesc ts id row).holds

/-- `list_conversations`. -/
def listConversations (membership : Option Core.Membership) (db : Db) (filter : InboxFilter)
    (sort : String) (limit : ℤ) (cursor : Option Cursor) : Except PyErr ConversationPage := do
  if membership.isNone then throw ⟨.notFoundError, "Not a member of this org"⟩
  if sort ∉ sortFields then
    throw ⟨.invalidQueryError, "Unsupported sort " ++ pyRepr sort ++
      "; use one of ('-last_message_at', 'last_message_at')"⟩
  let sortDesc := sort == "-last_message_at"
  let continued ← continues collate sortDesc cursor
  let pageSize := (clamp limit defaultConversationLimit).toNat
  let selected := (filter.matching search db).filter fun row => continued row.1
  let ordered := selected.insertionSort fun a b => !precedes collate sortDesc b.1 a.1
  let rows := ordered.take (pageSize + 1)
  let hasMore := rows.length > pageSize
  let rows := rows.take pageSize
  return {
    items := rows.map summary
    nextCursor := if hasMore then rows.getLast?.map fun row =>
      encodeCursor row.1.lastMessageAt row.1.id else none }

end Query

/-! ### A thread -/

/-- `DEFAULT_MESSAGE_LIMIT`. -/
def defaultMessageLimit : ℤ := 50

/-- `inbox.AttachmentView`. -/
structure AttachmentView where
  id : String
  filename : String
  contentType : String
  sizeBytes : ℤ
  url : String
  deriving DecidableEq, Repr

/-- `inbox.MessageView`. -/
structure MessageView where
  id : String
  direction : Direction
  channelType : String
  bodyText : Option String
  contentType : String
  status : String
  sentByUserId : Option String
  externalMessageId : String
  createdAt : DateTime
  attachments : List AttachmentView
  deriving DecidableEq, Repr

/-- `inbox.ConversationDetail`. -/
structure ConversationDetail where
  conversation : ConversationSummary
  messages : List MessageView
  messagesNextCursor : Option Cursor
  deriving DecidableEq, Repr

/-- `_filename_from_key`. -/
def filenameFromKey (s3Key : String) : String :=
  let basename := (s3Key.toList.reverse.takeWhile (· ≠ '/')).reverse
  match basename.dropWhile (· ≠ '_') with
  | _ :: c :: tail => String.ofList (c :: tail)
  | _ => String.ofList basename

/-- `_message_view`. -/
def messageView (message : Message) (attachments : List AttachmentView) : MessageView where
  id := message.id
  direction := message.direction
  channelType := message.channelType
  bodyText := message.bodyText
  contentType := message.contentType
  status := message.status
  sentByUserId := message.sentByUserId
  externalMessageId := message.externalMessageId
  createdAt := message.createdAt
  attachments := attachments

/-- `media.signed_url_for_attachment`. -/
def signedUrlForAttachment (sign : String → String) (orgId s3Key : String) : Except PyErr String :=
  if (orgId ++ "/").toList.isPrefixOf s3Key.toList then .ok (sign s3Key)
  else .error ⟨.storageError, "File does not belong to this org"⟩

/-- The view of an attachment. -/
def attachmentView (sign : String → String) (orgId : String) (row : MessageAttachment) :
    Except PyErr (String × AttachmentView) := do
  let url ← signedUrlForAttachment sign orgId row.s3Key
  return (row.messageId, { id := row.id, filename := filenameFromKey row.s3Key,
                           contentType := row.contentType, sizeBytes := row.sizeBytes, url })

/-- `_attachments_for`: the views, each with the message that it belongs to. -/
def attachmentsFor (sign : String → String) (db : Db) (orgId : String) (messageIds : List String) :
    Except PyErr (List (String × AttachmentView)) :=
  (db.attachments.rows.filter fun a => a.orgId == orgId && messageIds.contains a.messageId).mapM
    (attachmentView sign orgId)

/-- The attachments of a message. -/
def attachmentsOf (views : List (String × AttachmentView)) (messageId : String) :
    List AttachmentView :=
  (views.filter fun view => view.1 == messageId).map Prod.snd

/-- What `access.load_conversation` loads. -/
def loadedConversation (db : Db) (orgId conversationId : String) : Except PyErr Conversation :=
  match (db.conversation conversationId).filter fun c => c.orgId == orgId with
  | some conversation => .ok conversation
  | none => .error ⟨.conversationNotFoundError,
      "No conversation " ++ pyRepr conversationId ++ " for org " ++ pyRepr orgId⟩

section Thread

variable {ι : Type} [LinearOrder ι] (collate : String ↪ ι) (sign : String → String)

/-- The row comes before a place in the thread:
`created_at < before_ts OR (created_at = before_ts AND id < before_id)`. -/
def comesBefore (ts : DateTime) (id : String) (row : Message) : Bool :=
  row.createdAt.ordinal < ts.ordinal ||
    row.createdAt.ordinal = ts.ordinal && collate row.id < collate id

/-- The messages of a conversation. -/
def thread (db : Db) (orgId conversationId : String) : List Message :=
  db.messages.rows.filter fun m => m.orgId == orgId && m.conversationId == conversationId

/-- The messages of a conversation before a place, if there is one. -/
def threadFrom (db : Db) (orgId conversationId : String) :
    Option (DateTime × String) → List Message
  | some (ts, id) => (thread db orgId conversationId).filter (comesBefore collate ts id)
  | none => thread db orgId conversationId

/-- SQLAlchemy's error where a column is compared with `None`. -/
def noComparison : PyErr :=
  ⟨.exception "ArgumentError", "Only '=', '!=', 'is_()', 'is_not()', " ++
    "'is_distinct_from()', 'is_not_distinct_from()' operators can be used with None/True/False"⟩

/-- The place that a request continues from. -/
def startBefore : Option Cursor → Except PyErr (Option (DateTime × String))
  | none => .ok none
  | some cursor => do
    match ← decodeCursor cursor with
    | (some ts, id) => return some (ts, id)
    | (none, _) => throw noComparison

/-- `ORDER BY created_at DESC, id DESC`. -/
def newestFirst (rows : List Message) : List Message :=
  rows.insertionSort fun a b => !comesBefore collate b.createdAt b.id a

/-- `get_conversation`, where `start` is what the place that `before` names evaluates to. -/
def getConversation (membership : Option Core.Membership) (db : Db) (orgId conversationId : String)
    (limit : ℤ) (start : Except PyErr (Option (DateTime × String))) :
    Except PyErr ConversationDetail := do
  if membership.isNone then throw ⟨.notFoundError, "Not a member of this org"⟩
  let conversation ← loadedConversation db orgId conversationId
  match db.identity conversation.customerIdentityId with
  | none => throw ⟨.conversationNotFoundError,
      "Conversation " ++ pyRepr conversationId ++ " has no customer identity"⟩
  | some identity =>
    let pageSize := (clamp limit defaultMessageLimit).toNat
    let selected := threadFrom collate db orgId conversationId (← start)
    let fetched := (newestFirst collate selected).take (pageSize + 1)
    let hasMore := fetched.length > pageSize
    let page := fetched.take pageSize
    let messages := page.reverse
    let attachments ← attachmentsFor sign db orgId (messages.map (·.id))
    return {
      conversation := summary (conversation, identity)
      messages := messages.map fun m => messageView m (attachmentsOf attachments m.id)
      messagesNextCursor := if hasMore then page.getLast?.map fun m =>
        encodeCursor (some m.createdAt) m.id else none }

end Thread

end A2ZCore.Omnichannel
