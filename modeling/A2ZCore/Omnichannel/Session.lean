import A2ZCore.Core.Services
import A2ZCore.Lib.Contract
import A2ZCore.Lib.Queue
import A2ZCore.Omnichannel.Adapters
import A2ZCore.Omnichannel.Models

/-!
# Omni-Channel's database session, queues and providers

The calls that the message flow makes and what each of them does: the statements its sessions send,
the operations on the inbound and the outbound queue, the adapters, and the error log.

The session keeps no row of an earlier request, and its objects are not expired by a commit; a
message or conversation that was loaded and changed is the write `Write.updateMessage loaded
current` or `Write.updateConversation loaded current`.

## Main definitions

* `Write`, `Db.apply` — a pending write, and a list of them applied as one transaction
* `World`, `Choice` — the remote services, the database and the queues, and what is decided at a call
* `Call`, `Call.answer` — the calls and their effect
-/

namespace A2ZCore.Omnichannel

open Interaction Messaging Relational

/-! ### Writes -/

/-- A write that is pending in a session. -/
inductive Write where
  | insertIdentity (identity : ChannelIdentity)
  | insertConversation (conversation : Conversation)
  | insertMessage (message : Message)
  | insertAttachment (attachment : MessageAttachment)
  | insertAssignment (assignment : ConversationAssignment)
  | updateMessage (loaded current : Message)
  | updateConversation (loaded current : Conversation)

/-- The row an `UPDATE` of a message leaves. Only these columns are ever assigned. -/
def Message.patch (loaded current row : Message) : Message :=
  { row with
    externalMessageId :=
      column loaded.externalMessageId current.externalMessageId row.externalMessageId
    status := column loaded.status current.status row.status }

/-- The row an `UPDATE` of a conversation leaves. Only these columns are ever assigned. -/
def Conversation.patch (loaded current row : Conversation) : Conversation :=
  { row with
    assignedUserId := column loaded.assignedUserId current.assignedUserId row.assignedUserId
    lastMessageAt := column loaded.lastMessageAt current.lastMessageAt row.lastMessageAt
    lastMessagePreview :=
      column loaded.lastMessagePreview current.lastMessagePreview row.lastMessagePreview
    unreadCount := column loaded.unreadCount current.unreadCount row.unreadCount }

/-- One write. `now` is the transaction's `now()`, the default of the time columns. -/
def Write.apply (now : DateTime) : Write → Db → Except Violation Db
  | insertIdentity identity, db =>
    (db.identities.insert { identity with createdAt := now }).map fun t =>
      { db with identities := t }
  | insertConversation conversation, db =>
    (db.conversations.insert { conversation with createdAt := now }).map fun t =>
      { db with conversations := t }
  | insertMessage message, db =>
    (db.messages.insert { message with createdAt := now }).map fun t => { db with messages := t }
  | insertAttachment attachment, db =>
    (db.attachments.insert attachment).map fun t => { db with attachments := t }
  | insertAssignment assignment, db =>
    (db.assignments.insert { assignment with createdAt := now }).map fun t =>
      { db with assignments := t }
  | updateMessage loaded current, db =>
    (db.messages.modify fun row =>
      if row.id = current.id then .patch loaded current row else row).map fun t =>
        { db with messages := t }
  | updateConversation loaded current, db =>
    (db.conversations.modify fun row =>
      if row.id = current.id then .patch loaded current row else row).map fun t =>
        { db with conversations := t }

/-- The writes of a transaction, in order. -/
def Db.apply (now : DateTime) (writes : List Write) (db : Db) : Except Violation Db :=
  writes.foldlM (fun db write => write.apply now db) db

/-! ### The state -/

/-- The two queues of `queues.py`. -/
inductive QueueName where
  | inbound
  | outbound
  deriving DecidableEq, Repr

/-- What is sent to a queue: the body, a JSON object, and the message attributes. -/
structure QueueEntry where
  body : List (String × Json)
  attributes : List (String × String)

/-- `queues.QueueMessage`. -/
structure QueueMessage where
  body : List (String × Json)
  attributes : List (String × String)
  receiptHandle : ℕ
  receiveCount : ℕ

/-- `config.SQS_MAX_RECEIVE_COUNT`, the `maxReceiveCount` of both queues. -/
def sqsMaxReceiveCount : ℕ := 5

/-- A message that a provider has accepted, and the row it was sent for. -/
structure Send where
  messageId : String
  channelType : String
  /-- `to` -/
  recipient : String
  content : OutboundContent
  deriving DecidableEq, Repr

/-- The remote services, the database, the queues and the providers. -/
structure World where
  core : Core.World
  db : Db
  queues : QueueName → Queue QueueEntry
  /-- `queues._queue_url_cache`: the queues whose URL is known. -/
  queueUrls : List QueueName
  sends : List Send

/-- What the environment decides at a call: for Core's calls, and beyond them the order of rows that
tie, the entries that a receive picks, and the provider's id of a message it accepts. -/
structure Choice extends Core.Choice where
  tie : String → ℕ
  picks : List ℕ
  externalId : String

/-! ### The calls -/

/-- The calls of the message flow. -/
inductive Call where
  | core (c : Core.Call)
  -- the session: `get` by primary key, the lookups, and the transaction
  | getMessage (id : String)
  | getConversation (id : String)
  | getIdentity (id : String)
  | selectIdentity (orgId channelType externalId : String)
  | selectConversation (orgId customerIdentityId : String)
  | selectByDedupKey (orgId conversationId clientDedupKey : String)
  | selectByExternalId (orgId channelType externalMessageId : String)
  | selectConnections (orgId channelType : String)
  | flush (writes : List Write)
  | commit (writes : List Write)
  | rollback
  -- SQS
  | queueUrl (name : QueueName)
  | sendMessage (name : QueueName) (entry : QueueEntry)
  | receiveMessage (name : QueueName) (maxMessages : ℕ)
  | deleteMessage (name : QueueName) (receiptHandle : ℕ)
  -- the adapters, and the logger
  | normalizeInbound (adapter : ChannelAdapter) (rawPayload : Json)
  | sendOutbound (messageId channelType recipient : String) (content : OutboundContent)
      (credentials : List (String × Json))
  | logError (event messageId : String)
  | logException (event : String)

/-- What a call replies. -/
def Call.Resp : Call → Type
  | core c => c.Resp
  | getMessage _ => Option Message
  | getConversation _ => Option Conversation
  | getIdentity _ => Option ChannelIdentity
  | selectIdentity _ _ _ => Option ChannelIdentity
  | selectConversation _ _ => Option Conversation
  | selectByDedupKey _ _ _ => Option Message
  | selectByExternalId _ _ _ => Option Message
  | selectConnections _ _ => List ChannelConnection
  | flush _ => Unit
  | commit _ => Unit
  | rollback => Unit
  | queueUrl _ => Unit
  | sendMessage _ _ => String
  | receiveMessage _ _ => List QueueMessage
  | deleteMessage _ _ => Unit
  | normalizeInbound _ _ => List NormalizedInboundMessage
  | sendOutbound _ _ _ _ _ => String
  | logError _ _ => Unit
  | logException _ => Unit

/-- An entry as `queues._receive` hands it on. -/
def QueueMessage.ofDelivery (d : Delivery QueueEntry) : QueueMessage :=
  ⟨d.body.body, d.body.attributes, d.handle, d.receives⟩

/-- The reply to a call and the state it leaves. -/
def Call.answer (c : Call) (x : Choice) (w : World) : Except PyErr c.Resp × World :=
  match c with
  | .core c =>
    let r := c.answer x.toChoice w.core
    (r.1, { w with core := r.2 })
  | .getMessage id => x.fate.query (.ok (w.db.message id)) w
  | .getConversation id => x.fate.query (.ok (w.db.conversation id)) w
  | .getIdentity id => x.fate.query (.ok (w.db.identity id)) w
  | .selectIdentity orgId channelType externalId =>
    x.fate.query (scalarOneOrNone (w.db.identities.rows.filter fun i =>
      i.orgId == orgId && i.channelType == channelType && i.externalId == externalId)) w
  | .selectConversation orgId customerIdentityId =>
    x.fate.query (scalarOneOrNone (w.db.conversations.rows.filter fun c =>
      c.orgId == orgId && c.customerIdentityId == customerIdentityId)) w
  | .selectByDedupKey orgId conversationId clientDedupKey =>
    x.fate.query (scalarOneOrNone (w.db.messages.rows.filter fun m =>
      m.orgId == orgId && m.conversationId == conversationId &&
        m.clientDedupKey == some clientDedupKey)) w
  | .selectByExternalId orgId channelType externalMessageId =>
    x.fate.query (scalarOneOrNone (w.db.messages.rows.filter fun m =>
      m.orgId == orgId && m.channelType == channelType &&
        m.externalMessageId == externalMessageId)) w
  | .selectConnections orgId channelType =>
    x.fate.query (.ok (orderBy (·.createdAt) (·.id) x.tie (w.db.connections.rows.filter fun c =>
      c.orgId == orgId && c.channelType == channelType && c.status == "active"))) w
  | .flush writes =>
    x.fate.query (((w.db.apply x.now writes).mapError violationErr).map fun _ => ()) w
  | .commit writes => x.fate.transact (w.db.apply x.now writes) (fun db => { w with db := db }) w
  | .rollback => x.fate.query (.ok ()) w
  | .queueUrl name =>
    if name ∈ w.queueUrls then (.ok (), w)
    else match x.fate with
      | .ok => (.ok (), { w with queueUrls := name :: w.queueUrls })
      | .lost e => (.error e, w)
      | .late e => (.error e, w)
  | .sendMessage name entry =>
    x.fate.settle (.ok (x.token,
      { w with queues := Function.update w.queues name ((w.queues name).send entry) })) w
  | .receiveMessage name maxMessages =>
    let r := (w.queues name).receive sqsMaxReceiveCount (x.picks.dedup.take maxMessages)
    x.fate.settle (.ok (r.1.map .ofDelivery,
      { w with queues := Function.update w.queues name r.2 })) w
  | .deleteMessage name receiptHandle =>
    x.fate.settle (.ok ((), { w with
      queues := Function.update w.queues name ((w.queues name).delete receiptHandle) })) w
  | .normalizeInbound adapter rawPayload =>
    x.fate.query (adapter.normalizeInbound w.core rawPayload) w
  | .sendOutbound messageId channelType recipient content _ =>
    x.fate.settle (.ok (x.externalId, { w with
      sends := w.sends ++ [⟨messageId, channelType, recipient, content⟩] })) w
  | .logError _ _ => (.ok (), w)
  | .logException _ => (.ok (), w)

/-! ### The calls as programs -/

/-- A program of the service. -/
abbrev Prog := Proc Call Call.Resp PyErr

/-- One call. -/
def run (c : Call) : Prog c.Resp := Proc.perform c

/-- `raise cls(text)`. -/
def fail {α : Type} (cls : ErrClass) (text : String) : Prog α := .raise ⟨cls, text⟩

/-- A program of Core, run from the service. -/
def core {α : Type} (p : Core.Prog α) : Prog α := p.embed Call.core fun _ r => r

/-- `d[key]` of a dict. -/
def getItem {α : Type} (d : List (String × α)) (key : String) : Except PyErr α :=
  match d.lookup key with
  | some value => .ok value
  | none => .error ⟨.keyError, pyRepr key⟩

end A2ZCore.Omnichannel
