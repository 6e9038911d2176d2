import A2ZCore.Omnichannel.Routing

/-!
# The worker

The inbound and the outbound half of `worker.py`, over the queue operations of `queues.py`. A
program of this module is its source read top to bottom, one call for each call of the source; of
the log lines it keeps the errors.

## Main definitions

* `receive`, `delete`, `send` — a queue operation, behind the cached queue URL
* `processInboundBatch`, `processInboundMessage`, `applyDeliveryStatus`
* `processOutboundBatch`, `processOutboundMessage`, `findConnection`
* `runIteration`, `runForever`
-/

namespace A2ZCore.Omnichannel

open Interaction

/-! ### `queues.py` -/

/-- `_send`. -/
def send (name : QueueName) (entry : QueueEntry) : Prog String := do
  run (.queueUrl name)
  run (.sendMessage name entry)

/-- `_receive`. -/
def receive (name : QueueName) (maxMessages : ℕ) : Prog (List QueueMessage) := do
  run (.queueUrl name)
  run (.receiveMessage name maxMessages)

/-- `_delete`. -/
def delete (name : QueueName) (receiptHandle : ℕ) : Prog Unit := do
  run (.queueUrl name)
  run (.deleteMessage name receiptHandle)

/-- What `enqueue_inbound` sends. -/
def inboundEntry (channelType orgId connectionId : String) (rawPayload : Json) : QueueEntry :=
  ⟨[("raw_payload", rawPayload)],
    [("channel_type", channelType), ("org_id", orgId), ("connection_id", connectionId)]⟩

/-- `enqueue_inbound`. -/
def enqueueInbound (channelType orgId connectionId : String) (rawPayload : Json) : Prog String :=
  send .inbound (inboundEntry channelType orgId connectionId rawPayload)

/-- What `enqueue_outbound` sends. -/
def outboundEntry (orgId messageId : String) : QueueEntry :=
  ⟨[("message_id", .str messageId)], [("org_id", orgId)]⟩

/-- `enqueue_outbound`. -/
def enqueueOutbound (orgId messageId : String) : Prog String :=
  send .outbound (outboundEntry orgId messageId)

/-! ### Inbound messages -/

/-- `_find_or_create_identity`, with the writes that are then pending. -/
def findOrCreateIdentity (orgId channelType externalId : String) (displayName : Option String) :
    Prog (ChannelIdentity × List Write) := do
  match ← run (.selectIdentity orgId channelType externalId) with
  | some identity => return (identity, [])
  | none => do
    let id ← core (Core.run .uuid4)
    let identity : ChannelIdentity :=
      { id, orgId, channelType, externalId, displayName, customerId := none,
        createdAt := ⟨⟨1, 1, 1⟩, 0, 0, 0, 0⟩ }
    run (.flush [.insertIdentity identity])
    return (identity, [.insertIdentity identity])

/-- `_find_or_create_conversation`, with the writes that are then pending. A conversation that the
session still holds is not read again: `held` is the one the caller's loop variable refers to. -/
def findOrCreateConversation (held : Option Conversation) (pending : List Write)
    (orgId customerIdentityId : String) : Prog (Conversation × Bool × List Write) := do
  match ← run (.selectConversation orgId customerIdentityId) with
  | some conversation =>
    return ((held.filter fun c => c.id == Conversation.id conversation).getD conversation, false,
      pending)
  | none => do
    let id ← core (Core.run .uuid4)
    let conversation : Conversation :=
      { id, orgId, customerIdentityId, status := "open", assignedUserId := none,
        lastMessageAt := none, lastMessagePreview := none, unreadCount := 0,
        createdAt := ⟨⟨1, 1, 1⟩, 0, 0, 0, 0⟩ }
    run (.flush (pending ++ [.insertConversation conversation]))
    return (conversation, true, pending ++ [.insertConversation conversation])

/-- The row of an inbound message. -/
def inboundMessage (id orgId channelType conversationId : String)
    (item : NormalizedInboundMessage) : Message :=
  { id, orgId, conversationId, direction := .inbound, channelType,
    externalMessageId := item.externalMessageId, bodyText := item.bodyText, subject := none,
    contentType := item.contentType, status := "received", sentByUserId := none,
    clientDedupKey := none, createdAt := ⟨⟨1, 1, 1⟩, 0, 0, 0, 0⟩ }

/-- The flush of a new message, inside its savepoint. `false` is a duplicate: the whole transaction
is rolled back. -/
def flushMessage (pending : List Write) : Prog Bool := do
  try
    run (.flush pending)
    pure true
  catch exc => match exc.cls with
    | .integrityError => do
      run .rollback
      pure false
    | _ => throw exc

/-- Upload the attachments of a message. Their identifiers are set when they are flushed. -/
def uploadAttachments (orgId messageId : String) :
    List InboundAttachment → Prog (List MessageAttachment)
  | [] => return []
  | att :: atts => do
    let stored ← core
      (Core.uploadFile orgId "omnichannel" att.filename att.content att.contentType "system")
    let rest ← uploadAttachments orgId messageId atts
    return { id := "", messageId, orgId, s3Key := stored.key, contentType := att.contentType,
             sizeBytes := att.content.length } :: rest

/-- The identifiers that the flush generates. -/
def addAttachments : List MessageAttachment → Prog (List Write)
  | [] => return []
  | attachment :: attachments => do
    let id ← core (Core.run .uuid4)
    let rest ← addAttachments attachments
    return .insertAttachment { attachment with id := id } :: rest

/-- The attributes of a conversation that an inbound message sets. -/
def withMessage (conversation : Conversation) (now : DateTime) (bodyText : Option String) :
    Conversation :=
  { conversation with
    lastMessageAt := some now
    lastMessagePreview := some (String.ofList ((bodyText.getD "").toList.take 200))
    unreadCount := conversation.unreadCount + 1 }

/-- What is reported of a message that is committed and routed. -/
def announceMessage (orgId channelType : String) (conversation : Conversation)
    (messageId : String) : Core.Prog Unit := do
  let _ ← Core.publishEvent orgId "message.received"
    [("conversation_id", .str conversation.id), ("message_id", .str messageId),
      ("channel_type", .str channelType)] "a2z.omnichannel"
  let update := [("type", Json.str "message.received"),
    ("conversation_id", .str conversation.id), ("message_id", .str messageId)]
  Core.publishUpdate orgId ("org:" ++ orgId ++ ":conversations") update
  match conversation.assignedUserId.filter (· ≠ "") with
  | some userId => Core.publishUpdate orgId ("user:" ++ userId ++ ":notifications") update
  | none => return ()

/-- The rest of the loop's body, for a message that is not a duplicate. -/
def storeMessage (orgId channelType : String) (conversation : Conversation) (isNew : Bool)
    (pending : List Write) (messageId : String) (item : NormalizedInboundMessage) :
    Prog Conversation := do
  let uploaded ← uploadAttachments orgId messageId item.attachments
  let now ← core (Core.run .utcnow)
  let attachments ← addAttachments uploaded
  let updated := withMessage conversation now item.bodyText
  run (.commit (pending ++ [.updateConversation conversation updated] ++ attachments))
  let routed ← if isNew then applySingleAssigneeIfConfigured updated else pure updated
  core (announceMessage orgId channelType routed messageId)
  return routed

/-- The body of the loop over the messages of a payload. It carries the conversation that the loop
variable refers to; a rollback expires it. -/
def processInboundItem (orgId channelType : String) (held : Option Conversation)
    (item : NormalizedInboundMessage) : Prog (Option Conversation) := do
  let (identity, pending) ←
    findOrCreateIdentity orgId channelType item.externalId item.displayName
  let (conversation, isNew, pending) ← findOrCreateConversation held pending orgId identity.id
  let messageId ← core (Core.run .uuid4)
  let pending := pending ++
    [.insertMessage (inboundMessage messageId orgId channelType conversation.id item)]
  if ← flushMessage pending then
    some <$> storeMessage orgId channelType conversation isNew pending messageId item
  else return none

/-! ### Delivery updates -/

/-- Whether an update is applied to a message with a status: `failed` always is, and the rest move
up the ladder. -/
def advances (current update : String) : Bool :=
  update == "failed" || statusRank current < statusRank update

/-- `_apply_delivery_status`. -/
def applyDeliveryStatus (orgId channelType : String) (update : DeliveryStatusUpdate) :
    Prog Unit := do
  match ← run (.selectByExternalId orgId channelType update.externalMessageId) with
  | none => return ()
  | some message =>
    if advances (Message.status message) update.status then do
      run (.commit [.updateMessage message { message with status := update.status }])
      core (Core.publishUpdate orgId ("org:" ++ orgId ++ ":conversations")
        [("type", .str "message.status"), ("conversation_id", .str message.conversationId),
          ("message_id", .str message.id), ("status", .str update.status)])

/-! ### Outbound messages -/

/-- `_find_connection`. -/
def findConnection (orgId channelType : String) : Prog (Option ChannelConnection) := do
  return List.head? (← run (.selectConnections orgId channelType))

/-- `credentials.update(secret_bundle)`. A secret is a JSON object. -/
def updateCredentials (credentials : List (String × Json)) :
    Json → Except PyErr (List (String × Json))
  | .obj fields => .ok (fields.foldl (fun d field => Json.set field.1 field.2 d) credentials)
  | _ => .error ⟨.typeError, "cannot convert dictionary update sequence"⟩

/-- The credentials that a message is sent with. -/
def resolveCredentials (adapter : ChannelAdapter) (message : Message)
    (connection : ChannelConnection) : Prog (List (String × Json)) := do
  let credentials := [("org_id", Json.str message.orgId)]
  if adapter.requiresCredentials then
    let secretBundle ← core
      (Core.getSecret message.orgId "omnichannel" connection.credentialsSecretKey)
    Proc.ofExcept (updateCredentials credentials secretBundle)
  else return credentials

/-- At the last attempt a failed send is recorded. -/
def markFailed (message : Message) (receiveCount : ℕ) : Prog Unit :=
  if sqsMaxReceiveCount ≤ receiveCount then
    run (.commit [.updateMessage message { message with status := "failed" }])
  else pure ()

/-- The `except ChannelAdapterError` clause. -/
def sendFailed (message : Message) (receiveCount : ℕ) (exc : PyErr) : Prog (Option String) :=
  match exc.cls with
  | .channelAdapterError => do
    run (.logError "omnichannel.outbound.send_failed" message.id)
    markFailed message receiveCount
    return none
  | _ => throw exc

/-- The `try` statement around the send: the provider's id, or `none` after a failure that is left
to the queue. -/
def trySend (message : Message) (identity : ChannelIdentity) (credentials : List (String × Json))
    (receiveCount : ℕ) : Prog (Option String) := do
  try
    let externalId ← run (.sendOutbound message.id message.channelType identity.externalId
      ⟨message.subject, message.bodyText⟩ credentials)
    pure (some externalId)
  catch exc => sendFailed message receiveCount exc

/-- What is reported of a message that was sent. -/
def announceSent (message : Message) : Core.Prog Unit := do
  let _ ← Core.publishEvent message.orgId "message.sent"
    [("conversation_id", .str message.conversationId), ("message_id", .str message.id)]
    "a2z.omnichannel"
  Core.publishUpdate message.orgId ("org:" ++ message.orgId ++ ":conversations")
    [("type", .str "message.sent"), ("conversation_id", .str message.conversationId),
      ("message_id", .str message.id)]

/-- `asyncpg`'s reading of a primary key. -/
def primaryKey : Json → Except PyErr String
  | .str id => .ok id
  | _ => .error ⟨.dbApiError, "invalid input for query argument"⟩

section Registry

variable (registry : Registry)

/-- The send itself, once the message has its context. -/
def sendQueued (message : Message) (identity : ChannelIdentity) (connection : ChannelConnection)
    (receiveCount : ℕ) : Prog Bool := do
  let adapter ← Proc.ofExcept (getAdapter registry message.channelType)
  let credentials ← resolveCredentials adapter message connection
  match ← trySend message identity credentials receiveCount with
  | none => return false
  | some externalId => do
    run (.commit [.updateMessage message
      { message with externalMessageId := externalId, status := "sent" }])
    core (announceSent message)
    return true

/-- The identity a conversation is with. -/
def customerIdentity : Option Conversation → Prog (Option ChannelIdentity)
  | none => return none
  | some conversation => run (.getIdentity conversation.customerIdentityId)

/-- `_process_outbound_message`. -/
def processOutboundMessage (msg : QueueMessage) : Prog Bool := do
  let messageId ← Proc.ofExcept (getItem msg.body "message_id" >>= primaryKey)
  match ← run (.getMessage messageId) with
  | none => do
    run (.logError "omnichannel.outbound.missing_message" messageId)
    return true
  | some message => do
    let conversation ← run (.getConversation message.conversationId)
    let identity ← customerIdentity conversation
    let connection ← findConnection message.orgId message.channelType
    match identity, connection with
    | some identity, some connection =>
      sendQueued registry message identity connection msg.receiveCount
    | _, _ => do
      run (.logError "omnichannel.outbound.missing_context" messageId)
      return true

/-- `process_outbound_batch`. -/
def processOutboundBatch (maxMessages : ℕ) : Prog ℕ := do
  let messages ← receive .outbound maxMessages
  Proc.forEach messages 0 fun processed msg => do
    if ← processOutboundMessage registry msg then
      delete .outbound msg.receiptHandle
      return processed + 1
    else return processed

/-- `_process_inbound_message`. -/
def processInboundMessage (msg : QueueMessage) : Prog Unit := do
  let orgId ← Proc.ofExcept (getItem msg.attributes "org_id")
  let channelType ← Proc.ofExcept (getItem msg.attributes "channel_type")
  let adapter ← Proc.ofExcept (getAdapter registry channelType)
  let rawPayload ← Proc.ofExcept (getItem msg.body "raw_payload")
  let normalized ← run (.normalizeInbound adapter rawPayload)
  let _ ← Proc.forEach normalized none (processInboundItem orgId channelType)
  let deliveryUpdates ← Proc.ofExcept (adapter.interpretDeliveryWebhook rawPayload)
  Proc.forEach deliveryUpdates () fun _ update => applyDeliveryStatus orgId channelType update

/-- `process_inbound_batch`. -/
def processInboundBatch (maxMessages : ℕ) : Prog ℕ := do
  let messages ← receive .inbound maxMessages
  Proc.forEach messages () fun _ msg => do
    processInboundMessage registry msg
    delete .inbound msg.receiptHandle
  return messages.length

/-! ### The loop -/

/-- `_run_iteration`. -/
def runIteration (batch : Prog ℕ) (label : String) : Prog ℕ := do
  try batch
  catch _ => do
    run (.logException ("omnichannel.worker." ++ label ++ "_iteration_failed"))
    pure 0

/-- `run_forever`, for a number of rounds. -/
def runForever (rounds : ℕ) : Prog Unit :=
  Proc.forEach (List.replicate rounds ()) () fun _ _ => do
    let _ ← runIteration (processInboundBatch registry 10) "inbound"
    let _ ← runIteration (processOutboundBatch registry 10) "outbound"
    return ()

end Registry

end A2ZCore.Omnichannel
