import A2ZCore.Omnichannel.Worker

/-!
# Replies

`send_reply`, which persists an agent's reply and enqueues it for the worker.

## Main definitions

* `sendReply`
-/

namespace A2ZCore.Omnichannel

open Interaction

/-- `_rate_limit_action`. -/
def rateLimitAction (channelType : String) : String := "omnichannel." ++ channelType ++ ".send"

/-- The limit on a channel's sends. Email has none of its own. -/
def limitSends (orgId channelType : String) : Core.Prog Unit :=
  match Core.rateLimits.lookup (rateLimitAction channelType) with
  | none => return ()
  | some (limit, window) =>
    Core.checkAndIncrement orgId (rateLimitAction channelType) limit window

/-- The lookup of a replayed request. -/
def findReplayed (orgId conversationId : String) (clientDedupKey : Option String) :
    Prog (Option Message) :=
  match clientDedupKey with
  | none => return none
  | some key => run (.selectByDedupKey orgId conversationId key)

/-- The row of a reply. -/
def outboundMessage (id placeholder orgId conversationId channelType userId bodyText : String)
    (clientDedupKey subject : Option String) : Message :=
  { id, orgId, conversationId, direction := .outbound, channelType,
    externalMessageId := "pending:" ++ placeholder, bodyText := some bodyText, subject,
    contentType := "text/plain", status := "queued", sentByUserId := some userId, clientDedupKey,
    createdAt := ⟨⟨1, 1, 1⟩, 0, 0, 0, 0⟩ }

/-- The commit of a reply. When a constraint is violated, a row with the request's key that another
request has committed takes its place. -/
def commitReply (message : Message) : Prog (Option Message) := do
  try
    run (.commit [.insertMessage message])
    pure none
  catch exc => match exc.cls with
    | .integrityError => do
      run .rollback
      match message.clientDedupKey with
      | none => throw exc
      | some key => do
        match ← run (.selectByDedupKey message.orgId message.conversationId key) with
        | none => throw exc
        | some existing => pure (some existing)
    | _ => throw exc

/-- `send_reply`. -/
def sendReply (orgId conversationId userId bodyText : String)
    (clientDedupKey subject : Option String) : Prog (Message × Bool) := do
  let _ ← requireRole userId orgId nonViewerRoles "Viewers cannot send outbound messages"
  let conversation ← loadConversation orgId conversationId
  match ← run (.getIdentity conversation.customerIdentityId) with
  | none =>
    fail .conversationNotFoundError
      ("Conversation " ++ pyRepr conversationId ++ " has no customer identity")
  | some identity => do
    let channelType := ChannelIdentity.channelType identity
    match ← findReplayed orgId conversationId clientDedupKey with
    | some existing => return (existing, false)
    | none => do
      core (limitSends orgId channelType)
      let placeholder ← core (Core.run .uuid4)
      let id ← core (Core.run .uuid4)
      let message := outboundMessage id placeholder orgId conversationId channelType userId
        bodyText clientDedupKey subject
      match ← commitReply message with
      | some existing => return (existing, false)
      | none => do
        let _ ← enqueueOutbound orgId message.id
        return (message, true)

end A2ZCore.Omnichannel
