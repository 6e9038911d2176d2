import A2ZCore.Omnichannel.Session

/-!
# Access checks and routing

The guards of `access.py`, and the assignments of `routing.py`: an agent claims a conversation, an
admin reassigns one, and the inbound worker assigns a conversation that it has created. Every
assignment goes through `recordAssignment`.

## Main definitions

* `requireMembership`, `requireRole`, `loadConversation`
* `recordAssignment`, `claim`, `reassign`, `applySingleAssigneeIfConfigured`
-/

namespace A2ZCore.Omnichannel

open Interaction

/-! ### `access.py` -/

/-- `NON_VIEWER_ROLES`. -/
def nonViewerRoles : List Core.Role := [.owner, .admin, .member]

/-- `ADMIN_ROLES`. -/
def adminRoles : List Core.Role := [.owner, .admin]

/-- `require_membership`. -/
def requireMembership (userId orgId message : String) : Prog Core.Membership := do
  match ← core (Core.getMembership userId orgId) with
  | none => fail .notFoundError message
  | some membership => return membership

/-- `require_role`. -/
def requireRole (userId orgId : String) (allowed : List Core.Role) (forbiddenMessage : String) :
    Prog Core.Membership := do
  let membership ← requireMembership userId orgId "Not a member of this org"
  if membership.role ∉ allowed then fail .forbiddenError forbiddenMessage
  else return membership

/-- `load_conversation`. -/
def loadConversation (orgId conversationId : String) : Prog Conversation := do
  let missing : Prog Conversation := fail .conversationNotFoundError
    ("No conversation " ++ pyRepr conversationId ++ " for org " ++ pyRepr orgId)
  match ← run (.getConversation conversationId) with
  | none => missing
  | some conversation => if conversation.orgId ≠ orgId then missing else return conversation

/-! ### `routing.py` -/

/-- The history row of an assignment. Its time is set when it is flushed. -/
def newAssignment (id : String) (conversation : Conversation)
    (assignedUserId assignedBy reason : String) : ConversationAssignment :=
  { id, orgId := conversation.orgId, conversationId := conversation.id, assignedUserId, assignedBy,
    reason := some reason, createdAt := ⟨⟨1, 1, 1⟩, 0, 0, 0, 0⟩ }

/-- What `_record_assignment` reports once the assignment is committed. -/
def announceAssignment (conversation : Conversation) (assignedUserId assignedBy reason : String) :
    Core.Prog Unit := do
  let _ ← Core.logAudit conversation.orgId assignedBy "conversation.assigned" "conversation"
    conversation.id (.obj [("assigned_user_id", .str assignedUserId), ("reason", .str reason)])
  let _ ← Core.publishEvent conversation.orgId "conversation.assigned"
    [("conversation_id", .str conversation.id), ("assigned_user_id", .str assignedUserId),
      ("assigned_by", .str assignedBy), ("reason", .str reason)] "a2z.omnichannel"
  let update := [("type", Json.str "conversation.assigned"),
    ("conversation_id", .str conversation.id), ("assigned_user_id", .str assignedUserId)]
  Core.publishUpdate conversation.orgId ("org:" ++ conversation.orgId ++ ":conversations") update
  Core.publishUpdate conversation.orgId ("user:" ++ assignedUserId ++ ":notifications") update

/-- `_record_assignment`. It returns the conversation as the session then holds it. -/
def recordAssignment (conversation : Conversation) (assignedUserId assignedBy reason : String) :
    Prog Conversation := do
  let assigned := { conversation with assignedUserId := some assignedUserId }
  let id ← core (Core.run .uuid4)
  run (.commit [.updateConversation conversation assigned,
    .insertAssignment (newAssignment id conversation assignedUserId assignedBy reason)])
  core (announceAssignment conversation assignedUserId assignedBy reason)
  return assigned

/-- `claim`. -/
def claim (orgId conversationId userId : String) : Prog Conversation := do
  let _ ← requireRole userId orgId nonViewerRoles "Viewers cannot claim conversations"
  let conversation ← loadConversation orgId conversationId
  if conversation.assignedUserId = some userId then return conversation
  else if conversation.assignedUserId ≠ none then
    fail .conversationAlreadyAssignedError
      ("Conversation " ++ pyRepr conversationId ++ " is already assigned; use reassign")
  else recordAssignment conversation userId userId "claim"

/-- `reassign`. -/
def reassign (orgId conversationId actorUserId assigneeUserId : String) : Prog Conversation := do
  let _ ← requireRole actorUserId orgId adminRoles
    "Only Owner/Admin can reassign a conversation"
  let _ ← requireMembership assigneeUserId orgId
    (pyRepr assigneeUserId ++ " is not a member of this org")
  let conversation ← loadConversation orgId conversationId
  recordAssignment conversation assigneeUserId actorUserId "reassign"

/-- The user that an org's settings designate: `none` when the org has not opted into
single-assignee routing, or names nobody. -/
def designatedUser (metadata : List (String × Json)) : Except PyErr (Option Json) := do
  let config := (metadata.lookup "omnichannel").getD (.obj [])
  match ← config.get? "routing_strategy" with
  | some (.str "single_assignee") =>
    return (← config.get? "single_assignee_user_id").filter Json.truthy
  | _ => return none

/-- `apply_single_assignee_if_configured`. A designated user that is not a string does not fit the
column, and the commit fails. -/
def applySingleAssigneeIfConfigured (conversation : Conversation) : Prog Conversation := do
  let orgSettings ← core (Core.getOrgSettings conversation.orgId)
  match ← Proc.ofExcept (designatedUser orgSettings.metadata) with
  | none => return conversation
  | some (.str userId) =>
    recordAssignment conversation userId "routing:single_assignee" "single_assignee"
  | some _ => fail .dbApiError "invalid input for query argument"

end A2ZCore.Omnichannel
