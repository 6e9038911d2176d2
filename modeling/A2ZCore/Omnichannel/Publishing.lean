import A2ZCore.Core.Realtime
import A2ZCore.Omnichannel.Assignees

/-!
# What is published

The worker and the routing functions publish on two kinds of channel: the channel of the conversation's
org, and the notification channel of a user, whose name says nothing of an org. Whatever they are
answered, each message that they publish names the org it belongs to, and is on the channel of that org
or on one of a user.

## Main definitions

* `orgChannel`, `userChannel` — the names of the channels
* `Scoped` — what a publish is

## Main results

* `scoped_request`, `scoped_runForever` — the publishes of a request, and of the worker
-/

namespace A2ZCore.Omnichannel

open Interaction Interaction.Proc A2ZCore.Core

/-- `f"org:{org_id}:conversations"`. -/
def orgChannel (orgId : String) : String := "org:" ++ orgId ++ ":conversations"

/-- `f"user:{user_id}:notifications"`. -/
def userChannel (userId : String) : String := "user:" ++ userId ++ ":notifications"

/-- The message names its org, and is published on the channel of that org or on a user's. -/
def Scoped (key : String) (message : Json) : Prop :=
  ∃ orgId payload, message = Broker.updateMessage orgId payload ∧
    (key = channelKey (orgChannel orgId) ∨ ∃ userId, key = channelKey (userChannel userId))

/-- A call of Core whose publish is scoped. -/
def ScopedCore : Core.Call → Prop
  | .brokerPublish key message => Scoped key message
  | _ => True

/-- A call of the service whose publish is scoped. -/
def ScopedCall : Call → Prop
  | .core c => ScopedCore c
  | _ => True

/-- A call of the system whose publish is scoped. -/
def ScopedSystem : SystemCall → Prop
  | .service c => ScopedCall c
  | .admin (.core c) => ScopedCore c
  | .admin _ => True

theorem scopedCore_of_plain {c : Core.Call} (hc : c.Plain) : ScopedCore c := by
  cases c with
  | brokerPublish => exact hc.elim
  | _ => trivial

theorem scoped_core {α : Type} {p : Core.Prog α} (hp : p.Calls ScopedCore) :
    (core p).Calls ScopedCall :=
  Calls.embed (P := ScopedCall) hp

theorem scoped_plain {α : Type} {p : Core.Prog α} (hp : p.Calls Core.Call.Plain) :
    (core p).Calls ScopedCall :=
  scoped_core (hp.mono fun _ => scopedCore_of_plain)

theorem scoped_uuid4 : (core (Core.run .uuid4)).Calls ScopedCall := by
  have hcall : Core.Call.uuid4.Plain := trivial
  exact scoped_plain (Calls.perform hcall)

/-! ### What is announced -/

theorem scoped_publishOrg (orgId : String) (payload : List (String × Json)) :
    (publishUpdate orgId ("org:" ++ orgId ++ ":conversations") payload).Calls ScopedCore :=
  Calls.perform ⟨orgId, payload, rfl, .inl rfl⟩

theorem scoped_publishUser (orgId userId : String) (payload : List (String × Json)) :
    (publishUpdate orgId ("user:" ++ userId ++ ":notifications") payload).Calls ScopedCore :=
  Calls.perform ⟨orgId, payload, rfl, .inr ⟨userId, rfl⟩⟩

theorem scoped_publishEvent (orgId eventType : String) (data : List (String × Json))
    (source : String) : (publishEvent orgId eventType data source).Calls ScopedCore :=
  (Core.plain_publishEvent _ _ _ _).mono fun _ => scopedCore_of_plain

theorem scoped_announceMessage (orgId channelType : String) (conversation : Conversation)
    (messageId : String) :
    (announceMessage orgId channelType conversation messageId).Calls ScopedCore := by
  refine (scoped_publishEvent _ _ _ _).bind fun _ => (scoped_publishOrg _ _).bind fun _ => ?_
  split
  · exact scoped_publishUser _ _ _
  · trivial

theorem scoped_announceSent (message : Message) : (announceSent message).Calls ScopedCore :=
  (scoped_publishEvent _ _ _ _).bind fun _ => scoped_publishOrg _ _

theorem scoped_announceAssignment (conversation : Conversation)
    (assignedUserId assignedBy reason : String) :
    (announceAssignment conversation assignedUserId assignedBy reason).Calls ScopedCore := by
  refine Calls.bind ((Core.plain_logAudit _ _ _ _ _ _).mono fun _ => scopedCore_of_plain) fun _ => ?_
  refine (scoped_publishEvent _ _ _ _).bind fun _ => (scoped_publishOrg _ _).bind fun _ => ?_
  exact scoped_publishUser _ _ _

/-! ### Routing -/

theorem scoped_recordAssignment (conversation : Conversation)
    (assignedUserId assignedBy reason : String) :
    (recordAssignment conversation assignedUserId assignedBy reason).Calls ScopedCall := by
  refine Calls.bind scoped_uuid4 fun id => Calls.bind (Calls.perform trivial) fun _ => ?_
  exact Calls.bind (scoped_core (scoped_announceAssignment _ _ _ _)) fun _ => trivial

theorem scoped_requireMembership (userId orgId message : String) :
    (requireMembership userId orgId message).Calls ScopedCall := by
  have hcall : (Core.Call.getMembershipItem userId orgId).Plain := trivial
  refine Calls.bind (scoped_plain (Calls.perform hcall)) fun membership => ?_
  cases membership <;> trivial

theorem scoped_requireRole (userId orgId : String) (allowed : List Role) (message : String) :
    (requireRole userId orgId allowed message).Calls ScopedCall := by
  refine Calls.bind (scoped_requireMembership _ _ _) fun membership => ?_
  show Calls _ (if membership.role ∉ allowed then _ else _)
  split <;> trivial

theorem scoped_loadConversation (orgId conversationId : String) :
    (loadConversation orgId conversationId).Calls ScopedCall := by
  refine Calls.bind (Calls.perform trivial) fun found => ?_
  cases found with
  | none => trivial
  | some conversation =>
    show Calls _ (if conversation.orgId ≠ orgId then _ else _)
    split <;> trivial

theorem scoped_claim (orgId conversationId userId : String) :
    (claim orgId conversationId userId).Calls ScopedCall := by
  refine Calls.bind (scoped_requireRole _ _ _ _) fun _ => ?_
  refine Calls.bind (scoped_loadConversation _ _) fun conversation => ?_
  split
  · trivial
  split
  · trivial
  · exact scoped_recordAssignment _ _ _ _

theorem scoped_reassign (orgId conversationId actorUserId assigneeUserId : String) :
    (reassign orgId conversationId actorUserId assigneeUserId).Calls ScopedCall := by
  refine Calls.bind (scoped_requireRole _ _ _ _) fun _ => ?_
  refine Calls.bind (scoped_requireMembership _ _ _) fun _ => ?_
  exact Calls.bind (scoped_loadConversation _ _) fun _ => scoped_recordAssignment _ _ _ _

theorem scoped_applySingleAssignee (conversation : Conversation) :
    (applySingleAssigneeIfConfigured conversation).Calls ScopedCall := by
  refine Calls.bind (scoped_plain (plain_getOrgSettings _)) fun orgSettings => ?_
  refine Calls.bind (Calls.ofExcept _) fun user => ?_
  split
  · trivial
  · exact scoped_recordAssignment _ _ _ _
  · trivial

theorem scoped_checkRoutingConfig (orgId actorUserId strategy : String) (user : Option String) :
    (checkRoutingConfig orgId actorUserId strategy user).Calls ScopedCall := by
  refine Calls.bind (scoped_requireRole _ _ _ _) fun _ => ?_
  split
  · trivial
  split
  · split
    · trivial
    · trivial
    · exact Calls.bind (scoped_requireMembership _ _ _) fun _ => trivial
  · trivial

/-! ### The inbound worker -/

theorem scoped_findOrCreateIdentity (orgId channelType externalId : String)
    (displayName : Option String) :
    (findOrCreateIdentity orgId channelType externalId displayName).Calls ScopedCall := by
  refine Calls.bind (Calls.perform trivial) fun found => ?_
  cases found with
  | some identity => trivial
  | none => exact Calls.bind scoped_uuid4 fun _ => Calls.bind (Calls.perform trivial) fun _ => trivial

theorem scoped_findOrCreateConversation (held : Option Conversation) (pending : List Write)
    (orgId identityId : String) :
    (findOrCreateConversation held pending orgId identityId).Calls ScopedCall := by
  refine Calls.bind (Calls.perform trivial) fun found => ?_
  cases found with
  | some conversation => trivial
  | none => exact Calls.bind scoped_uuid4 fun _ => Calls.bind (Calls.perform trivial) fun _ => trivial

theorem scoped_flushMessage (pending : List Write) : (flushMessage pending).Calls ScopedCall := by
  refine Calls.handle (Calls.bind (Calls.perform trivial) fun _ => trivial) fun exc => ?_
  split
  · exact Calls.bind (Calls.perform trivial) fun _ => trivial
  · trivial

theorem scoped_uploadAttachments (orgId messageId : String) (atts : List InboundAttachment) :
    (uploadAttachments orgId messageId atts).Calls ScopedCall := by
  induction atts with
  | nil => trivial
  | cons att atts ih =>
    exact Calls.bind (scoped_plain (plain_uploadFile _ _ _ _ _ _)) fun _ => ih.bind fun _ => trivial

theorem scoped_addAttachments (attachments : List MessageAttachment) :
    (addAttachments attachments).Calls ScopedCall := by
  induction attachments with
  | nil => trivial
  | cons attachment attachments ih => exact Calls.bind scoped_uuid4 fun _ => ih.bind fun _ => trivial

theorem scoped_storeMessage (orgId channelType : String) (conversation : Conversation)
    (isNew : Bool) (pending : List Write) (messageId : String) (item : NormalizedInboundMessage) :
    (storeMessage orgId channelType conversation isNew pending messageId item).Calls ScopedCall := by
  have hrest : ∀ routed, ((core (announceMessage orgId channelType routed messageId)).bind fun _ =>
      (.ret routed : Prog Conversation)).Calls ScopedCall := fun routed =>
    Calls.bind (scoped_core (scoped_announceMessage _ _ _ _)) fun _ => trivial
  have hutcnow : Core.Call.utcnow.Plain := trivial
  refine Calls.bind (scoped_uploadAttachments _ _ _) fun uploaded => ?_
  refine Calls.bind (scoped_plain (Calls.perform hutcnow)) fun now => ?_
  refine Calls.bind (scoped_addAttachments _) fun attachments => ?_
  refine Calls.bind (Calls.perform trivial) fun _ => ?_
  split
  · exact Calls.bind (scoped_applySingleAssignee _) hrest
  · exact hrest _

theorem scoped_processInboundItem (orgId channelType : String) (held : Option Conversation)
    (item : NormalizedInboundMessage) :
    (processInboundItem orgId channelType held item).Calls ScopedCall := by
  refine Calls.bind (scoped_findOrCreateIdentity _ _ _ _) fun r => ?_
  refine Calls.bind (scoped_findOrCreateConversation _ _ _ _) fun placed => ?_
  refine Calls.bind scoped_uuid4 fun messageId => ?_
  refine Calls.bind (scoped_flushMessage _) fun flushed => ?_
  cases flushed with
  | false => trivial
  | true => exact Calls.bind (scoped_storeMessage _ _ _ _ _ _ _) fun _ => trivial

theorem scoped_applyDeliveryStatus (orgId channelType : String) (update : DeliveryStatusUpdate) :
    (applyDeliveryStatus orgId channelType update).Calls ScopedCall := by
  refine Calls.bind (Calls.perform trivial) fun found => ?_
  cases found with
  | none => trivial
  | some message =>
    show Calls _ (if advances message.status update.status then _ else _)
    split
    · exact Calls.bind (Calls.perform trivial) fun _ => scoped_core (scoped_publishOrg _ _)
    · trivial

theorem scoped_processInboundMessage (registry : Registry) (msg : QueueMessage) :
    (processInboundMessage registry msg).Calls ScopedCall := by
  refine Calls.ofExcept_bind fun orgId _ => Calls.ofExcept_bind fun channelType _ => ?_
  refine Calls.ofExcept_bind fun adapter _ => Calls.ofExcept_bind fun rawPayload _ => ?_
  refine Calls.bind (Calls.perform trivial) fun normalized => ?_
  refine Calls.bind (Calls.forEach fun held item => scoped_processInboundItem _ _ held item)
    fun _ => ?_
  refine Calls.ofExcept_bind fun updates _ => ?_
  exact Calls.forEach fun _ update => scoped_applyDeliveryStatus _ _ update

theorem scoped_queue {α : Type} {name : QueueName} {f : Unit → Prog α}
    (hf : ∀ a, (f a).Calls ScopedCall) : ((run (.queueUrl name)).bind f).Calls ScopedCall :=
  Calls.bind (Calls.perform trivial) hf

theorem scoped_processInboundBatch (registry : Registry) (maxMessages : ℕ) :
    (processInboundBatch registry maxMessages).Calls ScopedCall := by
  refine Calls.bind (scoped_queue fun _ => Calls.perform trivial) fun messages => ?_
  refine Calls.bind (Calls.forEach fun _ msg => ?_) fun _ => trivial
  refine Calls.bind (scoped_processInboundMessage _ _) fun _ => ?_
  exact scoped_queue fun _ => Calls.perform trivial

theorem scoped_runIteration {batch : Prog ℕ} (hbatch : batch.Calls ScopedCall) (label : String) :
    (runIteration batch label).Calls ScopedCall :=
  Calls.handle hbatch fun _ => Calls.bind (Calls.perform trivial) fun _ => trivial

/-! ### The outbound worker -/

theorem scoped_resolveCredentials (adapter : ChannelAdapter) (message : Message)
    (connection : ChannelConnection) :
    (resolveCredentials adapter message connection).Calls ScopedCall := by
  unfold resolveCredentials
  dsimp only
  split
  · exact Calls.bind (scoped_plain (plain_getSecret _ _ _)) fun _ => Calls.ofExcept _
  · trivial

theorem scoped_markFailed (message : Message) (receiveCount : ℕ) :
    (markFailed message receiveCount).Calls ScopedCall := by
  by_cases hlast : sqsMaxReceiveCount ≤ receiveCount
  · rw [markFailed_of_le hlast]
    exact Calls.perform trivial
  · rw [markFailed_of_lt (Nat.lt_of_not_le hlast)]
    trivial

theorem scoped_trySend (message : Message) (identity : ChannelIdentity)
    (credentials : List (String × Json)) (receiveCount : ℕ) :
    (trySend message identity credentials receiveCount).Calls ScopedCall := by
  refine Calls.handle (Calls.bind (Calls.perform trivial) fun _ => trivial) fun exc => ?_
  unfold sendFailed
  split
  · refine Calls.bind (Calls.perform trivial) fun _ => ?_
    exact Calls.bind (scoped_markFailed _ _) fun _ => trivial
  · trivial

theorem scoped_sendQueued (registry : Registry) (message : Message) (identity : ChannelIdentity)
    (connection : ChannelConnection) (receiveCount : ℕ) :
    (sendQueued registry message identity connection receiveCount).Calls ScopedCall := by
  refine Calls.ofExcept_bind fun adapter _ => ?_
  refine Calls.bind (scoped_resolveCredentials _ _ _) fun credentials => ?_
  refine Calls.bind (scoped_trySend _ _ _ _) fun sent => ?_
  cases sent with
  | none => trivial
  | some externalId =>
    refine Calls.bind (Calls.perform trivial) fun _ => ?_
    exact Calls.bind (scoped_core (scoped_announceSent _)) fun _ => trivial

theorem scoped_processOutboundMessage (registry : Registry) (msg : QueueMessage) :
    (processOutboundMessage registry msg).Calls ScopedCall := by
  refine Calls.ofExcept_bind fun messageId _ => Calls.bind (Calls.perform trivial) fun found => ?_
  cases found with
  | none => exact Calls.bind (Calls.perform trivial) fun _ => trivial
  | some message =>
    refine Calls.bind (Calls.perform trivial) fun conversation => ?_
    refine Calls.bind (p := customerIdentity conversation) ?_ fun identity => ?_
    · cases conversation with
      | none => trivial
      | some conversation => exact Calls.perform trivial
    refine Calls.bind (Calls.bind (Calls.perform trivial) fun _ => trivial) fun connection => ?_
    cases identity with
    | none => exact Calls.bind (Calls.perform trivial) fun _ => trivial
    | some identity =>
      cases connection with
      | none => exact Calls.bind (Calls.perform trivial) fun _ => trivial
      | some connection => exact scoped_sendQueued _ _ _ _ _

theorem scoped_processOutboundBatch (registry : Registry) (maxMessages : ℕ) :
    (processOutboundBatch registry maxMessages).Calls ScopedCall := by
  refine Calls.bind (scoped_queue fun _ => Calls.perform trivial) fun messages => ?_
  refine Calls.forEach fun processed msg => ?_
  refine Calls.bind (scoped_processOutboundMessage _ _) fun handled => ?_
  cases handled with
  | false => trivial
  | true => exact Calls.bind (scoped_queue fun _ => Calls.perform trivial) fun _ => trivial

/-- **What the worker publishes.** -/
theorem scoped_runForever (registry : Registry) (rounds : ℕ) :
    (runForever registry rounds).Calls ScopedCall := by
  refine Calls.forEach fun _ _ => ?_
  refine Calls.bind (scoped_runIteration (scoped_processInboundBatch _ _) _) fun _ => ?_
  refine Calls.bind (scoped_runIteration (scoped_processOutboundBatch _ _) _) fun _ => ?_
  trivial

/-! ### Requests -/

/-- **What a request publishes.** -/
theorem scoped_request (registry : Registry) (request : OrgRequest) :
    (request.program registry).Calls ScopedSystem := by
  have hcore : ∀ c : Core.Call, c.Plain → ScopedSystem (.admin (.core c)) :=
    fun _ => scopedCore_of_plain
  have hservice : ∀ {α : Type} {p : Prog α}, p.Calls ScopedCall →
      (service p).Calls ScopedSystem := fun hp => Calls.embed hp
  have hadmin : ∀ {α : Type} {p : AdminProg α}, p.Calls (fun c => ScopedSystem (.admin c)) →
      (admin p).Calls ScopedSystem := fun hp => Calls.embed hp
  cases request with
  | addMember orgId userId role inviterId =>
    exact Calls.bind (hadmin (calls_addMember hcore _ _ _ _ fun _ => trivial)) fun _ => trivial
  | changeRole orgId userId newRole changerId =>
    exact Calls.bind (hadmin (calls_changeRole hcore _ _ _ _ trivial)) fun _ => trivial
  | removeMember orgId userId removerId =>
    exact hadmin (calls_removeMember hcore _ _ _ trivial)
  | setOrgSettings orgId changes changedBy =>
    exact Calls.bind (hadmin (calls_setOrgSettings hcore fun _ => trivial)) fun _ => trivial
  | setRoutingConfig orgId actorUserId strategy user =>
    refine Calls.bind (Calls.bind (hservice (scoped_checkRoutingConfig _ _ _ _)) fun _ => ?_)
      fun _ => trivial
    exact Calls.bind (hadmin (calls_writeEntry hcore fun _ _ => trivial)) fun _ => trivial
  | claim orgId conversationId userId =>
    exact Calls.bind (hservice (scoped_claim _ _ _)) fun _ => trivial
  | reassign orgId conversationId actorUserId assigneeUserId =>
    exact Calls.bind (hservice (scoped_reassign _ _ _ _)) fun _ => trivial
  | ingest sizes =>
    refine hservice (Calls.forEach fun _ maxMessages => ?_)
    exact Calls.bind (scoped_runIteration (scoped_processInboundBatch _ _) _) fun _ => trivial

end A2ZCore.Omnichannel
