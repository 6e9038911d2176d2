import A2ZCore.Omnichannel.Redelivery

/-!
# What the inbound worker commits

The shape of the worker's transactions, whatever it is answered: a message with its conversation, an
assignment, or a status. Where others write to the database between its calls, the shape is all that a
commit keeps of what was read before.

## Main definitions

* `Opens` — the rows that a message may need before it
* `WorkerCommit` — a transaction of the inbound worker

## Main results

* `calls_ingest`
-/

namespace A2ZCore.Omnichannel

open Interaction Interaction.Proc

/-- The writes that are pending before a message is inserted: its sender, and its conversation where
that is new. -/
def Opens (conversation : Conversation) (pending : List Write) : Prop :=
  ∀ write ∈ pending, (∃ identity, write = .insertIdentity identity) ∨
    write = .insertConversation conversation ∧ conversation.unreadCount = 0

/-- A transaction of the inbound worker. -/
inductive WorkerCommit : List Write → Prop where
  | store (conversation : Conversation) (pending attachments : List Write) (message : Message)
      (now : DateTime) (bodyText : Option String) (hpending : Opens conversation pending)
      (hmessage : message.conversationId = conversation.id ∧ message.direction = .inbound)
      (hattachments : ∀ write ∈ attachments, ∃ a, write = .insertAttachment a) :
    WorkerCommit (pending ++ [.insertMessage message] ++
      [.updateConversation conversation (withMessage conversation now bodyText)] ++ attachments)
  | assign (conversation : Conversation) (userId : String) (assignment : ConversationAssignment) :
    WorkerCommit [.updateConversation conversation { conversation with assignedUserId := some userId },
      .insertAssignment assignment]
  | deliver (loaded current : Message) : WorkerCommit [.updateMessage loaded current]

/-- A call of the inbound worker. -/
def Call.OfWorker : Call → Prop
  | .commit writes => WorkerCommit writes
  | _ => True

theorem calls_ofWorker_core {α : Type} (p : Core.Prog α) : (core p).Calls Call.OfWorker :=
  calls_core p fun _ => trivial

/-- A program that commits nothing. -/
theorem calls_ofWorker {α : Type} {p : Prog α} (h : p.Calls Call.Harmless) :
    p.Calls Call.OfWorker :=
  h.mono fun c hc => by
    cases c with
    | commit => exact hc.elim
    | _ => trivial

/-! ### One message -/

theorem calls_harmless_core {α : Type} {p : Core.Prog α} (h : p.Calls Core.Call.KeepsSettings) :
    (core p).Calls Call.Harmless :=
  Calls.embed (P := Call.Harmless) h

theorem calls_harmless_uuid4 : (core (Core.run .uuid4)).Calls Call.Harmless := by
  have hcall : Core.Call.uuid4.KeepsSettings := trivial
  exact calls_harmless_core (Calls.perform hcall)

/-- The sender of a message. -/
theorem findOrCreateIdentity_opens (orgId channelType externalId : String)
    (displayName : Option String) :
    (findOrCreateIdentity orgId channelType externalId displayName).Calls Call.Harmless ∧
      (findOrCreateIdentity orgId channelType externalId displayName).Returns fun r =>
        ∀ write ∈ r.2, ∃ identity, write = .insertIdentity identity := by
  constructor
  · refine (Calls.perform trivial).bind fun found => ?_
    cases found with
    | some identity => trivial
    | none =>
      refine Calls.bind calls_harmless_uuid4 fun id => ?_
      exact Calls.bind (Calls.perform trivial) fun _ => trivial
  · refine Returns.bind (returns_true _) fun found _ => ?_
    cases found with
    | some identity => exact fun write hwrite => absurd hwrite List.not_mem_nil
    | none =>
      refine Returns.bind (returns_true _) fun id _ => ?_
      refine Returns.bind (returns_true _) fun _ _ write hwrite => ?_
      exact ⟨_, List.mem_singleton.mp hwrite⟩

/-- The conversation of a message. -/
theorem findOrCreateConversation_opens (held : Option Conversation) {pending : List Write}
    (hpending : ∀ write ∈ pending, ∃ identity, write = .insertIdentity identity)
    (orgId identityId : String) :
    (findOrCreateConversation held pending orgId identityId).Calls Call.Harmless ∧
      (findOrCreateConversation held pending orgId identityId).Returns fun r =>
        Opens r.1 r.2.2 := by
  constructor
  · refine (Calls.perform trivial).bind fun found => ?_
    cases found with
    | some conversation => trivial
    | none =>
      refine Calls.bind calls_harmless_uuid4 fun id => ?_
      exact Calls.bind (Calls.perform trivial) fun _ => trivial
  · refine Returns.bind (returns_true _) fun found _ => ?_
    cases found with
    | some conversation => exact fun write hwrite => .inl (hpending write hwrite)
    | none =>
      refine Returns.bind (returns_true _) fun id _ => ?_
      refine Returns.bind (returns_true _) fun _ _ write hwrite => ?_
      rcases List.mem_append.mp hwrite with hold | hnew
      · exact .inl (hpending write hold)
      · exact .inr ⟨List.mem_singleton.mp hnew, rfl⟩

/-- The attachments of a message. -/
theorem addAttachments_opens (attachments : List MessageAttachment) :
    (addAttachments attachments).Calls Call.Harmless ∧
      (addAttachments attachments).Returns fun writes =>
        ∀ write ∈ writes, ∃ a, write = .insertAttachment a := by
  induction attachments with
  | nil => exact ⟨trivial, fun write hwrite => absurd hwrite List.not_mem_nil⟩
  | cons attachment attachments ih =>
    constructor
    · exact Calls.bind calls_harmless_uuid4 fun _ => ih.1.bind fun _ => trivial
    · refine Returns.bind (returns_true _) fun id _ => ih.2.bind fun rest hrest write hwrite => ?_
      rcases List.mem_cons.mp hwrite with rfl | hwrite
      · exact ⟨_, rfl⟩
      · exact hrest write hwrite

theorem calls_harmless_uploadAttachments (orgId messageId : String) (atts : List InboundAttachment) :
    (uploadAttachments orgId messageId atts).Calls Call.Harmless :=
  (calls_uploadAttachments orgId messageId atts).mono fun _ hc => harmless_of_reads hc

theorem calls_ofWorker_recordAssignment (conversation : Conversation)
    (assignedUserId assignedBy reason : String) :
    (recordAssignment conversation assignedUserId assignedBy reason).Calls Call.OfWorker := by
  refine Calls.bind (calls_ofWorker_core _) fun id => ?_
  have hassign : Call.OfWorker (.commit [.updateConversation conversation
      { conversation with assignedUserId := some assignedUserId }, .insertAssignment
        (newAssignment id conversation assignedUserId assignedBy reason)]) := .assign _ _ _
  exact Calls.bind (Calls.perform hassign) fun _ => Calls.bind (calls_ofWorker_core _) fun _ => trivial

theorem calls_ofWorker_applySingleAssignee (conversation : Conversation) :
    (applySingleAssigneeIfConfigured conversation).Calls Call.OfWorker := by
  refine Calls.bind (calls_ofWorker_core _) fun orgSettings => ?_
  refine Calls.bind (Calls.ofExcept _) fun user => ?_
  split
  · trivial
  · exact calls_ofWorker_recordAssignment _ _ _ _
  · trivial

theorem calls_ofWorker_storeMessage (orgId channelType : String) {conversation : Conversation}
    (isNew : Bool) {pending : List Write} (hpending : Opens conversation pending)
    (messageId : String) (item : NormalizedInboundMessage) :
    (storeMessage orgId channelType conversation isNew (pending ++ [.insertMessage
      (inboundMessage messageId orgId channelType conversation.id item)]) messageId item).Calls
        Call.OfWorker := by
  refine Calls.bind (calls_ofWorker (calls_harmless_uploadAttachments _ _ _)) fun uploaded => ?_
  refine Calls.bind (calls_ofWorker_core _) fun now => ?_
  obtain ⟨hcalls, hreturns⟩ := addAttachments_opens uploaded
  refine (calls_ofWorker hcalls).bind_of_returns hreturns fun attachments hattachments => ?_
  have hstore : Call.OfWorker (.commit (pending ++ [.insertMessage
      (inboundMessage messageId orgId channelType conversation.id item)] ++
        [.updateConversation conversation (withMessage conversation now item.bodyText)] ++
          attachments)) := .store _ _ _ _ _ _ hpending ⟨rfl, rfl⟩ hattachments
  refine Calls.bind (Calls.perform hstore) fun _ => ?_
  have hrest : ∀ routed, ((core (announceMessage orgId channelType routed messageId)).bind fun _ =>
      .ret routed).Calls Call.OfWorker := fun routed =>
    Calls.bind (calls_ofWorker_core _) fun _ => trivial
  split
  · exact Calls.bind (calls_ofWorker_applySingleAssignee _) hrest
  · exact hrest _

theorem calls_harmless_flushMessage (pending : List Write) :
    (flushMessage pending).Calls Call.Harmless := by
  refine Calls.handle (Calls.bind (Calls.perform trivial) fun _ => trivial) fun exc => ?_
  split
  · exact Calls.bind (Calls.perform trivial) fun _ => trivial
  · trivial

/-- One message of a payload. -/
theorem calls_ofWorker_processInboundItem (orgId channelType : String) (held : Option Conversation)
    (item : NormalizedInboundMessage) :
    (processInboundItem orgId channelType held item).Calls Call.OfWorker := by
  obtain ⟨hcalls, hreturns⟩ :=
    findOrCreateIdentity_opens orgId channelType item.externalId item.displayName
  refine (calls_ofWorker hcalls).bind_of_returns hreturns fun r hr => ?_
  obtain ⟨hcalls', hreturns'⟩ := findOrCreateConversation_opens held hr orgId r.1.id
  refine (calls_ofWorker hcalls').bind_of_returns hreturns' fun s hs => ?_
  refine Calls.bind (calls_ofWorker_core _) fun messageId => ?_
  refine Calls.bind (calls_ofWorker (calls_harmless_flushMessage _)) fun flushed => ?_
  cases flushed with
  | false => trivial
  | true => exact Calls.bind (calls_ofWorker_storeMessage _ _ _ hs _ _) fun _ => trivial

/-! ### The worker -/

theorem calls_ofWorker_applyDeliveryStatus (orgId channelType : String)
    (update : DeliveryStatusUpdate) :
    (applyDeliveryStatus orgId channelType update).Calls Call.OfWorker := by
  refine Calls.bind (Calls.perform trivial) fun found => ?_
  cases found with
  | none => trivial
  | some message =>
    show Calls _ (if advances message.status update.status then _ else _)
    split
    · have hdeliver : Call.OfWorker (.commit [.updateMessage message
          { message with status := update.status }]) := .deliver _ _
      exact Calls.bind (Calls.perform hdeliver) fun _ => calls_ofWorker_core _
    · trivial

theorem calls_ofWorker_processInboundMessage (registry : Registry) (msg : QueueMessage) :
    (processInboundMessage registry msg).Calls Call.OfWorker := by
  refine Calls.ofExcept_bind fun orgId _ => Calls.ofExcept_bind fun channelType _ => ?_
  refine Calls.ofExcept_bind fun adapter _ => Calls.ofExcept_bind fun rawPayload _ => ?_
  refine Calls.bind (Calls.perform trivial) fun normalized => ?_
  refine Calls.bind (Calls.forEach fun held item =>
    calls_ofWorker_processInboundItem orgId channelType held item) fun _ => ?_
  refine Calls.ofExcept_bind fun updates _ => ?_
  exact Calls.forEach fun _ update => calls_ofWorker_applyDeliveryStatus orgId channelType update

/-- **The transactions of the inbound worker.** -/
theorem calls_ingest (registry : Registry) (sizes : List ℕ) :
    (ingest registry sizes).Calls Call.OfWorker := by
  refine Calls.forEach fun _ maxMessages => ?_
  refine Calls.bind (Calls.handle ?_ fun _ => ?_) fun _ => trivial
  · refine Calls.bind (Calls.bind (Calls.perform trivial) fun _ => Calls.perform trivial)
      fun messages => ?_
    refine Calls.bind (Calls.forEach fun _ msg => ?_) fun _ => trivial
    refine (calls_ofWorker_processInboundMessage registry msg).bind fun _ => ?_
    exact Calls.bind (Calls.perform trivial) fun _ => Calls.perform trivial
  · exact Calls.bind (Calls.perform trivial) fun _ => trivial

end A2ZCore.Omnichannel
