import A2ZCore.Omnichannel.Ingestion

/-!
# What the inbound worker does

`_process_inbound_message`, said once for every property of the worker's runs: each message of an
entry is stored, routed and reported, or is a duplicate that leaves the database alone, and then the
delivery updates are applied.

## Main definitions

* `Ingested`, `Outcome` — the ways in which the processing of a message can end
* `Delivered` — what a delivery update leaves

## Main results

* `Ingests.processInboundItem`, `Ingests.processInboundMessage`
-/

namespace A2ZCore.Omnichannel

open Interaction Interaction.Proc Interaction.Contract Messaging Relational

/-! ### One message -/

/-- What a message that was stored leaves. -/
structure Ingested (orgId channelType : String) (item : NormalizedInboundMessage) (w w' : World)
    (routed : Conversation) : Prop where
  message : ∃ m, w'.db.messages.rows = w.db.messages.rows ++ [m] ∧
    (m.orgId = orgId ∧ m.direction = .inbound ∧ m.channelType = channelType ∧
      m.externalMessageId = item.externalMessageId) ∧
    receivedEvent orgId channelType m.conversationId m.id ∈ w'.core.events
  conversations : ∀ row ∈ w'.db.conversations.rows,
    (∃ row₀ ∈ w.db.conversations.rows, row₀.id = row.id ∧ row₀.orgId = row.orgId ∧
      row₀.assignedUserId = row.assignedUserId) ∨
    row.orgId = orgId ∧ ∀ userId, designated w.core orgId = some userId →
      row.assignedUserId = some userId
  held : Held w'.db (some routed)
  core : Core.Steady w.core w'.core

theorem Ingested.of_calm {orgId channelType : String} {item : NormalizedInboundMessage}
    {w w₁ w' : World} {routed : Conversation} (h : Ingested orgId channelType item w₁ w' routed)
    (hcalm : Calm w w₁) : Ingested orgId channelType item w w' routed := by
  obtain ⟨hmessage, hconversations, hheld, hcore⟩ := h
  rw [hcalm.db] at hmessage hconversations
  rw [designated_of_steady hcalm.core] at hconversations
  exact ⟨hmessage, hconversations, hheld, hcalm.core.trans hcore⟩

/-- The ways in which the processing of a message can end, where it ends without an exception. -/
inductive Outcome (K : Contract Call Call.Resp PyErr Choice World) (orgId channelType : String)
    (fresh : String → Prop) (item : NormalizedInboundMessage) (w w' : World) :
    Option Conversation → Prop where
  | duplicate (conversation : Conversation) (isNew : Bool) (pending : List Write)
      (messageId : String)
      (hplaced : Placed orgId channelType item.externalId fresh w.db conversation isNew pending)
      (hfresh : fresh messageId)
      (hrejected : Ingests.Rejected K (pending ++ [.insertMessage
        (inboundMessage messageId orgId channelType conversation.id item)]) w.db)
      (hcalm : Calm w w') : Outcome K orgId channelType fresh item w w' none
  | stored (routed : Conversation) (h : Ingested orgId channelType item w w' routed) :
    Outcome K orgId channelType fresh item w w' (some routed)

/-- What a delivery update leaves. -/
def Delivered (w w' : World) : Prop :=
  Calm w w' ∨ ∃ message status now,
    w.db.apply now [.updateMessage message { message with status := status }] = .ok w'.db ∧
      Core.Steady w.core w'.core

/-- What an adapter makes of an entry. -/
def Normalizes (registry : Registry) (msg : QueueMessage) (core : Core.World)
    (normalized : List NormalizedInboundMessage) : Prop :=
  ∃ channelType adapter rawPayload, getItem msg.attributes "channel_type" = .ok channelType ∧
    getAdapter registry channelType = .ok adapter ∧
    getItem msg.body "raw_payload" = .ok rawPayload ∧
    adapter.normalizeInbound core rawPayload = .ok normalized

/-- The rest of `_process_inbound_message`, once the payload is normalized. -/
def processNormalized (orgId channelType : String) (adapter : ChannelAdapter) (rawPayload : Json)
    (normalized : List NormalizedInboundMessage) : Prog Unit := do
  let _ ← Proc.forEach normalized none (processInboundItem orgId channelType)
  let deliveryUpdates ← Proc.ofExcept (adapter.interpretDeliveryWebhook rawPayload)
  Proc.forEach deliveryUpdates () fun _ update => applyDeliveryStatus orgId channelType update

/-- An entry is normalized, and then processed. -/
theorem processInboundMessage_eq {registry : Registry} {msg : QueueMessage}
    {orgId channelType : String} {adapter : ChannelAdapter} {rawPayload : Json}
    (horg : getItem msg.attributes "org_id" = .ok orgId)
    (hchannel : getItem msg.attributes "channel_type" = .ok channelType)
    (hadapter : getAdapter registry channelType = .ok adapter)
    (hraw : getItem msg.body "raw_payload" = .ok rawPayload) :
    processInboundMessage registry msg = (run (.normalizeInbound adapter rawPayload)).bind
      fun normalized => processNormalized orgId channelType adapter rawPayload normalized := by
  unfold processInboundMessage
  rw [horg, hchannel, hraw]
  show (Proc.ofExcept (getAdapter registry channelType)).bind _ = _
  rw [hadapter]
  rfl

/-- An entry is malformed, or normalized and then processed. -/
theorem processInboundMessage_cases {registry : Registry} {msg : QueueMessage} {orgId : String}
    (horg : getItem msg.attributes "org_id" = .ok orgId) :
    (∃ e, processInboundMessage registry msg = .raise e) ∨ ∃ channelType adapter rawPayload,
      getItem msg.attributes "channel_type" = .ok channelType ∧
      getAdapter registry channelType = .ok adapter ∧
      getItem msg.body "raw_payload" = .ok rawPayload ∧
      processInboundMessage registry msg = (run (.normalizeInbound adapter rawPayload)).bind
        fun normalized => processNormalized orgId channelType adapter rawPayload normalized := by
  have hcalls : ∀ channelType, getItem msg.attributes "channel_type" = .ok channelType →
      processInboundMessage registry msg = (Proc.ofExcept (getAdapter registry channelType)).bind
        fun adapter => (Proc.ofExcept (getItem msg.body "raw_payload")).bind fun rawPayload =>
          (run (.normalizeInbound adapter rawPayload)).bind fun normalized =>
            processNormalized orgId channelType adapter rawPayload normalized := by
    intro channelType hchannel
    unfold processInboundMessage
    rw [horg, hchannel]
    rfl
  cases hchannel : getItem msg.attributes "channel_type" with
  | error e =>
    unfold processInboundMessage
    rw [horg, hchannel]
    exact .inl ⟨e, rfl⟩
  | ok channelType =>
    have hmessage := hcalls channelType hchannel
    cases hadapter : getAdapter registry channelType with
    | error e =>
      rw [hadapter] at hmessage
      exact .inl ⟨e, hmessage⟩
    | ok adapter =>
      rw [hadapter] at hmessage
      cases hraw : getItem msg.body "raw_payload" with
      | error e =>
        rw [hraw] at hmessage
        exact .inl ⟨e, hmessage⟩
      | ok rawPayload =>
        rw [hraw] at hmessage
        exact .inr ⟨channelType, adapter, rawPayload, rfl, hadapter, rfl, hmessage⟩

namespace Ingests

variable {K : Contract Call Call.Resp PyErr Choice World} {orgId channelType : String}
  {fresh : Db → String → Prop} {wanted : String → Prop}

theorem recordAssignment (hK : Ingests K orgId channelType fresh wanted)
    {conversation row : Conversation} (userId assignedBy reason : String) {w : World}
    (hmem : row ∈ w.db.conversations.rows) (hholds : conversation.Holds row)
    (horg : row.orgId = orgId) {Q : Except PyErr Conversation → World → Prop}
    (hok : ∀ now assignment w', w.db.apply now [.updateConversation conversation
        { conversation with assignedUserId := some userId }, .insertAssignment assignment] =
          .ok w'.db → Core.Steady w.core w'.core →
      Q (.ok { conversation with assignedUserId := some userId }) w')
    (herror : ∀ e w', Q (.error e) w') :
    K.wp (recordAssignment conversation userId assignedBy reason) w Q := by
  refine wp_bind (hK.uuid4 fun id w₁ h₁ hfresh => ?_)
  have hwrites : Ingestion orgId channelType (fresh w₁.db) wanted w₁.db
      [.updateConversation conversation { conversation with assignedUserId := some userId },
        .insertAssignment (newAssignment id conversation userId assignedBy reason)] :=
    .assign conversation row id userId assignedBy reason (by rw [h₁.db]; exact hmem) hholds horg
      hfresh
  refine wp_bind (hK.commits hwrites (fun now w₂ happly hcore => ?_) herror)
  refine hK.bind (calls_reads_core (calls_announceAssignment _ _ _ _)) (fun _ w₃ h₃ => ?_)
    fun e w₃ _ => herror e w₃
  rw [h₁.db, ← h₃.db] at happly
  exact hok now _ w₃ happly ((h₁.core.trans hcore).trans h₃.core)

theorem applySingleAssigneeIfConfigured (hK : Ingests K orgId channelType fresh wanted)
    {conversation row : Conversation} {w : World} (hmem : row ∈ w.db.conversations.rows)
    (hholds : conversation.Holds row) (horg : row.orgId = orgId)
    {Q : Except PyErr Conversation → World → Prop}
    (hnone : ∀ w', Calm w w' → designated w.core orgId = none → Q (.ok conversation) w')
    (hsome : ∀ userId now assignment w', designated w.core orgId = some userId →
      w.db.apply now [.updateConversation conversation
        { conversation with assignedUserId := some userId }, .insertAssignment assignment] =
          .ok w'.db → Core.Steady w.core w'.core →
      Q (.ok { conversation with assignedUserId := some userId }) w')
    (herror : ∀ e w', Q (.error e) w') :
    K.wp (applySingleAssigneeIfConfigured conversation) w Q := by
  have hconversation : conversation.orgId = orgId := by
    obtain ⟨t, rfl⟩ := hholds
    exact horg
  refine wp_bind (wp_mono (fun r w₁ hr => ?_)
    (hK.core (Core.calls_getOrgSettings _) (Core.wp_getOrgSettings conversation.orgId w.core)))
  obtain ⟨hsettings, h₁⟩ := hr
  cases r with
  | error e => exact herror e w₁
  | ok orgSettings =>
    have hstored := hsettings orgSettings rfl
    rw [hconversation] at hstored
    have hdesignated : designated w.core orgId = userIdOf (designatedUser orgSettings.metadata) := by
      rw [designated, hstored]
      rfl
    refine wp_bind (wp_ofExcept.mpr ?_)
    cases huser : designatedUser orgSettings.metadata with
    | error e => exact herror e w₁
    | ok user =>
      rw [huser] at hdesignated
      cases user with
      | none => exact hnone w₁ h₁ hdesignated
      | some user =>
        cases user with
        | str userId =>
          refine hK.recordAssignment userId _ _ (by rw [h₁.db]; exact hmem) hholds horg
            (fun now assignment w₂ happly hcore => ?_) herror
          rw [h₁.db] at happly
          exact hsome userId now assignment w₂ hdesignated happly (h₁.core.trans hcore)
        | _ => exact herror _ w₁

theorem held_some {db : Db} {conversation row : Conversation} (hrow : row ∈ db.conversations.rows)
    (hholds : conversation.Holds row) : Held db (some conversation) := by
  rintro c hc
  cases hc
  exact ⟨row, hrow, hholds⟩

/-- The report of a message that was stored and routed. -/
theorem announceMessage (hK : Ingests K orgId channelType fresh wanted)
    {item : NormalizedInboundMessage} {w w₁ : World} {m : Message} {routed : Conversation}
    (hm : m.orgId = orgId ∧ m.direction = .inbound ∧ m.channelType = channelType ∧
      m.externalMessageId = item.externalMessageId)
    (hconversation : m.conversationId = routed.id)
    (hmessages : w₁.db.messages.rows = w.db.messages.rows ++ [m])
    (hassigned : ∀ row ∈ w₁.db.conversations.rows,
      (∃ row₀ ∈ w.db.conversations.rows, row₀.id = row.id ∧ row₀.orgId = row.orgId ∧
        row₀.assignedUserId = row.assignedUserId) ∨
      row.orgId = orgId ∧ ∀ userId, designated w.core orgId = some userId →
        row.assignedUserId = some userId)
    (hheld : Held w₁.db (some routed)) (hcore : Core.Steady w.core w₁.core)
    {Q : Except PyErr Conversation → World → Prop}
    (hok : ∀ w', Ingested orgId channelType item w w' routed → Q (.ok routed) w')
    (herror : ∀ e w', Q (.error e) w') :
    K.wp ((Omnichannel.core (announceMessage orgId channelType routed m.id)).bind fun _ =>
      .ret routed) w₁ Q := by
  refine wp_bind (wp_mono (fun r w₂ hr => ?_) (hK.core (calls_announceMessage _ _ _ _)
    (wp_announceMessage orgId channelType routed m.id w₁.core)))
  obtain ⟨hevent, h₂⟩ := hr
  cases r with
  | error e => exact herror e w₂
  | ok u =>
    refine hok w₂ ⟨⟨m, by rw [h₂.db, hmessages], hm, ?_⟩, ?_, ?_, hcore.trans h₂.core⟩
    · rw [hconversation]
      exact hevent rfl
    · rw [h₂.db]
      exact hassigned
    · rw [h₂.db]
      exact hheld

/-- The rest of the loop's body, for a message that is not a duplicate. -/
theorem storeMessage (hK : Ingests K orgId channelType fresh wanted)
    {item : NormalizedInboundMessage} {conversation : Conversation} {isNew : Bool}
    {pending : List Write} {messageId : String} {w : World}
    (hplaced : Placed orgId channelType item.externalId (fresh w.db) w.db conversation isNew pending)
    (hfresh : fresh w.db messageId) (hwanted : wanted item.externalMessageId)
    {Q : Except PyErr Conversation → World → Prop}
    (hok : ∀ routed w', Ingested orgId channelType item w w' routed → Q (.ok routed) w')
    (herror : ∀ e w', Q (.error e) w') :
    K.wp (storeMessage orgId channelType conversation isNew (pending ++ [.insertMessage
      (inboundMessage messageId orgId channelType conversation.id item)]) messageId item) w Q := by
  refine wp_bind (hK.restReturns (calls_uploadAttachments _ _ _) (returns_uploadAttachments _ _ _)
    (fun uploaded w₁ h₁ huploaded => ?_) fun e w₁ _ => herror e w₁)
  refine hK.bind (calls_reads_core (Calls.perform trivial)) (fun now' w₂ h₂ => ?_)
    fun e w₂ _ => herror e w₂
  refine wp_bind (hK.addAttachments huploaded (fun attachments w₃ h₃ hattachments hattached => ?_)
    fun e w₃ _ => herror e w₃)
  have h := (h₁.trans h₂).trans h₃
  rw [(h₁.trans h₂).db] at hattachments
  have hwrites : Ingestion orgId channelType (fresh w₃.db) wanted w₃.db
      (pending ++ [.insertMessage (inboundMessage messageId orgId channelType conversation.id item)]
        ++ [.updateConversation conversation (withMessage conversation now' item.bodyText)]
        ++ attachments) := by
    rw [h.db]
    exact .store conversation isNew pending attachments messageId now' item hplaced hfresh hwanted
      hattachments hattached
  refine wp_bind (hK.commits hwrites (fun now w₄ happly hcore₄ => ?_) herror)
  rw [h.db] at happly
  have hcore := h.core.trans hcore₄
  have hmessages := store_messages hplaced hattachments happly
  obtain ⟨row, hrow, hholds, horg⟩ := store_held hplaced hattachments happly
  set m : Message :=
    { inboundMessage messageId orgId channelType conversation.id item with createdAt := now }
  have hm : m.orgId = orgId ∧ m.direction = .inbound ∧ m.channelType = channelType ∧
      m.externalMessageId = item.externalMessageId := ⟨rfl, rfl, rfl, rfl⟩
  set updated := withMessage conversation now' item.bodyText
  have hconversation : updated.orgId = orgId := by
    obtain ⟨t, rfl⟩ := hholds
    exact horg
  cases isNew with
  | false =>
    have hassigned : ∀ row ∈ w₄.db.conversations.rows,
        (∃ row₀ ∈ w.db.conversations.rows, row₀.id = row.id ∧ row₀.orgId = row.orgId ∧
          row₀.assignedUserId = row.assignedUserId) ∨
        row.orgId = orgId ∧ ∀ userId, designated w.core orgId = some userId →
          row.assignedUserId = some userId := fun row hrow => by
      rcases store_assigned hplaced hattachments happly hrow with hold | ⟨hnew, _⟩
      · exact .inl hold
      · cases hnew
    exact hK.announceMessage hm (show m.conversationId = updated.id from rfl) hmessages hassigned
      (held_some hrow hholds) hcore (hok _) herror
  | true =>
    refine wp_bind (hK.applySingleAssigneeIfConfigured hrow hholds horg (fun w₅ h₅ hnone => ?_)
      (fun userId now'' assignment w₅ hsome hassign hcore₅ => ?_) herror)
    · have hdesignated : designated w.core orgId = none := by
        rw [← designated_of_steady hcore]
        exact hnone
      refine hK.announceMessage hm (show m.conversationId = updated.id from rfl)
        (by rw [h₅.db, hmessages]) (fun row hrow => ?_) ?_ (hcore.trans h₅.core) (hok _) herror
      · rw [h₅.db] at hrow
        rcases store_assigned hplaced hattachments happly hrow with hold | ⟨_, _, hsame⟩
        · exact .inl hold
        · refine .inr ⟨hsame.trans hconversation, fun userId h => ?_⟩
          rw [hdesignated] at h
          cases h
      · rw [h₅.db]
        exact held_some hrow hholds
    · have hdesignated : designated w.core orgId = some userId := by
        rw [← designated_of_steady hcore]
        exact hsome
      have hrows := assign_conversations hassign
      have hid : row.id = updated.id := by
        obtain ⟨t, rfl⟩ := hholds
        rfl
      refine hK.announceMessage hm
        (show m.conversationId = { updated with assignedUserId := some userId }.id from rfl)
        (by rw [(Db.rows_apply hassign).2.2, ← hmessages]; rfl) (fun row' hrow' => ?_) ?_
        (hcore.trans hcore₅) (hok _) herror
      · rw [hrows] at hrow'
        obtain ⟨row₁, hrow₁, rfl⟩ := List.mem_map.mp hrow'
        by_cases hid₁ : row₁.id = updated.id
        · obtain rfl : row₁ = row := w₄.db.conversations.eq_of_clash hrow₁ hrow
            (by simp [conversationSchema, hid₁, hid])
          rw [if_pos hid₁]
          refine .inr ⟨horg, fun userId' h => ?_⟩
          rw [hdesignated] at h
          cases h
          obtain ⟨t, rfl⟩ := hholds
          exact column_self _ _
        · rw [if_neg hid₁]
          rcases store_assigned hplaced hattachments happly hrow₁ with hold | ⟨_, hnew, _⟩
          · exact .inl hold
          · exact absurd hnew hid₁
      · rw [Held, hrows]
        rintro c hc
        cases hc
        refine ⟨_, List.mem_map_of_mem hrow, ?_⟩
        rw [if_pos hid]
        exact hholds.patch _ ⟨rfl, rfl, rfl, rfl⟩

/-- One message of a payload. -/
theorem processInboundItem (hK : Ingests K orgId channelType fresh wanted)
    {held : Option Conversation} {item : NormalizedInboundMessage} {w : World}
    (hheld : Held w.db held) (hwanted : wanted item.externalMessageId)
    {Q : Except PyErr (Option Conversation) → World → Prop}
    (hok : ∀ r w', Outcome K orgId channelType (fresh w.db) item w w' r → Q (.ok r) w')
    (herror : ∀ e w', Q (.error e) w') :
    K.wp (processInboundItem orgId channelType held item) w Q := by
  refine wp_bind (hK.findOrCreateIdentity _ _ (fun identity before w₁ h₁ hsender => ?_)
    fun e w₁ _ => herror e w₁)
  refine wp_bind (hK.findOrCreateConversation (by rw [h₁.db]; exact hheld)
    (by rw [h₁.db]; exact hsender.adds) (fun conversation isNew pending w₂ h₂ hthread => ?_)
    fun e w₂ _ => herror e w₂)
  refine wp_bind (hK.uuid4 fun messageId w₃ h₃ hfresh => ?_)
  have h := (h₁.trans h₂).trans h₃
  rw [h₁.db] at hthread
  rw [h.db] at hfresh
  have hplaced : Placed orgId channelType item.externalId (fresh w.db) w.db conversation isNew
      pending := ⟨identity, before, hsender, hthread⟩
  have hadds : ∀ write ∈ pending ++ [.insertMessage
      (inboundMessage messageId orgId channelType conversation.id item)],
      write.Adds orgId channelType (fresh w.db) wanted := by
    intro write hwrite
    rcases List.mem_append.mp hwrite with hold | hnew
    · exact hplaced.adds write hold
    · obtain rfl := List.mem_singleton.mp hnew
      exact ⟨rfl, hfresh, rfl, rfl, rfl, hwanted⟩
  refine wp_bind (hK.flushMessage (by rw [h.db]; exact hadds) (fun w₄ h₄ => ?_)
    (fun w₄ h₄ hrejected => ?_) fun e w₄ _ => herror e w₄)
  · have h' := h.trans h₄
    show K.wp ((Omnichannel.storeMessage orgId channelType conversation isNew _ messageId item).bind
      fun routed => .ret (some routed)) w₄ Q
    refine wp_bind (hK.storeMessage (by rw [h'.db]; exact hplaced) (by rw [h'.db]; exact hfresh)
      hwanted (fun routed w₅ hingested => ?_) herror)
    exact hok _ w₅ (.stored routed (hingested.of_calm h'))
  · rw [h.db] at hrejected
    exact hok none w₄ (.duplicate conversation isNew pending messageId hplaced hfresh hrejected
      (h.trans h₄))

/-- A delivery update: it is applied to a row that was found, or not. -/
theorem applyDeliveryStatus (hK : Ingests K orgId channelType fresh wanted)
    (update : DeliveryStatusUpdate) {w : World} {Q : Except PyErr Unit → World → Prop}
    (hok : ∀ w', Delivered w w' → Q (.ok ()) w')
    (herror : ∀ e w', Q (.error e) w') :
    K.wp (applyDeliveryStatus orgId channelType update) w Q := by
  have hreads : (Call.selectByExternalId orgId channelType update.externalMessageId).Reads orgId :=
    rfl
  refine wp_bind (hK.perform fun x w₁ h₁ hx => ⟨hK.reads _ hreads x w₁ hx, ?_⟩)
  have hafter := h₁.trans (calm_answer (harmless_of_reads hreads) x w₁)
  cases hr : ((Call.selectByExternalId orgId channelType update.externalMessageId).answer x w₁).1 with
  | error e => exact herror e _
  | ok found =>
    have hrows := Core.Fate.eq_of_query hr
    rw [h₁.db] at hrows
    generalize ((Call.selectByExternalId orgId channelType update.externalMessageId).answer x w₁).2 =
      w₂ at hafter ⊢
    cases found with
    | none => exact hok w₂ (.inl hafter)
    | some message =>
      have hmem := List.mem_filter.mp (mem_of_scalarOneOrNone hrows)
      simp only [Bool.and_eq_true, beq_iff_eq] at hmem
      show K.wp (if advances message.status update.status then _ else _) w₂ Q
      split
      case isFalse => exact hok w₂ (.inl hafter)
      next hadvances =>
      have hwrites : Ingestion orgId channelType (fresh w₂.db) wanted w₂.db
          [.updateMessage message { message with status := update.status }] :=
        .deliver message update.status (by rw [hafter.db]; exact hmem.1) hmem.2.1.1 hmem.2.1.2
          hadvances
      refine wp_bind (hK.commits hwrites (fun now w₃ happly hcore => ?_) herror)
      rw [hafter.db] at happly
      exact hK.rest (calls_reads_core (Core.calls_publishUpdate _ _ _))
        (fun _ w₄ h₄ => hok w₄ (.inr ⟨message, update.status, now, by rw [h₄.db]; exact happly,
          (hafter.core.trans hcore).trans h₄.core⟩)) fun e w₄ _ => herror e w₄

/-- The messages of a payload. `J` relates the ones that have been processed to the state. -/
theorem processInboundItems (hK : Ingests K orgId channelType fresh wanted)
    {normalized : List NormalizedInboundMessage} {J : List NormalizedInboundMessage → World → Prop}
    {w : World} (hwanted : ∀ item ∈ normalized, wanted item.externalMessageId) (hstart : J [] w)
    (hitem : ∀ done item w₁ w₂ r, J done w₁ →
      Outcome K orgId channelType (fresh w₁.db) item w₁ w₂ r → J (done ++ [item]) w₂) :
    K.wp (Proc.forEach normalized none (Omnichannel.processInboundItem orgId channelType)) w
      fun r w' => ∀ held, r = .ok held → J normalized w' := by
  refine wp_forEach (fun rest held w' => Held w'.db held ∧
    ∃ done, normalized = done ++ rest ∧ J done w') (fun held w' h _ _ => ?_) ?_
    ⟨nofun, [], rfl, hstart⟩
  · obtain ⟨done, hdone, hJ⟩ := h.2
    rw [hdone, List.append_nil]
    exact hJ
  · rintro item rest held w₁ ⟨hheld, done, hdone, hJ⟩
    have hmem : item ∈ normalized := hdone ▸ List.mem_append_right _ List.mem_cons_self
    refine hK.processInboundItem hheld (hwanted item hmem) (fun r w₂ houtcome => ?_) fun e w₂ => nofun
    refine ⟨?_, done ++ [item], by rw [hdone]; simp, hitem done item w₁ w₂ r hJ houtcome⟩
    cases houtcome with
    | duplicate => exact nofun
    | stored routed h => exact h.held

/-- The rest of an entry, once its payload is normalized. `J` relates the messages that have been
processed to the state. -/
theorem processNormalized (hK : Ingests K orgId channelType fresh wanted) {adapter : ChannelAdapter}
    {rawPayload : Json} {normalized : List NormalizedInboundMessage}
    {J : List NormalizedInboundMessage → World → Prop} {w : World}
    {Q : Except PyErr Unit → World → Prop}
    (hwanted : ∀ item ∈ normalized, wanted item.externalMessageId) (hstart : J [] w)
    (hitem : ∀ done item w₁ w₂ r, J done w₁ →
      Outcome K orgId channelType (fresh w₁.db) item w₁ w₂ r → J (done ++ [item]) w₂)
    (hdelivered : ∀ done w₁ w₂, J done w₁ → Delivered w₁ w₂ → J done w₂)
    (hok : ∀ w', J normalized w' → Q (.ok ()) w') (herror : ∀ e w', Q (.error e) w') :
    K.wp (Omnichannel.processNormalized orgId channelType adapter rawPayload normalized) w Q := by
  refine wp_bind (wp_mono (fun r w₂ hr => ?_) (hK.processInboundItems hwanted hstart hitem))
  cases r with
  | error e => exact herror e w₂
  | ok held =>
    refine wp_bind (wp_ofExcept.mpr ?_)
    cases adapter.interpretDeliveryWebhook rawPayload with
    | error e => exact herror e w₂
    | ok updates =>
      refine wp_forEach (fun _ _ w' => J normalized w') (fun _ w' h => hok w' h) ?_ (hr held rfl)
      intro update rest _ w₃ hJ
      exact hK.applyDeliveryStatus update (fun w₄ h => hdelivered _ _ _ hJ h) herror

/-- **One entry.** `J` relates the messages that have been processed to the state: what one message
and one delivery update keep, the entry keeps. -/
theorem processInboundMessage (hK : Ingests K orgId channelType fresh wanted) {registry : Registry}
    {msg : QueueMessage} (horg : getItem msg.attributes "org_id" = .ok orgId)
    (hchannel : getItem msg.attributes "channel_type" = .ok channelType)
    {J : List NormalizedInboundMessage → World → Prop} {w : World}
    {Q : Except PyErr Unit → World → Prop}
    (hstart : ∀ normalized v w', Normalizes registry msg v.core normalized → Calm w v → Calm w w' →
      (∀ item ∈ normalized, wanted item.externalMessageId) ∧ J [] w')
    (hitem : ∀ done item w₁ w₂ r, J done w₁ →
      Outcome K orgId channelType (fresh w₁.db) item w₁ w₂ r → J (done ++ [item]) w₂)
    (hdelivered : ∀ done w₁ w₂, J done w₁ → Delivered w₁ w₂ → J done w₂)
    (hok : ∀ normalized v w', Normalizes registry msg v.core normalized → Calm w v →
      J normalized w' → Q (.ok ()) w')
    (herror : ∀ e w', Q (.error e) w') :
    K.wp (processInboundMessage registry msg) w Q := by
  unfold Omnichannel.processInboundMessage
  rw [horg, hchannel]
  show K.wp ((Proc.ofExcept (getAdapter registry channelType)).bind _) w Q
  refine wp_bind (wp_ofExcept.mpr ?_)
  cases hadapter : getAdapter registry channelType with
  | error e => exact herror e w
  | ok adapter =>
  refine wp_bind (wp_ofExcept.mpr ?_)
  cases hraw : getItem msg.body "raw_payload" with
  | error e => exact herror e w
  | ok rawPayload =>
  have hreads : (Call.normalizeInbound adapter rawPayload).Reads orgId := trivial
  refine wp_bind (hK.perform fun x v hv hx => ⟨hK.reads _ hreads x v hx, ?_⟩)
  have hafter := hv.trans (calm_answer (harmless_of_reads hreads) x v)
  cases hr : ((Call.normalizeInbound adapter rawPayload).answer x v).1 with
  | error e => exact herror e _
  | ok normalized =>
    have hnormalizes : Normalizes registry msg v.core normalized :=
      ⟨channelType, adapter, rawPayload, hchannel, hadapter, hraw, Core.Fate.eq_of_query hr⟩
    generalize ((Call.normalizeInbound adapter rawPayload).answer x v).2 = w₁ at hafter ⊢
    obtain ⟨hwanted, hJ⟩ := hstart normalized v w₁ hnormalizes hv hafter
    exact hK.processNormalized hwanted hJ hitem hdelivered
      (fun w' h => hok normalized v w' hnormalizes hv h) herror

end Ingests

end A2ZCore.Omnichannel
