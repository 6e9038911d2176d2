import A2ZCore.Core.Steady
import A2ZCore.Omnichannel.Effects

/-!
# What the inbound worker writes

What the inbound worker writes to the database: it commits a message with the conversation and the
identity that it belongs to, assigns a new conversation, and advances a status. `Ingests` says what a
setting needs so that the worker's programs can be verified in it, and the rules for the parts of
`_process_inbound_message` hold in every such setting.

## Main definitions

* `Sender`, `Thread` — the identity and the conversation of a message, found or to be inserted
* `Ingestion` — what a commit of the inbound worker writes
* `Ingests` — a setting in which the worker runs

## Main results

* `Ingests.findOrCreateIdentity`, `Ingests.findOrCreateConversation`, `Ingests.flushMessage`
* `store_messages`, `store_conversations`, `store_held` — the rows after a message is stored
-/

namespace A2ZCore.Omnichannel

open Interaction Interaction.Proc Interaction.Contract Messaging Relational

/-! ### What the others do -/

/-- Nothing else writes to the database or changes an org's settings; events are added. -/
structure Calm (w w' : World) : Prop where
  db : w'.db = w.db
  core : Core.Steady w.core w'.core

theorem Calm.refl (w : World) : Calm w w := ⟨rfl, .refl _⟩

theorem Calm.trans {u v w : World} (h : Calm u v) (h' : Calm v w) : Calm u w :=
  ⟨h'.db.trans h.db, h.core.trans h'.core⟩

/-- The call commits nothing, and allocates no invoice number. -/
def Call.Harmless : Call → Prop
  | .core c => c.KeepsSettings
  | .commit _ => False
  | _ => True

theorem calm_answer {c : Call} (hc : c.Harmless) (x : Choice) (w : World) :
    Calm w (c.answer x w).2 := by
  rcases c.writes_of_answer x w with h | h
  · rw [h]
    exact .refl w
  · generalize (c.answer x w).2 = w' at h ⊢
    cases h with
    | core c x => exact ⟨rfl, Core.steady_answer hc x w.core⟩
    | commit => exact hc.elim
    | _ => exact ⟨rfl, .refl _⟩

/-! ### Whom a message is from -/

/-- The identity that `_find_or_create_identity` creates. -/
def newIdentity (id orgId channelType externalId : String) (displayName : Option String) :
    ChannelIdentity :=
  { id, orgId, channelType, externalId, displayName, customerId := none,
    createdAt := ⟨⟨1, 1, 1⟩, 0, 0, 0, 0⟩ }

/-- The conversation that `_find_or_create_conversation` creates. -/
def newConversation (id orgId customerIdentityId : String) : Conversation :=
  { id, orgId, customerIdentityId, status := "open", assignedUserId := none,
    lastMessageAt := none, lastMessagePreview := none, unreadCount := 0,
    createdAt := ⟨⟨1, 1, 1⟩, 0, 0, 0, 0⟩ }

/-- The identity of the org that a message is from. -/
def ChannelIdentity.IsFor (orgId channelType externalId : String) (i : ChannelIdentity) : Prop :=
  i.orgId = orgId ∧ i.channelType = channelType ∧ i.externalId = externalId

/-- The conversation of the org with an identity. -/
def Conversation.IsWith (orgId identityId : String) (c : Conversation) : Prop :=
  c.orgId = orgId ∧ c.customerIdentityId = identityId

/-- What the session holds of a row: everything but the time, which the database sets. -/
def Conversation.Holds (c row : Conversation) : Prop := ∃ t, row = { c with createdAt := t }

/-- A conversation that the worker holds is one of the database. -/
def Held (db : Db) (held : Option Conversation) : Prop :=
  ∀ c, held = some c → ∃ row ∈ db.conversations.rows, c.Holds row

/-- The identity of a sender, and the writes that are then pending. -/
inductive Sender (orgId channelType externalId : String) (fresh : String → Prop) (db : Db) :
    ChannelIdentity → List Write → Prop where
  | found (identity : ChannelIdentity) (hmem : identity ∈ db.identities.rows)
      (hfor : identity.IsFor orgId channelType externalId) :
    Sender orgId channelType externalId fresh db identity []
  | created (id : String) (displayName : Option String) (hfresh : fresh id)
      (hnew : ∀ i ∈ db.identities.rows, ¬i.IsFor orgId channelType externalId) :
    Sender orgId channelType externalId fresh db
      (newIdentity id orgId channelType externalId displayName)
      [.insertIdentity (newIdentity id orgId channelType externalId displayName)]

/-- The conversation with a sender, whether it is new, and the writes that are then pending. -/
inductive Thread (orgId identityId : String) (fresh : String → Prop) (db : Db)
    (pending : List Write) : Conversation → Bool → List Write → Prop where
  | found (conversation row : Conversation) (hmem : row ∈ db.conversations.rows)
      (hholds : conversation.Holds row) (hwith : row.IsWith orgId identityId) :
    Thread orgId identityId fresh db pending conversation false pending
  | created (id : String) (hfresh : fresh id)
      (hnew : ∀ c ∈ db.conversations.rows, ¬c.IsWith orgId identityId) :
    Thread orgId identityId fresh db pending (newConversation id orgId identityId) true
      (pending ++ [.insertConversation (newConversation id orgId identityId)])

/-- Where a message belongs, and the writes that are pending before it is inserted. -/
structure Placed (orgId channelType externalId : String) (fresh : String → Prop) (db : Db)
    (conversation : Conversation) (isNew : Bool) (pending : List Write) : Prop where
  place : ∃ identity before, Sender orgId channelType externalId fresh db identity before ∧
    Thread orgId identity.id fresh db before conversation isNew pending

/-! ### What is committed -/

/-- The writes of a commit of the inbound worker. -/
inductive Ingestion (orgId channelType : String) (fresh wanted : String → Prop) (db : Db) :
    List Write → Prop where
  | store (conversation : Conversation) (isNew : Bool) (pending attachments : List Write)
      (messageId : String) (now : DateTime) (item : NormalizedInboundMessage)
      (hplaced : Placed orgId channelType item.externalId fresh db conversation isNew pending)
      (hfresh : fresh messageId) (hwanted : wanted item.externalMessageId)
      (hattachments : ∀ write ∈ attachments, ∃ a, write = .insertAttachment a ∧ fresh a.id)
      (hattached : ∀ a, .insertAttachment a ∈ attachments → a.orgId = orgId) :
    Ingestion orgId channelType fresh wanted db
      (pending ++ [.insertMessage
          (inboundMessage messageId orgId channelType conversation.id item)] ++
        [.updateConversation conversation (withMessage conversation now item.bodyText)] ++
          attachments)
  | assign (conversation row : Conversation) (id userId assignedBy reason : String)
      (hmem : row ∈ db.conversations.rows) (hholds : conversation.Holds row)
      (horg : row.orgId = orgId) (hfresh : fresh id) :
    Ingestion orgId channelType fresh wanted db
      [.updateConversation conversation { conversation with assignedUserId := some userId },
        .insertAssignment (newAssignment id conversation userId assignedBy reason)]
  | deliver (message : Message) (status : String) (hmem : message ∈ db.messages.rows)
      (horg : message.orgId = orgId) (hchannel : message.channelType = channelType)
      (hadvances : advances message.status status) :
    Ingestion orgId channelType fresh wanted db
      [.updateMessage message { message with status := status }]

/-- The writes of a flush of the inbound worker: rows of the org, with fresh ids. -/
def Write.Adds (orgId channelType : String) (fresh wanted : String → Prop) : Write → Prop
  | .insertIdentity identity => identity.orgId = orgId ∧ fresh identity.id
  | .insertConversation conversation => conversation.orgId = orgId ∧ fresh conversation.id
  | .insertMessage message => message.orgId = orgId ∧ fresh message.id ∧
      message.channelType = channelType ∧ message.direction = .inbound ∧
        message.clientDedupKey = none ∧ wanted message.externalMessageId
  | _ => False

/-- The call only reads, and reads of the org. -/
def Call.Reads (orgId : String) : Call → Prop
  | .core c => c.KeepsSettings
  | .selectIdentity org _ _ => org = orgId
  | .selectConversation org _ => org = orgId
  | .selectByExternalId org _ _ => org = orgId
  | .rollback => True
  | .normalizeInbound _ _ => True
  | _ => False

theorem harmless_of_reads {orgId : String} {c : Call} (h : c.Reads orgId) : c.Harmless := by
  cases c with
  | core => exact h
  | commit => exact h.elim
  | _ => trivial

/-- A setting in which the inbound worker processes payloads of an org and a channel. -/
structure Ingests (K : Contract Call Call.Resp PyErr Choice World) (orgId channelType : String)
    (fresh : Db → String → Prop) (wanted : String → Prop) : Prop where
  answer : K.answer = Call.answer
  rely : ∀ w w', K.rely w w' ↔ Calm w w'
  generated : ∀ x w, K.admits (.core .uuid4) x w → fresh w.db x.token
  reads : ∀ c : Call, c.Reads orgId → ∀ x w, K.admits c x w → K.guar c x w (c.answer x w).2
  flush : ∀ writes : List Write,
    ∀ x w, (∀ write ∈ writes, write.Adds orgId channelType (fresh w.db) wanted) →
      K.admits (.flush writes) x w → K.guar (.flush writes) x w ((Call.flush writes).answer x w).2
  commit : ∀ (writes : List Write) x w, Ingestion orgId channelType (fresh w.db) wanted w.db writes →
    K.admits (.commit writes) x w → K.guar (.commit writes) x w ((Call.commit writes).answer x w).2

namespace Ingests

variable {K : Contract Call Call.Resp PyErr Choice World} {orgId channelType : String}
  {fresh : Db → String → Prop} {wanted : String → Prop}

/-- A program that only reads, with what it returns. -/
theorem restReturns (hK : Ingests K orgId channelType fresh wanted) {α : Type} {V : α → Prop}
    {p : Prog α} {Q : Except PyErr α → World → Prop} {w : World}
    (hp : p.Calls (Call.Reads orgId)) (hv : p.Returns V)
    (hok : ∀ a w', Calm w w' → V a → Q (.ok a) w') (herror : ∀ e w', Calm w w' → Q (.error e) w') :
    K.wp p w Q := by
  refine wp_of_calls (fun c hc x w' hx => ?_) hp hv
    (fun a w' h ha => hok a w' ((hK.rely _ _).mp h) ha) fun e w' h => herror e w' ((hK.rely _ _).mp h)
  rw [hK.rely, hK.answer]
  exact ⟨hK.reads c hc x w' hx, calm_answer (harmless_of_reads hc) x w'⟩

/-- A program that only reads. -/
theorem rest (hK : Ingests K orgId channelType fresh wanted) {α : Type} {p : Prog α}
    {Q : Except PyErr α → World → Prop} {w : World} (hp : p.Calls (Call.Reads orgId))
    (hok : ∀ a w', Calm w w' → Q (.ok a) w') (herror : ∀ e w', Calm w w' → Q (.error e) w') :
    K.wp p w Q :=
  hK.restReturns hp p.returns_true (fun a w' h _ => hok a w' h) herror

/-- A part of a program that only reads. -/
theorem bind (hK : Ingests K orgId channelType fresh wanted) {α β : Type} {p : Prog α}
    {f : α → Prog β} {Q : Except PyErr β → World → Prop} {w : World}
    (hp : p.Calls (Call.Reads orgId)) (hf : ∀ a w', Calm w w' → K.wp (f a) w' Q)
    (herror : ∀ e w', Calm w w' → Q (.error e) w') : K.wp (p.bind f) w Q :=
  wp_bind (hK.rest hp hf herror)

/-- One call, with its reply. -/
theorem perform (hK : Ingests K orgId channelType fresh wanted) {c : Call}
    {Q : Except PyErr c.Resp → World → Prop} {w : World}
    (h : ∀ x w', Calm w w' → K.admits c x w' →
      K.guar c x w' (c.answer x w').2 ∧ Q (c.answer x w').1 (c.answer x w').2) :
    K.wp (run c) w Q := by
  refine wp_perform fun w' hw x hx => ?_
  rw [hK.answer]
  exact h x w' ((hK.rely _ _).mp hw) hx

/-- A freshly generated identifier. -/
theorem uuid4 (hK : Ingests K orgId channelType fresh wanted) {Q : Except PyErr String → World → Prop}
    {w : World} (hok : ∀ id w', Calm w w' → fresh w'.db id → Q (.ok id) w') :
    K.wp (core (Core.run .uuid4)) w Q := by
  intro w' hw x hx
  have hreads : (Call.core .uuid4).Reads orgId := trivial
  refine ⟨?_, ?_⟩
  · rw [hK.answer]
    exact hK.reads _ hreads x w' hx
  · rw [hK.answer]
    exact hok x.token w' ((hK.rely _ _).mp hw) (hK.generated x w' hx)

/-- A flush changes nothing, and can fail. -/
theorem flushes (hK : Ingests K orgId channelType fresh wanted) {writes : List Write}
    {Q : Except PyErr Unit → World → Prop} {w : World}
    (hadds : ∀ write ∈ writes, write.Adds orgId channelType (fresh w.db) wanted)
    (hok : ∀ w', Calm w w' → Q (.ok ()) w')
    (herror : ∀ x w' e, Calm w w' → K.admits (.flush writes) x w' →
      ((Call.flush writes).answer x w').1 = .error e → Q (.error e) w') :
    K.wp (run (.flush writes)) w Q := by
  refine hK.perform fun x w' hw hx => ⟨?_, ?_⟩
  · refine hK.flush writes x w' ?_ hx
    rw [hw.db]
    exact hadds
  · have hsame : ((Call.flush writes).answer x w').2 = w' := Core.Fate.snd_query _ _ _
    rw [hsame]
    cases hr : ((Call.flush writes).answer x w').1 with
    | ok u => exact hok w' hw
    | error e => exact herror x w' e hw hx hr

end Ingests

/-! ### Finding and creating -/

section Place

variable {orgId channelType externalId identityId : String} {fresh wanted : String → Prop} {db : Db}

theorem Sender.adds {identity : ChannelIdentity} {pending : List Write}
    (h : Sender orgId channelType externalId fresh db identity pending) :
    ∀ write ∈ pending, write.Adds orgId channelType fresh wanted := by
  cases h with
  | found => simp
  | created id displayName hfresh hnew =>
    intro write hwrite
    obtain rfl := List.mem_singleton.mp hwrite
    exact ⟨rfl, hfresh⟩

theorem Thread.adds {before pending : List Write} {conversation : Conversation} {isNew : Bool}
    (h : Thread orgId identityId fresh db before conversation isNew pending)
    (hbefore : ∀ write ∈ before, write.Adds orgId channelType fresh wanted) :
    ∀ write ∈ pending, write.Adds orgId channelType fresh wanted := by
  cases h with
  | found => exact hbefore
  | created id hfresh hnew =>
    intro write hwrite
    rcases List.mem_append.mp hwrite with hold | hnew
    · exact hbefore write hold
    · obtain rfl := List.mem_singleton.mp hnew
      exact ⟨rfl, hfresh⟩

theorem Placed.adds {pending : List Write} {conversation : Conversation} {isNew : Bool}
    (h : Placed orgId channelType externalId fresh db conversation isNew pending) :
    ∀ write ∈ pending, write.Adds orgId channelType fresh wanted := by
  obtain ⟨identity, before, hsender, hthread⟩ := h.place
  exact hthread.adds hsender.adds

/-- A conversation that the worker holds, and that is found again, is the row that is found. -/
theorem Held.holds {held : Option Conversation} {row : Conversation} (h : Held db held)
    (hrow : row ∈ db.conversations.rows) :
    Conversation.Holds ((held.filter fun c => c.id == row.id).getD row) row := by
  cases held with
  | none => exact ⟨row.createdAt, rfl⟩
  | some c =>
    rw [Option.filter_some]
    split
    · next hid =>
      obtain ⟨row', hrow', t, rfl⟩ := h c rfl
      have hclash : conversationSchema.clash { c with createdAt := t } row = true := hid
      exact ⟨t, (db.conversations.eq_of_clash hrow' hrow hclash).symm⟩
    · exact ⟨row.createdAt, rfl⟩

end Place

namespace Ingests

variable {K : Contract Call Call.Resp PyErr Choice World} {orgId channelType : String}
  {fresh : Db → String → Prop} {wanted : String → Prop}

theorem findOrCreateIdentity (hK : Ingests K orgId channelType fresh wanted)
    (externalId : String) (displayName : Option String) {w : World}
    {Q : Except PyErr (ChannelIdentity × List Write) → World → Prop}
    (hok : ∀ identity pending w', Calm w w' →
      Sender orgId channelType externalId (fresh w.db) w.db identity pending →
        Q (.ok (identity, pending)) w')
    (herror : ∀ e w', Calm w w' → Q (.error e) w') :
    K.wp (findOrCreateIdentity orgId channelType externalId displayName) w Q := by
  have hreads : (Call.selectIdentity orgId channelType externalId).Reads orgId := rfl
  refine wp_bind (hK.perform fun x w₁ h₁ hx => ⟨hK.reads _ hreads x w₁ hx, ?_⟩)
  have hafter := h₁.trans (calm_answer (harmless_of_reads hreads) x w₁)
  cases hr : ((Call.selectIdentity orgId channelType externalId).answer x w₁).1 with
  | error e => exact herror e _ hafter
  | ok found =>
    have hrows := Core.Fate.eq_of_query hr
    rw [h₁.db] at hrows
    generalize ((Call.selectIdentity orgId channelType externalId).answer x w₁).2 = w₂ at hafter ⊢
    cases found with
    | some identity =>
      have hmem := List.mem_filter.mp (mem_of_scalarOneOrNone hrows)
      refine hok identity [] w₂ hafter (.found identity hmem.1 ?_)
      simpa [ChannelIdentity.IsFor, and_assoc] using hmem.2
    | none =>
      refine wp_bind (hK.uuid4 fun id w₃ h₃ hfresh => ?_)
      have h := hafter.trans h₃
      rw [h.db] at hfresh
      have hsender : Sender orgId channelType externalId (fresh w.db) w.db
          (newIdentity id orgId channelType externalId displayName)
          [.insertIdentity (newIdentity id orgId channelType externalId displayName)] := by
        refine .created id displayName hfresh fun i hi hfor => ?_
        have hnone := List.filter_eq_nil_iff.mp (eq_nil_of_scalarOneOrNone hrows) i hi
        simp [hfor.1, hfor.2.1, hfor.2.2] at hnone
      refine wp_bind (hK.flushes (by rw [h.db]; exact hsender.adds) (fun w₄ h₄ => ?_)
        fun x w₄ e h₄ _ _ => herror e w₄ (h.trans h₄))
      exact hok _ _ w₄ (h.trans h₄) hsender

theorem findOrCreateConversation (hK : Ingests K orgId channelType fresh wanted)
    {held : Option Conversation} {pending : List Write} {identityId : String} {w : World}
    (hheld : Held w.db held)
    (hadds : ∀ write ∈ pending, write.Adds orgId channelType (fresh w.db) wanted)
    {Q : Except PyErr (Conversation × Bool × List Write) → World → Prop}
    (hok : ∀ conversation isNew after w', Calm w w' →
      Thread orgId identityId (fresh w.db) w.db pending conversation isNew after →
        Q (.ok (conversation, isNew, after)) w')
    (herror : ∀ e w', Calm w w' → Q (.error e) w') :
    K.wp (findOrCreateConversation held pending orgId identityId) w Q := by
  have hreads : (Call.selectConversation orgId identityId).Reads orgId := rfl
  refine wp_bind (hK.perform fun x w₁ h₁ hx => ⟨hK.reads _ hreads x w₁ hx, ?_⟩)
  have hafter := h₁.trans (calm_answer (harmless_of_reads hreads) x w₁)
  cases hr : ((Call.selectConversation orgId identityId).answer x w₁).1 with
  | error e => exact herror e _ hafter
  | ok found =>
    have hrows := Core.Fate.eq_of_query hr
    rw [h₁.db] at hrows
    generalize ((Call.selectConversation orgId identityId).answer x w₁).2 = w₂ at hafter ⊢
    cases found with
    | some row =>
      have hmem := List.mem_filter.mp (mem_of_scalarOneOrNone hrows)
      refine hok _ false pending w₂ hafter (.found _ row hmem.1 (hheld.holds hmem.1) ?_)
      simpa [Conversation.IsWith] using hmem.2
    | none =>
      refine wp_bind (hK.uuid4 fun id w₃ h₃ hfresh => ?_)
      have h := hafter.trans h₃
      rw [h.db] at hfresh
      have hthread : Thread orgId identityId (fresh w.db) w.db pending
          (newConversation id orgId identityId) true
          (pending ++ [.insertConversation (newConversation id orgId identityId)]) := by
        refine .created id hfresh fun c hc hwith => ?_
        have hnone := List.filter_eq_nil_iff.mp (eq_nil_of_scalarOneOrNone hrows) c hc
        simp [hwith.1, hwith.2] at hnone
      refine wp_bind (hK.flushes (by rw [h.db]; exact hthread.adds hadds) (fun w₄ h₄ => ?_)
        fun x w₄ e h₄ _ _ => herror e w₄ (h.trans h₄))
      exact hok _ _ _ w₄ (h.trans h₄) hthread

/-- A flush that was reported as a violated constraint. -/
def Rejected (K : Contract Call Call.Resp PyErr Choice World) (writes : List Write) (db : Db) :
    Prop :=
  ∃ x v e, World.db v = db ∧ K.admits (.flush writes) x v ∧
    ((Call.flush writes).answer x v).1 = .error e ∧ e.cls = .integrityError

theorem flushMessage (hK : Ingests K orgId channelType fresh wanted) {pending : List Write}
    {w : World} {Q : Except PyErr Bool → World → Prop}
    (hadds : ∀ write ∈ pending, write.Adds orgId channelType (fresh w.db) wanted)
    (hok : ∀ w', Calm w w' → Q (.ok true) w')
    (hrejected : ∀ w', Calm w w' → Rejected K pending w.db → Q (.ok false) w')
    (herror : ∀ e w', Calm w w' → Q (.error e) w') : K.wp (flushMessage pending) w Q := by
  refine wp_handle (wp_bind (hK.flushes hadds hok fun x w₁ e h₁ hx he => ?_))
  show K.wp _ w₁ Q
  dsimp only
  split
  case h_2 => exact herror e w₁ h₁
  next hcls =>
    refine hK.bind (Calls.perform trivial) (fun _ w₂ h₂ => ?_) fun e' w₂ h₂ => herror e' w₂ (h₁.trans h₂)
    exact hrejected w₂ (h₁.trans h₂) ⟨x, w₁, e, h₁.db, hx, he, hcls⟩

/-- A program of Core that allocates no invoice number. -/
theorem core (hK : Ingests K orgId channelType fresh wanted) {α : Type} {p : Core.Prog α} {w : World}
    {Q : Except PyErr α → Core.World → Prop} (hp : p.Calls Core.Call.KeepsSettings)
    (h : Core.steady.wp p w.core Q) :
    K.wp (Omnichannel.core p) w fun r w' => Q r w'.core ∧ Calm w w' := by
  have hembed := wp_embed K Core.steady Call.core (fun _ r => r) Choice.toChoice World.core (fun w w' hw => ((hK.rely w w').mp hw).core)
    (fun _ _ _ _ => trivial) ?_ ?_ hp h
  · exact wp_mono (fun r w' hr => ⟨hr.1, (hK.rely _ _).mp hr.2⟩) hembed
  · intro c x w
    rw [hK.answer]
    refine Prod.ext ?_ rfl
    show ((Call.core c).answer x w).1.map (fun r => r) = _
    cases hr : ((Call.core c).answer x w).1 with
    | ok a => exact hr.symm
    | error e => exact hr.symm
  · intro c hc x w hx
    have hreads : (Call.core c).Reads orgId := hc
    rw [hK.rely, hK.answer]
    exact ⟨hK.reads _ hreads x w hx, calm_answer (harmless_of_reads hreads) x w⟩

/-- A commit of the worker. -/
theorem commits (hK : Ingests K orgId channelType fresh wanted) {writes : List Write} {w : World}
    {Q : Except PyErr Unit → World → Prop}
    (hwrites : Ingestion orgId channelType (fresh w.db) wanted w.db writes)
    (hok : ∀ now w', w.db.apply now writes = .ok w'.db → Core.Steady w.core w'.core → Q (.ok ()) w')
    (herror : ∀ e w', Q (.error e) w') : K.wp (run (.commit writes)) w Q := by
  refine hK.perform fun x w₁ h₁ hx => ⟨?_, ?_⟩
  · refine hK.commit writes x w₁ ?_ hx
    rw [h₁.db]
    exact hwrites
  · cases hr : ((Call.commit writes).answer x w₁).1 with
    | error e => exact herror e _
    | ok u =>
      rcases commit_cases writes x w₁ with ⟨_, db, hdb, hw⟩ | ⟨_, _, e, he⟩
      · rw [hw]
        rw [h₁.db] at hdb
        exact hok x.now _ hdb h₁.core
      · rw [he] at hr
        cases hr

end Ingests

/-! ### Attachments -/

theorem calls_reads_core {orgId : String} {α : Type} {p : Core.Prog α}
    (hp : p.Calls Core.Call.KeepsSettings) : (core p).Calls (Call.Reads orgId) :=
  Calls.embed (P := Call.Reads orgId) hp

theorem calls_uploadAttachments (orgId messageId : String) (atts : List InboundAttachment) :
    (uploadAttachments orgId messageId atts).Calls (Call.Reads orgId) := by
  induction atts with
  | nil => trivial
  | cons att atts ih =>
    refine Calls.bind ?_ fun stored => ih.bind fun rest => trivial
    exact calls_reads_core (Core.calls_uploadFile _ _ _ _ _ _)

theorem returns_uploadAttachments (orgId messageId : String) (atts : List InboundAttachment) :
    (uploadAttachments orgId messageId atts).Returns fun uploaded =>
      ∀ a ∈ uploaded, a.orgId = orgId := by
  induction atts with
  | nil => exact nofun
  | cons att atts ih =>
    refine Returns.bind (returns_true _) fun stored _ => ih.bind fun rest hrest a ha => ?_
    rcases List.mem_cons.mp ha with rfl | ha
    · rfl
    · exact hrest a ha

theorem Ingests.addAttachments {K : Contract Call Call.Resp PyErr Choice World}
    {orgId channelType : String} {fresh : Db → String → Prop} {wanted : String → Prop}
    (hK : Ingests K orgId channelType fresh wanted) {attachments : List MessageAttachment}
    (horg : ∀ a ∈ attachments, a.orgId = orgId) {w : World}
    {Q : Except PyErr (List Write) → World → Prop}
    (hok : ∀ writes w', Calm w w' →
      (∀ write ∈ writes, ∃ a, write = .insertAttachment a ∧ fresh w.db a.id) →
      (∀ a, .insertAttachment a ∈ writes → a.orgId = orgId) → Q (.ok writes) w')
    (herror : ∀ e w', Calm w w' → Q (.error e) w') :
    K.wp (Omnichannel.addAttachments attachments) w Q := by
  induction attachments generalizing w Q with
  | nil => exact hok [] w (.refl w) (by simp) (by simp)
  | cons attachment attachments ih =>
    refine wp_bind (hK.uuid4 fun id w₁ h₁ hid => ?_)
    refine wp_bind (ih (fun a ha => horg a (List.mem_cons_of_mem _ ha))
      (fun writes w₂ h₂ hwrites horgs => ?_) fun e w₂ h₂ => herror e w₂ (h₁.trans h₂))
    rw [h₁.db] at hid hwrites
    refine hok _ w₂ (h₁.trans h₂) (fun write hwrite => ?_) fun a ha => ?_
    · rcases List.mem_cons.mp hwrite with rfl | hrest
      · exact ⟨_, rfl, hid⟩
      · exact hwrites write hrest
    · rcases List.mem_cons.mp ha with hsame | hrest
      · cases hsame
        exact horg attachment List.mem_cons_self
      · exact horgs a hrest

/-! ### Routing and reporting -/

/-- The user an org's settings designate for its new conversations. -/
def designated (w : Core.World) (orgId : String) : Option String :=
  match Core.OrgSettings.ofItem orgId ((w.settings orgId).getD []) >>= fun s =>
    designatedUser s.metadata with
  | .ok (some (.str userId)) => some userId
  | _ => none

/-- The user that the settings name. -/
def userIdOf : Except PyErr (Option Json) → Option String
  | .ok (some (.str userId)) => some userId
  | _ => none

theorem designated_of_steady {w w' : Core.World} (h : Core.Steady w w') (orgId : String) :
    designated w' orgId = designated w orgId := by
  rw [designated, h.settings, designated]

/-- The event that reports a message. -/
def receivedEvent (orgId channelType conversationId messageId : String) : Core.Event :=
  ⟨"a2z.omnichannel", "message.received", .obj (Json.set "org_id" (.str orgId)
    [("conversation_id", .str conversationId), ("message_id", .str messageId),
      ("channel_type", .str channelType)])⟩

theorem calls_announceMessage (orgId channelType : String) (conversation : Conversation)
    (messageId : String) :
    (announceMessage orgId channelType conversation messageId).Calls Core.Call.KeepsSettings := by
  refine (Core.calls_publishEvent _ _ _ _).bind fun _ => ?_
  refine (Core.calls_publishUpdate _ _ _).bind fun _ => ?_
  split
  · exact Core.calls_publishUpdate _ _ _
  · trivial

theorem wp_announceMessage (orgId channelType : String) (conversation : Conversation)
    (messageId : String) (w : Core.World) :
    Core.steady.wp (announceMessage orgId channelType conversation messageId) w fun r w' =>
      r = .ok () → receivedEvent orgId channelType conversation.id messageId ∈ w'.events := by
  refine wp_bind (wp_mono (fun r w₁ hr => ?_) (Core.wp_publishEvent _ _ _ _ w))
  cases r with
  | error e => exact fun h => nomatch h
  | ok id =>
    refine Core.wp_of_keepsSettings ?_ fun r w₂ h₂ _ => h₂.events _ (hr id rfl)
    refine (Core.calls_publishUpdate _ _ _).bind fun _ => ?_
    split
    · exact Core.calls_publishUpdate _ _ _
    · trivial

theorem calls_announceAssignment (conversation : Conversation)
    (assignedUserId assignedBy reason : String) :
    (announceAssignment conversation assignedUserId assignedBy reason).Calls
      Core.Call.KeepsSettings := by
  refine (Core.calls_logAudit _ _ _ _ _ _).bind fun _ => ?_
  refine (Core.calls_publishEvent _ _ _ _).bind fun _ => ?_
  exact (Core.calls_publishUpdate _ _ _).bind fun _ => Core.calls_publishUpdate _ _ _

/-! ### The rows after a commit -/

section Rows

variable {orgId channelType externalId : String} {fresh : String → Prop} {db db' : Db}
  {conversation : Conversation} {isNew : Bool} {pending attachments : List Write} {now : DateTime}

theorem foldl_attachments
    (h : ∀ write ∈ attachments, ∃ a, write = .insertAttachment a ∧ fresh a.id)
    (identities : List ChannelIdentity) (conversations : List Conversation)
    (messages : List Message) :
    attachments.foldl (fun rows write => write.onIdentities now rows) identities = identities ∧
      attachments.foldl (fun rows write => write.onConversations now rows) conversations =
        conversations ∧
      attachments.foldl (fun rows write => write.onMessages now rows) messages = messages := by
  induction attachments with
  | nil => exact ⟨rfl, rfl, rfl⟩
  | cons write attachments ih =>
    obtain ⟨a, rfl, _⟩ := h write List.mem_cons_self
    exact ih fun write hwrite => h write (List.mem_cons_of_mem _ hwrite)

theorem Placed.foldl_messages
    (h : Placed orgId channelType externalId fresh db conversation isNew pending)
    (rows : List Message) :
    pending.foldl (fun rows write => write.onMessages now rows) rows = rows := by
  obtain ⟨identity, before, hsender, hthread⟩ := h.place
  cases hsender <;> cases hthread <;> rfl

theorem Placed.foldl_conversations
    (h : Placed orgId channelType externalId fresh db conversation isNew pending)
    (rows : List Conversation) :
    pending.foldl (fun rows write => write.onConversations now rows) rows =
      rows ++ if isNew then [{ conversation with createdAt := now }] else [] := by
  obtain ⟨identity, before, hsender, hthread⟩ := h.place
  cases hsender <;> cases hthread <;> simp [Write.onConversations]

/-- The message is added. -/
theorem store_messages {message : Message} {loaded current : Conversation}
    (hplaced : Placed orgId channelType externalId fresh db conversation isNew pending)
    (hattachments : ∀ write ∈ attachments, ∃ a, write = .insertAttachment a ∧ fresh a.id)
    (h : db.apply now (pending ++ [.insertMessage message] ++
      [.updateConversation loaded current] ++ attachments) = .ok db') :
    db'.messages.rows = db.messages.rows ++ [{ message with createdAt := now }] := by
  rw [(Db.rows_apply h).2.2, List.foldl_append, (foldl_attachments hattachments [] [] _).2.2,
    List.foldl_append, List.foldl_append, hplaced.foldl_messages]
  rfl

/-- The conversation is added where it is new, and updated. -/
theorem store_conversations {message : Message} {current : Conversation}
    (hplaced : Placed orgId channelType externalId fresh db conversation isNew pending)
    (hattachments : ∀ write ∈ attachments, ∃ a, write = .insertAttachment a ∧ fresh a.id)
    (h : db.apply now (pending ++ [.insertMessage message] ++
      [.updateConversation conversation current] ++ attachments) = .ok db') :
    db'.conversations.rows =
      (db.conversations.rows ++ if isNew then [{ conversation with createdAt := now }] else []).map
        fun row : Conversation =>
          if row.id = current.id then .patch conversation current row else row := by
  rw [(Db.rows_apply h).2.1, List.foldl_append, (foldl_attachments hattachments [] _ []).2.1,
    List.foldl_append, List.foldl_append, hplaced.foldl_conversations]
  rfl

/-- What an `UPDATE` makes of the row that the session holds. -/
theorem Conversation.Holds.patch {loaded row : Conversation} (h : loaded.Holds row)
    (current : Conversation) (hsame : current.id = loaded.id ∧ current.orgId = loaded.orgId ∧
      current.customerIdentityId = loaded.customerIdentityId ∧ current.status = loaded.status) :
    current.Holds (.patch loaded current row) := by
  obtain ⟨t, rfl⟩ := h
  obtain ⟨hid, horg, hidentity, hstatus⟩ := hsame
  refine ⟨t, ?_⟩
  simp only [Conversation.patch, column_self]
  rw [← hid, ← horg, ← hidentity, ← hstatus]

/-- The conversation that a message was stored in is held. -/
theorem store_held {message : Message} {now' : DateTime} {bodyText : Option String}
    (hplaced : Placed orgId channelType externalId fresh db conversation isNew pending)
    (hattachments : ∀ write ∈ attachments, ∃ a, write = .insertAttachment a ∧ fresh a.id)
    (h : db.apply now (pending ++ [.insertMessage message] ++
      [.updateConversation conversation (withMessage conversation now' bodyText)] ++ attachments) =
        .ok db') :
    ∃ row ∈ db'.conversations.rows, (withMessage conversation now' bodyText).Holds row ∧
      row.orgId = orgId := by
  rw [store_conversations hplaced hattachments h]
  have hrow : ∃ row ∈ db.conversations.rows ++
      (if isNew then [{ conversation with createdAt := now }] else []),
      conversation.Holds row ∧ row.orgId = orgId := by
    obtain ⟨identity, before, _, hthread⟩ := hplaced.place
    cases hthread with
    | found _ row hmem hholds hwith => exact ⟨row, List.mem_append_left _ hmem, hholds, hwith.1⟩
    | created id _ _ => exact ⟨_, List.mem_append_right _ (List.mem_singleton.mpr rfl), ⟨now, rfl⟩, rfl⟩
  obtain ⟨row, hmem, hholds, horg⟩ := hrow
  have hid : row.id = (withMessage conversation now' bodyText).id := by
    obtain ⟨t, rfl⟩ := hholds
    rfl
  refine ⟨_, List.mem_map_of_mem hmem, ?_⟩
  rw [if_pos hid]
  exact ⟨hholds.patch _ ⟨rfl, rfl, rfl, rfl⟩, horg⟩

/-- A message changes no assignment. -/
theorem store_assigned {message : Message} {now' : DateTime} {bodyText : Option String}
    (hplaced : Placed orgId channelType externalId fresh db conversation isNew pending)
    (hattachments : ∀ write ∈ attachments, ∃ a, write = .insertAttachment a ∧ fresh a.id)
    (h : db.apply now (pending ++ [.insertMessage message] ++
      [.updateConversation conversation (withMessage conversation now' bodyText)] ++ attachments) =
        .ok db') {row : Conversation} (hrow : row ∈ db'.conversations.rows) :
    (∃ row₀ ∈ db.conversations.rows, row₀.id = row.id ∧ row₀.orgId = row.orgId ∧
        row₀.assignedUserId = row.assignedUserId) ∨
      isNew = true ∧ row.id = conversation.id ∧ row.orgId = conversation.orgId := by
  rw [store_conversations hplaced hattachments h] at hrow
  obtain ⟨row₀, hmem, rfl⟩ := List.mem_map.mp hrow
  have hkept : ∀ row : Conversation,
      (if row.id = (withMessage conversation now' bodyText).id then
          Conversation.patch conversation (withMessage conversation now' bodyText) row
        else row).id = row.id ∧
      (if row.id = (withMessage conversation now' bodyText).id then
          Conversation.patch conversation (withMessage conversation now' bodyText) row
        else row).orgId = row.orgId ∧
      (if row.id = (withMessage conversation now' bodyText).id then
          Conversation.patch conversation (withMessage conversation now' bodyText) row
        else row).assignedUserId = row.assignedUserId := by
    intro row
    split
    · exact ⟨rfl, rfl, column_same _ _⟩
    · exact ⟨rfl, rfl, rfl⟩
  obtain ⟨hid, horg, hassigned⟩ := hkept row₀
  rcases List.mem_append.mp hmem with hold | hnew
  · exact .inl ⟨row₀, hold, hid.symm, horg.symm, hassigned.symm⟩
  · cases isNew with
    | false => cases hnew
    | true =>
      obtain rfl := List.mem_singleton.mp hnew
      exact .inr ⟨rfl, hid, horg⟩

/-- The conversations after an assignment. -/
theorem assign_conversations {loaded current : Conversation} {assignment : ConversationAssignment}
    (h : db.apply now [.updateConversation loaded current, .insertAssignment assignment] =
      .ok db') :
    db'.conversations.rows = db.conversations.rows.map fun row : Conversation =>
      if row.id = current.id then .patch loaded current row else row :=
  (Db.rows_apply h).2.1

end Rows

end A2ZCore.Omnichannel
