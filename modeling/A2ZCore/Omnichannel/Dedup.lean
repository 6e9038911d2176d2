import A2ZCore.Omnichannel.Inbound

/-!
# Duplicate messages

A webhook may deliver a message any number of times, in any order, alone or among others. Each
commit of the worker keeps the conversations of an org tidy: one for each identity, whose counter
and preview are those of its messages. A message that was delivered before is a duplicate, which
leaves the database alone.

## Main definitions

* `Tidy` — counters, previews and identities are those of the messages
* `Faithful` — identifiers are unused, and a violated constraint is reported where it is violated
* `processEntries` — entries of one org, one after another

## Main results

* `tidy_processEntries` — in every state of a run
* `stored_once` — when the entries have been processed
-/

namespace A2ZCore.Omnichannel

open Interaction Interaction.Proc Interaction.Contract Messaging Relational

/-! ### Tidy conversations -/

/-- The inbound messages of a conversation, oldest first. -/
def Db.received (db : Db) (conversationId : String) : List Message :=
  db.messages.rows.filter fun m => m.direction = .inbound ∧ m.conversationId = conversationId

/-- The first 200 characters of a message. -/
def preview (bodyText : Option String) : String :=
  String.ofList ((bodyText.getD "").toList.take 200)

/-- The conversations of an org are those of its messages. -/
structure Tidy (orgId : String) (db : Db) : Prop where
  one : ∀ c ∈ db.conversations.rows, ∀ d ∈ db.conversations.rows, c.orgId = orgId →
    d.orgId = orgId → c.customerIdentityId = d.customerIdentityId → c = d
  unread : ∀ c ∈ db.conversations.rows, c.orgId = orgId →
    c.unreadCount = (db.received c.id).length
  preview : ∀ c ∈ db.conversations.rows, c.orgId = orgId →
    c.lastMessagePreview = (db.received c.id).getLast?.map fun m => preview m.bodyText
  /-- `messages.conversation_id` refers to a conversation. -/
  known : ∀ m ∈ db.messages.rows, ∃ c ∈ db.conversations.rows, c.id = m.conversationId

section Store

variable {orgId channelType externalId : String} {fresh : String → Prop} {db db' : Db}
  {conversation : Conversation} {isNew : Bool} {pending attachments : List Write}
  {now now' : DateTime} {message : Message} {bodyText : Option String}

/-- The conversation of a message before it is stored: one of the database, or a new one. -/
theorem store_prior
    (hplaced : Placed orgId channelType externalId fresh db conversation isNew pending)
    (hattachments : ∀ write ∈ attachments, ∃ a, write = .insertAttachment a ∧ fresh a.id)
    (h : db.apply now (pending ++ [.insertMessage message] ++
      [.updateConversation conversation (withMessage conversation now' bodyText)] ++ attachments) =
        .ok db') :
    (∃ row ∈ db.conversations.rows, conversation.Holds row ∧ row.orgId = orgId) ∨
      (∀ row ∈ db.conversations.rows, row.id ≠ conversation.id ∧
        ¬row.IsWith orgId conversation.customerIdentityId) ∧
        conversation.unreadCount = 0 ∧ isNew = true := by
  have hrows := store_conversations hplaced hattachments h
  obtain ⟨identity, before, _, hthread⟩ := hplaced.place
  cases hthread with
  | found _ row hmem hholds hwith => exact .inl ⟨row, hmem, hholds, hwith.1⟩
  | created id _ hnew =>
    refine .inr ⟨fun row hrow => ⟨fun hid => ?_, hnew row hrow⟩, rfl, rfl⟩
    have hunique := db'.conversations.unique
    rw [hrows, List.map_append, List.pairwise_append] at hunique
    have hclash := hunique.2.2 _ (List.mem_map_of_mem hrow) _
      (List.mem_map_of_mem (List.mem_singleton.mpr rfl))
    have hsame : row.id = (withMessage (newConversation id orgId identity.id) now' bodyText).id := hid
    rw [if_pos hsame, if_pos (by rfl)] at hclash
    simp [conversationSchema, Conversation.patch, hid] at hclash

/-- A conversation after a message is stored: another one, or the one it is stored in. -/
theorem store_cases
    (hplaced : Placed orgId channelType externalId fresh db conversation isNew pending)
    (hattachments : ∀ write ∈ attachments, ∃ a, write = .insertAttachment a ∧ fresh a.id)
    (h : db.apply now (pending ++ [.insertMessage message] ++
      [.updateConversation conversation (withMessage conversation now' bodyText)] ++ attachments) =
        .ok db') {row : Conversation} (hrow : row ∈ db'.conversations.rows) :
    (row ∈ db.conversations.rows ∧ row.id ≠ conversation.id) ∨
      (withMessage conversation now' bodyText).Holds row := by
  have hprior := store_prior hplaced hattachments h
  rw [store_conversations hplaced hattachments h] at hrow
  obtain ⟨row₀, hmem, rfl⟩ := List.mem_map.mp hrow
  by_cases hid : row₀.id = (withMessage conversation now' bodyText).id
  · rw [if_pos hid]
    refine .inr (Conversation.Holds.patch ?_ _ ⟨rfl, rfl, rfl, rfl⟩)
    rcases List.mem_append.mp hmem with hold | hnew
    · rcases hprior with ⟨row, hrow, hholds, _⟩ | ⟨hnone, _⟩
      · have hsame : row.id = row₀.id := by
          obtain ⟨t, rfl⟩ := hholds
          exact hid.symm
        obtain rfl := db.conversations.eq_of_clash hrow hold (by simp [conversationSchema, hsame])
        exact hholds
      · exact absurd hid (hnone row₀ hold).1
    · cases isNew with
      | false => cases hnew
      | true =>
        obtain rfl := List.mem_singleton.mp hnew
        exact ⟨now, rfl⟩
  · rw [if_neg hid]
    rcases List.mem_append.mp hmem with hold | hnew
    · exact .inl ⟨hold, hid⟩
    · cases isNew with
      | false => cases hnew
      | true =>
        obtain rfl := List.mem_singleton.mp hnew
        exact absurd rfl hid

/-- Every conversation stays. -/
theorem store_kept
    (hplaced : Placed orgId channelType externalId fresh db conversation isNew pending)
    (hattachments : ∀ write ∈ attachments, ∃ a, write = .insertAttachment a ∧ fresh a.id)
    (h : db.apply now (pending ++ [.insertMessage message] ++
      [.updateConversation conversation (withMessage conversation now' bodyText)] ++ attachments) =
        .ok db') {row : Conversation} (hrow : row ∈ db.conversations.rows) :
    ∃ row' ∈ db'.conversations.rows, row'.id = row.id := by
  rw [store_conversations hplaced hattachments h]
  refine ⟨_, List.mem_map_of_mem (List.mem_append_left _ hrow), ?_⟩
  split <;> rfl

theorem received_store {message : Message} {db db' : Db}
    (h : db'.messages.rows = db.messages.rows ++ [message]) (hinbound : message.direction = .inbound)
    (conversationId : String) : db'.received conversationId = db.received conversationId ++
      if message.conversationId = conversationId then [message] else [] := by
  rw [Db.received, h, List.filter_append]
  refine congrArg _ ?_
  rw [List.filter_singleton]
  simp [hinbound]

/-- The conversation of a message before it is stored counts its messages. -/
theorem unread_prior (htidy : Tidy orgId db)
    (hplaced : Placed orgId channelType externalId fresh db conversation isNew pending)
    (hattachments : ∀ write ∈ attachments, ∃ a, write = .insertAttachment a ∧ fresh a.id)
    (h : db.apply now (pending ++ [.insertMessage message] ++
      [.updateConversation conversation (withMessage conversation now' bodyText)] ++ attachments) =
        .ok db') : conversation.unreadCount = (db.received conversation.id).length := by
  rcases store_prior hplaced hattachments h with ⟨row, hrow, ⟨t, rfl⟩, horg⟩ | ⟨hnone, hzero, _⟩
  · exact htidy.unread { conversation with createdAt := t } hrow horg
  · have hempty : db.received conversation.id = [] := by
      refine List.filter_eq_nil_iff.mpr fun m hm hreceived => ?_
      obtain ⟨c, hc, hid⟩ := htidy.known m hm
      exact (hnone c hc).1 (hid.trans (of_decide_eq_true hreceived).2)
    rw [hzero, hempty]
    rfl

/-- A message that is stored is counted in its conversation. -/
theorem tidy_store {id : String} {item : NormalizedInboundMessage} (htidy : Tidy orgId db)
    (hplaced : Placed orgId channelType externalId fresh db conversation isNew pending)
    (hattachments : ∀ write ∈ attachments, ∃ a, write = .insertAttachment a ∧ fresh a.id)
    (h : db.apply now (pending ++ [.insertMessage
          (inboundMessage id orgId channelType conversation.id item)] ++
        [.updateConversation conversation (withMessage conversation now' item.bodyText)] ++
          attachments) = .ok db') : Tidy orgId db' := by
  have hunread := unread_prior htidy hplaced hattachments h
  have hmessages := store_messages hplaced hattachments h
  have hreceived : ∀ c : String, db'.received c = db.received c ++ if conversation.id = c then
      [{ inboundMessage id orgId channelType conversation.id item with createdAt := now }] else [] :=
    received_store hmessages rfl
  refine ⟨fun c hc d hd horg horg' hsame => ?_, fun c hc horg => ?_, fun c hc horg => ?_,
    fun m hm => ?_⟩
  · have hclash : ∀ row ∈ db.conversations.rows, row.orgId = orgId → row.id ≠ conversation.id →
        row.customerIdentityId ≠ conversation.customerIdentityId := by
      intro row hrow horg hid hidentity
      rcases store_prior hplaced hattachments h with ⟨row', hrow', ⟨t, rfl⟩, horg'⟩ | ⟨hnone, _⟩
      · rw [htidy.one row hrow _ hrow' horg horg' hidentity] at hid
        exact hid rfl
      · exact (hnone row hrow).2 ⟨horg, hidentity⟩
    rcases store_cases hplaced hattachments h hc with ⟨hc, hcid⟩ | ⟨t, rfl⟩ <;>
      rcases store_cases hplaced hattachments h hd with ⟨hd, hdid⟩ | ⟨t', rfl⟩
    · exact htidy.one c hc d hd horg horg' hsame
    · exact absurd hsame (hclash c hc horg hcid)
    · exact absurd hsame.symm (hclash d hd horg' hdid)
    · exact db'.conversations.eq_of_clash hc hd (by simp [conversationSchema])
  · rcases store_cases hplaced hattachments h hc with ⟨hc, hid⟩ | ⟨t, rfl⟩
    · rw [hreceived, if_neg (Ne.symm hid), List.append_nil]
      exact htidy.unread c hc horg
    · show (withMessage conversation now' item.bodyText).unreadCount = (db'.received conversation.id).length
      rw [hreceived, if_pos rfl, List.length_append, Int.natCast_add, ← hunread]
      rfl
  · rcases store_cases hplaced hattachments h hc with ⟨hc, hid⟩ | ⟨t, rfl⟩
    · rw [hreceived, if_neg (Ne.symm hid), List.append_nil]
      exact htidy.preview c hc horg
    · show some (preview item.bodyText) = (db'.received conversation.id).getLast?.map _
      rw [hreceived, if_pos rfl, List.getLast?_append]
      rfl
  · rw [hmessages] at hm
    rcases List.mem_append.mp hm with hold | hnew
    · obtain ⟨c, hc, hid⟩ := htidy.known m hold
      obtain ⟨c', hc', hid'⟩ := store_kept hplaced hattachments h hc
      exact ⟨c', hc', hid'.trans hid⟩
    · obtain rfl := List.mem_singleton.mp hnew
      obtain ⟨row, hrow, ⟨t, rfl⟩, _⟩ := store_held hplaced hattachments h
      exact ⟨_, hrow, rfl⟩

/-- What is changed in place is neither the counter nor the preview of a conversation, and neither
the direction, the conversation nor the text of a message. -/
theorem tidy_of_map {f : Conversation → Conversation} {g : Message → Message}
    (htidy : Tidy orgId db) (hconversations : db'.conversations.rows = db.conversations.rows.map f)
    (hmessages : db'.messages.rows = db.messages.rows.map g)
    (hf : ∀ c, (f c).id = c.id ∧ (f c).orgId = c.orgId ∧
      (f c).customerIdentityId = c.customerIdentityId ∧ (f c).unreadCount = c.unreadCount ∧
        (f c).lastMessagePreview = c.lastMessagePreview)
    (hg : ∀ m, (g m).direction = m.direction ∧ (g m).conversationId = m.conversationId ∧
      (g m).bodyText = m.bodyText) : Tidy orgId db' := by
  have hreceived : ∀ id, db'.received id = (db.received id).map g := by
    intro id
    rw [Db.received, hmessages, List.filter_map, Db.received]
    refine congrArg _ (List.filter_congr fun m _ => ?_)
    rw [Function.comp_apply, (hg m).1, (hg m).2.1]
  refine ⟨fun c hc d hd horg horg' hsame => ?_, fun c hc horg => ?_, fun c hc horg => ?_,
    fun m hm => ?_⟩
  · rw [hconversations] at hc hd
    obtain ⟨c, hc₀, rfl⟩ := List.mem_map.mp hc
    obtain ⟨d, hd₀, rfl⟩ := List.mem_map.mp hd
    rw [(hf c).2.1] at horg
    rw [(hf d).2.1] at horg'
    rw [(hf c).2.2.1, (hf d).2.2.1] at hsame
    rw [htidy.one c hc₀ d hd₀ horg horg' hsame]
  · rw [hconversations] at hc
    obtain ⟨c, hc₀, rfl⟩ := List.mem_map.mp hc
    rw [(hf c).2.1] at horg
    rw [(hf c).2.2.2.1, (hf c).1, hreceived, List.length_map]
    exact htidy.unread c hc₀ horg
  · rw [hconversations] at hc
    obtain ⟨c, hc₀, rfl⟩ := List.mem_map.mp hc
    rw [(hf c).2.1] at horg
    rw [(hf c).2.2.2.2, (hf c).1, hreceived, List.getLast?_map, Option.map_map,
      htidy.preview c hc₀ horg]
    refine congrArg (fun k => Option.map k _) (funext fun m => ?_)
    rw [Function.comp_apply, (hg m).2.2]
  · rw [hmessages] at hm
    obtain ⟨m, hm₀, rfl⟩ := List.mem_map.mp hm
    obtain ⟨c, hc, hid⟩ := htidy.known m hm₀
    refine ⟨f c, ?_, ?_⟩
    · rw [hconversations]
      exact List.mem_map_of_mem hc
    · rw [(hf c).1, hid, (hg m).2.1]

/-- Every commit of the worker keeps the conversations tidy. -/
theorem tidy_ingestion {wanted : String → Prop} {writes : List Write} (htidy : Tidy orgId db)
    (hwrites : Ingestion orgId channelType fresh wanted db writes)
    (h : db.apply now writes = .ok db') : Tidy orgId db' := by
  cases hwrites with
  | store conversation isNew pending attachments messageId now' item hplaced _ _ hattachments =>
    exact tidy_store htidy hplaced hattachments h
  | assign conversation row id userId assignedBy reason =>
    refine tidy_of_map (g := fun m => m) htidy (assign_conversations h) ?_ (fun c => ?_) fun _ => ⟨rfl, rfl, rfl⟩
    · rw [List.map_id']
      exact (Db.rows_apply h).2.2
    · split
      · exact ⟨rfl, rfl, rfl, column_same _ _, column_same _ _⟩
      · exact ⟨rfl, rfl, rfl, rfl, rfl⟩
  | deliver message status =>
    refine tidy_of_map (f := fun c => c) htidy ?_ (Db.rows_apply h).2.2 (fun _ => ⟨rfl, rfl, rfl, rfl, rfl⟩)
      fun m => ?_
    · rw [List.map_id']
      exact (Db.rows_apply h).2.1
    · split <;> exact ⟨rfl, rfl, rfl⟩

end Store

/-! ### What is rejected -/

/-- No row has the identifier. -/
structure Db.Unused (db : Db) (id : String) : Prop where
  identities : ∀ i ∈ db.identities.rows, i.id ≠ id
  conversations : ∀ c ∈ db.conversations.rows, c.id ≠ id
  messages : ∀ m ∈ db.messages.rows, m.id ≠ id
  attachments : ∀ a ∈ db.attachments.rows, a.id ≠ id
  assignments : ∀ a ∈ db.assignments.rows, a.id ≠ id

/-- A message of a channel, by the provider's id. -/
def Message.IsNamed (channelType externalMessageId : String) (m : Message) : Prop :=
  m.channelType = channelType ∧ m.externalMessageId = externalMessageId

instance (channelType externalMessageId : String) :
    DecidablePred (Message.IsNamed channelType externalMessageId) := fun _ =>
  inferInstanceAs (Decidable (_ ∧ _))

section Flush

variable {orgId channelType externalId identityId : String} {db : Db}

theorem Db.apply_append {now : DateTime} {writes writes' : List Write} {db db₁ : Db}
    (h : db.apply now writes = .ok db₁) :
    db.apply now (writes ++ writes') = db₁.apply now writes' := by
  rw [Db.apply, Db.apply] at *
  rw [List.foldlM_append, h]
  rfl

/-- A new identity is unlike the others. -/
theorem Sender.apply {identity : ChannelIdentity} {pending : List Write}
    (h : Sender orgId channelType externalId db.Unused db identity pending) (now : DateTime) :
    ∃ db₁, db.apply now pending = .ok db₁ ∧ db₁.conversations = db.conversations ∧
      db₁.messages = db.messages := by
  cases h with
  | found => exact ⟨db, rfl, rfl, rfl⟩
  | created id displayName hfresh hnew =>
    obtain ⟨t, ht⟩ := db.identities.exists_insert
      (a := { newIdentity id orgId channelType externalId displayName with createdAt := now })
      rfl fun i hi => by
        have hid := hfresh.identities i hi
        have hfor := hnew i hi
        simpa [identitySchema, newIdentity, hid, ChannelIdentity.IsFor] using hfor
    refine ⟨{ db with identities := t }, ?_, rfl, rfl⟩
    rw [Db.apply_singleton, Write.apply, ht]
    rfl

/-- A new conversation is unlike the others. -/
theorem Thread.apply {before pending : List Write} {conversation : Conversation} {isNew : Bool}
    (h : Thread orgId identityId db.Unused db before conversation isNew pending) {now : DateTime}
    {db₁ : Db} (hbefore : db.apply now before = .ok db₁)
    (hconversations : db₁.conversations = db.conversations) :
    ∃ db₂, db.apply now pending = .ok db₂ ∧ db₂.messages = db₁.messages := by
  cases h with
  | found => exact ⟨db₁, hbefore, rfl⟩
  | created id hfresh hnew =>
    obtain ⟨t, ht⟩ := db₁.conversations.exists_insert
      (a := { newConversation id orgId identityId with createdAt := now })
      rfl fun c hc => by
        rw [hconversations] at hc
        simpa [conversationSchema, newConversation] using hfresh.conversations c hc
    refine ⟨{ db₁ with conversations := t }, ?_, rfl⟩
    rw [Db.apply_append hbefore, Db.apply_singleton, Write.apply, ht]
    rfl

theorem sameDedupKey_none (m : Message) {n : Message} (h : n.clientDedupKey = none) :
    m.sameDedupKey n = false := by
  unfold Message.sameDedupKey
  rw [h]
  cases m.clientDedupKey <;> rfl

/-- A message is inserted, unless the provider's id is taken. -/
theorem apply_message {conversation : Conversation} {isNew : Bool} {pending : List Write}
    (hplaced : Placed orgId channelType externalId db.Unused db conversation isNew pending)
    {messageId : String} (hfresh : db.Unused messageId) {item : NormalizedInboundMessage}
    (hnew : ∀ m ∈ db.messages.rows, ¬m.IsNamed channelType item.externalMessageId)
    (now : DateTime) : ∃ db', db.apply now (pending ++ [.insertMessage
      (inboundMessage messageId orgId channelType conversation.id item)]) = .ok db' := by
  obtain ⟨identity, before, hsender, hthread⟩ := hplaced.place
  obtain ⟨db₁, hbefore, hconversations, hmessages₁⟩ := hsender.apply now
  obtain ⟨db₂, hpending, hmessages₂⟩ := hthread.apply hbefore hconversations
  obtain ⟨t, ht⟩ := db₂.messages.exists_insert (a := { inboundMessage messageId orgId channelType
    conversation.id item with createdAt := now }) rfl fun m hm => by
      rw [hmessages₂, hmessages₁] at hm
      have hid := hfresh.messages m hm
      have hname := hnew m hm
      simpa [messageSchema, inboundMessage, hid, sameDedupKey_none, Message.IsNamed] using hname
  refine ⟨{ db₂ with messages := t }, ?_⟩
  rw [Db.apply_append hpending, Db.apply_singleton, Write.apply, ht]
  rfl

/-- Identifiers are unused, and a violated constraint is reported where it is violated. -/
def Faithful : Call → Choice → World → Prop
  | .core .uuid4, x, w => w.db.Unused x.token
  | .flush _, x, _ => ∀ e, x.fate = .lost e ∨ x.fate = .late e → e.cls ≠ .integrityError
  | _, _, _ => True

instance (fate : Core.Fate) :
    Decidable (∀ e, fate = .lost e ∨ fate = .late e → e.cls ≠ .integrityError) :=
  match fate with
  | .ok => .isTrue fun _ h => by rcases h with h | h <;> cases h
  | .lost e => decidable_of_iff (e.cls ≠ .integrityError)
    ⟨fun h _ he => by rcases he with he | he <;> cases he; exact h, fun h => h e (.inl rfl)⟩
  | .late e => decidable_of_iff (e.cls ≠ .integrityError)
    ⟨fun h _ he => by rcases he with he | he <;> cases he; exact h, fun h => h e (.inr rfl)⟩

instance (db : Db) (id : String) : Decidable (db.Unused id) :=
  decidable_of_iff ((∀ i ∈ db.identities.rows, i.id ≠ id) ∧ (∀ c ∈ db.conversations.rows, c.id ≠ id) ∧
      (∀ m ∈ db.messages.rows, m.id ≠ id) ∧ (∀ a ∈ db.attachments.rows, a.id ≠ id) ∧
        ∀ a ∈ db.assignments.rows, a.id ≠ id)
    ⟨fun h => ⟨h.1, h.2.1, h.2.2.1, h.2.2.2.1, h.2.2.2.2⟩, fun h =>
      ⟨h.identities, h.conversations, h.messages, h.attachments, h.assignments⟩⟩

instance (c : Call) (x : Choice) (w : World) : Decidable (Faithful c x w) := by
  apply Call.casesOn (motive := fun c => Decidable (Faithful c x w)) c
  case core =>
    intro c
    apply Core.Call.casesOn (motive := fun c => Decidable (Faithful (.core c) x w)) c
    case uuid4 => exact inferInstanceAs (Decidable (w.db.Unused x.token))
    all_goals intros; exact .isTrue trivial
  case flush =>
    exact fun _ => inferInstanceAs (Decidable (∀ e, x.fate = .lost e ∨ x.fate = .late e → _))
  all_goals intros; exact .isTrue trivial

/-- A duplicate is a message whose name at the provider is taken. -/
theorem named_of_rejected {K : Contract Call Call.Resp PyErr Choice World}
    (hK : ∀ writes x w, K.admits (.flush writes) x w → Faithful (.flush writes) x w)
    {conversation : Conversation} {isNew : Bool} {pending : List Write}
    (hplaced : Placed orgId channelType externalId db.Unused db conversation isNew pending)
    {messageId : String} (hfresh : db.Unused messageId) {item : NormalizedInboundMessage}
    (hrejected : Ingests.Rejected K (pending ++ [.insertMessage
      (inboundMessage messageId orgId channelType conversation.id item)]) db) :
    ∃ m ∈ db.messages.rows, m.IsNamed channelType item.externalMessageId := by
  obtain ⟨x, v, e, rfl, hx, he, hcls⟩ := hrejected
  by_contra hnone
  push Not at hnone
  obtain ⟨db', happly⟩ := apply_message hplaced hfresh hnone x.now
  have hfaithful := hK _ x v hx
  rw [Call.answer, happly] at he
  cases hfate : x.fate with
  | ok => rw [hfate] at he; cases he
  | lost e' | late e' =>
    rw [hfate] at he
    cases he
    exact hfaithful e (by simp [hfate]) hcls

end Flush

/-! ### The worker -/

/-- Entries one after another. An entry that fails is logged, and left to the queue; which entries
were handled is returned. -/
def processEntries (registry : Registry) (msgs : List QueueMessage) : Prog (List QueueMessage) :=
  Proc.forEach msgs [] fun handled msg => do
    try
      processInboundMessage registry msg
      pure (handled ++ [msg])
    catch _ => do
      run (.logException "omnichannel.worker.inbound_iteration_failed")
      pure handled

/-- The messages stay what they are, and those that are added are inbound messages of the org. -/
structure Grows (orgId : String) (db db' : Db) : Prop where
  kept : ∀ m ∈ db.messages.rows, ∃ m' ∈ db'.messages.rows,
    m'.IsNamed m.channelType m.externalMessageId ∧ m'.orgId = m.orgId ∧ m'.direction = m.direction
  added : ∀ m' ∈ db'.messages.rows, m'.orgId = orgId ∧ m'.direction = .inbound ∨
    ∃ m ∈ db.messages.rows, m.IsNamed m'.channelType m'.externalMessageId ∧
      m.orgId = m'.orgId ∧ m.direction = m'.direction

theorem Grows.refl (orgId : String) (db : Db) : Grows orgId db db :=
  ⟨fun m hm => ⟨m, hm, ⟨rfl, rfl⟩, rfl, rfl⟩, fun m hm => .inr ⟨m, hm, ⟨rfl, rfl⟩, rfl, rfl⟩⟩

theorem Grows.trans {orgId : String} {db₁ db₂ db₃ : Db} (h : Grows orgId db₁ db₂)
    (h' : Grows orgId db₂ db₃) : Grows orgId db₁ db₃ := by
  refine ⟨fun m hm => ?_, fun m hm => ?_⟩
  · obtain ⟨m₂, hm₂, ⟨hchannel, hname⟩, horg, hdirection⟩ := h.kept m hm
    obtain ⟨m₃, hm₃, ⟨hchannel', hname'⟩, horg', hdirection'⟩ := h'.kept m₂ hm₂
    exact ⟨m₃, hm₃, ⟨hchannel'.trans hchannel, hname'.trans hname⟩, horg'.trans horg,
      hdirection'.trans hdirection⟩
  · rcases h'.added m hm with hown | ⟨m₂, hm₂, ⟨hchannel, hname⟩, horg, hdirection⟩
    · exact .inl hown
    · rcases h.added m₂ hm₂ with hown | ⟨m₁, hm₁, ⟨hchannel', hname'⟩, horg', hdirection'⟩
      · exact .inl ⟨horg ▸ hown.1, hdirection ▸ hown.2⟩
      · exact .inr ⟨m₁, hm₁, ⟨hchannel'.trans hchannel, hname'.trans hname⟩, horg'.trans horg,
          hdirection'.trans hdirection⟩

theorem grows_ingestion {orgId channelType : String} {fresh wanted : String → Prop} {db db' : Db}
    {writes : List Write} {now : DateTime}
    (hwrites : Ingestion orgId channelType fresh wanted db writes)
    (h : db.apply now writes = .ok db') : Grows orgId db db' := by
  cases hwrites with
  | store conversation isNew pending attachments messageId now' item hplaced _ _ hattachments =>
    have hmessages := store_messages hplaced hattachments h
    refine ⟨fun m hm => ⟨m, ?_, ⟨rfl, rfl⟩, rfl, rfl⟩, fun m hm => ?_⟩
    · rw [hmessages]
      exact List.mem_append_left _ hm
    · rw [hmessages] at hm
      rcases List.mem_append.mp hm with hold | hnew
      · exact .inr ⟨m, hold, ⟨rfl, rfl⟩, rfl, rfl⟩
      · obtain rfl := List.mem_singleton.mp hnew
        exact .inl ⟨rfl, rfl⟩
  | assign =>
    have hmessages : db'.messages.rows = db.messages.rows := (Db.rows_apply h).2.2
    refine ⟨fun m hm => ⟨m, ?_, ⟨rfl, rfl⟩, rfl, rfl⟩, fun m hm => ?_⟩
    · rw [hmessages]
      exact hm
    · rw [hmessages] at hm
      exact .inr ⟨m, hm, ⟨rfl, rfl⟩, rfl, rfl⟩
  | deliver message status =>
    have hmessages : db'.messages.rows = db.messages.rows.map fun row : Message =>
        if row.id = message.id then .patch message { message with status := status } row else row :=
      (Db.rows_apply h).2.2
    have hsame : ∀ row : Message, (if row.id = message.id then
        Message.patch message { message with status := status } row else row).IsNamed
          row.channelType row.externalMessageId ∧
        (if row.id = message.id then
          Message.patch message { message with status := status } row else row).orgId = row.orgId ∧
        (if row.id = message.id then
          Message.patch message { message with status := status } row else row).direction =
            row.direction := by
      intro row
      split
      · exact ⟨⟨rfl, column_same _ _⟩, rfl, rfl⟩
      · exact ⟨⟨rfl, rfl⟩, rfl, rfl⟩
    refine ⟨fun m hm => ⟨_, ?_, hsame m⟩, fun m hm => ?_⟩
    · rw [hmessages]
      exact List.mem_map_of_mem hm
    · rw [hmessages] at hm
      obtain ⟨row, hrow, rfl⟩ := List.mem_map.mp hm
      obtain ⟨⟨hchannel, hname⟩, horg, hdirection⟩ := hsame row
      exact .inr ⟨row, hrow, ⟨hchannel.symm, hname.symm⟩, horg.symm, hdirection.symm⟩

/-- The setting of the worker. -/
def deduping (orgId : String) : Contract Call Call.Resp PyErr Choice World where
  answer := Call.answer
  rely := Calm
  admits := Faithful
  guar _ _ w w' := (Tidy orgId w.db → Tidy orgId w'.db) ∧ Grows orgId w.db w'.db ∧
    Core.Steady w.core w'.core
  rely_refl := .refl
  rely_trans h h' := h.trans h'

section Worker

variable {orgId : String}

theorem deduping_of_calm {w w' : World} {c : Call} {x : Choice} (h : Calm w w') :
    (deduping orgId).guar c x w w' := by
  refine ⟨fun htidy => ?_, ?_, h.core⟩
  · rw [h.db]
    exact htidy
  · rw [h.db]
    exact .refl orgId w.db

theorem ingests_deduping (channelType : String) :
    Ingests (deduping orgId) orgId channelType Db.Unused fun _ => True where
  answer := rfl
  rely _ _ := Iff.rfl
  generated _ _ hx := hx
  reads c hc x w _ := deduping_of_calm (calm_answer (harmless_of_reads hc) x w)
  flush writes x w _ _ :=
    have hharmless : (Call.flush writes).Harmless := trivial
    deduping_of_calm (calm_answer hharmless x w)
  commit writes x w hwrites _ := by
    rcases commit_cases writes x w with ⟨_, db, happly, hw⟩ | ⟨_, hw, _⟩
    · rw [hw]
      exact ⟨fun htidy => tidy_ingestion htidy hwrites happly, grows_ingestion hwrites happly,
        .refl _⟩
    · rw [hw]
      exact deduping_of_calm (.refl w)

/-- The messages are stored, by their names at the provider. -/
def Db.HasAll (channelType : String) (items : List NormalizedInboundMessage) (db : Db) : Prop :=
  ∀ item ∈ items, ∃ m ∈ db.messages.rows, m.IsNamed channelType item.externalMessageId

/-- A message that was processed is stored, and those before it still are. -/
theorem hasAll_of_outcome {channelType : String} {done : List NormalizedInboundMessage}
    {item : NormalizedInboundMessage} {w w' : World} {r : Option Conversation}
    (h : w.db.HasAll channelType done)
    (houtcome : Outcome (deduping orgId) orgId channelType w.db.Unused item w w' r) :
    w'.db.HasAll channelType (done ++ [item]) := by
  intro item' hitem'
  cases houtcome with
  | duplicate conversation isNew pending messageId hplaced hfresh hrejected hcalm =>
    rw [hcalm.db]
    rcases List.mem_append.mp hitem' with hold | hlast
    · exact h item' hold
    · obtain rfl := List.mem_singleton.mp hlast
      exact named_of_rejected (fun _ _ _ hx => hx) hplaced hfresh hrejected
  | stored routed hingested =>
    obtain ⟨m, hrows, ⟨_, _, hchannel', hname⟩, _⟩ := hingested.message
    rw [hrows]
    rcases List.mem_append.mp hitem' with hold | hlast
    · obtain ⟨m', hm', hnamed⟩ := h item' hold
      exact ⟨m', List.mem_append_left _ hm', hnamed⟩
    · obtain rfl := List.mem_singleton.mp hlast
      exact ⟨m, List.mem_append_right _ (List.mem_singleton.mpr rfl), hchannel', hname⟩

theorem hasAll_of_delivered {channelType : String} {done : List NormalizedInboundMessage}
    {w w' : World} (h : w.db.HasAll channelType done) (hdelivered : Delivered w w') :
    w'.db.HasAll channelType done := by
  rcases hdelivered with hcalm | ⟨message, status, now, happly, _⟩
  · rw [hcalm.db]
    exact h
  · intro item hitem
    obtain ⟨m, hm, hnamed⟩ := h item hitem
    rw [(Db.rows_apply happly).2.2]
    refine ⟨_, List.mem_map_of_mem hm, ?_⟩
    split
    · exact ⟨hnamed.1, (column_same _ _).trans hnamed.2⟩
    · exact hnamed

/-- What the adapter made of an entry when it was processed is stored. -/
def Stored (registry : Registry) (core : Core.World) (msg : QueueMessage) (db : Db) : Prop :=
  ∃ channelType normalized v, getItem msg.attributes "channel_type" = .ok channelType ∧
    Core.Steady core v ∧ Normalizes registry msg v normalized ∧ db.HasAll channelType normalized

theorem Stored.grows {registry : Registry} {core : Core.World} {msg : QueueMessage} {db db' : Db}
    (h : Stored registry core msg db) (hgrows : Grows orgId db db') :
    Stored registry core msg db' := by
  obtain ⟨channelType, normalized, v, hchannel, hv, hnormalizes, hstored⟩ := h
  refine ⟨channelType, normalized, v, hchannel, hv, hnormalizes, fun item hitem => ?_⟩
  obtain ⟨m, hm, rfl, hname⟩ := hstored item hitem
  obtain ⟨m', hm', ⟨hchannel', hname'⟩, _⟩ := hgrows.kept m hm
  exact ⟨m', hm', hchannel', hname'.trans hname⟩

theorem Stored.steady {registry : Registry} {core core' : Core.World} {msg : QueueMessage} {db : Db}
    (h : Stored registry core' msg db) (hcore : Core.Steady core core') :
    Stored registry core msg db := by
  obtain ⟨channelType, normalized, v, hchannel, hv, h⟩ := h
  exact ⟨channelType, normalized, v, hchannel, hcore.trans hv, h⟩

/-- A payload that is handled is stored. -/
theorem deduping_normalized (channelType : String) (adapter : ChannelAdapter) (rawPayload : Json)
    (normalized : List NormalizedInboundMessage) (w : World) :
    (deduping orgId).wp (processNormalized orgId channelType adapter rawPayload normalized) w
      fun r w' => r = .ok () → w'.db.HasAll channelType normalized :=
  (ingests_deduping channelType).processNormalized (fun _ _ => trivial)
    (J := fun done w' => w'.db.HasAll channelType done) nofun
    (fun _ _ _ _ _ h houtcome => hasAll_of_outcome h houtcome)
    (fun _ _ _ h hdelivered => hasAll_of_delivered h hdelivered) (fun _ h _ => h) fun _ _ => nofun

/-- An entry that is handled is stored. -/
theorem deduping_message (registry : Registry) {msg : QueueMessage} (w : World)
    (horg : getItem msg.attributes "org_id" = .ok orgId) :
    (deduping orgId).wp (processInboundMessage registry msg) w fun r w' =>
      r = .ok () → Stored registry w.core msg w'.db := by
  cases hchannel : getItem msg.attributes "channel_type" with
  | error e =>
    unfold processInboundMessage
    rw [horg, hchannel]
    exact nofun
  | ok channelType =>
    exact (ingests_deduping channelType).processInboundMessage horg hchannel
      (J := fun done w' => w'.db.HasAll channelType done)
      (fun _ _ _ _ _ _ => ⟨fun _ _ => trivial, nofun⟩)
      (fun _ _ _ _ _ h houtcome => hasAll_of_outcome h houtcome)
      (fun _ _ _ h hdelivered => hasAll_of_delivered h hdelivered)
      (fun normalized v w' hnormalizes hv h _ =>
        ⟨channelType, normalized, v.core, hchannel, hv.core, hnormalizes, h⟩) fun _ _ => nofun

/-- What the worker keeps of the state it began in. -/
theorem deduping_entries (registry : Registry) {msgs : List QueueMessage}
    (horg : ∀ msg ∈ msgs, getItem msg.attributes "org_id" = .ok orgId) (w : World) :
    (deduping orgId).wp (processEntries registry msgs) w fun r w' => ∀ handled, r = .ok handled →
      ∀ msg ∈ handled, Stored registry w.core msg w'.db := by
  refine wp_forEach (fun rest handled w' => (∀ msg ∈ rest, msg ∈ msgs) ∧
    (∀ msg ∈ handled, Stored registry w.core msg w'.db) ∧ Core.Steady w.core w'.core)
    (fun handled w' h handled' hr => ?_) ?_ ⟨fun _ h => h, nofun, .refl _⟩
  · cases hr
    exact h.2.1
  · rintro msg rest handled w₁ ⟨hrest, hhandled, hcore⟩
    have hmessage := wp_and (K := deduping orgId) (S := fun w w' : World => Grows orgId w.db w'.db ∧
        Core.Steady w.core w'.core) (fun w => ⟨.refl orgId w.db, .refl w.core⟩)
      (fun _ _ _ h h' => ⟨h.1.trans h'.1, h.2.trans h'.2⟩)
      (fun w w' h => (deduping_of_calm (c := .rollback) (x := Choice.calm "") h).2)
      (fun _ _ _ _ h => h.2) (deduping_message registry w₁ (horg msg (hrest msg List.mem_cons_self)))
    refine wp_handle (wp_bind (wp_mono (fun r w₂ hr => ?_) hmessage))
    obtain ⟨hstored, hgrows, hcore'⟩ := hr
    have hhandled' : ∀ msg ∈ handled, Stored registry w.core msg w₂.db := fun msg' hmsg' =>
      (hhandled msg' hmsg').grows hgrows
    have hrest' : ∀ msg ∈ rest, msg ∈ msgs := fun msg' hmsg' =>
      hrest msg' (List.mem_cons_of_mem _ hmsg')
    cases r with
    | ok u =>
      refine ⟨hrest', fun msg' hmsg' => ?_, hcore.trans hcore'⟩
      rcases List.mem_append.mp hmsg' with hold | hlast
      · exact hhandled' msg' hold
      · obtain rfl := List.mem_singleton.mp hlast
        exact (hstored rfl).steady hcore
    | error e =>
      have hharmless : (Call.logException "omnichannel.worker.inbound_iteration_failed").Harmless :=
        trivial
      refine wp_bind (wp_perform fun w₃ h₃ x _ => ⟨deduping_of_calm (calm_answer hharmless x w₃), ?_⟩)
      have hafter := h₃.trans (calm_answer hharmless x w₃)
      refine ⟨hrest', fun msg' hmsg' => ?_, (hcore.trans hcore').trans hafter.core⟩
      show Stored registry w.core msg' ((deduping orgId).answer _ x w₃).2.db
      have hdb : ((deduping orgId).answer
        (.logException "omnichannel.worker.inbound_iteration_failed") x w₃).2.db = w₂.db := hafter.db
      rw [hdb]
      exact hhandled' msg' hmsg'

end Worker

/-- **Ingestion is duplicate-proof.** Entries of one org are processed one after another, with any
of them repeated and any of them failing. In every state of the run each sender has one identity and
each identity one conversation, and the conversations' counters and previews are those of the
messages stored. At its end each message of an entry that was handled has one row, which is an
inbound message of the org where the message's name at the provider was not another row's at the
start. -/
theorem stored_once (registry : Registry) (orgId : String) (msgs : List QueueMessage)
    (horg : ∀ msg ∈ msgs, getItem msg.attributes "org_id" = .ok orgId) (w : World)
    (htidy : Tidy orgId w.db) (o : Oracle Choice)
    (hrun : Along Call.answer Faithful (processEntries registry msgs) o w) :
    (∀ db, db = (exec Call.answer (processEntries registry msgs) o w).2.db →
      Tidy orgId db ∧ ∀ channelType externalId, ∀ i ∈ db.identities.rows, ∀ j ∈ db.identities.rows,
        i.IsFor orgId channelType externalId → j.IsFor orgId channelType externalId → i = j) ∧
    ∀ handled w', exec Call.answer (processEntries registry msgs) o w = (some (.ok handled), w') →
      ∀ msg ∈ handled, ∃ channelType normalized core,
        getItem msg.attributes "channel_type" = .ok channelType ∧ Core.Steady w.core core ∧
        Normalizes registry msg core normalized ∧ ∀ item ∈ normalized, ∃ m,
          w'.db.messages.rows.filter (Message.IsNamed channelType item.externalMessageId) = [m] ∧
          ((∀ m₀ ∈ w.db.messages.rows, m₀.IsNamed channelType item.externalMessageId →
            m₀.orgId = orgId ∧ m₀.direction = .inbound) →
              m.orgId = orgId ∧ m.direction = .inbound) := by
  have hwp := deduping_entries registry horg w
  refine ⟨?_, fun handled w' hexec msg hmsg => ?_⟩
  · rintro db rfl
    refine ⟨exec_invariant (K := deduping orgId) (J := fun w => Tidy orgId w.db) (fun _ _ _ _ h => h.1) hwp hrun htidy, ?_⟩
    intro channelType externalId i hi j hj hfor hfor'
    refine Table.eq_of_clash _ hi hj ?_
    simp [identitySchema, hfor.1, hfor.2.1, hfor.2.2, hfor'.1, hfor'.2.1, hfor'.2.2]
  · obtain ⟨channelType, normalized, v, hchannel, hv, hnormalizes, hstored⟩ :=
      exec_post hwp hrun hexec handled rfl msg hmsg
    have hgrows : Grows orgId w.db w'.db := by
      have hinvariant := exec_invariant (K := deduping orgId)
        (J := fun w' => Grows orgId w.db w'.db) (fun _ _ _ _ h hw => hw.trans h.2.1) hwp hrun (.refl orgId w.db)
      rwa [show exec (deduping orgId).answer (processEntries registry msgs) o w =
        (some (.ok handled), w') from hexec] at hinvariant
    refine ⟨channelType, normalized, v, hchannel, hv, hnormalizes, fun item hitem => ?_⟩
    obtain ⟨m, hm, hnamed⟩ := hstored item hitem
    refine ⟨m, Table.filter_eq_singleton_of_clash _ hm (by simpa using hnamed) fun n hn => ?_,
      fun hown => ?_⟩
    · have hn' : n.IsNamed channelType item.externalMessageId := of_decide_eq_true hn
      simp [messageSchema, hn'.1, hn'.2, hnamed.1, hnamed.2]
    · rcases hgrows.added m hm with hnew | ⟨m₀, hm₀, hsame, horg', hdirection⟩
      · exact hnew
      · rw [← horg', ← hdirection]
        refine hown m₀ hm₀ ?_
        rwa [hnamed.1, hnamed.2] at hsame

/-- An entry of the inbound queue as it is received. -/
def received (entry : QueueEntry) : QueueMessage := ⟨entry.body, entry.attributes, 0, 1⟩

/-- Two messages of a customer, the first delivered twice. -/
def greetings : List QueueMessage :=
  [received (inboundEntry "whatsapp" "org" "connection" (whatsappText "4915" "wamid.1" "Hi")),
    received (inboundEntry "whatsapp" "org" "connection" (whatsappText "4915" "wamid.2" "Hello?")),
    received (inboundEntry "whatsapp" "org" "connection" (whatsappText "4915" "wamid.1" "Hi"))]

/-- Of the three, two are stored. -/
theorem stored_once_greetings :
    Tidy "org" (exec Call.answer (processEntries whatsappRegistry greetings) calm inboxWorld).2.db ∧
      (exec Call.answer (processEntries whatsappRegistry greetings) calm
        inboxWorld).2.db.messages.rows.map (·.externalMessageId) = ["wamid.1", "wamid.2"] := by
  have horg : ∀ msg ∈ greetings, getItem msg.attributes "org_id" = .ok "org" := by
    intro msg hmsg
    simp only [greetings, List.mem_cons, List.not_mem_nil, or_false] at hmsg
    rcases hmsg with rfl | rfl | rfl <;> rfl
  have htidy : Tidy "org" inboxWorld.db := ⟨by decide, by decide, by decide, nofun⟩
  refine ⟨((stored_once whatsappRegistry "org" greetings horg inboxWorld htidy calm
    (by decide +kernel)).1 _ rfl).1, by decide +kernel⟩

end A2ZCore.Omnichannel
