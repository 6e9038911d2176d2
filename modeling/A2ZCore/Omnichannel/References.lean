import A2ZCore.Omnichannel.Assignments
import A2ZCore.Omnichannel.Credentials
import A2ZCore.Omnichannel.Statuses
import A2ZCore.Omnichannel.Unread
import Mathlib

/-!
# Rows of one org

A conversation is with an identity, a message is in a conversation, an attachment and an assignment
belong to one; no foreign key says that the two rows are of one org and one channel, and several
lookups follow the reference without asking for the org. Every request writes rows that refer to rows
of their own org, and relies on finding such rows, so that it holds of the tables whatever requests run
side by side, and a message is sent to its own org's customer.

What a transaction is to leave is said of its writes one by one: `Leads` carries a fact from the rows
that were read to the rows that a later write of the same transaction refers to.

## Main definitions

* `OneOrg` — the rows refer to rows of their own org
* `Persists` — what no write takes back
* `Leads` — a transaction keeps the references in order, and establishes a fact
* `Activity`, `activities` — what agents, customers and the worker do, side by side

## Main results

* `oneOrg_run` — the references are in order in every state of a run
* `reaches_run` — whom the messages of a run are sent to
-/

namespace A2ZCore.Omnichannel

open Interaction Interaction.Proc Interaction.Contract Messaging Relational

/-! ### References -/

/-- There is an identity of the org on the channel with the id. -/
def Db.Identifies (db : Db) (orgId channelType id : String) : Prop :=
  ∃ i ∈ db.identities.rows, i.id = id ∧ i.orgId = orgId ∧ i.channelType = channelType

/-- There is a conversation of the org with the id, with an identity on the channel. -/
def Db.Converses (db : Db) (orgId channelType id : String) : Prop :=
  ∃ c ∈ db.conversations.rows, c.id = id ∧ c.orgId = orgId ∧
    db.Identifies orgId channelType c.customerIdentityId

/-- There is a message of the org with the id. -/
def Db.Stores (db : Db) (orgId id : String) : Prop :=
  ∃ m ∈ db.messages.rows, m.id = id ∧ m.orgId = orgId

/-- The rows refer to rows of their own org, and a message to a conversation on its channel. What an
attachment has stored is under the org's prefix. -/
structure OneOrg (db : Db) : Prop where
  conversations : ∀ c ∈ db.conversations.rows, ∃ channelType,
    db.Identifies c.orgId channelType c.customerIdentityId
  messages : ∀ m ∈ db.messages.rows, db.Converses m.orgId m.channelType m.conversationId
  attachments : ∀ a ∈ db.attachments.rows, db.Stores a.orgId a.messageId ∧
    ∃ name, a.s3Key = a.orgId ++ "/" ++ name
  assignments : ∀ a ∈ db.assignments.rows, ∃ channelType,
    db.Converses a.orgId channelType a.conversationId

/-- What no write takes back: no row is deleted, and none is given another org, channel or parent. -/
structure Persists (db db' : Db) : Prop where
  identities : ∀ i ∈ db.identities.rows, i ∈ db'.identities.rows
  conversations : ∀ c ∈ db.conversations.rows, ∃ c' ∈ db'.conversations.rows,
    c'.id = c.id ∧ c'.IsWith c.orgId c.customerIdentityId
  messages : ∀ m ∈ db.messages.rows, ∃ m' ∈ db'.messages.rows, m'.id = m.id ∧ m'.orgId = m.orgId ∧
    m'.channelType = m.channelType ∧ m'.conversationId = m.conversationId

theorem Persists.refl (db : Db) : Persists db db where
  identities _ h := h
  conversations c h := ⟨c, h, rfl, rfl, rfl⟩
  messages m h := ⟨m, h, rfl, rfl, rfl, rfl⟩

theorem Persists.trans {db₁ db₂ db₃ : Db} (h : Persists db₁ db₂) (h' : Persists db₂ db₃) :
    Persists db₁ db₃ where
  identities i hi := h'.identities i (h.identities i hi)
  conversations c hc := by
    obtain ⟨c₂, hc₂, hid₂, horg₂, hwith₂⟩ := h.conversations c hc
    obtain ⟨c₃, hc₃, hid₃, horg₃, hwith₃⟩ := h'.conversations c₂ hc₂
    exact ⟨c₃, hc₃, hid₃.trans hid₂, horg₃.trans horg₂, hwith₃.trans hwith₂⟩
  messages m hm := by
    obtain ⟨m₂, hm₂, hid₂, horg₂, hchannel₂, hin₂⟩ := h.messages m hm
    obtain ⟨m₃, hm₃, hid₃, horg₃, hchannel₃, hin₃⟩ := h'.messages m₂ hm₂
    exact ⟨m₃, hm₃, hid₃.trans hid₂, horg₃.trans horg₂, hchannel₃.trans hchannel₂, hin₃.trans hin₂⟩

section Persists

variable {db db' : Db} {orgId channelType id : String}

theorem Persists.identifies (h : Persists db db') (hdb : db.Identifies orgId channelType id) :
    db'.Identifies orgId channelType id := by
  obtain ⟨i, hi, hof⟩ := hdb
  exact ⟨i, h.identities i hi, hof⟩

theorem Persists.converses (h : Persists db db') (hdb : db.Converses orgId channelType id) :
    db'.Converses orgId channelType id := by
  obtain ⟨c, hc, hid, horg, hidentity⟩ := hdb
  obtain ⟨c', hc', hid', horg', hwith'⟩ := h.conversations c hc
  exact ⟨c', hc', hid'.trans hid, horg'.trans horg, hwith' ▸ h.identifies hidentity⟩

theorem Persists.stores (h : Persists db db') (hdb : db.Stores orgId id) : db'.Stores orgId id := by
  obtain ⟨m, hm, hid, horg⟩ := hdb
  obtain ⟨m', hm', hid', horg', _⟩ := h.messages m hm
  exact ⟨m', hm', hid'.trans hid, horg'.trans horg⟩

/-- The conversation that a row refers to is the one with that id. -/
theorem Db.Converses.of_mem {c : Conversation} (h : db.Converses orgId channelType c.id)
    (hc : c ∈ db.conversations.rows) :
    c.orgId = orgId ∧ db.Identifies orgId channelType c.customerIdentityId := by
  obtain ⟨c', hc', hid, horg, hidentity⟩ := h
  rw [db.conversations.eq_of_clash hc hc' (by simp [conversationSchema, hid])]
  exact ⟨horg, hidentity⟩

/-- The identity that a conversation refers to is the one with that id. -/
theorem Db.Identifies.of_mem {i : ChannelIdentity} (h : db.Identifies orgId channelType i.id)
    (hi : i ∈ db.identities.rows) : i.orgId = orgId ∧ i.channelType = channelType := by
  obtain ⟨i', hi', hid, hof⟩ := h
  rw [db.identities.eq_of_clash hi hi' (by simp [identitySchema, hid])]
  exact hof

/-- The identity of a conversation is of the conversation's org. -/
theorem OneOrg.converses (h : OneOrg db) {c : Conversation} {i : ChannelIdentity}
    (hc : c ∈ db.conversations.rows) (hi : i ∈ db.identities.rows) (hwith : i.id = c.customerIdentityId) :
    i.orgId = c.orgId ∧ db.Converses c.orgId i.channelType c.id := by
  obtain ⟨channelType, hidentity⟩ := h.conversations c hc
  rw [← hwith] at hidentity
  obtain ⟨horg, hchannel⟩ := hidentity.of_mem hi
  refine ⟨horg, c, hc, rfl, rfl, ?_⟩
  rwa [← hwith, hchannel]

end Persists

/-! ### Writes -/

/-- The attachments after a write. -/
def Write.onAttachments : Write → List MessageAttachment → List MessageAttachment
  | .insertAttachment attachment, rows => rows ++ [attachment]
  | _, rows => rows

theorem Write.attachments_apply {now : DateTime} {write : Write} {db db' : Db}
    (h : write.apply now db = .ok db') :
    db'.attachments.rows = write.onAttachments db.attachments.rows := by
  cases write with
  | insertAttachment =>
    obtain ⟨t, ht, rfl⟩ := map_eq_ok h
    exact Table.rows_insert ht
  | _ =>
    obtain ⟨t, _, rfl⟩ := map_eq_ok h
    rfl

section Writes

variable {write : Write} {writes : List Write} {now : DateTime} {db db' : Db}

theorem Write.persists (h : write.apply now db = .ok db') : Persists db db' := by
  obtain ⟨hidentities, hconversations, hmessages⟩ := Write.rows_apply h
  refine ⟨fun i hi => ?_, fun c hc => ?_, fun m hm => ?_⟩
  · rw [hidentities]
    cases write with
    | insertIdentity => exact List.mem_append_left _ hi
    | _ => exact hi
  · rw [hconversations]
    cases write with
    | insertConversation => exact ⟨c, List.mem_append_left _ hc, rfl, rfl, rfl⟩
    | updateConversation =>
      refine ⟨_, List.mem_map_of_mem hc, ?_⟩
      split <;> exact ⟨rfl, rfl, rfl⟩
    | _ => exact ⟨c, hc, rfl, rfl, rfl⟩
  · rw [hmessages]
    cases write with
    | insertMessage => exact ⟨m, List.mem_append_left _ hm, rfl, rfl, rfl, rfl⟩
    | updateMessage =>
      refine ⟨_, List.mem_map_of_mem hm, ?_⟩
      split <;> exact ⟨rfl, rfl, rfl, rfl⟩
    | _ => exact ⟨m, hm, rfl, rfl, rfl, rfl⟩

theorem persists_apply (h : db.apply now writes = .ok db') : Persists db db' := by
  induction writes generalizing db with
  | nil =>
    cases h
    exact .refl _
  | cons write writes ih =>
    obtain ⟨db₁, h₁, h₂⟩ := Db.apply_cons.mp h
    exact (Write.persists h₁).trans (ih h₂)

/-- The row that is inserted refers to rows of its org. -/
def Write.Fits (db : Db) : Write → Prop
  | .insertConversation c => ∃ channelType, db.Identifies c.orgId channelType c.customerIdentityId
  | .insertMessage m => db.Converses m.orgId m.channelType m.conversationId
  | .insertAttachment a => db.Stores a.orgId a.messageId ∧ ∃ name, a.s3Key = a.orgId ++ "/" ++ name
  | .insertAssignment a => ∃ channelType, db.Converses a.orgId channelType a.conversationId
  | _ => True

/-- A write whose row refers to rows of its org keeps the references in order. -/
theorem OneOrg.apply (hdb : OneOrg db) (hfits : write.Fits db) (h : write.apply now db = .ok db') :
    OneOrg db' := by
  have hpersists := Write.persists h
  obtain ⟨_, hconversations, hmessages⟩ := Write.rows_apply h
  refine ⟨fun c hc => ?_, fun m hm => ?_, fun a ha => ?_, fun a ha => ?_⟩
  · have hfound : ∃ channelType, db.Identifies c.orgId channelType c.customerIdentityId := by
      rw [hconversations] at hc
      cases write with
      | insertConversation conversation =>
        rcases List.mem_append.mp hc with hold | hnew
        · exact hdb.conversations c hold
        · obtain rfl := List.mem_singleton.mp hnew
          exact hfits
      | updateConversation =>
        obtain ⟨row, hrow, rfl⟩ := List.mem_map.mp hc
        obtain ⟨channelType, hrow'⟩ := hdb.conversations row hrow
        refine ⟨channelType, ?_⟩
        split <;> exact hrow'
      | _ => exact hdb.conversations c hc
    obtain ⟨channelType, hidentity⟩ := hfound
    exact ⟨channelType, hpersists.identifies hidentity⟩
  · refine hpersists.converses ?_
    rw [hmessages] at hm
    cases write with
    | insertMessage message =>
      rcases List.mem_append.mp hm with hold | hnew
      · exact hdb.messages m hold
      · obtain rfl := List.mem_singleton.mp hnew
        exact hfits
    | updateMessage =>
      obtain ⟨row, hrow, rfl⟩ := List.mem_map.mp hm
      have hrow' := hdb.messages row hrow
      split <;> exact hrow'
    | _ => exact hdb.messages m hm
  · have hfound : db.Stores a.orgId a.messageId ∧ ∃ name, a.s3Key = a.orgId ++ "/" ++ name := by
      rw [Write.attachments_apply h] at ha
      cases write with
      | insertAttachment attachment =>
        rcases List.mem_append.mp ha with hold | hnew
        · exact hdb.attachments a hold
        · obtain rfl := List.mem_singleton.mp hnew
          exact hfits
      | _ => exact hdb.attachments a ha
    exact ⟨hpersists.stores hfound.1, hfound.2⟩
  · have hfound : ∃ channelType, db.Converses a.orgId channelType a.conversationId := by
      rw [Write.assignments_apply h] at ha
      cases write with
      | insertAssignment assignment =>
        rcases List.mem_append.mp ha with hold | hnew
        · exact hdb.assignments a hold
        · obtain rfl := List.mem_singleton.mp hnew
          exact hfits
      | _ => exact hdb.assignments a ha
    obtain ⟨channelType, hconverses⟩ := hfound
    exact ⟨channelType, hpersists.converses hconverses⟩

/-! ### Transactions -/

/-- From the database or any that it has become, the transaction keeps the references in order and
establishes `fact`. -/
def Leads (fact : Db → Prop) (writes : List Write) (db : Db) : Prop :=
  ∀ db₁, Persists db db₁ → OneOrg db₁ → ∀ now db', db₁.apply now writes = .ok db' →
    OneOrg db' ∧ fact db'

theorem apply_append {writes' : List Write} : db.apply now (writes ++ writes') = .ok db' ↔
    ∃ db₁, db.apply now writes = .ok db₁ ∧ db₁.apply now writes' = .ok db' := by
  induction writes generalizing db with
  | nil =>
    refine ⟨fun h => ⟨db, rfl, h⟩, ?_⟩
    rintro ⟨_, h₁, h₂⟩
    cases h₁
    exact h₂
  | cons write writes ih =>
    simp only [List.cons_append, Db.apply_cons, ih]
    constructor
    · rintro ⟨db₂, h₂, db₁, h₁, h⟩
      exact ⟨db₁, ⟨db₂, h₂, h₁⟩, h⟩
    · rintro ⟨db₁, ⟨db₂, h₂, h₁⟩, h⟩
      exact ⟨db₂, h₂, db₁, h₁, h⟩

variable {fact fact' : Db → Prop}

theorem Leads.nil (h : ∀ db', Persists db db' → fact db') : Leads fact [] db := by
  rintro db₁ hpersists hone now db' happly
  cases happly
  exact ⟨hone, h _ hpersists⟩

/-- One more write, that fits where the fact holds. -/
theorem Leads.concat (h : Leads fact writes db) (hfits : ∀ db', fact db' → write.Fits db')
    (hfact : ∀ now db₁ db', fact db₁ → write.apply now db₁ = .ok db' → fact' db') :
    Leads fact' (writes ++ [write]) db := by
  intro db₁ hpersists hone now db' happly
  obtain ⟨db₂, happly₁, happly₂⟩ := apply_append.mp happly
  obtain ⟨hone₂, hfact₂⟩ := h db₁ hpersists hone now db₂ happly₁
  rw [Db.apply_singleton] at happly₂
  exact ⟨hone₂.apply (hfits _ hfact₂) happly₂, hfact now db₂ db' hfact₂ happly₂⟩

/-- More writes, that fit where the fact holds, which they do not take back. -/
theorem Leads.append (h : Leads fact writes db) (writes' : List Write)
    (hstable : ∀ db₁ db', Persists db₁ db' → fact db₁ → fact db')
    (hfits : ∀ write ∈ writes', ∀ db', fact db' → write.Fits db') :
    Leads fact (writes ++ writes') db := by
  induction writes' generalizing writes with
  | nil => rwa [List.append_nil]
  | cons write writes' ih =>
    rw [List.append_cons]
    refine ih (h.concat (hfits write List.mem_cons_self) fun now db₁ db' hfact happly => ?_)
      fun w hw => hfits w (List.mem_cons_of_mem _ hw)
    exact hstable db₁ db' (Write.persists happly) hfact

/-- What follows where rows that were read are still there. -/
theorem Leads.mono (h : Leads fact writes db)
    (himp : ∀ db', Persists db db' → fact db' → fact' db') : Leads fact' writes db := by
  intro db₁ hpersists hone now db' happly
  obtain ⟨hone', hfact⟩ := h db₁ hpersists hone now db' happly
  exact ⟨hone', himp db' (hpersists.trans (persists_apply happly)) hfact⟩

theorem Leads.persists (h : Leads fact writes db) (hpersists : Persists db db') :
    Leads fact writes db' :=
  fun db₁ h₁ => h db₁ (hpersists.trans h₁)

/-- An identity that is inserted is there. -/
theorem identifies_of_insert {i : ChannelIdentity} (h : (Write.insertIdentity i).apply now db = .ok db') :
    db'.Identifies i.orgId i.channelType i.id := by
  rw [Db.Identifies, (Write.rows_apply h).1]
  exact ⟨_, List.mem_append_right _ (List.mem_singleton_self _), rfl, rfl, rfl⟩

/-- A conversation that is inserted is there. -/
theorem converses_of_insert {c : Conversation} {channelType : String}
    (h : (Write.insertConversation c).apply now db = .ok db')
    (hidentity : db.Identifies c.orgId channelType c.customerIdentityId) :
    db'.Converses c.orgId channelType c.id := by
  rw [Db.Converses, (Write.rows_apply h).2.1]
  exact ⟨_, List.mem_append_right _ (List.mem_singleton_self _), rfl, rfl,
    (Write.persists h).identifies hidentity⟩

/-- A message that is inserted is there. -/
theorem stores_of_insert {m : Message} (h : (Write.insertMessage m).apply now db = .ok db') :
    db'.Stores m.orgId m.id := by
  rw [Db.Stores, (Write.rows_apply h).2.2]
  exact ⟨_, List.mem_append_right _ (List.mem_singleton_self _), rfl, rfl⟩

end Writes

/-! ### The setting -/

/-- The message with the id is the org's, over the channel, and the customer of its conversation has
this id there. -/
def Db.Routes (db : Db) (messageId orgId channelType externalId : String) : Prop :=
  ∃ m ∈ db.messages.rows, m.id = messageId ∧ m.orgId = orgId ∧ m.channelType = channelType ∧
    ∃ c ∈ db.conversations.rows, c.id = m.conversationId ∧ c.orgId = orgId ∧
      ∃ i ∈ db.identities.rows, i.id = c.customerIdentityId ∧ i.IsFor orgId channelType externalId

section Setting

variable {registry : Registry} {kept : Prop}

/-- What is sent is a message of an org, to the customer it is for, over an active connection of the org
on the channel, with what is stored for the connection. -/
def Call.Reaches (registry : Registry) (w : World) : Call → Prop
  | .sendOutbound messageId channelType recipient _ credentials =>
    ∃ connection ∈ w.db.connections.rows, connection.channelType = channelType ∧
      connection.status = "active" ∧ w.db.Routes messageId connection.orgId channelType recipient ∧
        w.Credits registry connection credentials
  | _ => True

/-- What a request leaves as it should be, next to others that may or may not register connections.
Where none does, the connections and their secrets are kept, and the secrets are cached as they are. -/
structure Linked (kept : Prop) (w w' : World) : Prop where
  persists : Persists w.db w'.db
  oneOrg : OneOrg w.db → OneOrg w'.db
  connections : kept → w'.db.connections = w.db.connections
  secrets : kept → w'.core.secrets = w.core.secrets
  coherent : kept → w.Coherent → w'.Coherent

theorem Linked.refl (w : World) : Linked kept w w where
  persists := .refl _
  oneOrg := id
  connections _ := rfl
  secrets _ := rfl
  coherent _ h := h

theorem Linked.trans {u v w : World} (h : Linked kept u v) (h' : Linked kept v w) :
    Linked kept u w where
  persists := h.persists.trans h'.persists
  oneOrg := h'.oneOrg ∘ h.oneOrg
  connections hkept := (h'.connections hkept).trans (h.connections hkept)
  secrets hkept := (h'.secrets hkept).trans (h.secrets hkept)
  coherent hkept hu := h'.coherent hkept (h.coherent hkept hu)

/-- The setting of a request. -/
def linking (registry : Registry) (kept : Prop) : Contract Call Call.Resp PyErr Choice World where
  answer := Call.answer
  rely := Linked kept
  admits _ _ _ := True
  guar c _ w w' := Linked kept w w' ∧ (kept → c.Reaches registry w)
  rely_refl := .refl
  rely_trans h h' := h.trans h'

/-- The references are in order, and where secrets are kept under keys of their own, the cache is. -/
structure World.InOrder (kept : Prop) (w : World) : Prop where
  oneOrg : OneOrg w.db
  coherent : kept → w.Coherent
  orgs : kept → ∀ c ∈ w.db.connections.rows, ':' ∉ c.orgId.toList

theorem Linked.inOrder {w w' : World} (h : Linked kept w w') (hw : w.InOrder kept) :
    w'.InOrder kept where
  oneOrg := h.oneOrg hw.oneOrg
  coherent hkept := h.coherent hkept (hw.coherent hkept)
  orgs hkept c hc := hw.orgs hkept c (h.connections hkept ▸ hc)

/-- The call neither commits nor sends, and puts no secret into the cache. -/
def Call.Leaves : Call → Prop
  | .core c => c.KeepsNone
  | .commit _ => False
  | .sendOutbound _ _ _ _ _ => False
  | _ => True

theorem Call.Leaves.keepsNone {c : Call} (hc : c.Leaves) : c.KeepsNone := by
  cases c with
  | core c => exact hc
  | _ => trivial

theorem linked_answer {c : Call} (hc : c.KeepsNone) (hcommit : ∀ writes, c ≠ .commit writes)
    (x : Choice) (w : World) : Linked kept w (c.answer x w).2 := by
  have hdb := db_answer_of_not_commit hcommit x w
  refine ⟨?_, fun hw => ?_, fun _ => ?_, fun _ => secrets_answer x c w, fun _ => coherent_answer x hc⟩
  · rw [hdb]
    exact .refl _
  · rwa [hdb]
  · rw [hdb]

theorem leaves_linking (c : Call) (hc : c.Leaves) (x : Choice) (w : World) (_ : True) :
    (linking registry kept).guar c x w (c.answer x w).2 ∧ Linked kept w (c.answer x w).2 := by
  have hlinked : Linked kept w (c.answer x w).2 := linked_answer hc.keepsNone (by
    rintro writes rfl
    exact hc) x w
  refine ⟨⟨hlinked, fun _ => ?_⟩, hlinked⟩
  cases c with
  | sendOutbound => exact hc.elim
  | _ => trivial

section Rules

variable {α β : Type} {w : World} {Q : Except PyErr α → World → Prop}

/-- A part of a program that neither commits nor sends. -/
theorem linking_bind {p : Prog β} {f : β → Prog α} (hp : p.Calls Call.Leaves)
    (hf : ∀ b w', Linked kept w w' → (linking registry kept).wp (f b) w' Q) (herror : ∀ e w', Linked kept w w' → Q (.error e) w') :
    (linking registry kept).wp (p.bind f) w Q :=
  wp_bind_of_calls leaves_linking hp (returns_true p) (fun b w' h _ => hf b w' h) herror

/-- A program that neither commits nor sends. -/
theorem preserves_of_leaves {p : Prog α} (hp : p.Calls Call.Leaves) :
    (linking registry kept).Preserves (World.InOrder kept) p := fun _ hw =>
  wp_of_calls leaves_linking hp (returns_true p) (fun _ _ h _ => h.inOrder hw) fun _ _ h => h.inOrder hw

/-- A lookup. -/
theorem linking_query {c : Call} {r : Choice → World → Except PyErr c.Resp}
    (hc : ∀ x w, c.answer x w = x.fate.query (r x w) w) {Q : Except PyErr c.Resp → World → Prop}
    (hleaves : c.Leaves) (hok : ∀ x a w', Linked kept w w' → r x w' = .ok a → Q (.ok a) w')
    (herror : ∀ e w', Linked kept w w' → Q (.error e) w') : (linking registry kept).wp (run c) w Q := by
  refine wp_perform fun w₁ h₁ x _ => ⟨(leaves_linking c hleaves x w₁ trivial).1, ?_⟩
  show Q (c.answer x w₁).1 (c.answer x w₁).2
  have hstays : (c.answer x w₁).2 = w₁ := by
    rw [hc]
    exact Core.Fate.snd_query ..
  rw [hstays]
  cases hr : (c.answer x w₁).1 with
  | error e => exact herror e w₁ h₁
  | ok a =>
    rw [hc] at hr
    exact hok x a w₁ h₁ (Core.Fate.eq_of_query hr)

/-- A commit whose rows refer to rows of their org. -/
theorem linking_commit {fact : Db → Prop} {writes : List Write} {Q : Except PyErr Unit → World → Prop}
    (hw : w.InOrder kept) (hwrites : Leads fact writes w.db)
    (hok : ∀ w', Linked kept w w' → fact w'.db → Q (.ok ()) w')
    (herror : ∀ e w', Linked kept w w' → Q (.error e) w') : (linking registry kept).wp (run (.commit writes)) w Q := by
  refine wp_perform fun w₁ h₁ x _ => ?_
  show (linking registry kept).guar (.commit writes) x w₁ ((Call.commit writes).answer x w₁).2 ∧
    Q ((Call.commit writes).answer x w₁).1 ((Call.commit writes).answer x w₁).2
  rcases commit_cases writes x w₁ with ⟨_, db, hdb, hw₂⟩ | ⟨_, hw₂, e, he⟩
  · obtain ⟨hone, hfact⟩ := hwrites w₁.db h₁.persists (h₁.inOrder hw).oneOrg x.now db hdb
    have h₂ : Linked kept w₁ { w₁ with db := db } :=
      ⟨persists_apply hdb, fun _ => hone, fun _ => connections_apply hdb, fun _ => rfl, fun _ h => h⟩
    rw [hw₂]
    refine ⟨⟨h₂, fun _ => trivial⟩, ?_⟩
    cases ((Call.commit writes).answer x w₁).1 with
    | ok u => exact hok _ (h₁.trans h₂) hfact
    | error e => exact herror e _ (h₁.trans h₂)
  · rw [hw₂, he]
    exact ⟨⟨.refl w₁, fun _ => trivial⟩, herror e w₁ h₁⟩

/-- A commit that only updates. -/
theorem preserves_update {writes : List Write} (hwrites : ∀ write ∈ writes, ∀ db, write.Fits db) :
    (linking registry kept).Preserves (World.InOrder kept) (run (.commit writes)) := by
  intro w hw
  have hleads : Leads (fun _ => True) ([] ++ writes) w.db :=
    (Leads.nil fun _ _ => trivial).append writes (fun _ _ _ _ => trivial) fun write h db _ => hwrites write h db
  exact linking_commit hw hleads (fun w' h _ => h.inOrder hw) fun e w' h => h.inOrder hw

end Rules

/-! ### Messages that come in -/

/-- A program of Core that puts no secret into the cache. -/
theorem calls_leaves_core {α : Type} {p : Core.Prog α} (hp : p.Calls Core.Call.KeepsNone) :
    (core p).Calls Call.Leaves :=
  Calls.embed hp

/-- One call of Core. -/
theorem calls_leaves_run {c : Core.Call} (hc : c.KeepsNone) : (core (Core.run c)).Calls Call.Leaves :=
  calls_leaves_core (Calls.perform hc)

theorem keepsNone_announceAssignment (conversation : Conversation)
    (assignedUserId assignedBy reason : String) :
    (announceAssignment conversation assignedUserId assignedBy reason).Calls Core.Call.KeepsNone :=
  (Core.reports_keepsNone.calls_logAudit _ _ _ _ _ _).bind fun _ =>
    (Core.reports_keepsNone.calls_publishEvent _ _ _ _).bind fun _ =>
      (Calls.perform trivial).bind fun _ => Calls.perform trivial

theorem keepsNone_announceMessage (orgId channelType : String) (conversation : Conversation)
    (messageId : String) :
    (announceMessage orgId channelType conversation messageId).Calls Core.Call.KeepsNone := by
  refine (Core.reports_keepsNone.calls_publishEvent _ _ _ _).bind fun _ => ?_
  refine (Calls.perform trivial).bind fun _ => ?_
  split
  · exact Calls.perform trivial
  · trivial

theorem keepsNone_announceSent (message : Message) :
    (announceSent message).Calls Core.Call.KeepsNone :=
  (Core.reports_keepsNone.calls_publishEvent _ _ _ _).bind fun _ => Calls.perform trivial

theorem keepsNone_limitSends (orgId channelType : String) :
    (limitSends orgId channelType).Calls Core.Call.KeepsNone := by
  unfold limitSends
  split
  · trivial
  · refine (Calls.perform trivial).bind fun retryAfter => ?_
    cases retryAfter <;> trivial

theorem returns_core {α : Type} {P : α → Prop} {p : Core.Prog α} (hp : p.Returns P) :
    (core p).Returns P := by
  induction p with
  | ret a => exact hp
  | raise e => trivial
  | call c k ih => exact fun r => ih _ (hp _)

section Inbound

variable {orgId channelType : String} {w : World}

/-- The identity that a sender has is there once what is pending is committed. -/
theorem linking_findOrCreateIdentity {externalId : String} {displayName : Option String}
    {Q : Except PyErr (ChannelIdentity × List Write) → World → Prop}
    (hok : ∀ identity pending w', Linked kept w w' →
      Leads (fun db => db.Identifies orgId channelType identity.id) pending w'.db →
        Q (.ok (identity, pending)) w')
    (herror : ∀ e w', Linked kept w w' → Q (.error e) w') :
    (linking registry kept).wp (findOrCreateIdentity orgId channelType externalId displayName) w Q := by
  refine wp_bind (linking_query (fun _ _ => rfl) trivial (fun _ found w₁ h₁ hfound => ?_) herror)
  cases found with
  | some identity =>
    have hmem := List.mem_filter.mp (mem_of_scalarOneOrNone hfound)
    have hfor : identity.IsFor orgId channelType externalId := by
      simpa [ChannelIdentity.IsFor, and_assoc] using hmem.2
    have hidentity : w₁.db.Identifies orgId channelType identity.id :=
      ⟨identity, hmem.1, rfl, hfor.1, hfor.2.1⟩
    exact hok identity [] w₁ h₁ (.nil fun _ h => h.identifies hidentity)
  | none =>
    refine linking_bind (calls_leaves_run trivial) (fun id w₂ h₂ => ?_) fun e w₂ h₂ =>
      herror e w₂ (h₁.trans h₂)
    refine linking_bind (Calls.perform trivial) (fun _ w₃ h₃ => ?_) fun e w₃ h₃ =>
      herror e w₃ (h₁.trans (h₂.trans h₃))
    have hstart : Leads (fun _ => True) [] w₃.db := .nil fun _ _ => trivial
    exact hok _ _ w₃ (h₁.trans (h₂.trans h₃))
      (hstart.concat (fun _ _ => trivial) fun _ _ _ _ h => identifies_of_insert h)

/-- The conversation with an identity is there once what is pending is committed. -/
theorem linking_findOrCreateConversation {held : Option Conversation} {pending : List Write}
    {identityId : String} {Q : Except PyErr (Conversation × Bool × List Write) → World → Prop}
    (hpending : Leads (fun db => db.Identifies orgId channelType identityId) pending w.db)
    (hok : ∀ conversation isNew pending' w', Linked kept w w' → (isNew = true → conversation.orgId = orgId) →
      Leads (fun db => db.Converses orgId channelType conversation.id) pending' w'.db →
        Q (.ok (conversation, isNew, pending')) w')
    (herror : ∀ e w', Linked kept w w' → Q (.error e) w') :
    (linking registry kept).wp (findOrCreateConversation held pending orgId identityId) w Q := by
  refine wp_bind (linking_query (fun _ _ => rfl) trivial (fun _ found w₁ h₁ hfound => ?_) herror)
  cases found with
  | some row =>
    have hmem := List.mem_filter.mp (mem_of_scalarOneOrNone hfound)
    have hwith : row.IsWith orgId identityId := by simpa [Conversation.IsWith] using hmem.2
    have hid : ((held.filter fun c => c.id == row.id).getD row).id = row.id := by
      cases hheld : held.filter fun c => c.id == row.id with
      | none => rfl
      | some c => simpa using (Option.filter_eq_some_iff.mp hheld).2
    refine hok _ false pending w₁ h₁ (fun h => (by cases h))
      ((hpending.persists h₁.persists).mono fun db' hpersists hidentity => ?_)
    -- the row that was found is there whatever the transaction does
    obtain ⟨c, hc, hcid, hcorg, hcwith⟩ := hpersists.conversations row hmem.1
    refine ⟨c, hc, hcid.trans hid.symm, hcorg.trans hwith.1, ?_⟩
    rwa [hcwith, hwith.2]
  | none =>
    refine linking_bind (calls_leaves_run trivial) (fun id w₂ h₂ => ?_) fun e w₂ h₂ =>
      herror e w₂ (h₁.trans h₂)
    refine linking_bind (Calls.perform trivial) (fun _ w₃ h₃ => ?_) fun e w₃ h₃ =>
      herror e w₃ (h₁.trans (h₂.trans h₃))
    have hlinked := h₁.trans (h₂.trans h₃)
    refine hok _ true _ w₃ hlinked (fun _ => rfl) ((hpending.persists hlinked.persists).concat
      (fun db' hidentity => ⟨channelType, hidentity⟩) fun _ _ _ hidentity h => ?_)
    exact converses_of_insert h hidentity

/-- What is uploaded is stored under the org's prefix. -/
theorem uploadFile_returns (orgId serviceType filename : String) (content : Bytes)
    (mimeType uploadedBy : String) :
    (Core.uploadFile orgId serviceType filename content mimeType uploadedBy).Returns fun stored =>
      ∃ name, stored.key = orgId ++ "/" ++ name := by
  unfold Core.uploadFile
  have hrest : ∀ now : DateTime, ∃ name, orgId ++ "/" ++ serviceType ++ "/" ++ DateTime.stamp now ++
      "_" ++ filename = orgId ++ "/" ++ name := fun now =>
    ⟨serviceType ++ "/" ++ DateTime.stamp now ++ "_" ++ filename, by simp only [String.append_assoc]⟩
  split
  · trivial
  · refine Returns.bind (returns_true _) fun now _ => Returns.bind (returns_true _) fun _ _ => ?_
    refine Returns.bind (returns_true _) fun _ _ => Returns.bind (returns_true _) fun _ _ => ?_
    exact Returns.bind (returns_true _) fun _ _ => hrest now

/-- An attachment of a message, stored under the prefix of its org. -/
def AttachedTo (orgId messageId : String) (a : MessageAttachment) : Prop :=
  a.orgId = orgId ∧ a.messageId = messageId ∧ ∃ name, a.s3Key = orgId ++ "/" ++ name

theorem uploadAttachments_leaves (orgId messageId : String) (atts : List InboundAttachment) :
    (uploadAttachments orgId messageId atts).Calls Call.Leaves ∧
      (uploadAttachments orgId messageId atts).Returns fun uploaded =>
        ∀ a ∈ uploaded, AttachedTo orgId messageId a := by
  induction atts with
  | nil => exact ⟨trivial, fun a ha => absurd ha List.not_mem_nil⟩
  | cons att atts ih =>
    constructor
    · exact Calls.bind (calls_leaves_core (Core.keepsNone_uploadFile _ _ _ _ _ _)) fun _ =>
        ih.1.bind fun _ => trivial
    · refine Returns.bind (returns_core (uploadFile_returns orgId "omnichannel" att.filename
        att.content att.contentType "system")) fun stored hstored => ?_
      refine ih.2.bind fun rest hrest a ha => ?_
      rcases List.mem_cons.mp ha with rfl | ha
      · exact ⟨rfl, rfl, hstored⟩
      · exact hrest a ha

theorem addAttachments_leaves {messageId : String} {attachments : List MessageAttachment}
    (hattached : ∀ a ∈ attachments, AttachedTo orgId messageId a) :
    (addAttachments attachments).Calls Call.Leaves ∧
      (addAttachments attachments).Returns fun writes =>
        ∀ write ∈ writes, ∀ db, db.Stores orgId messageId → write.Fits db := by
  induction attachments with
  | nil => exact ⟨trivial, fun write hwrite => absurd hwrite List.not_mem_nil⟩
  | cons attachment attachments ih =>
    obtain ⟨hcalls, hreturns⟩ := ih fun a ha => hattached a (List.mem_cons_of_mem _ ha)
    constructor
    · exact Calls.bind (calls_leaves_run trivial) fun _ => hcalls.bind fun _ => trivial
    · refine Returns.bind (returns_true _) fun id _ => hreturns.bind fun rest hrest write hwrite => ?_
      rcases List.mem_cons.mp hwrite with rfl | hwrite
      · intro db hstores
        obtain ⟨horg, hmessage, hkey⟩ := hattached attachment List.mem_cons_self
        simp only [Write.Fits, horg, hmessage]
        exact ⟨hstores, hkey⟩
      · exact hrest write hwrite

/-- An assignment of a conversation that is there. -/
theorem linking_recordAssignment {conversation : Conversation} {assignedUserId assignedBy reason : String}
    (hw : w.InOrder kept) (hconverses : w.db.Converses conversation.orgId channelType conversation.id) :
    (linking registry kept).wp (recordAssignment conversation assignedUserId assignedBy reason) w fun _ w' =>
      w'.InOrder kept := by
  refine linking_bind (calls_leaves_run trivial) (fun id w₁ h₁ => ?_) fun e w₁ h₁ => h₁.inOrder hw
  have hw₁ : w₁.InOrder kept := h₁.inOrder hw
  have hstart : Leads (fun db => db.Converses conversation.orgId channelType conversation.id) [] w₁.db :=
    .nil fun _ h => h.converses (h₁.persists.converses hconverses)
  have hupdate : Leads (fun db => db.Converses conversation.orgId channelType conversation.id)
      ([] ++ [.updateConversation conversation { conversation with assignedUserId := some assignedUserId }])
      w₁.db :=
    hstart.concat (fun _ _ => trivial) fun _ _ _ hfact h => (Write.persists h).converses hfact
  have hleads : Leads (fun _ => True) (([] ++ [.updateConversation conversation
      { conversation with assignedUserId := some assignedUserId }]) ++
        [.insertAssignment (newAssignment id conversation assignedUserId assignedBy reason)]) w₁.db :=
    hupdate.concat (fun _ hfact => ⟨channelType, hfact⟩) fun _ _ _ _ _ => trivial
  refine wp_bind (linking_commit hw₁ hleads (fun w₂ h₂ _ => ?_) fun e w₂ h₂ => h₂.inOrder hw₁)
  refine preserves_of_leaves ?_ w₂ (h₂.inOrder hw₁)
  exact Calls.bind (calls_leaves_core (keepsNone_announceAssignment _ _ _ _)) fun _ => trivial

theorem linking_applySingleAssigneeIfConfigured {conversation : Conversation} (hw : w.InOrder kept)
    (hconverses : w.db.Converses conversation.orgId channelType conversation.id) :
    (linking registry kept).wp (applySingleAssigneeIfConfigured conversation) w fun _ w' => w'.InOrder kept := by
  refine linking_bind (calls_leaves_core (Core.keepsNone_getOrgSettings _)) (fun orgSettings w₁ h₁ => ?_) fun e w₁ h₁ => h₁.inOrder hw
  have hw₁ : w₁.InOrder kept := h₁.inOrder hw
  refine wp_bind (wp_ofExcept.mpr ?_)
  cases designatedUser orgSettings.metadata with
  | error e => exact hw₁
  | ok user =>
    show (linking registry kept).wp _ w₁ _
    dsimp only
    split
    · exact hw₁
    · exact linking_recordAssignment hw₁ (h₁.persists.converses hconverses)
    · exact hw₁

/-- A message of a conversation that is there, with its attachments. -/
theorem linking_storeMessage {conversation : Conversation} {isNew : Bool} {pending : List Write}
    {messageId : String} {item : NormalizedInboundMessage} (hw : w.InOrder kept)
    (hnew : isNew = true → conversation.orgId = orgId)
    (hpending : Leads (fun db => db.Converses orgId channelType conversation.id ∧
      db.Stores orgId messageId) pending w.db) :
    (linking registry kept).wp (storeMessage orgId channelType conversation isNew pending messageId item) w
      fun _ w' => w'.InOrder kept := by
  obtain ⟨hcalls, hreturns⟩ := uploadAttachments_leaves orgId messageId item.attachments
  refine wp_bind_of_calls leaves_linking hcalls hreturns (fun uploaded w₁ h₁ hattached => ?_)
    fun e w₁ h₁ => h₁.inOrder hw
  refine linking_bind (calls_leaves_run trivial) (fun now w₂ h₂ => ?_) fun e w₂ h₂ =>
    (h₁.trans h₂).inOrder hw
  obtain ⟨hcalls', hreturns'⟩ := addAttachments_leaves hattached
  refine wp_bind_of_calls leaves_linking hcalls' hreturns' (fun attachments w₃ h₃ hattachments => ?_)
    fun e w₃ h₃ => (h₁.trans (h₂.trans h₃)).inOrder hw
  have hlinked := h₁.trans (h₂.trans h₃)
  have hw₃ : w₃.InOrder kept := hlinked.inOrder hw
  have hstable : ∀ db₁ db', Persists db₁ db' →
      (db₁.Converses orgId channelType conversation.id ∧ db₁.Stores orgId messageId) →
        db'.Converses orgId channelType conversation.id ∧ db'.Stores orgId messageId :=
    fun _ _ h hfact => ⟨h.converses hfact.1, h.stores hfact.2⟩
  have hupdate := (hpending.persists hlinked.persists).append
    [.updateConversation conversation (withMessage conversation now item.bodyText)] hstable
      fun write hwrite _ _ => by
        obtain rfl := List.mem_singleton.mp hwrite
        trivial
  have hleads := hupdate.append attachments hstable fun write hwrite db' hfact =>
    hattachments write hwrite db' hfact.2
  refine wp_bind (linking_commit hw₃ hleads (fun w₄ h₄ hfact => ?_) fun e w₄ h₄ => h₄.inOrder hw₃)
  have hw₄ : w₄.InOrder kept := h₄.inOrder hw₃
  have hrest : ∀ routed, (linking registry kept).Preserves (World.InOrder kept)
      ((core (announceMessage orgId channelType routed messageId)).bind fun _ => .ret routed) :=
    fun routed => preserves_of_leaves
      (Calls.bind (calls_leaves_core (keepsNone_announceMessage _ _ _ _)) fun _ => trivial)
  cases isNew with
  | false => exact hrest _ w₄ hw₄
  | true =>
    have hconverses : w₄.db.Converses conversation.orgId channelType conversation.id := by
      rw [hnew rfl]
      exact hfact.1
    refine wp_bind (wp_mono (fun r w₅ hw₅ => ?_)
      (linking_applySingleAssigneeIfConfigured hw₄ hconverses))
    cases r with
    | ok routed => exact hrest routed w₅ hw₅
    | error e => exact hw₅

/-- A message that comes in. -/
theorem preserves_processInboundItem (orgId channelType : String) (held : Option Conversation)
    (item : NormalizedInboundMessage) :
    (linking registry kept).Preserves (World.InOrder kept) (processInboundItem orgId channelType held item) := by
  intro w hw
  refine wp_bind (linking_findOrCreateIdentity (fun identity pending w₁ h₁ hidentity => ?_)
    fun e w₁ h₁ => h₁.inOrder hw)
  refine wp_bind (linking_findOrCreateConversation hidentity
    (fun conversation isNew pending' w₂ h₂ hnew hconverses => ?_) fun e w₂ h₂ => (h₁.trans h₂).inOrder hw)
  refine linking_bind (calls_leaves_run trivial) (fun messageId w₃ h₃ => ?_) fun e w₃ h₃ =>
    (h₁.trans (h₂.trans h₃)).inOrder hw
  have hleads : Leads (fun db => db.Converses orgId channelType conversation.id ∧
      db.Stores orgId messageId) (pending' ++
        [.insertMessage (inboundMessage messageId orgId channelType conversation.id item)]) w₃.db :=
    (hconverses.persists h₃.persists).concat (fun _ hfact => hfact) fun _ _ _ hfact h =>
      ⟨(Write.persists h).converses hfact, stores_of_insert h⟩
  have hflush : (flushMessage (pending' ++
      [.insertMessage (inboundMessage messageId orgId channelType conversation.id item)])).Calls
        Call.Leaves := by
    refine Calls.handle (Calls.bind (Calls.perform trivial) fun _ => trivial) fun exc => ?_
    split
    · exact Calls.bind (Calls.perform trivial) fun _ => trivial
    · trivial
  refine linking_bind hflush (fun flushed w₄ h₄ => ?_) fun e w₄ h₄ =>
    (h₁.trans (h₂.trans (h₃.trans h₄))).inOrder hw
  have hw₄ : w₄.InOrder kept := (h₁.trans (h₂.trans (h₃.trans h₄))).inOrder hw
  cases flushed with
  | false => exact hw₄
  | true =>
    refine wp_bind (wp_mono (fun r w₅ hw₅ => ?_)
      (linking_storeMessage hw₄ hnew (hleads.persists h₄.persists)))
    cases r <;> exact hw₅

end Inbound

theorem preserves_applyDeliveryStatus (orgId channelType : String) (update : DeliveryStatusUpdate) :
    (linking registry kept).Preserves (World.InOrder kept) (applyDeliveryStatus orgId channelType update) := by
  refine Preserves.bind (preserves_of_leaves (Calls.perform trivial)) fun found => ?_
  cases found with
  | none => exact fun w hw => hw
  | some message =>
    show (linking registry kept).Preserves _ (if advances message.status update.status then _ else _)
    split
    · refine (preserves_update fun write hwrite db => ?_).bind fun _ =>
        preserves_of_leaves (calls_leaves_run trivial)
      obtain rfl := List.mem_singleton.mp hwrite
      trivial
    · exact fun w hw => hw

/-- One entry of the inbound queue. -/
theorem preserves_processInboundMessage (msg : QueueMessage) :
    (linking registry kept).Preserves (World.InOrder kept) (processInboundMessage registry msg) := by
  refine Preserves.ofExcept_bind fun orgId _ => Preserves.ofExcept_bind fun channelType _ => ?_
  refine Preserves.ofExcept_bind fun adapter _ => Preserves.ofExcept_bind fun rawPayload _ => ?_
  refine Preserves.bind (preserves_of_leaves (Calls.perform trivial)) fun normalized => ?_
  refine Preserves.bind (Preserves.forEach (fun held item =>
    preserves_processInboundItem orgId channelType held item) _ _) fun _ => ?_
  refine Preserves.ofExcept_bind fun updates _ => ?_
  exact Preserves.forEach (fun _ update => preserves_applyDeliveryStatus orgId channelType update) _ _

/-- A queue operation. -/
theorem preserves_queue {name : QueueName} {c : Call} (hc : c.Leaves) :
    (linking registry kept).Preserves (World.InOrder kept) ((run (.queueUrl name)).bind fun _ => run c) :=
  preserves_of_leaves (Calls.bind (Calls.perform trivial) fun _ => Calls.perform hc)

theorem preserves_processInboundBatch (maxMessages : ℕ) :
    (linking registry kept).Preserves (World.InOrder kept) (processInboundBatch registry maxMessages) := by
  refine Preserves.bind (preserves_queue trivial) fun messages => ?_
  refine Preserves.bind (Preserves.forEach (fun _ msg => ?_) _ _) fun _ => fun w hw => hw
  exact Preserves.bind (preserves_processInboundMessage msg) fun _ => preserves_queue trivial

/-! ### Messages that go out -/

theorem Persists.routes {db db' : Db} (h : Persists db db') {messageId orgId channelType externalId : String}
    (hdb : db.Routes messageId orgId channelType externalId) :
    db'.Routes messageId orgId channelType externalId := by
  obtain ⟨m, hm, hid, horg, hchannel, c, hc, hcid, hcorg, i, hi, hwith, hfor⟩ := hdb
  obtain ⟨m', hm', hid', horg', hchannel', hin'⟩ := h.messages m hm
  obtain ⟨c', hc', hcid', hcorg', hcwith'⟩ := h.conversations c hc
  exact ⟨m', hm', hid'.trans hid, horg'.trans horg, hchannel'.trans hchannel, c', hc',
    hcid'.trans (hcid.trans hin'.symm), hcorg'.trans hcorg, i, h.identities i hi,
    hwith.trans hcwith'.symm, hfor⟩

/-- A message that is loaded, with its conversation and the identity of that, goes to the identity. -/
theorem OneOrg.routes {db : Db} (hdb : OneOrg db) {m : Message} {c : Conversation} {i : ChannelIdentity}
    (hm : m ∈ db.messages.rows) (hc : c ∈ db.conversations.rows) (hi : i ∈ db.identities.rows)
    (hin : c.id = m.conversationId) (hwith : i.id = c.customerIdentityId) :
    db.Routes m.id m.orgId m.channelType i.externalId := by
  have hconverses := hdb.messages m hm
  rw [← hin] at hconverses
  obtain ⟨horg, hidentity⟩ := hconverses.of_mem hc
  rw [← hwith] at hidentity
  obtain ⟨hiorg, hichannel⟩ := hidentity.of_mem hi
  exact ⟨m, hm, rfl, rfl, rfl, c, hc, hin, horg, i, hi, hwith, hiorg, hichannel, rfl⟩

/-- A secret is read as it is stored. -/
theorem linking_getSecret {s : Secret} {w : World} (hs : kept → s.Separate) (hw : w.InOrder kept) :
    (linking registry kept).wp (core (Core.getSecret s.orgId s.serviceType s.key)) w fun r w' =>
      Linked kept w w' ∧ ∀ value, r = .ok value → kept → w'.core.secrets s.name = some value := by
  have hleaves : ∀ {c : Core.Call}, c.KeepsNone → ∀ x w₁,
      (linking registry kept).guar (.core c) x w₁ ((Call.core c).answer x w₁).2 ∧
        Linked kept w₁ ((Call.core c).answer x w₁).2 := fun {c} hc x w₁ =>
    leaves_linking (.core c) hc x w₁ trivial
  refine wp_comap (wp_bind (wp_perform fun w₁ h₁ x _ => ?_))
  obtain ⟨hguar, hlinked⟩ := hleaves (c := .secretCacheGet s.cacheKey) trivial x w₁
  refine ⟨hguar, ?_⟩
  have hlinked₁ : Linked kept w _ := h₁.trans hlinked
  show Contract.next _ _ _ (((Call.core (.secretCacheGet s.cacheKey)).answer x w₁).1.map fun r => r) _
  cases hreply : ((Call.core (.secretCacheGet s.cacheKey)).answer x w₁).1 with
  | error e => exact ⟨hlinked₁, fun value h => (by cases h)⟩
  | ok found =>
    cases found with
    | some value =>
      refine ⟨hlinked₁, fun value' h hkept => ?_⟩
      cases h
      obtain ⟨expiresAt, hentry⟩ := cached_of_cacheGet x hreply
      show ((Call.core (.secretCacheGet s.cacheKey)).answer x w₁).2.core.secrets s.name = some value
      rw [secrets_answer]
      exact (h₁.inOrder hw).coherent hkept s (hs hkept) expiresAt value hentry
    | none =>
      refine wp_bind (wp_handle (wp_perform fun w₂ h₂ x₂ _ => ?_))
      obtain ⟨hguar₂, hlinked₂⟩ := hleaves (c := .getSecretValue s.name) trivial x₂ w₂
      refine ⟨hguar₂, ?_⟩
      have hlinked₂' : Linked kept w _ := hlinked₁.trans (h₂.trans hlinked₂)
      show Contract.caught _ _ _
        (((Call.core (.getSecretValue s.name)).answer x₂ w₂).1.map fun r => r) _
      cases hstored : ((Call.core (.getSecretValue s.name)).answer x₂ w₂).1 with
      | error e =>
        show Contract.wp _ _ _ _
        dsimp only
        split <;> exact ⟨hlinked₂', fun value h => (by cases h)⟩
      | ok value =>
        have hheld := stored_of_getSecretValue x₂ hstored
        refine wp_bind (wp_perform fun w₃ h₃ x₃ _ => ?_)
        have hheld₃ : kept → w₃.core.secrets s.name = some value := fun hkept => by
          rw [h₃.secrets hkept]
          exact (congrFun (hlinked₂.secrets hkept) s.name).trans hheld
        have hput : Linked kept w₃ ((Call.core (.secretCacheSet s.cacheKey value 300)).answer x₃ w₃).2 :=
          ⟨.refl _, id, fun _ => rfl, fun _ => rfl,
            fun hkept => coherent_cacheSet x₃ (hs hkept) (hheld₃ hkept) 300⟩
        refine ⟨⟨hput, fun _ => trivial⟩, hlinked₂'.trans (h₃.trans hput), fun value' h hkept => ?_⟩
        cases h
        exact hheld₃ hkept

/-- The credentials of a send, from a connection of the org. -/
theorem linking_resolveCredentials {adapter : ChannelAdapter} {message : Message}
    {connection : ChannelConnection} {w : World} (hw : w.InOrder kept)
    (hconnection : connection ∈ w.db.connections.rows) (horg : connection.orgId = message.orgId)
    (hadapter : getAdapter registry connection.channelType = .ok adapter) :
    (linking registry kept).wp (resolveCredentials adapter message connection) w fun r w' =>
      Linked kept w w' ∧ ∀ credentials, r = .ok credentials → kept →
        w'.Credits registry connection credentials := by
  unfold resolveCredentials
  rw [← horg]
  by_cases hrequires : adapter.requiresCredentials = true
  · rw [if_pos hrequires]
    have hseparate : kept → connection.secret.Separate := fun hkept =>
      ⟨hw.orgs hkept connection hconnection, (by decide : ':' ∉ "omnichannel".toList)⟩
    refine wp_bind (wp_mono (fun r w₁ h => ?_) (linking_getSecret (s := connection.secret) hseparate hw))
    cases r with
    | error e => exact ⟨h.1, fun _ hr => (by cases hr)⟩
    | ok value =>
      refine wp_ofExcept.mpr ⟨h.1, fun credentials hr hkept => ?_⟩
      exact credits_of_update hadapter hrequires (h.2 value rfl hkept) hr
  · rw [if_neg hrequires]
    refine ⟨.refl w, fun credentials hr _ => ⟨adapter, hadapter, ?_⟩⟩
    cases hr
    rw [if_neg hrequires]

section Outbound

variable {message : Message} {identity : ChannelIdentity} {connection : ChannelConnection}

theorem preserves_sendFailed (receiveCount : ℕ) (exc : PyErr) :
    (linking registry kept).Preserves (World.InOrder kept) (sendFailed message receiveCount exc) := by
  unfold sendFailed
  split
  case h_2 => exact fun w hw => hw
  refine Preserves.bind (preserves_of_leaves (Calls.perform trivial)) fun _ => ?_
  refine Preserves.bind ?_ fun _ w hw => hw
  by_cases hcount : sqsMaxReceiveCount ≤ receiveCount
  · rw [markFailed_of_le hcount]
    refine preserves_update fun write hwrite db => ?_
    obtain rfl := List.mem_singleton.mp hwrite
    trivial
  · rw [markFailed_of_lt (Nat.lt_of_not_le hcount)]
    exact fun w hw => hw

/-- A message with its context is sent to whom it is for. -/
theorem linking_sendQueued {w : World} (hw : w.InOrder kept) (receiveCount : ℕ)
    (hroutes : w.db.Routes message.id message.orgId message.channelType identity.externalId)
    (hconnection : connection ∈ w.db.connections.rows) (horg : connection.orgId = message.orgId)
    (hchannel : connection.channelType = message.channelType) (hactive : connection.status = "active") :
    (linking registry kept).wp (sendQueued registry message identity connection receiveCount) w
      fun _ w' => w'.InOrder kept := by
  refine wp_bind (wp_ofExcept.mpr ?_)
  cases hadapter : getAdapter registry message.channelType with
  | error e => exact hw
  | ok adapter =>
    rw [← hchannel] at hadapter
    refine wp_bind (wp_mono (fun r w₁ h => ?_) (linking_resolveCredentials hw hconnection horg hadapter))
    obtain ⟨h₁, hcredits⟩ := h
    cases r with
    | error e => exact h₁.inOrder hw
    | ok credentials =>
    have hsend : (linking registry kept).wp (trySend message identity credentials receiveCount) w₁
        fun _ w' => w'.InOrder kept := by
      refine wp_handle (wp_bind (wp_perform fun w₂ h₂ x _ => ?_))
      have hlinked := h₁.trans h₂
      have hsame : Linked kept w₂ ((Call.sendOutbound message.id message.channelType identity.externalId
          ⟨message.subject, message.bodyText⟩ credentials).answer x w₂).2 :=
        linked_answer (c := .sendOutbound ..) trivial (fun _ h => by cases h) x w₂
      have hw₂ := (hlinked.trans hsame).inOrder hw
      refine ⟨⟨hsame, fun hkept => ⟨connection, ?_, hchannel, hactive, ?_, ?_⟩⟩, ?_⟩
      · rw [hlinked.connections hkept]
        exact hconnection
      · rw [horg]
        exact hlinked.persists.routes hroutes
      · rw [World.Credits, h₂.secrets hkept]
        exact hcredits credentials rfl hkept
      show (linking registry kept).next _ _ ((Call.sendOutbound message.id message.channelType
        identity.externalId ⟨message.subject, message.bodyText⟩ credentials).answer x w₂).1 _
      cases ((Call.sendOutbound message.id message.channelType identity.externalId
          ⟨message.subject, message.bodyText⟩ credentials).answer x w₂).1 with
      | ok externalId => exact hw₂
      | error exc => exact preserves_sendFailed receiveCount exc _ hw₂
    refine wp_bind (wp_mono (fun r w₂ hw₂ => ?_) hsend)
    cases r with
    | error e => exact hw₂
    | ok sent =>
      cases sent with
      | none => exact hw₂
      | some externalId =>
        have hrest : (linking registry kept).Preserves (World.InOrder kept) ((run (.commit [.updateMessage message
            { message with externalMessageId := externalId, status := "sent" }])).bind fun _ =>
              (core (announceSent message)).bind fun _ => .ret true) := by
          refine Preserves.bind (preserves_update fun write hwrite db => ?_) fun _ =>
            preserves_of_leaves
              (Calls.bind (calls_leaves_core (keepsNone_announceSent message)) fun _ => trivial)
          obtain rfl := List.mem_singleton.mp hwrite
          trivial
        exact hrest w₂ hw₂

end Outbound

/-- An entry that is given up. -/
theorem preserves_logError (event messageId : String) : (linking registry kept).Preserves (World.InOrder kept)
    ((run (.logError event messageId)).bind fun _ => (.ret true : Prog Bool)) :=
  preserves_of_leaves (Calls.bind (Calls.perform trivial) fun _ => trivial)

/-- The connection that a message is sent over is an active one of the org. -/
theorem linking_findConnection {orgId channelType : String} {w : World}
    {Q : Except PyErr (Option ChannelConnection) → World → Prop}
    (hok : ∀ found w', Linked kept w w' → (∀ connection, found = some connection →
      connection ∈ w'.db.connections.rows ∧ connection.orgId = orgId ∧
        connection.channelType = channelType ∧ connection.status = "active") → Q (.ok found) w')
    (herror : ∀ e w', Linked kept w w' → Q (.error e) w') :
    (linking registry kept).wp (findConnection orgId channelType) w Q := by
  refine wp_bind (linking_query (fun _ _ => rfl) trivial (fun x connections w₁ h₁ hconnections => ?_) herror)
  refine hok _ w₁ h₁ fun connection hhead => ?_
  obtain rfl := Except.ok.inj hconnections
  have hmem := List.mem_filter.mp ((perm_orderBy ..).mem_iff.mp (List.mem_of_head? hhead))
  simp only [Bool.and_eq_true, beq_iff_eq] at hmem
  exact ⟨hmem.1, hmem.2.1.1, hmem.2.1.2, hmem.2.2⟩

/-- One entry of the outbound queue. -/
theorem preserves_processOutboundMessage (msg : QueueMessage) :
    (linking registry kept).Preserves (World.InOrder kept) (processOutboundMessage registry msg) := by
  refine Preserves.ofExcept_bind fun messageId _ => fun w hw => ?_
  refine wp_bind (linking_query (fun _ _ => rfl) trivial (fun _ found w₁ h₁ hmessage => ?_)
    fun e w₁ h₁ => h₁.inOrder hw)
  have hw₁ : w₁.InOrder kept := h₁.inOrder hw
  cases found with
  | none => exact preserves_logError _ _ w₁ hw₁
  | some message =>
    obtain ⟨hm, _⟩ := Db.mem_of_message (Except.ok.inj hmessage)
    refine wp_bind (linking_query (fun _ _ => rfl) trivial
      (fun _ conversation w₂ h₂ hconversation => ?_) fun e w₂ h₂ => h₂.inOrder hw₁)
    have hw₂ : w₂.InOrder kept := h₂.inOrder hw₁
    -- the message goes to the identity that is found, if one is
    have hidentity : (linking registry kept).wp (customerIdentity conversation) w₂ fun r w₃ => w₃.InOrder kept ∧
        ∀ i, r = .ok (some i) →
          w₃.db.Routes message.id message.orgId message.channelType i.externalId := by
      cases conversation with
      | none => exact ⟨hw₂, fun i h => (by cases h)⟩
      | some c =>
        refine linking_query (fun _ _ => rfl) trivial (fun _ identity w₃ h₃ hfound => ?_) fun e w₃ h₃ =>
          ⟨h₃.inOrder hw₂, fun i h => (by cases h)⟩
        refine ⟨h₃.inOrder hw₂, fun i h => ?_⟩
        obtain rfl : identity = some i := Except.ok.inj h
        have hfind : w₂.db.conversation message.conversationId = some c := Except.ok.inj hconversation
        have hidentity : w₃.db.identity c.customerIdentityId = some i := Except.ok.inj hfound
        obtain ⟨c', hc', hcid, _, hcwith⟩ :=
          h₃.persists.conversations c (List.mem_of_find?_eq_some hfind)
        obtain ⟨m, hm', hmid, hmorg, hmchannel, hmin⟩ := (h₂.trans h₃).persists.messages message hm
        have hcid' : c.id = message.conversationId := by simpa using List.find?_some hfind
        have hiid : i.id = c.customerIdentityId := by simpa using List.find?_some hidentity
        have hroutes := OneOrg.routes (h₃.inOrder hw₂).oneOrg hm' hc' (List.mem_of_find?_eq_some hidentity)
          (hcid.trans (hcid'.trans hmin.symm)) (hiid.trans hcwith.symm)
        rwa [hmid, hmorg, hmchannel] at hroutes
    refine wp_bind (wp_mono (fun r w₃ h₃ => ?_) hidentity)
    cases r with
    | error e => exact h₃.1
    | ok identity =>
      refine wp_bind (linking_findConnection (fun connection w₄ h₄ hfound => ?_)
        fun e w₄ h₄ => h₄.inOrder h₃.1)
      have hw₄ : w₄.InOrder kept := h₄.inOrder h₃.1
      show (linking registry kept).wp _ w₄ _
      dsimp only
      split
      · obtain ⟨hconnection, horg, hchannel, hactive⟩ := hfound _ rfl
        exact linking_sendQueued hw₄ msg.receiveCount (h₄.persists.routes (h₃.2 _ rfl)) hconnection horg
          hchannel hactive
      · exact preserves_logError _ _ w₄ hw₄

theorem preserves_processOutboundBatch (maxMessages : ℕ) :
    (linking registry kept).Preserves (World.InOrder kept) (processOutboundBatch registry maxMessages) := by
  refine Preserves.bind (preserves_queue trivial) fun messages => ?_
  refine Preserves.forEach (fun processed msg => ?_) _ _
  refine Preserves.bind (preserves_processOutboundMessage msg) fun resolved => ?_
  cases resolved with
  | false => exact fun w hw => hw
  | true => exact Preserves.bind (preserves_queue trivial) fun _ w hw => hw

/-! ### Agents -/

theorem requireMembership_leaves (userId orgId message : String) :
    (requireMembership userId orgId message).Calls Call.Leaves := by
  refine Calls.bind (calls_leaves_run trivial) fun membership => ?_
  cases membership <;> trivial

theorem requireRole_leaves (userId orgId : String) (allowed : List Core.Role)
    (forbiddenMessage : String) :
    (requireRole userId orgId allowed forbiddenMessage).Calls Call.Leaves := by
  refine Calls.bind (requireMembership_leaves _ _ _) fun membership => ?_
  split <;> trivial

/-- A conversation that is loaded is a row of its org. -/
theorem linking_loadConversation {orgId conversationId : String} {w : World}
    {Q : Except PyErr Conversation → World → Prop}
    (hok : ∀ c w', Linked kept w w' → c ∈ w'.db.conversations.rows → c.id = conversationId →
      c.orgId = orgId → Q (.ok c) w')
    (herror : ∀ e w', Linked kept w w' → Q (.error e) w') :
    (linking registry kept).wp (loadConversation orgId conversationId) w Q := by
  refine wp_bind (linking_query (fun _ _ => rfl) trivial (fun _ found w₁ h₁ hfound => ?_) herror)
  cases found with
  | none => exact herror _ w₁ h₁
  | some c =>
    have hfind : w₁.db.conversation conversationId = some c := Except.ok.inj hfound
    show (linking registry kept).wp (if c.orgId ≠ orgId then _ else _) w₁ Q
    by_cases horg : c.orgId = orgId
    · rw [if_neg (not_not.mpr horg)]
      exact hok c w₁ h₁ (List.mem_of_find?_eq_some hfind) (by simpa using List.find?_some hfind) horg
    · rw [if_pos horg]
      exact herror _ w₁ h₁

/-- The commit of a reply to a conversation that is there. -/
theorem linking_storeReply {message : Message} {w : World} (hw : w.InOrder kept)
    (hconverses : w.db.Converses message.orgId message.channelType message.conversationId)
    (orgId : String) :
    (linking registry kept).wp ((commitReply message).bind fun
      | some existing => .ret (existing, false)
      | none => (enqueueOutbound orgId message.id).bind fun _ => .ret (message, true)) w
        fun _ w' => w'.InOrder kept := by
  have hleads : Leads (fun _ => True) ([] ++ [.insertMessage message]) w.db :=
    Leads.concat (.nil fun _ h => h.converses hconverses) (fun _ h => h) fun _ _ _ _ _ => trivial
  have hcommit : (linking registry kept).wp (commitReply message) w fun _ w' => w'.InOrder kept := by
    refine wp_handle (wp_bind (linking_commit hw hleads (fun w₁ h₁ _ => h₁.inOrder hw)
      fun exc w₁ h₁ => ?_))
    refine preserves_of_leaves ?_ w₁ (h₁.inOrder hw)
    dsimp only
    split
    case h_2 => trivial
    refine Calls.bind (Calls.perform trivial) fun _ => ?_
    split
    · trivial
    · refine Calls.bind (Calls.perform trivial) fun found => ?_
      cases found <;> trivial
  refine wp_bind (wp_mono (fun r w₁ hw₁ => ?_) hcommit)
  cases r with
  | error e => exact hw₁
  | ok found =>
    cases found with
    | some existing => exact hw₁
    | none =>
      refine Preserves.bind ?_ (fun _ w hw => ?_) w₁ hw₁
      · exact preserves_queue trivial
      · exact hw

theorem preserves_sendReply (orgId conversationId userId bodyText : String)
    (clientDedupKey subject : Option String) :
    (linking registry kept).Preserves (World.InOrder kept)
      (sendReply orgId conversationId userId bodyText clientDedupKey subject) := by
  intro w hw
  refine linking_bind (requireRole_leaves _ _ _ _) (fun _ w₁ h₁ => ?_) fun e w₁ h₁ => h₁.inOrder hw
  have hw₁ : w₁.InOrder kept := h₁.inOrder hw
  refine wp_bind (linking_loadConversation (fun c w₂ h₂ hc hid horg => ?_) fun e w₂ h₂ => h₂.inOrder hw₁)
  refine wp_bind (linking_query (fun _ _ => rfl) trivial (fun _ found w₃ h₃ hfound => ?_)
    fun e w₃ h₃ => (h₂.trans h₃).inOrder hw₁)
  have hw₃ : w₃.InOrder kept := (h₂.trans h₃).inOrder hw₁
  cases found with
  | none => exact hw₃
  | some identity =>
    -- the identity is the conversation's org's, as all are
    have hidentity : w₃.db.identity c.customerIdentityId = some identity := Except.ok.inj hfound
    have hiid : identity.id = c.customerIdentityId := by simpa using List.find?_some hidentity
    obtain ⟨c', hc', hcid, hcorg, hcwith⟩ := h₃.persists.conversations c hc
    obtain ⟨_, hconverses⟩ := OneOrg.converses hw₃.oneOrg hc' (List.mem_of_find?_eq_some hidentity)
      (hiid.trans hcwith.symm)
    rw [hcid, hid, hcorg, horg] at hconverses
    have hreplayed : (findReplayed orgId conversationId clientDedupKey).Calls Call.Leaves := by
      cases clientDedupKey with
      | none => trivial
      | some key => exact Calls.perform trivial
    refine linking_bind hreplayed (fun replayed w₄ h₄ => ?_) fun e w₄ h₄ => h₄.inOrder hw₃
    have hw₄ : w₄.InOrder kept := h₄.inOrder hw₃
    cases replayed with
    | some existing => exact hw₄
    | none =>
      refine linking_bind (calls_leaves_core (keepsNone_limitSends _ _)) (fun _ w₅ h₅ => ?_) fun e w₅ h₅ =>
        h₅.inOrder hw₄
      refine linking_bind (calls_leaves_run trivial) (fun placeholder w₆ h₆ => ?_) fun e w₆ h₆ =>
        (h₅.trans h₆).inOrder hw₄
      refine linking_bind (calls_leaves_run trivial) (fun id w₇ h₇ => ?_) fun e w₇ h₇ =>
        (h₅.trans (h₆.trans h₇)).inOrder hw₄
      have hlinked := h₄.trans (h₅.trans (h₆.trans h₇))
      exact linking_storeReply (hlinked.inOrder hw₃) (hlinked.persists.converses hconverses) orgId

/-- A conversation that is loaded is assigned. -/
theorem linking_assignLoaded {w : World} (hw : w.InOrder kept) {c : Conversation}
    (hc : c ∈ w.db.conversations.rows) (assignedUserId assignedBy reason : String) :
    (linking registry kept).wp (recordAssignment c assignedUserId assignedBy reason) w fun _ w' => w'.InOrder kept := by
  obtain ⟨channelType, hidentity⟩ := OneOrg.conversations hw.oneOrg c hc
  exact linking_recordAssignment hw ⟨c, hc, rfl, rfl, hidentity⟩

theorem preserves_claim (orgId conversationId userId : String) :
    (linking registry kept).Preserves (World.InOrder kept) (claim orgId conversationId userId) := by
  refine Preserves.bind (preserves_of_leaves (requireRole_leaves _ _ _ _)) fun _ w hw => ?_
  refine wp_bind (linking_loadConversation (fun c w₁ h₁ hc _ _ => ?_) fun e w₁ h₁ => h₁.inOrder hw)
  have hw₁ : w₁.InOrder kept := h₁.inOrder hw
  show (linking registry kept).wp _ w₁ _
  dsimp only
  split
  · exact hw₁
  · split
    · exact hw₁
    · exact linking_assignLoaded hw₁ hc _ _ _

theorem preserves_reassign (orgId conversationId actorUserId assigneeUserId : String) :
    (linking registry kept).Preserves (World.InOrder kept) (reassign orgId conversationId actorUserId assigneeUserId) := by
  refine Preserves.bind (preserves_of_leaves (requireRole_leaves _ _ _ _)) fun _ => ?_
  refine Preserves.bind (preserves_of_leaves (requireMembership_leaves _ _ _)) fun _ w hw => ?_
  refine wp_bind (linking_loadConversation (fun c w₁ h₁ hc _ _ => ?_) fun e w₁ h₁ => h₁.inOrder hw)
  exact linking_assignLoaded (h₁.inOrder hw) hc _ _ _

theorem preserves_markRead (orgId conversationId userId : String) :
    (linking registry kept).Preserves (World.InOrder kept) (markRead orgId conversationId userId) := by
  refine Preserves.bind (preserves_of_leaves (requireMembership_leaves _ _ _)) fun _ w hw => ?_
  refine wp_bind (linking_loadConversation (fun c w₁ h₁ _ _ _ => ?_) fun e w₁ h₁ => h₁.inOrder hw)
  have hcommit : (linking registry kept).Preserves (World.InOrder kept)
      (run (.commit [.updateConversation c { c with unreadCount := 0 }])) :=
    preserves_update fun write hwrite db => by
      obtain rfl := List.mem_singleton.mp hwrite
      trivial
  refine wp_bind (wp_mono (fun r w₂ hw₂ => ?_) (hcommit w₁ (h₁.inOrder hw)))
  cases r <;> exact hw₂

/-! ### The service -/

/-- What is done about conversations: what the service is asked, and what agents and admins do with
the conversations of their org. -/
inductive Activity where
  | request (r : Request)
  | operation (op : Operation)
  | markRead (orgId conversationId userId : String)

/-- What is done at an activity. -/
def Activity.program (registry : Registry) : Activity → Prog Unit
  | .request r => r.program registry
  | .operation op => op.program registry
  | .markRead orgId conversationId userId => do
    let _ ← Omnichannel.markRead orgId conversationId userId
    return ()

/-- Activities, none of which has begun. -/
def activities (registry : Registry) (as : List Activity) (w : World) :
    Pool Call Call.Resp PyErr Unit World where
  procs := as.map (Activity.program registry)
  world := w

theorem preserves_request (r : Request) : (linking registry kept).Preserves (World.InOrder kept) (r.program registry) := by
  have hiteration : ∀ batch : Prog ℕ, (linking registry kept).Preserves (World.InOrder kept) batch → ∀ label,
      (linking registry kept).Preserves (World.InOrder kept) (runIteration batch label) := fun batch hbatch label =>
    hbatch.handle fun _ => preserves_of_leaves (Calls.bind (Calls.perform trivial) fun _ => trivial)
  cases r with
  | reply => exact Preserves.bind (preserves_sendReply _ _ _ _ _ _) fun _ w hw => hw
  | webhook => exact Preserves.bind (preserves_queue trivial) fun _ w hw => hw
  | inbound maxMessages =>
    exact Preserves.bind (preserves_processInboundBatch maxMessages) fun _ w hw => hw
  | outbound maxMessages =>
    exact Preserves.bind (preserves_processOutboundBatch maxMessages) fun _ w hw => hw
  | worker rounds =>
    refine Preserves.forEach (fun _ _ => ?_) _ _
    refine Preserves.bind (hiteration _ (preserves_processInboundBatch 10) "inbound") fun _ => ?_
    exact Preserves.bind (hiteration _ (preserves_processOutboundBatch 10) "outbound") fun _ w hw => hw

theorem preserves_activity (a : Activity) : (linking registry kept).Preserves (World.InOrder kept) (a.program registry) := by
  cases a with
  | request r => exact preserves_request r
  | operation op =>
    cases op with
    | claim => exact Preserves.bind (preserves_claim _ _ _) fun _ w hw => hw
    | reassign => exact Preserves.bind (preserves_reassign _ _ _ _) fun _ w hw => hw
    | inbound msg => exact preserves_processInboundMessage msg
  | markRead => exact Preserves.bind (preserves_markRead _ _ _) fun _ w hw => hw

/-- Each call of a run leaves the references in order, and sends to whom the message is for. -/
theorem along_activities (registry : Registry) (as : List Activity) {w : World}
    (hstart : w.InOrder kept) (schedule : List (ℕ × Choice)) : Pool.Along Call.answer
      (fun c x w => (linking registry kept).guar c x w (c.answer x w).2) (activities registry as w)
        schedule := by
  have hprocs : ∀ p ∈ (activities registry as w).procs,
      (linking registry kept).wp p w fun _ _ => True := by
    intro p hp
    obtain ⟨a, _, rfl⟩ := List.mem_map.mp hp
    exact wp_mono (fun _ _ _ => trivial) (preserves_activity a w hstart)
  exact (Pool.run_wp (K := linking registry kept) (fun _ _ _ _ h => h.1) (fun _ _ _ _ _ => trivial) hprocs
    ((Pool.along_true schedule _).mono fun _ _ _ _ => trivial)).1

end Setting

/-- **The rows of a conversation are of one org**, in every state that activities in any interleaving
reach, wherever calls fail and however often entries are delivered. -/
theorem oneOrg_run (registry : Registry) (as : List Activity) {w : World} (hstart : OneOrg w.db)
    (schedule : List (ℕ × Choice)) :
    OneOrg ((activities registry as w).run Call.answer schedule).world.db := by
  have horder : w.InOrder False := ⟨hstart, False.elim, False.elim⟩
  exact Pool.run_invariant (J := fun w => OneOrg w.db)
    ((along_activities registry as horder schedule).mono fun _ _ _ h => h.1.oneOrg) hstart

/-- **A message is sent to its own org's customer**: whenever a provider is called in a run, what is
sent is a message of an org, the recipient is the customer of the message's conversation there, and it
goes out over an active connection of the org on the message's channel, with the secret that is stored
for that connection merged over the id of the org. -/
theorem reaches_run (registry : Registry) (as : List Activity) {w : World} (hstart : OneOrg w.db)
    (hcoherent : w.Coherent) (horgs : ∀ c ∈ w.db.connections.rows, ':' ∉ c.orgId.toList)
    (schedule : List (ℕ × Choice)) : Pool.Along Call.answer (fun c _ w => c.Reaches registry w)
      (activities registry as w) schedule := by
  have horder : w.InOrder True := ⟨hstart, fun _ => hcoherent, fun _ => horgs⟩
  exact (along_activities registry as horder schedule).mono fun _ _ _ h => h.2 trivial

/-! ### A customer, an agent and the worker -/

theorem oneOrg_inboxDb : OneOrg inboxDb where
  conversations c hc := by
    obtain rfl := List.mem_singleton.mp hc
    exact ⟨"whatsapp", _, List.mem_singleton_self _, rfl, rfl, rfl⟩
  messages m hm := absurd hm List.not_mem_nil
  attachments a ha := absurd ha List.not_mem_nil
  assignments a ha := absurd ha List.not_mem_nil

/-- A message that comes in, an agent who claims its conversation, and the reply. -/
def conversationActivities : List Activity :=
  [.request (.webhook "whatsapp" "org" "connection" (whatsappText "4915" "wamid.1" "Hi")),
    .operation (.claim "org" "conversation" "ada"),
    .request (.reply "org" "conversation" "ada" "Hello" (some "key") none), .request (.worker 2)]

theorem oneOrg_run_inbox : OneOrg ((activities whatsappRegistry conversationActivities inboxWorld).run
    Call.answer (calmly [0, 1, 2, 3, 0, 2, 3, 1, 3])).world.db :=
  oneOrg_run whatsappRegistry conversationActivities oneOrg_inboxDb _

/-- The reply, and then the worker. -/
def replyThenWork : List (ℕ × Choice) := calmly (List.replicate 20 2 ++ List.replicate 40 3)

theorem reaches_run_inbox : Pool.Along Call.answer (fun c _ w => c.Reaches whatsappRegistry w)
      (activities whatsappRegistry conversationActivities inboxWorld) replyThenWork ∧
    ((activities whatsappRegistry conversationActivities inboxWorld).run Call.answer
      replyThenWork).world.sends.map (·.recipient) = ["4915"] := by
  refine ⟨reaches_run whatsappRegistry conversationActivities oneOrg_inboxDb
    (fun s _ expiresAt value h => (by cases h)) (fun c hc => ?_) _, by decide +kernel⟩
  obtain rfl := List.mem_singleton.mp hc
  decide

end A2ZCore.Omnichannel
