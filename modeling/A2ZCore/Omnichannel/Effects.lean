import A2ZCore.Omnichannel.Handlers
import A2ZCore.Omnichannel.WhatsApp

/-!
# What the calls and the writes do

One lemma for each way the message flow touches its state: what a call can change, what a commit of
each kind does to the messages, and what a loaded row is.

## Main results

* `Call.writes_of_answer` — a call changes nothing but the one thing it is about
* `message_update`, `message_insert` — the messages after a commit
* `calls_core` — the calls of a program of Core
-/

namespace A2ZCore.Omnichannel

open Interaction Interaction.Proc Messaging Relational

/-! ### Calls -/

/-- What a call that changes the state changes. -/
inductive Call.Writes (w : World) : Call → World → Prop where
  | core (c : Core.Call) (x : Core.Choice) :
    Writes w (.core c) { w with core := (c.answer x w.core).2 }
  | commit (writes : List Write) (now : DateTime) (db : Db) (h : w.db.apply now writes = .ok db) :
    Writes w (.commit writes) { w with db := db }
  | queueUrl (name : QueueName) :
    Writes w (.queueUrl name) { w with queueUrls := name :: w.queueUrls }
  | sendMessage (name : QueueName) (entry : QueueEntry) :
    Writes w (.sendMessage name entry)
      { w with queues := Function.update w.queues name ((w.queues name).send entry) }
  | receiveMessage (name : QueueName) (maxMessages : ℕ) (picks : List ℕ) :
    Writes w (.receiveMessage name maxMessages) { w with
      queues := Function.update w.queues name ((w.queues name).receive sqsMaxReceiveCount picks).2 }
  | deleteMessage (name : QueueName) (receiptHandle : ℕ) :
    Writes w (.deleteMessage name receiptHandle)
      { w with queues := Function.update w.queues name ((w.queues name).delete receiptHandle) }
  | sendOutbound (messageId channelType recipient : String) (content : OutboundContent)
      (credentials : List (String × Json)) :
    Writes w (.sendOutbound messageId channelType recipient content credentials)
      { w with sends := w.sends ++ [⟨messageId, channelType, recipient, content⟩] }

/-- A call leaves the state as it was, or changes the one thing it is about. -/
theorem Call.writes_of_answer (c : Call) (x : Choice) (w : World) :
    (c.answer x w).2 = w ∨ c.Writes w (c.answer x w).2 := by
  have hsettle : ∀ {α : Type} (a : α) (w' : World), c.Writes w w' →
      (x.fate.settle (.ok (a, w')) w).2 = w ∨ c.Writes w (x.fate.settle (.ok (a, w')) w).2 := by
    intro α a w' h
    cases x.fate with
    | lost e => exact .inl rfl
    | ok | late e => exact .inr h
  cases c with
  | core c => exact .inr (.core c x.toChoice)
  | commit writes =>
    rcases x.fate.transact_cases (w.db.apply x.now writes) (fun db => { w with db := db }) w with
      ⟨_, db, hdb, hw⟩ | ⟨_, hw, _⟩
    · exact .inr (hw ▸ .commit writes x.now db hdb)
    · exact .inl hw
  | queueUrl name =>
    simp only [answer]
    split
    · exact .inl rfl
    · cases x.fate with
      | ok => exact .inr (.queueUrl name)
      | lost e | late e => exact .inl rfl
  | sendMessage name entry => exact hsettle _ _ (.sendMessage name entry)
  | receiveMessage name maxMessages => exact hsettle _ _ (.receiveMessage name maxMessages _)
  | deleteMessage name receiptHandle => exact hsettle _ _ (.deleteMessage name receiptHandle)
  | sendOutbound messageId channelType recipient content credentials =>
    exact hsettle _ _ (.sendOutbound messageId channelType recipient content credentials)
  | logError | logException => exact .inl rfl
  | _ => exact .inl (Core.Fate.snd_query _ _ _)

/-- A commit carries out its writes when it lands, and nothing when it does not. -/
theorem commit_cases (writes : List Write) (x : Choice) (w : World) :
    (x.fate.Lands (w.db.apply x.now writes) ∧ ∃ db, w.db.apply x.now writes = .ok db ∧
        ((Call.commit writes).answer x w).2 = { w with db := db }) ∨
      (¬x.fate.Lands (w.db.apply x.now writes) ∧ ((Call.commit writes).answer x w).2 = w ∧
        ∃ e, ((Call.commit writes).answer x w).1 = .error e) :=
  x.fate.transact_cases _ _ _

/-- A commit does not touch the queues. -/
theorem queues_commit (writes : List Write) (x : Choice) (w : World) :
    ((Call.commit writes).answer x w).2.queues = w.queues := by
  rcases commit_cases writes x w with ⟨_, db, _, hw⟩ | ⟨_, hw, _⟩ <;> rw [hw]

/-- A send has no effect and fails, or adds the entry, reported or not. -/
theorem sendMessage_cases (name : QueueName) (entry : QueueEntry) (x : Choice) (w : World) :
    (∃ e, x.fate = .lost e ∧ (Call.sendMessage name entry).answer x w = (.error e, w)) ∨
      (∀ e, x.fate ≠ .lost e) ∧ ((Call.sendMessage name entry).answer x w).2 =
        { w with queues := Function.update w.queues name ((w.queues name).send entry) } := by
  rw [Call.answer]
  cases x.fate with
  | lost e => exact .inl ⟨e, rfl, rfl⟩
  | ok | late e => exact .inr ⟨by simp, rfl⟩

/-- A receive has no effect and fails, or hands out entries, reported or not. -/
theorem receiveMessage_cases (name : QueueName) (maxMessages : ℕ) (x : Choice) (w : World) :
    (∃ e, (Call.receiveMessage name maxMessages).answer x w = (.error e, w)) ∨
      ∃ picks, ((Call.receiveMessage name maxMessages).answer x w).2 = { w with
          queues := Function.update w.queues name
            ((w.queues name).receive sqsMaxReceiveCount picks).2 } ∧
        ∀ messages, ((Call.receiveMessage name maxMessages).answer x w).1 = .ok messages →
          messages = ((w.queues name).receive sqsMaxReceiveCount picks).1.map .ofDelivery := by
  rw [Call.answer]
  cases x.fate with
  | lost e => exact .inl ⟨e, rfl⟩
  | ok => exact .inr ⟨_, rfl, fun messages h => (Except.ok.inj h).symm⟩
  | late e => exact .inr ⟨_, rfl, fun messages h => nomatch h⟩

/-- A delete has no effect and fails, or deletes the entry, reported or not. -/
theorem deleteMessage_cases (name : QueueName) (receiptHandle : ℕ) (x : Choice) (w : World) :
    (∃ e, (Call.deleteMessage name receiptHandle).answer x w = (.error e, w)) ∨
      ((Call.deleteMessage name receiptHandle).answer x w).2 = { w with
        queues := Function.update w.queues name ((w.queues name).delete receiptHandle) } := by
  rw [Call.answer]
  cases x.fate with
  | lost e => exact .inl ⟨e, rfl⟩
  | ok | late e => exact .inr rfl

/-- A send that the provider accepts is reported, and one that raises was lost or not reported. -/
theorem sendOutbound_cases (messageId channelType recipient : String) (content : OutboundContent)
    (credentials : List (String × Json)) (x : Choice) (w : World) :
    (∀ id, ((Call.sendOutbound messageId channelType recipient content credentials).answer x w).1 =
        .ok id → x.fate = .ok) ∧
      ∀ e, ((Call.sendOutbound messageId channelType recipient content credentials).answer x w).1 =
        .error e → x.fate = .lost e ∨ x.fate = .late e := by
  rw [Call.answer]
  cases x.fate with
  | ok => exact ⟨fun _ _ => rfl, nofun⟩
  | lost e => exact ⟨nofun, fun e' h => .inl (congrArg _ (Except.error.inj h))⟩
  | late e => exact ⟨nofun, fun e' h => .inr (congrArg _ (Except.error.inj h))⟩

/-- A program of Core makes Core's calls. -/
theorem calls_core {α : Type} {P : Call → Prop} (p : Core.Prog α) (hP : ∀ c, P (.core c)) :
    (core p).Calls P :=
  (p.calls_true.mono fun c _ => hP c).embed

theorem markFailed_of_le {message : Message} {receiveCount : ℕ}
    (h : sqsMaxReceiveCount ≤ receiveCount) : markFailed message receiveCount =
      run (.commit [.updateMessage message { message with status := "failed" }]) :=
  if_pos h

theorem markFailed_of_lt {message : Message} {receiveCount : ℕ}
    (h : receiveCount < sqsMaxReceiveCount) : markFailed message receiveCount = .ret () :=
  if_neg (Nat.not_le_of_lt h)

/-- The message that an entry's body names. -/
def Names (body : List (String × Json)) (id : String) : Prop :=
  (getItem body "message_id" >>= primaryKey) = .ok id

instance (body : List (String × Json)) (id : String) : Decidable (Names body id) :=
  match h : getItem body "message_id" >>= primaryKey with
  | .error _ => .isFalse fun hid => nomatch h.symm.trans hid
  | .ok id' => decidable_of_iff (id' = id)
    ⟨fun hid => hid ▸ h, fun hid => Except.ok.inj (h.symm.trans hid)⟩

/-! ### Rows -/

/-- The row with an id. -/
theorem Db.mem_of_message {db : Db} {id : String} {m : Message} (h : db.message id = some m) :
    m ∈ db.messages.rows ∧ m.id = id :=
  ⟨List.mem_of_find?_eq_some h, by simpa using List.find?_some h⟩

/-- Selecting by the id of a row finds the row. -/
theorem Db.message_of_mem {db : Db} {m : Message} (hm : m ∈ db.messages.rows) :
    db.message m.id = some m :=
  db.messages.find?_eq_some_of_clash hm (by simp) fun n hn => by
    simp only [beq_iff_eq] at hn
    simp [messageSchema, hn]

/-- Selecting a conversation by the id of a row finds the row. -/
theorem Db.conversation_of_mem {db : Db} {c : Conversation} (hc : c ∈ db.conversations.rows) :
    db.conversation c.id = some c :=
  db.conversations.find?_eq_some_of_clash hc (by simp) fun d hd => hd

theorem Db.apply_cons {now : DateTime} {write : Write} {writes : List Write} {db db' : Db} :
    db.apply now (write :: writes) = .ok db' ↔
      ∃ db₁, write.apply now db = .ok db₁ ∧ db₁.apply now writes = .ok db' := by
  rw [Db.apply, List.foldlM_cons]
  cases write.apply now db with
  | error v => exact ⟨fun h => (nomatch h), fun ⟨_, h, _⟩ => (nomatch h)⟩
  | ok db₁ => exact ⟨fun h => ⟨db₁, rfl, h⟩, fun ⟨_, h₁, h⟩ => by cases h₁; exact h⟩

theorem Db.apply_singleton {now : DateTime} {write : Write} {db : Db} :
    db.apply now [write] = write.apply now db := by
  simp only [apply, List.foldlM_cons, List.foldlM_nil, bind_pure]

/-- No write of the message flow is about connections. -/
theorem connections_apply {now : DateTime} {writes : List Write} {db db' : Db}
    (h : db.apply now writes = .ok db') : db'.connections = db.connections := by
  induction writes generalizing db with
  | nil =>
    cases h
    rfl
  | cons write writes ih =>
    obtain ⟨db₁, h₁, h₂⟩ := Db.apply_cons.mp h
    rw [ih h₂]
    cases write <;> obtain ⟨t, _, rfl⟩ := map_eq_ok h₁ <;> rfl

/-- The messages after an update of one. -/
theorem message_update {now : DateTime} {loaded current : Message} {db db' : Db}
    (h : db.apply now [.updateMessage loaded current] = .ok db') (id : String) :
    db'.message id = (db.message id).map fun row =>
      if id = current.id then .patch loaded current row else row := by
  rw [Db.apply_singleton, Write.apply] at h
  cases ht : db.messages.modify fun row =>
      if row.id = current.id then .patch loaded current row else row with
  | error v => rw [ht] at h; cases h
  | ok t =>
    rw [ht] at h
    cases h
    rw [Db.message, Db.message, Table.rows_modify ht, List.find?_map]
    have hid : ∀ row : Message, (if row.id = current.id then Message.patch loaded current row
        else row).id = row.id := fun row => by split <;> rfl
    have hsame : ((fun m : Message => m.id == id) ∘ fun row : Message =>
        if row.id = current.id then .patch loaded current row else row) =
          fun m : Message => m.id == id := funext fun row => by rw [Function.comp_apply, hid]
    rw [hsame]
    cases hrow : db.messages.rows.find? fun m => m.id == id with
    | none => rfl
    | some row =>
      have hrowid : row.id = id := by simpa using List.find?_some hrow
      rw [Option.map_some, Option.map_some, hrowid]

/-- A row that is inserted is new, and leaves the others. -/
theorem message_insert {now : DateTime} {message : Message} {db db' : Db}
    (h : db.apply now [.insertMessage message] = .ok db') :
    db'.messages.rows = db.messages.rows ++ [{ message with createdAt := now }] := by
  rw [Db.apply_singleton, Write.apply] at h
  cases ht : db.messages.insert { message with createdAt := now } with
  | error v => rw [ht] at h; cases h
  | ok t =>
    rw [ht] at h
    cases h
    exact Table.rows_insert ht

/-- The identities after a write. -/
def Write.onIdentities (now : DateTime) : Write → List ChannelIdentity → List ChannelIdentity
  | .insertIdentity identity, rows => rows ++ [{ identity with createdAt := now }]
  | _, rows => rows

/-- The conversations after a write. -/
def Write.onConversations (now : DateTime) : Write → List Conversation → List Conversation
  | .insertConversation conversation, rows => rows ++ [{ conversation with createdAt := now }]
  | .updateConversation loaded current, rows =>
    rows.map fun row => if row.id = current.id then .patch loaded current row else row
  | _, rows => rows

/-- The messages after a write. -/
def Write.onMessages (now : DateTime) : Write → List Message → List Message
  | .insertMessage message, rows => rows ++ [{ message with createdAt := now }]
  | .updateMessage loaded current, rows =>
    rows.map fun row => if row.id = current.id then .patch loaded current row else row
  | _, rows => rows

theorem Write.rows_apply {now : DateTime} {write : Write} {db db' : Db}
    (h : write.apply now db = .ok db') :
    db'.identities.rows = write.onIdentities now db.identities.rows ∧
      db'.conversations.rows = write.onConversations now db.conversations.rows ∧
      db'.messages.rows = write.onMessages now db.messages.rows := by
  cases write with
  | insertIdentity =>
    obtain ⟨t, ht, rfl⟩ := map_eq_ok h
    exact ⟨Table.rows_insert ht, rfl, rfl⟩
  | insertConversation =>
    obtain ⟨t, ht, rfl⟩ := map_eq_ok h
    exact ⟨rfl, Table.rows_insert ht, rfl⟩
  | insertMessage =>
    obtain ⟨t, ht, rfl⟩ := map_eq_ok h
    exact ⟨rfl, rfl, Table.rows_insert ht⟩
  | insertAttachment | insertAssignment =>
    obtain ⟨t, _, rfl⟩ := map_eq_ok h
    exact ⟨rfl, rfl, rfl⟩
  | updateMessage =>
    obtain ⟨t, ht, rfl⟩ := map_eq_ok h
    exact ⟨rfl, rfl, Table.rows_modify ht⟩
  | updateConversation =>
    obtain ⟨t, ht, rfl⟩ := map_eq_ok h
    exact ⟨rfl, Table.rows_modify ht, rfl⟩

/-- The rows after a transaction. -/
theorem Db.rows_apply {now : DateTime} {writes : List Write} {db db' : Db}
    (h : db.apply now writes = .ok db') :
    db'.identities.rows = writes.foldl (fun rows write => write.onIdentities now rows)
        db.identities.rows ∧
      db'.conversations.rows = writes.foldl (fun rows write => write.onConversations now rows)
        db.conversations.rows ∧
      db'.messages.rows = writes.foldl (fun rows write => write.onMessages now rows)
        db.messages.rows := by
  induction writes generalizing db with
  | nil => cases h; exact ⟨rfl, rfl, rfl⟩
  | cons write writes ih =>
    obtain ⟨db₁, h₁, h₂⟩ := Db.apply_cons.mp h
    obtain ⟨hidentities, hconversations, hmessages⟩ := ih h₂
    obtain ⟨hidentities₁, hconversations₁, hmessages₁⟩ := Write.rows_apply h₁
    rw [hidentities₁] at hidentities
    rw [hconversations₁] at hconversations
    rw [hmessages₁] at hmessages
    exact ⟨hidentities, hconversations, hmessages⟩

/-! ### A deployment in working order -/

/-- A call that goes through. -/
def Choice.calm (token : String) : Choice where
  toChoice := .calm token
  tie _ := 0
  picks := [0]
  externalId := "wamid." ++ token

/-- A schedule of calls that all go through, by whose turn it is. -/
def calmly (turns : List ℕ) : List (ℕ × Choice) :=
  turns.zipIdx.map fun t => (t.1, .calm ("t" ++ toString t.2))

/-- A schedule whose call `n` fails without effect. -/
def failAt (n : ℕ) (e : PyErr) (schedule : List (ℕ × Choice)) : List (ℕ × Choice) :=
  schedule.modify n fun m => (m.1, { m.2 with fate := .lost e })

/-- The calls of a run that all go through. -/
def calm : Oracle Choice := fun n => some (.calm ("c" ++ toString n))

/-- The calls of a run that all go through, but for call `n`, which fails without effect. -/
def calmBut (n : ℕ) (e : PyErr) : Oracle Choice := fun i =>
  if i = n then some { Choice.calm ("c" ++ toString i) with fate := .lost e } else calm i

/-- An org with a WhatsApp connection and one conversation on it. -/
def inboxDb : Db :=
  { Db.empty with
    connections := ⟨[⟨"connection", "org", "whatsapp", "WhatsApp", "1555", "whatsapp", "active",
      ⟨⟨2026, 1, 1⟩, 0, 0, 0, 0⟩⟩], by simp [connectionSchema], by simp⟩
    identities := ⟨[⟨"identity", "org", "whatsapp", "4915", some "Kim", none,
      ⟨⟨2026, 1, 1⟩, 0, 0, 0, 0⟩⟩], by simp [identitySchema], by simp⟩
    conversations := ⟨[⟨"conversation", "org", "identity", "open", none, none, none, 0,
      ⟨⟨2026, 1, 1⟩, 0, 0, 0, 0⟩⟩], by decide, by simp⟩ }

/-- The deployment of that org: its secret is stored, and the queues are empty. -/
def inboxWorld : World where
  core := { Core.World.initial with
    secrets := fun name => if name = "a2z/org/omnichannel/whatsapp" then
      some (.obj [("access_token", .str "token"), ("phone_number_id", .str "1555")]) else none }
  db := inboxDb
  queues _ := []
  queueUrls := []
  sends := []

/-- A text message from a number, as WhatsApp's webhook delivers it. -/
def whatsappText (number id text : String) : Json :=
  .obj [("entry", .arr [.obj [("changes", .arr [.obj [("value", .obj [
    ("messages", .arr [.obj [("from", .str number), ("id", .str id), ("type", .str "text"),
      ("text", .obj [("body", .str text)])]])])]])]])]

/-- A reply in the conversation, where every call goes through. -/
def reply : Option (Except PyErr (Message × Bool)) × World :=
  exec Call.answer (sendReply "org" "conversation" "ada" "Hello" (some "key") none)
    (fun n => some (.calm ("r" ++ toString n))) inboxWorld

/-- The deployment after the reply. -/
def repliedWorld : World := reply.2

/-- The row that the reply creates. -/
def queuedReply : Message :=
  outboundMessage "r6" "r5" "org" "conversation" "whatsapp" "ada" "Hello" (some "key") none

theorem reply_eq : reply = (some (.ok (queuedReply, true)), repliedWorld) :=
  Prod.ext (by decide +kernel) rfl

end A2ZCore.Omnichannel
