import A2ZCore.Omnichannel.Inbound

/-!
# The history of assignments

A conversation is assigned in three ways, by a claim, by a reassignment, and by the worker where the
org has a designated user, and all of them write through `recordAssignment`: the new assignee and a row
of `conversation_assignments` in one transaction. So the conversation's assignee can always be read off
the history, which only grows.

## Main definitions

* `Db.historyOf` — the history of a conversation
* `Replayable` — each conversation is assigned as its history says
* `Operation`, `afterOperations` — claims, reassignments and inbound entries, one after the other

## Main results

* `replayable_runs` — every state that a sequence of operations reaches is replayable
-/

namespace A2ZCore.Omnichannel

open Interaction Interaction.Proc Interaction.Contract Messaging Relational

/-! ### The history -/

/-- The assignments of a conversation, oldest first. -/
def Db.historyOf (db : Db) (conversationId : String) : List ConversationAssignment :=
  db.assignments.rows.filter fun a => a.conversationId = conversationId

/-- Each conversation is assigned as the last row of its history says, and each row of the history is
one of a conversation, with its org. -/
structure Replayable (db : Db) : Prop where
  assigned : ∀ c ∈ db.conversations.rows,
    c.assignedUserId = (db.historyOf c.id).getLast?.map (·.assignedUserId)
  org : ∀ a ∈ db.assignments.rows,
    ∃ c ∈ db.conversations.rows, c.id = a.conversationId ∧ c.orgId = a.orgId

/-- What a commit does to the history. -/
structure Extends (db db' : Db) : Prop where
  replayable : Replayable db → Replayable db'
  history : db.assignments.rows <+: db'.assignments.rows

theorem Extends.refl (db : Db) : Extends db db := ⟨id, List.prefix_rfl⟩

theorem Extends.trans {db db₁ db₂ : Db} (h : Extends db db₁) (h' : Extends db₁ db₂) :
    Extends db db₂ :=
  ⟨fun hdb => h'.replayable (h.replayable hdb), h.history.trans h'.history⟩

/-- The history after a write. -/
def Write.onAssignments (now : DateTime) : Write → List ConversationAssignment →
    List ConversationAssignment
  | .insertAssignment assignment, rows => rows ++ [{ assignment with createdAt := now }]
  | _, rows => rows

theorem Write.assignments_apply {now : DateTime} {write : Write} {db db' : Db}
    (h : write.apply now db = .ok db') :
    db'.assignments.rows = write.onAssignments now db.assignments.rows := by
  cases write with
  | insertAssignment =>
    obtain ⟨t, ht, rfl⟩ := map_eq_ok h
    exact Table.rows_insert ht
  | _ =>
    obtain ⟨t, _, rfl⟩ := map_eq_ok h
    rfl

/-- The history after a transaction. -/
theorem Db.assignments_apply {now : DateTime} {writes : List Write} {db db' : Db}
    (h : db.apply now writes = .ok db') : db'.assignments.rows =
      writes.foldl (fun rows write => write.onAssignments now rows) db.assignments.rows := by
  induction writes generalizing db with
  | nil => cases h; rfl
  | cons write writes ih =>
    obtain ⟨db₁, h₁, h₂⟩ := Db.apply_cons.mp h
    rw [ih h₂, Write.assignments_apply h₁]
    rfl

/-! ### What the commits keep -/

section Commits

variable {orgId channelType : String} {db db' : Db} {now : DateTime}

/-- A conversation that is not in the database has no history. -/
theorem Replayable.historyOf_eq_nil (h : Replayable db) {id : String}
    (hnew : ∀ c ∈ db.conversations.rows, c.id ≠ id) : db.historyOf id = [] := by
  refine List.filter_eq_nil_iff.mpr fun a ha hid => ?_
  obtain ⟨c, hc, hcid, _⟩ := h.org a ha
  exact hnew c hc (hcid.trans (by simpa using hid))

/-- The history is the same, and so is the assignment of each conversation, or it is new. -/
theorem extends_of_same (hassignments : db'.assignments.rows = db.assignments.rows)
    (hkept : ∀ c ∈ db'.conversations.rows,
      c.assignedUserId = none ∧ (∀ c₀ ∈ db.conversations.rows, c₀.id ≠ c.id) ∨
        ∃ c₀ ∈ db.conversations.rows, c₀.id = c.id ∧ c₀.assignedUserId = c.assignedUserId)
    (hall : ∀ c₀ ∈ db.conversations.rows, ∃ c ∈ db'.conversations.rows,
      c.id = c₀.id ∧ c.orgId = c₀.orgId) : Extends db db' := by
  have hhistory : ∀ id, db'.historyOf id = db.historyOf id := fun id => by
    rw [Db.historyOf, hassignments, Db.historyOf]
  refine ⟨fun h => ⟨fun c hc => ?_, fun a ha => ?_⟩, ?_⟩
  · rw [hhistory]
    rcases hkept c hc with ⟨hnone, hnew⟩ | ⟨c₀, hc₀, hid, hassigned⟩
    · rw [hnone, h.historyOf_eq_nil hnew]
      rfl
    · rw [← hassigned, ← hid]
      exact h.assigned c₀ hc₀
  · rw [hassignments] at ha
    obtain ⟨c₀, hc₀, hid, horg⟩ := h.org a ha
    obtain ⟨c, hc, hid', horg'⟩ := hall c₀ hc₀
    exact ⟨c, hc, hid'.trans hid, horg'.trans horg⟩
  · exact hassignments ▸ List.prefix_rfl

/-- An assignment, of a conversation that is held. -/
theorem extends_assign {conversation row : Conversation} {id userId assignedBy reason : String}
    (hmem : row ∈ db.conversations.rows) (hholds : conversation.Holds row)
    (h : db.apply now
      [.updateConversation conversation { conversation with assignedUserId := some userId },
        .insertAssignment (newAssignment id conversation userId assignedBy reason)] = .ok db') :
    Extends db db' := by
  have hrows := assign_conversations h
  have hassignments : db'.assignments.rows = db.assignments.rows ++
      [{ newAssignment id conversation userId assignedBy reason with createdAt := now }] :=
    Db.assignments_apply h
  obtain ⟨t, rfl⟩ := hholds
  refine ⟨fun hdb => ⟨fun c hc => ?_, fun a ha => ?_⟩, ?_⟩
  · rw [hrows] at hc
    obtain ⟨c₀, hc₀, rfl⟩ := List.mem_map.mp hc
    by_cases hid : c₀.id = conversation.id
    · obtain rfl := db.conversations.eq_of_clash hc₀ hmem (by simp [conversationSchema, hid])
      rw [if_pos rfl, Db.historyOf, hassignments]
      simp [Conversation.patch, newAssignment, List.filter_append]
    · have hne : conversation.id ≠ c₀.id := Ne.symm hid
      have hsame : db'.historyOf c₀.id = db.historyOf c₀.id := by
        simp [Db.historyOf, hassignments, List.filter_append, newAssignment, hne]
      rw [if_neg hid, hsame]
      exact hdb.assigned c₀ hc₀
  · have hkept : ∀ c ∈ db.conversations.rows, ∃ c' ∈ db'.conversations.rows,
        c'.id = c.id ∧ c'.orgId = c.orgId := by
      intro c hc
      rw [hrows]
      refine ⟨_, List.mem_map_of_mem hc, ?_⟩
      split <;> exact ⟨rfl, rfl⟩
    rw [hassignments] at ha
    rcases List.mem_append.mp ha with hold | hnew
    · obtain ⟨c, hc, hid, horg⟩ := hdb.org a hold
      obtain ⟨c', hc', hid', horg'⟩ := hkept c hc
      exact ⟨c', hc', hid'.trans hid, horg'.trans horg⟩
    · obtain rfl := List.mem_singleton.mp hnew
      obtain ⟨c', hc', hid', horg'⟩ := hkept _ hmem
      exact ⟨c', hc', hid', horg'⟩
  · rw [hassignments]
    exact List.prefix_append _ _

theorem assignments_of_attachments {attachments : List Write} {fresh : String → Prop}
    (h : ∀ write ∈ attachments, ∃ a, write = .insertAttachment a ∧ fresh a.id)
    (rows : List ConversationAssignment) :
    attachments.foldl (fun rows write => write.onAssignments now rows) rows = rows := by
  induction attachments with
  | nil => rfl
  | cons write attachments ih =>
    obtain ⟨a, rfl, _⟩ := h write List.mem_cons_self
    exact ih fun write hwrite => h write (List.mem_cons_of_mem _ hwrite)

theorem Placed.foldl_assignments {externalId : String} {fresh : String → Prop}
    {conversation : Conversation} {isNew : Bool} {pending : List Write}
    (h : Placed orgId channelType externalId fresh db conversation isNew pending)
    (rows : List ConversationAssignment) :
    pending.foldl (fun rows write => write.onAssignments now rows) rows = rows := by
  obtain ⟨identity, before, hsender, hthread⟩ := h.place
  cases hsender <;> cases hthread <;> rfl

/-- A conversation that is created is not assigned. -/
theorem Placed.assigned_eq_none {externalId : String} {fresh : String → Prop}
    {conversation : Conversation} {pending : List Write}
    (h : Placed orgId channelType externalId fresh db conversation true pending) :
    conversation.assignedUserId = none := by
  obtain ⟨identity, before, _, hthread⟩ := h.place
  cases hthread
  rfl

/-- A message changes neither the id of a conversation nor its assignment. -/
theorem patched_withMessage (conversation : Conversation) (now : DateTime)
    (bodyText : Option String) (row : Conversation) :
    (if row.id = (withMessage conversation now bodyText).id then
        Conversation.patch conversation (withMessage conversation now bodyText) row else row).id =
        row.id ∧
      (if row.id = (withMessage conversation now bodyText).id then
        Conversation.patch conversation (withMessage conversation now bodyText) row
        else row).assignedUserId = row.assignedUserId := by
  split
  · exact ⟨rfl, column_same _ _⟩
  · exact ⟨rfl, rfl⟩

/-- A message, in a conversation that is held or new. -/
theorem extends_store {externalId : String} {fresh : String → Prop} {conversation : Conversation}
    {isNew : Bool} {pending attachments : List Write} {message : Message} {now' : DateTime}
    {bodyText : Option String}
    (hplaced : Placed orgId channelType externalId fresh db conversation isNew pending)
    (hattachments : ∀ write ∈ attachments, ∃ a, write = .insertAttachment a ∧ fresh a.id)
    (h : db.apply now (pending ++ [.insertMessage message] ++
      [.updateConversation conversation (withMessage conversation now' bodyText)] ++ attachments) =
        .ok db') : Extends db db' := by
  have hrows := store_conversations hplaced hattachments h
  refine extends_of_same ?_ (fun c hc => ?_) fun c₀ hc₀ => ?_
  · rw [Db.assignments_apply h, List.foldl_append, assignments_of_attachments hattachments,
      List.foldl_append, List.foldl_append, hplaced.foldl_assignments]
    rfl
  · rw [hrows] at hc
    obtain ⟨c₀, hmem, rfl⟩ := List.mem_map.mp hc
    obtain ⟨hid, hassigned⟩ := patched_withMessage conversation now' bodyText c₀
    rw [hid, hassigned]
    rcases List.mem_append.mp hmem with hold | hnew
    · exact .inr ⟨c₀, hold, rfl, rfl⟩
    · cases isNew with
      | false => cases hnew
      | true =>
        obtain rfl := List.mem_singleton.mp hnew
        refine .inl ⟨hplaced.assigned_eq_none, fun c₁ hc₁ hsame => ?_⟩
        have hunique := db'.conversations.unique
        rw [hrows, List.pairwise_map, List.pairwise_append] at hunique
        have hclash := hunique.2.2 c₁ hc₁ _ hnew
        obtain ⟨hid₁, _⟩ := patched_withMessage conversation now' bodyText c₁
        simp only [conversationSchema, beq_eq_false_iff_ne] at hclash
        exact hclash (hid₁.trans (hsame.trans hid.symm))
  · rw [hrows]
    refine ⟨_, List.mem_map_of_mem (List.mem_append_left _ hc₀), ?_⟩
    split <;> exact ⟨rfl, rfl⟩

end Commits

/-! ### The operations -/

/-- The setting of one operation at a time. -/
def replaying : Contract Call Call.Resp PyErr Choice World where
  answer := Call.answer
  rely := Calm
  admits _ _ _ := True
  guar _ _ w w' := Extends w.db w'.db
  rely_refl := .refl
  rely_trans h h' := h.trans h'

theorem extends_of_calm {w w' : World} (h : Calm w w') : Extends w.db w'.db := by
  rw [h.db]
  exact .refl _

/-- Any call that commits nothing. -/
theorem extends_of_harmless {c : Call} (hc : c.Harmless) (x : Choice) (w : World) :
    Extends w.db (c.answer x w).2.db :=
  extends_of_calm (calm_answer hc x w)

theorem ingests_replaying (orgId channelType : String) :
    Ingests replaying orgId channelType (fun _ _ => True) fun _ => True where
  answer := rfl
  rely _ _ := Iff.rfl
  generated _ _ _ := trivial
  reads c hc x w _ := extends_of_harmless (harmless_of_reads hc) x w
  flush writes x w _ _ := by
    have hharmless : (Call.flush writes).Harmless := trivial
    exact extends_of_harmless hharmless x w
  commit writes x w hwrites _ := by
    show Extends w.db ((Call.commit writes).answer x w).2.db
    rcases commit_cases writes x w with ⟨_, db, hdb, hw⟩ | ⟨_, hw, _⟩
    · rw [hw]
      cases hwrites with
      | store conversation isNew pending attachments messageId now item hplaced _ _ hattachments _ =>
        exact extends_store hplaced hattachments hdb
      | assign conversation row id userId assignedBy reason hmem hholds _ _ =>
        exact extends_assign hmem hholds hdb
      | deliver message status =>
        obtain ⟨_, hconversations, _⟩ := Db.rows_apply hdb
        have hrows : db.conversations.rows = w.db.conversations.rows := hconversations
        refine extends_of_same (Db.assignments_apply hdb) (fun c hc => ?_) fun c hc => ?_
        · rw [hrows] at hc
          exact .inr ⟨c, hc, rfl, rfl⟩
        · rw [hrows]
          exact ⟨c, hc, rfl, rfl⟩
    · rw [hw]
      exact .refl _

/-- A setting of one operation at a time, where the calls that commit nothing are promised. -/
structure Rests (K : Contract Call Call.Resp PyErr Choice World) : Prop where
  answer : K.answer = Call.answer
  db : ∀ w w', K.rely w w' → w'.db = w.db
  harmless : ∀ c : Call, c.Harmless → ∀ x w, K.guar c x w (c.answer x w).2 ∧ K.rely w (c.answer x w).2

theorem rests_replaying : Rests replaying :=
  ⟨rfl, fun _ _ h => h.db, fun _ hc x w => ⟨extends_of_harmless hc x w, calm_answer hc x w⟩⟩

section Rests

variable {K : Contract Call Call.Resp PyErr Choice World} {α β : Type} {w : World}
  {Q : Except PyErr β → World → Prop}

/-- A part of an operation that commits nothing. -/
theorem Rests.bind (hK : Rests K) {p : Prog α} {f : α → Prog β} (hp : p.Calls Call.Harmless)
    (hf : ∀ a w', K.rely w w' → K.wp (f a) w' Q) (herror : ∀ e w', K.rely w w' → Q (.error e) w') :
    K.wp (p.bind f) w Q := by
  refine wp_bind_of_calls (fun c hc x w' _ => ?_) hp p.returns_true
    (fun a w' h _ => hf a w' h) herror
  rw [hK.answer]
  exact hK.harmless c hc x w'

/-- A conversation that is loaded is a row of its org. -/
theorem Rests.loadConversation (hK : Rests K) {orgId conversationId : String}
    {f : Conversation → Prog β}
    (hf : ∀ c w', K.rely w w' → w.db.conversation conversationId = some c → c.orgId = orgId →
      K.wp (f c) w' Q)
    (herror : ∀ e w', K.rely w w' → Q (.error e) w') :
    K.wp ((loadConversation orgId conversationId).bind f) w Q := by
  have hharmless : (Call.getConversation conversationId).Harmless := trivial
  refine wp_bind (wp_bind (wp_perform fun w₁ h₁ x _ => ?_))
  rw [hK.answer]
  obtain ⟨hguar, hrely⟩ := hK.harmless _ hharmless x w₁
  refine ⟨hguar, ?_⟩
  show K.next _ _ ((Call.getConversation conversationId).answer x w₁).1
    ((Call.getConversation conversationId).answer x w₁).2
  have hafter := K.rely_trans h₁ hrely
  cases hr : ((Call.getConversation conversationId).answer x w₁).1 with
  | error e => exact herror e _ hafter
  | ok found =>
    have hrow : Except.ok (w₁.db.conversation conversationId) = Except.ok found :=
      Core.Fate.eq_of_query hr
    have hfound : w.db.conversation conversationId = found := by
      rw [← hK.db _ _ h₁]
      exact Except.ok.inj hrow
    cases found with
    | none => exact herror _ _ hafter
    | some c =>
      show K.wp (if c.orgId ≠ orgId then _ else _) _ (K.next f Q)
      by_cases horg : c.orgId = orgId
      · rw [if_neg (not_not.mpr horg)]
        exact hf c _ hafter hfound horg
      · rw [if_pos horg]
        exact herror _ _ hafter

end Rests

theorem calls_harmless_requireMembership (userId orgId message : String) :
    (requireMembership userId orgId message).Calls Call.Harmless := by
  refine Calls.bind (Calls.embed (Calls.perform trivial)) fun membership => ?_
  cases membership <;> trivial

theorem calls_harmless_requireRole (userId orgId : String) (allowed : List Core.Role)
    (forbiddenMessage : String) :
    (requireRole userId orgId allowed forbiddenMessage).Calls Call.Harmless := by
  refine Calls.bind (calls_harmless_requireMembership _ _ _) fun membership => ?_
  split <;> trivial

/-- What an agent, an admin or a customer does. An inbound entry that opens a conversation also assigns
it, where the org's settings designate a user. -/
inductive Operation where
  | claim (orgId conversationId userId : String)
  | reassign (orgId conversationId actorUserId assigneeUserId : String)
  | inbound (msg : QueueMessage)

/-- What is done at an operation. -/
def Operation.program (registry : Registry) : Operation → Prog Unit
  | .claim orgId conversationId userId => do
    let _ ← Omnichannel.claim orgId conversationId userId
    return ()
  | .reassign orgId conversationId actorUserId assigneeUserId => do
    let _ ← Omnichannel.reassign orgId conversationId actorUserId assigneeUserId
    return ()
  | .inbound msg => processInboundMessage registry msg

theorem replaying_recordAssignment {conversation : Conversation} {userId assignedBy reason : String}
    {w : World} (hmem : conversation ∈ w.db.conversations.rows) :
    replaying.wp (recordAssignment conversation userId assignedBy reason) w fun _ _ => True :=
  (ingests_replaying conversation.orgId "").recordAssignment userId assignedBy reason hmem
    ⟨conversation.createdAt, rfl⟩ rfl (fun _ _ _ _ _ => trivial) fun _ _ => trivial

theorem replaying_claim (orgId conversationId userId : String) (w : World) :
    replaying.wp (claim orgId conversationId userId) w fun _ _ => True := by
  refine rests_replaying.bind (calls_harmless_requireRole _ _ _ _) (fun _ w₁ _ => ?_)
    fun _ _ _ => trivial
  refine rests_replaying.loadConversation (fun c w₂ h₂ hfound _ => ?_) fun _ _ _ => trivial
  split
  · trivial
  · split
    · trivial
    · refine replaying_recordAssignment ?_
      rw [h₂.db]
      exact List.mem_of_find?_eq_some hfound

theorem replaying_reassign (orgId conversationId actorUserId assigneeUserId : String) (w : World) :
    replaying.wp (reassign orgId conversationId actorUserId assigneeUserId) w fun _ _ => True := by
  refine rests_replaying.bind (calls_harmless_requireRole _ _ _ _) (fun _ w₁ _ => ?_)
    fun _ _ _ => trivial
  refine rests_replaying.bind (calls_harmless_requireMembership _ _ _) (fun _ w₂ _ => ?_)
    fun _ _ _ => trivial
  refine rests_replaying.loadConversation (fun c w₃ h₃ hfound _ => ?_) fun _ _ _ => trivial
  refine replaying_recordAssignment ?_
  rw [h₃.db]
  exact List.mem_of_find?_eq_some hfound

theorem replaying_processInboundMessage (registry : Registry) (msg : QueueMessage) (w : World) :
    replaying.wp (processInboundMessage registry msg) w fun _ _ => True := by
  cases horg : getItem msg.attributes "org_id" with
  | error e =>
    unfold processInboundMessage
    rw [horg]
    trivial
  | ok orgId =>
    cases hchannel : getItem msg.attributes "channel_type" with
    | error e =>
      unfold processInboundMessage
      rw [horg, hchannel]
      trivial
    | ok channelType =>
      exact (ingests_replaying orgId channelType).processInboundMessage horg hchannel
        (J := fun _ _ => True) (fun _ _ _ _ _ _ => ⟨fun _ _ => trivial, trivial⟩)
        (fun _ _ _ _ _ _ _ => trivial) (fun _ _ _ _ _ => trivial) (fun _ _ _ _ _ _ => trivial)
        fun _ _ => trivial

theorem replaying_program (registry : Registry) (operation : Operation) (w : World) :
    replaying.wp (operation.program registry) w fun _ _ => True := by
  cases operation with
  | claim => exact wp_bind (wp_mono (fun r _ _ => by cases r <;> trivial) (replaying_claim _ _ _ w))
  | reassign =>
    exact wp_bind (wp_mono (fun r _ _ => by cases r <;> trivial) (replaying_reassign _ _ _ _ w))
  | inbound msg => exact replaying_processInboundMessage registry msg w

/-! ### Sequences of operations -/

/-- The state after operations, one after the other. Each may fail at any of its calls, and may be
stopped at any. -/
def afterOperations (registry : Registry) : List (Operation × Oracle Choice) → World → World
  | [], w => w
  | (operation, o) :: rest, w =>
    afterOperations registry rest (exec Call.answer (operation.program registry) o w).2

theorem afterOperations_append (registry : Registry) (ops ops' : List (Operation × Oracle Choice))
    (w : World) : afterOperations registry (ops ++ ops') w =
      afterOperations registry ops' (afterOperations registry ops w) := by
  induction ops generalizing w with
  | nil => rfl
  | cons op ops ih => exact ih _

theorem extends_afterOperations (registry : Registry) (ops : List (Operation × Oracle Choice))
    (w : World) : Extends w.db (afterOperations registry ops w).db := by
  induction ops generalizing w with
  | nil => exact .refl _
  | cons op ops ih =>
    have hone : Extends w.db (exec Call.answer (op.1.program registry) op.2 w).2.db :=
      exec_invariant (K := replaying) (J := fun w' => Extends w.db w'.db)
        (fun _ _ _ _ h h' => Extends.trans h' h) (replaying_program registry op.1 w)
        (along_of_forall _ (fun _ _ _ _ _ => trivial) w) (.refl _)
    exact hone.trans (ih _)

/-- The setting of an operation that writes nothing. -/
def resting : Contract Call Call.Resp PyErr Choice World where
  answer := Call.answer
  rely := Calm
  admits _ _ _ := True
  guar _ _ w w' := Calm w w'
  rely_refl := .refl
  rely_trans h h' := h.trans h'

theorem rests_resting : Rests resting :=
  ⟨rfl, fun _ _ h => h.db, fun _ hc x w => ⟨calm_answer hc x w, calm_answer hc x w⟩⟩

/-- A claim by the user that a conversation is assigned to writes nothing. -/
theorem db_claim_of_assigned {orgId conversationId userId : String} {row : Conversation} {w : World}
    (hrow : w.db.conversation conversationId = some row) (hassigned : row.assignedUserId = some userId)
    (o : Oracle Choice) :
    (exec Call.answer (claim orgId conversationId userId) o w).2.db = w.db := by
  have hwp : resting.wp (claim orgId conversationId userId) w fun _ _ => True := by
    refine rests_resting.bind (calls_harmless_requireRole _ _ _ _) (fun _ w₁ h₁ => ?_)
      fun _ _ _ => trivial
    refine rests_resting.loadConversation (fun c w₂ _ hfound _ => ?_) fun _ _ _ => trivial
    rw [h₁.db, hrow] at hfound
    obtain rfl := Option.some.inj hfound
    rw [if_pos hassigned]
    trivial
  exact exec_invariant (K := resting) (J := fun w' => w'.db = w.db)
    (fun _ _ _ _ h hdb => h.db.trans hdb) hwp (along_of_forall _ (fun _ _ _ _ _ => trivial) w) rfl

/-- **The history of assignments is replayable** in every state that claims, reassignments and
inbound entries reach: each conversation is assigned to the user of its last row, and to nobody when it
has none; every row is of the conversation's org. Rows stay as they are, and a claim by the user that
the conversation is already assigned to adds none. -/
theorem replayable_runs (registry : Registry) (earlier later : List (Operation × Oracle Choice))
    {w : World} (hstart : Replayable w.db) :
    Replayable (afterOperations registry earlier w).db ∧
      (afterOperations registry earlier w).db.assignments.rows <+:
        (afterOperations registry (earlier ++ later) w).db.assignments.rows ∧
      ∀ conversationId row userId,
        (afterOperations registry earlier w).db.conversation conversationId = some row →
        row.assignedUserId = some userId → ∀ orgId o,
          (afterOperations registry (earlier ++ [(.claim orgId conversationId userId, o)]) w).db =
            (afterOperations registry earlier w).db := by
  refine ⟨(extends_afterOperations registry earlier w).replayable hstart, ?_, ?_⟩
  · rw [afterOperations_append]
    exact (extends_afterOperations registry later _).history
  · intro conversationId row userId hrow hassigned orgId o
    rw [afterOperations_append]
    show (exec Call.answer ((claim orgId conversationId userId).bind fun _ => .ret ()) o _).2.db = _
    rw [exec_bind_ret]
    exact db_claim_of_assigned hrow hassigned o

/-- A claim by one agent, the reassignment to another, and the claim that then fails. -/
theorem replayable_runs_inbox :
    Replayable (afterOperations whatsappRegistry
      [(.claim "org" "conversation" "ada", calm), (.reassign "org" "conversation" "kim" "bob", calm)]
      inboxWorld).db :=
  (replayable_runs whatsappRegistry _ [(.claim "org" "conversation" "ada", calm)]
    ⟨by simp [inboxWorld, inboxDb, Db.historyOf, Db.empty, Relational.Table.empty], by
      simp [inboxWorld, inboxDb, Db.empty, Relational.Table.empty]⟩).1

end A2ZCore.Omnichannel
