import A2ZCore.Omnichannel.Dedup

/-!
# The rows of other orgs

Every lookup of the inbound worker is by org, and every row it writes is the org's; but a message's
name at the provider is unique in the whole table. Where no row of another org has the name of one of
the entry's messages, the worker does on the database what it does on the org's part of it, so that
the others' rows make no difference. Where one has, the message is taken for a duplicate.

## Main definitions

* `Db.own`, `Db.others` — an org's part of the database, and the rest of it
* `Write.Apart` — a write of the org that meets no row of another one
* `Taken` — the name of one of an entry's messages is the name of another org's message

## Main results

* `Db.own_apply` — a transaction on the database is one on the org's part of it
* `own_rows_iff`
-/

namespace A2ZCore.Omnichannel

open Interaction Interaction.Proc Interaction.Contract Messaging Relational

/-! ### An org's part of the database -/

/-- The rows of an org. -/
def Db.own (orgId : String) (db : Db) : Db where
  connections := db.connections.restrict fun c => c.orgId == orgId
  identities := db.identities.restrict fun i => i.orgId == orgId
  conversations := db.conversations.restrict fun c => c.orgId == orgId
  messages := db.messages.restrict fun m => m.orgId == orgId
  attachments := db.attachments.restrict fun a => a.orgId == orgId
  assignments := db.assignments.restrict fun a => a.orgId == orgId

/-- The rows of the other orgs. -/
def Db.others (orgId : String) (db : Db) : Db where
  connections := db.connections.restrict fun c => c.orgId != orgId
  identities := db.identities.restrict fun i => i.orgId != orgId
  conversations := db.conversations.restrict fun c => c.orgId != orgId
  messages := db.messages.restrict fun m => m.orgId != orgId
  attachments := db.attachments.restrict fun a => a.orgId != orgId
  assignments := db.assignments.restrict fun a => a.orgId != orgId

/-- The deployment with an org's rows alone. -/
def World.own (orgId : String) (w : World) : World := { w with db := w.db.own orgId }

/-- The write is one of the org, and meets no row of another one. -/
def Write.Apart (orgId : String) (db : Db) : Write → Prop
  | .insertIdentity identity => identity.orgId = orgId ∧
      ∀ i ∈ db.identities.rows, i.orgId ≠ orgId → i.id ≠ identity.id
  | .insertConversation conversation => conversation.orgId = orgId ∧
      ∀ c ∈ db.conversations.rows, c.orgId ≠ orgId → c.id ≠ conversation.id
  | .insertMessage message => message.orgId = orgId ∧
      ∀ m ∈ db.messages.rows, m.orgId ≠ orgId → m.id ≠ message.id ∧
        ¬m.IsNamed message.channelType message.externalMessageId
  | .insertAttachment attachment => attachment.orgId = orgId ∧
      ∀ a ∈ db.attachments.rows, a.orgId ≠ orgId → a.id ≠ attachment.id
  | .insertAssignment assignment => assignment.orgId = orgId ∧
      ∀ a ∈ db.assignments.rows, a.orgId ≠ orgId → a.id ≠ assignment.id
  | .updateMessage loaded current => current.externalMessageId = loaded.externalMessageId ∧
      ∀ m ∈ db.messages.rows, m.orgId ≠ orgId → m.id ≠ current.id
  | .updateConversation _ current =>
      ∀ c ∈ db.conversations.rows, c.orgId ≠ orgId → c.id ≠ current.id

/-- The rows of other orgs are among those that were there. -/
structure Others (orgId : String) (db db' : Db) : Prop where
  identities : ∀ i ∈ db'.identities.rows, i.orgId ≠ orgId → i ∈ db.identities.rows
  conversations : ∀ c ∈ db'.conversations.rows, c.orgId ≠ orgId → c ∈ db.conversations.rows
  messages : ∀ m ∈ db'.messages.rows, m.orgId ≠ orgId → m ∈ db.messages.rows
  attachments : ∀ a ∈ db'.attachments.rows, a.orgId ≠ orgId → a ∈ db.attachments.rows
  assignments : ∀ a ∈ db'.assignments.rows, a.orgId ≠ orgId → a ∈ db.assignments.rows

theorem Others.refl (orgId : String) (db : Db) : Others orgId db db :=
  ⟨fun _ h _ => h, fun _ h _ => h, fun _ h _ => h, fun _ h _ => h, fun _ h _ => h⟩

theorem Others.trans {orgId : String} {db₁ db₂ db₃ : Db} (h : Others orgId db₁ db₂)
    (h' : Others orgId db₂ db₃) : Others orgId db₁ db₃ :=
  ⟨fun i hi ho => h.identities i (h'.identities i hi ho) ho,
    fun c hc ho => h.conversations c (h'.conversations c hc ho) ho,
    fun m hm ho => h.messages m (h'.messages m hm ho) ho,
    fun a ha ho => h.attachments a (h'.attachments a ha ho) ho,
    fun a ha ho => h.assignments a (h'.assignments a ha ho) ho⟩

section Apart

variable {orgId : String} {db db' : Db} {write : Write} {now : DateTime}

theorem Write.Apart.others (h : write.Apart orgId db) (hothers : Others orgId db db') :
    write.Apart orgId db' := by
  cases write with
  | insertIdentity => exact ⟨h.1, fun i hi ho => h.2 i (hothers.identities i hi ho) ho⟩
  | insertConversation => exact ⟨h.1, fun c hc ho => h.2 c (hothers.conversations c hc ho) ho⟩
  | insertMessage => exact ⟨h.1, fun m hm ho => h.2 m (hothers.messages m hm ho) ho⟩
  | insertAttachment => exact ⟨h.1, fun a ha ho => h.2 a (hothers.attachments a ha ho) ho⟩
  | insertAssignment => exact ⟨h.1, fun a ha ho => h.2 a (hothers.assignments a ha ho) ho⟩
  | updateMessage => exact ⟨h.1, fun m hm ho => h.2 m (hothers.messages m hm ho) ho⟩
  | updateConversation => exact fun c hc ho => h c (hothers.conversations c hc ho) ho

theorem Others.of_eq (h : db'.others orgId = db.others orgId) : Others orgId db db' where
  identities i hi ho := Table.mem_of_restrict_eq (congrArg Db.identities h) hi (by simpa using ho)
  conversations c hc ho := Table.mem_of_restrict_eq (congrArg Db.conversations h) hc (by simpa using ho)
  messages m hm ho := Table.mem_of_restrict_eq (congrArg Db.messages h) hm (by simpa using ho)
  attachments a ha ho := Table.mem_of_restrict_eq (congrArg Db.attachments h) ha (by simpa using ho)
  assignments a ha ho := Table.mem_of_restrict_eq (congrArg Db.assignments h) ha (by simpa using ho)

/-- A write of the org leaves the rows of the others. -/
theorem Write.Apart.others_eq {write : Write} (h : write.Apart orgId db)
    (happly : write.apply now db = .ok db') : db'.others orgId = db.others orgId := by
  cases write with
  | insertIdentity =>
    obtain ⟨t, ht, rfl⟩ := map_eq_ok happly
    exact congrArg (Db.mk _ · _ _ _ _) (Table.restrict_of_insert ht (by simp [h.1]))
  | insertConversation =>
    obtain ⟨t, ht, rfl⟩ := map_eq_ok happly
    exact congrArg (Db.mk _ _ · _ _ _) (Table.restrict_of_insert ht (by simp [h.1]))
  | insertMessage =>
    obtain ⟨t, ht, rfl⟩ := map_eq_ok happly
    exact congrArg (Db.mk _ _ _ · _ _) (Table.restrict_of_insert ht (by simp [h.1]))
  | insertAttachment =>
    obtain ⟨t, ht, rfl⟩ := map_eq_ok happly
    exact congrArg (Db.mk _ _ _ _ · _) (Table.restrict_of_insert ht (by simp [h.1]))
  | insertAssignment =>
    obtain ⟨t, ht, rfl⟩ := map_eq_ok happly
    exact congrArg (Db.mk _ _ _ _ _ ·) (Table.restrict_of_insert ht (by simp [h.1]))
  | updateMessage loaded current =>
    obtain ⟨t, ht, rfl⟩ := map_eq_ok happly
    refine congrArg (Db.mk _ _ _ · _ _) (Table.restrict_of_modify ht (fun m => ?_) fun m hm ho => ?_)
    · split <;> rfl
    · exact if_neg (h.2 m hm (by simpa using ho))
  | updateConversation loaded current =>
    obtain ⟨t, ht, rfl⟩ := map_eq_ok happly
    refine congrArg (Db.mk _ _ · _ _ _) (Table.restrict_of_modify ht (fun c => ?_) fun c hc ho => ?_)
    · split <;> rfl
    · exact if_neg (h c hc (by simpa using ho))

/-- What is done to one table of the database is done to the org's part of it. -/
theorem own_of_restrict {α : Type} {S : Schema α} {p : α → Bool} {r r' : Except Violation (Table S)}
    {put put' : Table S → Db} (h : r.map (Table.restrict p) = r')
    (hput : ∀ t, (put t).own orgId = put' (t.restrict p)) :
    (r.map put).map (Db.own orgId) = r'.map put' := by
  subst h
  cases r with
  | error v => rfl
  | ok t => exact congrArg Except.ok (hput t)

/-- A write of the org is one on the org's part of the database. -/
theorem Write.own_apply (h : write.Apart orgId db) :
    (write.apply now db).map (Db.own orgId) = write.apply now (db.own orgId) := by
  cases write with
  | insertIdentity identity =>
    refine own_of_restrict (Table.restrict_insert _ (by simpa using h.1) fun i hi hp => ?_) fun _ => rfl
    have horg : i.orgId ≠ orgId := by simpa using hp
    simp [identitySchema, h.2 i hi horg, h.1, horg]
  | insertConversation conversation =>
    refine own_of_restrict (Table.restrict_insert _ (by simpa using h.1) fun c hc hp => ?_) fun _ => rfl
    have horg : c.orgId ≠ orgId := by simpa using hp
    simpa [conversationSchema] using h.2 c hc horg
  | insertMessage message =>
    refine own_of_restrict (Table.restrict_insert _ (by simpa using h.1) fun m hm hp => ?_) fun _ => rfl
    have horg : m.orgId ≠ orgId := by simpa using hp
    obtain ⟨hid, hname⟩ := h.2 m hm horg
    have hkey : m.sameDedupKey { message with createdAt := now } = false := by
      unfold Message.sameDedupKey
      split
      · simp [h.1, horg]
      · rfl
    simpa [messageSchema, hid, hkey, Message.IsNamed] using hname
  | insertAttachment attachment =>
    refine own_of_restrict (Table.restrict_insert _ (by simpa using h.1) fun a ha hp => ?_) fun _ => rfl
    have horg : a.orgId ≠ orgId := by simpa using hp
    simpa [attachmentSchema] using h.2 a ha horg
  | insertAssignment assignment =>
    refine own_of_restrict (Table.restrict_insert _ (by simpa using h.1) fun a ha hp => ?_) fun _ => rfl
    have horg : a.orgId ≠ orgId := by simpa using hp
    simpa [assignmentSchema] using h.2 a ha horg
  | updateMessage loaded current =>
    refine own_of_restrict (Table.restrict_modify _ (fun m => ?_) (fun m n => ?_) fun m hm hp => ?_)
      fun _ => rfl
    · split <;> rfl
    · have hkeys : ∀ row : Message, (if row.id = current.id then Message.patch loaded current row
          else row).externalMessageId = row.externalMessageId := by
        intro row
        split
        · rw [Message.patch, h.1, column_same]
        · rfl
      simp only [messageSchema, Message.sameDedupKey, hkeys]
      split_ifs <;> rfl
    · have horg : m.orgId ≠ orgId := by simpa using hp
      exact if_neg (h.2 m hm horg)
  | updateConversation loaded current =>
    refine own_of_restrict (Table.restrict_modify _ (fun c => ?_) (fun c d => ?_) fun c hc hp => ?_)
      fun _ => rfl
    · split <;> rfl
    · simp only [conversationSchema]
      split_ifs <;> rfl
    · have horg : c.orgId ≠ orgId := by simpa using hp
      exact if_neg (h c hc horg)

/-- A transaction of the org is one on the org's part of the database. -/
theorem Db.own_apply {writes : List Write} (h : ∀ write ∈ writes, write.Apart orgId db) :
    (db.apply now writes).map (Db.own orgId) = (db.own orgId).apply now writes := by
  induction writes generalizing db with
  | nil => rfl
  | cons write writes ih =>
    have hwrite := h write List.mem_cons_self
    have hown : (write.apply now db).map (Db.own orgId) = _ := Write.own_apply hwrite
    rw [Db.apply, Db.apply, List.foldlM_cons, List.foldlM_cons, ← hown]
    cases happly : write.apply now db with
    | error v => rfl
    | ok db' =>
      exact ih fun w hw => (h w (List.mem_cons_of_mem _ hw)).others
        (.of_eq (hwrite.others_eq happly))

/-- A transaction of the org leaves the rows of the others. -/
theorem others_eq_apply {writes : List Write} (h : ∀ write ∈ writes, write.Apart orgId db)
    (happly : db.apply now writes = .ok db') : db'.others orgId = db.others orgId := by
  induction writes generalizing db with
  | nil =>
    cases happly
    rfl
  | cons write writes ih =>
    obtain ⟨db₁, h₁, h₂⟩ := Db.apply_cons.mp happly
    have hothers := (h write List.mem_cons_self).others_eq h₁
    have hrest : ∀ write ∈ writes, write.Apart orgId db₁ := fun write hwrite =>
      (h write (List.mem_cons_of_mem _ hwrite)).others (.of_eq hothers)
    exact (ih hrest h₂).trans hothers

end Apart

/-! ### The worker's writes -/

/-- No message of another org has the name. -/
def Unclaimed (orgId channelType : String) (db : Db) (externalMessageId : String) : Prop :=
  ∀ m ∈ db.messages.rows, m.orgId ≠ orgId → ¬m.IsNamed channelType externalMessageId

section Writes

variable {orgId channelType : String} {db : Db} {wanted : String → Prop}

/-- What a flush sends meets no row of another org. -/
theorem apart_of_adds {write : Write} (h : write.Adds orgId channelType db.Unused wanted)
    (hwanted : ∀ name, wanted name → Unclaimed orgId channelType db name) :
    write.Apart orgId db := by
  cases write with
  | insertIdentity => exact ⟨h.1, fun i hi _ => h.2.identities i hi⟩
  | insertConversation => exact ⟨h.1, fun c hc _ => h.2.conversations c hc⟩
  | insertMessage message =>
    obtain ⟨horg, hfresh, hchannel, _, _, hname⟩ := h
    refine ⟨horg, fun m hm ho => ⟨hfresh.messages m hm, ?_⟩⟩
    rw [hchannel]
    exact hwanted _ hname m hm ho
  | _ => exact h.elim

/-- No conversation of another org has the id of one that the worker holds. -/
theorem conversation_apart {conversation row : Conversation} (hrow : row ∈ db.conversations.rows)
    (hholds : conversation.Holds row) (horg : row.orgId = orgId) :
    ∀ c ∈ db.conversations.rows, c.orgId ≠ orgId → c.id ≠ conversation.id := by
  rintro c hc ho hid
  have hsame : row.id = conversation.id := by
    obtain ⟨t, rfl⟩ := hholds
    rfl
  rw [db.conversations.eq_of_clash hc hrow (by simp [conversationSchema, hid, hsame])] at ho
  exact ho horg

/-- What a commit sends meets no row of another org. -/
theorem apart_of_ingestion {writes : List Write}
    (h : Ingestion orgId channelType db.Unused wanted db writes)
    (hwanted : ∀ name, wanted name → Unclaimed orgId channelType db name) :
    ∀ write ∈ writes, write.Apart orgId db := by
  intro write hwrite
  cases h with
  | store conversation isNew pending attachments messageId now item hplaced hfresh hname hattachments
      hattached =>
    simp only [List.mem_append, List.mem_singleton, or_assoc] at hwrite
    rcases hwrite with hpending | rfl | rfl | hattachment
    · exact apart_of_adds (hplaced.adds write hpending) hwanted
    · exact apart_of_adds ⟨rfl, hfresh, rfl, rfl, rfl, hname⟩ hwanted
    · obtain ⟨identity, before, _, hthread⟩ := hplaced.place
      cases hthread with
      | found _ row hmem hholds hwith =>
        have hapart := conversation_apart hmem hholds hwith.1
        exact hapart
      | created id hid => exact fun c hc _ => hid.conversations c hc
    · obtain ⟨a, rfl, hid⟩ := hattachments write hattachment
      exact ⟨hattached a hattachment, fun b hb _ => hid.attachments b hb⟩
  | assign conversation row id userId assignedBy reason hmem hholds horg hfresh =>
    simp only [List.mem_cons, List.not_mem_nil, or_false] at hwrite
    rcases hwrite with rfl | rfl
    · have hapart := conversation_apart hmem hholds horg
      exact hapart
    · refine ⟨?_, fun a ha _ => hfresh.assignments a ha⟩
      obtain ⟨t, rfl⟩ := hholds
      exact horg
  | deliver message status hmem horg =>
    obtain rfl := List.mem_singleton.mp hwrite
    refine ⟨rfl, fun m hm ho hid => ?_⟩
    rw [db.messages.eq_of_clash hm hmem (by simp [messageSchema, hid])] at ho
    exact ho horg

end Writes

/-! ### Two runs -/

/-- The setting of the worker, beginning with the rows `db₀`. While the others' rows are those of
`db₀`, each call is answered as it would be on the org's rows alone. -/
def lockstep (orgId : String) (db₀ : Db) : Contract Call Call.Resp PyErr Choice World where
  answer := Call.answer
  rely := Calm
  admits := Faithful
  guar c x w w' := Others orgId db₀ w.db →
    Call.answer c x (w.own orgId) = ((Call.answer c x w).1, (Call.answer c x w).2.own orgId) ∧
      Others orgId db₀ w'.db
  rely_refl := .refl
  rely_trans h h' := h.trans h'

theorem query_own {α : Type} (orgId : String) (fate : Core.Fate) {r r' : Except PyErr α} (h : r' = r)
    (w : World) : fate.query r' (w.own orgId) = ((fate.query r w).1, (fate.query r w).2.own orgId) := by
  subst h
  cases r' with
  | error e => cases fate <;> rfl
  | ok a => cases fate <;> rfl

/-- A read of the org sees the org's rows alone. -/
theorem reads_own {orgId : String} {c : Call} (hc : c.Reads orgId) (x : Choice) (w : World) :
    c.answer x (w.own orgId) = ((c.answer x w).1, (c.answer x w).2.own orgId) := by
  cases c with
  | core c => rfl
  | selectIdentity org channelType externalId =>
    obtain rfl : org = orgId := hc
    refine query_own org x.fate (congrArg scalarOneOrNone ?_) w
    refine (List.filter_filter ..).trans (List.filter_congr fun i _ => ?_)
    cases i.orgId == org <;> simp
  | selectConversation org identityId =>
    obtain rfl : org = orgId := hc
    refine query_own org x.fate (congrArg scalarOneOrNone ?_) w
    refine (List.filter_filter ..).trans (List.filter_congr fun c _ => ?_)
    cases c.orgId == org <;> simp
  | selectByExternalId org channelType externalMessageId =>
    obtain rfl : org = orgId := hc
    refine query_own org x.fate (congrArg scalarOneOrNone ?_) w
    refine (List.filter_filter ..).trans (List.filter_congr fun m _ => ?_)
    cases m.orgId == org <;> simp
  | rollback => exact query_own orgId x.fate rfl w
  | normalizeInbound => exact query_own orgId x.fate rfl w
  | _ => exact hc.elim

/-- A flush of the org is checked on the org's rows alone. -/
theorem flush_own {orgId : String} {writes : List Write} {w : World}
    (h : ∀ write ∈ writes, write.Apart orgId w.db) (x : Choice) :
    (Call.flush writes).answer x (w.own orgId) = (((Call.flush writes).answer x w).1,
      ((Call.flush writes).answer x w).2.own orgId) := by
  refine query_own orgId x.fate ?_ w
  rw [World.own, ← Db.own_apply h]
  cases w.db.apply x.now writes <;> rfl

/-- A commit of the org is carried out on the org's rows alone. -/
theorem commit_own {orgId : String} {writes : List Write} {w : World}
    (h : ∀ write ∈ writes, write.Apart orgId w.db) (x : Choice) :
    (Call.commit writes).answer x (w.own orgId) = (((Call.commit writes).answer x w).1,
      ((Call.commit writes).answer x w).2.own orgId) := by
  rw [Call.answer, Call.answer, World.own, ← Db.own_apply h]
  cases w.db.apply x.now writes with
  | error v => cases x.fate <;> rfl
  | ok db => cases x.fate <;> rfl

theorem ingests_lockstep {orgId channelType : String} {db₀ : Db} :
    Ingests (lockstep orgId db₀) orgId channelType Db.Unused (Unclaimed orgId channelType db₀) where
  answer := rfl
  rely _ _ := Iff.rfl
  generated _ _ hx := hx
  reads c hc x w _ := by
    refine fun hothers => ⟨reads_own hc x w, ?_⟩
    rw [(calm_answer (harmless_of_reads hc) x w).db]
    exact hothers
  flush writes x w hadds _ := by
    refine fun hothers => ⟨flush_own (fun write hwrite => apart_of_adds (hadds write hwrite) ?_) x, ?_⟩
    · exact fun name hname m hm ho => hname m (hothers.messages m hm ho) ho
    · have hharmless : (Call.flush writes).Harmless := trivial
      rw [(calm_answer hharmless x w).db]
      exact hothers
  commit writes x w hwrites _ := by
    intro hothers
    have hapart := apart_of_ingestion hwrites
      fun name hname m hm ho => hname m (hothers.messages m hm ho) ho
    refine ⟨commit_own hapart x, ?_⟩
    rcases commit_cases writes x w with ⟨_, db, happly, hw⟩ | ⟨_, hw, _⟩
    · rw [hw]
      exact hothers.trans (.of_eq (others_eq_apply hapart happly))
    · rw [hw]
      exact hothers

/-- The name of a message of the entry is the name of another org's message. -/
def Taken (registry : Registry) (orgId : String) (msg : QueueMessage) (core : Core.World) (db : Db) :
    Prop :=
  ∃ channelType normalized, getItem msg.attributes "channel_type" = .ok channelType ∧
    Normalizes registry msg core normalized ∧
    ∃ item ∈ normalized, ¬Unclaimed orgId channelType db item.externalMessageId

/-- Every message of the entry is a message of the org. -/
def NoneDropped (registry : Registry) (orgId : String) (msg : QueueMessage) (core : Core.World)
    (db : Db) : Prop :=
  ∀ channelType normalized, getItem msg.attributes "channel_type" = .ok channelType →
    Normalizes registry msg core normalized → ∀ item ∈ normalized, ∃ m ∈ db.messages.rows,
      m.orgId = orgId ∧ m.IsNamed channelType item.externalMessageId

section Runs

variable {registry : Registry} {orgId : String} {msg : QueueMessage} {w : World} {o : Oracle Choice}

/-- An entry whose names are not taken is processed as on the org's rows alone. -/
theorem exec_own (horg : getItem msg.attributes "org_id" = .ok orgId)
    (hfree : ¬Taken registry orgId msg w.core w.db)
    (hrun : Along Call.answer Faithful (processInboundMessage registry msg) o w) :
    exec Call.answer (processInboundMessage registry msg) o (w.own orgId) =
      ((exec Call.answer (processInboundMessage registry msg) o w).1,
        (exec Call.answer (processInboundMessage registry msg) o w).2.own orgId) := by
  rcases processInboundMessage_cases horg with ⟨e, he⟩ |
    ⟨channelType, adapter, rawPayload, hchannel, hadapter, hraw, hmessage⟩
  · rw [he]
    rfl
  refine exec_map (f := World.own orgId) ?_
  have hreads : (Call.normalizeInbound adapter rawPayload).Reads orgId := trivial
  rw [hmessage] at hrun ⊢
  refine along_perform_bind.mpr fun x hx => ⟨reads_own hreads x w, fun normalized hnormalized => ?_⟩
  have hrest := (along_perform_bind.mp hrun x hx).2 normalized hnormalized
  have hstays : ((Call.normalizeInbound adapter rawPayload).answer x w).2 = w :=
    Core.Fate.snd_query _ _ _
  rw [hstays] at hrest ⊢
  have hunclaimed : ∀ item : NormalizedInboundMessage, item ∈ (show List _ from normalized) →
      Unclaimed orgId channelType w.db item.externalMessageId := fun item hitem => by
    by_contra hclaimed
    exact hfree ⟨channelType, normalized, hchannel, ⟨channelType, adapter, rawPayload, hchannel,
      hadapter, hraw, Core.Fate.eq_of_query hnormalized⟩, item, hitem, hclaimed⟩
  have hwp : (lockstep orgId w.db).wp
      (processNormalized orgId channelType adapter rawPayload normalized) w fun _ _ => True :=
    ingests_lockstep.processNormalized hunclaimed (J := fun _ _ => True) trivial
      (fun _ _ _ _ _ _ _ => trivial) (fun _ _ _ _ _ => trivial) (fun _ _ => trivial)
      fun _ _ => trivial
  exact along_of_invariant (J := fun w' : World => Others orgId w.db w'.db)
    (along_guar (K := lockstep orgId w.db) hwp hrest) (.refl orgId w.db)

/-- What a run leaves that handles its entry. -/
theorem exec_handled (horg : getItem msg.attributes "org_id" = .ok orgId)
    (hrun : Along Call.answer Faithful (processInboundMessage registry msg) o w) {w' : World}
    (hexec : exec Call.answer (processInboundMessage registry msg) o w = (some (.ok ()), w'))
    {channelType : String} {normalized : List NormalizedInboundMessage}
    (hchannel : getItem msg.attributes "channel_type" = .ok channelType)
    (hnormalizes : Normalizes registry msg w.core normalized) :
    w'.db.HasAll channelType normalized ∧ Grows orgId w.db w'.db := by
  obtain ⟨channelType', adapter, rawPayload, hchannel', hadapter, hraw, hnormalize⟩ := hnormalizes
  obtain rfl : channelType = channelType' := Except.ok.inj (hchannel.symm.trans hchannel')
  rw [processInboundMessage_eq horg hchannel hadapter hraw] at hrun hexec
  obtain ⟨x, normalized', hx, hnormalized', hexec⟩ := exec_perform_bind hexec
  have hrest := (along_perform_bind.mp hrun x hx).2 normalized' hnormalized'
  have hstays : ((Call.normalizeInbound adapter rawPayload).answer x w).2 = w :=
    Core.Fate.snd_query _ _ _
  rw [hstays] at hrest hexec
  obtain rfl : normalized' = normalized :=
    Except.ok.inj ((Core.Fate.eq_of_query hnormalized').symm.trans hnormalize)
  have hwp : (deduping orgId).wp (processNormalized orgId channelType adapter rawPayload normalized')
    w _ := deduping_normalized channelType adapter rawPayload normalized' w
  have hgrows := exec_invariant (K := deduping orgId) (J := fun w' : World => Grows orgId w.db w'.db)
    (fun _ _ _ _ h hw => hw.trans h.2.1) hwp hrest (.refl orgId w.db)
  refine ⟨exec_post hwp hrest hexec rfl, ?_⟩
  rwa [show exec (deduping orgId).answer (processNormalized orgId channelType adapter rawPayload
    normalized') o.tail w = (some (.ok ()), w') from hexec] at hgrows

/-- Where an entry was handled, its messages were dropped exactly when their names were taken. -/
theorem noneDropped_iff (horg : getItem msg.attributes "org_id" = .ok orgId)
    (hrun : Along Call.answer Faithful (processInboundMessage registry msg) o w)
    (hexec : (exec Call.answer (processInboundMessage registry msg) o w).1 = some (.ok ())) :
    NoneDropped registry orgId msg w.core
        (exec Call.answer (processInboundMessage registry msg) o w).2.db ↔
      ¬Taken registry orgId msg w.core w.db := by
  set w' := (exec Call.answer (processInboundMessage registry msg) o w).2
  have hexec' : exec Call.answer (processInboundMessage registry msg) o w = (some (.ok ()), w') :=
    Prod.ext hexec rfl
  constructor
  · rintro hnone ⟨channelType, normalized, hchannel, hnormalizes, item, hitem, hclaimed⟩
    refine hclaimed fun m₀ hm₀ ho hnamed₀ => ?_
    -- the other org's row is still there, and its name is the one row's that is the org's
    obtain ⟨m, hm, horgm, hnamed⟩ := hnone channelType normalized hchannel hnormalizes item hitem
    obtain ⟨_, hgrows⟩ := exec_handled horg hrun hexec' hchannel hnormalizes
    obtain ⟨m', hm', hnamed', horg', _⟩ := hgrows.kept m₀ hm₀
    have hsame : m' = m := w'.db.messages.eq_of_clash hm' hm (by
      simp [messageSchema, hnamed'.1, hnamed'.2, hnamed₀.1, hnamed₀.2, hnamed.1, hnamed.2])
    rw [hsame, horgm] at horg'
    exact ho horg'.symm
  · intro hfree channelType normalized hchannel hnormalizes item hitem
    obtain ⟨hall, hgrows⟩ := exec_handled horg hrun hexec' hchannel hnormalizes
    obtain ⟨m, hm, hnamed⟩ := hall item hitem
    refine ⟨m, hm, ?_, hnamed⟩
    rcases hgrows.added m hm with ⟨hown, _⟩ | ⟨m₀, hm₀, hnamed₀, horg₀, _⟩
    · exact hown
    · by_contra ho
      refine hfree ⟨channelType, normalized, hchannel, hnormalizes, item, hitem, fun hunclaimed => ?_⟩
      refine hunclaimed m₀ hm₀ (horg₀ ▸ ho) ?_
      rwa [hnamed.1, hnamed.2] at hnamed₀

end Runs

/-- What two runs of an entry leave of its org's rows: the same, with none of its messages dropped
where the entry was handled. -/
structure SameForOrg (registry : Registry) (orgId : String) (msg : QueueMessage) (core : Core.World)
    (r₁ r₂ : Option (Except PyErr Unit) × World) : Prop where
  rows : r₁.2.db.own orgId = r₂.2.db.own orgId
  kept : r₁.1 = some (.ok ()) → NoneDropped registry orgId msg core r₁.2.db
  kept' : r₂.1 = some (.ok ()) → NoneDropped registry orgId msg core r₂.2.db

/-- **Other orgs' rows make no difference** to an org's messages, conversations and identities, in
two databases that agree on the org's rows, exactly when no row of another org has the name of one of
the entry's messages. -/
theorem own_rows_iff (registry : Registry) (orgId : String) (msg : QueueMessage)
    (horg : getItem msg.attributes "org_id" = .ok orgId) (w : World) (db₁ db₂ : Db)
    (hsame : db₁.own orgId = db₂.own orgId) (o : Oracle Choice)
    (hrun₁ : Along Call.answer Faithful (processInboundMessage registry msg) o { w with db := db₁ })
    (hrun₂ : Along Call.answer Faithful (processInboundMessage registry msg) o { w with db := db₂ }) :
    (¬Taken registry orgId msg w.core db₁ ∧ ¬Taken registry orgId msg w.core db₂ →
      SameForOrg registry orgId msg w.core
        (exec Call.answer (processInboundMessage registry msg) o { w with db := db₁ })
        (exec Call.answer (processInboundMessage registry msg) o { w with db := db₂ })) ∧
    ((exec Call.answer (processInboundMessage registry msg) o { w with db := db₁ }).1 =
        some (.ok ()) →
      (exec Call.answer (processInboundMessage registry msg) o { w with db := db₂ }).1 =
        some (.ok ()) →
      (SameForOrg registry orgId msg w.core
          (exec Call.answer (processInboundMessage registry msg) o { w with db := db₁ })
          (exec Call.answer (processInboundMessage registry msg) o { w with db := db₂ }) ↔
        ¬Taken registry orgId msg w.core db₁ ∧ ¬Taken registry orgId msg w.core db₂)) := by
  have hfree : ¬Taken registry orgId msg w.core db₁ ∧ ¬Taken registry orgId msg w.core db₂ →
      SameForOrg registry orgId msg w.core
        (exec Call.answer (processInboundMessage registry msg) o { w with db := db₁ })
        (exec Call.answer (processInboundMessage registry msg) o { w with db := db₂ }) := by
    rintro ⟨hfree₁, hfree₂⟩
    have hown₁ := exec_own horg hfree₁ hrun₁
    have hown₂ := exec_own horg hfree₂ hrun₂
    have hstart : World.own orgId { w with db := db₁ } = World.own orgId { w with db := db₂ } := by
      simp only [World.own, hsame]
    rw [hstart, hown₂] at hown₁
    refine ⟨(congrArg (fun r => r.2.db) hown₁).symm, fun h => ?_, fun h => ?_⟩
    · exact (noneDropped_iff horg hrun₁ h).mpr hfree₁
    · exact (noneDropped_iff horg hrun₂ h).mpr hfree₂
  refine ⟨hfree, fun h₁ h₂ => ⟨fun h => ⟨?_, ?_⟩, hfree⟩⟩
  · exact (noneDropped_iff horg hrun₁ h₁).mp (h.kept h₁)
  · exact (noneDropped_iff horg hrun₂ h₂).mp (h.kept' h₂)

/-! ### A message that is dropped -/

/-- A message of another org. -/
def foreignMessage (externalMessageId : String) : Message :=
  { id := "foreign", orgId := "other", conversationId := "theirs", direction := .inbound,
    channelType := "whatsapp", externalMessageId, bodyText := some "Hi", subject := none,
    contentType := "text/plain", status := "received", sentByUserId := none,
    clientDedupKey := none, createdAt := ⟨⟨2026, 1, 1⟩, 0, 0, 0, 0⟩ }

/-- The org's rows, with a message of another org. -/
def sharedDb (externalMessageId : String) : Db :=
  { inboxDb with
    messages := ⟨[foreignMessage externalMessageId], by simp [messageSchema], by simp⟩ }

/-- A message of a customer. -/
def hello : QueueMessage :=
  received (inboundEntry "whatsapp" "org" "connection" (whatsappText "4915" "wamid.1" "Hi"))

theorem own_sharedDb (externalMessageId : String) :
    inboxDb.own "org" = (sharedDb externalMessageId).own "org" := by
  have hrows : [foreignMessage externalMessageId].filter (fun m => m.orgId == "org") = [] := rfl
  simp only [Db.own, sharedDb]
  refine congrArg (Db.mk _ _ _ · _ _) (Table.ext ?_)
  exact hrows.symm

/-- A row of another org with another name makes no difference. -/
theorem own_rows_hello : SameForOrg whatsappRegistry "org" hello inboxWorld.core
    (exec Call.answer (processInboundMessage whatsappRegistry hello) calm
      { inboxWorld with db := inboxDb })
    (exec Call.answer (processInboundMessage whatsappRegistry hello) calm
      { inboxWorld with db := sharedDb "wamid.2" }) := by
  refine (own_rows_iff whatsappRegistry "org" hello rfl inboxWorld inboxDb (sharedDb "wamid.2")
    (own_sharedDb _) calm (by decide +kernel) (by decide +kernel)).1 ⟨?_, ?_⟩
  · rintro ⟨channelType, normalized, _, _, item, _, hclaimed⟩
    exact hclaimed nofun
  · rintro ⟨channelType, normalized, hchannel, ⟨_, _, _, hchannel', hadapter, hraw, hnormalize⟩, item,
      hitem, hclaimed⟩
    refine hclaimed fun m hm _ hnamed => ?_
    obtain rfl : m = foreignMessage "wamid.2" := List.mem_singleton.mp hm
    have hnames : (whatsappNormalizeInbound (whatsappText "4915" "wamid.1" "Hi")).map
        (List.map (·.externalMessageId)) = .ok ["wamid.1"] := by decide +kernel
    cases hchannel'
    cases hadapter
    cases hraw
    rw [show whatsappNormalizeInbound (whatsappText "4915" "wamid.1" "Hi") = .ok normalized from
      hnormalize] at hnames
    have hname := List.mem_map_of_mem (f := (·.externalMessageId)) hitem
    rw [Except.ok.inj hnames, ← hnamed.2] at hname
    exact absurd hname (by decide)

/-- A message is dropped where another org holds a message with its name. -/
theorem not_own_rows : ¬∀ (registry : Registry) (orgId : String) (msg : QueueMessage),
    getItem msg.attributes "org_id" = .ok orgId → ∀ (w : World) (db₁ db₂ : Db),
      db₁.own orgId = db₂.own orgId → ∀ o : Oracle Choice,
        Along Call.answer Faithful (processInboundMessage registry msg) o { w with db := db₁ } →
        Along Call.answer Faithful (processInboundMessage registry msg) o { w with db := db₂ } →
          SameForOrg registry orgId msg w.core
            (exec Call.answer (processInboundMessage registry msg) o { w with db := db₁ })
            (exec Call.answer (processInboundMessage registry msg) o { w with db := db₂ }) := by
  intro h
  have hrows := (h whatsappRegistry "org" hello rfl inboxWorld inboxDb (sharedDb "wamid.1")
    (own_sharedDb _) calm (by decide +kernel) (by decide +kernel)).rows
  have hmessages := congrArg (fun db => db.messages.rows.length) hrows
  revert hmessages
  decide +kernel

end A2ZCore.Omnichannel
