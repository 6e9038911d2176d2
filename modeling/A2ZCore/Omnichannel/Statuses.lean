import A2ZCore.Lib.Pool
import A2ZCore.Omnichannel.Effects

/-!
# Which statuses a message can have

A message that came in is `received`; one that goes out is `queued`, then on the ladder, or `failed`.
Everything that writes messages keeps to that but one: a delivery update looks its message up by the
provider's id, whichever way the message went, and writes the status it carries.

`wellMarked_run` says that every state is well marked that requests in any interleaving reach, where
no delivery update finds a message that came in.

## Main definitions

* `Message.WellMarked`, `WellMarked` — a message whose status belongs to its direction
* `Addressed` — no delivery update finds a message that came in
* `Request`, `requests` — what the service is asked to do, any number of times side by side

## Main results

* `wellMarked_run`
-/

namespace A2ZCore.Omnichannel

open Interaction Interaction.Proc Interaction.Contract Messaging Relational

/-- The values of `MessageStatus` for a message that goes out. -/
def outboundStatuses : List String := ["queued", "sent", "delivered", "read", "failed"]

/-- The status of a message belongs to its direction. -/
def Message.WellMarked (m : Message) : Prop :=
  match m.direction with
  | .inbound => m.status = "received"
  | .outbound => m.status ∈ outboundStatuses

/-- The message with an id goes out. -/
def Db.Outbound (db : Db) (id : String) : Prop :=
  ∃ m ∈ db.messages.rows, m.id = id ∧ m.direction = .outbound

/-- Every message is well marked, and the entries for the outbound worker name messages that go
out. -/
structure WellMarked (w : World) : Prop where
  rows : ∀ m ∈ w.db.messages.rows, m.WellMarked
  entries : ∀ body ∈ (w.queues .outbound).map Entry.body, ∀ id, Names body.body id → w.db.Outbound id

/-- The messages that a delivery update is looked up among go out. -/
def Addressed : Call → Choice → World → Prop
  | .selectByExternalId orgId channelType externalMessageId, _, w =>
    ∀ m ∈ w.db.messages.rows, m.orgId = orgId → m.channelType = channelType →
      m.externalMessageId = externalMessageId → m.direction = .outbound
  | _, _, _ => True

instance (m : Message) : Decidable m.WellMarked := by
  unfold Message.WellMarked
  cases m.direction <;> exact inferInstance

instance (db : Db) (id : String) : Decidable (db.Outbound id) :=
  inferInstanceAs (Decidable (∃ m ∈ db.messages.rows, m.id = id ∧ m.direction = .outbound))

instance (c : Call) (x : Choice) (w : World) : Decidable (Addressed c x w) := by
  apply Call.casesOn (motive := fun c => Decidable (Addressed c x w)) c
  case selectByExternalId =>
    intro orgId channelType externalMessageId
    exact inferInstanceAs (Decidable (∀ m ∈ w.db.messages.rows, m.orgId = orgId →
      m.channelType = channelType → m.externalMessageId = externalMessageId →
        m.direction = .outbound))
  all_goals intros; exact .isTrue trivial

/-- What a request leaves as it should be. -/
structure Marked (w w' : World) : Prop where
  outbound : ∀ id, w.db.Outbound id → w'.db.Outbound id
  wellMarked : WellMarked w → WellMarked w'

theorem Marked.refl (w : World) : Marked w w := ⟨fun _ h => h, fun h => h⟩

theorem Marked.trans {u v w : World} (h : Marked u v) (h' : Marked v w) : Marked u w :=
  ⟨fun id hid => h'.outbound id (h.outbound id hid), fun hu => h'.wellMarked (h.wellMarked hu)⟩

/-- The setting of a request. -/
def marking : Contract Call Call.Resp PyErr Choice World where
  answer := Call.answer
  rely := Marked
  admits := Addressed
  guar _ _ := Marked
  rely_refl := .refl
  rely_trans h h' := h.trans h'

/-! ### Writes -/

/-- A new message is well marked, and only messages with one of the ids are updated, to a status of a
message that goes out. -/
def Write.Marks (ids : String → Prop) : Write → Prop
  | .insertMessage message => message.WellMarked
  | .updateMessage _ current => ids current.id ∧ current.status ∈ outboundStatuses
  | _ => True

/-- What a call commits, and whom it enqueues. -/
def Call.Marks (ids : String → Prop) : Call → Prop
  | .commit writes => ∀ write ∈ writes, write.Marks ids
  | .sendMessage .outbound entry => ∀ id, Names entry.body id → ids id
  | .selectByExternalId _ _ _ => False
  | _ => True

section Writes

variable {ids : String → Prop} {now : DateTime} {db db' : Db}

theorem outbound_apply {write : Write} (h : write.apply now db = .ok db') {id : String}
    (hid : db.Outbound id) : db'.Outbound id := by
  obtain ⟨m, hm, rfl, hdirection⟩ := hid
  rw [Db.Outbound, (Write.rows_apply h).2.2]
  cases write with
  | insertMessage message => exact ⟨m, List.mem_append_left _ hm, rfl, hdirection⟩
  | updateMessage loaded current =>
    refine ⟨_, List.mem_map_of_mem hm, ?_⟩
    split
    · exact ⟨rfl, hdirection⟩
    · exact ⟨rfl, hdirection⟩
  | _ => exact ⟨m, hm, rfl, hdirection⟩

/-- A message that goes out keeps a status of one. -/
theorem Message.wellMarked_patch {loaded current row : Message} (hrow : row.WellMarked)
    (hdirection : row.direction = .outbound) (hstatus : current.status ∈ outboundStatuses) :
    (Message.patch loaded current row).WellMarked := by
  unfold Message.WellMarked at hrow ⊢
  rw [hdirection] at hrow
  rw [show (Message.patch loaded current row).direction = .outbound from hdirection]
  show column loaded.status current.status row.status ∈ outboundStatuses
  unfold column
  split
  · exact hrow
  · exact hstatus

theorem wellMarked_apply {write : Write} (hwrite : write.Marks ids)
    (hids : ∀ id, ids id → db.Outbound id) (h : write.apply now db = .ok db')
    (hrows : ∀ m ∈ db.messages.rows, m.WellMarked) : ∀ m ∈ db'.messages.rows, m.WellMarked := by
  rw [(Write.rows_apply h).2.2]
  cases write with
  | insertMessage message =>
    intro m hm
    rcases List.mem_append.mp hm with hold | hnew
    · exact hrows m hold
    · obtain rfl := List.mem_singleton.mp hnew
      exact hwrite
  | updateMessage loaded current =>
    intro m hm
    obtain ⟨row, hrow, rfl⟩ := List.mem_map.mp hm
    split
    · next hid =>
      obtain ⟨row', hrow', hid', hdirection⟩ := hids _ hwrite.1
      -- the row with the id is the one that goes out
      have hsame := Db.message_of_mem hrow'
      rw [hid', ← hid, Db.message_of_mem hrow] at hsame
      cases hsame
      exact Message.wellMarked_patch (hrows row hrow) hdirection hwrite.2
    · exact hrows row hrow
  | _ => exact hrows

/-- A transaction. -/
theorem marked_apply {writes : List Write} (hwrites : ∀ write ∈ writes, write.Marks ids)
    (hids : ∀ id, ids id → db.Outbound id) (h : db.apply now writes = .ok db') :
    (∀ id, db.Outbound id → db'.Outbound id) ∧
      ((∀ m ∈ db.messages.rows, m.WellMarked) → ∀ m ∈ db'.messages.rows, m.WellMarked) := by
  induction writes generalizing db with
  | nil => cases h; exact ⟨fun _ h => h, fun h => h⟩
  | cons write writes ih =>
    obtain ⟨db₁, h₁, h₂⟩ := Db.apply_cons.mp h
    obtain ⟨houtbound, hrows⟩ := ih (fun write hwrite => hwrites write (List.mem_cons_of_mem _ hwrite))
      (fun id hid => outbound_apply h₁ (hids id hid)) h₂
    refine ⟨fun id hid => houtbound id (outbound_apply h₁ hid), fun hwell => hrows ?_⟩
    exact wellMarked_apply (hwrites write List.mem_cons_self) hids h₁ hwell

end Writes

/-! ### Calls -/

theorem marked_of_same {w w' : World} (hdb : w'.db = w.db)
    (hqueue : (w'.queues .outbound).map Entry.body = (w.queues .outbound).map Entry.body) :
    Marked w w' := by
  refine ⟨fun id hid => by rwa [hdb], fun hw => ⟨by rw [hdb]; exact hw.rows, ?_⟩⟩
  rw [hdb, hqueue]
  exact hw.entries

/-- A call that marks only messages that go out. -/
theorem marked_answer {ids : String → Prop} {c : Call} (hc : c.Marks ids) (x : Choice) {w : World}
    (hids : ∀ id, ids id → w.db.Outbound id) : Marked w (c.answer x w).2 := by
  rcases c.writes_of_answer x w with h | h
  · rw [h]
    exact .refl w
  · generalize (c.answer x w).2 = w' at h ⊢
    cases h with
    | core | queueUrl | sendOutbound => exact marked_of_same rfl rfl
    | commit writes now db hdb =>
      obtain ⟨houtbound, hrows⟩ := marked_apply hc hids hdb
      exact ⟨houtbound, fun hw => ⟨hrows hw.rows, fun body hbody id hid =>
        houtbound id (hw.entries body hbody id hid)⟩⟩
    | sendMessage name entry =>
      cases name with
      | inbound => exact marked_of_same rfl rfl
      | outbound =>
        refine ⟨fun _ h => h, fun hw => ⟨hw.rows, fun body hbody id hid => ?_⟩⟩
        have hbody' : body ∈ (w.queues .outbound).map Entry.body ++ [entry] := by
          simpa [Queue.send] using hbody
        rcases List.mem_append.mp hbody' with hold | hnew
        · exact hw.entries body hold id hid
        · obtain rfl := List.mem_singleton.mp hnew
          exact hids id (hc id hid)
    | receiveMessage name maxMessages picks =>
      cases name with
      | inbound => exact marked_of_same rfl rfl
      | outbound =>
        exact marked_of_same rfl (Queue.map_body_receive _ _ _)
    | deleteMessage name receiptHandle =>
      cases name with
      | inbound => exact marked_of_same rfl rfl
      | outbound =>
        exact marked_of_same rfl (Queue.map_body_delete _ _)

/-- A program that marks only messages that go out. -/
theorem marking_calls (ids : String → Prop) {α : Type} {p : Prog α} {w : World}
    (hp : p.Calls (Call.Marks ids)) (hids : ∀ id, ids id → w.db.Outbound id) :
    marking.wp p w fun _ w' => Marked w w' := by
  refine wp_mono (fun r w' h => h.2) (wp_and_rely (K := marking) (fun _ _ _ _ h => h)
    (wp_of_stable (J := fun w => ∀ id, ids id → w.db.Outbound id) (fun _ _ hrely h id hid =>
      Marked.outbound hrely id (h id hid)) (fun c hc x v hv _ => ?_) hp hids))
  have hmarked : Marked v (c.answer x v).2 := marked_answer hc x hv
  exact ⟨hmarked, fun id hid => hmarked.outbound id (hv id hid)⟩

/-- A program that marks no message, with what it returns. -/
theorem marking_returns {α : Type} {V : α → Prop} {p : Prog α} {w : World}
    (hp : p.Calls (Call.Marks fun _ => False)) (hv : p.Returns V) :
    marking.wp p w fun r w' => Marked w w' ∧ ∀ a, r = .ok a → V a := by
  refine wp_of_calls (fun c hc x v _ => ?_) hp hv (fun a w' h ha => ⟨h, fun b hb => ?_⟩)
    fun e w' h => ⟨h, nofun⟩
  · have hmarked : Marked v (c.answer x v).2 := marked_answer hc x nofun
    exact ⟨hmarked, hmarked⟩
  · cases hb
    exact ha

/-- A program that marks no message. -/
theorem marking_plain {α : Type} {p : Prog α} (hp : p.Calls (Call.Marks fun _ => False)) :
    marking.Preserves WellMarked p := fun _ hw =>
  wp_mono (fun _ _ h => h.wellMarked hw) (marking_calls _ hp nofun)

/-! ### Messages that come in -/

section Inbound

variable {ids : String → Prop}

theorem calls_marks_core {α : Type} (p : Core.Prog α) : (core p).Calls (Call.Marks ids) :=
  calls_core p fun _ => trivial

theorem marks_append {writes writes' : List Write} (h : ∀ write ∈ writes, write.Marks ids)
    (h' : ∀ write ∈ writes', write.Marks ids) : ∀ write ∈ writes ++ writes', write.Marks ids := by
  intro write hwrite
  rcases List.mem_append.mp hwrite with hmem | hmem
  · exact h write hmem
  · exact h' write hmem

variable (ids) in
theorem findOrCreateIdentity_marks (orgId channelType externalId : String)
    (displayName : Option String) :
    (findOrCreateIdentity orgId channelType externalId displayName).Calls (Call.Marks ids) ∧
      (findOrCreateIdentity orgId channelType externalId displayName).Returns fun r =>
        ∀ write ∈ r.2, write.Marks ids := by
  constructor
  · refine (Calls.perform trivial).bind fun found => ?_
    cases found with
    | some identity => trivial
    | none =>
      refine Calls.bind (calls_marks_core _) fun id => ?_
      exact Calls.bind (Calls.perform trivial) fun _ => trivial
  · refine Returns.bind (returns_true _) fun found _ => ?_
    cases found with
    | some identity => exact fun write hwrite => absurd hwrite List.not_mem_nil
    | none =>
      refine Returns.bind (returns_true _) fun id _ => ?_
      refine Returns.bind (returns_true _) fun _ _ write hwrite => ?_
      obtain rfl := List.mem_singleton.mp hwrite
      trivial

theorem findOrCreateConversation_marks (held : Option Conversation) {pending : List Write}
    (hpending : ∀ write ∈ pending, write.Marks ids) (orgId identityId : String) :
    (findOrCreateConversation held pending orgId identityId).Calls (Call.Marks ids) ∧
      (findOrCreateConversation held pending orgId identityId).Returns fun r =>
        ∀ write ∈ r.2.2, write.Marks ids := by
  constructor
  · refine (Calls.perform trivial).bind fun found => ?_
    cases found with
    | some conversation => trivial
    | none =>
      refine Calls.bind (calls_marks_core _) fun id => ?_
      exact Calls.bind (Calls.perform trivial) fun _ => trivial
  · refine Returns.bind (returns_true _) fun found _ => ?_
    cases found with
    | some conversation => exact hpending
    | none =>
      refine Returns.bind (returns_true _) fun id _ => ?_
      refine Returns.bind (returns_true _) fun _ _ => ?_
      refine marks_append hpending fun write hwrite => ?_
      obtain rfl := List.mem_singleton.mp hwrite
      trivial

theorem calls_marks_uploadAttachments (orgId messageId : String) (atts : List InboundAttachment) :
    (uploadAttachments orgId messageId atts).Calls (Call.Marks ids) := by
  induction atts with
  | nil => trivial
  | cons att atts ih => exact Calls.bind (calls_marks_core _) fun _ => ih.bind fun _ => trivial

variable (ids) in
theorem addAttachments_marks (attachments : List MessageAttachment) :
    (addAttachments attachments).Calls (Call.Marks ids) ∧
      (addAttachments attachments).Returns fun writes => ∀ write ∈ writes, write.Marks ids := by
  induction attachments with
  | nil => exact ⟨trivial, fun write hwrite => absurd hwrite List.not_mem_nil⟩
  | cons attachment attachments ih =>
    constructor
    · exact Calls.bind (calls_marks_core _) fun _ => ih.1.bind fun _ => trivial
    · refine Returns.bind (returns_true _) fun id _ => ih.2.bind fun rest hrest write hwrite => ?_
      rcases List.mem_cons.mp hwrite with rfl | hwrite
      · trivial
      · exact hrest write hwrite

theorem calls_marks_recordAssignment (conversation : Conversation)
    (assignedUserId assignedBy reason : String) :
    (recordAssignment conversation assignedUserId assignedBy reason).Calls (Call.Marks ids) := by
  refine Calls.bind (calls_marks_core _) fun id => ?_
  refine Calls.bind (Calls.perform fun write hwrite => ?_) fun _ =>
    Calls.bind (calls_marks_core _) fun _ => trivial
  rcases List.mem_pair.mp hwrite with rfl | rfl <;> trivial

theorem calls_marks_applySingleAssigneeIfConfigured (conversation : Conversation) :
    (applySingleAssigneeIfConfigured conversation).Calls (Call.Marks ids) := by
  refine Calls.bind (calls_marks_core _) fun orgSettings => ?_
  refine Calls.bind (Calls.ofExcept _) fun user => ?_
  split
  · trivial
  · exact calls_marks_recordAssignment _ _ _ _
  · trivial

theorem calls_marks_storeMessage (orgId channelType : String) (conversation : Conversation)
    (isNew : Bool) {pending : List Write} (hpending : ∀ write ∈ pending, write.Marks ids)
    (messageId : String) (item : NormalizedInboundMessage) :
    (storeMessage orgId channelType conversation isNew pending messageId item).Calls
      (Call.Marks ids) := by
  refine Calls.bind (calls_marks_uploadAttachments _ _ _) fun uploaded => ?_
  refine Calls.bind (calls_marks_core _) fun now => ?_
  obtain ⟨hcalls, hreturns⟩ := addAttachments_marks ids uploaded
  refine hcalls.bind_of_returns hreturns fun attachments hattachments => ?_
  refine Calls.bind (Calls.perform ?_) fun _ => ?_
  · refine marks_append (marks_append hpending fun write hwrite => ?_) hattachments
    obtain rfl := List.mem_singleton.mp hwrite
    trivial
  · have hrest : ∀ routed, ((core (announceMessage orgId channelType routed messageId)).bind fun _ =>
        .ret routed).Calls (Call.Marks ids) := fun routed =>
      Calls.bind (calls_marks_core _) fun _ => trivial
    split
    · exact Calls.bind (calls_marks_applySingleAssigneeIfConfigured _) hrest
    · exact hrest _

/-- A message that comes in is stored as received. -/
theorem calls_marks_processInboundItem (orgId channelType : String) (held : Option Conversation)
    (item : NormalizedInboundMessage) :
    (processInboundItem orgId channelType held item).Calls (Call.Marks ids) := by
  obtain ⟨hcalls, hreturns⟩ :=
    findOrCreateIdentity_marks ids orgId channelType item.externalId item.displayName
  refine hcalls.bind_of_returns hreturns fun r hr => ?_
  obtain ⟨hcalls', hreturns'⟩ := findOrCreateConversation_marks held hr orgId r.1.id
  refine hcalls'.bind_of_returns hreturns' fun s hs => ?_
  refine Calls.bind (calls_marks_core _) fun messageId => ?_
  have hpending : ∀ write ∈ s.2.2 ++
      [.insertMessage (inboundMessage messageId orgId channelType s.1.id item)],
      write.Marks ids := by
    refine marks_append hs fun write hwrite => ?_
    obtain rfl := List.mem_singleton.mp hwrite
    exact rfl
  refine Calls.bind (Calls.handle (Calls.bind (Calls.perform trivial) fun _ => trivial) fun exc => ?_)
    fun flushed => ?_
  · split
    · exact Calls.bind (Calls.perform trivial) fun _ => trivial
    · trivial
  · cases flushed with
    | false => trivial
    | true => exact Calls.bind (calls_marks_storeMessage _ _ _ _ hpending _ _) fun _ => trivial

end Inbound

/-- The statuses that are on the ladder, and `failed`, are those of a message that goes out. -/
theorem mem_outboundStatuses_of_advances {current update : String}
    (h : advances current update = true) : update ∈ outboundStatuses := by
  rw [advances, Bool.or_eq_true, beq_iff_eq, decide_eq_true_iff] at h
  rcases h with rfl | hrank
  · decide
  · have hcurrent : -1 ≤ statusRank current := by
      unfold statusRank
      split <;> decide
    have hupdate : -1 < statusRank update := lt_of_le_of_lt hcurrent hrank
    revert hupdate
    unfold statusRank
    split
    case h_5 => exact fun h => absurd h (lt_irrefl _)
    all_goals decide

/-- A delivery update, where the messages that it is looked up among go out. -/
theorem marking_applyDeliveryStatus (orgId channelType : String) (update : DeliveryStatusUpdate) :
    marking.Preserves WellMarked (applyDeliveryStatus orgId channelType update) := by
  intro w hw
  refine wp_bind (wp_perform fun v hv x hx => ?_)
  have hrows : (Call.selectByExternalId orgId channelType update.externalMessageId).answer x v =
      x.fate.query (scalarOneOrNone (v.db.messages.rows.filter fun m => m.orgId == orgId &&
        m.channelType == channelType && m.externalMessageId == update.externalMessageId)) v := rfl
  have hstays : ((Call.selectByExternalId orgId channelType update.externalMessageId).answer x v).2 =
      v := Core.Fate.snd_query _ _ _
  have hwv : WellMarked v := Marked.wellMarked hv hw
  refine ⟨?_, ?_⟩
  · show Marked v ((Call.selectByExternalId orgId channelType update.externalMessageId).answer x v).2
    rw [hstays]
    exact .refl v
  show marking.next _ _
    ((Call.selectByExternalId orgId channelType update.externalMessageId).answer x v).1
    ((Call.selectByExternalId orgId channelType update.externalMessageId).answer x v).2
  rw [hstays]
  cases hr : ((Call.selectByExternalId orgId channelType update.externalMessageId).answer x v).1 with
  | error e => exact hwv
  | ok found =>
    cases found with
    | none => exact hwv
    | some message =>
      rw [hrows] at hr
      have hmem := List.mem_filter.mp (mem_of_scalarOneOrNone (Core.Fate.eq_of_query hr))
      simp only [Bool.and_eq_true, beq_iff_eq] at hmem
      have hdirection : message.direction = .outbound :=
        hx message hmem.1 hmem.2.1.1 hmem.2.1.2 hmem.2.2
      have houtbound : ∀ id, id = message.id → v.db.Outbound id := by
        rintro id rfl
        exact ⟨message, hmem.1, rfl, hdirection⟩
      refine wp_mono (fun _ _ h => h.wellMarked hwv)
        (marking_calls (· = message.id) ?_ houtbound)
      show Calls _ (if advances message.status update.status then _ else _)
      split
      · next hadvances =>
        refine Calls.bind (Calls.perform fun write hwrite => ?_) fun _ => calls_marks_core _
        obtain rfl := List.mem_singleton.mp hwrite
        exact ⟨rfl, mem_outboundStatuses_of_advances hadvances⟩
      · trivial

variable {registry : Registry}

/-- One entry of the inbound queue. -/
theorem marking_processInboundMessage (msg : QueueMessage) :
    marking.Preserves WellMarked (processInboundMessage registry msg) := by
  refine Preserves.ofExcept_bind fun orgId _ => Preserves.ofExcept_bind fun channelType _ => ?_
  refine Preserves.ofExcept_bind fun adapter _ => Preserves.ofExcept_bind fun rawPayload _ => ?_
  refine Preserves.bind (marking_plain (Calls.perform trivial)) fun normalized => ?_
  refine Preserves.bind (Preserves.forEach (fun held item =>
    marking_plain (calls_marks_processInboundItem orgId channelType held item)) _ _) fun _ => ?_
  refine Preserves.ofExcept_bind fun updates _ => ?_
  exact Preserves.forEach (fun _ update => marking_applyDeliveryStatus orgId channelType update) _ _

theorem marking_processInboundBatch (maxMessages : ℕ) :
    marking.Preserves WellMarked (processInboundBatch registry maxMessages) := by
  have hreceive : (receive .inbound maxMessages).Calls (Call.Marks fun _ => False) :=
    Calls.bind (Calls.perform trivial) fun _ => Calls.perform trivial
  have hdelete : ∀ handle, (delete .inbound handle).Calls (Call.Marks fun _ => False) := fun _ =>
    Calls.bind (Calls.perform trivial) fun _ => Calls.perform trivial
  refine Preserves.bind (marking_plain hreceive) fun messages => ?_
  refine Preserves.bind (Preserves.forEach (fun _ msg => ?_) _ _) fun _ => fun w hw => hw
  exact (marking_processInboundMessage msg).bind fun _ => marking_plain (hdelete _)

/-! ### Messages that go out -/

section Outbound

variable {message : Message}

theorem calls_marks_sendFailed (receiveCount : ℕ) (exc : PyErr) :
    (sendFailed message receiveCount exc).Calls (Call.Marks (· = message.id)) := by
  unfold sendFailed
  split
  case h_2 => trivial
  refine Calls.bind (Calls.perform trivial) fun _ => Calls.bind ?_ fun _ => trivial
  by_cases hcount : sqsMaxReceiveCount ≤ receiveCount
  · rw [markFailed_of_le hcount]
    refine Calls.perform fun write hwrite => ?_
    obtain rfl := List.mem_singleton.mp hwrite
    have hfailed : "failed" ∈ outboundStatuses := by decide
    exact ⟨rfl, hfailed⟩
  · rw [markFailed_of_lt (Nat.lt_of_not_le hcount)]
    trivial

theorem calls_marks_sendQueued (identity : ChannelIdentity) (connection : ChannelConnection)
    (receiveCount : ℕ) : (sendQueued registry message identity connection receiveCount).Calls
      (Call.Marks (· = message.id)) := by
  refine Calls.bind (Calls.ofExcept _) fun adapter => ?_
  have hcredentials : (resolveCredentials adapter message connection).Calls
      (Call.Marks (· = message.id)) := by
    unfold resolveCredentials
    split
    · exact Calls.bind (calls_marks_core _) fun _ => Calls.ofExcept _
    · trivial
  refine Calls.bind hcredentials fun credentials => ?_
  refine Calls.bind (Calls.handle (Calls.bind (Calls.perform trivial) fun _ => trivial)
    fun exc => calls_marks_sendFailed receiveCount exc) fun sent => ?_
  cases sent with
  | none => trivial
  | some externalId =>
    refine Calls.bind (Calls.perform fun write hwrite => ?_) fun _ =>
      Calls.bind (calls_marks_core _) fun _ => trivial
    obtain rfl := List.mem_singleton.mp hwrite
    have hsent : "sent" ∈ outboundStatuses := by decide
    exact ⟨rfl, hsent⟩

/-- What follows once the message of an entry is loaded. -/
theorem calls_marks_found {f : Option ChannelIdentity →
    Option ChannelConnection → Prog Bool} (hf : ∀ identity connection,
      (f identity connection).Calls (Call.Marks (· = message.id))) :
    ((run (.getConversation message.conversationId)).bind fun conversation =>
      (customerIdentity conversation).bind fun identity =>
        (findConnection message.orgId message.channelType).bind fun connection =>
          f identity connection).Calls (Call.Marks (· = message.id)) := by
  refine Calls.bind (Calls.perform trivial) fun conversation => Calls.bind ?_ fun identity => ?_
  · cases conversation with
    | none => trivial
    | some conversation => exact Calls.perform trivial
  · exact Calls.bind (Calls.bind (Calls.perform trivial) fun _ => trivial) fun connection =>
      hf identity connection

end Outbound

/-- One entry of the outbound queue, whose message goes out. -/
theorem marking_processOutboundMessage (msg : QueueMessage) {w : World}
    (hmsg : ∀ id, Names msg.body id → w.db.Outbound id) :
    marking.wp (processOutboundMessage registry msg) w fun _ w' => Marked w w' := by
  unfold processOutboundMessage
  cases hid : getItem msg.body "message_id" >>= primaryKey with
  | error e => exact Marked.refl w
  | ok id =>
    show marking.wp ((run (.getMessage id)).bind _) w _
    refine wp_bind (wp_perform fun v hv x _ => ?_)
    have hstays : ((Call.getMessage id).answer x v).2 = v := Core.Fate.snd_query _ _ _
    refine ⟨?_, ?_⟩
    · show Marked v ((Call.getMessage id).answer x v).2
      rw [hstays]
      exact .refl v
    show marking.next _ _ ((Call.getMessage id).answer x v).1 ((Call.getMessage id).answer x v).2
    rw [hstays]
    cases hr : ((Call.getMessage id).answer x v).1 with
    | error e => exact hv
    | ok found =>
      have hfound : v.db.message id = found := Except.ok.inj (Core.Fate.eq_of_query hr)
      cases found with
      | none =>
        refine wp_mono (fun _ _ h => Marked.trans hv h) (marking_calls (fun _ => False) ?_ nofun)
        exact Calls.bind (Calls.perform trivial) fun _ => trivial
      | some message =>
        obtain rfl := (Db.mem_of_message hfound).2
        have houtbound : ∀ id, id = message.id → v.db.Outbound id := by
          rintro id rfl
          exact Marked.outbound hv _ (hmsg _ hid)
        refine wp_mono (fun _ _ h => Marked.trans hv h)
          (marking_calls (· = message.id) (calls_marks_found fun identity connection => ?_)
            houtbound)
        split
        · exact calls_marks_sendQueued _ _ _
        · exact Calls.bind (Calls.perform trivial) fun _ => trivial

/-- What the outbound worker receives names messages that go out. -/
theorem marking_receive (maxMessages : ℕ) {w : World} (hw : WellMarked w) :
    marking.wp (receive .outbound maxMessages) w fun r w' => WellMarked w' ∧ ∀ messages,
      r = .ok messages → ∀ msg ∈ messages, ∀ id, Names msg.body id → w'.db.Outbound id := by
  have hqueueUrl : (run (.queueUrl .outbound)).Calls (Call.Marks fun _ => False) :=
    Calls.perform trivial
  refine wp_bind (wp_mono (fun r w₁ h => ?_) (marking_calls _ hqueueUrl nofun))
  cases r with
  | error e => exact ⟨h.wellMarked hw, nofun⟩
  | ok _ =>
    refine wp_perform fun v hv x _ => ?_
    have hreceives : Call.Marks (fun _ => False) (.receiveMessage .outbound maxMessages) := trivial
    have hmarked : Marked v ((Call.receiveMessage .outbound maxMessages).answer x v).2 :=
      marked_answer hreceives x nofun
    have hwv : WellMarked v := Marked.wellMarked hv (h.wellMarked hw)
    refine ⟨hmarked, hmarked.wellMarked hwv, fun messages hmessages msg hmsg id hid => ?_⟩
    refine hmarked.outbound id ?_
    rcases receiveMessage_cases .outbound maxMessages x v with ⟨e, he⟩ | ⟨picks, _, hreceived⟩
    · have herror := congrArg Prod.fst he
      rw [show ((Call.receiveMessage .outbound maxMessages).answer x v).1 = .ok messages from
        hmessages] at herror
      cases herror
    · rw [hreceived messages hmessages] at hmsg
      obtain ⟨d, hd, rfl⟩ := List.mem_map.mp hmsg
      exact hwv.entries d.body (Queue.mem_map_body_of_receive hd) id hid

theorem marking_processOutboundBatch (maxMessages : ℕ) :
    marking.Preserves WellMarked (processOutboundBatch registry maxMessages) := by
  intro w hw
  refine wp_bind (wp_mono (fun r w₁ h => ?_) (marking_receive maxMessages hw))
  cases r with
  | error e => exact h.1
  | ok messages =>
    refine wp_forEach (fun rest _ w' => WellMarked w' ∧ ∀ msg ∈ rest, ∀ id, Names msg.body id →
      w'.db.Outbound id) (fun _ _ h => h.1) ?_ ⟨h.1, h.2 messages rfl⟩
    rintro msg rest processed w₂ ⟨hw₂, hrest⟩
    refine wp_bind (wp_mono (fun r w₃ h₃ => ?_)
      (marking_processOutboundMessage msg (hrest msg List.mem_cons_self)))
    have hafter : ∀ msg ∈ rest, ∀ id, Names msg.body id → w₃.db.Outbound id := fun m hm id hid =>
      h₃.outbound id (hrest m (List.mem_cons_of_mem _ hm) id hid)
    cases r with
    | error e => exact h₃.wellMarked hw₂
    | ok resolved =>
      cases resolved with
      | false => exact ⟨h₃.wellMarked hw₂, hafter⟩
      | true =>
        have hdelete : (delete .outbound msg.receiptHandle).Calls (Call.Marks fun _ => False) :=
          Calls.bind (Calls.perform trivial) fun _ => Calls.perform trivial
        refine wp_bind (wp_mono (fun r w₄ h₄ => ?_) (marking_calls _ hdelete nofun))
        cases r with
        | error e => exact h₄.wellMarked (h₃.wellMarked hw₂)
        | ok _ =>
          exact ⟨h₄.wellMarked (h₃.wellMarked hw₂), fun m hm id hid =>
            h₄.outbound id (hafter m hm id hid)⟩

/-! ### Replies -/

/-- The commit of a reply: where it stands, its message goes out. -/
theorem marking_commitReply {message : Message} (hmessage : message.WellMarked)
    (hdirection : message.direction = .outbound) (w : World) :
    marking.wp (commitReply message) w fun r w' =>
      Marked w w' ∧ (r = .ok none → w'.db.Outbound message.id) := by
  have hmarks : Call.Marks (fun _ => False) (.commit [.insertMessage message]) := fun write hwrite => by
    obtain rfl := List.mem_singleton.mp hwrite
    exact hmessage
  refine wp_handle (wp_bind (wp_perform fun v hv x _ => ?_))
  have hmarked : Marked v ((Call.commit [.insertMessage message]).answer x v).2 :=
    marked_answer hmarks x nofun
  refine ⟨hmarked, ?_⟩
  show marking.next _ _ ((Call.commit [.insertMessage message]).answer x v).1
    ((Call.commit [.insertMessage message]).answer x v).2
  have hafter : Marked w _ := Marked.trans hv hmarked
  cases hr : ((Call.commit [.insertMessage message]).answer x v).1 with
  | ok u =>
    refine ⟨hafter, fun _ => ?_⟩
    rcases commit_cases [.insertMessage message] x v with ⟨_, db, hdb, hw⟩ | ⟨_, _, e, he⟩
    · rw [hw, Db.Outbound, message_insert hdb]
      exact ⟨_, List.mem_append_right _ (List.mem_singleton.mpr rfl), rfl, hdirection⟩
    · rw [he] at hr
      cases hr
  | error exc =>
    show marking.wp _ ((Call.commit [.insertMessage message]).answer x v).2 _
    dsimp only
    split
    case h_2 => exact ⟨hafter, nofun⟩
    refine wp_mono (fun r w' h => ⟨hafter.trans h.1, fun hnone => absurd rfl (h.2 none hnone)⟩)
      (marking_returns (V := fun found => found ≠ none) ?_ ?_)
    · refine Calls.bind (Calls.perform trivial) fun _ => ?_
      split
      · trivial
      · refine Calls.bind (Calls.perform trivial) fun found => ?_
        cases found <;> trivial
    · refine Returns.bind (returns_true _) fun _ _ => ?_
      split
      · trivial
      · refine Returns.bind (returns_true _) fun found _ => ?_
        cases found with
        | none => trivial
        | some existing => exact fun h => nomatch h

/-- A reply's row, and its entry where the row is new. -/
theorem marking_storeReply {message : Message} (hmessage : message.WellMarked)
    (hdirection : message.direction = .outbound) (orgId : String) :
    marking.Preserves WellMarked ((commitReply message).bind fun
      | some existing => .ret (existing, false)
      | none => (enqueueOutbound orgId message.id).bind fun _ => .ret (message, true)) := by
  intro w hw
  refine wp_bind (wp_mono (fun r w₁ h => ?_) (marking_commitReply hmessage hdirection w))
  cases r with
  | error e => exact h.1.wellMarked hw
  | ok found =>
    cases found with
    | some existing => exact h.1.wellMarked hw
    | none =>
      have houtbound : ∀ id, id = message.id → w₁.db.Outbound id := by
        rintro id rfl
        exact h.2 rfl
      refine wp_mono (fun _ _ h₂ => h₂.wellMarked (h.1.wellMarked hw))
        (marking_calls (· = message.id) ?_ houtbound)
      refine Calls.bind (Calls.bind (Calls.perform trivial) fun _ => Calls.perform fun id hid => ?_)
        fun _ => trivial
      exact (Except.ok.inj hid).symm

theorem marking_sendReply (orgId conversationId userId bodyText : String)
    (clientDedupKey subject : Option String) :
    marking.Preserves WellMarked
      (sendReply orgId conversationId userId bodyText clientDedupKey subject) := by
  have hrole : (requireRole userId orgId nonViewerRoles
      "Viewers cannot send outbound messages").Calls (Call.Marks fun _ => False) := by
    refine Calls.bind (Calls.bind (calls_marks_core _) fun membership => ?_) fun membership => ?_
    · cases membership <;> trivial
    · split <;> trivial
  have hload : (loadConversation orgId conversationId).Calls (Call.Marks fun _ => False) := by
    refine Calls.bind (Calls.perform trivial) fun conversation => ?_
    cases conversation with
    | none => trivial
    | some conversation => dsimp only; split <;> trivial
  refine Preserves.bind (marking_plain hrole) fun _ => ?_
  refine Preserves.bind (marking_plain hload) fun conversation => ?_
  refine Preserves.bind (marking_plain (Calls.perform trivial)) fun identity => ?_
  cases identity with
  | none => exact fun w hw => hw
  | some identity =>
    have hreplayed : (findReplayed orgId conversationId clientDedupKey).Calls
        (Call.Marks fun _ => False) := by
      cases clientDedupKey with
      | none => trivial
      | some key => exact Calls.perform trivial
    refine Preserves.bind (marking_plain hreplayed) fun replayed => ?_
    cases replayed with
    | some existing => exact fun w hw => hw
    | none =>
      refine Preserves.bind (marking_plain (calls_marks_core _)) fun _ => ?_
      refine Preserves.bind (marking_plain (calls_marks_core _)) fun placeholder => ?_
      refine Preserves.bind (marking_plain (calls_marks_core _)) fun id => ?_
      have hqueued : "queued" ∈ outboundStatuses := by decide
      have hmessage : (outboundMessage id placeholder orgId conversationId
        (ChannelIdentity.channelType identity) userId bodyText clientDedupKey subject).WellMarked :=
        hqueued
      exact marking_storeReply hmessage rfl orgId

/-! ### The service -/

/-- What the service is asked to do: to send a reply, to accept a webhook's payload, to process a batch
of either queue, or to run the worker for a number of rounds. -/
inductive Request where
  | reply (orgId conversationId userId bodyText : String) (clientDedupKey subject : Option String)
  | webhook (channelType orgId connectionId : String) (rawPayload : Json)
  | inbound (maxMessages : ℕ)
  | outbound (maxMessages : ℕ)
  | worker (rounds : ℕ)

/-- What is done at a request. -/
def Request.program (registry : Registry) : Request → Prog Unit
  | .reply orgId conversationId userId bodyText clientDedupKey subject => do
    let _ ← sendReply orgId conversationId userId bodyText clientDedupKey subject
    return ()
  | .webhook channelType orgId connectionId rawPayload => do
    let _ ← enqueueInbound channelType orgId connectionId rawPayload
    return ()
  | .inbound maxMessages => do
    let _ ← processInboundBatch registry maxMessages
    return ()
  | .outbound maxMessages => do
    let _ ← processOutboundBatch registry maxMessages
    return ()
  | .worker rounds => runForever registry rounds

/-- Requests, none of which has begun. -/
def requests (registry : Registry) (rs : List Request) (w : World) :
    Pool Call Call.Resp PyErr Unit World where
  procs := rs.map (Request.program registry)
  world := w

theorem marking_runIteration {batch : Prog ℕ} (hbatch : marking.Preserves WellMarked batch)
    (label : String) : marking.Preserves WellMarked (runIteration batch label) := by
  refine hbatch.handle fun _ => marking_plain ?_
  exact Calls.bind (Calls.perform trivial) fun _ => trivial

theorem marking_request (r : Request) : marking.Preserves WellMarked (r.program registry) := by
  cases r with
  | reply => exact (marking_sendReply _ _ _ _ _ _).bind fun _ w hw => hw
  | webhook =>
    refine marking_plain (Calls.bind (Calls.bind (Calls.perform trivial) fun _ => ?_) fun _ => trivial)
    exact Calls.perform trivial
  | inbound maxMessages => exact (marking_processInboundBatch maxMessages).bind fun _ w hw => hw
  | outbound maxMessages => exact (marking_processOutboundBatch maxMessages).bind fun _ w hw => hw
  | worker rounds =>
    refine Preserves.forEach (fun _ _ => ?_) _ _
    refine (marking_runIteration (marking_processInboundBatch 10) "inbound").bind fun _ => ?_
    exact (marking_runIteration (marking_processOutboundBatch 10) "outbound").bind fun _ w hw => hw

/-- **Every message keeps to the statuses of its direction**, in every state that requests in any
interleaving reach in which no delivery update is looked up among messages that came in. -/
theorem wellMarked_run (registry : Registry) (rs : List Request) {w : World} (hstart : WellMarked w)
    (schedule : List (ℕ × Choice))
    (hrun : Pool.Along Call.answer Addressed (requests registry rs w) schedule) :
    WellMarked ((requests registry rs w).run Call.answer schedule).world := by
  have hprocs : ∀ p ∈ (requests registry rs w).procs, marking.wp p w fun _ _ => True := by
    intro p hp
    obtain ⟨r, _, rfl⟩ := List.mem_map.mp hp
    exact wp_mono (fun _ _ _ => trivial) (marking_request r w hstart)
  obtain ⟨hguar, _⟩ := Pool.run_wp (K := marking) (fun _ _ _ _ h => h) (fun _ _ _ _ _ => trivial)
    hprocs hrun
  exact Pool.run_invariant (J := WellMarked) (hguar.mono fun _ _ _ h => h.wellMarked) hstart

/-! ### A message that came in and is said to be delivered -/

theorem wellMarked_inboxWorld : WellMarked inboxWorld := 
  ⟨by decide, fun _ hbody => absurd hbody List.not_mem_nil⟩

/-- A webhook with a customer's message, and a status for some id. -/
def messageAndStatus (statusId : String) : Json :=
  .obj [("entry", .arr [.obj [("changes", .arr [.obj [("value", .obj [
    ("messages", .arr [.obj [("from", .str "4915"), ("id", .str "wamid.1"), ("type", .str "text"),
      ("text", .obj [("body", .str "Hi")])]]),
    ("statuses", .arr [.obj [("id", .str statusId), ("status", .str "delivered")]])])]])]])]

/-- A reply that the worker sends, and a message that comes in with the news that it is delivered. -/
def replyAndWork : List Request :=
  [.reply "org" "conversation" "ada" "Hello" (some "key") none, .worker 2,
    .webhook "whatsapp" "org" "connection" (messageAndStatus "wamid.t31"), .inbound 10]

/-- One after the other. -/
def inTurn : List (ℕ × Choice) :=
  calmly (List.replicate 20 0 ++ List.replicate 40 1 ++ List.replicate 2 2 ++ List.replicate 30 3)

/-- The reply is delivered, and the message that came in is received. -/
theorem wellMarked_replyAndWork :
    WellMarked ((requests whatsappRegistry replyAndWork inboxWorld).run Call.answer inTurn).world ∧
      ((requests whatsappRegistry replyAndWork inboxWorld).run Call.answer
        inTurn).world.db.messages.rows.map (fun m => (m.externalMessageId, m.status)) =
          [("wamid.t31", "delivered"), ("wamid.1", "received")] :=
  ⟨wellMarked_run whatsappRegistry replyAndWork wellMarked_inboxWorld inTurn (by decide +kernel),
    by decide +kernel⟩

/-- A message that came in can have a status of one that goes out. -/
theorem not_wellMarked_run : ¬∀ (registry : Registry) (rs : List Request) (w : World),
    WellMarked w → ∀ schedule : List (ℕ × Choice),
      ∀ m ∈ ((requests registry rs w).run Call.answer schedule).world.db.messages.rows,
        m.WellMarked := by
  intro h
  have hrun := h whatsappRegistry
    [.webhook "whatsapp" "org" "connection" (messageAndStatus "wamid.1"), .inbound 10]
    inboxWorld wellMarked_inboxWorld (calmly (List.replicate 2 0 ++ List.replicate 30 1))
  revert hrun
  decide +kernel

end A2ZCore.Omnichannel
