import A2ZCore.Omnichannel.Effects

/-!
# What the outbound worker does

What `_process_outbound_message` does to the database when nothing else writes to it meanwhile, said
once for every property of the worker's runs: it marks the message sent, or failed, or leaves it.

## Main definitions

* `Still` — the calls that touch neither the database nor a queue
* `Attempt` — the ways in which the processing of an entry can end

## Main results

* `wp_attempt` — `_process_outbound_message` ends in one of them
-/

namespace A2ZCore.Omnichannel

open Interaction Interaction.Proc Interaction.Contract Messaging Relational

/-- Nothing else writes to the database or to a queue. -/
structure Undisturbed (w w' : World) : Prop where
  db : w'.db = w.db
  queues : w'.queues = w.queues

theorem Undisturbed.refl (w : World) : Undisturbed w w := ⟨rfl, rfl⟩

theorem Undisturbed.trans {u v w : World} (h : Undisturbed u v) (h' : Undisturbed v w) :
    Undisturbed u w :=
  ⟨h'.db.trans h.db, h'.queues.trans h.queues⟩

/-- The call touches neither the database nor a queue. -/
def Call.Bystander : Call → Prop
  | .commit _ => False
  | .sendMessage _ _ => False
  | .receiveMessage _ _ => False
  | .deleteMessage _ _ => False
  | _ => True

theorem undisturbed_answer {c : Call} (hc : c.Bystander) (x : Choice) (w : World) :
    Undisturbed w (c.answer x w).2 := by
  rcases c.writes_of_answer x w with h | h
  · rw [h]
    exact .refl w
  · generalize (c.answer x w).2 = w' at h ⊢
    cases h with
    | commit | sendMessage | receiveMessage | deleteMessage => exact hc.elim
    | _ => exact ⟨rfl, rfl⟩

/-- The status of a message after an update of one. -/
theorem statusOf_update {now : DateTime} {loaded current : Message} {db db' : Db}
    (h : db.apply now [.updateMessage loaded current] = .ok db') (id : String) :
    db'.statusOf id = (db.statusOf id).map fun status =>
      if id = current.id then column loaded.status current.status status else status := by
  rw [Db.statusOf, Db.statusOf, message_update h]
  cases db.message id with
  | none => rfl
  | some row =>
    rw [Option.map_some, Option.map_some, Option.map_some, Option.map_some]
    split <;> rfl

/-- The status of a message after an update of the row that was loaded. -/
theorem statusOf_update_loaded {now : DateTime} {loaded current : Message} {db db' : Db}
    (h : db.apply now [.updateMessage loaded current] = .ok db') (hid : current.id = loaded.id)
    (hloaded : db.message loaded.id = some loaded) (id : String) :
    db'.statusOf id = if id = loaded.id then some current.status else db.statusOf id := by
  rw [statusOf_update h, hid]
  split
  · next heq => rw [heq, Db.statusOf, hloaded, Option.map_some, Option.map_some, column_self]
  · rw [Option.map_id']

/-- The ways in which the processing of an entry that names `id` can end, where it ends without an
exception. -/
inductive Attempt (K : Contract Call Call.Resp PyErr Choice World) (id : String)
    (receiveCount : ℕ) (db : Db) : Db → Bool → Prop where
  | missing (hrow : db.message id = none) : Attempt K id receiveCount db db true
  | noContext (x : Choice) (v : World) (hv : v.db = db)
      (hlog : K.admits (.logError "omnichannel.outbound.missing_context" id) x v) :
    Attempt K id receiveCount db db true
  | sent (db' : Db)
      (hstatus : ∀ i, db'.statusOf i = if i = id then some "sent" else db.statusOf i) :
    Attempt K id receiveCount db db' true
  | failed (db' : Db) (hcount : sqsMaxReceiveCount ≤ receiveCount)
      (hstatus : ∀ i, db'.statusOf i = if i = id then some "failed" else db.statusOf i) :
    Attempt K id receiveCount db db' false
  | retry (hcount : receiveCount < sqsMaxReceiveCount) : Attempt K id receiveCount db db false

/-- A setting in which a program of the outbound half runs undisturbed. -/
structure Alone (K : Contract Call Call.Resp PyErr Choice World) : Prop where
  answer : K.answer = Call.answer
  rely : ∀ w w', K.rely w w' ↔ Undisturbed w w'
  /-- What the calls that touch neither the database nor a queue promise. -/
  bystander : ∀ c : Call, c.Bystander → ∀ x w, K.admits c x w → K.guar c x w (c.answer x w).2

/-- How the send of an entry's message ended: the provider accepted it, or refused it at the last
attempt. -/
inductive Tried (K : Contract Call Call.Resp PyErr Choice World) (receiveCount : ℕ)
    (message : Message) (w : World) : String → Prop where
  | accepted (recipient : String) (content : OutboundContent) (credentials : List (String × Json))
      (x : Choice) (v : World) (hv : Undisturbed v w)
      (hx : K.admits (.sendOutbound message.id message.channelType recipient content credentials) x v)
      (hfate : x.fate = .ok) : Tried K receiveCount message w "sent"
  | refused (recipient : String) (content : OutboundContent) (credentials : List (String × Json))
      (x : Choice) (v : World) (hv : Undisturbed v w)
      (hx : K.admits (.sendOutbound message.id message.channelType recipient content credentials) x v)
      (e : PyErr) (hfate : x.fate = .lost e ∨ x.fate = .late e) (hcls : e.cls = .channelAdapterError)
      (hcount : sqsMaxReceiveCount ≤ receiveCount) : Tried K receiveCount message w "failed"

theorem Tried.of_undisturbed {K : Contract Call Call.Resp PyErr Choice World} {receiveCount : ℕ}
    {message : Message} {w w' : World} {status : String} (h : Undisturbed w w')
    (ht : Tried K receiveCount message w status) : Tried K receiveCount message w' status := by
  cases ht with
  | accepted recipient content credentials x v hv hx hfate =>
    exact .accepted recipient content credentials x v (hv.trans h) hx hfate
  | refused recipient content credentials x v hv hx e hfate hcls hcount =>
    exact .refused recipient content credentials x v (hv.trans h) hx e hfate hcls hcount

/-- In the setting, the commits that mark the message of an entry keep their promise. The queues are
those of the moment the entry is taken up. -/
structure Marks (K : Contract Call Call.Resp PyErr Choice World) (msg : QueueMessage)
    (queues : QueueName → Queue QueueEntry) : Prop extends Alone K where
  mark : ∀ loaded current : Message, current.id = loaded.id → Names msg.body loaded.id → ∀ x w,
    w.queues = queues → w.db.message loaded.id = some loaded →
    Tried K msg.receiveCount loaded w current.status →
    K.admits (.commit [.updateMessage loaded current]) x w →
    K.guar (.commit [.updateMessage loaded current]) x w
      ((Call.commit [.updateMessage loaded current]).answer x w).2

section Alone

variable {K : Contract Call Call.Resp PyErr Choice World} {registry : Registry}
  {msg : QueueMessage} {queues : QueueName → Queue QueueEntry}

theorem Alone.step (hK : Alone K) {c : Call} (hc : c.Bystander) (x : Choice) (w : World)
    (hx : K.admits c x w) :
    K.guar c x w (K.answer c x w).2 ∧ K.rely w (K.answer c x w).2 := by
  rw [hK.rely, hK.answer]
  exact ⟨hK.bystander c hc x w hx, undisturbed_answer hc x w⟩

/-- A part of a program that touches neither the database nor a queue. -/
theorem Alone.bind (hK : Alone K) {α β : Type} {p : Prog α} {f : α → Prog β}
    {Q : Except PyErr β → World → Prop} {w : World} (hp : p.Calls Call.Bystander)
    (hf : ∀ a w', Undisturbed w w' → K.wp (f a) w' Q) (herror : ∀ e w', Q (.error e) w') :
    K.wp (p.bind f) w Q :=
  wp_bind_of_calls (fun _ hc x w' hx => hK.step hc x w' hx) hp p.returns_true
    (fun a w' h _ => hf a w' ((hK.rely _ _).mp h)) fun e w' _ => herror e w'

/-- One call, with its reply. -/
theorem Alone.perform (hK : Alone K) {c : Call} {Q : Except PyErr c.Resp → World → Prop} {w : World}
    (h : ∀ x w', Undisturbed w w' → K.admits c x w' →
      K.guar c x w' (c.answer x w').2 ∧ Q (c.answer x w').1 (c.answer x w').2) :
    K.wp (run c) w Q := by
  refine wp_perform fun w' hw x hx => ?_
  rw [hK.answer]
  exact h x w' ((hK.rely _ _).mp hw) hx

/-! ### One message -/

/-- The commit that marks a message. -/
theorem Marks.commit (hK : Marks K msg queues) (loaded current : Message)
    (hid : current.id = loaded.id) (hnames : Names msg.body loaded.id) {w : World}
    (hqueues : w.queues = queues) (hloaded : w.db.message loaded.id = some loaded)
    (htried : Tried K msg.receiveCount loaded w current.status)
    {Q : Except PyErr Unit → World → Prop}
    (hok : ∀ w', w'.queues = w.queues → (∀ i, w'.db.statusOf i =
      if i = loaded.id then some current.status else w.db.statusOf i) → Q (.ok ()) w')
    (herror : ∀ e w', Q (.error e) w') :
    K.wp (run (.commit [.updateMessage loaded current])) w Q := by
  refine hK.toAlone.perform fun x v hv hx => ⟨?_, ?_⟩
  · exact hK.mark loaded current hid hnames x v (hv.queues.trans hqueues)
      (by rw [hv.db]; exact hloaded) (htried.of_undisturbed hv) hx
  · cases hr : ((Call.commit [.updateMessage loaded current]).answer x v).1 with
    | error e => exact herror e _
    | ok u =>
      rcases commit_cases [.updateMessage loaded current] x v with
        ⟨_, db, hdb, hanswer⟩ | ⟨_, _, e, he⟩
      · rw [hanswer]
        refine hok _ hv.queues fun i => ?_
        rw [hv.db] at hdb
        exact statusOf_update_loaded hdb hid hloaded i
      · rw [he] at hr
        cases hr

theorem calls_bystander_core {α : Type} (p : Core.Prog α) : (core p).Calls Call.Bystander :=
  calls_core p fun _ => trivial

theorem calls_bystander_resolveCredentials (adapter : ChannelAdapter) (message : Message)
    (connection : ChannelConnection) :
    (resolveCredentials adapter message connection).Calls Call.Bystander := by
  unfold resolveCredentials
  split
  · exact (calls_bystander_core _).bind fun _ => Calls.ofExcept _
  · trivial

theorem calls_bystander_customerIdentity (conversation : Option Conversation) :
    (customerIdentity conversation).Calls Call.Bystander := by
  cases conversation with
  | none => trivial
  | some conversation => exact Calls.perform trivial

/-- What the attempt to send leaves: the id the provider gave, with nothing written, or a failure
that is recorded at the last attempt. -/
theorem Marks.trySend (hK : Marks K msg queues) {message : Message} {identity : ChannelIdentity}
    {credentials : List (String × Json)} {w : World} (hnames : Names msg.body message.id)
    (hqueues : w.queues = queues) (hloaded : w.db.message message.id = some message)
    {Q : Except PyErr (Option String) → World → Prop}
    (hsome : ∀ externalId w', Undisturbed w w' → Tried K msg.receiveCount message w' "sent" →
      Q (.ok (some externalId)) w')
    (hnone : ∀ w', w'.queues = w.queues → Attempt K message.id msg.receiveCount w.db w'.db false →
      Q (.ok none) w')
    (herror : ∀ e w', Q (.error e) w') :
    K.wp (trySend message identity credentials msg.receiveCount) w Q := by
  have hby : (Call.sendOutbound message.id message.channelType identity.externalId
    ⟨message.subject, message.bodyText⟩ credentials).Bystander := trivial
  refine wp_handle (wp_bind (hK.toAlone.perform fun x v hv hx => ⟨hK.bystander _ hby x v hx, ?_⟩))
  have hstep := undisturbed_answer hby x v
  have hafter := hv.trans hstep
  obtain ⟨haccepted, hrefused⟩ := sendOutbound_cases message.id message.channelType
    identity.externalId ⟨message.subject, message.bodyText⟩ credentials x v
  cases hr : ((Call.sendOutbound message.id message.channelType identity.externalId
    ⟨message.subject, message.bodyText⟩ credentials).answer x v).1 with
  | ok externalId =>
    exact hsome _ _ hafter (.accepted _ _ _ x v hstep hx (haccepted externalId hr))
  | error e =>
    have hfate := hrefused e hr
    show K.wp (sendFailed message msg.receiveCount e) _ Q
    generalize ((Call.sendOutbound message.id message.channelType identity.externalId
      ⟨message.subject, message.bodyText⟩ credentials).answer x v).2 = u at hstep hafter ⊢
    unfold sendFailed
    split
    case h_2 => exact herror _ _
    next hcls =>
    refine hK.toAlone.bind (Calls.perform trivial) (fun _ u₁ h₁ => ?_) herror
    have hu := hafter.trans h₁
    show K.wp ((markFailed message msg.receiveCount).bind _) _ _
    by_cases hcount : sqsMaxReceiveCount ≤ msg.receiveCount
    case neg =>
      rw [markFailed_of_lt (Nat.lt_of_not_le hcount)]
      refine hnone _ hu.queues ?_
      rw [hu.db]
      exact .retry (Nat.lt_of_not_le hcount)
    rw [markFailed_of_le hcount]
    have htried : Tried K msg.receiveCount message u₁ "failed" :=
      .refused _ _ _ x v (hstep.trans h₁) hx e hfate hcls hcount
    refine wp_bind (hK.commit message { message with status := "failed" } rfl hnames
      (hu.queues.trans hqueues) (by rw [hu.db]; exact hloaded) htried (fun w' hq hstatus => ?_)
      fun e w' => herror e w')
    refine hnone w' (hq.trans hu.queues) (.failed _ hcount fun i => ?_)
    rw [hstatus i, hu.db]

/-- The send, once the message has its context. -/
theorem Marks.sendQueued (hK : Marks K msg queues) {message : Message} {identity : ChannelIdentity}
    {connection : ChannelConnection} {w : World} (hnames : Names msg.body message.id)
    (hqueues : w.queues = queues) (hloaded : w.db.message message.id = some message)
    {Q : Except PyErr Bool → World → Prop}
    (hok : ∀ resolved w', w'.queues = w.queues →
      Attempt K message.id msg.receiveCount w.db w'.db resolved → Q (.ok resolved) w')
    (herror : ∀ e w', Q (.error e) w') :
    K.wp (sendQueued registry message identity connection msg.receiveCount) w Q := by
  refine hK.toAlone.bind (Calls.ofExcept _) (fun adapter w₁ h₁ => ?_) herror
  refine hK.toAlone.bind (calls_bystander_resolveCredentials _ _ _) (fun credentials w₂ h₂ => ?_)
    herror
  have h := h₁.trans h₂
  refine wp_bind (hK.trySend hnames (h.queues.trans hqueues) (by rw [h.db]; exact hloaded)
    (fun externalId w₃ h₃ htried => ?_) (fun w₃ hq hattempt => ?_) herror)
  · refine wp_bind (hK.commit message
      { message with externalMessageId := externalId, status := "sent" } rfl hnames
      ((h.trans h₃).queues.trans hqueues) (by rw [h₃.db, h.db]; exact hloaded) htried
      (fun w₄ hq hstatus => ?_) herror)
    refine hK.toAlone.bind (calls_bystander_core _) (fun _ w₅ h₅ => ?_) herror
    refine hok true w₅ ?_ (.sent _ fun i => ?_)
    · rw [h₅.queues, hq, h₃.queues, h.queues]
    · rw [h₅.db, hstatus i, h₃.db, h.db]
  · refine hok false w₃ (hq.trans h.queues) ?_
    rw [← h.db]
    exact hattempt

/-- **One entry.** Where `_process_outbound_message` returns, the message has been marked, or there
was nothing to send, or the send is to be tried again. -/
theorem Marks.processOutboundMessage {w : World} (hK : Marks K msg w.queues)
    {Q : Except PyErr Bool → World → Prop}
    (hok : ∀ id resolved w', Names msg.body id → w'.queues = w.queues → Attempt K id msg.receiveCount w.db w'.db resolved → Q (.ok resolved) w')
    (herror : ∀ e w', Q (.error e) w') :
    K.wp (processOutboundMessage registry msg) w Q := by
  unfold Omnichannel.processOutboundMessage
  cases hid : getItem msg.body "message_id" >>= primaryKey with
  | error e => exact herror e w
  | ok id =>
    show K.wp ((run (.getMessage id)).bind _) w Q
    have hby : (Call.getMessage id).Bystander := trivial
    refine wp_bind (hK.toAlone.perform fun x v hv hx => ⟨hK.bystander _ hby x v hx, ?_⟩)
    have hafter := hv.trans (undisturbed_answer hby x v)
    cases hr : ((Call.getMessage id).answer x v).1 with
    | error e => exact herror e _
    | ok found =>
      have hfound : v.db.message id = found := Except.ok.inj (Core.Fate.eq_of_query hr)
      generalize ((Call.getMessage id).answer x v).2 = u at hafter ⊢
      rw [hv.db] at hfound
      cases found with
      | none =>
        refine hK.toAlone.bind (Calls.perform trivial) (fun _ u₁ h₁ => ?_) herror
        have hu := hafter.trans h₁
        refine hok id true u₁ hid hu.queues ?_
        rw [hu.db]
        exact .missing hfound
      | some message =>
        obtain rfl := (Db.mem_of_message hfound).2
        refine hK.toAlone.bind (Calls.perform trivial) (fun conversation u₁ h₁ => ?_) herror
        refine hK.toAlone.bind (calls_bystander_customerIdentity conversation)
          (fun identity u₂ h₂ => ?_) herror
        refine hK.toAlone.bind ((Calls.perform trivial).bind fun _ => trivial)
          (fun connection u₃ h₃ => ?_) herror
        have hu := ((hafter.trans h₁).trans h₂).trans h₃
        split
        · refine hK.sendQueued hid hu.queues (by rw [hu.db]; exact hfound)
            (fun resolved w' hq hattempt => ?_) herror
          refine hok message.id resolved w' hid (hq.trans hu.queues) ?_
          rw [← hu.db]
          exact hattempt
        · have hlog : (Call.logError "omnichannel.outbound.missing_context" message.id).Bystander :=
            trivial
          refine wp_bind (hK.toAlone.perform fun x₄ v₄ h₄ hx₄ =>
            ⟨hK.bystander _ hlog x₄ v₄ hx₄, ?_⟩)
          have hv₄ := hu.trans h₄
          refine hok message.id true v₄ hid hv₄.queues ?_
          rw [hv₄.db]
          exact .noContext x₄ v₄ hv₄.db hx₄

end Alone

end A2ZCore.Omnichannel
