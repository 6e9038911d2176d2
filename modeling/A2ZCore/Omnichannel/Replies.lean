import A2ZCore.Lib.Balance
import A2ZCore.Omnichannel.Outbound

/-!
# Replies that are tried again

`send_reply` commits a row and then enqueues it. A request that is sent again with the same
`Idempotency-Key` finds the row and returns it, without looking at the queue. So the row and its
entry come in a pair as long as nothing happens between the two: the attempt that commits the row is
told so, and its entry reaches the queue.

## Main definitions

* `Message.hasDedupKey` — the rows that a key stands for
* `Misses` — a row is left without its entry
* `attempts` — requests with one key, side by side

## Main results

* `enqueued_once_iff`
-/

namespace A2ZCore.Omnichannel

open Interaction Interaction.Proc Interaction.Contract Messaging Relational

/-- The message answers the requests with this key. -/
def Message.hasDedupKey (orgId conversationId key : String) (m : Message) : Bool :=
  m.orgId == orgId && m.conversationId == conversationId && m.clientDedupKey == some key

/-- A row is left without its entry: its commit is carried out but not reported, or the URL of the
queue is not found, or the entry is not sent. -/
def Misses : Call → Choice → World → Bool
  | .commit writes, x, w =>
    decide (x.fate.Lands (w.db.apply x.now writes)) && x.fate != .ok
  | .queueUrl name, x, w => !(w.queueUrls.contains name) && x.fate != .ok
  | .sendMessage _ _, x, _ => match x.fate with
    | .lost _ => true
    | _ => false
  | _, _, _ => false

/-- How far the rows with a key are ahead of the outbound queue. -/
def surplus (orgId conversationId key : String) (w : World) : ℤ :=
  w.db.messages.rows.countP (·.hasDedupKey orgId conversationId key) - (w.queues .outbound).length

/-- The rows stay. -/
def Keeps (w w' : World) : Prop := ∀ row ∈ w.db.messages.rows, row ∈ w'.db.messages.rows

/-- The queue stays, or gets an entry for a row with the key. -/
def Enqueues (orgId conversationId key : String) (w w' : World) : Prop :=
  w'.queues .outbound = w.queues .outbound ∨
    ∃ row ∈ w.db.messages.rows, row.hasDedupKey orgId conversationId key ∧
      w'.queues .outbound = (w.queues .outbound).send (outboundEntry orgId row.id)

/-- The setting of requests with one key. -/
def retrying (orgId conversationId key : String) : Contract Call Call.Resp PyErr Choice World where
  answer := Call.answer
  rely := Keeps
  admits _ _ _ := True
  guar _ _ w w' := Keeps w w' ∧ Enqueues orgId conversationId key w w'
  rely_refl _ _ h := h
  rely_trans h h' row hrow := h' row (h row hrow)

/-- The setting of one of these requests, with what it has to make up for. -/
abbrev owingReplies (orgId conversationId key : String) :
    Contract Call Call.Resp PyErr Choice (World × ℤ) :=
  (retrying orgId conversationId key).owing (surplus orgId conversationId key) Misses

/-- The call touches neither the database nor a queue, and asks for no queue's URL. -/
def Call.Idle : Call → Prop
  | .queueUrl _ => False
  | c => c.Bystander

section Attempt

variable {orgId conversationId key : String}

/-- What an attempt leaves: no debt, and a row with the key where it returns one. -/
def Answered (orgId conversationId key : String) (r : Except PyErr (Message × Bool))
    (s : World × ℤ) : Prop :=
  s.2 = 0 ∧ ∀ m created, r = .ok (m, created) →
    ∃ row ∈ s.1.db.messages.rows, row.hasDedupKey orgId conversationId key ∧ row.id = m.id

theorem answered_error (e : PyErr) (w : World) :
    Answered orgId conversationId key (.error e) (w, 0) :=
  ⟨rfl, fun _ _ h => nomatch h⟩

theorem surplus_of_undisturbed {w w' : World} (h : Undisturbed w w') :
    surplus orgId conversationId key w' = surplus orgId conversationId key w := by
  rw [surplus, h.db, h.queues, surplus]

theorem keeps_of_undisturbed (orgId conversationId key : String) {w w' : World}
    (h : Undisturbed w w') :
    Keeps w w' ∧ Enqueues orgId conversationId key w w' := by
  refine ⟨fun row hrow => ?_, .inl (by rw [h.queues])⟩
  rw [h.db]
  exact hrow

/-- One call that is idle, with its reply. -/
theorem owing_idle {c : Call} (hc : c.Idle) (x : Choice) (s : World × ℤ) :
    Undisturbed s.1 (c.answer x s.1).2 ∧
      (owingReplies orgId conversationId key).guar c x s
        ((owingReplies orgId conversationId key).answer c x s).2 ∧
      (owingReplies orgId conversationId key).answer c x s =
        ((c.answer x s.1).1, ((c.answer x s.1).2, s.2)) := by
  have hby : c.Bystander := by
    cases c with
    | queueUrl => exact hc.elim
    | _ => exact hc
  have hmiss : Misses c x s.1 = false := by
    cases c with
    | commit | sendMessage | queueUrl => exact hc.elim
    | _ => rfl
  have hsame := undisturbed_answer hby x s.1
  refine ⟨hsame, keeps_of_undisturbed _ _ _ hsame, Prod.ext rfl (Prod.ext rfl ?_)⟩
  show s.2 + (surplus orgId conversationId key (c.answer x s.1).2 -
    surplus orgId conversationId key s.1) - (Misses c x s.1).toNat = s.2
  rw [surplus_of_undisturbed hsame, hmiss]
  simp

/-- A part of an attempt that makes idle calls only. -/
theorem owing_bind {α β : Type} {p : Prog α} {f : α → Prog β} {s : World × ℤ}
    {Q : Except PyErr β → World × ℤ → Prop} (hp : p.Calls Call.Idle)
    (hf : ∀ a w', Keeps s.1 w' → (owingReplies orgId conversationId key).wp (f a) (w', s.2) Q)
    (herror : ∀ e w', Q (.error e) (w', s.2)) :
    (owingReplies orgId conversationId key).wp (p.bind f) s Q := by
  refine wp_bind_of_calls (fun c hc x s' _ => ?_) hp p.returns_true ?_ ?_
  · obtain ⟨_, hguar, hanswer⟩ := owing_idle hc x s'
    refine ⟨hguar, ?_⟩
    rw [hanswer]
    exact ⟨hguar.1, rfl⟩
  · rintro a ⟨w', d'⟩ ⟨hw, rfl⟩ _
    exact hf a w' hw
  · rintro e ⟨w', d'⟩ ⟨_, rfl⟩
    exact herror e w'

/-- One call, with its reply and what then remains of the debt. -/
theorem owing_perform {c : Call} {w : World} {d : ℤ} {Q : Except PyErr c.Resp → World × ℤ → Prop}
    (h : ∀ x v, Keeps w v → Keeps v (c.answer x v).2 ∧
      Enqueues orgId conversationId key v (c.answer x v).2 ∧
      ∃ d', d + (surplus orgId conversationId key (c.answer x v).2 -
        surplus orgId conversationId key v) - (Misses c x v).toNat = d' ∧
        Q (c.answer x v).1 ((c.answer x v).2, d')) :
    (owingReplies orgId conversationId key).wp (run c) (w, d) Q := by
  refine wp_perform ?_
  rintro ⟨v, d'⟩ ⟨hv, rfl⟩ x _
  obtain ⟨hkeeps, henqueues, _, rfl, hQ⟩ := h x v hv
  exact ⟨⟨hkeeps, henqueues⟩, hQ⟩

/-- The lookup of a request's key finds a row with the key. -/
theorem owing_select {w : World} {d : ℤ} {Q : Except PyErr (Option Message) → World × ℤ → Prop}
    (hnone : ∀ w', Q (.ok none) (w', d))
    (hsome : ∀ m w', m ∈ w'.db.messages.rows → m.hasDedupKey orgId conversationId key →
      Q (.ok (some m)) (w', d))
    (herror : ∀ e w', Q (.error e) (w', d)) :
    (owingReplies orgId conversationId key).wp
      (run (.selectByDedupKey orgId conversationId key)) (w, d) Q := by
  have hby : (Call.selectByDedupKey orgId conversationId key).Bystander := trivial
  refine owing_perform fun x v _ => ?_
  have hsame := undisturbed_answer hby x v
  obtain ⟨hkeeps, henqueues⟩ := keeps_of_undisturbed orgId conversationId key hsame
  refine ⟨hkeeps, henqueues, d, by rw [surplus_of_undisturbed hsame]; simp [Misses], ?_⟩
  cases hr : ((Call.selectByDedupKey orgId conversationId key).answer x v).1 with
  | error e => exact herror e _
  | ok found =>
    cases found with
    | none => exact hnone _
    | some m =>
      have hfound := List.mem_filter.mp (mem_of_scalarOneOrNone (Core.Fate.eq_of_query hr))
      exact hsome m _ (by rw [hsame.db]; exact hfound.1) hfound.2

/-- The commit of a reply: the debt of an entry, where it is carried out and reported. -/
theorem owing_commit {message : Message} (hkey : message.hasDedupKey orgId conversationId key)
    {w : World} {Q : Except PyErr Unit → World × ℤ → Prop}
    (hok : ∀ w' row, row ∈ w'.db.messages.rows → row.hasDedupKey orgId conversationId key →
      row.id = message.id → Q (.ok ()) (w', 1))
    (herror : ∀ e w', Q (.error e) (w', 0)) :
    (owingReplies orgId conversationId key).wp (run (.commit [.insertMessage message])) (w, 0) Q := by
  refine owing_perform fun x v _ => ?_
  have hqueues : ((Call.commit [.insertMessage message]).answer x v).2.queues .outbound =
      v.queues .outbound := congrFun (queues_commit _ x v) _
  rcases commit_cases [.insertMessage message] x v with ⟨hlands, db, hdb, hw⟩ | ⟨hlands, hw, e, he⟩
  · have hrows := message_insert hdb
    set row : Message := { message with createdAt := x.now }
    have hrow : row.hasDedupKey orgId conversationId key := hkey
    have hafter : ((Call.commit [.insertMessage message]).answer x v).2.db.messages.rows =
        v.db.messages.rows ++ [row] := by rw [hw, hrows]
    refine ⟨fun m hm => by rw [hafter]; exact List.mem_append_left _ hm, .inl hqueues, ?_⟩
    have hsurplus : surplus orgId conversationId key
        ((Call.commit [.insertMessage message]).answer x v).2 =
          surplus orgId conversationId key v + 1 := by
      rw [surplus, hafter, hqueues, List.countP_append, List.countP_singleton, if_pos hrow, surplus]
      push_cast
      omega
    rw [hsurplus]
    cases hfate : x.fate with
    | lost e => exact absurd hfate (hlands.1 e)
    | ok =>
      have hmiss : Misses (.commit [.insertMessage message]) x v = false := by simp [Misses, hfate]
      have hreply : ((Call.commit [.insertMessage message]).answer x v).1 = .ok () := by
        rw [Call.answer, Core.Fate.transact, hdb, hfate]
        rfl
      refine ⟨1, by rw [hmiss, Bool.toNat_false]; omega, ?_⟩
      have hin : row ∈ ((Call.commit [.insertMessage message]).answer x v).2.db.messages.rows := by
        rw [hafter]
        exact List.mem_append_right _ (List.mem_singleton.mpr rfl)
      rw [hreply]
      exact hok _ row hin hrow rfl
    | late e =>
      have hmiss : Misses (.commit [.insertMessage message]) x v = true := by
        rw [Misses, decide_eq_true hlands, hfate]
        rfl
      have hreply : ((Call.commit [.insertMessage message]).answer x v).1 = .error e := by
        rw [Call.answer, Core.Fate.transact, hdb, hfate]
        rfl
      refine ⟨0, by rw [hmiss, Bool.toNat_true]; omega, ?_⟩
      rw [hreply]
      exact herror e _
  · have hmiss : Misses (.commit [.insertMessage message]) x v = false := by
      rw [Misses, decide_eq_false hlands, Bool.false_and]
    rw [hw, hmiss, he]
    exact ⟨fun _ h => h, .inl rfl, 0, by simp, herror e v⟩

/-- The URL of the queue: without it the debt is written off. -/
theorem owing_queueUrl {w : World} {Q : Except PyErr Unit → World × ℤ → Prop}
    (hok : ∀ w', Keeps w w' → Q (.ok ()) (w', 1)) (herror : ∀ e w', Q (.error e) (w', 0)) :
    (owingReplies orgId conversationId key).wp (run (.queueUrl .outbound)) (w, 1) Q := by
  have hby : (Call.queueUrl .outbound).Bystander := trivial
  refine owing_perform fun x v hv => ?_
  have hsame := undisturbed_answer hby x v
  obtain ⟨hkeeps, henqueues⟩ := keeps_of_undisturbed orgId conversationId key hsame
  refine ⟨hkeeps, henqueues, ?_⟩
  have hkept : Keeps w ((Call.queueUrl .outbound).answer x v).2 := fun m hm => hkeeps m (hv m hm)
  rw [surplus_of_undisturbed hsame, sub_self, add_zero]
  by_cases hknown : QueueName.outbound ∈ v.queueUrls
  · have hreply : ((Call.queueUrl .outbound).answer x v).1 = .ok () := by
      simp [Call.answer, hknown]
    refine ⟨1, by simp [Misses, hknown], ?_⟩
    rw [hreply]
    exact hok _ hkept
  · cases hfate : x.fate with
    | ok =>
      have hreply : ((Call.queueUrl .outbound).answer x v).1 = .ok () := by
        simp [Call.answer, hknown, hfate]
      refine ⟨1, by simp [Misses, hfate], ?_⟩
      rw [hreply]
      exact hok _ hkept
    | lost e | late e =>
      have hreply : ((Call.queueUrl .outbound).answer x v).1 = .error e := by
        simp [Call.answer, hknown, hfate]
      have hmiss : Misses (.queueUrl .outbound) x v = true := by
        simp only [Misses, hfate, List.contains_eq_mem, hknown]
        rfl
      refine ⟨0, by rw [hmiss]; rfl, ?_⟩
      rw [hreply]
      exact herror e _

/-- The entry for a row: it makes up for the debt, or the debt is written off. -/
theorem owing_sendMessage {w : World} {row : Message} (hrow : row ∈ w.db.messages.rows)
    (hkey : row.hasDedupKey orgId conversationId key) {Q : Except PyErr String → World × ℤ → Prop}
    (hQ : ∀ r w', Keeps w w' → Q r (w', 0)) :
    (owingReplies orgId conversationId key).wp
      (run (.sendMessage .outbound (outboundEntry orgId row.id))) (w, 1) Q := by
  refine owing_perform fun x v hv => ?_
  rcases sendMessage_cases .outbound (outboundEntry orgId row.id) x v with ⟨e, hfate, hw⟩ |
    ⟨hfate, hw⟩
  · have hmiss : Misses (.sendMessage .outbound (outboundEntry orgId row.id)) x v = true := by
      simp [Misses, hfate]
    rw [hw, hmiss]
    exact ⟨fun _ h => h, .inl rfl, 0, by simp, hQ _ v hv⟩
  · have hmiss : Misses (.sendMessage .outbound (outboundEntry orgId row.id)) x v = false := by
      cases hx : x.fate with
      | lost e => exact absurd hx (hfate e)
      | ok | late e => simp [Misses, hx]
    have hdb : ((Call.sendMessage .outbound (outboundEntry orgId row.id)).answer x v).2.db = v.db :=
      by rw [hw]
    have hqueue : ((Call.sendMessage .outbound (outboundEntry orgId row.id)).answer x v).2.queues
        .outbound = (v.queues .outbound).send (outboundEntry orgId row.id) := by rw [hw]; simp
    have hkeeps : Keeps v
        ((Call.sendMessage .outbound (outboundEntry orgId row.id)).answer x v).2 := by
      rw [Keeps, hdb]
      exact fun _ h => h
    refine ⟨hkeeps, .inr ⟨row, hv row hrow, hkey, hqueue⟩, 0, ?_,
      hQ _ _ fun m hm => hkeeps m (hv m hm)⟩
    rw [hmiss, surplus, hdb, hqueue, surplus, Queue.send, List.length_append]
    simp

/-! ### One attempt -/

theorem calls_idle_core {α : Type} (p : Core.Prog α) : (core p).Calls Call.Idle :=
  calls_core p fun _ => trivial

theorem calls_idle_requireRole (userId orgId : String) (allowed : List Core.Role)
    (forbiddenMessage : String) :
    (requireRole userId orgId allowed forbiddenMessage).Calls Call.Idle := by
  refine Calls.bind (Calls.bind (calls_idle_core _) fun membership => ?_) fun membership => ?_
  · cases membership <;> trivial
  · split <;> trivial

theorem calls_idle_loadConversation (orgId conversationId : String) :
    (loadConversation orgId conversationId).Calls Call.Idle := by
  refine (Calls.perform trivial).bind fun conversation => ?_
  cases conversation with
  | none => trivial
  | some conversation =>
    dsimp only
    split <;> trivial

/-- The commit of a reply, or the row that takes its place. -/
theorem owing_commitReply {message : Message} (horg : message.orgId = orgId)
    (hconversation : message.conversationId = conversationId)
    (hkey : message.clientDedupKey = some key) {w : World}
    {Q : Except PyErr (Option Message) → World × ℤ → Prop}
    (hnew : ∀ w' row, row ∈ w'.db.messages.rows → row.hasDedupKey orgId conversationId key →
      row.id = message.id → Q (.ok none) (w', 1))
    (hfound : ∀ m w', m ∈ w'.db.messages.rows → m.hasDedupKey orgId conversationId key →
      Q (.ok (some m)) (w', 0))
    (herror : ∀ e w', Q (.error e) (w', 0)) :
    (owingReplies orgId conversationId key).wp (commitReply message) (w, 0) Q := by
  have hhas : message.hasDedupKey orgId conversationId key := by
    simp [Message.hasDedupKey, horg, hconversation, hkey]
  refine wp_handle (wp_bind (owing_commit hhas hnew fun e w₁ => ?_))
  show (owingReplies orgId conversationId key).wp _ (w₁, 0) Q
  dsimp only
  split
  case h_2 => exact herror e w₁
  refine owing_bind (Calls.perform trivial) (fun _ w₂ _ => ?_) herror
  rw [hkey]
  show (owingReplies orgId conversationId key).wp
    ((run (.selectByDedupKey message.orgId message.conversationId key)).bind _) (w₂, 0) Q
  rw [horg, hconversation]
  exact wp_bind (owing_select (fun w₃ => herror e w₃) (fun m w₃ hm hhas => hfound m w₃ hm hhas)
    fun e' w₃ => herror e' w₃)

/-- The entry of a row that was committed. -/
theorem owing_enqueueOutbound {w : World} {row : Message} (hrow : row ∈ w.db.messages.rows)
    (hkey : row.hasDedupKey orgId conversationId key) {Q : Except PyErr String → World × ℤ → Prop}
    (hok : ∀ a w', row ∈ w'.db.messages.rows → Q (.ok a) (w', 0))
    (herror : ∀ e w', Q (.error e) (w', 0)) :
    (owingReplies orgId conversationId key).wp (enqueueOutbound orgId row.id) (w, 1) Q := by
  refine wp_bind (owing_queueUrl (fun w₁ h₁ => ?_) herror)
  refine owing_sendMessage (h₁ row hrow) hkey fun r w₂ h₂ => ?_
  cases r with
  | ok a => exact hok a w₂ (h₂ row (h₁ row hrow))
  | error e => exact herror e w₂

/-- The reply's row, and its entry where the row is new. -/
theorem owing_storeReply (message : Message) (horg : message.orgId = orgId)
    (hconversation : message.conversationId = conversationId)
    (hkey : message.clientDedupKey = some key) (w : World) :
    (owingReplies orgId conversationId key).wp ((commitReply message).bind fun
      | some existing => .ret (existing, false)
      | none => (enqueueOutbound orgId message.id).bind fun _ => .ret (message, true)) (w, 0)
      (Answered orgId conversationId key) := by
  refine wp_bind (owing_commitReply horg hconversation hkey (fun w₁ row hrow hhas hid => ?_)
    (fun m w₁ hm hhas => ⟨rfl, fun m' created hr => ?_⟩) answered_error)
  · show (owingReplies orgId conversationId key).wp
      ((enqueueOutbound orgId message.id).bind fun _ => .ret (message, true)) (w₁, 1) _
    rw [← hid]
    refine wp_bind (owing_enqueueOutbound hrow hhas (fun _ w₂ hrow₂ => ⟨rfl, ?_⟩) answered_error)
    rintro m created hr
    cases hr
    exact ⟨row, hrow₂, hhas, hid⟩
  · cases hr
    exact ⟨m, hm, hhas, rfl⟩

/-- An attempt. -/
theorem owing_sendReply (userId bodyText : String) (subject : Option String) (w : World) :
    (owingReplies orgId conversationId key).wp
      (sendReply orgId conversationId userId bodyText (some key) subject) (w, 0)
      (Answered orgId conversationId key) := by
  refine owing_bind (calls_idle_requireRole _ _ _ _) (fun _ w₁ _ => ?_) answered_error
  refine owing_bind (calls_idle_loadConversation _ _) (fun conversation w₂ _ => ?_) answered_error
  refine owing_bind (Calls.perform trivial) (fun identity w₃ _ => ?_) answered_error
  cases identity with
  | none => exact answered_error _ _
  | some identity =>
    show (owingReplies orgId conversationId key).wp
      ((run (.selectByDedupKey orgId conversationId key)).bind _) (w₃, 0) _
    refine wp_bind (owing_select (fun w₄ => ?_) (fun m w₄ hm hhas => ⟨rfl, fun m' created hr => ?_⟩)
      answered_error)
    · refine owing_bind (calls_idle_core _) (fun _ w₅ _ => ?_) answered_error
      refine owing_bind (calls_idle_core _) (fun placeholder w₆ _ => ?_) answered_error
      refine owing_bind (calls_idle_core _) (fun id w₇ _ => ?_) answered_error
      exact owing_storeReply (outboundMessage id placeholder orgId conversationId
        identity.channelType userId bodyText (some key) subject) rfl rfl rfl w₇
    · cases hr
      exact ⟨m, hm, hhas, rfl⟩

end Attempt

/-! ### Any number of attempts -/

/-- Requests to reply in a conversation with one key, by user, text and subject, none of which has
begun. -/
def attempts (orgId conversationId key : String)
    (requests : List (String × String × Option String)) (w : World) :
    Pool Call Call.Resp PyErr (Message × Bool) World where
  procs := requests.map fun r => sendReply orgId conversationId r.1 r.2.1 (some key) r.2.2
  world := w

/-- What the attempts have added to a queue: entries for rows with the key. -/
def Added (orgId conversationId key : String) (queue : Queue QueueEntry) (w : World) : Prop :=
  ∃ ids : List String,
    w.queues .outbound = queue ++ ids.map (fun id => ⟨outboundEntry orgId id, 0, .live⟩) ∧
      ∀ id ∈ ids, ∃ row ∈ w.db.messages.rows, row.hasDedupKey orgId conversationId key ∧ row.id = id

section Attempts

variable {orgId conversationId key : String}

theorem added_step {queue : Queue QueueEntry} {w w' : World} (hkeeps : Keeps w w')
    (henqueues : Enqueues orgId conversationId key w w')
    (h : Added orgId conversationId key queue w) : Added orgId conversationId key queue w' := by
  obtain ⟨ids, hqueue, hrows⟩ := h
  have hkept : ∀ id ∈ ids, ∃ row ∈ w'.db.messages.rows,
      row.hasDedupKey orgId conversationId key ∧ row.id = id := fun id hid => by
    obtain ⟨row, hrow, hrest⟩ := hrows id hid
    exact ⟨row, hkeeps row hrow, hrest⟩
  rcases henqueues with hsame | ⟨row, hrow, hkey, hsend⟩
  · exact ⟨ids, hsame.trans hqueue, hkept⟩
  · refine ⟨ids ++ [row.id], ?_, fun id hid => ?_⟩
    · rw [hsend, hqueue, Queue.send, List.map_append, List.append_assoc]
      rfl
    · rcases List.mem_append.mp hid with hold | hnew
      · exact hkept id hold
      · exact ⟨row, hkeeps row hrow, hkey, (List.mem_singleton.mp hnew).symm⟩

/-- `uq_message_client_dedup`: a key stands for one row. -/
theorem clash_of_hasDedupKey {m n : Message} (hm : m.hasDedupKey orgId conversationId key)
    (hn : n.hasDedupKey orgId conversationId key) : messageSchema.clash m n = true := by
  simp only [Message.hasDedupKey, Bool.and_eq_true, beq_iff_eq] at hm hn
  obtain ⟨⟨hmorg, hmconversation⟩, hmkey⟩ := hm
  obtain ⟨⟨hnorg, hnconversation⟩, hnkey⟩ := hn
  simp [messageSchema, Message.sameDedupKey, hmorg, hmconversation, hmkey, hnorg, hnconversation,
    hnkey]

/-- Where a row has the key, it alone is ahead of the queue. -/
theorem surplus_of_mem {w : World} {row : Message} (hrow : row ∈ w.db.messages.rows)
    (hkey : row.hasDedupKey orgId conversationId key) :
    surplus orgId conversationId key w = 1 - (w.queues .outbound).length := by
  have hfilter := w.db.messages.filter_eq_singleton_of_clash hrow hkey
    fun _ hother => clash_of_hasDedupKey hother hkey
  rw [surplus, List.countP_eq_length_filter, hfilter]
  rfl

theorem surplus_of_fresh {w : World}
    (hfresh : ∀ m ∈ w.db.messages.rows, m.hasDedupKey orgId conversationId key = false) :
    surplus orgId conversationId key w = -(w.queues .outbound).length := by
  have hcount : w.db.messages.rows.countP (·.hasDedupKey orgId conversationId key) = 0 :=
    List.countP_eq_zero.mpr fun m hm => by rw [hfresh m hm]; exact Bool.false_ne_true
  rw [surplus, hcount]
  omega

theorem answered_keeps (r : Except PyErr (Message × Bool)) (w w' : World) (d : ℤ)
    (hw : Keeps w w') (h : Answered orgId conversationId key r (w, d)) :
    Answered orgId conversationId key r (w', d) := by
  refine ⟨h.1, fun m created hr => ?_⟩
  obtain ⟨row, hrow, hrest⟩ := h.2 m created hr
  exact ⟨row, hw row hrow, hrest⟩

/-- What a run of attempts that have all ended leaves. -/
theorem attempts_balanced (requests : List (String × String × Option String)) (w : World)
    {schedule : List (ℕ × Choice)} {s : Pool Call Call.Resp PyErr (Message × Bool) World}
    (hrun : (attempts orgId conversationId key requests w).run Call.answer schedule = s)
    (hend : s.Finished) :
    Added orgId conversationId key (w.queues .outbound) s.world ∧
      (∀ m created, .ret (m, created) ∈ s.procs →
        ∃ row ∈ s.world.db.messages.rows, row.hasDedupKey orgId conversationId key ∧ row.id = m.id) ∧
      surplus orgId conversationId key s.world = surplus orgId conversationId key w +
        (attempts orgId conversationId key requests w).count Call.answer Misses schedule := by
  subst hrun
  have hs : ∀ p ∈ (attempts orgId conversationId key requests w).procs,
      (owingReplies orgId conversationId key).wp p (w, 0) (Answered orgId conversationId key) := by
    intro p hp
    obtain ⟨request, _, rfl⟩ := List.mem_map.mp hp
    exact owing_sendReply _ _ _ w
  obtain ⟨hguar, hreturned, hbalance⟩ := Pool.balanced
    (K := retrying orgId conversationId key) (f := surplus orgId conversationId key)
    (fun _ _ _ _ h => h.1) answered_keeps (fun _ _ _ h => h.1) hs (Pool.along_true _ _) hend
  refine ⟨?_, fun m created hm => (hreturned _ hm).2 m created rfl, hbalance⟩
  exact Pool.run_invariant (J := Added orgId conversationId key (w.queues .outbound))
    (hguar.mono fun _ _ _ h => added_step h.1 h.2) ⟨[], by simp [attempts], by simp⟩

end Attempts

/-- **One entry for a key.** When any number of attempts with one key have all ended, in any
interleaving and with any failures, then the outbound queue has got exactly one entry, for the
message that every successful attempt returned, exactly when no row was left without its entry,
unless no attempt was successful. -/
theorem enqueued_once_iff (orgId conversationId key : String)
    (requests : List (String × String × Option String)) (w : World)
    (hfresh : ∀ m ∈ w.db.messages.rows, m.hasDedupKey orgId conversationId key = false)
    (schedule : List (ℕ × Choice))
    (hend : ((attempts orgId conversationId key requests w).run Call.answer schedule).Finished) :
    (∀ m created, .ret (m, created) ∈
        ((attempts orgId conversationId key requests w).run Call.answer schedule).procs →
      ((attempts orgId conversationId key requests w).run Call.answer
        schedule).world.queues .outbound =
          (w.queues .outbound).send (outboundEntry orgId m.id)) ↔
      ((∃ r, .ret r ∈
          ((attempts orgId conversationId key requests w).run Call.answer schedule).procs) →
        Pool.Along Call.answer (fun c x w => Misses c x w = false)
          (attempts orgId conversationId key requests w) schedule) := by
  generalize hrun : (attempts orgId conversationId key requests w).run Call.answer schedule = s
    at hend ⊢
  obtain ⟨⟨ids, hqueue, hids⟩, hreturned, hbalance⟩ := attempts_balanced requests w hrun hend
  rw [surplus_of_fresh hfresh] at hbalance
  rw [← Pool.count_eq_zero_iff]
  -- what is left to count, where an attempt returned the row with the key
  have hcount : ∀ m created, .ret (m, created) ∈ s.procs →
      ids.length + (attempts orgId conversationId key requests w).count Call.answer Misses schedule =
        1 ∧ ∀ id ∈ ids, id = m.id := by
    intro m created hm
    obtain ⟨row, hrow, hkey, hid⟩ := hreturned m created hm
    have hlength := congrArg List.length hqueue
    rw [surplus_of_mem hrow hkey] at hbalance
    rw [List.length_append, List.length_map] at hlength
    refine ⟨by omega, fun id hmem => ?_⟩
    obtain ⟨row', hrow', hkey', rfl⟩ := hids id hmem
    rw [← hid, Table.eq_of_clash _ hrow' hrow (clash_of_hasDedupKey hkey' hkey)]
  constructor
  · rintro hone ⟨⟨m, created⟩, hm⟩
    have hlength := congrArg List.length (hqueue.symm.trans (hone m created hm))
    rw [Queue.send, List.length_append, List.length_append, List.length_map,
      List.length_singleton] at hlength
    have hsum := (hcount m created hm).1
    omega
  · intro hnone m created hm
    obtain ⟨hsum, hall⟩ := hcount m created hm
    have hlength : ids.length = 1 := by
      have hzero := hnone ⟨_, hm⟩
      omega
    obtain ⟨id, rfl⟩ := List.length_eq_one_iff.mp hlength
    rw [hqueue, hall id (List.mem_singleton.mpr rfl)]
    rfl

/-- A reply, and the same request again. -/
def tryTwice : List (ℕ × Choice) := calmly (List.replicate 10 0 ++ List.replicate 4 1)

/-- The reply commits, but its entry is not sent; the request is sent again. -/
def sendFails : List (ℕ × Choice) :=
  failAt 9 ⟨.clientError "ServiceUnavailable", "Service is unavailable"⟩ tryTwice

/-- The two requests. -/
def twoAttempts : Pool Call Call.Resp PyErr (Message × Bool) World :=
  attempts "org" "conversation" "key" [("ada", "Hello", none), ("ada", "Hello", none)] inboxWorld

/-- Where every call goes through, both requests return the one message that was enqueued. -/
theorem enqueued_once_tryTwice : (twoAttempts.run Call.answer tryTwice).Finished ∧
    ∀ m created, .ret (m, created) ∈ (twoAttempts.run Call.answer tryTwice).procs →
      (twoAttempts.run Call.answer tryTwice).world.queues .outbound =
        (inboxWorld.queues .outbound).send (outboundEntry "org" m.id) := by
  have hfinished : (twoAttempts.run Call.answer tryTwice).Finished :=
    Pool.finished_of_isFinished (by decide +kernel)
  exact ⟨hfinished, (enqueued_once_iff "org" "conversation" "key" _ inboxWorld nofun tryTwice
    hfinished).mpr fun _ => Pool.count_eq_zero_iff.mp (by decide +kernel)⟩

/-- The row that the second request returns. -/
theorem returned_sendFails : (twoAttempts.run Call.answer sendFails).isFinished ∧
    ((twoAttempts.run Call.answer sendFails).returned 1).map (·.1.id) = some "t6" ∧
    ((twoAttempts.run Call.answer sendFails).world.queues .outbound).length = 0 := by
  decide +kernel

/-- A request can succeed without its message being enqueued. -/
theorem not_enqueued_once :
    ¬∀ (orgId conversationId key : String) (requests : List (String × String × Option String))
      (w : World), (∀ m ∈ w.db.messages.rows, m.hasDedupKey orgId conversationId key = false) →
      ∀ schedule : List (ℕ × Choice),
        ((attempts orgId conversationId key requests w).run Call.answer schedule).Finished →
        ∀ m created, .ret (m, created) ∈
            ((attempts orgId conversationId key requests w).run Call.answer schedule).procs →
          ((attempts orgId conversationId key requests w).run Call.answer
            schedule).world.queues .outbound =
              (w.queues .outbound).send (outboundEntry orgId m.id) := by
  intro h
  obtain ⟨hfinished, hreturned, hlength⟩ := returned_sendFails
  obtain ⟨⟨m, created⟩, hm, _⟩ := Option.map_eq_some_iff.mp hreturned
  have hqueue := h "org" "conversation" "key" _ inboxWorld nofun sendFails
    (Pool.finished_of_isFinished hfinished) m created (Pool.mem_of_returned hm)
  exact absurd ((congrArg List.length hqueue).symm.trans hlength) Nat.one_ne_zero

end A2ZCore.Omnichannel
