import A2ZCore.Lib.Pool
import A2ZCore.Omnichannel.Claims
import A2ZCore.Omnichannel.Commits

/-!
# The unread counter

The inbound worker counts a message with the counter that it loaded, and `mark_read` sets the counter to
zero, where it was not zero when it was loaded. Both read the row, and commit later. The counter is the
number of messages since the last `mark_read` exactly in the runs in which each commit finds the counter
as its request loaded it, as far as it makes use of what it loaded.

## Main definitions

* `markRead`
* `BadgeWriter`, `badge` — workers and `mark_read` requests, side by side
* `sinceRead` — how many messages came in since the conversation was last marked read
* `Unraced` — a commit finds the counter as it was loaded

## Main results

* `unread_iff_unraced` — any number of workers and requests, in any interleaving
-/

namespace A2ZCore.Omnichannel

open Interaction Interaction.Proc Relational

/-- `mark_read`. -/
def markRead (orgId conversationId userId : String) : Prog Conversation := do
  let _ ← requireMembership userId orgId "Not a member of this org"
  let conversation ← loadConversation orgId conversationId
  let read := { conversation with unreadCount := 0 }
  run (.commit [.updateConversation conversation read])
  return read

/-! ### The counter -/

/-- The unread counter of a conversation. -/
def Db.unread (db : Db) (id : String) : Option ℤ := (db.conversation id).map (·.unreadCount)

/-- The unread counter of a conversation after a write. -/
def Write.onUnread (id : String) : Write → Option ℤ → Option ℤ
  | .insertConversation c, n => n.or (if c.id = id then some c.unreadCount else none)
  | .updateConversation loaded current, n => n.map fun n =>
    if current.id = id then column loaded.unreadCount current.unreadCount n else n
  | _, n => n

/-- The write creates the conversation. -/
def Write.creates (id : String) : Write → Bool
  | .insertConversation c => c.id == id
  | _ => false

/-- The write updates the conversation. -/
def Write.updates (id : String) : Write → Bool
  | .updateConversation _ current => current.id == id
  | _ => false

/-- The write adds a message of the customer to the conversation. -/
def Write.arrives (id : String) : Write → Bool
  | .insertMessage m => m.conversationId == id && m.direction == .inbound
  | _ => false

theorem unread_write {now : DateTime} {write : Write} {db db' : Db} (id : String)
    (h : write.apply now db = .ok db') : db'.unread id = write.onUnread id (db.unread id) := by
  have hrows := (Write.rows_apply h).2.1
  cases write with
  | insertConversation c =>
    rw [Db.unread, Db.conversation, hrows, Write.onConversations, List.find?_append]
    simp only [Write.onUnread, Db.unread, Db.conversation]
    cases db.conversations.rows.find? fun c => c.id == id with
    | some row => rfl
    | none => by_cases hid : c.id = id <;> simp [hid]
  | updateConversation loaded current =>
    rw [Db.unread, conversation_update hrows]
    simp only [Write.onUnread, Db.unread]
    cases hrow : db.conversation id with
    | none => rfl
    | some row =>
      have hid : row.id = id := by simpa using List.find?_some hrow
      simp only [Option.map_some, hid, @eq_comm _ id]
      split <;> rfl
  | _ => rw [Db.unread, Db.conversation, hrows]; rfl

theorem unread_apply {now : DateTime} {writes : List Write} {db db' : Db} (id : String)
    (h : db.apply now writes = .ok db') :
    db'.unread id = writes.foldl (fun n write => write.onUnread id n) (db.unread id) := by
  induction writes generalizing db with
  | nil => cases h; rfl
  | cons write writes ih =>
    obtain ⟨db₁, h₁, h₂⟩ := Db.apply_cons.mp h
    rw [List.foldl_cons, ih h₂, unread_write id h₁]

/-! ### Workers and requests, side by side -/

/-- Whoever writes the counter. -/
inductive BadgeWriter where
  | worker (sizes : List ℕ)
  | markRead (orgId conversationId userId : String)
  deriving DecidableEq

/-- What it does. -/
def BadgeWriter.program (registry : Registry) : BadgeWriter → Prog Unit
  | worker sizes => ingest registry sizes
  | markRead orgId conversationId userId =>
    (Omnichannel.markRead orgId conversationId userId).bind fun _ => .ret ()

/-- Workers and `mark_read` requests that have not begun. -/
def badge (registry : Registry) (writers : List BadgeWriter) (w : World) :
    Pool Call Call.Resp PyErr Unit World where
  procs := writers.map (BadgeWriter.program registry)
  world := w

/-- How many messages came in since the conversation was last marked read: the messages of each commit
that takes effect are counted, and one of `mark_read` starts again. -/
def sinceRead (writers : List BadgeWriter) (id : String) (n : ℤ) (i : ℕ) (c : Call) (x : Choice)
    (w : World) : ℤ :=
  match c, writers[i]? with
  | .commit writes, some (.markRead _ _ _) =>
    if x.fate.Lands (w.db.apply x.now writes) ∧ writes.any (·.updates id) then 0 else n
  | .commit writes, _ =>
    if x.fate.Lands (w.db.apply x.now writes) then n + writes.countP (·.arrives id) else n
  | _, _ => n

/-- The counter is what was counted. A conversation that is not there has counted nothing. -/
def CountsUnread (id : String) (w : World) (n : ℤ) : Prop := (w.db.unread id).getD 0 = n

/-- An update that changes the counter finds it as it was loaded, or comes with the conversation. -/
def Write.FindsLoaded (id : String) (writes : List Write) (db : Db) : Write → Prop
  | .updateConversation loaded current =>
    current.id = id → current.unreadCount ≠ loaded.unreadCount →
      (db.unread id = none → writes.any (·.creates id)) ∧
        ∀ n ∈ db.unread id, n = loaded.unreadCount
  | _ => True

/-- An update that was to set the counter to zero, and found it zero when it was loaded, still finds it
zero. -/
def Write.FindsZero (id : String) (db : Db) : Write → Prop
  | .updateConversation loaded current =>
    current.id = id → loaded.unreadCount = 0 → ∀ n ∈ db.unread id, n = 0
  | _ => True

/-- A commit that takes effect finds the counter as its request loaded it, as far as it makes use of
that: the worker counts from it, and `mark_read` writes nothing where it was zero. -/
def Unraced (writers : List BadgeWriter) (id : String) (i : ℕ) (c : Call) (x : Choice) (w : World) :
    Prop :=
  match c, writers[i]? with
  | .commit writes, some (.markRead _ _ _) =>
    x.fate.Lands (w.db.apply x.now writes) → ∀ write ∈ writes, write.FindsZero id w.db
  | .commit writes, _ =>
    x.fate.Lands (w.db.apply x.now writes) → ∀ write ∈ writes, write.FindsLoaded id writes w.db
  | _, _ => True

/-! ### One commit -/

/-- A transaction of `mark_read`. -/
def Call.OfMarkRead : Call → Prop
  | .commit writes => ∃ loaded : Conversation,
      writes = [.updateConversation loaded { loaded with unreadCount := 0 }]
  | _ => True

/-- What the writer may call. -/
def BadgeWriter.Makes : BadgeWriter → Call → Prop
  | worker _ => Call.OfWorker
  | markRead _ _ _ => Call.OfMarkRead

theorem calls_badgeWriter (registry : Registry) (writer : BadgeWriter) :
    (writer.program registry).Calls writer.Makes := by
  cases writer with
  | worker sizes => exact calls_ingest registry sizes
  | markRead orgId conversationId userId =>
    have hharmless : ∀ {α : Type} {p : Prog α}, p.Calls Call.Harmless → p.Calls Call.OfMarkRead :=
      fun hp => hp.mono fun c hc => by
        cases c with
        | commit => exact hc.elim
        | _ => trivial
    refine Calls.bind (Calls.bind (hharmless (calls_harmless_requireMembership _ _ _)) fun _ =>
      Calls.bind ?_ fun conversation => ?_) fun _ => trivial
    · refine Calls.bind (Calls.perform trivial) fun found => ?_
      cases found with
      | none => trivial
      | some conversation =>
        show Calls _ (if conversation.orgId ≠ orgId then _ else _)
        split <;> trivial
    · have hread : Call.OfMarkRead (.commit [.updateConversation conversation
          { conversation with unreadCount := 0 }]) := ⟨conversation, rfl⟩
      exact Calls.bind (Calls.perform hread) fun _ => trivial

/-- The rows before a message: a conversation that is created has counted nothing. -/
theorem foldl_onUnread_opens {conversation : Conversation} {pending : List Write} (id : String)
    (h : Opens conversation pending) (n : Option ℤ) :
    pending.foldl (fun n write => write.onUnread id n) n =
      n.or (if pending.any (·.creates id) then some 0 else none) := by
  induction pending generalizing n with
  | nil => simp
  | cons write pending ih =>
    rw [List.foldl_cons, ih fun write hwrite => h write (List.mem_cons_of_mem _ hwrite)]
    rcases h write List.mem_cons_self with ⟨identity, rfl⟩ | ⟨rfl, hzero⟩
    · simp [Write.onUnread, Write.creates]
    · by_cases hid : conversation.id = id
      · cases n <;> simp [Write.onUnread, Write.creates, hid, hzero]
      · cases n <;> simp [Write.onUnread, Write.creates, hid]

theorem id_of_creates {conversation : Conversation} {pending : List Write} {id : String}
    (h : Opens conversation pending) (hcreates : pending.any (·.creates id) = true) :
    conversation.id = id ∧ conversation.unreadCount = 0 := by
  obtain ⟨write, hwrite, hid⟩ := List.any_eq_true.mp hcreates
  rcases h write hwrite with ⟨identity, rfl⟩ | ⟨rfl, hzero⟩
  · cases hid
  · exact ⟨by simpa [Write.creates] using hid, hzero⟩

theorem foldl_onUnread_attachments {attachments : List Write} (id : String)
    (h : ∀ write ∈ attachments, ∃ a, write = .insertAttachment a) (n : Option ℤ) :
    attachments.foldl (fun n write => write.onUnread id n) n = n := by
  induction attachments with
  | nil => rfl
  | cons write attachments ih =>
    obtain ⟨a, rfl⟩ := h write List.mem_cons_self
    exact ih fun write hwrite => h write (List.mem_cons_of_mem _ hwrite)

section Store

variable {conversation : Conversation} {pending attachments : List Write} {message : Message}
  {now' : DateTime} {bodyText : Option String}

/-- The counter after a message. -/
theorem unread_store {now : DateTime} {db db' : Db} (id : String)
    (hpending : Opens conversation pending)
    (hattachments : ∀ write ∈ attachments, ∃ a, write = .insertAttachment a)
    (h : db.apply now (pending ++ [.insertMessage message] ++ [.updateConversation conversation
      (withMessage conversation now' bodyText)] ++ attachments) = .ok db') :
    db'.unread id = ((db.unread id).or (if pending.any (·.creates id) then some 0 else none)).map
      fun n => if conversation.id = id then conversation.unreadCount + 1 else n := by
  have hchanged : ∀ n, column conversation.unreadCount (conversation.unreadCount + 1) n =
      conversation.unreadCount + 1 := fun n => if_neg (by omega)
  rw [unread_apply id h, List.foldl_append, foldl_onUnread_attachments id hattachments,
    List.foldl_append, List.foldl_append, foldl_onUnread_opens id hpending]
  simp [Write.onUnread, withMessage, hchanged]

/-- The message is counted in its conversation. -/
theorem arrives_store (id : String) (hpending : Opens conversation pending)
    (hmessage : message.conversationId = conversation.id ∧ message.direction = .inbound)
    (hattachments : ∀ write ∈ attachments, ∃ a, write = .insertAttachment a) :
    (pending ++ [Write.insertMessage message] ++ [Write.updateConversation conversation
      (withMessage conversation now' bodyText)] ++ attachments).countP (·.arrives id) =
        if conversation.id = id then 1 else 0 := by
  have hbefore : pending.countP (·.arrives id) = 0 := by
    refine List.countP_eq_zero.mpr fun write hwrite => ?_
    rcases hpending write hwrite with ⟨identity, rfl⟩ | ⟨rfl, _⟩ <;> simp [Write.arrives]
  have hafter : attachments.countP (·.arrives id) = 0 := by
    refine List.countP_eq_zero.mpr fun write hwrite => ?_
    obtain ⟨a, rfl⟩ := hattachments write hwrite
    simp [Write.arrives]
  rw [List.countP_append, List.countP_append, List.countP_append, hbefore, hafter]
  by_cases hid : conversation.id = id <;> simp [Write.arrives, hmessage, hid]

theorem creates_store (id : String)
    (hattachments : ∀ write ∈ attachments, ∃ a, write = .insertAttachment a) :
    (pending ++ [Write.insertMessage message] ++ [Write.updateConversation conversation
      (withMessage conversation now' bodyText)] ++ attachments).any (·.creates id) =
        pending.any (·.creates id) := by
  have hafter : attachments.any (·.creates id) = false := by
    refine List.any_eq_false.mpr fun write hwrite => ?_
    obtain ⟨a, rfl⟩ := hattachments write hwrite
    simp [Write.creates]
  rw [List.any_append, List.any_append, List.any_append, hafter]
  simp [Write.creates]

/-- A message of the conversation is counted exactly when the counter is as it was loaded. -/
theorem counts_store_iff {now : DateTime} {w : World} {db' : Db} {id : String} {n : ℤ}
    (hpending : Opens conversation pending)
    (hmessage : message.conversationId = conversation.id ∧ message.direction = .inbound)
    (hattachments : ∀ write ∈ attachments, ∃ a, write = .insertAttachment a)
    {writes : List Write} (hwrites : writes = pending ++ [.insertMessage message] ++
      [.updateConversation conversation (withMessage conversation now' bodyText)] ++ attachments)
    (h : w.db.apply now writes = .ok db') (hn : CountsUnread id w n) :
    CountsUnread id { w with db := db' } (n + writes.countP (·.arrives id)) ↔
      ∀ write ∈ writes, write.FindsLoaded id writes w.db := by
  have hcreates : writes.any (·.creates id) = pending.any (·.creates id) := by
    rw [hwrites, creates_store id hattachments]
  have hcount : writes.countP (·.arrives id) = if conversation.id = id then 1 else 0 := by
    rw [hwrites, arrives_store id hpending hmessage hattachments]
  have hafter : db'.unread id = ((w.db.unread id).or
      (if pending.any (·.creates id) then some 0 else none)).map
        fun n => if conversation.id = id then conversation.unreadCount + 1 else n := by
    rw [hwrites] at h
    exact unread_store id hpending hattachments h
  have hfinds : (∀ write ∈ writes, write.FindsLoaded id writes w.db) ↔
      (conversation.id = id → (w.db.unread id = none → pending.any (·.creates id)) ∧
        ∀ n ∈ w.db.unread id, n = conversation.unreadCount) := by
    rw [← hcreates]
    constructor
    · intro hall hid
      have hmem : Write.updateConversation conversation (withMessage conversation now' bodyText) ∈
          writes := by simp [hwrites]
      have hmore : (withMessage conversation now' bodyText).unreadCount ≠
          conversation.unreadCount := by
        show conversation.unreadCount + 1 ≠ conversation.unreadCount
        omega
      exact hall _ hmem hid hmore
    · intro hone write hwrite
      rw [hwrites, List.mem_append, List.mem_append, List.mem_append, List.mem_singleton,
        List.mem_singleton] at hwrite
      rcases hwrite with ((hold | rfl) | rfl) | hnew
      · rcases hpending write hold with ⟨identity, rfl⟩ | ⟨rfl, _⟩ <;> trivial
      · trivial
      · exact fun hid _ => hone hid
      · obtain ⟨a, rfl⟩ := hattachments write hnew
        trivial
  rw [hfinds, CountsUnread, hafter, hcount]
  rw [CountsUnread] at hn
  by_cases hid : conversation.id = id
  · simp only [hid, if_true, forall_true_left]
    cases hunread : w.db.unread id with
    | none =>
      rw [hunread] at hn
      cases hany : pending.any (·.creates id) with
      | true =>
        obtain ⟨_, hzero⟩ := id_of_creates hpending hany
        simp [hzero, ← hn]
      | false => simp [← hn]
    | some m =>
      rw [hunread] at hn
      simp only [Option.some_or, Option.map_some, Option.getD_some] at hn ⊢
      simp [← hn]
      omega
  · have hnone : pending.any (·.creates id) = false := by
      by_contra hany
      exact hid (id_of_creates hpending (by simpa using hany)).1
    simp [hid, hnone, hn]

end Store

/-- A transaction of the worker. -/
theorem counts_worker_iff {now : DateTime} {writes : List Write} (hwrites : WorkerCommit writes)
    {w : World} {db' : Db} {id : String} {n : ℤ} (h : w.db.apply now writes = .ok db')
    (hn : CountsUnread id w n) :
    CountsUnread id { w with db := db' } (n + writes.countP (·.arrives id)) ↔
      ∀ write ∈ writes, write.FindsLoaded id writes w.db := by
  have hquiet : db'.unread id = w.db.unread id → writes.countP (·.arrives id) = 0 →
      (∀ write ∈ writes, write.FindsLoaded id writes w.db) →
      (CountsUnread id { w with db := db' } (n + writes.countP (·.arrives id)) ↔
        ∀ write ∈ writes, write.FindsLoaded id writes w.db) := by
    intro hsame hcount hfinds
    refine ⟨fun _ => hfinds, fun _ => ?_⟩
    have hsum : n + ((0 : ℕ) : ℤ) = n := by omega
    rw [CountsUnread, hcount, hsum]
    show (db'.unread id).getD 0 = n
    rw [hsame]
    exact hn
  have hafter := unread_apply id h
  cases hwrites with
  | store conversation pending attachments message now' bodyText hpending hmessage hattachments =>
    exact counts_store_iff hpending hmessage hattachments rfl h hn
  | assign conversation userId assignment =>
    refine hquiet ?_ rfl fun write hwrite => ?_
    · rw [hafter]
      simp [Write.onUnread]
    · rcases List.mem_pair.mp hwrite with rfl | rfl
      · exact fun _ hne => absurd rfl hne
      · trivial
  | deliver loaded current =>
    refine hquiet hafter rfl fun write hwrite => ?_
    obtain rfl := List.mem_singleton.mp hwrite
    trivial

/-- A transaction of `mark_read`. -/
theorem counts_markRead_iff {now : DateTime} {loaded : Conversation} {w : World} {db' : Db}
    {id : String} {n : ℤ}
    (h : w.db.apply now [.updateConversation loaded { loaded with unreadCount := 0 }] = .ok db')
    (hn : CountsUnread id w n) :
    CountsUnread id { w with db := db' } (if loaded.id = id then 0 else n) ↔
      (loaded.id = id → loaded.unreadCount = 0 → ∀ n ∈ w.db.unread id, n = 0) := by
  have hafter := unread_apply id h
  simp only [List.foldl_cons, List.foldl_nil, Write.onUnread] at hafter
  rw [CountsUnread] at hn ⊢
  rw [hafter]
  by_cases hid : loaded.id = id
  · cases hunread : w.db.unread id with
    | none => simp [hid]
    | some m => by_cases hzero : 0 = loaded.unreadCount <;> simp [hid, column, hzero, @eq_comm ℤ _ 0]
  · simp [hid, hn]

/-- A call that is not a commit changes no row. -/
theorem db_answer_of_not_commit {c : Call} (hc : ∀ writes, c ≠ .commit writes) (x : Choice)
    (w : World) : (c.answer x w).2.db = w.db := by
  rcases c.writes_of_answer x w with h | h
  · rw [h]
  · generalize (c.answer x w).2 = w' at h ⊢
    cases h with
    | commit writes => exact absurd rfl (hc writes)
    | _ => rfl

/-- One call leaves the counter in order exactly when it is unraced. -/
theorem counts_iff_unraced {writers : List BadgeWriter} {id : String} {i : ℕ} {writer : BadgeWriter}
    (hwriter : writers[i]? = some writer) {c : Call} (hc : writer.Makes c) (x : Choice) (w : World)
    (n : ℤ) (hn : CountsUnread id w n) :
    CountsUnread id (c.answer x w).2 (sinceRead writers id n i c x w) ↔
      Unraced writers id i c x w := by
  by_cases hcommit : ∃ writes, c = .commit writes
  · obtain ⟨writes, rfl⟩ := hcommit
    rcases commit_cases writes x w with ⟨hlands, db', hdb', hw⟩ | ⟨hlands, hw, _⟩
    · rw [hw]
      cases writer with
      | worker sizes =>
        simp only [sinceRead, Unraced, hwriter, hlands, if_true, forall_true_left]
        exact counts_worker_iff hc hdb' hn
      | markRead orgId conversationId userId =>
        obtain ⟨loaded, rfl⟩ := hc
        have hiff := counts_markRead_iff hdb' hn
        simpa [sinceRead, Unraced, hwriter, hlands, Write.updates, Write.FindsZero] using hiff
    · rw [hw]
      cases writer with
      | worker sizes => simp [sinceRead, Unraced, hwriter, hlands, hn]
      | markRead orgId conversationId userId => simp [sinceRead, Unraced, hwriter, hlands, hn]
  · have hother : ∀ writes, c ≠ .commit writes := fun writes h => hcommit ⟨writes, h⟩
    have hsince : sinceRead writers id n i c x w = n := by
      unfold sinceRead
      split
      · exact absurd rfl (hother _)
      · exact absurd rfl (hother _)
      · rfl
    have hunraced : Unraced writers id i c x w := by
      unfold Unraced
      split
      · exact absurd rfl (hother _)
      · exact absurd rfl (hother _)
      · trivial
    refine ⟨fun _ => hunraced, fun _ => ?_⟩
    rw [hsince, CountsUnread, db_answer_of_not_commit hother]
    exact hn

/-- **The unread counter** is the number of messages that came in since the conversation was last marked
read, at every point of every interleaving of workers and `mark_read` requests, exactly when every commit
that takes effect finds the counter as its request loaded it, as far as it makes use of that. -/
theorem unread_iff_unraced (registry : Registry) (writers : List BadgeWriter) (id : String) (w : World)
    (schedule : List (ℕ × Choice)) :
    (∀ n, CountsUnread id ((badge registry writers w).run Call.answer (schedule.take n)).world
        (Pool.recorded Call.answer (sinceRead writers id) (badge registry writers w)
          (schedule.take n) ((w.db.unread id).getD 0))) ↔
      Pool.AlongAt Call.answer (Unraced writers id) (badge registry writers w) schedule := by
  refine Pool.recorded_iff (P := fun i c => ∃ writer, writers[i]? = some writer ∧ writer.Makes c)
    (fun i c x w n ⟨writer, hwriter, hc⟩ hn => counts_iff_unraced hwriter hc x w n hn)
      (fun i p hp => ?_) rfl
  rw [badge, List.getElem?_map] at hp
  cases hwriter : writers[i]? with
  | none => rw [hwriter] at hp; cases hp
  | some writer =>
    rw [hwriter] at hp
    cases hp
    exact (calls_badgeWriter registry writer).mono fun c hc => ⟨writer, rfl, hc⟩

/-! ### A conversation that is read while a message comes in -/

/-- The conversation of the org, with one message that was not read, and another one that has come in. -/
def waitingWorld : World :=
  { inboxWorld with
    db := { inboxDb with
      conversations := ⟨[⟨"conversation", "org", "identity", "open", none,
        some ⟨⟨2026, 1, 2⟩, 0, 0, 0, 0⟩, some "Hi", 1, ⟨⟨2026, 1, 1⟩, 0, 0, 0, 0⟩⟩],
          by decide, by simp⟩ }
    queues := Function.update inboxWorld.queues .inbound ((inboxWorld.queues .inbound).send
      (inboundEntry "whatsapp" "org" "connection" (whatsappText "4915" "wamid.1" "Hello?"))) }

/-- The worker, and an agent who opens the conversation. -/
def readerAndWorker : List BadgeWriter := [.worker [10], .markRead "org" "conversation" "ada"]

/-- The worker loads the conversation, it is marked read, and the worker commits. -/
def readMeanwhile : List (ℕ × Choice) :=
  calmly (List.replicate 6 0 ++ List.replicate 3 1 ++ List.replicate 9 0)

/-- Both finish, and the message that was read is counted again. -/
theorem not_countsUnread : ¬∀ (registry : Registry) (writers : List BadgeWriter) (id : String)
    (w : World) (schedule : List (ℕ × Choice)),
      ((badge registry writers w).run Call.answer schedule).Finished →
      CountsUnread id ((badge registry writers w).run Call.answer schedule).world
        (Pool.recorded Call.answer (sinceRead writers id) (badge registry writers w) schedule
          ((w.db.unread id).getD 0)) := by
  intro h
  have hcounts := h whatsappRegistry readerAndWorker "conversation" waitingWorld readMeanwhile
    (Pool.finished_of_isFinished (by decide +kernel))
  rw [CountsUnread] at hcounts
  have hunread : (((badge whatsappRegistry readerAndWorker waitingWorld).run Call.answer
      readMeanwhile).world.db.unread "conversation").getD 0 = 2 := by decide +kernel
  have hsince : Pool.recorded Call.answer (sinceRead readerAndWorker "conversation")
      (badge whatsappRegistry readerAndWorker waitingWorld) readMeanwhile
        ((waitingWorld.db.unread "conversation").getD 0) = 1 := by decide +kernel
  rw [hunread, hsince] at hcounts
  omega

end A2ZCore.Omnichannel
