import A2ZCore.Omnichannel.Ladder

/-!
# Delivery updates in any order

Channels do not deliver their updates in order. An update moves a message up the ladder `queued`,
`sent`, `delivered`, `read`, and `failed` is meant to be where a message stays. But the rank of
`failed` is the default of the lookup, which is below every rung: an update on the ladder takes a
failed message back onto it.

`confluent_iff` says when the order of the updates makes no difference: when nothing has failed, or
when no update is on the ladder.

## Main definitions

* `mark` — the status after an update
* `FinalStatus` — the status that a message with some statuses reported is meant to have
* `Confluent` — the updates may come in any order

## Main results

* `confluent_iff`
-/

namespace A2ZCore.Omnichannel

open Interaction Interaction.Proc Interaction.Contract Relational

/-! ### One status after another -/

/-- The status after an update. -/
def mark (current update : String) : String := if advances current update then update else current

/-- The status of a message of which these have been reported, its first one among them: `failed`,
if that is, and otherwise the highest on the ladder. -/
def FinalStatus (seen : List String) (status : String) : Prop :=
  if "failed" ∈ seen then status = "failed"
  else status ∈ seen ∧ ∀ other ∈ seen, statusRank other ≤ statusRank status

theorem statusRank_nonneg {status : String} (h : status ∈ ladder) : 0 ≤ statusRank status := by
  have hall : ∀ status ∈ ladder, 0 ≤ statusRank status := by decide
  exact hall status h

theorem statusRank_of_not_mem {status : String} (h : status ∉ ladder) : statusRank status = -1 := by
  unfold statusRank
  split <;> first | rfl | exact absurd (by decide) h

theorem statusRank_injective {status status' : String} (h : status ∈ ladder)
    (hrank : statusRank status = statusRank status') : status = status' := by
  have h' : status' ∈ ladder := by
    by_contra hnot
    have := statusRank_nonneg h
    rw [hrank, statusRank_of_not_mem hnot] at this
    omega
  have hall : ∀ s ∈ ladder, ∀ s' ∈ ladder, statusRank s = statusRank s' → s = s' := by decide
  exact hall status h status' h' hrank

theorem FinalStatus.perm {seen seen' : List String} {status : String} (hperm : seen.Perm seen')
    (h : FinalStatus seen status) : FinalStatus seen' status := by
  simpa only [FinalStatus, hperm.mem_iff] using h

/-- There is one such status, as the first one is known. -/
theorem FinalStatus.unique {initial status status' : String} {updates : List String}
    (hinitial : initial ∈ outboundStatuses) (h : FinalStatus (initial :: updates) status)
    (h' : FinalStatus (initial :: updates) status') : status = status' := by
  unfold FinalStatus at h h'
  split at h
  · next hfailed =>
    rw [if_pos hfailed] at h'
    rw [h, h']
  · next hfailed =>
    rw [if_neg hfailed] at h'
    have hladder : initial ∈ ladder := by
      have hall : ∀ s ∈ outboundStatuses, s ∈ ladder ∨ s = "failed" := by decide
      refine (hall initial hinitial).resolve_right ?_
      rintro rfl
      exact hfailed List.mem_cons_self
    have hrank := le_antisymm (h'.2 status h.1) (h.2 status' h'.1)
    refine statusRank_injective ?_ hrank
    by_contra hnot
    have hfirst := h.2 initial List.mem_cons_self
    have := statusRank_nonneg hladder
    rw [statusRank_of_not_mem hnot] at hfirst
    omega

/-! ### When the order makes no difference -/

theorem mark_failed (current : String) : mark current "failed" = "failed" := rfl

/-- Other updates are compared by rank. -/
theorem mark_of_ne {current update : String} (h : update ≠ "failed") :
    mark current update = if statusRank current < statusRank update then update else current := by
  have hne : (update == "failed") = false := beq_false_of_ne h
  simp only [mark, advances, hne, Bool.false_or, decide_eq_true_eq]

theorem statusRank_mark {current update : String} (h : update ≠ "failed") :
    statusRank current ≤ statusRank (mark current update) ∧
      statusRank update ≤ statusRank (mark current update) := by
  rw [mark_of_ne h]
  split <;> omega

/-- An update that is on no rung leaves the status as it is. -/
theorem mark_of_not_mem {current update : String} (h : update ≠ "failed") (hnot : update ∉ ladder) :
    mark current update = current := by
  rw [mark_of_ne h, statusRank_of_not_mem hnot, if_neg]
  by_cases hcurrent : current ∈ ladder
  · have := statusRank_nonneg hcurrent
    omega
  · rw [statusRank_of_not_mem hcurrent]
    omega

/-- Without `failed`, the highest status is kept. -/
theorem foldl_mark_of_not_failed (updates : List String) :
    ∀ initial, "failed" ∉ updates →
      updates.foldl mark initial ∈ initial :: updates ∧
        ∀ other ∈ initial :: updates,
          statusRank other ≤ statusRank (updates.foldl mark initial) := by
  induction updates with
  | nil => intro initial _; simp
  | cons update rest ih =>
    intro initial hfailed
    rw [List.mem_cons, not_or] at hfailed
    obtain ⟨hmem, hmax⟩ := ih (mark initial update) hfailed.2
    have hne : update ≠ "failed" := Ne.symm hfailed.1
    have hrank := @statusRank_mark initial update hne
    have hmark := hmax _ List.mem_cons_self
    rw [List.foldl_cons]
    constructor
    · rcases List.mem_cons.mp hmem with h | h
      · rw [h, mark_of_ne hne]
        split <;> simp
      · simp [h]
    · intro other hother
      simp only [List.mem_cons] at hother
      rcases hother with rfl | rfl | h
      · exact hrank.1.trans hmark
      · exact hrank.2.trans hmark
      · exact hmax other (List.mem_cons_of_mem _ h)

/-- Without updates on the ladder, the status changes to `failed` at most. -/
theorem foldl_mark_of_not_mem_ladder (updates : List String) :
    ∀ initial, (∀ update ∈ updates, update ∉ ladder) →
      updates.foldl mark initial = if "failed" ∈ updates then "failed" else initial := by
  induction updates with
  | nil => intro initial _; rfl
  | cons update rest ih =>
    intro initial hnot
    rw [List.foldl_cons, ih _ fun other h => hnot other (List.mem_cons_of_mem _ h)]
    by_cases hfailed : update = "failed"
    · subst hfailed
      simp [mark_failed]
    · rw [mark_of_not_mem hfailed (hnot update List.mem_cons_self)]
      simp [Ne.symm hfailed]

/-- The order of some updates makes no difference: nothing has failed, or no update is on the
ladder. -/
def Unmixed (initial : String) (updates : List String) : Prop :=
  "failed" ∉ initial :: updates ∨ ∀ update ∈ updates, update ∉ ladder

theorem Unmixed.perm {initial : String} {updates updates' : List String}
    (hperm : updates.Perm updates') (h : Unmixed initial updates) : Unmixed initial updates' := by
  simpa only [Unmixed, List.mem_cons, hperm.mem_iff] using h

theorem Unmixed.outcome {initial : String} {updates : List String} (h : Unmixed initial updates) :
    FinalStatus (initial :: updates) (updates.foldl mark initial) := by
  unfold FinalStatus
  rcases h with h | h
  · rw [if_neg h]
    exact foldl_mark_of_not_failed updates initial fun hmem => h (List.mem_cons_of_mem _ hmem)
  · rw [foldl_mark_of_not_mem_ladder updates initial h]
    by_cases hupdates : "failed" ∈ updates
    · simp [hupdates]
    · rw [if_neg hupdates]
      split
      · next hfailed => simpa [hupdates, eq_comm] using hfailed
      · refine ⟨List.mem_cons_self, fun other hother => ?_⟩
        rcases List.mem_cons.mp hother with rfl | hother
        · exact le_rfl
        · rw [statusRank_of_not_mem (h other hother)]
          by_cases hinitial : initial ∈ ladder
          · have := statusRank_nonneg hinitial
            omega
          · rw [statusRank_of_not_mem hinitial]

/-- A message that has failed stays so under the updates that are left. -/
theorem Unmixed.foldl_failed {initial : String} {updates updates' : List String}
    (h : Unmixed initial (updates ++ updates')) (hfailed : updates.foldl mark initial = "failed") :
    updates'.foldl mark "failed" = "failed" := by
  rcases h with h | h
  · have hmem := (foldl_mark_of_not_failed updates initial fun hmem => h (by simp [hmem])).1
    rw [hfailed] at hmem
    rcases List.mem_cons.mp hmem with rfl | hmem
    · exact absurd List.mem_cons_self h
    · exact absurd (by simp [hmem]) h
  · rw [foldl_mark_of_not_mem_ladder updates' _ fun other hother => h other (by simp [hother])]
    split <;> rfl

/-- After an update on the ladder, a message is on the ladder. -/
theorem mark_ne_failed {current update : String} (h : update ∈ ladder) :
    mark current update ≠ "failed" := by
  have hne : update ≠ "failed" := by
    rintro rfl
    exact absurd h (by decide)
  rw [mark_of_ne hne]
  split
  · exact hne
  · next hrank =>
    rintro rfl
    have hfailed : statusRank "failed" = -1 := rfl
    have := statusRank_nonneg h
    omega

/-- Where something has failed and an update is on the ladder, the updates can come in an order
that does not end in `failed`. -/
theorem exists_perm_of_not_unmixed {initial : String} {α : Type} [DecidableEq α]
    {status : α → String} {updates : List α} (h : ¬ Unmixed initial (updates.map status)) :
    ∃ updates' : List α, updates'.Perm updates ∧
      ¬ FinalStatus (initial :: updates'.map status)
        ((updates'.map status).foldl mark initial) := by
  rw [Unmixed, not_or, not_not] at h
  push Not at h
  obtain ⟨hfailed, _, hmem, hladder⟩ := h
  obtain ⟨update, hupdate, rfl⟩ := List.mem_map.mp hmem
  have hperm : (updates.erase update ++ [update]).Perm updates :=
    List.perm_append_comm.trans (List.perm_cons_erase hupdate).symm
  refine ⟨updates.erase update ++ [update], hperm, fun houtcome => ?_⟩
  rw [FinalStatus, if_pos, List.map_append, List.foldl_append] at houtcome
  · exact mark_ne_failed hladder houtcome
  · rwa [((hperm.map status).cons initial).mem_iff]

/-! ### Runs -/

/-- The delivery updates of a message, one after another. -/
def applyAll (m : Message) (updates : List DeliveryStatusUpdate) : Prog Unit :=
  Proc.forEach updates () fun _ update => applyDeliveryStatus m.orgId m.channelType update

/-- The update of a row that is there. -/
theorem mem_of_updateStatus {now : DateTime} {row : Message} {status : String} {db db' : Db}
    (h : db.apply now [.updateMessage row { row with status := status }] = .ok db')
    (hrow : row ∈ db.messages.rows) : { row with status := status } ∈ db'.messages.rows := by
  have hafter := message_update h row.id
  rw [Db.message_of_mem hrow, Option.map_some, if_pos rfl] at hafter
  have hpatch : Message.patch row { row with status := status } row =
      { row with status := status } := by
    simp only [Message.patch, column_self]
  rw [hpatch] at hafter
  exact (Db.mem_of_message hafter).1

/-- An update finds the message that it names. -/
theorem select_of_mem {m : Message} {db : Db} (hm : m ∈ db.messages.rows) :
    scalarOneOrNone (db.messages.rows.filter fun row => row.orgId == m.orgId &&
      row.channelType == m.channelType && row.externalMessageId == m.externalMessageId) =
        .ok (some m) := by
  rw [db.messages.filter_eq_singleton_of_clash hm (by simp)]
  · rfl
  · intro row hrow
    simp only [Bool.and_eq_true, beq_iff_eq] at hrow
    simp [messageSchema, hrow.1.2, hrow.2]

/-- A program of Core leaves the tables alone. -/
theorem db_of_core {α : Type} {p : Core.Prog α} {w w' : World} {a : α}
    (h : Yields Call.answer (core p) w a w') : w'.db = w.db := by
  obtain ⟨o, ho⟩ := h
  have hcalls : (core p).Calls fun c => ∃ c', c = Call.core c' :=
    Calls.embed ((calls_true p).mono fun c _ => ⟨c, rfl⟩)
  have htrans : ∀ u v w : World, v.db = u.db → w.db = v.db → w.db = u.db :=
    fun _ _ _ h h' => h'.trans h
  have hrel : (exec Call.answer (core p) o w).2.db = w.db :=
    exec_rel_of_calls (S := fun w w' => w'.db = w.db) (fun _ => rfl) htrans
      (fun c hc x w => by obtain ⟨c', rfl⟩ := hc; rfl) hcalls o w
  rwa [ho] at hrel

/-- An update that is applied marks the message. -/
theorem mem_of_applied {m : Message} {update : DeliveryStatusUpdate} {w w' : World}
    (hm : m ∈ w.db.messages.rows) (hname : update.externalMessageId = m.externalMessageId)
    (h : Yields Call.answer (applyDeliveryStatus m.orgId m.channelType update) w () w') :
    { m with status := mark m.status update.status } ∈ w'.db.messages.rows := by
  obtain ⟨found, w₁, hselect, h⟩ := Yields.bind_inv h
  obtain ⟨x, hx⟩ := Yields.perform_inv hselect
  rw [Call.answer, hname, select_of_mem hm] at hx
  obtain rfl : w₁ = w := (congrArg Prod.snd hx).symm.trans (Core.Fate.snd_query _ _ _)
  obtain rfl : some m = found := Except.ok.inj (Core.Fate.eq_of_query (congrArg Prod.fst hx))
  replace h : Yields Call.answer (if advances m.status update.status then _ else _) w₁ () w' := h
  unfold mark
  split at h
  · next hadvances =>
    rw [if_pos hadvances]
    obtain ⟨_, w₂, hcommit, h⟩ := Yields.bind_inv h
    obtain ⟨y, hy⟩ := Yields.perform_inv hcommit
    rw [db_of_core h]
    rcases commit_cases [.updateMessage m { m with status := update.status }] y w₁ with
      ⟨_, db, happly, hafter⟩ | ⟨_, _, e, hfailed⟩
    · rw [hy] at hafter
      rw [show w₂.db = db from congrArg World.db hafter]
      exact mem_of_updateStatus happly hm
    · rw [hy] at hfailed
      cases hfailed
  · next hadvances =>
    rw [if_neg hadvances]
    exact (Yields.ret_inv h).2 ▸ hm

/-- Updates that are applied, one after another, mark the message in that order. -/
theorem mem_of_appliedAll {updates : List DeliveryStatusUpdate} :
    ∀ {m : Message} {w w' : World}, m ∈ w.db.messages.rows →
      (∀ update ∈ updates, update.externalMessageId = m.externalMessageId) →
      Yields Call.answer (applyAll m updates) w () w' →
      { m with status := (updates.map (·.status)).foldl mark m.status } ∈ w'.db.messages.rows := by
  induction updates with
  | nil =>
    intro m w w' hm _ h
    exact (Yields.ret_inv h).2 ▸ hm
  | cons update rest ih =>
    intro m w w' hm hnames h
    obtain ⟨_, w₁, hfirst, h⟩ := Yields.bind_inv h
    have hmarked := mem_of_applied hm (hnames update List.mem_cons_self) hfirst
    exact ih hmarked (fun other hother => hnames other (List.mem_cons_of_mem _ hother)) h

/-- An update that names a message can be applied. -/
theorem exists_applied {m : Message} {update : DeliveryStatusUpdate} {w : World}
    (hm : m ∈ w.db.messages.rows) (hname : update.externalMessageId = m.externalMessageId) :
    ∃ w', Yields Call.answer (applyDeliveryStatus m.orgId m.channelType update) w () w' := by
  have hselect : (Call.selectByExternalId m.orgId m.channelType update.externalMessageId).answer
      (.calm "select") w = (.ok (some m), w) := by
    rw [Call.answer, hname, select_of_mem hm]
    rfl
  have hclash : ∀ a b, messageSchema.clash
      (if a.id = m.id then .patch m { m with status := update.status } a else a)
      (if b.id = m.id then .patch m { m with status := update.status } b else b) =
        messageSchema.clash a b := by
    intro a b
    split <;> split <;> simp [messageSchema, Message.patch, Message.sameDedupKey]
  obtain ⟨t, ht⟩ := w.db.messages.exists_modify (f := fun row =>
    if row.id = m.id then .patch m { m with status := update.status } row else row)
    (fun _ => rfl) hclash
  have hcommit : (Call.commit [.updateMessage m { m with status := update.status }]).answer
      (.calm "commit") w = (.ok (), { w with db := { w.db with messages := t } }) := by
    rw [Call.answer, Db.apply_singleton, Write.apply, ht]
    rfl
  refine Exists.elim ?_ fun w' h => ⟨w', (Yields.perform _ hselect).bind h⟩
  show ∃ w', Yields Call.answer (if advances m.status update.status then _ else _) w () w'
  split
  · exact ⟨_, (Yields.perform _ hcommit).bind
      (Yields.call (x := Choice.calm "publish") (Yields.ret () _))⟩
  · exact ⟨w, Yields.ret () w⟩

theorem exists_appliedAll {updates : List DeliveryStatusUpdate} :
    ∀ {m : Message} {w : World}, m ∈ w.db.messages.rows →
      (∀ update ∈ updates, update.externalMessageId = m.externalMessageId) →
      ∃ w', Yields Call.answer (applyAll m updates) w () w' := by
  induction updates with
  | nil => intro m w _ _; exact ⟨w, Yields.ret () w⟩
  | cons update rest ih =>
    intro m w hm hnames
    have hname := hnames update List.mem_cons_self
    obtain ⟨w₁, hfirst⟩ := exists_applied hm hname
    obtain ⟨w', hrest⟩ := ih (mem_of_applied hm hname hfirst) fun other hother =>
      hnames other (List.mem_cons_of_mem _ hother)
    exact ⟨w', hfirst.bind hrest⟩

/-! ### Confluence -/

/-- The delivery updates of a message may come in any order: it gets the status that the reports
mean, the same one whatever their order, and once it has failed it stays so. -/
structure Confluent (m : Message) (updates : List DeliveryStatusUpdate) (w : World) : Prop where
  settles : ∀ us : List DeliveryStatusUpdate, us.Perm updates → ∀ w',
    Yields Call.answer (applyAll m us) w () w' → ∃ status, w'.db.statusOf m.id = some status ∧
      FinalStatus (m.status :: us.map (·.status)) status
  permuted : ∀ us us' : List DeliveryStatusUpdate, us.Perm updates → us'.Perm updates → ∀ w₁ w₂,
    Yields Call.answer (applyAll m us) w () w₁ → Yields Call.answer (applyAll m us') w () w₂ →
      w₁.db.statusOf m.id = w₂.db.statusOf m.id
  terminal : ∀ us us' : List DeliveryStatusUpdate, (us ++ us').Perm updates → ∀ w₁ w₂,
    Yields Call.answer (applyAll m us) w () w₁ → Yields Call.answer (applyAll m us') w₁ () w₂ →
      w₁.db.statusOf m.id = some "failed" → w₂.db.statusOf m.id = some "failed"

theorem statusOf_of_mem {m : Message} {status : String} {db : Db}
    (h : { m with status := status } ∈ db.messages.rows) : db.statusOf m.id = some status := by
  have hrow := Db.message_of_mem h
  rw [Db.statusOf]
  exact congrArg (Option.map (·.status)) hrow

/-- The status that updates leave. -/
theorem statusOf_of_appliedAll {m : Message} {updates : List DeliveryStatusUpdate} {w w' : World}
    (hm : m ∈ w.db.messages.rows)
    (hnames : ∀ update ∈ updates, update.externalMessageId = m.externalMessageId)
    (h : Yields Call.answer (applyAll m updates) w () w') :
    w'.db.statusOf m.id = some ((updates.map (·.status)).foldl mark m.status) :=
  statusOf_of_mem (mem_of_appliedAll hm hnames h)

theorem confluent_of_unmixed {m : Message} {updates : List DeliveryStatusUpdate} {w : World}
    (hm : m ∈ w.db.messages.rows) (hstatus : m.status ∈ outboundStatuses)
    (hnames : ∀ update ∈ updates, update.externalMessageId = m.externalMessageId)
    (h : Unmixed m.status (updates.map (·.status))) : Confluent m updates w where
  settles us hperm w' hrun :=
    ⟨_, statusOf_of_appliedAll hm (fun u hu => hnames u (hperm.mem_iff.mp hu)) hrun,
      (h.perm (hperm.symm.map _)).outcome⟩
  permuted us us' hperm hperm' w₁ w₂ h₁ h₂ := by
    have houtcome := (h.perm (hperm.symm.map (·.status))).outcome
    have houtcome' := (h.perm (hperm'.symm.map (·.status))).outcome
    rw [statusOf_of_appliedAll hm (fun u hu => hnames u (hperm.mem_iff.mp hu)) h₁,
      statusOf_of_appliedAll hm (fun u hu => hnames u (hperm'.mem_iff.mp hu)) h₂,
      houtcome.unique hstatus (houtcome'.perm (((hperm'.trans hperm.symm).map _).cons _))]
  terminal us us' hperm w₁ w₂ h₁ h₂ hfailed := by
    have hnames' : ∀ u ∈ us ++ us', u.externalMessageId = m.externalMessageId := fun u hu =>
      hnames u (hperm.mem_iff.mp hu)
    have hmarked := mem_of_appliedAll hm (fun u hu => hnames' u (by simp [hu])) h₁
    rw [statusOf_of_mem hmarked, Option.some_inj] at hfailed
    have hunmixed := h.perm (hperm.symm.map (·.status))
    rw [List.map_append] at hunmixed
    have hafter := statusOf_of_appliedAll hmarked (fun u hu => hnames' u (by simp [hu])) h₂
    rw [hafter, Option.some_inj]
    show (us'.map (·.status)).foldl mark ((us.map (·.status)).foldl mark m.status) = "failed"
    rw [hfailed]
    exact hunmixed.foldl_failed hfailed

/-- **The delivery updates of an outbound message may come in any order exactly when** neither it
nor any of them is `failed`, or none of them is on the ladder. -/
theorem confluent_iff (m : Message) (updates : List DeliveryStatusUpdate) (w : World)
    (hm : m ∈ w.db.messages.rows) (hstatus : m.status ∈ outboundStatuses)
    (hnames : ∀ update ∈ updates, update.externalMessageId = m.externalMessageId) :
    Confluent m updates w ↔ "failed" ∉ m.status :: updates.map (·.status) ∨
      ∀ status ∈ updates.map (·.status), status ∉ ladder := by
  refine ⟨fun h => ?_, confluent_of_unmixed hm hstatus hnames⟩
  by_contra hmixed
  obtain ⟨us, hperm, hnot⟩ := exists_perm_of_not_unmixed hmixed
  have hnames' : ∀ u ∈ us, u.externalMessageId = m.externalMessageId := fun u hu =>
    hnames u (hperm.mem_iff.mp hu)
  obtain ⟨w', hrun⟩ := exists_appliedAll hm hnames'
  obtain ⟨status, hstatus', houtcome⟩ := h.settles us hperm w' hrun
  rw [statusOf_of_appliedAll hm hnames' hrun, Option.some_inj] at hstatus'
  exact hnot (hstatus' ▸ houtcome)

/-- The row of the reply. -/
def storedReply : Message := { queuedReply with createdAt := ⟨⟨2026, 1, 1⟩, 0, 0, 0, 0⟩ }

/-- A reply that is reported sent, and read before it is reported delivered. -/
theorem confluent_iff_storedReply : Confluent storedReply
    [⟨"pending:r5", "sent"⟩, ⟨"pending:r5", "read"⟩, ⟨"pending:r5", "delivered"⟩] repliedWorld :=
  (confluent_iff storedReply _ repliedWorld (by decide +kernel) (by decide)
    (by decide)).mpr (.inl (by decide))

/-- A reply that is reported failed, and delivered. -/
theorem not_confluent : ¬ ∀ (m : Message) (updates : List DeliveryStatusUpdate) (w : World),
    m ∈ w.db.messages.rows → m.status ∈ outboundStatuses →
      (∀ update ∈ updates, update.externalMessageId = m.externalMessageId) →
      Confluent m updates w := by
  intro h
  have hmem : storedReply ∈ repliedWorld.db.messages.rows := by decide +kernel
  have hconfluent := h storedReply [⟨"pending:r5", "failed"⟩, ⟨"pending:r5", "delivered"⟩]
    repliedWorld hmem (by decide) (by decide)
  obtain ⟨w', hrun⟩ : ∃ w', Yields Call.answer (applyAll storedReply
      [⟨"pending:r5", "failed"⟩, ⟨"pending:r5", "delivered"⟩]) repliedWorld () w' :=
    exists_appliedAll hmem (by decide)
  obtain ⟨status, hstatus, houtcome⟩ := hconfluent.settles _ (.refl _) w' hrun
  rw [statusOf_of_appliedAll hmem (by decide) hrun, Option.some_inj] at hstatus
  subst hstatus
  exact absurd houtcome (by unfold FinalStatus; decide)

end A2ZCore.Omnichannel
