import A2ZCore.Omnichannel.Claims

/-!
# What a successful claim has announced

A claim commits the assignment first, and writes the audit entry and publishes the event afterwards.
Where one of these fails, so does the claim; but the assignment stands, and the next attempt by the same
user returns early, without announcing anything. A claim that has succeeded has been announced in the
runs in which everything that follows a commit goes through.

## Main definitions

* `Appends` — audit entries and events are only added
* `Announced` — the audit entry and the event of a claim
* `Announces` — the condition on the calls
* `claimAttempts` — claims of one conversation by one user, one after the other

## Main results

* `announced_of_returned` — where each call meets the condition, success implies the announcement
-/

namespace A2ZCore.Core

open Interaction Interaction.Proc Interaction.Contract

/-! ### Audit entries and events -/

/-- Audit entries and events are only added. -/
structure Appends (w w' : World) : Prop where
  audit : w.audit <+: w'.audit
  events : w.events <+: w'.events

theorem Appends.refl (w : World) : Appends w w := ⟨List.prefix_rfl, List.prefix_rfl⟩

theorem Appends.trans {u v w : World} (h : Appends u v) (h' : Appends v w) : Appends u w :=
  ⟨h.audit.trans h'.audit, h.events.trans h'.events⟩

theorem appends_answer (c : Call) (x : Choice) (w : World) : Appends w (c.answer x w).2 := by
  rcases c.writes_of_answer x w with h | h
  · rw [h]
    exact .refl w
  · generalize (c.answer x w).2 = w' at h ⊢
    cases h with
    | audit event => exact ⟨List.prefix_append _ _, List.prefix_rfl⟩
    | events entry => exact ⟨List.prefix_rfl, List.prefix_append _ _⟩
    | _ => exact ⟨List.prefix_rfl, List.prefix_rfl⟩

/-- The audit write succeeds, and EventBridge takes the event, even where the response is lost. -/
def Call.Announces : Call → Choice → Prop
  | .putAuditItem _, x => x.fate = .ok
  | .putEvents _, x => (∀ e, x.fate ≠ .lost e) ∧ x.rejected = none
  | _, _ => True

theorem Fate.ok_ne_lost (e : PyErr) : Fate.ok ≠ .lost e := by simp

theorem Fate.late_ne_lost (e e' : PyErr) : Fate.late e ≠ .lost e' := by simp

instance (fate : Fate) : Decidable (∀ e, fate ≠ .lost e) :=
  match fate with
  | .lost e => .isFalse fun h => h e rfl
  | .ok => .isTrue Fate.ok_ne_lost
  | .late e => .isTrue (Fate.late_ne_lost e)

instance (c : Call) (x : Choice) : Decidable (c.Announces x) := by
  apply Call.casesOn (motive := fun c => Decidable (c.Announces x)) c
  case putAuditItem => exact fun _ => inferInstanceAs (Decidable (x.fate = .ok))
  case putEvents =>
    exact fun _ => inferInstanceAs (Decidable ((∀ e, x.fate ≠ .lost e) ∧ x.rejected = none))
  all_goals intros; exact .isTrue trivial

/-- The setting of an announcement. -/
def announcing : Contract Call Call.Resp PyErr Choice World where
  answer := Call.answer
  rely := Appends
  admits c x _ := c.Announces x
  guar _ _ := Appends
  rely_refl := .refl
  rely_trans h h' := h.trans h'

theorem announcing_rest {α : Type} (p : Prog α) {w : World} {Q : Except PyErr α → World → Prop}
    (h : ∀ r w', Appends w w' → Q r w') : announcing.wp p w Q :=
  wp_of_calls (P := fun _ => True)
    (fun c _ x w' _ => ⟨appends_answer c x w', appends_answer c x w'⟩) p.calls_true p.returns_true
    (fun a w' hw _ => h (.ok a) w' hw) fun e w' hw => h (.error e) w' hw

/-- The entry that `log_audit` writes. -/
theorem announcing_logAudit (orgId actorId action resourceType resourceId : String) (metadata : Json)
    (w : World) : announcing.wp (logAudit orgId actorId action resourceType resourceId metadata) w
      fun r w' => ∃ event ∈ w'.audit, r = .ok event ∧ event.orgId = orgId ∧ event.actorId = actorId ∧
        event.action = action ∧ event.resourceType = resourceType ∧ event.resourceId = resourceId ∧
          event.metadata = metadata := by
  refine wp_bind (wp_perform fun w₁ _ x₁ _ => ⟨appends_answer _ x₁ w₁, ?_⟩)
  refine wp_bind (wp_perform fun w₂ _ x₂ _ => ⟨appends_answer _ x₂ w₂, ?_⟩)
  refine wp_bind (wp_handle (wp_perform fun w₃ _ x₃ h₃ => ⟨appends_answer _ x₃ w₃, ?_⟩))
  have hfate : x₃.fate = .ok := h₃
  show announcing.caught _ _ (Call.answer (.putAuditItem _) x₃ w₃).1
    (Call.answer (.putAuditItem _) x₃ w₃).2
  rw [Call.answer, hfate]
  exact ⟨_, List.mem_append_right _ List.mem_cons_self, rfl, rfl, rfl, rfl, rfl, rfl, rfl⟩

/-- The event that `publish_event` publishes, whether it then returns or not. -/
theorem announcing_publishEvent (orgId eventType : String) (data : List (String × Json))
    (source : String) (w : World) :
    announcing.wp (publishEvent orgId eventType data source) w fun _ w' =>
      ⟨source, eventType, .obj (Json.set "org_id" (.str orgId) data)⟩ ∈ w'.events := by
  set entry : Event := ⟨source, eventType, .obj (Json.set "org_id" (.str orgId) data)⟩ with hentry
  refine wp_bind (wp_handle (wp_perform fun w₁ _ x h => ⟨appends_answer _ x w₁, ?_⟩))
  show announcing.caught _ _ ((Call.putEvents entry).answer x w₁).1
    ((Call.putEvents entry).answer x w₁).2
  have hevents : entry ∈ ((Call.putEvents entry).answer x w₁).2.events := by
    rw [Call.answer, h.2]
    cases hfate : x.fate with
    | lost e => exact absurd hfate (h.1 e)
    | ok | late e => exact List.mem_append_right _ List.mem_cons_self
  generalize (Call.answer (.putEvents entry) x w₁).2 = w₂ at hevents ⊢
  cases ((Call.putEvents entry).answer x w₁).1 with
  | error e =>
    show announcing.wp _ w₂ _
    dsimp only
    split <;> exact hevents
  | ok resp => cases resp <;> exact hevents

end A2ZCore.Core

namespace A2ZCore.Omnichannel

open Interaction Interaction.Proc Interaction.Contract Relational

/-! ### The announcement of a claim -/

/-- The claim of the conversation by the user has an audit entry and an event. -/
structure Announced (orgId conversationId userId : String) (w : Core.World) : Prop where
  audit : ∃ event ∈ w.audit, event.orgId = orgId ∧ event.actorId = userId ∧
    event.action = "conversation.assigned" ∧ event.resourceType = "conversation" ∧
      event.resourceId = conversationId ∧ event.metadata =
        .obj [("assigned_user_id", .str userId), ("reason", .str "claim")]
  event : ⟨"a2z.omnichannel", "conversation.assigned", .obj (Json.set "org_id" (.str orgId)
    [("conversation_id", .str conversationId), ("assigned_user_id", .str userId),
      ("assigned_by", .str userId), ("reason", .str "claim")])⟩ ∈ w.events

theorem Announced.appends {orgId conversationId userId : String} {w w' : Core.World}
    (h : Announced orgId conversationId userId w) (hw : Core.Appends w w') :
    Announced orgId conversationId userId w' := by
  obtain ⟨⟨event, hmem, hevent⟩, hpublished⟩ := h
  exact ⟨⟨event, hw.audit.subset hmem, hevent⟩, hw.events.subset hpublished⟩

/-- `_record_assignment` announces the claim, or fails after the event has been published. -/
theorem announcing_announceAssignment (conversation : Conversation) (userId : String)
    (w : Core.World) :
    Core.announcing.wp (announceAssignment conversation userId userId "claim") w
      fun _ w' => Announced conversation.orgId conversation.id userId w' := by
  refine wp_bind (wp_mono (fun r w₁ hr => ?_) (Core.announcing_logAudit _ _ _ _ _ _ w))
  obtain ⟨event, hmem, rfl, hevent⟩ := hr
  refine wp_bind (wp_mono (fun r w₂ hr => ?_)
    (wp_and_rely (fun _ _ _ _ h => h) (Core.announcing_publishEvent _ _ _ _ w₁)))
  obtain ⟨hpublished, h₂⟩ := hr
  have hannounced : Announced conversation.orgId conversation.id userId w₂ :=
    ⟨⟨event, h₂.audit.subset hmem, hevent⟩, hpublished⟩
  cases r with
  | error e => exact hannounced
  | ok eventId => exact Core.announcing_rest _ fun r w₃ h₃ => hannounced.appends h₃

/-! ### One attempt -/

/-- What follows a commit goes through: the commit is acknowledged, the audit entry is written, and
EventBridge takes the event. -/
def Announces : Call → Choice → World → Prop
  | .commit writes, x, w => x.fate.Lands (w.db.apply x.now writes) → x.fate = .ok
  | .core c, x, _ => c.Announces x.toChoice
  | _, _, _ => True

/-- Nothing is committed, and audit entries and events are added. -/
structure Adds (w w' : World) : Prop where
  db : w'.db = w.db
  core : Core.Appends w.core w'.core

theorem Adds.refl (w : World) : Adds w w := ⟨rfl, .refl _⟩

theorem Adds.trans {u v w : World} (h : Adds u v) (h' : Adds v w) : Adds u w :=
  ⟨h'.db.trans h.db, h.core.trans h'.core⟩

theorem appends_core_answer (c : Call) (x : Choice) (w : World) :
    Core.Appends w.core (c.answer x w).2.core := by
  rcases c.writes_of_answer x w with h | h
  · rw [h]
    exact .refl _
  · generalize (c.answer x w).2 = w' at h ⊢
    cases h with
    | core c x => exact Core.appends_answer c x w.core
    | _ => exact .refl _

theorem adds_of_harmless {c : Call} (hc : c.Harmless) (x : Choice) (w : World) :
    Adds w (c.answer x w).2 :=
  ⟨(calm_answer hc x w).db, appends_core_answer c x w⟩

/-- The setting of an attempt. -/
def attempting : Contract Call Call.Resp PyErr Choice World where
  answer := Call.answer
  rely := Adds
  admits := Announces
  guar _ _ w w' := Core.Appends w.core w'.core
  rely_refl := .refl
  rely_trans h h' := h.trans h'

theorem rests_attempting : Rests attempting :=
  ⟨rfl, fun _ _ h => h.db, fun _ hc x w => ⟨appends_core_answer _ x w, adds_of_harmless hc x w⟩⟩

section Attempt

variable {orgId conversationId userId : String}

/-- An assignment to the user has been announced. -/
def Told (orgId conversationId userId : String) (w : World) : Prop :=
  w.db.AssignedTo conversationId userId → Announced orgId conversationId userId w.core

theorem Told.adds {w w' : World} (h : Told orgId conversationId userId w) (hw : Adds w w') :
    Told orgId conversationId userId w' := by
  intro hassigned
  rw [hw.db] at hassigned
  exact (h hassigned).appends hw.core

/-- What holds after an attempt. -/
def Attempted (orgId conversationId userId : String) (r : Except PyErr Conversation) (w : World) :
    Prop :=
  Told orgId conversationId userId w ∧ ∀ c, r = .ok c → w.db.AssignedTo conversationId userId

theorem attempting_recordAssignment {loaded : Conversation} {w : World}
    (hrow : w.db.conversation conversationId = some loaded) (horg : loaded.orgId = orgId)
    (htold : Told orgId conversationId userId w) :
    attempting.wp (recordAssignment loaded userId userId "claim") w
      (Attempted orgId conversationId userId) := by
  have hid : loaded.id = conversationId := by simpa using List.find?_some hrow
  have huuid : (core (Core.run .uuid4)).Calls Call.Harmless :=
    Calls.embed (Calls.perform trivial)
  refine rests_attempting.bind huuid (fun id w₁ h₁ => ?_) fun e w' h => ⟨htold.adds h, nofun⟩
  set writes : List Write := [.updateConversation loaded { loaded with assignedUserId := some userId },
    .insertAssignment (newAssignment id loaded userId userId "claim")] with hwrites
  refine wp_bind (wp_perform fun w₂ h₂ x hx => ⟨appends_core_answer _ x w₂, ?_⟩)
  have hadds := Adds.trans h₁ h₂
  show attempting.next _ _ ((Call.commit writes).answer x w₂).1 ((Call.commit writes).answer x w₂).2
  rcases commit_cases writes x w₂ with ⟨hlands, db, hdb, hw⟩ | ⟨_, hw, e, he⟩
  · -- The commit is acknowledged, and the announcement goes through.
    have hreply : ((Call.commit writes).answer x w₂).1 = .ok () := by
      have hfate : x.fate = .ok := hx hlands
      rw [Call.answer, Core.Fate.transact, hdb, hfate]
      rfl
    rw [hreply, hw]
    have hassigned : db.AssignedTo conversationId userId := by
      rw [← hadds.db, ← hid] at hrow
      have hafter := conversation_assign hdb hrow
      rw [column_self, hid] at hafter
      exact ⟨_, hafter, rfl⟩
    refine wp_bind (wp_mono (fun r w₃ hr => ?_) (wp_embed attempting Core.announcing Call.core
      (fun _ r => r) Choice.toChoice World.core (P := fun c => c.KeepsSettings)
      (fun w w' h => h.core) (fun _ _ _ h => h) (fun c x w => ?_)
      (fun c hc x w _ => rests_attempting.harmless (.core c) hc x w) ?_
      (announcing_announceAssignment loaded userId _)))
    · obtain ⟨hannounced, hafter⟩ := hr
      rw [horg, hid] at hannounced
      cases r with
      | error e => exact ⟨fun _ => hannounced, nofun⟩
      | ok _ =>
        refine ⟨fun _ => hannounced, fun _ _ => ?_⟩
        rw [hafter.db]
        exact hassigned
    · refine Prod.ext ?_ rfl
      show ((Call.core c).answer x w).1.map (fun r => r) = _
      cases hr : ((Call.core c).answer x w).1 with
      | ok a => exact hr.symm
      | error e => exact hr.symm
    · refine Calls.bind (Core.calls_logAudit _ _ _ _ _ _) fun _ => ?_
      refine Calls.bind (Core.calls_publishEvent _ _ _ _) fun _ => ?_
      exact Calls.bind (Core.calls_publishUpdate _ _ _) fun _ => Core.calls_publishUpdate _ _ _
  · rw [he, hw]
    exact ⟨htold.adds hadds, nofun⟩

theorem attempting_claim {w : World} (htold : Told orgId conversationId userId w) :
    attempting.wp (claim orgId conversationId userId) w (Attempted orgId conversationId userId) := by
  refine rests_attempting.bind (calls_harmless_requireRole _ _ _ _) (fun _ w₁ h₁ => ?_)
    fun e w' h => ⟨htold.adds h, nofun⟩
  have htold₁ := htold.adds h₁
  refine rests_attempting.loadConversation (fun c w₂ h₂ hrow horg => ?_)
    fun e w' h => ⟨htold₁.adds h, nofun⟩
  have htold₂ := htold₁.adds h₂
  rw [← (show Adds w₁ w₂ from h₂).db] at hrow
  split
  · next hmine => exact ⟨htold₂, fun _ _ => ⟨c, hrow, hmine⟩⟩
  · split
    · exact ⟨htold₂, nofun⟩
    · exact attempting_recordAssignment hrow horg htold₂

end Attempt

instance (c : Call) (x : Choice) (w : World) : Decidable (Announces c x w) := by
  unfold Announces
  split <;> infer_instance

/-! ### Attempts one after the other -/

/-- What the attempts of a user to claim a conversation return or raise, and the state after them. An
attempt that is cut off is neither. -/
def claimAttempts (orgId conversationId userId : String) :
    List (Oracle Choice) → World → List (Except PyErr Conversation) × World
  | [], w => ([], w)
  | o :: os, w =>
    let attempt := exec Call.answer (claim orgId conversationId userId) o w
    let later := claimAttempts orgId conversationId userId os attempt.2
    (attempt.1.toList ++ later.1, later.2)

/-- Each call of the attempts meets a condition. -/
def AlongAttempts (Φ : Call → Choice → World → Prop) (orgId conversationId userId : String) :
    List (Oracle Choice) → World → Prop
  | [], _ => True
  | o :: os, w => Along Call.answer Φ (claim orgId conversationId userId) o w ∧
      AlongAttempts Φ orgId conversationId userId os
        (exec Call.answer (claim orgId conversationId userId) o w).2

theorem appends_attempts (orgId conversationId userId : String) (os : List (Oracle Choice))
    (w : World) : Core.Appends w.core (claimAttempts orgId conversationId userId os w).2.core := by
  induction os generalizing w with
  | nil => exact .refl _
  | cons o os ih =>
    refine Core.Appends.trans ?_ (ih _)
    exact exec_rel (S := fun w w' => Core.Appends w.core w'.core) (fun w => .refl _)
      (fun u v w (h : Core.Appends u.core v.core) (h' : Core.Appends v.core w.core) => h.trans h')
      appends_core_answer _ o w

theorem announced_of_told {orgId conversationId userId : String} {os : List (Oracle Choice)}
    (hwhole : ∀ o ∈ os, ∀ n, (o n).isSome) {w : World} (htold : Told orgId conversationId userId w)
    (hrun : AlongAttempts Announces orgId conversationId userId os w) {c : Conversation}
    (hc : .ok c ∈ (claimAttempts orgId conversationId userId os w).1) :
    Announced orgId conversationId userId (claimAttempts orgId conversationId userId os w).2.core := by
  induction os generalizing w with
  | nil => cases hc
  | cons o os ih =>
    obtain ⟨hfirst, hrest⟩ := hrun
    obtain ⟨r, w₁, hexec⟩ : ∃ r w₁, exec Call.answer (claim orgId conversationId userId) o w =
        (some r, w₁) := exists_exec_eq_some _ (hwhole o List.mem_cons_self) w
    obtain ⟨htold₁, hassigned⟩ := exec_post (K := attempting) (attempting_claim htold) hfirst hexec
    rw [claimAttempts, hexec] at hc ⊢
    rw [hexec] at hrest
    rcases List.mem_append.mp hc with hnow | hlater
    · obtain rfl := List.mem_singleton.mp hnow
      exact (htold₁ (hassigned c rfl)).appends (appends_attempts _ _ _ os w₁)
    · exact ih (fun o' ho' => hwhole o' (List.mem_cons_of_mem _ ho')) htold₁ hrest hlater

/-- **A successful claim is announced** in every run of attempts by one user each of whose calls meets
the condition: where some attempt succeeds, the audit entry and the event of the claim are there. -/
theorem announced_of_returned {orgId conversationId userId : String} {os : List (Oracle Choice)}
    (hwhole : ∀ o ∈ os, ∀ n, (o n).isSome) {w : World}
    (hfree : ¬w.db.AssignedTo conversationId userId)
    (hrun : AlongAttempts Announces orgId conversationId userId os w) {c : Conversation}
    (hc : .ok c ∈ (claimAttempts orgId conversationId userId os w).1) :
    Announced orgId conversationId userId (claimAttempts orgId conversationId userId os w).2.core :=
  announced_of_told hwhole (fun h => absurd h hfree) hrun hc

/-- The claimed conversation of `inboxWorld`. -/
def claimed : Conversation :=
  ⟨"conversation", "org", "identity", "open", some "ada", none, none, 0, ⟨⟨2026, 1, 1⟩, 0, 0, 0, 0⟩⟩

theorem announced_of_returned_inbox : Announced "org" "conversation" "ada"
    (claimAttempts "org" "conversation" "ada" [calm, calm] inboxWorld).2.core := by
  have hrun : AlongAttempts Announces "org" "conversation" "ada" [calm, calm] inboxWorld := by
    exact ⟨by decide +kernel, by decide +kernel, trivial⟩
  have hreturned : (claimAttempts "org" "conversation" "ada" [calm, calm] inboxWorld).1 =
      [.ok claimed, .ok claimed] := by decide +kernel
  refine announced_of_returned (by simp [calm]) (by decide +kernel) hrun (c := claimed) ?_
  rw [hreturned]
  exact List.mem_cons_self

/-- The error of a DynamoDB that is throttled. -/
def throttled : PyErr := ⟨.clientError "ThrottlingException", "Rate exceeded"⟩

/-- The audit write of the first attempt fails, after the commit, and the second attempt succeeds
without announcing anything. -/
theorem not_announced : ¬∀ (orgId conversationId userId : String) (os : List (Oracle Choice))
    (w : World) (c : Conversation), (∀ o ∈ os, ∀ n, (o n).isSome) →
      ¬w.db.AssignedTo conversationId userId →
        .ok c ∈ (claimAttempts orgId conversationId userId os w).1 →
          Announced orgId conversationId userId (claimAttempts orgId conversationId userId os w).2.core := by
  intro h
  have hreturned : (claimAttempts "org" "conversation" "ada" [calmBut 6 throttled, calm] inboxWorld).1 =
      [.error ⟨.auditError, "Failed to write audit event: Rate exceeded"⟩, .ok claimed] := by
    decide +kernel
  have hnone : (claimAttempts "org" "conversation" "ada" [calmBut 6 throttled, calm]
      inboxWorld).2.core.audit.isEmpty = true := by decide +kernel
  have hwhole : ∀ o ∈ [calmBut 6 throttled, calm], ∀ n, (o n).isSome := by
    intro o ho n
    rcases List.mem_pair.mp ho with rfl | rfl
    · simp only [calmBut]
      split <;> rfl
    · rfl
  obtain ⟨event, hevent, _⟩ := (h "org" "conversation" "ada" _ inboxWorld claimed hwhole
    (by decide +kernel) (by rw [hreturned]; simp)).audit
  rw [List.isEmpty_iff.mp hnone] at hevent
  cases hevent

end A2ZCore.Omnichannel
