import A2ZCore.Omnichannel.Claims

/-!
# Automatic assignments among claims and reassignments

The worker commits a new conversation, which the agents then see, and only afterwards reads the org's
settings and assigns the conversation to the designated user. It writes the assignee whatever the row
holds by then. So it takes the conversation from an agent exactly when it commits after another
assignment than its own.

## Main definitions

* `Call.Automatic` — the commit of an automatic assignment
* `Deferring` — an automatic assignment leaves the conversation with the user it finds
* `Vacant` — it finds the conversation unassigned, or with the designated user

## Main results

* `deferring_iff_vacant` — any number of claims and reassignments, in any interleaving
-/

namespace A2ZCore.Omnichannel

open Interaction Interaction.Proc Relational

/-! ### Automatic assignments -/

/-- A row of the history for an automatic assignment. -/
def Write.Automatic : Write → Prop
  | .insertAssignment assignment => assignment.reason = some "single_assignee"
  | _ => False

instance : DecidablePred Write.Automatic := fun write => by
  apply Write.casesOn (motive := fun write => Decidable write.Automatic) write
  case insertAssignment =>
    exact fun assignment => inferInstanceAs (Decidable (assignment.reason = some "single_assignee"))
  all_goals intros; exact .isFalse id

/-- The commit of an automatic assignment. -/
def Call.Automatic : Call → Prop
  | .commit writes => ∃ write ∈ writes, write.Automatic
  | _ => False

instance : DecidablePred Call.Automatic := fun c => by
  apply Call.casesOn (motive := fun c => Decidable c.Automatic) c
  case commit =>
    exact fun writes => inferInstanceAs (Decidable (∃ write ∈ writes, write.Automatic))
  all_goals intros; exact .isFalse id

/-- An automatic assignment leaves the conversation with the user that it is assigned to. -/
def Deferring (conversationId : String) (c : Call) (x : Choice) (w : World) : Prop :=
  c.Automatic → ∀ row ∈ w.db.conversation conversationId, ∀ userId ∈ row.assignedUserId,
    (c.answer x w).2.db.AssignedTo conversationId userId

instance (conversationId : String) (c : Call) (x : Choice) (w : World) :
    Decidable (Deferring conversationId c x w) := by
  unfold Deferring
  infer_instance

/-- An automatic assignment that takes effect finds the conversation unassigned, or assigned to the
designated user already. -/
def Vacant (conversationId : String) : Call → Choice → World → Prop
  | .commit writes, x, w => (Call.commit writes).Automatic →
      x.fate.Lands (w.db.apply x.now writes) →
        ∀ row ∈ w.db.conversation conversationId, ∀ userId ∈ row.assignedUserId,
          ∀ write ∈ writes, ∀ assignment, write = .insertAssignment assignment →
            assignment.assignedUserId = userId
  | _, _, _ => True

/-! ### The calls -/

/-- Where the call is the commit of an automatic assignment, it is one of `conversation`. -/
def Routes (conversation : Conversation) (c : Call) : Prop :=
  c.Automatic → ∃ id userId assignedBy reason, c = .commit
    [.updateConversation conversation { conversation with assignedUserId := some userId },
      .insertAssignment (newAssignment id conversation userId assignedBy reason)]

section Calls

variable {conversation : Conversation}

theorem routes_of_harmless {c : Call} (hc : c.Harmless) : Routes conversation c := by
  cases c with
  | commit => exact hc.elim
  | _ => exact fun h => h.elim

theorem routes_recordAssignment (loaded : Conversation) (userId assignedBy : String) {reason : String}
    (h : reason = "single_assignee" → loaded = conversation) :
    (recordAssignment loaded userId assignedBy reason).Calls (Routes conversation) := by
  have huuid : (core (Core.run .uuid4)).Calls (Routes conversation) :=
    calls_core _ fun _ hauto => hauto.elim
  refine huuid.bind fun id => Calls.bind (Calls.perform ?_) fun _ => Calls.bind ?_ fun _ => trivial
  · rintro ⟨write, hwrite, hauto⟩
    rw [List.mem_pair] at hwrite
    rcases hwrite with rfl | rfl
    · exact hauto.elim
    · obtain rfl := h (Option.some.inj hauto)
      exact ⟨id, userId, assignedBy, reason, rfl⟩
  · exact (calls_harmless_announceAssignment _ _ _ _).mono fun _ => routes_of_harmless

theorem routes_loadConversation (orgId conversationId : String) :
    (loadConversation orgId conversationId).Calls (Routes conversation) := by
  refine Calls.bind (Calls.perform fun h => h.elim) fun found => ?_
  cases found with
  | none => trivial
  | some row =>
    dsimp only
    split <;> trivial

theorem routes_claim (orgId conversationId userId : String) :
    (claim orgId conversationId userId).Calls (Routes conversation) := by
  refine Calls.bind ((calls_harmless_requireRole _ _ _ _).mono fun _ => routes_of_harmless) fun _ => ?_
  refine Calls.bind (routes_loadConversation _ _) fun c => ?_
  split
  · trivial
  · split
    · trivial
    · exact routes_recordAssignment c userId userId fun h => absurd h (by decide)

theorem routes_reassign (orgId conversationId actorUserId assigneeUserId : String) :
    (reassign orgId conversationId actorUserId assigneeUserId).Calls (Routes conversation) := by
  refine Calls.bind ((calls_harmless_requireRole _ _ _ _).mono fun _ => routes_of_harmless) fun _ => ?_
  refine Calls.bind ((calls_harmless_requireMembership _ _ _).mono fun _ => routes_of_harmless) fun _ => ?_
  refine Calls.bind (routes_loadConversation _ _) fun c => ?_
  exact routes_recordAssignment c assigneeUserId actorUserId fun h => absurd h (by decide)

theorem routes_applySingleAssignee (conversation : Conversation) :
    (applySingleAssigneeIfConfigured conversation).Calls (Routes conversation) := by
  refine Calls.bind (calls_core _ fun _ h => h.elim) fun orgSettings => ?_
  refine Calls.bind (Calls.ofExcept _) fun designated => ?_
  split
  · trivial
  · exact routes_recordAssignment conversation _ _ fun _ => rfl
  · trivial

end Calls

/-! ### One commit -/

/-- An automatic assignment of a conversation that was new when it was loaded leaves the conversation with
the user it finds exactly when there is none, or it is the same user. -/
theorem deferring_iff_vacant_call {conversation : Conversation} (hnew : conversation.assignedUserId = none)
    {c : Call} (hc : Routes conversation c) (x : Choice) (w : World) :
    Deferring conversation.id c x w ↔ Vacant conversation.id c x w := by
  by_cases hauto : c.Automatic
  · obtain ⟨id, designated, assignedBy, reason, rfl⟩ := hc hauto
    set writes : List Write :=
      [.updateConversation conversation { conversation with assignedUserId := some designated },
        .insertAssignment (newAssignment id conversation designated assignedBy reason)] with hwrites
    have hvacant : Vacant conversation.id (.commit writes) x w ↔
        (x.fate.Lands (w.db.apply x.now writes) → ∀ row ∈ w.db.conversation conversation.id,
          ∀ userId ∈ row.assignedUserId, designated = userId) := by
      refine ⟨fun h hlands row hrow userId huser => ?_, fun h _ hlands row hrow userId huser => ?_⟩
      · exact h hauto hlands row hrow userId huser _
          (List.mem_cons_of_mem _ List.mem_cons_self) _ rfl
      · rintro write hwrite assignment rfl
        rw [hwrites, List.mem_pair] at hwrite
        rcases hwrite with hwrite | hwrite
        · cases hwrite
        · cases hwrite
          exact h hlands row hrow userId huser
    rw [hvacant]
    rcases commit_cases writes x w with ⟨hlands, db, hdb, hw⟩ | ⟨hlost, hw, _⟩
    · constructor
      · intro h _ row hrow userId huser
        obtain ⟨row', hrow', hassigned⟩ := h hauto row hrow userId huser
        rw [hw, conversation_assign hdb hrow, hnew] at hrow'
        cases hrow'
        exact Option.some.inj hassigned
      · intro h _ row hrow userId huser
        have hsame := h hlands row hrow userId huser
        have hafter := conversation_assign hdb hrow
        rw [hw]
        refine ⟨_, hafter, ?_⟩
        rw [hnew, hsame]
        rfl
    · constructor
      · exact fun _ hlands => absurd hlands hlost
      · intro _ _ row hrow userId huser
        rw [hw]
        exact ⟨row, hrow, huser⟩
  · constructor
    · intro _
      cases c with
      | commit writes => exact fun h => absurd h hauto
      | _ => trivial
    · exact fun _ h => absurd h hauto

/-! ### The worker among agents -/

/-- A request for the conversation. -/
inductive AgentRequest where
  | claim (userId : String)
  | reassign (actorUserId assigneeUserId : String)

/-- What is done at a request. -/
def AgentRequest.program (orgId conversationId : String) : AgentRequest → Prog Conversation
  | .claim userId => Omnichannel.claim orgId conversationId userId
  | .reassign actorUserId assigneeUserId =>
    Omnichannel.reassign orgId conversationId actorUserId assigneeUserId

/-- The worker, that has just committed the conversation, and requests for it. -/
def routed (conversation : Conversation) (requests : List AgentRequest) (w : World) :
    Pool Call Call.Resp PyErr Conversation World where
  procs := applySingleAssigneeIfConfigured conversation ::
    requests.map (AgentRequest.program conversation.orgId conversation.id)
  world := w

/-- **Automatic assignments among claims and reassignments.** In any interleaving of the worker with
requests for a conversation that it has just created, its assignment leaves the conversation with the
user that a claim or a reassignment gave it to exactly when it finds the conversation unassigned, or
assigned to the user it designates. -/
theorem deferring_iff_vacant {conversation : Conversation} (hnew : conversation.assignedUserId = none)
    (requests : List AgentRequest) (w : World) (schedule : List (ℕ × Choice)) :
    Pool.Along Call.answer (Deferring conversation.id) (routed conversation requests w) schedule ↔
      Pool.Along Call.answer (Vacant conversation.id) (routed conversation requests w) schedule := by
  have hcalls : ∀ p ∈ (routed conversation requests w).procs, p.Calls (Routes conversation) := by
    intro p hp
    rcases List.mem_cons.mp hp with rfl | hrequest
    · exact routes_applySingleAssignee conversation
    · obtain ⟨request, _, rfl⟩ := List.mem_map.mp hrequest
      cases request with
      | claim userId => exact routes_claim _ _ _
      | reassign actorUserId assigneeUserId => exact routes_reassign _ _ _ _
  exact (Pool.along_of_calls hcalls).congr fun c x w hc => deferring_iff_vacant_call hnew hc x w

/-- The conversation of `inboxWorld`, as the worker holds it. -/
def newcomer : Conversation :=
  ⟨"conversation", "org", "identity", "open", none, none, none, 0, ⟨⟨2026, 1, 1⟩, 0, 0, 0, 0⟩⟩

/-- That deployment, where the org's settings designate kim. -/
def routedWorld : World :=
  { inboxWorld with core := { inboxWorld.core with
      settings := fun _ => some [("metadata", .obj [("omnichannel", .obj
        [("routing_strategy", .str "single_assignee"), ("single_assignee_user_id", .str "kim")])])] } }

/-- The worker reads the settings, an agent's claim goes through, and the worker commits. -/
def claimedMeanwhile : List (ℕ × Choice) :=
  calmly ([0] ++ List.replicate 10 1 ++ List.replicate 8 0)

theorem deferring_iff_vacant_newcomer :
    Pool.Along Call.answer (Deferring "conversation") (routed newcomer [.claim "ada"] routedWorld)
        claimedMeanwhile ↔
      Pool.Along Call.answer (Vacant "conversation") (routed newcomer [.claim "ada"] routedWorld)
        claimedMeanwhile := by
  have hnew : newcomer.assignedUserId = none := rfl
  exact deferring_iff_vacant hnew _ _ _

/-- The worker takes the conversation from the agent. -/
theorem not_deferring : ¬∀ (conversation : Conversation) (requests : List AgentRequest) (w : World)
    (schedule : List (ℕ × Choice)), conversation.assignedUserId = none →
      Pool.Along Call.answer (Deferring conversation.id) (routed conversation requests w) schedule := by
  intro h
  have hrun := h newcomer [.claim "ada"] routedWorld claimedMeanwhile rfl
  exact absurd hrun (by decide +kernel)

end A2ZCore.Omnichannel
