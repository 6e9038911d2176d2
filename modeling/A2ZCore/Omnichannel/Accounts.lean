import A2ZCore.Omnichannel.Connections

/-!
# Provider accounts

`disable_connection` and `resolve_org_by_provider_account` of `connections.py`, and what they and
`create_connection` make of the table over a run. The lookup of an account's org is written for one row
of the account: it raises where there are more, and it does not read the status. No constraint keeps an
account to one row, and `create_connection` does not look for another.

So an account names its org as long as no account is registered twice and no connection is disabled.

## Main definitions

* `getConnection`, `listConnections`, `disableConnection`, `resolveOrgByProviderAccount`
* `NamesOneOrg` — the lookup of each account finds the org that is connected to it
* `AccountStep`, `accountStates` — a call of an admin, and the states of a run of them
* `AccountStep.Apt` — the call neither registers a known account nor disables a connection

## Main results

* `namesOneOrg_iff` — the tables of which `NamesOneOrg` holds
* `namesOneOrg_run` — the runs of which it holds
-/

namespace A2ZCore.Omnichannel

open Interaction Interaction.Proc A2ZCore.Core Relational

/-! ### The operations -/

/-- `models.ChannelType`. -/
inductive ChannelType where
  | email
  | whatsapp
  | messenger
  | instagram
  | sms
  deriving DecidableEq, Repr

/-- `ChannelType.value`. -/
def ChannelType.value : ChannelType → String
  | email => "email"
  | whatsapp => "whatsapp"
  | messenger => "messenger"
  | instagram => "instagram"
  | sms => "sms"

/-- `_load`. -/
def loadConnection (orgId connectionId : String) : ConnectionProg ChannelConnection := do
  let missing : ConnectionProg ChannelConnection := .raise ⟨.connectionNotFoundError,
    "No channel connection " ++ pyRepr connectionId ++ " for org " ++ pyRepr orgId⟩
  match ← connectionRun (.selectConnection connectionId) with
  | none => missing
  | some connection => if connection.orgId ≠ orgId then missing else return connection

/-- `get_connection`. -/
def getConnection (orgId actorUserId connectionId : String) : ConnectionProg ChannelConnection := do
  let _ ← elsewhere (service (requireRole actorUserId orgId adminRoles
    "Only Owner/Admin can manage channel connections"))
  loadConnection orgId connectionId

/-- `list_connections`. The caller's membership is the one that `require_membership` looks up, and `tie`
orders the rows that were created at the same time. -/
def listConnections (membership : Option Membership) (db : Db) (orgId : String) (tie : String → ℕ) :
    Except PyErr (List ChannelConnection) :=
  match membership with
  | none => .error ⟨.notFoundError, "Not a member of this org"⟩
  | some membership =>
    if membership.role ∉ adminRoles then
      .error ⟨.forbiddenError, "Only Owner/Admin can manage channel connections"⟩
    else .ok (orderBy (·.createdAt) (·.id) tie (db.connections.rows.filter fun c => c.orgId == orgId))

/-- What `disable_connection` reports. -/
def announceDisabled (orgId actorUserId : String) (connection : ChannelConnection) :
    Core.Prog Unit := do
  let _ ← logAudit orgId actorUserId "connection.disabled" "channel_connection" connection.id
    (.obj [("channel_type", .str connection.channelType)])
  let _ ← publishEvent orgId "connection.disabled"
    [("connection_id", .str connection.id), ("channel_type", .str connection.channelType)]
    "a2z.omnichannel"
  return ()

/-- `disable_connection`. -/
def disableConnection (orgId actorUserId connectionId : String) :
    ConnectionProg ChannelConnection := do
  let _ ← elsewhere (service (requireRole actorUserId orgId adminRoles
    "Only Owner/Admin can manage channel connections"))
  let connection ← loadConnection orgId connectionId
  connectionRun (.commitStatus connection.id "disabled")
  elsewhere (service (core (announceDisabled orgId actorUserId connection)))
  return { connection with status := "disabled" }

/-- `resolve_org_by_provider_account`. -/
def resolveOrgByProviderAccount (channelType : ChannelType) (providerAccountId : String) :
    ConnectionProg (Option String) :=
  connectionRun (.selectOrg channelType.value providerAccountId)

/-! ### The lookup -/

/-- The connection is one with the account. -/
def ChannelConnection.IsOf (c : ChannelConnection) (channelType providerAccountId : String) : Prop :=
  c.channelType = channelType ∧ c.providerAccountId = providerAccountId

/-- No two orgs hold active connections with one account, and the lookup of an account gives the org
that holds one, if any does. -/
structure NamesOneOrg (w : World) : Prop where
  one : ∀ c ∈ w.db.connections.rows, ∀ d ∈ w.db.connections.rows, c.status = "active" →
    d.status = "active" → c.IsOf d.channelType d.providerAccountId → c.orgId = d.orgId
  resolves : ∀ channelType providerAccountId x, x.fate = .ok → ∃ found,
    exec ConnectionCall.answer (resolveOrgByProviderAccount channelType providerAccountId)
        (fun _ => some x) w = (some (.ok found), w) ∧
      ∀ orgId, found = some orgId ↔ ∃ c ∈ w.db.connections.rows, c.status = "active" ∧
        c.IsOf channelType.value providerAccountId ∧ c.orgId = orgId

/-- The connections are on channels that there are. -/
def KnownChannels (w : World) : Prop :=
  ∀ c ∈ w.db.connections.rows, ∃ t : ChannelType, t.value = c.channelType

/-- Each account has one row, and it is active. -/
structure OneRowEach (w : World) : Prop where
  active : ∀ c ∈ w.db.connections.rows, c.status = "active"
  distinct : w.db.connections.rows.Pairwise fun c d => ¬c.IsOf d.channelType d.providerAccountId

/-- The rows of an account. -/
def rowsOf (w : World) (channelType providerAccountId : String) : List ChannelConnection :=
  w.db.connections.rows.filter fun c =>
    c.channelType == channelType && c.providerAccountId == providerAccountId

theorem mem_rowsOf {w : World} {channelType providerAccountId : String} {c : ChannelConnection} :
    c ∈ rowsOf w channelType providerAccountId ↔
      c ∈ w.db.connections.rows ∧ c.IsOf channelType providerAccountId := by
  rw [rowsOf, List.mem_filter, Bool.and_eq_true, beq_iff_eq, beq_iff_eq]
  rfl

/-- The run of the lookup. -/
theorem exec_resolve {x : ConnectionChoice} (hx : x.fate = .ok) (w : World)
    (channelType : ChannelType) (providerAccountId : String) :
    exec ConnectionCall.answer (resolveOrgByProviderAccount channelType providerAccountId)
        (fun _ => some x) w =
      (some (scalarOneOrNone ((rowsOf w channelType.value providerAccountId).map (·.orgId))), w) := by
  have hanswer : ConnectionCall.answer (.selectOrg channelType.value providerAccountId) x w =
      (scalarOneOrNone ((rowsOf w channelType.value providerAccountId).map (·.orgId)), w) := by
    have hquery : ∀ r : Except PyErr (Option String), Fate.ok.query r w = (r, w) := by
      rintro (_ | _) <;> rfl
    show x.fate.query (scalarOneOrNone _) w = _
    rw [hx, hquery]
    rfl
  simp only [resolveOrgByProviderAccount, connectionRun, Proc.perform, exec, hanswer]
  cases scalarOneOrNone ((rowsOf w channelType.value providerAccountId).map (·.orgId)) <;> rfl

/-- At most one row of each account is each account's row apart from the others. -/
theorem pairwise_of_filter {α : Type} {r : α → α → Prop} {p : α → α → Bool} {rows : List α}
    (hp : ∀ c d, p d c = true ↔ r c d) (hrefl : ∀ c, r c c)
    (h : ∀ d ∈ rows, (rows.filter (p d)).length ≤ 1) : rows.Pairwise fun c d => ¬r c d := by
  induction rows with
  | nil => exact List.Pairwise.nil
  | cons c rows ih =>
    refine List.Pairwise.cons (fun d hd hcd => ?_) (ih fun d hd => ?_)
    · have hrest : 0 < (rows.filter (p d)).length :=
        List.length_pos_of_mem (List.mem_filter.mpr ⟨hd, (hp d d).mpr (hrefl d)⟩)
      have hall := h d (List.mem_cons_of_mem _ hd)
      rw [List.filter_cons_of_pos ((hp c d).mpr hcd), List.length_cons] at hall
      omega
    · exact ((List.sublist_cons_self c rows).filter _).length_le.trans
        (h d (List.mem_cons_of_mem _ hd))

/-- A lookup that does not raise finds one row at most. -/
theorem length_of_scalarOneOrNone {α : Type} {rows : List α} {found : Option α}
    (h : scalarOneOrNone rows = .ok found) : rows.length ≤ 1 ∧ rows = found.toList := by
  match rows, h with
  | [], h => cases h; exact ⟨Nat.zero_le _, rfl⟩
  | [a], h => cases h; exact ⟨Nat.le_refl _, rfl⟩

/-- The rows of an account where each has one. -/
theorem length_rowsOf {w : World} (h : OneRowEach w) (channelType providerAccountId : String) :
    (rowsOf w channelType providerAccountId).length ≤ 1 := by
  have hdistinct := h.distinct.filter fun c =>
    c.channelType == channelType && c.providerAccountId == providerAccountId
  have hmem : ∀ c ∈ rowsOf w channelType providerAccountId, c.IsOf channelType providerAccountId :=
    fun c hc => (mem_rowsOf.mp hc).2
  rw [rowsOf] at hmem ⊢
  generalize w.db.connections.rows.filter (fun c =>
    c.channelType == channelType && c.providerAccountId == providerAccountId) = rows at hdistinct hmem ⊢
  match rows, hdistinct, hmem with
  | [], _, _ => exact Nat.zero_le _
  | [_], _, _ => exact Nat.le_refl _
  | c :: d :: rest, hdistinct, hmem =>
    have hc := hmem c List.mem_cons_self
    have hd := hmem d (List.mem_cons_of_mem _ List.mem_cons_self)
    refine absurd ?_ ((List.pairwise_cons.mp hdistinct).1 d List.mem_cons_self)
    exact ⟨hc.1.trans hd.1.symm, hc.2.trans hd.2.symm⟩

/-- **Where the lookups hold**: each account has one row, and it is active. -/
theorem namesOneOrg_iff {w : World} (hknown : KnownChannels w) : NamesOneOrg w ↔ OneRowEach w := by
  constructor
  · intro h
    have hlookup : ∀ d ∈ w.db.connections.rows, ∃ found,
        rowsOf w d.channelType d.providerAccountId = [found] ∧ found.status = "active" := by
      intro d hd
      obtain ⟨t, ht⟩ := hknown d hd
      have hmem : d ∈ rowsOf w d.channelType d.providerAccountId := mem_rowsOf.mpr ⟨hd, rfl, rfl⟩
      obtain ⟨found, hexec, horg⟩ := h.resolves t d.providerAccountId
        { Choice.calm "" with dkimTokens := [] } rfl
      rw [exec_resolve rfl, ht] at hexec
      obtain ⟨hlength, hfound⟩ :=
        length_of_scalarOneOrNone (Option.some.inj (congrArg Prod.fst hexec))
      rw [List.length_map] at hlength
      match hrows : rowsOf w d.channelType d.providerAccountId, hlength with
      | [], _ => exact absurd (hrows ▸ hmem) List.not_mem_nil
      | [c], _ =>
        refine ⟨c, rfl, ?_⟩
        rw [hrows] at hfound
        cases found with
        | none => cases hfound
        | some org =>
          obtain ⟨c', hc', hactive, hof, _⟩ := (horg org).mp rfl
          rw [ht] at hof
          have hsame : c' ∈ [c] := hrows ▸ mem_rowsOf.mpr ⟨hc', hof⟩
          rwa [List.mem_singleton.mp hsame] at hactive
    refine ⟨fun d hd => ?_, ?_⟩
    · obtain ⟨c, hrows, hactive⟩ := hlookup d hd
      have hmem : d ∈ [c] := hrows ▸ mem_rowsOf.mpr ⟨hd, rfl, rfl⟩
      rwa [List.mem_singleton.mp hmem]
    · refine pairwise_of_filter (p := fun d c =>
        c.channelType == d.channelType && c.providerAccountId == d.providerAccountId)
        (fun c d => ?_) (fun c => ⟨rfl, rfl⟩) fun d hd => ?_
      · rw [Bool.and_eq_true, beq_iff_eq, beq_iff_eq]
        rfl
      · obtain ⟨c, hrows, _⟩ := hlookup d hd
        exact (congrArg List.length hrows).le
  · intro h
    have hsame : ∀ {channelType providerAccountId : String} {c d : ChannelConnection},
        c ∈ rowsOf w channelType providerAccountId → d ∈ rowsOf w channelType providerAccountId →
          c = d := by
      intro channelType providerAccountId c d hc hd
      have hlength := length_rowsOf h channelType providerAccountId
      match rowsOf w channelType providerAccountId, hlength, hc, hd with
      | [e], _, hc, hd => rw [List.mem_singleton.mp hc, List.mem_singleton.mp hd]
    refine ⟨fun c hc d hd _ _ hof => ?_, fun channelType providerAccountId x hx => ?_⟩
    · exact congrArg _ (hsame (mem_rowsOf.mpr ⟨hc, hof⟩) (mem_rowsOf.mpr ⟨hd, rfl, rfl⟩))
    · rw [exec_resolve hx]
      have hlength := length_rowsOf h channelType.value providerAccountId
      match hrows : rowsOf w channelType.value providerAccountId, hlength with
      | [], _ =>
        refine ⟨none, rfl, fun orgId => ⟨nofun, ?_⟩⟩
        rintro ⟨c, hc, _, hof, _⟩
        exact absurd (hrows ▸ mem_rowsOf.mpr ⟨hc, hof⟩) List.not_mem_nil
      | [c], _ =>
        have hc : c ∈ rowsOf w channelType.value providerAccountId := by simp [hrows]
        obtain ⟨hrow, hof⟩ := mem_rowsOf.mp hc
        refine ⟨some c.orgId, rfl, fun orgId => ⟨fun horg => ?_, ?_⟩⟩
        · exact ⟨c, hrow, h.active c hrow, hof, Option.some.inj horg⟩
        · rintro ⟨d, hd, _, hof', rfl⟩
          rw [hsame hc (mem_rowsOf.mpr ⟨hd, hof'⟩)]

/-! ### What the operations write -/

/-- The call leaves the connections. -/
def ConnectionCall.LeavesConnections (c : ConnectionCall) : Prop :=
  ∀ x w, (c.answer x w).2.db.connections = w.db.connections

theorem leavesConnections_system (c : SystemCall) :
    (ConnectionCall.system c).LeavesConnections := by
  intro x w
  cases c with
  | admin c => rfl
  | service c =>
    rcases c.writes_of_answer x.toService w with h | h
    · exact congrArg (fun w : World => w.db.connections) h
    · show (c.answer x.toService w).2.db.connections = _
      generalize (c.answer x.toService w).2 = w' at h ⊢
      cases h with
      | commit writes now db h => exact connections_apply h
      | _ => rfl

theorem leavesConnections_elsewhere {α : Type} (p : SystemProg α) :
    (elsewhere p).Calls ConnectionCall.LeavesConnections :=
  Calls.embed (p.calls_true.mono fun c _ => leavesConnections_system c)

/-- A call to Secrets Manager or SES leaves the connections. -/
theorem connections_of_settle {α : Type} {x : ConnectionChoice} {effect : Except PyErr (α × World)}
    {w : World} (h : ∀ a w', effect = .ok (a, w') → w'.db.connections = w.db.connections) :
    (x.fate.settle effect w).2.db.connections = w.db.connections :=
  x.fate.settle_frame effect w (fun w => w.db.connections) h

theorem leavesConnections_putSecret (orgId serviceType key : String) (value : Json) :
    (putSecret orgId serviceType key value).Calls ConnectionCall.LeavesConnections := by
  have hput : ∀ name, (ConnectionCall.putSecretValue name value).LeavesConnections := by
    intro name x w
    refine connections_of_settle fun a w' h => ?_
    split at h <;> cases h
    rfl
  have hcreate : ∀ name, (ConnectionCall.createSecret name value).LeavesConnections := by
    intro name x w
    refine connections_of_settle fun a w' h => ?_
    split at h <;> cases h
    rfl
  refine Calls.bind (Calls.handle (Calls.perform (hput _)) fun exc => ?_) fun _ =>
    Calls.perform fun x w => rfl
  split
  · refine Calls.handle (Calls.perform (hcreate _)) fun createExc => ?_
    split <;> trivial
  · trivial
  · trivial

theorem leavesConnections_startDomainVerification (orgId domain changedBy : String) :
    (startDomainVerification orgId domain changedBy).Calls ConnectionCall.LeavesConnections := by
  have hidentity : (ConnectionCall.verifyDomainIdentity domain).LeavesConnections := by
    intro x w
    refine connections_of_settle fun a w' h => ?_
    cases h
    rfl
  have hdkim : (ConnectionCall.verifyDomainDkim domain).LeavesConnections := by
    intro x w
    refine connections_of_settle fun a w' h => ?_
    cases h
    rfl
  unfold startDomainVerification
  split
  · trivial
  · refine Calls.bind (Calls.handle ?_ fun exc => ?_) fun tokens =>
      Calls.bind (leavesConnections_elsewhere _) fun _ => trivial
    · exact Calls.bind (Calls.perform hidentity) fun _ => Calls.bind (Calls.perform hdkim) fun _ => trivial
    · split <;> trivial

theorem leavesConnections_provision (adapter : WebhookAdapter)
    (orgId actorUserId connectionId : String) (request : ConnectionRequest) :
    (provision adapter orgId actorUserId connectionId request).Calls
      ConnectionCall.LeavesConnections := by
  unfold provision
  split
  · split
    · exact Calls.bind (leavesConnections_putSecret _ _ _ _) fun _ => trivial
    · exact Calls.bind (leavesConnections_elsewhere _) fun _ => trivial
    · trivial
  · split
    · split
      · trivial
      · generalize afterLastAt request.providerAccountId = domain
        exact Calls.bind (leavesConnections_startDomainVerification orgId domain actorUserId)
          fun _ => trivial
    · trivial

/-- A part that leaves the connections: the run ends there, or goes on with them. -/
theorem exec_bind_leaves {α β : Type} {p : ConnectionProg α} {f : α → ConnectionProg β}
    {R : Option (Except PyErr β) × World → Prop} (hp : p.Calls ConnectionCall.LeavesConnections)
    (o : Oracle ConnectionChoice) (w : World)
    (hend : ∀ r w', w'.db.connections = w.db.connections → (∀ b, r ≠ some (.ok b)) → R (r, w'))
    (hnext : ∀ a w₁ k, exec ConnectionCall.answer p o w = (some (.ok a), w₁) →
      w₁.db.connections = w.db.connections →
        R (exec ConnectionCall.answer (f a) (fun n => o (n + k)) w₁)) :
    R (exec ConnectionCall.answer (p.bind f) o w) := by
  have hsame := exec_rel_of_calls (S := fun w w' : World => w'.db.connections = w.db.connections)
    (fun _ => rfl) (fun _ _ _ h h' => h'.trans h) (fun c hc x w => hc x w) hp o w
  rcases exec_bind_cases p f o w with ⟨a, w₁, k, hrun, hrest⟩ | ⟨hrun, hnot⟩
  · rw [hrest]
    rw [hrun] at hsame
    exact hnext a w₁ k hrun hsame
  · exact hend _ _ ((congrArg (fun w : World => w.db.connections) hrun).trans hsame) hnot

/-- What a step makes of the rows: nothing, where it does not return, or `next`. -/
def Changes {β : Type} (w : World) (next : List ChannelConnection → Prop)
    (res : Option (Except PyErr β) × World) : Prop :=
  (res.2.db.connections.rows = w.db.connections.rows ∧ ∀ b, res.1 ≠ some (.ok b)) ∨
    next res.2.db.connections.rows

section Changes

variable {α β : Type} {w : World} {next : List ChannelConnection → Prop}

/-- What comes before the change. -/
theorem Changes.before {p : ConnectionProg α} {f : α → ConnectionProg β}
    (hp : p.Calls ConnectionCall.LeavesConnections) {o : Oracle ConnectionChoice} {w₀ : World}
    (hw : w₀.db.connections = w.db.connections)
    (hnext : ∀ a w₁ k, exec ConnectionCall.answer p o w₀ = (some (.ok a), w₁) →
      w₁.db.connections = w.db.connections →
        Changes w next (exec ConnectionCall.answer (f a) (fun n => o (n + k)) w₁)) :
    Changes w next (exec ConnectionCall.answer (p.bind f) o w₀) := by
  refine exec_bind_leaves hp o w₀ (fun r w' hw' hr => ?_) fun a w₁ k hrun hw₁ => ?_
  · exact .inl ⟨congrArg Table.rows (hw'.trans hw), hr⟩
  · exact hnext a w₁ k hrun (hw₁.trans hw)

/-- What raises before it. -/
theorem Changes.raise (e : PyErr) {o : Oracle ConnectionChoice} {w₀ : World}
    (hw : w₀.db.connections = w.db.connections) :
    Changes w next (exec ConnectionCall.answer (.raise e : ConnectionProg β) o w₀) :=
  .inl ⟨congrArg Table.rows hw, nofun⟩

/-- The change, and what comes after it. -/
theorem Changes.write {c : ConnectionCall} {f : c.Resp → ConnectionProg β}
    (hf : ∀ a, (f a).Calls ConnectionCall.LeavesConnections) {o : Oracle ConnectionChoice}
    {w₀ : World} (hw : w₀.db.connections = w.db.connections)
    (hc : ∀ x, ((c.answer x w₀).2 = w₀ ∧ ∃ e, (c.answer x w₀).1 = .error e) ∨
      next (c.answer x w₀).2.db.connections.rows) :
    Changes w next (exec ConnectionCall.answer ((connectionRun c).bind f) o w₀) := by
  have hafter : ∀ a o w₁, (exec ConnectionCall.answer (f a) o w₁).2.db.connections =
      w₁.db.connections := fun a o w₁ =>
    exec_rel_of_calls (S := fun w w' : World => w'.db.connections = w.db.connections)
      (fun _ => rfl) (fun _ _ _ h h' => h'.trans h) (fun c hc x w => hc x w) (hf a) o w₁
  have hcases : exec ConnectionCall.answer (connectionRun c) o w₀ = (none, w₀) ∨ ∃ x,
      exec ConnectionCall.answer (connectionRun c) o w₀ =
        (some (c.answer x w₀).1, (c.answer x w₀).2) := exec_perform_cases c o w₀
  rcases hcases with hrun | ⟨x, hrun⟩
  · -- stopped before it
    obtain ⟨hend, hnot⟩ := exec_bind_of_not_ok (fun a h => by rw [hrun] at h; cases h) f
    rw [hrun] at hend
    exact .inl ⟨congrArg Table.rows ((congrArg (fun w : World => w.db.connections) hend).trans hw),
      hnot⟩
  · rcases exec_bind_cases (connectionRun c) f o w₀ with ⟨a, w₁, k, hok, hrest⟩ | ⟨hend, hnot⟩
    · have hanswer := hrun.symm.trans hok
      rcases hc x with ⟨_, e, he⟩ | hnext
      · rw [he] at hanswer
        cases hanswer
      · have hw₁ : (c.answer x w₀).2 = w₁ := congrArg Prod.snd hanswer
        rw [hrest]
        refine .inr ?_
        rwa [hafter, ← hw₁]
    · have hstate := hend.trans (congrArg Prod.snd hrun)
      rcases hc x with ⟨hsame, _⟩ | hnext
      · rw [hsame] at hstate
        exact .inl ⟨congrArg Table.rows ((congrArg (fun w : World => w.db.connections)
          hstate).trans hw), hnot⟩
      · refine .inr ?_
        rwa [hstate]

end Changes

/-- `create_connection` adds an active row of the account, on a channel with an adapter. -/
theorem changes_create (hmacSha256 : String → Bytes → Except PyErr Bytes) (orgId actorUserId : String)
    (request : ConnectionRequest) (o : Oracle ConnectionChoice) (w : World) :
    Changes w (fun rows => ∃ row, rows = w.db.connections.rows ++ [row] ∧ row.status = "active" ∧
        row.IsOf request.channelType request.providerAccountId ∧
          (webhookAdapters hmacSha256 row.channelType).isSome)
      (exec ConnectionCall.answer (createConnection hmacSha256 orgId actorUserId request) o w) := by
  refine Changes.before (leavesConnections_elsewhere _) rfl fun _ w₁ k₁ _ hw₁ => ?_
  cases hadapter : webhookAdapters hmacSha256 request.channelType with
  | none =>
    rw [getWebhookAdapter, hadapter]
    exact Changes.raise _ hw₁
  | some adapter =>
    rw [getWebhookAdapter, hadapter]
    dsimp only
    split
    · exact Changes.raise _ hw₁
    refine Changes.before (leavesConnections_elsewhere _) hw₁ fun connectionId w₂ k₂ _ hw₂ => ?_
    refine Changes.before (leavesConnections_provision _ _ _ _ _) hw₂ fun provisioned w₃ k₃ _ hw₃ => ?_
    refine Changes.write ?_ hw₃ fun x => ?_
    · exact fun _ => Calls.bind (leavesConnections_elsewhere _) fun _ => trivial
    set connection := newConnection orgId connectionId provisioned.1 request
    rcases x.fate.transact_cases (w₃.db.connections.insert { connection with createdAt := x.now })
      (fun t => { w₃ with db := { w₃.db with connections := t } }) w₃ with
        ⟨_, t, ht, hstate⟩ | ⟨_, hstate, herror⟩
    · refine .inr ⟨{ connection with createdAt := x.now }, ?_, rfl, ⟨rfl, rfl⟩, ?_⟩
      · show (x.fate.transact _ _ w₃).2.db.connections.rows = _
        rw [hstate, ← hw₃]
        exact Table.rows_insert ht
      · show (webhookAdapters hmacSha256 request.channelType).isSome
        rw [hadapter]
        rfl
    · exact .inl ⟨hstate, herror⟩

/-- What `_load` finds. -/
theorem exec_loadConnection {orgId connectionId : String} {o : Oracle ConnectionChoice} {w w' : World}
    {connection : ChannelConnection}
    (h : exec ConnectionCall.answer (loadConnection orgId connectionId) o w =
      (some (.ok connection), w')) :
    connection ∈ w.db.connections.rows ∧ connection.id = connectionId ∧ connection.orgId = orgId := by
  obtain ⟨found, w₁, k, hselect, hrest⟩ := exec_bind_inv h
  obtain ⟨x, _, hanswer⟩ := exec_perform_inv hselect
  have hquery : x.fate.query (.ok (w.db.connection connectionId)) w = (.ok found, w₁) := hanswer
  have hfound : w.db.connection connectionId = found :=
    Except.ok.inj (Fate.eq_of_query (congrArg Prod.fst hquery))
  cases found with
  | none => cases hrest
  | some row =>
    replace hrest : exec ConnectionCall.answer (if row.orgId ≠ orgId then _ else
      .ret row : ConnectionProg ChannelConnection) (fun n => o (n + k)) w₁ =
        (some (.ok connection), w') := hrest
    split at hrest
    · cases hrest
    · next horg =>
      cases hrest
      refine ⟨List.mem_of_find?_eq_some hfound, ?_, not_not.mp horg⟩
      simpa using List.find?_some hfound

/-- The row that `disable_connection` leaves. -/
def disabled (connectionId : String) (row : ChannelConnection) : ChannelConnection :=
  if row.id = connectionId then { row with status := "disabled" } else row

/-- `disable_connection` disables a row of the org. -/
theorem changes_disable (orgId actorUserId connectionId : String) (o : Oracle ConnectionChoice)
    (w : World) : Changes w (fun rows => rows = w.db.connections.rows.map (disabled connectionId) ∧
        ∃ row ∈ w.db.connections.rows, row.id = connectionId ∧ row.orgId = orgId)
      (exec ConnectionCall.answer (disableConnection orgId actorUserId connectionId) o w) := by
  have hselect : (ConnectionCall.selectConnection connectionId).LeavesConnections := fun x w =>
    congrArg (fun w : World => w.db.connections) (Fate.snd_query _ _ _)
  have hload : (loadConnection orgId connectionId).Calls ConnectionCall.LeavesConnections := by
    refine Calls.bind (Calls.perform hselect) fun found => ?_
    cases found with
    | none => trivial
    | some row =>
      show Calls _ (if row.orgId ≠ orgId then _ else _)
      split <;> trivial
  refine Changes.before (leavesConnections_elsewhere _) rfl fun _ w₁ k₁ _ hw₁ => ?_
  refine Changes.before hload hw₁ fun connection w₂ k₂ hrun hw₂ => ?_
  obtain ⟨hrow, rfl, horg⟩ := exec_loadConnection hrun
  rw [hw₁] at hrow
  refine Changes.write ?_ hw₂ fun x => ?_
  · exact fun _ => Calls.bind (leavesConnections_elsewhere _) fun _ => trivial
  rcases x.fate.transact_cases (w₂.db.connections.modify (disabled connection.id))
    (fun t => { w₂ with db := { w₂.db with connections := t } }) w₂ with
      ⟨_, t, ht, hstate⟩ | ⟨_, hstate, herror⟩
  · refine .inr ⟨?_, connection, hrow, rfl, horg⟩
    show (x.fate.transact _ _ w₂).2.db.connections.rows = _
    rw [← hw₂]
    exact (congrArg (fun w : World => w.db.connections.rows) hstate).trans (Table.rows_modify ht)
  · exact .inl ⟨hstate, herror⟩

/-! ### Runs -/

/-- A call of an admin of some org. -/
inductive AccountStep where
  | create (orgId actorUserId : String) (request : ConnectionRequest)
  | disable (orgId actorUserId connectionId : String)

namespace AccountStep

/-- The call neither registers an account that has a row, nor names a connection of the org to be
disabled. -/
def Apt (w : World) : AccountStep → Prop
  | create _ _ request =>
    ∀ c ∈ w.db.connections.rows, ¬c.IsOf request.channelType request.providerAccountId
  | disable orgId _ connectionId => ∀ c ∈ w.db.connections.rows, c.id = connectionId → c.orgId ≠ orgId

variable (hmacSha256 : String → Bytes → Except PyErr Bytes)

/-- The state that the call leaves. -/
def run (o : Oracle ConnectionChoice) (w : World) : AccountStep → World
  | create orgId actorUserId request =>
    (exec ConnectionCall.answer (createConnection hmacSha256 orgId actorUserId request) o w).2
  | disable orgId actorUserId connectionId =>
    (exec ConnectionCall.answer (disableConnection orgId actorUserId connectionId) o w).2

/-- The call returns. -/
def Returns (o : Oracle ConnectionChoice) (w : World) : AccountStep → Prop
  | create orgId actorUserId request => ∃ r,
    (exec ConnectionCall.answer (createConnection hmacSha256 orgId actorUserId request) o w).1 =
      some (.ok r)
  | disable orgId actorUserId connectionId => ∃ r,
    (exec ConnectionCall.answer (disableConnection orgId actorUserId connectionId) o w).1 =
      some (.ok r)

end AccountStep

section Runs

variable (hmacSha256 : String → Bytes → Except PyErr Bytes)

/-- The states of a run of calls. -/
def accountStates : List (AccountStep × Oracle ConnectionChoice) → World → List World
  | [], w => [w]
  | (step, o) :: steps, w => w :: accountStates steps (step.run hmacSha256 o w)

/-- `P` holds of each call of a run, in the state that it is made in. -/
def EachCall (P : Oracle ConnectionChoice → World → AccountStep → Prop) :
    List (AccountStep × Oracle ConnectionChoice) → World → Prop
  | [], _ => True
  | (step, o) :: steps, w => P o w step ∧ EachCall P steps (step.run hmacSha256 o w)

variable {hmacSha256}

/-- A channel with an adapter is one of the channels. -/
theorem known_of_adapter {channelType : String} (h : (webhookAdapters hmacSha256 channelType).isSome) :
    ∃ t : ChannelType, t.value = channelType := by
  unfold webhookAdapters at h
  split at h
  · next hemail => exact ⟨.email, hemail.symm⟩
  split at h
  · next hmeta =>
    simp only [List.mem_cons, List.not_mem_nil, or_false] at hmeta
    rcases hmeta with rfl | rfl | rfl
    · exact ⟨.whatsapp, rfl⟩
    · exact ⟨.messenger, rfl⟩
    · exact ⟨.instagram, rfl⟩
  · cases h

variable {o : Oracle ConnectionChoice} {w : World}

theorem disabled_channelType (connectionId : String) (c : ChannelConnection) :
    (disabled connectionId c).channelType = c.channelType := by
  unfold disabled
  split <;> rfl

/-- Each call leaves the channels known. -/
theorem knownChannels_run (h : KnownChannels w) (step : AccountStep) :
    KnownChannels (step.run hmacSha256 o w) := by
  intro c hc
  cases step with
  | create orgId actorUserId request =>
    rcases changes_create hmacSha256 orgId actorUserId request o w with
      ⟨hrows, _⟩ | ⟨row, hrows, _, _, hadapter⟩
    · exact h c (hrows ▸ hc)
    · have hmem : c ∈ w.db.connections.rows ++ [row] := hrows ▸ hc
      rcases List.mem_append.mp hmem with hc | hc
      · exact h c hc
      · rw [List.mem_singleton.mp hc]
        exact known_of_adapter hadapter
  | disable orgId actorUserId connectionId =>
    rcases changes_disable orgId actorUserId connectionId o w with ⟨hrows, _⟩ | ⟨hrows, _⟩
    · exact h c (hrows ▸ hc)
    · have hmem : c ∈ w.db.connections.rows.map (disabled connectionId) := hrows ▸ hc
      obtain ⟨d, hd, rfl⟩ := List.mem_map.mp hmem
      rw [disabled_channelType]
      exact h d hd

/-- The same rows. -/
theorem OneRowEach.congr {w' : World} (h : OneRowEach w)
    (hrows : w'.db.connections.rows = w.db.connections.rows) : OneRowEach w' :=
  ⟨by rw [hrows]; exact h.active, by rw [hrows]; exact h.distinct⟩

/-- A call that is apt leaves one row for each account. -/
theorem oneRowEach_run (h : OneRowEach w) {step : AccountStep} (hstep : step.Apt w) :
    OneRowEach (step.run hmacSha256 o w) := by
  cases step with
  | create orgId actorUserId request =>
    rcases changes_create hmacSha256 orgId actorUserId request o w with
      ⟨hrows, _⟩ | ⟨row, hrows, hactive, hof, _⟩
    · exact h.congr hrows
    · have hrows' : ((AccountStep.create orgId actorUserId request).run hmacSha256 o w).db.connections.rows
          = w.db.connections.rows ++ [row] := hrows
      refine ⟨fun c hc => ?_, ?_⟩
      · rw [hrows'] at hc
        rcases List.mem_append.mp hc with hc | hc
        · exact h.active c hc
        · rw [List.mem_singleton.mp hc]
          exact hactive
      · rw [hrows', List.pairwise_append]
        refine ⟨h.distinct, List.pairwise_singleton _ _, fun c hc d hd hcd => ?_⟩
        rw [List.mem_singleton.mp hd] at hcd
        exact hstep c hc ⟨hcd.1.trans hof.1, hcd.2.trans hof.2⟩
  | disable orgId actorUserId connectionId =>
    rcases changes_disable orgId actorUserId connectionId o w with
      ⟨hrows, _⟩ | ⟨_, row, hrow, hid, horg⟩
    · exact h.congr hrows
    · exact absurd horg (hstep row hrow hid)

/-- A call that returns and leaves one active row for each account is apt. -/
theorem apt_of_run {step : AccountStep} (hreturns : step.Returns hmacSha256 o w)
    (h : OneRowEach (step.run hmacSha256 o w)) : step.Apt w := by
  cases step with
  | create orgId actorUserId request =>
    obtain ⟨r, hr⟩ := hreturns
    rcases changes_create hmacSha256 orgId actorUserId request o w with
      ⟨_, hnot⟩ | ⟨row, hrows, _, hof, _⟩
    · exact absurd hr (hnot r)
    · intro c hc hcof
      have hdistinct : (w.db.connections.rows ++ [row]).Pairwise fun c d =>
          ¬c.IsOf d.channelType d.providerAccountId := hrows ▸ h.distinct
      refine (List.pairwise_append.mp hdistinct).2.2 c hc row List.mem_cons_self ?_
      exact ⟨hcof.1.trans hof.1.symm, hcof.2.trans hof.2.symm⟩
  | disable orgId actorUserId connectionId =>
    obtain ⟨r, hr⟩ := hreturns
    rcases changes_disable orgId actorUserId connectionId o w with
      ⟨_, hnot⟩ | ⟨hrows, row, hrow, hid, _⟩
    · exact absurd hr (hnot r)
    · have hmem : disabled connectionId row ∈
          ((AccountStep.disable orgId actorUserId connectionId).run hmacSha256 o w).db.connections.rows :=
        hrows.symm ▸ List.mem_map_of_mem hrow
      have hactive := h.active _ hmem
      rw [disabled, if_pos hid] at hactive
      have hstatus : "disabled" = "active" := hactive
      exact absurd hstatus (by decide)

variable (hmacSha256)

theorem mem_accountStates_self (steps : List (AccountStep × Oracle ConnectionChoice)) (w : World) :
    w ∈ accountStates hmacSha256 steps w := by
  cases steps <;> exact List.mem_cons_self

/-- **Runs of admins' calls**, from a deployment without connections: where no call registers an
account that has a row, and none names a connection of its org to be disabled, an account names one
org in every state. Where every call returns, it does in no other run. -/
theorem namesOneOrg_run (steps : List (AccountStep × Oracle ConnectionChoice)) (w : World)
    (hw : w.db.connections.rows = []) :
    (EachCall hmacSha256 (fun _ w step => step.Apt w) steps w →
      ∀ w' ∈ accountStates hmacSha256 steps w, NamesOneOrg w') ∧
    (EachCall hmacSha256 (fun o w step => step.Returns hmacSha256 o w) steps w →
      (∀ w' ∈ accountStates hmacSha256 steps w, NamesOneOrg w') →
        EachCall hmacSha256 (fun _ w step => step.Apt w) steps w) := by
  have hknown : KnownChannels w := fun c hc => absurd (hw ▸ hc) List.not_mem_nil
  have hone : OneRowEach w := ⟨fun c hc => absurd (hw ▸ hc) List.not_mem_nil, by rw [hw]; exact .nil⟩
  clear hw
  constructor
  · intro hapt
    induction steps generalizing w with
    | nil =>
      intro w' hw'
      rw [List.mem_singleton.mp hw']
      exact (namesOneOrg_iff hknown).mpr hone
    | cons step steps ih =>
      obtain ⟨step, o⟩ := step
      obtain ⟨hstep, hsteps⟩ := hapt
      intro w' hw'
      rcases List.mem_cons.mp hw' with rfl | hw'
      · exact (namesOneOrg_iff hknown).mpr hone
      · exact ih _ (knownChannels_run hknown step) (oneRowEach_run hone hstep) hsteps w' hw'
  · intro hreturns hnames
    induction steps generalizing w with
    | nil => trivial
    | cons step steps ih =>
      obtain ⟨step, o⟩ := step
      obtain ⟨hstep, hsteps⟩ := hreturns
      have hnext := @knownChannels_run hmacSha256 o w hknown step
      have hone' := (namesOneOrg_iff hnext).mp
        (hnames _ (List.mem_cons_of_mem _ (mem_accountStates_self hmacSha256 steps _)))
      exact ⟨apt_of_run hstep hone',
        ih _ hnext hone' hsteps fun w' hw' => hnames w' (List.mem_cons_of_mem _ hw')⟩

end Runs

/-! ### An account of two orgs -/

/-- A deployment without connections. -/
def freshWorld : World := { inboxWorld with db := Db.empty }

/-- An admin of an org registers a WhatsApp number, and every call goes through. -/
def registers (orgId token providerAccountId : String) : AccountStep × Oracle ConnectionChoice :=
  (.create orgId "ada" ⟨"whatsapp", "Support", providerAccountId, some [], none⟩,
    fun n => some { Choice.calm (token ++ toString n) with dkimTokens := [] })

/-- The row of a number. -/
def numberRow (id orgId : String) : ChannelConnection :=
  ⟨id, orgId, "whatsapp", "Support", "1555", id, "active", ⟨⟨2026, 1, 1⟩, 0, 0, 0, 0⟩⟩

/-- What the first call leaves. -/
theorem rows_registers : ((registers "org" "c" "1555").1.run (fun _ _ => .ok [])
    (registers "org" "c" "1555").2 freshWorld).db.connections.rows = [numberRow "c1" "org"] := by
  decide +kernel

/-- Two orgs register a number each. -/
def twoNumbers : List (AccountStep × Oracle ConnectionChoice) :=
  [registers "org" "c" "1555", registers "other" "d" "1556"]

/-- Each of the numbers names one org. -/
theorem namesOneOrg_run_numbers :
    (∀ w' ∈ accountStates (fun _ _ => .ok []) twoNumbers freshWorld, NamesOneOrg w') ∧
      EachCall (fun _ _ => .ok []) (fun _ w step => step.Apt w) twoNumbers freshWorld := by
  obtain ⟨hnames, hapt⟩ := namesOneOrg_run (fun _ _ => .ok []) twoNumbers freshWorld rfl
  have hone : ∀ w' ∈ accountStates (fun _ _ => .ok []) twoNumbers freshWorld, NamesOneOrg w' := by
    refine hnames ⟨fun c hc => absurd hc List.not_mem_nil, fun c hc hof => ?_, trivial⟩
    have hrow : c ∈ [numberRow "c1" "org"] := by
      rw [← rows_registers]
      exact hc
    obtain rfl := List.mem_singleton.mp hrow
    exact absurd hof.2 (by decide)
  exact ⟨hone, hapt ⟨⟨_, rfl⟩, ⟨_, rfl⟩, trivial⟩ hone⟩

/-- Two orgs register one number. -/
theorem not_namesOneOrg : ¬∀ (hmacSha256 : String → Bytes → Except PyErr Bytes)
    (steps : List (AccountStep × Oracle ConnectionChoice)) (w : World), w.db.connections.rows = [] →
      ∀ w' ∈ accountStates hmacSha256 steps w, NamesOneOrg w' := by
  intro h
  have hnames := h (fun _ _ => .ok []) [registers "org" "c" "1555", registers "other" "d" "1555"]
    freshWorld rfl _ (List.mem_cons_of_mem _ (List.mem_cons_of_mem _ List.mem_cons_self))
  have hrows : ((registers "other" "d" "1555").1.run (fun _ _ => .ok []) (registers "other" "d" "1555").2
      ((registers "org" "c" "1555").1.run (fun _ _ => .ok []) (registers "org" "c" "1555").2
        freshWorld)).db.connections.rows =
      [numberRow "c1" "org", numberRow "d1" "other"] := by decide +kernel
  have horg : numberRow "c1" "org" ∈ [numberRow "c1" "org", numberRow "d1" "other"] :=
    List.mem_cons_self
  have hother : numberRow "d1" "other" ∈ [numberRow "c1" "org", numberRow "d1" "other"] :=
    List.mem_cons_of_mem _ List.mem_cons_self
  rw [← hrows] at horg hother
  have horgs : "org" = "other" := hnames.one _ horg _ hother rfl rfl ⟨rfl, rfl⟩
  exact absurd horgs (by decide)

end A2ZCore.Omnichannel
