import A2ZCore.Core.Email
import A2ZCore.Lib.Pool

/-!
# Configuration sets that are confirmed

`_ensure_config_set` remembers for the life of the process that a configuration set is there. An error
of the creation is logged and swallowed, whatever its code: what tells a set that is missing is the
event destination, which SES refuses without one. Where no topic is configured that call is skipped,
and the name of a set that was never created is remembered.

## Main definitions

* `Created`, `ConfirmedCreated` — the set and its destination are at SES; so are those of each name
  that is remembered
* `Truthful` — the call creates what is then remembered, or reports that it did not
* `sends` — calls of `send_email`, in one process

## Main results

* `wp_ensureConfigSet` — what is remembered by one call
* `confirmedCreated_run` — what is remembered in a run
-/

namespace A2ZCore.Core

open Interaction Interaction.Proc Interaction.Contract

/-! ### What is at SES -/

/-- A topic is configured. -/
def AppConfig.HasTopic (config : AppConfig) : Prop :=
  ∃ topicArn, config.sesNotificationsTopicArn = some topicArn ∧ topicArn ≠ ""

/-- The event destination of the set is at SES. -/
def Attached (w : World) (name : String) : Prop := name ∈ w.eventDestinations.map Prod.fst

/-- The configuration set is at SES, with its event destination if there is a topic. -/
structure Created (w : World) (name : String) : Prop where
  created : name ∈ w.configurationSets
  attached : w.config.HasTopic → Attached w name

/-- Each name that is remembered is that of a configuration set at SES. -/
def ConfirmedCreated (w : World) : Prop := ∀ name ∈ w.configSetsConfirmed, Created w name

/-- SES has what it had. -/
structure Keeps (w w' : World) : Prop where
  config : w'.config = w.config
  sets : w.configurationSets ⊆ w'.configurationSets
  destinations : w.eventDestinations ⊆ w'.eventDestinations

theorem Keeps.refl (w : World) : Keeps w w := ⟨rfl, List.Subset.refl _, List.Subset.refl _⟩

theorem Keeps.trans {u v w : World} (h : Keeps u v) (h' : Keeps v w) : Keeps u w :=
  ⟨h'.config.trans h.config, List.Subset.trans h.sets h'.sets,
    List.Subset.trans h.destinations h'.destinations⟩

theorem Keeps.attached {w w' : World} (h : Keeps w w') {name : String} (hname : Attached w name) :
    Attached w' name :=
  List.map_subset _ h.destinations hname

theorem Keeps.created {w w' : World} (h : Keeps w w') {name : String} (hname : Created w name) :
    Created w' name :=
  ⟨h.sets hname.created, fun htopic => h.attached (hname.attached (h.config ▸ htopic))⟩

/-- Every call leaves what is at SES. -/
theorem keeps_answer (c : Call) (x : Choice) (w : World) : Keeps w (c.answer x w).2 := by
  rcases c.writes_of_answer x w with h | h
  · rw [h]
    exact .refl w
  · generalize (c.answer x w).2 = w' at h ⊢
    cases h with
    | configurationSets name => exact ⟨rfl, List.subset_append_left _ _, List.Subset.refl _⟩
    | eventDestinations name topicArn =>
      exact ⟨rfl, List.Subset.refl _, List.subset_append_left _ _⟩
    | _ => exact ⟨rfl, List.Subset.refl _, List.Subset.refl _⟩

/-- A call that remembers no name. -/
def Call.RemembersNone : Call → Prop
  | .confirmConfigSet _ => False
  | _ => True

theorem confirmed_answer {c : Call} (hc : c.RemembersNone) (x : Choice) (w : World) :
    (c.answer x w).2.configSetsConfirmed = w.configSetsConfirmed := by
  rcases c.writes_of_answer x w with h | h
  · rw [h]
  · generalize (c.answer x w).2 = w' at h ⊢
    cases h with
    | configSetsConfirmed name => exact hc.elim
    | _ => rfl

/-! ### The setting -/

/-- Where the creation of a set is all that tells that it is missing, it has created the set, or its
error is not one that is swallowed; and what is said to exist already exists. -/
def Truthful (c : Call) (x : Choice) (w : World) : Prop :=
  match c with
  | .createConfigurationSet name => ¬w.config.HasTopic →
      name ∈ (c.answer x w).2.configurationSets ∨
        ∃ e, (c.answer x w).1 = .error e ∧ ∀ code, e.cls ≠ .clientError code
  | .createEventDestination name _ => ∀ e, (c.answer x w).1 = .error e →
      e.cls = .clientError "EventDestinationAlreadyExists" ∨ e.cls = .clientError "AlreadyExists" →
        name ∈ w.configurationSets ∧ Attached w name
  | _ => True

/-- The setting of calls that run side by side. -/
def confirming : Contract Call Call.Resp PyErr Choice World where
  answer := Call.answer
  rely := Keeps
  admits := Truthful
  guar _ _ w w' := Keeps w w' ∧ (ConfirmedCreated w → ConfirmedCreated w')
  rely_refl := .refl
  rely_trans := .trans

/-- What a call leaves that remembers no name. -/
theorem guar_of_remembersNone {c : Call} (hc : c.RemembersNone) (x : Choice) (w : World) :
    Keeps w (c.answer x w).2 ∧ (ConfirmedCreated w → ConfirmedCreated (c.answer x w).2) := by
  have hkeeps := keeps_answer c x w
  refine ⟨hkeeps, fun h name hname => hkeeps.created (h name ?_)⟩
  rwa [confirmed_answer hc] at hname

/-- A stretch of a program that remembers no name. -/
theorem wp_of_remembersNone {α : Type} {p : Prog α} {w : World}
    {Q : Except PyErr α → World → Prop} (hp : p.Calls Call.RemembersNone)
    (h : ∀ r w', Keeps w w' → Q r w') : confirming.wp p w Q :=
  wp_of_calls (fun c hc x w' _ => ⟨guar_of_remembersNone hc x w', keeps_answer c x w'⟩) hp
    p.returns_true (fun a w' hw _ => h (.ok a) w' hw) fun e w' hw => h (.error e) w' hw

/-- A call that remembers no name. -/
theorem wp_run {c : Call} (hc : c.RemembersNone) {w : World} {Q : Except PyErr c.Resp → World → Prop}
    (h : ∀ w', Keeps w w' → ∀ x, Truthful c x w' → Q (c.answer x w').1 (c.answer x w').2) :
    confirming.wp (run c) w Q :=
  wp_perform fun w' hw x hx => ⟨guar_of_remembersNone hc x w', h w' hw x hx⟩

/-! ### The configuration set -/

/-- A destination that is created is there, and so is its set. -/
theorem attached_of_ok {name topicArn : String} {x : Choice} {w : World} {u : Unit}
    (h : ((Call.createEventDestination name topicArn).answer x w).1 = .ok u) :
    name ∈ ((Call.createEventDestination name topicArn).answer x w).2.configurationSets ∧
      Attached ((Call.createEventDestination name topicArn).answer x w).2 name := by
  rw [Call.answer] at h ⊢
  rcases x.fate.settle_cases _ w with ⟨e, he⟩ | ⟨a, w', heffect, he | ⟨e, he⟩⟩
  · rw [he] at h
    cases h
  · rw [he]
    split_ifs at heffect with hset hattached
    cases heffect
    refine ⟨hset, ?_⟩
    show name ∈ (w.eventDestinations ++ [(name, topicArn)]).map Prod.fst
    simp
  · rw [he] at h
    cases h

/-- What `_ensure_event_destination` has made sure of when it returns. -/
theorem wp_ensureEventDestination (name : String) (w : World) :
    confirming.wp (ensureEventDestination name) w fun r w' => Keeps w w' ∧
      (r = .ok () → w.config.HasTopic → name ∈ w'.configurationSets ∧ Attached w' name) := by
  refine wp_bind (wp_run (c := .appSettings) trivial fun w₁ h₁ x _ => ?_)
  show confirming.wp _ w₁ _
  dsimp only
  rw [h₁.config]
  split
  · next hnone =>
    refine ⟨h₁, fun _ htopic => ?_⟩
    obtain ⟨topicArn, hsome, _⟩ := htopic
    rw [hnone] at hsome
    cases hsome
  · next hempty =>
    refine ⟨h₁, fun _ htopic => ?_⟩
    obtain ⟨topicArn, hsome, hne⟩ := htopic
    rw [hempty] at hsome
    exact absurd (Option.some.inj hsome).symm hne
  · next topicArn _ _ =>
    refine wp_handle (wp_run (c := .createEventDestination name topicArn) trivial fun w₂ h₂ x hx => ?_)
    have hkeeps := h₁.trans (h₂.trans (keeps_answer (.createEventDestination name topicArn) x w₂))
    have hlater := keeps_answer (.createEventDestination name topicArn) x w₂
    show confirming.caught _ _ ((Call.createEventDestination name topicArn).answer x w₂).1
      ((Call.createEventDestination name topicArn).answer x w₂).2
    cases hreply : ((Call.createEventDestination name topicArn).answer x w₂).1 with
    | ok _ => exact ⟨hkeeps, fun _ _ => attached_of_ok hreply⟩
    | error exc =>
      have hexists : exc.cls = .clientError "EventDestinationAlreadyExists" ∨
          exc.cls = .clientError "AlreadyExists" → name ∈ ((Call.createEventDestination name
            topicArn).answer x w₂).2.configurationSets ∧
              Attached ((Call.createEventDestination name topicArn).answer x w₂).2 name :=
        fun hcode => ⟨hlater.sets (hx exc hreply hcode).1, hlater.attached (hx exc hreply hcode).2⟩
      show confirming.wp _ _ _
      dsimp only
      split
      · next hcode => exact ⟨hkeeps, fun _ _ => hexists (.inl hcode)⟩
      · next hcode => exact ⟨hkeeps, fun _ _ => hexists (.inr hcode)⟩
      · exact ⟨hkeeps, fun h => by cases h⟩
      · exact ⟨hkeeps, fun h => by cases h⟩

/-- `_ensure_config_set` remembers no name but that of a set that is there. -/
theorem wp_ensureConfigSet (orgId serviceType : String) (w : World) :
    confirming.wp (ensureConfigSet orgId serviceType) w fun _ w' => Keeps w w' := by
  refine wp_bind (wp_run (c := .isConfigSetConfirmed _) trivial fun w₁ h₁ x _ => ?_)
  show confirming.wp (if w₁.configSetsConfirmed.contains (configSetName orgId serviceType) then _
    else _) w₁ _
  split
  · exact h₁
  set name := configSetName orgId serviceType
  refine wp_bind (wp_mono (fun r w₂ (hr : Keeps w₁ w₂ ∧
    (r = .ok () → ¬w₁.config.HasTopic → name ∈ w₂.configurationSets)) => ?_) ?_)
  -- what the creation leaves, where its error is swallowed too
  case refine_2 =>
    refine wp_handle (wp_run (c := .createConfigurationSet name) trivial fun w₂ h₂ x hx => ?_)
    have hkeeps := h₂.trans (keeps_answer (.createConfigurationSet name) x w₂)
    have htruth : ¬w₁.config.HasTopic → name ∈ ((Call.createConfigurationSet name).answer x
        w₂).2.configurationSets ∨ ∃ e, ((Call.createConfigurationSet name).answer x w₂).1 =
          .error e ∧ ∀ code, e.cls ≠ .clientError code := fun htopic => hx (h₂.config ▸ htopic)
    show confirming.caught _ _ ((Call.createConfigurationSet name).answer x w₂).1
      ((Call.createConfigurationSet name).answer x w₂).2
    generalize (Call.createConfigurationSet name).answer x w₂ = reply at hkeeps htruth ⊢
    obtain ⟨r, w₃⟩ := reply
    cases r with
    | ok _ =>
      refine ⟨hkeeps, fun _ htopic => ?_⟩
      rcases htruth htopic with hset | ⟨e, he, _⟩
      · exact hset
      · cases he
    | error exc =>
      show confirming.wp _ _ _
      dsimp only
      split
      · next code hcode =>
        refine ⟨hkeeps, fun _ htopic => ?_⟩
        rcases htruth htopic with hset | ⟨e, he, hnot⟩
        · exact hset
        · cases he
          exact absurd hcode (hnot code)
      · exact ⟨hkeeps, fun h => by cases h⟩
  obtain ⟨h₂, hset⟩ := hr
  cases r with
  | error e => exact h₁.trans h₂
  | ok _ =>
    refine wp_bind (wp_mono (fun r w₃ hr => ?_) (wp_ensureEventDestination name w₂))
    obtain ⟨h₃, hattached⟩ := hr
    cases r with
    | error e => exact h₁.trans (h₂.trans h₃)
    | ok _ =>
      have hcreated : Created w₃ name := by
        have hconfig : w₃.config = w₁.config := h₃.config.trans h₂.config
        by_cases htopic : w₁.config.HasTopic
        · have hboth := hattached rfl (h₂.config ▸ htopic)
          exact ⟨hboth.1, fun _ => hboth.2⟩
        · exact ⟨h₃.sets (hset rfl htopic), fun h => absurd (hconfig ▸ h) htopic⟩
      refine wp_bind (wp_perform fun w₄ h₄ x _ => ⟨⟨keeps_answer _ x w₄, fun hall => ?_⟩, ?_⟩)
      · intro other hother
        refine (keeps_answer (.confirmConfigSet name) x w₄).created ?_
        have hmem : other ∈ w₄.configSetsConfirmed.insert name := hother
        rcases List.mem_insert_iff.mp hmem with rfl | hmem
        · exact h₄.created hcreated
        · exact hall other hmem
      · exact h₁.trans (h₂.trans (h₃.trans (h₄.trans (keeps_answer (.confirmConfigSet name) x w₄))))

/-! ### Calls of `send_email` -/

theorem reports_remembersNone : Reports Call.RemembersNone where
  utcnow := trivial
  uuid4 := trivial
  putAuditItem _ := trivial
  putEvents _ := trivial

theorem remembersNone_checkAndIncrement (orgId action : String) (limit windowSeconds : ℕ) :
    (checkAndIncrement orgId action limit windowSeconds).Calls Call.RemembersNone := by
  refine (Calls.perform trivial).bind fun retry => ?_
  cases retry <;> trivial

theorem remembersNone_verifyDomainOutsideProd (domain : String) :
    (verifyDomainOutsideProd domain).Calls Call.RemembersNone := by
  refine (Calls.perform trivial).bind fun config => ?_
  split
  · trivial
  · refine Calls.handle (Calls.perform ?_) fun e => ?_
    · trivial
    · split <;> trivial

theorem remembersNone_recordSent (orgId serviceType recipient subject messageId : String)
    (metadata : Json) :
    (recordSent orgId serviceType recipient subject messageId metadata).Calls Call.RemembersNone := by
  refine (Calls.perform trivial).bind fun now => (Calls.perform trivial).bind fun _ => ?_
  exact (reports_remembersNone.calls_logAudit _ _ _ _ _ _).bind fun _ => trivial

theorem remembersNone_sesSend (mail : Mail) : (sesSend mail).Calls Call.RemembersNone := by
  refine Calls.handle (Calls.perform ?_) fun exc => ?_
  · trivial
  · unfold refused
    split <;> trivial

/-- The arguments of `send_email`. -/
structure MailRequest where
  orgId : String
  serviceType : String
  recipient : String
  subject : String
  bodyHtml : String
  bodyText : Option String
  attachments : List Attachment
  replyTo : Option String
  metadata : Json

/-- The call. -/
def MailRequest.send (r : MailRequest) : Prog EmailResult :=
  sendEmail r.orgId r.serviceType r.recipient r.subject r.bodyHtml r.bodyText r.attachments r.replyTo
    r.metadata

/-- `send_email` keeps the promise. -/
theorem wp_sendMail (r : MailRequest) (w : World) : confirming.wp r.send w fun _ _ => True := by
  have hprepare : confirming.wp (prepareMail r.orgId r.serviceType r.recipient r.subject r.bodyHtml
      r.bodyText r.attachments r.replyTo) w fun _ _ => True := by
    refine wp_bind (wp_ofExcept.mpr ?_)
    cases validateAddress r.recipient with
    | error e => trivial
    | ok _ =>
      have hsettings : (getOrgSettings r.orgId).Calls Call.RemembersNone :=
        (Calls.perform trivial).bind fun _ => Calls.ofExcept _
      refine wp_bind (wp_of_remembersNone hsettings fun org w₁ _ => ?_)
      cases org with
      | error e => trivial
      | ok org =>
        refine wp_bind (wp_mono (fun configSet w₂ _ => ?_) (wp_ensureConfigSet _ _ w₁))
        cases configSet with
        | error e => trivial
        | ok configSet =>
          refine wp_of_remembersNone ?_ fun _ _ _ => trivial
          refine Calls.bind (Calls.perform (c := Call.getSuppressionItem _ _) trivial) fun suppressed => ?_
          cases suppressed with
          | true => trivial
          | false =>
            exact (remembersNone_checkAndIncrement _ _ _ _).bind fun _ =>
              (remembersNone_verifyDomainOutsideProd _).bind fun _ => trivial
  refine wp_bind (wp_mono (fun mail w₁ _ => ?_) hprepare)
  cases mail with
  | error e => trivial
  | ok mail =>
    exact wp_of_remembersNone ((remembersNone_sesSend mail).bind fun messageId =>
      remembersNone_recordSent _ _ _ _ messageId _) fun _ _ _ => trivial

/-- Calls of `send_email` of one process, none of which has begun. -/
def sends (requests : List MailRequest) (w : World) : Pool Call Call.Resp PyErr EmailResult World :=
  ⟨requests.map MailRequest.send, w⟩

/-- **Confirmed means created**, in every state of a run each of whose calls creates what is then
remembered, or reports that it did not. -/
theorem confirmedCreated_run (requests : List MailRequest) (w : World) (schedule : List (ℕ × Choice))
    (h : ConfirmedCreated w) (ha : Pool.Along Call.answer Truthful (sends requests w) schedule)
    (n : ℕ) : ConfirmedCreated ((sends requests w).run Call.answer (schedule.take n)).world := by
  have hprocs : ∀ p ∈ (sends requests w).procs, confirming.wp p w fun _ _ => True := by
    intro p hp
    obtain ⟨r, _, rfl⟩ := List.mem_map.mp hp
    exact wp_sendMail r w
  rw [← List.take_append_drop n schedule, Pool.along_append] at ha
  obtain ⟨hguar, _⟩ := Pool.run_wp (K := confirming) (fun _ _ _ _ hg => hg.1)
    (fun _ _ _ _ _ => trivial) hprocs ha.1
  exact Pool.run_invariant (hguar.mono fun _ _ _ hg => hg.2) h

/-- An invoice's email. -/
def invoiceMail : MailRequest :=
  ⟨"org", "invoicing", "kim@example.com", "Invoice", "<p>Hi</p>", none, [], none, .null⟩

/-- The first calls of the mail, where the creation of the configuration set is throttled. -/
def throttled : List (ℕ × Choice) :=
  (List.range 5).map fun i => (0, if i = 2 then
    { Choice.calm "t" with fate := .lost ⟨.clientError "Throttling", "Rate exceeded"⟩ }
    else .calm "t")

/-- With a topic the set that could not be created is refused a destination. -/
theorem confirmedCreated_run_topic : ConfirmedCreated ((sends [invoiceMail] { World.initial with
    config := ⟨true, some "arn:aws:sns:topic"⟩ }).run Call.answer (throttled.take 5)).world := by
  refine confirmedCreated_run [invoiceMail] _ throttled (fun name h => absurd h List.not_mem_nil) ?_ 5
  have htopic : AppConfig.HasTopic ⟨true, some "arn:aws:sns:topic"⟩ := ⟨_, rfl, by decide⟩
  refine ⟨fun c k h => ?_, fun c k h => ?_, fun c k h => ?_, fun c k h => ?_, fun c k h => ?_, trivial⟩
  · cases h
    trivial
  · cases h
    trivial
  · cases h
    exact fun hnone => absurd htopic hnone
  · cases h
    trivial
  · cases h
    rintro e he hcode
    cases he
    exact absurd hcode (by decide)

/-- Without one it is remembered. -/
theorem not_confirmedCreated : ¬∀ (requests : List MailRequest) (w : World)
    (schedule : List (ℕ × Choice)), w.configSetsConfirmed = [] →
      ConfirmedCreated ((sends requests w).run Call.answer schedule).world := by
  intro h
  have hall := h [invoiceMail] World.initial throttled rfl
  have hconfirmed : "org-invoicing" ∈
      ((sends [invoiceMail] World.initial).run Call.answer throttled).world.configSetsConfirmed := by
    decide +kernel
  have hnone : "org-invoicing" ∉
      ((sends [invoiceMail] World.initial).run Call.answer throttled).world.configurationSets := by
    decide +kernel
  exact hnone (hall _ hconfirmed).created

end A2ZCore.Core
