import A2ZCore.Core.Email
import Mathlib

/-!
# What an org sees of Core

The items of all orgs are in the same tables, and every process has one rate limiter and one set of
confirmed configuration sets. What the functions of `app.core` read for an org is the org's
settings, its windows, its configuration set for a service, and what no function writes; what they
write for it is that, and items that bear its id. So nothing of what is done for one org is noticed by
another.

## Main definitions

* `OrgView` — an org finds two states alike
* `Call.Concerns` — the call is one about the org

## Main results

* `OrgView.answer` — a call about the org is answered alike
* `OrgView.answer_other` — a call about another org is not noticed
* `concerns_sendEmail`, `concerns_uploadFile` — what is called for an org is about the org
-/

namespace A2ZCore.Core

open Interaction Interaction.Proc

/-- The two states are alike for an org that sends mail as the service. -/
structure OrgView (serviceType orgId : String) (w v : World) : Prop where
  config : w.config = v.config
  memberships : w.memberships = v.memberships
  suppression : w.suppression = v.suppression
  settings : w.settings orgId = v.settings orgId
  windows : ∀ action, w.windows (orgId, action) = v.windows (orgId, action)
  created : configSetName orgId serviceType ∈ w.configurationSets ↔
    configSetName orgId serviceType ∈ v.configurationSets
  attached : configSetName orgId serviceType ∈ w.eventDestinations.map Prod.fst ↔
    configSetName orgId serviceType ∈ v.eventDestinations.map Prod.fst
  confirmed : configSetName orgId serviceType ∈ w.configSetsConfirmed ↔
    configSetName orgId serviceType ∈ v.configSetsConfirmed
  audit : (w.audit.filter fun e => e.orgId = orgId) = v.audit.filter fun e => e.orgId = orgId
  files : (w.files.filter fun f => f.orgId = orgId) = v.files.filter fun f => f.orgId = orgId
  emailEvents : (w.emailEvents.filter fun e => e.orgId = orgId) =
    v.emailEvents.filter fun e => e.orgId = orgId

theorem OrgView.refl (serviceType orgId : String) (w : World) : OrgView serviceType orgId w w :=
  ⟨rfl, rfl, rfl, rfl, fun _ => rfl, .rfl, .rfl, .rfl, rfl, rfl, rfl⟩

/-- The call reads and writes what is the org's, or what every org shares. -/
def Call.Concerns (serviceType orgId : String) : Call → Prop
  | .getSettingsItem org | .addInvoiceNumber org => org = orgId
  | .putAuditItem event => event.orgId = orgId
  | .putFileItem item => item.orgId = orgId
  | .putEmailEvent item => item.orgId = orgId
  | .createConfigurationSet name | .createEventDestination name _ | .isConfigSetConfirmed name
  | .confirmConfigSet name => name = configSetName orgId serviceType
  | .slideWindow key _ _ => key.1 = orgId
  | .getSecretValue _ | .secretCacheGet _ | .secretCacheSet _ _ _ | .brokerPublish _ _ => False
  | _ => True

section View

variable {serviceType orgId other : String} {w v w' v' : World}

/-- A call that is settled alike. -/
theorem OrgView.settle {α : Type} (h : OrgView serviceType orgId w v) (fate : Fate) (a : α)
    (h' : OrgView serviceType orgId w' v') :
    (fate.settle (.ok (a, w')) w).1 = (fate.settle (.ok (a, v')) v).1 ∧
      OrgView serviceType orgId (fate.settle (.ok (a, w')) w).2
        (fate.settle (.ok (a, v')) v).2 := by
  cases fate with
  | ok => exact ⟨rfl, h'⟩
  | lost e => exact ⟨rfl, h⟩
  | late e => exact ⟨rfl, h'⟩

theorem OrgView.settle_error {α : Type} (h : OrgView serviceType orgId w v) (fate : Fate) (e : PyErr) :
    (fate.settle (.error e : Except PyErr (α × World)) w).1 =
        (fate.settle (.error e : Except PyErr (α × World)) v).1 ∧
      OrgView serviceType orgId (fate.settle (.error e : Except PyErr (α × World)) w).2
        (fate.settle (.error e : Except PyErr (α × World)) v).2 := by
  rw [Fate.settle_error, Fate.settle_error]
  exact ⟨rfl, h⟩

/-- **A call about the org** is answered alike, and leaves alike what is alike. -/
theorem OrgView.answer (h : OrgView serviceType orgId w v) {c : Call}
    (hc : c.Concerns serviceType orgId) (x : Choice) :
    (c.answer x w).1 = (c.answer x v).1 ∧
      OrgView serviceType orgId (c.answer x w).2 (c.answer x v).2 := by
  cases c with
  | utcnow | uuid4 | generatePresignedUrl => exact ⟨rfl, h⟩
  | appSettings => exact ⟨congrArg Except.ok h.config, h⟩
  | getMembershipItem userId org =>
    simp only [Call.answer, h.memberships]
    exact h.settle x.fate _ h
  | getSettingsItem org =>
    obtain rfl : org = orgId := hc
    simp only [Call.answer, h.settings]
    exact h.settle x.fate _ h
  | addInvoiceNumber org =>
    obtain rfl : org = orgId := hc
    simp only [Call.answer, h.settings]
    cases addOne ((v.settings org).getD []) with
    | error e => exact h.settle_error x.fate e
    | ok r => exact h.settle x.fate r.1 { h with settings := by simp }
  | putAuditItem event =>
    exact h.settle x.fate () { h with audit := by simp [List.filter_append, h.audit] }
  | putFileItem item =>
    exact h.settle x.fate () { h with files := by simp [List.filter_append, h.files] }
  | putEmailEvent item =>
    exact h.settle x.fate () { h with emailEvents := by simp [List.filter_append, h.emailEvents] }
  | getSuppressionItem org email =>
    simp only [Call.answer, h.suppression]
    exact h.settle x.fate _ h
  | putObject object => exact h.settle x.fate () { h with }
  | putEvents entry =>
    simp only [Call.answer]
    cases x.rejected with
    | some rejection => exact h.settle x.fate _ h
    | none => exact h.settle x.fate _ { h with }
  | createConfigurationSet name =>
    obtain rfl : name = configSetName orgId serviceType := hc
    simp only [Call.answer, h.created]
    split
    · exact h.settle_error x.fate _
    · exact h.settle x.fate () { h with created := by simp }
  | createEventDestination name topicArn =>
    obtain rfl : name = configSetName orgId serviceType := hc
    simp only [Call.answer, h.created, h.attached]
    split
    · exact h.settle_error x.fate _
    · split
      · exact h.settle_error x.fate _
      · exact h.settle x.fate () { h with attached := by simp }
  | verifyDomainIdentity domain => exact h.settle x.fate () h
  | sesSend mail => exact h.settle x.fate _ { h with }
  | slideWindow key limit windowSeconds =>
    obtain ⟨org, action⟩ := key
    obtain rfl : org = orgId := hc
    simp only [Call.answer, h.windows]
    split
    · refine ⟨rfl, { h with windows := fun action' => ?_ }⟩
      simp only [Function.update_apply, h.windows]
    · exact ⟨rfl, h⟩
  | isConfigSetConfirmed name =>
    obtain rfl : name = configSetName orgId serviceType := hc
    have hcontains : w.configSetsConfirmed.contains (configSetName orgId serviceType) =
        v.configSetsConfirmed.contains (configSetName orgId serviceType) := by
      rw [Bool.eq_iff_iff, List.contains_iff_mem, List.contains_iff_mem]
      exact h.confirmed
    exact ⟨congrArg Except.ok hcontains, h⟩
  | confirmConfigSet name =>
    obtain rfl : name = configSetName orgId serviceType := hc
    exact ⟨rfl, { h with confirmed := iff_of_true List.mem_insert_self List.mem_insert_self }⟩
  | getSecretValue | secretCacheGet | secretCacheSet | brokerPublish => exact hc.elim

/-- Items of another org are not the org's. -/
theorem filter_append_other {α : Type} {l l' : List α} {f : α → String} {a : α}
    (h : (l.filter fun b => f b = orgId) = l'.filter fun b => f b = orgId) (ha : f a ≠ orgId) :
    ((l ++ [a]).filter fun b => f b = orgId) = l'.filter fun b => f b = orgId := by
  rw [List.filter_append, h, List.filter_cons_of_neg (by simpa using ha), List.filter_nil,
    List.append_nil]

theorem configSetName_ne (serviceType : String) (h : other ≠ orgId) :
    configSetName orgId serviceType ≠ configSetName other serviceType := by
  intro hname
  simp only [configSetName, String.append_assoc] at hname
  exact h (String.append_left_inj _ |>.mp hname).symm

/-- **A call about another org** is not noticed. -/
theorem OrgView.answer_other (h : OrgView serviceType orgId w v) {c : Call}
    (hc : c.Concerns serviceType other) (hother : other ≠ orgId) (x : Choice) :
    OrgView serviceType orgId (c.answer x w).2 v := by
  have hname := configSetName_ne serviceType hother
  rcases c.writes_of_answer x w with hsame | hwrites
  · rwa [hsame]
  · generalize (c.answer x w).2 = w₁ at hwrites ⊢
    cases hwrites with
    | settings org item =>
      obtain rfl : org = other := hc
      exact { h with settings := by rw [← h.settings]; exact Function.update_of_ne hother.symm _ _ }
    | audit event =>
      obtain rfl : event.orgId = other := hc
      exact { h with audit := filter_append_other h.audit hother }
    | files item =>
      obtain rfl : item.orgId = other := hc
      exact { h with files := filter_append_other h.files hother }
    | emailEvents item =>
      obtain rfl : item.orgId = other := hc
      exact { h with emailEvents := filter_append_other h.emailEvents hother }
    | objects | events | mails => exact { h with }
    | configurationSets name =>
      obtain rfl : name = configSetName other serviceType := hc
      exact { h with created := by simpa [hname] using h.created }
    | eventDestinations name topicArn =>
      obtain rfl : name = configSetName other serviceType := hc
      exact { h with attached := by simpa [hname] using h.attached }
    | windows key limit windowSeconds dq =>
      obtain ⟨org, action⟩ := key
      obtain rfl : org = other := hc
      refine { h with windows := fun action' => ?_ }
      rw [← h.windows]
      exact Function.update_of_ne (fun hkey => hother (congrArg Prod.fst hkey).symm) _ _
    | configSetsConfirmed name =>
      obtain rfl : name = configSetName other serviceType := hc
      exact { h with confirmed := by simpa [hname] using h.confirmed }
    | secretCacheGet | secretCacheSet | updates => exact hc.elim

end View

/-! ### What is called for an org -/

section Concerns

variable (serviceType orgId : String)

theorem concerns_getOrgSettings : (getOrgSettings orgId).Calls (Call.Concerns serviceType orgId) :=
  Calls.bind (Calls.perform (c := Call.getSettingsItem orgId) rfl) fun _ => Calls.ofExcept _

theorem concerns_getNextInvoiceNumber (pfx : String) :
    (getNextInvoiceNumber orgId pfx).Calls (Call.Concerns serviceType orgId) := by
  refine Calls.bind (Calls.handle (Calls.perform rfl) fun exc => ?_) fun _ => trivial
  split <;> trivial

theorem concerns_logAudit (actorId action resourceType resourceId : String) (metadata : Json) :
    (logAudit orgId actorId action resourceType resourceId metadata).Calls
      (Call.Concerns serviceType orgId) := by
  refine (Calls.perform trivial).bind fun now => (Calls.perform trivial).bind fun eventId => ?_
  refine Calls.bind (Calls.handle (Calls.perform rfl) fun exc => ?_) fun _ => ?_
  · trivial
  · trivial

theorem concerns_uploadFile (service filename : String) (content : Bytes)
    (mimeType uploadedBy : String) :
    (uploadFile orgId service filename content mimeType uploadedBy).Calls
      (Call.Concerns serviceType orgId) := by
  unfold uploadFile
  split
  · trivial
  · refine (Calls.perform trivial).bind fun now => ?_
    refine Calls.bind (Calls.handle (Calls.perform ?_) fun e => ?_) fun _ => ?_
    · trivial
    · split <;> trivial
    · refine Calls.bind (Calls.perform (c := Call.putFileItem _) rfl) fun _ => ?_
      refine (concerns_logAudit serviceType orgId _ _ _ _ _).bind fun _ => ?_
      exact (Calls.perform trivial).bind fun _ => trivial

theorem concerns_ensureConfigSet :
    (ensureConfigSet orgId serviceType).Calls (Call.Concerns serviceType orgId) := by
  refine Calls.bind (Calls.perform (c := Call.isConfigSetConfirmed _) rfl) fun confirmed => ?_
  split
  · trivial
  · refine Calls.bind (Calls.handle (Calls.perform rfl) fun e => ?_) fun _ => ?_
    · split <;> trivial
    · refine Calls.bind ?_ fun _ =>
        Calls.bind (Calls.perform (c := Call.confirmConfigSet _) rfl) fun _ => trivial
      refine (Calls.perform trivial).bind fun config => ?_
      split
      · trivial
      · trivial
      · refine Calls.handle (Calls.perform rfl) fun e => ?_
        split <;> trivial

theorem concerns_checkAndIncrement (action : String) (limit windowSeconds : ℕ) :
    (checkAndIncrement orgId action limit windowSeconds).Calls
      (Call.Concerns serviceType orgId) := by
  refine Calls.bind (Calls.perform (c := Call.slideWindow (orgId, action) _ _) rfl) fun retry => ?_
  cases retry <;> trivial

theorem concerns_verifyDomainOutsideProd (domain : String) :
    (verifyDomainOutsideProd domain).Calls (Call.Concerns serviceType orgId) := by
  refine (Calls.perform trivial).bind fun config => ?_
  split
  · trivial
  · refine Calls.handle (Calls.perform ?_) fun e => ?_
    · trivial
    · split <;> trivial

theorem concerns_prepareMail (recipient subject bodyHtml : String) (bodyText : Option String)
    (attachments : List Attachment) (replyTo : Option String) :
    (prepareMail orgId serviceType recipient subject bodyHtml bodyText attachments replyTo).Calls
      (Call.Concerns serviceType orgId) := by
  refine (Calls.ofExcept _).bind fun _ => ?_
  refine (concerns_getOrgSettings serviceType orgId).bind fun org => ?_
  refine (concerns_ensureConfigSet serviceType orgId).bind fun configSet => ?_
  refine (Calls.perform trivial).bind fun suppressed => ?_
  cases suppressed with
  | true => trivial
  | false =>
    exact (concerns_checkAndIncrement serviceType orgId _ _ _).bind fun _ =>
      (concerns_verifyDomainOutsideProd serviceType orgId _).bind fun _ => trivial

theorem concerns_sendEmail (recipient subject bodyHtml : String) (bodyText : Option String)
    (attachments : List Attachment) (replyTo : Option String) (metadata : Json) :
    (sendEmail orgId serviceType recipient subject bodyHtml bodyText attachments replyTo
      metadata).Calls (Call.Concerns serviceType orgId) := by
  refine (concerns_prepareMail serviceType orgId _ _ _ _ _ _).bind fun mail => ?_
  refine Calls.bind (Calls.handle (Calls.perform ?_) fun exc => ?_) fun messageId => ?_
  · trivial
  · unfold refused
    split <;> trivial
  · refine (Calls.perform trivial).bind fun now => ?_
    refine Calls.bind (Calls.perform (c := Call.putEmailEvent _) rfl) fun _ => ?_
    exact (concerns_logAudit serviceType orgId _ _ _ _ _).bind fun _ => trivial

end Concerns

end A2ZCore.Core
