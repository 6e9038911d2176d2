import A2ZCore.Core.Services
import A2ZCore.Lib.Contract

/-!
# What Core's programs leave alone

The settings of an org are changed by nothing but the allocation of an invoice number, and what is
on the event bus or in the object store stays there. In such a setting `get_org_settings` reads what is stored, and
`publish_event` has published its event when it returns.

## Main definitions

* `Steady` — the settings stay, and events and objects are added
* `steady` — the setting of programs that leave the rest so

## Main results

* `wp_getOrgSettings`, `wp_publishEvent`
-/

namespace A2ZCore.Core

open Interaction Interaction.Proc Interaction.Contract

/-- The settings stay, and events and objects are added. -/
structure Steady (w w' : World) : Prop where
  settings : w'.settings = w.settings
  events : ∀ e ∈ w.events, e ∈ w'.events
  objects : w.objects <+: w'.objects

theorem Steady.refl (w : World) : Steady w w := ⟨rfl, fun _ h => h, List.prefix_rfl⟩

theorem Steady.trans {u v w : World} (h : Steady u v) (h' : Steady v w) : Steady u w :=
  ⟨h'.settings.trans h.settings, fun e he => h'.events e (h.events e he),
    h.objects.trans h'.objects⟩

/-- The call allocates no invoice number. -/
def Call.KeepsSettings : Call → Prop
  | .addInvoiceNumber _ => False
  | _ => True

theorem steady_answer {c : Call} (hc : c.KeepsSettings) (x : Choice) (w : World) :
    Steady w (c.answer x w).2 := by
  rcases c.writes_of_answer x w with h | h
  · rw [h]
    exact .refl w
  · generalize (c.answer x w).2 = w' at h ⊢
    cases h with
    | settings => exact hc.elim
    | events entry => exact ⟨rfl, fun e he => List.mem_append_left _ he, List.prefix_rfl⟩
    | objects object => exact ⟨rfl, fun _ h => h, List.prefix_append _ _⟩
    | _ => exact ⟨rfl, fun _ h => h, List.prefix_rfl⟩

/-- The setting of programs that leave settings and events so. -/
def steady : Contract Call Call.Resp PyErr Choice World where
  answer := Call.answer
  rely := Steady
  admits _ _ _ := True
  guar _ _ _ _ := True
  rely_refl := .refl
  rely_trans h h' := h.trans h'

/-- A program that allocates no invoice number. -/
theorem wp_of_keepsSettings {α : Type} {p : Prog α} {w : World} {Q : Except PyErr α → World → Prop}
    (hp : p.Calls Call.KeepsSettings) (h : ∀ r w', Steady w w' → Q r w') : steady.wp p w Q :=
  wp_of_calls (fun _ hc x w' _ => ⟨trivial, steady_answer hc x w'⟩) hp p.returns_true
    (fun a w' hw _ => h (.ok a) w' hw) fun e w' hw => h (.error e) w' hw

/-! ### The programs -/

/-- The call neither allocates an invoice number nor publishes to the broker. -/
def Call.Plain : Call → Prop
  | .addInvoiceNumber _ => False
  | .brokerPublish _ _ => False
  | _ => True

theorem Call.Plain.keepsSettings {c : Call} (hc : c.Plain) : c.KeepsSettings := by
  cases c with
  | addInvoiceNumber => exact hc
  | _ => trivial

theorem reports_plain : Reports Call.Plain where
  utcnow := trivial
  uuid4 := trivial
  putAuditItem _ := trivial
  putEvents _ := trivial

theorem plain_logAudit (orgId actorId action resourceType resourceId : String) (metadata : Json) :
    (logAudit orgId actorId action resourceType resourceId metadata).Calls Call.Plain :=
  reports_plain.calls_logAudit _ _ _ _ _ _

theorem plain_publishEvent (orgId eventType : String) (data : List (String × Json))
    (source : String) : (publishEvent orgId eventType data source).Calls Call.Plain :=
  reports_plain.calls_publishEvent _ _ _ _

theorem plain_getOrgSettings (orgId : String) : (getOrgSettings orgId).Calls Call.Plain :=
  (Calls.perform trivial).bind fun _ => Calls.ofExcept _

theorem plain_uploadFile (orgId serviceType filename : String) (content : Bytes)
    (mimeType uploadedBy : String) :
    (uploadFile orgId serviceType filename content mimeType uploadedBy).Calls Call.Plain := by
  unfold uploadFile
  split
  · trivial
  refine (Calls.perform trivial).bind fun now => ?_
  refine ((Calls.perform trivial).handle fun exc => ?_).bind fun _ => ?_
  · split <;> trivial
  refine (Calls.perform trivial).bind fun _ => (plain_logAudit _ _ _ _ _ _).bind fun _ => ?_
  exact (Calls.perform trivial).bind fun _ => trivial

theorem plain_getSecret (orgId serviceType key : String) :
    (getSecret orgId serviceType key).Calls Call.Plain := by
  refine (Calls.perform trivial).bind fun found => ?_
  cases found with
  | some value => trivial
  | none =>
    refine ((Calls.perform trivial).handle fun exc => ?_).bind fun value => ?_
    · split <;> trivial
    · exact (Calls.perform trivial).bind fun _ => trivial

theorem calls_logAudit (orgId actorId action resourceType resourceId : String) (metadata : Json) :
    (logAudit orgId actorId action resourceType resourceId metadata).Calls Call.KeepsSettings :=
  (plain_logAudit _ _ _ _ _ _).mono fun _ => Call.Plain.keepsSettings

theorem calls_publishEvent (orgId eventType : String) (data : List (String × Json))
    (source : String) : (publishEvent orgId eventType data source).Calls Call.KeepsSettings :=
  (plain_publishEvent _ _ _ _).mono fun _ => Call.Plain.keepsSettings

theorem calls_publishUpdate (orgId channel : String) (payload : List (String × Json)) :
    (publishUpdate orgId channel payload).Calls Call.KeepsSettings :=
  Calls.perform trivial

theorem calls_getOrgSettings (orgId : String) :
    (getOrgSettings orgId).Calls Call.KeepsSettings :=
  (plain_getOrgSettings _).mono fun _ => Call.Plain.keepsSettings

theorem calls_uploadFile (orgId serviceType filename : String) (content : Bytes)
    (mimeType uploadedBy : String) :
    (uploadFile orgId serviceType filename content mimeType uploadedBy).Calls
      Call.KeepsSettings :=
  (plain_uploadFile _ _ _ _ _ _).mono fun _ => Call.Plain.keepsSettings

/-- Reading an org's settings gives what is stored. -/
theorem wp_getOrgSettings (orgId : String) (w : World) :
    steady.wp (getOrgSettings orgId) w fun r _ => ∀ s, r = .ok s →
      OrgSettings.ofItem orgId ((w.settings orgId).getD []) = .ok s := by
  refine wp_bind (wp_perform fun w₁ h₁ x _ => ⟨trivial, ?_⟩)
  show steady.next _ _ ((Call.getSettingsItem orgId).answer x w₁).1 _
  cases hfate : x.fate with
  | lost e | late e =>
    have hreply : ((Call.getSettingsItem orgId).answer x w₁).1 = .error e := by
      rw [Call.answer, hfate]
      rfl
    rw [hreply]
    exact fun s h => by cases h
  | ok =>
    have hreply : ((Call.getSettingsItem orgId).answer x w₁).1 = .ok (w₁.settings orgId) := by
      rw [Call.answer, hfate]
      rfl
    rw [hreply, ← h₁.settings]
    exact wp_ofExcept.mpr fun s h => h

/-- Where `publish_event` returns, the event is on the bus. -/
theorem wp_publishEvent (orgId eventType : String) (data : List (String × Json)) (source : String)
    (w : World) : steady.wp (publishEvent orgId eventType data source) w fun r w' =>
      ∀ id, r = .ok id →
        ⟨source, eventType, .obj (Json.set "org_id" (.str orgId) data)⟩ ∈ w'.events := by
  set entry : Event := ⟨source, eventType, .obj (Json.set "org_id" (.str orgId) data)⟩ with hentry
  refine wp_bind (wp_handle (wp_perform fun w₁ _ x _ => ⟨trivial, ?_⟩))
  show steady.caught _ _ ((Call.putEvents entry).answer x w₁).1
    ((Call.putEvents entry).answer x w₁).2
  cases hr : ((Call.putEvents entry).answer x w₁).1 with
  | error e =>
    show steady.wp _ _ _
    dsimp only
    split
    · exact fun id h => nomatch h
    · exact fun id h => nomatch h
  | ok resp =>
    cases resp with
    | error rejection => exact fun id h => nomatch h
    | ok eventId =>
      intro id _
      rw [Call.answer] at hr ⊢
      cases hrejected : x.rejected with
      | some rejection =>
        rw [hrejected] at hr
        cases hfate : x.fate <;> rw [hfate] at hr <;> cases hr
      | none =>
        rw [hrejected] at hr
        cases hfate : x.fate with
        | ok => exact List.mem_append_right _ (List.mem_singleton.mpr rfl)
        | lost e | late e => rw [hfate] at hr; cases hr

end A2ZCore.Core
