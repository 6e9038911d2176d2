import A2ZCore.Core.Admin
import A2ZCore.Core.Steady
import A2ZCore.Omnichannel.Routing

/-!
# What a write of the settings can break

`set_org_settings` checks the names of the fields and writes their values as they are. Pydantic checks
the values only when the settings are read back, and what a counter or a routing configuration needs is
checked nowhere. A value that does not fit its field is therefore stored, and from then on the settings
of the org cannot be read, its invoice numbers cannot be allocated, or its inbound messages fail.

## Main definitions

* `Healthy` — the settings can be read, counted up, and used for routing
* `Fits`, `Sound` — each value is of its field's kind
* `Unpoisoned` — what a write must leave

## Main results

* `healthy_iff_sound` — what the readers need of the values
* `unpoisoned_iff` — the writes that leave the settings healthy
-/

namespace A2ZCore.Omnichannel

open Interaction Interaction.Proc Interaction.Contract A2ZCore.Core

/-! ### What the readers need -/

/-- The worker can route by these settings: they designate nobody, or a user by name. -/
def Routable (metadata : List (String × Json)) : Prop :=
  designatedUser metadata = .ok none ∨ ∃ userId, designatedUser metadata = .ok (some (.str userId))

/-- The settings can be read, the next invoice number allocated, and messages routed. -/
structure Healthy (orgId : String) (item : List (String × Json)) : Prop where
  read : ∃ s, OrgSettings.ofItem orgId item = .ok s
  counted : ∃ r, addOne item = .ok r
  routed : ∀ s, OrgSettings.ofItem orgId item = .ok s → Routable s.metadata

/-- A routing configuration: an object, in which the designated user of the single-assignee strategy is a
string, if there is one. -/
def IsConfig (value : Json) : Prop :=
  ∃ config, value = .obj config ∧
    (config.lookup "routing_strategy" = some (.str "single_assignee") →
      ∀ user, config.lookup "single_assignee_user_id" = some user → user.truthy = true →
        ∃ userId, user = .str userId)

/-- The value is one of the field's kind. A counter is a whole number to which one can be added. -/
def Fits (field : String) (value : Json) : Prop :=
  if field = "next_invoice_number" then
    (∃ n, integer? value = some n) ∧ ∃ sum, plusOne value = .ok sum
  else if field = "metadata" then ∃ metadata, value = .obj metadata ∧
    ∀ config, metadata.lookup "omnichannel" = some config → IsConfig config
  else ∃ text, value = .str text

/-- Each field that is set has a value of its kind. -/
def Sound (fields : List (String × Json)) : Prop :=
  ∀ field ∈ mutableFields, ∀ value, fields.lookup field = some value → Fits field value

section Fields

variable {item : List (String × Json)} {field : String}

theorem exists_strField_iff (default : String) : (∃ text, strField item field default = .ok text) ↔
    ∀ value, item.lookup field = some value → ∃ text, value = .str text := by
  unfold strField
  cases item.lookup field with
  | none => simp
  | some value => cases value <;> simp

theorem exists_dictField_iff : (∃ fields, dictField item field = .ok fields) ↔
    ∀ value, item.lookup field = some value → ∃ fields, value = .obj fields := by
  unfold dictField
  cases item.lookup field with
  | none => simp
  | some value => cases value <;> simp

/-- The counter has to be a whole number that can be counted up: Pydantic also takes flags and the digits
of a number, and DynamoDB numbers with a fraction, and numbers that are too long with one more. -/
theorem exists_counter_iff : ((∃ n, intField item "next_invoice_number" 1 = .ok n) ∧
      ∃ r, addOne item = .ok r) ↔
    ∀ value, item.lookup "next_invoice_number" = some value →
      (∃ n, integer? value = some n) ∧ ∃ sum, plusOne value = .ok sum := by
  unfold intField addOne
  cases item.lookup "next_invoice_number" with
  | none => simp
  | some value =>
    have hsum : (∃ r, (plusOne value).map (fun sum => (sum, Json.set "next_invoice_number" sum item)) =
        .ok r) ↔ ∃ sum, plusOne value = .ok sum := by
      cases plusOne value with
      | error e => simp [Except.map]
      | ok sum => simp [Except.map]
    simp only [Option.some.injEq, forall_eq', hsum]
    refine and_congr_left fun ⟨sum, hplus⟩ => ?_
    cases value with
    | int n => simp [integer?]
    | float m s =>
      dsimp only
      generalize integer? (.float m s) = read
      cases read with
      | none => simp
      | some n => simp
    | _ => cases hplus

end Fields

/-- Whom a routing configuration designates. -/
theorem designatedUser_obj {metadata config : List (String × Json)}
    (h : (metadata.lookup "omnichannel").getD (.obj []) = .obj config) :
    (config.lookup "routing_strategy" = some (.str "single_assignee") ∧ designatedUser metadata =
        .ok ((config.lookup "single_assignee_user_id").filter Json.truthy)) ∨
      config.lookup "routing_strategy" ≠ some (.str "single_assignee") ∧
        designatedUser metadata = .ok none := by
  unfold designatedUser
  rw [h]
  show _ ∧ (Except.bind (.ok (config.lookup "routing_strategy")) _ = _) ∨
    _ ∧ (Except.bind (.ok (config.lookup "routing_strategy")) _ = _)
  rw [Except.bind]
  split
  · next hstrategy => exact .inl ⟨hstrategy, rfl⟩
  · next hother => exact .inr ⟨hother, rfl⟩

/-- The worker reads the routing configuration of the metadata, where there is one. -/
theorem routable_iff {metadata : List (String × Json)} : Routable metadata ↔
    ∀ config, metadata.lookup "omnichannel" = some config → IsConfig config := by
  have hobj : ∀ config, (metadata.lookup "omnichannel").getD (.obj []) = .obj config →
      (Routable metadata ↔ IsConfig (.obj config)) := by
    intro config h
    have hconfig : IsConfig (.obj config) ↔
        (config.lookup "routing_strategy" = some (.str "single_assignee") →
          ∀ user, config.lookup "single_assignee_user_id" = some user → user.truthy = true →
            ∃ userId, user = .str userId) := by
      refine ⟨fun ⟨config', h, hrest⟩ => ?_, fun hrest => ⟨config, rfl, hrest⟩⟩
      cases h
      exact hrest
    rw [hconfig, Routable]
    rcases designatedUser_obj h with ⟨hstrategy, hdesignated⟩ | ⟨hother, hdesignated⟩
    · rw [hdesignated]
      cases config.lookup "single_assignee_user_id" with
      | none => simp
      | some user =>
        cases htruthy : user.truthy with
        | false => simp [htruthy]
        | true =>
          have hsome : (some user).filter Json.truthy = some user := by simp [htruthy]
          simp [hsome, hstrategy, htruthy]
    · simp [hdesignated, hother]
  cases hlookup : metadata.lookup "omnichannel" with
  | none =>
    rw [hobj [] (by rw [hlookup]; rfl)]
    simp [IsConfig]
  | some value =>
    have hget : (metadata.lookup "omnichannel").getD (.obj []) = value := by rw [hlookup]; rfl
    cases value with
    | obj config =>
      rw [hobj config hget]
      simp
    | _ =>
      have herror : designatedUser metadata =
          .error ⟨.attributeError, "object has no attribute 'get'"⟩ := by
        unfold designatedUser
        rw [hget]
        rfl
      simp [Routable, herror, IsConfig]

section Read

variable {orgId : String} {item : List (String × Json)}

theorem metadata_ofItem {s : OrgSettings} (h : OrgSettings.ofItem orgId item = .ok s) :
    dictField item "metadata" = .ok s.metadata := by
  simp only [OrgSettings.ofItem, bind_eq_ok] at h
  obtain ⟨_, _, _, _, _, _, _, _, _, _, _, _, _, _, _, _, metadata, hmetadata, hs⟩ := h
  cases hs
  exact hmetadata

/-- Pydantic reads the settings where it reads each field. -/
theorem exists_ofItem_iff : (∃ s, OrgSettings.ofItem orgId item = .ok s) ↔
    (∀ field ∈ ["timezone", "currency", "locale", "domain", "invoice_number_prefix", "plan_tier",
        "sender_name"], ∀ value, item.lookup field = some value → ∃ text, value = .str text) ∧
      (∃ n, intField item "next_invoice_number" 1 = .ok n) ∧
        ∃ fields, dictField item "metadata" = .ok fields := by
  simp only [OrgSettings.ofItem, bind_eq_ok]
  constructor
  · rintro ⟨s, timezone, h₁, currency, h₂, locale, h₃, domain, h₄, pfx, h₅, number, h₆, tier, h₇,
      sender, h₈, metadata, h₉, _⟩
    refine ⟨?_, ⟨number, h₆⟩, ⟨metadata, h₉⟩⟩
    simp only [List.forall_mem_cons]
    exact ⟨(exists_strField_iff _).mp ⟨_, h₁⟩, (exists_strField_iff _).mp ⟨_, h₂⟩,
      (exists_strField_iff _).mp ⟨_, h₃⟩, (exists_strField_iff _).mp ⟨_, h₄⟩,
      (exists_strField_iff _).mp ⟨_, h₅⟩, (exists_strField_iff _).mp ⟨_, h₇⟩,
      (exists_strField_iff _).mp ⟨_, h₈⟩, nofun⟩
  · rintro ⟨htexts, ⟨number, hnumber⟩, metadata, hmetadata⟩
    have hread : ∀ field ∈ ["timezone", "currency", "locale", "domain", "invoice_number_prefix",
        "plan_tier", "sender_name"], ∀ default, ∃ text, strField item field default = .ok text :=
      fun field hfield default => (exists_strField_iff default).mpr (htexts field hfield)
    obtain ⟨timezone, h₁⟩ := hread "timezone" (by simp) "UTC"
    obtain ⟨currency, h₂⟩ := hread "currency" (by simp) "USD"
    obtain ⟨locale, h₃⟩ := hread "locale" (by simp) "en_US"
    obtain ⟨domain, h₄⟩ := hread "domain" (by simp) ""
    obtain ⟨pfx, h₅⟩ := hread "invoice_number_prefix" (by simp) "INV-"
    obtain ⟨tier, h₇⟩ := hread "plan_tier" (by simp) "free"
    obtain ⟨sender, h₈⟩ := hread "sender_name" (by simp) ""
    exact ⟨_, timezone, h₁, currency, h₂, locale, h₃, domain, h₄, pfx, h₅, number, hnumber, tier,
      h₇, sender, h₈, metadata, hmetadata, rfl⟩

end Read

theorem fits_text {field : String} {value : Json} (h : field ≠ "next_invoice_number")
    (h' : field ≠ "metadata") : Fits field value ↔ ∃ text, value = .str text := by
  rw [Fits, if_neg h, if_neg h']

/-- **What the readers need**: each field that is set has a value of its kind. -/
theorem healthy_iff_sound (orgId : String) (item : List (String × Json)) :
    Healthy orgId item ↔ Sound item := by
  constructor
  · rintro ⟨hread, hcounted, hrouted⟩ field hfield value hvalue
    obtain ⟨htexts, hnumber, fields, hfields⟩ := exists_ofItem_iff.mp hread
    by_cases hcounter : field = "next_invoice_number"
    · subst hcounter
      exact exists_counter_iff.mp ⟨hnumber, hcounted⟩ value hvalue
    by_cases hmetadata : field = "metadata"
    · subst hmetadata
      obtain ⟨metadata, rfl⟩ := exists_dictField_iff.mp ⟨fields, hfields⟩ value hvalue
      obtain ⟨s, hs⟩ := hread
      have hsame : dictField item "metadata" = .ok metadata := by rw [dictField, hvalue]
      have hkept : s.metadata = metadata :=
        Except.ok.inj ((metadata_ofItem hs).symm.trans hsame)
      exact ⟨metadata, rfl, routable_iff.mp (hkept ▸ hrouted s hs)⟩
    · refine (fits_text hcounter hmetadata).mpr (htexts field ?_ value hvalue)
      simp only [mutableFields, List.mem_cons, hcounter, hmetadata, List.not_mem_nil, or_false,
        false_or] at hfield ⊢
      exact hfield
  · intro h
    have hnumber := exists_counter_iff.mpr (h "next_invoice_number" (by simp [mutableFields]))
    have hmetadata : ∀ value, item.lookup "metadata" = some value → ∃ metadata, value = .obj metadata ∧
        ∀ config, metadata.lookup "omnichannel" = some config → IsConfig config :=
      h "metadata" (by simp [mutableFields])
    refine ⟨exists_ofItem_iff.mpr ⟨fun field hfield value hvalue => ?_, hnumber.1, ?_⟩, hnumber.2,
      fun s hs => ?_⟩
    · have hfits := h field (by simp [mutableFields] at hfield ⊢; tauto) value hvalue
      refine (fits_text ?_ ?_).mp hfits
      · rintro rfl
        simp at hfield
      · rintro rfl
        simp at hfield
    · refine exists_dictField_iff.mpr fun value hvalue => ?_
      obtain ⟨metadata, rfl, _⟩ := hmetadata value hvalue
      exact ⟨metadata, rfl⟩
    · have hread := metadata_ofItem hs
      rw [dictField] at hread
      cases hlookup : item.lookup "metadata" with
      | none =>
        rw [hlookup] at hread
        rw [← Except.ok.inj hread]
        exact routable_iff.mpr nofun
      | some value =>
        obtain ⟨metadata, rfl, hconfig⟩ := hmetadata value hlookup
        rw [hlookup] at hread
        rw [← Except.ok.inj hread]
        exact routable_iff.mpr hconfig

/-! ### What a write does -/

/-- The changes are written: their names are known, and boto3 and DynamoDB take their values. -/
structure Accepted (changes : List (String × Json)) : Prop where
  known : unknownFields changes = []
  nonempty : changes ≠ []
  storable : ∀ change ∈ changes, storable change.2 = true
  ranged : rangedFields changes = true

/-- The settings item after the changes. -/
def written (changes item : List (String × Json)) (now : DateTime) : List (String × Json) :=
  setAttributes (("updated_at", .str (DateTime.isoformat now)) :: changes) item

/-- The settings after a write have values of their fields' kinds, where both the changes and the
settings before have. -/
theorem sound_written_iff {changes item : List (String × Json)} (hitem : Sound item) (now : DateTime) :
    Sound (written changes item now) ↔ Sound changes := by
  have hlookup : ∀ field ∈ mutableFields, (written changes item now).lookup field =
      (changes.lookup field).or (item.lookup field) := by
    intro field hfield
    have hne : (field == "updated_at") = false := by
      rw [beq_eq_false_iff_ne]
      rintro rfl
      simp [mutableFields] at hfield
    rw [written, lookup_setAttributes, List.lookup_cons, hne]
  constructor
  · intro h field hfield value hvalue
    refine h field hfield value ?_
    rw [hlookup field hfield, hvalue]
    rfl
  · intro h field hfield value hvalue
    rw [hlookup field hfield] at hvalue
    rcases Option.or_eq_some_iff.mp hvalue with hchange | ⟨_, hold⟩
    · exact h field hfield value hchange
    · exact hitem field hfield value hold

/-- An error that AWS answers with. -/
def IsFault (e : PyErr) : Prop := (∃ code, e.cls = .clientError code) ∨ e.cls = .botoCoreError

/-- An error that says that a value, or a name, was not accepted. -/
def Rejects (changes : List (String × Json)) (e : PyErr) : Prop :=
  e.cls = .validationError ∨ e.cls = .exception "Inexact" ∨
    e.cls = .settingsError ∧ ¬Accepted changes

/-- What a write of the settings must leave: settings that every reader takes, and where it rejects a
value the settings as they were. -/
structure Unpoisoned (orgId : String) (changes : List (String × Json))
    (r : Option (Except PyErr OrgSettings)) (w w' : Core.World) : Prop where
  healthy : Healthy orgId ((w'.settings orgId).getD [])
  unchanged : ∀ e, r = some (.error e) → Rejects changes e → w'.settings = w.settings

/-- The setting of a write: the calls fail as AWS does, or where `smooth` holds not at all. -/
def writing (smooth : Prop) (J : Core.World → Prop) :
    Contract AdminCall AdminCall.Resp PyErr Core.Choice Core.World where
  answer := AdminCall.answer
  rely w w' := w'.settings = w.settings
  admits _ x _ := (∀ e, x.fate = .lost e ∨ x.fate = .late e → IsFault e) ∧ (smooth → x.fate = .ok)
  guar _ _ w w' := J w → J w'
  rely_refl _ := rfl
  rely_trans h h' := h'.trans h

section Write

variable {smooth : Prop} {J : Core.World → Prop}

/-- Core's call, that neither allocates a number nor replies with an error of its own. -/
def Plain : AdminCall → Prop
  | .core .utcnow | .core .uuid4 | .core (.putAuditItem _) | .core (.putEvents _)
  | .core (.getSettingsItem _) => True
  | _ => False

theorem settle_fault {α : Type} {x : Core.Choice} {a : α} {w w' : Core.World} {e : PyErr}
    (hx : ∀ e, x.fate = .lost e ∨ x.fate = .late e → IsFault e)
    (h : (x.fate.settle (.ok (a, w')) w).1 = .error e) : IsFault e := by
  cases hfate : x.fate with
  | ok => rw [hfate] at h; cases h
  | lost e' => rw [hfate] at h; cases h; exact hx e (.inl hfate)
  | late e' => rw [hfate] at h; cases h; exact hx e (.inr hfate)

theorem fault_of_plain {c : AdminCall} (hc : Plain c) {x : Core.Choice} {w : Core.World} {e : PyErr}
    (hx : ∀ e, x.fate = .lost e ∨ x.fate = .late e → IsFault e)
    (h : (c.answer x w).1 = .error e) : IsFault e := by
  match c, hc with
  | .core .utcnow, _ | .core .uuid4, _ => cases h
  | .core (.putAuditItem event), _ => exact settle_fault hx h
  | .core (.getSettingsItem orgId), _ => exact settle_fault hx h
  | .core (.putEvents entry), _ =>
    simp only [AdminCall.answer, Core.Call.answer] at h
    split at h <;> exact settle_fault hx h

theorem settings_of_plain {c : AdminCall} (hc : Plain c) (x : Core.Choice) (w : Core.World) :
    (c.answer x w).2.settings = w.settings := by
  match c, hc with
  | .core .utcnow, _ | .core .uuid4, _ => rfl
  | .core (.putAuditItem event), _ =>
    exact (steady_answer (c := .putAuditItem event) trivial x w).settings
  | .core (.putEvents entry), _ =>
    exact (steady_answer (c := .putEvents entry) trivial x w).settings
  | .core (.getSettingsItem orgId), _ =>
    exact (steady_answer (c := .getSettingsItem orgId) trivial x w).settings

/-- A part of a write that leaves the settings alone. -/
theorem writing_plain {α β : Type} (hJ : ∀ w w', w'.settings = w.settings → J w → J w')
    {p : Core.Prog α} {f : α → AdminProg β} {w : Core.World} {Q : Except PyErr β → Core.World → Prop}
    {E : PyErr → Prop} (hE : ∀ e, IsFault e → E e)
    (hp : p.Calls fun c => Plain (.core c)) (he : p.Raises E)
    (hok : ∀ a w', w'.settings = w.settings → (writing smooth J).wp (f a) w' Q)
    (herror : ∀ e w', w'.settings = w.settings → E e → Q (.error e) w') :
    (writing smooth J).wp ((ofCore p).bind f) w Q := by
  refine wp_bind (wp_of_raises (K := writing smooth J) (P := Plain) (E := E) (fun c hc x w' _ => ?_)
    (fun c hc x w' hx e he => hE e (fault_of_plain hc hx.1 he)) (Calls.embed hp) (Raises.embed he)
    (fun a w' h => hok a w' h) fun e w' h he => herror e w' h he)
  have hsettings := settings_of_plain hc x w'
  exact ⟨fun h => hJ w' _ hsettings h, hsettings⟩

theorem reports_writing : Reports fun c => Plain (.core c) where
  utcnow := trivial
  uuid4 := trivial
  putAuditItem _ := trivial
  putEvents _ := trivial

/-- The errors of the reports. -/
def IsReport (e : PyErr) : Prop := IsFault e ∨ e.cls = .auditError ∨ e.cls = .eventError

theorem raises_logAudit (orgId actorId action resourceType resourceId : String) (metadata : Json) :
    (logAudit orgId actorId action resourceType resourceId metadata).Raises IsReport := by
  refine Raises.bind (Raises.perform _) fun now => Raises.bind (Raises.perform _) fun id => ?_
  exact Raises.bind (Raises.handle (Raises.perform _) fun exc _ => .inr (.inl rfl)) fun _ => trivial

theorem raises_publishEvent (orgId eventType : String) (data : List (String × Json)) (source : String) :
    (publishEvent orgId eventType data source).Raises IsReport := by
  refine Raises.bind (Raises.handle (Raises.perform _) fun exc hexc => ?_) fun resp => ?_
  · split
    · exact .inr (.inr rfl)
    · exact hexc
  · cases resp with
    | error rejection => exact .inr (.inr rfl)
    | ok eventId => trivial

/-- A report's error rejects nothing. -/
theorem not_rejects_of_report {changes : List (String × Json)} (hchanges : Accepted changes) {e : PyErr}
    (he : IsReport e) : ¬Rejects changes e := by
  rintro (hcls | hcls | ⟨_, hnot⟩)
  · rcases he with (⟨code, h⟩ | h) | h | h <;> rw [hcls] at h <;> cases h
  · rcases he with (⟨code, h⟩ | h) | h | h <;> rw [hcls] at h <;> cases h
  · exact hnot hchanges

/-- Reading the settings back. -/
theorem writing_getOrgSettings (hJ : ∀ w w', w'.settings = w.settings → J w → J w') {orgId : String}
    (item : List (String × Json)) {w : Core.World} (hitem : w.settings orgId = some item)
    {Q : Except PyErr OrgSettings → Core.World → Prop}
    (h : ∀ r w', w'.settings = w.settings →
      (∀ e, r = .error e → IsFault e ∨ OrgSettings.ofItem orgId item = .error e) → Q r w') :
    (writing smooth J).wp (ofCore (getOrgSettings orgId)) w Q := by
  have hplain : Plain (.core (.getSettingsItem orgId)) := trivial
  have hread : ofCore (getOrgSettings orgId) = (runAdmin (.core (.getSettingsItem orgId))).bind
      fun found => Proc.ofExcept (OrgSettings.ofItem orgId (Option.getD found [])) := by
    refine congrArg (Proc.call _) (funext fun r => ?_)
    cases r with
    | error e => rfl
    | ok found =>
      show ofCore (Proc.ofExcept _) = Proc.ofExcept _
      cases OrgSettings.ofItem orgId (Option.getD found []) <;> rfl
  rw [hread]
  refine wp_bind (wp_perform fun w₁ h₁ x hx => ?_)
  have hsame := settings_of_plain hplain x w₁
  refine ⟨fun h => hJ _ _ hsame h, ?_⟩
  have hafter := hsame.trans h₁
  have hreply : (AdminCall.core (.getSettingsItem orgId)).answer x w₁ =
      x.fate.settle (.ok (some item, w₁)) w₁ := by
    rw [← hitem, ← (show w₁.settings = w.settings from h₁)]
    rfl
  show (writing smooth J).next _ Q (AdminCall.answer _ x w₁).1 (AdminCall.answer _ x w₁).2
  generalize (AdminCall.answer (.core (.getSettingsItem orgId)) x w₁).2 = w₂ at hafter ⊢
  rw [hreply]
  cases hfate : x.fate with
  | lost e =>
    exact h _ w₂ hafter fun e' he' => .inl (by cases he'; exact hx.1 e (.inl hfate))
  | late e =>
    exact h _ w₂ hafter fun e' he' => .inl (by cases he'; exact hx.1 e (.inr hfate))
  | ok => exact wp_ofExcept.mpr (h _ w₂ hafter fun e he => .inr he)

/-- What follows the update of the settings leaves them, and fails as the reports do or where the stored
item cannot be read. -/
theorem writing_reported (hJ : ∀ w w', w'.settings = w.settings → J w → J w')
    (orgId changedBy : String) (metadata : Json) (data : List (String × Json))
    (item : List (String × Json)) {v : Core.World} (hstored : v.settings orgId = some item)
    {Q : Except PyErr OrgSettings → Core.World → Prop}
    (h : ∀ r v', v'.settings = v.settings →
      (∀ e, r = .error e → IsReport e ∨ OrgSettings.ofItem orgId item = .error e) → Q r v') :
    (writing smooth J).wp ((ofCore (logAudit orgId changedBy "settings.changed" "settings" orgId
      metadata)).bind fun _ => (ofCore (publishEvent orgId "settings.changed" data "a2z.core")).bind
        fun _ => ofCore (getOrgSettings orgId)) v Q := by
  have herror : ∀ e v', v'.settings = v.settings → IsReport e → Q (.error e) v' := by
    intro e v' hv' he
    exact h _ v' hv' fun e' he' => .inl (by cases he'; exact he)
  refine writing_plain hJ (E := IsReport) (fun _ h => .inl h) (reports_writing.calls_logAudit _ _ _ _ _ _)
    (raises_logAudit _ _ _ _ _ _) (fun _ v₁ h₁ => ?_) herror
  refine writing_plain hJ (E := IsReport) (fun _ h => .inl h) (reports_writing.calls_publishEvent _ _ _ _)
    (raises_publishEvent _ _ _ _) (fun _ v₂ h₂ => ?_) fun e v' hv' => herror e v' (hv'.trans h₁)
  have hitem : v₂.settings orgId = some item := by
    rw [h₂, h₁]
    exact hstored
  exact writing_getOrgSettings hJ item hitem fun r v₃ h₃ hread =>
    h r v₃ (h₃.trans (h₂.trans h₁)) fun e he => (hread e he).imp_left .inl

/-- The outcome of a write. -/
structure WriteOutcome (smooth : Prop) (orgId : String) (changes : List (String × Json))
    (w : Core.World) (r : Except PyErr OrgSettings) (w' : Core.World) : Prop where
  written : smooth → Accepted changes →
    ∃ now, w'.settings orgId = some (written changes ((w.settings orgId).getD []) now)
  unchanged : ∀ e, r = .error e → Rejects changes e →
    (Accepted changes →
      ∀ now, Healthy orgId (Omnichannel.written changes ((w.settings orgId).getD []) now)) →
        w'.settings = w.settings

theorem writing_setOrgSettings (orgId changedBy : String) (changes : List (String × Json))
    {w : Core.World} (hJ : ∀ w w', w'.settings = w.settings → J w → J w')
    (hwrite : Accepted changes → ∀ now w₁ w₂, w₁.settings = w.settings → w₂.settings =
      Function.update w.settings orgId (some (written changes ((w.settings orgId).getD []) now)) →
        J w₁ → J w₂) :
    (writing smooth J).wp (setOrgSettings orgId changes changedBy) w (WriteOutcome smooth orgId changes w) := by
  have hbefore : ∀ e w', w'.settings = w.settings → (¬Accepted changes ∨ ¬smooth) →
      WriteOutcome smooth orgId changes w (.error e) w' := by
    intro e w' h hnot
    refine ⟨fun hsmooth hchanges => ?_, fun _ _ _ _ => h⟩
    rcases hnot with hnot | hnot
    · exact absurd hchanges hnot
    · exact absurd hsmooth hnot
  unfold setOrgSettings
  by_cases hknown : unknownFields changes ≠ []
  · rw [if_pos hknown]
    exact hbefore _ w rfl (.inl fun h => hknown h.known)
  rw [if_neg hknown]
  by_cases hempty : changes.isEmpty = true
  · rw [if_pos hempty]
    exact hbefore _ w rfl (.inl fun h => h.nonempty (List.isEmpty_iff.mp hempty))
  rw [if_neg hempty]
  refine fun w₁ (h₁ : w₁.settings = w.settings) x₁ _ => ⟨id, ?_⟩
  generalize hnow : x₁.now = now
  show (writing smooth J).wp (Proc.bind (Proc.ofExcept _) _) w₁ _
  rcases mapM_toValue changes with ⟨hvalues, hstorable⟩ | ⟨⟨bad, hbad, hfalse⟩, hvalues⟩
  case inr =>
    rw [hvalues]
    refine hbefore _ w₁ h₁ (.inl fun h => ?_)
    rw [h.storable bad hbad] at hfalse
    cases hfalse
  rw [hvalues, Proc.ofExcept_ok]
  subst hnow
  show (writing smooth J).wp (Proc.bind (wrapClientError _ _ _) _) w₁ _
  rw [wrapClientError_eq]
  set item := written changes ((w.settings orgId).getD []) x₁.now with hitem
  refine wp_bind (wp_handle (wp_perform fun w₂ h₂ x hx => ?_))
  have hsettings : w₂.settings = w.settings := Eq.trans h₂ h₁
  set v := w₂.withSettings orgId item with hv
  have hanswer : (AdminCall.updateSettingsItem orgId
      (("updated_at", .str (DateTime.isoformat x₁.now)) :: changes)).answer x w₂ =
        x.fate.settle (if rangedFields changes then .ok ((), v) else .error numberOverflow) w₂ := by
    rw [AdminCall.answer, hsettings]
    rfl
  cases hranged : rangedFields changes with
  | false =>
    -- DynamoDB refuses a number
    show (J w₂ → J (AdminCall.answer _ x w₂).2) ∧ (writing smooth J).caught _ _
      (AdminCall.answer _ x w₂).1 (AdminCall.answer _ x w₂).2
    rw [hanswer, hranged, if_neg Bool.false_ne_true, Fate.settle_error]
    refine ⟨id, hbefore _ w₂ hsettings (.inl fun h => ?_)⟩
    rw [h.ranged] at hranged
    cases hranged
  | true =>
  rw [hranged, if_pos rfl] at hanswer
  have hchanges : Accepted changes :=
    ⟨not_not.mp hknown, fun h => hempty (List.isEmpty_iff.mpr h), hstorable, hranged⟩
  have hupdated : v.settings = Function.update w.settings orgId (some item) := by
    rw [hv, World.withSettings, hsettings]
  have hstored : v.settings orgId = some item := by rw [hupdated, Function.update_self]
  have hkept : J w₂ → J v := hwrite hchanges x₁.now w₂ v hsettings hupdated
  show (J w₂ → J (AdminCall.answer _ x w₂).2) ∧ (writing smooth J).caught _ _
    (AdminCall.answer _ x w₂).1 (AdminCall.answer _ x w₂).2
  rw [hanswer]
  cases hfate : x.fate with
  | lost e =>
    refine ⟨id, ?_⟩
    have hnot : ¬Accepted changes ∨ ¬smooth := .inr fun h => by
      have hok := hx.2 h
      rw [hfate] at hok
      cases hok
    exact hbefore _ w₂ hsettings hnot
  | late e =>
    refine ⟨hkept, fun _ _ => ⟨x₁.now, hstored⟩, fun e' he' hrejects _ => ?_⟩
    obtain rfl := Except.error.inj he'
    rcases wrapped_cases .settingsError "Failed to update settings: " e with hcls | hsame
    · rcases hrejects with h | h | ⟨_, hnot⟩
      · rw [hcls] at h
        cases h
      · rw [hcls] at h
        cases h
      · exact absurd hchanges hnot
    · rw [hsame] at hrejects
      exact absurd hrejects (not_rejects_of_report hchanges (.inl (hx.1 e (.inr hfate))))
  | ok =>
    refine ⟨hkept, writing_reported hJ orgId changedBy _ _ item hstored fun r v' hv' herror => ?_⟩
    -- whatever else happens, the settings are the new ones
    refine ⟨fun _ _ => ⟨x₁.now, by rw [hv', hstored]⟩, fun e he hrejects hhealthy => ?_⟩
    rcases herror e he with hreport | hunread
    · exact absurd hrejects (not_rejects_of_report hchanges hreport)
    · obtain ⟨s, hs⟩ := (hhealthy hchanges x₁.now).read
      rw [← hitem, hunread] at hs
      cases hs

end Write

/-! ### Writes of the settings -/

/-- The environment fails as AWS does. -/
def Faulty (o : Oracle Core.Choice) : Prop :=
  ∀ n x, o n = some x → ∀ e, x.fate = .lost e ∨ x.fate = .late e → IsFault e

/-- Everything goes through. -/
def smoothly : Oracle Core.Choice := fun _ => some (.calm "token")

theorem faulty_smoothly : Faulty smoothly := by
  intro n x hx e he
  cases hx
  rcases he with he | he <;> cases he

/-- **Writes of the settings** leave every reader of the settings working exactly where the settings were
sound before, and the changes, if they are written at all, have values of their fields' kinds. -/
theorem unpoisoned_iff (orgId changedBy : String) (changes : List (String × Json)) (w : Core.World) :
    (∀ o, Faulty o → ∀ r w', exec AdminCall.answer (setOrgSettings orgId changes changedBy) o w =
        (r, w') → Unpoisoned orgId changes r w w') ↔
      Sound ((w.settings orgId).getD []) ∧ (Accepted changes → Sound changes) := by
  constructor
  · intro h
    have hbefore : Sound ((w.settings orgId).getD []) := by
      have hstopped := (h (fun _ => none) nofun _ _ rfl).healthy
      rw [exec_none] at hstopped
      exact (healthy_iff_sound _ _).mp hstopped
    refine ⟨hbefore, fun hchanges => ?_⟩
    obtain ⟨r, w', hexec⟩ : ∃ r w', exec AdminCall.answer (setOrgSettings orgId changes changedBy)
        smoothly w = (some r, w') := exists_exec_eq_some _ (fun _ => rfl) w
    have houtcome := exec_post (K := writing True fun _ => True)
      (writing_setOrgSettings orgId changedBy changes (fun _ _ _ h => h) fun _ _ _ _ _ _ h => h)
      (along_of_forall _ (fun n x hx _ _ => ⟨faulty_smoothly n x hx, fun _ => by cases hx; rfl⟩) w) hexec
    obtain ⟨now, hnow⟩ := houtcome.written trivial hchanges
    have hafter := (h _ faulty_smoothly _ _ hexec).healthy
    rw [hnow] at hafter
    exact (sound_written_iff hbefore now).mp ((healthy_iff_sound _ _).mp hafter)
  · rintro ⟨hbefore, hfits⟩ o ho r w' hexec
    have hwritten : Accepted changes → ∀ now,
        Healthy orgId (written changes ((w.settings orgId).getD []) now) := fun hchanges now =>
      (healthy_iff_sound _ _).mpr ((sound_written_iff hbefore now).mpr (hfits hchanges))
    set J : Core.World → Prop := fun v => v.settings orgId = w.settings orgId ∨ Accepted changes ∧
      ∃ now, v.settings orgId = some (written changes ((w.settings orgId).getD []) now) with hJ
    have hwp : (writing False J).wp (setOrgSettings orgId changes changedBy) w
        (WriteOutcome False orgId changes w) := by
      refine writing_setOrgSettings orgId changedBy changes (fun v v' h hv => ?_)
        fun hchanges now v v' _ h' _ => .inr ⟨hchanges, now, by rw [h', Function.update_self]⟩
      simp only [hJ, h] at hv ⊢
      exact hv
    have halong : Along AdminCall.answer (writing False J).admits
        (setOrgSettings orgId changes changedBy) o w :=
      along_of_forall _ (fun n x hx _ _ => ⟨ho n x hx, False.elim⟩) w
    have hkept := exec_invariant (J := J) (fun _ _ _ _ h => h) hwp halong (.inl rfl)
    rw [show (writing False J).answer = AdminCall.answer from rfl, hexec] at hkept
    refine ⟨?_, fun e he hrejects => ?_⟩
    · rcases hkept with hsame | ⟨hchanges, now, hnow⟩
      · rw [hsame]
        exact (healthy_iff_sound _ _).mpr hbefore
      · rw [hnow]
        exact hwritten hchanges now
    · subst he
      exact (exec_post hwp halong hexec).unchanged e rfl hrejects hwritten

/-- A deployment in which one org has changed its time zone before. -/
def berlin : Core.World :=
  Core.World.initial.withSettings "org" [("timezone", .str "Europe/Berlin")]

/-- A write of a time zone that is null is rejected, and stays. -/
theorem not_unpoisoned : ¬∀ (orgId changedBy : String) (changes : List (String × Json)) (w : Core.World),
    (∃ s, OrgSettings.ofItem orgId ((w.settings orgId).getD []) = .ok s) → ∀ o, Faulty o → ∀ r w',
      exec AdminCall.answer (setOrgSettings orgId changes changedBy) o w = (r, w') →
        Unpoisoned orgId changes r w w' := by
  intro h
  have hrun := h "org" "ada" [("timezone", .null)] berlin ⟨_, rfl⟩ smoothly faulty_smoothly
    (exec AdminCall.answer (setOrgSettings "org" [("timezone", .null)] "ada") smoothly berlin).1
    (exec AdminCall.answer (setOrgSettings "org" [("timezone", .null)] "ada") smoothly berlin).2 rfl
  have hunread : (OrgSettings.ofItem "org" (((exec AdminCall.answer (setOrgSettings "org"
      [("timezone", .null)] "ada") smoothly berlin).2.settings "org").getD [])).toOption.isSome =
        false := by decide +kernel
  obtain ⟨s, hs⟩ := hrun.healthy.read
  rw [hs] at hunread
  cases hunread

end A2ZCore.Omnichannel
