import A2ZCore.Core.InvoiceCounter

/-!
# The invoice number that the settings report

`get_org_settings` reads `next_invoice_number` as the number that comes next, with 1 as its default.
`get_next_invoice_number` adds one to the same attribute and gives out the sum, so that the
attribute holds the number that came last. The two agree as long as there is no attribute; and they
agree where the attribute is a fraction so large that one more makes no difference.

## Main definitions

* `sideBySide` — calls of the two functions for any orgs
* `ReportsNext` — the number that is reported is the one given out next
* `Absorbs` — a fraction to which one can be added in vain
* `Unset` — the attribute has not been written, or the settings cannot be read, or one is added in vain

## Main results

* `reportsNext_of_run` — when the two agree, in every state that a run ends in
-/

namespace A2ZCore.Core

open Interaction Interaction.Proc

/-! ### Reading and giving out -/

variable {orgId : String} {w : World}

/-- The org's settings, as they are stored. -/
def storedItem (orgId : String) (w : World) : List (String × Json) := (w.settings orgId).getD []

/-- Where the settings can be read, the next number that is given out is the one they report. -/
def ReportsNext (orgId : String) (w : World) : Prop :=
  ∀ s w₁, Yields Call.answer (getOrgSettings orgId) w s w₁ → ∀ x : Choice, x.fate = .ok → ∀ pfx,
    (exec Call.answer (getNextInvoiceNumber orgId pfx) (fun _ => some x) w₁).1 =
      some (.ok (pfx ++ toString s.nextInvoiceNumber))

/-- A fraction so large that it and the number after it are read as the same whole number. -/
def Absorbs : Json → Prop
  | .float m s => m % 10 ^ s ≠ 0 ∧ (isExact (m + 10 ^ s) && inRange (m + 10 ^ s) s) = true ∧
      integer? (.float m s) = some (toInt (.float (m + 10 ^ s) s))
  | _ => False

/-- The attribute has not been written, or the settings cannot be read, or the attribute is a fraction
that is too large to count. -/
def Unset (orgId : String) (w : World) : Prop :=
  counter orgId w = none ∨ (∃ e, OrgSettings.ofItem orgId (storedItem orgId w) = .error e) ∨
    ∃ value, counter orgId w = some value ∧ Absorbs value

/-- Reading the settings validates the item, and changes nothing. -/
theorem yields_getOrgSettings_iff {s : OrgSettings} {w₁ : World} :
    Yields Call.answer (getOrgSettings orgId) w s w₁ ↔
      OrgSettings.ofItem orgId (storedItem orgId w) = .ok s ∧ w₁ = w := by
  constructor
  · intro h
    obtain ⟨item, w₂, hget, h⟩ := Yields.bind_inv h
    obtain ⟨x, hx⟩ := Yields.perform_inv hget
    rw [Call.answer] at hx
    cases hfate : x.fate with
    | lost e | late e => rw [hfate] at hx; cases hx
    | ok =>
      rw [hfate] at hx
      cases hx
      replace h : Yields Call.answer
        (Proc.ofExcept (OrgSettings.ofItem orgId (storedItem orgId w))) w s w₁ := h
      cases hread : OrgSettings.ofItem orgId (storedItem orgId w) with
      | error e =>
        rw [hread] at h
        obtain ⟨o, ho⟩ := h
        cases ho
      | ok s' =>
        rw [hread] at h
        obtain ⟨rfl, rfl⟩ := Yields.ret_inv h
        exact ⟨rfl, rfl⟩
  · rintro ⟨hs, rfl⟩
    have hget : (Call.getSettingsItem orgId).answer (.calm "") w₁ =
        (.ok (w₁.settings orgId), w₁) := rfl
    refine (Yields.perform _ hget).bind ?_
    show Yields _ (Proc.ofExcept (OrgSettings.ofItem orgId (storedItem orgId w₁))) w₁ s w₁
    rw [hs]
    exact Yields.ret s w₁

/-- The settings that are read have the number that the attribute is read as. -/
theorem intField_of_ofItem {item : List (String × Json)} {s : OrgSettings}
    (h : OrgSettings.ofItem orgId item = .ok s) :
    intField item "next_invoice_number" 1 = .ok s.nextInvoiceNumber := by
  simp only [OrgSettings.ofItem, bind_eq_ok] at h
  obtain ⟨_, _, _, _, _, _, _, _, _, _, number, hnumber, _, _, _, _, _, _, hs⟩ := h
  cases hs
  exact hnumber

/-- What is given out when the call goes through. -/
theorem exec_getNextInvoiceNumber {x : Choice} (hx : x.fate = .ok) (pfx : String) :
    (exec Call.answer (getNextInvoiceNumber orgId pfx) (fun _ => some x) w).1 =
      some (match addOne (storedItem orgId w) with
        | .ok r => .ok (pfx ++ toString (toInt r.1))
        | .error e => .error ⟨.settingsError, "Failed to allocate invoice number: " ++ e.text⟩) := by
  have hreply : ((Call.addInvoiceNumber orgId).answer x w).1 =
      (addOne (storedItem orgId w)).map Prod.fst := by
    rw [Call.answer, hx]
    show (Core.Fate.settle .ok ((addOne (storedItem orgId w)).map _) w).1 = _
    cases addOne (storedItem orgId w) <;> rfl
  rw [getNextInvoiceNumber, run, perform, tryCatch_eq, Proc.handle, bind_eq, Proc.bind, exec]
  dsimp only
  rw [hreply]
  cases hadd : addOne (storedItem orgId w) with
  | ok r => rfl
  | error e =>
    obtain ⟨cls, text⟩ := e
    obtain ⟨code, rfl⟩ : ∃ code, cls = .clientError code := by
      unfold addOne at hadd
      split at hadd
      · cases hadd
      · next value _ =>
        cases hplus : plusOne value with
        | ok sum => rw [hplus] at hadd; cases hadd
        | error e' =>
          rw [hplus] at hadd
          cases hadd
          exact plusOne_error hplus
    rfl

/-- The number that is given out after an attribute is not the one it is read as, but where one is added
in vain. -/
theorem toInt_eq_intField_iff {item : List (String × Json)} {value sum : Json} {k : ℤ}
    (hvalue : item.lookup "next_invoice_number" = some value)
    (hread : intField item "next_invoice_number" 1 = .ok k) (hplus : plusOne value = .ok sum) :
    toInt sum = k ↔ Absorbs value := by
  unfold intField at hread
  rw [hvalue] at hread
  cases value with
  | int n =>
    cases hread
    rw [(toInt_plusOne id hplus).1]
    exact ⟨fun h => absurd h (lt_add_one _).ne', False.elim⟩
  | float m s =>
    dsimp only at hread
    have hk : integer? (.float m s) = some k := by
      cases hint : integer? (.float m s) with
      | none => rw [hint] at hread; cases hread
      | some n => rw [hint] at hread; cases hread; rfl
    by_cases hwhole : m % 10 ^ s = 0
    · have hnot : ¬IsFraction (.float m s) := not_not.mpr hwhole
      have hsame := Option.some.inj (hk.symm.trans (integer?_eq_toInt hnot hplus))
      rw [(toInt_plusOne hnot hplus).1, hsame]
      exact ⟨fun h => absurd h (lt_add_one _).ne', fun h => absurd hwhole h.1⟩
    · rw [plusOne] at hplus
      split at hplus
      · next hheld =>
        cases hplus
        rw [Absorbs, hk, Option.some_inj]
        exact ⟨fun h => ⟨hwhole, hheld, h.symm⟩, fun h => h.2.2.symm⟩
      · cases hplus
  | null | bool | str | arr | obj => cases hplus

/-- One is added to a fraction that it is added to in vain. -/
theorem plusOne_of_absorbs {value : Json} (h : Absorbs value) : ∃ sum, plusOne value = .ok sum := by
  cases value with
  | float m s => exact ⟨_, if_pos h.2.1⟩
  | _ => exact h.elim

/-- The settings report the number that comes next only by default, and where one is added in vain. -/
theorem reportsNext_iff : ReportsNext orgId w ↔ Unset orgId w := by
  constructor
  · intro h
    by_contra hset
    simp only [Unset, not_or] at hset
    obtain ⟨hcounter, hread, habsorbs⟩ := hset
    cases hs : OrgSettings.ofItem orgId (storedItem orgId w) with
    | error e => exact hread ⟨e, hs⟩
    | ok s =>
      obtain ⟨value, hvalue⟩ := Option.ne_none_iff_exists'.mp hcounter
      have hlookup : (storedItem orgId w).lookup "next_invoice_number" = some value := hvalue
      have hnext := h s w (yields_getOrgSettings_iff.mpr ⟨hs, rfl⟩) (.calm "") rfl ""
      rw [exec_getNextInvoiceNumber rfl, Option.some_inj, addOne, hlookup] at hnext
      cases hplus : plusOne value with
      | error e => simp only [hplus] at hnext; cases hnext
      | ok sum =>
        simp only [hplus] at hnext
        refine habsorbs ⟨value, hvalue,
          (toInt_eq_intField_iff hlookup (intField_of_ofItem hs) hplus).mp ?_⟩
        exact toString_injective ((String.append_right_inj "").mp (Except.ok.inj hnext))
  · rintro hunset s w₁ hyields x hx pfx
    obtain ⟨hs, rfl⟩ := yields_getOrgSettings_iff.mp hyields
    have hread := intField_of_ofItem hs
    rcases hunset with hnone | ⟨e, he⟩ | ⟨value, hvalue, habsorbs⟩
    · replace hnone : (storedItem orgId w₁).lookup "next_invoice_number" = none := hnone
      unfold intField at hread
      rw [hnone] at hread
      rw [exec_getNextInvoiceNumber hx, ← Except.ok.inj hread, addOne, hnone]
      rfl
    · rw [he] at hs
      cases hs
    · have hlookup : (storedItem orgId w₁).lookup "next_invoice_number" = some value := hvalue
      obtain ⟨sum, hplus⟩ := plusOne_of_absorbs habsorbs
      rw [exec_getNextInvoiceNumber hx, ← (toInt_eq_intField_iff hlookup hread hplus).mpr habsorbs, addOne,
        hlookup]
      simp only [hplus]
      rfl

/-! ### Runs -/

/-- Calls of the two functions, each for some org. -/
def sideBySide (tasks : List (String × NumberTask)) (w : World) :
    Pool AdminCall AdminCall.Resp PyErr (Option String) World :=
  ⟨tasks.map fun task => task.2.program task.1, w⟩

/-- The call does not write the org's `next_invoice_number`. -/
def Unallocated (orgId : String) (c : AdminCall) (x : Choice) (_ : World) : Prop :=
  match c with
  | .core (.addInvoiceNumber org) => org = orgId → ∃ e, x.fate = .lost e
  | .updateSettingsItem org changes =>
    org = orgId → (∃ e, x.fate = .lost e) ∨ changes.lookup "next_invoice_number" = none
  | _ => True

theorem counter_withSettings_of_ne {org : String} (h : org ≠ orgId)
    (item : List (String × Json)) : counter orgId (w.withSettings org item) = counter orgId w := by
  simp only [counter, World.withSettings, Function.update_of_ne h.symm]

/-- A number is given out for an org, or its settings are left alone. -/
theorem counter_addInvoiceNumber {org : String} {x : Choice}
    (hx : org = orgId → ∃ e, x.fate = .lost e) :
    counter orgId ((Call.addInvoiceNumber org).answer x w).2 = counter orgId w := by
  by_cases horg : org = orgId
  · obtain ⟨e, hlost⟩ := hx horg
    have hsame : ((Call.addInvoiceNumber org).answer x w).2 = w := by
      rw [Call.answer, hlost]
      rfl
    rw [hsame]
  · rcases addInvoiceNumber_cases org x w with ⟨e, he⟩ | ⟨value, item, _, hok | ⟨e, he⟩⟩
    · rw [he]
    · rw [hok]
      exact counter_withSettings_of_ne horg item
    · rw [he]
      exact counter_withSettings_of_ne horg item

/-- A call that does not write the attribute leaves it as it is. -/
theorem counter_answer {c : AdminCall} {x : Choice} (hx : Unallocated orgId c x w) :
    counter orgId (c.answer x w).2 = counter orgId w := by
  cases c with
  | core c =>
    by_cases hkeeps : c.KeepsSettings
    · exact counter_of_settings (steady_answer hkeeps x w).settings
    · cases c with
      | addInvoiceNumber org => exact counter_addInvoiceNumber hx
      | _ => exact absurd trivial hkeeps
  | updateSettingsItem org changes =>
    have hwrite : ∀ item, counter orgId (w.withSettings org item) =
        if org = orgId then item.lookup "next_invoice_number" else counter orgId w := by
      intro item
      split
      · next horg => rw [horg, counter_withSettings]
      · next horg => exact counter_withSettings_of_ne horg item
    rcases updateSettingsItem_cases org changes x w with he | ⟨hlanded, hwritten⟩
    · rw [he]
    · rw [hwritten, hwrite]
      split
      · next horg =>
        subst horg
        rw [lookup_setAttributes, (hx rfl).resolve_left fun ⟨e, he⟩ => hlanded e he, Option.none_or]
        rfl
      · rfl
  | putMembershipItem | updateRole | deleteMembershipItem =>
    exact counter_of_settings (settings_of_membership (by trivial : AdminCall.OfMembership _) x w)

/-- **The settings report the number that comes next** in every state that a run ends in which does
not write the attribute; and whatever the run does, only where it has not been written, the settings
cannot be read, or one is added in vain. -/
theorem reportsNext_of_run (orgId : String) (tasks : List (String × NumberTask)) (w : World)
    (ms : List (ℕ × Choice)) (hw : counter orgId w = none) :
    (Pool.Along AdminCall.answer (Unallocated orgId) (sideBySide tasks w) ms →
      ReportsNext orgId ((sideBySide tasks w).run AdminCall.answer ms).world) ∧
    (ReportsNext orgId ((sideBySide tasks w).run AdminCall.answer ms).world ↔
      Unset orgId ((sideBySide tasks w).run AdminCall.answer ms).world) := by
  refine ⟨fun h => reportsNext_iff.mpr (.inl ?_), reportsNext_iff⟩
  refine Pool.run_invariant (J := fun w => counter orgId w = none) (h.mono ?_) hw
  intro c x w hx hnone
  rw [counter_answer hx, hnone]

/-- The call has no effect. -/
def Fate.isLost : Fate → Bool
  | .lost _ => true
  | .ok | .late _ => false

theorem Fate.isLost_iff (f : Fate) : f.isLost = true ↔ ∃ e, f = .lost e := by
  cases f <;> simp [isLost]

instance (c : AdminCall) (x : Choice) (w : World) : Decidable (Unallocated orgId c x w) := by
  have hlost : Decidable (∃ e, x.fate = .lost e) := decidable_of_iff _ x.fate.isLost_iff
  apply AdminCall.casesOn (motive := fun c => Decidable (Unallocated orgId c x w)) c
  case core =>
    intro c
    apply Call.casesOn (motive := fun c => Decidable (Unallocated orgId (.core c) x w)) c
    case addInvoiceNumber => exact fun org => inferInstanceAs (Decidable (org = orgId → _))
    all_goals intros; exact .isTrue trivial
  case updateSettingsItem =>
    exact fun org changes => decidable_of_iff (org = orgId → (∃ e, x.fate = .lost e) ∨
      (changes.lookup "next_invoice_number").isNone = true) (by simp [Unallocated])
  all_goals intros; exact .isTrue trivial

/-- The timezone is set, and another org is given a number. -/
theorem reportsNext_timezone : ReportsNext "org" ((sideBySide
    [("org", .set [("timezone", .str "Europe/Berlin")] "ada"), ("other", .next "INV-")]
      .initial).run AdminCall.answer (calmTurns [0, 0, 0, 0, 0, 1])).world :=
  (reportsNext_of_run "org" [("org", .set [("timezone", .str "Europe/Berlin")] "ada"),
    ("other", .next "INV-")] .initial (calmTurns [0, 0, 0, 0, 0, 1]) rfl).1 (by
      decide +kernel)

/-- After the first number the settings report it again. -/
theorem not_reportsNext : ¬ ∀ (orgId : String) (tasks : List (String × NumberTask)) (w : World)
    (ms : List (ℕ × Choice)), counter orgId w = none →
      ReportsNext orgId ((sideBySide tasks w).run AdminCall.answer ms).world := by
  intro h
  have hreports := h "org" [("org", .next "INV-")] .initial (calmTurns [0]) rfl
  rcases reportsNext_iff.mp hreports with hnone | ⟨e, he⟩ | ⟨value, hvalue, habsorbs⟩
  · cases hnone
  · cases he
  · cases hvalue
    exact habsorbs

end A2ZCore.Core
