import A2ZCore.Core.Admin
import A2ZCore.Lib.Pool
import Mathlib

/-!
# The invoice counter and the settings

`get_next_invoice_number` adds one to an attribute of an org's settings item, which two callers never do
at once. The attribute is also one that `set_org_settings` overwrites, with whatever it is given.

## Main definitions

* `NumberTask`, `counting` — calls of the two functions for one org, side by side
* `Register` — the state, with the numbers that have been given out
* `NumbersDistinct` — two calls that have returned have returned different numbers
* `NotBehind` — the counter is never set behind the numbers that have been given out
* `extendsTo`, `Apart` — prefixes that can, and cannot, make one text of two numbers

## Main results

* `numbersDistinct_of_notBehind` — numbers are distinct in a run in which the counter is not set back and
  the prefixes are apart
-/

namespace A2ZCore.Core

open Interaction Interaction.Proc Interaction.Contract

/-! ### Numbers as text -/

theorem repr_injective {m n : ℕ} (h : Nat.repr m = Nat.repr n) : m = n := by
  have hlist : Nat.toDigits 10 m = Nat.toDigits 10 n := by
    simpa using congrArg String.toList h
  simpa using congrArg (fun cs => Nat.ofDigitChars 10 cs 0) hlist

/-- A number without a sign is not a number with one. -/
theorem repr_ne_minus (m : ℕ) (s : String) : Nat.repr m ≠ "-" ++ s := by
  intro h
  have hmem : '-' ∈ Nat.toDigits 10 m := by
    have hlist : Nat.toDigits 10 m = '-' :: s.toList := by simpa using congrArg String.toList h
    rw [hlist]
    exact List.mem_cons_self
  exact absurd (Nat.isDigit_of_mem_toDigits (by decide) (by decide) hmem) (by decide)

theorem toString_injective {m n : ℤ} (h : toString m = toString n) : m = n := by
  cases m with
  | ofNat m =>
    cases n with
    | ofNat n => exact congrArg Int.ofNat (repr_injective h)
    | negSucc n => exact absurd h (repr_ne_minus m _)
  | negSucc m =>
    cases n with
    | ofNat n => exact absurd h.symm (repr_ne_minus n _)
    | negSucc n =>
      have hdigits := repr_injective ((String.append_right_inj "-").mp h)
      rw [Nat.succ_inj.mp hdigits]

/-- The text could be the beginning of a number: digits, or a minus sign and digits. -/
def isNumeral : List Char → Bool
  | '-' :: cs => cs.all Char.isDigit
  | cs => cs.all Char.isDigit

theorem isNumeral_of_all {cs : List Char} (h : cs.all Char.isDigit = true) : isNumeral cs = true := by
  unfold isNumeral
  split
  · exact absurd (List.all_eq_true.mp h '-' List.mem_cons_self) (by decide)
  · exact h

theorem all_isDigit_repr (n : ℕ) : (Nat.repr n).toList.all Char.isDigit = true := by
  rw [List.all_eq_true]
  intro c hc
  exact Nat.isDigit_of_mem_toDigits (b := 10) (by decide) (by decide) (by simpa using hc)

theorem isNumeral_toString (n : ℤ) : isNumeral (toString n).toList = true := by
  cases n with
  | ofNat n => exact isNumeral_of_all (all_isDigit_repr n)
  | negSucc n =>
    have htext : (toString (Int.negSucc n)).toList = '-' :: (Nat.repr n.succ).toList :=
      String.toList_append
    rw [htext]
    exact all_isDigit_repr n.succ

theorem isNumeral_of_append {s t : List Char} (h : isNumeral (s ++ t) = true) : isNumeral s = true := by
  unfold isNumeral at h ⊢
  cases s with
  | nil => rfl
  | cons c s =>
    by_cases hc : c = '-'
    · subst hc
      simp only [List.cons_append, List.all_append, Bool.and_eq_true] at h
      exact h.1
    · simp only [List.cons_append] at h
      split at h
      · next heq => exact absurd (List.cons.inj heq).1 hc
      · simp only [List.all_cons, List.all_append, Bool.and_eq_true] at h
        split
        · next heq => exact absurd (List.cons.inj heq).1 hc
        · simp [h.1, h.2.1]

/-- The second prefix is the first one with the beginning of a number after it. -/
def extendsTo (pfx pfx' : String) : Bool :=
  pfx ≠ pfx' && pfx.toList.isPrefixOf pfx'.toList && isNumeral (pfx'.toList.drop pfx.toList.length)

/-- Neither prefix is the other one with the beginning of a number after it. -/
def Apart (pfx pfx' : String) : Prop := extendsTo pfx pfx' = false ∧ extendsTo pfx' pfx = false

theorem extendsTo_of_append {pfx pfx' : String} {s t : List Char} {n : ℤ} (hs : pfx'.toList = pfx.toList ++ s)
    (hn : (toString n).toList = s ++ t) : pfx = pfx' ∨ extendsTo pfx pfx' = true := by
  by_cases hsame : pfx = pfx'
  · exact .inl hsame
  · have hprefix : pfx.toList.isPrefixOf pfx'.toList = true := by
      rw [List.isPrefixOf_iff_prefix, hs]
      exact List.prefix_append _ _
    have hnumeral : isNumeral (pfx'.toList.drop pfx.toList.length) = true := by
      rw [hs, List.drop_left]
      exact isNumeral_of_append (hn ▸ isNumeral_toString n)
    exact .inr (by simp [extendsTo, hsame, hprefix, hnumeral])

/-- Different numbers behind prefixes that are apart are different texts. -/
theorem Apart.number_inj {pfx pfx' : String} (h : Apart pfx pfx') {m n : ℤ}
    (htext : pfx ++ toString m = pfx' ++ toString n) : m = n := by
  have hchars : pfx.toList ++ (toString m).toList = pfx'.toList ++ (toString n).toList := by
    simpa only [String.toList_append] using congrArg String.toList htext
  have hsame : pfx = pfx' := by
    rcases List.append_eq_append_iff.mp hchars with ⟨s, hs, hm⟩ | ⟨s, hs, hn⟩
    · exact (extendsTo_of_append hs hm).resolve_right (by simp [h.1])
    · exact ((extendsTo_of_append hs hn).resolve_right (by simp [h.2])).symm
  subst hsame
  exact toString_injective ((String.append_right_inj pfx).mp htext)

/-! ### Calls side by side -/

/-- A call of one of the two functions. -/
inductive NumberTask where
  | next (pfx : String)
  | set (changes : List (String × Json)) (changedBy : String)

/-- The program of a task: the number that it returns, if it returns one. -/
def NumberTask.program (orgId : String) : NumberTask → AdminProg (Option String)
  | next pfx => do
    let number ← ofCore (getNextInvoiceNumber orgId pfx)
    return some number
  | set changes changedBy => do
    let _ ← setOrgSettings orgId changes changedBy
    return none

/-- A call, and the task that makes it. -/
structure NumberCall where
  task : ℕ
  call : AdminCall

/-- What a call replies. -/
def NumberCall.Resp (c : NumberCall) : Type := c.call.Resp

/-- The state, with the numbers that have been given out, and to whom. -/
structure Register where
  world : World
  given : List (ℕ × ℤ)

/-- The numbers given out after a reply. -/
def NumberCall.givenAfter : (c : NumberCall) → Except PyErr c.Resp → List (ℕ × ℤ) → List (ℕ × ℤ)
  | ⟨task, .core (.addInvoiceNumber _)⟩, .ok n, given => (task, toInt n) :: given
  | _, _, given => given

/-- The reply to a call and the state it leaves. -/
def NumberCall.answer (c : NumberCall) (x : Choice) (r : Register) :
    Except PyErr c.Resp × Register :=
  ((c.call.answer x r.world).1,
    ⟨(c.call.answer x r.world).2, c.givenAfter (c.call.answer x r.world).1 r.given⟩)

/-- The tasks of one org side by side, before a number has been given out. -/
def counting (orgId : String) (tasks : List NumberTask) (w : World) :
    Pool NumberCall NumberCall.Resp PyErr (Option String) Register :=
  ⟨tasks.mapIdx fun i task => (task.program orgId).embed (NumberCall.mk i) fun _ r => r, ⟨w, []⟩⟩

/-- Two calls that have returned have returned different numbers. -/
def NumbersDistinct (tasks : List NumberTask)
    (s : Pool NumberCall NumberCall.Resp PyErr (Option String) Register) : Prop :=
  ∀ (i j : ℕ) (pfx pfx' number number' : String), i ≠ j → tasks[i]? = some (.next pfx) →
    tasks[j]? = some (.next pfx') → s.returned i = some (some number) →
      s.returned j = some (some number') → number ≠ number'

/-- The prefixes that numbers are asked for with. -/
def prefixes (tasks : List NumberTask) : List String :=
  tasks.filterMap fun
    | .next pfx => some pfx
    | .set _ _ => none

/-- No prefix is another one with the beginning of a number after it. -/
def PrefixesApart (tasks : List NumberTask) : Prop :=
  ∀ pfx ∈ prefixes tasks, ∀ pfx' ∈ prefixes tasks, Apart pfx pfx'

/-! ### When the counter counts on -/

/-- The number that is given out next. Where one cannot be added to the attribute there is none. -/
def nextNumber : Option Json → Option ℤ
  | none => some 1
  | some value => (plusOne value).toOption.map toInt

/-- The numbers that are given out from here on ascend: a fraction can be read as the same number
twice. -/
def Ascends (counter : Option Json) : Prop := ∀ value ∈ counter, ¬IsFraction value

/-- The numbers that are given out from here on ascend, and exceed those that have been. -/
def Ahead (counter : Option Json) (given : List (ℕ × ℤ)) : Prop :=
  Ascends counter ∧ ∀ next, nextNumber counter = some next → ∀ number ∈ given, number.2 < next

/-- A write of the settings that takes effect leaves the counter as it is, or ahead of the numbers that
have been given out. -/
def NotBehind (c : NumberCall) (x : Choice) (r : Register) : Prop :=
  match c.call with
  | .updateSettingsItem _ changes => (∃ e, x.fate = .lost e) ∨
      changes.lookup "next_invoice_number" = none ∨
        Ahead (changes.lookup "next_invoice_number") r.given
  | _ => True

/-! ### What a call does to the register -/

variable {orgId : String}

/-- The counter of an org. -/
def counter (orgId : String) (w : World) : Option Json :=
  ((w.settings orgId).getD []).lookup "next_invoice_number"

/-- The counter is ahead of the numbers, and each has been given out once. -/
structure Counted (orgId : String) (r : Register) : Prop where
  ahead : Ahead (counter orgId r.world) r.given
  once : ∀ i j n, (i, n) ∈ r.given → (j, n) ∈ r.given → i = j

/-- What has been given out stays so, and the counter stays ahead of it. -/
structure Later (orgId : String) (r r' : Register) : Prop where
  given : ∀ number ∈ r.given, number ∈ r'.given
  counted : Counted orgId r → Counted orgId r'

theorem Later.refl (r : Register) : Later orgId r r := ⟨fun _ h => h, id⟩

theorem Later.trans {r r' r'' : Register} (h : Later orgId r r') (h' : Later orgId r' r'') :
    Later orgId r r'' :=
  ⟨fun number hn => h'.given number (h.given number hn), fun hr => h'.counted (h.counted hr)⟩

theorem later_of_same {r r' : Register} (hgiven : r'.given = r.given)
    (hcounter : counter orgId r'.world = counter orgId r.world) : Later orgId r r' := by
  refine ⟨fun number hn => by rwa [hgiven], fun hr => ⟨?_, ?_⟩⟩
  · rw [hcounter, hgiven]
    exact hr.ahead
  · rw [hgiven]
    exact hr.once

/-- `ADD` gives out the next number, and one after it is larger. -/
theorem addOne_ascends {item item' : List (String × Json)} {value : Json}
    (hadd : addOne item = .ok (value, item'))
    (hascends : Ascends (item.lookup "next_invoice_number")) :
    nextNumber (item.lookup "next_invoice_number") = some (toInt value) ∧
      Ascends (item'.lookup "next_invoice_number") ∧
        ∀ next, nextNumber (item'.lookup "next_invoice_number") = some next → toInt value < next := by
  have hnext : ∀ v : Json, ¬IsFraction v → ∀ next, nextNumber (some v) = some next → toInt v < next := by
    intro v hwhole next h
    obtain ⟨sum, hsum, rfl⟩ := Option.map_eq_some_iff.mp h
    have hplus : plusOne v = .ok sum := by
      cases hv : plusOne v with
      | ok r => rw [hv] at hsum; exact congrArg Except.ok (Option.some.inj hsum)
      | error e => rw [hv] at hsum; cases hsum
    rw [(toInt_plusOne hwhole hplus).1]
    exact lt_add_one _
  unfold addOne at hadd
  split at hadd
  · next hnone =>
    cases hadd
    rw [hnone, Json.lookup_set, if_pos rfl]
    exact ⟨rfl, by rintro _ ⟨⟩; exact id, hnext _ id⟩
  · next v hv =>
    cases hsum : plusOne v with
    | error e => rw [hsum] at hadd; cases hadd
    | ok sum =>
      rw [hsum] at hadd
      cases hadd
      rw [hv] at hascends
      rw [hv, Json.lookup_set, if_pos rfl]
      have hwhole := (toInt_plusOne (hascends v rfl) hsum).2
      refine ⟨?_, by rintro _ ⟨⟩; exact hwhole, hnext _ hwhole⟩
      rw [nextNumber, hsum]
      rfl

/-- The call is one about the org. -/
def AdminCall.Ours (orgId : String) : AdminCall → Prop
  | .core (.addInvoiceNumber org) => org = orgId
  | .updateSettingsItem org _ => org = orgId
  | _ => True

/-- A number is given out, or taken without being given out, or nothing happens. -/
theorem addInvoiceNumber_cases (orgId : String) (x : Choice) (w : World) :
    (∃ e, (Call.addInvoiceNumber orgId).answer x w = (.error e, w)) ∨
      ∃ value item, addOne ((w.settings orgId).getD []) = .ok (value, item) ∧
        ((Call.addInvoiceNumber orgId).answer x w = (.ok value, w.withSettings orgId item) ∨
          ∃ e, (Call.addInvoiceNumber orgId).answer x w = (.error e, w.withSettings orgId item)) := by
  rw [Call.answer]
  cases hadd : addOne ((w.settings orgId).getD []) with
  | error e =>
    rw [Except.map, Fate.settle_error]
    exact .inl ⟨_, rfl⟩
  | ok v =>
    cases x.fate with
    | ok => exact .inr ⟨v.1, v.2, rfl, .inl rfl⟩
    | lost e => exact .inl ⟨e, rfl⟩
    | late e => exact .inr ⟨v.1, v.2, rfl, .inr ⟨e, rfl⟩⟩

theorem counter_withSettings (w : World) (item : List (String × Json)) :
    counter orgId (w.withSettings orgId item) = item.lookup "next_invoice_number" := by
  simp [counter, World.withSettings]

theorem counter_of_settings {w w' : World} (h : w'.settings = w.settings) :
    counter orgId w' = counter orgId w := by
  rw [counter, counter, h]

theorem later_addInvoiceNumber (task : ℕ) (x : Choice) (r : Register) :
    Later orgId r ((NumberCall.mk task (.core (.addInvoiceNumber orgId))).answer x r).2 := by
  show Later orgId r ⟨((Call.addInvoiceNumber orgId).answer x r.world).2,
    NumberCall.givenAfter ⟨task, .core (.addInvoiceNumber orgId)⟩
      ((Call.addInvoiceNumber orgId).answer x r.world).1 r.given⟩
  rcases addInvoiceNumber_cases orgId x r.world with ⟨e, he⟩ | ⟨value, item, hadd, hreply⟩
  · rw [he]
    exact later_of_same rfl rfl
  · have hahead : Counted orgId r → (∀ next, nextNumber (counter orgId (r.world.withSettings orgId
        item)) = some next → toInt value < next) ∧ Ascends (counter orgId (r.world.withSettings orgId
          item)) ∧ ∀ number ∈ r.given, number.2 < toInt value := by
      intro hr
      obtain ⟨hvalue, hascends, hnext⟩ := addOne_ascends hadd hr.ahead.1
      rw [counter_withSettings]
      exact ⟨hnext, hascends, hr.ahead.2 _ hvalue⟩
    rcases hreply with hok | ⟨e, he⟩
    · rw [hok]
      refine ⟨fun number hn => List.mem_cons_of_mem _ hn, fun hr => ?_⟩
      obtain ⟨hnext, hascends, hgiven⟩ := hahead hr
      refine ⟨⟨hascends, fun n hn number hnumber => ?_⟩, fun i j n hi hj => ?_⟩
      · have hlt := hnext n hn
        rcases List.mem_cons.mp hnumber with rfl | hold
        · exact hlt
        · exact (hgiven number hold).trans hlt
      · rcases List.mem_cons.mp hi with hnew | hold
        · rcases List.mem_cons.mp hj with hnew' | hold'
          · rw [(Prod.mk.inj hnew).1, (Prod.mk.inj hnew').1]
          · exact absurd (Prod.mk.inj hnew).2 (hgiven _ hold').ne
        · rcases List.mem_cons.mp hj with hnew' | hold'
          · exact absurd (Prod.mk.inj hnew').2 (hgiven _ hold).ne
          · exact hr.once i j n hold hold'
    · rw [he]
      refine ⟨fun _ h => h, fun hr => ⟨?_, hr.once⟩⟩
      obtain ⟨hnext, hascends, hgiven⟩ := hahead hr
      exact ⟨hascends, fun n hn number hnumber => (hgiven number hnumber).trans (hnext n hn)⟩

/-- A write of the settings that does not set the counter back. -/
theorem later_updateSettingsItem {task : ℕ} {changes : List (String × Json)} {x : Choice}
    {r : Register} (hx : NotBehind ⟨task, .updateSettingsItem orgId changes⟩ x r) :
    Later orgId r ((NumberCall.mk task (.updateSettingsItem orgId changes)).answer x r).2 := by
  have hanswer : ((NumberCall.mk task (.updateSettingsItem orgId changes)).answer x r).2 = r ∨
      (∀ e, x.fate ≠ .lost e) ∧
        ((NumberCall.mk task (.updateSettingsItem orgId changes)).answer x r).2 =
          ⟨r.world.withSettings orgId (setAttributes changes ((r.world.settings orgId).getD [])),
            r.given⟩ := by
    rcases updateSettingsItem_cases orgId changes x r.world with he | ⟨hlanded, hwritten⟩
    · refine .inl ?_
      rw [NumberCall.answer, he]
      rfl
    · refine .inr ⟨hlanded, ?_⟩
      rw [NumberCall.answer, hwritten]
      rfl
  rcases hanswer with hsame | ⟨hlanded, hwritten⟩
  · rw [hsame]
    exact .refl r
  rw [hwritten]
  have hcounter : counter orgId (r.world.withSettings orgId (setAttributes changes
      ((r.world.settings orgId).getD []))) = (changes.lookup "next_invoice_number").or
        (counter orgId r.world) := by
    rw [counter_withSettings, lookup_setAttributes]
    rfl
  rcases hx with ⟨e, hlost⟩ | hnone | hahead
  · exact absurd hlost (hlanded e)
  · refine later_of_same rfl ?_
    rw [hcounter, hnone, Option.none_or]
  · cases hvalue : changes.lookup "next_invoice_number" with
    | none =>
      refine later_of_same rfl ?_
      rw [hcounter, hvalue, Option.none_or]
    | some value =>
      refine ⟨fun _ h => h, fun hr => ⟨?_, hr.once⟩⟩
      rw [hcounter, hvalue, Option.some_or, ← hvalue]
      exact hahead

/-- The call is about a membership. -/
def AdminCall.OfMembership : AdminCall → Prop
  | .core _ => False
  | .updateSettingsItem _ _ => False
  | _ => True

theorem settings_of_membership {c : AdminCall} (hc : c.OfMembership) (x : Choice) (w : World) :
    (c.answer x w).2.settings = w.settings := by
  rcases c.writes_of_answer x w with hsame | hwrites
  · rw [hsame]
  · generalize (c.answer x w).2 = w' at hwrites ⊢
    cases hwrites with
    | core => exact hc.elim
    | settings => exact hc.elim
    | _ => rfl

theorem later_answer {c : NumberCall} (hc : c.call.Ours orgId) {x : Choice} {r : Register}
    (hx : NotBehind c x r) : Later orgId r (c.answer x r).2 := by
  obtain ⟨task, c⟩ := c
  cases c with
  | core c =>
    by_cases hkeeps : c.KeepsSettings
    · have hsettings := (steady_answer hkeeps x r.world).settings
      refine later_of_same ?_ ?_
      · cases c with
        | addInvoiceNumber => exact hkeeps.elim
        | _ => rfl
      · exact counter_of_settings hsettings
    · cases c with
      | addInvoiceNumber org =>
        obtain rfl : org = orgId := hc
        exact later_addInvoiceNumber task x r
      | _ => exact absurd trivial hkeeps
  | updateSettingsItem org changes =>
    obtain rfl : org = orgId := hc
    exact later_updateSettingsItem hx
  | putMembershipItem | updateRole | deleteMembershipItem =>
    exact later_of_same rfl (counter_of_settings
      (settings_of_membership (by trivial : AdminCall.OfMembership _) x r.world))

/-! ### The two functions -/

/-- The setting of the calls of one org, none of which sets the counter back. -/
def numbering (orgId : String) : Contract NumberCall NumberCall.Resp PyErr Choice Register where
  answer := NumberCall.answer
  rely := Later orgId
  admits := NotBehind
  guar _ _ := Later orgId
  rely_refl := .refl
  rely_trans h h' := h.trans h'

/-- What a task returns is a number that has been given out to it. -/
def Told (i : ℕ) (task : NumberTask) (r : Except PyErr (Option String)) (register : Register) : Prop :=
  ∀ pfx text, task = .next pfx → r = .ok (some text) →
    ∃ n, (i, n) ∈ register.given ∧ text = pfx ++ toString n

theorem told_of_later {i : ℕ} {task : NumberTask} (r : Except PyErr (Option String))
    (register register' : Register) (h : Later orgId register register')
    (htold : Told i task r register) : Told i task r register' := by
  intro pfx text htask hr
  obtain ⟨n, hn, htext⟩ := htold pfx text htask hr
  exact ⟨n, h.given _ hn, htext⟩

theorem wp_next (i : ℕ) (pfx : String) (register : Register) :
    (numbering orgId).wp (((NumberTask.next pfx).program orgId).embed (NumberCall.mk i) fun _ r => r)
      register (Told i (.next pfx)) := by
  refine wp_comap (wp_bind (wp_comap (wp_bind (wp_handle (wp_perform ?_)))))
  intro register' _ x hx
  have hlater : Later orgId register' _ := later_addInvoiceNumber i x register'
  refine ⟨hlater, ?_⟩
  show caught _ _ _ ((((Call.addInvoiceNumber orgId).answer x register'.world).1.map _).map _)
    (Register.mk ((Call.addInvoiceNumber orgId).answer x register'.world).2
      (NumberCall.givenAfter ⟨i, .core (.addInvoiceNumber orgId)⟩
        ((Call.addInvoiceNumber orgId).answer x register'.world).1 register'.given))
  cases hreply : ((Call.addInvoiceNumber orgId).answer x register'.world).1 with
  | error e =>
    show Contract.wp _ _ _ _
    dsimp only
    split <;> rintro _ _ _ ⟨⟩
  | ok value =>
    rintro pfx' text ⟨⟩ ⟨⟩
    exact ⟨toInt value, List.mem_cons_self, rfl⟩

theorem wp_set (i : ℕ) (changes : List (String × Json)) (changedBy : String) (register : Register) :
    (numbering orgId).wp
      (((NumberTask.set changes changedBy).program orgId).embed (NumberCall.mk i) fun _ r => r)
      register (Told i (.set changes changedBy)) := by
  have hcalls : ((NumberTask.set changes changedBy).program orgId).Calls (AdminCall.Ours orgId) := by
    refine (calls_setOrgSettings (fun c hc => ?_) fun now => rfl).bind fun _ => trivial
    cases c with
    | addInvoiceNumber => exact hc.elim
    | _ => trivial
  refine wp_comap (wp_of_calls (P := AdminCall.Ours orgId) (fun c hc x register' hx => ?_) hcalls
    (Proc.returns_true _) (fun _ _ _ _ => nofun) fun _ _ _ => nofun)
  have hlater : Later orgId register' ((NumberCall.mk i c).answer x register').2 := later_answer hc hx
  exact ⟨hlater, hlater⟩

theorem wp_task (i : ℕ) (task : NumberTask) (register : Register) :
    (numbering orgId).wp ((task.program orgId).embed (NumberCall.mk i) fun _ r => r) register
      (Told i task) := by
  cases task with
  | next pfx => exact wp_next i pfx register
  | set changes changedBy => exact wp_set i changes changedBy register

/-! ### Runs -/

variable {tasks : List NumberTask} {w : World} {ms : List (ℕ × Choice)}

/-- What is returned in a run is what has been given out, each number once. -/
theorem told_of_run (h : Pool.Along NumberCall.answer NotBehind (counting orgId tasks w) ms)
    (hw : counter orgId w = none) :
    Counted orgId ((counting orgId tasks w).run NumberCall.answer ms).world ∧
      ∀ (i : ℕ) task a, tasks[i]? = some task →
        ((counting orgId tasks w).run NumberCall.answer ms).returned i = some a →
          Told i task (.ok a) ((counting orgId tasks w).run NumberCall.answer ms).world := by
  have hstart : ∀ (i : ℕ) p, (counting orgId tasks w).procs[i]? = some p →
      (numbering orgId).wp p (counting orgId tasks w).world fun r register =>
        ∀ task, tasks[i]? = some task → Told i task r register := by
    intro i p hp
    rw [counting, List.getElem?_mapIdx] at hp
    obtain ⟨task, htask, rfl⟩ := Option.map_eq_some_iff.mp hp
    refine wp_mono (fun r register hr task' htask' => ?_) (wp_task i task _)
    obtain rfl : task = task' := Option.some.inj (htask.symm.trans htask')
    exact hr
  obtain ⟨hguar, hend⟩ := Pool.run_wp_at (K := numbering orgId) (fun _ _ _ _ hlater => hlater)
    (fun i r register register' hlater hr task htask =>
      told_of_later r register register' hlater (hr task htask)) hstart h
  have hcounted : Counted orgId (counting orgId tasks w).world := by
    refine ⟨?_, nofun⟩
    show Ahead (counter orgId w) []
    rw [hw]
    exact ⟨nofun, nofun⟩
  refine ⟨Pool.run_invariant (hguar.mono fun _ _ _ hlater => hlater.counted) hcounted, ?_⟩
  intro i task a htask ha
  have hret := hend i _ (Pool.getElem?_of_returned ha)
  exact hret task htask

/-- **No two calls return the same number**, in any run of any number of calls in which the counter
is not set behind the numbers that have been given out, with any prefixes that are apart. -/
theorem numbersDistinct_of_notBehind (orgId : String) (tasks : List NumberTask) (w : World)
    (ms : List (ℕ × Choice)) (hw : counter orgId w = none) (hprefixes : PrefixesApart tasks)
    (h : Pool.Along NumberCall.answer NotBehind (counting orgId tasks w) ms) :
    NumbersDistinct tasks ((counting orgId tasks w).run NumberCall.answer ms) := by
  obtain ⟨hcounted, htold⟩ := told_of_run h hw
  have hgiven : ∀ (i : ℕ) pfx number, tasks[i]? = some (.next pfx) →
      ((counting orgId tasks w).run NumberCall.answer ms).returned i = some (some number) →
      ∃ n, (i, n) ∈ ((counting orgId tasks w).run NumberCall.answer ms).world.given ∧
        number = pfx ++ toString n :=
    fun i pfx number htask hreturned => htold i _ _ htask hreturned pfx number rfl rfl
  have hasked : ∀ (i : ℕ) pfx, tasks[i]? = some (.next pfx) → pfx ∈ prefixes tasks :=
    fun i pfx htask => List.mem_filterMap.mpr ⟨_, List.mem_of_getElem? htask, rfl⟩
  rintro i j pfx pfx' number number' hne hi hj hnumber hnumber' hsame
  obtain ⟨m, hm, rfl⟩ := hgiven i pfx number hi hnumber
  obtain ⟨n, hn, rfl⟩ := hgiven j pfx' number' hj hnumber'
  obtain rfl := (hprefixes pfx (hasked i pfx hi) pfx' (hasked j pfx' hj)).number_inj hsame
  exact hne (hcounted.once i j m hm hn)

/-- A schedule of calls that go through. -/
def calmTurns (turns : List ℕ) : List (ℕ × Choice) := turns.map fun turn => (turn, .calm "t")

instance (counter : Option Json) : Decidable (Ascends counter) :=
  match counter with
  | none => .isTrue nofun
  | some value => decidable_of_iff (¬IsFraction value) (by simp [Ascends])

instance (counter : Option Json) (given : List (ℕ × ℤ)) : Decidable (Ahead counter given) :=
  match h : nextNumber counter with
  | none => decidable_of_iff (Ascends counter) (by simp [Ahead, h])
  | some next => decidable_of_iff (Ascends counter ∧ ∀ number ∈ given, number.2 < next)
      (by simp [Ahead, h])

instance (tasks : List NumberTask) : Decidable (PrefixesApart tasks) :=
  inferInstanceAs (Decidable (∀ pfx ∈ prefixes tasks, ∀ pfx' ∈ prefixes tasks, _ ∧ _))

instance (c : NumberCall) (x : Choice) (r : Register) : Decidable (NotBehind c x r) := by
  obtain ⟨task, c⟩ := c
  cases c with
  | updateSettingsItem orgId changes =>
    exact match h : x.fate with
      | .lost e => .isTrue (.inl ⟨e, h⟩)
      | .ok | .late _ => decidable_of_iff ((changes.lookup "next_invoice_number").isNone = true ∨
          Ahead (changes.lookup "next_invoice_number") r.given) (by simp [NotBehind, h])
  | _ => exact .isTrue trivial

/-- Numbers are taken with two prefixes, the counter is set ahead, and another one is taken. -/
theorem numbersDistinct_ahead : NumbersDistinct
    [.next "INV-", .next "CN-", .set [("next_invoice_number", .int 100)] "ada", .next "INV-"]
    ((counting "org" [.next "INV-", .next "CN-", .set [("next_invoice_number", .int 100)] "ada",
      .next "INV-"] .initial).run NumberCall.answer (calmTurns [0, 1, 2, 2, 3])) :=
  numbersDistinct_of_notBehind "org" _ .initial _ rfl (by decide +kernel) (by decide +kernel)

/-- Two numbers are taken, the counter is set to its default, and the second number is taken again. -/
theorem not_numbersDistinct : ¬∀ (orgId : String) (tasks : List NumberTask) (w : World)
    (ms : List (ℕ × Choice)), counter orgId w = none →
      NumbersDistinct tasks ((counting orgId tasks w).run NumberCall.answer ms) := by
  intro h
  have hdistinct := h "org" [.next "INV-", .next "INV-",
    .set [("next_invoice_number", .int 1)] "ada", .next "INV-"] .initial
    (calmTurns [0, 1, 2, 2, 3]) rfl
  exact hdistinct 1 3 "INV-" "INV-" "INV-2" "INV-2" (by decide) rfl rfl (by decide +kernel)
    (by decide +kernel) rfl

end A2ZCore.Core
