import A2ZCore.Core.Steady
import A2ZCore.Invoicing.Invariants
import Mathlib

/-!
# Invoice numbers

`create_invoice` takes the number of an invoice from a counter in another store, and persists the
invoice several steps later. A number that has been taken when one of those steps fails is not given
back.

## Main definitions

* `sequencePart` — the number in an invoice number
* `createAll` — calls of `create_invoice` for one org, one after the other
* `Gapless` — the invoices of the org are numbered from one, without a gap
* `Carried` — once a number is taken, nothing stops the call before the invoice is persisted

## Main results

* `gapless_createAll` — no gaps after calls that are all carried through
-/

namespace A2ZCore.Invoicing

open Interaction Interaction.Proc Interaction.Contract

/-! ### Numbers as text -/

theorem isDigit_iff (c : Char) : c.isDigit = true ↔ '0' ≤ c ∧ c ≤ '9' := by
  rw [Char.isDigit]
  simp [Char.le_def]

/-- The value of a list of digits. -/
theorem parseDigits_of_isDigit {cs : List Char} (h : ∀ c ∈ cs, c.isDigit) (total : ℕ)
    (afterDigit : Bool) (hne : afterDigit = true ∨ cs ≠ []) :
    parseDigits total afterDigit cs = some (Nat.ofDigitChars 10 cs total) := by
  induction cs generalizing total afterDigit with
  | nil =>
    rcases hne with rfl | hne
    · rfl
    · exact absurd rfl hne
  | cons c cs ih =>
    have hc := (isDigit_iff c).mp (h c List.mem_cons_self)
    rw [parseDigits, if_pos hc, Nat.ofDigitChars_cons]
    exact ih (fun c' hc' => h c' (List.mem_cons_of_mem c hc')) _ _ (.inl rfl)

theorem isDigit_toDigits {n : ℕ} : ∀ c ∈ Nat.toDigits 10 n, c.isDigit :=
  fun _ hc => Nat.isDigit_of_mem_toDigits (by decide) (by decide) hc

theorem parseDigits_toDigits (n : ℕ) : parseDigits 0 false (Nat.toDigits 10 n) = some n := by
  rw [parseDigits_of_isDigit isDigit_toDigits 0 false (.inr Nat.toDigits_ne_nil),
    Nat.ofDigitChars_ten_toDigits]

theorem pyStrip_of_isDigit {cs : List Char} (h : ∀ c ∈ cs, c.isDigit) : pyStrip cs = cs := by
  have hdrop : ∀ l : List Char, (∀ c ∈ l, c.isDigit) → l.dropWhile pyIsSpace = l := by
    intro l hl
    cases l with
    | nil => rfl
    | cons c l =>
      have hc := pyIsSpace_of_isDigit (hl c List.mem_cons_self)
      rw [List.dropWhile_cons_of_neg (by simp [hc])]
  rw [pyStrip, hdrop cs h, hdrop cs.reverse fun c hc => h c (List.mem_reverse.mp hc),
    List.reverse_reverse]

/-- `int(str(n))`. -/
theorem parseInt_toString (n : ℕ) : parseInt (toString n) = .ok (n : ℤ) := by
  have hvalue := parseDigits_toDigits n
  have hdigits : ∀ c ∈ Nat.toDigits 10 n, c.isDigit := isDigit_toDigits
  have hlist : (toString n).toList = Nat.toDigits 10 n := by simp
  unfold parseInt
  rw [hlist, pyStrip_of_isDigit hdigits]
  generalize Nat.toDigits 10 n = cs at hvalue hdigits
  split
  · exact absurd (hdigits '-' List.mem_cons_self) (by decide)
  · exact absurd (hdigits '+' List.mem_cons_self) (by decide)
  · rw [hvalue]
    rfl

/-- The number in an invoice number, which is what follows the last hyphen. -/
def sequencePart (invoiceNumber : String) : Option ℕ :=
  parseDigits 0 false ((invoiceNumber.toList.reverse.takeWhile (· != '-')).reverse)

/-- The number of an invoice can be read back. -/
theorem sequencePart_formatNumber (year n : ℕ) : sequencePart (formatNumber year n) = some n := by
  have hdigits : ∀ c ∈ List.replicate (6 - (toString n).length) '0' ++ Nat.toDigits 10 n,
      c.isDigit := by
    intro c hc
    rcases List.mem_append.mp hc with hzero | hdigit
    · rw [List.eq_of_mem_replicate hzero]
      decide
    · exact isDigit_toDigits c hdigit
  have hlist : (formatNumber year n).toList = ("INV-" ++ toString year).toList ++ '-' ::
      (List.replicate (6 - (toString n).length) '0' ++ Nat.toDigits 10 n) := by
    have hnonneg : ¬((n : ℤ) < 0) := by omega
    simp [formatNumber, zeroPad, hnonneg]
  have hlast : ((formatNumber year n).toList.reverse.takeWhile (· != '-')).reverse =
      List.replicate (6 - (toString n).length) '0' ++ Nat.toDigits 10 n := by
    rw [hlist, List.reverse_append, List.reverse_cons, List.append_assoc,
      List.takeWhile_append_of_pos, List.singleton_append, List.takeWhile_cons_of_neg (by decide),
      List.append_nil, List.reverse_reverse]
    intro c hc
    have hne : c ≠ '-' := by
      rintro rfl
      exact absurd (hdigits '-' (List.mem_reverse.mp hc)) (by decide)
    simpa using hne
  rw [sequencePart, hlast, parseDigits_of_isDigit hdigits 0 false (.inr ?_),
    Nat.ofDigitChars_append, Nat.ofDigitChars_replicate_zero, Nat.mul_zero, Nat.ofDigitChars_ten_toDigits]
  exact List.append_ne_nil_of_right_ne_nil _ Nat.toDigits_ne_nil

/-! ### Sequences of calls -/

/-- The numbers of the invoices that are persisted for an org. -/
def sequenceParts (orgId : String) (db : Db) : List (Option ℕ) :=
  (db.invoices.rows.filter (·.orgId == orgId)).map fun i => sequencePart i.invoiceNumber

/-- The invoices of the org are numbered from one to as many as there are. -/
def Gapless (orgId : String) (w : World) : Prop :=
  (sequenceParts orgId w.db).Perm
    ((List.range' 1 (sequenceParts orgId w.db).length).map some)

/-- The counter has never been written, and there are no invoices. -/
def Unnumbered (orgId : String) (w : World) : Prop :=
  ((w.core.settings orgId).getD []).lookup "next_invoice_number" = none ∧
    ∀ invoice ∈ w.db.invoices.rows, invoice.orgId ≠ orgId

/-- One call after the other, each with what the environment decides at its calls. -/
def createAll (orgId : String) : List (String × InvoiceCreateRequest × Oracle Choice) → World → World
  | [], w => w
  | (userId, body, o) :: calls, w =>
    createAll orgId calls (exec Call.answer (createInvoice orgId userId body) o w).2

/-- The amounts of the body can be computed, and the discount is covered. -/
def Billable (orgId : String) (body : InvoiceCreateRequest) : Prop :=
  ∃ built totals, buildLineItems orgId body.lineItems = .ok built ∧
    computeTotals (built.map (·.amountCents)) body.taxCents body.discountCents = .ok totals

/-- The last number that the counter has given out. -/
def allocated (orgId : String) (w : World) : ℤ :=
  match ((w.core.settings orgId).getD []).lookup "next_invoice_number" with
  | some (.int n) => n
  | _ => 0

/-- Every number that was given out is that of an invoice. -/
def AllUsed (orgId : String) (w : World) : Prop :=
  allocated orgId w = (sequenceParts orgId w.db).length

/-- Once a number is given out, the call that took it goes on until the invoice is persisted: its
reply arrives, the body is billable, the writes go through, and the call is not stopped. -/
def Carried (orgId : String) (body : InvoiceCreateRequest) (c : Call) (x : Option Choice)
    (w : World) : Prop :=
  match x with
  | none => AllUsed orgId w
  | some x => match c with
    | .core (.addInvoiceNumber _) => (∃ e, x.fate = .lost e) ∨ x.fate = .ok ∧ Billable orgId body
    | .flush writes | .commit writes => x.fate = .ok ∧ ∃ db, w.db.apply x.now writes = .ok db
    | _ => True

instance decidableBillable (orgId : String) (body : InvoiceCreateRequest) :
    Decidable (Billable orgId body) :=
  match hbuilt : buildLineItems orgId body.lineItems with
  | .error e => .isFalse fun ⟨_, _, h, _⟩ => by rw [hbuilt] at h; cases h
  | .ok built =>
    match htotals : computeTotals (built.map (·.amountCents)) body.taxCents body.discountCents with
    | .error e => .isFalse fun ⟨_, _, h, h'⟩ => by
      obtain rfl := Except.ok.inj (hbuilt.symm.trans h)
      rw [htotals] at h'
      cases h'
    | .ok totals => .isTrue ⟨built, totals, hbuilt, htotals⟩

instance decidableLanding (x : Choice) (w : World) (writes : List Write) :
    Decidable (x.fate = .ok ∧ ∃ db, w.db.apply x.now writes = .ok db) :=
  match h : w.db.apply x.now writes with
  | .error e => .isFalse fun ⟨_, _, h'⟩ => nomatch h'
  | .ok db => decidable_of_iff (x.fate = .ok) (by simp)

instance decidableTaking (orgId : String) (body : InvoiceCreateRequest) (x : Choice) :
    Decidable ((∃ e, x.fate = .lost e) ∨ x.fate = .ok ∧ Billable orgId body) :=
  match h : x.fate with
  | .lost e => .isTrue (.inl ⟨e, rfl⟩)
  | .ok => decidable_of_iff (Billable orgId body) (by simp)
  | .late e => .isFalse (by simp)

instance decidableCarried (orgId : String) (body : InvoiceCreateRequest) (c : Call)
    (x : Option Choice) (w : World) : Decidable (Carried orgId body c x w) := by
  apply Option.casesOn (motive := fun x => Decidable (Carried orgId body c x w)) x
  case none =>
    exact inferInstanceAs (Decidable (allocated orgId w = (sequenceParts orgId w.db).length))
  case some =>
    intro x
    apply Call.casesOn (motive := fun c => Decidable (Carried orgId body c (some x) w)) c
    case core =>
      intro c
      apply Core.Call.casesOn (motive := fun c => Decidable (Carried orgId body (.core c) (some x) w)) c
      case addInvoiceNumber => exact fun _ => decidableTaking orgId body x
      all_goals intros; exact .isTrue trivial
    case flush => exact decidableLanding x w
    case commit => exact decidableLanding x w
    all_goals intros; exact .isTrue trivial

/-- Each call of a sequence is carried through. -/
def AllCarried (orgId : String) :
    List (String × InvoiceCreateRequest × Oracle Choice) → World → Prop
  | [], _ => True
  | (userId, body, o) :: calls, w =>
    Attended Call.answer (Carried orgId body) (createInvoice orgId userId body) o w ∧
      AllCarried orgId calls (exec Call.answer (createInvoice orgId userId body) o w).2

/-! ### One call -/

variable {orgId : String} {body : InvoiceCreateRequest}

/-- The counter is a number, and the invoices are numbered from one. -/
structure Numbered (orgId : String) (w : World) : Prop where
  counter : ((w.core.settings orgId).getD []).lookup "next_invoice_number" = none ∨
    ∃ n : ℕ, ((w.core.settings orgId).getD []).lookup "next_invoice_number" = some (.int n)
  numbers : sequenceParts orgId w.db =
    (List.range' 1 (sequenceParts orgId w.db).length).map some

theorem Numbered.gapless {w : World} (h : Numbered orgId w) : Gapless orgId w :=
  List.Perm.of_eq h.numbers

/-- The counter and the database are what they were. -/
def Same (orgId : String) (w w' : World) : Prop :=
  w'.core.settings orgId = w.core.settings orgId ∧ w'.db = w.db

theorem Same.trans {u v w : World} (h : Same orgId u v) (h' : Same orgId v w) : Same orgId u w :=
  ⟨h'.1.trans h.1, h'.2.trans h.2⟩

theorem Numbered.of_same {w w' : World} (h : Numbered orgId w) (hsame : Same orgId w w') :
    Numbered orgId w' := by
  refine ⟨?_, ?_⟩
  · rw [hsame.1]
    exact h.counter
  · rw [hsame.2]
    exact h.numbers

theorem allUsed_of_same {w w' : World} (h : AllUsed orgId w) (hsame : Same orgId w w') :
    AllUsed orgId w' := by
  rw [AllUsed, allocated] at h ⊢
  rw [hsame.1, hsame.2]
  exact h

/-- The setting of a call that is carried through. -/
def carrying (orgId : String) (body : InvoiceCreateRequest) :
    Contract Call Call.Resp PyErr Choice World where
  answer := Call.answer
  rely w w' := w = w'
  admits c x w := Carried orgId body c (some x) w
  guar _ _ w w' := Numbered orgId w → Numbered orgId w'
  rely_refl _ := rfl
  rely_trans h h' := h.trans h'

/-- A call that neither takes a number nor persists an invoice. -/
def Call.Idle : Call → Prop
  | .core (.addInvoiceNumber _) => False
  | .commit _ => False
  | _ => True

theorem same_answer {c : Call} (hc : c.Idle) (x : Choice) (w : World) :
    Same orgId w (c.answer x w).2 := by
  have hquiet : c.Quiet := by
    cases c with
    | commit => exact hc
    | _ => trivial
  refine ⟨?_, db_answer_of_quiet hquiet x w⟩
  rcases remote_answer c x w with hsame | ⟨c', rfl, hcore⟩
  · rw [hsame]
  · rw [hcore]
    rcases c'.writes_of_answer x.toChoice w.core with hsame | hwrites
    · rw [hsame]
    · generalize (c'.answer x.toChoice w.core).2 = core at hwrites ⊢
      cases hwrites with
      | settings => exact hc.elim
      | _ => rfl

/-- A stretch of a call that is idle. -/
theorem wp_idle {α : Type} {p : Prog α} (hp : p.Calls Call.Idle) {w : World}
    {Q : Except PyErr α → World → Prop} (h : ∀ r w', Same orgId w w' → Q r w') :
    (carrying orgId body).wp p w Q := by
  induction p generalizing w with
  | ret a => exact h _ w ⟨rfl, rfl⟩
  | raise e => exact h _ w ⟨rfl, rfl⟩
  | call c k ih =>
    rintro _ rfl x _
    have hsame : Same orgId w (c.answer x w).2 := same_answer hp.1 x w
    exact ⟨fun hw => hw.of_same hsame, ih _ (hp.2 _) fun r w' h' => h r w' (hsame.trans h')⟩

theorem idle_core {α : Type} {p : Core.Prog α} (hp : p.Calls Core.Call.KeepsSettings) :
    (core p).Calls Call.Idle := by
  refine Calls.embed (hp.mono fun c hc => ?_)
  cases c with
  | addInvoiceNumber => exact hc.elim
  | _ => trivial

/-- The line items are built whatever the environment decides. -/
theorem wp_addLineItems (invoiceId : String) (items : List InvoiceLineItem) (w : World)
    {Q : Except PyErr (List InvoiceLineItem) → World → Prop} (h : ∀ added, Q (.ok added) w) :
    (carrying orgId body).wp (addLineItems invoiceId items) w Q := by
  induction items generalizing Q with
  | nil => exact h []
  | cons item items ih =>
    refine wp_bind ?_
    rintro _ rfl x _
    exact ⟨id, wp_bind (ih fun added => h _)⟩

/-- The counter is one ahead of the invoices. -/
structure Taken (orgId : String) (n : ℕ) (w : World) : Prop where
  counter : ((w.core.settings orgId).getD []).lookup "next_invoice_number" =
    some (.int (n + 1 : ℕ))
  numbers : sequenceParts orgId w.db = (List.range' 1 n).map some

theorem Taken.of_same {n : ℕ} {w w' : World} (h : Taken orgId n w) (hsame : Same orgId w w') :
    Taken orgId n w' := by
  refine ⟨?_, ?_⟩
  · rw [hsame.1]
    exact h.counter
  · rw [hsame.2]
    exact h.numbers

theorem Taken.numbered {n : ℕ} {w : World} (h : Taken orgId n w) : Numbered orgId w := by
  refine ⟨.inr ⟨n + 1, h.counter⟩, ?_⟩
  rw [h.numbers, List.length_map, List.length_range']

/-- The state after the counter has been set. -/
def counted (orgId : String) (n : ℕ) (w : World) : World :=
  let item := Json.set "next_invoice_number" (.int n) ((w.core.settings orgId).getD [])
  { w with core.settings := Function.update w.core.settings orgId (some item) }

/-- The counter counts on from the number of invoices, while DynamoDB holds the numbers. -/
theorem addOne_allUsed {w : World} (hw : Numbered orgId w) (hset : AllUsed orgId w) {n : ℕ}
    (hn : (sequenceParts orgId w.db).length = n) :
    (∃ e, Core.addOne ((w.core.settings orgId).getD []) = .error e) ∨
      Core.addOne ((w.core.settings orgId).getD []) = .ok (.int (n + 1 : ℕ),
        Json.set "next_invoice_number" (.int (n + 1 : ℕ)) ((w.core.settings orgId).getD [])) := by
  rw [AllUsed, allocated, hn] at hset
  rcases hw.counter with hnone | ⟨m, hsome⟩
  · rw [hnone] at hset
    rw [Core.addOne, hnone, ← Nat.cast_inj.mp hset]
    exact .inr rfl
  · rw [hsome] at hset
    rw [Core.addOne, hsome, ← Nat.cast_inj.mp hset]
    dsimp only
    rw [Core.plusOne]
    split
    · exact .inr rfl
    · exact .inl ⟨_, rfl⟩

/-- A number is taken, or the call has no effect. -/
theorem answer_addInvoiceNumber {w : World} (hw : Numbered orgId w) (hset : AllUsed orgId w) {n : ℕ}
    (hn : (sequenceParts orgId w.db).length = n) {x : Choice}
    (hx : Carried orgId body (.core (.addInvoiceNumber orgId)) (some x) w) :
    (∃ e, (Call.core (.addInvoiceNumber orgId)).answer x w = (.error e, w)) ∨
      Billable orgId body ∧ (Call.core (.addInvoiceNumber orgId)).answer x w =
        (.ok (Json.int (n + 1 : ℕ)), counted orgId (n + 1) w) := by
  rcases addOne_allUsed hw hset hn with ⟨e, hfull⟩ | hadd
  · refine .inl ⟨x.fate.reported e, ?_⟩
    rw [Call.answer, Core.Call.answer, hfull, Except.map, Core.Fate.settle_error]
    rfl
  rcases hx with ⟨e, hlost⟩ | ⟨hok, hbillable⟩
  · have hreply : (Core.Call.addInvoiceNumber orgId).answer x.toChoice w.core =
        (.error e, w.core) := by
      rw [Core.Call.answer, hadd, hlost]
      rfl
    refine .inl ⟨e, ?_⟩
    rw [Call.answer, hreply]
    rfl
  · have hreply : (Core.Call.addInvoiceNumber orgId).answer x.toChoice w.core =
        (.ok (Json.int (n + 1 : ℕ)), (counted orgId (n + 1) w).core) := by
      rw [Core.Call.answer, hadd, hok]
      rfl
    refine .inr ⟨hbillable, ?_⟩
    rw [Call.answer, hreply]
    rfl

theorem Numbered.taken {w : World} (hw : Numbered orgId w) {n : ℕ}
    (hn : (sequenceParts orgId w.db).length = n) : Taken orgId n (counted orgId (n + 1) w) := by
  refine ⟨?_, hn ▸ hw.numbers⟩
  simp [counted, Json.lookup_set]

theorem wp_getNextInvoiceNumber {w : World} (hw : Numbered orgId w) (hset : AllUsed orgId w) :
    (carrying orgId body).wp (core (Core.getNextInvoiceNumber orgId "")) w fun r w' => match r with
      | .ok raw => Billable orgId body ∧ ∃ n : ℕ, raw = toString (n + 1) ∧ Taken orgId n w'
      | .error _ => Numbered orgId w' ∧ AllUsed orgId w' := by
  refine wp_comap (wp_bind (wp_handle (wp_perform ?_)))
  rintro _ rfl x hx
  show (_ → Numbered orgId ((Call.core (.addInvoiceNumber orgId)).answer x w).2) ∧
    caught _ _ _ (((Call.core (.addInvoiceNumber orgId)).answer x w).1.map _)
      ((Call.core (.addInvoiceNumber orgId)).answer x w).2
  rcases answer_addInvoiceNumber hw hset rfl hx with ⟨e, he⟩ | ⟨hbillable, hreply⟩
  · rw [he]
    refine ⟨id, ?_⟩
    show Contract.wp _ _ w _
    dsimp only
    split
    · exact And.intro hw hset
    · exact And.intro hw hset
  · have htaken := hw.taken rfl
    rw [hreply]
    exact ⟨fun _ => htaken.numbered, hbillable, _, rfl, htaken⟩

/-- The row of an invoice is added to those of the org. -/
theorem sequenceParts_insertInvoice (orgId : String) {now : DateTime} {invoice : Invoice}
    {items : List InvoiceLineItem} {db db' : Db} (horg : invoice.orgId = orgId)
    (h : db.apply now (.insertInvoice invoice :: items.map .insertLineItem) = .ok db') :
    sequenceParts orgId db' = sequenceParts orgId db ++ [sequencePart invoice.invoiceNumber] := by
  obtain ⟨db₁, hinsert, hitems⟩ := Db.apply_cons.mp h
  have hrows := (Write.apply_insertInvoice hinsert).1
  have hinvoices := (apply_insertLineItems hitems).2.1
  rw [sequenceParts, hinvoices, hrows, List.filter_append, List.map_append]
  simp [sequenceParts, horg]

/-- With the row of its invoice, a number is used. -/
theorem Taken.used {n : ℕ} {w : World} (h : Taken orgId n w) {db : Db}
    (hdb : sequenceParts orgId db = sequenceParts orgId w.db ++ [some (n + 1)]) :
    Numbered orgId { w with db := db } ∧ AllUsed orgId { w with db := db } := by
  have hparts : sequenceParts orgId db = (List.range' 1 (n + 1)).map some := by
    rw [hdb, h.numbers, List.range'_concat, List.map_append]
    simp [Nat.add_comm]
  have hlength : (sequenceParts orgId db).length = n + 1 := by
    rw [hparts, List.length_map, List.length_range']
  refine ⟨⟨.inr ⟨n + 1, h.counter⟩, ?_⟩, ?_⟩
  · rw [hlength]
    exact hparts
  · rw [AllUsed, allocated, h.counter, hlength]

theorem answer_flush {writes : List Write} {x : Choice} {w : World} {db : Db} (hx : x.fate = .ok)
    (hdb : w.db.apply x.now writes = .ok db) : (Call.flush writes).answer x w = (.ok (), w) := by
  rw [Call.answer, hdb, hx]
  rfl

theorem answer_commit {writes : List Write} {x : Choice} {w : World} {db : Db} (hx : x.fate = .ok)
    (hdb : w.db.apply x.now writes = .ok db) :
    (Call.commit writes).answer x w = (.ok (), { w with db := db }) := by
  rw [Call.answer, hdb, hx]
  rfl

/-- A call that is carried through uses the number that it takes. -/
theorem wp_createInvoice (body : InvoiceCreateRequest) (userId : String) {w : World} (hw : Numbered orgId w)
    (hused : AllUsed orgId w) :
    (carrying orgId body).wp (createInvoice orgId userId body) w fun _ w' =>
      Numbered orgId w' ∧ AllUsed orgId w' := by
  have hkeep : ∀ w', Same orgId w w' → Numbered orgId w' ∧ AllUsed orgId w' := fun w' h =>
    ⟨hw.of_same h, allUsed_of_same hused h⟩
  have hrole : (requireMutationRole userId orgId).Calls Call.Idle :=
    calls_requireMutationRole trivial
  have hsettings : (core (Core.getOrgSettings orgId)).Calls Call.Idle :=
    idle_core ((Core.plain_getOrgSettings orgId).mono fun _ => Core.Call.Plain.keepsSettings)
  refine wp_bind (wp_idle hrole fun r w₁ h₁ => ?_)
  cases r with
  | error e => exact hkeep w₁ h₁
  | ok membership =>
  refine wp_bind (wp_idle hsettings fun r w₂ h₂ => ?_)
  replace h₂ := h₁.trans h₂
  cases r with
  | error e => exact hkeep w₂ h₂
  | ok orgSettings =>
  obtain ⟨hw₂, hused₂⟩ := hkeep w₂ h₂
  refine wp_bind (wp_mono (fun r w₃ h₃ => ?_) (wp_getNextInvoiceNumber hw₂ hused₂))
  cases r with
  | error e => exact h₃
  | ok raw =>
  obtain ⟨⟨built, ⟨subtotal, total⟩, hbuilt, htotals⟩, n, rfl, htaken⟩ := h₃
  refine wp_bind (wp_perform ?_)
  rintro _ rfl x _
  refine ⟨id, ?_⟩
  show Contract.wp _ (Proc.bind (Proc.ofExcept (parseInt (toString (n + 1)))) _) w₃ _
  rw [parseInt_toString, hbuilt]
  show Contract.wp _ (Proc.bind (Proc.ofExcept (computeTotals _ _ _)) _) w₃ _
  rw [htotals]
  show Contract.wp _ (Proc.bind (core (Core.run .uuid4)) _) w₃ _
  refine wp_bind (wp_comap (wp_perform ?_))
  rintro _ rfl x' _
  refine ⟨id, ?_⟩
  refine wp_bind (wp_perform ?_)
  rintro _ rfl y ⟨hy, db, hdb⟩
  have hflush : (Call.flush [.insertInvoice _]).answer y w₃ = (.ok (), w₃) := answer_flush hy hdb
  show (_ → Numbered orgId ((Call.flush _).answer y w₃).2) ∧
    (carrying orgId body).next _ _ ((Call.flush _).answer y w₃).1 ((Call.flush _).answer y w₃).2
  rw [hflush]
  refine ⟨id, ?_⟩
  refine wp_bind (wp_addLineItems _ _ _ fun added => ?_)
  refine wp_bind (wp_perform ?_)
  rintro _ rfl z ⟨hz, db', hdb'⟩
  have hparts := sequenceParts_insertInvoice orgId rfl hdb'
  rw [sequencePart_formatNumber] at hparts
  obtain ⟨hw₄, hused₄⟩ := htaken.used hparts
  have hcommit := answer_commit hz hdb'
  show (_ → Numbered orgId ((Call.commit _).answer z w₃).2) ∧
    (carrying orgId body).next _ _ ((Call.commit _).answer z w₃).1 ((Call.commit _).answer z w₃).2
  rw [hcommit]
  refine ⟨fun _ => hw₄, ?_⟩
  refine wp_idle ?_ fun r w₅ h₅ => ⟨hw₄.of_same h₅, allUsed_of_same hused₄ h₅⟩
  refine (Calls.perform trivial).bind fun invoice => ?_
  refine (idle_core ?_).bind fun _ => trivial
  exact (Core.plain_logAudit _ _ _ _ _ _).mono fun _ => Core.Call.Plain.keepsSettings

/-! ### Runs of calls -/

/-- One call, stopped or not. -/
theorem numbered_createInvoice {userId : String} {o : Oracle Choice} {w : World}
    (hw : Numbered orgId w) (hused : AllUsed orgId w)
    (h : Attended Call.answer (Carried orgId body) (createInvoice orgId userId body) o w) :
    Numbered orgId (exec Call.answer (createInvoice orgId userId body) o w).2 ∧
      AllUsed orgId (exec Call.answer (createInvoice orgId userId body) o w).2 := by
  have hwp := wp_createInvoice body userId hw hused
  have halong : Along (carrying orgId body).answer (carrying orgId body).admits
    (createInvoice orgId userId body) o w := h.along
  rcases hrun : exec Call.answer (createInvoice orgId userId body) o w with ⟨_ | r, w'⟩
  · obtain ⟨c, hstop⟩ := h.stopped hrun
    have hkept := exec_invariant (fun _ _ _ _ hguar => hguar) hwp halong hw
    rw [show exec (carrying orgId body).answer _ o w = _ from hrun] at hkept
    exact ⟨hkept, hstop⟩
  · exact exec_post hwp halong hrun

theorem numbered_createAll {calls : List (String × InvoiceCreateRequest × Oracle Choice)} {w : World}
    (hw : Numbered orgId w) (hused : AllUsed orgId w) (h : AllCarried orgId calls w) :
    Numbered orgId (createAll orgId calls w) := by
  induction calls generalizing w with
  | nil => exact hw
  | cons call calls ih =>
    obtain ⟨hw', hused'⟩ := numbered_createInvoice hw hused h.1
    exact ih hw' hused' h.2

theorem Unnumbered.numbered {w : World} (h : Unnumbered orgId w) :
    Numbered orgId w ∧ AllUsed orgId w := by
  have hnone : sequenceParts orgId w.db = [] := by
    rw [sequenceParts, List.filter_eq_nil_iff.mpr, List.map_nil]
    intro invoice hinvoice
    simpa using h.2 invoice hinvoice
  refine ⟨⟨.inl h.1, ?_⟩, ?_⟩
  · rw [hnone]
    rfl
  · rw [AllUsed, allocated, h.1, hnone]
    rfl

/-- The invoices of an org are numbered without a gap after any sequence of calls each of which is
carried through once it has a number. -/
theorem gapless_createAll (orgId : String)
    (calls : List (String × InvoiceCreateRequest × Oracle Choice)) (w : World)
    (hw : Unnumbered orgId w) (h : AllCarried orgId calls w) : Gapless orgId (createAll orgId calls w) :=
  (numbered_createAll hw.numbered.1 hw.numbered.2 h).gapless

/-- No environment fails a call. -/
def smoothly (token : String) : Oracle Choice := fun _ => some (.calm token)

/-- Services and a database that hold nothing but memberships. -/
def World.initial : World := ⟨.initial, .empty⟩

theorem initial_unnumbered : Unnumbered "org" World.initial :=
  ⟨rfl, fun _ h => absurd h List.not_mem_nil⟩

theorem gapless_createAll_two : AllCarried "org" [("ada", hundredCents, smoothly "a"),
    ("ada", hundredCents, smoothly "b")] World.initial ∧
      Gapless "org" (createAll "org" [("ada", hundredCents, smoothly "a"),
        ("ada", hundredCents, smoothly "b")] World.initial) := by
  have hcarried : AllCarried "org" [("ada", hundredCents, smoothly "a"),
      ("ada", hundredCents, smoothly "b")] World.initial :=
    ⟨by decide +kernel, by decide +kernel, trivial⟩
  exact ⟨hcarried, gapless_createAll "org" _ _ initial_unnumbered hcarried⟩

/-- The discount is more than the amount. -/
def overDiscounted : InvoiceCreateRequest := { hundredCents with discountCents := 200 }

/-- A body that is rejected once it has a number leaves a gap. -/
theorem not_gapless : ¬∀ (orgId : String)
    (calls : List (String × InvoiceCreateRequest × Oracle Choice)) (w : World),
    Unnumbered orgId w → Gapless orgId (createAll orgId calls w) := by
  intro h
  have hgapless := h "org" [("ada", overDiscounted, smoothly "a"),
    ("ada", hundredCents, smoothly "b")] World.initial initial_unnumbered
  have hnumbers : sequenceParts "org" (createAll "org" [("ada", overDiscounted, smoothly "a"),
      ("ada", hundredCents, smoothly "b")] World.initial).db = [some 2] := by decide +kernel
  rw [Gapless, hnumbers] at hgapless
  exact absurd hgapless (by decide)

end A2ZCore.Invoicing
