import A2ZCore.Invoicing.Invariants
import A2ZCore.Lib.Pool

/-!
# Requests on one invoice, side by side

A request loads the invoice, computes, and commits absolute values. Two requests may load the same
row, and the second commit then writes over what the first one did. Nothing stops it: there is no
row lock and no version column.

For payments, `settled_run_iff` says when the amounts survive. The payments themselves all stay, so
the invoice owes at least what it shows; a commit that finds another amount than its request loaded
leaves it short, and every later commit keeps it short. For `void`, `void_terminal_iff` says when the
status survives: as long as no request that loaded the invoice earlier moves its status afterwards.

## Main definitions

* `Settled`, `Fresh` — the amounts agree; a payment commits over the amount it loaded
* `IsVoid`, `Resurrects` — the invoice is void; a commit changes that

## Main results

* `settled_run_iff` — any interleaving of payments
* `void_terminal_iff` — any interleaving of operations
-/

namespace A2ZCore.Invoicing

open Interaction Interaction.Proc Interaction.Contract Relational

/-! ### Payments -/

/-- The statuses of a sent invoice are the ones its amounts give. -/
structure Derived (row : Invoice) : Prop where
  payable : row.status.isPayable
  paymentStatus : row.paymentStatus = nextPaymentStatus row.amountPaidCents row.totalCents
  status : row.status = nextInvoiceStatus .sent row.paymentStatus

/-- The amount paid is the sum of the payments, and the statuses are the ones it gives. -/
def Settled (invoiceId : String) (db : Db) : Prop :=
  ∃ row, db.invoice invoiceId = some row ∧ row.amountPaidCents = db.paidCents invoiceId ∧ Derived row

/-- The amount paid is at most the sum of the payments, and the statuses are right where it is the
sum. -/
def Covered (invoiceId : String) (db : Db) : Prop :=
  ∃ row, db.invoice invoiceId = some row ∧ row.amountPaidCents ≤ db.paidCents invoiceId ∧
    (row.amountPaidCents = db.paidCents invoiceId → Derived row)

/-- A payment that takes effect finds the amount paid as its request loaded it. -/
def Fresh : Call → Choice → World → Prop
  | .commit (.updateInvoice loaded current :: writes), x, w =>
    Lands (.updateInvoice loaded current :: writes) x w →
      ∀ row, w.db.invoice loaded.id = some row → row.amountPaidCents = loaded.amountPaidCents
  | _, _, _ => True

theorem fresh_of_quiet {c : Call} (hc : c.Quiet) (x : Choice) (w : World) : Fresh c x w := by
  cases c with
  | commit writes => exact hc.elim
  | _ => trivial

section Payments

variable {invoiceId : String} {db db' : Db}

theorem settled_iff_of_covered (h : Covered invoiceId db) {row : Invoice}
    (hrow : db.invoice invoiceId = some row) : Settled invoiceId db ↔ row.amountPaidCents = db.paidCents invoiceId := by
  obtain ⟨row', hrow', _, hderived⟩ := h
  rw [hrow] at hrow'
  cases hrow'
  constructor
  · rintro ⟨row', hrow', heq, _⟩
    rw [hrow] at hrow'
    cases hrow'
    exact heq
  · intro heq
    exact ⟨row, hrow, heq, hderived heq⟩

/-- What other payments may do to the database: a payment that lands adds to the sum. -/
structure Collects (invoiceId : String) (db db' : Db) : Prop where
  paid_le : db.paidCents invoiceId ≤ db'.paidCents invoiceId
  same : db'.paidCents invoiceId = db.paidCents invoiceId → db'.invoice invoiceId = db.invoice invoiceId
  covered : Covered invoiceId db → Covered invoiceId db'

theorem Collects.refl (invoiceId : String) (db : Db) : Collects invoiceId db db := ⟨le_rfl, fun _ => rfl, fun h => h⟩

theorem Collects.trans {db₁ db₂ db₃ : Db} (h : Collects invoiceId db₁ db₂) (h' : Collects invoiceId db₂ db₃) :
    Collects invoiceId db₁ db₃ := by
  refine ⟨h.paid_le.trans h'.paid_le, fun hsame => ?_, fun hc => h'.covered (h.covered hc)⟩
  have h₁ := h.paid_le
  have h₂ := h'.paid_le
  rw [h'.same (by omega), h.same (by omega)]

/-- The setting of concurrent payments on one invoice. -/
def collecting (invoiceId : String) : Contract Call Call.Resp PyErr Choice World where
  answer := Call.answer
  rely w w' := Collects invoiceId w.db w'.db
  admits _ _ _ := True
  guar c x w w' := Collects invoiceId w.db w'.db ∧
    (Covered invoiceId w.db → (Settled invoiceId w'.db ↔ Settled invoiceId w.db ∧ Fresh c x w))
  rely_refl _ := Collects.refl _ _
  rely_trans h h' := h.trans h'

theorem collecting_of_quiet {c : Call} (hc : c.Quiet) (x : Choice) (w : World) :
    (collecting invoiceId).guar c x w (c.answer x w).2 ∧ (collecting invoiceId).rely w (c.answer x w).2 := by
  have hdb := db_answer_of_quiet hc x w
  have hrely : Collects invoiceId w.db (c.answer x w).2.db := by
    rw [hdb]
    exact Collects.refl _ _
  refine ⟨⟨hrely, fun _ => ?_⟩, hrely⟩
  rw [hdb]
  exact ⟨fun h => ⟨h, fresh_of_quiet hc x w⟩, fun h => h.1⟩

/-- What a request knows about the row it loaded, whatever the others have done since. -/
structure Seen (invoiceId : String) (loaded : Invoice) (db : Db) : Prop where
  id : loaded.id = invoiceId
  payable : loaded.status.isPayable
  le : loaded.amountPaidCents ≤ db.paidCents invoiceId
  current : loaded.amountPaidCents = db.paidCents invoiceId → db.invoice invoiceId = some loaded

theorem Seen.collects {loaded : Invoice} (h : Seen invoiceId loaded db) (hdb : Collects invoiceId db db') :
    Seen invoiceId loaded db' := by
  obtain ⟨hid, hpayable, hle, hcurrent⟩ := h
  have hpaid := hdb.paid_le
  refine ⟨hid, hpayable, hle.trans hpaid, fun heq => ?_⟩
  rw [hdb.same (by omega)]
  exact hcurrent (by omega)

theorem seen_of_loaded {orgId : String} {loaded : Invoice} (h : Loaded db orgId invoiceId loaded)
    (hstatus : loaded.status.isPayable) (hcovered : Covered invoiceId db) : Seen invoiceId loaded db := by
  obtain ⟨row, hrow, hle, _⟩ := hcovered
  have hsame : db.invoice invoiceId = some loaded := by
    rw [← h.id]
    exact db.invoice_of_mem h.mem
  rw [hsame] at hrow
  cases hrow
  exact ⟨h.id, hstatus, hle, fun _ => hsame⟩

theorem derived_withPayment {loaded : Invoice} (h : loaded.status.isPayable) (amountCents : ℤ) :
    Derived (withPayment loaded amountCents) where
  payable := by
    show (nextInvoiceStatus _ _).isPayable
    rw [isPayable_nextInvoiceStatus]
    exact h
  paymentStatus := rfl
  status := nextInvoiceStatus_of_isPayable h _

/-- A payment that lands, over whatever has become of the row it loaded. -/
theorem pay_lands (payment : InvoicePayment) {loaded : Invoice} {now : DateTime}
    (hseen : Seen invoiceId loaded db) (hpos : 0 < payment.amountCents) (hinvoice : payment.invoiceId = invoiceId)
    (happly : db.apply now [.updateInvoice loaded (withPayment loaded payment.amountCents),
      .insertPayment payment] = .ok db') (hcovered : Covered invoiceId db) :
    db.paidCents invoiceId < db'.paidCents invoiceId ∧ Covered invoiceId db' ∧
      (Settled invoiceId db' ↔ loaded.amountPaidCents = db.paidCents invoiceId) := by
  obtain ⟨row, hrow, _⟩ := hcovered
  obtain ⟨db₁, h₁, h₂⟩ := Db.apply_cons.mp happly
  obtain ⟨db₂, h₂, h₃⟩ := Db.apply_cons.mp h₂
  cases h₃
  have hupdate := Write.apply_updateInvoice h₁
  have hpayments := (Write.apply_insertPayment h₂).1
  rw [hupdate.2.2] at hpayments
  have hrows := hupdate.1
  rw [← (Write.apply_insertPayment h₂).2.1] at hrows
  have hpaid : db'.paidCents invoiceId = db.paidCents invoiceId + payment.amountCents := by
    rw [Db.paidCents, paymentsOf_append hpayments, Db.paidCents]
    simp [hinvoice]
  have hrow' : db'.invoice invoiceId =
      some (patch loaded (withPayment loaded payment.amountCents) row) := by
    have hid : row.id = (withPayment loaded payment.amountCents).id :=
      (Db.mem_of_invoice hrow).2.trans hseen.id.symm
    rw [Db.invoice_update hrows, hrow, Option.map_some, if_pos hid]
  have hamount : (patch loaded (withPayment loaded payment.amountCents) row).amountPaidCents =
      loaded.amountPaidCents + payment.amountCents := by
    show column loaded.amountPaidCents (loaded.amountPaidCents + payment.amountCents) _ = _
    exact if_neg (by omega)
  have hle := hseen.le
  have hcovered' : Covered invoiceId db' := by
    refine ⟨_, hrow', by omega, fun heq => ?_⟩
    have hcurrent := hseen.current (by omega)
    rw [hrow] at hcurrent
    cases hcurrent
    have hsame : SameInvoice (withPayment loaded payment.amountCents) loaded :=
      ⟨rfl, rfl, rfl, rfl, rfl, rfl⟩
    rw [patch_loaded hsame]
    exact derived_withPayment hseen.payable _
  refine ⟨by omega, hcovered', ?_⟩
  rw [settled_iff_of_covered hcovered' hrow', hamount, hpaid]
  omega

/-- The commit of a payment keeps the promise. -/
theorem collecting_commit {orgId userId paymentId : String} {body : RecordPaymentRequest}
    {loaded : Invoice} {x : Choice} {w : World} {writes : List Write}
    (hwrites : writes = [.updateInvoice loaded (withPayment loaded body.amountCents),
      .insertPayment (newPayment paymentId orgId invoiceId userId body)])
    (hseen : Seen invoiceId loaded w.db) (hcovered : Covered invoiceId w.db) :
    (collecting invoiceId).guar (.commit writes) x w ((Call.commit writes).answer x w).2 := by
  obtain ⟨row, hrow, hrest⟩ := hcovered
  have hcovered : Covered invoiceId w.db := ⟨row, hrow, hrest⟩
  rcases commit_cases writes x w with ⟨hlands, db', happly, hw⟩ | ⟨hlost, hw⟩
  · rw [hw]
    subst hwrites
    obtain ⟨hlt, hcovered', hsettled⟩ :=
      pay_lands (newPayment paymentId orgId invoiceId userId body) hseen body.amountCents_pos rfl
        happly hcovered
    refine ⟨⟨hlt.le, fun hsame => absurd hsame hlt.ne', fun _ => hcovered'⟩, fun _ => ?_⟩
    rw [hsettled, settled_iff_of_covered hcovered hrow]
    constructor
    · intro heq
      have hcurrent := hseen.current heq
      refine ⟨?_, fun _ row' hrow' => ?_⟩
      · rw [hrow] at hcurrent
        cases hcurrent
        exact heq
      · rw [hseen.id, hcurrent] at hrow'
        cases hrow'
        rfl
    · rintro ⟨heq, hfresh⟩
      rw [← heq]
      exact (hfresh hlands row (by rw [hseen.id, hrow])).symm
  · rw [hw]
    refine ⟨Collects.refl _ _, fun _ => ⟨fun h => ⟨h, ?_⟩, fun h => h.1⟩⟩
    subst hwrites
    exact fun hlands => absurd hlands hlost

/-- A part of a payment that commits nothing. -/
theorem collecting_bind {α β : Type} {p : Prog α} {f : α → Prog β} {w : World}
    (hp : p.Calls Call.Quiet)
    (hf : ∀ a w', Collects invoiceId w.db w'.db →
      (collecting invoiceId).wp (f a) w' fun _ _ => True) :
    (collecting invoiceId).wp (p.bind f) w fun _ _ => True :=
  wp_bind_of_calls (fun _ hc x w' _ => collecting_of_quiet hc x w') hp p.returns_true
    (fun a w' h _ => hf a w' h) fun _ _ _ => trivial

theorem collecting_quiet {α : Type} {p : Prog α} {w : World} (hp : p.Calls Call.Quiet) :
    (collecting invoiceId).wp p w fun _ _ => True :=
  wp_of_calls (fun _ hc x w' _ => collecting_of_quiet hc x w') hp p.returns_true
    (fun _ _ _ _ => trivial) fun _ _ _ => trivial

/-- The commit, after which nothing is committed any more. -/
theorem collecting_last {β : Type} {c : Call} {f : c.Resp → Prog β} {w : World}
    (hguar : ∀ w', Collects invoiceId w.db w'.db → ∀ x,
      (collecting invoiceId).guar c x w' (c.answer x w').2)
    (hf : ∀ a, (f a).Calls Call.Quiet) :
    (collecting invoiceId).wp ((run c).bind f) w fun _ _ => True := by
  refine wp_bind (wp_perform fun w' hw x _ => ⟨hguar w' hw x, ?_⟩)
  show (collecting invoiceId).next f _ (c.answer x w').1 _
  cases (c.answer x w').1 with
  | error e => trivial
  | ok a => exact collecting_quiet (hf a)

/-- Loading the invoice. -/
theorem collecting_load {orgId : String} {β : Type} {f : Invoice → Prog β} {w : World}
    (hf : ∀ (loaded : Invoice) (w' w'' : World), Collects invoiceId w.db w'.db →
      Loaded w'.db orgId invoiceId loaded → w''.db = w'.db → (collecting invoiceId).wp (f loaded) w'' fun _ _ => True) :
    (collecting invoiceId).wp ((loadInvoice orgId invoiceId).bind f) w fun _ _ => True := by
  unfold loadInvoice
  rw [bind_eq, Proc.bind_assoc]
  have hquiet : (Call.selectInvoice orgId invoiceId).Quiet := trivial
  refine wp_bind (wp_perform fun w' hw x _ => ⟨(collecting_of_quiet hquiet x w').1, ?_⟩)
  show (collecting invoiceId).next _ _ ((Call.selectInvoice orgId invoiceId).answer x w').1 _
  cases hr : ((Call.selectInvoice orgId invoiceId).answer x w').1 with
  | error e => trivial
  | ok found =>
    cases found with
    | none => trivial
    | some loaded =>
      exact hf loaded w' _ hw (loaded_of_answer hr rfl) (db_answer_of_quiet hquiet x w')

/-- A payment among payments. -/
theorem wp_pay (orgId userId : String) (body : RecordPaymentRequest) {w : World}
    (hcovered : Covered invoiceId w.db) :
    (collecting invoiceId).wp (Op.pay orgId invoiceId userId body).prog w fun _ _ => True := by
  have hmain : (collecting invoiceId).wp (recordPayment orgId invoiceId userId body) w
      fun _ _ => True := ?_
  · exact wp_bind (wp_mono (fun r _ _ => by cases r <;> trivial) hmain)
  refine collecting_bind (calls_quiet_requireMutationRole _ _) fun _ w₁ h₁ => ?_
  refine collecting_load fun loaded w₂ w₃ h₂ hloaded h₃ => ?_
  have hcovered₂ := h₂.covered (h₁.covered hcovered)
  by_cases hstatus : loaded.status.isPayable
  case neg =>
    rw [assertCanRecordPayment, if_pos hstatus]
    trivial
  rw [assertCanRecordPayment, if_neg (not_not.mpr hstatus)]
  have hseen := seen_of_loaded hloaded hstatus hcovered₂
  rw [← h₃] at hseen hcovered₂
  refine collecting_bind (p := findReplayed _ _) (calls_quiet_findReplayed _ _) fun replayed w₄ h₄ => ?_
  cases replayed with
  | some existing => trivial
  | none =>
    refine collecting_bind (calls_quiet_core _) fun id w₅ h₅ => ?_
    refine collecting_last (fun w₆ h₆ x => ?_) fun _ => ?_
    · exact collecting_commit rfl (((hseen.collects h₄).collects h₅).collects h₆)
        (h₆.covered (h₅.covered (h₄.covered hcovered₂)))
    · exact (Calls.perform trivial).bind fun _ => (Calls.perform trivial).bind fun _ =>
        (calls_quiet_core _).bind fun _ => trivial

theorem covered_of_settled {db : Db} (h : Settled invoiceId db) : Covered invoiceId db := by
  obtain ⟨row, hrow, heq, hderived⟩ := h
  exact ⟨row, hrow, heq.le, fun _ => hderived⟩

/-- A sent invoice of a reachable state is settled. -/
theorem settled_of_reachable {db : Db} (h : Reachable db) {i : Invoice} (hi : i ∈ db.invoices.rows)
    (hstatus : i.status.isPayable) : Settled i.id db := by
  have hb := (sound_of_reachable h).balanced i hi
  exact ⟨i, db.invoice_of_mem hi, hb.amountPaid, hstatus, hb.paymentStatus, hb.status hstatus⟩

end Payments

/-- A request to record a payment: who records it, and what. -/
abbrev PaymentRequest := String × RecordPaymentRequest

/-- Requests to record payments on one invoice, none of which has begun. -/
def payments (orgId invoiceId : String) (requests : List PaymentRequest) (w : World) :
    Pool Call Call.Resp PyErr Unit World where
  procs := requests.map fun r => (Op.pay orgId invoiceId r.1 r.2).prog
  world := w

/-- **Concurrent payments.** On a sent invoice of a reachable state, any number of payments in any
interleaving leave the amounts and the statuses right exactly when each payment that takes effect
finds the amount that its request loaded. -/
theorem settled_run_iff {w : World} (h : Reachable w.db) {i : Invoice}
    (hi : i ∈ w.db.invoices.rows) (hstatus : i.status.isPayable) (orgId : String)
    (requests : List PaymentRequest) (schedule : List (ℕ × Choice)) :
    Settled i.id ((payments orgId i.id requests w).run Call.answer schedule).world.db ↔
      Pool.Along Call.answer Fresh (payments orgId i.id requests w) schedule := by
  have hsettled := settled_of_reachable h hi hstatus
  have hprocs : ∀ p ∈ (payments orgId i.id requests w).procs,
      (collecting i.id).wp p w fun _ _ => True := by
    intro p hp
    obtain ⟨r, _, rfl⟩ := List.mem_map.mp hp
    exact wp_pay orgId r.1 r.2 (covered_of_settled hsettled)
  obtain ⟨hguar, _⟩ := Pool.run_wp (K := collecting i.id) (fun _ _ _ _ hg => hg.1) (fun _ _ _ _ _ => trivial) hprocs
    (Pool.along_true schedule _)
  have hcovered : Pool.Along Call.answer (fun _ _ w => Covered i.id w.db)
      (payments orgId i.id requests w) schedule :=
    Pool.along_invariant (J := fun w : World => Covered i.id w.db)
      (hguar.mono fun c x w hg => hg.1.covered) (covered_of_settled hsettled)
  have hstep := (hguar.and hcovered).mono fun c x w hg => hg.1.2 hg.2
  exact (Pool.run_iff (J := fun w : World => Settled i.id w.db) hstep).trans
    (and_iff_right hsettled)

/-- Two payments of 40 cents on the invoice over 100 cents. -/
def twoPayments : Pool Call Call.Resp PyErr Unit World :=
  payments "org" "c4" [("ada", payment 40 none forty_pos), ("bob", payment 40 none forty_pos)]
    ⟨.initial, sentDb⟩

/-- Both load the invoice before either commits. -/
def bothLoad : List (ℕ × Choice) :=
  calmly [0, 0, 1, 1, 0, 0, 0, 0, 0, 0, 0, 1, 1, 1, 1, 1, 1, 1]

set_option maxRecDepth 20000 in
theorem twoPayments_bothLoad :
    (twoPayments.run Call.answer bothLoad).isFinished ∧
      ((twoPayments.run Call.answer bothLoad).world.db.invoice "c4").map (·.amountPaidCents) =
        some 40 ∧
      (twoPayments.run Call.answer bothLoad).world.db.paidCents "c4" = 80 := by
  decide

theorem not_settled_bothLoad :
    ¬Settled "c4" (twoPayments.run Call.answer bothLoad).world.db := by
  obtain ⟨_, hamount, hpaid⟩ := twoPayments_bothLoad
  rintro ⟨row, hrow, heq, _⟩
  rw [hrow, Option.map_some, Option.some.injEq] at hamount
  omega

/-- One of the two commits is not fresh. -/
theorem not_fresh_bothLoad : ¬Pool.Along Call.answer Fresh twoPayments bothLoad := fun h =>
  not_settled_bothLoad <|
    (settled_run_iff (w := ⟨.initial, sentDb⟩) ⟨_, rfl⟩ sentInvoice_mem rfl "org" _ bothLoad).mpr h

/-- Concurrent payments can leave a sent invoice unsettled. -/
theorem not_settled_of_finished :
    ¬∀ (w : World), Reachable w.db → ∀ i ∈ w.db.invoices.rows, i.status.isPayable →
      ∀ (orgId : String) (requests : List PaymentRequest) (schedule : List (ℕ × Choice)),
        ((payments orgId i.id requests w).run Call.answer schedule).Finished →
          Settled i.id ((payments orgId i.id requests w).run Call.answer schedule).world.db := by
  intro h
  obtain ⟨hfinished, _⟩ := twoPayments_bothLoad
  exact not_settled_bothLoad (h ⟨.initial, sentDb⟩ ⟨_, rfl⟩ sentInvoice sentInvoice_mem rfl "org" _
    bothLoad (Pool.finished_of_isFinished hfinished))

/-! ### Void -/

/-- The committed status of an invoice. -/
def Db.statusOf (db : Db) (id : String) : Option InvoiceStatus := (db.invoice id).map (·.status)

/-- The commit overwrites the status of a void invoice: it takes effect on it, it comes from a
request that loaded the invoice before it was void, and it writes another status. -/
def Resurrects (id : String) (c : Call) (x : Choice) (w : World) : Prop :=
  ∃ loaded current writes, c = .commit (.updateInvoice loaded current :: writes) ∧
    current.id = id ∧ w.db.statusOf id = some .void ∧ loaded.status ≠ .void ∧
    Lands (.updateInvoice loaded current :: writes) x w ∧
    current.status ≠ loaded.status ∧ current.status ≠ .void

/-- The write leaves the invoices alone. -/
def Write.Beside : Write → Prop
  | .insertInvoice _ => False
  | .updateInvoice _ _ => False
  | _ => True

/-- What a commit of the service does to the invoices: one new row, or an update of one row, which
keeps the status of a void one. -/
def Disciplined : Call → Prop
  | .commit (.insertInvoice _ :: writes) => ∀ t ∈ writes, t.Beside
  | .commit (.updateInvoice loaded current :: writes) =>
    (loaded.status = .void → current.status = .void) ∧ ∀ t ∈ writes, t.Beside
  | .commit _ => False
  | _ => True

theorem disciplined_of_quiet {c : Call} (hc : c.Quiet) : Disciplined c := by
  cases c with
  | commit writes => exact hc.elim
  | _ => trivial

theorem calls_quiet_loadInvoice (orgId invoiceId : String) :
    (loadInvoice orgId invoiceId).Calls Call.Quiet := by
  refine (Calls.perform trivial).bind fun found => ?_
  cases found <;> trivial

theorem beside_editLineItems (orgId invoiceId : String) (update : Write)
    (body : InvoiceUpdateRequest) (old : List InvoiceLineItem) :
    (editLineItems orgId invoiceId update body old).Returns fun r => ∀ t ∈ r.2, t.Beside := by
  unfold editLineItems
  cases body.lineItems with
  | none => exact fun t ht => absurd ht List.not_mem_nil
  | some new =>
    refine (Proc.returns_true _).bind fun _ _ => (Proc.returns_true _).bind fun built _ => ?_
    refine (Proc.returns_true _).bind fun added _ => (Proc.returns_true _).bind fun _ _ => ?_
    intro t ht
    rcases List.mem_append.mp ht with ht | ht <;> obtain ⟨_, _, rfl⟩ := List.mem_map.mp ht <;> trivial

/-- Every operation is disciplined: it checks that the invoice it loaded is not void, or keeps its
status. -/
theorem disciplined_prog (op : Op) : op.prog.Calls Disciplined := by
  have hquiet : ∀ {α : Type} {p : Prog α}, p.Calls Call.Quiet → p.Calls Disciplined :=
    fun hp => hp.mono fun _ => disciplined_of_quiet
  cases op with
  | create orgId userId body =>
    refine Calls.bind ?_ fun _ => trivial
    refine (hquiet (calls_quiet_requireMutationRole _ _)).bind fun _ => ?_
    refine (hquiet (calls_quiet_core _)).bind fun orgSettings => ?_
    refine (hquiet (calls_quiet_core _)).bind fun rawNumber => ?_
    refine (Calls.perform trivial).bind fun today => ?_
    refine (Calls.ofExcept _).bind fun number => (Calls.ofExcept _).bind fun built => ?_
    refine (Calls.ofExcept _).bind fun totals => ?_
    refine (hquiet (calls_quiet_core _)).bind fun id => ?_
    refine (Calls.perform trivial).bind fun _ => ?_
    refine (hquiet (calls_quiet_addLineItems _ _)).bind fun items => ?_
    refine (Calls.perform fun t ht => ?_).bind fun _ => ?_
    · obtain ⟨_, _, rfl⟩ := List.mem_map.mp ht
      trivial
    · exact hquiet ((Calls.perform trivial).bind fun _ => (calls_quiet_core _).bind fun _ => trivial)
  | update orgId invoiceId userId body =>
    refine Calls.bind ?_ fun _ => trivial
    refine (hquiet (calls_quiet_requireMutationRole _ _)).bind fun _ => ?_
    refine (hquiet (calls_quiet_loadInvoice _ _)).bind fun loaded => ?_
    refine Calls.ofExcept_bind fun _ hcan => ?_
    have hstatus : loaded.status ≠ .void := by
      intro hs
      rw [assertCanEdit, if_pos hs] at hcan
      cases hcan
    refine (Calls.perform trivial).bind fun _ => (Calls.perform trivial).bind fun old => ?_
    refine (hquiet (calls_quiet_editLineItems _ _ _ _ _)).bind_of_returns
      (beside_editLineItems _ _ _ _ _) fun edited hbeside => ?_
    refine (Calls.ofExcept _).bind fun current => ?_
    refine (Calls.perform ⟨fun hs => absurd hs hstatus, hbeside⟩).bind fun _ => ?_
    exact hquiet ((Calls.perform trivial).bind fun _ =>
      (calls_quiet_auditChanges _ _ _ _).bind fun _ => trivial)
  | softDelete orgId invoiceId userId =>
    refine (hquiet (calls_quiet_requireMutationRole _ _)).bind fun _ => ?_
    refine (hquiet (calls_quiet_loadInvoice _ _)).bind fun loaded => ?_
    refine (Calls.perform ⟨id, by simp⟩).bind fun _ => ?_
    exact hquiet ((calls_quiet_core _).bind fun _ => trivial)
  | send orgId invoiceId userId recipientEmail =>
    refine Calls.bind ?_ fun _ => trivial
    refine (hquiet (calls_quiet_requireMutationRole _ _)).bind fun _ => ?_
    refine (hquiet (calls_quiet_loadInvoice _ _)).bind fun loaded => ?_
    refine Calls.ofExcept_bind fun _ hcan => ?_
    have hstatus : loaded.status ≠ .void := by
      intro hs
      rw [assertCanSend, if_pos (by rw [hs]; decide)] at hcan
      cases hcan
    refine (Calls.perform trivial).bind fun items => ?_
    refine (hquiet (calls_quiet_core _)).bind fun orgSettings => ?_
    refine (Calls.perform trivial).bind fun pdfBytes => ?_
    refine (hquiet (calls_quiet_core _)).bind fun stored => ?_
    refine (hquiet (calls_quiet_core _)).bind fun emailResult => ?_
    refine (Calls.perform ⟨fun hs => absurd hs hstatus, by simp⟩).bind fun _ => ?_
    exact hquiet ((Calls.perform trivial).bind fun _ => (calls_quiet_core _).bind fun _ => trivial)
  | pay orgId invoiceId userId body =>
    refine Calls.bind ?_ fun _ => trivial
    refine (hquiet (calls_quiet_requireMutationRole _ _)).bind fun _ => ?_
    refine (hquiet (calls_quiet_loadInvoice _ _)).bind fun loaded => ?_
    refine Calls.ofExcept_bind fun _ hcan => ?_
    have hstatus : loaded.status ≠ .void := by
      intro hs
      rw [assertCanRecordPayment, if_pos (by rw [hs]; decide)] at hcan
      cases hcan
    refine (hquiet (calls_quiet_findReplayed _ _)).bind fun replayed => ?_
    cases replayed with
    | some existing => trivial
    | none =>
      refine (hquiet (calls_quiet_core _)).bind fun id => ?_
      refine (Calls.perform ⟨fun hs => absurd hs hstatus, by simp [Write.Beside]⟩).bind fun _ => ?_
      exact hquiet ((Calls.perform trivial).bind fun _ => (Calls.perform trivial).bind fun _ =>
        (calls_quiet_core _).bind fun _ => trivial)
  | void orgId invoiceId userId reason =>
    refine Calls.bind ?_ fun _ => trivial
    refine (hquiet (calls_quiet_requireMutationRole _ _)).bind fun _ => ?_
    refine (hquiet (calls_quiet_loadInvoice _ _)).bind fun loaded => (Calls.ofExcept _).bind fun _ => ?_
    refine (Calls.perform ⟨fun _ => rfl, by simp⟩).bind fun _ => ?_
    exact hquiet ((Calls.perform trivial).bind fun _ => (calls_quiet_core _).bind fun _ => trivial)

/-- Writes beside the invoices leave them as they were. -/
theorem invoices_of_beside {writes : List Write} (hbeside : ∀ t ∈ writes, t.Beside)
    {now : DateTime} {db db' : Db} (h : db.apply now writes = .ok db') :
    db'.invoices = db.invoices := by
  induction writes generalizing db with
  | nil => cases h; rfl
  | cons t writes ih =>
    obtain ⟨db₁, h₁, h₂⟩ := Db.apply_cons.mp h
    obtain ⟨ht, hrest⟩ := List.forall_mem_cons.mp hbeside
    rw [ih hrest h₂]
    cases t with
    | insertInvoice invoice => exact ht.elim
    | updateInvoice loaded current => exact ht.elim
    | deleteLineItem id => cases h₁; rfl
    | insertLineItem item => obtain ⟨_, _, rfl⟩ := map_eq_ok h₁; rfl
    | insertPayment payment => obtain ⟨_, _, rfl⟩ := map_eq_ok h₁; rfl

/-- The status an update leaves, over the one that is committed. -/
theorem statusOf_update {id : String} {loaded current : Invoice} {writes : List Write}
    (hbeside : ∀ t ∈ writes, t.Beside) {now : DateTime} {db db' : Db}
    (h : db.apply now (.updateInvoice loaded current :: writes) = .ok db') :
    db'.statusOf id = (db.statusOf id).map fun s =>
      if id = current.id then column loaded.status current.status s else s := by
  obtain ⟨db₁, h₁, h₂⟩ := Db.apply_cons.mp h
  have hrows := (Write.apply_updateInvoice h₁).1
  rw [← invoices_of_beside hbeside h₂] at hrows
  rw [Db.statusOf, Db.invoice_update hrows, Db.statusOf]
  cases hrow : db.invoice id with
  | none => rfl
  | some row =>
    have hid : row.id = id := (Db.mem_of_invoice hrow).2
    rw [Option.map_some, Option.map_some, Option.map_some, Option.map_some, hid]
    split <;> rfl

/-- A commit that adds an invoice leaves the others. -/
theorem statusOf_insert {id : String} {invoice : Invoice} {writes : List Write}
    (hbeside : ∀ t ∈ writes, t.Beside) {now : DateTime} {db db' : Db}
    (h : db.apply now (.insertInvoice invoice :: writes) = .ok db')
    (hvoid : db.statusOf id = some .void) : db'.statusOf id = some .void := by
  obtain ⟨db₁, h₁, h₂⟩ := Db.apply_cons.mp h
  have hrows := (Write.apply_insertInvoice h₁).1
  rw [← invoices_of_beside hbeside h₂] at hrows
  rw [Db.statusOf, Db.invoice, hrows, List.find?_append]
  rw [Db.statusOf, Db.invoice] at hvoid
  cases hfind : db.invoices.rows.find? fun i => i.id == id with
  | none => rw [hfind] at hvoid; cases hvoid
  | some row => rw [hfind] at hvoid; exact hvoid

/-- An update leaves a void invoice void unless it writes another status. -/
theorem column_void_iff {loaded current : InvoiceStatus} (h : loaded = .void → current = .void) :
    column loaded current .void = .void ↔
      ¬(loaded ≠ .void ∧ current ≠ loaded ∧ current ≠ .void) := by
  unfold column
  split
  · next heq => simp [heq]
  · next hne =>
    refine ⟨fun hcurrent hnot => hnot.2.2 hcurrent, fun hnot => ?_⟩
    by_contra hcurrent
    exact hnot ⟨fun hl => hcurrent (h hl), hne, hcurrent⟩

/-- One call: a void invoice stays void unless the call resurrects it. -/
theorem void_step_iff (id : String) {c : Call} (hc : Disciplined c) (x : Choice) (w : World) :
    (w.db.statusOf id = some .void → (c.answer x w).2.db.statusOf id = some .void) ↔
      ¬Resurrects id c x w := by
  by_cases hquiet : c.Quiet
  · rw [db_answer_of_quiet hquiet]
    refine iff_of_true (fun h => h) ?_
    rintro ⟨loaded, current, writes, rfl, _⟩
    exact hquiet
  obtain ⟨writes, rfl⟩ : ∃ writes, c = .commit writes := by
    cases c with
    | commit writes => exact ⟨writes, rfl⟩
    | _ => exact absurd trivial hquiet
  rcases commit_cases writes x w with ⟨hlands, db', happly, hw⟩ | ⟨hlost, hw⟩
  case inr =>
    rw [hw]
    refine iff_of_true (fun h => h) ?_
    rintro ⟨loaded, current, writes', heq, _, _, _, hlands, _⟩
    cases heq
    exact hlost hlands
  rw [hw]
  match writes, hc with
  | .insertInvoice invoice :: writes, hbeside =>
    refine iff_of_true (statusOf_insert hbeside happly) ?_
    rintro ⟨loaded, current, writes', heq, _⟩
    cases heq
  | .updateInvoice loaded current :: writes, ⟨hkeeps, hbeside⟩ =>
    rw [statusOf_update hbeside happly]
    constructor
    · rintro h ⟨loaded', current', writes', heq, hid, hvoid, hloaded, _, hne, hnot⟩
      cases heq
      have hafter := h hvoid
      rw [hvoid, Option.map_some, if_pos hid.symm, Option.some.injEq, column_void_iff hkeeps] at hafter
      exact hafter ⟨hloaded, hne, hnot⟩
    · intro hnot hvoid
      rw [hvoid, Option.map_some]
      split
      · next hid =>
        rw [Option.some.injEq, column_void_iff hkeeps]
        rintro ⟨hloaded, hne, hcurrent⟩
        exact hnot ⟨loaded, current, writes, rfl, hid.symm, hvoid, hloaded, hlands, hne, hcurrent⟩
      · rfl

/-- Operations on any invoices, none of which has begun. -/
def operations (ops : List Op) (w : World) : Pool Call Call.Resp PyErr Unit World where
  procs := ops.map Op.prog
  world := w

/-- **Void is terminal unless a commit resurrects the invoice.** In any interleaving of any
operations, an invoice that is void stays void exactly when no commit that takes effect comes from a
request that loaded the invoice before and moves its status. -/
theorem void_terminal_iff (ops : List Op) (w : World) (schedule : List (ℕ × Choice)) (id : String) :
    (∀ n m, n ≤ m →
        ((operations ops w).run Call.answer (schedule.take n)).world.db.statusOf id = some .void →
        ((operations ops w).run Call.answer (schedule.take m)).world.db.statusOf id = some .void) ↔
      Pool.Along Call.answer (fun c x w => ¬Resurrects id c x w) (operations ops w) schedule := by
  have hcalls : ∀ p ∈ (operations ops w).procs, p.Calls Disciplined := by
    intro p hp
    obtain ⟨op, _, rfl⟩ := List.mem_map.mp hp
    exact disciplined_prog op
  rw [Pool.stable_iff_along (J := fun w : World => w.db.statusOf id = some .void)]
  exact Pool.Along.congr (fun c x w hc => void_step_iff id hc x w) (Pool.along_of_calls hcalls)

/-- The invoice over 100 cents, created. -/
def draftDb : Db := runAll Db.empty (createSendPay.take 1)

/-- One request sends the invoice, another voids it. -/
def sendAndVoid : List Op :=
  [.send "org" "c4" "ada" "ada@example.com", .void "org" "c4" "bob" "mistake"]

/-- The send loads the invoice, the void runs to its end, then the send goes on. -/
def voidInBetween : List (ℕ × Choice) :=
  calmly ([0, 0] ++ List.replicate 8 1 ++ List.replicate 40 0)

/-- The committed status after the first `n` calls. -/
def statusAfter (n : ℕ) : Option InvoiceStatus :=
  ((operations sendAndVoid ⟨.initial, draftDb⟩).run Call.answer
    (voidInBetween.take n)).world.db.statusOf "c4"

set_option maxRecDepth 20000 in
theorem statusAfter_void_sent : statusAfter 10 = some .void ∧ statusAfter 50 = some .sent := by
  decide

/-- A void invoice does get another status. -/
theorem not_void_terminal :
    ¬∀ (ops : List Op) (w : World) (schedule : List (ℕ × Choice)) (id : String) (n m : ℕ), n ≤ m →
      ((operations ops w).run Call.answer (schedule.take n)).world.db.statusOf id = some .void →
      ((operations ops w).run Call.answer (schedule.take m)).world.db.statusOf id = some .void := by
  intro h
  obtain ⟨hvoid, hsent⟩ := statusAfter_void_sent
  have hstill : statusAfter 50 = some .void := h _ _ voidInBetween "c4" 10 50 (by decide) hvoid
  rw [hsent] at hstill
  cases hstill

end A2ZCore.Invoicing
