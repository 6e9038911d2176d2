import A2ZCore.Invoicing.Commits
import A2ZCore.Invoicing.LineAmounts
import Mathlib

/-!
# Line items as they are stored

The amount of a line item is computed from the quantity of the request. The column keeps three places
of that quantity. `0.0004` at 1000 cents is stored as no quantity at all; `1.0005` at 10000 cents has
the amount 10005, and is stored as `1.001`, which comes to 10010.

`storedItems_iff` says of which items of a request the stored row still is what it says: the quantity
is not rounded away, and no half cent lies between the product that was rounded to the amount and the
product with the stored quantity.

## Main definitions

* `SelfConsistent` — the row's amount is the one of its quantity and price, and the quantity is
  positive
* `SameSide` — the condition on an item of a request

## Main results

* `le_atScale_iff` — rounding to a column's scale, by the halves below a value
* `storedItems_iff` — what a mutation stores, and which of it is consistent
-/

namespace A2ZCore.Invoicing

open Interaction Interaction.Proc

/-! ### Values -/

/-- The number a `Decimal` stands for. -/
def Decimal.value (d : Decimal) : ℚ := d.coeff * 10 ^ d.exp

/-- Rounding half up reaches `k` from the half below it. -/
theorem le_roundHalfUp_iff {n d : ℕ} (hd : 0 < d) (k : ℕ) :
    k ≤ roundHalfUp n d ↔ 2 * (k * d) ≤ 2 * n + d := by
  have hsplit : n = d * (n / d) + n % d := (Nat.div_add_mod n d).symm
  have hmod : n % d < d := Nat.mod_lt n hd
  unfold roundHalfUp
  generalize n / d = q at hsplit
  generalize n % d = r at hsplit hmod
  subst hsplit
  rcases Nat.lt_or_ge q k with hlt | hge
  · obtain ⟨j, rfl⟩ : ∃ j, k = q + 1 + j := ⟨k - (q + 1), by omega⟩
    have hexpand : (q + 1 + j) * d = d * q + d + d * j := by ring
    rw [hexpand]
    rcases Nat.eq_zero_or_pos j with rfl | hj
    · split <;> omega
    · have : d ≤ d * j := Nat.le_mul_of_pos_right d hj
      split <;> omega
  · have : k * d ≤ d * q := by rw [mul_comm]; exact Nat.mul_le_mul_left d hge
    split <;> omega

/-- A column with `scale` places holds `k` units or more from the half below it. -/
theorem le_atScale_iff (d : Decimal) (scale k : ℕ) :
    k ≤ d.atScale scale ↔ (k : ℚ) - 1 / 2 ≤ d.value * 10 ^ scale := by
  have hvalue : d.value * 10 ^ scale = d.coeff * (10 : ℚ) ^ (d.exp + scale) := by
    rw [Decimal.value, mul_assoc, zpow_add₀ (by norm_num), zpow_natCast]
  rw [hvalue]
  unfold Decimal.atScale
  by_cases hexp : 0 ≤ d.exp + scale
  · obtain ⟨m, hm⟩ := Int.eq_ofNat_of_zero_le hexp
    rw [if_pos hexp, hm, Int.toNat_natCast, zpow_natCast]
    have hcast : (d.coeff : ℚ) * 10 ^ m = ((d.coeff * 10 ^ m : ℕ) : ℚ) := by push_cast; ring
    rw [hcast]
    generalize d.coeff * 10 ^ m = n
    constructor
    · intro h
      have : (k : ℚ) ≤ n := by exact_mod_cast h
      linarith
    · intro h
      by_contra hlt
      have : (n : ℚ) + 1 ≤ k := by exact_mod_cast (not_le.mp hlt)
      linarith
  · obtain ⟨m, hm⟩ : ∃ m : ℕ, d.exp + scale = -(m : ℤ) := ⟨(-(d.exp + scale)).toNat, by omega⟩
    rw [if_neg hexp, hm, neg_neg, Int.toNat_natCast, zpow_neg, zpow_natCast,
      le_roundHalfUp_iff (by positivity)]
    have hpos : (0 : ℚ) < 10 ^ m := by positivity
    have hcast : 2 * (k * 10 ^ m) ≤ 2 * d.coeff + 10 ^ m ↔
        2 * ((k : ℚ) * 10 ^ m) ≤ 2 * d.coeff + 10 ^ m := by exact_mod_cast Iff.rfl
    rw [hcast, ← div_eq_mul_inv, le_div_iff₀ hpos]
    constructor
    · intro h
      linarith
    · intro h
      linarith

/-- Two columns hold the same when they reach the same units. -/
theorem atScale_eq_iff (d d' : Decimal) :
    d.atScale 0 = d'.atScale 0 ↔
      ∀ n : ℕ, (n : ℚ) + 1 / 2 ≤ d.value ↔ (n : ℚ) + 1 / 2 ≤ d'.value := by
  have hunit : ∀ (d : Decimal) (n : ℕ), n + 1 ≤ d.atScale 0 ↔ (n : ℚ) + 1 / 2 ≤ d.value := by
    intro d n
    rw [le_atScale_iff, pow_zero, mul_one]
    push_cast
    constructor <;> intro h <;> linarith
  simp only [← hunit]
  constructor
  · intro h n
    rw [h]
  · intro h
    rcases lt_trichotomy (d.atScale 0) (d'.atScale 0) with hlt | heq | hgt
    · exact absurd ((h (d.atScale 0)).mpr hlt) (by omega)
    · exact heq
    · exact absurd ((h (d'.atScale 0)).mp hgt) (by omega)

/-! ### The product to 28 digits -/

/-- A number in the default context. -/
def to28Digits (d : Decimal) : Decimal :=
  ⟨roundHalfEven d.coeff (10 ^ (digits d.coeff - 28)), d.exp + (digits d.coeff - 28 : ℕ)⟩

theorem twiceRounded_eq (d : Decimal) : twiceRounded d = (to28Digits d).atScale 0 := rfl

theorem to28Digits_of_lt {d : Decimal} (h : d.coeff < 10 ^ 28) : to28Digits d = d := by
  have hdigits : digits d.coeff - 28 = 0 := by
    have := (digits_le_iff (n := d.coeff) (by omega)).mpr h
    omega
  simp [to28Digits, hdigits]

/-- At least half of a number is kept. -/
theorem value_le_to28Digits (d : Decimal) : d.value ≤ 2 * (to28Digits d).value := by
  have hkeep : d.coeff ≤
      2 * (roundHalfEven d.coeff (10 ^ (digits d.coeff - 28)) * 10 ^ (digits d.coeff - 28)) := by
    have hfew := le_of_excess (n := d.coeff)
    generalize digits d.coeff - 28 = excess at hfew
    rcases Nat.eq_zero_or_pos excess with rfl | hpos
    · simp
      omega
    · have hlarge := hfew hpos
      have hunit : 0 < 10 ^ excess := by positivity
      have hsplit := Nat.div_add_mod d.coeff (10 ^ excess)
      have hmod := Nat.mod_lt d.coeff hunit
      have hone : 1 ≤ d.coeff / 10 ^ excess := by
        rw [Nat.le_div_iff_mul_le hunit]
        omega
      have hround : d.coeff / 10 ^ excess ≤ roundHalfEven d.coeff (10 ^ excess) := by
        unfold roundHalfEven
        split <;> omega
      have hmul : 10 ^ excess ≤ 10 ^ excess * (d.coeff / 10 ^ excess) :=
        Nat.le_mul_of_pos_right _ hone
      have hmul' : 10 ^ excess * (d.coeff / 10 ^ excess) ≤
          roundHalfEven d.coeff (10 ^ excess) * 10 ^ excess := by
        rw [mul_comm]
        exact Nat.mul_le_mul_right _ hround
      omega
  have hcast : (d.coeff : ℚ) ≤ 2 * ((roundHalfEven d.coeff (10 ^ (digits d.coeff - 28)) : ℕ) *
      10 ^ (digits d.coeff - 28)) := by exact_mod_cast hkeep
  have hpow : (0 : ℚ) ≤ 10 ^ d.exp := by positivity
  calc d.value = d.coeff * 10 ^ d.exp := rfl
    _ ≤ 2 * ((roundHalfEven d.coeff (10 ^ (digits d.coeff - 28)) : ℕ) *
          10 ^ (digits d.coeff - 28)) * 10 ^ d.exp := mul_le_mul_of_nonneg_right hcast hpow
    _ = 2 * (to28Digits d).value := by
      rw [Decimal.value, to28Digits, zpow_add₀ (by norm_num), zpow_natCast]
      ring

theorem value_product (quantity : Decimal) (unitPriceCents : ℕ) :
    (product quantity unitPriceCents).value = quantity.value * unitPriceCents := by
  unfold product Decimal.value
  push_cast
  ring

/-! ### One item -/

/-- The row's amount is the one of its quantity and its price, and the quantity is positive. -/
def SelfConsistent (row : InvoiceLineItem) : Prop :=
  computeLineAmountCents row.quantity row.unitPriceCents.toNat = .ok row.amountCents ∧
    0 < row.quantity.coeff

instance : DecidablePred SelfConsistent := fun row => by unfold SelfConsistent; infer_instance

/-- A quantity to three places. -/
def toThreePlaces (quantity : Decimal) : Decimal := ⟨quantity.atScale 3, -3⟩

/-- The quantity is not rounded away, and no half cent lies between the product, in the default
context, and the product with the quantity to three places. -/
structure SameSide (item : LineItemCreate) : Prop where
  kept : 1 / 2000 ≤ item.quantity.value
  same : ∀ n : ℕ, (n : ℚ) + 1 / 2 ≤ (to28Digits (product item.quantity item.unitPriceCents)).value ↔
    (n : ℚ) + 1 / 2 ≤ (toThreePlaces item.quantity).value * item.unitPriceCents

theorem kept_iff (quantity : Decimal) :
    1 / 2000 ≤ quantity.value ↔ 0 < quantity.atScale 3 := by
  have hone := le_atScale_iff quantity 3 1
  rw [Nat.succ_le_iff] at hone
  rw [hone]
  push_cast
  constructor <;> intro h <;> linarith

/-- The product with the stored quantity is exact, where the amount fits its column. -/
theorem stored_product_lt {quantity : Decimal} {unitPriceCents : ℕ}
    (hamount : (twiceRounded (product quantity unitPriceCents) : ℤ) < 2 ^ 63)
    (hkept : 0 < quantity.atScale 3) : quantity.atScale 3 * unitPriceCents < 10 ^ 28 := by
  have hthousand : ((quantity.atScale 3 : ℕ) : ℚ) - 1 / 2 ≤ quantity.value * 10 ^ 3 :=
    (le_atScale_iff quantity 3 _).mp le_rfl
  have hunits : (1 : ℚ) ≤ (quantity.atScale 3 : ℕ) := by exact_mod_cast hkept
  have hbelow : (to28Digits (product quantity unitPriceCents)).value < 2 ^ 63 := by
    by_contra hle
    have hreach := (le_atScale_iff (to28Digits (product quantity unitPriceCents)) 0 (2 ^ 63)).mpr
      (by push_cast; linarith [not_lt.mp hle])
    rw [← twiceRounded_eq] at hreach
    have : ((2 ^ 63 : ℕ) : ℤ) ≤ twiceRounded (product quantity unitPriceCents) := by
      exact_mod_cast hreach
    push_cast at this
    omega
  have hhalf := value_le_to28Digits (product quantity unitPriceCents)
  rw [value_product] at hhalf
  have hprice : (0 : ℚ) ≤ unitPriceCents := by positivity
  have hprod : ((quantity.atScale 3 : ℕ) : ℚ) * unitPriceCents ≤
      2000 * (quantity.value * unitPriceCents) := by
    have hle : ((quantity.atScale 3 : ℕ) : ℚ) ≤ 2000 * quantity.value := by linarith
    calc ((quantity.atScale 3 : ℕ) : ℚ) * unitPriceCents
        ≤ 2000 * quantity.value * unitPriceCents := mul_le_mul_of_nonneg_right hle hprice
      _ = 2000 * (quantity.value * unitPriceCents) := by ring
  have hfinal : ((quantity.atScale 3 * unitPriceCents : ℕ) : ℚ) < ((10 ^ 28 : ℕ) : ℚ) := by
    push_cast
    linarith
  exact_mod_cast hfinal

theorem stored_consistent_iff {item : LineItemCreate} {row : InvoiceLineItem}
    (h : Itemizes item row) (hamount : row.amountCents < 2 ^ 63) (now : DateTime) :
    SelfConsistent (row.stored now) ↔ SameSide item := by
  obtain ⟨hlimit, heq⟩ := (computeLineAmountCents_eq_ok_iff _ _ _).mp h.amountCents
  have hprice : row.unitPriceCents.toNat = item.unitPriceCents := by
    rw [h.unitPriceCents, Int.toNat_natCast]
  unfold SelfConsistent
  simp only [InvoiceLineItem.stored, h.quantity, hprice]
  have hside : SameSide item ↔ 0 < item.quantity.atScale 3 ∧
      (to28Digits (product item.quantity item.unitPriceCents)).atScale 0 =
        (product (toThreePlaces item.quantity) item.unitPriceCents).atScale 0 := by
    rw [atScale_eq_iff, value_product, ← kept_iff]
    exact ⟨fun h => ⟨h.kept, h.same⟩, fun h => ⟨h.1, h.2⟩⟩
  rw [hside, and_comm]
  refine and_congr_right fun hkept => ?_
  have hlt := stored_product_lt (heq ▸ hamount) hkept
  have hexact : to28Digits (product (toThreePlaces item.quantity) item.unitPriceCents) =
      product (toThreePlaces item.quantity) item.unitPriceCents := to28Digits_of_lt hlt
  rw [computeLineAmountCents_eq_ok_iff]
  change (twiceRounded (product (toThreePlaces item.quantity) item.unitPriceCents) < 10 ^ 28 ∧
    row.amountCents = twiceRounded (product (toThreePlaces item.quantity) item.unitPriceCents)) ↔ _
  rw [twiceRounded_eq, hexact, ← twiceRounded_eq, heq, Nat.cast_inj]
  exact ⟨fun h => h.2, fun h => ⟨h ▸ hlimit, h⟩⟩

/-! ### What a mutation stores -/

/-- Writes that insert no line item leave some of the rows. -/
theorem sublist_of_insertsNoItem {now : DateTime} {writes : List Write} {db db' : Db}
    (hwrites : ∀ write ∈ writes, write.InsertsNoItem) (h : db.apply now writes = .ok db') :
    db'.lineItems.rows.Sublist db.lineItems.rows := by
  induction writes generalizing db with
  | nil => cases h; exact .refl _
  | cons write writes ih =>
    rw [List.forall_mem_cons] at hwrites
    obtain ⟨db₁, h₁, h₂⟩ := Db.apply_cons.mp h
    refine (ih hwrites.2 h₂).trans ?_
    cases write with
    | insertLineItem item => exact hwrites.1.elim
    | insertInvoice invoice => rw [(Write.apply_insertInvoice h₁).2.2.1]
    | updateInvoice loaded current => rw [(Write.apply_updateInvoice h₁).2.1]
    | deleteLineItem id => cases h₁; exact List.filter_sublist
    | insertPayment payment => rw [(Write.apply_insertPayment h₁).2.2]

/-- The rows of line items after a mutation: some that were there, and those of the request. -/
theorem exec_op_lineItems (op : Op) (o : Oracle Choice) (w : World) :
    (exec Call.answer op.prog o w).2.db = w.db ∨ ∃ kept items now, kept.Sublist w.db.lineItems.rows ∧
      (exec Call.answer op.prog o w).2.db.lineItems.rows =
        kept ++ items.map (InvoiceLineItem.stored now) ∧
      List.Forall₂ Itemizes op.lineItems items := by
  have hcases := (commits_op op).exec_cases (fun c hc x w => db_answer_of_quiet hc x w) o w
  rcases hcases with h | ⟨c, n, x, w₁, hdescribes, _, hw₁, h⟩
  · exact .inl h
  · cases c with
    | commit writes =>
      obtain ⟨before, items, rfl, hbefore, hitems⟩ := hdescribes
      rcases answer_commit_cases (before ++ items.map .insertLineItem) x w₁ with
        ⟨e, he⟩ | ⟨db', hdb', he⟩
      · left
        rw [h, he]
        exact hw₁
      · right
        have heffect : ((Call.commit (before ++ items.map .insertLineItem)).answer x w₁).2.db = db' := by
          rcases he with he | ⟨e, he⟩ <;> rw [he]
        obtain ⟨db₂, hbefore', hinsert⟩ := Db.apply_append.mp hdb'
        refine ⟨db₂.lineItems.rows, items, x.now, ?_, ?_, hitems⟩
        · rw [← hw₁]
          exact sublist_of_insertsNoItem hbefore hbefore'
        · rw [h, heffect]
          exact (apply_insertLineItems hinsert).1
    | _ => exact hdescribes.elim

/-- **What a mutation stores**: a row for each item of the request, which is consistent exactly when
the item is on the same side of all half cents as its stored quantity. -/
theorem storedItems_iff (op : Op) (o : Oracle Choice) (w : World) :
    (exec Call.answer op.prog o w).2.db = w.db ∨ ∃ kept rows, kept.Sublist w.db.lineItems.rows ∧
      (exec Call.answer op.prog o w).2.db.lineItems.rows = kept ++ rows ∧
      List.Forall₂ (fun item row => row.description = item.description ∧
        (SelfConsistent row ↔ SameSide item)) op.lineItems rows := by
  rcases exec_op_lineItems op o w with h | ⟨kept, items, now, hkept, hrows, hitems⟩
  · exact .inl h
  · refine .inr ⟨kept, items.map (InvoiceLineItem.stored now), hkept, hrows, ?_⟩
    have hbig : ∀ row ∈ items, row.amountCents < 2 ^ 63 := by
      intro row hrow
      have hmem : row.stored now ∈ (exec Call.answer op.prog o w).2.db.lineItems.rows := by
        rw [hrows]
        exact List.mem_append_right _ (List.mem_map_of_mem hrow)
      have hvalid := (exec Call.answer op.prog o w).2.db.lineItems.valid _ hmem
      simp only [lineItemSchema, isBigInt, Bool.and_eq_true, decide_eq_true_eq] at hvalid
      exact hvalid.1.2.2
    clear hrows
    rw [List.forall₂_map_right_iff]
    generalize op.lineItems = body at hitems
    induction hitems with
    | nil => exact .nil
    | cons hitem _ ih =>
      rw [List.forall_mem_cons] at hbig
      exact .cons ⟨hitem.description, stored_consistent_iff hitem hbig.1 now⟩ (ih hbig.2)

/-- An invoice over a quantity that is rounded away. -/
def fourTenThousandths : InvoiceCreateRequest :=
  { hundredCents with
    lineItems := [⟨"Work", ⟨4, -4⟩, 1000, by decide⟩]
    lineItems_ne_nil := List.cons_ne_nil _ _ }

/-- Its creation. -/
def createTiny : Request := .calm (.create "org" "ada" fourTenThousandths) "c"

theorem not_selfConsistent :
    ¬ ∀ (op : Op) (o : Oracle Choice) (w : World),
      ∀ row ∈ (exec Call.answer op.prog o w).2.db.lineItems.rows,
        row ∉ w.db.lineItems.rows → SelfConsistent row := by
  intro h
  have hall := h createTiny.op createTiny.oracle ⟨createTiny.core, Db.empty⟩
  have hnone : ∀ row ∈ (createTiny.apply Db.empty).lineItems.rows, SelfConsistent row :=
    fun row hrow => hall row hrow nofun
  exact absurd hnone (by decide +kernel)

end A2ZCore.Invoicing
