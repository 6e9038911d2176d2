import A2ZCore.Core.Values

/-!
# Quantities and amounts

Quantities are Python `Decimal`s, money is integer cents. Between the two stands one product,
rounded twice: `quantity * Decimal(unit_price_cents)` in the default context, which keeps 28 digits
and rounds half to even, and `quantize(Decimal("1"), ROUND_HALF_UP)`, which refuses a result of more
than 28 digits.

## Main definitions

* `Decimal`, `Decimal.mul`, `Decimal.quantizeOne` — the two roundings
* `Decimal.atScale` — what a `NUMERIC(_, s)` column keeps
* `money` — `f"{currency_code} {cents / 100:,.2f}"`, float division included
-/

namespace A2ZCore.Invoicing

/-- A non-negative `decimal.Decimal`, `coeff * 10 ^ exp`. -/
structure Decimal where
  coeff : ℕ
  exp : ℤ
  deriving DecidableEq, Repr

/-- The number of decimal digits. -/
def digits (n : ℕ) : ℕ := (toString n).length

/-- `n / d` to the nearest integer, ties to even. -/
def roundHalfEven (n d : ℕ) : ℕ :=
  if 2 * (n % d) < d ∨ (2 * (n % d) = d ∧ n / d % 2 = 0) then n / d else n / d + 1

/-- `n / d` to the nearest integer, ties up. -/
def roundHalfUp (n d : ℕ) : ℕ := if 2 * (n % d) < d then n / d else n / d + 1

namespace Decimal

/-- `a * b` in the default context. A result below the least exponent stays as it is: it quantizes
to zero either way. -/
def mul (a b : Decimal) : Except PyErr Decimal :=
  let c := a.coeff * b.coeff
  let excess := digits c - 28
  let rounded := roundHalfEven c (10 ^ excess)
  let r : Decimal :=
    if digits rounded = 29 then ⟨rounded / 10, a.exp + b.exp + excess + 1⟩
    else ⟨rounded, a.exp + b.exp + excess⟩
  if r.coeff ≠ 0 ∧ 999999 < r.exp + digits r.coeff - 1 then
    .error ⟨.decimalOverflow, "above Emax"⟩
  else .ok r

/-- `d * 10 ^ scale` to the nearest integer, ties up. -/
def atScale (scale : ℕ) (d : Decimal) : ℕ :=
  if 0 ≤ d.exp + scale then d.coeff * 10 ^ (d.exp + scale).toNat
  else roundHalfUp d.coeff (10 ^ (-(d.exp + scale)).toNat)

/-- `int(d.quantize(Decimal("1"), rounding=ROUND_HALF_UP))`. -/
def quantizeOne (d : Decimal) : Except PyErr ℕ :=
  if 28 < digits (d.atScale 0) then
    .error ⟨.invalidOperation, "quantize result has too many digits for current context"⟩
  else .ok (d.atScale 0)

/-- `str(d)`. -/
def toPyString (d : Decimal) : String :=
  let ds := (toString d.coeff).toList
  let left : ℤ := d.exp + ds.length
  if d.exp ≤ 0 ∧ -6 < left then
    if left ≤ 0 then "0." ++ String.ofList (List.replicate (-left).toNat '0' ++ ds)
    else if left = ds.length then toString d.coeff
    else String.ofList (ds.take left.toNat ++ '.' :: ds.drop left.toNat)
  else
    String.ofList (ds.take 1 ++ (if ds.length = 1 then [] else '.' :: ds.drop 1)) ++ "E" ++
      (if left - 1 < 0 then "" else "+") ++ toString (left - 1)

end Decimal

/-- `state_machine.compute_line_amount_cents`. -/
def computeLineAmountCents (quantity : Decimal) (unitPriceCents : ℕ) : Except PyErr ℤ := do
  let amount ← quantity.mul ⟨unitPriceCents, 0⟩
  return (← amount.quantizeOne : ℕ)

/-! ### Printing -/

/-- The double nearest to `n / 100`, as `m * 2 ^ e`. -/
def centsToFloat (n : ℕ) : ℕ × ℤ :=
  let scaled (e : ℤ) : ℕ :=
    if 0 ≤ e then roundHalfEven n (100 * 2 ^ e.toNat)
    else roundHalfEven (n * 2 ^ (-e).toNat) 100
  let e : ℤ := Nat.log2 n - 59
  if scaled e < 2 ^ 53 then (scaled e, e) else (scaled (e + 1), e + 1)

/-- The hundredths of that double, to the nearest, ties to even. -/
def floatHundredths (m : ℕ) (e : ℤ) : ℕ :=
  if 0 ≤ e then m * 2 ^ e.toNat * 100 else roundHalfEven (m * 100) (2 ^ (-e).toNat)

/-- Digits, least significant first, with a comma after every third. -/
def groupThousands (count : ℕ) : List Char → List Char
  | [] => []
  | c :: cs => if count = 3 then ',' :: c :: groupThousands 1 cs else c :: groupThousands (count + 1) cs

/-- `_money`. -/
def money (cents : ℤ) (currencyCode : String) : String :=
  let hundredths := floatHundredths (centsToFloat cents.natAbs).1 (centsToFloat cents.natAbs).2
  let whole := (groupThousands 0 (toString (hundredths / 100)).toList.reverse).reverse
  currencyCode ++ " " ++ (if cents < 0 then "-" else "") ++ String.ofList whole ++ "." ++
    zeroPad 2 (hundredths % 100)

end A2ZCore.Invoicing
