import A2ZCore.Core.Values

/-!
# Numbers, stored and read

DynamoDB's numbers are decimal: of at most 38 significant digits, and between `1E-130` and `1E+126` in
magnitude. `_ddb.from_item` makes an `int` of one that is whole, and of any other the double that is
nearest to it. The fraction of a long number may be lost in that, so that Pydantic, which takes no
fraction for an `int`, sees none.

## Main definitions

* `isExact`, `inRange` — what boto3 writes, and what DynamoDB holds
* `plusOne` — DynamoDB's `ADD :one`
* `nearestDouble` — `float(d)` of a decimal
* `integer?`, `toInt` — what Pydantic and `int` make of a number that is read
* `intOfText` — what Pydantic makes of a text

## Main results

* `toInt_plusOne` — a whole number counts up
-/

namespace A2ZCore.Core

/-! ### Decimal numbers -/

/-- The number of decimal digits. -/
def digits (n : ℕ) : ℕ := (Nat.toDigits 10 n).length

/-- At most 38 digits are significant: those after them are zeros. -/
def isExact (m : ℤ) : Bool := m.natAbs % 10 ^ (digits m.natAbs - 38) = 0

/-- DynamoDB's range: `m / 10 ^ s` is zero, or neither too small nor too large. -/
def inRange (m : ℤ) (s : ℕ) : Bool :=
  m = 0 || 10 ^ s ≤ m.natAbs * 10 ^ 130 && m.natAbs < 10 ^ (126 + s)

/-- A number that DynamoDB cannot hold. -/
def numberOverflow : PyErr :=
  ⟨.clientError "ValidationException", "Number overflow"⟩

/-- A value with one added to it, by `ADD`. -/
def plusOne : Json → Except PyErr Json
  | .int n => if isExact (n + 1) && inRange (n + 1) 0 then .ok (.int (n + 1)) else .error numberOverflow
  | .float m s =>
    if isExact (m + 10 ^ s) && inRange (m + 10 ^ s) s then .ok (.float (m + 10 ^ s) s)
    else .error numberOverflow
  | _ => .error ⟨.clientError "ValidationException",
      "An operand in the update expression has an incorrect data type"⟩

/-! ### Doubles -/

/-- The whole number that is nearest, the even one of two. -/
def roundTiesEven (q : ℚ) : ℤ :=
  let n := q.floor
  if q - n < 1 / 2 then n
  else if 1 / 2 < q - n then n + 1
  else if n % 2 = 0 then n else n + 1

/-- The double that is nearest to a number of DynamoDB's range: 53 binary digits, fewer for the
smallest. -/
def nearestDouble (q : ℚ) : ℚ :=
  let unit : ℚ := 2 ^ max (Int.log 2 |q| - 52) (-1074)
  roundTiesEven (q / unit) * unit

/-- The double that a number with a fraction is read as. -/
def readDouble (m : ℤ) (s : ℕ) : ℚ := nearestDouble (m / 10 ^ s)

/-- The integer that Pydantic takes a number for, if it takes it for one: a double without a fraction has
to fit 64 bits. -/
def integer? : Json → Option ℤ
  | .int n => some n
  | .float m s =>
    if m % 10 ^ s = 0 then some (m / 10 ^ s)
    else if (readDouble m s).den = 1 ∧ |(readDouble m s).num| < 2 ^ 63 then some (readDouble m s).num
    else none
  | _ => none

/-- `int(v)` of a number. -/
def toInt : Json → ℤ
  | .int n => n
  | .float m s =>
    if m % 10 ^ s = 0 then m / 10 ^ s
    else (readDouble m s).num.tdiv (readDouble m s).den
  | _ => 0

/-! ### Texts -/

/-- White space that `str::trim` removes: not the separators of files and records. -/
def isTrimmed (c : Char) : Bool := pyIsSpace c && !(28 ≤ c.toNat && c.toNat ≤ 31)

/-- A text without the white space around it. -/
def trimmed (cs : List Char) : List Char :=
  ((cs.dropWhile isTrimmed).reverse.dropWhile isTrimmed).reverse

/-- The text without a decimal point and zeros at its end. -/
def withoutZeros (cs : List Char) : List Char :=
  if (cs.dropWhile (· != '.')).drop 1 |>.all (· == '0') then cs.takeWhile (· != '.') else cs

/-- The integer that Pydantic takes a text for: the digits of a whole number, of at most 4300
characters. -/
def intOfText (s : String) : Option ℤ :=
  if 4300 < s.utf8ByteSize then none
  else match withoutZeros (trimmed s.toList) with
    | '-' :: cs => (parseDigits 0 false cs).map fun n => -(n : ℤ)
    | '+' :: cs => (parseDigits 0 false cs).map fun n => (n : ℤ)
    | cs => (parseDigits 0 false cs).map fun n => (n : ℤ)

example : ["1.0", "7.00", "+1.0", "1_0.0", " 12 ", "1.5", "1_", "1 0"].map intOfText =
    [some 1, some 7, some 1, some 10, some 12, none, none, none] := by decide

example : [integer? (.float 10 1), integer? (.float 15 1), integer? (.float (10 ^ 20 + 1) 20)] =
    [some 1, none, some 1] := by decide +kernel

/-! ### Counting up -/

/-- The number is a fraction. -/
def IsFraction : Json → Prop
  | .float m s => m % 10 ^ s ≠ 0
  | _ => False

instance (v : Json) : Decidable (IsFraction v) :=
  match v with
  | .float m s => inferInstanceAs (Decidable (m % 10 ^ s ≠ 0))
  | .null | .bool _ | .int _ | .str _ | .arr _ | .obj _ => .isFalse id

/-- A whole number and one are a whole number, the next one. -/
theorem toInt_plusOne {v sum : Json} (hwhole : ¬IsFraction v) (h : plusOne v = .ok sum) :
    toInt sum = toInt v + 1 ∧ ¬IsFraction sum := by
  cases v with
  | int n =>
    rw [plusOne] at h
    split at h
    · cases h
      exact ⟨rfl, id⟩
    · cases h
  | float m s =>
    rw [plusOne] at h
    split at h
    · cases h
      have hzero : m % 10 ^ s = 0 := not_not.mp hwhole
      have hnext : (m + 10 ^ s) % 10 ^ s = 0 := by rw [Int.add_emod_right, hzero]
      have hunit : (10 ^ s : ℤ) ≠ 0 := by positivity
      refine ⟨?_, not_not.mpr hnext⟩
      rw [toInt, toInt, if_pos hzero, if_pos hnext, Int.add_ediv_of_dvd_right (Int.dvd_refl _),
        Int.ediv_self hunit]
    · cases h
  | _ => cases h

/-- The integer that a whole number is taken for. -/
theorem integer?_eq_toInt {v sum : Json} (hwhole : ¬IsFraction v) (h : plusOne v = .ok sum) :
    integer? v = some (toInt v) := by
  cases v with
  | int n => rfl
  | float m s =>
    have hzero : m % 10 ^ s = 0 := not_not.mp hwhole
    rw [integer?, toInt, if_pos hzero, if_pos hzero]
  | _ => cases h

theorem plusOne_error {v : Json} {e : PyErr} (h : plusOne v = .error e) :
    ∃ code, e.cls = .clientError code := by
  unfold plusOne at h
  split at h
  · split at h <;> cases h
    exact ⟨_, rfl⟩
  · split at h <;> cases h
    exact ⟨_, rfl⟩
  · cases h
    exact ⟨_, rfl⟩

end A2ZCore.Core
