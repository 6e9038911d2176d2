import A2ZCore.Invoicing.Money
import Mathlib

/-!
# Line amounts to the cent

The amount of a line is meant to be the exact product of quantity and price, rounded half up. The
code rounds twice: the product is kept to 28 digits, ties to even, and only then to whole cents. The
first rounding can take a product that is just below a half cent up to it, and the second one then
rounds up; and amounts of more than 28 digits are refused.

`lineAmount_iff` says for which products neither happens.

## Main definitions

* `product`, `exactAmount` — the exact product, and the amount that is meant
* `MeetsHalf`, `TiesDown` — the two ways in which the first rounding changes the second one

## Main results

* `roundHalfUp_roundHalfEven` — what rounding twice comes to
* `lineAmount_iff` — when the code computes the exact amount
-/

namespace A2ZCore.Invoicing

/-! ### Rounding twice -/

@[simp] theorem roundHalfEven_one (n : ℕ) : roundHalfEven n 1 = n := by
  simp [roundHalfEven, Nat.mod_one]

@[simp] theorem roundHalfUp_one (n : ℕ) : roundHalfUp n 1 = n := by
  simp [roundHalfUp, Nat.mod_one]

/-- A common factor cancels. -/
theorem roundHalfUp_mul {c : ℕ} (hc : 0 < c) (n d : ℕ) :
    roundHalfUp (c * n) (c * d) = roundHalfUp n d := by
  have hhalf : 2 * (c * n % (c * d)) < c * d ↔ 2 * (n % d) < d := by
    rw [Nat.mul_mod_mul_left, show 2 * (c * (n % d)) = c * (2 * (n % d)) by ring]
    exact Nat.mul_lt_mul_left hc
  simp only [roundHalfUp, hhalf, Nat.mul_div_mul_left _ _ hc]

/-- An even number of units is kept. -/
theorem roundHalfEven_add {a m : ℕ} (ha : 0 < a) (hm : m % 2 = 0) (rest : ℕ) :
    roundHalfEven (a * m + rest) a = m + roundHalfEven rest a := by
  have hdiv : (a * m + rest) / a = m + rest / a := Nat.mul_add_div ha m rest
  have hparity : (m + rest / a) % 2 = rest / a % 2 := by omega
  simp only [roundHalfEven, Nat.mul_add_mod, hdiv, hparity]
  split <;> omega

/-- Rounding up to whole units of `2 * h`. -/
theorem roundHalfUp_add {h : ℕ} (q : ℕ) {s : ℕ} (hh : 0 < h) (hs : s ≤ 2 * h) :
    roundHalfUp (2 * h * q + s) (2 * h) = q + if s < h then 0 else 1 := by
  have hdiv : (2 * h * q + s) / (2 * h) = q + s / (2 * h) := Nat.mul_add_div (by omega) q s
  simp only [roundHalfUp, Nat.mul_add_mod, hdiv]
  rcases Nat.lt_or_eq_of_le hs with hlt | rfl
  · rw [Nat.mod_eq_of_lt hlt, Nat.div_eq_of_lt hlt]
    split <;> split <;> omega
  · rw [Nat.mod_self, Nat.div_self (by omega)]
    split <;> split <;> omega

/-- The rest of a division by `a * (2 * h)` is closer than half of `a` to the half above it. -/
def Close (a h rest : ℕ) : Prop :=
  rest < a * h ∧ (a * (2 * h) - 2 * rest < a ∨ a * (2 * h) - 2 * rest = a ∧ h % 2 = 0)

/-- The first rounding of what is left leaves it below the half, unless it was close. -/
theorem roundHalfEven_lt_iff {a h rest : ℕ} (ha : 0 < a) :
    roundHalfEven rest a < h ↔ rest < a * h ∧ ¬ Close a h rest := by
  have hsplit : rest = a * (rest / a) + rest % a := (Nat.div_add_mod rest a).symm
  have hmod : rest % a < a := Nat.mod_lt rest ha
  have hbelow : rest < a * h ↔ rest / a < h := by rw [Nat.div_lt_iff_lt_mul ha, mul_comm]
  simp only [Close, hbelow]
  unfold roundHalfEven
  generalize rest / a = u at hsplit
  generalize rest % a = v at hsplit hmod
  subst hsplit
  rcases lt_trichotomy (u + 1) h with hlt | rfl | hgt
  · -- far below the half
    obtain ⟨j, rfl⟩ : ∃ j, h = u + 2 + j := ⟨h - (u + 2), by omega⟩
    have hexpand : a * (2 * (u + 2 + j)) = 2 * (a * u) + 4 * a + 2 * (a * j) := by ring
    rw [hexpand]
    split <;> omega
  · -- the last unit below the half
    have hexpand : a * (2 * (u + 1)) = 2 * (a * u) + 2 * a := by ring
    rw [hexpand]
    split <;> omega
  · split <;> omega

theorem roundHalfEven_le {a h rest : ℕ} (hrest : rest < a * (2 * h)) :
    roundHalfEven rest a ≤ 2 * h := by
  have hlt : rest / a < 2 * h := Nat.div_lt_of_lt_mul hrest
  unfold roundHalfEven
  split <;> omega

/-- **Rounding twice**: half to even in units of `a`, and then half up in units of `a * (2 * h)`. It
is one more than rounding once when what is left over is close to the half. -/
theorem roundHalfUp_roundHalfEven {a h : ℕ} (ha : 0 < a) (hh : 0 < h) (n : ℕ) :
    roundHalfUp (roundHalfEven n a) (2 * h) = roundHalfUp n (a * (2 * h)) ↔
      ¬ Close a h (n % (a * (2 * h))) := by
  have hrest : n % (a * (2 * h)) < a * (2 * h) := Nat.mod_lt n (by positivity)
  have hsplit : n = a * (2 * h * (n / (a * (2 * h)))) + n % (a * (2 * h)) := by
    rw [← mul_assoc]
    exact (Nat.div_add_mod n (a * (2 * h))).symm
  have hup : roundHalfUp n (a * (2 * h)) =
      n / (a * (2 * h)) + if n % (a * (2 * h)) < a * h then 0 else 1 := by
    have hhalf : 2 * (n % (a * (2 * h))) < a * (2 * h) ↔ n % (a * (2 * h)) < a * h := by
      rw [show a * (2 * h) = 2 * (a * h) by ring]
      omega
    simp only [roundHalfUp, hhalf]
    split <;> rfl
  rw [hup]
  generalize n % (a * (2 * h)) = rest at hrest hsplit
  generalize n / (a * (2 * h)) = q at hsplit
  subst hsplit
  rw [roundHalfEven_add ha (by rw [mul_assoc]; exact Nat.mul_mod_right 2 _),
    roundHalfUp_add q hh (roundHalfEven_le hrest)]
  have hiff : roundHalfEven rest a < h ↔ rest < a * h ∧ ¬ Close a h rest := roundHalfEven_lt_iff ha
  by_cases hclose : Close a h rest
  · have hnot : ¬ roundHalfEven rest a < h := fun hlt => (hiff.mp hlt).2 hclose
    rw [if_neg hnot, if_pos hclose.1]
    simp [hclose]
  · by_cases hbelow : rest < a * h
    · rw [if_pos (hiff.mpr ⟨hbelow, hclose⟩), if_pos hbelow]
      simp [hclose]
    · rw [if_neg fun hlt => hbelow (hiff.mp hlt).1, if_neg hbelow]
      simp [hclose]

/-! ### Digits -/

theorem digits_le_iff {n k : ℕ} (hk : 0 < k) : digits n ≤ k ↔ n < 10 ^ k :=
  Nat.length_repr_le_iff hk

/-- The digits that are beyond the 28 that are kept. -/
theorem lt_of_excess (n : ℕ) : n < 10 ^ 28 * 10 ^ (digits n - 28) := by
  rw [← pow_add]
  exact (digits_le_iff (by omega)).mp (by omega)

theorem le_of_excess {n : ℕ} (h : 0 < digits n - 28) : 10 ^ 27 * 10 ^ (digits n - 28) ≤ n := by
  rw [← pow_add]
  by_contra hlt
  have := (digits_le_iff (by omega)).mpr (not_le.mp hlt)
  omega

/-- What rounding to 28 digits leaves. -/
theorem rounded_le (n : ℕ) : roundHalfEven n (10 ^ (digits n - 28)) ≤ 10 ^ 28 := by
  have hdiv : n / 10 ^ (digits n - 28) < 10 ^ 28 :=
    Nat.div_lt_of_lt_mul (by rw [mul_comm]; exact lt_of_excess n)
  unfold roundHalfEven
  split <;> omega

namespace Decimal

/-- A zero at the end of the coefficient is an exponent. -/
theorem atScale_shift (n : ℕ) (x : ℤ) :
    atScale 0 ⟨10 * n, x⟩ = atScale 0 ⟨n, x + 1⟩ := by
  unfold atScale
  simp only [Nat.cast_zero, add_zero]
  rcases lt_trichotomy x (-1) with hlt | rfl | hgt
  · obtain ⟨m, hm⟩ : ∃ m : ℕ, (-x).toNat = m + 1 := ⟨(-x).toNat - 1, by omega⟩
    have hm' : (-(x + 1)).toNat = m := by omega
    rw [if_neg (by omega), if_neg (by omega), hm, hm', pow_succ', roundHalfUp_mul (by omega)]
  · have h := roundHalfUp_mul (c := 10) (by omega) n 1
    simpa using h
  · have hx : (x + 1).toNat = x.toNat + 1 := by omega
    rw [if_pos (by omega), if_pos (by omega), hx, pow_succ]
    ring

end Decimal

/-! ### The two roundings of the code -/

/-- The exact product. -/
def product (quantity : Decimal) (unitPriceCents : ℕ) : Decimal :=
  ⟨quantity.coeff * unitPriceCents, quantity.exp⟩

/-- The amount that is meant: the exact product, to the nearest cent, ties up. -/
def exactAmount (quantity : Decimal) (unitPriceCents : ℕ) : ℕ :=
  (product quantity unitPriceCents).atScale 0

/-- The product to 28 digits, and then to the nearest cent. -/
def twiceRounded (d : Decimal) : ℕ :=
  Decimal.atScale 0 ⟨roundHalfEven d.coeff (10 ^ (digits d.coeff - 28)),
    d.exp + (digits d.coeff - 28 : ℕ)⟩

/-- A number beyond the greatest exponent has more than 28 digits before the point. -/
theorem le_atScale_of_overflow {d : Decimal} (hcoeff : d.coeff ≠ 0) (hdigits : digits d.coeff ≤ 29)
    (h : 999999 < d.exp + digits d.coeff - 1) : 10 ^ 28 ≤ d.atScale 0 := by
  have hexp : 28 ≤ d.exp.toNat := by omega
  rw [Decimal.atScale, Nat.cast_zero, add_zero, if_pos (by omega)]
  calc 10 ^ 28 ≤ 10 ^ d.exp.toNat := Nat.pow_le_pow_right (by omega) hexp
    _ ≤ d.coeff * 10 ^ d.exp.toNat := Nat.le_mul_of_pos_left _ (Nat.pos_of_ne_zero hcoeff)

/-- The first rounding: a number that is the product to 28 digits, or one that is too large. -/
theorem mul_cases (quantity : Decimal) (unitPriceCents : ℕ) :
    (∃ r, quantity.mul ⟨unitPriceCents, 0⟩ = .ok r ∧
        r.atScale 0 = twiceRounded (product quantity unitPriceCents)) ∨
      (∃ e, quantity.mul ⟨unitPriceCents, 0⟩ = .error e) ∧
        10 ^ 28 ≤ twiceRounded (product quantity unitPriceCents) := by
  have hle := rounded_le (quantity.coeff * unitPriceCents)
  unfold Decimal.mul twiceRounded product
  dsimp only
  rw [add_zero]
  generalize digits (quantity.coeff * unitPriceCents) - 28 = excess at hle
  generalize roundHalfEven (quantity.coeff * unitPriceCents) (10 ^ excess) = rounded at hle
  have hkept : Decimal.atScale 0 (if digits rounded = 29 then
      ⟨rounded / 10, quantity.exp + excess + 1⟩ else ⟨rounded, quantity.exp + excess⟩) =
        Decimal.atScale 0 ⟨rounded, quantity.exp + excess⟩ := by
    split
    · next hcarry =>
      have hlarge : ¬ rounded < 10 ^ 28 := fun hlt => by
        have := (digits_le_iff (by omega)).mpr hlt
        omega
      rw [← Decimal.atScale_shift]
      congr 2
      omega
    · rfl
  have hdigits : digits (if digits rounded = 29 then
      (⟨rounded / 10, quantity.exp + excess + 1⟩ : Decimal)
        else ⟨rounded, quantity.exp + excess⟩).coeff ≤ 29 := by
    refine (digits_le_iff (by omega)).mpr ?_
    split <;> dsimp only <;> omega
  generalize (if digits rounded = 29 then (⟨rounded / 10, quantity.exp + excess + 1⟩ : Decimal)
    else ⟨rounded, quantity.exp + excess⟩) = r at hkept hdigits ⊢
  split
  · next hoverflow =>
    refine .inr ⟨⟨_, rfl⟩, ?_⟩
    rw [← hkept]
    exact le_atScale_of_overflow hoverflow.1 hdigits hoverflow.2
  · exact .inl ⟨_, rfl, hkept⟩

/-- What the code computes. -/
theorem computeLineAmountCents_eq_ok_iff (quantity : Decimal) (unitPriceCents : ℕ) (amount : ℤ) :
    computeLineAmountCents quantity unitPriceCents = .ok amount ↔
      twiceRounded (product quantity unitPriceCents) < 10 ^ 28 ∧
        amount = twiceRounded (product quantity unitPriceCents) := by
  unfold computeLineAmountCents
  rcases mul_cases quantity unitPriceCents with ⟨r, hr, hkept⟩ | ⟨⟨e, he⟩, hlarge⟩
  · rw [hr, ← hkept]
    show (do return (← r.quantizeOne : ℕ) : Except PyErr ℤ) = _ ↔ _
    unfold Decimal.quantizeOne
    by_cases hdigits : 28 < digits (r.atScale 0)
    · have hnot : ¬ r.atScale 0 < 10 ^ 28 := fun hlt => by
        have := (digits_le_iff (by omega)).mpr hlt
        omega
      rw [if_pos hdigits]
      exact ⟨nofun, fun h => absurd h.1 hnot⟩
    · have hlt : r.atScale 0 < 10 ^ 28 := (digits_le_iff (by omega)).mp (not_lt.mp hdigits)
      rw [if_neg hdigits]
      exact ⟨fun h => ⟨hlt, (Except.ok.inj h).symm⟩, fun h => congrArg Except.ok h.2.symm⟩
  · rw [he]
    exact ⟨nofun, fun h => absurd h.1 (not_lt.mpr hlarge)⟩

/-! ### When the code computes the exact amount -/

/-- The number has more than 28 digits, and to 28 digits it is the half cent above it. -/
def MeetsHalf (d : Decimal) : Prop :=
  let excess := digits d.coeff - 28
  let places := (-d.exp).toNat
  let gap := 10 ^ places - 2 * (d.coeff % 10 ^ places)
  excess < places ∧ 2 * (d.coeff % 10 ^ places) < 10 ^ places ∧
    (gap < 10 ^ excess ∨ gap = 10 ^ excess ∧ excess + 1 < places)

/-- The number has 28 digits before the point, and is a half cent above an even number of cents. -/
def TiesDown (d : Decimal) : Prop :=
  let places := (-d.exp).toNat
  digits d.coeff - 28 = places ∧ 2 * (d.coeff % 10 ^ places) = 10 ^ places ∧
    d.coeff / 10 ^ places % 2 = 0

/-- Half a unit of `10 ^ (j + 1)` is even when there is another digit. -/
theorem close_iff {a j rest : ℕ} : Close a (5 * 10 ^ j) rest ↔
    2 * rest < a * (2 * (5 * 10 ^ j)) ∧ (a * (2 * (5 * 10 ^ j)) - 2 * rest < a ∨
      a * (2 * (5 * 10 ^ j)) - 2 * rest = a ∧ 0 < j) := by
  have hhalf : rest < a * (5 * 10 ^ j) ↔ 2 * rest < a * (2 * (5 * 10 ^ j)) := by
    rw [show a * (2 * (5 * 10 ^ j)) = 2 * (a * (5 * 10 ^ j)) by ring]
    omega
  have heven : 5 * 10 ^ j % 2 = 0 ↔ 0 < j := by
    rcases Nat.eq_zero_or_pos j with rfl | hj
    · simp
    · obtain ⟨i, rfl⟩ : ∃ i, j = i + 1 := ⟨j - 1, by omega⟩
      have : 5 * 10 ^ (i + 1) = 2 * (25 * 10 ^ i) := by ring
      omega
  rw [Close, hhalf, heven]

/-- Where the amount has 28 digits at most, rounding twice is rounding once, but for these. -/
theorem twiceRounded_eq_iff {d : Decimal} (h : d.atScale 0 < 10 ^ 28) :
    twiceRounded d = d.atScale 0 ↔ ¬ MeetsHalf d ∧ ¬ TiesDown d := by
  obtain ⟨c, x⟩ := d
  have hfew := le_of_excess (n := c)
  unfold twiceRounded MeetsHalf TiesDown
  unfold Decimal.atScale at h ⊢
  simp only [Nat.cast_zero, add_zero] at h ⊢
  generalize digits c - 28 = excess at hfew ⊢
  by_cases hint : 0 ≤ x
  · -- a whole number of cents
    have hplaces : (-x).toNat = 0 := by omega
    rw [if_pos hint] at h
    have hc : c < 10 ^ 28 := lt_of_le_of_lt (Nat.le_mul_of_pos_right c (by positivity)) h
    have hexcess : excess = 0 := by
      by_contra hne
      have hlarge := hfew (by omega)
      have : 10 ≤ 10 ^ excess := by
        calc 10 = 10 ^ 1 := rfl
          _ ≤ 10 ^ excess := Nat.pow_le_pow_right (by omega) (by omega)
      omega
    subst hexcess
    simp [hplaces, hint, Nat.mod_one]
  · obtain ⟨places, hplaces⟩ : ∃ places, (-x).toNat = places := ⟨_, rfl⟩
    rw [if_neg hint, hplaces] at h
    rw [if_neg hint, hplaces]
    rcases lt_trichotomy excess places with hlt | heq | hgt
    · -- digits behind the point are kept
      obtain ⟨j, rfl⟩ : ∃ j, places = excess + (j + 1) := ⟨places - excess - 1, by omega⟩
      have hrest : (-(x + excess)).toNat = j + 1 := by omega
      have hunit : 10 ^ (j + 1) = 2 * (5 * 10 ^ j) := by rw [pow_succ]; ring
      have hplace : 10 ^ (excess + (j + 1)) = 10 ^ excess * (2 * (5 * 10 ^ j)) := by
        rw [pow_add, hunit]
      rw [if_neg (by omega), hrest, hunit, hplace,
        roundHalfUp_roundHalfEven (by positivity) (by positivity), close_iff]
      simp
    · -- the digits before the point are kept
      subst heq
      rw [if_pos (by omega), show (x + excess).toNat = 0 by omega, pow_zero, mul_one]
      have hnot : ¬ excess < excess := lt_irrefl _
      simp only [hnot, false_and, not_false_eq_true, true_and]
      unfold roundHalfEven roundHalfUp
      split <;> split <;> omega
    · -- too many digits before the point
      have hlarge := hfew (by omega)
      have hpow : 10 ^ (places + 1) ≤ 10 ^ excess := Nat.pow_le_pow_right (by omega) (by omega)
      have hdiv : 10 ^ 28 ≤ c / 10 ^ places := by
        rw [Nat.le_div_iff_mul_le (by positivity)]
        calc 10 ^ 28 * 10 ^ places = 10 ^ 27 * 10 ^ (places + 1) := by ring
          _ ≤ 10 ^ 27 * 10 ^ excess := Nat.mul_le_mul_left _ hpow
          _ ≤ c := hlarge
      unfold roundHalfUp at h
      split at h <;> omega

/-- **The code computes the exact amount**, to the nearest cent, ties up, exactly when it has 28
digits at most and the product to 28 digits is on the side of the half cents that the product is. -/
theorem lineAmount_iff (quantity : Decimal) (unitPriceCents : ℕ) :
    computeLineAmountCents quantity unitPriceCents = .ok (exactAmount quantity unitPriceCents) ↔
      exactAmount quantity unitPriceCents < 10 ^ 28 ∧
        ¬ MeetsHalf (product quantity unitPriceCents) ∧
          ¬ TiesDown (product quantity unitPriceCents) := by
  rw [computeLineAmountCents_eq_ok_iff, Nat.cast_inj]
  constructor
  · rintro ⟨hlt, heq⟩
    rw [← heq] at hlt
    exact ⟨hlt, (twiceRounded_eq_iff hlt).mp heq.symm⟩
  · rintro ⟨hlt, hsame⟩
    have heq := (twiceRounded_eq_iff hlt).mpr hsame
    exact ⟨heq ▸ hlt, heq.symm⟩

/-- A quantity just below a half, at one cent, costs a cent. -/
theorem not_lineAmount : ¬ ∀ (quantity : Decimal) (unitPriceCents : ℕ), 0 < quantity.coeff →
    computeLineAmountCents quantity unitPriceCents = .ok (exactAmount quantity unitPriceCents) := by
  intro h
  exact absurd (h ⟨49999999999999999999999999999, -29⟩ 1 (by decide)) (by decide +kernel)

end A2ZCore.Invoicing
