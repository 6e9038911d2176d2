import Mathlib

/-!
# Numbers written to a fixed width

A text that is put together of fields of known widths is compared field by field, and a number that is
written to a fixed width compares as a text as it does as a number. So a text of such fields is in order
where the numbers are, the most significant first. It is also read back field by field.

## Main definitions

* `pad` — the last digits of a number
* `takeNat` — reading a number of a known width

## Main results

* `append_lt_append_iff` — texts whose first parts have one length
* `pad_lt_pad_iff` — numbers of one width
* `takeNat_pad` — what is written is read back
-/

namespace FixedWidth

/-! ### Comparing texts -/

section Compare

variable {α : Type*} [LinearOrder α] {a b x y : List α}

/-- Texts whose first parts have one length are compared by these, and then by the rest. -/
theorem append_lt_append_iff (h : a.length = b.length) :
    a ++ x < b ++ y ↔ a < b ∨ a = b ∧ x < y := by
  induction a generalizing b with
  | nil =>
    obtain rfl : b = [] := List.length_eq_zero_iff.mp h.symm
    simp
  | cons c a ih =>
    cases b with
    | nil => cases h
    | cons d b =>
      rw [List.cons_append, List.cons_append, List.cons_lt_cons_iff, List.cons_lt_cons_iff,
        ih (Nat.succ.inj h), List.cons.injEq]
      tauto

/-- The same for the weak order. -/
theorem append_le_append_iff (h : a.length = b.length) :
    a ++ x ≤ b ++ y ↔ a < b ∨ a = b ∧ x ≤ y := by
  rw [← not_lt, append_lt_append_iff h.symm, ← not_lt (a := y)]
  have htotal := lt_trichotomy a b
  have hasymm : a < b → ¬b < a := fun hlt => hlt.asymm
  have hne : a < b → a ≠ b := fun hlt => hlt.ne
  have hne' : b < a → a ≠ b := fun hlt => hlt.ne'
  tauto

theorem cons_le_cons_iff (c : α) : c :: x ≤ c :: y ↔ x ≤ y := by
  rw [← List.singleton_append, ← List.singleton_append (l := y), append_le_append_iff rfl]
  simp

theorem nil_le (x : List α) : [] ≤ x := by
  rw [← not_lt]
  exact List.not_lt_nil x

end Compare

/-! ### Digits -/

/-- The last `width` digits of a number. -/
def pad : ℕ → ℕ → List Char
  | 0, _ => []
  | width + 1, n => pad width (n / 10) ++ [Nat.digitChar (n % 10)]

@[simp] theorem length_pad (width n : ℕ) : (pad width n).length = width := by
  induction width generalizing n with
  | zero => rfl
  | succ width ih => rw [pad, List.length_append, ih, List.length_singleton]

theorem digitChar_lt_iff : ∀ {d e : ℕ}, d < 10 → e < 10 →
    (Nat.digitChar d < Nat.digitChar e ↔ d < e) := by
  intro d e hd he
  have hdigits : ∀ d e : Fin 10, Nat.digitChar d < Nat.digitChar e ↔ d < e := by decide
  exact hdigits ⟨d, hd⟩ ⟨e, he⟩

theorem digitChar_inj {d e : ℕ} (hd : d < 10) (he : e < 10)
    (h : Nat.digitChar d = Nat.digitChar e) : d = e := by
  have hde := digitChar_lt_iff hd he
  have hed := digitChar_lt_iff he hd
  rw [h] at hde hed
  have hnot : ¬Nat.digitChar e < Nat.digitChar e := Char.lt_irrefl _
  simp only [hnot, false_iff] at hde hed
  omega

variable {width n m : ℕ}

theorem isDigit_of_mem_pad {c : Char} (h : c ∈ pad width n) : c.isDigit = true := by
  have hdigits : ∀ d : Fin 10, (Nat.digitChar d).isDigit = true := by decide
  induction width generalizing n with
  | zero => cases h
  | succ width ih =>
    rcases List.mem_append.mp h with hmem | hmem
    · exact ih hmem
    · rw [List.mem_singleton.mp hmem]
      exact hdigits ⟨n % 10, Nat.mod_lt n (by decide)⟩

/-- The value of the digits of a number, after others. -/
theorem ofDigitChars_pad (width n total : ℕ) :
    Nat.ofDigitChars 10 (pad width n) total = total * 10 ^ width + n % 10 ^ width := by
  induction width generalizing n with
  | zero => simp [pad, Nat.mod_one]
  | succ width ih =>
    have hmod : n % (10 * 10 ^ width) = n % 10 + 10 * (n / 10 % 10 ^ width) := Nat.mod_mul
    rw [pad, Nat.ofDigitChars_append, ih,
      Nat.ofDigitChars_cons_digitChar_of_lt_ten (Nat.mod_lt n (by decide)), Nat.ofDigitChars_nil,
      Nat.pow_succ, Nat.mul_comm (10 ^ width) 10, hmod, Nat.mul_left_comm total 10]
    omega

theorem pad_inj (hn : n < 10 ^ width) (hm : m < 10 ^ width) (h : pad width n = pad width m) :
    n = m := by
  induction width generalizing n m with
  | zero => omega
  | succ width ih =>
    rw [Nat.pow_succ] at hn hm
    rw [pad, pad] at h
    obtain ⟨hhigh, hlow⟩ := List.append_inj' h rfl
    have hdigit := digitChar_inj (Nat.mod_lt n (by decide)) (Nat.mod_lt m (by decide))
      (List.singleton_inj.mp hlow)
    have hrest := ih (n := n / 10) (m := m / 10) (by omega) (by omega) hhigh
    omega

/-- Numbers of one width compare as texts as they do as numbers. -/
theorem pad_lt_pad_iff (hn : n < 10 ^ width) (hm : m < 10 ^ width) :
    pad width n < pad width m ↔ n < m := by
  induction width generalizing n m with
  | zero =>
    obtain rfl : n = 0 := by omega
    obtain rfl : m = 0 := by omega
    simp [pad]
  | succ width ih =>
    rw [Nat.pow_succ] at hn hm
    have hn' : n / 10 < 10 ^ width := by omega
    have hm' : m / 10 < 10 ^ width := by omega
    rw [pad, pad, append_lt_append_iff (by simp), ih hn' hm', List.cons_lt_cons_iff,
      digitChar_lt_iff (Nat.mod_lt n (by decide)) (Nat.mod_lt m (by decide))]
    have hinj : pad width (n / 10) = pad width (m / 10) ↔ n / 10 = m / 10 :=
      ⟨pad_inj hn' hm', fun h => by rw [h]⟩
    have hnone : ¬([] : List Char) < [] := List.not_lt_nil _
    rw [hinj]
    simp only [hnone, and_false, or_false]
    omega

/-! ### Reading -/

/-- The value of a decimal digit. -/
def digit? (c : Char) : Option ℕ := if '0' ≤ c ∧ c ≤ '9' then some (c.toNat - 48) else none

theorem digit?_digitChar {d : ℕ} (hd : d < 10) : digit? (Nat.digitChar d) = some d := by
  have hdigits : ∀ d : Fin 10, digit? (Nat.digitChar d) = some d.val := by decide
  exact hdigits ⟨d, hd⟩

/-- A number of `width` digits, which follow digits worth `total`, and what follows it. -/
def takeNat : ℕ → ℕ → List Char → Option (ℕ × List Char)
  | 0, total, cs => some (total, cs)
  | _ + 1, _, [] => none
  | width + 1, total, c :: cs => (digit? c).bind fun d => takeNat width (10 * total + d) cs

theorem takeNat_append_digit (total d : ℕ) (hd : d < 10) (ds cs : List Char) {k : ℕ}
    (h : ∀ rest, takeNat width total (ds ++ rest) = some (k, rest)) :
    takeNat (width + 1) total (ds ++ Nat.digitChar d :: cs) = some (10 * k + d, cs) := by
  induction width generalizing total ds with
  | zero =>
    have hnil := h []
    rw [takeNat, List.append_nil, Option.some.injEq, Prod.mk.injEq] at hnil
    obtain ⟨rfl, rfl⟩ := hnil
    rw [List.nil_append, takeNat, digit?_digitChar hd]
    rfl
  | succ width ih =>
    cases ds with
    | nil =>
      have hnil := h []
      cases hnil
    | cons c ds =>
      rw [List.cons_append, takeNat]
      cases hc : digit? c with
      | none =>
        have hrest := h []
        rw [List.cons_append, takeNat, hc] at hrest
        cases hrest
      | some e =>
        refine ih (10 * total + e) ds fun rest => ?_
        have hrest := h rest
        rwa [List.cons_append, takeNat, hc] at hrest

/-- What is written is read back, whatever follows it. -/
theorem takeNat_pad (hn : n < 10 ^ width) (rest : List Char) :
    takeNat width 0 (pad width n ++ rest) = some (n, rest) := by
  induction width generalizing n rest with
  | zero =>
    obtain rfl : n = 0 := by simpa using hn
    rfl
  | succ width ih =>
    rw [Nat.pow_succ] at hn
    have hrest := takeNat_append_digit 0 (n % 10) (Nat.mod_lt n (by decide)) (pad width (n / 10)) rest
      fun rest => ih (n := n / 10) (by omega) rest
    rw [pad, List.append_assoc, List.singleton_append, hrest]
    congr 2
    omega

end FixedWidth
