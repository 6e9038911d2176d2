import Mathlib

/-!
# Base64

Bytes as text of an alphabet of sixty-four characters, in groups of four for three bytes, the last of which
is padded. The decoder is the lenient one that many programs have: it discards what is not of the
alphabet, and stops at the padding of a group that is complete with it.

The padding says nothing that the length does not say, so that it may be left out of a text and be put
back before the text is decoded.

## Main definitions

* `encode`, `decode` — the codec
* `rstrip`, `repad` — a text without its padding, and with the padding that its length asks for

## Main results

* `decode_encode` — bytes are read back
* `repad_rstrip_encode` — padding that is left out is put back
-/

namespace Base64

/-! ### The alphabet -/

/-- The character of a sextet, of the alphabet for URLs. -/
def urlsafeChar (n : ℕ) : Char :=
  if n < 26 then Char.ofNat (n + 65)
  else if n < 52 then Char.ofNat (n + 71)
  else if n < 62 then Char.ofNat (n - 4)
  else if n = 62 then '-' else '_'

/-- The sextet of a character, of either alphabet. -/
def sextet? (c : Char) : Option ℕ :=
  if 'A' ≤ c ∧ c ≤ 'Z' then some (c.toNat - 65)
  else if 'a' ≤ c ∧ c ≤ 'z' then some (c.toNat - 71)
  else if '0' ≤ c ∧ c ≤ '9' then some (c.toNat + 4)
  else if c = '+' ∨ c = '-' then some 62
  else if c = '/' ∨ c = '_' then some 63
  else none

theorem sextet?_urlsafeChar : ∀ {n : ℕ}, n < 64 → sextet? (urlsafeChar n) = some n := by decide

theorem urlsafeChar_ne : ∀ {n : ℕ}, n < 64 → urlsafeChar n ≠ '=' := by decide

/-! ### The codec -/

/-- `base64.urlsafe_b64encode`. -/
def encode : List UInt8 → List Char
  | [] => []
  | [a] => [urlsafeChar (a.toNat / 4), urlsafeChar (a.toNat % 4 * 16), '=', '=']
  | [a, b] =>
    [urlsafeChar (a.toNat / 4), urlsafeChar (a.toNat % 4 * 16 + b.toNat / 16),
      urlsafeChar (b.toNat % 16 * 4), '=']
  | a :: b :: c :: bytes =>
    urlsafeChar (a.toNat / 4) :: urlsafeChar (a.toNat % 4 * 16 + b.toNat / 16) ::
      urlsafeChar (b.toNat % 16 * 4 + c.toNat / 64) :: urlsafeChar (c.toNat % 64) :: encode bytes

/-- `binascii.a2b_base64`, at a place of a group: what is left of the last sextet, and the padding that
has been read. -/
def decodeFrom : ℕ → ℕ → ℕ → List Char → Option (List UInt8)
  | quad, _, _, [] => if quad = 0 then some [] else none
  | quad, left, pads, c :: cs =>
    if c = '=' then
      if 2 ≤ quad ∧ 4 ≤ quad + (pads + 1) then some []
      else decodeFrom quad left (if 2 ≤ quad then pads + 1 else pads) cs
    else match sextet? c with
      | none => decodeFrom quad left pads cs
      | some n => match quad with
        | 0 => decodeFrom 1 n 0 cs
        | 1 => (decodeFrom 2 (n % 16) 0 cs).map (UInt8.ofNat (left * 4 + n / 16) :: ·)
        | 2 => (decodeFrom 3 (n % 4) 0 cs).map (UInt8.ofNat (left * 16 + n / 4) :: ·)
        | _ => (decodeFrom 0 0 0 cs).map (UInt8.ofNat (left * 64 + n) :: ·)

/-- `base64.urlsafe_b64decode`. -/
def decode (cs : List Char) : Option (List UInt8) := decodeFrom 0 0 0 cs

section Decode

variable {n left pads : ℕ} (cs : List Char)

theorem decodeFrom_zero (hn : n < 64) :
    decodeFrom 0 left pads (urlsafeChar n :: cs) = decodeFrom 1 n 0 cs := by
  rw [decodeFrom, if_neg (urlsafeChar_ne hn), sextet?_urlsafeChar hn]
  rfl

theorem decodeFrom_one (hn : n < 64) :
    decodeFrom 1 left pads (urlsafeChar n :: cs) =
      (decodeFrom 2 (n % 16) 0 cs).map (UInt8.ofNat (left * 4 + n / 16) :: ·) := by
  rw [decodeFrom, if_neg (urlsafeChar_ne hn), sextet?_urlsafeChar hn]
  rfl

theorem decodeFrom_two (hn : n < 64) :
    decodeFrom 2 left pads (urlsafeChar n :: cs) =
      (decodeFrom 3 (n % 4) 0 cs).map (UInt8.ofNat (left * 16 + n / 4) :: ·) := by
  rw [decodeFrom, if_neg (urlsafeChar_ne hn), sextet?_urlsafeChar hn]
  rfl

theorem decodeFrom_three (hn : n < 64) :
    decodeFrom 3 left pads (urlsafeChar n :: cs) =
      (decodeFrom 0 0 0 cs).map (UInt8.ofNat (left * 64 + n) :: ·) := by
  rw [decodeFrom, if_neg (urlsafeChar_ne hn), sextet?_urlsafeChar hn]
  rfl

end Decode

theorem ofNat_eq {a : UInt8} {n : ℕ} (h : n = a.toNat) : UInt8.ofNat n = a := by
  rw [h, UInt8.ofNat_toNat]

/-- **Bytes are read back.** -/
theorem decode_encode : (bytes : List UInt8) → decode (encode bytes) = some bytes
  | [] => rfl
  | [a] => by
    have ha : a.toNat < 256 := a.toNat_lt
    rw [encode, decode, decodeFrom_zero _ (by omega), decodeFrom_one _ (by omega),
      ofNat_eq (a := a) (by omega)]
    rfl
  | [a, b] => by
    have ha : a.toNat < 256 := a.toNat_lt
    have hb : b.toNat < 256 := b.toNat_lt
    rw [encode, decode, decodeFrom_zero _ (by omega), decodeFrom_one _ (by omega),
      decodeFrom_two _ (by omega), ofNat_eq (a := a) (by omega), ofNat_eq (a := b) (by omega)]
    rfl
  | a :: b :: c :: bytes => by
    have ha : a.toNat < 256 := a.toNat_lt
    have hb : b.toNat < 256 := b.toNat_lt
    have hc : c.toNat < 256 := c.toNat_lt
    have ih : decodeFrom 0 0 0 (encode bytes) = some bytes := decode_encode bytes
    rw [encode, decode, decodeFrom_zero _ (by omega), decodeFrom_one _ (by omega),
      decodeFrom_two _ (by omega), decodeFrom_three _ (by omega), ih, ofNat_eq (a := a) (by omega),
      ofNat_eq (a := b) (by omega), ofNat_eq (a := c) (by omega)]
    rfl

/-! ### Padding -/

/-- `text.rstrip("=")`. -/
def rstrip (cs : List Char) : List Char := cs.rdropWhile (· == '=')

/-- `text + "=" * (-len(text) % 4)`. -/
def repad (cs : List Char) : List Char :=
  cs ++ List.replicate ((-(cs.length : ℤ)) % 4).toNat '='

theorem rstrip_cons {c : Char} (hc : c ≠ '=') (cs : List Char) :
    rstrip (c :: cs) = c :: rstrip cs := by
  have hc : (c == '=') = false := beq_false_of_ne hc
  unfold rstrip
  induction cs using List.reverseRecOn with
  | nil => simp [List.rdropWhile_singleton, hc]
  | append_singleton cs d ih =>
    rw [← List.cons_append, List.rdropWhile_concat, List.rdropWhile_concat]
    split
    · exact ih
    · rfl

/-- A group of four characters asks for no padding. -/
theorem repad_cons (a b c d : Char) (cs : List Char) :
    repad (a :: b :: c :: d :: cs) = a :: b :: c :: d :: repad cs := by
  have hlength : (-((a :: b :: c :: d :: cs).length : ℤ)) % 4 = (-(cs.length : ℤ)) % 4 := by
    simp only [List.length_cons]
    omega
  rw [repad, hlength]
  rfl

/-- **Padding that is left out is put back.** -/
theorem repad_rstrip_encode : (bytes : List UInt8) → repad (rstrip (encode bytes)) = encode bytes
  | [] => rfl
  | [a] => by
    have ha : a.toNat < 256 := a.toNat_lt
    rw [encode, rstrip_cons (urlsafeChar_ne (by omega)), rstrip_cons (urlsafeChar_ne (by omega))]
    rfl
  | [a, b] => by
    have ha : a.toNat < 256 := a.toNat_lt
    have hb : b.toNat < 256 := b.toNat_lt
    rw [encode, rstrip_cons (urlsafeChar_ne (by omega)), rstrip_cons (urlsafeChar_ne (by omega)),
      rstrip_cons (urlsafeChar_ne (by omega))]
    rfl
  | a :: b :: c :: bytes => by
    have ha : a.toNat < 256 := a.toNat_lt
    have hb : b.toNat < 256 := b.toNat_lt
    have hc : c.toNat < 256 := c.toNat_lt
    rw [encode, rstrip_cons (urlsafeChar_ne (by omega)), rstrip_cons (urlsafeChar_ne (by omega)),
      rstrip_cons (urlsafeChar_ne (by omega)), rstrip_cons (urlsafeChar_ne (by omega)), repad_cons,
      repad_rstrip_encode bytes]

end Base64
