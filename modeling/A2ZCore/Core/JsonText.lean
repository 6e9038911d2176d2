import A2ZCore.Core.IsoFormat

/-!
# JSON as text

`json.dumps` with its defaults, and `json.loads`. What `dumps` writes is printable ASCII on one line,
since every other character of a string is escaped, and `loads` reads it back, whatever follows that does
not go on with a number.

A float is a decimal fraction, written as `float.__repr__` writes it. `loads` reads the documents there
are: not `NaN`, and no escape of half a surrogate pair.

## Main definitions

* `Json.plain` — the values that are the same dicts, lists, strings and numbers when they are read
* `Json.text`, `Json.dumps` — a value as text
* `Json.loads` — reading

## Main results

* `Json.printable_text` — what is written has no line break
* `Json.loads_dumps` — what is written is read back
-/

namespace A2ZCore

open FixedWidth

namespace Json

/-! ### Strings -/

/-- `'\\u{0:04x}'`. -/
def hexEscape (n : ℕ) : List Char :=
  ['\\', 'u', Nat.digitChar (n / 4096 % 16), Nat.digitChar (n / 256 % 16), Nat.digitChar (n / 16 % 16),
    Nat.digitChar (n % 16)]

/-- How `py_encode_basestring_ascii` writes a character: one beyond the sixteen-bit ones as a surrogate
pair. -/
def escapeChar (c : Char) : List Char :=
  if c = '"' then ['\\', '"']
  else if c = '\\' then ['\\', '\\']
  else if c = '\n' then ['\\', 'n']
  else if c = '\r' then ['\\', 'r']
  else if c = '\t' then ['\\', 't']
  else if c = '\x0c' then ['\\', 'f']
  else if c = '\x08' then ['\\', 'b']
  else if 32 ≤ c.toNat ∧ c.toNat ≤ 126 then [c]
  else if c.toNat < 65536 then hexEscape c.toNat
  else hexEscape (55296 + (c.toNat - 65536) / 1024) ++ hexEscape (56320 + (c.toNat - 65536) % 1024)

/-- A string, in quotes. -/
def stringText (s : String) : List Char := '"' :: (s.toList.flatMap escapeChar ++ ['"'])

/-! ### Numbers -/

/-- `float.__repr__` of a fraction that is not zero: with an exponent if there are four zeros or more
after the point. -/
def floatText (mantissa : ℕ) (scale : ℕ) : List Char :=
  let ds := Nat.toDigits 10 mantissa
  if scale < ds.length + 4 then
    Nat.toDigits 10 (mantissa / 10 ^ scale) ++ '.' :: pad scale (mantissa % 10 ^ scale)
  else
    ds.take 1 ++ (if ds.drop 1 = [] then [] else '.' :: ds.drop 1) ++ 'e' :: '-' ::
      (zeroPad 2 (scale + 1 - ds.length)).toList

/-- A number, after its sign. -/
def signed (m : ℤ) (text : List Char) : List Char := if m < 0 then '-' :: text else text

/-! ### Writing -/

mutual

/-- `json.dumps`. -/
def text : Json → List Char
  | .null => ['n', 'u', 'l', 'l']
  | .bool true => ['t', 'r', 'u', 'e']
  | .bool false => ['f', 'a', 'l', 's', 'e']
  | .int n => signed n (Nat.toDigits 10 n.natAbs)
  | .float m s => signed m (floatText m.natAbs s)
  | .str s => stringText s
  | .arr [] => ['[', ']']
  | .arr (v :: vs) => '[' :: (text v ++ itemsText vs)
  | .obj [] => ['\x7b', '\x7d']
  | .obj ((k, v) :: fields) =>
    '\x7b' :: (stringText k ++ (':' :: ' ' :: (text v ++ fieldsText fields)))

/-- The other items of a list, and its end. -/
def itemsText : List Json → List Char
  | [] => [']']
  | v :: vs => ',' :: ' ' :: (text v ++ itemsText vs)

/-- The other fields of a dict, and its end. -/
def fieldsText : List (String × Json) → List Char
  | [] => ['\x7d']
  | (k, v) :: fields =>
    ',' :: ' ' :: (stringText k ++ (':' :: ' ' :: (text v ++ fieldsText fields)))

end

/-- `json.dumps(v)`. -/
def dumps (v : Json) : String := String.ofList v.text

/-! ### Reading strings -/

/-- The value of a hexadecimal digit. -/
def hexDigit? (c : Char) : Option ℕ :=
  if '0' ≤ c ∧ c ≤ '9' then some (c.toNat - 48)
  else if 'a' ≤ c ∧ c ≤ 'f' then some (c.toNat - 87)
  else if 'A' ≤ c ∧ c ≤ 'F' then some (c.toNat - 55)
  else none

/-- `_decode_uXXXX`. -/
def decodeHex (a b c d : Char) : Option ℕ := do
  return (((← hexDigit? a) * 16 + (← hexDigit? b)) * 16 + (← hexDigit? c)) * 16 + (← hexDigit? d)

/-- `BACKSLASH`. -/
def unescape (c : Char) : Option Char :=
  if c = '"' ∨ c = '\\' ∨ c = '/' then some c
  else if c = 'b' then some '\x08'
  else if c = 'f' then some '\x0c'
  else if c = 'n' then some '\n'
  else if c = 'r' then some '\r'
  else if c = 't' then some '\t'
  else none

/-- `py_scanstring`, after the opening quote: the string, and what follows the closing one. A surrogate
has to be half of a pair. -/
def readString : List Char → Option (List Char × List Char)
  | [] => none
  | c :: cs =>
    if c = '"' then some ([], cs)
    else if c = '\\' then
      match cs with
      | 'u' :: x₁ :: x₂ :: x₃ :: x₄ :: rest =>
        match decodeHex x₁ x₂ x₃ x₄ with
        | none => none
        | some n =>
          if 55296 ≤ n ∧ n < 56320 then
            match rest with
            | '\\' :: 'u' :: y₁ :: y₂ :: y₃ :: y₄ :: rest =>
              match decodeHex y₁ y₂ y₃ y₄ with
              | none => none
              | some m =>
                if 56320 ≤ m ∧ m < 57344 then
                  (readString rest).map fun r =>
                    (Char.ofNat (65536 + (n - 55296) * 1024 + (m - 56320)) :: r.1, r.2)
                else none
            | _ => none
          else if 56320 ≤ n ∧ n < 57344 then none
          else (readString rest).map fun r => (Char.ofNat n :: r.1, r.2)
      | e :: rest =>
        match unescape e with
        | none => none
        | some d => (readString rest).map fun r => (d :: r.1, r.2)
      | [] => none
    else if c.toNat < 32 then none
    else (readString cs).map fun r => (c :: r.1, r.2)

/-! ### Reading numbers -/

/-- The digits after a point, if there are any, and what follows. -/
def readPoint : List Char → List Char × List Char
  | '.' :: cs =>
    if cs.takeWhile Char.isDigit = [] then ([], '.' :: cs)
    else (cs.takeWhile Char.isDigit, cs.dropWhile Char.isDigit)
  | cs => ([], cs)

/-- The sign of an exponent, and what follows. -/
def readSign : List Char → Bool × List Char
  | '-' :: cs => (true, cs)
  | '+' :: cs => (false, cs)
  | cs => (false, cs)

/-- The exponent, if there is one, and what follows. -/
def readExponent : List Char → Option ℤ × List Char
  | [] => (none, [])
  | c :: cs =>
    if (c = 'e' ∨ c = 'E') ∧ (readSign cs).2.takeWhile Char.isDigit ≠ [] then
      let n : ℤ := Nat.ofDigitChars 10 ((readSign cs).2.takeWhile Char.isDigit) 0
      (some (if (readSign cs).1 then -n else n), (readSign cs).2.dropWhile Char.isDigit)
    else (none, c :: cs)

/-- The fraction `m / 10 ^ scale` in lowest terms. -/
def lowest (m : ℤ) : ℕ → Json
  | 0 => .int m
  | scale + 1 => if m % 10 = 0 then lowest (m / 10) scale else .float m (scale + 1)

/-- The number `m / 10 ^ scale`. -/
def decimal (m : ℤ) : ℤ → Json
  | .ofNat scale => lowest m scale
  | .negSucc k => .int (m * 10 ^ (k + 1))

/-- A number with the digits `whole`, and its fraction and exponent, if it has any. -/
def readTail (neg : Bool) (whole cs : List Char) : Json × List Char :=
  let fraction := readPoint cs
  let exponent := readExponent fraction.2
  let n : ℤ := Nat.ofDigitChars 10 (whole ++ fraction.1) 0
  let m := if neg then -n else n
  (if fraction.1 = [] ∧ exponent.1 = none then .int m
    else decimal m (fraction.1.length - exponent.1.getD 0), exponent.2)

/-- A number without its sign. No digit follows a leading zero. -/
def readUnsigned (neg : Bool) : List Char → Option (Json × List Char)
  | [] => none
  | c :: cs =>
    if c = '0' then some (readTail neg [c] cs)
    else if c.isDigit then
      some (readTail neg (c :: cs.takeWhile Char.isDigit) (cs.dropWhile Char.isDigit))
    else none

/-- `NUMBER_RE`. -/
def readNumber : List Char → Option (Json × List Char)
  | '-' :: cs => readUnsigned true cs
  | cs => readUnsigned false cs

/-! ### Reading values -/

/-- `WHITESPACE`. -/
def skipSpace (cs : List Char) : List Char :=
  cs.dropWhile fun c => c = ' ' ∨ c = '\t' ∨ c = '\n' ∨ c = '\r'

/-- A literal after its first character. -/
def readLiteral (v : Json) (rest cs : List Char) : Option (Json × List Char) :=
  if rest.isPrefixOf cs then some (v, cs.drop rest.length) else none

/-- The dict of a list of pairs. -/
def dict (pairs : List (String × Json)) : List (String × Json) :=
  pairs.foldl (fun d kv => set kv.1 kv.2 d) []

mutual

/-- `scan_once`. -/
def readValue : ℕ → List Char → Option (Json × List Char)
  | 0, _ => none
  | _ + 1, [] => none
  | fuel + 1, c :: cs =>
    if c = '"' then (readString cs).map fun r => (.str (String.ofList r.1), r.2)
    else if c = '\x7b' then
      match skipSpace cs with
      | '\x7d' :: cs => some (.obj [], cs)
      | cs => do
        let (field, cs) ← readField fuel cs
        let (fields, cs) ← readFields fuel cs
        return (.obj (dict (field :: fields)), cs)
    else if c = '[' then
      match skipSpace cs with
      | ']' :: cs => some (.arr [], cs)
      | cs => do
        let (v, cs) ← readValue fuel cs
        let (vs, cs) ← readItems fuel cs
        return (.arr (v :: vs), cs)
    else if c = 'n' then readLiteral .null ['u', 'l', 'l'] cs
    else if c = 't' then readLiteral (.bool true) ['r', 'u', 'e'] cs
    else if c = 'f' then readLiteral (.bool false) ['a', 'l', 's', 'e'] cs
    else readNumber (c :: cs)

/-- The other items of a list, and what follows its end. -/
def readItems : ℕ → List Char → Option (List Json × List Char)
  | 0, _ => none
  | fuel + 1, cs =>
    match skipSpace cs with
    | ']' :: cs => some ([], cs)
    | ',' :: cs => do
      let (v, cs) ← readValue fuel (skipSpace cs)
      let (vs, cs) ← readItems fuel cs
      return (v :: vs, cs)
    | _ => none

/-- A field of a dict. -/
def readField : ℕ → List Char → Option ((String × Json) × List Char)
  | fuel + 1, '"' :: cs => do
    let (k, cs) ← readString cs
    let cs ← expect ':' (skipSpace cs)
    let (v, cs) ← readValue fuel (skipSpace cs)
    return ((String.ofList k, v), cs)
  | _, _ => none

/-- The other fields of a dict, and what follows its end. -/
def readFields : ℕ → List Char → Option (List (String × Json) × List Char)
  | 0, _ => none
  | fuel + 1, cs =>
    match skipSpace cs with
    | '\x7d' :: cs => some ([], cs)
    | ',' :: cs => do
      let (field, cs) ← readField fuel (skipSpace cs)
      let (fields, cs) ← readFields fuel cs
      return (field :: fields, cs)
    | _ => none

end

/-- `json.loads(s)`. -/
def loads (s : String) : Option Json := do
  let (v, cs) ← readValue (s.length + 1) (skipSpace s.toList)
  if skipSpace cs = [] then some v else none

/-! ### Values -/

mutual

/-- The keys of each dict are different, and each float is a fraction in lowest terms that is not
integral. -/
def plain : Json → Bool
  | .null | .bool _ | .int _ | .str _ => true
  | .float m s => decide (s ≠ 0) && decide (m % 10 ≠ 0)
  | .arr vs => plainItems vs
  | .obj fields => decide (fields.map Prod.fst).Nodup && plainFields fields

@[inherit_doc plain]
def plainItems : List Json → Bool
  | [] => true
  | v :: vs => plain v && plainItems vs

@[inherit_doc plain]
def plainFields : List (String × Json) → Bool
  | [] => true
  | (_, v) :: fields => plain v && plainFields fields

end

/-! ### What is written is printable -/

/-- The characters are printable ASCII. -/
def Printable (cs : List Char) : Prop := ∀ c ∈ cs, 32 ≤ c.toNat ∧ c.toNat ≤ 126

instance (cs : List Char) : Decidable (Printable cs) :=
  List.decidableBAll _ cs

theorem Printable.append {cs ds : List Char} (hcs : Printable cs) (hds : Printable ds) :
    Printable (cs ++ ds) := fun c hc => (List.mem_append.mp hc).elim (hcs c) (hds c)

theorem Printable.cons {c : Char} {cs : List Char} (hc : 32 ≤ c.toNat ∧ c.toNat ≤ 126)
    (hcs : Printable cs) : Printable (c :: cs) := by
  intro d hd
  rcases List.mem_cons.mp hd with rfl | hd
  · exact hc
  · exact hcs d hd

theorem printable_nil : Printable [] := fun _ hc => absurd hc List.not_mem_nil

theorem printable_of_digits {cs : List Char} (h : ∀ c ∈ cs, c.isDigit = true) : Printable cs := by
  intro c hc
  have hdigit := h c hc
  simp only [Char.isDigit, Bool.and_eq_true, decide_eq_true_eq, ge_iff_le] at hdigit
  have hlow : 48 ≤ c.toNat := hdigit.1
  have hhigh : c.toNat ≤ 57 := hdigit.2
  omega

theorem isDigit_of_mem_digits {n : ℕ} : ∀ c ∈ Nat.toDigits 10 n, c.isDigit = true :=
  fun _ hc => Nat.isDigit_of_mem_toDigits (by decide) (by decide) hc

theorem printable_hexEscape (n : ℕ) : Printable (hexEscape n) := by
  have hdigits : ∀ d : Fin 16, 32 ≤ d.val.digitChar.toNat ∧ d.val.digitChar.toNat ≤ 126 := by decide
  have hdigit : ∀ k : ℕ, 32 ≤ (k % 16).digitChar.toNat ∧ (k % 16).digitChar.toNat ≤ 126 :=
    fun k => hdigits ⟨k % 16, Nat.mod_lt k (by decide)⟩
  exact .cons (by decide) (.cons (by decide) (.cons (hdigit _) (.cons (hdigit _) (.cons (hdigit _)
    (.cons (hdigit _) printable_nil)))))

theorem printable_escapeChar (c : Char) : Printable (escapeChar c) := by
  have hpair : ∀ d : Char, 32 ≤ d.toNat ∧ d.toNat ≤ 126 → Printable ['\\', d] :=
    fun d hd => .cons (by decide) (.cons hd printable_nil)
  unfold escapeChar
  split_ifs with _ _ _ _ _ _ _ hprintable
  · exact hpair _ (by decide)
  · exact hpair _ (by decide)
  · exact hpair _ (by decide)
  · exact hpair _ (by decide)
  · exact hpair _ (by decide)
  · exact hpair _ (by decide)
  · exact hpair _ (by decide)
  · exact .cons hprintable printable_nil
  · exact printable_hexEscape _
  · exact (printable_hexEscape _).append (printable_hexEscape _)

theorem printable_stringText (s : String) : Printable (stringText s) := by
  refine .cons (by decide) (.append (fun c hc => ?_) (.cons (by decide) printable_nil))
  obtain ⟨d, -, hd⟩ := List.mem_flatMap.mp hc
  exact printable_escapeChar d c hd

theorem printable_signed (m : ℤ) {cs : List Char} (h : Printable cs) : Printable (signed m cs) := by
  unfold signed
  split
  · exact .cons (by decide) h
  · exact h

theorem printable_floatText (n s : ℕ) : Printable (floatText n s) := by
  have hds : Printable (Nat.toDigits 10 n) := printable_of_digits isDigit_of_mem_digits
  unfold floatText
  dsimp only
  split
  · exact (printable_of_digits isDigit_of_mem_digits).append
      (.cons (by decide) (printable_of_digits fun _ => isDigit_of_mem_pad))
  · refine .append (.append (fun c hc => hds c (List.mem_of_mem_take hc)) ?_)
      (.cons (by decide) (.cons (by decide) (printable_of_digits fun _ => isDigit_of_mem_zeroPad)))
    split
    · exact printable_nil
    · exact .cons (by decide) fun c hc => hds c (List.mem_of_mem_drop hc)

mutual

/-- **What is written is printable ASCII**: it has no line break. -/
theorem printable_text : (v : Json) → Printable v.text
  | .null => by decide
  | .bool true => by decide
  | .bool false => by decide
  | .int n => printable_signed n (printable_of_digits isDigit_of_mem_digits)
  | .float m s => printable_signed m (printable_floatText m.natAbs s)
  | .str s => printable_stringText s
  | .arr [] => by decide
  | .arr (v :: vs) => .cons (by decide) ((printable_text v).append (printable_itemsText vs))
  | .obj [] => by decide
  | .obj ((k, v) :: fields) => .cons (by decide) ((printable_stringText k).append
      (.cons (by decide) (.cons (by decide) ((printable_text v).append (printable_fieldsText fields)))))

theorem printable_itemsText : (vs : List Json) → Printable (itemsText vs)
  | [] => by decide
  | v :: vs =>
    .cons (by decide) (.cons (by decide) ((printable_text v).append (printable_itemsText vs)))

theorem printable_fieldsText : (fields : List (String × Json)) → Printable (fieldsText fields)
  | [] => by decide
  | (k, v) :: fields => .cons (by decide) (.cons (by decide) ((printable_stringText k).append
      (.cons (by decide) (.cons (by decide) ((printable_text v).append (printable_fieldsText fields))))))

end

/-! ### Strings are read back -/

theorem hexDigit?_digitChar {d : ℕ} (hd : d < 16) : hexDigit? (Nat.digitChar d) = some d := by
  have hdigits : ∀ d : Fin 16, hexDigit? (Nat.digitChar d) = some d.val := by decide
  exact hdigits ⟨d, hd⟩

theorem decodeHex_digits {n : ℕ} (hn : n < 65536) :
    decodeHex (Nat.digitChar (n / 4096 % 16)) (Nat.digitChar (n / 256 % 16))
      (Nat.digitChar (n / 16 % 16)) (Nat.digitChar (n % 16)) = some n := by
  have hsum : ((n / 4096 % 16 * 16 + n / 256 % 16) * 16 + n / 16 % 16) * 16 + n % 16 = n := by omega
  have hlt : ∀ k : ℕ, k % 16 < 16 := fun k => Nat.mod_lt k (by decide)
  simp [decodeHex, hexDigit?_digitChar (hlt _), hsum]

/-- The escape of a character that is not a surrogate. -/
theorem readString_hexEscape {n : ℕ} (hn : n < 55296 ∨ 57344 ≤ n ∧ n < 65536) (rest : List Char) :
    readString (hexEscape n ++ rest) = (readString rest).map fun r => (Char.ofNat n :: r.1, r.2) := by
  have hdecode := decodeHex_digits (n := n) (by omega)
  have hhigh : ¬(55296 ≤ n ∧ n < 56320) := by omega
  have hlow : ¬(56320 ≤ n ∧ n < 57344) := by omega
  simp [hexEscape, readString, hdecode, hhigh, hlow]

/-- The escape of a surrogate pair. -/
theorem readString_pair {k : ℕ} (hk : k < 1048576) (rest : List Char) :
    readString (hexEscape (55296 + k / 1024) ++ hexEscape (56320 + k % 1024) ++ rest) =
      (readString rest).map fun r => (Char.ofNat (65536 + k) :: r.1, r.2) := by
  have hdecode := decodeHex_digits (n := 55296 + k / 1024) (by omega)
  have hdecode' := decodeHex_digits (n := 56320 + k % 1024) (by omega)
  have hhigh : 55296 ≤ 55296 + k / 1024 ∧ 55296 + k / 1024 < 56320 := by omega
  have hlow : 56320 ≤ 56320 + k % 1024 ∧ 56320 + k % 1024 < 57344 := by omega
  have hsum : 65536 + (55296 + k / 1024 - 55296) * 1024 + (56320 + k % 1024 - 56320) = 65536 + k := by
    omega
  rw [hexEscape, hexEscape]
  simp only [List.cons_append, List.nil_append]
  rw [readString]
  simp only [hdecode, hdecode', if_pos hhigh, if_pos hlow, hsum]
  simp

theorem readString_escapeChar (c : Char) (rest : List Char) :
    readString (escapeChar c ++ rest) = (readString rest).map fun r => (c :: r.1, r.2) := by
  have hvalid : c.toNat < 55296 ∨ 57343 < c.toNat ∧ c.toNat < 1114112 := c.valid
  unfold escapeChar
  by_cases h₁ : c = '"'
  · subst h₁
    simp [readString, unescape]
  by_cases h₂ : c = '\\'
  · subst h₂
    simp [readString, unescape]
  by_cases h₃ : c = '\n'
  · subst h₃
    simp [readString, unescape]
  by_cases h₄ : c = '\r'
  · subst h₄
    simp [readString, unescape]
  by_cases h₅ : c = '\t'
  · subst h₅
    simp [readString, unescape]
  by_cases h₆ : c = '\x0c'
  · subst h₆
    simp [readString, unescape]
  by_cases h₇ : c = '\x08'
  · subst h₇
    simp [readString, unescape]
  rw [if_neg h₁, if_neg h₂, if_neg h₃, if_neg h₄, if_neg h₅, if_neg h₆, if_neg h₇]
  by_cases hprintable : 32 ≤ c.toNat ∧ c.toNat ≤ 126
  · have hspace : ¬c.toNat < 32 := by omega
    rw [if_pos hprintable, List.singleton_append, readString.eq_def]
    simp [h₁, h₂, hspace]
  · rw [if_neg hprintable]
    by_cases hshort : c.toNat < 65536
    · rw [if_pos hshort, readString_hexEscape (by omega), Char.ofNat_toNat]
    · have hsum : 65536 + (c.toNat - 65536) = c.toNat := by omega
      rw [if_neg hshort, readString_pair (by omega), hsum, Char.ofNat_toNat]

theorem readString_flatMap (cs rest : List Char) :
    readString (cs.flatMap escapeChar ++ '"' :: rest) = some (cs, rest) := by
  induction cs with
  | nil =>
    rw [List.flatMap_nil, List.nil_append, readString.eq_def]
    simp
  | cons c cs ih =>
    rw [List.flatMap_cons, List.append_assoc, readString_escapeChar, ih]
    rfl

/-- A string is read back, whatever follows it. -/
theorem readString_tail_stringText (s : String) (rest : List Char) :
    readString ((stringText s).tail ++ rest) = some (s.toList, rest) := by
  rw [stringText, List.tail_cons, List.append_assoc, List.singleton_append, readString_flatMap]

/-! ### Numbers are read back -/

/-- What follows does not go on with digits. -/
def DigitsEnd (rest : List Char) : Prop := ∀ c ∈ rest.head?, c.isDigit = false

/-- What follows does not go on with a number. -/
def NumberEnds (rest : List Char) : Prop :=
  ∀ c ∈ rest.head?, c.isDigit = false ∧ c ≠ '.' ∧ c ≠ 'e' ∧ c ≠ 'E'

theorem NumberEnds.digitsEnd {rest : List Char} (h : NumberEnds rest) : DigitsEnd rest :=
  fun c hc => (h c hc).1

section Numbers

variable {ds rest : List Char} {neg : Bool}

/-- Digits are read to their end. -/
theorem takeWhile_digits (hds : ∀ c ∈ ds, c.isDigit = true) (hrest : DigitsEnd rest) :
    (ds ++ rest).takeWhile Char.isDigit = ds ∧ (ds ++ rest).dropWhile Char.isDigit = rest := by
  have hnone : rest.takeWhile Char.isDigit = [] ∧ rest.dropWhile Char.isDigit = rest := by
    cases rest with
    | nil => exact ⟨rfl, rfl⟩
    | cons c rest =>
      have hc := hrest c rfl
      simp [hc]
  rw [List.takeWhile_append_of_pos hds, List.dropWhile_append_of_pos hds, hnone.1, hnone.2,
    List.append_nil]
  exact ⟨rfl, rfl⟩

/-- No positive number is written with a leading zero. -/
theorem toDigits_eq_cons {n : ℕ} (hn : 0 < n) :
    ∃ d ds, Nat.toDigits 10 n = d :: ds ∧ d ≠ '0' := by
  induction n using Nat.strong_induction_on with
  | _ n ih =>
    by_cases hsmall : n < 10
    · refine ⟨n.digitChar, [], Nat.toDigits_of_lt_base hsmall, ?_⟩
      have hdigits : ∀ d : Fin 10, 0 < d.val → d.val.digitChar ≠ '0' := by decide
      exact hdigits ⟨n, hsmall⟩ hn
    · obtain ⟨d, ds, hds, hd⟩ := ih (n / 10) (by omega) (by omega)
      refine ⟨d, ds ++ [(n % 10).digitChar], ?_, hd⟩
      rw [Nat.toDigits_of_base_le (by decide) (by omega), hds, List.cons_append]

/-- The digits before the point. -/
theorem readUnsigned_toDigits (n : ℕ) (hrest : DigitsEnd rest) :
    readUnsigned neg (Nat.toDigits 10 n ++ rest) =
      some (readTail neg (Nat.toDigits 10 n) rest) := by
  rcases Nat.eq_zero_or_pos n with rfl | hpos
  · rfl
  · obtain ⟨d, ds, hds, hd⟩ := toDigits_eq_cons hpos
    have hall : ∀ c ∈ d :: ds, c.isDigit = true := hds ▸ isDigit_of_mem_digits
    obtain ⟨htake, hdrop⟩ := takeWhile_digits (fun c hc => hall c (List.mem_cons_of_mem _ hc)) hrest
    have hdigit := hall d List.mem_cons_self
    rw [hds, List.cons_append, readUnsigned, if_neg hd, if_pos hdigit, htake, hdrop]

theorem readExponent_of_ends (hrest : NumberEnds rest) : readExponent rest = (none, rest) := by
  cases rest with
  | nil => rfl
  | cons c rest =>
    obtain ⟨-, -, he, hE⟩ := hrest c rfl
    simp [readExponent, he, hE]

theorem readPoint_of_ne {c : Char} (hc : c ≠ '.') : readPoint (c :: rest) = ([], c :: rest) := by
  rw [readPoint]
  rintro _ ⟨⟩
  exact hc rfl

theorem readPoint_of_ends (hrest : NumberEnds rest) : readPoint rest = ([], rest) := by
  cases rest with
  | nil => rfl
  | cons c rest => exact readPoint_of_ne (hrest c rfl).2.1

/-- The digits after the point. -/
theorem readPoint_digits (hne : ds ≠ []) (hds : ∀ c ∈ ds, c.isDigit = true)
    (hrest : DigitsEnd rest) : readPoint ('.' :: (ds ++ rest)) = (ds, rest) := by
  obtain ⟨htake, hdrop⟩ := takeWhile_digits hds hrest
  rw [readPoint, htake, hdrop, if_neg hne]

/-- A negative exponent. -/
theorem readExponent_digits (hne : ds ≠ []) (hds : ∀ c ∈ ds, c.isDigit = true)
    (hrest : DigitsEnd rest) : readExponent ('e' :: '-' :: (ds ++ rest)) =
      (some (-(Nat.ofDigitChars 10 ds 0 : ℤ)), rest) := by
  obtain ⟨htake, hdrop⟩ := takeWhile_digits hds hrest
  simp [readExponent, readSign, htake, hdrop, hne]

/-- An integer. -/
theorem readUnsigned_int (n : ℕ) (hrest : NumberEnds rest) :
    readUnsigned neg (Nat.toDigits 10 n ++ rest) = some (.int (if neg then -n else n), rest) := by
  rw [readUnsigned_toDigits n hrest.digitsEnd]
  simp [readTail, readPoint_of_ends hrest, readExponent_of_ends hrest, Nat.ofDigitChars_ten_toDigits]

theorem lowest_of_ne {m : ℤ} {s : ℕ} (hs : s ≠ 0) (hm : m % 10 ≠ 0) : lowest m s = .float m s := by
  cases s with
  | zero => exact absurd rfl hs
  | succ s => rw [lowest, if_neg hm]

theorem pad_ne_nil {s k : ℕ} (hs : s ≠ 0) : pad s k ≠ [] := by
  intro h
  have hlen := congrArg List.length h
  rw [length_pad] at hlen
  exact hs hlen

theorem toList_zeroPad_ne_nil (width k : ℕ) : (zeroPad width k).toList ≠ [] := by
  intro h
  rw [toList_zeroPad_eq] at h
  exact Nat.toDigits_ne_nil (List.append_eq_nil_iff.mp h).2

theorem ofDigitChars_zeroPad (width k : ℕ) :
    Nat.ofDigitChars 10 (zeroPad width k).toList 0 = k := by
  rw [toList_zeroPad_eq, Nat.ofDigitChars_append, Nat.ofDigitChars_replicate_zero, Nat.mul_zero,
    Nat.ofDigitChars_ten_toDigits]

/-- A float. -/
theorem readUnsigned_float {n s : ℕ} (hs : s ≠ 0) (hn : n % 10 ≠ 0) (hrest : NumberEnds rest) :
    readUnsigned neg (floatText n s ++ rest) =
      some (.float (if neg then -n else n) s, rest) := by
  have hm : (if neg then -(n : ℤ) else n) % 10 ≠ 0 := by
    cases neg <;> simp <;> omega
  have hlowest := lowest_of_ne hs hm
  unfold floatText
  dsimp only
  by_cases hfixed : s < (Nat.toDigits 10 n).length + 4
  · have hpoint : readPoint ('.' :: (pad s (n % 10 ^ s) ++ rest)) = (pad s (n % 10 ^ s), rest) :=
      readPoint_digits (pad_ne_nil hs) (fun _ => isDigit_of_mem_pad) hrest.digitsEnd
    have hdot : DigitsEnd ('.' :: (pad s (n % 10 ^ s) ++ rest)) := by
      rintro c ⟨⟩
      rfl
    have hvalue : Nat.ofDigitChars 10 (Nat.toDigits 10 (n / 10 ^ s) ++ pad s (n % 10 ^ s)) 0 = n := by
      rw [Nat.ofDigitChars_append, Nat.ofDigitChars_ten_toDigits, ofDigitChars_pad, Nat.mod_mod,
        Nat.div_add_mod']
    rw [if_pos hfixed, List.append_assoc, List.cons_append, readUnsigned_toDigits _ hdot, readTail]
    simp only [hpoint, readExponent_of_ends hrest, hvalue, pad_ne_nil hs, false_and, if_false,
      length_pad, Option.getD_none, sub_zero]
    rw [← hlowest]
    rfl
  · obtain ⟨d, ds, hds, hd⟩ := toDigits_eq_cons (show 0 < n by omega)
    rw [if_neg hfixed, hds]
    rw [hds, List.length_cons] at hfixed
    have hall : ∀ c ∈ d :: ds, c.isDigit = true := hds ▸ isDigit_of_mem_digits
    have hvalue : Nat.ofDigitChars 10 (d :: ds) 0 = n := hds ▸ Nat.ofDigitChars_ten_toDigits
    have hexponent := readExponent_digits (toList_zeroPad_ne_nil 2 (s + 1 - (ds.length + 1)))
      (fun _ => isDigit_of_mem_zeroPad) hrest.digitsEnd
    rw [ofDigitChars_zeroPad] at hexponent
    set tail := 'e' :: '-' :: ((zeroPad 2 (s + 1 - (ds.length + 1))).toList ++ rest) with htail
    have hpoint : readPoint ((if ds = [] then [] else '.' :: ds) ++ tail) = (ds, tail) := by
      by_cases hone : ds = []
      · rw [if_pos hone, hone]
        exact readPoint_of_ne (by decide)
      · have htailEnd : DigitsEnd tail := by
          rintro c ⟨⟩
          rfl
        rw [if_neg hone]
        exact readPoint_digits hone (fun c hc => hall c (List.mem_cons_of_mem _ hc)) htailEnd
    have hnext : DigitsEnd ((if ds = [] then [] else '.' :: ds) ++ tail) := by
      by_cases hone : ds = []
      · rw [if_pos hone]
        rintro c ⟨⟩
        rfl
      · rw [if_neg hone]
        rintro c ⟨⟩
        rfl
    have hscale : (ds.length : ℤ) - -((s + 1 - (ds.length + 1) : ℕ) : ℤ) = (s : ℤ) := by omega
    have htext : (d :: ds).take 1 ++ (if (d :: ds).drop 1 = [] then [] else '.' :: (d :: ds).drop 1) ++
        'e' :: '-' :: (zeroPad 2 (s + 1 - (d :: ds).length)).toList ++ rest =
          d :: ((if ds = [] then [] else '.' :: ds) ++ tail) := by
      simp [htail]
    have hwhole : ((if ds = [] then [] else '.' :: ds) ++ tail).takeWhile Char.isDigit = [] ∧
        ((if ds = [] then [] else '.' :: ds) ++ tail).dropWhile Char.isDigit =
          (if ds = [] then [] else '.' :: ds) ++ tail :=
      takeWhile_digits (fun c hc => absurd hc List.not_mem_nil) hnext
    rw [htext, readUnsigned, if_neg hd, if_pos (hall d List.mem_cons_self), hwhole.1, hwhole.2,
      readTail]
    simp only [hpoint, hexponent, List.singleton_append, hvalue, Option.getD_some, hscale, reduceCtorEq,
      and_false, if_false]
    rw [← hlowest]
    rfl

end Numbers

/-! ### Values are read back -/

theorem floatText_eq_cons (n s : ℕ) : ∃ d ds, floatText n s = d :: ds ∧ d.isDigit = true := by
  have hhead : ∀ k, ∃ d ds, Nat.toDigits 10 k = d :: ds ∧ d.isDigit = true := by
    intro k
    cases hk : Nat.toDigits 10 k with
    | nil => exact absurd hk Nat.toDigits_ne_nil
    | cons d ds => exact ⟨d, ds, rfl, isDigit_of_mem_digits (n := k) d (hk ▸ List.mem_cons_self)⟩
  unfold floatText
  dsimp only
  split
  · obtain ⟨d, ds, hds, hd⟩ := hhead (n / 10 ^ s)
    exact ⟨d, _, by rw [hds, List.cons_append], hd⟩
  · obtain ⟨d, ds, hds, hd⟩ := hhead n
    exact ⟨d, _, by rw [hds, List.take_succ_cons, List.cons_append, List.cons_append], hd⟩

/-- A value that begins with a sign or a digit is a number. -/
theorem readValue_of_numeric {c : Char} (hc : c = '-' ∨ c.isDigit = true) (fuel : ℕ)
    (cs : List Char) : readValue (fuel + 1) (c :: cs) = readNumber (c :: cs) := by
  have hne : ∀ d : Char, d ≠ '-' → d.isDigit = false → c ≠ d := by
    rintro d hsign hdigit rfl
    rcases hc with h | h
    · exact hsign h
    · rw [h] at hdigit
      cases hdigit
  rw [readValue, if_neg (hne _ (by decide) (by decide)), if_neg (hne _ (by decide) (by decide)),
    if_neg (hne _ (by decide) (by decide)), if_neg (hne _ (by decide) (by decide)),
    if_neg (hne _ (by decide) (by decide)), if_neg (hne _ (by decide) (by decide))]

/-- A number with its sign. -/
theorem readValue_signed {m : ℤ} {text : List Char} (h : ∃ d ds, text = d :: ds ∧ d.isDigit = true)
    (fuel : ℕ) (rest : List Char) : readValue (fuel + 1) (signed m text ++ rest) =
      readUnsigned (decide (m < 0)) (text ++ rest) := by
  obtain ⟨d, ds, rfl, hd⟩ := h
  unfold signed
  by_cases hneg : m < 0
  · rw [if_pos hneg, List.cons_append, readValue_of_numeric (.inl rfl), readNumber, decide_eq_true hneg]
  · have hsign : d ≠ '-' := by
      rintro rfl
      cases hd
    rw [if_neg hneg, List.cons_append, readValue_of_numeric (.inr hd), decide_eq_false hneg]
    rw [readNumber]
    rintro _ ⟨⟩
    exact hsign rfl

theorem skipSpace_cons {c : Char} (hc : ¬(c = ' ' ∨ c = '\t' ∨ c = '\n' ∨ c = '\r'))
    (cs : List Char) : skipSpace (c :: cs) = c :: cs := by
  simp [skipSpace, hc]

/-- A value begins with no space and no closing bracket. -/
theorem text_eq_cons (v : Json) : ∃ c cs, v.text = c :: cs ∧
    ¬(c = ' ' ∨ c = '\t' ∨ c = '\n' ∨ c = '\r') ∧ c ≠ ']' ∧ c ≠ '\x7d' := by
  have hnumber : ∀ (m : ℤ) (text : List Char), (∃ d ds, text = d :: ds ∧ d.isDigit = true) →
      ∃ c cs, signed m text = c :: cs ∧ ¬(c = ' ' ∨ c = '\t' ∨ c = '\n' ∨ c = '\r') ∧
        c ≠ ']' ∧ c ≠ '\x7d' := by
    rintro m _ ⟨d, ds, rfl, hd⟩
    unfold signed
    split
    · exact ⟨'-', d :: ds, rfl, by decide⟩
    · refine ⟨d, ds, rfl, ?_, ?_, ?_⟩
      · rintro (rfl | rfl | rfl | rfl) <;> cases hd
      · rintro rfl
        cases hd
      · rintro rfl
        cases hd
  cases v with
  | null => exact ⟨'n', _, rfl, by decide⟩
  | bool b => cases b <;> exact ⟨_, _, rfl, by decide⟩
  | int n =>
    refine hnumber n _ ?_
    cases hds : Nat.toDigits 10 n.natAbs with
    | nil => exact absurd hds Nat.toDigits_ne_nil
    | cons d ds => exact ⟨d, ds, rfl, isDigit_of_mem_digits d (hds ▸ List.mem_cons_self)⟩
  | float m s => exact hnumber m _ (floatText_eq_cons m.natAbs s)
  | str s => exact ⟨'"', _, rfl, by decide⟩
  | arr vs => cases vs <;> exact ⟨'[', _, rfl, by decide⟩
  | obj fields => cases fields <;> exact ⟨'\x7b', _, rfl, by decide⟩

theorem skipSpace_text (v : Json) (rest : List Char) :
    skipSpace (v.text ++ rest) = v.text ++ rest := by
  obtain ⟨c, cs, hv, hspace, -⟩ := v.text_eq_cons
  rw [hv, List.cons_append, skipSpace_cons hspace]

theorem numberEnds_itemsText (vs : List Json) (rest : List Char) : NumberEnds (itemsText vs ++ rest) := by
  cases vs <;> (rintro c ⟨⟩; decide)

theorem numberEnds_fieldsText (fields : List (String × Json)) (rest : List Char) :
    NumberEnds (fieldsText fields ++ rest) := by
  rcases fields with _ | ⟨⟨k, v⟩, fields⟩ <;> (rintro c ⟨⟩; decide)

/-- The dict of pairs with different keys is these pairs. -/
theorem dict_of_nodup {pairs : List (String × Json)} (h : (pairs.map Prod.fst).Nodup) :
    dict pairs = pairs := by
  have hset : ∀ (name : String) (value : Json) (d : List (String × Json)), name ∉ d.map Prod.fst →
      set name value d = d ++ [(name, value)] := by
    intro name value d
    induction d with
    | nil => exact fun _ => rfl
    | cons kv d ih =>
      intro hnot
      rw [List.map_cons, List.mem_cons, not_or] at hnot
      rw [set, if_neg (Ne.symm hnot.1), ih hnot.2, List.cons_append]
  have hfold : ∀ d : List (String × Json), ((d ++ pairs).map Prod.fst).Nodup →
      pairs.foldl (fun d kv => set kv.1 kv.2 d) d = d ++ pairs := by
    induction pairs with
    | nil => simp
    | cons kv pairs ih =>
      intro d hd
      have hnot : kv.1 ∉ d.map Prod.fst := by
        rw [List.map_append, List.nodup_append] at hd
        intro hmem
        exact hd.2.2 _ hmem _ (by simp) rfl
      rw [List.foldl_cons, hset _ _ _ hnot, ih (List.nodup_cons.mp h).2]
      · simp
      · simpa using hd
  exact hfold [] h

theorem readLiteral_append (v : Json) (literal rest : List Char) :
    readLiteral v literal (literal ++ rest) = some (v, rest) := by
  simp [readLiteral]

theorem skipSpace_space (v : Json) (rest : List Char) :
    skipSpace (' ' :: (v.text ++ rest)) = v.text ++ rest := by
  have htext := skipSpace_text v rest
  rw [skipSpace] at htext
  rw [skipSpace, List.dropWhile_cons_of_pos (by decide), htext]

theorem signed_natAbs (m : ℤ) :
    (if decide (m < 0) = true then -(m.natAbs : ℤ) else m.natAbs) = m := by
  simp only [decide_eq_true_eq]
  split <;> omega

/-- The name of a field and its value. -/
theorem readField_text {fuel : ℕ} {v : Json} {cs rest : List Char} (k : String)
    (hv : readValue fuel (v.text ++ cs) = some (v, rest)) :
    readField (fuel + 1) (stringText k ++ ':' :: ' ' :: (v.text ++ cs)) = some ((k, v), rest) := by
  have hname : stringText k ++ ':' :: ' ' :: (v.text ++ cs) =
      '"' :: ((stringText k).tail ++ ':' :: ' ' :: (v.text ++ cs)) := rfl
  have hcolon : skipSpace (':' :: ' ' :: (v.text ++ cs)) = ':' :: ' ' :: (v.text ++ cs) :=
    skipSpace_cons (by decide) _
  rw [hname, readField, readString_tail_stringText]
  simp only [Option.bind_eq_bind, Option.bind_some, hcolon, expect_cons, skipSpace_space, hv]
  rw [String.ofList_toList]
  rfl

/-- A text of some length needs some fuel. -/
theorem exists_fuel {cs : List Char} {fuel : ℕ} (hcs : cs ≠ []) (h : cs.length ≤ fuel) :
    ∃ n, fuel = n + 1 ∧ cs.length ≤ n + 1 := by
  have hpos := List.length_pos_of_ne_nil hcs
  exact ⟨fuel - 1, by omega, by omega⟩

mutual

/-- A value is read back, whatever follows that does not go on with a number. -/
theorem readValue_text : (v : Json) → v.plain = true → (fuel : ℕ) → v.text.length ≤ fuel →
    (rest : List Char) → NumberEnds rest → readValue fuel (v.text ++ rest) = some (v, rest)
  | .null, _, 0, h, _, _ => absurd h (by simp [text])
  | .null, _, fuel + 1, _, rest, _ => readLiteral_append .null ['u', 'l', 'l'] rest
  | .bool true, _, 0, h, _, _ => absurd h (by simp [text])
  | .bool true, _, fuel + 1, _, rest, _ => readLiteral_append (.bool true) ['r', 'u', 'e'] rest
  | .bool false, _, 0, h, _, _ => absurd h (by simp [text])
  | .bool false, _, fuel + 1, _, rest, _ => readLiteral_append (.bool false) ['a', 'l', 's', 'e'] rest
  | .int n, _, fuel, h, rest, hrest => by
    obtain ⟨c, cs, htext, -⟩ := text_eq_cons (.int n)
    obtain ⟨fuel, rfl, -⟩ := exists_fuel (by rw [htext]; simp) h
    have hhead : ∃ d ds, Nat.toDigits 10 n.natAbs = d :: ds ∧ d.isDigit = true := by
      cases hds : Nat.toDigits 10 n.natAbs with
      | nil => exact absurd hds Nat.toDigits_ne_nil
      | cons d ds => exact ⟨d, ds, rfl, isDigit_of_mem_digits d (hds ▸ List.mem_cons_self)⟩
    rw [text, readValue_signed hhead, readUnsigned_int _ hrest, signed_natAbs]
  | .float m s, hplain, fuel, h, rest, hrest => by
    obtain ⟨c, cs, htext, -⟩ := text_eq_cons (.float m s)
    obtain ⟨fuel, rfl, -⟩ := exists_fuel (by rw [htext]; simp) h
    simp only [plain, Bool.and_eq_true, decide_eq_true_eq] at hplain
    rw [text, readValue_signed (floatText_eq_cons _ _),
      readUnsigned_float hplain.1 (by omega) hrest, signed_natAbs]
  | .str s, _, 0, h, _, _ => absurd h (by simp [text, stringText])
  | .str s, _, fuel + 1, _, rest, _ => by
    have hquote : (Json.str s).text ++ rest = '"' :: ((stringText s).tail ++ rest) := rfl
    rw [hquote, readValue, if_pos rfl, readString_tail_stringText]
    simp
  | .arr [], _, 0, h, _, _ => absurd h (by simp [text])
  | .arr [], _, fuel + 1, _, rest, _ => rfl
  | .arr (v :: vs), _, 0, h, _, _ => absurd h (by simp [text])
  | .arr (v :: vs), hplain, fuel + 1, h, rest, _ => by
    simp only [plain, plainItems, Bool.and_eq_true] at hplain
    simp only [text, List.length_cons, List.length_append] at h
    have hv := readValue_text v hplain.1 fuel (by omega) (itemsText vs ++ rest)
      (numberEnds_itemsText vs rest)
    have hvs := readItems_text vs hplain.2 fuel (by omega) rest
    obtain ⟨c, cs, htext, hspace, hbracket, -⟩ := text_eq_cons v
    have hopen : (Json.arr (v :: vs)).text ++ rest = '[' :: (v.text ++ (itemsText vs ++ rest)) := by
      simp [text]
    rw [hopen, readValue, if_neg (by decide), if_neg (by decide), if_pos rfl, skipSpace_text]
    split
    · next heq =>
      rw [htext] at heq
      exact absurd (List.cons.inj heq).1 hbracket
    · simp only [hv, hvs, Option.bind_eq_bind, Option.bind_some]
      rfl
  | .obj [], _, 0, h, _, _ => absurd h (by simp [text])
  | .obj [], _, fuel + 1, _, rest, _ => rfl
  | .obj ((k, v) :: fields), _, 0, h, _, _ => absurd h (by simp [text])
  | .obj ((k, v) :: fields), hplain, fuel + 1, h, rest, _ => by
    simp only [plain, plainFields, Bool.and_eq_true, decide_eq_true_eq] at hplain
    simp only [text, stringText, List.length_cons, List.length_append] at h
    obtain ⟨fuel, rfl⟩ : ∃ n, fuel = n + 1 := ⟨fuel - 1, by omega⟩
    have hv := readValue_text v hplain.2.1 fuel (by omega) (fieldsText fields ++ rest)
      (numberEnds_fieldsText fields rest)
    have hfields := readFields_text fields hplain.2.2 (fuel + 1) (by omega) rest
    have hopen : (Json.obj ((k, v) :: fields)).text ++ rest =
        '\x7b' :: (stringText k ++ ':' :: ' ' :: (v.text ++ (fieldsText fields ++ rest))) := by
      simp [text]
    have hspace : skipSpace (stringText k ++ ':' :: ' ' :: (v.text ++ (fieldsText fields ++ rest))) =
        stringText k ++ ':' :: ' ' :: (v.text ++ (fieldsText fields ++ rest)) :=
      skipSpace_cons (by decide) _
    rw [hopen, readValue, if_neg (by decide), if_pos rfl, hspace]
    split
    · next heq => cases heq
    · simp only [readField_text k hv, hfields, Option.bind_eq_bind, Option.bind_some,
        dict_of_nodup hplain.1]
      rfl

/-- The other items of a list are read back. -/
theorem readItems_text : (vs : List Json) → plainItems vs = true → (fuel : ℕ) →
    (itemsText vs).length ≤ fuel → (rest : List Char) →
      readItems fuel (itemsText vs ++ rest) = some (vs, rest)
  | [], _, 0, h, _ => absurd h (by simp [itemsText])
  | [], _, fuel + 1, _, rest => rfl
  | v :: vs, _, 0, h, _ => absurd h (by simp [itemsText])
  | v :: vs, hplain, fuel + 1, h, rest => by
    simp only [plainItems, Bool.and_eq_true] at hplain
    simp only [itemsText, List.length_cons, List.length_append] at h
    have hv := readValue_text v hplain.1 fuel (by omega) (itemsText vs ++ rest)
      (numberEnds_itemsText vs rest)
    have hvs := readItems_text vs hplain.2 fuel (by omega) rest
    have hcomma : itemsText (v :: vs) ++ rest = ',' :: ' ' :: (v.text ++ (itemsText vs ++ rest)) := by
      simp [itemsText]
    rw [hcomma, readItems, skipSpace_cons (by decide)]
    simp only [skipSpace_space, hv, hvs, Option.bind_eq_bind, Option.bind_some]
    rfl

/-- The other fields of a dict are read back. -/
theorem readFields_text : (fields : List (String × Json)) → plainFields fields = true →
    (fuel : ℕ) → (fieldsText fields).length ≤ fuel → (rest : List Char) →
      readFields fuel (fieldsText fields ++ rest) = some (fields, rest)
  | [], _, 0, h, _ => absurd h (by simp [fieldsText])
  | [], _, fuel + 1, _, rest => rfl
  | (k, v) :: fields, _, 0, h, _ => absurd h (by simp [fieldsText])
  | (k, v) :: fields, hplain, fuel + 1, h, rest => by
    simp only [plainFields, Bool.and_eq_true] at hplain
    simp only [fieldsText, stringText, List.length_cons, List.length_append] at h
    obtain ⟨fuel, rfl⟩ : ∃ n, fuel = n + 1 := ⟨fuel - 1, by omega⟩
    have hv := readValue_text v hplain.1 fuel (by omega) (fieldsText fields ++ rest)
      (numberEnds_fieldsText fields rest)
    have hfields := readFields_text fields hplain.2 (fuel + 1) (by omega) rest
    have hcomma : fieldsText ((k, v) :: fields) ++ rest =
        ',' :: ' ' :: (stringText k ++ ':' :: ' ' :: (v.text ++ (fieldsText fields ++ rest))) := by
      simp [fieldsText]
    have hspace : skipSpace (' ' :: (stringText k ++ ':' :: ' ' ::
        (v.text ++ (fieldsText fields ++ rest)))) =
          stringText k ++ ':' :: ' ' :: (v.text ++ (fieldsText fields ++ rest)) := rfl
    rw [hcomma, readFields, skipSpace_cons (by decide)]
    simp only [hspace, readField_text k hv, hfields, Option.bind_eq_bind, Option.bind_some]
    rfl

end

/-- **What is written is read back.** -/
theorem loads_dumps {v : Json} (h : v.plain = true) : loads (dumps v) = some v := by
  have hends : NumberEnds [] := fun c hc => (nomatch hc)
  have hread := readValue_text v h (v.text.length + 1) (by omega) [] hends
  have hspace := skipSpace_text v []
  rw [List.append_nil] at hread hspace
  have hlen : (String.ofList v.text).length = v.text.length := by
    rw [← String.length_toList, String.toList_ofList]
  have hrest : skipSpace [] = [] := rfl
  rw [loads, dumps, hlen, String.toList_ofList, hspace, hread]
  simp only [Option.bind_eq_bind, Option.bind_some, hrest, if_true]

/-- Setting a field keeps a dict plain. -/
theorem plain_set {fields : List (String × Json)} (name : String) {value : Json}
    (h : (Json.obj fields).plain = true) (hvalue : value.plain = true) :
    (Json.obj (set name value fields)).plain = true := by
  have hkeys : ∀ fields : List (String × Json), ∀ k ∈ (set name value fields).map Prod.fst,
      k = name ∨ k ∈ fields.map Prod.fst := by
    intro fields
    induction fields with
    | nil => simp [set]
    | cons kv fields ih =>
      obtain ⟨k, v⟩ := kv
      rw [set]
      by_cases hk : k = name
      · simp [hk]
      · rw [if_neg hk]
        intro j hj
        rcases List.mem_cons.mp hj with rfl | hj
        · simp
        · rcases ih j hj with rfl | hmem
          · exact .inl rfl
          · exact .inr (List.mem_cons_of_mem _ hmem)
  induction fields with
  | nil => simpa [set, plain, plainFields] using hvalue
  | cons kv fields ih =>
    obtain ⟨k, v⟩ := kv
    simp only [plain, plainFields, List.map_cons, List.nodup_cons, Bool.and_eq_true,
      decide_eq_true_eq] at h ih
    obtain ⟨⟨hnot, hnodup⟩, hv, hfields⟩ := h
    rw [set]
    by_cases hk : k = name
    · rw [if_pos hk]
      simp only [plain, plainFields, List.map_cons, List.nodup_cons, Bool.and_eq_true,
        decide_eq_true_eq]
      exact ⟨⟨hnot, hnodup⟩, hvalue, hfields⟩
    · obtain ⟨hnodup', hfields'⟩ := ih ⟨hnodup, hfields⟩
      rw [if_neg hk]
      simp only [plain, plainFields, List.map_cons, List.nodup_cons, Bool.and_eq_true,
        decide_eq_true_eq]
      refine ⟨⟨fun hmem => ?_, hnodup'⟩, hv, hfields'⟩
      rcases hkeys fields k hmem with rfl | hold
      · exact hk rfl
      · exact hnot hold

end Json

end A2ZCore
