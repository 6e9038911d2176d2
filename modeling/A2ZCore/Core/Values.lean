import Mathlib

/-!
# Python values

The values the modelled code passes around that are not already Lean's: exceptions, dates and
times, JSON documents, byte strings. Text is `String`, integers are `ℤ`, and a number
that a JSON document has with a fraction or an exponent is a decimal fraction.

## Main definitions

* `ErrClass`, `PyErr` — exception classes and exceptions
* `Date`, `DateTime` — `datetime.date` and UTC `datetime.datetime`, with the formats used
* `Json` — a JSON document, with `dict.get` and truthiness
* `pyRepr`, `zeroPad` — `repr` of a string, `:0nd` formatting
-/

namespace A2ZCore

/-- The exception classes that the modelled code raises, or tells apart when it catches. -/
inductive ErrClass where
  -- botocore, SQLAlchemy, the standard library, pydantic
  | clientError (code : String)
  | botoCoreError
  | integrityError
  | dbApiError
  | multipleResultsFound
  | keyError
  | typeError
  | attributeError
  | invalidOperation
  | decimalOverflow
  | validationError
  | exception (name : String)
  -- app.core.exceptions
  | notFoundError
  | auditError
  | eventError
  | emailError
  | suppressionListError
  | invalidAddressError
  | rateLimitError (retryAfter : ℤ)
  | fileTooLargeError
  | storageError
  | settingsError
  | secretNotFoundError
  -- app.services.invoicing.exceptions
  | invoiceNotFoundError
  | invoiceForbiddenError
  | invalidStateTransitionError
  | invoiceValidationError
  -- app.services.omnichannel.exceptions
  | channelAdapterError
  | webhookSignatureError
  | connectionNotFoundError
  | conversationNotFoundError
  | conversationAlreadyAssignedError
  | forbiddenError
  | invalidQueryError
  deriving DecidableEq, Repr

/-- An exception: its class and `str(exc)`. -/
structure PyErr where
  cls : ErrClass
  text : String
  deriving DecidableEq, Repr

theorem bind_eq_ok {α β : Type} {x : Except PyErr α} {f : α → Except PyErr β} {b : β} :
    (x >>= f) = .ok b ↔ ∃ a, x = .ok a ∧ f a = .ok b := by
  cases x with
  | error e => exact ⟨fun h => (nomatch h), fun ⟨_, h, _⟩ => (nomatch h)⟩
  | ok a => exact ⟨fun h => ⟨a, rfl, h⟩, fun ⟨_, h₁, h⟩ => by cases h₁; exact h⟩

/-- A byte string. -/
abbrev Bytes := List UInt8

/-- `f"{n:0{width}d}"` for a non-negative number. -/
def zeroPad (width n : ℕ) : String :=
  String.ofList (List.replicate (width - (toString n).length) '0') ++ toString n

/-- How `repr` writes one character of a string quoted with `quote`. Only the ASCII control
characters are unprintable here. -/
def pyReprChar (quote c : Char) : String :=
  let hex (n : ℕ) : Char := if n < 10 then Char.ofNat (48 + n) else Char.ofNat (87 + n)
  if c = '\\' then "\\\\"
  else if c = quote then String.ofList ['\\', c]
  else if c = '\n' then "\\n"
  else if c = '\r' then "\\r"
  else if c = '\t' then "\\t"
  else if c.toNat < 32 ∨ c.toNat = 127 then
    String.ofList ['\\', 'x', hex (c.toNat / 16), hex (c.toNat % 16)]
  else String.ofList [c]

/-- `repr(s)`: single quotes, unless the string has a single quote and no double quote. -/
def pyRepr (s : String) : String :=
  let quote : Char := if s.toList.contains '\'' ∧ ¬s.toList.contains '"' then '"' else '\''
  String.ofList [quote] ++ String.join (s.toList.map (pyReprChar quote)) ++ String.ofList [quote]

/-- `str.isspace` of one character, which is also what `\s` matches. -/
def pyIsSpace (c : Char) : Bool :=
  let n := c.toNat
  (9 ≤ n && n ≤ 13) || (28 ≤ n && n ≤ 32) || n == 0x85 || n == 0xa0 || n == 0x1680 ||
    (0x2000 ≤ n && n ≤ 0x200a) || n == 0x2028 || n == 0x2029 || n == 0x202f || n == 0x205f ||
    n == 0x3000

theorem pyIsSpace_of_isDigit {c : Char} (h : c.isDigit) : pyIsSpace c = false := by
  have hrange : 48 ≤ c.toNat ∧ c.toNat ≤ 57 := by
    simpa [Char.isDigit, UInt32.le_iff_toNat_le] using h
  simp [pyIsSpace]
  omega

/-- `s.strip()`. -/
def pyStrip (cs : List Char) : List Char :=
  ((cs.dropWhile pyIsSpace).reverse.dropWhile pyIsSpace).reverse

/-- The value of decimal digits, with single underscores between them; `total` is the value read so
far. -/
def parseDigits (total : ℕ) (afterDigit : Bool) : List Char → Option ℕ
  | [] => if afterDigit then some total else none
  | c :: cs =>
    if '0' ≤ c ∧ c ≤ '9' then parseDigits (10 * total + (c.toNat - 48)) true cs
    else if c = '_' ∧ afterDigit then parseDigits total false cs
    else none

/-- `int(s)`, for the ASCII digits. -/
def parseInt (s : String) : Except PyErr ℤ :=
  let value : Option ℤ := match pyStrip s.toList with
    | '-' :: cs => (parseDigits 0 false cs).map fun n => -(n : ℤ)
    | '+' :: cs => (parseDigits 0 false cs).map fun n => (n : ℤ)
    | cs => (parseDigits 0 false cs).map fun n => (n : ℤ)
  match value with
  | some n => .ok n
  | none => .error ⟨.exception "ValueError", "invalid literal for int() with base 10: " ++ pyRepr s⟩

/-! ### Dates and times -/

/-- `datetime.date`. -/
structure Date where
  year : ℕ
  month : ℕ
  day : ℕ
  deriving DecidableEq, Repr

/-- `date.isoformat()`. -/
def Date.isoformat (d : Date) : String :=
  zeroPad 4 d.year ++ "-" ++ zeroPad 2 d.month ++ "-" ++ zeroPad 2 d.day

/-- A `datetime.datetime` in UTC, to the microsecond. -/
structure DateTime where
  date : Date
  hour : ℕ
  minute : ℕ
  second : ℕ
  microsecond : ℕ
  deriving DecidableEq, Repr

namespace DateTime

/-- `datetime.isoformat()`, which leaves out a zero microsecond. -/
def isoformat (t : DateTime) : String :=
  t.date.isoformat ++ "T" ++ zeroPad 2 t.hour ++ ":" ++ zeroPad 2 t.minute ++ ":" ++
    zeroPad 2 t.second ++ (if t.microsecond = 0 then "" else "." ++ zeroPad 6 t.microsecond) ++
    "+00:00"

/-- `strftime("%Y%m%d-%H%M%S-%f")`. -/
def stamp (t : DateTime) : String :=
  zeroPad 4 t.date.year ++ zeroPad 2 t.date.month ++ zeroPad 2 t.date.day ++ "-" ++
    zeroPad 2 t.hour ++ zeroPad 2 t.minute ++ zeroPad 2 t.second ++ "-" ++
    zeroPad 6 t.microsecond

/-- The position of a time among all times: field by field, most significant first. -/
def ordinal (t : DateTime) : ℕ :=
  (((((t.date.year * 13 + t.date.month) * 32 + t.date.day) * 24 + t.hour) * 60 + t.minute) * 60 +
    t.second) * 1000000 + t.microsecond

end DateTime

/-! ### JSON documents -/

/-- A JSON document. An object is an association list, in insertion order; `float m s` is the number
`m / 10 ^ s`, written with a fraction or an exponent. -/
inductive Json where
  | null
  | bool (b : Bool)
  | int (n : ℤ)
  | float (mantissa : ℤ) (scale : ℕ)
  | str (s : String)
  | arr (items : List Json)
  | obj (fields : List (String × Json))

namespace Json

/-- `d.get(key)` of a dict. Anything else has no such method. -/
def get? (key : String) : Json → Except PyErr (Option Json)
  | .obj fields => .ok (fields.lookup key)
  | _ => .error ⟨.attributeError, "object has no attribute 'get'"⟩

/-- `d[key] = value`. -/
def set (key : String) (value : Json) : List (String × Json) → List (String × Json)
  | [] => [(key, value)]
  | (k, v) :: fields => if k = key then (k, value) :: fields else (k, v) :: set key value fields

theorem lookup_set (name other : String) (value : Json) (fields : List (String × Json)) :
    (set name value fields).lookup other =
      if other = name then some value else fields.lookup other := by
  have hcons : ∀ (key : String) (v : Json) (rest : List (String × Json)),
      ((key, v) :: rest).lookup other = if other = key then some v else rest.lookup other := by
    intro key v rest
    rw [List.lookup_cons]
    by_cases h : other = key
    · simp [h]
    · have hne : (other == key) = false := by simpa using h
      rw [hne, if_neg h]
  induction fields with
  | nil => rw [set, hcons]
  | cons kv fields ih =>
    obtain ⟨key, old⟩ := kv
    rw [set, hcons]
    by_cases hkey : key = name
    · rw [if_pos hkey, hcons, hkey]
      by_cases h : other = name <;> simp [h]
    · rw [if_neg hkey, hcons, ih]
      by_cases h : other = key
      · rw [if_pos h, if_pos h, if_neg (h ▸ hkey)]
      · rw [if_neg h, if_neg h]

/-- `bool(v)`. -/
def truthy : Json → Bool
  | .null => false
  | .bool b => b
  | .int n => n != 0
  | .float m _ => m != 0
  | .str s => s != ""
  | .arr items => !items.isEmpty
  | .obj fields => !fields.isEmpty

/-- An optional string. -/
def ofOption : Option String → Json
  | none => .null
  | some s => .str s

end Json

end A2ZCore
