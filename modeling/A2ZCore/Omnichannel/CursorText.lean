import A2ZCore.Omnichannel.Cursors
import A2ZCore.Core.JsonText
import A2ZCore.Lib.Base64
import Mathlib

/-!
# Cursors as text

`_encode_cursor` and `_decode_cursor` as the standard library runs them: the ISO text of the timestamp,
JSON with every character beyond ASCII escaped, UTF-8, and base64 for URLs without its padding. A cursor
comes back as it was, but for one thing. A string may hold the halves of a surrogate pair side by side,
and JSON escapes them as it escapes the character that they are a pair for, so that this character is
what comes back. No string that is text holds such halves.

## Main definitions

* `joinPairs`, `Unpaired` — the characters of adjacent halves, and no such halves
* `encodeText` — `_encode_cursor`
* `pythonLoads`, `pythonCodec` — the decoders of `_decode_cursor`

## Main results

* `decodeCursor_encodeText` — what comes back, for every cursor
* `cursorText_roundTrip` — a cursor whose identifier has no adjacent halves comes back, and no other
  one has its text
* `listConversationsFrom_encodeText`, `threadPage_encodeText` — the inbox and a thread go on from the
  row that the text was made of
-/

namespace A2ZCore.Omnichannel

open Json (skipSpace)

/-! ### Surrogates -/

/-- The first half of a pair. -/
def isHigh (c : Fin 0x110000) : Bool := 0xD800 ≤ c.val && c.val < 0xDC00

/-- The second half of a pair. -/
def isLow (c : Fin 0x110000) : Bool := 0xDC00 ≤ c.val && c.val < 0xE000

instance codePoints_neZero : NeZero 0x110000 := ⟨by decide⟩

/-- The character of a pair. -/
def joined (h l : Fin 0x110000) : Fin 0x110000 :=
  Fin.ofNat _ (0x10000 + (h.val - 0xD800) * 0x400 + (l.val - 0xDC00))

/-- Adjacent halves are their character. -/
def joinPairs : Text → Text
  | h :: l :: cs =>
    if isHigh h && isLow l then joined h l :: joinPairs cs else h :: joinPairs (l :: cs)
  | cs => cs

/-- No two halves of a pair are adjacent. -/
def Unpaired (text : Text) : Prop := text.IsChain fun h l => (isHigh h && isLow l) = false

instance (text : Text) : Decidable (Unpaired text) :=
  inferInstanceAs (Decidable (text.IsChain _))

/-- A character as code units: one beyond the sixteen-bit ones as a pair. -/
def units (c : Fin 0x110000) : Text :=
  if c.val < 0x10000 then [c]
  else [Fin.ofNat _ (0xD800 + (c.val - 0x10000) / 0x400), Fin.ofNat _ (0xDC00 + (c.val - 0x10000) % 0x400)]

/-- The code points of characters. -/
def codes (cs : List Char) : Text := cs.map fun c => Fin.ofNat _ c.toNat

/-- The character of a code point that is no surrogate. -/
def char? (c : Fin 0x110000) : Option Char :=
  if isHigh c || isLow c then none else some (Char.ofNat c)

/-- The characters of code points, if none of them is a surrogate. -/
def chars? (text : Text) : Option (List Char) := text.mapM char?

/-! ### Encoding -/

/-- How `py_encode_basestring_ascii` writes a code point. -/
def escapeCode (c : Fin 0x110000) : List Char :=
  if isHigh c || isLow c then Json.hexEscape c else Json.escapeChar (Char.ofNat c)

/-- `json.dumps` of a string or `None`. -/
def itemText : Option Text → List Char
  | none => ['n', 'u', 'l', 'l']
  | some text => '"' :: (text.flatMap escapeCode ++ ['"'])

/-- `json.dumps([a, b])`. -/
def dumpsPair (a b : Option Text) : List Char :=
  '[' :: (itemText a ++ ',' :: ' ' :: (itemText b ++ [']']))

/-- `str.encode`, of characters. -/
def utf8 (cs : List Char) : List UInt8 := (String.ofList cs).toUTF8.data.toList

/-- `_encode_cursor`. -/
def encodeText (ts : Option Moment) (id : Text) : Text :=
  let raw := utf8 (dumpsPair (ts.map fun t => textOf t.isoformat) (some id))
  codes (Base64.rstrip (Base64.encode raw))

/-! ### Decoding -/

/-- The code units of a string after the opening quote, and what follows the closing one. -/
def scanUnits : List Char → Option (Text × List Char)
  | [] => none
  | c :: cs =>
    if c = '"' then some ([], cs)
    else if c = '\\' then
      match cs with
      | 'u' :: x₁ :: x₂ :: x₃ :: x₄ :: rest =>
        match Json.decodeHex x₁ x₂ x₃ x₄ with
        | none => none
        | some n => (scanUnits rest).map fun r => (Fin.ofNat _ n :: r.1, r.2)
      | e :: rest =>
        match Json.unescape e with
        | none => none
        | some d => (scanUnits rest).map fun r => (Fin.ofNat _ d.toNat :: r.1, r.2)
      | [] => none
    else if c.toNat < 32 then none
    else (scanUnits cs).map fun r => (Fin.ofNat _ c.toNat :: r.1, r.2)

/-- `py_scanstring`, after the opening quote. A character that is not escaped is no surrogate, so that
pairs are made of adjacent escapes only. -/
def scanString (cs : List Char) : Option (Text × List Char) :=
  (scanUnits cs).map fun r => (joinPairs r.1, r.2)

/-- A literal after its first character. -/
def scanLiteral (v : Parsed) (rest cs : List Char) : Option (Parsed × List Char) :=
  if rest.isPrefixOf cs then some (v, cs.drop rest.length) else none

/-- `NUMBER_RE`, or a constant. -/
def scanNumber (cs : List Char) : Option (Parsed × List Char) :=
  ((Json.readNumber cs).map fun r => (.number, r.2)) <|>
    scanLiteral .number ['N', 'a', 'N'] cs <|>
    scanLiteral .number ['I', 'n', 'f', 'i', 'n', 'i', 't', 'y'] cs <|>
    scanLiteral .number ['-', 'I', 'n', 'f', 'i', 'n', 'i', 't', 'y'] cs

mutual

/-- `scan_once`. -/
def scanOnce : ℕ → List Char → Option (Parsed × List Char)
  | 0, _ => none
  | _ + 1, [] => none
  | fuel + 1, c :: cs =>
    if c = '"' then (scanString cs).map fun r => (.str r.1, r.2)
    else if c = '\x7b' then
      match skipSpace cs with
      | '\x7d' :: cs => some (.obj [], cs)
      | cs => do
        let (key, cs) ← scanField fuel cs
        let (keys, cs) ← scanFields fuel cs
        return (.obj (key :: keys).eraseDups, cs)
    else if c = '[' then
      match skipSpace cs with
      | ']' :: cs => some (.arr [], cs)
      | cs => do
        let (v, cs) ← scanOnce fuel cs
        let (vs, cs) ← scanItems fuel cs
        return (.arr (v :: vs), cs)
    else if c = 'n' then scanLiteral .null ['u', 'l', 'l'] cs
    else if c = 't' then scanLiteral (.bool true) ['r', 'u', 'e'] cs
    else if c = 'f' then scanLiteral (.bool false) ['a', 'l', 's', 'e'] cs
    else scanNumber (c :: cs)

/-- The other items of a list, and what follows its end. -/
def scanItems : ℕ → List Char → Option (List Parsed × List Char)
  | 0, _ => none
  | fuel + 1, cs =>
    match skipSpace cs with
    | ']' :: cs => some ([], cs)
    | ',' :: cs => do
      let (v, cs) ← scanOnce fuel (skipSpace cs)
      let (vs, cs) ← scanItems fuel cs
      return (v :: vs, cs)
    | _ => none

/-- The key of a field, and what follows its value. -/
def scanField : ℕ → List Char → Option (Text × List Char)
  | fuel + 1, '"' :: cs => do
    let (key, cs) ← scanString cs
    let cs ← expect ':' (skipSpace cs)
    let (_, cs) ← scanOnce fuel (skipSpace cs)
    return (key, cs)
  | _, _ => none

/-- The keys of the other fields of a dict, and what follows its end. -/
def scanFields : ℕ → List Char → Option (List Text × List Char)
  | 0, _ => none
  | fuel + 1, cs =>
    match skipSpace cs with
    | '\x7d' :: cs => some ([], cs)
    | ',' :: cs => do
      let (key, cs) ← scanField fuel (skipSpace cs)
      let (keys, cs) ← scanFields fuel cs
      return (key :: keys, cs)
    | _ => none

end

/-- `json.loads`. -/
def parse (cs : List Char) : Option Parsed := do
  let (v, cs) ← scanOnce (cs.length + 1) (skipSpace cs)
  if skipSpace cs = [] then some v else none

/-- `json.loads(base64.urlsafe_b64decode(padded.encode()).decode())`. -/
def pythonLoads (padded : Text) : Option Parsed := do
  let bytes ← Base64.decode (← chars? padded)
  let s ← String.fromUTF8? ⟨bytes.toArray⟩
  parse s.toList

/-- An aware datetime as it is decoded. -/
def momentStamp (m : Moment) : Stamp := ⟨m.wall, some m.offset⟩

/-- The standard library. `other` is `datetime.fromisoformat` of the texts that `isoformat` does not
write for an aware datetime. -/
def pythonCodec (other : Text → Option Stamp) (repr : Text → String)
    (timestamptz : Stamp → Option DateTime) (text : Text → Option String) : CursorCodec where
  loads := pythonLoads
  fromisoformat s := (((chars? s).bind fun cs => fromisoformat (String.ofList cs)).map momentStamp) <|>
    other s
  repr
  timestamptz
  text

/-! ### Pairs -/

theorem not_isHigh_of_le {c : Fin 0x110000} (h : 0x10000 ≤ c.val) : isHigh c = false := by
  simp only [isHigh, Bool.and_eq_false_iff, decide_eq_false_iff_not]
  omega

theorem not_isLow_of_le {c : Fin 0x110000} (h : 0x10000 ≤ c.val) : isLow c = false := by
  simp only [isLow, Bool.and_eq_false_iff, decide_eq_false_iff_not]
  omega

/-- The units of a character beyond the sixteen-bit ones are halves, and it is their character. -/
theorem joined_units {c : Fin 0x110000} (hc : 0x10000 ≤ c.val) :
    ∃ h l, units c = [h, l] ∧ isHigh h = true ∧ isLow l = true ∧ joined h l = c := by
  have hlt := c.isLt
  refine ⟨_, _, if_neg (by omega), ?_, ?_, ?_⟩
  · simp only [isHigh, Fin.ofNat, Bool.and_eq_true, decide_eq_true_eq]
    omega
  · simp only [isLow, Fin.ofNat, Bool.and_eq_true, decide_eq_true_eq]
    omega
  · ext
    simp only [joined, Fin.ofNat]
    omega

/-- A pair is joined. -/
theorem joinPairs_pair {h l : Fin 0x110000} (hh : isHigh h = true) (hl : isLow l = true)
    (cs : Text) : joinPairs (h :: l :: cs) = joined h l :: joinPairs cs := by
  rw [joinPairs, hh, hl]
  rfl

/-- What is no pair stays. -/
theorem joinPairs_single {h l : Fin 0x110000} (hpair : (isHigh h && isLow l) = false)
    (cs : Text) : joinPairs (h :: l :: cs) = h :: joinPairs (l :: cs) := by
  rw [joinPairs, hpair]
  rfl

theorem units_of_isHigh {c : Fin 0x110000} (hc : isHigh c = true) : units c = [c] := by
  simp only [isHigh, Bool.and_eq_true, decide_eq_true_eq] at hc
  exact if_pos (by omega)

theorem units_of_isLow {c : Fin 0x110000} (hc : isLow c = true) : units c = [c] := by
  simp only [isLow, Bool.and_eq_true, decide_eq_true_eq] at hc
  exact if_pos (by omega)

/-- The units of a character begin with a second half only if it is one. -/
theorem units_eq_cons (c : Fin 0x110000) : ∃ u us, units c = u :: us ∧ isLow u = isLow c := by
  by_cases hc : c.val < 0x10000
  · exact ⟨c, [], if_pos hc, rfl⟩
  · obtain ⟨h, l, hunits, hhigh, -⟩ := joined_units (not_lt.mp hc)
    refine ⟨h, [l], hunits, ?_⟩
    rw [not_isLow_of_le (not_lt.mp hc)]
    simp only [isHigh, Bool.and_eq_true, decide_eq_true_eq] at hhigh
    simp only [isLow, Bool.and_eq_false_iff, decide_eq_false_iff_not]
    omega

/-- Code units are joined as the code points are. -/
theorem joinPairs_units (text : Text) : joinPairs (text.flatMap units) = joinPairs text := by
  induction text using joinPairs.induct with
  | case1 h l cs hpair ih =>
    obtain ⟨hh, hl⟩ := Bool.and_eq_true_iff.mp hpair
    rw [List.flatMap_cons, List.flatMap_cons, units_of_isHigh hh, units_of_isLow hl]
    simp only [List.cons_append, List.nil_append]
    rw [joinPairs_pair hh hl, joinPairs_pair hh hl, ih]
  | case2 h l cs hpair ih =>
    rw [Bool.not_eq_true] at hpair
    rw [List.flatMap_cons, joinPairs_single hpair]
    by_cases hh : h.val < 0x10000
    · have hunits : units h = [h] := if_pos hh
      obtain ⟨u, us, hl, hlow⟩ := units_eq_cons l
      rw [List.flatMap_cons, hl, List.cons_append] at ih
      rw [List.flatMap_cons, hunits, hl, List.singleton_append, List.cons_append,
        joinPairs_single (by rw [hlow, hpair]), ih]
    · obtain ⟨h', l', hunits, hhigh, hlow, hjoined⟩ := joined_units (not_lt.mp hh)
      rw [hunits]
      simp only [List.cons_append, List.nil_append]
      rw [joinPairs_pair hhigh hlow, hjoined, ih]
  | case3 cs hcs =>
    rcases cs with _ | ⟨c, _ | ⟨d, cs⟩⟩
    · rfl
    · by_cases hc : c.val < 0x10000
      · rw [List.flatMap_singleton, units, if_pos hc]
      · obtain ⟨h, l, hunits, hhigh, hlow, hjoined⟩ := joined_units (not_lt.mp hc)
        rw [List.flatMap_singleton, hunits, joinPairs_pair hhigh hlow, hjoined]
        rfl
    · exact absurd rfl (hcs c d cs)

/-- Joining makes no text longer. -/
theorem length_joinPairs_le (text : Text) : (joinPairs text).length ≤ text.length := by
  induction text using joinPairs.induct with
  | case1 h l cs hpair ih =>
    obtain ⟨hh, hl⟩ := Bool.and_eq_true_iff.mp hpair
    rw [joinPairs_pair hh hl]
    simp only [List.length_cons]
    omega
  | case2 h l cs hpair ih =>
    rw [joinPairs_single (Bool.not_eq_true _ ▸ hpair)]
    simp only [List.length_cons] at ih ⊢
    omega
  | case3 cs hcs =>
    rw [joinPairs]
    exact hcs

/-- **What stays under joining** is what has no adjacent halves. -/
theorem joinPairs_eq_self_iff (text : Text) : joinPairs text = text ↔ Unpaired text := by
  unfold Unpaired
  induction text using joinPairs.induct with
  | case1 h l cs hpair ih =>
    obtain ⟨hh, hl⟩ := Bool.and_eq_true_iff.mp hpair
    rw [joinPairs_pair hh hl, List.isChain_cons_cons]
    refine iff_of_false (fun heq => ?_) fun hchain => ?_
    · have hlength := congrArg List.length heq
      have hle := length_joinPairs_le cs
      simp only [List.length_cons] at hlength
      omega
    · rw [hpair] at hchain
      cases hchain.1
  | case2 h l cs hpair ih =>
    rw [Bool.not_eq_true] at hpair
    rw [joinPairs_single hpair, List.isChain_cons_cons, ← ih]
    simp [hpair]
  | case3 cs hcs =>
    rcases cs with _ | ⟨c, _ | ⟨d, cs⟩⟩
    · simp [joinPairs]
    · simp [joinPairs]
    · exact absurd rfl (hcs c d cs)

/-! ### Characters -/

theorem val_ofNat_toNat (c : Char) : (Fin.ofNat 0x110000 c.toNat).val = c.toNat := by
  have hvalid : c.toNat < 55296 ∨ 57343 < c.toNat ∧ c.toNat < 1114112 := c.valid
  exact Nat.mod_eq_of_lt (by omega)

/-- The code point of a character is no surrogate. -/
theorem not_surrogate (c : Char) : (isHigh (Fin.ofNat _ c.toNat) || isLow (Fin.ofNat _ c.toNat)) = false := by
  have hvalid : c.toNat < 55296 ∨ 57343 < c.toNat ∧ c.toNat < 1114112 := c.valid
  simp only [isHigh, isLow, val_ofNat_toNat, Bool.or_eq_false_iff, Bool.and_eq_false_iff,
    decide_eq_false_iff_not]
  omega

/-- A code point that is no surrogate is that of a character. -/
theorem toNat_ofNat {c : Fin 0x110000} (hc : (isHigh c || isLow c) = false) :
    (Char.ofNat c).toNat = c.val := by
  have hlt := c.isLt
  have hvalid : c.val.isValidChar := by
    simp only [isHigh, isLow, Bool.or_eq_false_iff, Bool.and_eq_false_iff,
      decide_eq_false_iff_not] at hc
    simp only [Nat.isValidChar]
    omega
  rw [Char.ofNat, dif_pos hvalid]
  rfl

theorem char?_code (c : Char) : char? (Fin.ofNat _ c.toNat) = some c := by
  rw [char?, not_surrogate, val_ofNat_toNat, Char.ofNat_toNat]
  rfl

theorem chars?_codes (cs : List Char) : chars? (codes cs) = some cs := by
  induction cs with
  | nil => rfl
  | cons c cs ih =>
    rw [chars?] at ih
    simp only [chars?, codes, List.map_cons, List.mapM_cons, char?_code]
    rw [codes] at ih
    rw [ih]
    rfl

/-- Text has no halves. -/
theorem unpaired_codes (cs : List Char) : Unpaired (codes cs) := by
  induction cs with
  | nil => exact .nil
  | cons c cs ih =>
    refine List.IsChain.cons ih fun l _ => ?_
    rw [(Bool.or_eq_false_iff.mp (not_surrogate c)).1, Bool.false_and]

/-! ### Strings -/

/-- An escape is read as its code unit. -/
theorem scanUnits_hexEscape {n : ℕ} (hn : n < 65536) (rest : List Char) :
    scanUnits (Json.hexEscape n ++ rest) = (scanUnits rest).map fun r => (Fin.ofNat _ n :: r.1, r.2) := by
  simp [Json.hexEscape, scanUnits, Json.decodeHex_digits hn]

/-- A character is read as its units. -/
theorem scanUnits_escapeChar (c : Char) (rest : List Char) :
    scanUnits (Json.escapeChar c ++ rest) =
      (scanUnits rest).map fun r => (units (Fin.ofNat _ c.toNat) ++ r.1, r.2) := by
  have hval := val_ofNat_toNat c
  have hvalid : c.toNat < 55296 ∨ 57343 < c.toNat ∧ c.toNat < 1114112 := c.valid
  unfold Json.escapeChar
  by_cases h₁ : c = '"'
  · subst h₁
    rfl
  by_cases h₂ : c = '\\'
  · subst h₂
    rfl
  by_cases h₃ : c = '\n'
  · subst h₃
    rfl
  by_cases h₄ : c = '\r'
  · subst h₄
    rfl
  by_cases h₅ : c = '\t'
  · subst h₅
    rfl
  by_cases h₆ : c = '\x0c'
  · subst h₆
    rfl
  by_cases h₇ : c = '\x08'
  · subst h₇
    rfl
  rw [if_neg h₁, if_neg h₂, if_neg h₃, if_neg h₄, if_neg h₅, if_neg h₆, if_neg h₇]
  by_cases hshort : c.toNat < 65536
  · have hunits : units (Fin.ofNat _ c.toNat) = [Fin.ofNat _ c.toNat] := if_pos (by omega)
    rw [hunits, if_pos hshort]
    by_cases hprintable : 32 ≤ c.toNat ∧ c.toNat ≤ 126
    · have hspace : ¬c.toNat < 32 := by omega
      rw [if_pos hprintable, List.singleton_append, scanUnits.eq_def]
      simp [h₁, h₂, hspace]
    · rw [if_neg hprintable, scanUnits_hexEscape hshort]
      rfl
  · have hprintable : ¬(32 ≤ c.toNat ∧ c.toNat ≤ 126) := by omega
    have hunits : units (Fin.ofNat _ c.toNat) = _ := if_neg (by omega)
    rw [hunits, if_neg hprintable, if_neg hshort, List.append_assoc, scanUnits_hexEscape (by omega),
      scanUnits_hexEscape (by omega), Option.map_map, hval]
    rfl

/-- A code point is read as its units. -/
theorem scanUnits_escapeCode (c : Fin 0x110000) (rest : List Char) :
    scanUnits (escapeCode c ++ rest) = (scanUnits rest).map fun r => (units c ++ r.1, r.2) := by
  by_cases hhalf : (isHigh c || isLow c) = true
  · have hunits : units c = [c] := by
      rcases Bool.or_eq_true_iff.mp hhalf with hc | hc
      · exact units_of_isHigh hc
      · exact units_of_isLow hc
    have hlt : c.val < 65536 := by
      by_contra hle
      rw [not_isHigh_of_le (not_lt.mp hle), not_isLow_of_le (not_lt.mp hle)] at hhalf
      cases hhalf
    rw [escapeCode, if_pos hhalf, scanUnits_hexEscape hlt, Fin.ofNat_val_eq_self, hunits]
    rfl
  rw [Bool.not_eq_true] at hhalf
  have hcode : Fin.ofNat _ (Char.ofNat c).toNat = c := by
    rw [toNat_ofNat hhalf, Fin.ofNat_val_eq_self]
  rw [escapeCode, hhalf, if_neg (by decide), scanUnits_escapeChar, hcode]

theorem scanUnits_flatMap (text : Text) (rest : List Char) :
    scanUnits (text.flatMap escapeCode ++ '"' :: rest) = some (text.flatMap units, rest) := by
  induction text with
  | nil =>
    rw [List.flatMap_nil, List.nil_append, scanUnits.eq_def]
    simp
  | cons c cs ih =>
    rw [List.flatMap_cons, List.append_assoc, scanUnits_escapeCode, ih]
    rfl

/-! ### The pair -/

/-- What a string or `None` is read as. -/
def readItem : Option Text → Parsed
  | none => .null
  | some text => .str (joinPairs text)

theorem scanOnce_itemText (fuel : ℕ) (item : Option Text) (rest : List Char) :
    scanOnce (fuel + 1) (itemText item ++ rest) = some (readItem item, rest) := by
  cases item with
  | none => simp [itemText, scanOnce, scanLiteral, readItem]
  | some text =>
    have hquote : itemText (some text) ++ rest = '"' :: (text.flatMap escapeCode ++ '"' :: rest) := by
      simp [itemText]
    rw [hquote, scanOnce, if_pos rfl, scanString, scanUnits_flatMap, Option.map_some, joinPairs_units]
    rfl

/-- An item begins with no space and no bracket. -/
theorem itemText_eq_cons (item : Option Text) : ∃ c cs, itemText item = c :: cs ∧
    ¬(c = ' ' ∨ c = '\t' ∨ c = '\n' ∨ c = '\r') ∧ c ≠ ']' := by
  cases item with
  | none => exact ⟨'n', _, rfl, by decide⟩
  | some text => exact ⟨'"', _, rfl, by decide⟩

theorem skipSpace_itemText (item : Option Text) (rest : List Char) :
    skipSpace (itemText item ++ rest) = itemText item ++ rest := by
  obtain ⟨c, cs, hitem, hspace, -⟩ := itemText_eq_cons item
  rw [hitem, List.cons_append, Json.skipSpace_cons hspace]

/-- A pair is read back. -/
theorem parse_dumpsPair (a b : Option Text) :
    parse (dumpsPair a b) = some (.arr [readItem a, readItem b]) := by
  obtain ⟨fuel, hfuel⟩ : ∃ fuel, (dumpsPair a b).length + 1 = fuel + 3 := by
    refine ⟨(dumpsPair a b).length - 2, ?_⟩
    simp only [dumpsPair, List.length_cons, List.length_append]
    omega
  have hspace : skipSpace (' ' :: (itemText b ++ [']'])) = itemText b ++ [']'] := by
    have hitem := skipSpace_itemText b [']']
    rw [skipSpace] at hitem
    rw [skipSpace, List.dropWhile_cons_of_pos (by decide), hitem]
  have hitems : scanItems (fuel + 2) (',' :: ' ' :: (itemText b ++ [']'])) =
      some ([readItem b], []) := by
    rw [scanItems, Json.skipSpace_cons (by decide)]
    simp only [hspace, scanOnce_itemText, Option.bind_eq_bind, Option.bind_some]
    rfl
  have honce : scanOnce (fuel + 3) (dumpsPair a b) = some (.arr [readItem a, readItem b], []) := by
    obtain ⟨c, cs, hitem, -, hbracket⟩ := itemText_eq_cons a
    rw [dumpsPair, scanOnce, if_neg (by decide), if_neg (by decide), if_pos rfl, skipSpace_itemText]
    split
    · next heq =>
      rw [hitem] at heq
      exact absurd (List.cons.inj heq).1 hbracket
    · simp only [scanOnce_itemText, hitems, Option.bind_eq_bind, Option.bind_some]
      rfl
  have hopen : skipSpace (dumpsPair a b) = dumpsPair a b := Json.skipSpace_cons (by decide) _
  rw [parse, hopen, hfuel, honce]
  rfl

/-! ### The round trip -/

/-- Text of the alphabet is decoded. -/
theorem pythonLoads_codes (cs text : List Char) (h : Base64.decode cs = some (utf8 text)) :
    pythonLoads (codes cs) = parse text := by
  have hbytes : (⟨(utf8 text).toArray⟩ : ByteArray) = (String.ofList text).toUTF8 := by
    simp [utf8]
  have hdecode : String.fromUTF8? (String.ofList text).toUTF8 = some (String.ofList text) :=
    dif_pos (String.ofList text).isValidUTF8
  simp only [pythonLoads, chars?_codes, h, Option.bind_eq_bind, Option.bind_some, hbytes, hdecode,
    String.toList_ofList]

theorem padded_codes (cs : List Char) : CursorCodec.padded (codes cs) = codes (Base64.repad cs) := by
  simp [CursorCodec.padded, Base64.repad, codes]

section Codec

variable (other : Text → Option Stamp) (repr : Text → String)
  (timestamptz : Stamp → Option DateTime) (text : Text → Option String)

/-- The text of a time is the time. -/
theorem fromisoformat_textOf (t : Moment) :
    (pythonCodec other repr timestamptz text).fromisoformat (textOf t.isoformat) =
      some (momentStamp t) := by
  have hchars : chars? (textOf t.isoformat) = some t.isoformat.toList := chars?_codes _
  simp only [pythonCodec, hchars, Option.bind_some, String.ofList_toList, fromisoformat_isoformat,
    Option.map_some]
  rfl

theorem timestamp_readItem (ts : Option Moment) :
    (pythonCodec other repr timestamptz text).timestamp
      (readItem (ts.map fun t => textOf t.isoformat)) = some (ts.map momentStamp) := by
  cases ts with
  | none => rfl
  | some t =>
    have hjoin : joinPairs (textOf t.isoformat) = textOf t.isoformat :=
      (joinPairs_eq_self_iff _).mpr (unpaired_codes _)
    rw [Option.map_some, readItem, hjoin, CursorCodec.timestamp, fromisoformat_textOf]
    rfl

/-- **The timestamp comes back**, and of the identifier the text with its pairs joined. -/
theorem decodeCursor_encodeText (ts : Option Moment) (id : Text) :
    (pythonCodec other repr timestamptz text).decodeCursor (encodeText ts id) =
      .ok (ts.map momentStamp, joinPairs id) := by
  have hloads : (pythonCodec other repr timestamptz text).loads
      (CursorCodec.padded (encodeText ts id)) =
        some (.arr [readItem (ts.map fun t => textOf t.isoformat), .str (joinPairs id)]) := by
    rw [encodeText, padded_codes, Base64.repad_rstrip_encode]
    exact (pythonLoads_codes _ _ (Base64.decode_encode _)).trans (parse_dumpsPair _ _)
  have hunpacked : (pythonCodec other repr timestamptz text).unpacked (encodeText ts id) =
      some (ts.map momentStamp, .str (joinPairs id)) := by
    simp only [CursorCodec.unpacked, hloads, Parsed.unpack, Option.bind_eq_bind, Option.bind_some,
      timestamp_readItem]
    rfl
  rw [CursorCodec.decodeCursor, hunpacked]

end Codec

theorem momentStamp_injective : Function.Injective momentStamp := by
  rintro ⟨wall, offset, valid, offset_lt⟩ ⟨wall', offset', valid', offset_lt'⟩ h
  simp only [momentStamp, Stamp.mk.injEq, Option.some.injEq] at h
  obtain ⟨rfl, rfl⟩ := h
  rfl

/-- Two cursors with the same text have the same time and the same identifier, with its pairs
joined. -/
theorem encodeText_eq {ts ts' : Option Moment} {id id' : Text}
    (h : encodeText ts id = encodeText ts' id') : ts = ts' ∧ joinPairs id = joinPairs id' := by
  have hread := decodeCursor_encodeText (fun _ => none) (fun _ => "") (fun _ => none)
    (fun _ => none) ts id
  rw [h, decodeCursor_encodeText] at hread
  obtain ⟨hts, hid⟩ := Prod.mk.inj (Except.ok.inj hread)
  exact ⟨(Option.map_injective momentStamp_injective hts).symm, hid.symm⟩

/-- **Cursors come back**: the time always, and the identifier exactly when no two halves of a pair
are adjacent in it. Cursors with such identifiers have different texts, and the padding of base64 is
put back for every length. -/
theorem cursorText_roundTrip (other : Text → Option Stamp) (repr : Text → String)
    (timestamptz : Stamp → Option DateTime) (text : Text → Option String) :
    (∀ ts id, (pythonCodec other repr timestamptz text).decodeCursor (encodeText ts id) =
      .ok (ts.map momentStamp, id) ↔ Unpaired id) ∧
    (∀ ts ts' id id', Unpaired id → Unpaired id' → encodeText ts id = encodeText ts' id' →
      ts = ts' ∧ id = id') ∧
    (∀ bytes : List UInt8, CursorCodec.padded (codes (Base64.rstrip (Base64.encode bytes))) =
      codes (Base64.encode bytes)) := by
  refine ⟨fun ts id => ?_, fun ts ts' id id' hid hid' h => ?_, fun bytes => ?_⟩
  · rw [decodeCursor_encodeText, ← joinPairs_eq_self_iff]
    simp
  · obtain ⟨hts, hjoin⟩ := encodeText_eq h
    rw [(joinPairs_eq_self_iff id).mpr hid, (joinPairs_eq_self_iff id').mpr hid'] at hjoin
    exact ⟨hts, hjoin⟩
  · rw [padded_codes, Base64.repad_rstrip_encode]

/-- A time with microseconds, west of Greenwich, and a name of an accent, a quote, a character beyond
the sixteen-bit ones and a half. -/
theorem cursorText_roundTrip_sample :
    (pythonCodec (fun _ => none) (fun _ => "") (fun t => some t.wall) (fun _ => none)).decodeCursor
      (encodeText (some ⟨⟨⟨2026, 2, 28⟩, 23, 59, 59, 7⟩, -19800000001, by decide, by decide⟩)
        [109, 0xE9, 34, 0x1F600, 0xD83D]) =
      .ok (some ⟨⟨⟨2026, 2, 28⟩, 23, 59, 59, 7⟩, some (-19800000001)⟩,
        [109, 0xE9, 34, 0x1F600, 0xD83D]) :=
  ((cursorText_roundTrip (fun _ => none) (fun _ => "") (fun t => some t.wall) (fun _ => none)).1
    (some ⟨⟨⟨2026, 2, 28⟩, 23, 59, 59, 7⟩, -19800000001, by decide, by decide⟩)
    [109, 0xE9, 34, 0x1F600, 0xD83D]).mpr (by decide +kernel)

/-- Two halves side by side come back as their character. -/
theorem not_cursorText_roundTrip : ¬∀ (other : Text → Option Stamp) (repr : Text → String)
    (timestamptz : Stamp → Option DateTime) (text : Text → Option String) (ts : Option Moment)
    (id : Text), (pythonCodec other repr timestamptz text).decodeCursor (encodeText ts id) =
      .ok (ts.map momentStamp, id) := by
  intro h
  have hback := h (fun _ => none) (fun _ => "") (fun t => some t.wall) (fun _ => none) none
    [0xD83D, 0xDE00]
  rw [decodeCursor_encodeText] at hback
  have hid : joinPairs [0xD83D, 0xDE00] = [0x1F600] := by decide +kernel
  rw [hid] at hback
  exact absurd (Prod.mk.inj (Except.ok.inj hback)).2 (by decide)

/-! ### The inbox and a thread -/

section Walks

variable {ι : Type} [LinearOrder ι] (collate : String ↪ ι) {other : Text → Option Stamp}
  {repr : Text → String} {timestamptz : Stamp → Option DateTime} {text : Text → Option String}
  {ts : Option Moment} {ts' : Option DateTime} {id : String}

/-- The driver sends the time and the identifier of the row. -/
theorem sent_momentStamp
    (hts : (pythonCodec other repr timestamptz text).sentTimestamp (ts.map momentStamp) = some ts')
    (hid : text (textOf id) = some id) :
    (pythonCodec other repr timestamptz text).sent (ts.map momentStamp) (textOf id) =
      .ok (encodeCursor ts' id) := by
  have htext : (pythonCodec other repr timestamptz text).text (textOf id) = some id := hid
  rw [CursorCodec.sent, hts, htext]

/-- A string has no adjacent halves. -/
theorem joinPairs_textOf (s : String) : joinPairs (textOf s) = textOf s :=
  (joinPairs_eq_self_iff _).mpr (unpaired_codes _)

/-- **The inbox goes on from the row** that the text of a cursor was made of. -/
theorem listConversationsFrom_encodeText (search : TextSearch) (membership : Option Core.Membership)
    (db : Db) (filter : InboxFilter) (sort : String) (limit : ℤ)
    (hts : (pythonCodec other repr timestamptz text).sentTimestamp (ts.map momentStamp) = some ts')
    (hid : text (textOf id) = some id) :
    listConversationsFrom (pythonCodec other repr timestamptz text) collate search membership db
        filter sort limit (some (encodeText ts (textOf id))) =
      listConversations collate search membership db filter sort limit
        (some (encodeCursor ts' id)) := by
  unfold listConversationsFrom
  simp only [decodeCursor_encodeText, joinPairs_textOf]
  by_cases hmember : membership.isNone = true
  · simp only [listConversations, hmember, if_true]
    rfl
  by_cases hsort : sort ∉ sortFields
  · simp only [listConversations, hmember, hsort]
    rfl
  · simp only [hmember, hsort, if_false]
    show (CursorCodec.sent _ _ _ >>= _) = _
    rw [sent_momentStamp hts hid]
    rfl

/-- **A thread goes on from the message** that the text of a cursor was made of. -/
theorem threadPage_encodeText (sign : String → String) (membership : Core.Membership) (db : Db)
    (orgId conversationId : String) (limit : ℤ) {t : Moment} {t' : DateTime}
    (hts : (pythonCodec other repr timestamptz text).sentTimestamp (some (momentStamp t)) =
      some (some t'))
    (hid : text (textOf id) = some id) :
    (getConversationFrom (pythonCodec other repr timestamptz text) collate sign (some membership) db orgId
        conversationId limit (some (encodeText (some t) (textOf id)))).map
          (fun detail => (detail.messages, detail.messagesNextCursor)) =
      threadPage collate sign membership db orgId conversationId limit (some (encodeCursor (some t') id)) := by
  have hstart : (pythonCodec other repr timestamptz text).startBefore
      (some (encodeText (some t) (textOf id))) = startBefore (some (encodeCursor (some t') id)) := by
    simp only [CursorCodec.startBefore, decodeCursor_encodeText, joinPairs_textOf]
    show (CursorCodec.sent _ _ _ >>= _) = _
    rw [sent_momentStamp hts hid]
    rfl
  rw [getConversationFrom, hstart, threadPage]

end Walks

end A2ZCore.Omnichannel
