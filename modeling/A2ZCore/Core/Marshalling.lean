import A2ZCore.Core.Admin

/-!
# DynamoDB items

`app.core._ddb`: plain dicts as items of attribute values, and back. `to_item` leaves out the fields that
are `None`, but only those of the item itself; `to_value` writes a null. A number comes back as a
`Decimal`, which `from_item` turns into an `int` if it is one.

## Main definitions

* `PyValue` — a Python value that may be written to an item
* `sanitize`, `unwrap` — `_sanitize` and `_unwrap`
* `Boto` — boto3's serializer and deserializer
* `ddbValue`, `toItem`, `fromItem` — `to_value`, `to_item` and `from_item`
* `PyValue.plain` — the values that JSON has, but for fractions, with integers of at most 38 digits

## Main results

* `fromItem_toItem` — what is written is read back
* `ddbValue_of_storable` — the same of a JSON document, as `toValue` has it
-/

namespace A2ZCore.Core

/-! ### Values -/

/-- A `decimal.Decimal`, `coeff * 10 ^ exp`. -/
structure ExactDecimal where
  coeff : ℤ
  exp : ℤ
  deriving DecidableEq, Repr

namespace ExactDecimal

/-- `value == value.to_integral_value()`. -/
def isIntegral (d : ExactDecimal) : Bool :=
  decide (0 ≤ d.exp) || d.coeff % 10 ^ (-d.exp).toNat == 0

/-- `int(value)`. -/
def toInt (d : ExactDecimal) : ℤ :=
  if 0 ≤ d.exp then d.coeff * 10 ^ d.exp.toNat else d.coeff.tdiv (10 ^ (-d.exp).toNat)

/-- `Decimal(n)`. -/
def ofInt (n : ℤ) : ExactDecimal := ⟨n, 0⟩

@[simp] theorem isIntegral_ofInt (n : ℤ) : (ofInt n).isIntegral = true := rfl

@[simp] theorem toInt_ofInt (n : ℤ) : (ofInt n).toInt = n := by
  simp [toInt, ofInt]

end ExactDecimal

/-- A Python value that may be written to an item; `F` are the floats. A dict is an association list, in
insertion order. -/
inductive PyValue (F : Type) where
  | none
  | bool (b : Bool)
  | int (n : ℤ)
  | float (x : F)
  | decimal (d : ExactDecimal)
  | str (s : String)
  | list (items : List (PyValue F))
  | tuple (items : List (PyValue F))
  | dict (fields : List (String × PyValue F))

namespace PyValue

variable {F : Type}

/-- `value is None`. -/
def isNone : PyValue F → Bool
  | .none => true
  | _ => false

section Conversions

-- `Decimal(str(value))`, of a float, and `float(value)`, of a `Decimal`
variable (decimalOf : F → ExactDecimal) (floatOf : ExactDecimal → F)

mutual

/-- `_sanitize`. -/
def sanitize : PyValue F → PyValue F
  | .float x => .decimal (decimalOf x)
  | .dict fields => .dict (sanitizeFields fields)
  | .list items => .list (sanitizeItems items)
  | .tuple items => .list (sanitizeItems items)
  | .none => .none
  | .bool b => .bool b
  | .int n => .int n
  | .decimal d => .decimal d
  | .str s => .str s

/-- `[_sanitize(v) for v in value]`. -/
def sanitizeItems : List (PyValue F) → List (PyValue F)
  | [] => []
  | v :: items => sanitize v :: sanitizeItems items

/-- `{k: _sanitize(v) for k, v in value.items()}`. -/
def sanitizeFields : List (String × PyValue F) → List (String × PyValue F)
  | [] => []
  | (k, v) :: fields => (k, sanitize v) :: sanitizeFields fields

end

mutual

/-- `_unwrap`. -/
def unwrap : PyValue F → PyValue F
  | .decimal d => if d.isIntegral then .int d.toInt else .float (floatOf d)
  | .dict fields => .dict (unwrapFields fields)
  | .list items => .list (unwrapItems items)
  | .none => .none
  | .bool b => .bool b
  | .int n => .int n
  | .float x => .float x
  | .str s => .str s
  | .tuple items => .tuple items

/-- `[_unwrap(v) for v in value]`. -/
def unwrapItems : List (PyValue F) → List (PyValue F)
  | [] => []
  | v :: items => unwrap v :: unwrapItems items

/-- `{k: _unwrap(v) for k, v in value.items()}`. -/
def unwrapFields : List (String × PyValue F) → List (String × PyValue F)
  | [] => []
  | (k, v) :: fields => (k, unwrap v) :: unwrapFields fields

end

end Conversions

mutual

/-- A value of nested dicts, lists, strings, booleans, `None` and integers of at most 38 digits. -/
def plain : PyValue F → Bool
  | .none | .bool _ | .str _ => true
  | .int n => decide (digits n.natAbs ≤ 38)
  | .list items => plainItems items
  | .dict fields => plainFields fields
  | .float _ | .decimal _ | .tuple _ => false

@[inherit_doc plain]
def plainItems : List (PyValue F) → Bool
  | [] => true
  | v :: items => plain v && plainItems items

@[inherit_doc plain]
def plainFields : List (String × PyValue F) → Bool
  | [] => true
  | (_, v) :: fields => plain v && plainFields fields

end

mutual

/-- The value with each integer as a `Decimal`. -/
def decimals : PyValue F → PyValue F
  | .int n => .decimal (.ofInt n)
  | .dict fields => .dict (decimalsFields fields)
  | .list items => .list (decimalsItems items)
  | .none => .none
  | .bool b => .bool b
  | .float x => .float x
  | .decimal d => .decimal d
  | .str s => .str s
  | .tuple items => .tuple items

@[inherit_doc decimals]
def decimalsItems : List (PyValue F) → List (PyValue F)
  | [] => []
  | v :: items => decimals v :: decimalsItems items

@[inherit_doc decimals]
def decimalsFields : List (String × PyValue F) → List (String × PyValue F)
  | [] => []
  | (k, v) :: fields => (k, decimals v) :: decimalsFields fields

end

end PyValue

open PyValue

/-! ### Items -/

/-- `boto3.dynamodb.types`: on plain values the deserializer is the inverse of the serializer, except that
an integer comes back as a `Decimal`. -/
structure Boto (F : Type) where
  Attribute : Type
  serialize : PyValue F → Except PyErr Attribute
  deserialize : Attribute → PyValue F
  deserialize_serialize : ∀ v, v.plain = true →
    ∃ a, serialize v = .ok a ∧ deserialize a = v.decimals

section Items

variable {F : Type} (boto : Boto F) (decimalOf : F → ExactDecimal) (floatOf : ExactDecimal → F)

/-- `to_value`. -/
def ddbValue (value : PyValue F) : Except PyErr boto.Attribute :=
  boto.serialize (value.sanitize decimalOf)

/-- `{key: to_value(val) for key, val in data.items()}`. -/
def ddbValues (data : List (String × PyValue F)) : Except PyErr (List (String × boto.Attribute)) :=
  data.mapM fun field => do return (field.1, ← ddbValue boto decimalOf field.2)

/-- `to_item`. -/
def toItem (data : List (String × PyValue F)) : Except PyErr (List (String × boto.Attribute)) :=
  ddbValues boto decimalOf (data.filter fun field => !field.2.isNone)

/-- `from_item`. -/
def fromItem (item : List (String × boto.Attribute)) : List (String × PyValue F) :=
  item.map fun field => (field.1, (boto.deserialize field.2).unwrap floatOf)

end Items

/-! ### Round trips -/

section RoundTrip

variable {F : Type}

namespace PyValue

theorem plainItems_cons {v : PyValue F} {items : List (PyValue F)}
    (h : plainItems (v :: items) = true) : v.plain = true ∧ plainItems items = true :=
  Bool.and_eq_true_iff.mp h

theorem plainFields_cons {k : String} {v : PyValue F} {fields : List (String × PyValue F)}
    (h : plainFields ((k, v) :: fields) = true) : v.plain = true ∧ plainFields fields = true :=
  Bool.and_eq_true_iff.mp h

section Conversions

variable (decimalOf : F → ExactDecimal) (floatOf : ExactDecimal → F)

mutual

/-- A plain value is sanitized as it is. -/
theorem sanitize_of_plain : (v : PyValue F) → v.plain = true → v.sanitize decimalOf = v
  | .none, _ | .bool _, _ | .int _, _ | .str _, _ => by simp only [sanitize]
  | .list items, h => by rw [sanitize, sanitizeItems_of_plain items h]
  | .dict fields, h => by rw [sanitize, sanitizeFields_of_plain fields h]
  | .float _, h | .decimal _, h | .tuple _, h => by cases h

theorem sanitizeItems_of_plain : (items : List (PyValue F)) → plainItems items = true →
    sanitizeItems decimalOf items = items
  | [], _ => rfl
  | v :: items, h => by
    rw [sanitizeItems, sanitize_of_plain v (plainItems_cons h).1,
      sanitizeItems_of_plain items (plainItems_cons h).2]

theorem sanitizeFields_of_plain : (fields : List (String × PyValue F)) →
    plainFields fields = true → sanitizeFields decimalOf fields = fields
  | [], _ => rfl
  | (k, v) :: fields, h => by
    rw [sanitizeFields, sanitize_of_plain v (plainFields_cons h).1,
      sanitizeFields_of_plain fields (plainFields_cons h).2]

end

mutual

/-- The integers of a plain value are integers again, and nothing else is touched. -/
theorem unwrap_decimals : (v : PyValue F) → v.plain = true → v.decimals.unwrap floatOf = v
  | .none, _ | .bool _, _ | .str _, _ => by simp only [decimals, unwrap]
  | .int n, _ => by
    rw [decimals, unwrap, if_pos (ExactDecimal.isIntegral_ofInt n), ExactDecimal.toInt_ofInt]
  | .list items, h => by rw [decimals, unwrap, unwrap_decimalsItems items h]
  | .dict fields, h => by rw [decimals, unwrap, unwrap_decimalsFields fields h]
  | .float _, h | .decimal _, h | .tuple _, h => by cases h

theorem unwrap_decimalsItems : (items : List (PyValue F)) → plainItems items = true →
    unwrapItems floatOf (decimalsItems items) = items
  | [], _ => rfl
  | v :: items, h => by
    rw [decimalsItems, unwrapItems, unwrap_decimals v (plainItems_cons h).1,
      unwrap_decimalsItems items (plainItems_cons h).2]

theorem unwrap_decimalsFields : (fields : List (String × PyValue F)) →
    plainFields fields = true → unwrapFields floatOf (decimalsFields fields) = fields
  | [], _ => rfl
  | (k, v) :: fields, h => by
    rw [decimalsFields, unwrapFields, unwrap_decimals v (plainFields_cons h).1,
      unwrap_decimalsFields fields (plainFields_cons h).2]

end

end Conversions

/-- Some of the fields of a plain dict. -/
theorem plainFields_filter (p : String × PyValue F → Bool) {fields : List (String × PyValue F)}
    (h : plainFields fields = true) : plainFields (fields.filter p) = true := by
  induction fields with
  | nil => rfl
  | cons field fields ih =>
    obtain ⟨hvalue, hrest⟩ := plainFields_cons h
    rw [List.filter_cons]
    split
    · exact Bool.and_eq_true_iff.mpr ⟨hvalue, ih hrest⟩
    · exact ih hrest

end PyValue

variable (boto : Boto F) (decimalOf : F → ExactDecimal) (floatOf : ExactDecimal → F)

/-- One value. -/
theorem ddbValue_of_plain {value : PyValue F} (h : value.plain = true) :
    ∃ a, ddbValue boto decimalOf value = .ok a ∧ (boto.deserialize a).unwrap floatOf = value := by
  obtain ⟨a, hserialize, hdeserialize⟩ := boto.deserialize_serialize value h
  refine ⟨a, ?_, ?_⟩
  · rw [ddbValue, sanitize_of_plain decimalOf value h, hserialize]
  · rw [hdeserialize, unwrap_decimals floatOf value h]

/-- The fields one by one. -/
theorem fromItem_ddbValues {data : List (String × PyValue F)} (h : plainFields data = true) :
    ∃ item, ddbValues boto decimalOf data = .ok item ∧ fromItem boto floatOf item = data := by
  induction data with
  | nil => exact ⟨[], rfl, rfl⟩
  | cons field data ih =>
    obtain ⟨key, value⟩ := field
    obtain ⟨hvalue, hrest⟩ := plainFields_cons h
    obtain ⟨a, hwrite, hread⟩ := ddbValue_of_plain boto decimalOf floatOf hvalue
    obtain ⟨item, hitem, hdata⟩ := ih hrest
    refine ⟨(key, a) :: item, ?_, ?_⟩
    · unfold ddbValues at hitem ⊢
      rw [List.mapM_cons, hitem, hwrite]
      rfl
    · unfold fromItem at hdata ⊢
      rw [List.map_cons, hdata, hread]

/-- **What is written is read back.** A dict of plain values comes back from its item without the fields
that are `None`, and from an item whose fields were written one by one with them. -/
theorem fromItem_toItem {data : List (String × PyValue F)} (h : plainFields data = true) :
    (∃ item, toItem boto decimalOf data = .ok item ∧
      fromItem boto floatOf item = data.filter fun field => !field.2.isNone) ∧
    ∃ item, ddbValues boto decimalOf data = .ok item ∧ fromItem boto floatOf item = data :=
  ⟨fromItem_ddbValues boto decimalOf floatOf (plainFields_filter _ h),
    fromItem_ddbValues boto decimalOf floatOf h⟩

end RoundTrip

/-! ### JSON documents -/

section Documents

variable {F : Type} (floatOf : ExactDecimal → F)

mutual

/-- A JSON document as Python has it. -/
def PyValue.ofJson : Json → PyValue F
  | .null => .none
  | .bool b => .bool b
  | .int n => .int n
  | .float m s => .float (floatOf ⟨m, -s⟩)
  | .str s => .str s
  | .arr items => .list (ofJsonItems items)
  | .obj fields => .dict (ofJsonFields fields)

/-- The items of a list. -/
def PyValue.ofJsonItems : List Json → List (PyValue F)
  | [] => []
  | v :: items => ofJson v :: ofJsonItems items

/-- The fields of a dict. -/
def PyValue.ofJsonFields : List (String × Json) → List (String × PyValue F)
  | [] => []
  | (k, v) :: fields => (k, ofJson v) :: ofJsonFields fields

end

mutual

/-- The document has no fractions. -/
def integral : Json → Bool
  | .float _ _ => false
  | .arr items => integralItems items
  | .obj fields => integralFields fields
  | .null | .bool _ | .int _ | .str _ => true

@[inherit_doc integral]
def integralItems : List Json → Bool
  | [] => true
  | v :: items => integral v && integralItems items

@[inherit_doc integral]
def integralFields : List (String × Json) → Bool
  | [] => true
  | (_, v) :: fields => integral v && integralFields fields

end

mutual

/-- A document that fits DynamoDB is a plain value. -/
theorem plain_ofJson : (v : Json) → storable v = true → integral v = true →
    (ofJson floatOf v).plain = true
  | .null, _, _ | .bool _, _, _ | .str _, _, _ => by simp only [ofJson, plain]
  | .int n, h, _ => by
    rw [ofJson, plain]
    rw [storable] at h
    exact h
  | .float _ _, _, h => by cases h
  | .arr items, h, h' => by
    rw [storable] at h
    rw [integral] at h'
    rw [ofJson, plain, plain_ofJsonItems items h h']
  | .obj fields, h, h' => by
    rw [storable] at h
    rw [integral] at h'
    rw [ofJson, plain, plain_ofJsonFields fields h h']

theorem plain_ofJsonItems : (items : List Json) → storableItems items = true →
    integralItems items = true → plainItems (ofJsonItems floatOf items) = true
  | [], _, _ => by simp only [ofJsonItems, plainItems]
  | v :: items, h, h' => by
    rw [storableItems, Bool.and_eq_true] at h
    rw [integralItems, Bool.and_eq_true] at h'
    rw [ofJsonItems, plainItems, plain_ofJson v h.1 h'.1, plain_ofJsonItems items h.2 h'.2,
      Bool.and_self]

theorem plain_ofJsonFields : (fields : List (String × Json)) → storableFields fields = true →
    integralFields fields = true → plainFields (ofJsonFields floatOf fields) = true
  | [], _, _ => by simp only [ofJsonFields, plainFields]
  | (k, v) :: fields, h, h' => by
    rw [storableFields, Bool.and_eq_true] at h
    rw [integralFields, Bool.and_eq_true] at h'
    rw [ofJsonFields, plainFields, plain_ofJson v h.1 h'.1, plain_ofJsonFields fields h.2 h'.2,
      Bool.and_self]

end

/-- A document without fractions that `toValue` takes is written, and is read as it was. -/
theorem ddbValue_of_storable (boto : Boto F) (decimalOf : F → ExactDecimal) {document value : Json}
    (hintegral : integral document = true) (h : toValue document = .ok value) :
    ∃ a, ddbValue boto decimalOf (ofJson floatOf document) = .ok a ∧
      (boto.deserialize a).unwrap floatOf = ofJson floatOf value := by
  unfold toValue at h
  split at h
  · next hstorable =>
    cases h
    exact ddbValue_of_plain boto decimalOf floatOf (plain_ofJson floatOf document hstorable hintegral)
  · cases h

end Documents

/-! ### Attribute values -/

/-- An attribute value of DynamoDB. -/
inductive AttributeValue where
  | S (s : String)
  | N (d : ExactDecimal)
  | BOOL (b : Bool)
  | NULL
  | L (items : List AttributeValue)
  | M (fields : List (String × AttributeValue))

namespace AttributeValue

variable {F : Type}

mutual

/-- `TypeSerializer.serialize`. -/
def serialize : PyValue F → Except PyErr AttributeValue
  | .none => .ok .NULL
  | .bool b => .ok (.BOOL b)
  | .int n => number (.ofInt n)
  | .decimal d => number d
  | .float _ => .error ⟨.typeError, "Float types are not supported. Use Decimal types instead."⟩
  | .str s => .ok (.S s)
  | .list items => (serializeItems items).map .L
  | .tuple items => (serializeItems items).map .L
  | .dict fields => (serializeFields fields).map .M
where
  /-- `DYNAMODB_CONTEXT.create_decimal`, which traps what is inexact. -/
  number (d : ExactDecimal) : Except PyErr AttributeValue :=
    if digits d.coeff.natAbs ≤ 38 then .ok (.N d)
    else .error ⟨.exception "Inexact", "[<class 'decimal.Inexact'>, <class 'decimal.Rounded'>]"⟩

/-- `[self.serialize(v) for v in value]`. -/
def serializeItems : List (PyValue F) → Except PyErr (List AttributeValue)
  | [] => .ok []
  | v :: items => do return (← serialize v) :: (← serializeItems items)

/-- `{k: self.serialize(v) for k, v in value.items()}`. -/
def serializeFields : List (String × PyValue F) → Except PyErr (List (String × AttributeValue))
  | [] => .ok []
  | (k, v) :: fields => do return (k, ← serialize v) :: (← serializeFields fields)

end

mutual

/-- `TypeDeserializer.deserialize`. -/
def deserialize : AttributeValue → PyValue F
  | S s => .str s
  | N d => .decimal d
  | BOOL b => .bool b
  | NULL => .none
  | L items => .list (deserializeItems items)
  | M fields => .dict (deserializeFields fields)

/-- `[self.deserialize(v) for v in value]`. -/
def deserializeItems : List AttributeValue → List (PyValue F)
  | [] => []
  | a :: items => deserialize a :: deserializeItems items

/-- `{k: self.deserialize(v) for k, v in value.items()}`. -/
def deserializeFields : List (String × AttributeValue) → List (String × PyValue F)
  | [] => []
  | (k, a) :: fields => (k, deserialize a) :: deserializeFields fields

end

mutual

theorem deserialize_serialize : (v : PyValue F) → v.plain = true →
    ∃ a, serialize v = .ok a ∧ (deserialize a : PyValue F) = v.decimals
  | .none, _ => ⟨.NULL, by rw [serialize], by rw [deserialize, decimals]⟩
  | .bool b, _ => ⟨.BOOL b, by rw [serialize], by rw [deserialize, decimals]⟩
  | .str s, _ => ⟨.S s, by rw [serialize], by rw [deserialize, decimals]⟩
  | .int n, h => by
    rw [plain] at h
    refine ⟨.N (.ofInt n), ?_, by rw [deserialize, decimals]⟩
    rw [serialize, serialize.number]
    exact if_pos (of_decide_eq_true h)
  | .list items, h => by
    obtain ⟨as, hwrite, hread⟩ := deserializeItems_serializeItems items h
    exact ⟨.L as, by rw [serialize, hwrite]; rfl, by rw [deserialize, decimals, hread]⟩
  | .dict fields, h => by
    obtain ⟨as, hwrite, hread⟩ := deserializeFields_serializeFields fields h
    exact ⟨.M as, by rw [serialize, hwrite]; rfl, by rw [deserialize, decimals, hread]⟩
  | .float _, h | .decimal _, h | .tuple _, h => by cases h

theorem deserializeItems_serializeItems : (items : List (PyValue F)) → plainItems items = true →
    ∃ as, serializeItems items = .ok as ∧
      (deserializeItems as : List (PyValue F)) = decimalsItems items
  | [], _ => ⟨[], by rw [serializeItems], by rw [deserializeItems, decimalsItems]⟩
  | v :: items, h => by
    obtain ⟨a, hvalue, hvalue'⟩ := deserialize_serialize v (plainItems_cons h).1
    obtain ⟨as, hitems, hitems'⟩ := deserializeItems_serializeItems items (plainItems_cons h).2
    refine ⟨a :: as, ?_, by rw [deserializeItems, decimalsItems, hvalue', hitems']⟩
    rw [serializeItems, hvalue, hitems]
    rfl

theorem deserializeFields_serializeFields : (fields : List (String × PyValue F)) →
    plainFields fields = true → ∃ as, serializeFields fields = .ok as ∧
      (deserializeFields as : List (String × PyValue F)) = decimalsFields fields
  | [], _ => ⟨[], by rw [serializeFields], by rw [deserializeFields, decimalsFields]⟩
  | (k, v) :: fields, h => by
    obtain ⟨a, hvalue, hvalue'⟩ := deserialize_serialize v (plainFields_cons h).1
    obtain ⟨as, hfields, hfields'⟩ := deserializeFields_serializeFields fields (plainFields_cons h).2
    refine ⟨(k, a) :: as, ?_, by rw [deserializeFields, decimalsFields, hvalue', hfields']⟩
    rw [serializeFields, hvalue, hfields]
    rfl

end

/-- boto3, as its documentation has it. -/
def boto (F : Type) : Boto F where
  Attribute := AttributeValue
  serialize := serialize
  deserialize := deserialize
  deserialize_serialize := deserialize_serialize

end AttributeValue

/-- The settings of an org, with a null at the top and one inside. -/
def nestedSettings : List (String × PyValue ExactDecimal) :=
  [("org_id", .str "org"), ("sender_name", .none), ("next_invoice_number", .int 1000000007),
    ("metadata", .dict [("tags", .list [.str "a", .none, .bool true]), ("owner", .none)])]

/-- The null at the top is left out of an item, and the one inside is not. -/
theorem fromItem_toItem_nested :
    (∃ item, toItem (AttributeValue.boto ExactDecimal) id nestedSettings = .ok item ∧
      fromItem (AttributeValue.boto ExactDecimal) id item =
        [("org_id", .str "org"), ("next_invoice_number", .int 1000000007),
          ("metadata", .dict [("tags", .list [.str "a", .none, .bool true]), ("owner", .none)])]) ∧
    ∃ item, ddbValues (AttributeValue.boto ExactDecimal) id nestedSettings = .ok item ∧
      fromItem (AttributeValue.boto ExactDecimal) id item = nestedSettings :=
  have hplain : plainFields nestedSettings = true := by decide
  fromItem_toItem (AttributeValue.boto ExactDecimal) id id hplain

end A2ZCore.Core
