import Gittensory.JsonRecord

/-!
What is left of a JSON value that is written as text and parsed again: a number JSON has no
word for comes back as `null`, everything else as it was. A reader that treats such a number
and `null` alike reads the same from both.
-/
namespace Gittensory.StoredJson

open CodeUnits JsValue JsonRecord

mutual

/-- `JSON.parse(JSON.stringify(value))` -/
def stored : JsonValue → JsonValue
  | .null => .null
  | .bool value => .bool value
  | .number (.finite value) => .number (.finite value)
  | .number _ => .null
  | .string text => .string text
  | .array items => .array (storedItems items)
  | .object fields => .object (storedFields fields)

def storedItems : List JsonValue → List JsonValue
  | [] => []
  | item :: rest => stored item :: storedItems rest

def storedFields : List (String × JsonValue) → List (String × JsonValue)
  | [] => []
  | (key, value) :: rest => (key, stored value) :: storedFields rest

end

theorem storedItems_eq (items : List JsonValue) : storedItems items = items.map stored := by
  induction items with
  | nil => rfl
  | cons item rest ih => rw [storedItems, ih, List.map_cons]

theorem storedFields_eq (fields : Record) :
    storedFields fields = fields.map fun field => (field.1, stored field.2) := by
  induction fields with
  | nil => rfl
  | cons field rest ih => rw [storedFields, ih, List.map_cons]

mutual

/-- Once stored, a value no longer changes. -/
theorem stored_stored : ∀ value, stored (stored value) = stored value
  | .null => rfl
  | .bool _ => rfl
  | .number .nan => rfl
  | .number .negInfinity => rfl
  | .number .infinity => rfl
  | .number (.finite _) => rfl
  | .string _ => rfl
  | .array items => by
    rw [stored, stored, storedItems_storedItems items]
  | .object fields => by
    rw [stored, stored, storedFields_storedFields fields]

theorem storedItems_storedItems : ∀ items, storedItems (storedItems items) = storedItems items
  | [] => rfl
  | item :: rest => by
    rw [storedItems, storedItems, stored_stored item, storedItems_storedItems rest]

theorem storedFields_storedFields :
    ∀ fields, storedFields (storedFields fields) = storedFields fields
  | [] => rfl
  | (key, value) :: rest => by
    rw [storedFields, storedFields, stored_stored value, storedFields_storedFields rest]

end

theorem lookup_storedFields (fields : Record) (key : String) :
    (storedFields fields).lookup key = (fields.lookup key).map stored := by
  induction fields with
  | nil => rfl
  | cons field rest ih =>
    obtain ⟨name, value⟩ := field
    rw [storedFields, List.lookup_cons, List.lookup_cons]
    cases key == name with
    | true => rfl
    | false => exact ih

/-! ## Readers -/

/-- `typeof value === "number" && Number.isFinite(value) ? value : null` -/
def finiteNumber : Option JsonValue → Option ℚ
  | some (.number (.finite value)) => some value
  | _ => none

/-- `typeof value === "string" ? value : null` -/
def stringOf : Option JsonValue → Option Units
  | some (.string text) => some text
  | _ => none

/-- `typeof value === "boolean" ? value : null` -/
def booleanOf : Option JsonValue → Option Bool
  | some (.bool value) => some value
  | _ => none

/-- The fields of an object that is no array; every other value has none. -/
def fieldsOf : Option JsonValue → Record
  | some (.object fields) => fields
  | _ => []

/-- `Boolean(value)` -/
def isTruthy : Option JsonValue → Bool
  | none | some .null => false
  | some (.bool value) => value
  | some (.number value) => value ≠ .nan ∧ value ≠ .finite 0
  | some (.string text) => text ≠ []
  | some (.array _) | some (.object _) => true

theorem finiteNumber_map_stored (value : Option JsonValue) :
    finiteNumber (value.map stored) = finiteNumber value := by
  rcases value with _ | _ | _ | number | _ | _ | _
  case some.number => cases number <;> rfl
  all_goals rfl

theorem stringOf_map_stored (value : Option JsonValue) :
    stringOf (value.map stored) = stringOf value := by
  rcases value with _ | _ | _ | number | _ | _ | _
  case some.number => cases number <;> rfl
  all_goals rfl

theorem booleanOf_map_stored (value : Option JsonValue) :
    booleanOf (value.map stored) = booleanOf value := by
  rcases value with _ | _ | _ | number | _ | _ | _
  case some.number => cases number <;> rfl
  all_goals rfl

theorem fieldsOf_map_stored (value : Option JsonValue) :
    fieldsOf (value.map stored) = storedFields (fieldsOf value) := by
  rcases value with _ | _ | _ | number | _ | _ | _
  case some.number => cases number <;> rfl
  all_goals rfl

theorem lookup_fieldsOf_map_stored (value : Option JsonValue) (key : String) :
    (fieldsOf (value.map stored)).lookup key = ((fieldsOf value).lookup key).map stored := by
  rw [fieldsOf_map_stored, lookup_storedFields]

end Gittensory.StoredJson
