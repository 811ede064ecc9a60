import Gittensory.CodeUnits

/-!
JSON values and records that are read by key. A record is written from a list of entries
of which some are absent, and every key reads back what it was written with. Enumerations
are read and written by their spellings.
-/
namespace Gittensory.JsonRecord

open CodeUnits JsValue

inductive JsonValue where
  | null
  | bool (value : Bool)
  | number (value : JsNumber)
  | string (text : Units)
  | array (items : List JsonValue)
  | object (fields : List (String × JsonValue))

/-- Names are well-formed text; one with half a surrogate pair is left out. -/
abbrev Record := List (String × JsonValue)

namespace JsonValue

/-- `typeof value` -/
def typeOf : JsonValue → String
  | .bool _ => "boolean"
  | .number _ => "number"
  | .string _ => "string"
  | _ => "object"

mutual

/-- `String(value)` -/
def toText : JsonValue → Units
  | .null => units "null"
  | .bool value => units (if value then "true" else "false")
  | .number value => units value.toText
  | .string text => text
  | .array items => joinTexts items
  | .object _ => units "[object Object]"

/-- An array's items with commas between them; `null` leaves its place empty. -/
def joinTexts : List JsonValue → Units
  | [] => []
  | [.null] => []
  | [item] => toText item
  | .null :: rest => units "," ++ joinTexts rest
  | item :: rest => toText item ++ units "," ++ joinTexts rest

end

end JsonValue

section Records

/-- The entries of a record that are there. -/
def recordOf (entries : List (String × Option JsonValue)) : Record :=
  entries.filterMap fun entry => entry.2.map fun value => (entry.1, value)

/-- A nested record, written when it is not empty. -/
def nestedRecord (entries : List (String × Option JsonValue)) : Option JsonValue :=
  if recordOf entries = [] then none else some (.object (recordOf entries))

/-- The value of an optional mapping under a key; other values have none. -/
def member (value : Option JsonValue) (key : String) : Option JsonValue :=
  match value with
  | some (.object record) => record.lookup key
  | _ => none

theorem lookup_recordOf_eq_none {entries : List (String × Option JsonValue)} {key : String}
    (h : key ∉ entries.map Prod.fst) : (recordOf entries).lookup key = none := by
  induction entries with
  | nil => rfl
  | cons entry entries ih =>
    rw [List.map_cons, List.mem_cons, not_or] at h
    obtain ⟨name, value⟩ := entry
    cases value with
    | none => exact ih h.2
    | some value =>
      have hne : (key == name) = false := beq_false_of_ne h.1
      have hrecord : recordOf ((name, some value) :: entries) =
          (name, value) :: recordOf entries := rfl
      rw [hrecord, List.lookup_cons, hne]
      exact ih h.2

/-- What a record was written with is read back. -/
theorem lookup_recordOf {entries : List (String × Option JsonValue)} {key : String}
    {value : Option JsonValue} (hkeys : (entries.map Prod.fst).Nodup)
    (hmem : (key, value) ∈ entries) : (recordOf entries).lookup key = value := by
  induction entries with
  | nil => cases hmem
  | cons entry entries ih =>
    rw [List.map_cons, List.nodup_cons] at hkeys
    obtain ⟨name, first⟩ := entry
    rcases List.mem_cons.mp hmem with heq | hrest
    · obtain ⟨rfl, rfl⟩ := Prod.mk.inj heq
      cases value with
      | none =>
        have habsent := lookup_recordOf_eq_none hkeys.1
        exact habsent
      | some value =>
        have hrecord : recordOf ((key, some value) :: entries) =
            (key, value) :: recordOf entries := rfl
        rw [hrecord, List.lookup_cons, beq_self_eq_true]
    · have hne : (key == name) = false := by
        apply beq_false_of_ne
        rintro rfl
        exact hkeys.1 (List.mem_map.mpr ⟨_, hrest, rfl⟩)
      cases first with
      | none => exact ih hkeys.2 hrest
      | some first =>
        have hrecord : recordOf ((name, some first) :: entries) =
            (name, first) :: recordOf entries := rfl
        rw [hrecord, List.lookup_cons, hne]
        exact ih hkeys.2 hrest

theorem recordOf_eq_nil_iff {entries : List (String × Option JsonValue)} :
    recordOf entries = [] ↔ ∀ entry ∈ entries, entry.2 = none := by
  unfold recordOf
  rw [List.filterMap_eq_nil_iff]
  refine forall₂_congr fun entry _ => ?_
  rw [Option.map_eq_none_iff]

theorem reads_recordOf {entries : List (String × Option JsonValue)}
    (hkeys : (entries.map Prod.fst).Nodup) :
    ∀ entry ∈ entries, (recordOf entries).lookup entry.1 = entry.2 := fun _ hmem =>
  lookup_recordOf hkeys hmem

/-- An empty record that is not written reads the same. -/
theorem reads_nestedRecord {entries : List (String × Option JsonValue)}
    (hkeys : (entries.map Prod.fst).Nodup) :
    ∀ entry ∈ entries, member (nestedRecord entries) entry.1 = entry.2 := by
  intro entry hmem
  unfold nestedRecord
  split_ifs with hempty
  · exact (recordOf_eq_nil_iff.mp hempty entry hmem).symm
  · exact lookup_recordOf hkeys hmem

end Records

section Spellings

/-- The spellings of an enumeration: every value has one, and it has no other value's. -/
structure Spelling (α : Type) where
  allowed : List α
  name : α → String
  complete : ∀ value, value ∈ allowed := by
    intro value
    cases value <;> decide
  distinct : ∀ first ∈ allowed, ∀ second ∈ allowed,
    units (name first) = units (name second) → first = second := by decide

namespace Spelling

variable {α : Type} (spelling : Spelling α)

def read (text : Units) : Option α :=
  spelling.allowed.find? fun value => units (spelling.name value) = text

def write (value : α) : Units := units (spelling.name value)

def toJson (value : Option α) : Option JsonValue := value.map fun v => .string (spelling.write v)

/-- The allowed spellings as a message lists them. -/
def listed : String := ", ".intercalate (spelling.allowed.map spelling.name)

@[simp] theorem read_write (value : α) : spelling.read (spelling.write value) = some value := by
  unfold read
  cases hfind : spelling.allowed.find? fun other =>
      units (spelling.name other) = spelling.write value with
  | none =>
    have hnone := List.find?_eq_none.mp hfind value (spelling.complete value)
    simp [write] at hnone
  | some other =>
    have hother := List.find?_some hfind
    have hsame : units (spelling.name other) = units (spelling.name value) :=
      of_decide_eq_true hother
    rw [spelling.distinct other (spelling.complete other) value (spelling.complete value) hsame]

end Spelling

end Spellings

end Gittensory.JsonRecord
