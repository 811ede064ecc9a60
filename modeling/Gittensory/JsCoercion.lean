import Gittensory.JsonRecord
import Gittensory.RadixNumerals
import Mathlib.Data.Int.Log

/-!
How JavaScript turns a JSON value into text and into a number. An object is turned by its
`toString`, which every object inherits; one that has a field of that name has no function
there, and the conversion throws, also within an array. A text is a number as its numeral
reads, rounded to the nearest double.
-/
namespace Gittensory.JsCoercion

open CodeUnits JsValue JsonText JsonRecord RadixNumerals

/-! ## Text -/

mutual

/-- `String(value)` does not throw. -/
def isPrintable : JsonValue → Bool
  | .array items => arePrintable items
  | .object fields => (fields.lookup "toString").isNone
  | _ => true

def arePrintable : List JsonValue → Bool
  | [] => true
  | item :: rest => isPrintable item && arePrintable rest

end

/-- `String(value)`, or nothing when it throws. -/
def jsString (value : JsonValue) : Option Units :=
  if isPrintable value then some value.toText else none

/-- `String(value)` of a field that may be missing. -/
def textOf : Option JsonValue → Option Units
  | none => some (units "undefined")
  | some value => jsString value

/-- `String(value ?? "")` -/
def textOrEmpty : Option JsonValue → Option Units
  | none | some .null => some []
  | some value => jsString value

mutual

/-- `JSON.stringify(value)` -/
def stringify : JsonValue → Units
  | .null => units "null"
  | .bool value => units (if value then "true" else "false")
  | .number (.finite value) => units (JsNumber.decimal value)
  | .number _ => units "null"
  | .string text => jsonQuoted text
  | .array items => 91 :: stringifyItems items ++ [93]
  | .object fields => 123 :: stringifyFields fields ++ [125]

def stringifyItems : List JsonValue → Units
  | [] => []
  | [item] => stringify item
  | item :: rest => stringify item ++ 44 :: stringifyItems rest

def stringifyFields : List (String × JsonValue) → Units
  | [] => []
  | [(key, value)] => jsonQuoted (units key) ++ 58 :: stringify value
  | (key, value) :: rest =>
      jsonQuoted (units key) ++ 58 :: stringify value ++ 44 :: stringifyFields rest

end

/-! ## Numbers -/

/-- To the nearest integer, halves to the even one. -/
def roundHalfEven (value : ℚ) : ℤ :=
  let below := ⌊value⌋
  if value - below < 1 / 2 then below
  else if value - below > 1 / 2 then below + 1
  else if below % 2 = 0 then below
  else below + 1

/-- The nearest double: 53 binary digits, none below 2^-1074, infinite from 2^1024 on. -/
def roundToDouble (value : ℚ) : JsNumber :=
  if value = 0 then .finite 0
  else
    let exponent := max (Int.log 2 |value| - 52) (-1074)
    let rounded := (roundHalfEven (value / 2 ^ exponent) : ℚ) * 2 ^ exponent
    if rounded ≥ 2 ^ 1024 then .infinity
    else if rounded ≤ -2 ^ 1024 then .negInfinity
    else .finite rounded

/-- A sign in front of a text. -/
def signOf : Units → ℤ × Units
  | 43 :: rest => (1, rest)
  | 45 :: rest => (-1, rest)
  | text => (1, text)

/-- An exponent that takes up the whole text. -/
def exponentOf (text : Units) : Option ℤ :=
  match text with
  | [] => some 0
  | mark :: rest =>
      let (sign, digits) := signOf rest
      if (mark = 101 ∨ mark = 69) ∧ digits ≠ [] ∧ digits.all (isDigitIn 10) then
        some (sign * valueIn 10 digits)
      else none

/-- A decimal numeral without sign that takes up the whole text. -/
def decimalNumeral (text : Units) : Option ℚ :=
  let whole := text.takeWhile (isDigitIn 10)
  let afterWhole := text.drop whole.length
  let point := afterWhole.head? = some 46
  let fraction := if point then afterWhole.tail.takeWhile (isDigitIn 10) else []
  let rest := if point then afterWhole.tail.drop fraction.length else afterWhole
  if whole = [] ∧ fraction = [] then none
  else (exponentOf rest).map fun (exponent : ℤ) =>
    (valueIn 10 (whole ++ fraction) : ℚ) * 10 ^ (exponent - (fraction.length : ℤ))

/-- A numeral after `0x`, `0o` or `0b`. -/
def prefixedNumeral (text : Units) : Option ℕ :=
  match text with
  | 48 :: mark :: digits =>
      let radix := if mark = 120 ∨ mark = 88 then 16
        else if mark = 111 ∨ mark = 79 then 8
        else if mark = 98 ∨ mark = 66 then 2
        else 0
      if radix ≠ 0 ∧ digits ≠ [] ∧ digits.all (isDigitIn radix) then some (valueIn radix digits)
      else none
  | _ => none

/-- `Number(text)` -/
def stringToNumber (text : Units) : JsNumber :=
  let body := trim text
  if body = [] then .finite 0
  else
    match prefixedNumeral body with
    | some value => roundToDouble value
    | none =>
        let (sign, unsigned) := signOf body
        if unsigned = units "Infinity" then (if sign = 1 then .infinity else .negInfinity)
        else
          match decimalNumeral unsigned with
          | some value => roundToDouble (sign * value)
          | none => .nan

/-- `Number(value)`, or nothing when it throws. -/
def toNumber : JsonValue → Option JsNumber
  | .null => some (.finite 0)
  | .bool value => some (.finite (if value then 1 else 0))
  | .number value => some value
  | .string text => some (stringToNumber text)
  | value => (jsString value).map stringToNumber

/-- `Number(value)` of a field that may be missing. -/
def numberOf : Option JsonValue → Option JsNumber
  | none => some .nan
  | some value => toNumber value

/-- `Number.isInteger(value)` -/
def isInteger : JsNumber → Bool
  | .finite value => value.den = 1
  | _ => false

end Gittensory.JsCoercion
