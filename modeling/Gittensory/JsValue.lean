import Gittensory.TextPattern
import Mathlib.Data.Rat.Floor
import Mathlib.Algebra.Order.Floor.Ring
import Mathlib.Tactic.Linarith

/-!
The few JavaScript values and string operations the modelled functions rest on.
Text is a list of code points; lengths and slices count UTF-16 units. A finite
number is the rational its shortest decimal denotes, which keeps order, rounding
to integers and printing.
-/
namespace Gittensory.JsValue

open TextPattern

/-- Code points whose lower-case form contains an ASCII letter, besides the
ASCII capitals: the Kelvin sign and the dotted capital I. Every other code point
stays outside ASCII, which no comparison in the modelled code can tell. -/
def lowerChar (c : Char) : List Char :=
  if c = '\u212A' then ['k']
  else if c = '\u0130' then ['i', '\u0307']
  else [Pattern.lowerOf c]

def toLowerCase (text : String) : String :=
  String.ofList (text.toList.flatMap lowerChar)

/-- `WhiteSpace` and `LineTerminator`, what `\s` matches and `trim` removes. -/
def spaceSet : CharSet where
  negated := false
  ranges := [('\t', '\r'), (' ', ' '), ('\u00A0', '\u00A0'), ('\u1680', '\u1680'),
    ('\u2000', '\u200A'), ('\u2028', '\u2029'), ('\u202F', '\u202F'),
    ('\u205F', '\u205F'), ('\u3000', '\u3000'), ('\uFEFF', '\uFEFF')]

/-- `\s+` -/
def spaces : Pattern := .plus (.char spaceSet)

def trimText (text : Text) : Text :=
  ((text.dropWhile spaceSet.accepts).reverse.dropWhile spaceSet.accepts).reverse

def trim (text : String) : String := String.ofList (trimText text.toList)

theorem not_mem_toString {c : Char} (hc : c.isDigit = false) (n : ℕ) :
    c ∉ (toString n).toList := by
  intro hmem
  have hdigits : (toString n).toList = Nat.toDigits 10 n := by simp
  rw [hdigits] at hmem
  have hdigit := Nat.isDigit_of_mem_toDigits (by decide) (by decide) hmem
  rw [hc] at hdigit
  cases hdigit

def unitsOf (c : Char) : ℕ := if c.toNat < 0x10000 then 1 else 2

def jsLength (text : String) : ℕ := (text.toList.map unitsOf).sum

/-- The code points that fit whole into the first `units` UTF-16 units. -/
def takeUnits : ℕ → Text → Text
  | _, [] => []
  | units, c :: rest =>
      if unitsOf c ≤ units then c :: takeUnits (units - unitsOf c) rest else []

/-- `text.slice(0, units)`; a surrogate pair cut in half is dropped. -/
def sliceTo (units : ℕ) (text : String) : String := String.ofList (takeUnits units text.toList)

/-- `value || undefined`-style truthiness of a string that may be absent. -/
def truthy : Option String → Bool
  | none => false
  | some text => text ≠ ""

/-- The text of a truthy string. -/
def present (value : Option String) : Option String := value.filter (fun text => text ≠ "")

theorem mem_present_iff (value : Option String) (text : String) :
    text ∈ (present value).toList ↔ value = some text ∧ text ≠ "" := by
  simp only [present, Option.mem_toList, Option.filter_eq_some_iff, decide_eq_true_eq]

inductive JsNumber where
  | nan
  | negInfinity
  | infinity
  | finite (value : ℚ)
  deriving DecidableEq, Repr

namespace JsNumber

/-- `left >= right`; a comparison with `NaN` is false. -/
def ge : JsNumber → JsNumber → Bool
  | .nan, _ => false
  | _, .nan => false
  | .infinity, _ => true
  | _, .infinity => false
  | _, .negInfinity => true
  | .negInfinity, _ => false
  | .finite left, .finite right => right ≤ left

/-- `left < right`; a comparison with `NaN` is false. -/
def lt (left right : JsNumber) : Bool := right.ge left && !left.ge right

theorem lt_irrefl (value : JsNumber) : value.lt value = false := by
  unfold lt
  cases value.ge value <;> rfl

/-- `Math.trunc`: toward zero. -/
def mathTrunc : JsNumber → JsNumber
  | .finite value => .finite ((if value < 0 then ⌈value⌉ else ⌊value⌋ : ℤ) : ℚ)
  | other => other

/-- `Math.max` of two numbers; `NaN` if one of them is. -/
def mathMax (left right : JsNumber) : JsNumber :=
  if left = .nan ∨ right = .nan then .nan else if ge left right then left else right

/-- `Math.min` of two numbers; `NaN` if one of them is. -/
def mathMin (left right : JsNumber) : JsNumber :=
  if left = .nan ∨ right = .nan then .nan else if ge left right then right else left

/-- The digits after the point of a fraction below one, at most `fuel` of them. -/
def fractionDigits : ℕ → ℚ → List Char
  | 0, _ => []
  | fuel + 1, value =>
      if value = 0 then []
      else
        let shifted := value * 10
        (toString shifted.floor).toList ++ fractionDigits fuel (shifted - shifted.floor)

/-- Plain decimal notation, what `String(value)` gives between 1e-6 and 1e21. -/
def decimal (value : ℚ) : String :=
  if value.den = 1 then toString value.num
  else
    (if value < 0 then "-" else "") ++ toString |value|.floor ++ "." ++
      String.ofList (fractionDigits 20 (|value| - |value|.floor))

def toText : JsNumber → String
  | .nan => "NaN"
  | .negInfinity => "-Infinity"
  | .infinity => "Infinity"
  | .finite value => decimal value

end JsNumber

/-- `Math.round`: to the nearest integer, halves upward. -/
def mathRound (value : ℚ) : ℤ := ⌊value + 1 / 2⌋

theorem mathRound_mono {a b : ℚ} (h : a ≤ b) : mathRound a ≤ mathRound b :=
  Int.floor_mono (by linarith)

end Gittensory.JsValue
