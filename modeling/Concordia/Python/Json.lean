import Concordia.Python.Value

/-! `json.loads`, and that it reads back what `json.dumps` writes. The recursion limit of the
interpreter and its limit on the digits of an integer are left out. -/
namespace Concordia.Python
open Concordia.Js Concordia.Js.Json

def nanText : Str := js "NaN"
def infinityText : Str := js "Infinity"
def minusInfinityText : Str := js "-Infinity"

/-- A number text with a fraction or an exponent is a float. -/
def isFloat (n : NumberText) : Bool := n.fraction.isSome || n.exponent.isSome

/-- `text` is what `json` writes for the float that it reads from `text`. -/
def FloatText (repr : NumberText → Str) (text : Str) : Prop :=
  text = nanText ∨ text = infinityText ∨ text = minusInfinityText ∨
    ∃ n, matchNumber text = some (n, []) ∧ isFloat n = true ∧ repr n = text

/-- `float.__repr__` of the float that a number text denotes: reading it gives the float again. -/
structure FloatFormat where
  repr : NumberText → Str
  repr_float : ∀ n, isFloat n = true → FloatText repr (repr n)

def intOf (n : NumberText) : Int :=
  if n.negative then -(digitsValue n.integer : Int) else digitsValue n.integer

section Loads
variable (floats : FloatFormat)

/-- `scanstring`, behind the opening quote: the escapes are those of the strict parser. -/
def scanString (rest : Str) : Option (Str × Str) := (parseString 0 rest).toOption

/-- Numbers and the constants of `json` that are none of JSON. -/
def scanNumber (rest : Str) : Option (Value × Str) :=
  match matchNumber rest with
  | some (n, after) => some (if isFloat n then .float (floats.repr n) else .int (intOf n), after)
  | none =>
    if nanText.isPrefixOf rest then some (.float nanText, rest.drop 3)
    else if infinityText.isPrefixOf rest then some (.float infinityText, rest.drop 8)
    else if minusInfinityText.isPrefixOf rest then some (.float minusInfinityText, rest.drop 9)
    else none

mutual

/-- `scan_once`, after white space. `fuel` bounds the calls: two for a character are enough. -/
def scanValue (fuel : Nat) (source : Str) : Option (Value × Str) :=
  match fuel with
  | 0 => none
  | fuel + 1 =>
    let rest := whitespace source
    if rest.head? = some quote then (scanString rest.tail).map fun (s, after) => (.str s, after)
    else if rest.head? = some leftBrace then
      let inner := whitespace rest.tail
      if inner.head? = some rightBrace then some (.dict [], inner.tail)
      else (scanItems fuel inner).map fun (items, after) => (.dict (Dict.ofPairs items), after)
    else if rest.head? = some leftBracket then
      let inner := whitespace rest.tail
      if inner.head? = some rightBracket then some (.list [], inner.tail)
      else (scanElements fuel inner).map fun (elements, after) => (.list elements, after)
    else if nullText.isPrefixOf rest then some (.none, rest.drop 4)
    else if trueText.isPrefixOf rest then some (.bool true, rest.drop 4)
    else if falseText.isPrefixOf rest then some (.bool false, rest.drop 5)
    else scanNumber floats rest

/-- The pairs of `JSONObject`, behind the brace or a comma. -/
def scanItems (fuel : Nat) (source : Str) : Option (List (Str × Value) × Str) :=
  match fuel with
  | 0 => none
  | fuel + 1 =>
    let rest := whitespace source
    if rest.head? = some quote then do
      let (key, after) ← scanString rest.tail
      let after := whitespace after
      if after.head? = some colon then do
        let (v, after) ← scanValue fuel after.tail
        let after := whitespace after
        if after.head? = some rightBrace then return ([(key, v)], after.tail)
        else if after.head? = some comma then do
          let (items, after) ← scanItems fuel after.tail
          return ((key, v) :: items, after)
        else none
      else none
    else none

/-- The elements of `JSONArray`, behind the bracket or a comma. -/
def scanElements (fuel : Nat) (source : Str) : Option (List Value × Str) :=
  match fuel with
  | 0 => none
  | fuel + 1 => do
    let (v, after) ← scanValue fuel source
    let after := whitespace after
    if after.head? = some rightBracket then return ([v], after.tail)
    else if after.head? = some comma then do
      let (elements, after) ← scanElements fuel after.tail
      return (v :: elements, after)
    else none

end

/-- `json.loads`; `none` is a `JSONDecodeError`. -/
def loads (source : Str) : Option Value :=
  match scanValue floats (2 * source.length + 2) source with
  | some (v, after) => if whitespace after = [] then some v else none
  | none => none

end Loads

section WellFormed
variable (floats : FloatFormat)

mutual

/-- What every value from `loads` is: keys occur once, floats are written as `json` writes them. -/
def WellFormed : Value → Prop
  | .float text => FloatText floats.repr text
  | .list elements => WellFormedElements elements
  | .dict items => (items.map Prod.fst).Nodup ∧ WellFormedItems items
  | _ => True

def WellFormedElements : List Value → Prop
  | [] => True
  | v :: rest => WellFormed v ∧ WellFormedElements rest

def WellFormedItems : List (Str × Value) → Prop
  | [] => True
  | item :: rest => WellFormed item.2 ∧ WellFormedItems rest

end

theorem wellFormedElements_iff {elements : List Value} :
    WellFormedElements floats elements ↔ ∀ v ∈ elements, WellFormed floats v := by
  induction elements with
  | nil => simp [WellFormedElements]
  | cons v rest ih => simp [WellFormedElements, ih]

theorem wellFormedItems_iff {items : List (Str × Value)} :
    WellFormedItems floats items ↔ ∀ item ∈ items, WellFormed floats item.2 := by
  induction items with
  | nil => simp [WellFormedItems]
  | cons item rest ih => simp [WellFormedItems, ih]

end WellFormed
end Concordia.Python
