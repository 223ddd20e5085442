import Concordia.Js.Value

/-! The verifier's strict JSON parser, on what is left of the source. -/
namespace Concordia.Js

inductive StrictJsonError where
  | duplicateJsonKey (key : JsString)
  | invalidJson (message : String) (offset : Nat)
  deriving DecidableEq, Repr

/-- A scanner returns its result and the rest of the source behind it. -/
abbrev Scan := Except StrictJsonError

namespace Json

def quote : UInt16 := 0x22
def plus : UInt16 := 0x2b
def comma : UInt16 := 0x2c
def minus : UInt16 := 0x2d
def dot : UInt16 := 0x2e
def zero : UInt16 := 0x30
def colon : UInt16 := 0x3a
def leftBracket : UInt16 := 0x5b
def backslash : UInt16 := 0x5c
def rightBracket : UInt16 := 0x5d
def letterU : UInt16 := 0x75
def leftBrace : UInt16 := 0x7b
def rightBrace : UInt16 := 0x7d

def isSpace (u : UInt16) : Bool := u == 0x20 || u == 0x09 || u == 0x0a || u == 0x0d

def whitespace (rest : JsString) : JsString := rest.dropWhile isSpace

section Scanner
variable (total : Nat)

/-- `fail`: the offset is where the scanner stands. -/
def fail {α : Type} (message : String) (rest : JsString) : Scan α :=
  .error (.invalidJson message (total - rest.length))

/-- `[0-9a-fA-F]`. -/
def hexDigitValue (u : UInt16) : Option Nat :=
  if 48 ≤ u ∧ u ≤ 57 then some (u.toNat - 48)
  else if 97 ≤ u ∧ u ≤ 102 then some (u.toNat - 87)
  else if 65 ≤ u ∧ u ≤ 70 then some (u.toNat - 55)
  else none

/-- The escapes of one letter: quote, backslash, slash, b, f, n, r and t. -/
def simpleEscape (u : UInt16) : Option UInt16 :=
  if u = quote ∨ u = backslash ∨ u = 0x2f then some u
  else if u = 0x62 then some 0x08
  else if u = 0x66 then some 0x0c
  else if u = 0x6e then some 0x0a
  else if u = 0x72 then some 0x0d
  else if u = 0x74 then some 0x09
  else none

/-- `string`, behind the opening quote, with the decoding that `JSON.parse` does. -/
def parseString : JsString → Scan (JsString × JsString)
  | [] => fail total "unterminated string" []
  | u :: rest =>
    if u = quote then .ok ([], rest)
    else if u = backslash then
      match rest with
      | [] => fail total "invalid string escape" []
      | e :: tail =>
        if e = letterU then
          match tail with
          | a :: b :: c :: d :: behind =>
            match hexDigitValue a, hexDigitValue b, hexDigitValue c, hexDigitValue d with
            | some a, some b, some c, some d => do
              let (s, after) ← parseString behind
              return ((4096 * a + 256 * b + 16 * c + d).toUInt16 :: s, after)
            | _, _, _, _ => fail total "invalid Unicode escape" (e :: tail)
          | _ => fail total "invalid Unicode escape" (e :: tail)
        else
          match simpleEscape e with
          | some escaped => do
            let (s, after) ← parseString tail
            return (escaped :: s, after)
          | none => fail total "invalid string escape" (e :: tail)
    else if u < 0x20 then fail total "control character in string" (u :: rest)
    else do
      let (s, after) ← parseString rest
      return (u :: s, after)

/-- The parts of a number literal: sign, integer digits, fraction digits, exponent. -/
structure NumberText where
  negative : Bool
  integer : JsString
  fraction : Option JsString
  exponent : Option (Bool × JsString)
  deriving DecidableEq

/-- `-?(?:0|[1-9][0-9]*)(?:\.[0-9]+)?(?:[eE][+-]?[0-9]+)?` at the head of the source. -/
def matchNumber (rest : JsString) : Option (NumberText × JsString) :=
  let negative := rest.head? == some minus
  let rest := if negative then rest.tail else rest
  let digits := rest.takeWhile isDigit
  match digits with
  | [] => none
  | d :: _ =>
    let integer := if d = zero then [zero] else digits
    let rest := rest.drop integer.length
    let fractionDigits := rest.tail.takeWhile isDigit
    let hasFraction := rest.head? == some dot && !fractionDigits.isEmpty
    let rest := if hasFraction then rest.tail.drop fractionDigits.length else rest
    let behind := rest.tail
    let signed := behind.head? == some plus || behind.head? == some minus
    let exponentDigits := (if signed then behind.tail else behind).takeWhile isDigit
    let hasExponent := (rest.head? == some 0x65 || rest.head? == some 0x45) &&
      !exponentDigits.isEmpty
    some ({ negative := negative
            integer := integer
            fraction := if hasFraction then some fractionDigits else none
            exponent := if hasExponent then some (behind.head? == some minus, exponentDigits)
              else none },
      if hasExponent then (if signed then behind.tail else behind).drop exponentDigits.length
      else rest)

/-- The rational number that the text writes. -/
def NumberText.exact (n : NumberText) : ℚ :=
  let fraction := n.fraction.getD []
  let mantissa : ℚ := digitsValue (n.integer ++ fraction) / 10 ^ fraction.length
  let scaled := match n.exponent with
    | none => mantissa
    | some (false, digits) => mantissa * 10 ^ digitsValue digits
    | some (true, digits) => mantissa / 10 ^ digitsValue digits
  if n.negative then -scaled else scaled

/-- The exponent of the last place of the double next to a positive rational. -/
def lastPlace (x : ℚ) : Int :=
  let guess : Int := Int.ofNat x.num.natAbs.log2 - Int.ofNat x.den.log2
  let top := if (2 : ℚ) ^ guess ≤ x then guess else guess - 1
  max (top - 52) (-1074)

/-- Round half to even. -/
def roundEven (x : ℚ) : Int :=
  let low := x.floor
  let part := x - low
  if part < 1 / 2 then low else if 1 / 2 < part then low + 1 else if low % 2 = 0 then low else low + 1

/-- The double nearest to a rational; `none` where it overflows. -/
def toDouble (x : ℚ) : Option ℚ :=
  if x = 0 then some 0
  else
    let place := lastPlace |x|
    let magnitude : ℚ := roundEven (|x| / 2 ^ place) * 2 ^ place
    if magnitude ≥ 2 ^ 1024 then none else some (if x < 0 then -magnitude else magnitude)

def maxSafeInteger : Int := 2 ^ 53 - 1

def parseNumber (rest : JsString) : Scan (Value × JsString) :=
  match matchNumber rest with
  | none => fail total "invalid JSON value" rest
  | some (text, after) =>
    if text.fraction.isNone ∧ text.exponent.isNone ∧
        (text.exact.num > maxSafeInteger ∨ text.exact.num < -maxSafeInteger) then
      .ok (.bigint text.exact.num, after)
    else
      match toDouble text.exact with
      | some x => .ok (.number x, after)
      | none => fail total "non-finite JSON number" after

/-- The loop of `object`, behind its opening brace. Every round consumes a character, so that
`fuel` is the length left. -/
def parseFields (value : JsString → Scan (Value × JsString)) (seen : List JsString) (fuel : Nat)
    (rest : JsString) : Scan (List (JsString × Value) × JsString) :=
  match fuel, rest with
  | 0, _ => fail total "unterminated object" rest
  | _, [] => fail total "unterminated object" []
  | fuel + 1, rest =>
    match whitespace rest with
    | [] => fail total "object key must be a string" []
    | u :: behind =>
      if u ≠ quote then fail total "object key must be a string" (u :: behind)
      else do
        let (key, after) ← parseString total behind
        if seen.contains key then throw (.duplicateJsonKey key)
        match whitespace after with
        | [] => fail total "expected colon after object key" []
        | u :: behind =>
          if u ≠ colon then fail total "expected colon after object key" (u :: behind)
          else do
            let (v, after) ← value behind
            match whitespace after with
            | [] => fail total "expected comma between object fields" []
            | u :: behind =>
              if u = rightBrace then return ([(key, v)], behind)
              else if u ≠ comma then fail total "expected comma between object fields" (u :: behind)
              else do
                let (fields, after) ← parseFields value (key :: seen) fuel behind
                return ((key, v) :: fields, after)

/-- The loop of `array`, behind its opening bracket. -/
def parseElements (value : JsString → Scan (Value × JsString)) (fuel : Nat) (rest : JsString) :
    Scan (List Value × JsString) :=
  match fuel, rest with
  | 0, _ => fail total "unterminated array" rest
  | _, [] => fail total "unterminated array" []
  | fuel + 1, rest => do
    let (v, after) ← value rest
    match whitespace after with
    | [] => fail total "expected comma between array elements" []
    | u :: behind =>
      if u = rightBracket then return ([v], behind)
      else if u ≠ comma then fail total "expected comma between array elements" (u :: behind)
      else do
        let (elements, after) ← parseElements value fuel behind
        return (v :: elements, after)

def trueText : JsString := [0x74, 0x72, 0x75, 0x65]
def falseText : JsString := [0x66, 0x61, 0x6c, 0x73, 0x65]
def nullText : JsString := [0x6e, 0x75, 0x6c, 0x6c]

/-- `value`, with `levels` levels of nesting still allowed. -/
def parseValue (levels : Nat) (source : JsString) : Scan (Value × JsString) :=
  let rest := whitespace source
  match levels with
  | 0 => fail total "JSON nesting exceeds 128 levels" rest
  | levels + 1 =>
    if rest.head? = some leftBrace then
      match whitespace rest.tail with
      | [] => fail total "unterminated object" []
      | u :: behind =>
        if u = rightBrace then .ok (.object [], behind)
        else do
          let (fields, after) ←
            parseFields total (parseValue levels) [] (behind.length + 1) (u :: behind)
          return (.object fields, after)
    else if rest.head? = some leftBracket then
      match whitespace rest.tail with
      | [] => fail total "unterminated array" []
      | u :: behind =>
        if u = rightBracket then .ok (.array [], behind)
        else do
          let (elements, after) ←
            parseElements total (parseValue levels) (behind.length + 1) (u :: behind)
          return (.array elements, after)
    else if rest.head? = some quote then do
      let (s, after) ← parseString total rest.tail
      return (.string s, after)
    else if trueText.isPrefixOf rest then .ok (.boolean true, rest.drop 4)
    else if falseText.isPrefixOf rest then .ok (.boolean false, rest.drop 5)
    else if nullText.isPrefixOf rest then .ok (.null, rest.drop 4)
    else parseNumber total rest

end Scanner
end Json

def parseJsonStrict (source : JsString) : Scan Value := do
  let (result, after) ← Json.parseValue source.length 128 source
  match Json.whitespace after with
  | [] => return result
  | rest => Json.fail source.length "trailing data after JSON value" rest

end Concordia.Js
