import Concordia.Js.Json

/-! The JSON grammar of RFC 8259 on UTF-16 code units, and what its texts denote. A text is derived
together with its syntax tree. -/
namespace Concordia.Js.Json

section Tokens

def Whitespace (s : JsString) : Prop := ∀ u ∈ s, isSpace u = true

def Digits (s : JsString) : Prop := s ≠ [] ∧ ∀ u ∈ s, isDigit u = true

/-- `int = zero / ( digit1-9 *DIGIT )`. -/
inductive IntegerPart : JsString → Prop
  | zero : IntegerPart [zero]
  | nonzero {d : UInt16} {ds : JsString} (digit : isDigit d = true) (leading : d ≠ Json.zero)
      (digits : ∀ u ∈ ds, isDigit u = true) : IntegerPart (d :: ds)

/-- `[ frac ]`. -/
inductive Fraction : JsString → Option JsString → Prop
  | absent : Fraction [] none
  | present {ds : JsString} (digits : Digits ds) : Fraction (dot :: ds) (some ds)

inductive ExponentSign : JsString → Bool → Prop
  | absent : ExponentSign [] false
  | plus : ExponentSign [plus] false
  | minus : ExponentSign [minus] true

/-- `[ exp ]`. -/
inductive Exponent : JsString → Option (Bool × JsString) → Prop
  | absent : Exponent [] none
  | present {e : UInt16} {sign ds : JsString} {negative : Bool} (letter : e = 0x65 ∨ e = 0x45)
      (signed : ExponentSign sign negative) (digits : Digits ds) :
      Exponent (e :: (sign ++ ds)) (some (negative, ds))

/-- `number = [ minus ] int [ frac ] [ exp ]`. -/
inductive Number : JsString → NumberText → Prop
  | intro (negative : Bool) {i f e : JsString} {fraction : Option JsString}
      {exponent : Option (Bool × JsString)} (integer : IntegerPart i)
      (fractional : Fraction f fraction) (exponential : Exponent e exponent) :
      Number ((if negative then [minus] else []) ++ (i ++ (f ++ e)))
        ⟨negative, i, fraction, exponent⟩

/-- The letters behind a backslash, and what they stand for. -/
def escapes : List (UInt16 × UInt16) :=
  [(0x22, 0x22), (0x5c, 0x5c), (0x2f, 0x2f), (0x62, 0x08), (0x66, 0x0c), (0x6e, 0x0a),
    (0x72, 0x0d), (0x74, 0x09)]

def HexDigit (u : UInt16) (n : Nat) : Prop :=
  (js "0123456789abcdef")[n]? = some u ∨ (js "0123456789ABCDEF")[n]? = some u

/-- `*char`, and the units that it decodes to. A unit of a surrogate pair is one of `%x5D-10FFFF`. -/
inductive Chars : JsString → JsString → Prop
  | nil : Chars [] []
  | unescaped {u : UInt16} {text s : JsString} (printable : 0x20 ≤ u) (unquoted : u ≠ quote)
      (plain : u ≠ backslash) (chars : Chars text s) : Chars (u :: text) (u :: s)
  | escaped {e u : UInt16} {text s : JsString} (letter : (e, u) ∈ escapes)
      (chars : Chars text s) : Chars (backslash :: e :: text) (u :: s)
  | unicode {a b c d : UInt16} {i j k l : Nat} {text s : JsString} (first : HexDigit a i)
      (second : HexDigit b j) (third : HexDigit c k) (fourth : HexDigit d l)
      (chars : Chars text s) : Chars (backslash :: letterU :: a :: b :: c :: d :: text)
        ((4096 * i + 256 * j + 16 * k + l).toUInt16 :: s)

end Tokens

section Trees

inductive Tree where
  | null
  | boolean (b : Bool)
  | number (n : NumberText)
  | string (s : JsString)
  | array (elements : List Tree)
  | object (members : List (JsString × Tree))

mutual

/-- `value`, without the white space around it. -/
inductive Derives : JsString → Tree → Prop
  | nullLiteral : Derives nullText .null
  | trueLiteral : Derives trueText (.boolean true)
  | falseLiteral : Derives falseText (.boolean false)
  | number {text : JsString} {n : NumberText} (number : Number text n) : Derives text (.number n)
  | string {text s : JsString} (chars : Chars text s) :
      Derives (quote :: (text ++ [quote])) (.string s)
  | emptyArray {space : JsString} (blank : Whitespace space) :
      Derives (leftBracket :: (space ++ [rightBracket])) (.array [])
  | array {text : JsString} {ts : List Tree} (elements : Elements text ts) :
      Derives (leftBracket :: (text ++ [rightBracket])) (.array ts)
  | emptyObject {space : JsString} (blank : Whitespace space) :
      Derives (leftBrace :: (space ++ [rightBrace])) (.object [])
  | object {text : JsString} {ms : List (JsString × Tree)} (members : Members text ms) :
      Derives (leftBrace :: (text ++ [rightBrace])) (.object ms)

/-- `value *( value-separator value )`, with the white space around the values. -/
inductive Elements : JsString → List Tree → Prop
  | last {before text after : JsString} {t : Tree} (blankBefore : Whitespace before)
      (value : Derives text t) (blankAfter : Whitespace after) :
      Elements (before ++ (text ++ after)) [t]
  | more {before text after rest : JsString} {t : Tree} {ts : List Tree}
      (blankBefore : Whitespace before) (value : Derives text t) (blankAfter : Whitespace after)
      (elements : Elements rest ts) :
      Elements (before ++ (text ++ (after ++ comma :: rest))) (t :: ts)

/-- `member *( value-separator member )`, with the white space around names and values. -/
inductive Members : JsString → List (JsString × Tree) → Prop
  | last {before name between inner text after key : JsString} {t : Tree}
      (blankBefore : Whitespace before) (chars : Chars name key) (blankBetween : Whitespace between)
      (blankInner : Whitespace inner) (value : Derives text t) (blankAfter : Whitespace after) :
      Members (before ++ quote :: (name ++ quote :: (between ++ colon :: (inner ++ (text ++ after)))))
        [(key, t)]
  | more {before name between inner text after rest key : JsString} {t : Tree}
      {ms : List (JsString × Tree)} (blankBefore : Whitespace before) (chars : Chars name key)
      (blankBetween : Whitespace between) (blankInner : Whitespace inner) (value : Derives text t)
      (blankAfter : Whitespace after) (members : Members rest ms) :
      Members (before ++ quote :: (name ++ quote :: (between ++ colon ::
        (inner ++ (text ++ (after ++ comma :: rest)))))) ((key, t) :: ms)

end

/-- `JSON-text = ws value ws`. -/
inductive JsonText : JsString → Tree → Prop
  | intro {before text after : JsString} {t : Tree} (blankBefore : Whitespace before)
      (value : Derives text t) (blankAfter : Whitespace after) :
      JsonText (before ++ (text ++ after)) t

mutual

/-- The depth of nesting, a scalar counted as one. -/
def Tree.height : Tree → Nat
  | .array elements => elementsHeight elements + 1
  | .object members => membersHeight members + 1
  | _ => 1

def elementsHeight : List Tree → Nat
  | [] => 0
  | t :: ts => max t.height (elementsHeight ts)

def membersHeight : List (JsString × Tree) → Nat
  | [] => 0
  | (_, t) :: ms => max t.height (membersHeight ms)

end

mutual

/-- No object of the tree has two members of one decoded name. -/
def Tree.NamesUnique : Tree → Prop
  | .array elements => ElementsUnique elements
  | .object members => (members.map Prod.fst).Nodup ∧ MembersUnique members
  | _ => True

def ElementsUnique : List Tree → Prop
  | [] => True
  | t :: ts => t.NamesUnique ∧ ElementsUnique ts

def MembersUnique : List (JsString × Tree) → Prop
  | [] => True
  | (_, t) :: ms => t.NamesUnique ∧ MembersUnique ms

end

/-- The integer that a literal without fraction and exponent writes. -/
def NumberText.integerValue (n : NumberText) : Int :=
  if n.negative then -digitsValue n.integer else digitsValue n.integer

/-- An integer is exact, as a bigint outside the safe range; another number is the double next to
it, where that is finite. -/
def NumberText.value (n : NumberText) : Option Value :=
  if n.fraction.isNone ∧ n.exponent.isNone then
    if |n.integerValue| ≤ maxSafeInteger then some (.number n.integerValue)
    else some (.bigint n.integerValue)
  else (toDouble n.exact).map .number

mutual

/-- What a tree denotes; nothing where a number overflows. -/
def Tree.value : Tree → Option Value
  | .null => some .null
  | .boolean b => some (.boolean b)
  | .number n => n.value
  | .string s => some (.string s)
  | .array elements => (elementValues elements).map .array
  | .object members => (memberValues members).map .object

def elementValues : List Tree → Option (List Value)
  | [] => some []
  | t :: ts => do return (← t.value) :: (← elementValues ts)

def memberValues : List (JsString × Tree) → Option (List (JsString × Value))
  | [] => some []
  | (key, t) :: ms => do return (key, ← t.value) :: (← memberValues ms)

end

end Trees
end Concordia.Js.Json
