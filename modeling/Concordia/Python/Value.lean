import Concordia.Js.Json

/-! Python values as `json` writes and reads them. A string is its UTF-16 code units: the
strings that come out of UTF-8 and of `json.loads` never hold a high surrogate before a low one,
and the others are in bijection with unit sequences. -/
namespace Concordia.Python
open Concordia.Js

abbrev Str := JsString

instance lawful_str : LawfulBEq Str := inferInstance

inductive Value where
  | none
  | bool (b : Bool)
  | int (n : Int)
  /-- A float, by the text that `json` writes for it. -/
  | float (text : Str)
  | str (s : Str)
  | list (elements : List Value)
  | dict (items : List (Str × Value))
  deriving Inhabited

abbrev Dict := List (Str × Value)

section Order

def isHighSurrogate (u : UInt16) : Bool := 0xd800 ≤ u && u ≤ 0xdbff
def isLowSurrogate (u : UInt16) : Bool := 0xdc00 ≤ u && u ≤ 0xdfff

/-- The code points of a string. -/
def codePoints : Str → List Nat
  | [] => []
  | [u] => [u.toNat]
  | u :: v :: rest =>
    if isHighSurrogate u && isLowSurrogate v then
      (0x10000 + (u.toNat - 0xd800) * 0x400 + (v.toNat - 0xdc00)) :: codePoints rest
    else u.toNat :: codePoints (v :: rest)

def lexLe : List Nat → List Nat → Bool
  | [], _ => true
  | _ :: _, [] => false
  | a :: as, b :: bs => a < b || (a == b && lexLe as bs)

/-- `a <= b` on strings. -/
def strLe (a b : Str) : Bool := lexLe (codePoints a) (codePoints b)

end Order

namespace Dict

/-- `d.get(key)`, with `None` for what is missing. -/
def get (d : Dict) (key : String) : Value := (d.lookup (js key)).getD .none

/-- `d[key] = value`: a key that is there keeps its place. -/
def set (d : Dict) (key : Str) (value : Value) : Dict :=
  match d with
  | [] => [(key, value)]
  | item :: rest => if item.1 = key then (key, value) :: rest else item :: set rest key value

/-- The dictionary built from pairs in their order. -/
def ofPairs (pairs : List (Str × Value)) : Dict :=
  pairs.foldl (fun d item => d.set item.1 item.2) []

end Dict

section Dumps

def lowerHex4 (u : UInt16) : Str :=
  let n := u.toNat
  [hexDigit (n / 4096), hexDigit (n / 256 % 16), hexDigit (n / 16 % 16), hexDigit (n % 16)]

/-- One code unit under `ensure_ascii`. -/
def escapeUnit (u : UInt16) : Str :=
  if u = 0x22 then [0x5c, 0x22]
  else if u = 0x5c then [0x5c, 0x5c]
  else if u = 0x0a then [0x5c, 0x6e]
  else if u = 0x0d then [0x5c, 0x72]
  else if u = 0x09 then [0x5c, 0x74]
  else if u = 0x0c then [0x5c, 0x66]
  else if u = 0x08 then [0x5c, 0x62]
  else if 0x20 ≤ u && u ≤ 0x7e then [u]
  else [0x5c, 0x75] ++ lowerHex4 u

def dumpsStr (s : Str) : Str := Json.quote :: s.flatMap escapeUnit ++ [Json.quote]

def dumpsInt (n : Int) : Str :=
  if n < 0 then Json.minus :: decimal n.natAbs else decimal n.natAbs

/-- What `", "` and `": "` add to the characters they start with. -/
def space : UInt16 := 0x20

mutual

/-- `json.dumps(value)`. -/
def dumps : Value → Str
  | .none => Json.nullText
  | .bool true => Json.trueText
  | .bool false => Json.falseText
  | .int n => dumpsInt n
  | .float text => text
  | .str s => dumpsStr s
  | .list elements => Json.leftBracket :: dumpsElements elements ++ [Json.rightBracket]
  | .dict items => Json.leftBrace :: dumpsItems items ++ [Json.rightBrace]

def dumpsElements : List Value → Str
  | [] => []
  | [v] => dumps v
  | v :: rest => dumps v ++ Json.comma :: space :: dumpsElements rest

def dumpsItems : List (Str × Value) → Str
  | [] => []
  | [(key, v)] => dumpsStr key ++ Json.colon :: space :: dumps v
  | (key, v) :: rest =>
    dumpsStr key ++ Json.colon :: space :: dumps v ++ Json.comma :: space :: dumpsItems rest

end

mutual

/-- The value with every dictionary in the order of its keys. -/
def sortKeys : Value → Value
  | .list elements => .list (sortElements elements)
  | .dict items => .dict ((sortItems items).insertionSort fun a b => strLe a.1 b.1)
  | v => v

def sortElements : List Value → List Value
  | [] => []
  | v :: rest => sortKeys v :: sortElements rest

def sortItems : List (Str × Value) → List (Str × Value)
  | [] => []
  | (key, v) :: rest => (key, sortKeys v) :: sortItems rest

end

/-- `json.dumps(value, sort_keys=True, default=str)`. -/
def dumpsSorted (v : Value) : Str := dumps (sortKeys v)

end Dumps
end Concordia.Python
