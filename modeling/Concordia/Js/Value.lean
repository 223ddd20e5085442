import Mathlib.Data.Nat.Digits.Lemmas
import Mathlib.Data.Rat.Defs
import Mathlib.Tactic

/-! JavaScript values as the verifier meets them. A string is its UTF-16 code units, a
number the exact value of a finite double. -/
namespace Concordia.Js

abbrev JsString := List UInt16

def codeUnits (c : Char) : JsString :=
  if c.toNat < 0x10000 then [c.toNat.toUInt16]
  else [(0xD800 + (c.toNat - 0x10000) / 0x400).toUInt16,
    (0xDC00 + (c.toNat - 0x10000) % 0x400).toUInt16]

/-- A string of Unicode characters as JavaScript holds it. -/
def js (s : String) : JsString := s.toList.flatMap codeUnits

inductive Value where
  | undefined
  | null
  | boolean (b : Bool)
  | number (x : ℚ)
  | bigint (n : Int)
  | string (s : JsString)
  | array (elements : List Value)
  | object (fields : List (JsString × Value))
  deriving Inhabited

/-- `===`. Arrays and records held in different places are different objects. -/
def strictEq : Value → Value → Bool
  | .undefined, .undefined => true
  | .null, .null => true
  | .boolean a, .boolean b => a == b
  | .number a, .number b => a == b
  | .bigint a, .bigint b => a == b
  | .string a, .string b => a == b
  | _, _ => false

/-- `value === "literal"`. -/
def isLiteral (value : Value) (literal : String) : Bool := strictEq value (.string (js literal))

@[simp] theorem strictEq_string (a b : JsString) :
    strictEq (.string a) (.string b) = true ↔ a = b := by
  simp [strictEq]

/-- `Number.isSafeInteger`, as the integer when it is one. -/
def safeInteger (x : ℚ) : Option Int :=
  if x.den = 1 ∧ x.num.natAbs ≤ 2 ^ 53 - 1 then some x.num else none

/-- The decimal digits of a natural number, as `toString` writes them. -/
def decimal (n : Nat) : JsString :=
  if n = 0 then [48] else (Nat.digits 10 n).reverse.map fun d => (48 + d).toUInt16

/-- The digits `[0-9]*` of a string, as a number, most significant first. -/
def digitsValue (s : JsString) : Nat := s.foldl (fun n u => 10 * n + (u.toNat - 48)) 0

def isDigit (u : UInt16) : Bool := 48 ≤ u && u ≤ 57

/-- `/^(0|[1-9][0-9]*)$/`. -/
def isCanonicalDecimal (s : JsString) : Bool :=
  s == [48] || (s.all isDigit && !s.isEmpty && s.head? != some 48)

def hexDigit (n : Nat) : UInt16 := if n < 10 then (48 + n).toUInt16 else (87 + n).toUInt16

/-- Lowercase hexadecimal, two digits a byte. -/
def toHex (bytes : List UInt8) : JsString :=
  bytes.flatMap fun b => [hexDigit (b.toNat / 16), hexDigit (b.toNat % 16)]

def hexValue (u : UInt16) : Option Nat :=
  if 48 ≤ u ∧ u ≤ 57 then some (u.toNat - 48)
  else if 97 ≤ u ∧ u ≤ 102 then some (u.toNat - 87)
  else none

/-- `/^(?:[0-9a-f]{2})*$/`, as the bytes it stands for. -/
def fromHex : JsString → Option (List UInt8)
  | [] => some []
  | [_] => none
  | h :: l :: rest => do
    let high ← hexValue h
    let low ← hexValue l
    let bytes ← fromHex rest
    return (16 * high + low).toUInt8 :: bytes

section RoundTrips

theorem hexValue_hexDigit : ∀ n < 16, hexValue (hexDigit n) = some n := by decide

theorem fromHex_toHex (bytes : List UInt8) : fromHex (toHex bytes) = some bytes := by
  induction bytes with
  | nil => rfl
  | cons b bytes ih =>
    have hb := b.toNat_lt
    have hhigh := hexValue_hexDigit (b.toNat / 16) (by omega)
    have hlow := hexValue_hexDigit (b.toNat % 16) (by omega)
    have hsum : (16 * (b.toNat / 16) + b.toNat % 16).toUInt8 = b := by
      rw [Nat.div_add_mod]
      exact UInt8.ofNat_toNat
    simp only [toHex, List.flatMap_cons, List.cons_append, List.nil_append] at ih ⊢
    simp only [fromHex, hhigh, hlow, ih, hsum, Option.bind_eq_bind, Option.bind_some,
      Option.pure_def]

theorem toHex_injective : Function.Injective toHex := by
  intro a b h
  have := congrArg fromHex h
  simpa [fromHex_toHex] using this

private theorem toNat_digit {d : Nat} (hd : d < 10) : (48 + d).toUInt16.toNat = 48 + d := by
  rw [UInt16.toNat_ofNat']
  omega

private theorem foldl_digits (ds : List Nat) (h : ∀ d ∈ ds, d < 10) :
    digitsValue (ds.reverse.map fun d => (48 + d).toUInt16) = Nat.ofDigits 10 ds := by
  induction ds with
  | nil => rfl
  | cons d ds ih =>
    have hd : d < 10 := h d (by simp)
    have ih := ih fun e he => h e (by simp [he])
    simp only [digitsValue] at ih
    simp only [digitsValue, List.reverse_cons, List.map_append, List.map_cons, List.map_nil,
      List.foldl_append, List.foldl_cons, List.foldl_nil, ih, toNat_digit hd, Nat.ofDigits_cons]
    omega

theorem digitsValue_decimal (n : Nat) : digitsValue (decimal n) = n := by
  unfold decimal
  split
  · rename_i h
    subst h
    rfl
  · rw [foldl_digits _ fun d hd => Nat.digits_lt_base (by omega) hd, Nat.ofDigits_digits]

theorem decimal_injective : Function.Injective decimal := by
  intro a b h
  have := congrArg digitsValue h
  simpa [digitsValue_decimal] using this

theorem isCanonicalDecimal_decimal (n : Nat) : isCanonicalDecimal (decimal n) = true := by
  unfold decimal isCanonicalDecimal
  split
  · rfl
  · rename_i h
    have hdigit : ∀ d ∈ Nat.digits 10 n, isDigit (48 + d).toUInt16 = true := by
      intro d hd
      have hlt := Nat.digits_lt_base (by omega) hd
      simp only [isDigit, Bool.and_eq_true, decide_eq_true_eq, UInt16.le_iff_toNat_le,
        toNat_digit hlt]
      simp
      omega
    have hne : Nat.digits 10 n ≠ [] := Nat.digits_ne_nil_iff_ne_zero.mpr h
    have hlast := Nat.getLast_digit_ne_zero 10 h
    have hlt := Nat.digits_lt_base (by omega : 1 < 10) (List.getLast_mem hne)
    have hhead : ((Nat.digits 10 n).reverse.map fun d => (48 + d).toUInt16).head? ≠ some 48 := by
      rw [List.head?_map, List.head?_reverse, List.getLast?_eq_some_getLast hne]
      simp only [Option.map_some, ne_eq, Option.some.injEq]
      intro heq
      have := congrArg UInt16.toNat heq
      rw [toNat_digit hlt] at this
      simp at this
      omega
    simp only [Bool.or_eq_true, Bool.and_eq_true, List.all_map, List.all_reverse,
      List.all_eq_true, Function.comp_apply, bne_iff_ne, ne_eq]
    exact .inr ⟨⟨hdigit, by simpa using hne⟩, hhead⟩

end RoundTrips
end Concordia.Js
