import Concordia.Lib.Encoding
import Mathlib.Data.Vector.Basic

/-! The value types of the chain's type library that the contracts store and hash. -/
namespace Concordia.Contract
open Concordia.Lib.Encoding

/-- `[u8; 32]`: account hashes, digests and nonces. -/
abbrev Bytes32 := Vector UInt8 32

/-- An unsigned integer of fixed width, `U256` and `U512`. -/
structure Unsigned (bits : Nat) where
  toNat : Nat
  isLt : toNat < 2 ^ bits
  deriving DecidableEq, Repr

abbrev U256 := Unsigned 256
abbrev U512 := Unsigned 512

namespace Unsigned
variable {bits : Nat}

@[ext] theorem ext {a b : Unsigned bits} (h : a.toNat = b.toNat) : a = b := by
  cases a; cases b; simpa using h

def isZero (a : Unsigned bits) : Bool := a.toNat == 0

/-- `checked_mul`: `none` when the product leaves the width. -/
def checkedMul (a b : Unsigned bits) : Option (Unsigned bits) :=
  if h : a.toNat * b.toNat < 2 ^ bits then some ⟨a.toNat * b.toNat, h⟩ else none

def div (a b : Unsigned bits) : Unsigned bits :=
  ⟨a.toNat / b.toNat, (Nat.div_le_self _ _).trans_lt a.isLt⟩

end Unsigned

private theorem lt_wider {n k bits : Nat} (h : n < 2 ^ k) (hk : k ≤ bits) : n < 2 ^ bits :=
  h.trans_le (Nat.pow_le_pow_right Nat.two_pos hk)

/-- `U512::from` on a `u32`. -/
def U512.fromU32 (v : UInt32) : U512 :=
  ⟨v.toNat, lt_wider v.toNat_lt (by decide)⟩

/-- `as_bytes` of a string; its length is the string's `len`. -/
def asBytes (s : String) : List UInt8 := s.toByteArray.data.toList

theorem asBytes_injective : Function.Injective asBytes := by
  intro s t h
  exact String.toByteArray_inj.mp (ByteArray.ext (Array.toList_inj.mp h))

instance lawful_bytes32 : LawfulBEq Bytes32 := inferInstance

theorem Bytes32.length_toList (v : Bytes32) : v.toList.length = 32 := by simp

theorem Bytes32.toList_injective : Function.Injective (Vector.toList (α := UInt8) (n := 32)) :=
  fun _ _ h => Vector.toList_inj.mp h

/-- A caller of the chain: a key's account hash, or another contract. -/
inductive Address where
  | account (hash : Bytes32)
  | contract (hash : Bytes32)
  deriving DecidableEq

/-- `as_account_hash`. -/
def Address.asAccountHash : Address → Option Bytes32
  | .account hash => some hash
  | .contract _ => none

end Concordia.Contract
