import Concordia.Js.Value

/-! UTF-8 of a string of code units; a lone surrogate is written as the replacement character. -/
namespace Concordia.Js

/-- The bytes of a code unit that is no part of a pair. -/
def unitBytes (u : UInt16) : List UInt8 :=
  let n := u.toNat
  if n < 0x80 then [n.toUInt8]
  else if n < 0x800 then [(0xc0 + n / 0x40).toUInt8, (0x80 + n % 0x40).toUInt8]
  else if 0xd800 ≤ n ∧ n ≤ 0xdfff then [0xef, 0xbf, 0xbd]
  else [(0xe0 + n / 0x1000).toUInt8, (0x80 + n / 0x40 % 0x40).toUInt8, (0x80 + n % 0x40).toUInt8]

/-- The bytes of a surrogate pair. -/
def pairBytes (high low : UInt16) : List UInt8 :=
  let n := 0x10000 + (high.toNat - 0xd800) * 0x400 + (low.toNat - 0xdc00)
  [(0xf0 + n / 0x40000).toUInt8, (0x80 + n / 0x1000 % 0x40).toUInt8, (0x80 + n / 0x40 % 0x40).toUInt8,
    (0x80 + n % 0x40).toUInt8]

/-- `Buffer.from(s, "utf8")`. -/
def utf8 : JsString → List UInt8
  | [] => []
  | [u] => unitBytes u
  | u :: v :: rest =>
    if 0xd800 ≤ u ∧ u ≤ 0xdbff ∧ 0xdc00 ≤ v ∧ v ≤ 0xdfff then pairBytes u v ++ utf8 rest
    else unitBytes u ++ utf8 (v :: rest)

/-- A code unit that starts no pair is written by itself. -/
theorem utf8_cons {u : UInt16} (hu : ¬ (0xd800 ≤ u ∧ u ≤ 0xdbff)) (rest : JsString) :
    utf8 (u :: rest) = unitBytes u ++ utf8 rest := by
  cases rest with
  | nil => simp [utf8]
  | cons v rest =>
    have hno : ¬ (0xd800 ≤ u ∧ u ≤ 0xdbff ∧ 0xdc00 ≤ v ∧ v ≤ 0xdfff) := by
      rintro ⟨hlow, hhigh, -⟩
      exact hu ⟨hlow, hhigh⟩
    rw [utf8, if_neg hno]

/-- Bytes of ASCII are the encoding of the units of the same numbers. -/
theorem utf8_ascii {bytes : List UInt8} (h : ∀ b ∈ bytes, b < 0x80) :
    utf8 (bytes.map fun b => b.toNat.toUInt16) = bytes := by
  induction bytes with
  | nil => rfl
  | cons b rest ih =>
    have hb : b.toNat < 128 := UInt8.lt_iff_toNat_lt.mp (h b List.mem_cons_self)
    have hunit : b.toNat.toUInt16.toNat = b.toNat := by
      rw [UInt16.toNat_ofNat']
      omega
    have hlow : ¬ (0xd800 ≤ b.toNat.toUInt16 ∧ b.toNat.toUInt16 ≤ 0xdbff) := by
      rintro ⟨hfar, -⟩
      rw [UInt16.le_iff_toNat_le, hunit] at hfar
      exact absurd (hfar.trans_lt hb) (by decide)
    have hbyte : b.toNat.toUInt8 = b := UInt8.ofNat_toNat
    rw [List.map_cons, utf8_cons hlow, ih fun x hx => h x (List.mem_cons_of_mem _ hx), unitBytes,
      hunit, if_pos hb, hbyte]
    rfl

end Concordia.Js
