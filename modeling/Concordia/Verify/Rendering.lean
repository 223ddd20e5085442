import Concordia.Contract.Injectivity
import Concordia.Js.Ascii
import Concordia.Verify.Encoders

/-! The untyped field values that stand for typed envelope fields, and what the verifier's
readers and encoders return on them. -/
namespace Concordia.Verify
open Concordia.Js Concordia.Contract Concordia.Lib.Encoding

/-- An unsigned integer as the verifier accepts it: a safe number, a bigint, decimal digits. -/
inductive DenotesNat : Value → Nat → Prop
  | number {n : Nat} (safe : n ≤ 2 ^ 53 - 1) : DenotesNat (.number n) n
  | bigint {n : Nat} : DenotesNat (.bigint n) n
  | decimal {n : Nat} : DenotesNat (.string (decimal n)) n

/-- 32 bytes as lowercase hexadecimal. -/
def DenotesBytes (value : Value) (bytes : Bytes32) : Prop := value = .string (toHex bytes.toList)

def DenotesString (value : Value) (s : String) : Prop := value = .string (js s)

section Readers
variable {value : Value} {n bits : Nat} {bytes : Bytes32} {s : String}

@[simp] theorem throwIf_bind_ok {β : Type} {c : Prop} [Decidable c] {e : EncodingError}
    {f : Unit → Encoded β} {b : β} : (throwIf c e >>= f) = .ok b ↔ ¬ c ∧ f () = .ok b := by
  unfold throwIf
  split <;> simp_all [bind, Except.bind]

@[simp] theorem throwIf_ok {c : Prop} [Decidable c] {e : EncodingError} :
    throwIf c e = .ok () ↔ ¬ c := by
  unfold throwIf
  split <;> simp_all

theorem safeInteger_natCast (h : n ≤ 2 ^ 53 - 1) : safeInteger (n : ℚ) = some (n : Int) := by
  unfold safeInteger
  rw [if_pos]
  · simp
  · simpa using h

theorem DenotesNat.parse (h : DenotesNat value n) (hn : n < 2 ^ bits) :
    parseUnsigned value bits = .ok n := by
  have hint : ¬ ((n : Int) < 0 ∨ (n : Int) ≥ 2 ^ bits) := by
    have : (n : Int) < 2 ^ bits := by exact_mod_cast hn
    omega
  cases h with
  | number safe =>
    simp only [parseUnsigned, safeInteger_natCast safe, bind, Except.bind]
    rw [if_neg hint]
    rfl
  | bigint =>
    simp only [parseUnsigned, bind, Except.bind]
    rw [if_neg hint]
    rfl
  | decimal =>
    simp only [parseUnsigned, isCanonicalDecimal_decimal, digitsValue_decimal, bind, Except.bind,
      if_true, Int.ofNat_eq_natCast]
    rw [if_neg hint]
    rfl

theorem DenotesNat.fixed (h : DenotesNat value n) (hn : n < 2 ^ bits) :
    fixedUnsigned value bits = .ok (beBytes (bits / 8) n) := by
  simp [fixedUnsigned, h.parse hn, Functor.map, Except.map]

theorem DenotesBytes.hex (h : DenotesBytes value bytes) : hexBytes value 32 = .ok bytes.toList := by
  subst h
  simp [hexBytes, fromHex_toHex]

theorem isZero32_iff : isZero32 bytes = true ↔ bytes.toList = List.replicate 32 0 := by
  simp only [isZero32, List.all_eq_true, beq_iff_eq]
  rw [List.eq_replicate_iff]
  simp

theorem DenotesBytes.isZero (h : DenotesBytes value bytes) :
    isZeroBytes32 value = .ok (isZero32 bytes) := by
  simp only [isZeroBytes32, h.hex, bind, Except.bind, pure, Except.pure, Except.ok.injEq]
  rw [Bool.eq_iff_iff, isZero32_iff, beq_iff_eq, toHex_injective.eq_iff]

theorem DenotesBytes.strictEq {value' : Value} {bytes' : Bytes32} (h : DenotesBytes value bytes)
    (h' : DenotesBytes value' bytes') : strictEq value value' = true ↔ bytes = bytes' := by
  subst h h'
  rw [strictEq_string, toHex_injective.eq_iff, Vector.toList_inj]

theorem DenotesBytes.isLiteral (h : DenotesBytes value bytes) (literal : String)
    {bytes' : Bytes32} (hl : js literal = toHex bytes'.toList) :
    isLiteral value literal = true ↔ bytes = bytes' := by
  subst h
  rw [Js.isLiteral, hl, strictEq_string, toHex_injective.eq_iff, Vector.toList_inj]

theorem DenotesString.asString (h : DenotesString value s) : asString value = .ok (js s) := by
  subst h
  rfl

theorem DenotesString.isLiteral (h : DenotesString value s) (literal : String)
    (hl : AsciiUnits (js literal)) : isLiteral value literal = true ↔ s = literal := by
  subst h
  rw [Js.isLiteral, strictEq_string, js_eq_ascii hl]

/-- Printable text is encoded by both sides as its length and its bytes. -/
theorem lengthPrefixedString_printable {min max : Nat} (h : validatePrintable s min max = true)
    (hmax : max < 2 ^ 32) :
    lengthPrefixedString (js s) = .ok (putU32 (UInt32.ofNat (asBytes s).length) ++ asBytes s) := by
  simp only [validatePrintable, Bool.and_eq_true, decide_eq_true_eq, List.all_eq_true,
    UInt8.le_iff_toNat_le] at h
  obtain ⟨⟨-, hlen⟩, hrange⟩ := h
  have hascii : AsciiBytes (asBytes s) := fun b hb => by
    have := (hrange b hb).2
    simp at this
    omega
  have hjs := js_of_asciiBytes hascii
  have hunits : AsciiUnits (js s) := by
    rw [hjs]
    simp only [AsciiUnits, List.mem_map]
    rintro u ⟨b, hb, rfl⟩
    have := hascii b hb
    rw [UInt16.toNat_ofNat']
    omega
  have hcodes : ((js s).any fun code => code < 0x20 || code > 0x7e) = false := by
    rw [hjs, List.any_map, List.any_eq_false]
    intro b hb
    have h1 := (hrange b hb).1
    have h2 := (hrange b hb).2
    have hlt := b.toNat_lt
    simp only [Function.comp_apply, Bool.or_eq_true, decide_eq_true_eq, not_or,
      UInt16.lt_iff_toNat_lt, UInt16.toNat_ofNat', gt_iff_lt] at *
    simp at *
    omega
  have hlength : (js s).length = (asBytes s).length := by rw [hjs, List.length_map]
  have hword : (UInt32.ofNat (asBytes s).length).toNat = (asBytes s).length := by
    rw [UInt32.toNat_ofNat']
    exact Nat.mod_eq_of_lt (by omega)
  have hfixed : fixedUnsigned (.number ((asBytes s).length : ℚ)) 32 =
      .ok (beBytes 4 (asBytes s).length) :=
    (DenotesNat.number (by omega)).fixed (by omega)
  have hbytes : asciiBytes (js s) = .ok (asBytes s) := by
    rw [asciiBytes, hcodes, asBytes_of_asciiUnits hunits]
    rfl
  simp only [lengthPrefixedString, hbytes, bind, Except.bind, hfixed, pure, Except.pure, putU32,
    hword]

theorem isProposalId_js : isProposalId (js s) = validProposalId s := by
  rw [Bool.eq_iff_iff]
  constructor
  · intro h
    simp only [isProposalId, Bool.and_eq_true, Bool.or_eq_true, decide_eq_true_eq,
      List.all_eq_true, UInt16.le_iff_toNat_le, beq_iff_eq] at h
    obtain ⟨⟨hmin, hmax⟩, hall⟩ := h
    have hunits : AsciiUnits (js s) := fun u hu => by
      rcases hall u hu with (h | h) | h
      · have := h.2; simp at this; omega
      · have := h.2; simp at this; omega
      · subst h; decide
    have hb := asBytes_of_asciiUnits hunits
    have hlen : (asBytes s).length = (js s).length := by rw [hb, List.length_map]
    simp only [validProposalId, Bool.and_eq_true, decide_eq_true_eq, List.all_eq_true]
    refine ⟨⟨?_, by omega⟩, ?_⟩
    · exact List.ne_nil_of_length_pos (by omega)
    · rw [hb]
      simp only [List.mem_map]
      rintro b ⟨u, hu, rfl⟩
      have := hunits u hu
      rcases hall u hu with (h | h) | h
      · simp [UInt8.le_iff_toNat_le] at h ⊢; omega
      · simp [UInt8.le_iff_toNat_le] at h ⊢; omega
      · subst h; decide
  · intro h
    simp only [validProposalId, Bool.and_eq_true, Bool.or_eq_true, decide_eq_true_eq,
      List.all_eq_true, UInt8.le_iff_toNat_le, beq_iff_eq] at h
    obtain ⟨⟨hne, hmax⟩, hall⟩ := h
    have hascii : AsciiBytes (asBytes s) := fun b hb => by
      rcases hall b hb with (h | h) | h
      · have := h.2; simp at this; omega
      · have := h.2; simp at this; omega
      · subst h; decide
    have hjs := js_of_asciiBytes hascii
    have hpos := List.length_pos_of_ne_nil hne
    simp only [isProposalId, Bool.and_eq_true, decide_eq_true_eq, List.all_eq_true, hjs,
      List.length_map]
    refine ⟨⟨by omega, hmax⟩, ?_⟩
    simp only [List.mem_map]
    rintro u ⟨b, hb, rfl⟩
    have := hascii b hb
    rcases hall b hb with (h | h) | h
    · simp [UInt16.le_iff_toNat_le] at h ⊢; omega
    · simp [UInt16.le_iff_toNat_le] at h ⊢; omega
    · subst h; decide

end Readers
end Concordia.Verify
