import Concordia.Contract.Types
import Concordia.Js.Value

/-! On ASCII text the UTF-8 bytes of a string and its UTF-16 code units are the same numbers. -/
namespace Concordia.Js
open Concordia.Contract

/-- Nothing outside `[0, 128)`. -/
def AsciiBytes (bytes : List UInt8) : Prop := ∀ b ∈ bytes, b.toNat < 128
def AsciiUnits (units : JsString) : Prop := ∀ u ∈ units, u.toNat < 128

instance (bytes : List UInt8) : Decidable (AsciiBytes bytes) :=
  @List.decidableBAll UInt8 (fun b => b.toNat < 128) _ bytes

instance (units : JsString) : Decidable (AsciiUnits units) :=
  @List.decidableBAll UInt16 (fun u => u.toNat < 128) _ units

theorem asBytes_ofList (l : List Char) :
    asBytes (String.ofList l) = l.flatMap String.utf8EncodeChar := by
  simp [asBytes, List.utf8Encode]

theorem js_ofList (l : List Char) : js (String.ofList l) = l.flatMap codeUnits := by
  simp [js]

theorem utf8EncodeChar_ascii {c : Char} (h : c.toNat < 128) :
    String.utf8EncodeChar c = [c.toNat.toUInt8] := by
  simp only [String.utf8EncodeChar]
  rw [if_pos (by change c.toNat ≤ 0x7f; omega)]
  rfl

theorem codeUnits_ascii {c : Char} (h : c.toNat < 128) : codeUnits c = [c.toNat.toUInt16] := by
  simp only [codeUnits]
  rw [if_pos (by omega)]

/-- A character that is not ASCII has no ASCII encoding: its first byte says so. -/
theorem ascii_of_utf8EncodeChar {c : Char} (h : AsciiBytes (String.utf8EncodeChar c)) :
    c.toNat < 128 := by
  by_contra hc
  simp only [AsciiBytes, String.utf8EncodeChar] at h
  rw [if_neg (by change ¬ c.toNat ≤ 0x7f; omega)] at h
  split at h
  · have := h _ List.mem_cons_self
    simp at this
    omega
  · split at h
    · have := h _ List.mem_cons_self
      simp at this
      omega
    · have := h _ List.mem_cons_self
      simp at this
      omega

theorem ascii_of_codeUnits {c : Char} (h : AsciiUnits (codeUnits c)) : c.toNat < 128 := by
  by_contra hc
  simp only [AsciiUnits, codeUnits] at h
  split at h
  · have := h _ List.mem_cons_self
    simp at this
    omega
  · have := h _ List.mem_cons_self
    have hlt : c.toNat < 0x110000 := by
      have := c.valid
      have hv : c.val.toNat = c.toNat := rfl
      rcases this with h | h <;> omega
    simp at this
    omega

private theorem ascii_of_bytes {l : List Char} (h : AsciiBytes (l.flatMap String.utf8EncodeChar)) :
    ∀ c ∈ l, c.toNat < 128 :=
  fun c hc => ascii_of_utf8EncodeChar fun b hb => h b (List.mem_flatMap.mpr ⟨c, hc, hb⟩)

private theorem ascii_of_units {l : List Char} (h : AsciiUnits (l.flatMap codeUnits)) :
    ∀ c ∈ l, c.toNat < 128 :=
  fun c hc => ascii_of_codeUnits fun u hu => h u (List.mem_flatMap.mpr ⟨c, hc, hu⟩)

private theorem bytes_map {l : List Char} (h : ∀ c ∈ l, c.toNat < 128) :
    l.flatMap String.utf8EncodeChar = l.map fun c => c.toNat.toUInt8 := by
  induction l with
  | nil => rfl
  | cons c l ih =>
    rw [List.flatMap_cons, utf8EncodeChar_ascii (h c (by simp)), List.map_cons,
      ih fun d hd => h d (by simp [hd])]
    rfl

private theorem units_map {l : List Char} (h : ∀ c ∈ l, c.toNat < 128) :
    l.flatMap codeUnits = l.map fun c => c.toNat.toUInt16 := by
  induction l with
  | nil => rfl
  | cons c l ih =>
    rw [List.flatMap_cons, codeUnits_ascii (h c (by simp)), List.map_cons,
      ih fun d hd => h d (by simp [hd])]
    rfl

private theorem widen {l : List Char} (h : ∀ c ∈ l, c.toNat < 128) :
    l.flatMap codeUnits = (l.flatMap String.utf8EncodeChar).map fun b => b.toNat.toUInt16 := by
  rw [units_map h, bytes_map h, List.map_map]
  refine List.map_congr_left fun c hc => ?_
  have := h c hc
  simp only [Function.comp_apply]
  congr 1
  rw [UInt8.toNat_ofNat']
  omega

theorem js_of_asciiBytes {s : String} (h : AsciiBytes (asBytes s)) :
    js s = (asBytes s).map fun b => b.toNat.toUInt16 := by
  rw [← String.ofList_toList (s := s)] at h ⊢
  rw [asBytes_ofList] at h ⊢
  rw [js_ofList]
  exact widen (ascii_of_bytes h)

theorem js_of_asciiUnits {s : String} (h : AsciiUnits (js s)) :
    js s = (asBytes s).map fun b => b.toNat.toUInt16 := by
  rw [← String.ofList_toList (s := s)] at h ⊢
  rw [js_ofList] at h ⊢
  rw [asBytes_ofList]
  exact widen (ascii_of_units h)

/-- Narrowing the code units of an ASCII string gives its bytes. -/
theorem asBytes_of_asciiUnits {s : String} (h : AsciiUnits (js s)) :
    asBytes s = (js s).map fun u => u.toNat.toUInt8 := by
  rw [js_of_asciiUnits h, List.map_map]
  refine (List.map_id' _).symm.trans (List.map_congr_left fun b _ => ?_)
  have := b.toNat_lt
  simp only [Function.comp_apply]
  rw [UInt16.toNat_ofNat', Nat.mod_eq_of_lt (by omega)]
  exact UInt8.ofNat_toNat.symm

/-- A string equal to an ASCII literal in code units is that literal. -/
theorem js_eq_ascii {s t : String} (ht : AsciiUnits (js t)) : js s = js t ↔ s = t := by
  refine ⟨fun h => asBytes_injective ?_, fun h => h ▸ rfl⟩
  rw [asBytes_of_asciiUnits ht, asBytes_of_asciiUnits (h ▸ ht), h]

end Concordia.Js
