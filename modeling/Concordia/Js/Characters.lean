import Concordia.Js.Ascii
import Concordia.Js.Pasting

/-! Strings of characters in code units: nothing of them is lost, and numbers and separators
come out as they are written. -/
namespace Concordia.Js

theorem js_append (s t : String) : js (s ++ t) = js s ++ js t := by
  simp [js]

section Injective

private theorem toNat_low {n : Nat} (h : n < 0x10000) : n.toUInt16.toNat = n := by
  rw [Nat.toUInt16_eq, UInt16.toNat_ofNat']
  omega

/-- A character is no surrogate. -/
theorem toNat_char (c : Char) : c.toNat < 0xd800 ∨ 0xdfff < c.toNat ∧ c.toNat < 0x110000 := by
  have := c.valid
  rcases this with h | h
  · exact .inl h
  · exact .inr h

/-- The units of a character can be read off the front of any continuation. -/
theorem codeUnits_cut {c d : Char} {r s : JsString} (h : codeUnits c ++ r = codeUnits d ++ s) :
    c = d ∧ r = s := by
  have hc := toNat_char c
  have hd := toNat_char d
  have same : c.toNat = d.toNat → r = s → c = d ∧ r = s := fun e hr =>
    ⟨Char.ext (UInt32.toNat_inj.mp e), hr⟩
  unfold codeUnits at h
  split_ifs at h with lowc lowd lowd
  · obtain ⟨hu, hr⟩ := List.cons.inj h
    have := congrArg UInt16.toNat hu
    rw [toNat_low lowc, toNat_low lowd] at this
    exact same this hr
  · have := congrArg UInt16.toNat (List.cons.inj h).1
    rw [toNat_low lowc, toNat_low (by omega)] at this
    omega
  · have := congrArg UInt16.toNat (List.cons.inj h).1
    rw [toNat_low lowd, toNat_low (by omega)] at this
    omega
  · obtain ⟨hu, h⟩ := List.cons.inj h
    obtain ⟨hv, hr⟩ := List.cons.inj h
    have high := congrArg UInt16.toNat hu
    have low := congrArg UInt16.toNat hv
    rw [toNat_low (by omega), toNat_low (by omega)] at high low
    exact same (by omega) hr

theorem js_injective : Function.Injective js := by
  have lists : ∀ l m : List Char, l.flatMap codeUnits = m.flatMap codeUnits → l = m := by
    have hne : ∀ c, codeUnits c ≠ [] := by
      intro c
      unfold codeUnits
      split_ifs <;> simp
    intro l
    induction l with
    | nil =>
      intro m h
      cases m with
      | nil => rfl
      | cons d m => simp [hne d] at h
    | cons c l ih =>
      intro m h
      cases m with
      | nil => simp [hne c] at h
      | cons d m =>
        obtain ⟨rfl, hr⟩ := codeUnits_cut h
        rw [ih m hr]
  intro s t h
  exact String.toList_inj.mp (lists _ _ h)

end Injective

section Plain
open Json

/-- A character that stands for itself between quotes. -/
def PlainChar (c : Char) : Prop := 0x20 ≤ c.toNat ∧ c ≠ '\"' ∧ c ≠ '\\'

instance (c : Char) : Decidable (PlainChar c) := inferInstanceAs (Decidable (_ ∧ _ ∧ _))

theorem plain_codeUnits {c : Char} : (∀ u ∈ codeUnits c, Plain u) ↔ PlainChar c := by
  have hc := toNat_char c
  have quoted : c = '\"' ↔ c.toNat = 0x22 := by
    rw [Char.ext_iff, ← UInt32.toNat_inj]
    rfl
  have slashed : c = '\\' ↔ c.toNat = 0x5c := by
    rw [Char.ext_iff, ← UInt32.toNat_inj]
    rfl
  unfold codeUnits PlainChar
  simp only [Plain, UInt16.le_iff_toNat_le, ne_eq, quoted, slashed, ← UInt16.toNat_inj]
  split_ifs with low
  · simp only [List.mem_singleton, forall_eq, toNat_low low]
    exact Iff.rfl
  · simp only [List.mem_cons, List.not_mem_nil, or_false, forall_eq_or_imp, forall_eq]
    rw [toNat_low (by omega), toNat_low (by omega)]
    simp only [show UInt16.toNat 0x20 = 0x20 from rfl, show quote.toNat = 0x22 from rfl,
      show backslash.toNat = 0x5c from rfl]
    omega

theorem plainText_js {s : String} : PlainText (js s) ↔ ∀ c ∈ s.toList, PlainChar c := by
  simp only [PlainText, js, List.mem_flatMap, ← plain_codeUnits]
  constructor
  · exact fun h c hc u hu => h u ⟨c, hc, hu⟩
  · rintro h u ⟨c, hc, hu⟩
    exact h c hc u hu

/-- A literal is plain when its characters pass the test one after another. -/
theorem plainText_of_all {s : String} (h : (s.toList.all fun c => decide (PlainChar c)) = true) :
    PlainText (js s) := by
  rw [plainText_js]
  intro c hc
  exact of_decide_eq_true (List.all_eq_true.mp h c hc)

end Plain

section Decimals

theorem codeUnits_digitChar : ∀ d < 10, codeUnits (Nat.digitChar d) = [(48 + d).toUInt16] := by
  decide

theorem decimal_small {n : Nat} (h : n < 10) : decimal n = [(48 + n).toUInt16] := by
  unfold decimal
  split_ifs with hn
  · rw [hn]
    rfl
  · rw [Nat.digits_of_lt 10 n hn h]
    rfl

theorem decimal_large {n : Nat} (h : 10 ≤ n) :
    decimal n = decimal (n / 10) ++ [(48 + n % 10).toUInt16] := by
  unfold decimal
  rw [if_neg (by omega), if_neg (by omega), Nat.digits_def' (by omega) (by omega)]
  simp

/-- `format!` of an unsigned integer. -/
theorem js_toString (n : Nat) : js (toString n) = decimal n := by
  rw [Nat.toString_eq_ofList_toDigits, js_ofList]
  induction n using Nat.strongRecOn with
  | ind n ih =>
    by_cases h : n < 10
    · rw [Nat.toDigits_of_lt_base h, decimal_small h, List.flatMap_singleton,
        codeUnits_digitChar n h]
    · rw [decimal_large (n := n) (by omega), Nat.toDigits_of_base_le (by omega) (by omega),
        List.flatMap_append, ih (n / 10) (by omega), List.flatMap_singleton,
        codeUnits_digitChar _ (Nat.mod_lt _ (by omega))]

end Decimals
end Concordia.Js
