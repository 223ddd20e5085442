import Concordia.Python.Json
import Concordia.Js.Scanning

/-! The scanners at the texts that `json.dumps` writes: what they read ends where the text does. -/
namespace Concordia.Python
open Concordia.Js Concordia.Js.Json

section Strings
variable {total : Nat}

theorem hexDigitValue_hexDigit : ∀ n < 16, hexDigitValue (hexDigit n) = some n := by decide

theorem hex4_value (u : UInt16) :
    (4096 * (u.toNat / 4096) + 256 * (u.toNat / 256 % 16) + 16 * (u.toNat / 16 % 16) +
      u.toNat % 16).toUInt16 = u := by
  have h : 4096 * (u.toNat / 4096) + 256 * (u.toNat / 256 % 16) + 16 * (u.toNat / 16 % 16) +
      u.toNat % 16 = u.toNat := by omega
  rw [h]
  exact UInt16.ofNat_toNat

/-- A decoded unit in front of what the scanner finds behind it. -/
def consUnit (u : UInt16) (r : Scan (JsString × JsString)) : Scan (JsString × JsString) := do
  let (s, after) ← r
  return (u :: s, after)

theorem parseString_simple {e u : UInt16} (h : simpleEscape e = some u) (hu : e ≠ letterU)
    (rest : Str) : parseString total (0x5c :: e :: rest) = consUnit u (parseString total rest) := by
  rw [parseString.eq_def]
  simp only [show (0x5c : UInt16) ≠ quote from by decide, hu, if_false, h]
  rfl

theorem parseString_unicode (u : UInt16) (rest : Str) :
    parseString total ([0x5c, 0x75] ++ lowerHex4 u ++ rest) =
      consUnit u (parseString total rest) := by
  have hlt := u.toNat_lt
  have h1 := hexDigitValue_hexDigit (u.toNat / 4096) (by omega)
  have h2 := hexDigitValue_hexDigit (u.toNat / 256 % 16) (by omega)
  have h3 := hexDigitValue_hexDigit (u.toNat / 16 % 16) (by omega)
  have h4 := hexDigitValue_hexDigit (u.toNat % 16) (by omega)
  simp only [lowerHex4, List.cons_append, List.nil_append]
  rw [parseString.eq_def]
  simp only [show (0x5c : UInt16) ≠ quote from by decide, letterU, if_true, if_false, h1, h2, h3,
    h4, hex4_value]
  rfl

theorem parseString_plain {u : UInt16} (hq : u ≠ quote) (hb : u ≠ backslash) (hc : ¬ u < 0x20)
    (rest : Str) : parseString total (u :: rest) = consUnit u (parseString total rest) := by
  rw [parseString.eq_def]
  simp only [hq, hb, hc, if_false]
  rfl

theorem parseString_escapeUnit (u : UInt16) (rest : Str) :
    parseString total (escapeUnit u ++ rest) = consUnit u (parseString total rest) := by
  unfold escapeUnit
  split_ifs with h1 h2 h3 h4 h5 h6 h7 h8
  · exact parseString_simple (by subst h1; rfl) (by decide) rest
  · exact parseString_simple (by subst h2; rfl) (by decide) rest
  · exact parseString_simple (by subst h3; rfl) (by decide) rest
  · exact parseString_simple (by subst h4; rfl) (by decide) rest
  · exact parseString_simple (by subst h5; rfl) (by decide) rest
  · exact parseString_simple (by subst h6; rfl) (by decide) rest
  · exact parseString_simple (by subst h7; rfl) (by decide) rest
  · simp only [Bool.and_eq_true, decide_eq_true_eq] at h8
    exact parseString_plain h1 h2 (UInt16.not_lt.mpr h8.1) rest
  · exact parseString_unicode u rest

theorem parseString_escape (s rest : Str) :
    parseString total (s.flatMap escapeUnit ++ quote :: rest) = .ok (s, rest) := by
  induction s with
  | nil => rw [List.flatMap_nil, List.nil_append, parseString.eq_def]; rfl
  | cons u s ih =>
    rw [List.flatMap_cons, List.append_assoc, parseString_escapeUnit, ih]
    rfl

theorem scanString_escape (s rest : Str) :
    scanString (s.flatMap escapeUnit ++ quote :: rest) = some (s, rest) := by
  simp [scanString, parseString_escape, Except.toOption]

end Strings

/-- What follows a value inside a list or a dictionary, or at the end. -/
def Stops (rest : Str) : Prop :=
  ∀ u, rest.head? = some u → u = comma ∨ u = rightBracket ∨ u = rightBrace

/-- The units that can continue the text of a number. -/
def continuesNumber (u : UInt16) : Bool :=
  isDigit u || u == minus || u == plus || u == dot || u == 0x65 || u == 0x45

/-- The text of a number cannot go on here. -/
def EndsNumber (rest : Str) : Prop := ∀ u, rest.head? = some u → continuesNumber u = false

theorem Stops.endsNumber {rest : Str} (h : Stops rest) : EndsNumber rest := by
  intro u hu
  rcases h u hu with rfl | rfl | rfl <;> decide

section Stages
variable {rest : Str} (h : EndsNumber rest)
include h

theorem EndsNumber.head_ne {c : UInt16} (hc : continuesNumber c = true) :
    rest.head? ≠ some c := by
  intro heq
  rw [h c heq] at hc
  contradiction

theorem EndsNumber.not_digit (u : UInt16) (hu : rest.head? = some u) : isDigit u = false := by
  have hends := h u hu
  simp only [continuesNumber, Bool.or_eq_false_iff] at hends
  exact hends.1.1.1.1.1

theorem EndsNumber.takeWhile (a : Str) : (a ++ rest).takeWhile isDigit = a.takeWhile isDigit :=
  takeWhile_stop h.not_digit

theorem signStage_append (a : Str) :
    signStage (a ++ rest) = ((signStage a).1, (signStage a).2 ++ rest) := by
  cases a with
  | nil =>
    have := h.head_ne (c := minus) (by decide)
    simp [signStage, this]
  | cons u a =>
    simp only [signStage, List.cons_append, List.head?_cons, List.tail_cons]
    by_cases hu : u = minus <;> simp [hu]

theorem integerStage_append (a : Str) :
    integerStage (a ++ rest) = (integerStage a).map fun (i, s) => (i, s ++ rest) := by
  unfold integerStage
  rw [h.takeWhile]
  have hstart := List.takeWhile_prefix isDigit (l := a)
  cases hd : a.takeWhile isDigit with
  | nil => rfl
  | cons d digits =>
    rw [hd] at hstart
    have hlen := hstart.length_le
    simp only [List.length_cons] at hlen
    simp only [Option.map_some, Option.some.injEq, Prod.mk.injEq, true_and]
    rw [List.drop_append_of_le_length]
    split <;> simp <;> omega

theorem fractionStage_append (a : Str) :
    fractionStage (a ++ rest) = ((fractionStage a).1, (fractionStage a).2 ++ rest) := by
  cases a with
  | nil =>
    have := h.head_ne (c := dot) (by decide)
    simp [fractionStage, this]
  | cons u a =>
    have hstart := (List.takeWhile_prefix isDigit (l := a)).length_le
    simp only [fractionStage, List.cons_append, List.head?_cons, List.tail_cons, h.takeWhile]
    by_cases hu : (some u == some dot && !(a.takeWhile isDigit).isEmpty) = true
    · simp only [hu, if_true, List.drop_append_of_le_length hstart]
    · simp only [hu, if_false, List.cons_append, Bool.false_eq_true]

theorem exponentStage_append (a : Str) :
    exponentStage (a ++ rest) = ((exponentStage a).1, (exponentStage a).2 ++ rest) := by
  cases a with
  | nil =>
    have h1 := h.head_ne (c := 0x65) (by decide)
    have h2 := h.head_ne (c := 0x45) (by decide)
    simp [exponentStage, h1, h2]
  | cons u a =>
    cases a with
    | nil =>
      have h1 := h.head_ne (c := plus) (by decide)
      have h2 := h.head_ne (c := minus) (by decide)
      have h3 := h.takeWhile []
      simp only [List.nil_append, List.takeWhile_nil] at h3
      simp [exponentStage, h1, h2, h3]
    | cons v a =>
      have hstart := (List.takeWhile_prefix isDigit (l := a)).length_le
      have hstart' := (List.takeWhile_prefix isDigit (l := v :: a)).length_le
      have htake := h.takeWhile (v :: a)
      simp only [List.cons_append] at htake
      simp only [exponentStage, List.cons_append, List.head?_cons, List.tail_cons]
      by_cases hs : (some v == some plus || some v == some minus) = true
      · simp only [hs, if_true, h.takeWhile]
        by_cases hu : ((some u == some 0x65 || some u == some 0x45) &&
          !(a.takeWhile isDigit).isEmpty) = true
        · simp only [hu, if_true, List.drop_append_of_le_length hstart]
        · simp only [hu, if_false, List.cons_append, Bool.false_eq_true]
      · simp only [hs, if_false, htake, Bool.false_eq_true]
        by_cases hu : ((some u == some 0x65 || some u == some 0x45) &&
          !((v :: a).takeWhile isDigit).isEmpty) = true
        · simp only [hu, if_true, ← List.cons_append, List.drop_append_of_le_length hstart']
        · simp only [hu, if_false, List.cons_append, Bool.false_eq_true]

theorem matchNumber_append (a : Str) :
    matchNumber (a ++ rest) = (matchNumber a).map fun (n, s) => (n, s ++ rest) := by
  simp only [matchNumber_stages, signStage_append h, integerStage_append h, Option.map_map]
  congr 1
  funext ⟨i, s⟩
  simp [fractionStage_append h, exponentStage_append h]
end Stages

section Numbers

theorem matchNumber_head {s : Str} {r : NumberText × JsString} (h : matchNumber s = some r) :
    ∃ u t, s = u :: t ∧ (u = minus ∨ isDigit u = true) := by
  cases s with
  | nil => cases h
  | cons u t =>
    refine ⟨u, t, rfl, ?_⟩
    by_contra hu
    obtain ⟨hminus, hdigit⟩ := not_or.mp hu
    simp [matchNumber_stages, signStage, integerStage, hminus, hdigit] at h

theorem matchNumber_decimal (n : Nat) :
    matchNumber (decimal n) = some (⟨false, decimal n, none, none⟩, []) := by
  have hdigits : (decimal n).all isDigit = true ∧ decimal n ≠ [] ∧
      (decimal n = [48] ∨ (decimal n).head? ≠ some 48) := by
    have hc := isCanonicalDecimal_decimal n
    simp only [isCanonicalDecimal, Bool.or_eq_true, beq_iff_eq, Bool.and_eq_true, bne_iff_ne] at hc
    rcases hc with hzero | ⟨⟨hall, hne⟩, hhead⟩
    · simp [hzero]
      decide
    · exact ⟨hall, by simpa using hne, .inr hhead⟩
  obtain ⟨hall, hne, hzero⟩ := hdigits
  obtain ⟨d, ds, heq⟩ := List.exists_cons_of_ne_nil hne
  have hd : isDigit d = true := by simpa [heq] using (List.all_eq_true.mp hall) d (by simp [heq])
  have hminus : d ≠ minus := by rintro rfl; revert hd; decide
  have htake : (decimal n).takeWhile isDigit = decimal n :=
    List.takeWhile_eq_self_iff.mpr (List.all_eq_true.mp hall)
  have hsign : signStage (decimal n) = (false, decimal n) := by simp [signStage, heq, hminus]
  have hinteger : integerStage (decimal n) = some (decimal n, []) := by
    unfold integerStage
    rw [htake, heq]
    by_cases hz : d = zero
    · have : ds = [] := by
        rcases hzero with h48 | hhead
        · rw [heq] at h48
          exact (List.cons.inj h48).2
        · exact absurd (by simp [heq, hz, zero]) hhead
      simp [hz, this]
    · simp [hz]
  simp [matchNumber_stages, hsign, hinteger, fractionStage, exponentStage]

theorem matchNumber_dumpsInt (n : Int) :
    matchNumber (dumpsInt n) = some (⟨decide (n < 0), decimal n.natAbs, none, none⟩, []) := by
  unfold dumpsInt
  split
  · rename_i hneg
    have hd := matchNumber_decimal n.natAbs
    have hsign : (signStage (decimal n.natAbs)) = (false, decimal n.natAbs) := by
      obtain ⟨u, t, heq, -⟩ := matchNumber_head hd
      rw [matchNumber_stages] at hd
      simp only [Option.map_eq_some_iff, Prod.mk.injEq, NumberText.mk.injEq] at hd
      obtain ⟨-, -, ⟨hfalse, -⟩, -⟩ := hd
      have : (decimal n.natAbs).head? ≠ some minus := by simpa [signStage] using hfalse
      simp [signStage, this]
    have hm : signStage (minus :: decimal n.natAbs) = (true, decimal n.natAbs) := rfl
    rw [matchNumber_stages, hsign] at hd
    rw [matchNumber_stages, hm]
    simp only [Option.map_eq_some_iff, Prod.mk.injEq, NumberText.mk.injEq] at hd ⊢
    obtain ⟨p, hp, hrest⟩ := hd
    exact ⟨p, hp, by simpa [hneg] using hrest⟩
  · rename_i hneg
    simp [matchNumber_decimal, hneg]

theorem intOf_dumpsInt (n : Int) : intOf ⟨decide (n < 0), decimal n.natAbs, none, none⟩ = n := by
  simp only [intOf, digitsValue_decimal, decide_eq_true_eq]
  split <;> omega

end Numbers
end Concordia.Python
