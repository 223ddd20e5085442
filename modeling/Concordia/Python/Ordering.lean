import Concordia.Python.Value
import Mathlib.Data.List.Sort

/-! The order of strings is total, so a list of different strings has one sorted arrangement. -/
namespace Concordia.Python

section Lex

theorem lexLe_refl : ∀ a : List Nat, lexLe a a = true
  | [] => rfl
  | x :: a => by simp [lexLe, lexLe_refl a]

theorem lexLe_total : ∀ a b : List Nat, lexLe a b = true ∨ lexLe b a = true
  | [], _ => Or.inl rfl
  | _ :: _, [] => Or.inr rfl
  | x :: a, y :: b => by
    simp only [lexLe, Bool.or_eq_true, Bool.and_eq_true, decide_eq_true_eq, beq_iff_eq]
    rcases Nat.lt_trichotomy x y with h | rfl | h
    · exact Or.inl (Or.inl h)
    · rcases lexLe_total a b with h | h
      · exact Or.inl (Or.inr ⟨rfl, h⟩)
      · exact Or.inr (Or.inr ⟨rfl, h⟩)
    · exact Or.inr (Or.inl h)

theorem lexLe_trans : ∀ {a b c : List Nat}, lexLe a b = true → lexLe b c = true → lexLe a c = true
  | [], _, _, _, _ => rfl
  | _ :: _, [], _, h, _ => by cases h
  | _ :: _, _ :: _, [], _, h => by cases h
  | x :: a, y :: b, z :: c, hab, hbc => by
    simp only [lexLe, Bool.or_eq_true, Bool.and_eq_true, decide_eq_true_eq, beq_iff_eq] at *
    rcases hab with hab | ⟨rfl, hab⟩
    · rcases hbc with hbc | ⟨rfl, -⟩
      · exact Or.inl (Nat.lt_trans hab hbc)
      · exact Or.inl hab
    · rcases hbc with hbc | ⟨rfl, hbc⟩
      · exact Or.inl hbc
      · exact Or.inr ⟨rfl, lexLe_trans hab hbc⟩

theorem lexLe_antisymm : ∀ {a b : List Nat}, lexLe a b = true → lexLe b a = true → a = b
  | [], [], _, _ => rfl
  | [], _ :: _, _, h => by cases h
  | _ :: _, [], h, _ => by cases h
  | x :: a, y :: b, hab, hba => by
    simp only [lexLe, Bool.or_eq_true, Bool.and_eq_true, decide_eq_true_eq, beq_iff_eq] at hab hba
    rcases hab with hab | ⟨rfl, hab⟩
    · rcases hba with hba | ⟨rfl, -⟩ <;> omega
    · rcases hba with hba | ⟨-, hba⟩
      · omega
      · rw [lexLe_antisymm hab hba]

end Lex

section CodePoints

/-- The code units of a code point. -/
def unitsOf (n : Nat) : Str :=
  if n < 0x10000 then [n.toUInt16]
  else [(0xd800 + (n - 0x10000) / 0x400).toUInt16, (0xdc00 + (n - 0x10000) % 0x400).toUInt16]

theorem unitsOf_toNat (u : UInt16) : unitsOf u.toNat = [u] := by
  have := u.toNat_lt
  rw [unitsOf, if_pos (by omega)]
  simp

theorem unitsOf_pair {u v : UInt16} (hu : isHighSurrogate u = true) (hv : isLowSurrogate v = true) :
    unitsOf (0x10000 + (u.toNat - 0xd800) * 0x400 + (v.toNat - 0xdc00)) = [u, v] := by
  simp only [isHighSurrogate, isLowSurrogate, Bool.and_eq_true, decide_eq_true_eq,
    UInt16.le_iff_toNat_le] at hu hv
  obtain ⟨hu, hu'⟩ := hu
  obtain ⟨hv, hv'⟩ := hv
  change 0xd800 ≤ u.toNat at hu
  change u.toNat ≤ 0xdbff at hu'
  change 0xdc00 ≤ v.toNat at hv
  change v.toNat ≤ 0xdfff at hv'
  have high : 0xd800 + (0x10000 + (u.toNat - 0xd800) * 0x400 + (v.toNat - 0xdc00) - 0x10000) /
      0x400 = u.toNat := by omega
  have low : 0xdc00 + (0x10000 + (u.toNat - 0xd800) * 0x400 + (v.toNat - 0xdc00) - 0x10000) %
      0x400 = v.toNat := by omega
  rw [unitsOf, if_neg (by omega), high, low]
  simp

/-- Nothing of a string is lost in its code points. -/
theorem unitsOf_codePoints (s : Str) : (codePoints s).flatMap unitsOf = s := by
  induction s using codePoints.induct with
  | case1 => rfl
  | case2 u =>
    rw [codePoints, List.flatMap_singleton, unitsOf_toNat]
  | case3 u v rest hpair ih =>
    rw [Bool.and_eq_true] at hpair
    rw [codePoints, if_pos (by rw [Bool.and_eq_true]; exact hpair), List.flatMap_cons, ih,
      unitsOf_pair hpair.1 hpair.2]
    rfl
  | case4 u v rest hsingle ih =>
    rw [codePoints, if_neg hsingle, List.flatMap_cons, ih, unitsOf_toNat]
    rfl

theorem codePoints_injective : Function.Injective codePoints := by
  intro s t h
  rw [← unitsOf_codePoints s, h, unitsOf_codePoints]

end CodePoints

section Strings

theorem strLe_refl (a : Str) : strLe a a = true := lexLe_refl _

theorem strLe_total (a b : Str) : strLe a b = true ∨ strLe b a = true := lexLe_total _ _

theorem strLe_trans {a b c : Str} (hab : strLe a b = true) (hbc : strLe b c = true) :
    strLe a c = true := lexLe_trans hab hbc

theorem strLe_antisymm {a b : Str} (hab : strLe a b = true) (hba : strLe b a = true) : a = b :=
  codePoints_injective (lexLe_antisymm hab hba)

/-- `sorted(strings)`. -/
def sortedStrs (strings : List Str) : List Str := strings.insertionSort fun a b => strLe a b = true

theorem sortedStrs_perm (strings : List Str) : (sortedStrs strings).Perm strings :=
  List.perm_insertionSort _ _

theorem sortedStrs_sorted (strings : List Str) :
    (sortedStrs strings).Pairwise fun a b => strLe a b = true := by
  have : Std.Total fun a b : Str => strLe a b = true := ⟨strLe_total⟩
  have : IsTrans Str fun a b => strLe a b = true := ⟨fun _ _ _ => strLe_trans⟩
  exact List.pairwise_insertionSort _ _

/-- The sorted list does not depend on the order of the list. -/
theorem sortedStrs_congr {strings others : List Str} (h : strings.Perm others) :
    sortedStrs strings = sortedStrs others := by
  have hperm : (sortedStrs strings).Perm (sortedStrs others) :=
    (sortedStrs_perm strings).trans (h.trans (sortedStrs_perm others).symm)
  refine hperm.eq_of_pairwise ?_ (sortedStrs_sorted strings) (sortedStrs_sorted others)
  intro a b _ _ hab hba
  exact strLe_antisymm hab hba

end Strings

end Concordia.Python
