import Mathlib.Algebra.BigOperators.Group.List.Basic
import Mathlib.Algebra.Order.Floor.Ring
import Mathlib.Data.List.Nodup
import Mathlib.Data.Rat.Floor
import Mathlib.Tactic.Linarith

/-! Largest-remainder apportionment: every share is rounded down, and the units that are left over
are given one by one along an order. -/
namespace Concordia.Lib.Apportionment

/-- One unit more for each index of the order, while units are left. -/
def distribute : ℤ → List ℕ → List ℤ → List ℤ
  | _, [], seats => seats
  | remainder, index :: order, seats =>
    if remainder ≤ 0 then seats
    else distribute (remainder - 1) order (seats.modify index (· + 1))

theorem sum_modify (seats : List ℤ) {index : ℕ} (h : index < seats.length) :
    (seats.modify index (· + 1)).sum = seats.sum + 1 := by
  induction seats generalizing index with
  | nil => cases h
  | cons seat seats ih =>
    cases index with
    | zero =>
      rw [List.modify_zero_cons, List.sum_cons, List.sum_cons]
      omega
    | succ index =>
      rw [List.modify_succ_cons, List.sum_cons, List.sum_cons, ih (Nat.lt_of_succ_lt_succ h)]
      omega

@[simp]
theorem length_distribute (remainder : ℤ) (order : List ℕ) (seats : List ℤ) :
    (distribute remainder order seats).length = seats.length := by
  induction order generalizing remainder seats with
  | nil => rfl
  | cons index order ih =>
    rw [distribute]
    split_ifs
    · rfl
    · rw [ih, List.length_modify]

/-- Every unit that is left is given to someone. -/
theorem sum_distribute {order : List ℕ} {seats : List ℤ} {remainder : ℤ}
    (hindex : ∀ index ∈ order, index < seats.length) (hnonneg : 0 ≤ remainder)
    (hfew : remainder ≤ order.length) :
    (distribute remainder order seats).sum = seats.sum + remainder := by
  induction order generalizing remainder seats with
  | nil =>
    have hzero : remainder = 0 := by
      rw [List.length_nil] at hfew
      omega
    rw [distribute, hzero, add_zero]
  | cons index order ih =>
    rw [distribute]
    split_ifs with hleft
    · have hzero : remainder = 0 := by omega
      rw [hzero, add_zero]
    · rw [List.length_cons] at hfew
      have hrest : ∀ i ∈ order, i < (seats.modify index (· + 1)).length := by
        intro i hi
        rw [List.length_modify]
        exact hindex i (List.mem_cons_of_mem _ hi)
      rw [ih hrest (by omega) (by omega), sum_modify _ (hindex index List.mem_cons_self)]
      omega

/-- Who is among the first of the order gets one unit more, the others nothing. -/
theorem getElem?_distribute {order : List ℕ} (hnodup : order.Nodup) (remainder : ℤ)
    (seats : List ℤ) (i : ℕ) :
    (distribute remainder order seats)[i]? =
      seats[i]?.map fun seat => if i ∈ order.take remainder.toNat then seat + 1 else seat := by
  induction order generalizing remainder seats with
  | nil => simp [distribute]
  | cons index order ih =>
    obtain ⟨hfresh, hnodup⟩ := List.nodup_cons.mp hnodup
    rw [distribute]
    by_cases hleft : remainder ≤ 0
    · have hzero : remainder.toNat = 0 := by omega
      rw [if_pos hleft]
      simp [hzero]
    · rw [if_neg hleft]
      have hsucc : remainder.toNat = (remainder - 1).toNat + 1 := by omega
      rw [ih hnodup, List.getElem?_modify, hsucc, List.take_succ_cons]
      generalize (remainder - 1).toNat = taken
      by_cases hi : index = i
      · subst hi
        have hlater : index ∉ order.take taken := fun h => hfresh (List.mem_of_mem_take h)
        cases seats[index]? <;> simp [hlater]
      · have hother : ∀ taken : List ℕ, i ∈ index :: taken ↔ i ∈ taken := by
          intro taken
          rw [List.mem_cons, or_iff_right (Ne.symm hi)]
        cases seats[i]? <;> simp [hi, hother]

section Shares

/-- The units that rounding down leaves over: none are missing, and no share loses a whole one. -/
theorem sum_floor_le (shares : List ℚ) : ((shares.map Int.floor).sum : ℚ) ≤ shares.sum := by
  induction shares with
  | nil => simp
  | cons share shares ih =>
    have := Int.floor_le share
    rw [List.map_cons, List.sum_cons, List.sum_cons, Int.cast_add]
    linarith

theorem sum_le_floor_add (shares : List ℚ) :
    shares.sum ≤ ((shares.map Int.floor).sum : ℚ) + shares.length := by
  induction shares with
  | nil => simp
  | cons share shares ih =>
    have := Int.lt_floor_add_one share
    rw [List.map_cons, List.sum_cons, List.sum_cons, Int.cast_add, List.length_cons, Nat.cast_add,
      Nat.cast_one]
    linarith

/-- `total` units for the shares: each one rounded down or one more, and the units more go along
`before`. -/
structure Apportions (shares : List ℚ) (before : ℕ → ℕ → Prop) (total : ℤ) (seats : List ℤ) :
    Prop where
  length : seats.length = shares.length
  sum : seats.sum = total
  near : ∀ (i : ℕ) (seat : ℤ) (share : ℚ), seats[i]? = some seat → shares[i]? = some share →
    seat = ⌊share⌋ ∨ seat = ⌊share⌋ + 1
  extra : ∀ (i j : ℕ) (seat : ℤ) (share : ℚ) (other : ℤ) (share' : ℚ), seats[i]? = some seat → shares[i]? = some share →
    seats[j]? = some other → shares[j]? = some share' →
    seat = ⌊share⌋ + 1 → other = ⌊share'⌋ → before i j

variable {shares : List ℚ} {before : ℕ → ℕ → Prop} {order : List ℕ} {total : ℤ}

theorem apportions_distribute (hperm : order.Perm (List.range shares.length))
    (hsorted : order.Pairwise before) (htotal : shares.sum = total) :
    Apportions shares before total
      (distribute (total - (shares.map Int.floor).sum) order (shares.map Int.floor)) := by
  have hnodup : order.Nodup := hperm.nodup_iff.mpr List.nodup_range
  have hlength : order.length = shares.length := by rw [hperm.length_eq, List.length_range]
  have hlow : (shares.map Int.floor).sum ≤ total := by
    have := sum_floor_le shares
    rw [htotal] at this
    exact_mod_cast this
  have hhigh : total ≤ (shares.map Int.floor).sum + shares.length := by
    have := sum_le_floor_add shares
    rw [htotal] at this
    exact_mod_cast this
  have hindex : ∀ index ∈ order, index < (shares.map Int.floor).length := by
    intro index hi
    rw [List.length_map]
    exact List.mem_range.mp (hperm.mem_iff.mp hi)
  have hseat : ∀ {i : ℕ} {seat : ℤ} {share : ℚ},
      (distribute (total - (shares.map Int.floor).sum) order (shares.map Int.floor))[i]? =
        some seat → shares[i]? = some share →
      seat = if i ∈ order.take (total - (shares.map Int.floor).sum).toNat then ⌊share⌋ + 1
        else ⌊share⌋ := by
    intro i seat share hi hs
    rw [getElem?_distribute hnodup, List.getElem?_map, hs] at hi
    exact (Option.some.inj hi).symm
  constructor
  case length => rw [length_distribute, List.length_map]
  case sum =>
    rw [sum_distribute hindex (by omega) (by rw [hlength]; omega)]
    omega
  case near =>
    intro i seat share hi hs
    rw [hseat hi hs]
    split_ifs
    · exact Or.inr rfl
    · exact Or.inl rfl
  case extra =>
    intro i j seat share other share' hi hs hj hs' hmore hless
    rw [hseat hi hs] at hmore
    rw [hseat hj hs'] at hless
    have htaken : i ∈ order.take (total - (shares.map Int.floor).sum).toNat := by
      by_contra hnot
      rw [if_neg hnot] at hmore
      omega
    have hleft : j ∈ order.drop (total - (shares.map Int.floor).sum).toNat := by
      have hj' : j ∈ order := by
        obtain ⟨hbound, -⟩ := List.getElem?_eq_some_iff.mp hs'
        exact hperm.mem_iff.mpr (List.mem_range.mpr hbound)
      rw [← List.take_append_drop (total - (shares.map Int.floor).sum).toNat order,
        List.mem_append] at hj'
      refine hj'.resolve_left fun hnot => ?_
      rw [if_pos hnot] at hless
      omega
    rw [← List.take_append_drop (total - (shares.map Int.floor).sum).toNat order,
      List.pairwise_append] at hsorted
    exact hsorted.2.2 i htaken j hleft

theorem Apportions.nonneg {seats : List ℤ} (h : Apportions shares before total seats)
    (hshares : ∀ share ∈ shares, 0 ≤ share) : ∀ seat ∈ seats, 0 ≤ seat := by
  intro seat hseat
  obtain ⟨i, hi⟩ := List.mem_iff_getElem?.mp hseat
  obtain ⟨hbound, -⟩ := List.getElem?_eq_some_iff.mp hi
  rw [h.length] at hbound
  have hs : shares[i]? = some shares[i] := List.getElem?_eq_getElem hbound
  have hfloor : 0 ≤ ⌊shares[i]⌋ := Int.floor_nonneg.mpr (hshares _ (List.getElem_mem hbound))
  rcases h.near i seat _ hi hs with rfl | rfl
  · exact hfloor
  · omega

end Shares

end Concordia.Lib.Apportionment
