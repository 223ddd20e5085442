import Concordia.Lib.Apportionment
import Concordia.Python.Ordering
import Mathlib.Algebra.BigOperators.Ring.List
import Mathlib.Tactic.FieldSimp
import Mathlib.Tactic.Positivity

/-! Treasury sleeves in basis points. The weights are exact rationals here, where the code has
floats. -/
namespace Concordia.Shared.BpsAllocation
open Concordia.Python Concordia.Lib.Apportionment
open Concordia.Js hiding Value

/-- A map from sleeve identifiers to weights: no identifier comes twice. -/
structure Target where
  entries : List (Str × ℚ)
  nodup : (entries.map Prod.fst).Nodup

structure Allocation where
  sleeveIds : List Str
  weightsBps : List ℤ
  deriving DecidableEq

namespace Target

def keys (target : Target) : List Str := target.entries.map Prod.fst

/-- `target[key]`, for a key that is there. -/
def value (target : Target) (key : Str) : ℚ := (target.entries.lookup key).getD 0

def total (target : Target) : ℚ := (target.entries.map Prod.snd).sum

/-- What a sleeve is due, in basis points. -/
def share (target : Target) (key : Str) : ℚ := target.value key / target.total * 10000

end Target

/-- `value - math.floor(value)`. -/
def fraction (value : ℚ) : ℚ := value - (⌊value⌋ : ℤ)

/-- The indices with their remainders, the largest first and equal ones by their identifiers. -/
def byFraction (sleeveIds : List Str) (raw : List ℚ) : List (ℕ × ℚ) :=
  (raw.zipIdx.map fun item => (item.2, fraction item.1)).insertionSort fun a b =>
    b.2 < a.2 ∨ a.2 = b.2 ∧ strLe (sleeveIds.getD a.1 []) (sleeveIds.getD b.1 []) = true

def toBpsAllocation (target : Target) : Except String Allocation :=
  let sleeveIds := sortedStrs target.keys
  let values := sleeveIds.map target.value
  let total := values.sum
  let normalized := values.map (· / total)
  let raw := normalized.map (· * 10000)
  let floored := raw.map Int.floor
  let remainder := 10000 - floored.sum
  let weights := distribute remainder ((byFraction sleeveIds raw).map Prod.fst) floored
  if target.entries.isEmpty then .error "allocation target must contain at least one sleeve"
  else if values.any (· < 0) then
    .error "allocation weights must be finite non-negative numbers"
  else if total ≤ 0 then .error "allocation weights must sum to a positive number"
  else if weights.sum ≠ 10000 then
    .error "allocation rounding failed to reach exactly 10,000 bps"
  else .ok ⟨sleeveIds, weights⟩

section Target
variable (target : Target)

theorem value_of_mem {entry : Str × ℚ} (h : entry ∈ target.entries) :
    target.value entry.1 = entry.2 := by
  obtain ⟨entries, nodup⟩ := target
  induction entries with
  | nil => cases h
  | cons first rest ih =>
    obtain ⟨hfresh, hrest⟩ := List.nodup_cons.mp nodup
    rcases List.mem_cons.mp h with rfl | h
    · obtain ⟨name, share⟩ := entry
      simp [Target.value, List.lookup_cons]
    · have hne : entry.1 ≠ first.1 := by
        intro he
        exact hfresh (he ▸ List.mem_map_of_mem h)
      have hvalue := ih hrest h
      simp only [Target.value] at hvalue ⊢
      rw [List.lookup_cons, beq_false_of_ne hne]
      exact hvalue

theorem map_value_keys : target.keys.map target.value = target.entries.map Prod.snd := by
  rw [Target.keys, List.map_map]
  apply List.map_congr_left
  intro entry hentry
  exact value_of_mem target hentry

theorem sum_sorted_values : ((sortedStrs target.keys).map target.value).sum = target.total := by
  rw [((sortedStrs_perm target.keys).map target.value).sum_eq, map_value_keys, Target.total]

theorem value_mem_entries {key : Str} (h : key ∈ target.keys) :
    ∃ entry ∈ target.entries, entry.1 = key ∧ target.value key = entry.2 := by
  obtain ⟨entry, hentry, rfl⟩ := List.mem_map.mp h
  exact ⟨entry, hentry, rfl, value_of_mem target hentry⟩

/-- The values do not depend on the order of the entries. -/
theorem value_congr {other : Target} (h : target.entries.Perm other.entries) {key : Str}
    (hkey : key ∈ target.keys) : target.value key = other.value key := by
  obtain ⟨entry, hentry, rfl, hvalue⟩ := value_mem_entries target hkey
  rw [hvalue, value_of_mem other (h.mem_iff.mp hentry)]

end Target

section Order
variable (sleeveIds : List Str) (raw : List ℚ)

/-- The order in which leftover units are given. -/
def Before (i j : ℕ) : Prop :=
  fraction (raw.getD j 0) < fraction (raw.getD i 0) ∨
    fraction (raw.getD i 0) = fraction (raw.getD j 0) ∧
      strLe (sleeveIds.getD i []) (sleeveIds.getD j []) = true

theorem byFraction_perm :
    ((byFraction sleeveIds raw).map Prod.fst).Perm (List.range raw.length) := by
  have hperm := (List.perm_insertionSort (fun a b : ℕ × ℚ =>
    b.2 < a.2 ∨ a.2 = b.2 ∧ strLe (sleeveIds.getD a.1 []) (sleeveIds.getD b.1 []) = true)
    (raw.zipIdx.map fun item => (item.2, fraction item.1))).map Prod.fst
  rw [List.map_map] at hperm
  have hrange : raw.zipIdx.map (Prod.fst ∘ fun item => (item.2, fraction item.1)) =
      List.range raw.length := by
    rw [List.range_eq_range', ← List.zipIdx_map_snd 0 raw]
    rfl
  rw [hrange] at hperm
  exact hperm

/-- The pairs hold the remainders of their indices. -/
theorem mem_byFraction {item : ℕ × ℚ} (h : item ∈ byFraction sleeveIds raw) :
    item.2 = fraction (raw.getD item.1 0) := by
  rw [byFraction, List.mem_insertionSort] at h
  obtain ⟨⟨value, index⟩, hvalue, rfl⟩ := List.mem_map.mp h
  rw [List.mem_zipIdx_iff_getElem?] at hvalue
  simp only at hvalue ⊢
  rw [List.getD_eq_getElem?_getD, hvalue, Option.getD_some]

theorem byFraction_sorted :
    ((byFraction sleeveIds raw).map Prod.fst).Pairwise (Before sleeveIds raw) := by
  have htotal : Std.Total fun a b : ℕ × ℚ =>
      b.2 < a.2 ∨ a.2 = b.2 ∧ strLe (sleeveIds.getD a.1 []) (sleeveIds.getD b.1 []) = true := by
    constructor
    intro a b
    rcases lt_trichotomy a.2 b.2 with h | h | h
    · exact Or.inr (Or.inl h)
    · rcases strLe_total (sleeveIds.getD a.1 []) (sleeveIds.getD b.1 []) with hle | hle
      · exact Or.inl (Or.inr ⟨h, hle⟩)
      · exact Or.inr (Or.inr ⟨h.symm, hle⟩)
    · exact Or.inl (Or.inl h)
  have htrans : IsTrans (ℕ × ℚ) fun a b =>
      b.2 < a.2 ∨ a.2 = b.2 ∧ strLe (sleeveIds.getD a.1 []) (sleeveIds.getD b.1 []) = true := by
    constructor
    rintro a b c (hab | ⟨hab, hle⟩) (hbc | ⟨hbc, hle'⟩)
    · exact Or.inl (hbc.trans hab)
    · exact Or.inl (hbc ▸ hab)
    · exact Or.inl (hab ▸ hbc)
    · exact Or.inr ⟨hab.trans hbc, strLe_trans hle hle'⟩
  rw [List.pairwise_map]
  refine (List.pairwise_insertionSort _ _).imp_of_mem ?_
  intro a b ha hb hab
  rw [mem_byFraction sleeveIds raw ha, mem_byFraction sleeveIds raw hb] at hab
  exact hab

end Order

/-! The apportionment of a map without negative weights. -/
section Apportionment
variable {target : Target}

/-- What `to_bps_allocation` owes to the weights: the keys in their order, a whole and non-negative
number of basis points for each, 10,000 together, every number its share rounded down or one more,
and the ones more for the largest remainders, equal remainders in the order of the keys. -/
structure Apportioned (target : Target) (allocation : Allocation) : Prop where
  keys : allocation.sleeveIds.Perm target.keys
  sorted : allocation.sleeveIds.Pairwise fun a b => strLe a b = true
  length : allocation.weightsBps.length = allocation.sleeveIds.length
  nonneg : ∀ weight ∈ allocation.weightsBps, 0 ≤ weight
  sum : allocation.weightsBps.sum = 10000
  near : ∀ sleeve ∈ allocation.sleeveIds.zip allocation.weightsBps,
    sleeve.2 = ⌊target.share sleeve.1⌋ ∨ sleeve.2 = ⌊target.share sleeve.1⌋ + 1
  largest : ∀ sleeve ∈ allocation.sleeveIds.zip allocation.weightsBps,
    ∀ other ∈ allocation.sleeveIds.zip allocation.weightsBps,
      sleeve.2 = ⌊target.share sleeve.1⌋ + 1 → other.2 = ⌊target.share other.1⌋ →
      Int.fract (target.share other.1) < Int.fract (target.share sleeve.1) ∨
        Int.fract (target.share sleeve.1) = Int.fract (target.share other.1) ∧
          strLe sleeve.1 other.1 = true

/-- What the sleeves are due, in the order of their keys. -/
def sortedShares (target : Target) : List ℚ := (sortedStrs target.keys).map target.share

theorem sortedShares_eq : ((sortedStrs target.keys).map target.value).map
    (fun value => value / ((sortedStrs target.keys).map target.value).sum * 10000) =
      sortedShares target := by
  rw [sum_sorted_values, List.map_map]
  rfl

theorem sum_sortedShares (hpos : 0 < target.total) : (sortedShares target).sum = 10000 := by
  have hscale : sortedShares target =
      ((sortedStrs target.keys).map target.value).map (· * (10000 / target.total)) := by
    rw [sortedShares, List.map_map]
    apply List.map_congr_left
    intro key _
    simp only [Target.share, Function.comp_apply]
    ring
  rw [hscale, List.sum_map_mul_right, List.map_id', sum_sorted_values]
  field_simp

theorem weights_eq : toBpsAllocation target =
    let weights := distribute (10000 - ((sortedShares target).map Int.floor).sum)
      ((byFraction (sortedStrs target.keys) (sortedShares target)).map Prod.fst)
      ((sortedShares target).map Int.floor)
    if target.entries.isEmpty then .error "allocation target must contain at least one sleeve"
    else if ((sortedStrs target.keys).map target.value).any (· < 0) then
      .error "allocation weights must be finite non-negative numbers"
    else if target.total ≤ 0 then .error "allocation weights must sum to a positive number"
    else if weights.sum ≠ 10000 then
      .error "allocation rounding failed to reach exactly 10,000 bps"
    else .ok ⟨sortedStrs target.keys, weights⟩ := by
  rw [toBpsAllocation, ← sum_sorted_values, ← sortedShares_eq]
  simp only [List.map_map, Function.comp_def]

/-- The result is that of every other listing of the map. -/
theorem toBpsAllocation_congr {other : Target} (h : target.entries.Perm other.entries) :
    toBpsAllocation target = toBpsAllocation other := by
  have hkeys : sortedStrs target.keys = sortedStrs other.keys :=
    sortedStrs_congr (h.map Prod.fst)
  have hvalues : (sortedStrs other.keys).map target.value =
      (sortedStrs other.keys).map other.value := by
    apply List.map_congr_left
    intro key hkey
    rw [← hkeys, (sortedStrs_perm target.keys).mem_iff] at hkey
    exact value_congr target h hkey
  have hempty : target.entries.isEmpty = other.entries.isEmpty := by
    rw [Bool.eq_iff_iff, List.isEmpty_iff_length_eq_zero, List.isEmpty_iff_length_eq_zero,
      h.length_eq]
  simp only [toBpsAllocation, hkeys, hvalues, hempty]

/-- A sleeve with its weight stands at one place of the sorted keys and of their shares. -/
theorem mem_zip {weights : List ℤ} {sleeve : Str × ℤ}
    (h : sleeve ∈ (sortedStrs target.keys).zip weights) :
    ∃ i : ℕ, (sortedStrs target.keys)[i]? = some sleeve.1 ∧ weights[i]? = some sleeve.2 ∧
      (sortedShares target)[i]? = some (target.share sleeve.1) := by
  obtain ⟨i, hi⟩ := List.mem_iff_getElem?.mp h
  obtain ⟨hkey, hweight⟩ := List.getElem?_zip_eq_some.mp hi
  refine ⟨i, hkey, hweight, ?_⟩
  rw [sortedShares, List.getElem?_map, hkey]
  rfl

theorem apportioned_of_seats {weights : List ℤ} (hnonneg : ∀ entry ∈ target.entries, 0 ≤ entry.2)
    (hpos : 0 < target.total) (h : Apportions (sortedShares target)
      (Before (sortedStrs target.keys) (sortedShares target)) 10000 weights) :
    Apportioned target ⟨sortedStrs target.keys, weights⟩ := by
  constructor
  case keys => exact sortedStrs_perm _
  case sorted => exact sortedStrs_sorted _
  case length =>
    rw [h.length, sortedShares, List.length_map]
  case nonneg =>
    apply h.nonneg
    intro share hshare
    obtain ⟨key, hkey, rfl⟩ := List.mem_map.mp hshare
    rw [(sortedStrs_perm target.keys).mem_iff] at hkey
    obtain ⟨entry, hentry, -, hvalue⟩ := value_mem_entries target hkey
    have hweight := hnonneg entry hentry
    rw [Target.share, hvalue]
    positivity
  case sum => exact h.sum
  case near =>
    intro sleeve hsleeve
    obtain ⟨i, -, hweight, hshare⟩ := mem_zip hsleeve
    exact h.near i _ _ hweight hshare
  case largest =>
    intro sleeve hsleeve other hother hmore hless
    obtain ⟨i, hkey, hweight, hshare⟩ := mem_zip hsleeve
    obtain ⟨j, hkey', hweight', hshare'⟩ := mem_zip hother
    have hbefore := h.extra i j _ _ _ _ hweight hshare hweight' hshare' hmore hless
    simp only [Before, List.getD_eq_getElem?_getD, hkey, hkey', hshare, hshare',
      Option.getD_some] at hbefore
    exact hbefore

/-- Every map of non-negative weights with a positive total is apportioned, the same for every
order in which it lists its keys; a negative weight is an error. -/
theorem to_bps_allocation_apportions (target : Target) (hpos : 0 < target.total) :
    ((∀ entry ∈ target.entries, 0 ≤ entry.2) →
      ∃ allocation, toBpsAllocation target = .ok allocation ∧ Apportioned target allocation) ∧
    ((∃ entry ∈ target.entries, entry.2 < 0) →
      toBpsAllocation target = .error "allocation weights must be finite non-negative numbers") ∧
    ∀ other : Target, target.entries.Perm other.entries →
      toBpsAllocation other = toBpsAllocation target := by
  have hentries : target.entries.isEmpty = false := by
    cases hlist : target.entries with
    | nil =>
      rw [Target.total, hlist] at hpos
      exact absurd hpos (lt_irrefl 0)
    | cons entry rest => rfl
  refine ⟨fun hnonneg => ?_, ?_, fun other h => (toBpsAllocation_congr h).symm⟩
  · have hvalues : ((sortedStrs target.keys).map target.value).any (· < 0) = false := by
      rw [List.any_eq_false]
      intro value hvalue
      obtain ⟨key, hkey, rfl⟩ := List.mem_map.mp hvalue
      rw [(sortedStrs_perm target.keys).mem_iff] at hkey
      obtain ⟨entry, hentry, -, heq⟩ := value_mem_entries target hkey
      rw [heq, decide_eq_true_eq, not_lt]
      exact hnonneg entry hentry
    have hseats := apportions_distribute (byFraction_perm (sortedStrs target.keys) _)
      (byFraction_sorted (sortedStrs target.keys) (sortedShares target))
      (by rw [sum_sortedShares hpos]; norm_num : _ = ((10000 : ℤ) : ℚ))
    refine ⟨_, ?_, apportioned_of_seats hnonneg hpos hseats⟩
    rw [weights_eq]
    simp only [hentries, hvalues, Bool.false_eq_true, if_false, not_le.mpr hpos, hseats.sum, ne_eq,
      not_true]
  · rintro ⟨entry, hentry, hneg⟩
    have hvalues : ((sortedStrs target.keys).map target.value).any (· < 0) = true := by
      rw [List.any_eq_true]
      refine ⟨entry.2, ?_, decide_eq_true hneg⟩
      rw [← value_of_mem target hentry]
      apply List.mem_map_of_mem
      rw [(sortedStrs_perm target.keys).mem_iff]
      exact List.mem_map_of_mem hentry
    rw [weights_eq]
    simp only [hentries, hvalues, Bool.false_eq_true, if_false, if_true]

def thirds : Target := ⟨[(js "b", 1), (js "a", 1), (js "c", 1)], by decide⟩

/-- The unit that is left of three equal sleeves goes to the first key. -/
theorem to_bps_allocation_apportions_thirds :
    0 < thirds.total ∧ (∀ entry ∈ thirds.entries, 0 ≤ entry.2) ∧
      toBpsAllocation thirds = .ok ⟨[js "a", js "b", js "c"], [3334, 3333, 3333]⟩ ∧
      ∃ allocation, toBpsAllocation thirds = .ok allocation ∧ Apportioned thirds allocation := by
  have hpos : 0 < thirds.total := by decide +kernel
  have hnonneg : ∀ entry ∈ thirds.entries, 0 ≤ entry.2 := by
    simp [thirds]
  exact ⟨hpos, hnonneg, by decide +kernel, (to_bps_allocation_apportions thirds hpos).1 hnonneg⟩

def overdrawn : Target := ⟨[(js "a", 2), (js "b", -1)], by decide⟩

/-- A negative weight is refused, also where the total is positive. -/
theorem negative_weight_refused : overdrawn.entries ≠ [] ∧ 0 < overdrawn.total ∧
    ¬ ∃ allocation, toBpsAllocation overdrawn = .ok allocation := by
  refine ⟨by simp [overdrawn], by decide +kernel, ?_⟩
  rintro ⟨allocation, h⟩
  have hrefused : toBpsAllocation overdrawn =
      .error "allocation weights must be finite non-negative numbers" := by decide +kernel
  rw [hrefused] at h
  cases h

end Apportionment
end Concordia.Shared.BpsAllocation
