import Mathlib.Tactic

/-! Chains of rows, each of which fits behind the hash of the one before it. -/
namespace Concordia.Lib.HashChain

variable {R H : Type*} (hash : R → H) (Fits : Nat → Option H → R → Prop)

/-- The rows fit one behind the other, from position `i` on, behind the hash `prev`. -/
def Linked : Nat → Option H → List R → Prop
  | _, _, [] => True
  | i, prev, row :: rows => Fits i prev row ∧ Linked (i + 1) (some (hash row)) rows

/-- The hash that the next row has to fit behind. -/
def lastHash (prev : Option H) (rows : List R) : Option H := (rows.getLast?.map hash).or prev

variable {hash Fits}

theorem lastHash_cons (prev : Option H) (row : R) (rows : List R) :
    lastHash hash prev (row :: rows) = lastHash hash (some (hash row)) rows := by
  cases rows with
  | nil => rfl
  | cons next rows => simp [lastHash, List.getLast?_cons]

theorem linked_append {i : Nat} {prev : Option H} {rows : List R} {row : R} :
    Linked hash Fits i prev (rows ++ [row]) ↔
      Linked hash Fits i prev rows ∧ Fits (i + rows.length) (lastHash hash prev rows) row := by
  induction rows generalizing i prev with
  | nil => simp [Linked, lastHash]
  | cons first rows ih =>
    rw [List.cons_append, Linked, Linked, ih, lastHash_cons, List.length_cons, and_assoc,
      Nat.add_right_comm, Nat.add_assoc]

/-- A change of rows that keeps their hashes and what they fit behind. -/
theorem Linked.map {i : Nat} {prev : Option H} {rows : List R} (h : Linked hash Fits i prev rows)
    (f : R → R) (hhash : ∀ row, hash (f row) = hash row)
    (hfits : ∀ i prev row, Fits i prev row → Fits i prev (f row)) :
    Linked hash Fits i prev (rows.map f) := by
  induction rows generalizing i prev with
  | nil => trivial
  | cons row rows ih =>
    refine ⟨hfits i prev row h.1, ?_⟩
    rw [hhash]
    exact ih h.2

theorem Linked.mono {Fits' : Nat → Option H → R → Prop} {i : Nat} {prev : Option H} {rows : List R}
    (h : Linked hash Fits i prev rows)
    (hfits : ∀ i prev row, row ∈ rows → Fits i prev row → Fits' i prev row) :
    Linked hash Fits' i prev rows := by
  induction rows generalizing i prev with
  | nil => trivial
  | cons row rows ih =>
    exact ⟨hfits i prev row List.mem_cons_self h.1,
      ih h.2 fun i prev r hr => hfits i prev r (List.mem_cons_of_mem _ hr)⟩

/-- What a single row of a chain fits behind. -/
theorem Linked.get {i : Nat} {prev : Option H} {rows : List R} (h : Linked hash Fits i prev rows)
    {j : Nat} {row : R} (hrow : rows[j]? = some row) :
    Fits (i + j) (lastHash hash prev (rows.take j)) row := by
  induction rows generalizing i prev j with
  | nil => simp at hrow
  | cons first rows ih =>
    cases j with
    | zero =>
      obtain rfl : first = row := by simpa using hrow
      exact h.1
    | succ j =>
      have hnext := ih h.2 (by simpa using hrow)
      rwa [List.take_succ_cons, lastHash_cons, ← Nat.add_assoc, Nat.add_right_comm]

theorem Linked.fits_of_mem {i : Nat} {prev : Option H} {rows : List R}
    (h : Linked hash Fits i prev rows) {row : R} (hrow : row ∈ rows) : ∃ j p, Fits j p row := by
  obtain ⟨j, hj, rfl⟩ := List.getElem_of_mem hrow
  exact ⟨_, _, h.get (List.getElem?_eq_getElem hj)⟩

theorem lastHash_concat (prev : Option H) (rows : List R) (row : R) :
    lastHash hash prev (rows ++ [row]) = some (hash row) := by
  rw [lastHash, List.getLast?_concat]
  rfl

/-- A last hash that no two different rows share fixes a whole chain, where a row says what it fits
behind. -/
theorem Linked.eq_of_lastHash {Fits' : Nat → Option H → R → Prop} {i j : Nat} {rows rows' : List R}
    (h : Linked hash Fits i none rows) (h' : Linked hash Fits' j none rows')
    (hplace : ∀ i j prev prev' row, Fits i prev row → Fits' j prev' row → prev = prev')
    (hinj : ∀ row ∈ rows, ∀ row' ∈ rows', hash row = hash row' → row = row')
    (hlast : lastHash hash none rows = lastHash hash none rows') : rows = rows' := by
  induction rows using List.reverseRecOn generalizing rows' with
  | nil =>
    induction rows' using List.reverseRecOn with
    | nil => rfl
    | append_singleton rows' row' _ =>
      rw [lastHash_concat] at hlast
      cases hlast
  | append_singleton rows row ih =>
    induction rows' using List.reverseRecOn with
    | nil =>
      rw [lastHash_concat] at hlast
      cases hlast
    | append_singleton rows' row' _ =>
      rw [lastHash_concat, lastHash_concat, Option.some.injEq] at hlast
      obtain rfl := hinj row (by simp) row' (by simp) hlast
      obtain ⟨hrows, hfits⟩ := linked_append.mp h
      obtain ⟨hrows', hfits'⟩ := linked_append.mp h'
      have hsame := hplace _ _ _ _ _ hfits hfits'
      rw [ih hrows hrows' (fun r hr r' hr' => hinj r (List.mem_append_left _ hr) r'
        (List.mem_append_left _ hr')) hsame]

end Concordia.Lib.HashChain
