import Mathlib.Data.List.Sort
import Mathlib.Tactic

/-! Reading a growing log behind a cursor: the entries carry strictly increasing positions, and
the cursor is the position of the last entry read. -/
namespace Concordia.Lib.Cursor

variable {α : Type*} (position : α → Nat)

def Increasing (log : List α) : Prop := log.Pairwise fun a b => position a < position b

def read (cursor : Nat) (log : List α) : List α := log.filter fun a => position a ≤ cursor

def unread (cursor : Nat) (log : List α) : List α := log.filter fun a => cursor < position a

variable {position} {log before after : List α} {cursor : Nat} {a : α}

theorem read_prefix (h : Increasing position log) : read position cursor log <+: log := by
  induction log with
  | nil => exact List.prefix_rfl
  | cons a log ih =>
    obtain ⟨hhead, htail⟩ := List.pairwise_cons.mp h
    by_cases ha : position a ≤ cursor
    · have hread : read position cursor (a :: log) = a :: read position cursor log := by
        simp [read, ha]
      rw [hread]
      exact List.cons_prefix_cons.mpr ⟨rfl, ih htail⟩
    · have hread : read position cursor (a :: log) = [] := by
        apply List.filter_eq_nil_iff.mpr
        intro b hb
        rcases List.mem_cons.mp hb with rfl | hb
        · simpa using ha
        · have := hhead b hb
          simp only [decide_eq_true_eq]
          omega
      rw [hread]
      exact List.nil_prefix

theorem mem_read : a ∈ read position cursor log ↔ a ∈ log ∧ position a ≤ cursor := by
  simp [read]

theorem mem_unread : a ∈ unread position cursor log ↔ a ∈ log ∧ cursor < position a := by
  simp [unread]

theorem Increasing.filter (h : Increasing position log) (p : α → Bool) :
    Increasing position (log.filter p) := List.Pairwise.filter p h

theorem Increasing.nodup (h : Increasing position log) : (log.map position).Nodup :=
  List.pairwise_map.mpr (h.imp fun hlt => Nat.ne_of_lt hlt)

theorem Increasing.concat (h : Increasing position log) (ha : ∀ b ∈ log, position b < position a) :
    Increasing position (log ++ [a]) := by
  apply List.pairwise_append.mpr
  refine ⟨h, List.pairwise_singleton _ _, ?_⟩
  intro b hb c hc
  rw [List.mem_singleton.mp hc]
  exact ha b hb

/-- The first unread entry, once read, is the next of the read ones. -/
theorem read_advance (h : Increasing position log) (hnext : unread position cursor log = a :: after) :
    read position (position a) log = read position cursor log ++ [a] ∧
      unread position (position a) log = after := by
  induction log with
  | nil => simp [unread] at hnext
  | cons b log ih =>
    obtain ⟨hhead, htail⟩ := List.pairwise_cons.mp h
    by_cases hb : cursor < position b
    · have hcons : unread position cursor (b :: log) = b :: unread position cursor log := by
        simp [unread, hb]
      obtain ⟨rfl, hrest⟩ := List.cons.inj (hcons.symm.trans hnext)
      have hlater : ∀ c ∈ log, position b < position c := hhead
      have hall : unread position cursor log = log := by
        apply List.filter_eq_self.mpr
        intro c hc
        have := hlater c hc
        simp only [decide_eq_true_eq]
        omega
      have hstill : unread position (position b) log = log :=
        List.filter_eq_self.mpr fun c hc => decide_eq_true (hlater c hc)
      have hnone : ∀ n, n ≤ position b → read position n log = [] := by
        intro n hn
        apply List.filter_eq_nil_iff.mpr
        intro c hc
        have := hlater c hc
        simp only [decide_eq_true_eq]
        omega
      constructor
      · have hleft : read position (position b) (b :: log) = b :: read position (position b) log := by
          simp [read]
        have hright : read position cursor (b :: log) = read position cursor log := by
          simp [read, Nat.not_le.mpr hb]
        rw [hleft, hright, hnone _ (le_refl _), hnone _ hb.le, List.nil_append]
      · have hleft : unread position (position b) (b :: log) = unread position (position b) log := by
          simp [unread]
        rw [hleft, hstill, ← hrest, hall]
    · have hskip : unread position cursor (b :: log) = unread position cursor log := by
        simp [unread, hb]
      rw [hskip] at hnext
      obtain ⟨hread, hunread⟩ := ih htail hnext
      have hpast : position b < position a := by
        have ha : a ∈ unread position cursor log := hnext ▸ List.mem_cons_self
        have := (mem_unread.mp ha).2
        omega
      constructor
      · simp only [read, List.filter_cons] at hread ⊢
        simp [hread, hpast.le, Nat.not_lt.mp hb]
      · simp only [unread, List.filter_cons] at hunread ⊢
        simp [hunread, Nat.not_lt.mpr hpast.le]

theorem read_concat (ha : cursor < position a) :
    read position cursor (log ++ [a]) = read position cursor log := by
  simp [read, List.filter_append, Nat.not_le.mpr ha]

theorem unread_concat (ha : cursor < position a) :
    unread position cursor (log ++ [a]) = unread position cursor log ++ [a] := by
  simp [unread, List.filter_append, ha]

end Concordia.Lib.Cursor
