import Mathlib.Algebra.Order.Group.Defs
import Mathlib.Data.List.Induction
import Mathlib.Data.List.Pairwise
import Mathlib.Tactic

/-! A limit on the calls in a sliding window: the calls that were admitted and have not left the
window yet are kept, and a call is admitted while they are fewer than the limit. -/
namespace Concordia.Lib.SlidingWindow

variable {α : Type*} [AddCommGroup α] [LinearOrder α]

/-- What is kept of the hits at a time: nothing older than the window. -/
def prune (length : α) (hits : List α) (now : α) : List α :=
  hits.dropWhile fun hit => hit < now - length

/-- One call: the hits after it, and whether it was admitted. -/
def call (limit : Nat) (length : α) (hits : List α) (now : α) : List α × Bool :=
  let kept := prune length hits now
  if limit ≤ kept.length then (kept, false) else (kept ++ [now], true)

/-- The hits that are kept after some calls, beside all the admitted times. -/
structure History (α : Type*) where
  hits : List α
  admitted : List α

def step (limit : Nat) (length : α) (history : History α) (now : α) : History α :=
  let (hits, admits) := call limit length history.hits now
  ⟨hits, if admits then history.admitted ++ [now] else history.admitted⟩

def run (limit : Nat) (length : α) (times : List α) : History α :=
  times.foldl (step limit length) ⟨[], []⟩

/-- The calls that follow on some hits, each with whether it was admitted. -/
def answers (limit : Nat) (length : α) : List α → List α → List (α × Bool)
  | _, [] => []
  | hits, now :: times =>
    let (next, admits) := call limit length hits now
    (now, admits) :: answers limit length next times

/-- The admitted times from `start` to the end of the window that starts there. -/
def within (length start : α) (times : List α) : List α :=
  times.filter fun time => start ≤ time ∧ time ≤ start + length

variable {limit : Nat} {length : α} {times : List α} {now : α}

theorem run_append (times : List α) (now : α) :
    run limit length (times ++ [now]) = step limit length (run limit length times) now := by
  rw [run, run, List.foldl_append, List.foldl_cons, List.foldl_nil]

theorem call_refused {hits : List α} (h : limit ≤ (prune length hits now).length) :
    call limit length hits now = (prune length hits now, false) := by
  simp only [call, h, if_true]

theorem call_admitted {hits : List α} (h : ¬ limit ≤ (prune length hits now).length) :
    call limit length hits now = (prune length hits now ++ [now], true) := by
  simp only [call, h, if_false]

theorem admitted_append (times : List α) (now : α) :
    (run limit length (times ++ [now])).admitted = (run limit length times).admitted ++
      if (call limit length (run limit length times).hits now).2 then [now] else [] := by
  rw [run_append]
  dsimp only [step]
  split <;> simp

theorem admitted_sublist (times : List α) :
    ((run limit length times).admitted).Sublist times := by
  induction times using List.reverseRecOn with
  | nil => exact List.Sublist.refl []
  | append_singleton times now ih =>
    rw [admitted_append]
    apply List.Sublist.append ih
    split
    · exact List.Sublist.refl _
    · exact List.nil_sublist _

/-- On sorted hits, dropping the first ones that are too old is keeping the others. -/
theorem prune_sorted {hits : List α} (h : hits.Pairwise (· ≤ ·)) (now : α) :
    prune length hits now = hits.filter fun hit => now - length ≤ hit := by
  induction hits with
  | nil => rfl
  | cons hit hits ih =>
    rw [List.pairwise_cons] at h
    rw [prune, List.dropWhile_cons, List.filter_cons]
    by_cases hold : hit < now - length
    · have hnot : ¬ now - length ≤ hit := not_le.mpr hold
      simp only [hold, hnot, decide_true, decide_false, if_true, Bool.false_eq_true, if_false]
      exact ih h.2
    · have hkeep : now - length ≤ hit := not_lt.mp hold
      have hall : ∀ other ∈ hits, decide (now - length ≤ other) = true := by
        intro other hmem
        exact decide_eq_true (hkeep.trans (h.1 other hmem))
      simp only [hold, hkeep, decide_false, decide_true, if_true, Bool.false_eq_true, if_false,
        List.filter_eq_self.mpr hall]

variable [IsOrderedAddMonoid α]

/-- The hits that are kept are the admitted times that are not too old for the last call. -/
theorem hits_eq (h : (times ++ [now]).Pairwise (· ≤ ·)) :
    prune length (run limit length times).hits now =
      (run limit length times).admitted.filter fun time => now - length ≤ time := by
  induction times using List.reverseRecOn generalizing now with
  | nil => rfl
  | append_singleton times last ih =>
    have hlast : (times ++ [last]).Pairwise (· ≤ ·) := (List.pairwise_append.mp h).1
    have hle : last ≤ now :=
      (List.pairwise_append.mp h).2.2 last (by simp) now (by simp)
    have hkept := ih hlast
    have hsorted : ((run limit length times).admitted).Pairwise (· ≤ ·) :=
      (List.pairwise_append.mp hlast).1.sublist (admitted_sublist times)
    have hbefore : ∀ time ∈ (run limit length times).admitted, time ≤ last := by
      intro time hmem
      exact (List.pairwise_append.mp hlast).2.2 time ((admitted_sublist times).subset hmem) last
        (by simp)
    -- what is not too old now was not too old at the last call
    have hnarrow : ((run limit length times).admitted.filter fun time => last - length ≤ time).filter
        (fun time => now - length ≤ time) =
        (run limit length times).admitted.filter fun time => now - length ≤ time := by
      rw [List.filter_filter]
      apply List.filter_congr
      intro time _
      have hcut : last - length ≤ now - length := sub_le_sub_right hle length
      by_cases hnow : now - length ≤ time
      · simp [hnow, hcut.trans hnow]
      · simp [hnow]
    have hfiltered := hsorted.filter fun time => last - length ≤ time
    by_cases hfull : limit ≤ (prune length (run limit length times).hits last).length
    · rw [run_append, step, call_refused hfull]
      simp only [Bool.false_eq_true, if_false]
      rw [hkept, prune_sorted hfiltered, hnarrow]
    · rw [run_append, step, call_admitted hfull]
      simp only [if_true]
      have hnext : ((run limit length times).admitted.filter
          (fun time => last - length ≤ time) ++ [last]).Pairwise (· ≤ ·) := by
        rw [List.pairwise_append]
        refine ⟨hfiltered, List.pairwise_singleton _ _, ?_⟩
        intro time hmem other hother
        rw [List.mem_singleton.mp hother]
        exact hbefore time (List.mem_of_mem_filter hmem)
      rw [hkept, prune_sorted hnext, List.filter_append, List.filter_append, hnarrow]

/-- A call is refused exactly when the window that ends with it is full. -/
theorem call_refused_iff (limit : Nat) (length : α) (h : (times ++ [now]).Pairwise (· ≤ ·)) :
    (call limit length (run limit length times).hits now).2 = false ↔
      limit ≤ (within length (now - length) (run limit length times).admitted).length := by
  have hbefore : ∀ time ∈ (run limit length times).admitted, time ≤ now := by
    intro time hmem
    exact (List.pairwise_append.mp h).2.2 time ((admitted_sublist times).subset hmem) now (by simp)
  have hwindow : within length (now - length) (run limit length times).admitted =
      prune length (run limit length times).hits now := by
    rw [hits_eq h]
    apply List.filter_congr
    intro time hmem
    simp [sub_add_cancel, hbefore time hmem]
  rw [hwindow]
  by_cases hfull : limit ≤ (prune length (run limit length times).hits now).length
  · simp [call_refused hfull, hfull]
  · simp [call_admitted hfull, hfull]

/-- No window holds more admitted calls than the limit. -/
theorem within_le_limit (limit : Nat) (length : α) (h : times.Pairwise (· ≤ ·)) (start : α) :
    (within length start (run limit length times).admitted).length ≤ limit := by
  induction times using List.reverseRecOn with
  | nil => exact Nat.zero_le _
  | append_singleton times now ih =>
    have hbound := ih (List.pairwise_append.mp h).1
    rw [admitted_append]
    cases hadmits : (call limit length (run limit length times).hits now).2 with
    | false => simpa using hbound
    | true =>
      simp only [if_true, within, List.filter_append, List.length_append]
      by_cases hin : start ≤ now ∧ now ≤ start + length
      · -- the window ends after the call, so that its other members were in the window then
        have hroom : ¬ limit ≤
            (within length (now - length) (run limit length times).admitted).length := by
          intro hfull
          rw [(call_refused_iff limit length h).mpr hfull] at hadmits
          cases hadmits
        have hbefore : ∀ time ∈ (run limit length times).admitted, time ≤ now := by
          intro time hmem
          exact (List.pairwise_append.mp h).2.2 time ((admitted_sublist times).subset hmem) now
            (by simp)
        have hsub : ((run limit length times).admitted.filter
            fun time => start ≤ time ∧ time ≤ start + length).length ≤
            (within length (now - length) (run limit length times).admitted).length := by
          simp only [within, ← List.countP_eq_length_filter]
          apply List.countP_mono_left
          intro time hmem htime
          have hstart : now - length ≤ start := sub_le_iff_le_add.mpr hin.2
          simp only [decide_eq_true_eq, sub_add_cancel] at htime ⊢
          exact ⟨hstart.trans htime.1, hbefore time hmem⟩
        have hone : ([now].filter fun time => start ≤ time ∧ time ≤ start + length).length = 1 := by
          simp [hin]
        omega
      · have hnone : ([now].filter fun time => start ≤ time ∧ time ≤ start + length).length = 0 := by
          simp [hin]
        have hbound' : ((run limit length times).admitted.filter
            fun time => start ≤ time ∧ time ≤ start + length).length ≤ limit := hbound
        omega

end Concordia.Lib.SlidingWindow
