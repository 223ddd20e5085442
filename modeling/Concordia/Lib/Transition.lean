import Mathlib.Data.List.Induction
import Mathlib.Tactic

/-! Partial transition functions driven by a list of attempted actions.
A refused action leaves the state alone; the accepted ones are logged in order. -/
namespace Concordia.Lib.Transition

variable {S A : Type*}

/-- One attempt, on a state paired with the log of the accepted actions. -/
def attempt (step : S → A → Option S) (c : S × List A) (a : A) : S × List A :=
  match step c.1 a with
  | some t => (t, c.2 ++ [a])
  | none => c

/-- The state reached, and the accepted actions, after a list of attempts. -/
def run (step : S → A → Option S) (s : S) (actions : List A) : S × List A :=
  actions.foldl (attempt step) (s, [])

/-- `Accepts step s log t`: the actions of `log`, in this order, lead from `s` to `t`. -/
inductive Accepts (step : S → A → Option S) (s : S) : List A → S → Prop
  | start : Accepts step s [] s
  | accept {log : List A} {t u : S} {a : A} :
      Accepts step s log t → step t a = some u → Accepts step s (log ++ [a]) u

variable {step : S → A → Option S} {s t u : S} {log : List A}

theorem attempt_accepts (h : Accepts step s log t) (a : A) :
    Accepts step s (attempt step (t, log) a).2 (attempt step (t, log) a).1 := by
  unfold attempt
  cases hs : step t a with
  | none => simpa [hs] using h
  | some u => simpa [hs] using h.accept hs

theorem foldl_accepts (actions : List A) (h : Accepts step s log t) :
    Accepts step s (actions.foldl (attempt step) (t, log)).2
      (actions.foldl (attempt step) (t, log)).1 := by
  induction actions generalizing t log with
  | nil => exact h
  | cons a actions ih => exact ih (attempt_accepts h a)

/-- Every run is a sequence of accepted actions. -/
theorem run_accepts (step : S → A → Option S) (s : S) (actions : List A) :
    Accepts step s (run step s actions).2 (run step s actions).1 :=
  foldl_accepts actions .start

theorem mem_of_mem_foldl (actions : List A) (c : S × List A) {a : A}
    (h : a ∈ (actions.foldl (attempt step) c).2) : a ∈ c.2 ∨ a ∈ actions := by
  induction actions generalizing c with
  | nil => exact .inl h
  | cons b actions ih =>
    rcases ih _ h with hlog | hrest
    · unfold attempt at hlog
      split at hlog
      · rcases List.mem_append.mp hlog with hold | hnew
        · exact .inl hold
        · exact .inr (List.mem_cons.mpr (.inl (List.mem_singleton.mp hnew)))
      · exact .inl hlog
    · exact .inr (List.mem_cons_of_mem b hrest)

/-- The log of a run holds attempted actions only. -/
theorem mem_of_mem_run {actions : List A} {a : A} (h : a ∈ (run step s actions).2) : a ∈ actions :=
  (mem_of_mem_foldl actions (s, []) h).resolve_left List.not_mem_nil

namespace Accepts

/-- Induction over runs: a property of the start that every accepted step keeps. -/
theorem invariant {P : S → Prop} (h : Accepts step s log t) (start : P s)
    (keep : ∀ v a w, P v → step v a = some w → P w) : P t := by
  induction h with
  | start => exact start
  | accept _ hstep ih => exact keep _ _ _ ih hstep

/-- The same with the log in sight: `P` speaks about the accepted actions as well. -/
theorem history {P : List A → S → Prop} (h : Accepts step s log t) (start : P [] s)
    (keep : ∀ l v a w, P l v → step v a = some w → P (l ++ [a]) w) : P log t := by
  induction h with
  | start => exact start
  | accept _ hstep ih => exact keep _ _ _ _ ih hstep

theorem trans {later : List A} (h : Accepts step s log t) (k : Accepts step t later u) :
    Accepts step s (log ++ later) u := by
  induction k with
  | start => simpa using h
  | accept _ hstep ih => simpa [List.append_assoc] using ih.accept hstep

theorem last {l : List A} {a : A} (h : Accepts step s (l ++ [a]) u) :
    ∃ t, Accepts step s l t ∧ step t a = some u := by
  generalize hm : l ++ [a] = m at h
  cases h with
  | start => simp at hm
  | accept ht hstep =>
    obtain ⟨rfl, hx⟩ := List.append_inj' hm rfl
    obtain rfl := List.singleton_inj.mp hx
    exact ⟨_, ht, hstep⟩

/-- An occurrence in the log splits the run at the step that was taken there. -/
theorem split {before after : List A} {a : A} (h : Accepts step s (before ++ a :: after) u) :
    ∃ v w, Accepts step s before v ∧ step v a = some w ∧ Accepts step w after u := by
  induction after using List.reverseRecOn generalizing u with
  | nil =>
    obtain ⟨v, hv, hstep⟩ := h.last
    exact ⟨v, u, hv, hstep, .start⟩
  | append_singleton after b ih =>
    rw [← List.cons_append, ← List.append_assoc] at h
    obtain ⟨t, ht, hstep⟩ := h.last
    obtain ⟨v, w, hv, ha, hw⟩ := ih ht
    exact ⟨v, w, hv, ha, hw.accept hstep⟩

theorem eq_start (h : Accepts step s [] t) : t = s := by
  generalize hl : ([] : List A) = l at h
  cases h with
  | start => rfl
  | accept => simp at hl

theorem deterministic {l : List A} {v w : S} (h : Accepts step s l v) (k : Accepts step s l w) :
    v = w := by
  induction h generalizing w with
  | start => exact (k.eq_start).symm
  | accept _ hstep ih =>
    obtain ⟨t, ht, hlast⟩ := k.last
    obtain rfl := ih ht
    exact Option.some.inj (hstep.symm.trans hlast)

/-- What every step hands back to the state before it, a run hands back to all of its states. -/
theorem backward {P : S → Prop} {later : List A} {v : S} (h : Accepts step s (log ++ later) t)
    (hv : Accepts step s log v)
    (back : ∀ l x a y, Accepts step s l x → step x a = some y → P y → P x) (ht : P t) : P v := by
  induction later using List.reverseRecOn generalizing t with
  | nil =>
    rw [List.append_nil] at h
    rw [hv.deterministic h]
    exact ht
  | append_singleton later a ih =>
    rw [← List.append_assoc] at h
    obtain ⟨x, hx, hstep⟩ := h.last
    exact ih hx (back _ x a t hx hstep ht)

end Accepts

section Trails
variable {B : Type*} (step) (emit : S → S → List B)

/-- What the accepted actions of a log emit, one after the other. -/
def trail : S → List A → List B
  | _, [] => []
  | s, a :: log => match step s a with
    | some t => emit s t ++ trail t log
    | none => []

variable {step emit}

theorem Accepts.trail_concat {a : A} (h : Accepts step s log t) (hstep : step t a = some u) :
    trail step emit s (log ++ [a]) = trail step emit s log ++ emit t u := by
  induction log generalizing s with
  | nil =>
    obtain rfl := h.eq_start
    simp [trail, hstep]
  | cons b log ih =>
    obtain ⟨v, w, hv, hb, hw⟩ := @Accepts.split _ _ _ _ _ [] log b h
    obtain rfl := hv.eq_start
    rw [List.cons_append, trail, trail, hb]
    simp only
    rw [ih hw, List.append_assoc]

end Trails

/-- Every step of the run satisfies `ok`, in the state where it was taken. -/
def EveryStep (step : S → A → Option S) (s : S) (log : List A) (ok : S → A → Prop) : Prop :=
  ∀ before a after v, log = before ++ a :: after → Accepts step s before v → ok v a

theorem EveryStep.initial {ok : S → A → Prop} {log later : List A}
    (h : EveryStep step s (log ++ later) ok) : EveryStep step s log ok := by
  intro before a after v heq hv
  refine h before a (after ++ later) v ?_ hv
  rw [heq, List.append_assoc, List.cons_append]

/-- `EveryStep`, walked along the log. -/
def everyStep (step : S → A → Option S) (ok : S → A → Prop) [∀ s a, Decidable (ok s a)] :
    S → List A → Bool
  | _, [] => true
  | s, a :: log => decide (ok s a) && (step s a).all fun t => everyStep step ok t log

theorem EveryStep.of_test {ok : S → A → Prop} [∀ s a, Decidable (ok s a)]
    (h : everyStep step ok s log = true) : EveryStep step s log ok := by
  intro before a after v heq hv
  subst heq
  induction before generalizing s with
  | nil =>
    cases hv.eq_start
    exact of_decide_eq_true (Bool.and_eq_true_iff.mp h).1
  | cons b before ih =>
    obtain ⟨u, w, hu, hstep, hw⟩ := @Accepts.split _ _ _ _ _ [] before b hv
    cases hu.eq_start
    obtain ⟨-, hrest⟩ := Bool.and_eq_true_iff.mp h
    rw [hstep] at hrest
    exact ih hw hrest

/-- Induction over the runs whose steps all satisfy `ok`. -/
theorem Accepts.guarded {ok : S → A → Prop} {P : S → Prop} (h : Accepts step s log t)
    (hok : EveryStep step s log ok) (start : P s)
    (keep : ∀ l v a w, Accepts step s l v → P v → ok v a → step v a = some w → P w) : P t := by
  induction h with
  | start => exact start
  | @accept log v w a hrun hstep ih =>
    exact keep log v a w hrun (ih hok.initial) (hok log a [] v rfl hrun) hstep

end Concordia.Lib.Transition
