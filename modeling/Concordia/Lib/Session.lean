import Mathlib.Tactic

/-! Programs that ask a changing environment: what they return, what they throw, and what
holds of the session they leave behind. -/
namespace Concordia.Lib.Session

/-- A program ends with a result or an exception, and leaves a session behind. -/
def Program (S E α : Type) : Type := S → Except E α × S

namespace Program
variable {S E F α β : Type}

instance : Monad (Program S E) where
  pure a := fun s => (.ok a, s)
  bind p f := fun s =>
    match p s with
    | (.ok a, s) => f a s
    | (.error e, s) => (.error e, s)

def raise (e : E) : Program S E α := fun s => (.error e, s)

/-- `try { body } catch (e) { handler(e) }`. -/
def attempt (body : Program S E α) (handler : E → Program S F α) : Program S F α := fun s =>
  match body s with
  | (.ok a, s) => (.ok a, s)
  | (.error e, s) => handler e s

def lift (outcome : Except E α) : Program S E α := fun s => (outcome, s)

/-- `Promise.all`: every program is run; the first exception in their order is the outcome. -/
def all : List (Program S E α) → Program S E (List α)
  | [] => Pure.pure []
  | p :: programs => fun s =>
    match p s with
    | (.ok a, s) =>
      match all programs s with
      | (.ok rest, s) => (.ok (a :: rest), s)
      | (.error e, s) => (.error e, s)
    | (.error e, s) => (.error e, (all programs s).2)

theorem bind_apply (p : Program S E α) (f : α → Program S E β) (s : S) :
    (p >>= f) s = match p s with
      | (.ok a, s) => f a s
      | (.error e, s) => (.error e, s) := rfl

theorem attempt_apply (body : Program S E α) (handler : E → Program S F α) (s : S) :
    body.attempt handler s = match body s with
      | (.ok a, s) => (.ok a, s)
      | (.error e, s) => handler e s := rfl

/-- Started where `pre` holds, the program ends with a result as in `post` or an exception as in
`failed`. -/
def Ensures (pre : S → Prop) (p : Program S E α) (post : α → S → Prop)
    (failed : E → S → Prop) : Prop :=
  ∀ s, pre s → match p s with
    | (.ok a, s') => post a s'
    | (.error e, s') => failed e s'

section Rules
variable {pre : S → Prop} {post : α → S → Prop} {failed : E → S → Prop}

namespace Ensures

theorem pure {a : α} (h : ∀ s, pre s → post a s) :
    Ensures pre (Pure.pure a : Program S E α) post failed := h

theorem raise {e : E} (h : ∀ s, pre s → failed e s) :
    Ensures pre (Program.raise e : Program S E α) post failed := h

theorem lift {outcome : Except E α} (hok : ∀ a, outcome = .ok a → ∀ s, pre s → post a s)
    (herror : ∀ e, outcome = .error e → ∀ s, pre s → failed e s) :
    Ensures pre (Program.lift outcome) post failed := by
  intro s hs
  cases outcome with
  | ok a => exact hok a rfl s hs
  | error e => exact herror e rfl s hs

theorem bind {p : Program S E α} {f : α → Program S E β} {Q : α → S → Prop}
    {post : β → S → Prop} (hp : Ensures pre p Q failed)
    (hf : ∀ a, Ensures (Q a) (f a) post failed) : Ensures pre (p >>= f) post failed := by
  intro s hs
  have hmid := hp s hs
  rw [bind_apply]
  generalize p s = outcome at hmid ⊢
  obtain ⟨a | a, s'⟩ := outcome
  · exact hmid
  · exact hf a s' hmid

theorem attempt {body : Program S E α} {handler : E → Program S F α} {Q : E → S → Prop}
    {failed : F → S → Prop} (hbody : Ensures pre body post Q)
    (hhandler : ∀ e, Ensures (Q e) (handler e) post failed) :
    Ensures pre (body.attempt handler) post failed := by
  intro s hs
  have hmid := hbody s hs
  rw [attempt_apply]
  generalize body s = outcome at hmid ⊢
  obtain ⟨e | a, s'⟩ := outcome
  · exact hhandler e s' hmid
  · exact hmid

/-- The rule of consequence. -/
theorem mono {p : Program S E α} {pre' : S → Prop} {post' : α → S → Prop}
    {failed' : E → S → Prop} (h : Ensures pre p post failed) (hpre : ∀ s, pre' s → pre s)
    (hpost : ∀ a s, post a s → post' a s) (hfailed : ∀ e s, failed e s → failed' e s) :
    Ensures pre' p post' failed' := by
  intro s hs
  have := h s (hpre s hs)
  split at this
  · exact hpost _ _ this
  · exact hfailed _ _ this

/-- Once a program of the list has failed the others still run. -/
theorem all_cons {p : Program S E α} {programs : List (Program S E α)} {Q : α → S → Prop}
    {R : E → S → Prop} {post : List α → S → Prop} (hp : Ensures pre p Q R)
    (hok : ∀ a, Ensures (Q a) (all programs) (fun rest => post (a :: rest)) failed)
    (herror : ∀ e, Ensures (R e) (all programs) (fun _ => failed e) (fun _ => failed e)) :
    Ensures pre (all (p :: programs)) post failed := by
  intro s hs
  have hmid := hp s hs
  simp only [all]
  generalize p s = outcome at hmid ⊢
  obtain ⟨e | a, s'⟩ := outcome
  · have hrest := herror e s' hmid
    dsimp only
    generalize all programs s' = ended at hrest ⊢
    obtain ⟨e' | rest, s''⟩ := ended
    · exact hrest
    · exact hrest
  · have hrest := hok a s' hmid
    dsimp only
    generalize all programs s' = ended at hrest ⊢
    obtain ⟨e' | rest, s''⟩ := ended
    · exact hrest
    · exact hrest

end Ensures

/-- However it ends, the program leaves the invariant as it was. -/
def Maintains (I : S → Prop) (p : Program S E α) : Prop :=
  Ensures I p (fun _ => I) (fun _ => I)

namespace Maintains
variable {I : S → Prop}

theorem pure {a : α} : Maintains I (Pure.pure a : Program S E α) := Ensures.pure fun _ => id

theorem raise {e : E} : Maintains I (Program.raise e : Program S E α) := Ensures.raise fun _ => id

theorem lift {outcome : Except E α} : Maintains I (Program.lift outcome) :=
  Ensures.lift (fun _ _ _ => id) (fun _ _ _ => id)

theorem bind {p : Program S E α} {f : α → Program S E β} (hp : Maintains I p)
    (hf : ∀ a, Maintains I (f a)) : Maintains I (p >>= f) :=
  Ensures.bind hp hf

theorem attempt {body : Program S E α} {handler : E → Program S F α} (hbody : Maintains I body)
    (hhandler : ∀ e, Maintains I (handler e)) : Maintains I (body.attempt handler) :=
  Ensures.attempt hbody hhandler

/-- What the outcome says is there for the rest of the program. -/
theorem lift_bind {outcome : Except E α} {f : α → Program S E β}
    (hf : ∀ a, outcome = .ok a → Maintains I (f a)) : Maintains I (Program.lift outcome >>= f) := by
  cases outcome with
  | error e => exact raise
  | ok a => exact hf a rfl

theorem all {programs : List (Program S E α)} (h : ∀ p ∈ programs, Maintains I p) :
    Maintains I (Program.all programs) := by
  induction programs with
  | nil => exact pure
  | cons p programs ih =>
    obtain ⟨hp, hprograms⟩ := List.forall_mem_cons.mp h
    exact Ensures.all_cons hp (fun _ => ih hprograms) fun _ => ih hprograms

theorem run {p : Program S E α} (h : Maintains I p) {s : S} (hs : I s) : I (p s).2 := by
  have hend := h s hs
  generalize p s = outcome at hend ⊢
  obtain ⟨e | a, s'⟩ := outcome
  · exact hend
  · exact hend

end Maintains

/-- Whatever the session, the program returns a value in `result`. -/
def Returns (p : Program S E α) (result : α → Prop) : Prop :=
  Ensures (fun _ => True) p (fun a _ => result a) (fun _ _ => False)

/-- Whatever the session, the program throws an exception in `T`. -/
def Raises (p : Program S E α) (T : E → Prop) : Prop :=
  Ensures (fun _ => True) p (fun _ _ => False) (fun e _ => T e)

namespace Returns
variable {result Q : α → Prop}

theorem fst {p : Program S E α} (h : Returns p result) (s : S) :
    ∃ a, (p s).1 = .ok a ∧ result a := by
  have hs := h s trivial
  split at hs
  · rename_i a s' heq
    exact ⟨a, by rw [heq], hs⟩
  · exact hs.elim

theorem of_fst {p : Program S E α} (h : ∀ s, ∃ a, (p s).1 = .ok a ∧ result a) :
    Returns p result := by
  intro s _
  obtain ⟨a, heq, ha⟩ := h s
  split
  · rename_i b s' hs
    rw [hs] at heq
    exact Except.ok.inj heq ▸ ha
  · rename_i e s' hs
    rw [hs] at heq
    cases heq

theorem pure {a : α} (h : result a) : Returns (Pure.pure a : Program S E α) result := fun _ _ => h

theorem lift {outcome : Except E α} {a : α} (heq : outcome = .ok a) (h : result a) :
    Returns (Program.lift outcome : Program S E α) result :=
  of_fst fun _ => ⟨a, heq, h⟩

theorem bind {p : Program S E α} {f : α → Program S E β} {result : β → Prop} (hp : Returns p Q)
    (hf : ∀ a, Q a → Returns (f a) result) : Returns (p >>= f) result :=
  Ensures.bind hp fun a s ha => hf a ha s trivial

theorem map {p : Program S E α} {f : α → β} {result : β → Prop} (hp : Returns p Q)
    (hf : ∀ a, Q a → result (f a)) : Returns (f <$> p) result :=
  bind hp fun a ha => pure (hf a ha)

theorem attempt {body : Program S E α} {handler : E → Program S F α} (h : Returns body result) :
    Returns (body.attempt handler) result :=
  Ensures.attempt h fun _ _ hs => hs.elim

/-- The handler answers for the exceptions. -/
theorem recovered {body : Program S E α} {handler : E → Program S F α} {T : E → Prop}
    (h : Raises body T) (hhandler : ∀ e, T e → Returns (handler e) result) :
    Returns (body.attempt handler) result :=
  Ensures.attempt (h.mono (fun _ => id) (fun _ _ => False.elim) fun _ _ => id)
    fun e s he => hhandler e he s trivial

theorem mono {p : Program S E α} {result' : α → Prop} (h : Returns p result)
    (hresult : ∀ a, result a → result' a) : Returns p result' :=
  Ensures.mono h (fun _ => id) (fun a _ => hresult a) fun _ _ => id

end Returns

namespace Raises
variable {T : E → Prop}

theorem raise {e : E} (h : T e) : Raises (Program.raise e : Program S E α) T :=
  fun _ _ => h

theorem lift {outcome : Except E α} {e : E} (heq : outcome = .error e) (h : T e) :
    Raises (Program.lift outcome : Program S E α) T := by
  subst heq
  exact fun _ _ => h

theorem first {p : Program S E α} {f : α → Program S E β} (h : Raises p T) :
    Raises (p >>= f) T :=
  Ensures.bind h fun _ _ hs => hs.elim

theorem later {p : Program S E α} {f : α → Program S E β} {Q : α → Prop} (hp : Returns p Q)
    (hf : ∀ a, Q a → Raises (f a) T) : Raises (p >>= f) T :=
  Ensures.bind (Q := fun a _ => Q a)
    (Ensures.mono hp (fun _ => id) (fun _ _ => id) fun _ _ => False.elim)
    fun a s ha => hf a ha s trivial

end Raises
end Rules
end Program
end Concordia.Lib.Session
