import Mathlib.Tactic

/-! Programs over one database connection: queries, statements, explicit transactions and
exceptions, with rules for what holds when a program ends. -/
namespace Concordia.Lib.Transactions

/-- What the connection sees, and what a rollback goes back to while a transaction is open. -/
structure Connection (D : Type) where
  data : D
  saved : Option D

/-- A connection with no open transaction. -/
def idle {D : Type} (d : D) : Connection D := ⟨d, none⟩

@[simp] theorem idle_data {D : Type} (d : D) : (idle d).data = d := rfl

@[simp] theorem idle_saved {D : Type} (d : D) : (idle d).saved = none := rfl

/-- The exceptions that the driver raises. -/
class DriverError (E : Type) where
  operational : E
  integrity : E

/-- A program ends with a result or an exception, and leaves the connection behind. -/
def Program (D E α : Type) : Type := Connection D → Except E α × Connection D

namespace Program
variable {D E α β : Type}

instance : Monad (Program D E) where
  pure a := fun c => (.ok a, c)
  bind p f := fun c =>
    match p c with
    | (.ok a, c) => f a c
    | (.error e, c) => (.error e, c)

def raise (e : E) : Program D E α := fun c => (.error e, c)

/-- `try: body`, `except: handler`. -/
def attempt (body : Program D E α) (handler : E → Program D E α) : Program D E α := fun c =>
  match body c with
  | (.ok a, c) => (.ok a, c)
  | (.error e, c) => handler e c

def select (query : D → α) : Program D E α := fun c => (.ok (query c.data), c)

@[simp] theorem select_bind (query : D → β) (f : β → Program D E α) (c : Connection D) :
    (select query >>= f) c = f (query c.data) c := rfl

def inTransaction : Program D E Bool := fun c => (.ok c.saved.isSome, c)

section Statements
variable [DriverError E]

/-- A statement that writes; `none` is a violated constraint. -/
def execute (statement : D → Option D) : Program D E Unit := fun c =>
  match statement c.data with
  | some d => (.ok (), { c with data := d })
  | none => (.error DriverError.integrity, c)

/-- A statement that writes and tells how many rows it changed. -/
def update (change : D → Nat × D) : Program D E Nat := fun c =>
  (.ok (change c.data).1, { c with data := (change c.data).2 })

def begin : Program D E Unit := fun c =>
  match c.saved with
  | none => (.ok (), { c with saved := some c.data })
  | some _ => (.error DriverError.operational, c)

def commit : Program D E Unit := fun c =>
  match c.saved with
  | some _ => (.ok (), { c with saved := none })
  | none => (.error DriverError.operational, c)

def rollback : Program D E Unit := fun c =>
  match c.saved with
  | some d => (.ok (), ⟨d, none⟩)
  | none => (.error DriverError.operational, c)

end Statements

/-- The program, started on `c`, ends with a result and a connection that satisfy `Q`. -/
def Ends (p : Program D E α) (c : Connection D) (Q : Except E α → Connection D → Prop) : Prop :=
  Q (p c).1 (p c).2

section Rules
variable {c : Connection D} {Q R : Except E α → Connection D → Prop}

theorem Ends.mono {p : Program D E α} (h : Ends p c R) (hQ : ∀ r c', R r c' → Q r c') :
    Ends p c Q :=
  hQ _ _ h

@[simp] theorem ends_pure (a : α) : Ends (pure a : Program D E α) c Q ↔ Q (.ok a) c := Iff.rfl

@[simp] theorem ends_raise (e : E) : Ends (raise e) c Q ↔ Q (.error e) c := Iff.rfl

theorem ends_bind {p : Program D E β} {f : β → Program D E α} :
    Ends (p >>= f) c Q ↔ Ends p c fun r c' =>
      match r with
      | .ok a => Ends (f a) c' Q
      | .error e => Q (.error e) c' := by
  change Q _ _ ↔ _
  simp only [bind, Ends]
  generalize p c = x
  obtain ⟨r, c'⟩ := x
  cases r <;> rfl

@[simp] theorem ends_bind_assoc {γ : Type} {p : Program D E γ} {g : γ → Program D E β}
    {f : β → Program D E α} :
    Ends ((p >>= g) >>= f) c Q ↔ Ends (p >>= fun a => g a >>= f) c Q := by
  rw [ends_bind, ends_bind, ends_bind]
  simp only [Ends]
  generalize p c = x
  obtain ⟨r, c'⟩ := x
  cases r with
  | ok a => exact ends_bind.symm
  | error e => rfl

@[simp] theorem ends_attempt {body : Program D E α} {handler : E → Program D E α} :
    Ends (attempt body handler) c Q ↔ Ends body c fun r c' =>
      match r with
      | .ok a => Q (.ok a) c'
      | .error e => Ends (handler e) c' Q := by
  simp only [attempt, Ends]
  generalize body c = x
  obtain ⟨r, c'⟩ := x
  cases r <;> rfl

@[simp] theorem ends_attempt_bind {body : Program D E β} {handler : E → Program D E β}
    {f : β → Program D E α} :
    Ends (attempt body handler >>= f) c Q ↔ Ends body c fun r c' =>
      match r with
      | .ok a => Ends (f a) c' Q
      | .error e => Ends (handler e >>= f) c' Q := by
  rw [ends_bind, ends_attempt]
  simp only [Ends]
  generalize body c = x
  obtain ⟨r, c'⟩ := x
  cases r with
  | ok a => rfl
  | error e => exact ends_bind.symm

@[simp] theorem ends_pure_bind (a : β) (f : β → Program D E α) :
    Ends (pure a >>= f) c Q ↔ Ends (f a) c Q := Iff.rfl

@[simp] theorem ends_raise_bind (e : E) (f : β → Program D E α) :
    Ends (raise e >>= f) c Q ↔ Q (.error e) c := Iff.rfl

@[simp] theorem ends_select (query : D → α) :
    Ends (select query) c Q ↔ Q (.ok (query c.data)) c := Iff.rfl

@[simp] theorem ends_select_bind (query : D → β) (f : β → Program D E α) :
    Ends (select query >>= f) c Q ↔ Ends (f (query c.data)) c Q := Iff.rfl

@[simp] theorem ends_inTransaction_bind (f : Bool → Program D E α) :
    Ends (inTransaction >>= f) c Q ↔ Ends (f c.saved.isSome) c Q := Iff.rfl

@[simp] theorem ends_update_bind (change : D → Nat × D) (f : Nat → Program D E α) :
    Ends (update change >>= f) c Q ↔
      Ends (f (change c.data).1) ⟨(change c.data).2, c.saved⟩ Q := Iff.rfl

section Statements
variable [DriverError E]

@[simp] theorem ends_execute_bind {statement : D → Option D} {f : Unit → Program D E α} :
    Ends (execute statement >>= f) c Q ↔
      (∀ d, statement c.data = some d → Ends (f ()) ⟨d, c.saved⟩ Q) ∧
        (statement c.data = none → Q (.error DriverError.integrity) c) := by
  rw [ends_bind]
  simp only [execute, Ends]
  cases statement c.data <;> simp

@[simp] theorem ends_begin_bind {d : D} (f : Unit → Program D E α) :
    Ends (begin >>= f) (idle d) Q ↔ Ends (f ()) ⟨d, some d⟩ Q := Iff.rfl

@[simp] theorem ends_commit_bind {d s : D} (f : Unit → Program D E α) :
    Ends (commit >>= f) ⟨d, some s⟩ Q ↔ Ends (f ()) (idle d) Q := Iff.rfl

@[simp] theorem ends_rollback_bind {d s : D} (f : Unit → Program D E α) :
    Ends (rollback >>= f) ⟨d, some s⟩ Q ↔ Ends (f ()) (idle s) Q := Iff.rfl

@[simp] theorem ends_rollback_idle_bind {d : D} (f : Unit → Program D E α) :
    Ends (rollback >>= f) (idle d) Q ↔ Q (.error DriverError.operational) (idle d) := Iff.rfl

variable {Q : Except E Unit → Connection D → Prop}

@[simp] theorem ends_execute {statement : D → Option D} : Ends (execute statement) c Q ↔
    (∀ d, statement c.data = some d → Q (.ok ()) ⟨d, c.saved⟩) ∧
      (statement c.data = none → Q (.error DriverError.integrity) c) := by
  simp only [execute, Ends]
  cases statement c.data <;> simp

@[simp] theorem ends_rollback {d s : D} :
    Ends rollback ⟨d, some s⟩ Q ↔ Q (.ok ()) (idle s) := Iff.rfl

@[simp] theorem ends_rollback_idle {d : D} :
    Ends rollback (idle d) Q ↔ Q (.error DriverError.operational) (idle d) := Iff.rfl

@[simp] theorem ends_commit {d s : D} :
    Ends commit ⟨d, some s⟩ Q ↔ Q (.ok ()) (idle d) := Iff.rfl

end Statements
end Rules

/-- Started idle on `d`, the program ends idle, on data that satisfy `Q` with the result. -/
def Settles (p : Program D E α) (d : D) (Q : Except E α → D → Prop) : Prop :=
  Ends p (idle d) fun r c => c.saved = none ∧ Q r c.data

theorem Settles.mono {p : Program D E α} {d : D} {Q R : Except E α → D → Prop}
    (h : Settles p d R) (hQ : ∀ r d', R r d' → Q r d') : Settles p d Q :=
  ⟨h.1, hQ _ _ h.2⟩

@[simp] theorem settles_pure {d : D} {Q : Except E α → D → Prop} (a : α) :
    Settles (pure a) d Q ↔ Q (.ok a) d := by
  simp [Settles]

@[simp] theorem settles_raise {d : D} {Q : Except E α → D → Prop} (e : E) :
    Settles (raise e) d Q ↔ Q (.error e) d := by
  simp [Settles]

/-- Sequencing: the second program starts idle on what the first one left. -/
theorem Settles.bind {p : Program D E β} {f : β → Program D E α} {d : D}
    {R : Except E β → D → Prop} {Q : Except E α → D → Prop} (h : Settles p d R)
    (hok : ∀ b d', R (.ok b) d' → Settles (f b) d' Q)
    (herror : ∀ e d', R (.error e) d' → Q (.error e) d') : Settles (p >>= f) d Q := by
  unfold Settles
  rw [ends_bind]
  refine Ends.mono h fun r c hc => ?_
  obtain ⟨data, saved⟩ := c
  obtain ⟨rfl, hr⟩ : saved = none ∧ R r data := hc
  cases r with
  | ok b => exact hok b data hr
  | error e => exact ⟨rfl, herror e data hr⟩

/-- The program ends idle: with a result that satisfies `Q`, or with the data that it found. -/
def Atomic (p : Program D E α) (d : D) (Q : α → D → Prop) : Prop :=
  Settles p d fun r d' =>
    match r with
    | .ok a => Q a d'
    | .error _ => d' = d

section Atomic
variable {d : D} {Q : α → D → Prop}

theorem Atomic.ends {p : Program D E α} (h : Atomic p d Q) : Ends p (idle d) fun r c =>
    c.saved = none ∧
      match r with
      | .ok a => Q a c.data
      | .error _ => c.data = d :=
  h

theorem Atomic.mono {p : Program D E α} {R : α → D → Prop} (h : Atomic p d R)
    (hQ : ∀ a d', R a d' → Q a d') : Atomic p d Q := by
  refine Settles.mono h fun r d' hr => ?_
  cases r with
  | ok a => exact hQ a d' hr
  | error e => exact hr

@[simp] theorem atomic_pure (a : α) : Atomic (pure a : Program D E α) d Q ↔ Q a d := by
  simp [Atomic]

@[simp] theorem atomic_raise (e : E) : Atomic (raise e : Program D E α) d Q ↔ True := by
  simp [Atomic]

@[simp] theorem atomic_select_bind (query : D → β) (f : β → Program D E α) :
    Atomic (select query >>= f) d Q ↔ Atomic (f (query d)) d Q := by
  simp [Atomic, Settles]

/-- A program that reads, before another one. -/
theorem Atomic.reads_bind {p : Program D E β} {f : β → Program D E α} {P : β → Prop}
    (h : Atomic p d fun b d' => d' = d ∧ P b) (hf : ∀ b, P b → Atomic (f b) d Q) :
    Atomic (p >>= f) d Q := by
  refine Settles.bind h (fun b d' hb => ?_) fun e d' he => he
  obtain ⟨rfl, hP⟩ := hb
  exact hf b hP

theorem Atomic.map {p : Program D E β} {f : β → α} {R : β → D → Prop} (h : Atomic p d R)
    (hQ : ∀ b d', R b d' → Q (f b) d') : Atomic (p >>= fun b => pure (f b)) d Q := by
  refine Settles.bind h (fun b d' hb => ?_) fun e d' he => he
  rw [settles_pure]
  exact hQ b d' hb

theorem Atomic.bind {p : Program D E β} {f : β → Program D E α} {R : β → D → Prop}
    {Q : Except E α → D → Prop} (h : Atomic p d R)
    (hok : ∀ b d', R b d' → Settles (f b) d' Q) (herror : ∀ e, Q (.error e) d) :
    Settles (p >>= f) d Q := by
  refine Settles.bind h hok fun e d' he => ?_
  obtain rfl : d' = d := he
  exact herror e

end Atomic
end Program
end Concordia.Lib.Transactions
