import Concordia.Lib.Transition
import Mathlib.Algebra.BigOperators.Group.List.Basic

/-! The file-backed daily token budget of the language model calls. Every call rewrites the meter
under the file's lock; the calendar moves on between calls. -/
namespace Concordia.Shared.LlmBudget
open Concordia.Lib.Transition

/-- The record in the meter file; its day starts at nothing used. -/
structure Meter where
  date : Nat
  actualTokens : Nat
  reservedTokens : Nat
  requests : Nat
  limit : Int
  deriving DecidableEq

def Meter.fresh (today : Nat) : Meter where
  date := today
  actualTokens := 0
  reservedTokens := 0
  requests := 0
  limit := 0

inductive BudgetError where
  | limitNotInteger
  | limitNotPositive
  | exceeded (used reserved : Nat) (requested limit : Int)
  deriving DecidableEq

/-- The day a reservation was made on is not kept by the source. -/
structure TokenReservation where
  estimatedTokens : Nat
  limit : Int
  path : String
  committed : Bool
  madeOn : Nat
  deriving DecidableEq

/-- The meter files that have been written, the calendar, and every reservation handed out. -/
structure State where
  meters : String → Option Meter
  today : Nat
  reservations : List TokenReservation

def State.initial (today : Nat) : State where
  meters _ := none
  today := today
  reservations := []

/-- The record the next call finds: yesterday's is replaced before anything is read. -/
def current (stored : Option Meter) (today : Nat) : Meter :=
  match stored with
  | some meter => if meter.date = today then meter else .fresh today
  | none => .fresh today

def mutateMeter (stored : Option Meter) (today : Nat) (limit reserveDelta actualDelta : Int)
    (requestDelta : Nat) (enforce : Bool) : Except BudgetError Meter :=
  let data := current stored today
  if enforce ∧ data.actualTokens + data.reservedTokens + reserveDelta > limit then
    .error (.exceeded data.actualTokens data.reservedTokens reserveDelta limit)
  else .ok { data with
    actualTokens := (data.actualTokens + actualDelta).toNat
    reservedTokens := (data.reservedTokens + reserveDelta).toNat
    requests := data.requests + requestDelta
    limit := limit }

/-- `reserve`, with the limit and the path that the environment holds at this moment. -/
def reserve (s : State) (limit : Option Int) (path : String) (estimatedTokens : Int) :
    Except BudgetError State :=
  match limit with
  | none => .error .limitNotInteger
  | some limit =>
    if limit ≤ 0 then .error .limitNotPositive
    else do
      let estimated := (max 1 estimatedTokens).toNat
      let meter ← mutateMeter (s.meters path) s.today limit estimated 0 0 true
      return { s with
        meters := Function.update s.meters path (some meter)
        reservations := s.reservations ++ [⟨estimated, limit, path, false, s.today⟩] }

/-- `commit` and `release` give the estimate back and leave the reservation closed. -/
def close (s : State) (i : Nat) (r : TokenReservation) (actualDelta : Int) (requestDelta : Nat) :
    Except BudgetError State := do
  let meter ← mutateMeter (s.meters r.path) s.today r.limit (-r.estimatedTokens) actualDelta
    requestDelta false
  return { s with
    meters := Function.update s.meters r.path (some meter)
    reservations := s.reservations.set i { r with committed := true } }

/-- `actual_tokens or self.estimated_tokens`: a count of zero counts as no count. -/
def commit (s : State) (i : Nat) (r : TokenReservation) (actualTokens : Option Int) :
    Except BudgetError State :=
  if r.committed then .ok s
  else
    let actual := match actualTokens with
      | some n => if n = 0 then (r.estimatedTokens : Int) else n
      | none => r.estimatedTokens
    close s i r (max 0 actual) 1

def release (s : State) (i : Nat) (r : TokenReservation) : Except BudgetError State :=
  if r.committed then .ok s else close s i r 0 0

inductive Action where
  | advance (days : Nat)
  | reserve (limit : Option Int) (path : String) (estimatedTokens : Int)
  | commit (i : Nat) (actualTokens : Option Int)
  | release (i : Nat)

/-- A call on a reservation that was handed out, or a change of the day. -/
def step (s : State) : Action → Option State
  | .advance days => some { s with today := s.today + days }
  | .reserve limit path estimatedTokens => (reserve s limit path estimatedTokens).toOption
  | .commit i actualTokens => do
    let r ← s.reservations[i]?
    (commit s i r actualTokens).toOption
  | .release i => do
    let r ← s.reservations[i]?
    (release s i r).toOption

/-- What a reservation holds of the meter at `path` on a day. -/
def TokenReservation.held (r : TokenReservation) (path : String) (today : Nat) : Nat :=
  if r.path = path ∧ r.madeOn = today ∧ r.committed = false then r.estimatedTokens else 0

namespace State

/-- The meter at `path`, as the next call reads it. -/
def meter (s : State) (path : String) : Meter := current (s.meters path) s.today

/-- The estimates of the outstanding reservations of the current date. -/
def outstanding (s : State) (path : String) : Nat :=
  (s.reservations.map fun r => r.held path s.today).sum

end State

/-- The reservation a call closes. -/
def Action.closes (s : State) : Action → Option TokenReservation
  | .commit i _ => s.reservations[i]?
  | .release i => s.reservations[i]?
  | _ => none

/-- An open reservation is closed on the day it was made, or while nothing is held. -/
def Timely (s : State) (a : Action) : Prop :=
  ∀ r, a.closes s = some r → r.committed = false → r.madeOn = s.today ∨ s.outstanding r.path = 0

theorem timely_iff {s : State} {a : Action} :
    (a.closes s).all (fun r => r.committed || r.madeOn == s.today || s.outstanding r.path == 0) =
      true ↔ Timely s a := by
  simp only [Option.all_eq_true, Bool.or_eq_true, beq_iff_eq, Timely]
  refine forall_congr' fun r => imp_congr_right fun _ => ?_
  cases r.committed <;> simp

instance (s : State) (a : Action) : Decidable (Timely s a) := decidable_of_iff _ timely_iff

section Effects
variable {s t : State} {path : String}

def State.withReservation (s : State) (limit : Int) (path : String) (estimated : Nat) : State :=
  { s with
    meters := Function.update s.meters path (some { s.meter path with
      reservedTokens := (s.meter path).reservedTokens + estimated
      limit := limit })
    reservations := s.reservations ++ [⟨estimated, limit, path, false, s.today⟩] }

def State.withClosed (s : State) (i : Nat) (r : TokenReservation) (actual requests : Nat) : State :=
  { s with
    meters := Function.update s.meters r.path (some { s.meter r.path with
      actualTokens := (s.meter r.path).actualTokens + actual
      reservedTokens := (s.meter r.path).reservedTokens - r.estimatedTokens
      requests := (s.meter r.path).requests + requests
      limit := r.limit })
    reservations := s.reservations.set i { r with committed := true } }

theorem mutateMeter_ok {stored : Option Meter} {today requestDelta : Nat} {m : Meter}
    {limit reserveDelta actualDelta : Int} {enforce : Bool}
    (h : mutateMeter stored today limit reserveDelta actualDelta requestDelta enforce = .ok m) :
    (enforce = true → (current stored today).actualTokens +
      (current stored today).reservedTokens + reserveDelta ≤ limit) ∧
    m = { current stored today with
      actualTokens := ((current stored today).actualTokens + actualDelta).toNat
      reservedTokens := ((current stored today).reservedTokens + reserveDelta).toNat
      requests := (current stored today).requests + requestDelta
      limit := limit } := by
  simp only [mutateMeter] at h
  split_ifs at h with excess
  refine ⟨fun he => ?_, (Except.ok.inj h).symm⟩
  rw [not_and] at excess
  exact not_lt.mp (excess he)

theorem reserve_ok {limit : Option Int} {estimatedTokens : Int}
    (h : reserve s limit path estimatedTokens = .ok t) :
    ∃ l, limit = some l ∧
      (s.meter path).actualTokens + (s.meter path).reservedTokens + max 1 estimatedTokens ≤ l ∧
      t = s.withReservation l path (max 1 estimatedTokens).toNat := by
  have hcast : ((max 1 estimatedTokens).toNat : Int) = max 1 estimatedTokens :=
    Int.toNat_of_nonneg (by omega)
  cases limit with
  | none => cases h
  | some l =>
    simp only [reserve] at h
    split_ifs at h
    cases hm : mutateMeter (s.meters path) s.today l (max 1 estimatedTokens).toNat 0 0 true with
    | error e =>
      rw [hm] at h
      cases h
    | ok m =>
      rw [hm] at h
      obtain ⟨fits, rfl⟩ := mutateMeter_ok hm
      rw [hcast] at fits
      refine ⟨l, rfl, fits rfl, ?_⟩
      rw [← Except.ok.inj h]
      rfl

theorem close_eq (s : State) (i : Nat) (r : TokenReservation) (actual requests : Nat) :
    close s i r actual requests = .ok (s.withClosed i r actual requests) := by
  have hsub : (((s.meter r.path).reservedTokens : Int) + -(r.estimatedTokens : Int)).toNat =
      (s.meter r.path).reservedTokens - r.estimatedTokens := by
    omega
  rw [State.withClosed, ← hsub]
  rfl

theorem commit_ok {i : Nat} {r : TokenReservation} {actualTokens : Option Int}
    (h : commit s i r actualTokens = .ok t) : (r.committed = true ∧ t = s) ∨
      r.committed = false ∧ ∃ actual, t = s.withClosed i r actual 1 := by
  unfold commit at h
  split_ifs at h with committed
  · exact .inl ⟨committed, (Except.ok.inj h).symm⟩
  · refine .inr ⟨by simpa using committed, ?_⟩
    simp only at h
    generalize (match actualTokens with
      | some n => if n = 0 then (r.estimatedTokens : Int) else n
      | none => (r.estimatedTokens : Int)) = actual at h
    rw [← Int.toNat_of_nonneg (le_max_left 0 actual), close_eq] at h
    exact ⟨_, (Except.ok.inj h).symm⟩

theorem release_ok {i : Nat} {r : TokenReservation} (h : release s i r = .ok t) :
    (r.committed = true ∧ t = s) ∨ r.committed = false ∧ t = s.withClosed i r 0 0 := by
  unfold release at h
  split_ifs at h with committed
  · exact .inl ⟨committed, (Except.ok.inj h).symm⟩
  · rw [← Nat.cast_zero, close_eq] at h
    exact .inr ⟨by simpa using committed, (Except.ok.inj h).symm⟩

private theorem ok_of_toOption {e : Except BudgetError State} (h : e.toOption = some t) :
    e = .ok t := by
  cases e with
  | error => cases h
  | ok => exact congrArg Except.ok (Option.some.inj h)

theorem step_cases {a : Action} (h : step s a = some t) :
    (∃ days, a = .advance days ∧ t = { s with today := s.today + days }) ∨
    (∃ l path n, a = .reserve (some l) path n ∧
      (s.meter path).actualTokens + (s.meter path).reservedTokens + max 1 n ≤ l ∧
      t = s.withReservation l path (max 1 n).toNat) ∨
    ∃ i r, a.closes s = some r ∧ s.reservations[i]? = some r ∧
      (r.committed = true ∧ t = s ∨
        r.committed = false ∧ ∃ actual requests, t = s.withClosed i r actual requests) := by
  cases a with
  | advance days => exact .inl ⟨days, rfl, (Option.some.inj h).symm⟩
  | reserve limit path n =>
    obtain ⟨l, rfl, fits, rfl⟩ := reserve_ok (ok_of_toOption h)
    exact .inr (.inl ⟨l, path, n, rfl, fits, rfl⟩)
  | commit i actualTokens =>
    obtain ⟨r, hr, hc⟩ := Option.bind_eq_some_iff.mp h
    refine .inr (.inr ⟨i, r, hr, hr, ?_⟩)
    rcases commit_ok (ok_of_toOption hc) with kept | ⟨opened, actual, ht⟩
    · exact .inl kept
    · exact .inr ⟨opened, actual, 1, ht⟩
  | release i =>
    obtain ⟨r, hr, hc⟩ := Option.bind_eq_some_iff.mp h
    refine .inr (.inr ⟨i, r, hr, hr, ?_⟩)
    rcases release_ok (ok_of_toOption hc) with kept | ⟨opened, ht⟩
    · exact .inl kept
    · exact .inr ⟨opened, 0, 0, ht⟩

end Effects

section Holdings
variable {s : State} {path q : String}

@[simp] theorem current_date (stored : Option Meter) (today : Nat) :
    (current stored today).date = today := by
  unfold current
  split
  · split_ifs with h
    · exact h
    · rfl
  · rfl

theorem current_some {m : Meter} {today : Nat} (h : m.date = today) :
    current (some m) today = m := by
  simp [current, h]

theorem reserved_withReservation (l : Int) (path : String) (n : Nat) :
    ((s.withReservation l path n).meter q).reservedTokens =
      (s.meter q).reservedTokens + if q = path then n else 0 := by
  by_cases h : q = path
  · subst h
    rw [State.meter, State.withReservation]
    simp only [Function.update_self, if_true]
    rw [current_some (by simp [State.meter])]
  · simp [State.meter, State.withReservation, h]

theorem reserved_withClosed (i : Nat) (r : TokenReservation) (actual requests : Nat) :
    ((s.withClosed i r actual requests).meter q).reservedTokens =
      (s.meter q).reservedTokens - if q = r.path then r.estimatedTokens else 0 := by
  by_cases h : q = r.path
  · subst h
    rw [State.meter, State.withClosed]
    simp only [Function.update_self, if_true]
    rw [current_some (by simp [State.meter])]
  · simp [State.meter, State.withClosed, h]

theorem outstanding_withReservation (l : Int) (path : String) (n : Nat) :
    (s.withReservation l path n).outstanding q = s.outstanding q + if q = path then n else 0 := by
  have new : TokenReservation.held ⟨n, l, path, false, s.today⟩ q s.today =
      if q = path then n else 0 := by
    simp [TokenReservation.held, eq_comm]
  rw [← new]
  simp [State.outstanding, State.withReservation]

private theorem sum_set {α : Type} (f : α → Nat) {l : List α} {i : Nat} {x : α}
    (h : l[i]? = some x) (y : α) : ((l.set i y).map f).sum + f x = (l.map f).sum + f y := by
  induction l generalizing i with
  | nil => cases h
  | cons z l ih =>
    cases i with
    | zero =>
      obtain rfl := Option.some.inj h
      simp only [List.set_cons_zero, List.map_cons, List.sum_cons]
      omega
    | succ i =>
      have := ih h
      simp only [List.set_cons_succ, List.map_cons, List.sum_cons]
      omega

/-- Closing a reservation takes what it held off the sum. -/
theorem outstanding_withClosed {i : Nat} {r : TokenReservation} (h : s.reservations[i]? = some r)
    (actual requests : Nat) :
    (s.withClosed i r actual requests).outstanding q + r.held q s.today = s.outstanding q := by
  have closed : TokenReservation.held { r with committed := true } q s.today = 0 := by
    simp [TokenReservation.held]
  have := sum_set (fun r => r.held q s.today) h { r with committed := true }
  rwa [closed, Nat.add_zero] at this

end Holdings

/-- The meters and the reservations of a state agree. -/
structure Balanced (s : State) : Prop where
  dates : ∀ path m, s.meters path = some m → m.date ≤ s.today
  made : ∀ r ∈ s.reservations, r.madeOn ≤ s.today ∧ 0 < r.estimatedTokens
  sum : ∀ path, (s.meter path).reservedTokens = s.outstanding path

section Balance
variable {s t : State} {a : Action}

theorem Balanced.initial (today : Nat) : Balanced (.initial today) where
  dates _ _ h := nomatch h
  made _ h := nomatch h
  sum _ := rfl

theorem Balanced.advance (h : Balanced s) (days : Nat) :
    Balanced { s with today := s.today + days } := by
  refine ⟨fun path m hm => ?_, fun r hr => ?_, fun path => ?_⟩
  · have := h.dates path m hm
    exact this.trans (Nat.le_add_right _ _)
  · obtain ⟨made, pos⟩ := h.made r hr
    exact ⟨made.trans (Nat.le_add_right _ _), pos⟩
  · cases days with
    | zero => exact h.sum path
    | succ days =>
      -- A new day: the old record is replaced, and no reservation is of that day yet.
      have empty : State.outstanding { s with today := s.today + (days + 1) } path = 0 := by
        apply List.sum_eq_zero
        intro n hn
        obtain ⟨r, hr, rfl⟩ := List.mem_map.mp hn
        have := (h.made r hr).1
        rw [TokenReservation.held, if_neg]
        rintro ⟨-, same, -⟩
        simp only at same
        omega
      rw [empty, State.meter]
      cases hm : s.meters path with
      | none => rfl
      | some m =>
        have := h.dates path m hm
        simp only [current]
        rw [if_neg (by omega)]
        rfl

theorem Balanced.reserve (h : Balanced s) (l : Int) (path : String) {n : Nat} (hn : 0 < n) :
    Balanced (s.withReservation l path n) := by
  refine ⟨fun q m hm => ?_, fun r hr => ?_, fun q => ?_⟩
  · by_cases hq : q = path
    · subst hq
      rw [State.withReservation] at hm
      simp only [Function.update_self, Option.some.injEq] at hm
      subst hm
      exact (current_date _ _).le
    · rw [State.withReservation] at hm
      simp only [Function.update_of_ne hq] at hm
      exact h.dates q m hm
  · rcases List.mem_append.mp hr with hr | hr
    · exact h.made r hr
    · obtain rfl := List.mem_singleton.mp hr
      exact ⟨le_rfl, hn⟩
  · rw [reserved_withReservation, outstanding_withReservation, h.sum]

theorem Balanced.close (h : Balanced s) {i : Nat} {r : TokenReservation}
    (hr : s.reservations[i]? = some r) (opened : r.committed = false) (actual requests : Nat)
    (timely : r.madeOn = s.today ∨ s.outstanding r.path = 0) :
    Balanced (s.withClosed i r actual requests) := by
  have hmem : r ∈ s.reservations := List.mem_of_getElem? hr
  refine ⟨fun q m hm => ?_, fun r' hr' => ?_, fun q => ?_⟩
  · by_cases hq : q = r.path
    · subst hq
      rw [State.withClosed] at hm
      simp only [Function.update_self, Option.some.injEq] at hm
      subst hm
      exact (current_date _ _).le
    · rw [State.withClosed] at hm
      simp only [Function.update_of_ne hq] at hm
      exact h.dates q m hm
  · rcases List.mem_or_eq_of_mem_set hr' with hr' | rfl
    · exact h.made r' hr'
    · exact h.made r hmem
  · have hsum := outstanding_withClosed (q := q) hr actual requests
    rw [reserved_withClosed, h.sum]
    by_cases hq : q = r.path
    · subst hq
      rcases timely with same | none
      · have held : r.held r.path s.today = r.estimatedTokens := by
          simp [TokenReservation.held, same, opened]
        rw [if_pos rfl]
        omega
      · omega
    · have held : r.held q s.today = 0 := by
        simp [TokenReservation.held, Ne.symm hq]
      rw [if_neg hq]
      omega

/-- Closed on another day, a reservation takes away what others hold. -/
theorem Balanced.not_close (h : Balanced s) {i : Nat} {r : TokenReservation}
    (hr : s.reservations[i]? = some r) (actual requests : Nat) (late : r.madeOn ≠ s.today)
    (busy : s.outstanding r.path ≠ 0) :
    ((s.withClosed i r actual requests).meter r.path).reservedTokens ≠
      (s.withClosed i r actual requests).outstanding r.path := by
  have hpos := (h.made r (List.mem_of_getElem? hr)).2
  have hsum := outstanding_withClosed (q := r.path) hr actual requests
  have held : r.held r.path s.today = 0 := by
    simp [TokenReservation.held, late]
  rw [reserved_withClosed, h.sum, if_pos rfl]
  omega

theorem Balanced.preserved (h : Balanced s) (timely : Timely s a) (hstep : step s a = some t) :
    Balanced t := by
  rcases step_cases hstep with ⟨days, rfl, rfl⟩ | ⟨l, path, n, rfl, -, rfl⟩ |
    ⟨i, r, hcloses, hr, ⟨-, rfl⟩ | ⟨opened, actual, requests, rfl⟩⟩
  · exact h.advance days
  · exact h.reserve l path (by omega)
  · exact h
  · exact h.close hr opened actual requests (timely r hcloses opened)

/-- What a call that closes `r` does to the meters and to the other reservations. -/
theorem Balanced.closes (h : Balanced s) (timely : Timely s a) (hstep : step s a = some t)
    {r : TokenReservation} (hr : a.closes s = some r) :
    (∀ path, (t.meter path).reservedTokens + r.held path s.today =
      (s.meter path).reservedTokens) ∧
    ∃ i, s.reservations[i]? = some r ∧ ∀ j : Nat, j ≠ i → t.reservations[j]? = s.reservations[j]? := by
  have ht := h.preserved timely hstep
  rcases step_cases hstep with ⟨days, rfl, rfl⟩ | ⟨l, path, n, rfl, -, rfl⟩ |
    ⟨i, r', hcloses, hi, hcase⟩
  · cases hr
  · cases hr
  · obtain rfl : r' = r := Option.some.inj (hcloses.symm.trans hr)
    rcases hcase with ⟨committed, rfl⟩ | ⟨opened, actual, requests, rfl⟩
    · exact ⟨fun path => by simp [TokenReservation.held, committed], i, hi, fun _ _ => rfl⟩
    · refine ⟨fun path => ?_, i, hi, fun j hj => ?_⟩
      · rw [ht.sum, h.sum]
        exact outstanding_withClosed hi actual requests
      · exact List.getElem?_set_ne (Ne.symm hj)

end Balance

/-- While every reservation is closed in time, a meter counts what is outstanding, a call that
closes a reservation takes back its own share only, and a request is admitted within the limit. The
first call that is late and finds another reservation open breaks the count. -/
theorem budget_law {today : Nat} {log : List Action} {t : State}
    (hrun : Accepts step (.initial today) log t)
    (timely : EveryStep step (.initial today) log Timely) :
    (∀ path, (t.meter path).reservedTokens = t.outstanding path) ∧
    (∀ a u r, step t a = some u → a.closes t = some r → Timely t a →
      (∀ path, (u.meter path).reservedTokens + r.held path t.today =
        (t.meter path).reservedTokens) ∧
      ∃ i, t.reservations[i]? = some r ∧
        ∀ j : Nat, j ≠ i → u.reservations[j]? = t.reservations[j]?) ∧
    (∀ limit path n u, step t (.reserve limit path n) = some u → ∃ l, limit = some l ∧
      (t.meter path).actualTokens + t.outstanding path + max 1 n ≤ l) ∧
    (∀ a u, step t a = some u → ¬ Timely t a →
      ∃ path, (u.meter path).reservedTokens ≠ u.outstanding path) := by
  have balanced : Balanced t :=
    hrun.guarded timely (Balanced.initial today) fun _ _ _ _ _ h ht hstep => h.preserved ht hstep
  refine ⟨balanced.sum, fun a u r hstep hr ht => balanced.closes ht hstep hr,
    fun limit path n u hstep => ?_, fun a u hstep late => ?_⟩
  · rcases step_cases hstep with ⟨_, ha, -⟩ | ⟨l, _, _, ha, fits, -⟩ | ⟨_, _, ha, -⟩
    · cases ha
    · cases ha
      rw [balanced.sum] at fits
      exact ⟨l, rfl, fits⟩
    · cases ha
  · obtain ⟨r, hr⟩ := not_forall.mp late
    simp only [Classical.not_imp, not_or] at hr
    obtain ⟨hcloses, opened, late, busy⟩ := hr
    rcases step_cases hstep with ⟨_, rfl, -⟩ | ⟨_, _, _, rfl, -⟩ | ⟨i, r', hcloses', hi, hcase⟩
    · cases hcloses
    · cases hcloses
    · obtain rfl : r' = r := Option.some.inj (hcloses'.symm.trans hcloses)
      rcases hcase with ⟨committed, -⟩ | ⟨-, actual, requests, rfl⟩
      · rw [opened] at committed
        cases committed
      · exact ⟨r'.path, balanced.not_close hi actual requests late busy⟩

/-- A reservation from the day before, and one of the day, on one meter. -/
def midnightCalls : List Action :=
  [.reserve (some 100) "meter" 60, .advance 1, .reserve (some 100) "meter" 50]

def midnight : State := (run step (.initial 0) midnightCalls).1

/-- Released after midnight, the old reservation takes the new one's tokens off the meter, and
another request is admitted over the limit. -/
theorem late_release_overadmits :
    (step midnight (.release 0)).any (fun u =>
      (u.meter "meter").reservedTokens = 0 ∧ u.outstanding "meter" = 50 ∧
        (step u (.reserve (some 100) "meter" 100)).isSome ∧
        ¬ (u.meter "meter").actualTokens + u.outstanding "meter" + 100 ≤ 100) = true := by
  decide +kernel

/-- Each reservation closed on its own day. -/
def timelyCalls : List Action :=
  [.reserve (some 100) "meter" 60, .commit 0 (some 10), .advance 1,
    .reserve (some 100) "meter" 50, .reserve (some 100) "meter" 40]

theorem budget_law_timely :
    let t := (run step (.initial 0) timelyCalls).1
    (t.meter "meter").reservedTokens = t.outstanding "meter" ∧ t.outstanding "meter" = 90 := by
  have timely : everyStep step Timely (.initial 0) (run step (.initial 0) timelyCalls).2 = true := by
    decide +kernel
  exact ⟨(budget_law (run_accepts step _ timelyCalls) (.of_test timely)).1 "meter",
    by decide +kernel⟩

end Concordia.Shared.LlmBudget
