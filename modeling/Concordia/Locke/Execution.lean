import Concordia.Lib.Transition
import Concordia.Python.Canonical

/-! The execution agent: concurrent calls of its execution tool against one consumed
authorization, and the guards in front of the execution receipt. -/
namespace Concordia.Locke
open Concordia.Lib.Transition Concordia.Python
open Concordia.Js hiding Value

section Compact

mutual

/-- `json.dumps(value, separators=(",", ":"))`. -/
def dumpsCompact : Value → Str
  | .none => Json.nullText
  | .bool true => Json.trueText
  | .bool false => Json.falseText
  | .int n => dumpsInt n
  | .float text => text
  | .str s => dumpsStr s
  | .list elements => Json.leftBracket :: dumpsCompactElements elements ++ [Json.rightBracket]
  | .dict items => Json.leftBrace :: dumpsCompactItems items ++ [Json.rightBrace]

def dumpsCompactElements : List Value → Str
  | [] => []
  | [v] => dumpsCompact v
  | v :: rest => dumpsCompact v ++ Json.comma :: dumpsCompactElements rest

def dumpsCompactItems : List (Str × Value) → Str
  | [] => []
  | [(key, v)] => dumpsStr key ++ Json.colon :: dumpsCompact v
  | (key, v) :: rest =>
    dumpsStr key ++ Json.colon :: dumpsCompact v ++ Json.comma :: dumpsCompactItems rest

end

end Compact

/-- Action id, target and canonical parameter text. -/
abbrev Key := Str × Str × Str

def canonicalActionKey (actionId target : Str) (parameters : Value) : Key :=
  (actionId, target, dumpsCompact (sortKeys parameters))

/-- `parameters if isinstance(parameters, dict) else {}`. -/
def orEmpty : Value → Value
  | .dict items => .dict items
  | _ => .dict []

/-- One approved action of the authorization. -/
structure Envelope where
  actionId : Str
  target : Str
  parameters : Value

def Envelope.key (e : Envelope) : Key :=
  canonicalActionKey e.actionId e.target (orEmpty e.parameters)

inductive Status where
  | success
  | alreadyApplied
  | dryRunSuccess
  | skipped
  | failed
  | error
  | unknown
  deriving DecidableEq, Repr

/-- What the chain adapter comes back with; an exception of its is the status `error`. -/
structure Outcome where
  status : Status
  transactionHash : Option Str
  deriving DecidableEq

/-- An entry of `actions_taken`. -/
structure Action where
  actionId : Str
  target : Str
  parameters : Value
  status : Status
  transactionHash : Option Str

namespace Action

def key (a : Action) : Key := canonicalActionKey a.actionId a.target (orEmpty a.parameters)

def succeeded (a : Action) : Bool := a.status = .success || a.status = .alreadyApplied

def hasFailed (a : Action) : Bool := a.status = .failed || a.status = .error || a.status = .unknown

/-- `bool(transaction_hash) and status in {"success", "already_applied"}`. -/
def verified (a : Action) : Bool := a.transactionHash.any (!·.isEmpty) && a.succeeded

end Action

/-- The `ExecutionContext` of one consumed authorization. -/
structure Context where
  envelopes : List Envelope
  actionsTaken : List Action
  inFlightActions : Finset Key

def Context.approvedKeys (c : Context) : List Key := c.envelopes.map Envelope.key

def receiptAction : Str := js "execute_casper_governance_receipt"

def allowedActions : List Str := [receiptAction]

/-- A call past the guards, as it awaits the chain adapter. -/
structure Request where
  actionId : Str
  target : Str
  parameters : Value

namespace Request

def key (r : Request) : Key := canonicalActionKey r.actionId r.target r.parameters

/-- The result of `_perform_governance_execution_action`. -/
def record (r : Request) (o : Outcome) : Action where
  actionId := r.actionId
  target := r.target
  parameters := r.parameters
  status := o.status
  transactionHash := o.transactionHash

end Request

section Guards
variable (floats : FloatFormat)

/-- `json.loads(parameters) if isinstance(parameters, str) else parameters`. -/
def parsedParameters (actionId : Str) : Value → Except Str Value
  | .str text => match loads floats text with
    | some v => .ok v
    | none => .error (js "Malformed parameter JSON for " ++ actionId ++ js ". Execution refused.")
  | v => .ok v

def requestedParameters (actionId : Str) (parameters : Value) : Except Str Value := do
  match ← parsedParameters floats actionId parameters with
  | .dict items => .ok (.dict items)
  | _ => .error (js "Action parameters must be a JSON object. Execution refused.")

/-- `execute_governance_execution` up to its first await. -/
def executeGovernanceExecution (ctx : Context) (actionId target : Str) (parameters : Value) :
    Except Str Request := do
  if ctx.envelopes.isEmpty then
    .error (js "No approved envelopes in execution context. " ++
      js "Authorization required before execution.")
  else if actionId ∉ allowedActions then
    .error (js "Action '" ++ actionId ++
      js "' is not in the allowed action set. Execution refused.")
  else
    let requested ← requestedParameters floats actionId parameters
    let requestedKey := canonicalActionKey actionId target requested
    if requestedKey ∉ ctx.approvedKeys then
      if ctx.envelopes.any fun e => e.actionId = actionId && e.target = target then
        .error (js "Parameter mismatch for " ++ actionId ++ js " on " ++ target ++
          js ". Execution refused; submit a new plan.")
      else
        .error (js "Action " ++ actionId ++ js " on " ++ target ++
          js " is not in the approved execution envelopes. Execution refused.")
    else if (ctx.actionsTaken.any fun a => a.key = requestedKey && a.succeeded) ∨
        requestedKey ∈ ctx.inFlightActions then
      .error (js "Action " ++ actionId ++ js " on " ++ target ++
        js " is already executed or in progress. Duplicate execution refused.")
    else .ok ⟨actionId, target, requested⟩

/-- Why `submit_action_receipt` refuses, with what its message lists. -/
inductive ReceiptRefusal where
  | noActions
  | failedActions (ids : List Str)
  | envelopeMismatch (missing extra : Multiset Key)
  | transactionMissing
  | unverified

/-- The guards of `submit_action_receipt`. -/
def receiptGuards (ctx : Context) : Except ReceiptRefusal Unit :=
  let failedActions := ctx.actionsTaken.filter Action.hasFailed
  let approvedCounts : Multiset Key := ctx.approvedKeys
  let executedCounts : Multiset Key :=
    ((ctx.actionsTaken.filter Action.succeeded).map Action.key : List Key)
  let casperActions := ctx.actionsTaken.filter fun a => a.actionId = receiptAction
  if ctx.actionsTaken.isEmpty then .error .noActions
  else if ¬ failedActions.isEmpty then .error (.failedActions (failedActions.map Action.actionId))
  else if ¬ ctx.envelopes.isEmpty ∧ approvedCounts ≠ executedCounts then
    .error (.envelopeMismatch (approvedCounts - executedCounts) (executedCounts - approvedCounts))
  else if ¬ casperActions.isEmpty then
    if casperActions.all Action.verified then .ok () else .error .transactionMissing
  else if ctx.actionsTaken.all fun a => a.succeeded || a.status = .skipped then .ok ()
  else .error .unverified

/-- The context together with the calls that are awaiting the adapter. -/
structure State where
  ctx : Context
  running : List Request

/-- A fresh context over the authorization's envelopes. -/
def State.start (envelopes : List Envelope) : State := ⟨⟨envelopes, [], ∅⟩, []⟩

inductive Event where
  /-- A call of the tool, up to its first await. -/
  | call (actionId target : Str) (parameters : Value)
  /-- The adapter finishes the running call at this place. -/
  | finish (place : Nat) (outcome : Outcome)
  /-- The running call is cancelled: it leaves no record. -/
  | cancel (place : Nat)

def State.enter (s : State) (r : Request) : State where
  ctx := { s.ctx with inFlightActions := insert r.key s.ctx.inFlightActions }
  running := s.running ++ [r]

/-- `finally: in_flight_actions.discard(requested_key)`. -/
def State.leave (s : State) (place : Nat) (r : Request) : State where
  ctx := { s.ctx with inFlightActions := s.ctx.inFlightActions.erase r.key }
  running := s.running.eraseIdx place

def State.recorded (s : State) (a : Action) : State :=
  { s with ctx := { s.ctx with actionsTaken := s.ctx.actionsTaken ++ [a] } }

def step (s : State) : Event → Option State
  | .call actionId target parameters =>
    (executeGovernanceExecution floats s.ctx actionId target parameters).toOption.map s.enter
  | .finish place outcome =>
    s.running[place]?.map fun r => (s.leave place r).recorded (r.record outcome)
  | .cancel place => s.running[place]?.map (s.leave place)

variable {floats} {ctx : Context} {actionId target : Str} {parameters : Value} {r : Request}

/-- The key a call of the tool asks for. -/
def callKey (floats : FloatFormat) (actionId target : Str) (parameters : Value) : Option Key :=
  (requestedParameters floats actionId parameters).toOption.map (canonicalActionKey actionId target)

theorem requestedParameters_dict {v : Value}
    (h : requestedParameters floats actionId parameters = .ok v) : orEmpty v = v := by
  cases hp : parsedParameters floats actionId parameters with
  | error => simp [requestedParameters, hp, bind, Except.bind] at h
  | ok w =>
    simp only [requestedParameters, hp, bind, Except.bind] at h
    split at h
    · rw [← Except.ok.inj h]
      rfl
    · cases h

/-- What a call is checked for before it reaches the adapter. -/
structure Admitted (floats : FloatFormat) (ctx : Context) (actionId target : Str)
    (parameters : Value) (r : Request) : Prop where
  asked : callKey floats actionId target parameters = some r.key
  object : orEmpty r.parameters = r.parameters
  approved : r.key ∈ ctx.approvedKeys
  unfinished : ∀ a ∈ ctx.actionsTaken, a.succeeded = true → a.key ≠ r.key
  alone : r.key ∉ ctx.inFlightActions

theorem executeGovernanceExecution_ok
    (h : executeGovernanceExecution floats ctx actionId target parameters = .ok r) :
    Admitted floats ctx actionId target parameters r := by
  unfold executeGovernanceExecution at h
  split at h
  · cases h
  split at h
  · cases h
  simp only [bind, Except.bind] at h
  split at h
  · cases h
  rename_i v hv
  split at h
  · split at h <;> cases h
  rename_i happroved
  split at h
  · cases h
  rename_i hguard
  obtain rfl := Except.ok.inj h
  obtain ⟨hfresh, halone⟩ := not_or.mp hguard
  refine ⟨?_, requestedParameters_dict hv, not_not.mp happroved, ?_, halone⟩
  · simp [callKey, hv, Except.toOption, Request.key]
  · intro a ha hsucceeded hkey
    refine hfresh (List.any_eq_true.mpr ⟨a, ha, ?_⟩)
    rw [hsucceeded, Bool.and_true]
    exact decide_eq_true hkey

/-- The record of a call is filed under the key it was admitted with. -/
theorem Request.record_key (h : orEmpty r.parameters = r.parameters) (o : Outcome) :
    (r.record o).key = r.key := by
  simp [Action.key, Request.record, Request.key, h]

end Guards

/-- The invariant of the guards: what is running is approved, alone with its key, marked as in
flight and not done already; and only approved actions are on record. -/
structure Guarded (envelopes : List Envelope) (s : State) : Prop where
  envelopes_eq : s.ctx.envelopes = envelopes
  approved : ∀ r ∈ s.running, r.key ∈ envelopes.map Envelope.key
  objects : ∀ r ∈ s.running, orEmpty r.parameters = r.parameters
  distinct : (s.running.map Request.key).Nodup
  inFlight : ∀ k, k ∈ s.ctx.inFlightActions ↔ k ∈ s.running.map Request.key
  unfinished : ∀ a ∈ s.ctx.actionsTaken, a.succeeded = true → a.key ∉ s.running.map Request.key
  taken : ∀ a ∈ s.ctx.actionsTaken, a.key ∈ envelopes.map Envelope.key

section Runs
variable {floats : FloatFormat} {envelopes : List Envelope} {s t : State} {e : Event}
  {log : List Event} {r : Request} {place : Nat}

theorem Guarded.start : Guarded envelopes (.start envelopes) := by
  refine ⟨rfl, ?_, ?_, ?_, ?_, ?_, ?_⟩ <;> simp [State.start]

theorem Guarded.enter (hg : Guarded envelopes s) {actionId target : Str} {parameters : Value}
    (ha : Admitted floats s.ctx actionId target parameters r) : Guarded envelopes (s.enter r) := by
  have hout : r.key ∉ s.running.map Request.key := fun hm => ha.alone ((hg.inFlight _).mpr hm)
  have hkeys : (s.enter r).running.map Request.key = s.running.map Request.key ++ [r.key] := by
    simp [State.enter]
  have happroved : r.key ∈ envelopes.map Envelope.key := by
    rw [← hg.envelopes_eq]
    exact ha.approved
  refine ⟨hg.envelopes_eq, ?_, ?_, ?_, ?_, ?_, hg.taken⟩
  · intro q hq
    rcases List.mem_append.mp hq with hold | hnew
    · exact hg.approved q hold
    · rw [List.mem_singleton.mp hnew]
      exact happroved
  · intro q hq
    rcases List.mem_append.mp hq with hold | hnew
    · exact hg.objects q hold
    · rw [List.mem_singleton.mp hnew]
      exact ha.object
  · rw [hkeys]
    exact List.Nodup.append hg.distinct (List.nodup_singleton _) (by simpa using hout)
  · intro k
    rw [hkeys]
    simp only [State.enter, Finset.mem_insert, List.mem_append, List.mem_singleton, hg.inFlight]
    exact or_comm
  · intro a hmem hsucceeded
    rw [hkeys]
    simp only [List.mem_append, List.mem_singleton, not_or]
    exact ⟨hg.unfinished a hmem hsucceeded, ha.unfinished a hmem hsucceeded⟩

/-- The keys still running after a call has left. -/
theorem Guarded.mem_leave (hg : Guarded envelopes s) (hr : s.running[place]? = some r) (k : Key) :
    k ∈ (s.leave place r).running.map Request.key ↔ k ≠ r.key ∧ k ∈ s.running.map Request.key := by
  have hkey : (s.running.map Request.key)[place]? = some r.key := by simp [hr]
  obtain ⟨hlt, hget⟩ := List.getElem?_eq_some_iff.mp hkey
  rw [State.leave, ← List.eraseIdx_map, ← hg.distinct.erase_getElem place hlt, hget,
    hg.distinct.mem_erase_iff]

theorem Guarded.leave (hg : Guarded envelopes s) (hr : s.running[place]? = some r) :
    Guarded envelopes (s.leave place r) := by
  have hsub := List.eraseIdx_sublist s.running place
  refine ⟨hg.envelopes_eq, fun q hq => hg.approved q (hsub.subset hq),
    fun q hq => hg.objects q (hsub.subset hq), ?_, ?_, ?_, hg.taken⟩
  · exact (hsub.map Request.key).nodup hg.distinct
  · intro k
    rw [hg.mem_leave hr]
    simp only [State.leave, Finset.mem_erase, hg.inFlight]
  · intro a hmem hsucceeded hk
    exact hg.unfinished a hmem hsucceeded ((hg.mem_leave hr _).mp hk).2

theorem Guarded.recorded (hg : Guarded envelopes s) {a : Action}
    (happroved : a.key ∈ envelopes.map Envelope.key)
    (ha : a.succeeded = true → a.key ∉ s.running.map Request.key) :
    Guarded envelopes (s.recorded a) := by
  refine ⟨hg.envelopes_eq, hg.approved, hg.objects, hg.distinct, hg.inFlight, ?_, ?_⟩
  · intro b hb hsucceeded
    rcases List.mem_append.mp hb with hold | hnew
    · exact hg.unfinished b hold hsucceeded
    · obtain rfl := List.mem_singleton.mp hnew
      exact ha hsucceeded
  · intro b hb
    rcases List.mem_append.mp hb with hold | hnew
    · exact hg.taken b hold
    · rw [List.mem_singleton.mp hnew]
      exact happroved

theorem step_call {actionId target : Str} {parameters : Value}
    (h : step floats s (.call actionId target parameters) = some t) :
    ∃ r, Admitted floats s.ctx actionId target parameters r ∧ t = s.enter r := by
  simp only [Locke.step, Option.map_eq_some_iff] at h
  obtain ⟨r, hr, rfl⟩ := h
  cases hrequest : executeGovernanceExecution floats s.ctx actionId target parameters with
  | error => simp [hrequest, Except.toOption] at hr
  | ok q =>
    obtain rfl : q = r := by simpa [hrequest, Except.toOption] using hr
    exact ⟨q, executeGovernanceExecution_ok hrequest, rfl⟩

theorem step_finish {outcome : Outcome} (h : step floats s (.finish place outcome) = some t) :
    ∃ r, s.running[place]? = some r ∧ t = (s.leave place r).recorded (r.record outcome) := by
  simp only [Locke.step, Option.map_eq_some_iff] at h
  obtain ⟨r, hr, rfl⟩ := h
  exact ⟨r, hr, rfl⟩

theorem step_cancel (h : step floats s (.cancel place) = some t) :
    ∃ r, s.running[place]? = some r ∧ t = s.leave place r := by
  simp only [Locke.step, Option.map_eq_some_iff] at h
  obtain ⟨r, hr, rfl⟩ := h
  exact ⟨r, hr, rfl⟩

theorem Guarded.step (hg : Guarded envelopes s) (h : step floats s e = some t) :
    Guarded envelopes t := by
  cases e with
  | call actionId target parameters =>
    obtain ⟨r, ha, rfl⟩ := step_call h
    exact hg.enter ha
  | finish place outcome =>
    obtain ⟨r, hr, rfl⟩ := step_finish h
    have hmem := List.mem_of_getElem? hr
    have hkey := Request.record_key (hg.objects r hmem) outcome
    refine (hg.leave hr).recorded ?_ fun _ hk => ?_
    · rw [hkey]
      exact hg.approved r hmem
    · rw [hkey] at hk
      exact ((hg.mem_leave hr _).mp hk).1 rfl
  | cancel place =>
    obtain ⟨r, hr, rfl⟩ := step_cancel h
    exact hg.leave hr

theorem accepts_guarded (hg : Guarded envelopes s) (h : Accepts (step floats) s log t) :
    Guarded envelopes t :=
  h.invariant hg fun _ _ _ hv hstep => hv.step hstep

/-- Records stay. -/
theorem accepts_taken {a : Action} (h : Accepts (step floats) s log t)
    (ha : a ∈ s.ctx.actionsTaken) : a ∈ t.ctx.actionsTaken := by
  refine h.invariant (P := fun v => a ∈ v.ctx.actionsTaken) ha ?_
  intro v e w hv hstep
  cases e with
  | call =>
    obtain ⟨r, -, rfl⟩ := step_call hstep
    exact hv
  | finish =>
    obtain ⟨r, -, rfl⟩ := step_finish hstep
    exact List.mem_append_left _ hv
  | cancel =>
    obtain ⟨r, -, rfl⟩ := step_cancel hstep
    exact hv

theorem accepts_call_approved (hg : Guarded envelopes s) (h : Accepts (step floats) s log t)
    {actionId target : Str} {parameters : Value}
    (hmem : .call actionId target parameters ∈ log) :
    ∃ k ∈ envelopes.map Envelope.key, callKey floats actionId target parameters = some k := by
  obtain ⟨before, after, rfl⟩ := List.append_of_mem hmem
  obtain ⟨v, w, hv, hstep, -⟩ := h.split
  obtain ⟨r, ha, -⟩ := step_call hstep
  refine ⟨r.key, ?_, ha.asked⟩
  rw [← (accepts_guarded hg hv).envelopes_eq]
  exact ha.approved

/-- A key on record as done is not submitted again. -/
theorem accepts_call_unfinished {a : Action} (h : Accepts (step floats) s log t)
    (ha : a ∈ s.ctx.actionsTaken) (hsucceeded : a.succeeded = true) {actionId target : Str}
    {parameters : Value} (hmem : .call actionId target parameters ∈ log) :
    callKey floats actionId target parameters ≠ some a.key := by
  obtain ⟨before, after, rfl⟩ := List.append_of_mem hmem
  obtain ⟨v, w, hv, hstep, -⟩ := h.split
  obtain ⟨r, hr, -⟩ := step_call hstep
  rw [hr.asked]
  exact fun heq => hr.unfinished a (accepts_taken hv ha) hsucceeded (Option.some.inj heq).symm

theorem receiptGuards_ok {ctx : Context} (h : receiptGuards ctx = .ok ()) :
    ctx.actionsTaken ≠ [] ∧ (∀ a ∈ ctx.actionsTaken, a.hasFailed = false) ∧
    (ctx.envelopes ≠ [] → (ctx.approvedKeys : Multiset Key) =
      ((ctx.actionsTaken.filter Action.succeeded).map Action.key : List Key)) := by
  unfold receiptGuards at h
  simp only at h
  split at h
  · cases h
  rename_i htaken
  split at h
  · cases h
  rename_i hfailed
  split at h
  · cases h
  rename_i hcounts
  refine ⟨by simpa using htaken, ?_, ?_⟩
  · simpa using hfailed
  · intro henvelopes
    by_contra hne
    exact hcounts ⟨by simpa using henvelopes, hne⟩

end Runs

/-- Over every interleaving of calls and adapter results: only approved keys reach the adapter,
each key is there once at a time and never again after it ended well, a finished call is recorded
under its key, and the receipt guards pass only on the exact multiset of approved actions. -/
theorem exact_envelope_execution (floats : FloatFormat) (envelopes : List Envelope)
    (events : List Event) :
    let s := (run (step floats) (.start envelopes) events).1
    let log := (run (step floats) (.start envelopes) events).2
    let approved := envelopes.map Envelope.key
    (∀ actionId target parameters, .call actionId target parameters ∈ log →
      ∃ k ∈ approved, callKey floats actionId target parameters = some k) ∧
    (∀ r ∈ s.running, r.key ∈ approved) ∧
    (s.running.map Request.key).Nodup ∧
    (∀ place r outcome t, s.running[place]? = some r →
      step floats s (.finish place outcome) = some t →
      ∃ a ∈ t.ctx.actionsTaken, a.key = r.key ∧ a.status = outcome.status) ∧
    (∀ a ∈ s.ctx.actionsTaken, a.succeeded = true → a.key ∉ s.running.map Request.key ∧
      ∀ later actionId target parameters,
        .call actionId target parameters ∈ (run (step floats) s later).2 →
        callKey floats actionId target parameters ≠ some a.key) ∧
    (receiptGuards s.ctx = .ok () → (∀ a ∈ s.ctx.actionsTaken, a.hasFailed = false) ∧
      (approved : Multiset Key) =
        ((s.ctx.actionsTaken.filter Action.succeeded).map Action.key : List Key)) := by
  have haccepts := run_accepts (step floats) (.start envelopes) events
  intro s log approved
  have hg : Guarded envelopes s := accepts_guarded .start haccepts
  refine ⟨fun _ _ _ hmem => accepts_call_approved .start haccepts hmem, hg.approved,
    hg.distinct, ?_, ?_, ?_⟩
  · intro place r outcome t hr hstep
    obtain ⟨q, hq, rfl⟩ := step_finish hstep
    obtain rfl : r = q := Option.some.inj (hr.symm.trans hq)
    refine ⟨r.record outcome, List.mem_append_right _ (List.mem_singleton_self _), ?_, rfl⟩
    exact Request.record_key (hg.objects r (List.mem_of_getElem? hr)) outcome
  · intro a ha hsucceeded
    refine ⟨hg.unfinished a ha hsucceeded, fun later _ _ _ hmem => ?_⟩
    exact accepts_call_unfinished (run_accepts _ _ later) ha hsucceeded hmem
  · intro hok
    obtain ⟨htaken, hfailed, hcounts⟩ := receiptGuards_ok hok
    refine ⟨hfailed, ?_⟩
    have hkeys : s.ctx.approvedKeys = approved := by
      rw [Context.approvedKeys, hg.envelopes_eq]
    rw [← hkeys]
    refine hcounts fun hnone => ?_
    obtain ⟨a, ha⟩ := List.exists_mem_of_ne_nil _ htaken
    have hin := hg.taken a ha
    rw [← hg.envelopes_eq, hnone] at hin
    cases hin

end Concordia.Locke
