import Concordia.Locke.Execution
import Concordia.Gateway.Confirmation

/-! The chain adapter in its broadcasting mode, and the execution agent with the chain behind it:
a deploy is assembled, broadcast, and polled for its finality. -/
namespace Concordia.Locke
open Concordia.Lib.Transition Concordia.Python
open Concordia.Gateway (isTrue)
open Concordia.Js hiding Value

section Finality

inductive FinalityStatus where
  | error
  | pending
  | finalized (success : Bool)
  deriving DecidableEq, Repr

/-- `a or b`. -/
def firstTrue (a b : Value) : Value := if isTrue a then a else b

mutual

/-- `_walk_values`: the dictionaries of a value, outermost first. -/
def walkValues : Value → List Dict
  | .dict items => items :: walkItems items
  | .list elements => walkElements elements
  | _ => []

def walkElements : List Value → List Dict
  | [] => []
  | v :: rest => walkValues v ++ walkElements rest

def walkItems : List (Str × Value) → List Dict
  | [] => []
  | (_, v) :: rest => walkValues v ++ walkItems rest

end

/-- The first candidate with an execution result decides, be it `None`. -/
def searchExecutionResult : List Dict → Value
  | [] => .none
  | candidate :: rest =>
    match candidate.lookup (js "execution_result") with
    | some v => v
    | none => match candidate.lookup (js "ExecutionResult") with
      | some v => v
      | none => searchExecutionResult rest

/-- The execution result that a node's `result` carries; no value where the code raises. -/
def executionResult (result : Dict) : Option Value := do
  let info := firstTrue (result.get "execution_info") (result.get "executionInfo")
  let fromInfo ← if isTrue info then
      match info with
      | .dict items =>
        some (firstTrue (Dict.get items "execution_result") (Dict.get items "executionResult"))
      | _ => none
    else some .none
  match fromInfo with
  | .none =>
    return searchExecutionResult (walkValues (firstTrue
      (firstTrue (result.get "deploy") (result.get "transaction")) (.dict result)))
  | v => return v

def versionedResult (executionResult : Dict) : Dict :=
  match executionResult.get "Version2", executionResult.get "version2" with
  | .dict items, _ => items
  | _, .dict items => items
  | _, _ => executionResult

/-- `_extract_finality_status`; no value where the code raises. -/
def extractFinalityStatus : Value → Option FinalityStatus
  | .dict payload =>
    if isTrue (Dict.get payload "error") then some .error
    else match firstTrue (Dict.get payload "result") (.dict []) with
      | .dict result => do
        match ← executionResult result with
        | .none => return .pending
        | .dict items =>
          let versioned := versionedResult items
          let failure := firstTrue (versioned.get "Failure") (versioned.get "failure")
          let message := firstTrue (versioned.get "error_message") (versioned.get "errorMessage")
          return .finalized (!isTrue failure && !isTrue message)
        | _ => return .finalized true
      | _ => none
  | _ => none

/-- `await_casper_finality` over the replies to its queries, in their order; `none` is a query
that failed. What is not final at the end of the window is pending. -/
def awaitCasperFinality : List (Option Value) → Option Bool
  | [] => none
  | reply :: rest => match reply.bind extractFinalityStatus with
    | some (.finalized success) => some success
    | _ => awaitCasperFinality rest

/-- The reply carries an execution result. -/
def isFinal (reply : Option Value) : Bool :=
  match reply.bind extractFinalityStatus with
  | some (.finalized _) => true
  | _ => false

theorem awaitCasperFinality_isSome (replies : List (Option Value)) :
    (awaitCasperFinality replies).isSome = replies.any isFinal := by
  induction replies with
  | nil => rfl
  | cons reply rest ih =>
    rw [awaitCasperFinality, List.any_cons, isFinal]
    split
    · simp
    · rw [ih]
      simp

end Finality

section Adapter
variable (str : Value → Str)

/-- What the adapter makes of the reply to a broadcast. -/
inductive Answer where
  | raised
  | refused (hash : Str)
  | taken (hash : Str)
  deriving DecidableEq

/-- `str` is Python's; `none` is a broadcast whose reply was lost or unreadable. -/
def broadcastAnswer (txHash : Str) : Option Value → Answer
  | none => .refused txHash
  | some (.dict response) =>
    match firstTrue (Dict.get response "result") (.dict []) with
    | .dict result =>
      let hash := str (firstTrue (Dict.get result "deploy_hash") (.str txHash))
      if isTrue (Dict.get response "error") then .refused hash else .taken hash
    | _ => .raised
  | some _ => .raised

inductive Phase where
  | assembling
  | polling (deploy : Nat) (hash : Str)
  deriving DecidableEq

/-- A running call and how far the adapter is with it. -/
structure Call where
  request : Request
  phase : Phase

/-- A deploy that was broadcast: its receipt arguments are those of the request. -/
structure Deploy where
  request : Request
  hash : Str
  /-- Whether the node takes it, then or later. -/
  accepted : Bool
  /-- The success that polling its hash has shown, once it is final. -/
  observed : Option Bool

/-- The agent's context and running calls, and the deploys broadcast so far. -/
structure Operator where
  ctx : Context
  calls : List Call
  deploys : List Deploy

namespace Operator

def start (envelopes : List Envelope) : Operator := ⟨⟨envelopes, [], ∅⟩, [], []⟩

/-- The agent alone. -/
def agent (s : Operator) : State := ⟨s.ctx, s.calls.map Call.request⟩

def settle (s : Operator) (place : Nat) (c : Call) (outcome : Outcome) : Operator :=
  { s with
    ctx := ((s.agent.leave place c.request).recorded (c.request.record outcome)).ctx
    calls := s.calls.eraseIdx place }

def send (s : Operator) (d : Deploy) : Operator := { s with deploys := s.deploys ++ [d] }

/-- What polling `hash` has shown, noted at the deploy it is the hash of. -/
def observe (s : Operator) (deploy : Nat) (hash : Str) (observed : Option Bool) : Operator :=
  { s with
    deploys := s.deploys.modify deploy fun d =>
      if d.hash = hash then { d with observed := observed } else d }

end Operator

inductive OperatorEvent where
  | call (actionId target : Str) (parameters : Value)
  /-- No deploy could be built; `raised` when the receipt request itself could not. -/
  | unassembled (place : Nat) (raised : Bool)
  | broadcast (place : Nat) (hash : Str) (accepted : Bool) (reply : Option Value)
  | finality (place : Nat) (replies : List (Option Value))
  | cancel (place : Nat)

variable (floats : FloatFormat)

def operate (s : Operator) : OperatorEvent → Option Operator
  | .call actionId target parameters =>
    (executeGovernanceExecution floats s.ctx actionId target parameters).toOption.map fun r =>
      { s with ctx := (s.agent.enter r).ctx, calls := s.calls ++ [⟨r, .assembling⟩] }
  | .unassembled place raised =>
    match s.calls[place]? with
    | some ⟨r, .assembling⟩ =>
      some (s.settle place ⟨r, .assembling⟩ ⟨if raised then .error else .failed, none⟩)
    | _ => none
  | .broadcast place hash accepted reply =>
    match s.calls[place]? with
    | some ⟨r, .assembling⟩ =>
      let sent := s.send ⟨r, hash, accepted, none⟩
      match broadcastAnswer str hash reply with
      | .raised => some (sent.settle place ⟨r, .assembling⟩ ⟨.error, none⟩)
      | .refused h => some (sent.settle place ⟨r, .assembling⟩ ⟨.failed, some h⟩)
      | .taken h => some { sent with calls := s.calls.set place ⟨r, .polling s.deploys.length h⟩ }
    | _ => none
  | .finality place replies =>
    match s.calls[place]? with
    | some ⟨r, .polling deploy hash⟩ =>
      let observed := awaitCasperFinality replies
      some ((s.observe deploy hash observed).settle place ⟨r, .polling deploy hash⟩
        ⟨if observed = some false then .failed else .success, some hash⟩)
    | _ => none
  | .cancel place =>
    s.calls[place]?.map fun c =>
      { s with ctx := (s.agent.leave place c.request).ctx, calls := s.calls.eraseIdx place }

end Adapter
end Concordia.Locke
