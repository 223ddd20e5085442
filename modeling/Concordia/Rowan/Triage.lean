import Concordia.Gateway.SuppressionRules
import Concordia.Gateway.Models

/-! Rowan's triage of signals, beside the gateway's suppression rules. A triage asks the gateway
twice before it suppresses; everything else can happen in between. The noise score and the
reasoning, which no decision reads, are left out. -/
namespace Concordia.Rowan
open Concordia.Python Concordia.Gateway
open Concordia.Js hiding Value

inductive Decision where
  | route | suppress
  deriving DecidableEq, Repr

def isP1 (card : Dict) : Bool := isOptStr (card.get "preliminary_severity") (some (js "P1"))

def isSecurityRelevant (card : Dict) : Bool := Gateway.isTrue (card.get "security_relevant")

def fingerprint (card : Dict) : Str := strField card "fingerprint"

/-- `_apply_deterministic_guards`; what the model answers can be any JSON value. -/
def applyDeterministicGuards (signalCard : Dict) (llmDecision : Value) : Decision :=
  -- an invalid decision fails closed to `route`
  let decision := if isOptStr llmDecision (some (js "suppress")) then .suppress else .route
  if isP1 signalCard || isSecurityRelevant signalCard then .route else decision

/-- The proposal that `_submit_triage_decision` names. -/
def proposalOf (card : Dict) : Value :=
  if Gateway.isTrue (card.get "proposal_id") then card.get "proposal_id" else card.get "signal_id"

inductive Stage where
  /-- Before the answer to the lookup of the rules. -/
  | lookup
  /-- Before the answer to the increment of the rule. -/
  | increment (ruleId : Nat)
  deriving DecidableEq, Repr

structure Triage where
  card : Dict
  stage : Stage

structure Decided where
  proposalId : Str
  card : Dict
  decision : Decision

/-- The rules of the gateway, the triages under way in all of Rowan's processes, and what they
have decided. -/
structure System where
  table : RuleTable
  running : List Triage
  decisions : List Decided

namespace System

def start : System := ⟨.empty, [], []⟩

/-- `_submit_triage_decision`; a `TriageDecision` is not built without a text for its proposal. -/
def submit (s : System) (card : Dict) (decision : Decision) : System :=
  match proposalOf card with
  | .str proposalId => { s with decisions := s.decisions ++ [⟨proposalId, card, decision⟩] }
  | _ => s

def finish (s : System) (place : Nat) : System := { s with running := s.running.eraseIdx place }

end System

/-- What a triage sees of its lookup. -/
inductive Lookup where
  | lost
  /-- A status other than 200. -/
  | refused
  | answered
  deriving DecidableEq, Repr

inductive Event where
  | createRule (role : Option Role) (fingerprint reason sourceProposalId : Str)
  | falseAlarm (proposalId fingerprint : Str)
  | incrementRule (role : Option Role) (ruleId : Nat)
  | cleanup (proposalIds : List Str)
  | classify (card : Dict) (llmDecision : Value)
  | lookup (place : Nat) (seen : Lookup)
  /-- The increment, whether it is served and whether its answer arrives. -/
  | count (place : Nat) (served answered : Bool)

/-- How Rowan is deployed: the role of its key, and the `ProposalCard` model, which asks for a text
as fingerprint. -/
structure Deployment where
  role : Option Role
  validSignal : Dict → Bool
  fingerprint_text : ∀ card : Dict, validSignal card = true →
    ∃ f : Str, card.get "fingerprint" = .str f

variable (deployment : Deployment)

/-- `process`, from the classification on: the guards, and what goes to the lookup. -/
def classify (s : System) (card : Dict) (llmDecision : Value) : System :=
  let decision := applyDeterministicGuards card llmDecision
  if decision = .suppress ∧ isP1 card = false ∧ isSecurityRelevant card = false ∧
      (fingerprint card).isEmpty = false then
    { s with running := s.running ++ [⟨card, .lookup⟩] }
  else s.submit card decision

/-- The answer to the lookup. -/
def lookupRules (s : System) (place : Nat) (card : Dict) : Lookup → System
  | .lost => (s.finish place).submit card .route
  | .refused => (s.finish place).submit card .suppress
  | .answered =>
    match s.table.getSuppressionRules (fingerprint card) with
    -- no rule to use: the decision stands
    | [] => (s.finish place).submit card .suppress
    | rule :: _ => { s with running := s.running.set place ⟨card, .increment rule.id⟩ }

/-- The answer to the increment. -/
def countSuppression (s : System) (place : Nat) (card : Dict) (ruleId : Nat)
    (served answered : Bool) : System :=
  let (status, table) :=
    if served then s.table.incrementSuppression deployment.role ruleId else (503, s.table)
  ({ s with table := table }.finish place).submit card
    (if answered ∧ status = 200 then .suppress else .route)

def step (s : System) : Event → Option System
  | .createRule role fingerprint reason sourceProposalId =>
    some { s with
      table := (s.table.createSuppressionRule role fingerprint reason sourceProposalId).2 }
  | .falseAlarm proposalId fingerprint =>
    some { s with table := s.table.addFalseAlarmRule proposalId fingerprint }
  | .incrementRule role ruleId =>
    some { s with table := (s.table.incrementSuppression role ruleId).2 }
  | .cleanup proposalIds => some { s with table := s.table.removeDemoRules proposalIds }
  | .classify card llmDecision =>
    if deployment.validSignal card then some (classify s card llmDecision) else none
  | .lookup place seen =>
    match s.running[place]? with
    | some ⟨card, .lookup⟩ => some (lookupRules s place card seen)
    | _ => none
  | .count place served answered =>
    match s.running[place]? with
    | some ⟨card, .increment ruleId⟩ =>
      some (countSuppression deployment s place card ruleId served answered)
    | _ => none

end Concordia.Rowan
