import Concordia.Gateway.ApproveUi

/-! The table of suppression rules with all its counters, and the endpoints that write it. Rules
that the demo cleanup deletes are kept aside. -/
namespace Concordia.Gateway
open Concordia.Python
open Concordia.Js hiding Value

/-- A row of `suppression_rules`. -/
structure SuppressionRule where
  id : Nat
  fingerprint : Str
  reason : Str
  sourceProposalId : Str
  suppressionCount : Nat
  maxSuppressions : Nat
  active : Bool
  deriving DecidableEq

structure RuleTable where
  rules : List SuppressionRule
  /-- The last key that `AUTOINCREMENT` gave out. -/
  lastId : Nat
  deleted : List SuppressionRule
  deriving DecidableEq

namespace RuleTable

def empty : RuleTable := ⟨[], 0, []⟩

/-- Every rule there ever was, as it stands or stood last. -/
def everRules (t : RuleTable) : List SuppressionRule := t.rules ++ t.deleted

/-- `INSERT INTO suppression_rules`, with the defaults of the schema. -/
def insert (t : RuleTable) (fingerprint reason sourceProposalId : Str) : RuleTable :=
  { t with
    rules := t.rules ++ [⟨t.lastId + 1, fingerprint, reason, sourceProposalId, 0, 3, true⟩]
    lastId := t.lastId + 1 }

/-- `SELECT id FROM suppression_rules WHERE fingerprint=? AND active=1`. -/
def hasActive (t : RuleTable) (fingerprint : Str) : Bool :=
  t.rules.any fun r => r.fingerprint == fingerprint && r.active

/-- Active, and not exhausted. -/
def isOpen (r : SuppressionRule) : Bool := r.active && r.suppressionCount < r.maxSuppressions

/-- `get_suppression_rules`, for a fingerprint. -/
def getSuppressionRules (t : RuleTable) (fingerprint : Str) : List SuppressionRule :=
  t.rules.filter fun r => r.fingerprint == fingerprint && isOpen r

/-- `create_suppression_rule`: the status code, and the table it leaves. -/
def createSuppressionRule (role : Option Role) (fingerprint reason sourceProposalId : Str)
    (t : RuleTable) : Nat × RuleTable :=
  if role ≠ some .safetyReviewer ∧ role ≠ some .gateway then (403, t)
  else if fingerprint.isEmpty then (400, t)
  else if t.hasActive fingerprint then (409, t)
  else (200, t.insert fingerprint reason sourceProposalId)

/-- The rule that a false alarm leaves, for the fingerprint of the proposal's signal. -/
def addFalseAlarmRule (proposalId fingerprint : Str) (t : RuleTable) : RuleTable :=
  if fingerprint.isEmpty then t
  else if t.hasActive fingerprint then t
  else t.insert fingerprint (js "Human FALSE_ALARM determination") proposalId

/-- What the bounded `UPDATE` makes of a row. -/
def countRow (ruleId : Nat) (r : SuppressionRule) : SuppressionRule :=
  if r.id = ruleId ∧ isOpen r then { r with suppressionCount := r.suppressionCount + 1 } else r

/-- `increment_suppression`. -/
def incrementSuppression (role : Option Role) (ruleId : Nat) (t : RuleTable) : Nat × RuleTable :=
  if role ≠ some .triage ∧ role ≠ some .gateway then (403, t)
  else if t.rules.any fun r => r.id == ruleId && isOpen r then
    (200, { t with rules := t.rules.map (countRow ruleId) })
  else (409, t)

/-- `_delete_for_proposals` on the rules. -/
def removeDemoRules (proposalIds : List Str) (t : RuleTable) : RuleTable :=
  { t with
    rules := t.rules.filter fun r => !proposalIds.contains r.sourceProposalId
    deleted := t.rules.filter (fun r => proposalIds.contains r.sourceProposalId) ++ t.deleted }

end RuleTable

/-- The columns that the rest of the gateway reads. -/
def SuppressionRule.row (r : SuppressionRule) : SuppressionRow :=
  ⟨r.fingerprint, r.sourceProposalId, r.active⟩

/-- The false alarm of a proposal writes the table through `addFalseAlarmRule`. -/
theorem addSuppressionRule_table (env : Env) (proposalId : Str) (db : Db) (t : RuleTable)
    (h : db.suppressionRules = t.rules.map SuppressionRule.row) :
    ∃ fingerprint, (addSuppressionRule env proposalId db).suppressionRules =
      (t.addFalseAlarmRule proposalId fingerprint).rules.map SuppressionRule.row := by
  simp only [addSuppressionRule]
  split
  · exact ⟨[], by simpa [RuleTable.addFalseAlarmRule] using h⟩
  · rename_i fingerprint hsome
    refine ⟨fingerprint, ?_⟩
    have hne : fingerprint.isEmpty = false := by
      obtain ⟨data, -, hdata⟩ := Option.bind_eq_some_iff.mp hsome
      revert hdata
      cases strField data "fingerprint" with
      | nil => simp [truthy]
      | cons u rest =>
        intro hdata
        rw [← Option.some.inj hdata]
        rfl
    have hactive : (db.suppressionRules.any fun r => r.fingerprint == fingerprint && r.active) =
        t.hasActive fingerprint := by
      rw [h, List.any_map]
      rfl
    rw [RuleTable.addFalseAlarmRule, hne, hactive]
    cases t.hasActive fingerprint with
    | true => simpa using h
    | false => simp [RuleTable.insert, h, SuppressionRule.row]

end Concordia.Gateway
