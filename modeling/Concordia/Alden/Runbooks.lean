import Concordia.Shared.CardMessages

/-! Alden's choice of a runbook: keyword rules over the assessment, and for a revised plan the
words of the human who rejected the last one. -/
namespace Concordia.Alden
open Concordia.Python Concordia.Locke
open Concordia.Js hiding Value

inductive Runbook where
  | rb001 | rb002 | rb003 | rb004 | rb005 | rb006
  deriving DecidableEq, Repr

def Runbook.id : Runbook → Str
  | .rb001 => js "RB-001"
  | .rb002 => js "RB-002"
  | .rb003 => js "RB-003"
  | .rb004 => js "RB-004"
  | .rb005 => js "RB-005"
  | .rb006 => js "RB-006"

section Rules

/-- Keywords, and the runbook of a text with one of them. -/
abbrev Rule := List String × Runbook

def Rule.mentioned (rule : Rule) (text : Str) : Bool :=
  rule.1.any fun keyword => occurs (js keyword) text

def selectionRules : List Rule := [
  (["pause", "emergency", "exploit", "drain", "critical"], .rb006),
  (["rwa", "oracle", "asset", "receivable", "real-world"], .rb005),
  (["treasury allocation", "requested_allocation_bps", "approved_cap_bps", "liquidity", "yield",
    "treasury"], .rb002),
  (["reject", "veto", "non-compliant", "illegal", "exceeds policy"], .rb003),
  (["cap", "guardrail", "risk control", "limit exposure"], .rb004),
  (["rebalance", "allocation"], .rb002)]

def defaultRunbook (severity : Str) : Runbook :=
  if severity = js "P1" ∨ severity = js "P2" then .rb002 else .rb001

variable (lower : Str → Str)

def selectRunbook (rootCause severity recommendedAction : Str) : Runbook :=
  let combined := lower (rootCause ++ js " " ++ recommendedAction)
  match selectionRules.find? (·.mentioned combined) with
  | some rule => rule.2
  | none => defaultRunbook severity

/-- The first rule that has a word in the text prescribes its runbook, or else the default. -/
inductive Prescribes (text : Str) (default : Runbook) : List Rule → Runbook → Prop
  | default : Prescribes text default [] default
  | first {rule : Rule} {rest : List Rule} (h : rule.mentioned text = true) :
      Prescribes text default (rule :: rest) rule.2
  | later {rule : Rule} {rest : List Rule} {runbook : Runbook} (h : rule.mentioned text = false)
      (hrest : Prescribes text default rest runbook) :
      Prescribes text default (rule :: rest) runbook

end Rules

section Constraints

/-- `text.find(needle)`. -/
def find (needle : Str) : Str → Option Nat
  | [] => if needle.isEmpty then some 0 else none
  | u :: rest => if needle.isPrefixOf (u :: rest) then some 0 else (find needle rest).map (· + 1)

def humanRunbookConstraints : List (String × Runbook) := [
  ("anchor", .rb001), ("receipt", .rb001), ("rebalance", .rb002), ("allocation", .rb002),
  ("treasury", .rb002), ("veto", .rb003), ("reject", .rb003), ("guardrail", .rb004),
  ("risk cap", .rb004), ("cap", .rb004), ("rwa", .rb005), ("oracle", .rb005), ("pause", .rb006),
  ("emergency", .rb006)]

/-- The runbooks that the text names and where, in the order of the places. -/
def runbookMatches (text : Str) : List (Nat × Runbook) :=
  let found := humanRunbookConstraints.filterMap fun (keyword, runbook) =>
    (find (js keyword) text).map fun place => (place, runbook)
  found.insertionSort fun a b => a.1 ≤ b.1

/-- `none` is the empty text of no match. -/
def parseHumanRunbookConstraint (lower : Str → Str) (instructions rejectedRunbook : Str) :
    Option Runbook :=
  let text := lower instructions
  let named : List (Nat × Runbook) := runbookMatches text
  let other (runbook : Runbook) : Bool := runbook.id != rejectedRunbook
  let beforeInstead : List (Nat × Runbook) := match find (js "instead") text with
    | some place => named.filter fun entry => entry.1 < place
    | none => []
  match beforeInstead with
  | desired :: _ => if other desired.2 then some desired.2 else none
  | [] => (named.map (·.2)).find? other

/-- The set, in ascending order of the ids. -/
def getAllowedRunbooks (severity : Str) : List Runbook :=
  if severity = js "P1" then [.rb001, .rb002, .rb003, .rb004, .rb005, .rb006]
  else if severity = js "P2" then [.rb001, .rb002, .rb003, .rb004, .rb005]
  else if severity = js "P3" then [.rb001, .rb002, .rb004, .rb005]
  else if severity = js "P4" then [.rb001, .rb004]
  else [.rb001]

end Constraints

/-- What the planner trusts about a proposal. -/
structure StrategyContext where
  proposalId : Str
  assessmentRaw : Value
  severity : Str
  rootCause : Str
  recommendedAction : Str
  planRevision : Nat
  revisionInstructions : Str
  /-- Empty where the rejected plan is not found. -/
  rejectedRunbook : Str

variable (lower : Str → Str)

def StrategyContext.selected (ctx : StrategyContext) : Runbook :=
  selectRunbook lower ctx.rootCause ctx.severity ctx.recommendedAction

/-- The allowed runbooks without the rejected one. -/
def StrategyContext.alternatives (ctx : StrategyContext) : List Runbook :=
  (getAllowedRunbooks ctx.severity).filter fun runbook => runbook.id != ctx.rejectedRunbook

/-- The runbook where the instructions constrain nothing that is allowed. -/
def StrategyContext.fallback (ctx : StrategyContext) : Runbook :=
  if (ctx.selected lower).id = ctx.rejectedRunbook then
    ctx.alternatives.head?.getD (ctx.selected lower)
  else ctx.selected lower

/-- `actual_runbook`; what the model suggests is only written to the log. -/
def StrategyContext.actualRunbook (ctx : StrategyContext) (_suggested : Str) : Runbook :=
  if ctx.revisionInstructions.isEmpty then ctx.selected lower
  else
    match parseHumanRunbookConstraint lower ctx.revisionInstructions ctx.rejectedRunbook with
    | some constrained =>
      if constrained ∈ getAllowedRunbooks ctx.severity then constrained else ctx.fallback lower
    | none => ctx.fallback lower

/-! What the revised plan gets. -/
section Revision
variable {lower} {ctx : StrategyContext}

theorem prescribes_iff {text : Str} {default runbook : Runbook} {rules : List Rule} :
    Prescribes text default rules runbook ↔
      (((rules.find? (·.mentioned text)).map Prod.snd).getD default) = runbook := by
  induction rules with
  | nil =>
    constructor
    · rintro ⟨⟩
      rfl
    · rintro rfl
      exact .default
  | cons rule rest ih =>
    by_cases hrule : rule.mentioned text = true
    · rw [@List.find?_cons_of_pos _ (·.mentioned text) _ rest hrule]
      constructor
      · rintro (_ | _ | ⟨h, -⟩)
        · rfl
        · exact absurd hrule (by simp [h])
      · rintro rfl
        exact .first hrule
    · rw [@List.find?_cons_of_neg _ (·.mentioned text) _ rest hrule, ← ih]
      constructor
      · rintro (_ | h | ⟨-, hrest⟩)
        · exact absurd h hrule
        · exact hrest
      · exact .later (by simpa using hrule)

/-- The text that the rules read. -/
def StrategyContext.evidenceText (lower : Str → Str) (ctx : StrategyContext) : Str :=
  lower (ctx.rootCause ++ js " " ++ ctx.recommendedAction)

/-- The rules of the assessment's text prescribe the runbook. -/
def StrategyContext.Prescribed (lower : Str → Str) (ctx : StrategyContext) (runbook : Runbook) :
    Prop :=
  Prescribes (ctx.evidenceText lower) (defaultRunbook ctx.severity) selectionRules runbook

theorem prescribed_iff {runbook : Runbook} :
    ctx.Prescribed lower runbook ↔ ctx.selected lower = runbook := by
  rw [StrategyContext.Prescribed, prescribes_iff, StrategyContext.selected, selectRunbook,
    StrategyContext.evidenceText]
  cases selectionRules.find? (·.mentioned (lower (ctx.rootCause ++ js " " ++
    ctx.recommendedAction))) <;> rfl

/-- A revision is never constrained to the runbook that was rejected. -/
theorem constraint_ne_rejected {instructions rejected : Str} {runbook : Runbook}
    (h : parseHumanRunbookConstraint lower instructions rejected = some runbook) :
    runbook.id ≠ rejected := by
  rw [parseHumanRunbookConstraint] at h
  simp only at h
  split at h
  · next desired _ _ =>
    split at h
    · next hother =>
      obtain rfl := Option.some.inj h
      simpa using hother
    · cases h
  · simpa using List.find?_some h

theorem mem_alternatives {runbook : Runbook} : runbook ∈ ctx.alternatives ↔
    runbook ∈ getAllowedRunbooks ctx.severity ∧ runbook.id ≠ ctx.rejectedRunbook := by
  simp [StrategyContext.alternatives]

/-- `sorted(allowed)[0]` is the head of the list. -/
theorem allowed_sorted (severity : Str) :
    (getAllowedRunbooks severity).Pairwise fun a b => strLe a.id b.id = true := by
  unfold getAllowedRunbooks
  split_ifs <;> decide

theorem allowed_ne_nil (severity : Str) : getAllowedRunbooks severity ≠ [] := by
  unfold getAllowedRunbooks
  split_ifs <;> simp

/-- The runbook is allowed at the severity, and another one than the rejected wherever there is
one. -/
structure Revised (ctx : StrategyContext) (runbook : Runbook) : Prop where
  allowed : runbook ∈ getAllowedRunbooks ctx.severity
  different : (∃ other ∈ getAllowedRunbooks ctx.severity, other.id ≠ ctx.rejectedRunbook) →
    runbook.id ≠ ctx.rejectedRunbook

/-- The words of the human constrain the revision to an allowed runbook. -/
def Constrained (lower : Str → Str) (ctx : StrategyContext) : Prop :=
  ctx.revisionInstructions ≠ [] ∧ ∃ runbook ∈ getAllowedRunbooks ctx.severity,
    parseHumanRunbookConstraint lower ctx.revisionInstructions ctx.rejectedRunbook = some runbook

theorem id_injective : Function.Injective Runbook.id := by
  intro a b h
  revert h
  cases a <;> cases b <;> decide

/-- Without a constraint the plan follows the rules, past the rejected runbook. -/
theorem actualRunbook_unconstrained (hrevision : ctx.revisionInstructions ≠ [])
    (h : ¬ Constrained lower ctx) (suggested : Str) :
    ctx.actualRunbook lower suggested = ctx.fallback lower := by
  rw [StrategyContext.actualRunbook, if_neg (by simpa using hrevision)]
  split
  · next runbook hparsed =>
    rw [if_neg fun hallowed => h ⟨hrevision, runbook, hallowed, hparsed⟩]
  · rfl

theorem revised_constrained (h : Constrained lower ctx) (suggested : Str) :
    Revised ctx (ctx.actualRunbook lower suggested) := by
  obtain ⟨hrevision, runbook, hallowed, hparsed⟩ := h
  have hactual : ctx.actualRunbook lower suggested = runbook := by
    rw [StrategyContext.actualRunbook, if_neg (by simpa using hrevision), hparsed]
    exact if_pos hallowed
  rw [hactual]
  exact ⟨hallowed, fun _ => constraint_ne_rejected hparsed⟩

/-- Where the rules give the rejected runbook, the fallback is the first of the others. -/
theorem revised_fallback_rejected (h : (ctx.selected lower).id = ctx.rejectedRunbook) :
    Revised ctx (ctx.fallback lower) := by
  rw [StrategyContext.fallback, if_pos h]
  cases halternatives : ctx.alternatives with
  | cons runbook rest =>
    obtain ⟨hallowed, hother⟩ := mem_alternatives.mp (halternatives ▸ List.mem_cons_self)
    exact ⟨hallowed, fun _ => hother⟩
  | nil =>
    have honly : ∀ other ∈ getAllowedRunbooks ctx.severity, other.id = ctx.rejectedRunbook := by
      intro other hother
      by_contra hne
      have hmem := mem_alternatives.mpr ⟨hother, hne⟩
      rw [halternatives] at hmem
      cases hmem
    obtain ⟨other, hother⟩ := List.exists_mem_of_ne_nil _ (allowed_ne_nil ctx.severity)
    have hsame : ctx.selected lower = other := id_injective (h.trans (honly other hother).symm)
    refine ⟨hsame ▸ hother, ?_⟩
    rintro ⟨another, hanother, hne⟩
    exact absurd (honly another hanother) hne

/-- The runbook of a revised plan is an allowed and different one exactly in these cases: the
instructions constrain it to an allowed runbook; or the keyword rules prescribe an allowed
runbook, and not the rejected one where the instructions are empty and there is another; or they
prescribe the rejected one and the instructions are not empty. -/
theorem revision_runbook_iff (lower : Str → Str) (ctx : StrategyContext) (suggested : Str) :
    Revised ctx (ctx.actualRunbook lower suggested) ↔
      Constrained lower ctx ∨ ∃ runbook, ctx.Prescribed lower runbook ∧
        (runbook ∈ getAllowedRunbooks ctx.severity ∧
            (ctx.revisionInstructions = [] → runbook.id = ctx.rejectedRunbook →
              ctx.alternatives = []) ∨
          ctx.revisionInstructions ≠ [] ∧ runbook.id = ctx.rejectedRunbook) := by
  simp only [prescribed_iff, exists_eq_left']
  by_cases hconstrained : Constrained lower ctx
  · exact iff_of_true (revised_constrained hconstrained suggested) (.inl hconstrained)
  by_cases hrevision : ctx.revisionInstructions = []
  · have hactual : ctx.actualRunbook lower suggested = ctx.selected lower := by
      rw [StrategyContext.actualRunbook, hrevision]
      rfl
    have hnone : ctx.alternatives = [] ↔
        ¬ ∃ other ∈ getAllowedRunbooks ctx.severity, other.id ≠ ctx.rejectedRunbook := by
      simp [List.eq_nil_iff_forall_not_mem, mem_alternatives]
    rw [hactual, hnone]
    constructor
    · rintro ⟨hallowed, hdifferent⟩
      exact .inr (.inl ⟨hallowed, fun _ hsame hother => hdifferent hother hsame⟩)
    · rintro (h | ⟨hallowed, hdifferent⟩ | ⟨h, -⟩)
      · exact absurd h hconstrained
      · exact ⟨hallowed, fun hother hsame => hdifferent hrevision hsame hother⟩
      · exact absurd hrevision h
  · rw [actualRunbook_unconstrained hrevision hconstrained]
    by_cases hrejected : (ctx.selected lower).id = ctx.rejectedRunbook
    · exact iff_of_true (revised_fallback_rejected hrejected) (.inr (.inr ⟨hrevision, hrejected⟩))
    · have hfallback : ctx.fallback lower = ctx.selected lower := by
        rw [StrategyContext.fallback, if_neg hrejected]
      rw [hfallback]
      constructor
      · rintro ⟨hallowed, -⟩
        exact .inr (.inl ⟨hallowed, fun h => absurd h hrevision⟩)
      · rintro (h | ⟨hallowed, -⟩ | ⟨-, h⟩)
        · exact absurd h hconstrained
        · exact ⟨hallowed, fun _ => hrejected⟩
        · exact absurd h hrejected

/-- With instructions, only a runbook that the severity does not allow can come out wrong. -/
theorem revised_of_allowed (hrevision : ctx.revisionInstructions ≠ [])
    (h : ∀ runbook, ctx.Prescribed lower runbook → runbook ∈ getAllowedRunbooks ctx.severity)
    (suggested : Str) : Revised ctx (ctx.actualRunbook lower suggested) := by
  apply (revision_runbook_iff lower ctx suggested).mpr
  have hself : ctx.Prescribed lower (ctx.selected lower) := prescribed_iff.mpr rfl
  exact .inr ⟨_, hself, .inl ⟨h _ hself, fun hempty => absurd hempty hrevision⟩⟩

/-- At the highest severity every revision with instructions gets an allowed, different runbook. -/
theorem revised_p1 (hseverity : ctx.severity = js "P1") (hrevision : ctx.revisionInstructions ≠ [])
    (suggested : Str) : Revised ctx (ctx.actualRunbook lower suggested) := by
  apply revised_of_allowed hrevision
  intro runbook _
  rw [hseverity, getAllowedRunbooks, if_pos rfl]
  cases runbook <;> decide

end Revision

/-- A rejected plan of severity P4 over a treasury matter, and what the human asks for. -/
def unguardedRevision : StrategyContext where
  proposalId := js "DAO-PROP-7"
  assessmentRaw := .dict []
  severity := js "P4"
  rootCause := js "liquidity drift"
  recommendedAction := js "rebalance"
  planRevision := 2
  revisionInstructions := js "wait a week"
  rejectedRunbook := js "RB-001"

/-- The fallback of a revision takes a runbook that the severity does not allow. -/
theorem fallback_out_of_policy : ¬ ∀ (ctx : StrategyContext) (suggested : Str),
    ctx.revisionInstructions ≠ [] → Revised ctx (ctx.actualRunbook id suggested) := by
  intro h
  have hallowed := (h unguardedRevision [] (by decide)).allowed
  revert hallowed
  decide

end Concordia.Alden
