import Concordia.Rowan.Triage
import Concordia.Lib.Transition
import Mathlib.Data.Finset.Card
import Mathlib.Algebra.Order.BigOperators.Group.List

/-! How many proposals are suppressed. Each counted suppression is paid for by one increment of a
rule with its fingerprint; a suppression that no rule was asked for is not. -/
namespace Concordia.Rowan
open Concordia.Python Concordia.Gateway Concordia.Lib.Transition
open Concordia.Js hiding Value

section Weights

/-- The sum of `g` over the rules with a fingerprint. -/
def weigh (g : SuppressionRule → Nat) (f : Str) (rules : List SuppressionRule) : Nat :=
  ((rules.filter fun r => r.fingerprint == f).map g).sum

variable {g g' : SuppressionRule → Nat} {f : Str} {rules rules' : List SuppressionRule}

theorem weigh_append : weigh g f (rules ++ rules') = weigh g f rules + weigh g f rules' := by
  simp [weigh]

theorem weigh_cons (r : SuppressionRule) :
    weigh g f (r :: rules) = (if r.fingerprint = f then g r else 0) + weigh g f rules := by
  by_cases h : r.fingerprint = f <;> simp [weigh, h]

theorem weigh_perm (h : rules.Perm rules') : weigh g f rules = weigh g f rules' :=
  ((h.filter _).map g).sum_eq

theorem weigh_le (h : ∀ r ∈ rules, g r ≤ g' r) : weigh g f rules ≤ weigh g' f rules := by
  apply List.sum_le_sum
  intro r hr
  exact h r (List.mem_of_mem_filter hr)

end Weights

/-- What the rules for a fingerprint have counted. -/
def charged (t : RuleTable) (f : Str) : Nat := weigh SuppressionRule.suppressionCount f t.everRules

/-- What the rules for a fingerprint allow. -/
def allowance (t : RuleTable) (f : Str) : Nat := weigh SuppressionRule.maxSuppressions f t.everRules

/-- The invariant of the rule table. -/
structure TableLaws (t : RuleTable) : Prop where
  ids : (t.rules.map SuppressionRule.id).Nodup
  given : ∀ r ∈ t.rules, r.id ≤ t.lastId
  single : ((t.rules.filter SuppressionRule.active).map SuppressionRule.fingerprint).Nodup
  bounded : ∀ r ∈ t.everRules, r.suppressionCount ≤ r.maxSuppressions

/-- What every write of the table keeps. -/
structure Writes (t u : RuleTable) : Prop where
  laws : TableLaws u
  charged : ∀ f, charged t f ≤ charged u f
  given : t.lastId ≤ u.lastId
  /-- A key stays with its fingerprint. -/
  named : ∀ r ∈ u.rules, r.id ≤ t.lastId →
    ∃ r' ∈ t.rules, r'.id = r.id ∧ r'.fingerprint = r.fingerprint

section Table
variable {t : RuleTable}

theorem TableLaws.same (h : TableLaws t) : Writes t t :=
  ⟨h, fun _ => le_rfl, le_rfl, fun r hr _ => ⟨r, hr, rfl, rfl⟩⟩

theorem TableLaws.charged_le (h : TableLaws t) (f : Str) : charged t f ≤ allowance t f :=
  weigh_le h.bounded

theorem TableLaws.insert (h : TableLaws t) {f : Str} (hnone : t.hasActive f = false)
    (reason source : Str) : Writes t (t.insert f reason source) := by
  refine ⟨⟨?_, ?_, ?_, ?_⟩, ?_, Nat.le_succ _, ?_⟩
  · rw [RuleTable.insert, List.map_append, List.nodup_append]
    refine ⟨h.ids, List.nodup_singleton _, ?_⟩
    rintro i hi j hj rfl
    obtain ⟨r, hr, rfl⟩ := List.mem_map.mp hi
    have hid : r.id = t.lastId + 1 := List.mem_singleton.mp hj
    have := h.given r hr
    omega
  · intro r hr
    rcases List.mem_append.mp hr with hr | hr
    · exact (h.given r hr).trans (Nat.le_succ _)
    · rw [List.mem_singleton.mp hr]
      exact le_rfl
  · rw [RuleTable.insert, List.filter_append, List.map_append, List.nodup_append]
    refine ⟨h.single, by simp, ?_⟩
    rintro i hi j hj rfl
    obtain ⟨r, hr, rfl⟩ := List.mem_map.mp hi
    obtain ⟨hr, hactive⟩ := List.mem_filter.mp hr
    have hf : r.fingerprint = f := by simpa using hj
    rw [RuleTable.hasActive, List.any_eq_false] at hnone
    exact hnone r hr (by simp [hf, hactive])
  · intro r hr
    simp only [RuleTable.everRules, RuleTable.insert, List.mem_append, List.mem_singleton] at hr
    rcases hr with (hr | rfl) | hr
    · exact h.bounded r (List.mem_append_left _ hr)
    · exact Nat.zero_le _
    · exact h.bounded r (List.mem_append_right _ hr)
  · intro f'
    simp only [Rowan.charged, RuleTable.everRules, RuleTable.insert, weigh_append]
    omega
  · intro r hr hid
    rcases List.mem_append.mp hr with hr | hr
    · exact ⟨r, hr, rfl, rfl⟩
    · rw [List.mem_singleton.mp hr] at hid
      exact absurd hid (Nat.not_succ_le_self _)

theorem createSuppressionRule_writes (h : TableLaws t) (role : Option Role)
    (f reason source : Str) : Writes t (t.createSuppressionRule role f reason source).2 := by
  unfold RuleTable.createSuppressionRule
  split
  · exact h.same
  · split
    · exact h.same
    · split
      · exact h.same
      · rename_i hnone
        exact h.insert (Bool.eq_false_iff.mpr hnone) reason source

theorem addFalseAlarmRule_writes (h : TableLaws t) (proposalId f : Str) :
    Writes t (t.addFalseAlarmRule proposalId f) := by
  unfold RuleTable.addFalseAlarmRule
  split
  · exact h.same
  · split
    · exact h.same
    · rename_i hnone
      exact h.insert (Bool.eq_false_iff.mpr hnone) _ _

theorem removeDemoRules_writes (h : TableLaws t) (proposalIds : List Str) :
    Writes t (t.removeDemoRules proposalIds) := by
  have hperm : (t.removeDemoRules proposalIds).everRules.Perm t.everRules := by
    rw [RuleTable.everRules, RuleTable.removeDemoRules, RuleTable.everRules, ← List.append_assoc]
    refine List.Perm.append_right _ (List.perm_append_comm.trans ?_)
    exact List.filter_append_perm _ _
  have hsub : (t.removeDemoRules proposalIds).rules.Sublist t.rules := List.filter_sublist
  refine ⟨⟨?_, ?_, ?_, ?_⟩, ?_, le_rfl, ?_⟩
  · exact h.ids.sublist (hsub.map _)
  · intro r hr
    exact h.given r (hsub.subset hr)
  · exact h.single.sublist ((hsub.filter _).map _)
  · intro r hr
    exact h.bounded r (hperm.mem_iff.mp hr)
  · intro f
    exact (weigh_perm hperm).ge
  · intro r hr _
    exact ⟨r, hsub.subset hr, rfl, rfl⟩

end Table

section Increment
variable {t : RuleTable} {ruleId : Nat}

@[simp] theorem countRow_id (r : SuppressionRule) : (RuleTable.countRow ruleId r).id = r.id := by
  unfold RuleTable.countRow
  split <;> rfl

@[simp] theorem countRow_fingerprint (r : SuppressionRule) :
    (RuleTable.countRow ruleId r).fingerprint = r.fingerprint := by
  unfold RuleTable.countRow
  split <;> rfl

@[simp] theorem countRow_active (r : SuppressionRule) :
    (RuleTable.countRow ruleId r).active = r.active := by
  unfold RuleTable.countRow
  split <;> rfl

theorem le_countRow (r : SuppressionRule) :
    r.suppressionCount ≤ (RuleTable.countRow ruleId r).suppressionCount := by
  unfold RuleTable.countRow
  split
  · exact Nat.le_succ _
  · exact le_rfl

theorem countRow_bounded {r : SuppressionRule} (h : r.suppressionCount ≤ r.maxSuppressions) :
    (RuleTable.countRow ruleId r).suppressionCount ≤
      (RuleTable.countRow ruleId r).maxSuppressions := by
  unfold RuleTable.countRow
  split
  · rename_i hopen
    simp only [RuleTable.isOpen, Bool.and_eq_true, decide_eq_true_iff] at hopen
    exact hopen.2.2
  · exact h

theorem weigh_countRow (f : Str) (rules : List SuppressionRule) :
    weigh SuppressionRule.suppressionCount f rules ≤
      weigh SuppressionRule.suppressionCount f (rules.map (RuleTable.countRow ruleId)) := by
  induction rules with
  | nil => exact le_rfl
  | cons r rules ih =>
    rw [List.map_cons, weigh_cons, weigh_cons, countRow_fingerprint]
    have := @le_countRow ruleId r
    split <;> omega

/-- An increment that finds its rule is charged to the fingerprint of the rule. -/
theorem weigh_countRow_lt {rules : List SuppressionRule} {r : SuppressionRule} (hr : r ∈ rules)
    (hid : r.id = ruleId) (hopen : RuleTable.isOpen r = true) :
    weigh SuppressionRule.suppressionCount r.fingerprint rules <
      weigh SuppressionRule.suppressionCount r.fingerprint
        (rules.map (RuleTable.countRow ruleId)) := by
  induction rules with
  | nil => cases hr
  | cons r' rules ih =>
    rw [List.map_cons, weigh_cons, weigh_cons, countRow_fingerprint]
    rcases List.mem_cons.mp hr with rfl | hr
    · have hrest := @weigh_countRow ruleId r.fingerprint rules
      have hcount : (RuleTable.countRow ruleId r).suppressionCount = r.suppressionCount + 1 := by
        rw [RuleTable.countRow, if_pos ⟨hid, hopen⟩]
      rw [if_pos rfl, if_pos rfl, hcount]
      omega
    · have hrest := ih hr
      have := @le_countRow ruleId r'
      split <;> omega

theorem count_writes (h : TableLaws t) :
    Writes t { t with rules := t.rules.map (RuleTable.countRow ruleId) } := by
  refine ⟨⟨?_, ?_, ?_, ?_⟩, ?_, le_rfl, ?_⟩
  · rw [List.map_map]
    simpa [Function.comp_def] using h.ids
  · intro r hr
    obtain ⟨r', hr', rfl⟩ := List.mem_map.mp hr
    simpa using h.given r' hr'
  · rw [List.filter_map, List.map_map]
    simpa [Function.comp_def] using h.single
  · intro r hr
    rcases List.mem_append.mp hr with hr | hr
    · obtain ⟨r', hr', rfl⟩ := List.mem_map.mp hr
      exact countRow_bounded (h.bounded r' (List.mem_append_left _ hr'))
    · exact h.bounded r (List.mem_append_right _ hr)
  · intro f
    simp only [charged, RuleTable.everRules, weigh_append]
    have := @weigh_countRow ruleId f t.rules
    omega
  · intro r hr _
    obtain ⟨r', hr', rfl⟩ := List.mem_map.mp hr
    exact ⟨r', hr', by simp, by simp⟩

theorem incrementSuppression_writes (h : TableLaws t) (role : Option Role) :
    Writes t (t.incrementSuppression role ruleId).2 := by
  unfold RuleTable.incrementSuppression
  split
  · exact h.same
  · split
    · exact count_writes h
    · exact h.same

/-- A 200 is charged to the fingerprint of the rule. -/
theorem incrementSuppression_ok {role : Option Role} {f : Str}
    (h : (t.incrementSuppression role ruleId).1 = 200)
    (hnamed : ∀ r ∈ t.rules, r.id = ruleId → r.fingerprint = f) :
    charged t f < charged (t.incrementSuppression role ruleId).2 f := by
  unfold RuleTable.incrementSuppression at h ⊢
  split at h
  · cases h
  · rename_i hrole
    rw [if_neg hrole]
    split at h
    · rename_i hany
      obtain ⟨r, hr, hopen⟩ := List.any_eq_true.mp hany
      obtain ⟨hid, hopen⟩ := Bool.and_eq_true_iff.mp hopen
      have hid := eq_of_beq hid
      rw [if_pos hany, ← hnamed r hr hid]
      simp only [charged, RuleTable.everRules, weigh_append]
      have := weigh_countRow_lt hr hid hopen
      omega
    · cases h

end Increment

section Run
variable {deployment : Deployment} {s u : System} {log : List Event} {e : Event}

def Decided.suppresses (f : Str) (d : Decided) : Bool :=
  d.decision = .suppress && fingerprint d.card == f

/-- The proposals with a fingerprint that were triaged to suppress. -/
def System.suppressed (s : System) (f : Str) : Finset Str :=
  ((s.decisions.filter (Decided.suppresses f)).map Decided.proposalId).toFinset

/-- The invariant of every run. -/
structure Laws (s : System) : Prop where
  table : TableLaws s.table
  decided : ∀ d ∈ s.decisions, d.decision = .suppress →
    isP1 d.card = false ∧ isSecurityRelevant d.card = false
  running : ∀ r ∈ s.running, isP1 r.card = false ∧ isSecurityRelevant r.card = false
  /-- A triage increments a rule for its own fingerprint. -/
  named : ∀ r ∈ s.running, ∀ ruleId, r.stage = .increment ruleId → ruleId ≤ s.table.lastId ∧
    ∀ rule ∈ s.table.rules, rule.id = ruleId → rule.fingerprint = fingerprint r.card

/-- Every suppression has been charged. -/
def Paid (s : System) : Prop :=
  ∀ f, (s.decisions.filter (Decided.suppresses f)).length ≤ charged s.table f

theorem start_laws : Laws .start := by
  refine ⟨⟨?_, ?_, ?_, ?_⟩, ?_, ?_, ?_⟩ <;> simp [System.start, RuleTable.empty, RuleTable.everRules]

theorem guards_suppress {card : Dict} {llmDecision : Value}
    (h : applyDeterministicGuards card llmDecision = .suppress) :
    isP1 card = false ∧ isSecurityRelevant card = false ∧
      isOptStr llmDecision (some (js "suppress")) = true := by
  simp only [applyDeterministicGuards] at h
  split at h
  · cases h
  · rename_i hguard
    split at h
    · rename_i hllm
      rw [Bool.or_eq_true, not_or] at hguard
      exact ⟨Bool.eq_false_iff.mpr hguard.1, Bool.eq_false_iff.mpr hguard.2, hllm⟩
    · cases h

theorem Laws.writes (h : Laws s) {t : RuleTable} (hw : Writes s.table t) :
    Laws { s with table := t } := by
  refine ⟨hw.laws, h.decided, h.running, ?_⟩
  intro r hr ruleId hstage
  obtain ⟨hle, hnamed⟩ := h.named r hr ruleId hstage
  refine ⟨hle.trans hw.given, ?_⟩
  rintro rule hrule rfl
  obtain ⟨rule', hrule', hid, hf⟩ := hw.named rule hrule hle
  rw [← hf]
  exact hnamed rule' hrule' hid

theorem Laws.finish (h : Laws s) (place : Nat) : Laws (s.finish place) :=
  ⟨h.table, h.decided, fun r hr => h.running r (List.mem_of_mem_eraseIdx hr),
    fun r hr => h.named r (List.mem_of_mem_eraseIdx hr)⟩

@[simp] theorem submit_table (card : Dict) (decision : Decision) :
    (s.submit card decision).table = s.table := by
  unfold System.submit
  split <;> rfl

@[simp] theorem submit_running (card : Dict) (decision : Decision) :
    (s.submit card decision).running = s.running := by
  unfold System.submit
  split <;> rfl

theorem mem_submit {card : Dict} {decision : Decision} {d : Decided}
    (hd : d ∈ (s.submit card decision).decisions) :
    d ∈ s.decisions ∨ (d.card = card ∧ d.decision = decision) := by
  unfold System.submit at hd
  split at hd
  · rcases List.mem_append.mp hd with hd | hd
    · exact .inl hd
    · rw [List.mem_singleton.mp hd]
      exact .inr ⟨rfl, rfl⟩
  · exact .inl hd

theorem Laws.submit (h : Laws s) {card : Dict} {decision : Decision}
    (hsafe : decision = .suppress → isP1 card = false ∧ isSecurityRelevant card = false) :
    Laws (s.submit card decision) := by
  refine ⟨?_, ?_, ?_, ?_⟩
  · rw [submit_table]
    exact h.table
  · intro d hd hsuppress
    rcases mem_submit hd with hd | ⟨hcard, hdecision⟩
    · exact h.decided d hd hsuppress
    · rw [hcard]
      exact hsafe (hdecision.symm.trans hsuppress)
  · rw [submit_running]
    exact h.running
  · rw [submit_running, submit_table]
    exact h.named

theorem mem_getSuppressionRules {t : RuleTable} {f : Str} {rule : SuppressionRule}
    {rest : List SuppressionRule} (h : t.getSuppressionRules f = rule :: rest) :
    rule ∈ t.rules ∧ rule.fingerprint = f := by
  have hmem : rule ∈ t.getSuppressionRules f := by
    rw [h]
    exact List.mem_cons_self
  obtain ⟨hrule, htest⟩ := List.mem_filter.mp hmem
  exact ⟨hrule, eq_of_beq (Bool.and_eq_true_iff.mp htest).1⟩

/-- The rule that the lookup found is the one with its key. -/
theorem TableLaws.found {t : RuleTable} (h : TableLaws t) {f : Str} {rule : SuppressionRule}
    {rest : List SuppressionRule} (hfound : t.getSuppressionRules f = rule :: rest) :
    rule.id ≤ t.lastId ∧ ∀ r ∈ t.rules, r.id = rule.id → r.fingerprint = f := by
  obtain ⟨hrule, hf⟩ := mem_getSuppressionRules hfound
  refine ⟨h.given rule hrule, ?_⟩
  intro r hr hid
  rw [List.inj_on_of_nodup_map h.ids hr hrule hid]
  exact hf

theorem Laws.classify (h : Laws s) (card : Dict) (llmDecision : Value) :
    Laws (classify s card llmDecision) := by
  simp only [Rowan.classify]
  split
  · rename_i hguard
    refine ⟨h.table, h.decided, ?_, ?_⟩
    · intro r hr
      rcases List.mem_append.mp hr with hr | hr
      · exact h.running r hr
      · rw [List.mem_singleton.mp hr]
        exact ⟨hguard.2.1, hguard.2.2.1⟩
    · intro r hr ruleId hstage
      rcases List.mem_append.mp hr with hr | hr
      · exact h.named r hr ruleId hstage
      · rw [List.mem_singleton.mp hr] at hstage
        cases hstage
  · apply h.submit
    intro hsuppress
    obtain ⟨hp1, hsecurity, -⟩ := guards_suppress hsuppress
    exact ⟨hp1, hsecurity⟩

theorem Laws.lookupRules (h : Laws s) {place : Nat} {card : Dict}
    (hr : s.running[place]? = some ⟨card, .lookup⟩) (seen : Lookup) :
    Laws (lookupRules s place card seen) := by
  have hsafe := h.running _ (List.mem_of_getElem? hr)
  unfold Rowan.lookupRules
  split
  · exact (h.finish place).submit fun _ => hsafe
  · exact (h.finish place).submit fun _ => hsafe
  · split
    · exact (h.finish place).submit fun _ => hsafe
    · rename_i rule rest hfound
      refine ⟨h.table, h.decided, ?_, ?_⟩
      · intro r hr
        rcases List.mem_or_eq_of_mem_set hr with hr | rfl
        · exact h.running r hr
        · exact hsafe
      · intro r hr ruleId hstage
        rcases List.mem_or_eq_of_mem_set hr with hr | rfl
        · exact h.named r hr ruleId hstage
        · cases hstage
          exact h.table.found hfound

theorem Laws.count_writes (h : Laws s) (ruleId : Nat) (served : Bool) :
    Writes s.table (if served = true then
      s.table.incrementSuppression deployment.role ruleId else (503, s.table)).2 := by
  split
  · exact incrementSuppression_writes h.table _
  · exact h.table.same

theorem Laws.countSuppression (h : Laws s) {place : Nat} {card : Dict} {ruleId : Nat}
    (hr : s.running[place]? = some ⟨card, .increment ruleId⟩) (served answered : Bool) :
    Laws (countSuppression deployment s place card ruleId served answered) := by
  have hsafe := h.running _ (List.mem_of_getElem? hr)
  have hw := @Laws.count_writes deployment s h ruleId served
  exact ((h.writes hw).finish place).submit fun _ => hsafe

theorem Laws.step (h : Laws s) (hstep : step deployment s e = some u) : Laws u := by
  cases e with
  | createRule role f reason source =>
    obtain rfl := Option.some.inj hstep
    exact h.writes (createSuppressionRule_writes h.table _ _ _ _)
  | falseAlarm proposalId f =>
    obtain rfl := Option.some.inj hstep
    exact h.writes (addFalseAlarmRule_writes h.table _ _)
  | incrementRule role ruleId =>
    obtain rfl := Option.some.inj hstep
    exact h.writes (incrementSuppression_writes h.table _)
  | cleanup proposalIds =>
    obtain rfl := Option.some.inj hstep
    exact h.writes (removeDemoRules_writes h.table _)
  | classify card llmDecision =>
    simp only [Rowan.step] at hstep
    split at hstep
    · obtain rfl := Option.some.inj hstep
      exact h.classify card llmDecision
    · cases hstep
  | lookup place seen =>
    simp only [Rowan.step] at hstep
    split at hstep
    · rename_i card hr
      obtain rfl := Option.some.inj hstep
      exact h.lookupRules hr seen
    · cases hstep
  | count place served answered =>
    simp only [Rowan.step] at hstep
    split at hstep
    · rename_i card ruleId hr
      obtain rfl := Option.some.inj hstep
      exact h.countSuppression hr served answered
    · cases hstep

theorem accepts_laws (hrun : Accepts (step deployment) .start log s) : Laws s :=
  hrun.invariant start_laws fun _ _ _ h hstep => h.step hstep

/-- The condition on a step: a signal that the model suppresses and that no guard routes has a
fingerprint; the gateway answers a lookup with 200, and has a rule with room for the fingerprint. -/
def asksRule (s : System) : Event → Bool
  | .classify card llmDecision =>
    !isOptStr llmDecision (some (js "suppress")) || isP1 card || isSecurityRelevant card ||
      !(fingerprint card).isEmpty
  | .lookup _ .refused => false
  | .lookup place .answered =>
    s.running[place]?.all fun r => s.table.rules.any fun rule =>
      rule.fingerprint == fingerprint r.card && RuleTable.isOpen rule
  | _ => true

theorem Paid.writes (h : Paid s) {t : RuleTable} (hw : Writes s.table t) :
    Paid { s with table := t } :=
  fun f => (h f).trans (hw.charged f)

theorem Paid.finish (h : Paid s) (place : Nat) : Paid (s.finish place) := h

theorem Paid.route (h : Paid s) (card : Dict) : Paid (s.submit card .route) := by
  intro f
  rw [submit_table]
  refine le_trans (le_of_eq ?_) (h f)
  unfold System.submit
  split
  · simp [List.filter_append, Decided.suppresses]
  · rfl

/-- A suppression that is charged in the same step. -/
theorem Paid.suppress (h : Paid s) {t : RuleTable} (hw : Writes s.table t) {card : Dict}
    (hlt : charged s.table (fingerprint card) < charged t (fingerprint card)) (place : Nat) :
    Paid (({ s with table := t }.finish place).submit card .suppress) := by
  intro f
  rw [submit_table]
  have hold := h f
  have hle := hw.charged f
  unfold System.submit
  split
  · rename_i proposalId _
    simp only [System.finish, List.filter_append, List.length_append]
    by_cases hf : fingerprint card = f
    · subst hf
      have hone : ([⟨proposalId, card, .suppress⟩] : List Decided).filter
          (Decided.suppresses (fingerprint card)) = [⟨proposalId, card, .suppress⟩] := by
        simp [Decided.suppresses]
      rw [hone, List.length_singleton]
      omega
    · have hzero : ([⟨proposalId, card, .suppress⟩] : List Decided).filter
          (Decided.suppresses f) = [] := by
        simp [Decided.suppresses, hf]
      rw [hzero, List.length_nil]
      omega
  · exact hold.trans hle

theorem Paid.countSuppression (h : Paid s) (hl : Laws s) {place : Nat} {card : Dict}
    {ruleId : Nat} (hr : s.running[place]? = some ⟨card, .increment ruleId⟩)
    (served answered : Bool) :
    Paid (countSuppression deployment s place card ruleId served answered) := by
  have hw := @Laws.count_writes deployment s hl ruleId served
  obtain ⟨-, hnamed⟩ := hl.named _ (List.mem_of_getElem? hr) ruleId rfl
  unfold Rowan.countSuppression
  by_cases hok : answered = true ∧ (if served = true then
      s.table.incrementSuppression deployment.role ruleId else (503, s.table)).1 = 200
  · simp only [if_pos hok]
    apply h.suppress hw
    cases served with
    | false => cases hok.2
    | true => exact incrementSuppression_ok hok.2 hnamed
  · simp only [if_neg hok]
    exact ((h.writes hw).finish place).route card

theorem Paid.step (h : Paid s) (hl : Laws s) (hok : asksRule s e = true)
    (hstep : step deployment s e = some u) : Paid u := by
  cases e with
  | createRule role f reason source =>
    obtain rfl := Option.some.inj hstep
    exact h.writes (createSuppressionRule_writes hl.table _ _ _ _)
  | falseAlarm proposalId f =>
    obtain rfl := Option.some.inj hstep
    exact h.writes (addFalseAlarmRule_writes hl.table _ _)
  | incrementRule role ruleId =>
    obtain rfl := Option.some.inj hstep
    exact h.writes (incrementSuppression_writes hl.table _)
  | cleanup proposalIds =>
    obtain rfl := Option.some.inj hstep
    exact h.writes (removeDemoRules_writes hl.table _)
  | classify card llmDecision =>
    simp only [Rowan.step] at hstep
    split at hstep
    · obtain rfl := Option.some.inj hstep
      simp only [classify]
      split
      · exact h
      · rename_i hguard
        cases hdecision : applyDeterministicGuards card llmDecision with
        | route => exact h.route card
        | suppress =>
          obtain ⟨hp1, hsecurity, hllm⟩ := guards_suppress hdecision
          refine absurd ⟨hdecision, hp1, hsecurity, ?_⟩ hguard
          simpa [asksRule, hllm, hp1, hsecurity] using hok
    · cases hstep
  | lookup place seen =>
    simp only [Rowan.step] at hstep
    split at hstep
    · rename_i card hr
      obtain rfl := Option.some.inj hstep
      cases seen with
      | lost => exact (h.finish place).route card
      | refused => cases hok
      | answered =>
        simp only [asksRule, hr, Option.all_some] at hok
        obtain ⟨rule, hrule, hroom⟩ := List.any_eq_true.mp hok
        simp only [lookupRules]
        split
        · rename_i hnone
          exact absurd hroom (List.filter_eq_nil_iff.mp hnone rule hrule)
        · exact h
    · cases hstep
  | count place served answered =>
    simp only [Rowan.step] at hstep
    split at hstep
    · rename_i card ruleId hr
      obtain rfl := Option.some.inj hstep
      exact h.countSuppression hl hr served answered
    · cases hstep

theorem accepts_paid (hrun : Accepts (step deployment) .start log s)
    (hok : EveryStep (step deployment) .start log fun v x => asksRule v x = true) : Paid s := by
  refine hrun.guarded hok ?_ ?_
  · intro f
    exact Nat.zero_le _
  · intro l v x w hv h hx hstep
    exact h.step (accepts_laws hv) hx hstep

/-- In every run each fingerprint has at most one active rule, no rule counts past its maximum,
and no P1 or security-relevant signal is suppressed; and where every suppression asked a rule,
the proposals suppressed for a fingerprint are at most what the rules for it allow together. -/
theorem suppressions_bounded (hrun : Accepts (step deployment) .start log s) :
    ((s.table.rules.filter SuppressionRule.active).map SuppressionRule.fingerprint).Nodup ∧
    (∀ r ∈ s.table.everRules, r.suppressionCount ≤ r.maxSuppressions) ∧
    (∀ d ∈ s.decisions, d.decision = .suppress →
      isP1 d.card = false ∧ isSecurityRelevant d.card = false) ∧
    (EveryStep (step deployment) .start log (fun v x => asksRule v x = true) →
      ∀ f, (s.suppressed f).card ≤ allowance s.table f) := by
  have hlaws := accepts_laws hrun
  refine ⟨hlaws.table.single, hlaws.table.bounded, hlaws.decided, ?_⟩
  intro hok f
  calc (s.suppressed f).card
      ≤ ((s.decisions.filter (Decided.suppresses f)).map Decided.proposalId).length :=
        List.toFinset_card_le _
    _ = (s.decisions.filter (Decided.suppresses f)).length := List.length_map _
    _ ≤ charged s.table f := accepts_paid hrun hok f
    _ ≤ allowance s.table f := hlaws.table.charged_le f

end Run

section Sample

theorem readFields_text {formats : Formats} {fields : List Field} {d dump : Dict} {name : String}
    (h : readFields formats fields d = some dump) (hname : required name .text ∈ fields) :
    ∃ f : Str, d.get name = .str f := by
  induction fields generalizing dump with
  | nil => cases hname
  | cons field fields ih =>
    rw [readFields, List.mapM_cons] at h
    obtain ⟨item, hitem, h⟩ := Option.bind_eq_some_iff.mp h
    obtain ⟨rest, hrest, -⟩ := Option.bind_eq_some_iff.mp h
    rcases List.mem_cons.mp hname with rfl | hname
    · obtain ⟨v, hv, -⟩ := Option.map_eq_some_iff.mp hitem
      simp only [required] at hv
      cases hl : d.lookup (js name) with
      | none =>
        rw [hl] at hv
        cases hv
      | some w =>
        rw [hl] at hv
        cases w with
        | str f => exact ⟨f, by rw [Dict.get, hl, Option.getD_some]⟩
        | _ => cases hv
    · exact ih hrest hname

/-- Rowan with its own key, and the `ProposalCard` model. -/
def sampleDeployment : Deployment where
  role := some .triage
  validSignal card := (readModel ⟨some, fun _ => true⟩ .proposalCard card).isSome
  fingerprint_text card h := by
    obtain ⟨dump, hdump⟩ := Option.isSome_iff_exists.mp h
    unfold readModel at hdump
    split at hdump
    · cases hdump
    · obtain ⟨fields, hfields, -⟩ := Option.bind_eq_some_iff.mp hdump
      exact readFields_text hfields (by simp [modelFields, required])

def sampleSignal (signalId : String) : Dict :=
  [(js "card_type", .str (js "ProposalCard")), (js "signal_id", .str (js signalId)),
    (js "source", .str (js "governance_feed")), (js "timestamp", .str (js "2026-01-01T00:00:00Z")),
    (js "title", .str (js "noise")), (js "fingerprint", .str (js "fp")),
    (js "preliminary_severity", .str (js "low"))]

/-- One triage from start to end, alone. -/
def sampleTriage (signalId : String) : List Event :=
  [.classify (sampleSignal signalId) (.str (js "suppress")), .lookup 0 .answered,
    .count 0 true true]

def ruledRun : System × List Event :=
  run (step sampleDeployment) .start
    (.createRule (some .safetyReviewer) (js "fp") (js "noise") (js "P-1") ::
      (sampleTriage "S-1" ++ sampleTriage "S-2"))

theorem suppressions_bounded_sample :
    (ruledRun.1.suppressed (js "fp")).card = 2 ∧
      (ruledRun.1.suppressed (js "fp")).card ≤ allowance ruledRun.1.table (js "fp") := by
  refine ⟨by decide +kernel, ?_⟩
  exact (suppressions_bounded (run_accepts (step sampleDeployment) .start _)).2.2.2
    (EveryStep.of_test (by decide +kernel)) (js "fp")

/-- A rule lets three signals be suppressed; the lookup for the fourth leaves it out, and the
fourth is suppressed too. -/
theorem exhausted_rule_suppresses :
    let s := (run (step sampleDeployment) .start
      (.createRule (some .safetyReviewer) (js "fp") (js "noise") (js "P-1") ::
        (sampleTriage "S-1" ++ sampleTriage "S-2" ++ sampleTriage "S-3" ++
          sampleTriage "S-4"))).1
    allowance s.table (js "fp") = 3 ∧ (s.suppressed (js "fp")).card = 4 := by
  decide +kernel

end Sample
end Concordia.Rowan
