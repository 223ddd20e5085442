import Concordia.Contract.Injectivity
import Concordia.Verify.ProofRegistry

/-! Which registries make the verifier throw: those with an item whose proof type is a name
that every object literal inherits. -/
namespace Concordia.Verify
open Concordia.Js Concordia.Contract

def isArray : Value → Bool
  | .array _ => true
  | _ => false

/-- The item's proof type is an inherited name, and one of the two tables is asked for it. -/
def trips : Value → Bool
  | .object item => (asStringOrNull (prop item "proof_type")).any (includes objectPrototype) &&
      (isVerified item || isArray (prop item "checks"))
  | _ => false

/-- An item no proof can be: no record, a required field missing, an unknown proof type. -/
def Malformed : Value → Prop
  | .object item => (∃ field ∈ itemRequiredFields, hasOwn item field = false) ∨
      (asStringOrNull (prop item "proof_type")).any (includes proofTypes) = false
  | _ => True

section Lookups

theorem lookupLiteral_inherited {α : Type} {table : List (String × α)} {key : JsString}
    (hdisjoint : ∀ entry ∈ table, ∀ name ∈ objectPrototype, js entry.1 ≠ js name)
    (hkey : includes objectPrototype key = true) : lookupLiteral table key = .inherited := by
  obtain ⟨name, hname, heq⟩ := List.any_eq_true.mp hkey
  have hnone : (table.find? fun entry => js entry.1 == key) = none := by
    rw [List.find?_eq_none]
    intro entry hmem hentry
    exact hdisjoint entry hmem name hname ((beq_iff_eq.mp hentry).trans (beq_iff_eq.mp heq).symm)
  simp [lookupLiteral, hnone, hkey]

theorem lookupLiteral_ordinary {α : Type} (table : List (String × α)) {key : JsString}
    (hkey : includes objectPrototype key = false) : lookupLiteral table key ≠ .inherited := by
  unfold lookupLiteral
  split <;> simp [hkey]

theorem requiredChecks_disjoint :
    ∀ entry ∈ requiredChecks, ∀ name ∈ objectPrototype, js entry.1 ≠ js name := by
  decide +kernel

theorem verifiedProofSemantics_disjoint :
    ∀ entry ∈ verifiedProofSemantics, ∀ name ∈ objectPrototype, js entry.1 ≠ js name := by
  decide +kernel

end Lookups

section Items
variable {rt : Runtime} {item : Fields}

theorem checkDimensions_ok {proofType : JsString} {dimensions : List (String × Option (List String))}
    (hall : ∀ d ∈ dimensions, d.2.isSome) : ∃ reasons,
      checkDimensions item proofType dimensions = .ok reasons := by
  induction dimensions with
  | nil => exact ⟨[], rfl⟩
  | cons d dimensions ih =>
    obtain ⟨field, allowed⟩ := d
    obtain ⟨rest, hrest⟩ := ih fun d hd => hall d (by simp [hd])
    obtain ⟨set, rfl⟩ := Option.isSome_iff_exists.mp (hall (field, allowed) (by simp))
    exact ⟨_, by simp only [checkDimensions, checkDimension, hrest, bind, Except.bind]; rfl⟩

theorem validateVerifiedProofSemantics_ok {proofType : Option JsString} :
    (∃ reasons, validateVerifiedProofSemantics item proofType = .ok reasons) ↔
      (proofType.any (includes objectPrototype) && isVerified item) = false := by
  unfold validateVerifiedProofSemantics
  cases hv : isVerified item with
  | false => simp
  | true =>
    cases proofType with
    | none => simp
    | some name =>
      cases hname : includes objectPrototype name with
      | true =>
        simp [lookupLiteral_inherited verifiedProofSemantics_disjoint hname, checkDimensions,
          checkDimension, bind, Except.bind, hname]
      | false =>
        have hordinary := lookupLiteral_ordinary verifiedProofSemantics hname
        simp only [Option.any_some, hname, Bool.false_and, iff_true]
        cases hl : lookupLiteral verifiedProofSemantics name with
        | missing => exact ⟨[], rfl⟩
        | inherited => exact absurd hl hordinary
        | own contract =>
          refine checkDimensions_ok ?_
          cases contract.temporalScope <;> simp

theorem validateChecks_ok (rt : Runtime) {input : Value} {proofType : Option JsString}
    (capturedAt : Value) (referenceTime : JsString) :
    (∃ reasons, validateChecks rt input proofType capturedAt referenceTime = .ok reasons) ↔
      (proofType.any (includes objectPrototype) && isArray input) = false := by
  cases input with
  | array observed =>
    simp only [validateChecks, isArray, Bool.and_true]
    cases proofType with
    | none => simp
    | some name =>
      cases hname : includes objectPrototype name with
      | true => simp [lookupLiteral_inherited requiredChecks_disjoint hname, hname]
      | false =>
        have hordinary := lookupLiteral_ordinary requiredChecks hname
        simp only [Option.any_some, hname, iff_true]
        cases hl : lookupLiteral requiredChecks name with
        | missing => exact ⟨_, rfl⟩
        | inherited => exact absurd hl hordinary
        | own required => exact ⟨_, rfl⟩
  | _ => simp [validateChecks, isArray]

theorem verifyItem_ok {raw : Value} {proposalId : JsString} {artifacts : List (JsString × Artifact)}
    {generatedAt referenceTime : JsString} :
    (∃ result, verifyItem rt raw proposalId artifacts generatedAt referenceTime = .ok result) ↔
      trips raw = false := by
  cases raw with
  | object item =>
    have hsplit : trips (.object item) = false ↔
        ((asStringOrNull (prop item "proof_type")).any (includes objectPrototype) &&
          isVerified item) = false ∧
        ((asStringOrNull (prop item "proof_type")).any (includes objectPrototype) &&
          isArray (prop item "checks")) = false := by
      simp only [trips]
      cases (asStringOrNull (prop item "proof_type")).any (includes objectPrototype) <;> simp
    rw [hsplit, ← validateVerifiedProofSemantics_ok,
      ← validateChecks_ok rt (prop item "captured_at") referenceTime]
    simp only [verifyItem, itemReasons, except_bind_ok, pure, Except.pure]
    constructor
    · rintro ⟨_, _, ⟨semantics, hs, checks, hc, _⟩, _⟩
      exact ⟨⟨semantics, hs⟩, ⟨checks, hc⟩⟩
    · rintro ⟨⟨semantics, hs⟩, ⟨checks, hc⟩⟩
      exact ⟨_, _, ⟨semantics, hs, checks, hc, rfl⟩, rfl⟩
  | _ => simp [verifyItem, trips]

theorem conclude_explained {reasons unavailable unknown : List JsString} {green : Bool}
    (h : (conclude reasons unavailable unknown green).1 ≠ .verified) :
    (conclude reasons unavailable unknown green).2 ≠ [] := by
  unfold conclude at h ⊢
  cases reasons <;> cases unavailable <;> cases unknown <;> cases green <;> simp_all

theorem conclude_invalid {reasons unavailable unknown : List JsString} {green : Bool}
    (h : reasons ≠ []) : (conclude reasons unavailable unknown green).1 = .invalid := by
  cases reasons with
  | nil => exact absurd rfl h
  | cons => simp [conclude]

theorem identityReasons_malformed (h : Malformed (.object item)) :
    identityReasons item (asStringOrNull (prop item "proof_type")) ≠ [] := by
  unfold identityReasons
  intro hnil
  simp only [List.append_eq_nil_iff, List.flatMap_eq_nil_iff] at hnil
  obtain ⟨⟨⟨-, hfields⟩, -⟩, htype⟩ := hnil
  rcases h with ⟨field, hmem, hmissing⟩ | hunknown
  · simpa [reasonIf, hmissing] using hfields field hmem
  · simp [reasonIf, hunknown] at htype

/-- What an item's result owes to the item. -/
def Answers (raw : Value) (result : ItemVerificationResult) : Prop :=
  (result.status ≠ .verified → result.reasons ≠ []) ∧ (Malformed raw → result.status = .invalid)

theorem verifyItem_answers {raw : Value} {proposalId : JsString}
    {artifacts : List (JsString × Artifact)} {generatedAt referenceTime : JsString}
    {result : InternalItemVerificationResult}
    (h : verifyItem rt raw proposalId artifacts generatedAt referenceTime = .ok result) :
    Answers raw result.toItemVerificationResult := by
  cases raw with
  | object item =>
    simp only [verifyItem, itemReasons, except_bind_ok, pure, Except.pure, Except.ok.injEq] at h
    obtain ⟨reasons, ⟨semantics, -, checks, -, rfl⟩, rfl⟩ := h
    refine ⟨conclude_explained, fun hbad => conclude_invalid ?_⟩
    simp [identityReasons_malformed hbad]
  | _ =>
    simp only [verifyItem, Except.ok.injEq] at h
    subst h
    exact ⟨fun _ => List.cons_ne_nil _ _, fun _ => rfl⟩

theorem bindTreasury_answers {raw : Value} {exactItems : List ExactEnvelopeV3Facts}
    {item : InternalItemVerificationResult} (h : Answers raw item.toItemVerificationResult) :
    Answers raw (bindTreasury exactItems item).toItemVerificationResult := by
  have hinvalid : ∀ reason, Answers raw (invalidateItem item reason).toItemVerificationResult :=
    fun reason => ⟨fun _ => by simp [invalidateItem], fun _ => rfl⟩
  unfold bindTreasury
  split
  · dsimp only
    split
    · split
      · exact h
      · exact hinvalid _
    · exact hinvalid _
  · exact h

end Items

section Registry
variable {rt : Runtime} {top : TopLevel} {artifacts : List (JsString × Artifact)}

theorem verifyItems_ok {raws : List Value} :
    (∃ results, verifyItems rt top artifacts raws = .ok results) ↔
      ∀ raw ∈ raws, trips raw = false := by
  induction raws with
  | nil => simp [verifyItems]
  | cons raw raws ih =>
    rw [List.forall_mem_cons, ← ih, ← verifyItem_ok]
    simp only [verifyItems, except_bind_ok, pure, Except.pure, Except.ok.injEq]
    constructor
    · rintro ⟨_, result, h, results, hs, -⟩
      exact ⟨⟨result, h⟩, ⟨results, hs⟩⟩
    · rintro ⟨⟨result, h⟩, ⟨results, hs⟩⟩
      exact ⟨_, result, h, results, hs, rfl⟩

theorem verifyItems_answers {raws : List Value} {results : List InternalItemVerificationResult}
    (h : verifyItems rt top artifacts raws = .ok results) :
    List.Forall₂ (fun raw item => Answers raw item.toItemVerificationResult) raws results := by
  induction raws generalizing results with
  | nil =>
    simp only [verifyItems, Except.ok.injEq] at h
    subst h
    exact .nil
  | cons raw raws ih =>
    simp only [verifyItems, except_bind_ok, pure, Except.pure, Except.ok.injEq] at h
    obtain ⟨result, hr, rest, hrest, rfl⟩ := h
    exact .cons (verifyItem_answers hr) (ih hrest)

/-- The registries whose items are looked at. -/
structure TopLevelAccepted (rt : Runtime) (now : Option JsString) (registry : Fields)
    (items : List Value) : Prop where
  reference : now.any (fun now => !isRfc3339String now) = false
  present : ∀ key ∈ topLevelFields, hasOwn registry key
  known : ∀ key ∈ keys registry, includes topLevelFields key
  version : strictEq (prop registry "schema_version") (.number 1)
  generated : isRfc3339 (prop registry "generated_at")
  proposal : isStringMatching (prop registry "proposal_id") isRegistryProposalId
  items_eq : prop registry "items" = .array items
  bounded : items.length ≤ 128
  distinct : duplicateProofId items [] = none
  past : ∀ generatedAt, prop registry "generated_at" = .string generatedAt →
    isAfter rt generatedAt (now.getD rt.clock) = false

/-- The registry is not rejected as a whole, and these are its items. -/
def HasItems (rt : Runtime) (input : Value) (now : Option JsString) (items : List Value) : Prop :=
  ∃ registry, input = .object registry ∧ TopLevelAccepted rt now registry items

theorem isStringMatching_iff {value : Value} {p : JsString → Bool} :
    isStringMatching value p ↔ ∃ s, value = .string s ∧ p s := by
  cases value <;> simp [isStringMatching]

theorem checkTopLevel_ok {input : Value} {now : Option JsString} {items : List Value} :
    (∃ top, checkTopLevel rt input now = .ok top ∧ top.items = items) ↔
      HasItems rt input now items := by
  constructor
  · rintro ⟨top, h, rfl⟩
    unfold checkTopLevel at h
    split at h
    · cases h
    rename_i hnow
    cases input with
    | object registry =>
      refine ⟨registry, rfl, ?_⟩
      dsimp only at h
      split_ifs at h with hmissing hunknown hversion hgenerated hproposal
      cases hg : prop registry "generated_at" <;> cases hp : prop registry "proposal_id" <;>
        cases hi : prop registry "items" <;> simp only [hg, hp, hi, reduceCtorEq] at h
      split at h
      · cases h
      · rename_i hbound
        split at h
        · cases h
        · rename_i hdistinct
          split_ifs at h with hfuture
          cases h
          constructor <;> simp_all
    | _ => cases h
  · rintro ⟨registry, rfl, h⟩
    obtain ⟨generatedAt, hg, hg'⟩ := isStringMatching_iff.mp h.generated
    obtain ⟨proposalId, hp, hp'⟩ := isStringMatching_iff.mp h.proposal
    have hmissing : topLevelFields.filter (fun key => !hasOwn registry key) = [] := by
      simpa [List.filter_eq_nil_iff] using h.present
    have hunknown : (keys registry).filter (fun key => !includes topLevelFields key) = [] := by
      simpa [List.filter_eq_nil_iff] using h.known
    refine ⟨⟨proposalId, generatedAt, now.getD rt.clock, items⟩, ?_, rfl⟩
    simp [checkTopLevel, h.reference, hmissing, hunknown, h.version, isRfc3339, isStringMatching, hg,
      hg', hp, hp', h.items_eq, Nat.not_lt.mpr h.bounded, h.distinct, h.past _ hg]

/-- A structured result: one answer for each item, or an error for the whole registry. -/
structure Structured (rt : Runtime) (input : Value) (now : Option JsString)
    (result : RegistryVerificationResult) : Prop where
  answers : ∀ items, HasItems rt input now items → List.Forall₂ Answers items result.items
  error : result.error.isSome ↔ ¬ ∃ items, HasItems rt input now items

theorem topLevelError_isSome {input : Value} {now : Option JsString}
    {result : RegistryVerificationResult} (h : checkTopLevel rt input now = .error result) :
    result.error.isSome := by
  simp only [checkTopLevel] at h
  repeat' first
    | (cases h; rfl)
    | cases h
    | split at h

theorem applyCrossProofBindings_answers {raws : List Value}
    {items : List InternalItemVerificationResult}
    (h : List.Forall₂ (fun raw item => Answers raw item.toItemVerificationResult) raws items) :
    List.Forall₂ Answers raws ((applyCrossProofBindings items).map
      fun item => item.toItemVerificationResult) := by
  simp only [applyCrossProofBindings, List.map_map]
  rw [List.forall₂_map_right_iff]
  exact h.imp fun _ _ ha => bindTreasury_answers ha

theorem verifyProofRegistry_structured {input : Value} {now : Option JsString}
    {result : RegistryVerificationResult}
    (h : verifyProofRegistry rt input artifacts now = .ok result) :
    Structured rt input now result := by
  cases htop : checkTopLevel rt input now with
  | error rejected =>
    have hnone : ¬ ∃ items, HasItems rt input now items := by
      rintro ⟨items, hitems⟩
      obtain ⟨top, haccepted, -⟩ := checkTopLevel_ok.mpr hitems
      exact absurd (htop.symm.trans haccepted) (by simp)
    simp only [verifyProofRegistry, htop, Except.ok.injEq] at h
    subst h
    exact ⟨fun items hitems => absurd ⟨items, hitems⟩ hnone,
      fun _ => hnone, fun _ => topLevelError_isSome htop⟩
  | ok top =>
    simp only [verifyProofRegistry, htop, except_bind_ok, pure, Except.pure, Except.ok.injEq] at h
    obtain ⟨results, hresults, rfl⟩ := h
    have haccepted := checkTopLevel_ok.mp ⟨top, htop, rfl⟩
    refine ⟨fun items hitems => ?_, by simpa using ⟨_, haccepted⟩⟩
    obtain ⟨top', htop', rfl⟩ := checkTopLevel_ok.mpr hitems
    obtain rfl := Except.ok.inj (htop.symm.trans htop')
    exact applyCrossProofBindings_answers (verifyItems_answers hresults)

end Registry

/-- The verifier returns a structured result exactly for the registries that are rejected as a
whole or have no item whose proof type is an inherited name put to a table lookup. -/
theorem registry_structured_iff (rt : Runtime) (input : Value)
    (artifacts : List (JsString × Artifact)) (now : Option JsString) :
    (∃ result, verifyProofRegistry rt input artifacts now = .ok result ∧
      Structured rt input now result) ↔
    ∀ items, HasItems rt input now items → ∀ item ∈ items, trips item = false := by
  constructor
  · rintro ⟨result, hresult, -⟩ items hitems
    obtain ⟨top, htop, rfl⟩ := checkTopLevel_ok.mpr hitems
    rw [← verifyItems_ok]
    simp only [verifyProofRegistry, htop, except_bind_ok] at hresult
    obtain ⟨results, hresults, -⟩ := hresult
    exact ⟨results, hresults⟩
  · intro hall
    have hok : ∃ result, verifyProofRegistry rt input artifacts now = .ok result := by
      cases htop : checkTopLevel rt input now with
      | error rejected => exact ⟨rejected, by simp only [verifyProofRegistry, htop]⟩
      | ok top =>
        have hnone := hall top.items (checkTopLevel_ok.mp ⟨top, htop, rfl⟩)
        obtain ⟨results, hresults⟩ := verifyItems_ok.mpr hnone
        simp only [verifyProofRegistry, htop, except_bind_ok, pure, Except.pure, Except.ok.injEq]
        exact ⟨_, results, hresults, rfl⟩
    obtain ⟨result, hresult⟩ := hok
    exact ⟨result, hresult, verifyProofRegistry_structured hresult⟩

section Inherited

/-- New Year's midnight on the verifier's clock; nothing of the artifacts is reached. -/
def midnightRuntime : Runtime where
  utf8Encode := fun s => s.map (·.toUInt8)
  utf8Decode := fun bytes => bytes.map (·.toUInt16)
  sha256Hex := fun _ => []
  dateParse := fun s => if s = js "2026-01-01T00:00:00Z" then some 1767225600000 else none
  parseUrl := fun _ => none
  clock := js "2026-01-01T00:00:00Z"
  verifyExactEnvelopeV3Artifact := fun _ => .error .notAnError
  verifyHistoricalOdraReceiptArtifact := fun _ => .error .notAnError
  verifyNativeTreasuryExecutionArtifact := fun _ => .error .notAnError
  verifySafePayV2ArtifactEnvelope := fun _ => .error .notAnError
  verifyOfficialX402ArtifactEnvelope := fun _ => .error .notAnError

def constructorRegistry : String :=
  "\x7b\"schema_version\":1,\"generated_at\":\"2026-01-01T00:00:00Z\"," ++
  "\"proposal_id\":\"DAO-PROP-1\",\"items\":[\x7b\"proof_type\":\"constructor\",\"checks\":[]\x7d]\x7d"

/-- An item of the type `constructor` makes the verifier throw. -/
theorem registry_structured_constructor : ∃ input,
    parseJsonStrict (js constructorRegistry) = .ok input ∧
    ∀ result, verifyProofRegistry midnightRuntime input [] none ≠ .ok result := by
  have h : (match parseJsonStrict (js constructorRegistry) with
      | .ok input => !(verifyProofRegistry midnightRuntime input [] none).toBool
      | .error _ => false) = true := by
    decide +kernel
  split at h
  case h_1 input hparse =>
    refine ⟨input, hparse, fun result hok => ?_⟩
    simp [hok, Except.toBool] at h
  case h_2 => cases h

end Inherited
end Concordia.Verify
