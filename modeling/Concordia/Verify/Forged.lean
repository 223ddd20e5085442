import Concordia.Verify.RegistryTotality

/-! The members in which an item asserts its own verdict are inert: they change the list of the
ignored assertions and nothing else. -/
namespace Concordia.Verify
open Concordia.Js

section Fields

def isForged (name : JsString) : Bool := includes forgedBooleanFields name

/-- The members of an item without its self-asserted booleans. -/
def honest (item : Fields) : Fields := item.filter fun member => !isForged member.1

theorem lookup_honest {name : JsString} (h : isForged name = false) (item : Fields) :
    (honest item).lookup name = item.lookup name := by
  induction item with
  | nil => rfl
  | cons member item ih =>
    obtain ⟨key, value⟩ := member
    by_cases hkey : name = key
    · subst hkey
      simp [honest, h]
    · have hne : (name == key) = false := beq_eq_false_iff_ne.mpr hkey
      have htail : ((key, value) :: item).lookup name = item.lookup name := by
        rw [List.lookup_cons, hne]
      rw [htail, ← ih]
      cases hforged : isForged key with
      | true => simp [honest, hforged]
      | false => simp [honest, hforged, List.lookup_cons, hne]

theorem required_not_forged : ∀ field ∈ itemRequiredFields, isForged (js field) = false := by
  decide +kernel

variable {field : String}

theorem prop_honest (h : field ∈ itemRequiredFields) (item : Fields) :
    prop (honest item) field = prop item field := by
  rw [prop, prop, lookup_honest (required_not_forged field h)]

theorem hasOwn_honest (h : field ∈ itemRequiredFields) (item : Fields) :
    hasOwn (honest item) field = hasOwn item field := by
  rw [hasOwn, hasOwn, lookup_honest (required_not_forged field h)]

/-- A forged member is an allowed one, so that removing it names no other unknown field. -/
theorem unknown_honest (item : Fields) :
    ((keys (honest item)).filter fun field => !includes allowedItemFields field) =
      (keys item).filter fun field => !includes allowedItemFields field := by
  induction item with
  | nil => rfl
  | cons member item ih =>
    obtain ⟨key, value⟩ := member
    cases hforged : isForged key with
    | true =>
      have hallowed : includes allowedItemFields key = true := by
        obtain ⟨name, hmem, heq⟩ := List.any_eq_true.mp hforged
        exact List.any_eq_true.mpr ⟨name, List.mem_append_right _ hmem, heq⟩
      simpa [honest, keys, hforged, hallowed] using ih
    | false =>
      have hcons : honest ((key, value) :: item) = (key, value) :: honest item := by
        simp [honest, hforged]
      rw [hcons]
      simp only [keys, List.map_cons, List.filter_cons] at ih ⊢
      rw [ih]

end Fields

section Items
variable {rt : Runtime} (item : Fields)

theorem isVerified_honest : isVerified (honest item) = isVerified item := by
  rw [isVerified, isVerified, prop_honest (by decide)]

theorem checkDimension_honest {field : String} (h : field ∈ itemRequiredFields)
    (proofType : JsString) (allowed : Option (List String)) :
    checkDimension (honest item) proofType field allowed =
      checkDimension item proofType field allowed := by
  simp only [checkDimension, prop_honest h]

theorem checkDimensions_honest (proofType : JsString)
    {dimensions : List (String × Option (List String))}
    (h : ∀ dimension ∈ dimensions, dimension.1 ∈ itemRequiredFields) :
    checkDimensions (honest item) proofType dimensions =
      checkDimensions item proofType dimensions := by
  induction dimensions with
  | nil => rfl
  | cons dimension dimensions ih =>
    obtain ⟨field, allowed⟩ := dimension
    have hfield : field ∈ itemRequiredFields := h (field, allowed) List.mem_cons_self
    simp only [checkDimensions, checkDimension_honest item hfield,
      ih fun other hmem => h other (List.mem_cons_of_mem _ hmem)]

theorem validateVerifiedProofSemantics_honest (proofType : Option JsString) :
    validateVerifiedProofSemantics (honest item) proofType =
      validateVerifiedProofSemantics item proofType := by
  unfold validateVerifiedProofSemantics
  rw [isVerified_honest]
  cases isVerified item with
  | false => rfl
  | true =>
    cases proofType with
    | none => rfl
    | some name =>
      dsimp only
      cases lookupLiteral verifiedProofSemantics name with
      | missing => rfl
      | inherited =>
        apply checkDimensions_honest
        simp [itemRequiredFields]
      | own contract =>
        apply checkDimensions_honest
        cases contract.temporalScope <;> simp [itemRequiredFields]

theorem requireFields_honest {fields : List String} (h : ∀ field ∈ fields, field ∈ itemRequiredFields)
    (requirement : JsString) :
    requireFields (honest item) fields requirement = requireFields item fields requirement := by
  apply List.flatMap_congr
  intro field hmem
  rw [prop_honest (h field hmem)]

theorem validateNullability_honest (proofType : Option JsString) :
    validateNullability (honest item) proofType = validateNullability item proofType := by
  simp (disch := decide) only [validateNullability, isVerified_honest,
    requireFields_honest, prop_honest]

theorem identityReasons_honest (proofType : Option JsString) :
    identityReasons (honest item) proofType = identityReasons item proofType := by
  have hmissing : (itemRequiredFields.flatMap fun field =>
      reasonIf (!hasOwn (honest item) field) (js s!"missing required field {field}")) =
      itemRequiredFields.flatMap fun field =>
        reasonIf (!hasOwn item field) (js s!"missing required field {field}") := by
    apply List.flatMap_congr
    intro field hmem
    rw [hasOwn_honest hmem]
  have hproof : prop (honest item) "proof_id" = prop item "proof_id" := prop_honest (by decide) item
  rw [identityReasons, identityReasons, hmissing, unknown_honest, hproof]

theorem itemReasons_honest (proposalId generatedAt referenceTime : JsString) :
    itemReasons rt (honest item) proposalId generatedAt referenceTime =
      itemReasons rt item proposalId generatedAt referenceTime := by
  have hfields (fields : List String) (valid : Value → Bool) (reason : String → JsString)
      (h : ∀ field ∈ fields, field ∈ itemRequiredFields) :
      (fields.flatMap fun field => reasonIf (!valid (prop (honest item) field)) (reason field)) =
        fields.flatMap fun field => reasonIf (!valid (prop item field)) (reason field) := by
    apply List.flatMap_congr
    intro field hmem
    rw [prop_honest (h field hmem)]
  unfold itemReasons
  dsimp only
  rw [hfields _ (fun value => isNullableMatch value (isHexOf 64)) _ (by simp [itemRequiredFields]),
    hfields _ (fun value => isNullableMatch value (isHexOf 40)) _ (by simp [itemRequiredFields])]
  simp (disch := decide) only [validateVerifiedProofSemantics_honest,
    identityReasons_honest, validateNullability_honest, isVerified_honest, prop_honest]

theorem runAdapter_honest (proofType : Option JsString) (parsed : Value) :
    runAdapter rt (honest item) proofType parsed = runAdapter rt item proofType parsed := by
  have hlineage : prop (honest item) "lineage" = prop item "lineage" := prop_honest (by decide) item
  rw [runAdapter, runAdapter, hlineage]

/-- An adapter's claims are about required fields. -/
theorem runAdapter_claims {proofType : Option JsString} {parsed : Value} {success : AdapterSuccess}
    (h : runAdapter rt item proofType parsed = .ok success) :
    ∀ claim ∈ success.claims, claim.1 ∈ itemRequiredFields := by
  unfold runAdapter at h
  split_ifs at h
  all_goals
    simp only [Contract.except_bind_ok, pure, Except.pure, Except.ok.injEq] at h
    obtain ⟨facts, -, rfl⟩ := h
    simp [itemRequiredFields]

theorem validateAdapterClaims_honest {expected : List (String × JsString)}
    (h : ∀ claim ∈ expected, claim.1 ∈ itemRequiredFields) :
    validateAdapterClaims (honest item) expected = validateAdapterClaims item expected := by
  apply List.flatMap_congr
  intro ⟨field, value⟩ hmem
  have hfield : field ∈ itemRequiredFields := h (field, value) hmem
  simp only [prop_honest hfield]

theorem tryAdapter_honest (proofType : Option JsString) (artifact : Artifact) :
    tryAdapter rt (honest item) proofType artifact = tryAdapter rt item proofType artifact := by
  unfold tryAdapter
  simp only [runAdapter_honest]
  cases hparsed : (parseJsonStrict (rt.utf8Decode (artifactBytes rt artifact))).mapError
      fun e => AdapterError.strictJson (strictJsonMessage e) with
  | error thrown => cases thrown <;> rfl
  | ok parsed =>
    simp only [bind, Except.bind]
    cases hrun : runAdapter rt item proofType parsed with
    | error thrown => cases thrown <;> rfl
    | ok success => simp only [validateAdapterClaims_honest item (runAdapter_claims item hrun)]

theorem gatherEvidence_honest (proofType : Option JsString) (artifact : Option Artifact)
    (hashVerified : Bool) (referenceTime : JsString) :
    gatherEvidence rt (honest item) proofType artifact hashVerified referenceTime =
      gatherEvidence rt item proofType artifact hashVerified referenceTime := by
  simp (disch := decide) only [gatherEvidence, prop_honest, tryAdapter_honest]

/-- The result without its list of ignored assertions. -/
def withoutIgnored (result : InternalItemVerificationResult) : InternalItemVerificationResult :=
  { result with ignoredAssertions := [] }

def honestItem : Value → Value
  | .object item => .object (honest item)
  | raw => raw

/-- What an item asserts of itself changes the list of its ignored assertions only. -/
theorem verifyItem_honest (raw : Value) (proposalId : JsString)
    (artifacts : List (JsString × Artifact)) (generatedAt referenceTime : JsString) :
    (verifyItem rt (honestItem raw) proposalId artifacts generatedAt referenceTime).map
        withoutIgnored =
      (verifyItem rt raw proposalId artifacts generatedAt referenceTime).map withoutIgnored := by
  cases raw with
  | object item =>
    simp (disch := decide) only [honestItem, verifyItem, itemReasons_honest, isVerified_honest,
      gatherEvidence_honest, prop_honest]
    cases itemReasons rt item proposalId generatedAt referenceTime with
    | error thrown => rfl
    | ok reasons => rfl
  | _ => rfl

end Items

section Registry
variable {rt : Runtime}

def honestItems : Value → Value
  | .array items => .array (items.map honestItem)
  | input => input

def honestMembers (registry : Fields) : Fields :=
  registry.map fun (name, value) => (name, if name = js "items" then honestItems value else value)

/-- A registry whose items assert nothing of themselves. -/
def honestRegistry : Value → Value
  | .object registry => .object (honestMembers registry)
  | input => input

theorem lookup_honestMembers (name : JsString) (registry : Fields) :
    (honestMembers registry).lookup name = (registry.lookup name).map fun value =>
      if name = js "items" then honestItems value else value := by
  induction registry with
  | nil => rfl
  | cons member registry ih =>
    obtain ⟨key, value⟩ := member
    rw [honestMembers, List.map_cons, List.lookup_cons, List.lookup_cons]
    by_cases hkey : name = key
    · subst hkey
      simp
    · have hne : (name == key) = false := beq_eq_false_iff_ne.mpr hkey
      simpa only [hne, honestMembers] using ih

theorem hasOwn_honestMembers (registry : Fields) (field : String) :
    hasOwn (honestMembers registry) field = hasOwn registry field := by
  rw [hasOwn, hasOwn, lookup_honestMembers, Option.isSome_map]

theorem keys_honestMembers (registry : Fields) : keys (honestMembers registry) = keys registry := by
  simp [keys, honestMembers]

theorem prop_honestMembers {field : String} (h : js field ≠ js "items") (registry : Fields) :
    prop (honestMembers registry) field = prop registry field := by
  rw [prop, prop, lookup_honestMembers]
  simp only [h, if_false, Option.map_id']

theorem items_honestMembers (registry : Fields) :
    prop (honestMembers registry) "items" = honestItems (prop registry "items") := by
  rw [prop, prop, lookup_honestMembers]
  cases registry.lookup (js "items") <;> rfl

theorem duplicateProofId_honest (items : List Value) (seen : List JsString) :
    duplicateProofId (items.map honestItem) seen = duplicateProofId items seen := by
  induction items generalizing seen with
  | nil => rfl
  | cons raw items ih =>
    cases raw with
    | object item =>
      have hproof : prop (honest item) "proof_id" = prop item "proof_id" :=
        prop_honest (by decide) item
      simp only [List.map_cons, honestItem, duplicateProofId, hproof, ih]
    | _ => exact ih seen

theorem checkTopLevel_honest (input : Value) (now : Option JsString) :
    checkTopLevel rt (honestRegistry input) now =
      (checkTopLevel rt input now).map fun top => { top with items := top.items.map honestItem } := by
  unfold checkTopLevel
  split
  · rfl
  cases input with
  | object registry =>
    simp only [honestRegistry, hasOwn_honestMembers, keys_honestMembers, items_honestMembers,
      prop_honestMembers (show js "schema_version" ≠ js "items" by decide),
      prop_honestMembers (show js "generated_at" ≠ js "items" by decide),
      prop_honestMembers (show js "proposal_id" ≠ js "items" by decide)]
    split_ifs
    all_goals try rfl
    cases prop registry "generated_at" <;> cases prop registry "proposal_id" <;>
      cases prop registry "items" <;> try rfl
    rename_i generatedAt proposalId items
    simp only [honestItems, List.length_map, duplicateProofId_honest]
    split
    · rfl
    · cases duplicateProofId items [] with
      | some proofId => rfl
      | none =>
        dsimp only
        split <;> rfl
  | _ => rfl

theorem except_map_cons {ε α β : Type} (f : α → β) (head : Except ε α) (tail : Except ε (List α)) :
    (do let a ← head; let rest ← tail; pure (a :: rest) : Except ε (List α)).map (List.map f) =
      (do let a ← head.map f; let rest ← tail.map (List.map f); pure (a :: rest)) := by
  cases head with
  | error thrown => rfl
  | ok a => cases tail <;> rfl

theorem verifyItems_honest {top : TopLevel} (artifacts : List (JsString × Artifact))
    (raws items : List Value) :
    (verifyItems rt { top with items := items } artifacts (raws.map honestItem)).map
        (List.map withoutIgnored) =
      (verifyItems rt top artifacts raws).map (List.map withoutIgnored) := by
  induction raws with
  | nil => rfl
  | cons raw raws ih =>
    rw [List.map_cons, verifyItems, verifyItems, except_map_cons, except_map_cons, ih,
      verifyItem_honest]

/-- The join over the items looks at no ignored assertion. -/
theorem applyCrossProofBindings_withoutIgnored (items : List InternalItemVerificationResult) :
    (applyCrossProofBindings items).map withoutIgnored =
      applyCrossProofBindings (items.map withoutIgnored) := by
  have hbind (exactItems : List ExactEnvelopeV3Facts) (item : InternalItemVerificationResult) :
      withoutIgnored (bindTreasury exactItems item) =
        bindTreasury exactItems (withoutIgnored item) := by
    have hfacts : nativeTreasuryFacts (withoutIgnored item) = nativeTreasuryFacts item := rfl
    have hjoined : (isType (withoutIgnored item).proofType "native_treasury_execution_v1" &&
        (withoutIgnored item).status == .verified) =
        (isType item.proofType "native_treasury_execution_v1" && item.status == .verified) := rfl
    rw [bindTreasury, bindTreasury, hfacts, hjoined]
    cases isType item.proofType "native_treasury_execution_v1" && item.status == .verified with
    | false => rfl
    | true =>
      cases nativeTreasuryFacts item with
      | none => rfl
      | some facts =>
        dsimp only
        split
        · split <;> rfl
        · rfl
  simp only [applyCrossProofBindings, List.map_map, List.filterMap_map]
  apply List.map_congr_left
  intro item _
  exact hbind _ item

/-- What a verification says, apart from the assertions it ignored. -/
def verdict (result : RegistryVerificationResult) : RegistryVerificationResult :=
  { result with items := result.items.map fun item => { item with ignoredAssertions := [] } }

theorem overallStatus_ignored (items : List ItemVerificationResult) :
    overallStatus (items.map fun item => { item with ignoredAssertions := [] }) =
      overallStatus items := by
  simp only [overallStatus, List.isEmpty_map, List.any_map, Function.comp_def]

theorem summarize_ignored (items : List ItemVerificationResult) :
    summarize (items.map fun item => { item with ignoredAssertions := [] }) = summarize items := by
  simp only [summarize, List.length_map, List.countP_map, Function.comp_def]

/-- The answer of a registry whose items were all verified. -/
def report (top : TopLevel) (internalItems : List InternalItemVerificationResult) :
    RegistryVerificationResult :=
  let items := (applyCrossProofBindings internalItems).map fun item =>
    item.toItemVerificationResult
  { status := overallStatus items
    valid := overallStatus items = .verified
    exitCode := exitCodeFor (overallStatus items)
    proposalId := some top.proposalId
    verificationScope := .artifactTranscriptConsistency
    summary := summarize items
    items := items
    error := none }

theorem verdict_report (top : TopLevel) (items : List InternalItemVerificationResult) :
    verdict (report top items) = report top (items.map withoutIgnored) := by
  have hmembers : ((applyCrossProofBindings (items.map withoutIgnored)).map fun item =>
      item.toItemVerificationResult) =
      ((applyCrossProofBindings items).map fun item => item.toItemVerificationResult).map
        fun item => { item with ignoredAssertions := [] } := by
    rw [← applyCrossProofBindings_withoutIgnored, List.map_map, List.map_map]
    rfl
  simp only [verdict, report, hmembers, overallStatus_ignored, summarize_ignored]

theorem verifyProofRegistry_report {input : Value} {now : Option JsString} {top : TopLevel}
    (h : checkTopLevel rt input now = .ok top) (artifacts : List (JsString × Artifact)) :
    (verifyProofRegistry rt input artifacts now).map verdict =
      ((verifyItems rt top artifacts top.items).map (List.map withoutIgnored)).map (report top) := by
  simp only [verifyProofRegistry, h]
  cases verifyItems rt top artifacts top.items with
  | error thrown => rfl
  | ok items => exact congrArg Except.ok (verdict_report top items)

/-- Taking the self-asserted booleans out of a registry changes no more than the list of the
ignored assertions. -/
theorem verifyProofRegistry_honest (input : Value) (artifacts : List (JsString × Artifact))
    (now : Option JsString) :
    (verifyProofRegistry rt (honestRegistry input) artifacts now).map verdict =
      (verifyProofRegistry rt input artifacts now).map verdict := by
  have htop := @checkTopLevel_honest rt input now
  cases hinput : checkTopLevel rt input now with
  | error result =>
    rw [hinput] at htop
    simp only [verifyProofRegistry, hinput, htop, Except.map]
  | ok top =>
    rw [hinput] at htop
    rw [verifyProofRegistry_report hinput, verifyProofRegistry_report htop,
      verifyItems_honest artifacts top.items]
    rfl

end Registry

/-- Two registries that differ in the self-asserted booleans of their items only. -/
def SameButForged (input other : Value) : Prop := honestRegistry input = honestRegistry other

/-- Self-asserted booleans are inert: the two verifications return the same, or throw the same,
but for the lists of ignored assertions. -/
theorem self_asserted_inert (rt : Runtime) {input other : Value} (h : SameButForged input other)
    (artifacts : List (JsString × Artifact)) (now : Option JsString) :
    (verifyProofRegistry rt input artifacts now).map verdict =
      (verifyProofRegistry rt other artifacts now).map verdict := by
  calc (verifyProofRegistry rt input artifacts now).map verdict
      = (verifyProofRegistry rt (honestRegistry input) artifacts now).map verdict :=
        (verifyProofRegistry_honest input artifacts now).symm
    _ = (verifyProofRegistry rt (honestRegistry other) artifacts now).map verdict := by rw [h]
    _ = (verifyProofRegistry rt other artifacts now).map verdict :=
        verifyProofRegistry_honest other artifacts now

def assertingItem (assertions : Fields) : Value :=
  .object ((js "proof_id", .string (js "room")) :: assertions)

def assertingRegistry (assertions : Fields) : Value :=
  .object [(js "schema_version", .number 1),
    (js "generated_at", .string (js "2026-07-01T00:00:00Z")),
    (js "proposal_id", .string (js "DAO-1")), (js "items", .array [assertingItem assertions])]

/-- An item that calls itself verified, beside one that does not. -/
theorem self_asserted_inert_sample :
    (verifyProofRegistry midnightRuntime
        (assertingRegistry [(js "verified", .boolean true), (js "chain_valid", .boolean true)])
        [] none).map verdict =
      (verifyProofRegistry midnightRuntime (assertingRegistry []) [] none).map verdict :=
  self_asserted_inert midnightRuntime (by
    have hverified : isForged (js "verified") = true := by decide
    have hchain : isForged (js "chain_valid") = true := by decide
    have hproof : isForged (js "proof_id") = false := by decide
    simp [SameButForged, honestRegistry, honestMembers, assertingRegistry, honestItems, honestItem,
      assertingItem, honest, List.filter_cons, hverified, hchain, hproof]) [] none

end Concordia.Verify
