import Concordia.Verify.RegistryTotality

/-! What the artifacts can change: they turn no invalid item around, and without them no item is
verified. -/
namespace Concordia.Verify
open Concordia.Js

section Items
variable {rt : Runtime} {item : Fields}

theorem conclude_eq_invalid {reasons unavailable unknown : List JsString} {green : Bool} :
    (conclude reasons unavailable unknown green).1 = .invalid ↔ reasons ≠ [] := by
  refine ⟨fun h => ?_, conclude_invalid⟩
  rintro rfl
  unfold conclude at h
  cases unavailable <;> cases unknown <;> cases green <;> cases h

theorem conclude_not_green {reasons unavailable unknown : List JsString} :
    (conclude reasons unavailable unknown false).1 ≠ .verified := by
  unfold conclude
  cases reasons <;> cases unavailable <;> cases unknown <;> simp

/-- The reasons that an item gives without its artifact, it gives with every artifact. -/
theorem gatherEvidence_reasons {proofType : Option JsString} {referenceTime : JsString}
    (artifact : Option Artifact) (hashVerified : Bool)
    (h : (gatherEvidence rt item proofType artifact hashVerified referenceTime).reasons = []) :
    (gatherEvidence rt item proofType none false referenceTime).reasons = [] := by
  unfold gatherEvidence at h ⊢
  cases hsnapshot : isType proofType "snapshot" with
  | true => simpa only [hsnapshot, if_true] using h
  | false => simp

theorem gatherEvidence_unverified (proofType : Option JsString) (referenceTime : JsString) :
    (gatherEvidence rt item proofType none false referenceTime).semanticsVerified = false := by
  unfold gatherEvidence
  cases hsnapshot : isType proofType "snapshot" <;> simp

variable {raw : Value} {proposalId generatedAt referenceTime : JsString}
  {result without : InternalItemVerificationResult}

/-- No artifact makes an invalid item valid. -/
theorem verifyItem_invalid (artifacts : List (JsString × Artifact))
    (hwithout : verifyItem rt raw proposalId [] generatedAt referenceTime = .ok without)
    (h : verifyItem rt raw proposalId artifacts generatedAt referenceTime = .ok result)
    (hinvalid : without.status = .invalid) : result.status = .invalid := by
  cases raw with
  | object item =>
    simp only [verifyItem, Contract.except_bind_ok, pure, Except.pure, Except.ok.injEq] at hwithout h
    obtain ⟨reasons, hreasons, rfl⟩ := hwithout
    obtain ⟨reasons', hreasons', rfl⟩ := h
    obtain rfl := Except.ok.inj (hreasons.symm.trans hreasons')
    simp only [itemResult, conclude_eq_invalid, List.lookup_nil, Option.bind_fun_none,
      Option.any_none, Option.isSome_none, Bool.false_and, ne_eq, List.append_eq_nil_iff,
      not_and, reasonIf, Bool.false_eq_true, if_false] at hinvalid ⊢
    intro hfields hevidence
    refine hinvalid ⟨hfields.1, trivial⟩ ?_
    cases hverified : isVerified item with
    | false => rfl
    | true =>
      simp only [hverified, if_true] at hevidence ⊢
      exact gatherEvidence_reasons _ _ hevidence
  | _ =>
    simp only [verifyItem, Except.ok.injEq] at h
    rw [← h]
    rfl

/-- Without artifacts no item is verified. -/
theorem verifyItem_unverified
    (h : verifyItem rt raw proposalId [] generatedAt referenceTime = .ok without) :
    without.status ≠ .verified := by
  cases raw with
  | object item =>
    simp only [verifyItem, Contract.except_bind_ok, pure, Except.pure, Except.ok.injEq] at h
    obtain ⟨reasons, -, rfl⟩ := h
    have hunverified : (if isVerified item then gatherEvidence rt item
        (asStringOrNull (prop item "proof_type")) none false referenceTime
        else {}).semanticsVerified = false := by
      cases hverified : isVerified item with
      | false => rfl
      | true => exact gatherEvidence_unverified _ _
    simp only [itemResult, List.lookup_nil, Option.bind_fun_none, Option.any_none, hunverified,
      Bool.and_false, Bool.false_and]
    exact conclude_not_green
  | _ =>
    simp only [verifyItem, Except.ok.injEq] at h
    rw [← h]
    exact fun hverified => by cases hverified

theorem bindTreasury_unverified {exactItems : List ExactEnvelopeV3Facts}
    (h : result.status ≠ .verified) : bindTreasury exactItems result = result := by
  have hstatus : (result.status == .verified) = false := beq_eq_false_iff_ne.mpr h
  simp [bindTreasury, hstatus]

end Items

section Registry
variable {rt : Runtime} {top : TopLevel} {artifacts : List (JsString × Artifact)}

/-- What is invalid on the left is invalid on the right. -/
def KeepsInvalid (a b : ItemVerificationResult) : Prop := a.status = .invalid → b.status = .invalid

theorem verifyItems_invalid {raws : List Value} {without results : List InternalItemVerificationResult}
    (hwithout : verifyItems rt top [] raws = .ok without)
    (h : verifyItems rt top artifacts raws = .ok results) :
    List.Forall₂ (fun a b => a.status ≠ .verified ∧ (a.status = .invalid → b.status = .invalid))
      without results := by
  induction raws generalizing without results with
  | nil =>
    simp only [verifyItems, Except.ok.injEq] at hwithout h
    subst hwithout h
    exact .nil
  | cons raw raws ih =>
    simp only [verifyItems, Contract.except_bind_ok, pure, Except.pure, Except.ok.injEq] at hwithout h
    obtain ⟨a, ha, as, has, rfl⟩ := hwithout
    obtain ⟨b, hb, bs, hbs, rfl⟩ := h
    exact .cons ⟨verifyItem_unverified ha, verifyItem_invalid artifacts ha hb⟩ (ih has hbs)

/-- The join over the items leaves an invalid item invalid, and has nothing to join without
artifacts. -/
theorem applyCrossProofBindings_invalid {without results : List InternalItemVerificationResult}
    (h : List.Forall₂ (fun a b => a.status ≠ .verified ∧ (a.status = .invalid → b.status = .invalid))
      without results) :
    List.Forall₂ KeepsInvalid
      ((applyCrossProofBindings without).map fun item => item.toItemVerificationResult)
      ((applyCrossProofBindings results).map fun item => item.toItemVerificationResult) := by
  simp only [applyCrossProofBindings, List.map_map]
  rw [List.forall₂_map_left_iff, List.forall₂_map_right_iff]
  refine h.imp ?_
  rintro a b ⟨hunverified, hinvalid⟩
  simp only [KeepsInvalid, Function.comp_apply, bindTreasury_unverified hunverified]
  intro ha
  have hb := hinvalid ha
  rw [bindTreasury_unverified (by rw [hb]; simp)]
  exact hb

theorem overallStatus_invalid {items : List ItemVerificationResult} :
    overallStatus items = .invalid ↔ ∃ item ∈ items, item.status = .invalid := by
  have hany : (items.any (·.status == .invalid)) = true ↔ ∃ item ∈ items, item.status = .invalid := by
    simp
  unfold overallStatus
  constructor
  · intro h
    apply hany.mp
    split_ifs at h with h1 h2
    exact h2
  · rintro ⟨item, hmem, hitem⟩
    have hne : items.isEmpty = false := by
      cases items with
      | nil => cases hmem
      | cons => rfl
    rw [hne, if_neg Bool.false_ne_true, if_pos (hany.mpr ⟨item, hmem, hitem⟩)]

theorem overallStatus_keepsInvalid {as bs : List ItemVerificationResult}
    (h : List.Forall₂ KeepsInvalid as bs) (ha : overallStatus as = .invalid) :
    overallStatus bs = .invalid := by
  rw [overallStatus_invalid] at ha ⊢
  obtain ⟨a, hmem, hinvalid⟩ := ha
  induction h with
  | nil => cases hmem
  | @cons x y xs ys hxy hrest ih =>
    rcases List.mem_cons.mp hmem with rfl | hmem
    · exact ⟨y, List.mem_cons_self, hxy hinvalid⟩
    · obtain ⟨b, hb, hbinvalid⟩ := ih hmem
      exact ⟨b, List.mem_cons_of_mem y hb, hbinvalid⟩

/-- A verification without artifacts, beside one with them. -/
theorem verifyProofRegistry_without {input : Value} {now : Option JsString}
    {without : RegistryVerificationResult} (artifacts : List (JsString × Artifact))
    (h : verifyProofRegistry rt input [] now = .ok without) :
    ∃ result, verifyProofRegistry rt input artifacts now = .ok result ∧
      List.Forall₂ KeepsInvalid without.items result.items ∧
      (without.status = .invalid → result.status = .invalid) := by
  cases htop : checkTopLevel rt input now with
  | error rejected =>
    simp only [verifyProofRegistry, htop, Except.ok.injEq] at h ⊢
    subst h
    exact ⟨rejected, rfl, List.forall₂_same.mpr fun _ _ => id, id⟩
  | ok top =>
    simp only [verifyProofRegistry, htop, Contract.except_bind_ok, pure, Except.pure,
      Except.ok.injEq] at h ⊢
    obtain ⟨without, hwithout, rfl⟩ := h
    have htrips := verifyItems_ok.mp ⟨without, hwithout⟩
    have hboth : ∃ results, verifyItems rt top artifacts top.items = .ok results :=
      verifyItems_ok.mpr htrips
    obtain ⟨results, hresults⟩ := hboth
    have hkeeps := applyCrossProofBindings_invalid (verifyItems_invalid hwithout hresults)
    exact ⟨_, ⟨results, hresults, rfl⟩, hkeeps, overallStatus_keepsInvalid hkeeps⟩

/-- The exception of a verification does not depend on the artifacts. -/
theorem verifyProofRegistry_throws {input : Value} {now : Option JsString} {thrown : JsThrow}
    (h : verifyProofRegistry rt input [] now = .error thrown) :
    ∃ other, verifyProofRegistry rt input artifacts now = .error other := by
  cases htop : checkTopLevel rt input now with
  | error rejected => simp [verifyProofRegistry, htop] at h
  | ok top =>
    cases hresult : verifyProofRegistry rt input artifacts now with
    | error other => exact ⟨other, rfl⟩
    | ok result =>
      simp only [verifyProofRegistry, htop, Contract.except_bind_ok] at hresult
      obtain ⟨results, hresults, -⟩ := hresult
      have hboth : ∃ without, verifyItems rt top [] top.items = .ok without :=
        verifyItems_ok.mpr (verifyItems_ok.mp ⟨results, hresults⟩)
      obtain ⟨without, hwithout⟩ := hboth
      simp [verifyProofRegistry, htop, hwithout, bind, Except.bind, pure, Except.pure] at h

end Registry
end Concordia.Verify
