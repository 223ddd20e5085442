import Concordia.Contract.NativeTransfer

/-! The deployment tool's constructor arguments, checked before anything is sent, and
the constructor's own checks of the same arguments. -/
namespace Concordia.Contract.GovernanceReceiptV3

inductive DeploymentIdentity where
  | account (hash : Bytes32)
  | contract (hash : Bytes32)
  | contractPackage (hash : Bytes32)
  deriving DecidableEq

structure DeploymentRoleInputs where
  proposer : DeploymentIdentity
  finalizer : DeploymentIdentity
  signerA : DeploymentIdentity
  signerB : DeploymentIdentity
  signerC : DeploymentIdentity

inductive DeploymentValidationError where
  | invalidSignerSet
  | invalidThreshold
  | invalidRoleAddress
  | invalidEnvelopeField
  deriving DecidableEq, Repr

/-- The constructor's error of the same class. -/
def DeploymentValidationError.toError : DeploymentValidationError → Error
  | invalidSignerSet => .invalidSignerSet
  | invalidThreshold => .invalidThreshold
  | invalidRoleAddress => .invalidRoleAddress
  | invalidEnvelopeField => .invalidEnvelopeField

/-- The value of a nonzero account identity. -/
def DeploymentIdentity.accountValue :
    DeploymentIdentity → Except DeploymentValidationError Bytes32
  | account value => if isZero32 value then .error .invalidRoleAddress else .ok value
  | contract _ | contractPackage _ => .error .invalidRoleAddress

/-- The caller the chain reports for an identity: a package calls as a contract. -/
def DeploymentIdentity.caller : DeploymentIdentity → Address
  | account hash => .account hash
  | contract hash | contractPackage hash => .contract hash

/-- Roles given as accounts, as the constructor's arguments name them. -/
def InitArgs.roleInputs (args : InitArgs) : DeploymentRoleInputs where
  proposer := .account args.proposer
  finalizer := .account args.finalizer
  signerA := .account args.signerA
  signerB := .account args.signerB
  signerC := .account args.signerC

def rejectUnless (c : Prop) [Decidable c] (error : DeploymentValidationError) :
    Except DeploymentValidationError Unit :=
  if c then .ok () else .error error

section Deployment
variable (blake2b256 : List UInt8 → Bytes32)

def validatedDeploymentInitArgs (installer : DeploymentIdentity) (roles : DeploymentRoleInputs)
    (threshold : UInt8) (casperChainName : String) (installationNonce : Bytes32) :
    Except DeploymentValidationError InitArgs := do
  let installer ← installer.accountValue
  let proposer ← roles.proposer.accountValue
  let finalizer ← roles.finalizer.accountValue
  let signerA ← roles.signerA.accountValue
  let signerB ← roles.signerB.accountValue
  let signerC ← roles.signerC.accountValue
  let signers := [signerA, signerB, signerC]
  rejectUnless (¬ (installer ∈ [proposer, finalizer, signerA, signerB, signerC] ∨
    proposer = finalizer ∨ ∃ signer ∈ signers, signer = proposer ∨ signer = finalizer))
    .invalidRoleAddress
  rejectUnless (¬ (signerA = signerB ∨ signerA = signerC ∨ signerB = signerC)) .invalidSignerSet
  rejectUnless (threshold = 2 ∨ threshold = 3) .invalidThreshold
  let _ ← (deriveDeploymentDomain blake2b256 casperChainName installationNonce).mapError
    fun _ => DeploymentValidationError.invalidEnvelopeField
  return ⟨proposer, finalizer, signerA, signerB, signerC, threshold, casperChainName,
    installationNonce⟩

/-- The outcome of the tool for roles given as accounts, under the constructor's errors. -/
def deploymentOutcome (installer : DeploymentIdentity) (args : InitArgs) :
    Except Error InitArgs :=
  (validatedDeploymentInitArgs blake2b256 installer args.roleInputs args.threshold
    args.casperChainName args.installationNonce).mapError DeploymentValidationError.toError

/-- The outcome of the constructor called by that installer with these arguments. -/
def constructorOutcome (installer : DeploymentIdentity) (args : InitArgs) :
    Except Error InitArgs :=
  (init blake2b256 installer.caller args).map fun _ => args

variable {blake2b256} {installer : Bytes32} {args : InitArgs}

private theorem rejectUnless_bind {c : Prop} [Decidable c] {e : DeploymentValidationError}
    {f : Unit → Except DeploymentValidationError InitArgs} :
    (rejectUnless c e >>= f).mapError DeploymentValidationError.toError =
      if c then (f ()).mapError DeploymentValidationError.toError else .error e.toError := by
  unfold rejectUnless
  split_ifs <;> rfl

private theorem require_bind {c : Prop} [Decidable c] {e : Error}
    {f : Unit → Except Error State} {g : State → InitArgs} :
    (require c e >>= f).map g = if c then (f ()).map g else .error e := by
  unfold require
  split_ifs <;> rfl

private theorem callerAccount_bind {e : Error} {f : Bytes32 → Except Error State} :
    (callerAccountOrRevert (.account installer) e >>= f) = f installer := rfl

private theorem accountValue_bind {value : Bytes32}
    {f : Bytes32 → Except DeploymentValidationError InitArgs} :
    ((DeploymentIdentity.account value).accountValue >>= f).mapError
        DeploymentValidationError.toError =
      if isZero32 value then .error .invalidRoleAddress
      else (f value).mapError DeploymentValidationError.toError := by
  simp only [DeploymentIdentity.accountValue]
  split_ifs <;> rfl

/-- The domain derivation has one error only. -/
theorem deriveDeploymentDomain_error {chainName : String} {nonce : Bytes32} {e : ValidationError}
    (h : deriveDeploymentDomain blake2b256 chainName nonce = .error e) :
    e = .invalidEnvelopeField := by
  simp only [deriveDeploymentDomain, putString] at h
  split_ifs at h <;> cases h <;> rfl

/-- The zero account is no installer for the tool, whatever the roles are. -/
theorem deploymentOutcome_zero (hz : isZero32 installer = true) :
    deploymentOutcome blake2b256 (.account installer) args = .error .invalidRoleAddress := by
  rw [deploymentOutcome, validatedDeploymentInitArgs, accountValue_bind, if_pos hz]

private theorem any_isZero32 {roles : List Bytes32} (h : ∀ role ∈ roles, isZero32 role = false) :
    ¬ roles.any isZero32 = true := by
  rw [List.any_eq_true]
  rintro ⟨role, hmem, hzero⟩
  rw [h role hmem] at hzero
  cases hzero

/-- For any other account the two checks agree, down to the error. -/
theorem deploymentOutcome_eq (hz : isZero32 installer = false) :
    deploymentOutcome blake2b256 (.account installer) args =
      constructorOutcome blake2b256 (.account installer) args := by
  rw [deploymentOutcome, constructorOutcome, validatedDeploymentInitArgs, init,
    DeploymentIdentity.caller]
  simp only [InitArgs.roleInputs, accountValue_bind, rejectUnless_bind, callerAccount_bind,
    require_bind, hz, Bool.false_eq_true, if_false]
  by_cases roles : ∀ role ∈ [args.proposer, args.finalizer, args.signerA, args.signerB,
      args.signerC], isZero32 role = false
  · have zeros := any_isZero32 roles
    simp only [List.forall_mem_cons] at roles
    obtain ⟨p, f, a, b, c, -⟩ := roles
    simp only [p, f, a, b, c, zeros, Bool.false_eq_true, if_false, false_or]
    -- The tool asks in one question what the constructor asks in two, under one error.
    by_cases member : installer ∈ [args.proposer, args.finalizer, args.signerA, args.signerB,
        args.signerC]
    · simp only [member, true_or, not_true_eq_false, if_false]
      rfl
    · by_cases overlap : args.proposer = args.finalizer ∨
          ∃ signer ∈ [args.signerA, args.signerB, args.signerC],
            signer = args.proposer ∨ signer = args.finalizer
      · simp only [member, overlap, or_true, not_true_eq_false, not_false_eq_true, if_false,
          if_true]
        rfl
      · simp only [member, overlap, or_self, not_false_eq_true, if_true]
        split_ifs
        · rfl
        · cases h : deriveDeploymentDomain blake2b256 args.casperChainName
              args.installationNonce with
          | ok domain => rfl
          | error e =>
            obtain rfl := deriveDeploymentDomain_error h
            rfl
        · rfl
  · have zeros : [args.proposer, args.finalizer, args.signerA, args.signerB, args.signerC].any
        isZero32 = true := by
      simp only [not_forall, exists_prop, Bool.not_eq_false] at roles
      exact List.any_eq_true.mpr roles
    simp only [zeros, true_or, not_true_eq_false, if_false]
    split_ifs with p f a b c
    all_goals first | rfl | exact absurd (by simp [p, f, a, b, c]) roles

end Deployment

/-- The tool and the constructor give one outcome for every installer but the zero account,
which the tool always refuses. -/
theorem deployment_validation_agrees (blake2b256 : List UInt8 → Bytes32)
    (installer : DeploymentIdentity) (args : InitArgs) :
    deploymentOutcome blake2b256 installer args =
      if installer = .account zero32 then .error .invalidRoleAddress
      else constructorOutcome blake2b256 installer args := by
  split_ifs with h
  · subst h
    exact deploymentOutcome_zero (isZero32_eq_true.mpr rfl)
  · cases installer with
    | account value =>
      have hz : value ≠ zero32 := fun e => h (congrArg _ e)
      exact deploymentOutcome_eq (Bool.eq_false_iff.mpr (mt isZero32_eq_true.mp hz))
    | contract value => rfl
    | contractPackage value => rfl

/-- The zero account would install with roles the tool never lets it use. -/
theorem zero_installer_differs :
    ¬ ∀ (blake2b256 : List UInt8 → Bytes32) (installer : Bytes32) (args : InitArgs),
      deploymentOutcome blake2b256 (.account installer) args =
        constructorOutcome blake2b256 (.account installer) args := by
  intro agree
  have accepted : (constructorOutcome goldenBlake2b256 (.account zero32) goldenInit).isOk =
      true := by
    decide +kernel
  rw [← agree goldenBlake2b256 zero32 goldenInit, deploymentOutcome_zero (by decide +kernel)]
    at accepted
  cases accepted

end Concordia.Contract.GovernanceReceiptV3
