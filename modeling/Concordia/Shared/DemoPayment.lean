import Concordia.Contract.Injectivity
import Concordia.Shared.CasperExecutor
import Concordia.Shared.X402Payments

/-! The demo payment proofs: a resource, a nonce and a signature between colons. A nonce is the
number of the half minute. -/
namespace Concordia.Shared.DemoPayment
open Concordia.Python Concordia.Shared.X402Payments
open Concordia.Js hiding Value

inductive Raised where
  | unicodeEncodeError
  | typeError
  deriving DecidableEq

section Texts

def isHigh (u : UInt16) : Bool := 0xd800 ≤ u && u ≤ 0xdbff
def isLow (u : UInt16) : Bool := 0xdc00 ≤ u && u ≤ 0xdfff

/-- The text has no lone surrogate. -/
def wellFormed : Str → Bool
  | [] => true
  | [u] => !isHigh u && !isLow u
  | u :: v :: rest =>
    if isHigh u then isLow v && wellFormed rest else !isLow u && wellFormed (v :: rest)

/-- `text.encode()`. -/
def encode (text : Str) : Except Raised (List UInt8) :=
  if wellFormed text then .ok (utf8 text) else .error .unicodeEncodeError

def colon : UInt16 := 0x3a

/-- What is before the first colon, and what is behind it. -/
def cut : Str → Option (Str × Str)
  | [] => none
  | u :: rest => if u = colon then some ([], rest) else (cut rest).map fun (a, b) => (u :: a, b)

/-- `_, proof_resource, nonce, signature = proof.split(":", 3)`. -/
def splitProof (proof : Str) : Option (Str × Str × Str) := do
  let (_, rest) ← cut proof
  let (resource, rest) ← cut rest
  let (nonce, signature) ← cut rest
  return (resource, nonce, signature)

/-- `hmac.compare_digest`, which takes ASCII texts only. -/
def compareDigest (a b : Str) : Except Raised Bool :=
  if a.all (· < 0x80) && b.all (· < 0x80) then .ok (a == b) else .error .typeError

end Texts

/-- The keyed digest, and the order in which a set of texts is walked. -/
structure Runtime where
  hmacSha256 : List UInt8 → List UInt8 → Contract.Bytes32
  walk : List Str → List Str
  walk_mem : ∀ {texts : List Str} {text : Str}, text ∈ walk texts ↔ text ∈ texts

section Proofs
variable (rt : Runtime) (env : Environment)

/-- `signer_secret or os.getenv(..)`. -/
def secretText (signerSecret : Option Str) : Str :=
  match signerSecret with
  | some (u :: rest) => u :: rest
  | _ => getenv env "X402_DEMO_SIGNER_SECRET" "concordia-demo-secret"

/-- `build_payment_request(resource).amount`. -/
def paymentAmount : Str := getenv env "X402_PAYMENT_AMOUNT" "1000000"

/-- `int(time.time() // 30)`. -/
def halfMinute (now : ℚ) : Int := ⌊now / 30⌋

/-- `hmac.new(secret, message, sha256).hexdigest()` of the message for a nonce. -/
def sign (secret : List UInt8) (resource nonce : Str) : Except Raised Str := do
  let message ← encode (resource ++ colon :: (nonce ++ colon :: paymentAmount env))
  return toHex (rt.hmacSha256 secret message).toList

def buildDemoPaymentProof (resource : Str) (signerSecret : Option Str) (now : ℚ) :
    Except Raised Str := do
  let secret ← encode (secretText env signerSecret)
  let nonce := dumpsInt (halfMinute now)
  let signature ← sign rt env secret resource nonce
  return js "casper" ++ colon :: (resource ++ colon :: (nonce ++ colon :: signature))

/-- The loop over the candidate nonces. -/
def tryNonces (secret : List UInt8) (resource signature : Str) : List Str → Except Raised Bool
  | [] => .ok false
  | candidate :: rest => do
    let expected ← sign rt env secret resource candidate
    let same ← compareDigest expected signature
    if same then return true else tryNonces secret resource signature rest

def verifyDemoPaymentProof (resource proof : Str) (signerSecret : Option Str) (now : ℚ) :
    Except Raised Bool :=
  match splitProof proof with
  | none => .ok false
  | some (proofResource, nonce, signature) =>
    if proofResource ≠ resource then .ok false
    else do
      let secret ← encode (secretText env signerSecret)
      tryNonces rt env secret resource signature (rt.walk
        [nonce, dumpsInt (halfMinute now), dumpsInt (halfMinute now - 1)])

end Proofs

section Splitting
variable {a b s t : Str}

theorem cut_append (h : colon ∉ a) (b : Str) : cut (a ++ colon :: b) = some (a, b) := by
  induction a with
  | nil => simp [cut]
  | cons u a ih =>
    have hu : u ≠ colon := fun heq => h (heq ▸ List.mem_cons_self)
    have htail : colon ∉ a := fun hmem => h (List.mem_cons_of_mem u hmem)
    rw [List.cons_append, cut, if_neg hu, ih htail]
    rfl

theorem cut_some (h : cut s = some (a, b)) : s = a ++ colon :: b ∧ colon ∉ a := by
  induction s generalizing a b with
  | nil => cases h
  | cons u s ih =>
    rw [cut] at h
    split_ifs at h with hu
    · cases h
      subst hu
      simp
    · obtain ⟨⟨a', b'⟩, hcut, heq⟩ := Option.map_eq_some_iff.mp h
      cases heq
      obtain ⟨rfl, hnot⟩ := ih hcut
      refine ⟨rfl, ?_⟩
      rw [List.mem_cons]
      rintro (heq | hmem)
      · exact hu heq.symm
      · exact hnot hmem

/-- A cut of a text with two colons leaves one behind it. -/
theorem colon_behind_cut (hcut : cut (a ++ colon :: b) = some (s, t)) (h : colon ∈ b) :
    colon ∈ t := by
  obtain ⟨heq, hnot⟩ := cut_some hcut
  have hcount := congrArg (List.count colon) heq
  have hb : 0 < b.count colon := List.count_pos_iff.mpr h
  have hs : s.count colon = 0 := List.count_eq_zero.mpr hnot
  rw [List.count_append, List.count_append, List.count_cons_self, List.count_cons_self] at hcount
  apply List.count_pos_iff.mp
  omega

variable {resource nonce signature : Str}

theorem splitProof_eq {proof scheme rest rest' : Str} (hscheme : cut proof = some (scheme, rest))
    (hresource : cut rest = some (resource, rest')) (hnonce : cut rest' = some (nonce, signature)) :
    splitProof proof = some (resource, nonce, signature) := by
  simp [splitProof, hscheme, hresource, hnonce]

/-- A resource without a colon is found again. -/
theorem splitProof_plain (hresource : colon ∉ resource) (hnonce : colon ∉ nonce) (signature : Str) :
    splitProof (js "casper" ++ colon :: (resource ++ colon :: (nonce ++ colon :: signature))) =
      some (resource, nonce, signature) := by
  have hcasper : colon ∉ js "casper" := by decide
  exact splitProof_eq (cut_append hcasper _) (cut_append hresource _) (cut_append hnonce _)

/-- A resource with a colon is cut short, and leaves a colon in the signature. -/
theorem splitProof_colon (hresource : colon ∈ resource) (nonce signature : Str) :
    ∃ found middle rest, splitProof
        (js "casper" ++ colon :: (resource ++ colon :: (nonce ++ colon :: signature))) =
        some (found, middle, rest) ∧ found ≠ resource ∧ colon ∈ rest := by
  have hcasper : colon ∉ js "casper" := by decide
  obtain ⟨found, tail, rfl, hfound⟩ := List.eq_append_cons_of_mem hresource
  have hsplit : (found ++ colon :: tail) ++ colon :: (nonce ++ colon :: signature) =
      found ++ colon :: (tail ++ colon :: (nonce ++ colon :: signature)) := by simp
  cases hcut : cut (tail ++ colon :: (nonce ++ colon :: signature)) with
  | none =>
    by_cases htail : colon ∈ tail
    · obtain ⟨c, d, rfl, hc⟩ := List.eq_append_cons_of_mem htail
      rw [List.append_assoc, List.cons_append, cut_append hc] at hcut
      cases hcut
    · rw [cut_append htail] at hcut
      cases hcut
  | some pair =>
    obtain ⟨middle, rest⟩ := pair
    refine ⟨found, middle, rest, ?_, ?_, colon_behind_cut hcut (by simp)⟩
    · rw [hsplit]
      exact splitProof_eq (cut_append hcasper _) (cut_append hfound _) hcut
    · intro heq
      have hlength := congrArg List.length heq
      simp at hlength

end Splitting

section Encoding

def Ascii (s : Str) : Prop := ∀ u ∈ s, u < 0x80

theorem ascii_not_surrogate {u : UInt16} (h : u < 0x80) : isHigh u = false ∧ isLow u = false := by
  have hu : u.toNat < 128 := UInt16.lt_iff_toNat_lt.mp h
  have hhigh : ¬ (0xd800 : UInt16) ≤ u := by
    intro hle
    have hnat : 55296 ≤ u.toNat := UInt16.le_iff_toNat_le.mp hle
    omega
  have hlow : ¬ (0xdc00 : UInt16) ≤ u := by
    intro hle
    have hnat : 56320 ≤ u.toNat := UInt16.le_iff_toNat_le.mp hle
    omega
  simp [isHigh, isLow, hhigh, hlow]

theorem wellFormed_cons {u : UInt16} (h : u < 0x80) (s : Str) :
    wellFormed (u :: s) = wellFormed s := by
  obtain ⟨hhigh, hlow⟩ := ascii_not_surrogate h
  cases s with
  | nil => simp [wellFormed, hhigh, hlow]
  | cons v s => simp [wellFormed, hhigh, hlow]

theorem wellFormed_ascii {s : Str} (h : Ascii s) (t : Str) :
    wellFormed (s ++ t) = wellFormed t := by
  induction s with
  | nil => rfl
  | cons u s ih =>
    rw [List.cons_append, wellFormed_cons (h u List.mem_cons_self)]
    exact ih fun v hv => h v (List.mem_cons_of_mem u hv)

/-- No pair of surrogates reaches over an ASCII character. -/
theorem wellFormed_append (s : Str) {u : UInt16} (h : u < 0x80) (t : Str) :
    wellFormed (s ++ u :: t) = (wellFormed s && wellFormed t) := by
  obtain ⟨hhigh, hlow⟩ := ascii_not_surrogate h
  induction s using wellFormed.induct with
  | case1 => simp [wellFormed, wellFormed_cons h]
  | case2 v =>
    simp only [List.cons_append, List.nil_append, wellFormed, hlow, wellFormed_cons h]
    cases isHigh v <;> simp
  | case3 v w rest hv ih =>
    simp only [List.cons_append, wellFormed, hv, if_true] at ih ⊢
    rw [ih, Bool.and_assoc]
  | case4 v w rest hv ih =>
    simp only [List.cons_append, wellFormed, hv, if_false, Bool.false_eq_true] at ih ⊢
    rw [ih, Bool.and_assoc]

theorem hexDigit_ascii : ∀ n < 16, hexDigit n < 0x80 ∧ hexDigit n ≠ colon := by decide

theorem toHex_plain (bytes : List UInt8) : Ascii (toHex bytes) ∧ colon ∉ toHex bytes := by
  have hall : ∀ u ∈ toHex bytes, u < 0x80 ∧ u ≠ colon := by
    intro u hu
    obtain ⟨b, -, hb⟩ := List.mem_flatMap.mp hu
    have hlt := b.toNat_lt
    simp only [List.mem_cons, List.not_mem_nil, or_false] at hb
    rcases hb with rfl | rfl
    · exact hexDigit_ascii _ (by omega)
    · exact hexDigit_ascii _ (by omega)
  exact ⟨fun u hu => (hall u hu).1, fun hmem => (hall colon hmem).2 rfl⟩

theorem dumpsInt_plain (n : Int) : Ascii (dumpsInt n) ∧ colon ∉ dumpsInt n := by
  have hdigits : ∀ u ∈ decimal n.natAbs, u < 0x80 ∧ u ≠ colon := by
    intro u hu
    have hdigit := List.all_eq_true.mp (CasperExecutor.decimal_digits n.natAbs).1 u hu
    simp only [isDigit, Bool.and_eq_true, decide_eq_true_eq, UInt16.le_iff_toNat_le] at hdigit
    have hle : u.toNat ≤ 57 := hdigit.2
    refine ⟨UInt16.lt_iff_toNat_lt.mpr (by simpa using (show u.toNat < 128 by omega)), ?_⟩
    rintro rfl
    exact absurd hle (by decide)
  have hall : ∀ u ∈ dumpsInt n, u < 0x80 ∧ u ≠ colon := by
    intro u hu
    unfold dumpsInt at hu
    split at hu
    · rcases List.mem_cons.mp hu with rfl | hu
      · decide
      · exact hdigits u hu
    · exact hdigits u hu
  exact ⟨fun u hu => (hall u hu).1, fun hmem => (hall colon hmem).2 rfl⟩

end Encoding

section Law
variable {rt : Runtime} {env : Environment} {secret : List UInt8} {resource nonce signature : Str}

/-- The messages for two numbers can be encoded alike. -/
theorem encode_message (n : Int) : (∃ message, encode (resource ++ colon ::
    (dumpsInt n ++ colon :: paymentAmount env)) = .ok message) ↔
      wellFormed resource = true ∧ wellFormed (paymentAmount env) = true := by
  have hcolon : colon < 0x80 := by decide
  unfold encode
  rw [wellFormed_append resource hcolon, wellFormed_ascii (dumpsInt_plain n).1,
    wellFormed_cons hcolon, ← Bool.and_eq_true]
  split <;> simp_all

theorem sign_plain (h : sign rt env secret resource nonce = .ok signature) :
    Ascii signature ∧ colon ∉ signature := by
  simp only [sign, Contract.except_bind_ok, pure, Except.pure, Except.ok.injEq] at h
  obtain ⟨message, -, rfl⟩ := h
  exact toHex_plain _

theorem compareDigest_ascii {a b : Str} (ha : Ascii a) (hb : Ascii b) :
    compareDigest a b = .ok (a == b) := by
  have hboth : (a.all (· < 0x80) && b.all (· < 0x80)) = true := by
    rw [Bool.and_eq_true, List.all_eq_true, List.all_eq_true]
    exact ⟨fun u hu => decide_eq_true (ha u hu), fun u hu => decide_eq_true (hb u hu)⟩
  rw [compareDigest, if_pos hboth]

theorem compareDigest_true {a b : Str} (h : compareDigest a b = .ok true) : a = b := by
  unfold compareDigest at h
  split at h
  · exact beq_iff_eq.mp (Except.ok.inj h)
  · cases h

/-- A proof is accepted for the sake of a candidate that it is signed for. -/
theorem tryNonces_true {candidates : List Str}
    (h : tryNonces rt env secret resource signature candidates = .ok true) :
    ∃ candidate ∈ candidates, sign rt env secret resource candidate = .ok signature := by
  induction candidates with
  | nil => cases h
  | cons candidate rest ih =>
    simp only [tryNonces, Contract.except_bind_ok] at h
    obtain ⟨expected, hsign, same, hsame, h⟩ := h
    cases same with
    | true => exact ⟨candidate, List.mem_cons_self, compareDigest_true hsame ▸ hsign⟩
    | false =>
      obtain ⟨other, hmem, hother⟩ := ih h
      exact ⟨other, List.mem_cons_of_mem _ hmem, hother⟩

/-- Where every candidate has a signature, one that has this one is enough. -/
theorem tryNonces_of_mem {candidates : List Str} (hascii : Ascii signature)
    (hall : ∀ candidate ∈ candidates, ∃ expected, sign rt env secret resource candidate = .ok expected)
    (hmem : ∃ candidate ∈ candidates, sign rt env secret resource candidate = .ok signature) :
    tryNonces rt env secret resource signature candidates = .ok true := by
  induction candidates with
  | nil =>
    obtain ⟨candidate, hmem, -⟩ := hmem
    cases hmem
  | cons candidate rest ih =>
    obtain ⟨expected, hsign⟩ := hall candidate List.mem_cons_self
    have hcompare := compareDigest_ascii (sign_plain hsign).1 hascii
    have hstep : tryNonces rt env secret resource signature (candidate :: rest) =
        if (expected == signature) = true then .ok true
        else tryNonces rt env secret resource signature rest := by
      rw [tryNonces, hsign]
      simp only [bind, Except.bind, hcompare, pure, Except.pure]
    rw [hstep]
    by_cases heq : expected = signature
    · simp [heq]
    · rw [if_neg (by simpa using heq)]
      apply ih fun other hother => hall other (List.mem_cons_of_mem _ hother)
      obtain ⟨other, hother, hsigned⟩ := hmem
      rcases List.mem_cons.mp hother with rfl | hrest
      · exact absurd (Except.ok.inj (hsign.symm.trans hsigned)) heq
      · exact ⟨other, hrest, hsigned⟩

variable (rt env) in
/-- The proof that is built at a time. -/
def Builds (signerSecret : Option Str) (resource : Str) (builtAt : ℚ) (proof : Str) : Prop :=
  buildDemoPaymentProof rt env resource signerSecret builtAt = .ok proof

variable (rt env) in
/-- The proof opens its resource in its own half minute and in the next one. -/
def RoundTrip (signerSecret : Option Str) (resource : Str) (builtAt : ℚ) : Prop :=
  ∃ proof, Builds rt env signerSecret resource builtAt proof ∧
    ∀ now, builtAt ≤ now → halfMinute now ≤ halfMinute builtAt + 1 →
      verifyDemoPaymentProof rt env resource proof signerSecret now = .ok true

variable (rt env) in
/-- The proof opens no other resource. -/
def OpensNoOther (signerSecret : Option Str) (resource : Str) (builtAt : ℚ) : Prop :=
  ∀ proof, Builds rt env signerSecret resource builtAt proof → ∀ other, other ≠ resource →
    ∀ now, verifyDemoPaymentProof rt env other proof signerSecret now ≠ .ok true

variable (rt env) in
/-- The proof does not open its resource once its two half minutes have passed. -/
def Expires (signerSecret : Option Str) (resource : Str) (builtAt : ℚ) : Prop :=
  ∀ proof, Builds rt env signerSecret resource builtAt proof →
    ∀ now, halfMinute builtAt + 1 < halfMinute now →
      verifyDemoPaymentProof rt env resource proof signerSecret now ≠ .ok true

variable {signerSecret : Option Str} {builtAt now : ℚ} {proof other : Str}

theorem builds_iff : Builds rt env signerSecret resource builtAt proof ↔
    ∃ secret signature, encode (secretText env signerSecret) = .ok secret ∧
      sign rt env secret resource (dumpsInt (halfMinute builtAt)) = .ok signature ∧
      proof = js "casper" ++ colon :: (resource ++ colon ::
        (dumpsInt (halfMinute builtAt) ++ colon :: signature)) := by
  simp only [Builds, buildDemoPaymentProof, Contract.except_bind_ok, pure, Except.pure,
    Except.ok.injEq]
  constructor
  · rintro ⟨secret, hsecret, signature, hsign, rfl⟩
    exact ⟨secret, signature, hsecret, hsign, rfl⟩
  · rintro ⟨secret, signature, hsecret, hsign, rfl⟩
    exact ⟨secret, hsecret, signature, hsign, rfl⟩

/-- Once one number can be signed for a resource, so can every other one. -/
theorem sign_any {n : Int} (h : sign rt env secret resource (dumpsInt n) = .ok signature) (m : Int) :
    ∃ expected, sign rt env secret resource (dumpsInt m) = .ok expected := by
  simp only [sign, Contract.except_bind_ok] at h
  obtain ⟨message, hmessage, -⟩ := h
  obtain ⟨other, hother⟩ := (encode_message m).mpr ((encode_message n).mp ⟨message, hmessage⟩)
  exact ⟨toHex (rt.hmacSha256 secret other).toList, by simp only [sign, hother]; rfl⟩

/-- The nonce of the proof is among the candidates, whatever the time is. -/
theorem verify_plain (hcolon : colon ∉ resource)
    (h : Builds rt env signerSecret resource builtAt proof) (now : ℚ) :
    verifyDemoPaymentProof rt env resource proof signerSecret now = .ok true := by
  obtain ⟨secret, signature, hsecret, hsign, rfl⟩ := builds_iff.mp h
  have hsplit := splitProof_plain hcolon (dumpsInt_plain (halfMinute builtAt)).2 signature
  simp only [verifyDemoPaymentProof, hsplit, ne_eq, not_true_eq_false, if_false, hsecret, bind,
    Except.bind]
  apply tryNonces_of_mem (sign_plain hsign).1
  · intro candidate hmem
    rw [rt.walk_mem] at hmem
    simp only [List.mem_cons, List.not_mem_nil, or_false] at hmem
    rcases hmem with rfl | rfl | rfl
    · exact ⟨signature, hsign⟩
    · exact sign_any hsign _
    · exact sign_any hsign _
  · exact ⟨_, rt.walk_mem.mpr List.mem_cons_self, hsign⟩

/-- A resource with a colon is not the one that its proof is read for. -/
theorem verify_colon (hcolon : colon ∈ resource)
    (h : Builds rt env signerSecret resource builtAt proof) (now : ℚ) :
    verifyDemoPaymentProof rt env resource proof signerSecret now = .ok false := by
  obtain ⟨secret, signature, -, -, rfl⟩ := builds_iff.mp h
  obtain ⟨found, middle, rest, hsplit, hfound, -⟩ :=
    splitProof_colon hcolon (dumpsInt (halfMinute builtAt)) signature
  simp only [verifyDemoPaymentProof, hsplit, ne_eq, hfound, not_false_eq_true, if_true]

theorem opensNoOther : OpensNoOther rt env signerSecret resource builtAt := by
  intro proof h other hother now hverify
  obtain ⟨secret, signature, hsecret, -, rfl⟩ := builds_iff.mp h
  by_cases hcolon : colon ∈ resource
  · obtain ⟨found, middle, rest, hsplit, -, hrest⟩ :=
      splitProof_colon hcolon (dumpsInt (halfMinute builtAt)) signature
    simp only [verifyDemoPaymentProof, hsplit] at hverify
    split at hverify
    · cases hverify
    · simp only [hsecret, bind, Except.bind] at hverify
      obtain ⟨candidate, -, hsign⟩ := tryNonces_true hverify
      exact (sign_plain hsign).2 hrest
  · have hsplit := splitProof_plain hcolon (dumpsInt_plain (halfMinute builtAt)).2 signature
    have hne : resource ≠ other := hother.symm
    simp only [verifyDemoPaymentProof, hsplit, ne_eq, hne, not_false_eq_true, if_true] at hverify
    cases hverify

theorem roundTrip_iff : RoundTrip rt env signerSecret resource builtAt ↔
    (∃ proof, Builds rt env signerSecret resource builtAt proof) ∧ colon ∉ resource := by
  constructor
  · rintro ⟨proof, h, hverify⟩
    refine ⟨⟨proof, h⟩, fun hcolon => ?_⟩
    have hnow := hverify builtAt le_rfl (by omega)
    rw [verify_colon hcolon h] at hnow
    cases hnow
  · rintro ⟨⟨proof, h⟩, hcolon⟩
    exact ⟨proof, h, fun now _ _ => verify_plain hcolon h now⟩

theorem expires_iff : Expires rt env signerSecret resource builtAt ↔
    ¬ ((∃ proof, Builds rt env signerSecret resource builtAt proof) ∧ colon ∉ resource) := by
  constructor
  · rintro hexpires ⟨⟨proof, h⟩, hcolon⟩
    have hlate : halfMinute builtAt + 1 < halfMinute (builtAt + 60) := by
      have hsum : (builtAt + 60) / 30 = builtAt / 30 + 2 := by ring
      rw [halfMinute, halfMinute, hsum, Int.floor_add_ofNat]
      omega
    exact hexpires proof h (builtAt + 60) hlate (verify_plain hcolon h _)
  · intro hnot proof h now _ hverify
    have hcolon : colon ∈ resource := by
      by_contra hcolon
      exact hnot ⟨⟨proof, h⟩, hcolon⟩
    rw [verify_colon hcolon h] at hverify
    cases hverify

/-- The law of the demo proofs holds of no resource: a proof opens its own resource exactly when
there is no colon in it, and then it never expires. -/
theorem demo_proof_law (rt : Runtime) (env : Environment) (signerSecret : Option Str)
    (resource : Str) (builtAt : ℚ) :
    ¬ (RoundTrip rt env signerSecret resource builtAt ∧
        OpensNoOther rt env signerSecret resource builtAt ∧
        Expires rt env signerSecret resource builtAt) ∧
      OpensNoOther rt env signerSecret resource builtAt ∧
      (RoundTrip rt env signerSecret resource builtAt ↔
        (∃ proof, Builds rt env signerSecret resource builtAt proof) ∧ colon ∉ resource) ∧
      (Expires rt env signerSecret resource builtAt ↔
        ¬ ((∃ proof, Builds rt env signerSecret resource builtAt proof) ∧ colon ∉ resource)) := by
  refine ⟨?_, opensNoOther, roundTrip_iff, expires_iff⟩
  rintro ⟨hround, -, hexpires⟩
  exact expires_iff.mp hexpires (roundTrip_iff.mp hround)

end Law

def sampleRuntime : Runtime where
  hmacSha256 _ _ := Vector.replicate 32 0
  walk texts := texts
  walk_mem := Iff.rfl

/-- A resource as the gateway names it. -/
def reportResource : Str := js "concordia-governance-report:DAO-PROP-6CB25C"

theorem report_proof_refused :
    ¬ (RoundTrip sampleRuntime (fun _ => none) none reportResource 0 ∧
      OpensNoOther sampleRuntime (fun _ => none) none reportResource 0 ∧
      Expires sampleRuntime (fun _ => none) none reportResource 0) := by
  rintro ⟨hround, -, -⟩
  have hcolon : colon ∈ reportResource := by decide
  exact (roundTrip_iff.mp hround).2 hcolon

end Concordia.Shared.DemoPayment
