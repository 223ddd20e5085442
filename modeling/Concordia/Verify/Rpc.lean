import Concordia.Verify.NativeFinality
import Concordia.Verify.Transcript

/-! Recorded RPC calls: the request a transcript has to hold, and the identity that its response
has to carry. The adapters have their own copies of these checks, which differ in a few texts. -/
namespace Concordia.Verify.Rpc
open Concordia.Js Concordia.Verify.NativeDeploy Concordia.Verify.NativeFinality
open Concordia.Verify.Transcript

/-- Where the copies differ. -/
structure Dialect where
  notExact : String → String
  paramsDiffer : String → String
  bigintIds : Bool

variable (dialect : Dialect)

def record (value : Value) (label : String) : Except String Fields :=
  match value with
  | .object fields => .ok fields
  | _ => .error s!"{label} must be an object"

/-- A text inside a message, unit by unit. -/
def shownText (s : JsString) : String := String.ofList (s.map fun u => Char.ofNat u.toNat)

/-- `names.sort()`. -/
def sortedNames (names : List JsString) : List JsString := names.insertionSort (· ≤ ·)

def exactOwnKeys (value : Fields) (expected : List String) (label : String) :
    Except String Unit :=
  require (sortedNames (keys value) == sortedNames (expected.map js)) (dialect.notExact label)

/-- A safe integer, a bigint where the adapter takes one, or a text that is not empty. -/
def isRequestId : Value → Bool
  | .number x => (safeInteger x).isSome
  | .bigint _ => dialect.bigintIds
  | .string s => !s.isEmpty
  | _ => false

def requestId (value : Value) (label : String) : Except String Value := do
  require (isRequestId dialect value) s!"{label} request id is invalid"
  return value

def exactRequest (raw : Value) (method : String) (params : Value) (label : String) :
    Except String Value := do
  let request ← record raw s!"{label} request"
  exactOwnKeys dialect request ["jsonrpc", "id", "method", "params"] s!"{label} request"
  require (isLiteral (prop request "jsonrpc") "2.0" && isLiteral (prop request "method") method)
    s!"{label} request must call {method}"
  let actual ← canonicalTranscriptJson (prop request "params") s!"{label} request params"
  let expected ← canonicalTranscriptJson params s!"{label} expected params"
  require (actual == expected) (dialect.paramsDiffer label)
  requestId dialect (prop request "id") label

/-- An object literal. -/
def literal (fields : List (String × Value)) : Value :=
  .object (fields.map fun f => (js f.1, f.2))

/-- `{ block_identifier: { Hash: hash } }`. -/
def blockByHash (hash : JsString) : Value :=
  literal [("block_identifier", literal [("Hash", .string hash)])]

/-- `[..].filter((name) => Object.hasOwn(value, name))`, where exactly one name may be there. -/
def onlyName (value : Fields) (names : List String) (message : String) : Except String String :=
  match present value names with
  | [name] => .ok name
  | _ => .error message

def networkNames : List String := ["chainspec_name", "chainspecName", "chain_name"]

/-- The network that a status response names. -/
def provesNetwork (value : Fields) (message : String) : Except String Unit := do
  let name ← onlyName value networkNames message
  require (isLiteral (prop value name) "casper-test") message

/-- A safe integer that is not negative. -/
def safeHeight (value : Value) (label : String) : Except String Nat :=
  let malformed := s!"{label} must be a non-negative safe u64"
  match value with
  | .number x =>
    match safeInteger x with
    | some n => if 0 ≤ n then .ok n.toNat else .error malformed
    | none => .error malformed
  | _ => .error malformed

section Acceptance
variable {dialect}

theorem record_ok {value : Value} {label : String} {fields : Fields}
    (h : record value label = .ok fields) : value = .object fields := by
  cases value with
  | object members => rw [Except.ok.inj h]
  | _ => cases h

theorem require_unit {condition : Bool} {message : String}
    (h : require condition message = .ok ()) : condition = true := by
  cases condition with
  | false => cases h
  | true => rfl

theorem sortedNames_perm (names : List JsString) : (sortedNames names).Perm names :=
  List.perm_insertionSort _ _

/-- The fields are the expected ones, in some order. -/
theorem exactOwnKeys_ok {value : Fields} {expected : List String} {label : String}
    (h : exactOwnKeys dialect value expected label = .ok ()) :
    (keys value).Perm (expected.map js) := by
  have hsorted := eq_of_beq (require_unit h)
  exact (sortedNames_perm _).symm.trans (hsorted ▸ sortedNames_perm _)

theorem onlyName_ok {value : Fields} {names : List String} {message name : String}
    (h : onlyName value names message = .ok name) : present value names = [name] := by
  unfold onlyName at h
  split at h
  · next only hpresent => rw [hpresent, Except.ok.inj h]
  · cases h

/-- A record of one field, which is among the names. -/
theorem present_single {fields : Fields} {names : List String} {name : String}
    (hpresent : present fields names = [name]) (hone : (keys fields).length = 1) :
    name ∈ names ∧ ∃ v, fields = [(js name, v)] := by
  obtain ⟨⟨key, v⟩, rfl⟩ : ∃ field, fields = [field] := by
    apply List.length_eq_one_iff.mp
    simpa [keys] using hone
  have hin : name ∈ present [(key, v)] names := by
    rw [hpresent]
    exact List.mem_singleton_self name
  obtain ⟨hnames, hown⟩ := List.mem_filter.mp hin
  refine ⟨hnames, v, ?_⟩
  have hkey : js name = key := by
    by_contra hne
    have hfalse : (js name == key) = false := beq_eq_false_iff_ne.mpr hne
    simp [hasOwn, List.lookup_cons, hfalse] at hown
  rw [hkey]

theorem exactOwnKeys_single {fields : Fields} {name label : String}
    (h : exactOwnKeys dialect fields [name] label = .ok ()) : ∃ v, fields = [(js name, v)] := by
  have hkeys : keys fields = [js name] := List.perm_singleton.mp (exactOwnKeys_ok h)
  obtain ⟨⟨key, v⟩, rfl⟩ : ∃ field, fields = [field] := by
    apply List.length_eq_one_iff.mp
    simpa [keys] using congrArg List.length hkeys
  have hkey : key = js name := by simpa [keys] using hkeys
  exact ⟨v, by rw [hkey]⟩

theorem safeHeight_ok {value : Value} {label : String} {n : Nat}
    (h : safeHeight value label = .ok n) : ∃ x, value = .number x ∧ safeInteger x = some (n : Int) := by
  unfold safeHeight at h
  split at h
  · next x =>
    split at h
    · next m hsafe =>
      split at h
      · next hnonneg =>
        obtain rfl := Except.ok.inj h
        exact ⟨x, rfl, by rw [hsafe, Int.toNat_of_nonneg hnonneg]⟩
      · cases h
    · cases h
  · cases h

end Acceptance
end Concordia.Verify.Rpc
