import Concordia.Locke.Broadcast

/-! What the finality of a deploy is read from: which execution results are reported as a success,
and which of these are one. -/
namespace Concordia.Locke
open Concordia.Python
open Concordia.Gateway (isTrue)
open Concordia.Js hiding Value

section Forms

/-- The execution result that `_extract_finality_status` selects; no value for an error of the node
and where the code raises. -/
def selectedResult : Value → Option Value
  | .dict payload =>
    if isTrue (Dict.get payload "error") then none
    else match firstTrue (Dict.get payload "result") (.dict []) with
      | .dict result => executionResult result
      | _ => none
  | _ => none

def isPresent : Value → Bool
  | .none => false
  | _ => true

/-- The objects of an execution result that can say how it went: its wrappers, and itself. -/
def formsOf (result : Dict) : List Dict :=
  result :: ["Version1", "version1", "Version2", "version2"].filterMap fun wrapper =>
    match result.get wrapper with
    | .dict form => some form
    | _ => none

/-- A `Success` member, or an `error_message` that says there is none. -/
def reportsSuccess (form : Dict) : Bool :=
  isPresent (form.get "Success") || isPresent (form.get "success") ||
    (["error_message", "errorMessage"].any fun name => (form.lookup (js name)).any (!isPresent ·))

/-- A `Failure` member, or an error message. -/
def reportsFailure (form : Dict) : Bool :=
  ["Failure", "failure", "error_message", "errorMessage"].any fun name => isPresent (form.get name)

/-- An object that reports success in a recognised form, and a failure in none. -/
def RecognisedSuccess : Value → Prop
  | .dict result => (∃ form ∈ formsOf result, reportsSuccess form = true) ∧
      ∀ form ∈ formsOf result, reportsFailure form = false
  | _ => False

instance : DecidablePred RecognisedSuccess := fun v => by
  unfold RecognisedSuccess
  split <;> infer_instance

/-- What the code takes for a failure: a true member of the part that it looks at. -/
def showsFailure (result : Dict) : Bool :=
  let versioned := versionedResult result
  isTrue (firstTrue (versioned.get "Failure") (versioned.get "failure")) ||
    isTrue (firstTrue (versioned.get "error_message") (versioned.get "errorMessage"))

/-- The execution results that the code does justice to. -/
def Handled : Value → Prop
  | .none => True
  | .dict result => showsFailure result = true ∨ RecognisedSuccess (.dict result)
  | _ => False

instance : DecidablePred Handled := fun v => by
  unfold Handled
  split <;> infer_instance

end Forms

/-- A reply that is reported as a success carries one. -/
def FailClosed (payload : Value) : Prop :=
  extractFinalityStatus payload = some (.finalized true) →
    ∃ result, selectedResult payload = some result ∧ RecognisedSuccess result

section Selection

/-- The status that an execution result is reported with. -/
def statusOf : Value → FinalityStatus
  | .none => .pending
  | .dict result => .finalized !showsFailure result
  | _ => .finalized true

theorem extractFinalityStatus_dict {payload result : Dict} (herror : isTrue (payload.get "error") = false)
    (hresult : firstTrue (payload.get "result") (.dict []) = .dict result) :
    extractFinalityStatus (.dict payload) = (executionResult result).map statusOf := by
  cases hexecution : executionResult result with
  | none => simp [extractFinalityStatus, herror, hresult, hexecution]
  | some v =>
    cases v with
    | dict items =>
      simp [extractFinalityStatus, herror, hresult, hexecution, statusOf, showsFailure, Bool.not_or]
    | _ => simp [extractFinalityStatus, herror, hresult, hexecution, statusOf]

theorem selectedResult_dict {payload result : Dict} (herror : isTrue (payload.get "error") = false)
    (hresult : firstTrue (payload.get "result") (.dict []) = .dict result) :
    selectedResult (.dict payload) = executionResult result := by
  simp [selectedResult, herror, hresult]

theorem extractFinalityStatus_selected (payload : Value) :
    extractFinalityStatus payload = some (.finalized true) ↔
      ∃ result, selectedResult payload = some result ∧ statusOf result = .finalized true := by
  cases payload with
  | dict items =>
    cases herror : isTrue (Dict.get items "error") with
    | true => simp [extractFinalityStatus, selectedResult, herror]
    | false =>
      cases hresult : firstTrue (Dict.get items "result") (.dict []) with
      | dict result =>
        rw [extractFinalityStatus_dict herror hresult, selectedResult_dict herror hresult,
          Option.map_eq_some_iff]
      | _ => simp [extractFinalityStatus, selectedResult, herror, hresult]
  | _ => simp [extractFinalityStatus, selectedResult]

/-- A reply is read fail-closed just when its execution result is one that the code handles. -/
theorem failClosed_iff (payload : Value) :
    FailClosed payload ↔ ∀ result, selectedResult payload = some result → Handled result := by
  unfold FailClosed
  rw [extractFinalityStatus_selected]
  constructor
  · intro h result hselected
    cases result with
    | none => trivial
    | dict items =>
      by_cases hshown : showsFailure items = true
      · exact .inl hshown
      · have hstatus : statusOf (.dict items) = .finalized true := by simp [statusOf, hshown]
        obtain ⟨result', hselected', hsuccess⟩ := h ⟨_, hselected, hstatus⟩
        obtain rfl := Option.some.inj (hselected.symm.trans hselected')
        exact .inr hsuccess
    | _ =>
      obtain ⟨result', hselected', hsuccess⟩ := h ⟨_, hselected, rfl⟩
      obtain rfl := Option.some.inj (hselected.symm.trans hselected')
      exact hsuccess.elim
  · rintro h ⟨result, hselected, hstatus⟩
    refine ⟨result, hselected, ?_⟩
    have hhandled := h result hselected
    cases result with
    | none => cases hstatus
    | dict items =>
      rcases hhandled with hshown | hsuccess
      · simp [statusOf, hshown] at hstatus
      · exact hsuccess
    | _ => exact hhandled.elim

end Selection

section Polling

/-- A success of the polling is one of its replies. -/
theorem awaitCasperFinality_true {replies : List (Option Value)}
    (h : awaitCasperFinality replies = some true) : ∃ payload, some payload ∈ replies ∧
      extractFinalityStatus payload = some (.finalized true) := by
  induction replies with
  | nil => cases h
  | cons reply rest ih =>
    rw [awaitCasperFinality] at h
    split at h
    · rename_i success hfinal
      obtain rfl := Option.some.inj h
      obtain ⟨payload, hreply, hstatus⟩ := Option.bind_eq_some_iff.mp hfinal
      exact ⟨payload, hreply ▸ List.mem_cons_self, hstatus⟩
    · obtain ⟨payload, hmem, hstatus⟩ := ih h
      exact ⟨payload, List.mem_cons_of_mem _ hmem, hstatus⟩

/-- Every reply is read fail-closed just when its execution result is handled; a polling whose
replies are all handled reports a success only where one of them carries it. -/
theorem finality_failClosed (payload : Value) (replies : List (Option Value)) :
    (FailClosed payload ↔ ∀ result, selectedResult payload = some result → Handled result) ∧
      ((∀ payload, some payload ∈ replies → ∀ result,
        selectedResult payload = some result → Handled result) →
          awaitCasperFinality replies = some true → ∃ payload result, some payload ∈ replies ∧
            selectedResult payload = some result ∧ RecognisedSuccess result) := by
  refine ⟨failClosed_iff payload, fun hhandled htrue => ?_⟩
  obtain ⟨payload, hmem, hstatus⟩ := awaitCasperFinality_true htrue
  obtain ⟨result, hselected, hsuccess⟩ := (failClosed_iff payload).mpr (hhandled payload hmem) hstatus
  exact ⟨payload, result, hmem, hselected, hsuccess⟩

/-- A node's reply around an execution result. -/
def replyWith (result : Value) : Value :=
  .dict [(js "result", .dict [(js "execution_info", .dict [(js "execution_result", result)])])]

/-- The failure of a deploy, in the wrapper of the first version. -/
def versionOneFailure : Value :=
  .dict [(js "Version1", .dict [(js "Failure", .dict [(js "error_message", .str (js "User error: 1"))])])]

/-- A failure under `Version1`, and results that are no object or have no recognised form, are
reported as successes. -/
theorem unread_reported_success : ∀ result ∈ [versionOneFailure, .str (js "Failure"), .list [],
      .dict [(js "Version2", .dict [(js "Failure", .dict [])])], .dict [(js "cost", .str (js "1"))]],
    extractFinalityStatus (replyWith result) = some (.finalized true) ∧
      ¬ RecognisedSuccess result ∧ ¬ FailClosed (replyWith result) := by
  have hstatus : ∀ result ∈ [versionOneFailure, .str (js "Failure"), .list [],
      .dict [(js "Version2", .dict [(js "Failure", .dict [])])], .dict [(js "cost", .str (js "1"))]],
      extractFinalityStatus (replyWith result) = some (.finalized true) ∧ ¬ RecognisedSuccess result ∧
        (selectedResult (replyWith result)).all (fun r => !decide (RecognisedSuccess r)) = true := by
    decide +kernel
  intro result hresult
  obtain ⟨hfinal, hno, hselected⟩ := hstatus result hresult
  refine ⟨hfinal, hno, fun hclosed => ?_⟩
  obtain ⟨r, hr, hsuccess⟩ := hclosed hfinal
  rw [hr] at hselected
  simp [hsuccess] at hselected

theorem failure_reported_success :
    extractFinalityStatus (replyWith versionOneFailure) = some (.finalized true) ∧
      ¬ RecognisedSuccess versionOneFailure ∧ ¬ FailClosed (replyWith versionOneFailure) :=
  unread_reported_success versionOneFailure List.mem_cons_self

end Polling
end Concordia.Locke
