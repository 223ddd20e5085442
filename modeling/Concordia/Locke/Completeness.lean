import Concordia.Locke.Settlement

/-! Whether an approved list of envelopes can be brought to its receipt: which lists can be executed
as often as they are approved, and which histories the receipt guards accept behind that. -/
namespace Concordia.Locke
open Concordia.Lib.Transition Concordia.Python
open Concordia.Js hiding Value

/-- Each envelope was executed successfully exactly as often as it is approved. -/
def Completed (s : State) : Prop := (s.ctx.approvedKeys : Multiset Key) =
  ((s.ctx.actionsTaken.filter Action.succeeded).map Action.key : List Key)

instance (s : State) : Decidable (Completed s) := inferInstanceAs (Decidable (_ = _))

/-- `submit_action_receipt` passes its failure guard and its exact-envelope guard. -/
def PassesGuards (ctx : Context) : Prop :=
  (∀ ids, receiptGuards ctx ≠ .error (.failedActions ids)) ∧
    ∀ missing extra, receiptGuards ctx ≠ .error (.envelopeMismatch missing extra)

def Outcome.fails (o : Outcome) : Bool :=
  o.status = .failed || o.status = .error || o.status = .unknown

/-- No attempt of the run came back as failed. -/
def Unfailing (log : List Event) : Prop := ∀ place o, .finish place o ∈ log → o.fails = false

section History
variable {floats : FloatFormat} {envelopes : List Envelope} {s t : State} {log : List Event}

/-- The history has the failed attempts, and keeps them. -/
theorem unfailing_iff (h : Accepts (step floats) (.start envelopes) log s) :
    (∀ a ∈ s.ctx.actionsTaken, a.hasFailed = false) ↔ Unfailing log := by
  refine h.history (P := fun log s => (∀ a ∈ s.ctx.actionsTaken, a.hasFailed = false) ↔ Unfailing log)
    ?_ fun l v e w hv hstep => ?_
  · simp [State.start, Unfailing]
  · have hother : (∀ place o, e ≠ .finish place o) → (Unfailing (l ++ [e]) ↔ Unfailing l) := by
      intro he
      constructor
      · exact fun hall place o hmem => hall place o (List.mem_append_left _ hmem)
      · intro hall place o hmem
        rcases List.mem_append.mp hmem with hold | hnew
        · exact hall place o hold
        · exact absurd (List.mem_singleton.mp hnew).symm (he place o)
    cases e with
    | call actionId target parameters =>
      obtain ⟨r, -, rfl⟩ := step_call hstep
      rw [hother (by simp)]
      exact hv
    | cancel place =>
      obtain ⟨r, -, rfl⟩ := step_cancel hstep
      rw [hother (by simp)]
      exact hv
    | finish place o =>
      obtain ⟨r, -, rfl⟩ := step_finish hstep
      have hlog : Unfailing (l ++ [.finish place o]) ↔ Unfailing l ∧ o.fails = false := by
        constructor
        · exact fun hall => ⟨fun p q hmem => hall p q (List.mem_append_left _ hmem),
            hall place o (List.mem_append_right _ (List.mem_singleton_self _))⟩
        · rintro ⟨hall, hlast⟩ p q hmem
          rcases List.mem_append.mp hmem with hold | hnew
          · exact hall p q hold
          · cases List.mem_singleton.mp hnew
            exact hlast
      rw [hlog, ← hv]
      change (∀ a ∈ v.ctx.actionsTaken ++ [r.record o], a.hasFailed = false) ↔ _
      rw [List.forall_mem_append, List.forall_mem_singleton]
      rfl

/-- Behind a completed run the guards look for failed attempts only. -/
theorem passesGuards_iff (h : Completed s) :
    PassesGuards s.ctx ↔ ∀ a ∈ s.ctx.actionsTaken, a.hasFailed = false := by
  unfold PassesGuards receiptGuards
  simp only
  by_cases hempty : s.ctx.actionsTaken.isEmpty = true
  · simp [List.isEmpty_iff.mp hempty]
  · rw [if_neg hempty]
    by_cases hfailed : (s.ctx.actionsTaken.filter Action.hasFailed).isEmpty = true
    · have hnone : ∀ a ∈ s.ctx.actionsTaken, a.hasFailed = false := by
        simpa [List.filter_eq_nil_iff] using hfailed
      rw [if_neg (not_not.mpr hfailed), if_neg (fun hdiffers => hdiffers.2 h)]
      refine ⟨fun _ => hnone, fun _ => ?_⟩
      split_ifs <;> simp
    · rw [if_pos hfailed]
      constructor
      · exact fun hpasses => absurd rfl (hpasses.1 _)
      · intro hnone
        exact absurd (by simpa [List.filter_eq_nil_iff] using hnone) hfailed

end History

section Repeats
variable {floats : FloatFormat} {envelopes : List Envelope} {s t : State} {log : List Event}

/-- No key is executed successfully twice. -/
theorem succeeded_nodup (h : Accepts (step floats) (.start envelopes) log s) :
    ((s.ctx.actionsTaken.filter Action.succeeded).map Action.key).Nodup := by
  have hrun := h.invariant (P := fun s => Guarded envelopes s ∧
    ((s.ctx.actionsTaken.filter Action.succeeded).map Action.key).Nodup)
    ⟨.start, by simp [State.start]⟩ fun v e w hv hstep => ?_
  · exact hrun.2
  · obtain ⟨hguarded, hnodup⟩ := hv
    refine ⟨hguarded.step hstep, ?_⟩
    cases e with
    | call actionId target parameters =>
      obtain ⟨r, -, rfl⟩ := step_call hstep
      exact hnodup
    | cancel place =>
      obtain ⟨r, -, rfl⟩ := step_cancel hstep
      exact hnodup
    | finish place o =>
      obtain ⟨r, hr, rfl⟩ := step_finish hstep
      have hrunning := List.mem_of_getElem? hr
      have hkey := Request.record_key (hguarded.objects r hrunning) o
      change ((List.filter _ (v.ctx.actionsTaken ++ [r.record o])).map _).Nodup
      rw [List.filter_append, List.map_append]
      cases hsucceeded : (r.record o).succeeded with
      | false => simpa [hsucceeded] using hnodup
      | true =>
        rw [List.filter_singleton, hsucceeded, cond_true, List.map_singleton, hkey]
        refine List.Nodup.append hnodup (List.nodup_singleton _) ?_
        intro k hk hlast
        obtain rfl := List.mem_singleton.mp hlast
        obtain ⟨a, ha, hak⟩ := List.mem_map.mp hk
        obtain ⟨htaken, hdone⟩ := List.mem_filter.mp ha
        refine hguarded.unfinished a htaken hdone ?_
        rw [hak]
        exact List.mem_map_of_mem hrunning

theorem Completed.nodup (h : Accepts (step floats) (.start envelopes) log s) (hs : Completed s) :
    (envelopes.map Envelope.key).Nodup := by
  have henvelopes := (accepts_guarded .start h).envelopes_eq
  unfold Completed Context.approvedKeys at hs
  rw [henvelopes] at hs
  exact (Multiset.coe_eq_coe.mp hs).nodup_iff.mpr (succeeded_nodup h)

end Repeats

section Execution
variable {floats : FloatFormat} {envelopes done rest : List Envelope} {e : Envelope}

/-- An envelope that the operator may execute, as the authorization's JSON has it. -/
structure Envelope.Executable (floats : FloatFormat) (e : Envelope) : Prop where
  allowed : e.actionId ∈ allowedActions
  object : ∃ items, e.parameters = .dict items
  wellFormed : WellFormed floats e.parameters

def Envelope.request (e : Envelope) : Request := ⟨e.actionId, e.target, e.parameters⟩

/-- The call of `run_local_operator` for one envelope, with a successful outcome. -/
def localCall (e : Envelope) : List Event :=
  [.call e.actionId e.target (.str (dumps e.parameters)), .finish 0 ⟨.success, none⟩]

/-- The context behind the execution of these envelopes. -/
def executedState (envelopes done : List Envelope) : State :=
  ⟨⟨envelopes, done.map fun e => e.request.record ⟨.success, none⟩, ∅⟩, []⟩

theorem Envelope.Executable.orEmpty (h : e.Executable floats) : orEmpty e.parameters = e.parameters := by
  obtain ⟨items, hitems⟩ := h.object
  rw [hitems]
  rfl

theorem Envelope.Executable.key (h : e.Executable floats) : e.request.key = e.key := by
  rw [Envelope.key, h.orEmpty]
  rfl

theorem recorded_key (e : Envelope) : (e.request.record ⟨.success, none⟩).key = e.key := rfl

theorem requestedParameters_dumps (h : e.Executable floats) :
    requestedParameters floats e.actionId (.str (dumps e.parameters)) = .ok e.parameters := by
  obtain ⟨items, hitems⟩ := h.object
  have hloads := loads_dumps h.wellFormed
  rw [hitems] at hloads ⊢
  simp [requestedParameters, parsedParameters, hloads, bind, Except.bind]

/-- An envelope whose key was not executed yet passes the guards of the tool. -/
theorem executeGovernanceExecution_next (h : e.Executable floats) (hmem : e ∈ envelopes)
    (hfresh : e.key ∉ done.map Envelope.key) :
    executeGovernanceExecution floats (executedState envelopes done).ctx e.actionId e.target
      (.str (dumps e.parameters)) = .ok e.request := by
  have hkey : canonicalActionKey e.actionId e.target e.parameters = e.key := h.key
  have happroved : e.key ∈ (executedState envelopes done).ctx.approvedKeys := List.mem_map_of_mem hmem
  have hnever : ¬ ((executedState envelopes done).ctx.actionsTaken.any
      fun a => a.key = e.key && a.succeeded) = true := by
    rw [List.any_eq_true]
    rintro ⟨a, ha, hsame⟩
    obtain ⟨d, hd, rfl⟩ := List.mem_map.mp ha
    rw [recorded_key, Bool.and_eq_true] at hsame
    exact hfresh (of_decide_eq_true hsame.1 ▸ List.mem_map_of_mem hd)
  have hnonempty : (executedState envelopes done).ctx.envelopes.isEmpty = false := by
    rw [List.isEmpty_eq_false_iff]
    exact List.ne_nil_of_mem hmem
  unfold executeGovernanceExecution
  rw [hnonempty, requestedParameters_dumps h]
  simp only [Bool.false_eq_true, if_false, not_not.mpr h.allowed, bind, Except.bind, hkey,
    not_not.mpr happroved]
  rw [if_neg]
  · rfl
  · rintro (hany | hflight)
    · exact hnever hany
    · exact absurd hflight (Finset.notMem_empty _)

/-- One more envelope of the loop. -/
theorem executed_next (h : e.Executable floats) (hmem : e ∈ envelopes)
    (hfresh : e.key ∉ done.map Envelope.key)
    {log : List Event} (hrun : Accepts (step floats) (.start envelopes) log (executedState envelopes done)) :
    Accepts (step floats) (.start envelopes) (log ++ localCall e) (executedState envelopes (done ++ [e])) := by
  have hcall := executeGovernanceExecution_next h hmem hfresh
  have hentered : step floats (executedState envelopes done)
      (.call e.actionId e.target (.str (dumps e.parameters))) =
        some ((executedState envelopes done).enter e.request) := by
    simp [step, hcall, Except.toOption]
  have hfinished : step floats ((executedState envelopes done).enter e.request)
      (.finish 0 ⟨.success, none⟩) = some (executedState envelopes (done ++ [e])) := by
    simp [step, State.enter, State.leave, State.recorded, executedState]
  have hboth := (hrun.accept hentered).accept hfinished
  rwa [List.append_assoc] at hboth

/-- The loop of `run_local_operator` over envelopes of different keys, every one with success. -/
theorem executed_all (hall : ∀ e ∈ envelopes, e.Executable floats)
    (hnodup : (envelopes.map Envelope.key).Nodup) (hsplit : envelopes = done ++ rest) :
    Accepts (step floats) (.start envelopes) (done.flatMap localCall) (executedState envelopes done) := by
  induction done using List.reverseRecOn generalizing rest with
  | nil => exact .start
  | append_singleton done e ih =>
    have hsplit' : envelopes = done ++ e :: rest := by rw [hsplit, List.append_assoc, List.singleton_append]
    have hmem : e ∈ envelopes := by rw [hsplit']; simp
    have hfresh : e.key ∉ done.map Envelope.key := by
      rw [hsplit', List.map_append, List.map_cons] at hnodup
      intro hin
      exact (List.nodup_append.mp hnodup).2.2 _ hin _ List.mem_cons_self rfl
    rw [List.flatMap_append, List.flatMap_singleton]
    exact executed_next (hall e hmem) hmem hfresh (ih hsplit')

theorem executedState_completed (envelopes : List Envelope) :
    Completed (executedState envelopes envelopes) := by
  have hsucceeded : (envelopes.map fun e => e.request.record ⟨.success, none⟩).filter
      Action.succeeded = envelopes.map fun e => e.request.record ⟨.success, none⟩ := by
    rw [List.filter_eq_self]
    intro a ha
    obtain ⟨e, -, rfl⟩ := List.mem_map.mp ha
    rfl
  unfold Completed executedState Context.approvedKeys
  simp only
  rw [hsucceeded, List.map_map]
  rfl

end Execution

/-- A list of executable envelopes can be executed as often as it is approved just when no key is
repeated, and the guards pass behind such an execution just when no attempt of it failed. -/
theorem receipts_complete_iff (floats : FloatFormat) (envelopes : List Envelope)
    (hall : ∀ e ∈ envelopes, e.Executable floats) :
    ((∃ log s, Accepts (step floats) (.start envelopes) log s ∧ Completed s) ↔
      (envelopes.map Envelope.key).Nodup) ∧
    ∀ log s, Accepts (step floats) (.start envelopes) log s → Completed s →
      (PassesGuards s.ctx ↔ Unfailing log) := by
  refine ⟨⟨?_, fun hnodup => ?_⟩, fun log s hrun hs => ?_⟩
  · rintro ⟨log, s, hrun, hs⟩
    exact hs.nodup hrun
  · exact ⟨_, _, executed_all hall hnodup (List.append_nil envelopes).symm,
      executedState_completed envelopes⟩
  · rw [passesGuards_iff hs, unfailing_iff hrun]

def sampleEvent : Event := .call receiptAction (js "casper-test") (.str (js "\x7b\"decision\": \"APPROVED\"\x7d"))

/-- An attempt that fails, and a retry that succeeds. -/
def retriedRun : State × List Event :=
  run (step Gateway.sampleFloats) (.start [sampleEnvelope])
    [sampleEvent, .finish 0 ⟨.failed, none⟩, sampleEvent, .finish 0 ⟨.success, some (js "d1")⟩]

theorem sampleEnvelope_executable : ∀ e ∈ [sampleEnvelope, sampleEnvelope],
    e.Executable Gateway.sampleFloats := by
  have hformed : WellFormed Gateway.sampleFloats sampleEnvelope.parameters :=
    (Gateway.formed_iff _).mp (by decide +kernel)
  intro e he
  obtain rfl : e = sampleEnvelope := by simpa using he
  exact ⟨by decide +kernel, ⟨_, rfl⟩, hformed⟩

theorem receipts_complete_sample :
    (∃ log s, Accepts (step Gateway.sampleFloats) (.start [sampleEnvelope]) log s ∧ Completed s) ∧
      ¬ (∃ log s, Accepts (step Gateway.sampleFloats) (.start [sampleEnvelope, sampleEnvelope]) log s ∧
        Completed s) := by
  have hone := receipts_complete_iff Gateway.sampleFloats [sampleEnvelope] fun e he =>
    sampleEnvelope_executable e (List.mem_cons_of_mem _ he)
  have htwo := receipts_complete_iff Gateway.sampleFloats _ sampleEnvelope_executable
  refine ⟨hone.1.mpr (List.nodup_singleton _), fun h => ?_⟩
  have hnodup := htwo.1.mp h
  simp at hnodup

/-- A retried failure keeps the receipt away, and an envelope that is approved twice cannot be
executed twice. -/
theorem receipt_out_of_reach :
    (Completed retriedRun.1 ∧ ¬ PassesGuards retriedRun.1.ctx) ∧
      ∀ log s, Accepts (step Gateway.sampleFloats) (.start [sampleEnvelope, sampleEnvelope]) log s →
        ¬ Completed s := by
  have hcompleted : Completed retriedRun.1 := by decide +kernel
  have hfailed : ¬ ∀ a ∈ retriedRun.1.ctx.actionsTaken, a.hasFailed = false := by decide +kernel
  refine ⟨⟨hcompleted, fun h => hfailed ((passesGuards_iff hcompleted).mp h)⟩, fun log s hrun hs => ?_⟩
  have hnodup := hs.nodup hrun
  simp at hnodup

end Concordia.Locke
