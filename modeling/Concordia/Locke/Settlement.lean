import Concordia.Locke.Broadcast
import Concordia.Gateway.Models

/-! What the agent's records say about the chain. A call whose broadcast was answered and whose
finality was seen is recorded as it ended on chain; a lost reply or an unfinished poll leaves
the record and the chain apart. -/
namespace Concordia.Locke
open Concordia.Lib.Transition Concordia.Python
open Concordia.Js hiding Value

/-- The step tells the agent what becomes of its deploy: an accepted deploy is acknowledged under
its own hash, the polling window holds a final reply, and no call is cancelled while it polls. -/
def clear (str : Value → Str) (s : Operator) : OperatorEvent → Bool
  | .broadcast _ hash accepted reply => match broadcastAnswer str hash reply with
    | .taken h => h = hash
    | _ => !accepted
  | .finality _ replies => replies.any isFinal
  | .cancel place => match s.calls[place]? with
    | some c => c.phase = .assembling
    | none => true
  | _ => true

/-- What a step of the system can do, with what it was checked for. -/
inductive Operated (str : Value → Str) (floats : FloatFormat) (s : Operator) :
    OperatorEvent → Operator → Prop
  | entered {actionId target : Str} {parameters : Value} {r : Request}
      (admitted : Admitted floats s.ctx actionId target parameters r) :
      Operated str floats s (.call actionId target parameters)
        { s with ctx := (s.agent.enter r).ctx, calls := s.calls ++ [⟨r, .assembling⟩] }
  | unassembled {place : Nat} {r : Request} {raised : Bool}
      (running : s.calls[place]? = some ⟨r, .assembling⟩) :
      Operated str floats s (.unassembled place raised)
        (s.settle place ⟨r, .assembling⟩ ⟨if raised then .error else .failed, none⟩)
  | refused {place : Nat} {r : Request} {hash : Str} {accepted : Bool} {reply : Option Value}
      {o : Outcome} (running : s.calls[place]? = some ⟨r, .assembling⟩)
      (answer : ∀ h, broadcastAnswer str hash reply ≠ .taken h)
      (failed : o.status = .failed ∨ o.status = .error) :
      Operated str floats s (.broadcast place hash accepted reply)
        ((s.send ⟨r, hash, accepted, none⟩).settle place ⟨r, .assembling⟩ o)
  | taken {place : Nat} {r : Request} {hash h : Str} {accepted : Bool} {reply : Option Value}
      (running : s.calls[place]? = some ⟨r, .assembling⟩)
      (answer : broadcastAnswer str hash reply = .taken h) :
      Operated str floats s (.broadcast place hash accepted reply)
        { s.send ⟨r, hash, accepted, none⟩ with
          calls := s.calls.set place ⟨r, .polling s.deploys.length h⟩ }
  | polled {place deploy : Nat} {r : Request} {hash : Str} {replies : List (Option Value)}
      (running : s.calls[place]? = some ⟨r, .polling deploy hash⟩) :
      Operated str floats s (.finality place replies)
        ((s.observe deploy hash (awaitCasperFinality replies)).settle place
          ⟨r, .polling deploy hash⟩
          ⟨if awaitCasperFinality replies = some false then .failed else .success, some hash⟩)
  | cancelled {place : Nat} {c : Call} (running : s.calls[place]? = some c) :
      Operated str floats s (.cancel place)
        { s with ctx := (s.agent.leave place c.request).ctx, calls := s.calls.eraseIdx place }

section Agent
variable {str : Value → Str} {floats : FloatFormat} {s t : Operator} {e : OperatorEvent}
  {place : Nat} {c : Call}

theorem operated (h : operate str floats s e = some t) : Operated str floats s e t := by
  cases e with
  | call actionId target parameters =>
    simp only [operate, Option.map_eq_some_iff] at h
    obtain ⟨r, hr, rfl⟩ := h
    cases hrequest : executeGovernanceExecution floats s.ctx actionId target parameters with
    | error => simp [hrequest, Except.toOption] at hr
    | ok q =>
      obtain rfl : q = r := by simpa [hrequest, Except.toOption] using hr
      exact .entered (executeGovernanceExecution_ok hrequest)
  | unassembled place raised =>
    simp only [operate] at h
    split at h
    · obtain rfl := Option.some.inj h
      exact .unassembled ‹_›
    · cases h
  | broadcast place hash accepted reply =>
    simp only [operate] at h
    split at h
    · rename_i r hr
      split at h
      · rename_i hanswer
        obtain rfl := Option.some.inj h
        exact .refused hr (by simp [hanswer]) (.inr rfl)
      · rename_i g hanswer
        obtain rfl := Option.some.inj h
        exact .refused hr (by simp [hanswer]) (.inl rfl)
      · rename_i g hanswer
        obtain rfl := Option.some.inj h
        exact .taken hr hanswer
    · cases h
  | finality place replies =>
    simp only [operate] at h
    split at h
    · obtain rfl := Option.some.inj h
      exact .polled ‹_›
    · cases h
  | cancel place =>
    simp only [operate, Option.map_eq_some_iff] at h
    obtain ⟨c, hc, rfl⟩ := h
    exact .cancelled hc

theorem agent_settle (o : Outcome) : (s.settle place c o).agent =
    (s.agent.leave place c.request).recorded (c.request.record o) := by
  simp [Operator.agent, Operator.settle, State.leave, State.recorded, List.eraseIdx_map]

theorem agent_running (h : s.calls[place]? = some c) :
    s.agent.running[place]? = some c.request := by
  simp [Operator.agent, h]

theorem step_settle (h : s.calls[place]? = some c) (o : Outcome) :
    step floats s.agent (.finish place o) = some (s.settle place c o).agent := by
  rw [step, agent_running h, agent_settle]
  rfl

theorem agent_set {phase : Phase} (h : s.calls[place]? = some c) :
    (s.calls.set place ⟨c.request, phase⟩).map Call.request = s.calls.map Call.request := by
  refine List.ext_getElem? fun i => ?_
  rw [List.map_set, List.getElem?_set]
  split
  · rename_i hi
    subst hi
    split
    · simp [h]
    · rename_i hout
      simp [List.getElem?_eq_none (Nat.le_of_not_lt hout)]
  · rfl

/-- The agent sees a step of the whole system as one of its own, or not at all. -/
theorem Operated.agent (h : Operated str floats s e t) :
    t.agent = s.agent ∨ (∃ actionId target parameters r,
      Admitted floats s.ctx actionId target parameters r ∧ t.agent = s.agent.enter r) ∨
    ∃ e', step floats s.agent e' = some t.agent := by
  cases h with
  | entered admitted =>
    refine .inr (.inl ⟨_, _, _, _, admitted, ?_⟩)
    simp [Operator.agent, State.enter]
  | unassembled running => exact .inr (.inr ⟨_, step_settle running _⟩)
  | refused running => exact .inr (.inr ⟨_, step_settle (s := s.send _) running _⟩)
  | taken running =>
    left
    change State.mk s.ctx _ = State.mk s.ctx _
    rw [agent_set running]
  | polled running => exact .inr (.inr ⟨_, step_settle (s := s.observe _ _ _) running _⟩)
  | @cancelled place c running =>
    refine .inr (.inr ⟨.cancel place, ?_⟩)
    rw [step, agent_running running]
    simp [Operator.agent, State.leave, List.eraseIdx_map]

theorem Operated.guarded {envelopes : List Envelope} (h : Operated str floats s e t)
    (hg : Guarded envelopes s.agent) : Guarded envelopes t.agent := by
  rcases h.agent with hsame | ⟨_, _, _, r, hrequest, hsame⟩ | ⟨e', hstep⟩
  · rw [hsame]
    exact hg
  · rw [hsame]
    exact hg.enter hrequest
  · exact hg.step hstep

end Agent

/-- The invariant of clear runs: each accepted deploy is polled for, known to have failed, or on
record as done; what is on record as done was seen final; and none is sent again without need. -/
structure Traced (envelopes : List Envelope) (s : Operator) : Prop where
  guarded : Guarded envelopes s.agent
  polling : ∀ c ∈ s.calls, ∀ j h, c.phase = .polling j h → ∃ d, s.deploys[j]? = some d ∧
    d.request.key = c.request.key ∧ d.hash = h ∧ d.observed = none
  accounted : ∀ (j : Nat) (d : Deploy), s.deploys[j]? = some d → d.accepted = true → d.observed = some false ∨
    (∃ a ∈ s.ctx.actionsTaken, a.succeeded = true ∧ a.key = d.request.key) ∨
    ∃ c ∈ s.calls, ∃ h, c.phase = .polling j h
  done : ∀ a ∈ s.ctx.actionsTaken, a.succeeded = true →
    ∃ d ∈ s.deploys, d.request.key = a.key ∧ d.observed = some true
  once : ∀ (i j : Nat) (d d' : Deploy), i < j → s.deploys[i]? = some d → s.deploys[j]? = some d' →
    d.request.key = d'.request.key → d.accepted = true → d.observed = some false

section Traces
variable {str : Value → Str} {floats : FloatFormat} {envelopes : List Envelope} {s t : Operator}
  {e : OperatorEvent} {place : Nat} {c x : Call} {r : Request}

theorem Traced.start : Traced envelopes (.start envelopes) := by
  refine ⟨.start, ?_, ?_, ?_, ?_⟩ <;> simp [Operator.start]

/-- Keys tell the running calls apart. -/
theorem Guarded.call_eq (hg : Guarded envelopes s.agent) (hc : c ∈ s.calls) (hx : x ∈ s.calls)
    (h : c.request.key = x.request.key) : c = x := by
  have hnodup : (s.calls.map (Request.key ∘ Call.request)).Nodup := by
    simpa only [Operator.agent, List.map_map] using hg.distinct
  exact List.inj_on_of_nodup_map hnodup hc hx h

theorem mem_erased (hg : Guarded envelopes s.agent) (hc : s.calls[place]? = some c)
    (hx : x ∈ s.calls.eraseIdx place) : x ∈ s.calls ∧ x.request.key ≠ c.request.key := by
  refine ⟨List.mem_of_mem_eraseIdx hx, ?_⟩
  refine ((hg.mem_leave (agent_running hc) _).mp ?_).1
  rw [State.leave, Operator.agent, List.eraseIdx_map]
  exact List.mem_map_of_mem (List.mem_map_of_mem hx)

theorem erased_mem (hc : s.calls[place]? = some c) (hx : x ∈ s.calls) (hne : x ≠ c) :
    x ∈ s.calls.eraseIdx place := by
  obtain ⟨i, hi⟩ := List.mem_iff_getElem?.mp hx
  refine List.mem_eraseIdx_iff_getElem?.mpr ⟨i, ?_, hi⟩
  rintro rfl
  exact hne (Option.some.inj (hi.symm.trans hc))

theorem set_mem {y : Call} (hc : s.calls[place]? = some c) (hx : x ∈ s.calls) (hne : x ≠ c) :
    x ∈ s.calls.set place y := by
  obtain ⟨i, hi⟩ := List.mem_iff_getElem?.mp hx
  refine List.mem_iff_getElem?.mpr ⟨i, ?_⟩
  rw [List.getElem?_set_ne, hi]
  rintro rfl
  exact hne (Option.some.inj (hi.symm.trans hc))

/-- Before a broadcast, the accepted deploys of the same action are known to have failed. -/
theorem Traced.resend (ht : Traced envelopes s) (hc : s.calls[place]? = some ⟨r, .assembling⟩)
    {j : Nat} {d : Deploy} (hd : s.deploys[j]? = some d) (hkey : d.request.key = r.key)
    (haccepted : d.accepted = true) : d.observed = some false := by
  have hmem := List.mem_of_getElem? hc
  rcases ht.accounted j d hd haccepted with hfailed | ⟨a, ha, hsucceeded, hak⟩ | ⟨x, hx, h, hphase⟩
  · exact hfailed
  · refine absurd ?_ (ht.guarded.unfinished a ha hsucceeded)
    rw [hak, hkey]
    exact List.mem_map_of_mem (List.mem_map_of_mem hmem)
  · obtain ⟨d', hd', hk', -, -⟩ := ht.polling x hx j h hphase
    obtain rfl : d = d' := Option.some.inj (hd.symm.trans hd')
    have hsame := ht.guarded.call_eq hx hmem (hk'.symm.trans hkey)
    rw [hsame] at hphase
    cases hphase

/-- A call in front of its broadcast leaves with a failure, or without a record. -/
theorem Traced.settle_failed (ht : Traced envelopes s)
    (hc : s.calls[place]? = some ⟨r, .assembling⟩) {o : Outcome}
    (ho : o.status = .failed ∨ o.status = .error)
    (hg : Guarded envelopes (s.settle place ⟨r, .assembling⟩ o).agent) :
    Traced envelopes (s.settle place ⟨r, .assembling⟩ o) := by
  have hout : (r.record o).succeeded = false := by
    rcases ho with ho | ho <;> simp [Action.succeeded, Request.record, ho]
  refine ⟨hg, fun x hx => ht.polling x (List.mem_of_mem_eraseIdx hx), ?_, ?_, ht.once⟩
  · intro j d hd haccepted
    rcases ht.accounted j d hd haccepted with hfailed | ⟨a, ha, hrest⟩ | ⟨x, hx, h, hphase⟩
    · exact .inl hfailed
    · exact .inr (.inl ⟨a, List.mem_append_left _ ha, hrest⟩)
    · refine .inr (.inr ⟨x, erased_mem hc hx ?_, h, hphase⟩)
      rintro rfl
      cases hphase
  · intro a ha hsucceeded
    rcases List.mem_append.mp ha with hold | hnew
    · exact ht.done a hold hsucceeded
    · rw [List.mem_singleton.mp hnew, hout] at hsucceeded
      cases hsucceeded

/-- Sending a deploy for a call in front of its broadcast: an earlier one has failed. -/
theorem Traced.once_send (ht : Traced envelopes s)
    (hc : s.calls[place]? = some ⟨r, .assembling⟩) {d : Deploy} (hr : d.request = r) (i j : Nat)
    (x y : Deploy) (hlt : i < j) (hx : (s.deploys ++ [d])[i]? = some x)
    (hy : (s.deploys ++ [d])[j]? = some y) (hkey : x.request.key = y.request.key)
    (haccepted : x.accepted = true) : x.observed = some false := by
  have hj : j < (s.deploys ++ [d]).length := (List.getElem?_eq_some_iff.mp hy).1
  rw [List.length_append, List.length_singleton] at hj
  have hi : i < s.deploys.length := by omega
  rw [List.getElem?_append_left hi] at hx
  rcases Nat.lt_or_ge j s.deploys.length with hold | hnew
  · rw [List.getElem?_append_left hold] at hy
    exact ht.once i j x y hlt hx hy hkey haccepted
  · have hlast : j = s.deploys.length := by omega
    subst hlast
    obtain rfl : d = y := by simpa using hy
    exact ht.resend hc hx (by rw [hkey, hr]) haccepted

theorem Traced.send_refused (ht : Traced envelopes s)
    (hc : s.calls[place]? = some ⟨r, .assembling⟩) {d : Deploy} (hr : d.request = r)
    (hrefused : d.accepted = false) : Traced envelopes (s.send d) := by
  refine ⟨ht.guarded, ?_, ?_, ?_, ht.once_send hc hr⟩
  · intro x hx j h hphase
    obtain ⟨d', hd', hrest⟩ := ht.polling x hx j h hphase
    refine ⟨d', ?_, hrest⟩
    rw [Operator.send, List.getElem?_append_left (List.getElem?_eq_some_iff.mp hd').1, hd']
  · intro j x hx haccepted
    rcases Nat.lt_or_ge j s.deploys.length with hold | hnew
    · rw [Operator.send, List.getElem?_append_left hold] at hx
      exact ht.accounted j x hx haccepted
    · rw [Operator.send, List.getElem?_append_right hnew] at hx
      obtain rfl : x = d := List.mem_singleton.mp (List.mem_of_getElem? hx)
      simp [hrefused] at haccepted
  · intro a ha hsucceeded
    obtain ⟨d', hd', hrest⟩ := ht.done a ha hsucceeded
    exact ⟨d', List.mem_append_left _ hd', hrest⟩

theorem Traced.taken (ht : Traced envelopes s)
    (hc : s.calls[place]? = some ⟨r, .assembling⟩) {hash : Str} {accepted : Bool}
    (hg : Guarded envelopes (Operator.agent { s.send ⟨r, hash, accepted, none⟩ with
      calls := s.calls.set place ⟨r, .polling s.deploys.length hash⟩ })) :
    Traced envelopes { s.send ⟨r, hash, accepted, none⟩ with
      calls := s.calls.set place ⟨r, .polling s.deploys.length hash⟩ } := by
  have hlt : place < s.calls.length := (List.getElem?_eq_some_iff.mp hc).1
  refine ⟨hg, ?_, ?_, ?_, ht.once_send hc rfl⟩
  · intro x hx j h hphase
    rcases List.mem_or_eq_of_mem_set hx with hold | rfl
    · obtain ⟨d, hd, hrest⟩ := ht.polling x hold j h hphase
      refine ⟨d, ?_, hrest⟩
      change (s.deploys ++ _)[j]? = some d
      rw [List.getElem?_append_left (List.getElem?_eq_some_iff.mp hd).1, hd]
    · obtain ⟨rfl, rfl⟩ := Phase.polling.inj hphase
      exact ⟨⟨r, hash, accepted, none⟩, by simp [Operator.send], rfl, rfl, rfl⟩
  · intro j x hx haccepted
    change (s.deploys ++ _)[j]? = some x at hx
    rcases Nat.lt_or_ge j s.deploys.length with hold | hnew
    · rw [List.getElem?_append_left hold] at hx
      rcases ht.accounted j x hx haccepted with hfailed | hdone | ⟨y, hy, h, hphase⟩
      · exact .inl hfailed
      · exact .inr (.inl hdone)
      · refine .inr (.inr ⟨y, set_mem hc hy ?_, h, hphase⟩)
        rintro rfl
        cases hphase
    · have hj := (List.getElem?_eq_some_iff.mp hx).1
      rw [List.length_append, List.length_singleton] at hj
      have hlast : j = s.deploys.length := by omega
      subst hlast
      exact .inr (.inr ⟨⟨r, .polling s.deploys.length hash⟩, List.mem_set hlt _, hash, rfl⟩)
  · intro a ha hsucceeded
    obtain ⟨d', hd', hrest⟩ := ht.done a ha hsucceeded
    exact ⟨d', List.mem_append_left _ hd', hrest⟩

theorem observe_lookup {deploy : Nat} {hash : Str} {d : Deploy} {o : Option Bool}
    (hd : s.deploys[deploy]? = some d) (hhash : d.hash = hash) (j : Nat) :
    (s.observe deploy hash o).deploys[j]? =
      if deploy = j then some { d with observed := o } else s.deploys[j]? := by
  rw [Operator.observe, List.getElem?_modify]
  split
  · rename_i hj
    subst hj
    simp [hd, hhash]
  · simp

/-- A final result settles the call the way its deploy ended. -/
theorem Traced.polled (ht : Traced envelopes s) {deploy : Nat} {hash : Str}
    (hc : s.calls[place]? = some ⟨r, .polling deploy hash⟩) (b : Bool) {o : Outcome}
    (ho : o.status = if b then .success else .failed)
    (hg : Guarded envelopes
      ((s.observe deploy hash (some b)).settle place ⟨r, .polling deploy hash⟩ o).agent) :
    Traced envelopes
      ((s.observe deploy hash (some b)).settle place ⟨r, .polling deploy hash⟩ o) := by
  have hmem := List.mem_of_getElem? hc
  obtain ⟨d, hd, hkey, hhash, hnone⟩ := ht.polling _ hmem deploy hash rfl
  have hlookup := observe_lookup (o := some b) hd hhash
  have hrecord : (r.record o).key = r.key :=
    Request.record_key (ht.guarded.objects r (List.mem_map_of_mem hmem)) o
  refine ⟨hg, ?_, ?_, ?_, ?_⟩
  · intro x hx j h hphase
    obtain ⟨hold, hother⟩ := mem_erased ht.guarded hc hx
    obtain ⟨d', hd', hk', hrest⟩ := ht.polling x hold j h hphase
    refine ⟨d', ?_, hk', hrest⟩
    change (s.observe deploy hash (some b)).deploys[j]? = some d'
    rw [hlookup, if_neg, hd']
    rintro rfl
    obtain rfl : d = d' := Option.some.inj (hd.symm.trans hd')
    exact hother (hk'.symm.trans hkey)
  · intro j x hx haccepted
    change (s.observe deploy hash (some b)).deploys[j]? = some x at hx
    rw [hlookup] at hx
    split at hx
    · obtain rfl := Option.some.inj hx
      cases b with
      | false => exact .inl rfl
      | true =>
        refine .inr (.inl ⟨r.record o, List.mem_append_right _ (List.mem_singleton_self _), ?_, ?_⟩)
        · simp [Action.succeeded, Request.record, ho]
        · rw [hrecord]
          exact hkey.symm
    · rename_i hne
      rcases ht.accounted j x hx haccepted with hfailed | ⟨a, ha, hrest⟩ | ⟨y, hy, h, hphase⟩
      · exact .inl hfailed
      · exact .inr (.inl ⟨a, List.mem_append_left _ ha, hrest⟩)
      · refine .inr (.inr ⟨y, erased_mem hc hy ?_, h, hphase⟩)
        rintro rfl
        exact hne (Phase.polling.inj hphase).1
  · intro a ha hsucceeded
    rcases List.mem_append.mp ha with hold | hnew
    · obtain ⟨d', hd', hk', htrue⟩ := ht.done a hold hsucceeded
      obtain ⟨i, hi⟩ := List.mem_iff_getElem?.mp hd'
      refine ⟨d', List.mem_iff_getElem?.mpr ⟨i, ?_⟩, hk', htrue⟩
      change (s.observe deploy hash (some b)).deploys[i]? = some d'
      rw [hlookup, if_neg, hi]
      rintro rfl
      obtain rfl : d = d' := Option.some.inj (hd.symm.trans hi)
      simp [hnone] at htrue
    · obtain rfl := List.mem_singleton.mp hnew
      have hb : b = true := by
        cases b with
        | false => simp [Action.succeeded, Request.record, ho] at hsucceeded
        | true => rfl
      refine ⟨{ d with observed := some b }, List.mem_iff_getElem?.mpr ⟨deploy, ?_⟩, ?_, ?_⟩
      · change (s.observe deploy hash (some b)).deploys[deploy]? = _
        rw [hlookup, if_pos rfl]
      · rw [hrecord]
        exact hkey
      · rw [hb]
  · intro i j x y hlt hx hy hsame haccepted
    change (s.observe deploy hash (some b)).deploys[i]? = some x at hx
    change (s.observe deploy hash (some b)).deploys[j]? = some y at hy
    rw [hlookup] at hx hy
    split at hx
    · rename_i hi
      subst hi
      obtain rfl := Option.some.inj hx
      rw [if_neg (Nat.ne_of_lt hlt)] at hy
      have hbefore := ht.once deploy j d y hlt hd hy hsame haccepted
      simp [hnone] at hbefore
    · split at hy
      · rename_i hj
        subst hj
        obtain rfl := Option.some.inj hy
        exact ht.once i deploy x d hlt hx hd hsame haccepted
      · exact ht.once i j x y hlt hx hy hsame haccepted

/-- Every clear step keeps the invariant. -/
theorem Traced.step (ht : Traced envelopes s) (hclear : clear str s e = true)
    (h : Operated str floats s e t) : Traced envelopes t := by
  have hg := h.guarded ht.guarded
  cases h with
  | @entered actionId target parameters r admitted =>
    refine ⟨hg, ?_, ?_, ht.done, ht.once⟩
    · intro x hx j h hphase
      rcases List.mem_append.mp hx with hold | hnew
      · exact ht.polling x hold j h hphase
      · rw [List.mem_singleton.mp hnew] at hphase
        cases hphase
    · intro j d hd haccepted
      rcases ht.accounted j d hd haccepted with hfailed | hdone | ⟨x, hx, hrest⟩
      · exact .inl hfailed
      · exact .inr (.inl hdone)
      · exact .inr (.inr ⟨x, List.mem_append_left _ hx, hrest⟩)
  | @unassembled place r raised running =>
    refine ht.settle_failed running ?_ hg
    cases raised with
    | false => exact .inl rfl
    | true => exact .inr rfl
  | @refused place r hash accepted reply o running answer failed =>
    have hrefused : accepted = false := by
      simp only [clear] at hclear
      simpa using hclear
    exact (ht.send_refused running rfl hrefused).settle_failed running failed hg
  | @taken place r hash h accepted reply running answer =>
    have hhash : h = hash := by simpa [clear, answer] using hclear
    subst hhash
    exact ht.taken running hg
  | @polled place deploy r hash replies running =>
    obtain ⟨b, hb⟩ := Option.isSome_iff_exists.mp
      ((awaitCasperFinality_isSome replies).trans hclear)
    simp only [hb] at hg ⊢
    refine ht.polled running b ?_ hg
    cases b <;> rfl
  | @cancelled place c running =>
    have hphase : c.phase = .assembling := by
      simpa [clear, running] using hclear
    refine ⟨hg, fun x hx => ht.polling x (List.mem_of_mem_eraseIdx hx), ?_, ht.done, ht.once⟩
    intro j d hd haccepted
    rcases ht.accounted j d hd haccepted with hfailed | hdone | ⟨x, hx, h, hpolling⟩
    · exact .inl hfailed
    · exact .inr (.inl hdone)
    · refine .inr (.inr ⟨x, erased_mem running hx ?_, h, hpolling⟩)
      rintro rfl
      rw [hphase] at hpolling
      cases hpolling

theorem accepts_traced {log : List OperatorEvent}
    (h : Accepts (operate str floats) (.start envelopes) log s)
    (hclear : EveryStep (operate str floats) (.start envelopes) log fun v x => clear str v x = true) :
    Traced envelopes s :=
  h.guarded hclear .start fun _ _ _ _ _ hv hok hstep => hv.step hok (operated hstep)

end Traces

/-- In the runs whose steps are all clear: the receipt guards pass only if for each approved
envelope a deploy with its arguments was seen final with success, and a deploy of an action is
sent after another accepted one only if that one is known to have failed. -/
theorem receipts_settled (str : Value → Str) (floats : FloatFormat) (envelopes : List Envelope)
    (events : List OperatorEvent) (s : Operator) (log : List OperatorEvent)
    (hrun : run (operate str floats) (.start envelopes) events = (s, log))
    (hclear : EveryStep (operate str floats) (.start envelopes) log
      fun v x => clear str v x = true) :
    (receiptGuards s.ctx = .ok () → ∀ e ∈ envelopes,
      ∃ d ∈ s.deploys, d.request.key = e.key ∧ d.observed = some true) ∧
    ∀ (i j : Nat) (d d' : Deploy), i < j → s.deploys[i]? = some d → s.deploys[j]? = some d' →
      d.request.key = d'.request.key → d.accepted = true → d.observed = some false := by
  have haccepts : Accepts (operate str floats) (.start envelopes) log s := by
    simpa [hrun] using run_accepts (operate str floats) (.start envelopes) events
  have ht : Traced envelopes s := accepts_traced haccepts hclear
  refine ⟨fun hok e he => ?_, ht.once⟩
  obtain ⟨-, -, hcounts⟩ := receiptGuards_ok hok
  have henvelopes : s.ctx.envelopes = envelopes := ht.guarded.envelopes_eq
  have hmem : e.key ∈ ((s.ctx.actionsTaken.filter Action.succeeded).map Action.key : List Key) := by
    rw [← Multiset.mem_coe, ← hcounts ?_]
    · simp only [Context.approvedKeys, henvelopes, Multiset.mem_coe]
      exact List.mem_map_of_mem he
    · rw [henvelopes]
      exact List.ne_nil_of_mem he
  obtain ⟨a, ha, hkey⟩ := List.mem_map.mp hmem
  obtain ⟨htaken, hsucceeded⟩ := List.mem_filter.mp ha
  obtain ⟨d, hd, hk, hobserved⟩ := ht.done a htaken hsucceeded
  exact ⟨d, hd, hk.trans hkey, hobserved⟩

/-- Python's `str`, on the deploy hashes of the samples. -/
def sampleStr : Value → Str
  | .str s => s
  | _ => []

def sampleEnvelope : Envelope :=
  ⟨receiptAction, js "casper-test", .dict [(js "decision", .str (js "APPROVED"))]⟩

def sampleCall : OperatorEvent :=
  .call receiptAction (js "casper-test") (.str (js "\x7b\"decision\": \"APPROVED\"\x7d"))

/-- The node's acknowledgement of a deploy. -/
def acknowledged (hash : Str) : Option Value :=
  some (.dict [(js "result", .dict [(js "deploy_hash", .str hash)])])

/-- The node's report of a successful execution. -/
def executed : Option Value :=
  some (.dict [(js "result", .dict [(js "execution_info", .dict [(js "execution_result",
    .dict [(js "Version2", .dict [(js "error_message", .none)])])])])])

def operateSample (events : List OperatorEvent) : Operator × List OperatorEvent :=
  run (operate sampleStr Gateway.sampleFloats) (.start [sampleEnvelope]) events

/-- A broadcast that is acknowledged, and seen final at the third query. -/
def settledRun : Operator × List OperatorEvent :=
  operateSample [sampleCall, .broadcast 0 (js "d1") true (acknowledged (js "d1")),
    .finality 0 [none, some (.dict []), executed]]

theorem receipts_settled_sample : (receiptGuards settledRun.1.ctx).toOption.isSome = true ∧
    ∀ e ∈ [sampleEnvelope], ∃ d ∈ settledRun.1.deploys,
      d.request.key = e.key ∧ d.observed = some true := by
  have hguards : (receiptGuards settledRun.1.ctx).toOption.isSome = true := by decide +kernel
  refine ⟨hguards, (receipts_settled sampleStr Gateway.sampleFloats [sampleEnvelope] _ _ _
    (Prod.eta settledRun).symm (EveryStep.of_test (by decide +kernel))).1 ?_⟩
  cases hg : receiptGuards settledRun.1.ctx with
  | error => simp [hg, Except.toOption] at hguards
  | ok u => rfl

/-- The polling window closes before the deploy is final: the receipt guards pass all the same. -/
def pendingRun : Operator × List OperatorEvent :=
  operateSample [sampleCall, .broadcast 0 (js "d1") true (acknowledged (js "d1")),
    .finality 0 [none, some (.dict [])]]

/-- The reply to an accepted broadcast is lost, and a retry sends a second deploy. -/
def lostReplyRun : Operator × List OperatorEvent :=
  operateSample [sampleCall, .broadcast 0 (js "d1") true none, sampleCall,
    .broadcast 0 (js "d2") true (acknowledged (js "d2"))]

theorem receipt_unsettled :
    (receiptGuards pendingRun.1.ctx).toOption.isSome = true ∧
    (∀ d ∈ pendingRun.1.deploys, d.observed ≠ some true) ∧
    lostReplyRun.1.deploys.map (fun d => (d.request.key, d.hash, d.accepted, d.observed)) =
      [(sampleEnvelope.key, js "d1", true, none), (sampleEnvelope.key, js "d2", true, none)] := by
  decide +kernel

end Concordia.Locke
