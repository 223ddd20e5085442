import Concordia.Gateway.PublicationOrder

/-! Which role a key gives: the table of the card routes, the table of the room routes, both read
from the environment, and what the first one says about the cards of a run. -/
namespace Concordia.Gateway
open Concordia.Python Concordia.Lib.Transition
open Concordia.Js hiding Value

section Tables
variable {κ α : Type} [BEq κ] [LawfulBEq κ]

/-- `table[key] = v`. -/
def setKey (table : List (κ × α)) (key : κ) (v : α) : List (κ × α) :=
  match table with
  | [] => [(key, v)]
  | entry :: rest => if entry.1 == key then (key, v) :: rest else entry :: setKey rest key v

theorem lookup_setKey_self (table : List (κ × α)) (key : κ) (v : α) :
    (setKey table key v).lookup key = some v := by
  induction table with
  | nil => simp [setKey]
  | cons entry rest ih =>
    rw [setKey]
    split
    · simp
    · rename_i hentry
      have hother : (key == entry.1) = false := by
        apply beq_eq_false_iff_ne.mpr
        rintro rfl
        exact hentry (beq_self_eq_true _)
      rw [List.lookup_cons, hother]
      exact ih

theorem lookup_setKey_other (table : List (κ × α)) {key k : κ} (h : k ≠ key) (v : α) :
    (setKey table key v).lookup k = table.lookup k := by
  induction table with
  | nil => simp [setKey, List.lookup_cons, beq_eq_false_iff_ne.mpr h]
  | cons entry rest ih =>
    rw [setKey]
    split
    · rename_i hentry
      rw [List.lookup_cons, List.lookup_cons, beq_eq_false_iff_ne.mpr h, eq_of_beq hentry,
        beq_eq_false_iff_ne.mpr h]
    · rw [List.lookup_cons, List.lookup_cons, ih]

variable (keyOf : α → Str)

/-- One turn of a loop over the roles: a role without a key is passed over. -/
def loadRole (table : List (Str × α)) (role : α) : List (Str × α) :=
  if keyOf role = [] then table else setKey table (keyOf role) role

def loadRoles (roles : List α) : List (Str × α) := roles.foldl (loadRole keyOf) []

theorem lookup_loadRole (table : List (Str × α)) (role : α) {key : Str} (h : key ≠ []) :
    (loadRole keyOf table role).lookup key =
      if keyOf role = key then some role else table.lookup key := by
  unfold loadRole
  by_cases hrole : keyOf role = []
  · have hne : keyOf role ≠ key := fun hkey => h (hkey.symm.trans hrole)
    rw [if_pos hrole, if_neg hne]
  · rw [if_neg hrole]
    by_cases hkey : keyOf role = key
    · rw [if_pos hkey, ← hkey, lookup_setKey_self]
    · rw [if_neg hkey, lookup_setKey_other table (Ne.symm hkey)]

/-- Of the roles that share a key, the last one has it. -/
theorem lookup_loadRoles (roles : List α) {key : Str} (h : key ≠ []) :
    (loadRoles keyOf roles).lookup key = roles.reverse.find? fun role => keyOf role = key := by
  unfold loadRoles
  induction roles using List.reverseRecOn with
  | nil => rfl
  | append_singleton roles role ih =>
    rw [List.foldl_concat, lookup_loadRole keyOf _ role h, ih, List.reverse_concat, List.find?_cons]
    by_cases hkey : keyOf role = key
    · simp [hkey]
    · simp [hkey]

theorem loadRoles_lookup_nil (roles : List α) : (loadRoles keyOf roles).lookup [] = none := by
  unfold loadRoles
  induction roles using List.reverseRecOn with
  | nil => rfl
  | append_singleton roles role ih =>
    rw [List.foldl_concat, loadRole]
    by_cases hrole : keyOf role = []
    · rw [if_pos hrole, ih]
    · rw [if_neg hrole, lookup_setKey_other _ (Ne.symm hrole), ih]

end Tables

/-- `os.getenv(name, "")`, for every name. -/
abbrev Environ := String → Str

variable (environ : Environ)

section Submission

/-- `os.getenv(f"{role.upper()}_SUBMISSION_KEY", "")`. -/
def submissionKey (role : String) : Str :=
  environ (String.ofList (role.toList.map Char.toUpper) ++ "_SUBMISSION_KEY")

/-- The roles of `_ROLE_ACL`, in its order. -/
def aclRoles : List Role :=
  [.recorder, .triage, .diagnosis, .safetyReviewer, .commander, .operator, .gateway]

/-- `_load_agent_keys`. -/
def loadAgentKeys : List (Str × Role) :=
  let fallback := environ "GATEWAY_SECRET"
  let keys := loadRoles (fun role : Role => submissionKey environ role.name) aclRoles
  if fallback ≠ [] ∧ (keys.lookup fallback).isNone then setKey keys fallback .gateway else keys

end Submission

section Rooms

/-- `_ROLES`. -/
def authRoles : List String :=
  ["recorder", "triage", "diagnosis", "safety_reviewer", "commander", "operator", "scribe"]

/-- `_key_to_role` and `_role_to_key`. -/
structure KeyCache where
  keyToRole : List (Str × String)
  roleToKey : List (String × Str)

def KeyCache.register (cache : KeyCache) (key : Str) (role : String) : KeyCache :=
  ⟨setKey cache.keyToRole key role, setKey cache.roleToKey role key⟩

/-- `_load`. -/
def loadKeyCache : KeyCache :=
  let cache := authRoles.foldl (fun cache role =>
    if submissionKey environ role = [] then cache
    else cache.register (submissionKey environ role) role) ⟨[], []⟩
  let scribeFallback := environ "PROPOSAL_ROOM_API_KEY"
  let cache :=
    if scribeFallback ≠ [] ∧ (cache.roleToKey.lookup "scribe").isNone then
      cache.register scribeFallback "scribe"
    else cache
  let fallback := environ "GATEWAY_SECRET"
  if fallback ≠ [] ∧ (cache.keyToRole.lookup fallback).isNone then
    { cache with keyToRole := setKey cache.keyToRole fallback "gateway" }
  else cache

def getRoleForKey (agentKey : Str) : Option String :=
  (loadKeyCache environ).keyToRole.lookup agentKey

end Rooms

section Agreement

/-- The roles that both loaders know. -/
def sharedRoles : List Role :=
  [.recorder, .triage, .diagnosis, .safetyReviewer, .commander, .operator]

/-- The last of the shared roles whose variable is the key. -/
def holder (key : Str) : Option Role :=
  sharedRoles.reverse.find? fun role => submissionKey environ role.name = key

/-- The key that makes a scribe. -/
def scribeKey : Str :=
  if submissionKey environ "scribe" = [] then environ "PROPOSAL_ROOM_API_KEY"
  else submissionKey environ "scribe"

/-- The role that the shared secret gives, where no role has it for a key. -/
def secretRole (key : Str) : Option Role :=
  if key = environ "GATEWAY_SECRET" then some .gateway else none

/-- What the fallback adds: a role for the secret, where no role has it for a key. -/
theorem lookup_withFallback {α : Type} (keys : List (Str × α)) (role : α) {key : Str}
    (h : key ≠ []) :
    (if environ "GATEWAY_SECRET" ≠ [] ∧ (keys.lookup (environ "GATEWAY_SECRET")).isNone then
        setKey keys (environ "GATEWAY_SECRET") role
      else keys).lookup key =
    (keys.lookup key).or (if key = environ "GATEWAY_SECRET" then some role else none) := by
  by_cases hkey : key = environ "GATEWAY_SECRET"
  · rw [← hkey, if_pos rfl]
    cases hlookup : keys.lookup key with
    | none => rw [if_pos ⟨h, rfl⟩, lookup_setKey_self]; rfl
    | some r => rw [if_neg (by simp), hlookup]; rfl
  · rw [if_neg hkey, Option.or_none]
    split
    · exact lookup_setKey_other keys hkey role
    · rfl

theorem find?_concat_reverse {α : Type} (roles : List α) (last : α) (q : α → Bool) :
    (roles ++ [last]).reverse.find? q = if q last then some last else roles.reverse.find? q := by
  rw [List.reverse_concat, List.find?_cons]
  cases q last <;> rfl

theorem aclRoles_eq : aclRoles = sharedRoles ++ [.gateway] := rfl

theorem lookup_loadAgentKeys {key : Str} (h : key ≠ []) : (loadAgentKeys environ).lookup key =
    if key = submissionKey environ "gateway" then some .gateway
    else (holder environ key).or (secretRole environ key) := by
  have hlisted := lookup_loadRoles (fun role : Role => submissionKey environ role.name) aclRoles h
  rw [aclRoles_eq, find?_concat_reverse] at hlisted
  unfold loadAgentKeys
  rw [lookup_withFallback environ _ _ h, aclRoles_eq, hlisted]
  by_cases hgateway : key = submissionKey environ "gateway"
  · rw [if_pos hgateway, if_pos (by simp [Role.name, hgateway])]
    rfl
  · rw [if_neg hgateway, if_neg (by simp [Role.name, Ne.symm hgateway])]
    rfl

/-- The two tables behind the loop over the roles. -/
def listedKeys (roles : List String) : KeyCache :=
  ⟨loadRoles (submissionKey environ) roles, roles.foldl (fun table role =>
    if submissionKey environ role = [] then table
    else setKey table role (submissionKey environ role)) []⟩

theorem register_roles (roles : List String) : roles.foldl (fun cache role =>
      if submissionKey environ role = [] then cache
      else cache.register (submissionKey environ role) role) (⟨[], []⟩ : KeyCache) =
    listedKeys environ roles := by
  unfold listedKeys loadRoles
  induction roles using List.reverseRecOn with
  | nil => rfl
  | append_singleton roles role ih =>
    rw [List.foldl_concat, List.foldl_concat, List.foldl_concat, ih, loadRole]
    by_cases hrole : submissionKey environ role = []
    · rw [if_pos hrole, if_pos hrole, if_pos hrole]
    · rw [if_neg hrole, if_neg hrole, if_neg hrole]
      rfl

/-- A role has an entry where it is listed with a key. -/
theorem roleToKey_isNone (roles : List String) (role : String) :
    ((listedKeys environ roles).roleToKey.lookup role).isNone ↔
      (role ∈ roles → submissionKey environ role = []) := by
  unfold listedKeys
  induction roles using List.reverseRecOn with
  | nil => simp
  | append_singleton roles last ih =>
    rw [List.foldl_concat]
    by_cases hlast : role = last
    · subst hlast
      by_cases hkey : submissionKey environ role = []
      · rw [if_pos hkey, ih]
        simp [hkey]
      · rw [if_neg hkey, lookup_setKey_self]
        simp [hkey]
    · have hmem : role ∈ roles ++ [last] ↔ role ∈ roles := by simp [hlast]
      rw [hmem, ← ih]
      split
      · rfl
      · rw [lookup_setKey_other _ hlast]

theorem authRoles_eq : authRoles = sharedRoles.map Role.name ++ ["scribe"] := rfl

theorem find?_names (key : Str) : ((sharedRoles.map Role.name).reverse.find? fun role =>
    submissionKey environ role = key) = (holder environ key).map Role.name := by
  rw [← List.map_reverse, List.find?_map]
  rfl

theorem lookup_listedKeys {key : Str} (h : key ≠ []) :
    (listedKeys environ authRoles).keyToRole.lookup key =
      if submissionKey environ "scribe" = key then some "scribe"
      else (holder environ key).map Role.name := by
  have hlast := lookup_loadRoles (submissionKey environ) authRoles h
  rw [authRoles_eq, find?_concat_reverse, find?_names] at hlast
  simpa [listedKeys, authRoles_eq] using hlast

/-- The table behind the fallback of the scribe. -/
theorem lookup_scribe {key : Str} (h : key ≠ []) :
    (if environ "PROPOSAL_ROOM_API_KEY" ≠ [] ∧
        ((listedKeys environ authRoles).roleToKey.lookup "scribe").isNone then
        (listedKeys environ authRoles).register (environ "PROPOSAL_ROOM_API_KEY") "scribe"
      else listedKeys environ authRoles).keyToRole.lookup key =
    if key = scribeKey environ then some "scribe" else (holder environ key).map Role.name := by
  have hlisted := lookup_listedKeys environ h
  have hnone := (roleToKey_isNone environ authRoles "scribe").trans
    (imp_iff_right (show "scribe" ∈ authRoles by decide))
  unfold scribeKey
  by_cases hown : submissionKey environ "scribe" = []
  · have hempty : submissionKey environ "scribe" ≠ key := fun hkey => h (hkey.symm.trans hown)
    rw [if_neg hempty] at hlisted
    rw [if_pos hown]
    by_cases hfallback : environ "PROPOSAL_ROOM_API_KEY" = []
    · have hne : key ≠ environ "PROPOSAL_ROOM_API_KEY" := fun hkey => h (hkey.trans hfallback)
      rw [if_neg (fun hboth => hboth.1 hfallback), if_neg hne]
      exact hlisted
    · rw [if_pos ⟨hfallback, hnone.mpr hown⟩]
      change (setKey (listedKeys environ authRoles).keyToRole _ "scribe").lookup key = _
      by_cases hkey : key = environ "PROPOSAL_ROOM_API_KEY"
      · rw [if_pos hkey, hkey, lookup_setKey_self]
      · rw [if_neg hkey, lookup_setKey_other _ hkey, hlisted]
  · rw [if_neg hown, if_neg (fun hboth => hown (hnone.mp hboth.2)), hlisted]
    by_cases hkey : key = submissionKey environ "scribe"
    · rw [if_pos hkey, if_pos hkey.symm]
    · rw [if_neg hkey, if_neg (Ne.symm hkey)]

theorem keyToRole_ite (cache : KeyCache) (p : Prop) [Decidable p] (table : List (Str × String)) :
    (if p then { cache with keyToRole := table } else cache).keyToRole =
      if p then table else cache.keyToRole := by
  split <;> rfl

theorem getRoleForKey_eq {key : Str} (h : key ≠ []) : getRoleForKey environ key =
    if key = scribeKey environ then some "scribe"
    else ((holder environ key).or (secretRole environ key)).map Role.name := by
  unfold getRoleForKey loadKeyCache
  rw [register_roles, keyToRole_ite, lookup_withFallback environ _ _ h, lookup_scribe environ h]
  unfold secretRole
  by_cases hscribe : key = scribeKey environ
  · rw [if_pos hscribe, if_pos hscribe]
    rfl
  · rw [if_neg hscribe, if_neg hscribe]
    cases holder environ key with
    | some role => rfl
    | none => split <;> rfl

theorem holder_ne_gateway {key : Str} {role : Role} (h : holder environ key = some role) :
    role ≠ .gateway := by
  have hshared : ∀ role ∈ sharedRoles, role ≠ .gateway := by decide
  apply hshared role
  exact List.mem_reverse.mp (List.mem_of_find?_eq_some h)

theorem Role.name_eq_gateway {role : Role} (h : role.name = "gateway") : role = .gateway := by
  cases role <;> first | rfl | exact absurd h (by decide)

/-- Without a key of its own the gateway is found by the shared secret only. -/
theorem gateway_found_iff {key : Str} :
    ((holder environ key).or (secretRole environ key)).map Role.name = some "gateway" ↔
      holder environ key = none ∧ key = environ "GATEWAY_SECRET" := by
  unfold secretRole
  cases hholder : holder environ key with
  | some role =>
    have hname : role.name ≠ "gateway" := fun hname =>
      holder_ne_gateway environ hholder (Role.name_eq_gateway hname)
    simpa using hname
  | none =>
    by_cases hsecret : key = environ "GATEWAY_SECRET"
    · rw [if_pos hsecret]
      exact ⟨fun _ => ⟨rfl, hsecret⟩, fun _ => rfl⟩
    · rw [if_neg hsecret]
      exact ⟨fun hsame => (nomatch hsame), fun hown => absurd hown.2 hsecret⟩

theorem scribe_ne_role (role : Option Role) : some "scribe" ≠ role.map Role.name := by
  cases role with
  | none => simp
  | some role => cases role <;> decide

/-- The two tables name the same role for a key, except where it makes a scribe, and where it is
the gateway's own key. -/
theorem tables_agree_iff {key : Str} (h : key ≠ []) :
    getRoleForKey environ key = ((loadAgentKeys environ).lookup key).map Role.name ↔
      key ≠ scribeKey environ ∧ (key = submissionKey environ "gateway" →
        holder environ key = none ∧ key = environ "GATEWAY_SECRET") := by
  rw [getRoleForKey_eq environ h, lookup_loadAgentKeys environ h]
  by_cases hkey : key = scribeKey environ
  · rw [if_pos hkey]
    exact ⟨fun hsame => absurd hsame (scribe_ne_role _), fun hother => absurd hkey hother.1⟩
  · rw [if_neg hkey]
    by_cases hgateway : key = submissionKey environ "gateway"
    · rw [if_pos hgateway]
      apply (gateway_found_iff environ).trans
      exact ⟨fun hown => ⟨hkey, fun _ => hown⟩, fun hown => hown.2 hgateway⟩
    · rw [if_neg hgateway]
      exact ⟨fun _ => ⟨hkey, fun hown => absurd hown hgateway⟩, fun _ => rfl⟩

/-- The environment of the sample: every role has a key. -/
def sampleEnviron : Environ := fun name =>
  (([("RECORDER_SUBMISSION_KEY", "key-recorder"), ("TRIAGE_SUBMISSION_KEY", "key-triage"),
    ("DIAGNOSIS_SUBMISSION_KEY", "key-diagnosis"), ("SAFETY_REVIEWER_SUBMISSION_KEY", "key-safety"),
    ("COMMANDER_SUBMISSION_KEY", "key-commander"), ("OPERATOR_SUBMISSION_KEY", "key-operator"),
    ("GATEWAY_SUBMISSION_KEY", "key-gateway")] : List (String × String)).lookup name).elim [] js

/-- The table of the room routes has no key of the gateway's own. -/
theorem tables_agree_iff_example : getRoleForKey sampleEnviron (js "key-recorder") =
      ((loadAgentKeys sampleEnviron).lookup (js "key-recorder")).map Role.name ∧
    getRoleForKey sampleEnviron (js "key-gateway") ≠
      ((loadAgentKeys sampleEnviron).lookup (js "key-gateway")).map Role.name := by
  constructor
  · apply (tables_agree_iff sampleEnviron (by decide +kernel)).mpr
    decide +kernel
  · intro hagree
    have hown := (tables_agree_iff sampleEnviron (by decide +kernel)).mp hagree
    revert hown
    decide +kernel

end Agreement

section Authority
variable {env : Env} {environ : Environ} {log : List Action} {sys sys' : Sys env} {action : Action}
  {c : CardRow}

/-- What a key has to be for a role. -/
def HeldBy (environ : Environ) (key : Str) : Role → Prop
  | .gateway => key = submissionKey environ "gateway" ∨
      holder environ key = none ∧ key = environ "GATEWAY_SECRET"
  | role => key ≠ submissionKey environ "gateway" ∧ holder environ key = some role

theorem loadAgentKeys_nil : (loadAgentKeys environ).lookup [] = none := by
  have hlisted := loadRoles_lookup_nil (fun role : Role => submissionKey environ role.name) aclRoles
  unfold loadAgentKeys
  dsimp only
  split
  · rename_i hfallback
    rw [lookup_setKey_other _ (Ne.symm hfallback.1)]
    exact hlisted
  · exact hlisted

theorem heldBy_of_lookup {key : Str} {role : Role}
    (h : (loadAgentKeys environ).lookup key = some role) : key ≠ [] ∧ HeldBy environ key role := by
  have hkey : key ≠ [] := by
    rintro rfl
    rw [loadAgentKeys_nil] at h
    cases h
  refine ⟨hkey, ?_⟩
  rw [lookup_loadAgentKeys environ hkey] at h
  split at h
  · rename_i hgateway
    obtain rfl := Option.some.inj h
    exact .inl hgateway
  · rename_i hgateway
    cases hholder : holder environ key with
    | some other =>
      rw [hholder] at h
      obtain rfl : other = role := Option.some.inj h
      have hother := holder_ne_gateway environ hholder
      cases other with
      | gateway => exact absurd rfl hother
      | _ => exact ⟨hgateway, hholder⟩
    | none =>
      rw [hholder, Option.none_or, secretRole] at h
      split at h
      · rename_i hsecret
        obtain rfl := Option.some.inj h
        exact .inr ⟨hholder, hsecret⟩
      · cases h

/-- The log has a request that prepares a card of this type under a key of this role. -/
def PreparedIn (env : Env) (log : List Action) (cardType : Str) (role : Role) : Prop :=
  ∃ key idempotencyKey body draws t,
    .request (.prepare cardType key idempotencyKey body) draws ∈ log ∧
      env.agentKeys.lookup key = some role ∧ CardType.ofColumn cardType = some t ∧
        roleMaySubmit role t = true

theorem PreparedIn.later {cardType : Str} {role : Role} (h : PreparedIn env log cardType role)
    (action : Action) : PreparedIn env (log ++ [action]) cardType role := by
  obtain ⟨key, idempotencyKey, body, draws, t, hmem, hrest⟩ := h
  exact ⟨key, idempotencyKey, body, draws, t, List.mem_append_left _ hmem, hrest⟩

theorem CardType.column_of_ofColumn {text : Str} {t : CardType}
    (h : CardType.ofColumn text = some t) : t.column = text := by
  unfold CardType.ofColumn at h
  have hfound := List.find?_some h
  exact eq_of_beq hfound

/-- A card is left to be sealed under the key of the request that prepares it. -/
theorem StepTo.sealCard_key {awaited : SealRequest env.floats} (h : StepTo env sys action sys')
    (hmem : .sealCard awaited ∈ sys'.jobs) : .sealCard awaited ∈ sys.jobs ∨
      PreparedIn env [action] awaited.card.cardType.column awaited.preparedByRole := by
  cases h with
  | request request draws next db' fresh post =>
    rcases List.mem_append.mp hmem with hold | hnew
    · exact .inl hold
    · obtain ⟨cardType, key, idempotencyKey, body, rfl, -⟩ := start_originates post _ hnew
      obtain ⟨request, hjob, hkey, hsubmit, hprepared⟩ := post.2 _ hnew
      obtain rfl : awaited = request := by simpa using hjob
      obtain ⟨t, card, hknown, hvalidated, -, -, hfloored, -⟩ := hprepared
      have htype : awaited.card.cardType = t := by
        rw [applyRiskFloor_cardType env hfloored, env.validated _ _ _ hvalidated]
      rw [htype] at hsubmit ⊢
      right
      rw [CardType.column_of_ofColumn hknown]
      exact ⟨key, idempotencyKey, body, draws, t, List.mem_singleton_self _, hkey, hknown, hsubmit⟩
  | resume index draws job next db' fresh pending post =>
    rcases List.mem_append.mp hmem with hold | hnew
    · exact .inl (List.mem_of_mem_eraseIdx hold)
    · cases resume_awaits post _ hnew

/-- The cards that agents submit. -/
def CardRow.fromAgent (c : CardRow) : Prop :=
  c.cardType ≠ CardType.structuredApproval.column ∧ c.cardType ≠ CardType.policyAuthorization.column

/-- Every card of an agent, and every card that waits to be sealed, has its request in the log. -/
structure SubmissionLaw (log : List Action) (sys : Sys env) : Prop where
  rows : ∀ c ∈ sys.db.cards, c.fromAgent → ∃ role, c.preparedByRole = some role ∧
    PreparedIn env log c.cardType role
  jobs : ∀ awaited, .sealCard awaited ∈ sys.jobs →
    PreparedIn env log awaited.card.cardType.column awaited.preparedByRole

theorem SubmissionLaw.step (h : SubmissionLaw log sys) (hstep : StepTo env sys action sys') :
    SubmissionLaw (log ++ [action]) sys' := by
  constructor
  · intro c hc hagent
    rcases hstep.comesFrom c hc with ⟨d, hd, hsame⟩ | ⟨request, hjob, rfl⟩ | ⟨-, happroval⟩
    · have hagent' : d.fromAgent := by
        rw [CardRow.fromAgent, ← hsame.cardType]
        exact hagent
      obtain ⟨role, hrole, hprepared⟩ := h.rows d hd hagent'
      rw [hsame.preparedByRole, hsame.cardType]
      exact ⟨role, hrole, hprepared.later action⟩
    · have hmem : .sealCard request ∈ sys.jobs := (Action.mem_jobs (Option.mem_toList.mpr hjob)).2
      exact ⟨request.preparedByRole, rfl, (h.jobs request hmem).later action⟩
    · rcases happroval with htype | ⟨htype, -⟩
      · exact absurd htype hagent.1
      · exact absurd htype hagent.2
  · intro awaited hjob
    rcases hstep.sealCard_key hjob with hold | ⟨key, idempotencyKey, body, draws, t, hmem, hrest⟩
    · exact (h.jobs awaited hold).later action
    · exact ⟨key, idempotencyKey, body, draws, t, List.mem_append_right _ hmem, hrest⟩

theorem reachable_submissionLaw (h : Accepts (step env) (Sys.initial env) log sys) :
    SubmissionLaw log sys := by
  have hboth := h.history (P := fun log sys => sys.Idle ∧ SubmissionLaw log sys)
    ⟨rfl, fun _ hc => absurd hc List.not_mem_nil, fun _ hj => absurd hj List.not_mem_nil⟩
    fun l v a w hv hstep => by
      obtain ⟨hto, hidle⟩ := step_cases env hv.1 hstep
      exact ⟨hidle, hv.2.step hto⟩
  exact hboth.2

/-- The log has the request for this card, under a key of the role that the card names, and the role
may submit it. -/
def SubmittedUnder (environ : Environ) (log : List Action) (c : CardRow) : Prop :=
  ∃ key idempotencyKey body draws t role,
    .request (.prepare c.cardType key idempotencyKey body) draws ∈ log ∧ key ≠ [] ∧
      CardType.ofColumn c.cardType = some t ∧ c.preparedByRole = some role ∧
        roleMaySubmit role t = true ∧ HeldBy environ key role

/-- Whatever is sent, retried and interleaved: a card of an agent was asked for under the key that
the environment gives the role the card names, or under the gateway's. -/
theorem submitted_with_own_key (hkeys : env.agentKeys = loadAgentKeys environ)
    (h : Accepts (step env) (Sys.initial env) log sys) (hc : c ∈ sys.db.cards)
    (hagent : c.fromAgent) : SubmittedUnder environ log c := by
  obtain ⟨role, hrole, key, idempotencyKey, body, draws, t, hmem, hlookup, hknown, hsubmit⟩ :=
    (reachable_submissionLaw h).rows c hc hagent
  rw [hkeys] at hlookup
  obtain ⟨hkey, hheld⟩ := heldBy_of_lookup hlookup
  exact ⟨key, idempotencyKey, body, draws, t, role, hmem, hkey, hknown, hrole, hsubmit, hheld⟩

theorem sampleEnviron_keys : sampleEnv.agentKeys = loadAgentKeys sampleEnviron := by decide +kernel

/-- The card of the sentinel in the sample. -/
theorem submitted_with_own_key_example : ∃ c ∈ sampleSealed.1.db.cards,
    c.cardType = CardType.triageDecision.column ∧
      SubmittedUnder sampleEnviron sampleSealed.2 c := by
  have hsubmitted : ∀ {log : List Action} {sys : Sys sampleEnv},
      Accepts (step sampleEnv) (Sys.initial sampleEnv) log sys →
        (∃ c ∈ sys.db.cards, c.cardType = CardType.triageDecision.column) →
          ∃ c ∈ sys.db.cards, c.cardType = CardType.triageDecision.column ∧
            SubmittedUnder sampleEnviron log c := by
    rintro log sys hrun ⟨c, hc, htype⟩
    have hagent : c.fromAgent := by
      rw [CardRow.fromAgent, htype]
      decide +kernel
    exact ⟨c, hc, htype, submitted_with_own_key sampleEnviron_keys hrun hc hagent⟩
  exact hsubmitted (run_accepts _ _ _) (by decide +kernel)

end Authority
end Concordia.Gateway
