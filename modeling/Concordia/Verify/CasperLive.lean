import Concordia.Verify.Remote
import Concordia.Verify.Transcript

/-! The live corroboration of a proof bundle by public Casper RPC endpoints. In this module
`Thrown.remote` is a `CasperLiveError`. -/
namespace Concordia.Verify
open Concordia.Js Concordia.Lib.Session

section Observations
variable (web : Web)

structure ExpectedObservation where
  method : Value
  params : Value
  expectedResult : Value

abbrev Observations := List (JsString × ExpectedObservation)

def readOnlyMethods : List String :=
  ["info_get_deploy", "chain_get_block", "chain_get_state_root_hash", "query_global_state",
    "state_get_dictionary_item", "query_balance", "query_balance_details",
    "chain_get_block_transfers"]

def maxRpcObservations : Nat := 128

/-- `PAIRS`: the fields of a request and of its response. -/
def transcriptPairs : List (String × String) := [
  ("request", "response"), ("transaction_request", "transaction_response"),
  ("canonical_block_request", "canonical_block_response"), ("block_request", "block_response"),
  ("block_request", "block"), ("balance_request", "balance_response"),
  ("transfers_request", "transfers_response"), ("state_root_request", "state_root_response")]

def liveError (status : ResultStatus) (code message : String) : Thrown :=
  .remote status code (js message)

def methodText (method : Value) : JsString :=
  match method with
  | .string name => name
  | other => web.stringOf other

def unwrapResult (value : Value) : Value :=
  match value with
  | .object fields =>
    if fields.length = 2 && hasOwn fields "name" && hasOwn fields "value" then prop fields "value"
    else value
  | _ => value

/-- The fields of a result that are compared. -/
def pick (fields : Fields) (names : List String) : Value :=
  .object (names.map fun name => (js name, prop fields name))

def normalizeRpcResult (method raw : Value) : Except Thrown Value :=
  match unwrapResult raw with
  | .object value =>
    if isLiteral method "info_get_deploy" then .ok (pick value ["deploy", "execution_info"])
    else if isLiteral method "chain_get_block" then
      match prop value "block_with_signatures" with
      | .object wrapper =>
        if hasOwn wrapper "block" then .ok (pick wrapper ["block"])
        else .error (liveError .invalid "malformed_live_rpc_result"
          "chain_get_block result lacks a block")
      | _ => .error (liveError .invalid "malformed_live_rpc_result"
          "chain_get_block result lacks a block")
    else if isLiteral method "chain_get_state_root_hash" then .ok (pick value ["state_root_hash"])
    else if isLiteral method "query_global_state" || isLiteral method "state_get_dictionary_item" then
      .ok (pick value ["stored_value"])
    else if isLiteral method "query_balance_details" then
      .ok (pick value ["total_balance", "available_balance"])
    else if isLiteral method "query_balance" then .ok (pick value ["balance"])
    else if isLiteral method "chain_get_block_transfers" then
      .ok (pick value ["block_hash", "transfers"])
    else .error (.remote .invalid "unsupported_live_rpc_method"
      (js "unsupported live RPC method " ++ methodText web method))
  | _ => .error (.remote .invalid "malformed_live_rpc_result"
      (methodText web method ++ js " result must be an object"))

def canonicalText (value : Value) (label : String) : Except Thrown JsString :=
  (Transcript.canonicalTranscriptJson value label).mapError fun message => .error (js message)

def canonicalResult (value : Value) : Except Thrown JsString := canonicalText value "live RPC result"

/-- `observations.set(key, observation)`. -/
def setObservation (observations : Observations) (key : JsString)
    (observation : ExpectedObservation) : Observations :=
  if observations.any fun entry => entry.1 == key then
    observations.map fun entry => if entry.1 == key then (key, observation) else entry
  else observations ++ [(key, observation)]

/-- An observation that is there already must have the same result. -/
def agreeOrSet (observations : Observations) (key : JsString) (observation : ExpectedObservation)
    (disagreement : Except Thrown JsString) : Except Thrown Observations :=
  match observations.lookup key with
  | none => .ok (setObservation observations key observation)
  | some existing => do
    let before ← canonicalResult existing.expectedResult
    let now ← canonicalResult observation.expectedResult
    if before = now then return setObservation observations key observation
    else .error (.remote .invalid "embedded_rpc_disagreement" (← disagreement))

/-- One pair of fields of a record. -/
def collectPair (fields : Fields) (pair : String × String) (observations : Observations) :
    Except Thrown Observations :=
  match (fields.lookup (js pair.1)), (fields.lookup (js pair.2)) with
  | some (.object request), some (.object response) =>
    let method := prop request "method"
    if !includes readOnlyMethods (methodText web method) then .ok observations
    else
      match isLiteral (prop request "jsonrpc") "2.0", prop request "params" with
      | true, .object params =>
        if !isLiteral (prop response "jsonrpc") "2.0" ||
            !strictEq (prop response "id") (prop request "id") || !hasOwn response "result" then
          .error (liveError .invalid "invalid_embedded_rpc_response"
            "embedded read-only RPC response is malformed")
        else do
          let expectedResult ← normalizeRpcResult web method (prop response "result")
          let key ← canonicalText (.object [(js "method", method), (js "params", .object params)])
            "live RPC request identity"
          agreeOrSet observations key ⟨method, .object params, expectedResult⟩ do
            let paramsText ← canonicalText (.object params) "embedded RPC params"
            return js "embedded evidence disagrees for " ++ methodText web method ++ js " " ++ paramsText
      | _, _ => .error (liveError .invalid "invalid_embedded_rpc_request"
          "embedded read-only RPC request is malformed")
  | _, _ => .ok observations

def collectPairs (fields : Fields) : List (String × String) → Observations →
    Except Thrown Observations
  | [], observations => .ok observations
  | pair :: pairs, observations => do
    let observations ← collectPair web fields pair observations
    collectPairs fields pairs observations

mutual

/-- A parsed artifact is a tree: no object is seen twice. -/
def collectTranscriptPairs : Value → Observations → Except Thrown Observations
  | .array elements, observations => collectElements elements observations
  | .object fields, observations => do
    let observations ← collectPairs web fields transcriptPairs observations
    collectMembers fields observations
  | _, observations => .ok observations

def collectElements : List Value → Observations → Except Thrown Observations
  | [], observations => .ok observations
  | value :: values, observations => do
    let observations ← collectTranscriptPairs value observations
    collectElements values observations

def collectMembers : List (JsString × Value) → Observations → Except Thrown Observations
  | [], observations => .ok observations
  | (_, value) :: fields, observations => do
    let observations ← collectTranscriptPairs value observations
    collectMembers fields observations

end

def hasMethod (observations : List ExpectedObservation) (name : String) : Bool :=
  observations.any fun observation => isLiteral observation.method name

def countMethod (observations : List ExpectedObservation) (name : String) : Nat :=
  observations.countP fun observation => isLiteral observation.method name

def requireObservationKinds (observations : List ExpectedObservation) : Except Thrown Unit :=
  if !hasMethod observations "info_get_deploy" || !hasMethod observations "chain_get_block" then
    .error (liveError .invalid "incomplete_live_observation_set"
      "live bundle lacks deploy/finality or block observations")
  else if !(["query_global_state", "state_get_dictionary_item", "query_balance",
      "query_balance_details"].any (hasMethod observations)) then
    .error (liveError .invalid "incomplete_live_observation_set"
      "live bundle lacks state observations")
  else .ok ()

def requireProofObservationKinds (proofType : Value) (observations : List ExpectedObservation) :
    Except Thrown Unit :=
  if isLiteral proofType "historical_odra_receipt_v2" then
    if observations.length = 5 ∧ countMethod observations "info_get_deploy" = 1 ∧
        countMethod observations "chain_get_block" = 1 ∧
        countMethod observations "chain_get_state_root_hash" = 1 ∧
        countMethod observations "query_global_state" = 2 then .ok ()
    else .error (liveError .invalid "incomplete_historical_live_observation_set"
      "historical live evidence requires exactly deploy, block, state-root, package, and contract observations")
  else requireObservationKinds observations

/-- `for (const [key, observation] of itemObservations)`. -/
def mergeObservations : Observations → Observations → Except Thrown Observations
  | [], byRequest => .ok byRequest
  | (key, observation) :: rest, byRequest => do
    let byRequest ← agreeOrSet byRequest key observation
      (.ok (js "embedded evidence disagrees for " ++ methodText web observation.method))
    mergeObservations rest byRequest

/-- The text of an artifact that may hold observations. -/
def observedArtifact (artifacts : List (JsString × Artifact)) (item : Value) :
    Option (Value × JsString) :=
  match item with
  | .object fields =>
    let proofType := prop fields "proof_type"
    if isLiteral proofType "exact_envelope_v3" || isLiteral proofType "historical_odra_receipt_v2" ||
        isLiteral proofType "native_treasury_execution_v1" then
      ((asStringOrNull (prop fields "artifact_path")).bind fun path => artifacts.lookup path).map
        fun
        | .text content => (proofType, content)
        | .bytes content => (proofType, web.utf8Decode content)
    else none
  | _ => none

def collectItems (artifacts : List (JsString × Artifact)) :
    List Value → Observations → Except Thrown Observations
  | [], byRequest => .ok byRequest
  | item :: items, byRequest =>
    match observedArtifact web artifacts item with
    | none => collectItems artifacts items byRequest
    | some (proofType, text) => do
      let artifact ← (parseJsonStrict text).mapError .strictJson
      let itemObservations ← collectTranscriptPairs web artifact []
      requireProofObservationKinds proofType (itemObservations.map Prod.snd)
      let byRequest ← mergeObservations web itemObservations byRequest
      collectItems artifacts items byRequest

def collectBundleObservations (registry : Value) (artifacts : List (JsString × Artifact)) :
    Except Thrown (List ExpectedObservation) :=
  match registry with
  | .object fields => match prop fields "items" with
    | .array items => do
      let byRequest ← collectItems web artifacts items []
      let observations := byRequest.map Prod.snd
      if observations.length > maxRpcObservations then
        .error (liveError .invalid "too_many_live_observations"
          "live bundle exceeds the 128-observation limit")
      else return observations
    | _ => .ok []
  | _ => .ok []

end Observations
section Endpoints
variable (web : Web)

abbrev CasperRpcTransport := Nat → RemoteUrl → JsString → JsString → Except Rejection Response

structure CasperLiveOptions where
  rpcEndpoints : List JsString
  dnsLookup : Option (Nat → JsString → Except Rejection Value) := none
  transport : Option CasperRpcTransport := none
  timeoutMs : ℚ := 10000
  overallTimeoutMs : ℚ := 60000
  maxResponseBytes : ℚ := 8 * 1024 * 1024
  now : Option JsString := none

structure CasperLiveCorroboration where
  observationSources : List JsString
  observedAt : JsString
  rpcObservationCount : Nat

def unsafeLiveHost : Thrown :=
  liveError .invalid "unsafe_live_rpc_host" "trusted RPC endpoint is not publicly routable"

/-- The filter of this module normalizes once more. -/
def assertPublicEndpoint (rawAddress : JsString) : Except Thrown Unit :=
  if isPublicAddress (normalizeHostname web rawAddress) then .ok () else .error unsafeLiveHost

def requirePublicHttpsEndpoint (value : JsString) : Except Thrown RemoteUrl :=
  match web.parseRemoteUrl value with
  | none => .error (liveError .invalid "invalid_live_rpc_url" "trusted RPC endpoint is not a URL")
  | some endpoint =>
    if endpoint.protocol ≠ js "https:" ∨ endpoint.username ≠ [] ∨ endpoint.password ≠ [] ∨
        endpoint.hash ≠ [] ∨ endpoint.search ≠ [] then
      .error (liveError .invalid "invalid_live_rpc_url"
        "trusted RPC endpoints require credential-free HTTPS without query or fragment")
    else
      let hostname := normalizeHostname web endpoint.hostname
      if isLocalName hostname then .error unsafeLiveHost
      else if isIP hostname ≠ 0 then do
        assertPublicEndpoint web hostname
        return endpoint
      else .ok endpoint

def requireEndpoints : List JsString → Except Thrown (List RemoteUrl)
  | [] => .ok []
  | value :: values => do
    let endpoint ← requirePublicHttpsEndpoint web value
    let endpoints ← requireEndpoints values
    return endpoint :: endpoints

def validateEndpoints (values : List JsString) : Except Thrown (List RemoteUrl) :=
  if values.length < 2 ∨ 4 < values.length then
    .error (liveError .invalid "live_rpc_endpoint_count"
      "live mode requires two to four trusted RPC endpoints")
  else do
    let endpoints ← requireEndpoints web values
    if ¬ (endpoints.map fun endpoint => endpoint.origin).Nodup then
      .error (liveError .invalid "duplicate_live_rpc_origin"
        "trusted RPC endpoint origins must be distinct")
    else if ¬ (endpoints.map fun endpoint => normalizeHostname web endpoint.hostname).Nodup then
      .error (liveError .invalid "nonindependent_live_rpc_hosts"
        "trusted RPC endpoints must use distinct DNS hostnames")
    else return endpoints

/-- `Date.now()`. -/
def askTime : Net Int := fun s => (.ok (web.dateNow s.step), ⟨s.step + 1, s.log⟩)

def liveTimeout : Thrown :=
  liveError .unavailable "live_rpc_timeout" "live RPC overall deadline exceeded"

/-- `catch (error)` around the look-up: the deadline has its own error. -/
def lookupFailure {α : Type} : Thrown → Net α
  | .rejected .timedOut => Program.raise liveTimeout
  | .rejected _ => Program.raise
      (liveError .unavailable "live_rpc_dns_failed" "trusted RPC DNS lookup failed")
  | thrown => Program.raise thrown

/-- The loop over the answer: every element passes the filter. -/
def assertPublicAnswer : List Value → Except Thrown (List JsString)
  | [] => .ok []
  | .string address :: rest => do
    assertPublicEndpoint web (normalizeHostname web address)
    let addresses ← assertPublicAnswer rest
    return address :: addresses
  | _ :: _ => .error (.error (js "hostname.startsWith is not a function"))

def pinnedAnswer (answer : Value) : Except Thrown JsString :=
  match answer with
  | .array (address :: rest) => do
    let addresses ← assertPublicAnswer web (address :: rest)
    return normalizeHostname web (addresses.headD [])
  | _ => .error (liveError .unavailable "live_rpc_dns_failed"
      "trusted RPC DNS lookup returned no addresses")

def resolvePublicEndpoint (dnsLookup : Nat → JsString → Except Rejection Value) (deadline : Int)
    (endpoint : RemoteUrl) : Net JsString := do
  let time ← askTime web
  if deadline ≤ time then Program.raise liveTimeout
  else
    let hostname := normalizeHostname web endpoint.hostname
    if isIP hostname ≠ 0 then pure hostname
    else do
      let answer ← (lookup dnsLookup hostname).attempt lookupFailure
      Program.lift (pinnedAnswer web answer)

end Endpoints

section Queries
variable (web : Web)

def pinnedHttpsPost (endpoint : RemoteUrl) (body address : JsString) : Net Response :=
  if isIP address ≠ 4 ∧ isIP address ≠ 6 then
    Program.raise (.error (js "invalid pinned address"))
  else do
    let incoming ← connect web body endpoint address
    Program.lift (newResponse incoming (incoming.statusCode ≠ 204))

def sendRpc (transport : Option CasperRpcTransport) (endpoint : RemoteUrl) (body address : JsString) :
    Net Response :=
  match transport with
  | none => pinnedHttpsPost web endpoint body address
  | some transport => fun s =>
    ((transport s.step endpoint body address).mapError .rejected, ⟨s.step + 1, s.log⟩)

def responseTooLarge : Thrown :=
  liveError .invalid "live_rpc_response_too_large" "trusted RPC response exceeds its size limit"

/-- `readBoundedBody` of this module. -/
def readRpcBody (response : Response) (maximumBytes : Nat) : Except Thrown (List UInt8) :=
  if response.contentLength.any fun declared =>
      !isCanonicalDecimal declared || maximumBytes < digitsValue declared then
    .error responseTooLarge
  else
    match readBody responseTooLarge maximumBytes response.body with
    | .ok bytes => .ok bytes
    | .error (.rejected _) => .error
        (liveError .unavailable "live_rpc_read_failed" "trusted RPC response could not be read")
    | .error thrown => .error thrown

def rpcUrlChanged (response : Response) (requested : RemoteUrl) : Bool :=
  if response.url.isEmpty then false
  else match web.parseRemoteUrl response.url with
    | some actual => actual.href != requested.href
    | none => true

def isRpcRedirect (response : Response) (endpoint : RemoteUrl) : Bool :=
  response.redirected || (300 ≤ response.status && response.status < 400) ||
    rpcUrlChanged web response endpoint

/-- The body of an accepted response. -/
def acceptRpc (response : Response) (endpoint : RemoteUrl) (maximumBytes : Nat) :
    Except Thrown (List UInt8) :=
  if isRpcRedirect web response endpoint then
    .error (liveError .invalid "live_rpc_redirect_rejected" "trusted RPC redirects are not allowed")
  else if !response.ok then
    .error (.remote .unavailable "live_rpc_http_error"
      (js "trusted RPC returned HTTP " ++ decimal response.status))
  else readRpcBody response maximumBytes

/-- What a query makes of the bytes it received. -/
def readRpcResult (method : Value) (id : JsString) (statusQuery : Bool) (bytes : List UInt8) :
    Except Thrown Value :=
  match parseJsonStrict (web.utf8Decode bytes) with
  | .error _ => .error (liveError .invalid "malformed_live_rpc_json"
      "trusted RPC returned malformed or duplicate-key JSON")
  | .ok (.object parsed) =>
    if !isLiteral (prop parsed "jsonrpc") "2.0" || !strictEq (prop parsed "id") (.string id) ||
        !hasOwn parsed "result" || hasOwn parsed "error" then
      .error (liveError .invalid "malformed_live_rpc_envelope"
        "trusted RPC returned an invalid JSON-RPC envelope")
    else
      let result := unwrapResult (prop parsed "result")
      if statusQuery then
        match result with
        | .object fields =>
          if isLiteral (prop fields "chainspec_name") "casper-test" then .ok result
          else .error (liveError .invalid "unsupported_live_network"
            "trusted RPC is not serving casper-test")
        | _ => .error (liveError .invalid "unsupported_live_network"
            "trusted RPC is not serving casper-test")
      else normalizeRpcResult web method result
  | .ok _ => .error (liveError .invalid "malformed_live_rpc_envelope"
      "trusted RPC returned an invalid JSON-RPC envelope")

structure RpcQuery where
  method : Value
  params : Value
  id : JsString
  statusQuery : Bool

def queryRpc (transport : Option CasperRpcTransport) (maximumBytes : Nat) (deadline : Int)
    (query : RpcQuery) (endpoint : RemoteUrl × JsString) : Net Value := do
  let time ← askTime web
  if deadline ≤ time then Program.raise liveTimeout
  else do
    let body ← Program.lift ((web.jsonStringify (.object [(js "jsonrpc", .string (js "2.0")),
      (js "id", .string query.id), (js "method", query.method), (js "params", query.params)])).mapError
        .rejected)
    let response ← (sendRpc web transport endpoint.1 body endpoint.2).attempt fun _ =>
      Program.raise (liveError .unavailable "live_rpc_fetch_failed"
        "trusted RPC request failed or timed out")
    let bytes ← Program.lift (acceptRpc web response endpoint.1 maximumBytes)
    Program.lift (readRpcResult web query.method query.id query.statusQuery bytes)

def statusQueries (transport : Option CasperRpcTransport) (maximumBytes : Nat) (deadline : Int)
    (resolved : List (RemoteUrl × JsString)) : List (Net Value) :=
  resolved.zipIdx.map fun (endpoint, index) =>
    queryRpc web transport maximumBytes deadline
      ⟨.string (js "info_get_status"), .object [], js "concordia-live-status-" ++ decimal index, true⟩
      endpoint

def observationQueries (transport : Option CasperRpcTransport) (maximumBytes : Nat) (deadline : Int)
    (resolved : List (RemoteUrl × JsString)) (expected : ExpectedObservation) (index : Nat) :
    List (Net Value) :=
  resolved.zipIdx.map fun (endpoint, endpointIndex) =>
    queryRpc web transport maximumBytes deadline
      ⟨expected.method, expected.params,
        js "concordia-live-" ++ decimal index ++ js "-" ++ decimal endpointIndex, false⟩
      endpoint

/-- The endpoints agree with each other and with the transcript of the artifact. -/
def compareResults (expected : ExpectedObservation) (results : List Value) : Except Thrown Unit :=
  match results with
  | [] => .error (liveError .unavailable "live_rpc_missing" "live RPC returned no observations")
  | first :: rest => do
    let firstCanonical ← canonicalResult first
    let others ← rest.mapM canonicalResult
    if others.any (· != firstCanonical) then
      .error (.remote .invalid "live_rpc_disagreement"
        (js "trusted RPC endpoints disagree for " ++ methodText web expected.method))
    else do
      let expectedCanonical ← canonicalResult expected.expectedResult
      if firstCanonical ≠ expectedCanonical then
        .error (.remote .invalid "live_rpc_artifact_mismatch"
          (js "live " ++ methodText web expected.method ++
            js " result differs from the artifact transcript"))
      else return ()

/-- The loop over the observations: the number of results that agreed. -/
def queryObservations (transport : Option CasperRpcTransport) (maximumBytes : Nat) (deadline : Int)
    (resolved : List (RemoteUrl × JsString)) :
    List (ExpectedObservation × Nat) → Nat → Net Nat
  | [], count => pure count
  | (expected, index) :: observations, count => do
    let results ← Program.all
      (observationQueries web transport maximumBytes deadline resolved expected index)
    Program.lift (compareResults web expected results)
    queryObservations transport maximumBytes deadline resolved observations (count + results.length)

end Queries

section Corroboration
variable (web : Web)

def isLimit (value : ℚ) (maximum : Nat) : Bool :=
  (safeInteger value).any fun n : Int => 0 < n && n ≤ maximum

/-- The checks of the options, in their order. -/
def checkOptions (options : CasperLiveOptions) : Except Thrown Unit :=
  if options.transport.isSome && options.dnsLookup.isNone then
    .error (liveError .invalid "live_dns_policy_required"
      "a custom live RPC transport requires an explicit DNS resolver")
  else if !isLimit options.timeoutMs 60000 then
    .error (liveError .invalid "invalid_live_timeout" "live RPC timeout is invalid")
  else if !isLimit options.maxResponseBytes (64 * 1024 * 1024) then
    .error (liveError .invalid "invalid_live_size_limit" "live RPC response limit is invalid")
  else if !isLimit options.overallTimeoutMs (5 * 60000) then
    .error (liveError .invalid "invalid_live_deadline" "live RPC overall deadline is invalid")
  else .ok ()

/-- From the resolved endpoints on. -/
def queryEndpoints (options : CasperLiveOptions) (deadline : Int)
    (observations : List ExpectedObservation) (resolved : List (RemoteUrl × JsString)) :
    Net Nat := do
  let maximumBytes := options.maxResponseBytes.num.toNat
  if ¬ (resolved.map Prod.snd).Nodup then
    Program.raise (liveError .invalid "nonindependent_live_rpc_addresses"
      "trusted RPC endpoints must resolve to distinct pinned addresses")
  else do
    let _ ← Program.all (statusQueries web options.transport maximumBytes deadline resolved)
    queryObservations web options.transport maximumBytes deadline resolved observations.zipIdx 0

def corroborateCasperBundleObservations (registry : Value) (artifacts : List (JsString × Artifact))
    (options : CasperLiveOptions) : Net CasperLiveCorroboration := do
  let endpoints ← Program.lift (validateEndpoints web options.rpcEndpoints)
  let observations ← Program.lift (collectBundleObservations web registry artifacts)
  if observations.isEmpty then
    Program.raise (liveError .unavailable "no_live_chain_observations"
      "verified bundle has no supported exact-v3 or native-treasury chain observations")
  else do
    Program.lift (requireObservationKinds observations)
    Program.lift (checkOptions options)
    let time ← askTime web
    let deadline := time + options.overallTimeoutMs.num
    let dnsLookup := options.dnsLookup.getD web.systemDnsLookup
    let addresses ← Program.all
      (endpoints.map (resolvePublicEndpoint web dnsLookup deadline))
    let count ← queryEndpoints web options deadline observations (endpoints.zip addresses)
    return {
      observationSources := endpoints.map fun endpoint => endpoint.href
      observedAt := options.now.getD web.clock
      rpcObservationCount := count }

def corroborateCasperTestnetBundle (registry : Value) (artifacts : List (JsString × Artifact))
    (options : CasperLiveOptions) : Net CasperLiveCorroboration := do
  let observedAt := options.now.getD web.clock
  let offline ← Program.lift ((verifyProofRegistry web.toRuntime registry artifacts
    (some observedAt)).mapError fun | .typeError message => Thrown.error (js message))
  if offline.status ≠ .verified then
    Program.raise (.remote (if offline.status = .invalid then .invalid else .unavailable)
      "offline_bundle_not_verified"
      (js "live corroboration requires a verified offline bundle; observed " ++
        js (match offline.status with
          | .verified => "verified"
          | .invalid => "invalid"
          | .unavailable => "unavailable"
          | .unknown => "unknown")))
  else corroborateCasperBundleObservations web registry artifacts options

end Corroboration
end Concordia.Verify
