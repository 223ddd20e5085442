import Concordia.Verify.Remote

/-! The results of the modes, and `verifyUrl`. -/
namespace Concordia.Verify
open Concordia.Js Concordia.Lib.Session

section Modes

inductive VerificationMode where
  | local | url | proposal | live
  deriving DecidableEq, Repr

structure ModeResult extends RegistryVerificationResult where
  mode : VerificationMode

def withMode (result : RegistryVerificationResult) (mode : VerificationMode) : ModeResult :=
  { result with mode := mode }

def modeFailure (mode : VerificationMode) (status : ResultStatus) (code : String)
    (message : JsString) : ModeResult where
  status := status
  valid := false
  exitCode := match status with
    | .invalid => 2
    | .unavailable => 3
    | _ => 4
  proposalId := none
  verificationScope := .none
  summary := ⟨0, 0, 0, 0, 0⟩
  items := []
  error := some (code, message)
  mode := mode

/-- `error.code` of a `StrictJsonError`. -/
def strictJsonCode : StrictJsonError → String
  | .duplicateJsonKey _ => "duplicate_json_key"
  | .invalidJson _ _ => "invalid_json"

def maxRegistryBytes : Nat := 8 * 1024 * 1024
def maxArtifactBytes : Nat := 64 * 1024 * 1024
def maxRegistryItems : Nat := 128
def maxUniqueArtifacts : Nat := 128
def maxTotalArtifactBytes : Nat := 128 * 1024 * 1024

/-- The items of a registry, where it has any. -/
def registryItems (registry : Value) : Option (List Value) :=
  match registry with
  | .object fields => match prop fields "items" with
    | .array items => some items
    | _ => none
  | _ => none

/-- `raw.artifact_path` of a record, when it is a string. -/
def artifactPath (raw : Value) : Option JsString :=
  match raw with
  | .object item => asStringOrNull (prop item "artifact_path")
  | _ => none

/-- `set.add`, where a set keeps the order of the insertions. -/
def addPath (paths : List JsString) (path : JsString) : List JsString :=
  if paths.contains path then paths else paths ++ [path]

/-- The artifact paths of the items, each once, behind those that are there. -/
def uniquePaths (items : List Value) (paths : List JsString) : List JsString :=
  (items.filterMap artifactPath).foldl addPath paths

/-- `validateRegistryResourceBounds` of both modes: the code and the message of the error. -/
def validateRegistryResourceBounds (registry : Value) : Except (String × String) Unit :=
  match registryItems registry with
  | none => .ok ()
  | some items =>
    if (uniquePaths items []).length > maxUniqueArtifacts then
      .error ("artifact_count_exceeded", "proof registry references more than 128 unique artifacts")
    else if items.length > maxRegistryItems then
      .error ("too_many_items", "proof registry contains more than 128 items")
    else .ok ()

/-- `options.now ? { now } : {}`. -/
def pinnedTime (now : Option JsString) : Option JsString := now.filter fun now => !now.isEmpty

end Modes

section Fetching
variable (web : Web)

abbrev FetchLike := Nat → RemoteUrl → Except Rejection Response
abbrev DnsLookupLike := Nat → JsString → Except Rejection Value

structure RemoteResource where
  status : Nat
  ok : Bool
  bytes : Option (List UInt8)

/-- `catch (error)`: a `RemoteModeError` is thrown on, everything else becomes one. -/
def rethrow {α : Type} (kind : ResourceKind) (code late : String) : Thrown → Net α
  | .rejected .timedOut => Program.raise
      (.remote .unavailable s!"{kind.name}_{code}" (js kind.name ++ js " " ++ js late))
  | .rejected reason => Program.raise
      (.remote .unavailable s!"{kind.name}_{code}" (safeErrorMessage reason))
  | thrown => Program.raise thrown

def customFetch (fetch : FetchLike) (url : RemoteUrl) : Net Response := fun s =>
  ((fetch s.step url).mapError .rejected, ⟨s.step + 1, s.log⟩)

/-- The first `try` block of `fetchBoundedResource`. -/
def resolveHost (fetchImpl : Option FetchLike) (dnsLookup : Option DnsLookupLike)
    (url : RemoteUrl) : Net (List JsString) := do
  let addresses ← ensureSafeResolvedHost web dnsLookup url
  if fetchImpl.isNone && addresses.isEmpty then
    Program.raise (.error (js "DNS lookup returned no addresses"))
  else pure addresses

/-- The second `try` block. -/
def request (fetchImpl : Option FetchLike) (url : RemoteUrl) (addresses : List JsString) :
    Net Response :=
  match fetchImpl with
  | none => pinnedHttpsGet web url (addresses.headD [])
  | some fetch => customFetch fetch url

def isRedirectStatus (status : Nat) : Bool := 300 ≤ status && status < 400

def responseUrlChanged (response : Response) (requested : RemoteUrl) : Bool :=
  if response.url.isEmpty then false
  else match web.parseRemoteUrl response.url with
    | some actual => actual.bareHref != requested.bareHref
    | none => true

def isRedirect (response : Response) (url : RemoteUrl) : Bool :=
  response.redirected || isRedirectStatus response.status || responseUrlChanged web response url

/-- What `fetchBoundedResource` makes of the response. -/
def acceptResponse (response : Response) (url : RemoteUrl) (kind : ResourceKind)
    (maximumBytes : Nat) : Net RemoteResource :=
  if isRedirect web response url then
    Program.raise (.remote .unavailable s!"{kind.name}_redirect_rejected"
      (js kind.name ++ js " redirects are not allowed"))
  else if !response.ok then pure { status := response.status, ok := false, bytes := none }
  else do
    let bytes ← (Program.lift (readBoundedBody response maximumBytes kind)).attempt
      (rethrow kind "read_failed" "response timed out")
    return { status := response.status, ok := true, bytes := some bytes }

def fetchBoundedResource (fetchImpl : Option FetchLike) (url : RemoteUrl) (kind : ResourceKind)
    (maximumBytes : Nat) (dnsLookup : Option DnsLookupLike) : Net RemoteResource := do
  let addresses ← (resolveHost web fetchImpl dnsLookup url).attempt
    (rethrow kind "dns_failed" "DNS lookup timed out")
  let response ← (request web fetchImpl url addresses).attempt
    (rethrow kind "fetch_failed" "request timed out")
  acceptResponse web response url kind maximumBytes

/-- `Map.set`: an entry that is there keeps its place. -/
def setUrl (urls : List (JsString × RemoteUrl)) (path : JsString) (url : RemoteUrl) :
    List (JsString × RemoteUrl) :=
  if urls.any fun entry => entry.1 == path then
    urls.map fun entry => if entry.1 == path then (path, url) else entry
  else urls ++ [(path, url)]

/-- The address of a link that `fetchArtifacts` follows. -/
def artifactHref (link : Value) : Option JsString :=
  match link with
  | .object link =>
    if isLiteral (prop link "kind") "artifact" || isLiteral (prop link "kind") "download" then
      asStringOrNull (prop link "href")
    else none
  | _ => none

/-- One followed link of an item. -/
def collectLink (registryUrl : RemoteUrl) (path href : JsString)
    (urls : List (JsString × RemoteUrl)) : Except Thrown (List (JsString × RemoteUrl)) :=
  match requireHttpsUrl web href with
  | .error (.remote status code message) => .error (.remote status code message)
  | .error _ => .error (.remote .invalid "invalid_artifact_url"
      (js "artifact URL is invalid for " ++ path))
  | .ok url =>
    if url.origin ≠ registryUrl.origin then
      .error (.remote .invalid "artifact_origin_mismatch"
        (js "artifact URL must use the proof registry origin: " ++ path))
    else if (urls.lookup path).any fun previous => previous.href != url.href then
      .error (.remote .invalid "artifact_link_conflict"
        (js "artifact path has conflicting URLs: " ++ path))
    else .ok (setUrl urls path url)

def collectLinks (registryUrl : RemoteUrl) (path : JsString) :
    List JsString → List (JsString × RemoteUrl) → Except Thrown (List (JsString × RemoteUrl))
  | [], urls => .ok urls
  | href :: hrefs, urls => do
    let urls ← collectLink web registryUrl path href urls
    collectLinks registryUrl path hrefs urls

/-- The followed links of an item that has an artifact path and a list of links. -/
def itemLinks (raw : Value) : Option (JsString × List JsString) :=
  match raw with
  | .object item => match prop item "artifact_path", prop item "links" with
    | .string path, .array links => some (path, links.filterMap artifactHref)
    | _, _ => none
  | _ => none

/-- The first loop of `fetchArtifacts`. -/
def collectUrls (registryUrl : RemoteUrl) :
    List Value → List (JsString × RemoteUrl) → Except Thrown (List (JsString × RemoteUrl))
  | [], urls => .ok urls
  | raw :: items, urls =>
    match itemLinks raw with
    | none => collectUrls registryUrl items urls
    | some (path, hrefs) => do
      let urls ← collectLinks web registryUrl path hrefs urls
      collectUrls registryUrl items urls

/-- The second loop of `fetchArtifacts`. -/
def fetchUrls (fetchImpl : Option FetchLike) (dnsLookup : Option DnsLookupLike) :
    List (JsString × RemoteUrl) → Nat → List (JsString × Artifact) →
    Net (List (JsString × Artifact))
  | [], _, artifacts => pure artifacts
  | (path, url) :: urls, aggregateBytes, artifacts =>
    fetchBoundedResource web fetchImpl url .artifact maxArtifactBytes dnsLookup >>= fun response =>
      match response.ok, response.bytes with
      | true, some bytes =>
        if bytes.length > maxTotalArtifactBytes - aggregateBytes then
          Program.raise (.remote .invalid "artifact_aggregate_too_large"
            (js "aggregate artifact bytes exceed 128 MiB"))
        else fetchUrls fetchImpl dnsLookup urls (aggregateBytes + bytes.length)
          (artifacts ++ [(path, .bytes bytes)])
      | _, _ => fetchUrls fetchImpl dnsLookup urls aggregateBytes artifacts

def fetchArtifacts (registry : Value) (registryUrl : RemoteUrl) (fetchImpl : Option FetchLike)
    (dnsLookup : Option DnsLookupLike) : Net (List (JsString × Artifact)) :=
  match registryItems registry with
  | none => pure []
  | some items => do
    let urls ← Program.lift (collectUrls web registryUrl items [])
    fetchUrls web fetchImpl dnsLookup urls 0 []

end Fetching

section Url
variable (web : Web)

structure UrlVerificationOptions where
  fetchImpl : Option FetchLike := none
  dnsLookup : Option DnsLookupLike := none
  now : Option JsString := none
  mode : VerificationMode := .url

/-- The look-up of a run: the one of the options, or the one of the system. -/
def UrlVerificationOptions.effectiveLookup (options : UrlVerificationOptions) :
    Option DnsLookupLike :=
  match options.dnsLookup, options.fetchImpl with
  | some dnsLookup, _ => some dnsLookup
  | none, none => some web.systemDnsLookup
  | none, some _ => none

/-- `verifyProofRegistry`, with its exception as an `Error`. -/
def runRegistry (registry : Value) (artifacts : List (JsString × Artifact)) (now : Option JsString) :
    Net RegistryVerificationResult :=
  Program.lift <| (verifyProofRegistry web.toRuntime registry artifacts (pinnedTime now)).mapError
    fun | .typeError message => Thrown.error (js message)

/-- `verifyUrl` behind the check of the bounds. -/
def verifyRemoteItems (options : UrlVerificationOptions) (registry : Value) (url : RemoteUrl) :
    Net ModeResult := do
  let structural ← runRegistry web registry [] options.now
  if structural.status = .invalid then return withMode structural options.mode
  else
    let artifacts ←
      fetchArtifacts web registry url options.fetchImpl (options.effectiveLookup web)
    let result ← runRegistry web registry artifacts options.now
    return withMode result options.mode

/-- `verifyUrl` once the text of the registry is there. -/
def verifyRemoteRegistry (options : UrlVerificationOptions) (url : RemoteUrl)
    (bytes : List UInt8) : Net ModeResult := do
  let registry ← Program.lift
    ((parseJsonStrict (web.utf8Decode bytes)).mapError .strictJson)
  Program.lift ((validateRegistryResourceBounds registry).mapError fun (code, message) =>
    Thrown.remote .invalid code (js message))
  verifyRemoteItems web options registry url

/-- The `try` block of `verifyUrl`. -/
def fetchAndVerify (options : UrlVerificationOptions) (url : RemoteUrl) : Net ModeResult := do
  let response ← fetchBoundedResource web options.fetchImpl url .registry maxRegistryBytes
    (options.effectiveLookup web)
  if response.status = 404 then
    return modeFailure options.mode .unknown "proposal_not_found"
      (js "proof registry returned 404")
  else if !response.ok then
    return modeFailure options.mode .unavailable "registry_http_error"
      (js "proof registry returned HTTP " ++ decimal response.status)
  else match response.bytes with
    | none => Program.raise (.remote .unavailable "registry_read_failed"
        (js "proof registry response body is unavailable"))
    | some bytes => verifyRemoteRegistry web options url bytes

/-- The `catch` block of `verifyUrl`. -/
def remoteFailure (mode : VerificationMode) : Thrown → ModeResult
  | .strictJson error => modeFailure mode .invalid (strictJsonCode error) (strictJsonMessage error)
  | .remote status code message => modeFailure mode status code message
  | .rejected reason =>
    modeFailure mode .unavailable "registry_fetch_failed" (safeErrorMessage reason)

def verifyUrl (registryUrl : JsString) (options : UrlVerificationOptions) :
    Program Session Empty ModeResult :=
  match requireHttpsUrl web registryUrl with
  | .error (.remote status code message) => pure (modeFailure options.mode status code message)
  | .error (.strictJson error) =>
    pure (modeFailure options.mode .invalid "invalid_url" (strictJsonMessage error))
  | .error (.rejected reason) =>
    pure (modeFailure options.mode .invalid "invalid_url" (safeErrorMessage reason))
  | .ok url =>
    if options.fetchImpl.isSome && options.dnsLookup.isNone then
      pure (modeFailure options.mode .invalid "custom_fetch_dns_required"
        (js "a custom fetch implementation requires an explicit DNS resolver"))
    else
      (fetchAndVerify web options url).attempt fun thrown =>
        pure (remoteFailure options.mode thrown)

end Url
end Concordia.Verify
