import Mathlib.Data.List.DropRight
import Concordia.Lib.Session
import Concordia.Verify.Addresses
import Concordia.Verify.ProofRegistry

/-! Verification of a registry behind a URL. The network answers each step anew; the session
keeps the number of the step and a record of the look-ups and connections. -/
namespace Concordia.Verify
open Concordia.Js Concordia.Lib.Session

section World

/-- A parsed URL, as far as the remote modes read it. -/
structure RemoteUrl extends Url where
  hostname : JsString
  origin : JsString
  href : JsString
  /-- `href` once `hash` is set to the empty string. -/
  bareHref : JsString
  search : JsString
  hash : JsString

/-- What a promise of the platform rejects with; `timedOut` when the deadline has passed. -/
inductive Rejection where
  | error (message : JsString)
  | notAnError
  | timedOut

inductive ReadResult where
  | chunk (bytes : List UInt8)
  | nothing
  | failed (reason : Rejection)

/-- `incoming`, the answer to a request. -/
structure Incoming where
  statusCode : Nat
  contentLength : Option JsString
  body : List ReadResult

structure Response where
  status : Nat
  redirected : Bool
  url : JsString
  contentLength : Option JsString
  /-- What the reads of the body return, until it is done. -/
  body : Option (List ReadResult)

def Response.ok (response : Response) : Bool := 200 ≤ response.status && response.status ≤ 299

/-- The platform and the network around the remote modes. The numbers are the steps. -/
structure Web extends Runtime where
  parseRemoteUrl : JsString → Option RemoteUrl
  parse_agrees : ∀ text, parseUrl text = (parseRemoteUrl text).map RemoteUrl.toUrl
  toLowerCase : JsString → JsString
  /-- `String(value)` of a value that is not a string. -/
  stringOf : Value → JsString
  /-- `JSON.stringify`, which throws for a bigint. -/
  jsonStringify : Value → Except Rejection JsString
  /-- `Date.now()`. -/
  dateNow : Nat → Int
  systemDnsLookup : Nat → JsString → Except Rejection Value
  /-- One TLS connection to an address, and the request for the URL over it. -/
  httpsRequest : Nat → RemoteUrl → JsString → JsString → Except Rejection Incoming

inductive Event where
  | lookup (hostname : JsString) (answer : Value)
  | connect (url : RemoteUrl) (address : JsString)

structure Session where
  step : Nat
  log : List Event

/-- Everything that is thrown; `remote` is a `RemoteModeError`. -/
inductive Thrown where
  | remote (status : ResultStatus) (code : String) (message : JsString)
  | strictJson (error : StrictJsonError)
  | rejected (reason : Rejection)

abbrev Net := Program Session Thrown

def Thrown.error (message : JsString) : Thrown := .rejected (.error message)

/-- `safeErrorMessage`; the deadline aborts with an error of its own. -/
def safeErrorMessage : Rejection → JsString
  | .error message => message
  | .notAnError => js "remote verification failed"
  | .timedOut => js "URL verification timed out"

end World

section Hosts
variable (web : Web)

def startsWithBracket (hostname : JsString) : Bool := hostname.head? == some 0x5b

/-- `slice(1, -1)`. -/
def unbracketed (hostname : JsString) : JsString := hostname.tail.dropLast

def normalizeHostname (hostname : JsString) : JsString :=
  let withoutBrackets := if startsWithBracket hostname && hostname.getLast? == some 0x5d then
    unbracketed hostname else hostname
  web.toLowerCase (withoutBrackets.rdropWhile (· == period))

/-- The names that both remote modes refuse. -/
def isLocalName (hostname : JsString) : Bool :=
  hostname == js "localhost" || (js ".localhost").isSuffixOf hostname ||
    (js ".local").isSuffixOf hostname || hostname == js "home.arpa" ||
    (js ".home.arpa").isSuffixOf hostname

def unsafeHostError (hostname : JsString) : Thrown :=
  .remote .invalid "unsafe_remote_host" (js "remote host is not publicly routable: " ++ hostname)

def assertPublicAddress (address : JsString) : Except Thrown Unit :=
  if isPublicAddress address then .ok () else .error (unsafeHostError address)

def assertSafeHostname (rawHostname : JsString) : Except Thrown Unit :=
  let hostname := normalizeHostname web rawHostname
  if isLocalName hostname then .error (unsafeHostError hostname)
  else if isIP hostname ≠ 0 then assertPublicAddress hostname
  else .ok ()

/-- What `trim` removes. -/
def isTrimmed (u : UInt16) : Bool :=
  (9 ≤ u && u ≤ 13) || u == 0x20 || u == 0xa0 || u == 0x1680 || (0x2000 ≤ u && u ≤ 0x200a) ||
    u == 0x2028 || u == 0x2029 || u == 0x202f || u == 0x205f || u == 0x3000 || u == 0xfeff

def isAsciiLetter (u : UInt16) : Bool := isLower u || (65 ≤ u && u ≤ 90)

/-- `/^[A-Za-z][A-Za-z0-9+.-]*:[\\/]{2}([^\\/?#]*)/`, then whether the group has an `@`. -/
def hasExplicitUserInfo (value : JsString) : Bool :=
  let text := (value.dropWhile isTrimmed).rdropWhile isTrimmed
  let isSlash (u : UInt16) : Bool := u == 0x5c || u == 0x2f
  let rest := text.tail.dropWhile fun u =>
    isAsciiLetter u || isDigit u || u == 0x2b || u == period || u == 0x2d
  match text.head?.any isAsciiLetter, rest with
  | true, u :: v :: w :: authority =>
    u == colon && isSlash v && isSlash w &&
      (authority.takeWhile fun x => !(isSlash x || x == 0x3f || x == 0x23)).contains 0x40
  | _, _ => false

def requireHttpsUrl (value : JsString) : Except Thrown RemoteUrl :=
  match web.parseRemoteUrl value with
  | none => .error (.error (js "Invalid URL"))
  | some url =>
    if url.protocol ≠ js "https:" ∨ url.username ≠ [] ∨ url.password ≠ [] ∨
        hasExplicitUserInfo value then
      .error (.error (js "URL must use HTTPS without embedded credentials"))
    else do
      assertSafeHostname web url.hostname
      return url

/-- The look-up of one step, with its answer on record. -/
def lookup (dnsLookup : Nat → JsString → Except Rejection Value) (hostname : JsString) :
    Net Value := fun s =>
  match dnsLookup s.step hostname with
  | .ok answer => (.ok answer, ⟨s.step + 1, s.log ++ [.lookup hostname answer]⟩)
  | .error reason => (.error (.rejected reason), ⟨s.step + 1, s.log⟩)

/-- The loop over the answer of a look-up, and the addresses it leaves. -/
def validateAddresses : List Value → Except Thrown (List JsString)
  | [] => .ok []
  | .string address :: rest => do
    let normalized := normalizeHostname web address
    if isIP normalized = 0 then .error (.error (js "DNS lookup returned an invalid address"))
    else
      assertPublicAddress normalized
      let addresses ← validateAddresses rest
      return normalized :: addresses
  | _ :: _ => .error (.error (js "DNS lookup returned an invalid address"))

def validateAnswer (answer : Value) : Except Thrown (List JsString) :=
  match answer with
  | .array (address :: rest) => validateAddresses web (address :: rest)
  | _ => .error (.error (js "DNS lookup returned no addresses"))

def ensureSafeResolvedHost (dnsLookup : Option (Nat → JsString → Except Rejection Value))
    (url : RemoteUrl) : Net (List JsString) :=
  let hostname := normalizeHostname web url.hostname
  if isIP hostname ≠ 0 then pure [hostname]
  else
    match dnsLookup with
    | none => pure []
    | some dnsLookup => do
      let answer ← lookup dnsLookup hostname
      Program.lift (validateAnswer web answer)

/-- Where the socket goes: to the host of the URL when that is an address, for which Node asks
no look-up function, and else to the pinned address. -/
def socketAddress (url : RemoteUrl) (pinned : JsString) : JsString :=
  let host := if startsWithBracket url.hostname then unbracketed url.hostname else url.hostname
  if isIP host ≠ 0 then host else pinned

/-- `https.request` with the pinned look-up. -/
def connect (body : JsString) (url : RemoteUrl) (pinned : JsString) : Net Incoming := fun s =>
  let address := socketAddress url pinned
  ((web.httpsRequest s.step url address body).mapError .rejected,
    ⟨s.step + 1, s.log ++ [.connect url address]⟩)

/-- `new Response(body, { status })`. -/
def newResponse (incoming : Incoming) (hasBody : Bool) : Except Thrown Response :=
  if 200 ≤ incoming.statusCode ∧ incoming.statusCode ≤ 599 then
    if hasBody ∧ incoming.statusCode ∈ [204, 205, 304] then
      .error (.error (js "Response constructor: Invalid response status code " ++
        decimal incoming.statusCode))
    else .ok {
      status := incoming.statusCode
      redirected := false
      url := []
      contentLength := incoming.contentLength
      body := if hasBody then some incoming.body else none }
  else .error (.error (js "init[\"status\"] must be in the range of 200 to 599, inclusive."))

def pinnedHttpsGet (url : RemoteUrl) (address : JsString) : Net Response :=
  if isIP address ≠ 4 ∧ isIP address ≠ 6 then
    Program.raise (.error (js "pinned HTTPS address is invalid"))
  else do
    let incoming ← connect web [] url address
    Program.lift (newResponse incoming (incoming.statusCode ∉ [204, 205, 304]))

variable {web}

theorem isIP_of_isPublicAddress {text : JsString} (h : isPublicAddress text = true) :
    isIP text ≠ 0 := by
  obtain ⟨a, heq, -⟩ := isPublicAddress_sound h
  exact isIP_ne_zero.mpr ⟨a, heq⟩

theorem validateAddresses_ok {answers : List Value} {addresses : List JsString}
    (h : validateAddresses web answers = .ok addresses) :
    ∃ texts : List JsString, answers = texts.map Value.string ∧ addresses = texts.map (normalizeHostname web) ∧
      ∀ address ∈ addresses, isPublicAddress address = true := by
  induction answers generalizing addresses with
  | nil =>
    cases h
    exact ⟨[], rfl, rfl, fun _ hmem => absurd hmem List.not_mem_nil⟩
  | cons answer answers ih =>
    cases answer with
    | string text =>
      simp only [validateAddresses] at h
      split at h
      · cases h
      simp only [assertPublicAddress, bind, Except.bind] at h
      cases hpublic : isPublicAddress (normalizeHostname web text) with
      | false => simp [hpublic] at h
      | true =>
        simp only [hpublic, if_true] at h
        cases hrest : validateAddresses web answers with
        | error thrown => simp [hrest] at h
        | ok rest =>
          obtain ⟨texts, rfl, rfl, hall⟩ := ih hrest
          simp only [hrest, pure, Except.pure, Except.ok.injEq] at h
          subst h
          refine ⟨text :: texts, rfl, rfl, ?_⟩
          exact List.forall_mem_cons.mpr ⟨hpublic, hall⟩
    | _ => cases h

/-- An accepted answer is a nonempty list of strings that are all public once normalized. -/
theorem validateAnswer_ok {answer : Value} {addresses : List JsString}
    (h : validateAnswer web answer = .ok addresses) :
    ∃ texts : List JsString, answer = .array (texts.map Value.string) ∧ texts ≠ [] ∧
      addresses = texts.map (normalizeHostname web) ∧
      ∀ address ∈ addresses, isPublicAddress address = true := by
  unfold validateAnswer at h
  split at h
  · obtain ⟨texts, heq, haddresses, hall⟩ := validateAddresses_ok h
    refine ⟨texts, by rw [heq], ?_, haddresses, hall⟩
    rintro rfl
    cases heq
  · cases h

end Hosts

section Bodies

inductive ResourceKind where
  | registry | artifact

def ResourceKind.name : ResourceKind → String
  | .registry => "registry"
  | .artifact => "artifact"

def sizeLimitError (kind : ResourceKind) : Thrown :=
  .remote .invalid s!"{kind.name}_too_large" (js kind.name ++ js " exceeds " ++
    js (match kind with | .registry => "8" | .artifact => "64") ++ js " MiB")

/-- The loop over the reads of a body: the chunks and their total size. -/
def readChunks (tooLarge : Thrown) (maximumBytes : Nat) :
    List ReadResult → List (List UInt8) → Nat → Except Thrown (List (List UInt8) × Nat)
  | [], chunks, total => .ok (chunks, total)
  | .nothing :: reads, chunks, total => readChunks tooLarge maximumBytes reads chunks total
  | .failed reason :: _, _, _ => .error (.rejected reason)
  | .chunk value :: reads, chunks, total =>
    if value.length > maximumBytes - total then .error tooLarge
    else readChunks tooLarge maximumBytes reads (chunks ++ [value]) (total + value.length)

/-- `bytes.set(chunk, offset)`, for one chunk after another. -/
def setChunks : List (List UInt8) → Nat → List UInt8 → List UInt8
  | [], _, bytes => bytes
  | chunk :: chunks, offset, bytes =>
    setChunks chunks (offset + chunk.length)
      (bytes.take offset ++ chunk ++ bytes.drop (offset + chunk.length))

def readBody (tooLarge : Thrown) (maximumBytes : Nat) (body : Option (List ReadResult)) :
    Except Thrown (List UInt8) :=
  match body with
  | none => .ok []
  | some reads => do
    let (chunks, total) ← readChunks tooLarge maximumBytes reads [] 0
    return setChunks chunks 0 (List.replicate total 0)

def readBoundedBody (response : Response) (maximumBytes : Nat) (kind : ResourceKind) :
    Except Thrown (List UInt8) :=
  let invalidLength : Thrown := .remote .unavailable s!"{kind.name}_invalid_content_length"
    (js kind.name ++ js " response has an invalid Content-Length")
  match response.contentLength with
  | some length =>
    if !isCanonicalDecimal length then .error invalidLength
    else if digitsValue length > maximumBytes then .error (sizeLimitError kind)
    else readBody (sizeLimitError kind) maximumBytes response.body
  | none => readBody (sizeLimitError kind) maximumBytes response.body

/-- The chunks that arrived, in their order. -/
def receivedChunks : List ReadResult → List (List UInt8)
  | [] => []
  | .chunk value :: reads => value :: receivedChunks reads
  | _ :: reads => receivedChunks reads

/-- The body was read to its end. -/
def Complete (reads : List ReadResult) : Prop := ∀ reason, ReadResult.failed reason ∉ reads

theorem Complete.tail {read : ReadResult} {reads : List ReadResult} (h : Complete (read :: reads)) :
    Complete reads := fun reason hmem => h reason (List.mem_cons_of_mem read hmem)

theorem readChunks_sound {tooLarge : Thrown} {maximumBytes : Nat} {reads : List ReadResult}
    {chunks all : List (List UInt8)} {total size : Nat} (hle : total ≤ maximumBytes)
    (h : readChunks tooLarge maximumBytes reads chunks total = .ok (all, size)) :
    Complete reads ∧ all = chunks ++ receivedChunks reads ∧
      size = total + (receivedChunks reads).flatten.length ∧ size ≤ maximumBytes := by
  induction reads generalizing chunks total with
  | nil =>
    simp only [readChunks, Except.ok.injEq, Prod.mk.injEq] at h
    obtain ⟨rfl, rfl⟩ := h
    exact ⟨fun _ => List.not_mem_nil, by simp [receivedChunks], by simp [receivedChunks], hle⟩
  | cons read reads ih =>
    cases read with
    | nothing =>
      obtain ⟨hcomplete, hrest⟩ := ih hle h
      exact ⟨fun reason => by simpa using hcomplete reason, hrest⟩
    | failed reason => cases h
    | chunk value =>
      simp only [readChunks] at h
      split at h
      · cases h
      · rename_i hfits
        obtain ⟨hcomplete, hall, hsize, hbound⟩ := ih (by omega) h
        refine ⟨fun reason => by simpa using hcomplete reason, ?_, ?_, hbound⟩
        · rw [hall, receivedChunks, List.append_assoc, List.singleton_append]
        · rw [hsize, receivedChunks, List.flatten_cons, List.length_append, Nat.add_assoc]

theorem readChunks_complete {tooLarge : Thrown} {maximumBytes : Nat} {reads : List ReadResult}
    {chunks : List (List UInt8)} {total : Nat} (hcomplete : Complete reads)
    (hfits : total + (receivedChunks reads).flatten.length ≤ maximumBytes) :
    readChunks tooLarge maximumBytes reads chunks total =
      .ok (chunks ++ receivedChunks reads, total + (receivedChunks reads).flatten.length) := by
  induction reads generalizing chunks total with
  | nil => simp [readChunks, receivedChunks]
  | cons read reads ih =>
    cases read with
    | nothing => exact ih hcomplete.tail hfits
    | failed reason => exact absurd List.mem_cons_self (hcomplete reason)
    | chunk value =>
      simp only [receivedChunks, List.flatten_cons, List.length_append] at hfits ⊢
      rw [readChunks, if_neg (by omega), ih hcomplete.tail (by omega), List.append_assoc,
        List.singleton_append, Nat.add_assoc]

theorem setChunks_eq {chunks : List (List UInt8)} {offset : Nat} {bytes : List UInt8}
    (h : offset + chunks.flatten.length ≤ bytes.length) :
    setChunks chunks offset bytes =
      bytes.take offset ++ chunks.flatten ++ bytes.drop (offset + chunks.flatten.length) := by
  induction chunks generalizing offset bytes with
  | nil => simp [setChunks]
  | cons chunk chunks ih =>
    simp only [List.flatten_cons, List.length_append] at h ⊢
    have htake : (bytes.take offset).length = offset := by
      rw [List.length_take]
      omega
    rw [setChunks, ih (by simp only [List.length_append, htake, List.length_drop]; omega)]
    have hfront : (bytes.take offset ++ chunk).length = offset + chunk.length := by simp [htake]
    rw [List.take_append_of_le_length hfront.ge, List.take_of_length_le hfront.le,
      List.drop_append, List.drop_of_length_le (by omega), hfront, List.drop_drop]
    have hindex : offset + chunk.length + (offset + chunk.length + chunks.flatten.length -
        (offset + chunk.length)) = offset + (chunk.length + chunks.flatten.length) := by omega
    rw [hindex]
    simp

/-- The bytes of a body are its chunks behind each other, within the limit. -/
theorem readBody_sound {tooLarge : Thrown} {maximumBytes : Nat} {reads : List ReadResult}
    {bytes : List UInt8} (h : readBody tooLarge maximumBytes (some reads) = .ok bytes) :
    Complete reads ∧ bytes = (receivedChunks reads).flatten ∧ bytes.length ≤ maximumBytes := by
  simp only [readBody] at h
  cases hread : readChunks tooLarge maximumBytes reads [] 0 with
  | error thrown => rw [hread] at h; cases h
  | ok result =>
    obtain ⟨chunks, total⟩ := result
    obtain ⟨hcomplete, hall, hsize, hbound⟩ := readChunks_sound (Nat.zero_le _) hread
    simp only [hread, bind, Except.bind, pure, Except.pure, Except.ok.injEq] at h
    rw [List.nil_append] at hall
    subst hall
    rw [setChunks_eq (by simp [hsize])] at h
    have hbytes : bytes = (receivedChunks reads).flatten := by
      rw [← h, hsize]
      simp
    refine ⟨hcomplete, hbytes, ?_⟩
    rw [hbytes]
    omega

theorem readBody_complete {tooLarge : Thrown} {maximumBytes : Nat} {reads : List ReadResult}
    (hcomplete : Complete reads) (hfits : (receivedChunks reads).flatten.length ≤ maximumBytes) :
    readBody tooLarge maximumBytes (some reads) = .ok (receivedChunks reads).flatten := by
  have hread := @readChunks_complete tooLarge maximumBytes reads [] 0 hcomplete (by omega)
  rw [List.nil_append, Nat.zero_add] at hread
  simp only [readBody, hread, bind, Except.bind, pure, Except.pure]
  rw [setChunks_eq (by simp)]
  simp

end Bodies
end Concordia.Verify
