import Concordia.Verify.LocalMode
import Concordia.Verify.Monotonicity

/-! The local mode and the URL mode agree on a registry whose artifacts both are served alike. -/
namespace Concordia.Verify
open Concordia.Js Concordia.Lib.Session

section Files
variable {fs : FileSystem}

/-- The artifacts that a map has for the paths. -/
def servedArtifacts (files : JsString → Option (List UInt8)) (paths : List JsString) :
    List (JsString × Artifact) :=
  paths.filterMap fun path => (files path).map fun bytes => (path, .bytes bytes)

def totalSize (files : JsString → Option (List UInt8)) (paths : List JsString) : Nat :=
  (paths.map fun path => ((files path).getD []).length).sum

/-- A handle of a regular file with these bytes; a read may stop short. -/
structure OpenFile (fs : FileSystem) (handle : Nat) (stats : Stats) (bytes : List UInt8) : Prop where
  stated : ∀ step, fs.handleStat step handle = .ok stats
  regular : stats.isFile = true
  size : stats.size = bytes.length
  reads : ∀ step capacity position, 0 < capacity → ∃ chunk,
    fs.read step handle capacity position = .ok chunk ∧ chunk <+: bytes.drop position ∧
      (position < bytes.length → chunk ≠ [])

theorem call_returns {α : Type} {question : Nat → Except FsError α} {result : α → Prop}
    (h : ∀ step, ∃ a, question step = .ok a ∧ result a) :
    (call question).Returns result := by
  apply Program.Returns.of_fst
  intro step
  obtain ⟨a, heq, ha⟩ := h step
  exact ⟨a, by simp [call, heq, Except.mapError], ha⟩

theorem readLoop_returns {tooLarge : LocalThrown} {handle maximumBytes : Nat} {stats : Stats}
    {bytes : List UInt8} (hopen : OpenFile fs handle stats bytes)
    (hfits : bytes.length ≤ maximumBytes) (fuel position : Nat) (chunks : List (List UInt8))
    (hchunks : chunks.flatten = bytes.take position) (hposition : position ≤ bytes.length)
    (hfuel : bytes.length < position + fuel) :
    (readLoop fs tooLarge handle maximumBytes fuel position chunks).Returns (· = bytes) := by
  induction fuel generalizing position chunks with
  | zero => omega
  | succ fuel ih =>
    rw [readLoop, if_neg (by omega)]
    apply Program.Returns.bind (Q := fun chunk => chunk <+: bytes.drop position ∧
      (position < bytes.length → chunk ≠ []))
    · apply call_returns
      intro step
      exact hopen.reads step _ position (by simp [fileReadChunkBytes])
    · rintro chunk ⟨hchunk, hnonempty⟩
      have hlength := hchunk.length_le
      rw [List.length_drop] at hlength
      cases chunk with
      | nil =>
        have hend : position = bytes.length := by
          by_contra hne
          exact hnonempty (by omega) rfl
        apply Program.Returns.pure
        rw [hchunks, hend, List.take_length]
      | cons b chunk =>
        rw [List.length_cons] at hlength
        rw [if_neg (by simp), if_neg (by rw [List.length_cons]; omega)]
        apply ih
        · rw [List.flatten_concat, hchunks, List.take_add,
            ← List.prefix_iff_eq_take.mp hchunk]
        · rw [List.length_cons]
          omega
        · rw [List.length_cons]
          omega

theorem readBoundedHandle_returns {errorCode : String} {errorMessage : JsString}
    {handle maximumBytes : Nat} {stats : Stats} {bytes : List UInt8}
    (hopen : OpenFile fs handle stats bytes) (hfits : bytes.length ≤ maximumBytes) :
    (readBoundedHandle fs handle maximumBytes errorCode errorMessage stats.size).Returns
      (· = bytes) := by
  rw [readBoundedHandle, if_neg (by rw [hopen.size]; omega)]
  exact readLoop_returns hopen hfits _ 0 [] (by simp) (Nat.zero_le _) (by omega)

/-- A path is a file with these bytes, opened as the registry is. -/
def RegistryFile (fs : FileSystem) (absolute : List JsString) (bytes : List UInt8) : Prop :=
  ∀ step, ∃ handle stats, fs.openFile step absolute false = .ok handle ∧
    OpenFile fs handle stats bytes

/-- What the file system has under a path below the base: nothing, or a file with these bytes. -/
def ArtifactFile (fs : FileSystem) (base lexical : List JsString) : Option (List UInt8) → Prop
  | none => ∀ step, ∃ error, fs.realpath step lexical = .error error ∧ isMissing error = true
  | some bytes => ∃ target stats, isPathInside base target = true ∧ ∀ step,
    fs.realpath step lexical = .ok target ∧ fs.realpath step target = .ok target ∧
      fs.stat step target = .ok stats ∧
      ∃ handle, fs.openFile step target true = .ok handle ∧ OpenFile fs handle stats bytes

theorem readRegistry_returns {absolute : List JsString} {bytes : List UInt8}
    (hfile : RegistryFile fs absolute bytes) (hfits : bytes.length ≤ maxRegistryBytes) :
    (readRegistry fs absolute).Returns (· = bytes) := by
  apply Program.Returns.bind (Q := fun handle => ∃ stats, OpenFile fs handle stats bytes)
  · apply call_returns
    intro step
    obtain ⟨handle, stats, hopened, hopen⟩ := hfile step
    exact ⟨handle, hopened, stats, hopen⟩
  · rintro handle ⟨stats, hopen⟩
    apply Program.Returns.bind (Q := (· = stats))
    · exact call_returns fun step => ⟨stats, hopen.stated step, rfl⟩
    · rintro _ rfl
      simp only [hopen.regular, Bool.not_true, Bool.false_eq_true, if_false]
      exact readBoundedHandle_returns hopen hfits

theorem tryCall_some {α : Type} {question : Nat → Except FsError α} {result : α → Prop}
    (h : ∀ step, ∃ a, question step = .ok a ∧ result a) :
    (tryCall question).Returns fun found => ∃ a, found = some a ∧ result a := by
  apply Program.Returns.attempt
  exact Program.Returns.map (call_returns h) fun a ha => ⟨a, rfl, ha⟩

theorem tryCall_none {α : Type} {question : Nat → Except FsError α}
    (h : ∀ step, ∃ error, question step = .error error ∧ isMissing error = true) :
    (tryCall question).Returns (· = none) := by
  apply Program.Returns.of_fst
  intro step
  obtain ⟨error, heq, hmissing⟩ := h step
  refine ⟨none, ?_, rfl⟩
  simp [tryCall, Program.attempt, Functor.map, call, heq, Except.mapError, hmissing, pure]

theorem readArtifact_returns {base target : List JsString} {relative : JsString}
    {handle aggregateBytes : Nat} {stats : Stats} {bytes : List UInt8}
    (hinside : isPathInside base target = true)
    (hfile : ∀ step, fs.realpath step target = .ok target ∧ fs.stat step target = .ok stats)
    (hopen : OpenFile fs handle stats bytes) (hfits : bytes.length ≤ maxArtifactBytes)
    (htotal : aggregateBytes + bytes.length ≤ maxTotalArtifactBytes) :
    (readArtifact fs base target relative handle aggregateBytes).Returns (· = bytes) := by
  apply Program.Returns.bind (Q := (· = stats))
  · exact call_returns fun step => ⟨stats, hopen.stated step, rfl⟩
  rintro stats rfl
  simp only [hopen.regular, Bool.not_true, Bool.false_eq_true, if_false]
  apply Program.Returns.bind (Q := (· = target))
  · exact call_returns fun step => ⟨target, (hfile step).1, rfl⟩
  rintro target rfl
  apply Program.Returns.bind (Q := (· = stats))
  · exact call_returns fun step => ⟨stats, (hfile step).2, rfl⟩
  rintro stats rfl
  rw [if_neg (by simp [hinside]), if_neg (by rw [hopen.size]; omega)]
  apply Program.Returns.bind (readBoundedHandle_returns hopen hfits)
  rintro bytes rfl
  rw [if_neg (by omega)]
  exact Program.Returns.pure rfl

theorem loadArtifact_returns {base : List JsString} {relative : JsString} {aggregateBytes : Nat}
    {content : Option (List UInt8)}
    (hlexical : isPathInside base (resolvePath base relative) = true)
    (hfile : ArtifactFile fs base (resolvePath base relative) content)
    (hfits : (content.getD []).length ≤ maxArtifactBytes)
    (htotal : aggregateBytes + (content.getD []).length ≤ maxTotalArtifactBytes) :
    (loadArtifact fs base relative aggregateBytes).Returns (· = content) := by
  simp only [loadArtifact, hlexical, Bool.not_true, Bool.false_eq_true, if_false]
  cases content with
  | none =>
    apply Program.Returns.bind (tryCall_none hfile)
    rintro _ rfl
    exact Program.Returns.pure rfl
  | some bytes =>
    obtain ⟨target, stats, hinside, hfile⟩ := hfile
    apply Program.Returns.bind (tryCall_some fun step => ⟨target, (hfile step).1, rfl⟩)
    rintro _ ⟨_, rfl, rfl⟩
    simp only [hinside, Bool.not_true, Bool.false_eq_true, if_false]
    apply Program.Returns.bind (tryCall_some fun step => (hfile step).2.2.2)
    rintro _ ⟨handle, rfl, hopen⟩
    apply Program.Returns.map (readArtifact_returns hinside
      (fun step => ⟨(hfile step).2.1, (hfile step).2.2.1⟩) hopen hfits htotal)
    rintro _ rfl
    rfl

end Files

section Paths

theorem foldl_resolveSegment {segments : List JsString} (base : List JsString)
    (h : ∀ segment ∈ segments, segment ≠ [] ∧ segment ≠ [period] ∧ segment ≠ [period, period]) :
    segments.foldl resolveSegment base = base ++ segments := by
  induction segments generalizing base with
  | nil => simp
  | cons segment segments ih =>
    obtain ⟨hempty, hperiod, hparent⟩ := h segment List.mem_cons_self
    rw [List.foldl_cons, resolveSegment, if_neg (by simp [hempty, hperiod]), if_neg hparent,
      ih _ fun other hmem => h other (List.mem_cons_of_mem segment hmem), List.append_assoc,
      List.singleton_append]

theorem relativePath_append (base target : List JsString) :
    relativePath base (base ++ target) = target := by
  induction base with
  | nil => simp [relativePath]
  | cons b base ih => simp [relativePath, ih]

/-- A safe relative path stays inside of every base. -/
theorem resolvePath_inside {path : JsString} (base : List JsString)
    (h : isRepositoryRelativePath (.string path) = true) :
    isPathInside base (resolvePath base path) = true := by
  simp only [isRepositoryRelativePath, Bool.and_eq_true, List.all_eq_true] at h
  obtain ⟨⟨⟨-, hroot⟩, -⟩, hsegments⟩ := h
  have hordinary : ∀ segment ∈ path.splitOn slash,
      segment ≠ [] ∧ segment ≠ [period] ∧ segment ≠ [period, period] := by
    intro segment hmem
    obtain ⟨⟨hempty, hperiod⟩, hparent⟩ := by simpa using hsegments segment hmem
    exact ⟨hempty, hperiod, hparent⟩
  have hhead : path.head? ≠ some slash := by simpa [slash] using hroot
  rw [resolvePath, if_neg hhead, foldl_resolveSegment base hordinary, isPathInside,
    relativePath_append]
  cases hsplit : path.splitOn slash with
  | nil => rfl
  | cons segment segments =>
    have := (hordinary segment (by simp [hsplit])).2.2
    simpa using this

theorem uniquePaths_cons_none {raw : Value} {items : List Value} {paths : List JsString}
    (h : artifactPath raw = none) : uniquePaths (raw :: items) paths = uniquePaths items paths := by
  simp [uniquePaths, h]

theorem uniquePaths_cons_some {raw : Value} {items : List Value} {paths : List JsString}
    {path : JsString} (h : artifactPath raw = some path) :
    uniquePaths (raw :: items) paths = uniquePaths items (addPath paths path) := by
  simp [uniquePaths, h]

theorem prefix_addPath (paths : List JsString) (path : JsString) : paths <+: addPath paths path := by
  unfold addPath
  split
  · exact List.prefix_refl paths
  · exact List.prefix_append paths [path]

theorem prefix_uniquePaths (items : List Value) (paths : List JsString) :
    paths <+: uniquePaths items paths := by
  unfold uniquePaths
  generalize items.filterMap artifactPath = added
  induction added generalizing paths with
  | nil => exact List.prefix_refl paths
  | cons path added ih => exact (prefix_addPath paths path).trans (ih (addPath paths path))

variable {files : JsString → Option (List UInt8)}

theorem totalSize_append (first second : List JsString) :
    totalSize files (first ++ second) = totalSize files first + totalSize files second := by
  simp [totalSize]

theorem totalSize_mono {first second : List JsString} (h : first <+: second) :
    totalSize files first ≤ totalSize files second := by
  obtain ⟨rest, rfl⟩ := h
  rw [totalSize_append]
  exact Nat.le_add_right _ _

theorem servedArtifacts_concat (paths : List JsString) (path : JsString) :
    servedArtifacts files (paths ++ [path]) = servedArtifacts files paths ++
      ((files path).map fun bytes => (path, Artifact.bytes bytes)).toList := by
  unfold servedArtifacts
  rw [List.filterMap_append]
  cases hpath : files path <;> simp [hpath]

end Paths

section Loading
variable {fs : FileSystem} {files : JsString → Option (List UInt8)} {base : List JsString}

/-- A path that is safe and has the file of the map, of a size within the limit. -/
structure LocalPath (fs : FileSystem) (files : JsString → Option (List UInt8))
    (base : List JsString) (path : JsString) : Prop where
  safe : isRepositoryRelativePath (.string path) = true
  file : ArtifactFile fs base (resolvePath base path) (files path)
  fits : ((files path).getD []).length ≤ maxArtifactBytes

/-- The local loop collects what the map has for the paths of the items. -/
theorem loadItems_returns (items : List Value) (paths : List JsString)
    (hpaths : ∀ raw ∈ items, ∀ path, artifactPath raw = some path → LocalPath fs files base path)
    (htotal : totalSize files (uniquePaths items paths) ≤ maxTotalArtifactBytes) :
    (loadItems fs base items paths (totalSize files paths) (servedArtifacts files paths)).Returns
      (· = servedArtifacts files (uniquePaths items paths)) := by
  induction items generalizing paths with
  | nil => exact Program.Returns.pure rfl
  | cons raw items ih =>
    have hrest := fun raw' hmem => hpaths raw' (List.mem_cons_of_mem raw hmem)
    rw [loadItems]
    cases hraw : artifactPath raw with
    | none =>
      rw [uniquePaths_cons_none hraw] at htotal ⊢
      exact ih paths hrest htotal
    | some path =>
      rw [uniquePaths_cons_some hraw] at htotal ⊢
      have hpath := hpaths raw List.mem_cons_self path hraw
      dsimp only
      by_cases hseen : paths.contains path
      · rw [addPath, if_pos hseen] at htotal ⊢
        rw [if_pos hseen]
        exact ih paths hrest htotal
      · rw [addPath, if_neg hseen] at htotal ⊢
        rw [if_neg hseen]
        have hbound := (totalSize_mono (prefix_uniquePaths items (paths ++ [path]))).trans htotal
        rw [totalSize_append] at hbound
        apply Program.Returns.bind
          (loadArtifact_returns (resolvePath_inside base hpath.safe) hpath.file hpath.fits
            (by simpa [totalSize] using hbound))
        rintro content hcontent
        have hcollected := ih (paths ++ [path]) hrest htotal
        rw [totalSize_append, servedArtifacts_concat, ← hcontent] at hcollected
        cases content with
        | none => simpa [totalSize, ← hcontent] using hcollected
        | some bytes => simpa [totalSize, ← hcontent] using hcollected

end Loading
section Serving
variable {web : Web} {options : UrlVerificationOptions} {url : RemoteUrl}

/-- One exchange with a server, through the built-in transport or the one of the options. -/
def exchange (web : Web) (fetchImpl : Option FetchLike) (step : Nat) (url : RemoteUrl)
    (address : JsString) : Except Thrown Response :=
  match fetchImpl with
  | none => do
    let incoming ← (web.httpsRequest step url address []).mapError .rejected
    newResponse incoming (incoming.statusCode ∉ [204, 205, 304])
  | some fetch => (fetch step url).mapError .rejected

/-- A response that carries these bytes, in chunks of any size. -/
structure Carries (response : Response) (bytes : List UInt8) : Prop where
  ok : response.ok = true
  length : ∀ length, response.contentLength = some length →
    isCanonicalDecimal length = true ∧ digitsValue length = bytes.length
  body : (response.body = none ∧ bytes = []) ∨ ∃ reads, response.body = some reads ∧
    Complete reads ∧ (receivedChunks reads).flatten = bytes

/-- A file of the server, or an HTTP error where it has none. -/
def Reply (response : Response) : Option (List UInt8) → Prop
  | none => response.ok = false
  | some bytes => Carries response bytes

/-- The host of the URL resolves to public addresses, and the server answers with the content. -/
structure UrlServes (web : Web) (options : UrlVerificationOptions) (url : RemoteUrl)
    (content : Option (List UInt8)) : Prop where
  resolves : isIP (normalizeHostname web url.hostname) ≠ 0 ∨
    ∃ dnsLookup, options.effectiveLookup web = some dnsLookup ∧ ∀ step, ∃ answer addresses,
      dnsLookup step (normalizeHostname web url.hostname) = .ok answer ∧
        validateAnswer web answer = .ok addresses
  answers : ∀ step address, ∃ response,
    exchange web options.fetchImpl step url address = .ok response ∧
      isRedirect web response url = false ∧ Reply response content

theorem lookup_returns {dnsLookup : DnsLookupLike} {hostname : JsString} {result : Value → Prop}
    (h : ∀ step, ∃ answer, dnsLookup step hostname = .ok answer ∧ result answer) :
    (lookup dnsLookup hostname).Returns result := by
  apply Program.Returns.of_fst
  intro session
  obtain ⟨answer, heq, hanswer⟩ := h session.step
  exact ⟨answer, by simp [lookup, heq], hanswer⟩

theorem resolveHost_returns {content : Option (List UInt8)}
    (h : UrlServes web options url content) :
    (resolveHost web options.fetchImpl (options.effectiveLookup web) url).Returns
      fun addresses => addresses ≠ [] ∧ ∀ address ∈ addresses, isIP address ≠ 0 := by
  apply Program.Returns.bind
    (Q := fun addresses => addresses ≠ [] ∧ ∀ address ∈ addresses, isIP address ≠ 0)
  · unfold ensureSafeResolvedHost
    dsimp only
    by_cases hliteral : isIP (normalizeHostname web url.hostname) ≠ 0
    · rw [if_pos hliteral]
      exact Program.Returns.pure ⟨List.cons_ne_nil _ _, by simpa using hliteral⟩
    · rw [if_neg hliteral]
      obtain ⟨dnsLookup, heq, hdns⟩ := h.resolves.resolve_left hliteral
      rw [heq]
      apply Program.Returns.bind
        (Q := fun answer => ∃ addresses, validateAnswer web answer = .ok addresses)
      · apply lookup_returns
        intro step
        obtain ⟨answer, addresses, hanswer, hvalid⟩ := hdns step
        exact ⟨answer, hanswer, addresses, hvalid⟩
      rintro answer ⟨addresses, hvalid⟩
      obtain ⟨texts, -, hne, rfl, hpublic⟩ := validateAnswer_ok hvalid
      refine Program.Returns.lift hvalid ⟨by simpa using hne, fun address hmem => ?_⟩
      exact isIP_of_isPublicAddress (hpublic address hmem)
  · rintro addresses ⟨hne, hall⟩
    have hempty : addresses.isEmpty = false := by simpa using hne
    simp only [hempty, Bool.and_false, Bool.false_eq_true, if_false]
    exact Program.Returns.pure ⟨hne, hall⟩

theorem request_returns {content : Option (List UInt8)} {addresses : List JsString}
    (h : UrlServes web options url content) (hne : addresses ≠ [])
    (hall : ∀ address ∈ addresses, isIP address ≠ 0) :
    (request web options.fetchImpl url addresses).Returns fun response =>
      isRedirect web response url = false ∧ Reply response content := by
  obtain ⟨address, rest, rfl⟩ := List.exists_cons_of_ne_nil hne
  have hanswers := h.answers
  unfold request
  cases hfetch : options.fetchImpl with
  | none =>
    have hfamily := isIP_family (hall address List.mem_cons_self)
    dsimp only [List.headD_cons]
    rw [pinnedHttpsGet, if_neg (by omega)]
    apply Program.Returns.of_fst
    intro session
    obtain ⟨response, hexchange, hresponse⟩ :=
      hanswers session.step (socketAddress url address)
    refine ⟨response, ?_, hresponse⟩
    simp only [hfetch, exchange] at hexchange
    simp only [bind, connect, Program.lift]
    cases hrequest : web.httpsRequest session.step url (socketAddress url address) [] with
    | error reason => simp [hrequest, Except.mapError, bind, Except.bind] at hexchange
    | ok incoming => simpa [hrequest, Except.mapError, bind, Except.bind] using hexchange
  | some fetch =>
    apply Program.Returns.of_fst
    intro session
    obtain ⟨response, hexchange, hresponse⟩ := hanswers session.step address
    refine ⟨response, ?_, hresponse⟩
    simpa [hfetch, exchange, customFetch] using hexchange

theorem readBoundedBody_carries {response : Response} {bytes : List UInt8} {maximumBytes : Nat}
    {kind : ResourceKind} (h : Carries response bytes) (hfits : bytes.length ≤ maximumBytes) :
    readBoundedBody response maximumBytes kind = .ok bytes := by
  have hbody : readBody (sizeLimitError kind) maximumBytes response.body = .ok bytes := by
    rcases h.body with ⟨hnone, rfl⟩ | ⟨reads, hsome, hcomplete, rfl⟩
    · rw [hnone, readBody]
    · rw [hsome]
      exact readBody_complete hcomplete hfits
  unfold readBoundedBody
  cases hlength : response.contentLength with
  | none => exact hbody
  | some length =>
    obtain ⟨hdecimal, hvalue⟩ := h.length length hlength
    simp only [hdecimal, Bool.not_true, Bool.false_eq_true, if_false]
    rw [if_neg (by omega)]
    exact hbody

/-- What a served URL gives: its content, and no HTTP error exactly when there is one. -/
theorem fetchBoundedResource_returns {content : Option (List UInt8)} {kind : ResourceKind}
    {maximumBytes : Nat} (h : UrlServes web options url content)
    (hfits : (content.getD []).length ≤ maximumBytes) :
    (fetchBoundedResource web options.fetchImpl url kind maximumBytes
      (options.effectiveLookup web)).Returns fun resource =>
        resource.bytes = content ∧ resource.ok = content.isSome ∧
          (content.isSome = true → resource.status ≠ 404) := by
  apply Program.Returns.bind (resolveHost_returns h).attempt
  rintro addresses ⟨hne, hall⟩
  apply Program.Returns.bind (request_returns h hne hall).attempt
  rintro response ⟨hredirect, hreply⟩
  simp only [acceptResponse, hredirect, Bool.false_eq_true, if_false]
  cases content with
  | none =>
    have hfailed : response.ok = false := hreply
    simp only [hfailed, Bool.not_false, if_true]
    exact Program.Returns.pure ⟨rfl, rfl, by simp⟩
  | some bytes =>
    have hcarries : Carries response bytes := hreply
    simp only [hcarries.ok, Bool.not_true, Bool.false_eq_true, if_false]
    have hread := @readBoundedBody_carries response bytes maximumBytes kind hcarries hfits
    apply Program.Returns.bind (Program.Returns.attempt (Program.Returns.lift hread rfl))
    rintro _ rfl
    have hok := hcarries.ok
    simp only [Response.ok, Bool.and_eq_true, decide_eq_true_eq] at hok
    have hstatus : response.status ≠ 404 := by omega
    exact Program.Returns.pure ⟨rfl, rfl, fun _ => hstatus⟩

end Serving

section Fetching
variable {web : Web} {options : UrlVerificationOptions} {url : RemoteUrl}
  {files : JsString → Option (List UInt8)} {urlOf : JsString → RemoteUrl}

/-- The paths with the URL that each of them has. -/
def urlEntries (urlOf : JsString → RemoteUrl) (paths : List JsString) :
    List (JsString × RemoteUrl) :=
  paths.map fun path => (path, urlOf path)

theorem lookup_urlEntries {paths : List JsString} {path : JsString} {previous : RemoteUrl}
    (h : (urlEntries urlOf paths).lookup path = some previous) : previous = urlOf path := by
  induction paths with
  | nil => cases h
  | cons other paths ih =>
    simp only [urlEntries, List.map_cons, List.lookup_cons] at h
    split at h
    · rename_i heq
      rw [← Option.some.inj h, beq_iff_eq.mp heq]
    · exact ih h

theorem setUrl_urlEntries (paths : List JsString) (path : JsString) :
    setUrl (urlEntries urlOf paths) path (urlOf path) = urlEntries urlOf (addPath paths path) := by
  have hany : (urlEntries urlOf paths).any (fun entry => entry.1 == path) = paths.contains path := by
    rw [urlEntries, List.any_map, List.contains_eq_any_beq]
    exact List.any_congr rfl fun other => by simp [eq_comm]
  have hsame : ∀ other ∈ paths,
      (if other == path then (path, urlOf path) else (other, urlOf other)) = (other, urlOf other) := by
    intro other _
    split
    · rename_i heq
      rw [beq_iff_eq.mp heq]
    · rfl
  unfold setUrl addPath
  rw [hany]
  split
  · rw [urlEntries, List.map_map]
    exact List.map_congr_left hsame
  · simp [urlEntries]

theorem addPath_addPath (paths : List JsString) (path : JsString) :
    addPath (addPath paths path) path = addPath paths path := by
  have hmem : (addPath paths path).contains path = true := by
    unfold addPath
    split
    · assumption
    · simp
  rw [addPath, if_pos hmem]

theorem collectLink_ok {path href : JsString} (paths : List JsString)
    (hhref : requireHttpsUrl web href = .ok (urlOf path))
    (horigin : (urlOf path).origin = url.origin) :
    collectLink web url path href (urlEntries urlOf paths) =
      .ok (urlEntries urlOf (addPath paths path)) := by
  have hagree : ((urlEntries urlOf paths).lookup path).any
      (fun previous => previous.href != (urlOf path).href) = false := by
    cases hprevious : (urlEntries urlOf paths).lookup path with
    | none => rfl
    | some previous =>
      rw [lookup_urlEntries hprevious]
      simp
  simp only [collectLink, hhref, horigin, ne_eq, not_true_eq_false, if_false, hagree,
    Bool.false_eq_true, setUrl_urlEntries]

theorem collectLinks_ok {path : JsString} {hrefs : List JsString} (paths : List JsString)
    (hne : hrefs ≠ []) (hhrefs : ∀ href ∈ hrefs, requireHttpsUrl web href = .ok (urlOf path))
    (horigin : (urlOf path).origin = url.origin) :
    collectLinks web url path hrefs (urlEntries urlOf paths) =
      .ok (urlEntries urlOf (addPath paths path)) := by
  induction hrefs generalizing paths with
  | nil => exact absurd rfl hne
  | cons href hrefs ih =>
    have hfirst := collectLink_ok paths (hhrefs href List.mem_cons_self) horigin
    simp only [collectLinks, hfirst, bind, Except.bind]
    cases hrefs with
    | nil => rfl
    | cons next hrefs =>
      rw [ih (addPath paths path) (List.cons_ne_nil _ _)
        (fun other hmem => hhrefs other (List.mem_cons_of_mem href hmem)), addPath_addPath]

/-- An item whose followed links all lead to the URL of its path, on the origin of the registry. -/
structure LinkedItem (web : Web) (url : RemoteUrl) (urlOf : JsString → RemoteUrl) (raw : Value)
    (path : JsString) : Prop where
  links : ∃ hrefs, itemLinks raw = some (path, hrefs) ∧ hrefs ≠ [] ∧
    ∀ href ∈ hrefs, requireHttpsUrl web href = .ok (urlOf path)
  origin : (urlOf path).origin = url.origin

theorem itemLinks_none {raw : Value} (h : artifactPath raw = none) : itemLinks raw = none := by
  cases raw with
  | object item =>
    cases hpath : prop item "artifact_path" with
    | string path => simp [artifactPath, hpath, asStringOrNull] at h
    | _ => simp only [itemLinks, hpath]
  | _ => rfl

theorem collectUrls_ok (items : List Value) (paths : List JsString)
    (hlinked : ∀ raw ∈ items, ∀ path, artifactPath raw = some path →
      LinkedItem web url urlOf raw path) :
    collectUrls web url items (urlEntries urlOf paths) =
      .ok (urlEntries urlOf (uniquePaths items paths)) := by
  induction items generalizing paths with
  | nil => rfl
  | cons raw items ih =>
    have hrest := fun raw' hmem => hlinked raw' (List.mem_cons_of_mem raw hmem)
    cases hraw : artifactPath raw with
    | none =>
      rw [collectUrls, itemLinks_none hraw, uniquePaths_cons_none hraw]
      exact ih paths hrest
    | some path =>
      obtain ⟨⟨hrefs, hitem, hne, hhrefs⟩, horigin⟩ := hlinked raw List.mem_cons_self path hraw
      rw [collectUrls, hitem, uniquePaths_cons_some hraw]
      simp only [collectLinks_ok paths hne hhrefs horigin, bind, Except.bind]
      exact ih (addPath paths path) hrest

/-- The remote loop collects what the map has for the paths. -/
theorem fetchUrls_returns (paths : List JsString) (aggregateBytes : Nat)
    (artifacts : List (JsString × Artifact))
    (hserves : ∀ path ∈ paths, UrlServes web options (urlOf path) (files path) ∧
      ((files path).getD []).length ≤ maxArtifactBytes)
    (htotal : aggregateBytes + totalSize files paths ≤ maxTotalArtifactBytes) :
    (fetchUrls web options.fetchImpl (options.effectiveLookup web) (urlEntries urlOf paths)
      aggregateBytes artifacts).Returns (· = artifacts ++ servedArtifacts files paths) := by
  induction paths generalizing aggregateBytes artifacts with
  | nil => exact Program.Returns.pure (by simp [servedArtifacts])
  | cons path paths ih =>
    obtain ⟨hpath, hfits⟩ := hserves path List.mem_cons_self
    have hrest := fun other hmem => hserves other (List.mem_cons_of_mem path hmem)
    simp only [totalSize, List.map_cons, List.sum_cons] at htotal
    simp only [urlEntries, List.map_cons, fetchUrls]
    apply Program.Returns.bind (fetchBoundedResource_returns hpath hfits)
    rintro ⟨status, ok, bytes⟩ ⟨hbytes, hok, -⟩
    dsimp only at hbytes hok
    subst hbytes hok
    cases hcontent : files path with
    | none =>
      have hlater := ih aggregateBytes artifacts hrest (by unfold totalSize; omega)
      simpa [servedArtifacts, hcontent, urlEntries] using hlater
    | some content =>
      simp only [hcontent, Option.getD_some] at htotal
      have hlater := ih (aggregateBytes + content.length)
        (artifacts ++ [(path, .bytes content)]) hrest (by unfold totalSize; omega)
      simp only [Option.isSome_some]
      rw [if_neg (by omega)]
      simpa [servedArtifacts, hcontent, urlEntries] using hlater

theorem mem_uniquePaths {items : List Value} {paths : List JsString} {path : JsString}
    (h : path ∈ uniquePaths items paths) :
    path ∈ paths ∨ ∃ raw ∈ items, artifactPath raw = some path := by
  induction items generalizing paths with
  | nil => exact .inl h
  | cons raw items ih =>
    cases hraw : artifactPath raw with
    | none =>
      rw [uniquePaths_cons_none hraw] at h
      refine (ih h).imp_right fun ⟨other, hmem, hother⟩ => ?_
      exact ⟨other, List.mem_cons_of_mem raw hmem, hother⟩
    | some added =>
      rw [uniquePaths_cons_some hraw] at h
      rcases ih h with hfirst | ⟨other, hmem, hother⟩
      · unfold addPath at hfirst
        split at hfirst
        · exact .inl hfirst
        · rcases List.mem_append.mp hfirst with hold | hnew
          · exact .inl hold
          · rw [List.mem_singleton.mp hnew]
            exact .inr ⟨raw, List.mem_cons_self, hraw⟩
      · exact .inr ⟨other, List.mem_cons_of_mem raw hmem, hother⟩

end Fetching
section Agreement
variable {web : Web} {fs : FileSystem} {options : UrlVerificationOptions}
  {registryPath registryUrl : JsString} {text : List UInt8}
  {files : JsString → Option (List UInt8)} {urlOf : JsString → RemoteUrl} {url : RemoteUrl}
  {base : List JsString}

def itemsOf (registry : Value) : List Value := (registryItems registry).getD []

/-- The items of a registry text, where it parses. -/
def textItems (web : Web) (text : List UInt8) : List Value :=
  match parseJsonStrict (web.utf8Decode text) with
  | .ok registry => itemsOf registry
  | .error _ => []

/-- An item with an artifact path whose file both modes are served alike. -/
structure ServedItem (web : Web) (fs : FileSystem) (options : UrlVerificationOptions)
    (files : JsString → Option (List UInt8)) (urlOf : JsString → RemoteUrl) (url : RemoteUrl)
    (base : List JsString) (raw : Value) (path : JsString) : Prop where
  stored : LocalPath fs files base path
  linked : LinkedItem web url urlOf raw path
  served : UrlServes web options (urlOf path) (files path)

/-- The file system and the server have the same registry text and the same artifacts. -/
structure ServedAlike (web : Web) (fs : FileSystem) (options : UrlVerificationOptions)
    (registryPath registryUrl : JsString) (text : List UInt8)
    (files : JsString → Option (List UInt8)) (urlOf : JsString → RemoteUrl) (url : RemoteUrl)
    (base : List JsString) : Prop where
  httpsUrl : requireHttpsUrl web registryUrl = .ok url
  resolver : (options.fetchImpl.isSome && options.dnsLookup.isNone) = false
  fits : text.length ≤ maxRegistryBytes
  file : RegistryFile fs (resolvePath fs.cwd registryPath) text
  served : UrlServes web options url (some text)
  directory : ∀ step, fs.realpath step (resolvePath fs.cwd registryPath).dropLast = .ok base
  items : ∀ raw ∈ textItems web text, ∀ path, artifactPath raw = some path →
    ServedItem web fs options files urlOf url base raw path
  total : totalSize files (uniquePaths (textItems web text) []) ≤ maxTotalArtifactBytes

/-- What a registry text comes to before its artifacts are asked for. -/
def readText (web : Web) (text : List UInt8) : Except (String × JsString) Value :=
  match parseJsonStrict (web.utf8Decode text) with
  | .error error => .error (strictJsonCode error, strictJsonMessage error)
  | .ok registry => match validateRegistryResourceBounds registry with
    | .error (code, message) => .error (code, js message)
    | .ok () => .ok registry

/-- The artifacts that both modes collect. -/
abbrev collected (files : JsString → Option (List UInt8)) (registry : Value) :
    List (JsString × Artifact) :=
  servedArtifacts files (uniquePaths (itemsOf registry) [])

theorem textItems_of_readText {registry : Value} (h : readText web text = .ok registry) :
    textItems web text = itemsOf registry := by
  unfold readText at h
  unfold textItems
  cases hparse : parseJsonStrict (web.utf8Decode text) with
  | error error => simp [hparse] at h
  | ok parsed =>
    simp only [hparse] at h ⊢
    cases hbounds : validateRegistryResourceBounds parsed with
    | error e => simp [hbounds] at h
    | ok =>
      simp only [hbounds, Except.ok.injEq] at h
      rw [h]

variable (h : ServedAlike web fs options registryPath registryUrl text files urlOf url base)
include h

theorem loadArtifacts_returns {registry : Value} (hregistry : readText web text = .ok registry) :
    (loadArtifacts fs registry (resolvePath fs.cwd registryPath).dropLast).Returns
      (· = collected files registry) := by
  have hitems := textItems_of_readText hregistry
  unfold loadArtifacts
  cases hlist : registryItems registry with
  | none =>
    refine Program.Returns.pure ?_
    simp [collected, itemsOf, hlist, uniquePaths, servedArtifacts]
  | some items =>
    have heq : itemsOf registry = items := by simp [itemsOf, hlist]
    rw [heq] at hitems
    apply Program.Returns.bind (Q := (· = base))
    · exact call_returns fun step => ⟨base, h.directory step, rfl⟩
    rintro base rfl
    rw [collected, heq]
    have hloaded := loadItems_returns items [] (fun raw hmem path hpath =>
      (h.items raw (hitems ▸ hmem) path hpath).stored) (hitems ▸ h.total)
    simpa [totalSize, servedArtifacts] using hloaded

theorem fetchArtifacts_returns {registry : Value} (hregistry : readText web text = .ok registry) :
    (fetchArtifacts web registry url options.fetchImpl (options.effectiveLookup web)).Returns
      (· = collected files registry) := by
  have hitems := textItems_of_readText hregistry
  unfold fetchArtifacts
  cases hlist : registryItems registry with
  | none =>
    refine Program.Returns.pure ?_
    simp [collected, itemsOf, hlist, uniquePaths, servedArtifacts]
  | some items =>
    have heq : itemsOf registry = items := by simp [itemsOf, hlist]
    rw [heq] at hitems
    have hserved := fun raw hmem path hpath => h.items raw (hitems ▸ hmem) path hpath
    have hcollected : collectUrls web url items [] = .ok (urlEntries urlOf (uniquePaths items [])) :=
      collectUrls_ok items [] fun raw hmem path hpath => (hserved raw hmem path hpath).linked
    apply Program.Returns.bind (Program.Returns.lift hcollected rfl)
    rintro _ rfl
    rw [collected, heq]
    have hfetched := fetchUrls_returns (uniquePaths items []) 0 []
      (fun path hpath => by
        obtain ⟨raw, hmem, hraw⟩ := (mem_uniquePaths hpath).resolve_left List.not_mem_nil
        have hitem := hserved raw hmem path hraw
        exact ⟨hitem.served, hitem.stored.fits⟩)
      (by simpa using hitems ▸ h.total)
    simpa using hfetched

/-- The local mode, by the text and the artifacts. -/
theorem verifyLocal_returns :
    (verifyLocal web.toRuntime fs registryPath options.now).Returns fun result =>
      match readText web text with
      | .error (code, message) => result = modeFailure .local .invalid code message
      | .ok registry =>
        match verifyProofRegistry web.toRuntime registry (collected files registry)
          (pinnedTime options.now) with
        | .ok verified => result = withMode verified .local
        | .error (.typeError message) =>
          result = modeFailure .local .unavailable "local_read_failed" (js message) := by
  have hraw := readRegistry_returns h.file h.fits
  cases hparse : parseJsonStrict (web.utf8Decode text) with
  | error error =>
    simp only [readText, hparse]
    apply Program.Returns.recovered (T := (· = .strictJson error))
    · refine Program.Raises.later hraw fun raw heq => ?_
      subst heq
      exact Program.Raises.first (Program.Raises.lift (by rw [hparse]; rfl) rfl)
    · rintro _ rfl
      exact Program.Returns.pure rfl
  | ok registry =>
    cases hbounds : validateRegistryResourceBounds registry with
    | error bound =>
      obtain ⟨code, message⟩ := bound
      simp only [readText, hparse, hbounds]
      apply Program.Returns.recovered (T := (· = .input .invalid code (js message)))
      · refine Program.Raises.later hraw fun raw heq => ?_
        subst heq
        refine Program.Raises.later (Program.Returns.lift (by rw [hparse]; rfl) rfl)
          fun parsed hparsed => ?_
        subst hparsed
        exact Program.Raises.first (Program.Raises.lift (by rw [hbounds]; rfl) rfl)
      · rintro _ rfl
        exact Program.Returns.pure rfl
    | ok =>
      have hregistry : readText web text = .ok registry := by simp only [readText, hparse, hbounds]
      have hloaded := loadArtifacts_returns h hregistry
      rw [hregistry]
      dsimp only
      cases hverify : verifyProofRegistry web.toRuntime registry (collected files registry)
        (pinnedTime options.now) with
      | ok verified =>
        apply Program.Returns.attempt
        refine Program.Returns.bind hraw fun raw heq => ?_
        subst heq
        refine Program.Returns.bind (Program.Returns.lift (by rw [hparse]; rfl) rfl)
          fun parsed hparsed => ?_
        subst hparsed
        refine Program.Returns.bind (Program.Returns.lift (by rw [hbounds]; rfl) rfl) fun _ _ => ?_
        refine Program.Returns.bind hloaded fun artifacts hartifacts => ?_
        subst hartifacts
        refine Program.Returns.bind (Program.Returns.lift (by rw [hverify]; rfl) rfl)
          fun result hresult => ?_
        subst hresult
        exact Program.Returns.pure rfl
      | error thrown =>
        obtain ⟨message⟩ := thrown
        apply Program.Returns.recovered (T := (· = .error (js message)))
        · refine Program.Raises.later hraw fun raw heq => ?_
          subst heq
          refine Program.Raises.later (Program.Returns.lift (by rw [hparse]; rfl) rfl)
            fun parsed hparsed => ?_
          subst hparsed
          refine Program.Raises.later (Program.Returns.lift (by rw [hbounds]; rfl) rfl)
            fun _ _ => ?_
          refine Program.Raises.later hloaded fun artifacts hartifacts => ?_
          subst hartifacts
          exact Program.Raises.first (Program.Raises.lift (by rw [hverify]; rfl) rfl)
        · rintro _ rfl
          exact Program.Returns.pure rfl

theorem fetchAndVerify_returns {result : ModeResult → Prop}
    (hresult : (verifyRemoteRegistry web options url text).Returns result) :
    (fetchAndVerify web options url).Returns result := by
  refine Program.Returns.bind (fetchBoundedResource_returns h.served h.fits) ?_
  rintro ⟨status, ok, bytes⟩ ⟨hbytes, hok, hstatus⟩
  dsimp only at hbytes hok hstatus
  subst hbytes hok
  dsimp only
  rw [if_neg (hstatus rfl)]
  exact hresult

theorem fetchAndVerify_raises {thrown : Thrown → Prop}
    (hthrown : (verifyRemoteRegistry web options url text).Raises thrown) :
    (fetchAndVerify web options url).Raises thrown := by
  refine Program.Raises.later (fetchBoundedResource_returns h.served h.fits) ?_
  rintro ⟨status, ok, bytes⟩ ⟨hbytes, hok, hstatus⟩
  dsimp only at hbytes hok hstatus
  subst hbytes hok
  dsimp only
  rw [if_neg (hstatus rfl)]
  exact hthrown

theorem verifyUrl_eq :
    verifyUrl web registryUrl options = (fetchAndVerify web options url).attempt fun thrown =>
      pure (remoteFailure options.mode thrown) := by
  simp only [verifyUrl, h.httpsUrl, h.resolver, Bool.false_eq_true, if_false]

/-- The URL mode, by the text and the artifacts. -/
theorem verifyUrl_returns :
    (verifyUrl web registryUrl options).Returns fun result =>
      match readText web text with
      | .error (code, message) => result = modeFailure options.mode .invalid code message
      | .ok registry =>
        match verifyProofRegistry web.toRuntime registry [] (pinnedTime options.now) with
        | .error (.typeError message) =>
          result = modeFailure options.mode .unavailable "registry_fetch_failed" (js message)
        | .ok structural =>
          if structural.status = .invalid then result = withMode structural options.mode
          else ∃ verified, verifyProofRegistry web.toRuntime registry (collected files registry)
            (pinnedTime options.now) = .ok verified ∧ result = withMode verified options.mode := by
  rw [verifyUrl_eq h]
  cases hparse : parseJsonStrict (web.utf8Decode text) with
  | error error =>
    simp only [readText, hparse]
    apply Program.Returns.recovered (T := (· = .strictJson error))
    · apply fetchAndVerify_raises h
      exact Program.Raises.first (Program.Raises.lift (by rw [hparse]; rfl) rfl)
    · rintro _ rfl
      exact Program.Returns.pure rfl
  | ok registry =>
    cases hbounds : validateRegistryResourceBounds registry with
    | error bound =>
      obtain ⟨code, message⟩ := bound
      simp only [readText, hparse, hbounds]
      apply Program.Returns.recovered (T := (· = .remote .invalid code (js message)))
      · apply fetchAndVerify_raises h
        refine Program.Raises.later (Program.Returns.lift (by rw [hparse]; rfl) rfl)
          fun parsed hparsed => ?_
        subst hparsed
        exact Program.Raises.first (Program.Raises.lift (by rw [hbounds]; rfl) rfl)
      · rintro _ rfl
        exact Program.Returns.pure rfl
    | ok =>
      have hregistry : readText web text = .ok registry := by simp only [readText, hparse, hbounds]
      rw [hregistry]
      dsimp only
      cases hstructural : verifyProofRegistry web.toRuntime registry [] (pinnedTime options.now) with
      | error thrown =>
        obtain ⟨message⟩ := thrown
        apply Program.Returns.recovered (T := (· = Thrown.error (js message)))
        · apply fetchAndVerify_raises h
          refine Program.Raises.later (Program.Returns.lift (by rw [hparse]; rfl) rfl)
            fun parsed hparsed => ?_
          subst hparsed
          refine Program.Raises.later (Program.Returns.lift (by rw [hbounds]; rfl) rfl)
            fun _ _ => ?_
          exact Program.Raises.first (Program.Raises.lift (by rw [hstructural]; rfl) rfl)
        · rintro _ rfl
          exact Program.Returns.pure rfl
      | ok structural =>
        apply Program.Returns.attempt
        apply fetchAndVerify_returns h
        refine Program.Returns.bind (Program.Returns.lift (by rw [hparse]; rfl) rfl)
          fun parsed hparsed => ?_
        subst hparsed
        refine Program.Returns.bind (Program.Returns.lift (by rw [hbounds]; rfl) rfl) fun _ _ => ?_
        refine Program.Returns.bind (Program.Returns.lift (by rw [hstructural]; rfl) rfl)
          fun early hearly => ?_
        subst hearly
        by_cases hinvalid : structural.status = .invalid
        · simp only [hinvalid, if_true]
          exact Program.Returns.pure rfl
        · simp only [hinvalid, if_false]
          refine Program.Returns.bind (fetchArtifacts_returns h hregistry) fun artifacts hartifacts => ?_
          subst hartifacts
          obtain ⟨verified, hverified, -⟩ :=
            verifyProofRegistry_without (collected files registry) hstructural
          refine Program.Returns.bind (Program.Returns.lift (by rw [hverified]; rfl) rfl)
            fun result hresult => ?_
          subst hresult
          exact Program.Returns.pure ⟨_, hverified, rfl⟩

omit h in
theorem verifyProofRegistry_exitCode {rt : Runtime} {registry : Value}
    {artifacts : List (JsString × Artifact)} {now : Option JsString}
    {result : RegistryVerificationResult}
    (hresult : verifyProofRegistry rt registry artifacts now = .ok result) :
    result.exitCode = exitCodeFor result.status := by
  cases htop : checkTopLevel rt registry now with
  | error rejected =>
    simp only [verifyProofRegistry, htop, Except.ok.injEq] at hresult
    subst hresult
    simp only [checkTopLevel] at htop
    repeat' first
      | (cases htop; rfl)
      | cases htop
      | split at htop
  | ok top =>
    simp only [verifyProofRegistry, htop, Contract.except_bind_ok, pure, Except.pure,
      Except.ok.injEq] at hresult
    obtain ⟨results, -, rfl⟩ := hresult
    rfl

end Agreement

section Verdicts

/-- The overall status, the exit code and the statuses of the items are the same. -/
structure SameVerdict (a b : ModeResult) : Prop where
  status : a.status = b.status
  exitCode : a.exitCode = b.exitCode
  items : a.items.map (·.status) = b.items.map (·.status)

/-- The URL mode stopped at its check without artifacts, and no artifact map changes the verdict. -/
structure StoppedEarly (web : Web) (text : List UInt8) (options : UrlVerificationOptions)
    (offline remote : ModeResult) : Prop where
  early : ∃ registry structural, readText web text = .ok registry ∧
    verifyProofRegistry web.toRuntime registry [] (pinnedTime options.now) = .ok structural ∧
    remote = withMode structural options.mode ∧
    ∀ artifacts, ∃ result,
      verifyProofRegistry web.toRuntime registry artifacts (pinnedTime options.now) = .ok result ∧
        result.status = .invalid
  invalid : offline.status = .invalid ∧ remote.status = .invalid
  exitCode : offline.exitCode = remote.exitCode

/-- Both modes end with the same verdict, unless the URL mode stopped early; and in no registry
do artifacts turn an invalid item around. -/
theorem modes_agree {web : Web} {fs : FileSystem} {options : UrlVerificationOptions}
    {registryPath registryUrl : JsString} {text : List UInt8}
    {files : JsString → Option (List UInt8)} {urlOf : JsString → RemoteUrl} {url : RemoteUrl}
    {base : List JsString}
    (h : ServedAlike web fs options registryPath registryUrl text files urlOf url base)
    (step : Nat) (session : Session) :
    (∃ offline remote,
      (verifyLocal web.toRuntime fs registryPath options.now step).1 = .ok offline ∧
      (verifyUrl web registryUrl options session).1 = .ok remote ∧
      (SameVerdict offline remote ∨ StoppedEarly web text options offline remote)) ∧
    ∀ rt registry now without,
      verifyProofRegistry rt registry [] now = .ok without → ∀ artifacts, ∃ result,
        verifyProofRegistry rt registry artifacts now = .ok result ∧
          List.Forall₂ KeepsInvalid without.items result.items := by
  refine ⟨?_, fun rt registry now without hwithout artifacts => ?_⟩
  · obtain ⟨offline, hoffline, hverdict⟩ := (verifyLocal_returns h).fst step
    obtain ⟨remote, hremote, hverdict'⟩ := (verifyUrl_returns h).fst session
    refine ⟨offline, remote, hoffline, hremote, ?_⟩
    cases hregistry : readText web text with
    | error failure =>
      obtain ⟨code, message⟩ := failure
      simp only [hregistry] at hverdict hverdict'
      subst hverdict hverdict'
      exact .inl ⟨rfl, rfl, rfl⟩
    | ok registry =>
      simp only [hregistry] at hverdict hverdict'
      cases hstructural : verifyProofRegistry web.toRuntime registry [] (pinnedTime options.now) with
      | error thrown =>
        obtain ⟨message⟩ := thrown
        obtain ⟨⟨other⟩, hother⟩ :=
          @verifyProofRegistry_throws _ (collected files registry) _ _ _ hstructural
        simp only [hstructural, hother] at hverdict hverdict'
        subst hverdict hverdict'
        exact .inl ⟨rfl, rfl, rfl⟩
      | ok structural =>
        obtain ⟨verified, hverified, -, hkeeps⟩ :=
          verifyProofRegistry_without (collected files registry) hstructural
        simp only [hstructural, hverified] at hverdict hverdict'
        subst hverdict
        by_cases hinvalid : structural.status = .invalid
        · rw [if_pos hinvalid] at hverdict'
          subst hverdict'
          refine .inr ⟨⟨registry, structural, hregistry, hstructural, rfl, fun artifacts => ?_⟩,
            ⟨hkeeps hinvalid, hinvalid⟩, ?_⟩
          · obtain ⟨result, hresult, -, hresultInvalid⟩ :=
              verifyProofRegistry_without artifacts hstructural
            exact ⟨result, hresult, hresultInvalid hinvalid⟩
          · simp only [withMode]
            rw [verifyProofRegistry_exitCode hverified, verifyProofRegistry_exitCode hstructural,
              hkeeps hinvalid, hinvalid]
        · rw [if_neg hinvalid] at hverdict'
          obtain ⟨result, hresult, rfl⟩ := hverdict'
          obtain rfl := Except.ok.inj hresult
          exact .inl ⟨rfl, rfl, rfl⟩
  · obtain ⟨result, hresult, hkeeps, -⟩ := verifyProofRegistry_without artifacts hwithout
    exact ⟨result, hresult, hkeeps⟩

end Verdicts
section Sample

deriving instance DecidableEq for Url, RemoteUrl

/-- Two items: the artifact of the first is there, the one of the second is missing. -/
def sampleText : List UInt8 :=
  (js ("\x7b\"items\":[\x7b\"artifact_path\":\"a\",\"links\":[\x7b\"kind\":\"artifact\"," ++
    "\"href\":\"a\"\x7d]\x7d,\x7b\"artifact_path\":\"b\",\"links\":[\x7b\"kind\":\"download\"," ++
    "\"href\":\"b\"\x7d]\x7d]\x7d")).map (·.toUInt8)

def sampleFiles (path : JsString) : Option (List UInt8) := if path = [97] then some [1, 2] else none

/-- The URL with this text, on the one host there is. -/
def sampleUrl (text : JsString) : RemoteUrl where
  protocol := js "https:"
  username := []
  password := []
  hostname := [110]
  origin := [110]
  href := text
  bareHref := text
  search := []
  hash := []

/-- Serves the registry, and the file in two chunks. -/
def sampleWeb : Web := { midnightRuntime with
  parseUrl := fun text => some (sampleUrl text).toUrl
  parseRemoteUrl := fun text => some (sampleUrl text)
  parse_agrees := fun _ => rfl
  toLowerCase := id
  stringOf := fun _ => []
  jsonStringify := fun _ => .error .notAnError
  dateNow := fun _ => 0
  systemDnsLookup := fun _ _ => .ok (.array [.string (js "1.1.1.1")])
  httpsRequest := fun _ url _ _ => .ok <|
    if url.href = [114] then ⟨200, none, [.chunk sampleText]⟩
    else if url.href = [97] then ⟨200, some [50], [.chunk [1], .nothing, .chunk [2]]⟩
    else ⟨404, none, []⟩ }

def sampleContent (handle : Nat) : List UInt8 := if handle = 0 then sampleText else [1, 2]

/-- The same two files, in the root directory. -/
def sampleFileSystem : FileSystem where
  cwd := []
  realpath := fun _ path => if path = [[98]] then .error ⟨some "ENOENT", []⟩ else .ok path
  openFile := fun _ path _ => .ok (if path = [[97]] then 1 else 0)
  handleStat := fun _ handle => .ok ⟨true, (sampleContent handle).length, 0, handle⟩
  stat := fun _ path =>
    let handle := if path = [[97]] then 1 else 0
    .ok ⟨true, (sampleContent handle).length, 0, handle⟩
  read := fun _ handle capacity position => .ok (((sampleContent handle).drop position).take capacity)

theorem sample_open (handle : Nat) : OpenFile sampleFileSystem handle
    ⟨true, (sampleContent handle).length, 0, handle⟩ (sampleContent handle) where
  stated := fun _ => rfl
  regular := rfl
  size := rfl
  reads := fun _ capacity position hcapacity => ⟨_, rfl, List.take_prefix _ _, fun hposition => by
    have hlength : 0 < (((sampleContent handle).drop position).take capacity).length := by
      rw [List.length_take, List.length_drop]
      omega
    exact List.ne_nil_of_length_pos hlength⟩

theorem sample_items : (textItems sampleWeb sampleText).all (fun raw =>
    match artifactPath raw, itemLinks raw with
    | none, _ => true
    | some path, some (linked, hrefs) =>
      (path == [97] || path == [98]) && linked == path && hrefs == [path]
    | some _, none => false) = true ∧
    totalSize sampleFiles (uniquePaths (textItems sampleWeb sampleText) []) ≤ 2 ∧
    sampleText.length ≤ maxRegistryBytes := by
  decide +kernel

theorem sample_hosts : (assertSafeHostname sampleWeb [110]).toBool = true ∧
    (validateAnswer sampleWeb (.array [.string (js "1.1.1.1")])).toBool = true := by
  decide +kernel

theorem sample_requireHttpsUrl {text : JsString} (h : hasExplicitUserInfo text = false) :
    requireHttpsUrl sampleWeb text = .ok (sampleUrl text) := by
  have hhost : assertSafeHostname sampleWeb [110] = .ok () := by
    have hbool := sample_hosts.1
    cases hresult : assertSafeHostname sampleWeb [110] with
    | error thrown => simp [hresult, Except.toBool] at hbool
    | ok => rfl
  simp [requireHttpsUrl, sampleWeb, sampleUrl, h] at hhost ⊢
  simp [hhost, bind, Except.bind, pure, Except.pure]

theorem sample_serves {text : JsString} {content : Option (List UInt8)}
    (h : ∀ address, ∃ response, exchange sampleWeb none 0 (sampleUrl text) address = .ok response ∧
      isRedirect sampleWeb response (sampleUrl text) = false ∧ Reply response content) :
    UrlServes sampleWeb {} (sampleUrl text) content where
  resolves := by
    refine .inr ⟨sampleWeb.systemDnsLookup, rfl, fun step => ?_⟩
    have hbool := sample_hosts.2
    cases hresult : validateAnswer sampleWeb (.array [.string (js "1.1.1.1")]) with
    | error thrown => simp [hresult, Except.toBool] at hbool
    | ok addresses => exact ⟨_, addresses, rfl, hresult⟩
  answers := fun _ address => h address

theorem sample_served : ServedAlike sampleWeb sampleFileSystem {} [114] [114] sampleText sampleFiles
    sampleUrl (sampleUrl [114]) [] where
  httpsUrl := sample_requireHttpsUrl (by decide)
  resolver := rfl
  fits := sample_items.2.2
  file := fun _ => ⟨0, _, rfl, sample_open 0⟩
  served := sample_serves fun _ => ⟨_, rfl, rfl, {
    ok := rfl
    length := fun _ h => by cases h
    body := .inr ⟨[.chunk sampleText], rfl, fun _ => by simp, by simp [receivedChunks]⟩ }⟩
  directory := fun _ => rfl
  total := sample_items.2.1.trans (by decide)
  items := by
    intro raw hmem path hpath
    have hraw := List.all_eq_true.mp sample_items.1 raw hmem
    cases hlinks : itemLinks raw with
    | none => simp [hpath, hlinks] at hraw
    | some linked =>
      obtain ⟨other, hrefs⟩ := linked
      simp only [hpath, hlinks, Bool.and_eq_true, Bool.or_eq_true, beq_iff_eq] at hraw
      obtain ⟨⟨hknown, rfl⟩, rfl⟩ := hraw
      rcases hknown with rfl | rfl
      · exact {
          stored := {
            safe := by decide
            file := ⟨[[97]], _, by decide, fun _ => ⟨rfl, rfl, rfl, 1, rfl, sample_open 1⟩⟩
            fits := by decide }
          linked := ⟨⟨[[97]], hlinks, List.cons_ne_nil _ _, by
            simpa using sample_requireHttpsUrl (by decide)⟩, rfl⟩
          served := sample_serves fun _ => ⟨_, rfl, rfl, {
            ok := rfl
            length := fun length h => by
              rw [← Option.some.inj h]
              decide
            body := .inr ⟨[.chunk [1], .nothing, .chunk [2]], rfl, fun _ => by simp, rfl⟩ }⟩ }
      · exact {
          stored := {
            safe := by decide
            file := fun _ => ⟨_, rfl, by decide⟩
            fits := by decide }
          linked := ⟨⟨[[98]], hlinks, List.cons_ne_nil _ _, by
            simpa using sample_requireHttpsUrl (by decide)⟩, rfl⟩
          served := sample_serves fun _ => ⟨_, rfl, rfl, rfl⟩ }

/-- A registry with one artifact there and one missing. -/
theorem modes_agree_sample :
    (∃ offline remote,
      (verifyLocal sampleWeb.toRuntime sampleFileSystem [114] none 0).1 = .ok offline ∧
      (verifyUrl sampleWeb [114] {} ⟨0, []⟩).1 = .ok remote ∧
      (SameVerdict offline remote ∨ StoppedEarly sampleWeb sampleText {} offline remote)) ∧
    ∀ rt registry now without,
      verifyProofRegistry rt registry [] now = .ok without → ∀ artifacts, ∃ result,
        verifyProofRegistry rt registry artifacts now = .ok result ∧
          List.Forall₂ KeepsInvalid without.items result.items :=
  modes_agree sample_served 0 ⟨0, []⟩

end Sample
end Concordia.Verify
