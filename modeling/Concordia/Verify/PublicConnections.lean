import Concordia.Verify.CasperLive
import Concordia.Verify.RegistryTotality
import Concordia.Verify.UrlMode

/-! Where the connections of the remote modes go, and what is used of the responses. -/
namespace Concordia.Verify
open Concordia.Js Concordia.Lib.Session Concordia.Lib.Session.Program

section Spellings

def openBracket : UInt16 := 0x5b

theorem splitOn_cons {sep u : UInt16} (hu : u ≠ sep) (text : JsString) :
    ∃ part rest, (u :: text).splitOn sep = (u :: part) :: rest := by
  obtain ⟨part, rest, heq⟩ := List.exists_cons_of_ne_nil (List.splitOn_ne_nil sep text)
  refine ⟨part, rest, ?_⟩
  rw [List.splitOn_cons_eq_if_modifyHead, if_neg (by simpa using hu), heq]
  rfl

theorem parseQuad_bracket (text : JsString) : parseQuad (openBracket :: text) = none := by
  obtain ⟨part, rest, heq⟩ := @splitOn_cons period openBracket (by decide) text
  have hoctet : octet (openBracket :: part) = none := by
    simp [octet, isCanonicalDecimal, isDigit, openBracket]
  unfold parseQuad
  rw [heq]
  split
  · rename_i a b c d hparts
    obtain ⟨rfl, -⟩ := List.cons.inj hparts
    simp [hoctet]
  · rfl

theorem hextet_bracket (text : JsString) : hextet (openBracket :: text) = none := by
  have hletter : hexLetter openBracket = none := by decide
  unfold hextet
  split
  · simp [hletter]
  · rfl

theorem parseGroups_bracket (tail : Bool) (part : JsString) (rest : List JsString) :
    parseGroups tail ((openBracket :: part) :: rest) = none := by
  cases rest with
  | nil => simp [parseGroups, hextet_bracket, parseQuad_bracket]
  | cons next rest => simp [parseGroups, hextet_bracket]

theorem parseEight_bracket (text : JsString) : parseEight (openBracket :: text) = none := by
  have hne : openBracket ≠ colon := by decide
  unfold parseEight
  rw [splitGap, if_neg fun h => hne h.1]
  cases splitGap text with
  | none =>
    obtain ⟨part, rest, heq⟩ := splitOn_cons hne text
    simp [heq, parseGroups_bracket]
  | some gap =>
    obtain ⟨before, after⟩ := gap
    obtain ⟨part, rest, heq⟩ := splitOn_cons hne before
    simp [parts, heq, parseGroups_bracket]

/-- No spelling of an address begins with a bracket. -/
theorem parseAddress_bracket (text : JsString) : parseAddress (openBracket :: text) = none := by
  have htake : (openBracket :: text).takeWhile (· != percent) =
      openBracket :: text.takeWhile (· != percent) := List.takeWhile_cons_of_pos (by decide)
  rw [parseAddress, parseQuad_bracket]
  simp only [parseIPv6, List.span_eq_takeWhile_dropWhile]
  rw [htake, parseEight_bracket, Option.map_none, ite_self]
  rfl

end Spellings

section Hosts
variable {web : Web}

/-- ASCII, but no capital letter and no percent sign. -/
def isPlain (u : UInt16) : Bool := u < 0x80 && !(0x41 ≤ u && u ≤ 0x5a) && u != percent

/-- What the URL parser and `toLowerCase` are documented to do. The host of an `https:` URL is
plain, and what opens with a bracket is an IPv6 address between two. -/
structure Standard (web : Web) : Prop where
  plainHost : ∀ text url, web.parseRemoteUrl text = some url → url.protocol = js "https:" →
    ∀ u ∈ url.hostname, isPlain u = true
  closedHost : ∀ text url, web.parseRemoteUrl text = some url → url.protocol = js "https:" →
    startsWithBracket url.hostname = true → url.hostname.getLast? = some 0x5d
  lowerPlain : ∀ text : JsString, (∀ u ∈ text, isPlain u = true) → web.toLowerCase text = text
  lowerIdempotent : ∀ text, web.toLowerCase (web.toLowerCase text) = web.toLowerCase text
  lowerPeriod : ∀ text, (web.toLowerCase text).getLast? = some period →
    text.getLast? = some period

/-- The host without its brackets. -/
def urlHost (url : RemoteUrl) : JsString :=
  if startsWithBracket url.hostname then unbracketed url.hostname else url.hostname

theorem getLast_of_address {text : JsString} (h : isIP text ≠ 0) (hzone : percent ∉ text) :
    text.getLast? ≠ some period := by
  intro hlast
  obtain ⟨front, rfl⟩ := List.getLast?_eq_some_iff.mp hlast
  obtain ⟨a, heq⟩ := isIP_ne_zero.mp h
  rw [parseAddress_concat fun hmem => hzone (List.mem_append_left _ hmem)] at heq
  cases heq

theorem rdropWhile_period {text : JsString} (h : text.getLast? ≠ some period) :
    text.rdropWhile (· == period) = text := by
  apply List.rdropWhile_eq_self_iff.mpr
  intro hne hlast
  apply h
  rw [List.getLast?_eq_some_getLast hne, beq_iff_eq.mp hlast]

/-- A host that is an address is its own normal form. -/
theorem normalizeHostname_literal (standard : Standard web) {text : JsString} {url : RemoteUrl}
    (hparse : web.parseRemoteUrl text = some url) (hhttps : url.protocol = js "https:")
    (h : isIP (urlHost url) ≠ 0) : normalizeHostname web url.hostname = urlHost url := by
  have hplain : ∀ u ∈ urlHost url, isPlain u = true := by
    intro u hu
    apply standard.plainHost text url hparse hhttps
    unfold urlHost at hu
    split at hu
    · exact List.mem_of_mem_tail (List.mem_of_mem_dropLast hu)
    · exact hu
  have hzone : percent ∉ urlHost url := by
    intro hmem
    have := hplain percent hmem
    simp [isPlain] at this
  have hhost : (if startsWithBracket url.hostname && url.hostname.getLast? == some 0x5d then
      unbracketed url.hostname else url.hostname) = urlHost url := by
    unfold urlHost
    cases hopen : startsWithBracket url.hostname with
    | false => rfl
    | true => simp [standard.closedHost text url hparse hhttps hopen]
  unfold normalizeHostname
  dsimp only
  rw [hhost, rdropWhile_period (getLast_of_address h hzone)]
  exact standard.lowerPlain _ hplain

/-- An answer that is an address once normalized stays so. -/
theorem normalizeHostname_twice (standard : Standard web) {text : JsString}
    (h : isIP (normalizeHostname web text) ≠ 0) :
    normalizeHostname web (normalizeHostname web text) = normalizeHostname web text := by
  obtain ⟨trimmed, hnormal, htrimmed⟩ : ∃ trimmed, normalizeHostname web text =
      web.toLowerCase trimmed ∧ trimmed.getLast? ≠ some period := by
    refine ⟨_, rfl, ?_⟩
    intro hlast
    generalize (if startsWithBracket text && text.getLast? == some 0x5d then unbracketed text
      else text) = inner at hlast
    have hkept := List.rdropWhile_eq_self_iff.mp (List.rdropWhile_idempotent (· == period) inner)
    obtain ⟨front, heq⟩ := List.getLast?_eq_some_iff.mp hlast
    apply hkept (by simp [heq])
    simp [heq]
  rw [hnormal] at h ⊢
  have hopen : startsWithBracket (web.toLowerCase trimmed) = false := by
    by_contra hopen
    obtain ⟨a, hparse⟩ := isIP_ne_zero.mp h
    cases htext : web.toLowerCase trimmed with
    | nil => simp [htext, startsWithBracket] at hopen
    | cons u rest =>
      rw [htext] at hopen hparse
      have hu : u = openBracket := by simpa [startsWithBracket, openBracket] using hopen
      rw [hu, parseAddress_bracket] at hparse
      cases hparse
  have hlast : (web.toLowerCase trimmed).getLast? ≠ some period :=
    fun hlast => htrimmed (standard.lowerPeriod _ hlast)
  simp only [normalizeHostname, hopen, Bool.false_and, Bool.false_eq_true, if_false]
  rw [rdropWhile_period hlast, standard.lowerIdempotent]

end Hosts

section Connections
variable {web : Web} {recorded : List Event → JsString → Value → Prop} {log : List Event}
variable {url : RemoteUrl} {address : JsString}

def PublicAddress (address : JsString) : Prop := ∃ a, parseAddress address = some a ∧ Public a

/-- The last thing on record is this answer for the host. -/
def AnsweredLast (log : List Event) (host : JsString) (answer : Value) : Prop :=
  log.getLast? = some (.lookup host answer)

/-- The answer to the last look-up of the host. -/
def latestAnswer (log : List Event) (host : JsString) : Option Value :=
  log.foldl (fun latest event =>
    match event with
    | .lookup asked answer => if asked = host then some answer else latest
    | .connect _ _ => latest) none

def AnsweredLatest (log : List Event) (host : JsString) (answer : Value) : Prop :=
  latestAnswer log host = some answer

/-- Where the address for a URL comes from: it is the host, or an element of the answer on record
for the host, a list whose addresses are all public. -/
inductive Sourced (web : Web) (recorded : List Event → JsString → Value → Prop) (log : List Event)
    (url : RemoteUrl) : JsString → Prop
  | literal : Sourced web recorded log url (normalizeHostname web url.hostname)
  | answered {texts : List JsString} {text : JsString}
      (hrecorded : recorded log (normalizeHostname web url.hostname) (.array (texts.map Value.string)))
      (hmem : text ∈ texts)
      (hall : ∀ text ∈ texts, isIP (normalizeHostname web text) ≠ 0 →
        PublicAddress (normalizeHostname web text)) :
      Sourced web recorded log url (normalizeHostname web text)

/-- A connection for a URL to an address, opened after what the log says. -/
structure Vouched (web : Web) (recorded : List Event → JsString → Value → Prop) (log : List Event)
    (url : RemoteUrl) (address : JsString) : Prop where
  https : url.protocol = js "https:"
  isPublic : PublicAddress address
  sourced : Sourced web recorded log url address

/-- Every connection of the log is vouched for by what stands before it. -/
def LogVouched (web : Web) (recorded : List Event → JsString → Value → Prop) (log : List Event) :
    Prop :=
  ∀ before url address after, log = before ++ .connect url address :: after →
    Vouched web recorded before url address

theorem LogVouched.nil : LogVouched web recorded [] := by
  intro before url address after h
  simp at h

theorem LogVouched.append {event : Event} (h : LogVouched web recorded log)
    (hevent : ∀ url address, event = .connect url address → Vouched web recorded log url address) :
    LogVouched web recorded (log ++ [event]) := by
  intro before url address after heq
  rcases List.eq_nil_or_concat after with rfl | ⟨after, last, rfl⟩
  · obtain ⟨rfl, hlast⟩ := List.append_inj' heq rfl
    exact hevent url address (List.cons.inj hlast).1
  · rw [List.concat_eq_append, ← List.cons_append, ← List.append_assoc] at heq
    obtain ⟨hlog, -⟩ := List.append_inj' heq rfl
    exact h before url address after hlog

theorem LogVouched.lookup {host : JsString} {answer : Value} (h : LogVouched web recorded log) :
    LogVouched web recorded (log ++ [.lookup host answer]) :=
  h.append fun _ _ heq => by cases heq

theorem LogVouched.connect (h : LogVouched web recorded log)
    (hconnect : Vouched web recorded log url address) :
    LogVouched web recorded (log ++ [.connect url address]) :=
  h.append fun _ _ heq => by
    cases heq
    exact hconnect

theorem latestAnswer_lookup (log : List Event) (asked host : JsString) (answer : Value) :
    latestAnswer (log ++ [.lookup asked answer]) host =
      if asked = host then some answer else latestAnswer log host := by
  simp [latestAnswer]

theorem latestAnswer_connect (log : List Event) (url : RemoteUrl) (address host : JsString) :
    latestAnswer (log ++ [.connect url address]) host = latestAnswer log host := by
  simp [latestAnswer]

/-- A later log with the same answer for the host says as much of an address. -/
theorem Sourced.later {log' : List Event} (h : Sourced web AnsweredLatest log url address)
    (hsame : latestAnswer log' (normalizeHostname web url.hostname) =
      latestAnswer log (normalizeHostname web url.hostname)) :
    Sourced web AnsweredLatest log' url address := by
  cases h with
  | literal => exact .literal
  | answered hrecorded hmem hall =>
    refine .answered ?_ hmem hall
    rw [AnsweredLatest, hsame]
    exact hrecorded

/-- A URL that one of the two filters has let through. -/
structure Checked (web : Web) (url : RemoteUrl) : Prop where
  parsed : ∃ text, web.parseRemoteUrl text = some url
  https : url.protocol = js "https:"
  literal : isIP (normalizeHostname web url.hostname) ≠ 0 →
    PublicAddress (normalizeHostname web url.hostname)

/-- The socket goes where the filters have looked, whichever way Node reads the host. -/
theorem vouched_socket (standard : Standard web) (hurl : Checked web url)
    (hpublic : PublicAddress address) (hsourced : Sourced web recorded log url address) :
    Vouched web recorded log url (socketAddress url address) := by
  obtain ⟨text, hparse⟩ := hurl.parsed
  by_cases hhost : isIP (urlHost url) ≠ 0
  · have hliteral := normalizeHostname_literal standard hparse hurl.https hhost
    have hsocket : socketAddress url address = normalizeHostname web url.hostname := by
      rw [hliteral]
      exact if_pos hhost
    rw [hsocket]
    exact ⟨hurl.https, hurl.literal (hliteral ▸ hhost), .literal⟩
  · have hsocket : socketAddress url address = address := if_neg hhost
    rw [hsocket]
    exact ⟨hurl.https, hpublic, hsourced⟩

theorem lookup_ensures (I : List Event → Prop) (dnsLookup : Nat → JsString → Except Rejection Value)
    (host : JsString) :
    Ensures (fun s => I s.log) (lookup dnsLookup host)
      (fun answer s => ∃ log, s.log = log ++ [.lookup host answer] ∧ I log) (fun _ s => I s.log) := by
  intro s hs
  rw [lookup]
  cases dnsLookup s.step host with
  | error reason => exact hs
  | ok answer => exact ⟨s.log, rfl, hs⟩

theorem connect_ensures {before after : List Event → Prop} (standard : Standard web)
    (hurl : Checked web url) (body : JsString)
    (hbefore : ∀ log, before log → PublicAddress address ∧ Sourced web recorded log url address)
    (hafter : ∀ log socket, before log → Vouched web recorded log url socket →
      after (log ++ [.connect url socket])) :
    Ensures (fun s => before s.log) (connect web body url address) (fun _ s => after s.log)
      (fun _ s => after s.log) := by
  intro s hs
  obtain ⟨hpublic, hsourced⟩ := hbefore s.log hs
  have hvouched := vouched_socket standard hurl hpublic hsourced
  have hnext := hafter s.log (socketAddress url address) hs hvouched
  rw [connect]
  dsimp only
  cases web.httpsRequest s.step url (socketAddress url address) body with
  | error reason => exact hnext
  | ok incoming => exact hnext

end Connections

section UrlMode
variable {web : Web} {url : RemoteUrl}

theorem assertPublicAddress_ok {address : JsString} (h : assertPublicAddress address = .ok ()) :
    PublicAddress address := by
  unfold assertPublicAddress at h
  split at h
  · rename_i hpublic
    exact isPublicAddress_sound hpublic
  · cases h

theorem assertSafeHostname_ok {hostname : JsString}
    (h : assertSafeHostname web hostname = .ok ())
    (hliteral : isIP (normalizeHostname web hostname) ≠ 0) :
    PublicAddress (normalizeHostname web hostname) := by
  unfold assertSafeHostname at h
  dsimp only at h
  split at h
  · cases h
  · exact assertPublicAddress_ok h

theorem requireHttpsUrl_checked {text : JsString} (h : requireHttpsUrl web text = .ok url) :
    Checked web url := by
  unfold requireHttpsUrl at h
  cases hparse : web.parseRemoteUrl text with
  | none => simp [hparse] at h
  | some parsed =>
    simp only [hparse] at h
    split at h
    · cases h
    · rename_i hguard
      cases hsafe : assertSafeHostname web parsed.hostname with
      | error thrown => simp [hsafe, bind, Except.bind] at h
      | ok =>
        simp only [hsafe, bind, Except.bind, pure, Except.pure, Except.ok.injEq] at h
        subst h
        refine ⟨⟨text, hparse⟩, ?_, assertSafeHostname_ok hsafe⟩
        by_contra hprotocol
        exact hguard (.inl hprotocol)

def AllChecked (web : Web) (urls : List (JsString × RemoteUrl)) : Prop :=
  ∀ entry ∈ urls, Checked web entry.2

theorem setUrl_checked {urls : List (JsString × RemoteUrl)} {path : JsString}
    (hurls : AllChecked web urls) (hurl : Checked web url) :
    AllChecked web (setUrl urls path url) := by
  intro entry hmem
  unfold setUrl at hmem
  split at hmem
  · obtain ⟨old, hold, rfl⟩ := List.mem_map.mp hmem
    split
    · exact hurl
    · exact hurls old hold
  · rcases List.mem_append.mp hmem with hold | hnew
    · exact hurls entry hold
    · rw [List.mem_singleton.mp hnew]
      exact hurl

theorem collectLink_checked {registryUrl : RemoteUrl} {path href : JsString}
    {urls urls' : List (JsString × RemoteUrl)} (hurls : AllChecked web urls)
    (h : collectLink web registryUrl path href urls = .ok urls') : AllChecked web urls' := by
  unfold collectLink at h
  split at h
  · cases h
  · cases h
  · rename_i url hlink
    split at h
    · cases h
    · split at h
      · cases h
      · rw [← Except.ok.inj h]
        exact setUrl_checked hurls (requireHttpsUrl_checked hlink)

theorem collectLinks_checked {registryUrl : RemoteUrl} {path : JsString} {hrefs : List JsString}
    {urls urls' : List (JsString × RemoteUrl)} (hurls : AllChecked web urls)
    (h : collectLinks web registryUrl path hrefs urls = .ok urls') : AllChecked web urls' := by
  induction hrefs generalizing urls with
  | nil =>
    rw [← Except.ok.inj h]
    exact hurls
  | cons href hrefs ih =>
    rw [collectLinks] at h
    cases hlink : collectLink web registryUrl path href urls with
    | error thrown => simp [hlink, bind, Except.bind] at h
    | ok next =>
      rw [hlink] at h
      exact ih (collectLink_checked hurls hlink) h

/-- Every URL that the links of a registry name has been checked. -/
theorem collectUrls_checked {registryUrl : RemoteUrl} {items : List Value}
    {urls urls' : List (JsString × RemoteUrl)} (hurls : AllChecked web urls)
    (h : collectUrls web registryUrl items urls = .ok urls') : AllChecked web urls' := by
  induction items generalizing urls with
  | nil =>
    rw [← Except.ok.inj h]
    exact hurls
  | cons raw items ih =>
    rw [collectUrls] at h
    split at h
    · exact ih hurls h
    · rename_i path hrefs hlinks
      cases hcollected : collectLinks web registryUrl path hrefs urls with
      | error thrown => simp [hcollected, bind, Except.bind] at h
      | ok next =>
        rw [hcollected] at h
        exact ih (collectLinks_checked hurls hcollected) h

abbrev UrlVouched (web : Web) (s : Session) : Prop := LogVouched web AnsweredLast s.log

theorem rethrow_ensures {α : Type} {I : Session → Prop} {post : α → Session → Prop}
    (kind : ResourceKind) (code late : String) (thrown : Thrown) :
    Ensures I (rethrow kind code late thrown : Net α) post (fun _ => I) := by
  unfold rethrow
  split
  · exact Ensures.raise fun _ => id
  · exact Ensures.raise fun _ => id
  · exact Ensures.raise fun _ => id

theorem ensureSafeResolvedHost_ensures (hurl : Checked web url) (dnsLookup : Option DnsLookupLike) :
    Ensures (UrlVouched web) (ensureSafeResolvedHost web dnsLookup url)
      (fun addresses s => UrlVouched web s ∧ ∀ address ∈ addresses,
        PublicAddress address ∧ Sourced web AnsweredLast s.log url address)
      (fun _ => UrlVouched web) := by
  unfold ensureSafeResolvedHost
  dsimp only
  split
  · rename_i hliteral
    refine Ensures.pure fun s hs => ⟨hs, fun address hmem => ?_⟩
    rw [List.mem_singleton.mp hmem]
    exact ⟨hurl.literal hliteral, .literal⟩
  · split
    · exact Ensures.pure fun s hs => ⟨hs, fun _ hmem => absurd hmem List.not_mem_nil⟩
    · rename_i dnsLookup
      refine Ensures.bind (lookup_ensures (LogVouched web AnsweredLast) dnsLookup _)
        fun answer => Ensures.lift ?_ ?_
      · rintro addresses hok s ⟨log, hlog, hvouched⟩
        obtain ⟨texts, rfl, -, rfl, hall⟩ := validateAnswer_ok hok
        have hpublic : ∀ text ∈ texts, PublicAddress (normalizeHostname web text) :=
          fun text hmem => isPublicAddress_sound (hall _ (List.mem_map_of_mem hmem))
        refine ⟨?_, ?_⟩
        · rw [UrlVouched, hlog]
          exact hvouched.lookup
        · intro address hmem
          obtain ⟨text, htext, rfl⟩ := List.mem_map.mp hmem
          refine ⟨hpublic text htext, .answered ?_ htext fun text hmem _ => hpublic text hmem⟩
          rw [AnsweredLast, hlog]
          exact List.getLast?_concat
      · rintro thrown - s ⟨log, hlog, hvouched⟩
        rw [UrlVouched, hlog]
        exact hvouched.lookup

theorem pinnedHttpsGet_ensures (standard : Standard web) (hurl : Checked web url)
    (address : JsString) :
    Ensures (fun s => UrlVouched web s ∧
        PublicAddress address ∧ Sourced web AnsweredLast s.log url address)
      (pinnedHttpsGet web url address) (fun _ => UrlVouched web) (fun _ => UrlVouched web) := by
  unfold pinnedHttpsGet
  split
  · exact Ensures.raise fun s hs => hs.1
  · refine Ensures.bind (Q := fun _ => UrlVouched web) ?_ fun incoming => Maintains.lift
    exact @connect_ensures web AnsweredLast url address
      (fun log => LogVouched web AnsweredLast log ∧ PublicAddress address ∧
        Sourced web AnsweredLast log url address) (LogVouched web AnsweredLast)
      standard hurl [] (fun log h => h.2) fun log socket h hvouched => h.1.connect hvouched

theorem acceptResponse_maintains {I : Session → Prop} (response : Response) (kind : ResourceKind)
    (maximumBytes : Nat) : Maintains I (acceptResponse web response url kind maximumBytes) := by
  unfold acceptResponse
  split
  · exact Maintains.raise
  · split
    · exact Maintains.pure
    · exact Maintains.bind (Maintains.attempt Maintains.lift fun thrown => rethrow_ensures _ _ _ _)
        fun bytes => Maintains.pure

/-- A fetch connects once, to an address that the answer of its own look-up vouches for. -/
theorem fetchBoundedResource_maintains (standard : Standard web) (hurl : Checked web url)
    (kind : ResourceKind) (maximumBytes : Nat) (dnsLookup : Option DnsLookupLike) :
    Maintains (UrlVouched web) (fetchBoundedResource web none url kind maximumBytes dnsLookup) := by
  have hresolve : Ensures (UrlVouched web) (resolveHost web none dnsLookup url)
      (fun addresses s => UrlVouched web s ∧ PublicAddress (addresses.headD []) ∧
        Sourced web AnsweredLast s.log url (addresses.headD [])) (fun _ => UrlVouched web) := by
    refine Ensures.bind (ensureSafeResolvedHost_ensures hurl dnsLookup) fun addresses => ?_
    cases addresses with
    | nil => exact Ensures.raise fun s hs => hs.1
    | cons address addresses => exact Ensures.pure fun s hs => ⟨hs.1, hs.2 address List.mem_cons_self⟩
  refine Ensures.bind (Ensures.attempt hresolve fun thrown => rethrow_ensures _ _ _ _) fun addresses => ?_
  refine Ensures.bind (Q := fun _ => UrlVouched web) ?_ fun response => acceptResponse_maintains _ _ _
  exact Ensures.attempt (pinnedHttpsGet_ensures standard hurl _) fun thrown => rethrow_ensures _ _ _ _

theorem fetchUrls_maintains (standard : Standard web) (dnsLookup : Option DnsLookupLike)
    {urls : List (JsString × RemoteUrl)} (hurls : AllChecked web urls) (aggregateBytes : Nat)
    (artifacts : List (JsString × Artifact)) :
    Maintains (UrlVouched web) (fetchUrls web none dnsLookup urls aggregateBytes artifacts) := by
  induction urls generalizing aggregateBytes artifacts with
  | nil => exact Maintains.pure
  | cons entry urls ih =>
    obtain ⟨hentry, hrest⟩ := List.forall_mem_cons.mp hurls
    refine Maintains.bind (fetchBoundedResource_maintains standard hentry _ _ _) fun response => ?_
    split
    · split
      · exact Maintains.raise
      · exact ih hrest _ _
    · exact ih hrest _ _

theorem fetchArtifacts_maintains (standard : Standard web) (registry : Value)
    (registryUrl : RemoteUrl) (dnsLookup : Option DnsLookupLike) :
    Maintains (UrlVouched web) (fetchArtifacts web registry registryUrl none dnsLookup) := by
  unfold fetchArtifacts
  split
  · exact Maintains.pure
  · refine Maintains.lift_bind fun urls hurls => ?_
    exact fetchUrls_maintains standard dnsLookup
      (collectUrls_checked (fun _ hmem => absurd hmem List.not_mem_nil) hurls) _ _

theorem verifyRemoteRegistry_maintains (standard : Standard web)
    (options : UrlVerificationOptions) (bytes : List UInt8) :
    Maintains (UrlVouched web)
      (verifyRemoteRegistry web { options with fetchImpl := none } url bytes) := by
  refine Maintains.bind Maintains.lift fun registry => ?_
  refine Maintains.bind Maintains.lift fun _ => ?_
  refine Maintains.bind Maintains.lift fun structural => ?_
  split
  · exact Maintains.pure
  · refine Maintains.bind (fetchArtifacts_maintains standard registry url _) fun artifacts => ?_
    exact Maintains.bind Maintains.lift fun result => Maintains.pure

theorem fetchAndVerify_maintains (standard : Standard web) (options : UrlVerificationOptions)
    (hurl : Checked web url) :
    Maintains (UrlVouched web) (fetchAndVerify web { options with fetchImpl := none } url) := by
  refine Maintains.bind (fetchBoundedResource_maintains standard hurl _ _ _) fun response => ?_
  split
  · exact Maintains.pure
  · split
    · exact Maintains.pure
    · split
      · exact Maintains.raise
      · exact verifyRemoteRegistry_maintains standard options _

theorem verifyUrl_maintains (standard : Standard web) (registryUrl : JsString)
    (options : UrlVerificationOptions) :
    Maintains (UrlVouched web) (verifyUrl web registryUrl { options with fetchImpl := none }) := by
  unfold verifyUrl
  split
  · exact Maintains.pure
  · exact Maintains.pure
  · exact Maintains.pure
  · rename_i url hurl
    split
    · exact Maintains.pure
    · refine Maintains.attempt ?_ fun thrown => Maintains.pure
      exact fetchAndVerify_maintains standard options (requireHttpsUrl_checked hurl)

end UrlMode

section Live
variable {web : Web}

abbrev LiveVouched (web : Web) (log : List Event) : Prop := LogVouched web AnsweredLatest log

theorem assertPublicEndpoint_ok {address : JsString} (h : assertPublicEndpoint web address = .ok ()) :
    PublicAddress (normalizeHostname web address) := by
  unfold assertPublicEndpoint at h
  split at h
  · rename_i hpublic
    exact isPublicAddress_sound hpublic
  · cases h

theorem requirePublicHttpsEndpoint_checked (standard : Standard web) {text : JsString}
    {endpoint : RemoteUrl} (h : requirePublicHttpsEndpoint web text = .ok endpoint) :
    Checked web endpoint := by
  unfold requirePublicHttpsEndpoint at h
  cases hparse : web.parseRemoteUrl text with
  | none => simp [hparse] at h
  | some parsed =>
    simp only [hparse] at h
    split at h
    · cases h
    · rename_i hguard
      have hhttps : parsed.protocol = js "https:" := by
        by_contra hprotocol
        exact hguard (.inl hprotocol)
      split at h
      · cases h
      · split at h
        · rename_i hliteral
          cases hsafe : assertPublicEndpoint web (normalizeHostname web parsed.hostname) with
          | error thrown => simp [hsafe, bind, Except.bind] at h
          | ok =>
            simp only [hsafe, bind, Except.bind, pure, Except.pure, Except.ok.injEq] at h
            subst h
            refine ⟨⟨text, hparse⟩, hhttps, fun _ => ?_⟩
            rw [← normalizeHostname_twice standard hliteral]
            exact assertPublicEndpoint_ok hsafe
        · rename_i hname
          obtain rfl := Except.ok.inj h
          exact ⟨⟨text, hparse⟩, hhttps, fun hliteral => absurd hliteral hname⟩

theorem requireEndpoints_checked (standard : Standard web) {texts : List JsString}
    {endpoints : List RemoteUrl} (h : requireEndpoints web texts = .ok endpoints) :
    ∀ endpoint ∈ endpoints, Checked web endpoint := by
  induction texts generalizing endpoints with
  | nil =>
    cases h
    exact fun _ hmem => absurd hmem List.not_mem_nil
  | cons text texts ih =>
    rw [requireEndpoints] at h
    cases hfirst : requirePublicHttpsEndpoint web text with
    | error thrown => simp [hfirst, bind, Except.bind] at h
    | ok endpoint =>
      cases hrest : requireEndpoints web texts with
      | error thrown => simp [hfirst, hrest, bind, Except.bind] at h
      | ok rest =>
        simp only [hfirst, hrest, bind, Except.bind, pure, Except.pure, Except.ok.injEq] at h
        subst h
        exact List.forall_mem_cons.mpr
          ⟨requirePublicHttpsEndpoint_checked standard hfirst, ih hrest⟩

theorem validateEndpoints_ok (standard : Standard web) {texts : List JsString}
    {endpoints : List RemoteUrl} (h : validateEndpoints web texts = .ok endpoints) :
    (∀ endpoint ∈ endpoints, Checked web endpoint) ∧
      (endpoints.map fun endpoint => normalizeHostname web endpoint.hostname).Nodup := by
  unfold validateEndpoints at h
  split at h
  · cases h
  · cases hrequired : requireEndpoints web texts with
    | error thrown => simp [hrequired, bind, Except.bind] at h
    | ok required =>
      simp only [hrequired, bind, Except.bind] at h
      split at h
      · cases h
      · split at h
        · cases h
        · rename_i hhosts
          obtain rfl := Except.ok.inj h
          exact ⟨requireEndpoints_checked standard hrequired, not_not.mp hhosts⟩

theorem assertPublicAnswer_ok {answers : List Value} {addresses : List JsString}
    (h : assertPublicAnswer web answers = .ok addresses) :
    answers = addresses.map Value.string ∧ ∀ text ∈ addresses,
      PublicAddress (normalizeHostname web (normalizeHostname web text)) := by
  induction answers generalizing addresses with
  | nil =>
    cases h
    exact ⟨rfl, fun _ hmem => absurd hmem List.not_mem_nil⟩
  | cons answer answers ih =>
    cases answer with
    | string text =>
      rw [assertPublicAnswer] at h
      cases hpublic : assertPublicEndpoint web (normalizeHostname web text) with
      | error thrown => simp [hpublic, bind, Except.bind] at h
      | ok =>
        cases hrest : assertPublicAnswer web answers with
        | error thrown => simp [hpublic, hrest, bind, Except.bind] at h
        | ok rest =>
          obtain ⟨rfl, hall⟩ := ih hrest
          simp only [hpublic, hrest, bind, Except.bind, pure, Except.pure, Except.ok.injEq] at h
          subst h
          exact ⟨rfl, List.forall_mem_cons.mpr ⟨assertPublicEndpoint_ok hpublic, hall⟩⟩
    | _ => cases h

/-- The pinned address is the first of a list of strings that have all passed the filter. -/
theorem pinnedAnswer_ok {answer : Value} {address : JsString}
    (h : pinnedAnswer web answer = .ok address) :
    ∃ texts : List JsString, ∃ text ∈ texts, answer = .array (texts.map Value.string) ∧
      address = normalizeHostname web text ∧ ∀ text ∈ texts,
        PublicAddress (normalizeHostname web (normalizeHostname web text)) := by
  unfold pinnedAnswer at h
  split at h
  · rename_i first rest
    cases hanswer : assertPublicAnswer web (first :: rest) with
    | error thrown => simp [hanswer, bind, Except.bind] at h
    | ok addresses =>
      obtain ⟨hstrings, hall⟩ := assertPublicAnswer_ok hanswer
      simp only [hanswer, bind, Except.bind, pure, Except.pure, Except.ok.injEq] at h
      cases addresses with
      | nil => cases hstrings
      | cons text texts =>
        exact ⟨text :: texts, text, List.mem_cons_self, by rw [hstrings], h.symm, hall⟩
  · cases h

/-- Once it is an address, the pinned text is vouched for. -/
def Backed (web : Web) (log : List Event) (endpoint : RemoteUrl) (address : JsString) : Prop :=
  isIP address ≠ 0 →
    PublicAddress address ∧ Sourced web AnsweredLatest log endpoint address

theorem Backed.later {log log' : List Event} {endpoint : RemoteUrl} {address : JsString}
    (h : Backed web log endpoint address)
    (hsame : latestAnswer log' (normalizeHostname web endpoint.hostname) =
      latestAnswer log (normalizeHostname web endpoint.hostname)) :
    Backed web log' endpoint address :=
  fun haddress => ⟨(h haddress).1, (h haddress).2.later hsame⟩

theorem askTime_maintains (I : List Event → Prop) :
    Ensures (fun s => I s.log) (askTime web) (fun _ s => I s.log) (fun _ s => I s.log) :=
  fun _ hs => hs

theorem lookupFailure_ensures {α : Type} {I : Session → Prop} {post : α → Session → Prop}
    (thrown : Thrown) : Ensures I (lookupFailure thrown : Net α) post (fun _ => I) := by
  unfold lookupFailure
  split
  · exact Ensures.raise fun _ => id
  · exact Ensures.raise fun _ => id
  · exact Ensures.raise fun _ => id

theorem resolvePublicEndpoint_ensures (standard : Standard web) {I : List Event → Prop}
    (dnsLookup : DnsLookupLike) (deadline : Int) {endpoint : RemoteUrl}
    (hendpoint : Checked web endpoint)
    (hI : ∀ log answer, I log →
      I (log ++ [.lookup (normalizeHostname web endpoint.hostname) answer])) :
    Ensures (fun s => I s.log) (resolvePublicEndpoint web dnsLookup deadline endpoint)
      (fun address s => I s.log ∧ Backed web s.log endpoint address) (fun _ s => I s.log) := by
  refine Ensures.bind (askTime_maintains I) fun time => ?_
  split
  · exact Ensures.raise fun _ => id
  · dsimp only
    split
    · rename_i hliteral
      exact Ensures.pure fun s hs => ⟨hs, fun _ => ⟨hendpoint.literal hliteral, .literal⟩⟩
    · refine Ensures.bind (Ensures.attempt (lookup_ensures I dnsLookup _)
        fun thrown => lookupFailure_ensures thrown) fun answer => Ensures.lift ?_ ?_
      · rintro address hok s ⟨log, hlog, hbefore⟩
        obtain ⟨texts, text, hmem, rfl, rfl, hall⟩ := pinnedAnswer_ok hok
        have hpublic : ∀ text ∈ texts, isIP (normalizeHostname web text) ≠ 0 →
            PublicAddress (normalizeHostname web text) := by
          intro text hmem haddress
          rw [← normalizeHostname_twice standard haddress]
          exact hall text hmem
        rw [hlog]
        refine ⟨hI log _ hbefore, fun haddress => ⟨hpublic text hmem haddress, ?_⟩⟩
        refine .answered ?_ hmem hpublic
        rw [AnsweredLatest, latestAnswer_lookup, if_pos rfl]
      · rintro thrown - s ⟨log, hlog, hbefore⟩
        rw [hlog]
        exact hI log _ hbefore

/-- The look-ups of other hosts leave what is known of an endpoint. -/
theorem resolveEndpoints_ensures (standard : Standard web) {I : List Event → Prop}
    (dnsLookup : DnsLookupLike) (deadline : Int) {endpoints : List RemoteUrl}
    (hchecked : ∀ endpoint ∈ endpoints, Checked web endpoint)
    (hhosts : (endpoints.map fun endpoint => normalizeHostname web endpoint.hostname).Nodup)
    (hI : ∀ endpoint ∈ endpoints, ∀ log answer, I log →
      I (log ++ [.lookup (normalizeHostname web endpoint.hostname) answer])) :
    Ensures (fun s => I s.log)
      (Program.all (endpoints.map (resolvePublicEndpoint web dnsLookup deadline)))
      (fun addresses s => I s.log ∧
        ∀ pair ∈ endpoints.zip addresses, Backed web s.log pair.1 pair.2)
      (fun _ s => I s.log) := by
  induction endpoints generalizing I with
  | nil => exact Ensures.pure fun s hs => ⟨hs, fun _ hmem => absurd hmem List.not_mem_nil⟩
  | cons endpoint endpoints ih =>
    obtain ⟨hfirst, hrest⟩ := List.forall_mem_cons.mp hchecked
    obtain ⟨hIfirst, hIrest⟩ := List.forall_mem_cons.mp hI
    obtain ⟨hother, hhosts⟩ := List.nodup_cons.mp hhosts
    refine Ensures.all_cons (resolvePublicEndpoint_ensures standard dnsLookup deadline hfirst hIfirst)
      (fun address => ?_) fun thrown => ?_
    · have hlater : ∀ other ∈ endpoints, ∀ log answer,
          I log ∧ Backed web log endpoint address →
          I (log ++ [.lookup (normalizeHostname web other.hostname) answer]) ∧
            Backed web (log ++ [.lookup (normalizeHostname web other.hostname) answer])
              endpoint address := by
        intro other hmem log answer hlog
        refine ⟨hIrest other hmem log answer hlog.1, hlog.2.later ?_⟩
        rw [latestAnswer_lookup, if_neg]
        intro hsame
        exact hother (List.mem_map.mpr ⟨other, hmem, hsame⟩)
      refine (ih hrest hhosts hlater).mono (fun _ => id) (fun rest s h => ⟨h.1.1, ?_⟩)
        fun _ s h => h.1
      exact List.forall_mem_cons.mpr ⟨h.1.2, h.2⟩
    · exact (ih hrest hhosts hIrest).mono (fun _ => id) (fun _ s h => h.1) fun _ _ => id

/-- While the endpoints are queried, every pinned address is vouched for. -/
def Ready (web : Web) (resolved : List (RemoteUrl × JsString)) (log : List Event) : Prop :=
  LiveVouched web log ∧ ∀ pair ∈ resolved, Backed web log pair.1 pair.2

theorem Ready.connect {resolved : List (RemoteUrl × JsString)} {log : List Event} {url : RemoteUrl}
    {address : JsString} (h : Ready web resolved log)
    (hconnect : Vouched web AnsweredLatest log url address) :
    Ready web resolved (log ++ [.connect url address]) :=
  ⟨h.1.connect hconnect, fun pair hmem => (h.2 pair hmem).later (latestAnswer_connect ..)⟩

section Queries
variable {resolved : List (RemoteUrl × JsString)}

theorem queryRpc_maintains (standard : Standard web) (maximumBytes : Nat) (deadline : Int)
    (query : RpcQuery) {endpoint : RemoteUrl × JsString} (hmem : endpoint ∈ resolved)
    (hchecked : Checked web endpoint.1) :
    Maintains (fun s => Ready web resolved s.log)
      (queryRpc web none maximumBytes deadline query endpoint) := by
  have hsend (body : JsString) : Maintains (fun s => Ready web resolved s.log)
      (sendRpc web none endpoint.1 body endpoint.2) := by
    rw [sendRpc, pinnedHttpsPost]
    split
    · exact Maintains.raise
    · rename_i hfamily
      have haddress : isIP endpoint.2 ≠ 0 := by omega
      refine Maintains.bind ?_ fun incoming => Maintains.lift
      exact connect_ensures standard hchecked body (fun log h => h.2 endpoint hmem haddress)
        fun log socket h hvouched => h.connect hvouched
  refine Maintains.bind (askTime_maintains _) fun time => ?_
  split
  · exact Maintains.raise
  · refine Maintains.bind Maintains.lift fun body => ?_
    refine Maintains.bind (Maintains.attempt (hsend body) fun _ => Maintains.raise) fun response => ?_
    exact Maintains.bind Maintains.lift fun bytes => Maintains.lift

theorem queries_maintain (standard : Standard web) (maximumBytes : Nat) (deadline : Int)
    (hchecked : ∀ pair ∈ resolved, Checked web pair.1) (query : Nat → RpcQuery) :
    Maintains (fun s => Ready web resolved s.log) (Program.all (resolved.zipIdx.map
      fun (endpoint, index) => queryRpc web none maximumBytes deadline (query index) endpoint)) := by
  refine Maintains.all fun p hp => ?_
  obtain ⟨⟨endpoint, index⟩, hmem, rfl⟩ := List.mem_map.mp hp
  have hendpoint := List.fst_mem_of_mem_zipIdx hmem
  exact queryRpc_maintains standard maximumBytes deadline _ hendpoint (hchecked endpoint hendpoint)

theorem queryObservations_maintains (standard : Standard web) (maximumBytes : Nat) (deadline : Int)
    (hchecked : ∀ pair ∈ resolved, Checked web pair.1)
    (observations : List (ExpectedObservation × Nat)) (count : Nat) :
    Maintains (fun s => Ready web resolved s.log)
      (queryObservations web none maximumBytes deadline resolved observations count) := by
  induction observations generalizing count with
  | nil => exact Maintains.pure
  | cons observation observations ih =>
    refine Maintains.bind (queries_maintain standard maximumBytes deadline hchecked fun index =>
      ⟨observation.1.method, observation.1.params,
        js "concordia-live-" ++ decimal observation.2 ++ js "-" ++ decimal index, false⟩)
      fun results => ?_
    exact Maintains.bind Maintains.lift fun _ => ih _

theorem queryEndpoints_maintains (standard : Standard web) (options : CasperLiveOptions)
    (deadline : Int) (observations : List ExpectedObservation)
    (hchecked : ∀ pair ∈ resolved, Checked web pair.1) :
    Maintains (fun s => Ready web resolved s.log)
      (queryEndpoints web { options with transport := none } deadline observations resolved) := by
  unfold queryEndpoints
  dsimp only
  split
  · exact Maintains.raise
  · refine Maintains.bind (queries_maintain standard _ deadline hchecked fun index =>
      ⟨.string (js "info_get_status"), .object [], js "concordia-live-status-" ++ decimal index,
        true⟩) fun _ => ?_
    exact queryObservations_maintains standard _ deadline hchecked _ _

end Queries

theorem corroborateCasperBundleObservations_maintains (standard : Standard web) (registry : Value)
    (artifacts : List (JsString × Artifact)) (options : CasperLiveOptions) :
    Maintains (fun s => LiveVouched web s.log) (corroborateCasperBundleObservations web registry
      artifacts { options with transport := none }) := by
  refine Maintains.lift_bind fun endpoints hendpoints => ?_
  obtain ⟨hchecked, hhosts⟩ := validateEndpoints_ok standard hendpoints
  refine Maintains.bind Maintains.lift fun observations => ?_
  split
  · exact Maintains.raise
  · refine Maintains.bind Maintains.lift fun _ => ?_
    refine Maintains.bind Maintains.lift fun _ => ?_
    refine Maintains.bind (askTime_maintains _) fun time => ?_
    refine Ensures.bind (resolveEndpoints_ensures standard _ _ hchecked hhosts
      fun _ _ _ _ h => h.lookup) fun addresses => ?_
    have hzipped : ∀ pair ∈ endpoints.zip addresses, Checked web pair.1 :=
      fun pair hmem => hchecked pair.1 (List.of_mem_zip hmem).1
    refine Ensures.bind (Q := fun (_ : Nat) (s : Session) => LiveVouched web s.log) ?_
      fun count => Maintains.pure
    exact (queryEndpoints_maintains standard options _ observations hzipped).mono (fun _ => id)
      (fun _ s h => h.1) fun _ s h => h.1

theorem corroborateCasperTestnetBundle_maintains (standard : Standard web) (registry : Value)
    (artifacts : List (JsString × Artifact)) (options : CasperLiveOptions) :
    Maintains (fun s => LiveVouched web s.log) (corroborateCasperTestnetBundle web registry
      artifacts { options with transport := none }) := by
  refine Maintains.bind Maintains.lift fun offline => ?_
  split
  · exact Maintains.raise
  · exact corroborateCasperBundleObservations_maintains standard registry artifacts options

end Live

section Bytes
variable {web : Web} {url : RemoteUrl} {incoming : Incoming} {response : Response}

def withoutBody : List Nat := [204, 205, 304]

/-- What the chunks of an answer make, where its status allows a body. -/
def delivered (incoming : Incoming) : List UInt8 :=
  if incoming.statusCode ∈ withoutBody then [] else (receivedChunks incoming.body).flatten

/-- The last step was a connection for the URL, and this is what it brought. -/
def Exchanged (web : Web) (body : JsString) (url : RemoteUrl) (incoming : Incoming) (s : Session) :
    Prop :=
  ∃ step address, s.step = step + 1 ∧ s.log.getLast? = some (.connect url address) ∧
    web.httpsRequest step url address body = .ok incoming

/-- The bytes are all that the connection of the last step brought, and within the limit. -/
structure Received (web : Web) (body : JsString) (url : RemoteUrl) (maximumBytes : Nat)
    (bytes : List UInt8) (incoming : Incoming) (s : Session) : Prop where
  exchanged : Exchanged web body url incoming s
  complete : incoming.statusCode ∉ withoutBody → Complete incoming.body
  bytes_eq : bytes = delivered incoming
  bounded : bytes.length ≤ maximumBytes

theorem ensures_true {α : Type} (pre : Session → Prop) (p : Net α) :
    Ensures pre p (fun _ _ => True) (fun _ _ => True) := by
  intro s _
  split
  · trivial
  · trivial

theorem connect_exchanged (body : JsString) (address : JsString) :
    Ensures (fun _ => True) (connect web body url address)
      (fun incoming s => Exchanged web body url incoming s) (fun _ _ => True) := by
  intro s _
  rw [connect]
  dsimp only
  cases hresult : web.httpsRequest s.step url (socketAddress url address) body with
  | error reason => trivial
  | ok incoming => exact ⟨s.step, socketAddress url address, rfl, List.getLast?_concat, hresult⟩

theorem newResponse_ok {hasBody : Bool} (h : newResponse incoming hasBody = .ok response) :
    response.status = incoming.statusCode ∧
      response.body = (if hasBody then some incoming.body else none) ∧
      (hasBody = true → incoming.statusCode ∉ withoutBody) := by
  unfold newResponse at h
  split at h
  · split at h
    · cases h
    · rename_i hallowed
      obtain rfl := Except.ok.inj h
      exact ⟨rfl, rfl, fun hbody hmem => hallowed ⟨hbody, hmem⟩⟩
  · cases h

/-- A response whose status forbids a body has none, so what is read is what was delivered. -/
theorem readBody_delivered {hasBody : Bool} {tooLarge : Thrown} {maximumBytes : Nat}
    {bytes : List UInt8} (hresponse : newResponse incoming hasBody = .ok response)
    (hbody : hasBody = false → incoming.statusCode ∈ withoutBody)
    (h : readBody tooLarge maximumBytes response.body = .ok bytes) :
    (incoming.statusCode ∉ withoutBody → Complete incoming.body) ∧ bytes = delivered incoming ∧
      bytes.length ≤ maximumBytes := by
  obtain ⟨-, hreads, hallowed⟩ := newResponse_ok hresponse
  rw [hreads] at h
  cases hasBody with
  | false =>
    obtain rfl := Except.ok.inj h
    have hmem := hbody rfl
    exact ⟨fun hnot => absurd hmem hnot, (if_pos hmem).symm, Nat.zero_le _⟩
  | true =>
    obtain ⟨hcomplete, hbytes, hbound⟩ := readBody_sound h
    exact ⟨fun _ => hcomplete, hbytes.trans (if_neg (hallowed rfl)).symm, hbound⟩

theorem readBoundedBody_ok {maximumBytes : Nat} {kind : ResourceKind} {bytes : List UInt8}
    (h : readBoundedBody response maximumBytes kind = .ok bytes) :
    readBody (sizeLimitError kind) maximumBytes response.body = .ok bytes := by
  unfold readBoundedBody at h
  dsimp only at h
  split at h
  · split at h
    · cases h
    · split at h
      · cases h
      · exact h
  · exact h

/-- The bytes of a fetched resource are the chunks of its own connection, within the limit. -/
theorem fetchBoundedResource_received (kind : ResourceKind) (maximumBytes : Nat)
    (dnsLookup : Option DnsLookupLike) :
    Ensures (fun _ => True) (fetchBoundedResource web none url kind maximumBytes dnsLookup)
      (fun resource s => ∀ bytes, resource.bytes = some bytes →
        ∃ incoming, Received web [] url maximumBytes bytes incoming s) (fun _ _ => True) := by
  let Answered (response : Response) (s : Session) : Prop := ∃ incoming,
    Exchanged web [] url incoming s ∧
      newResponse incoming (incoming.statusCode ∉ withoutBody) = .ok response
  have hget (address : JsString) : Ensures (fun _ => True) (pinnedHttpsGet web url address) Answered
      (fun _ _ => True) := by
    unfold pinnedHttpsGet
    split
    · exact Ensures.raise fun _ _ => trivial
    · refine Ensures.bind (connect_exchanged [] address) fun incoming => Ensures.lift ?_ ?_
      · exact fun response hresponse s hs => ⟨incoming, hs, hresponse⟩
      · exact fun _ _ _ _ => trivial
  have hread (response : Response) : Ensures (Answered response)
      (acceptResponse web response url kind maximumBytes)
      (fun resource s => ∀ bytes, resource.bytes = some bytes →
        ∃ incoming, Received web [] url maximumBytes bytes incoming s) (fun _ _ => True) := by
    unfold acceptResponse
    split
    · exact Ensures.raise fun _ _ => trivial
    · split
      · exact Ensures.pure fun s _ bytes hbytes => by cases hbytes
      · refine Ensures.bind (Q := fun bytes s =>
          ∃ incoming, Received web [] url maximumBytes bytes incoming s) ?_ fun bytes => ?_
        · refine Ensures.attempt (Q := fun _ _ => True) (Ensures.lift ?_ fun _ _ _ _ => trivial)
            fun thrown => rethrow_ensures _ _ _ _
          rintro bytes hbytes s ⟨incoming, hexchanged, hresponse⟩
          have hforbidden : decide (incoming.statusCode ∉ withoutBody) = false →
              incoming.statusCode ∈ withoutBody := by simp
          obtain ⟨hcomplete, heq, hbound⟩ :=
            readBody_delivered hresponse hforbidden (readBoundedBody_ok hbytes)
          exact ⟨incoming, hexchanged, hcomplete, heq, hbound⟩
        · refine Ensures.pure fun s hs got hgot => ?_
          obtain rfl := Option.some.inj hgot
          exact hs
  refine Ensures.bind (ensures_true _ _) fun addresses => ?_
  refine Ensures.bind (Q := Answered) ?_ hread
  exact Ensures.attempt (hget _) fun thrown => rethrow_ensures _ _ _ _

theorem acceptRpc_ok {endpoint : RemoteUrl} {maximumBytes : Nat} {bytes : List UInt8}
    (h : acceptRpc web response endpoint maximumBytes = .ok bytes) :
    readBody responseTooLarge maximumBytes response.body = .ok bytes := by
  unfold acceptRpc at h
  split at h
  · cases h
  · split at h
    · cases h
    · unfold readRpcBody at h
      split at h
      · cases h
      · split at h
        · rename_i got hgot
          rw [hgot, Except.ok.inj h]
        · cases h
        · cases h

/-- A query is answered from the chunks of its own connection. -/
theorem queryRpc_received (maximumBytes : Nat) (deadline : Int) (query : RpcQuery)
    (endpoint : RemoteUrl × JsString) :
    Ensures (fun _ => True) (queryRpc web none maximumBytes deadline query endpoint)
      (fun value s => ∃ body bytes incoming,
        Received web body endpoint.1 maximumBytes bytes incoming s ∧
          readRpcResult web query.method query.id query.statusQuery bytes = .ok value)
      (fun _ _ => True) := by
  let Answered (body : JsString) (response : Response) (s : Session) : Prop := ∃ incoming,
    Exchanged web body endpoint.1 incoming s ∧
      newResponse incoming (incoming.statusCode ≠ 204) = .ok response
  have hsend (body : JsString) : Ensures (fun _ => True)
      (sendRpc web none endpoint.1 body endpoint.2) (Answered body) (fun _ _ => True) := by
    rw [sendRpc, pinnedHttpsPost]
    split
    · exact Ensures.raise fun _ _ => trivial
    · refine Ensures.bind (connect_exchanged body _) fun incoming => Ensures.lift ?_ ?_
      · exact fun response hresponse s hs => ⟨incoming, hs, hresponse⟩
      · exact fun _ _ _ _ => trivial
  refine Ensures.bind (ensures_true _ _) fun time => ?_
  split
  · exact Ensures.raise fun _ _ => trivial
  · refine Ensures.bind (ensures_true _ _) fun body => ?_
    refine Ensures.bind (Ensures.attempt (hsend body) fun _ => Ensures.raise fun _ => id)
      fun response => ?_
    refine Ensures.bind (Q := fun bytes s => ∃ incoming,
      Received web body endpoint.1 maximumBytes bytes incoming s) (Ensures.lift ?_ ?_)
      fun bytes => Ensures.lift ?_ fun _ _ _ _ => trivial
    · rintro bytes hbytes s ⟨incoming, hexchanged, hresponse⟩
      have hforbidden : decide (incoming.statusCode ≠ 204) = false →
          incoming.statusCode ∈ withoutBody := by
        intro h
        have hcode : incoming.statusCode = 204 := by simpa using h
        rw [hcode]
        decide
      obtain ⟨hcomplete, heq, hbound⟩ :=
        readBody_delivered hresponse hforbidden (acceptRpc_ok hbytes)
      exact ⟨incoming, hexchanged, hcomplete, heq, hbound⟩
    · exact fun _ _ _ _ => trivial
    · rintro value hvalue s ⟨incoming, hreceived⟩
      exact ⟨body, bytes, incoming, hreceived, hvalue⟩

end Bytes

section Redirects
variable {web : Web} {bodies : Nat → RemoteUrl → JsString → JsString → List ReadResult}

/-- The same network, but for what stands in the bodies of its redirects. -/
def Web.withRedirectBodies (web : Web)
    (bodies : Nat → RemoteUrl → JsString → JsString → List ReadResult) : Web :=
  { web with
    httpsRequest := fun step url address body =>
      (web.httpsRequest step url address body).map fun incoming =>
        if isRedirectStatus incoming.statusCode then
          { incoming with body := bodies step url address body }
        else incoming }

/-! What is not asked of the network is the same. -/

theorem validateAddresses_withRedirectBodies (answers : List Value) :
    validateAddresses (web.withRedirectBodies bodies) answers = validateAddresses web answers := by
  induction answers with
  | nil => rfl
  | cons answer answers ih =>
    cases answer with
    | string text =>
      simp only [validateAddresses, ih]
      rfl
    | _ => rfl

theorem resolveHost_withRedirectBodies (dnsLookup : Option DnsLookupLike) (url : RemoteUrl) :
    resolveHost (web.withRedirectBodies bodies) none dnsLookup url =
      resolveHost web none dnsLookup url := by
  have hanswer (answer : Value) :
      validateAnswer (web.withRedirectBodies bodies) answer = validateAnswer web answer := by
    unfold validateAnswer
    split
    · exact validateAddresses_withRedirectBodies _
    · rfl
  unfold resolveHost ensureSafeResolvedHost
  simp only [hanswer]
  rfl

theorem collectLinks_withRedirectBodies (registryUrl : RemoteUrl) (path : JsString)
    (hrefs : List JsString) (urls : List (JsString × RemoteUrl)) :
    collectLinks (web.withRedirectBodies bodies) registryUrl path hrefs urls =
      collectLinks web registryUrl path hrefs urls := by
  induction hrefs generalizing urls with
  | nil => rfl
  | cons href hrefs ih =>
    simp only [collectLinks, ih]
    rfl

theorem collectUrls_withRedirectBodies (registryUrl : RemoteUrl) (items : List Value)
    (urls : List (JsString × RemoteUrl)) :
    collectUrls (web.withRedirectBodies bodies) registryUrl items urls =
      collectUrls web registryUrl items urls := by
  induction items generalizing urls with
  | nil => rfl
  | cons raw items ih => simp only [collectUrls, collectLinks_withRedirectBodies, ih]

theorem requireEndpoints_withRedirectBodies (texts : List JsString) :
    requireEndpoints (web.withRedirectBodies bodies) texts = requireEndpoints web texts := by
  induction texts with
  | nil => rfl
  | cons text texts ih =>
    simp only [requireEndpoints, ih]
    rfl

theorem assertPublicAnswer_withRedirectBodies (answers : List Value) :
    assertPublicAnswer (web.withRedirectBodies bodies) answers = assertPublicAnswer web answers := by
  induction answers with
  | nil => rfl
  | cons answer answers ih =>
    cases answer with
    | string text =>
      simp only [assertPublicAnswer, ih]
      rfl
    | _ => rfl

theorem collectPairs_withRedirectBodies (fields : Fields) (pairs : List (String × String))
    (observations : Observations) :
    collectPairs (web.withRedirectBodies bodies) fields pairs observations =
      collectPairs web fields pairs observations := by
  induction pairs generalizing observations with
  | nil => rfl
  | cons pair pairs ih =>
    simp only [collectPairs, ih]
    rfl

mutual

theorem collectTranscriptPairs_withRedirectBodies : ∀ (value : Value) (observations : Observations),
    collectTranscriptPairs (web.withRedirectBodies bodies) value observations =
      collectTranscriptPairs web value observations
  | .array elements, observations => by
    simp only [collectTranscriptPairs]
    exact collectElements_withRedirectBodies elements observations
  | .object fields, observations => by
    simp only [collectTranscriptPairs, collectPairs_withRedirectBodies]
    exact bind_congr fun observations => collectMembers_withRedirectBodies fields observations
  | .undefined, _ => rfl
  | .null, _ => rfl
  | .boolean _, _ => rfl
  | .number _, _ => rfl
  | .bigint _, _ => rfl
  | .string _, _ => rfl

theorem collectElements_withRedirectBodies : ∀ (values : List Value) (observations : Observations),
    collectElements (web.withRedirectBodies bodies) values observations =
      collectElements web values observations
  | [], _ => rfl
  | value :: values, observations => by
    simp only [collectElements, collectTranscriptPairs_withRedirectBodies value]
    exact bind_congr fun observations => collectElements_withRedirectBodies values observations

theorem collectMembers_withRedirectBodies :
    ∀ (fields : List (JsString × Value)) (observations : Observations),
      collectMembers (web.withRedirectBodies bodies) fields observations =
        collectMembers web fields observations
  | [], _ => rfl
  | (_, value) :: fields, observations => by
    simp only [collectMembers, collectTranscriptPairs_withRedirectBodies value]
    exact bind_congr fun observations => collectMembers_withRedirectBodies fields observations

end

theorem mergeObservations_withRedirectBodies (itemObservations byRequest : Observations) :
    mergeObservations (web.withRedirectBodies bodies) itemObservations byRequest =
      mergeObservations web itemObservations byRequest := by
  induction itemObservations generalizing byRequest with
  | nil => rfl
  | cons entry rest ih =>
    simp only [mergeObservations, ih]
    rfl

theorem collectItems_withRedirectBodies (artifacts : List (JsString × Artifact))
    (items : List Value) (byRequest : Observations) :
    collectItems (web.withRedirectBodies bodies) artifacts items byRequest =
      collectItems web artifacts items byRequest := by
  induction items generalizing byRequest with
  | nil => rfl
  | cons item items ih =>
    simp only [collectItems, collectTranscriptPairs_withRedirectBodies,
      mergeObservations_withRedirectBodies, ih]
    rfl

/-! What is asked of the network differs in bodies that are not read. -/

theorem newResponse_body (incoming : Incoming) (hasBody : Bool) (reads : List ReadResult) :
    newResponse { incoming with body := reads } hasBody =
      (newResponse incoming hasBody).map fun response =>
        { response with body := if hasBody then some reads else none } := by
  unfold newResponse
  dsimp only
  split
  · split
    · rfl
    · rfl
  · rfl

/-- What follows a connection does not tell the two networks apart. -/
theorem connect_withRedirectBodies {α : Type} (body : JsString) (url : RemoteUrl)
    (address : JsString) (hasBody : Incoming → Bool)
    (hstatus : ∀ incoming reads, hasBody { incoming with body := reads } = hasBody incoming)
    (recover : Thrown → Net Response) (use : Response → Net α)
    (huse : ∀ response reads, isRedirectStatus response.status = true →
      use { response with body := reads } = use response) (s : Session) :
    ((Program.attempt (connect (web.withRedirectBodies bodies) body url address >>= fun incoming =>
        Program.lift (newResponse incoming (hasBody incoming))) recover) >>= use) s =
      ((Program.attempt (connect web body url address >>= fun incoming =>
        Program.lift (newResponse incoming (hasBody incoming))) recover) >>= use) s := by
  simp only [Program.bind_apply, Program.attempt_apply, connect, Web.withRedirectBodies]
  cases web.httpsRequest s.step url (socketAddress url address) body with
  | error reason => rfl
  | ok incoming =>
    simp only [Except.map, Except.mapError]
    by_cases hredirect : isRedirectStatus incoming.statusCode = true
    · simp only [if_pos hredirect, hstatus, newResponse_body, Program.lift]
      cases hresponse : newResponse incoming (hasBody incoming) with
      | error thrown => rfl
      | ok response =>
        have hstatus := (newResponse_ok hresponse).1
        simp only [Except.map]
        rw [huse _ _ (hstatus ▸ hredirect)]
    · simp only [if_neg hredirect]

theorem fetchBoundedResource_withRedirectBodies (url : RemoteUrl) (kind : ResourceKind)
    (maximumBytes : Nat) (dnsLookup : Option DnsLookupLike) :
    fetchBoundedResource (web.withRedirectBodies bodies) none url kind maximumBytes dnsLookup =
      fetchBoundedResource web none url kind maximumBytes dnsLookup := by
  have huse (response : Response) (reads : Option (List ReadResult))
      (hredirect : isRedirectStatus response.status = true) :
      acceptResponse web { response with body := reads } url kind maximumBytes =
        acceptResponse web response url kind maximumBytes := by
    simp [acceptResponse, isRedirect, hredirect]
  rw [fetchBoundedResource, resolveHost_withRedirectBodies]
  refine bind_congr fun addresses => ?_
  funext s
  simp only [request, pinnedHttpsGet]
  split
  · rfl
  · exact connect_withRedirectBodies [] url _ (fun incoming => incoming.statusCode ∉ [204, 205, 304])
      (fun _ _ => rfl) _ _ huse s

theorem fetchUrls_withRedirectBodies (dnsLookup : Option DnsLookupLike)
    (urls : List (JsString × RemoteUrl)) (aggregateBytes : Nat)
    (artifacts : List (JsString × Artifact)) :
    fetchUrls (web.withRedirectBodies bodies) none dnsLookup urls aggregateBytes artifacts =
      fetchUrls web none dnsLookup urls aggregateBytes artifacts := by
  induction urls generalizing aggregateBytes artifacts with
  | nil => rfl
  | cons entry urls ih =>
    simp only [fetchUrls, fetchBoundedResource_withRedirectBodies, ih]

theorem verifyUrl_withRedirectBodies (registryUrl : JsString) (options : UrlVerificationOptions) :
    verifyUrl (web.withRedirectBodies bodies) registryUrl { options with fetchImpl := none } =
      verifyUrl web registryUrl { options with fetchImpl := none } := by
  have hartifacts (registry : Value) (url : RemoteUrl) (dnsLookup : Option DnsLookupLike) :
      fetchArtifacts (web.withRedirectBodies bodies) registry url none dnsLookup =
        fetchArtifacts web registry url none dnsLookup := by
    simp only [fetchArtifacts, collectUrls_withRedirectBodies, fetchUrls_withRedirectBodies]
  have hregistry (url : RemoteUrl) (bytes : List UInt8) :
      verifyRemoteRegistry (web.withRedirectBodies bodies) { options with fetchImpl := none } url
        bytes = verifyRemoteRegistry web { options with fetchImpl := none } url bytes := by
    unfold verifyRemoteRegistry verifyRemoteItems
    simp only [hartifacts]
    rfl
  unfold verifyUrl fetchAndVerify
  simp only [fetchBoundedResource_withRedirectBodies, hregistry]
  rfl

theorem queryRpc_withRedirectBodies (maximumBytes : Nat) (deadline : Int) (query : RpcQuery)
    (endpoint : RemoteUrl × JsString) :
    queryRpc (web.withRedirectBodies bodies) none maximumBytes deadline query endpoint =
      queryRpc web none maximumBytes deadline query endpoint := by
  have huse (web : Web) (response : Response) (reads : Option (List ReadResult))
      (hredirect : isRedirectStatus response.status = true) :
      acceptRpc web { response with body := reads } endpoint.1 maximumBytes =
        acceptRpc web response endpoint.1 maximumBytes := by
    have hstatus : (300 ≤ response.status && response.status < 400) = true := hredirect
    simp [acceptRpc, isRpcRedirect, hstatus]
  refine bind_congr (x := askTime web) fun time => ?_
  split
  · rfl
  · refine bind_congr fun body => ?_
    funext s
    simp only [sendRpc, pinnedHttpsPost]
    split
    · rfl
    · apply connect_withRedirectBodies body endpoint.1 _ (fun incoming => incoming.statusCode ≠ 204)
        (fun _ _ => rfl)
      intro response reads hredirect
      simp only [huse _ response reads hredirect]

theorem queryObservations_withRedirectBodies (maximumBytes : Nat) (deadline : Int)
    (resolved : List (RemoteUrl × JsString)) (observations : List (ExpectedObservation × Nat))
    (count : Nat) :
    queryObservations (web.withRedirectBodies bodies) none maximumBytes deadline resolved observations
      count = queryObservations web none maximumBytes deadline resolved observations count := by
  induction observations generalizing count with
  | nil => rfl
  | cons observation observations ih =>
    simp only [queryObservations, observationQueries, queryRpc_withRedirectBodies, ih]
    rfl

theorem corroborateCasperBundleObservations_withRedirectBodies (registry : Value)
    (artifacts : List (JsString × Artifact)) (options : CasperLiveOptions) :
    corroborateCasperBundleObservations (web.withRedirectBodies bodies) registry artifacts
        { options with transport := none } =
      corroborateCasperBundleObservations web registry artifacts
        { options with transport := none } := by
  have hresolve (dnsLookup : DnsLookupLike) (deadline : Int) :
      resolvePublicEndpoint (web.withRedirectBodies bodies) dnsLookup deadline =
        resolvePublicEndpoint web dnsLookup deadline := by
    funext endpoint
    unfold resolvePublicEndpoint pinnedAnswer
    simp only [assertPublicAnswer_withRedirectBodies]
    rfl
  unfold corroborateCasperBundleObservations queryEndpoints validateEndpoints
    collectBundleObservations
  simp only [statusQueries, queryRpc_withRedirectBodies, queryObservations_withRedirectBodies,
    requireEndpoints_withRedirectBodies, collectItems_withRedirectBodies, hresolve]
  rfl

end Redirects

section PublicOnly
variable {web : Web}

/-- With the built-in transports, whatever the registry says and the network answers, every
connection is an HTTPS connection to a public address: the host, or an element of the answer to the
look-up of the host that the connection belongs to. The body of a redirect makes no difference, and
the bytes of a resource are the chunks that its connection brought, within the limit. -/
theorem remote_connections_public (standard : Standard web) :
    (∀ registryUrl (options : UrlVerificationOptions) s, LogVouched web AnsweredLast s.log →
      LogVouched web AnsweredLast
        (verifyUrl web registryUrl { options with fetchImpl := none } s).2.log) ∧
    (∀ registry artifacts (options : CasperLiveOptions) s, LogVouched web AnsweredLatest s.log →
      LogVouched web AnsweredLatest
        (corroborateCasperBundleObservations web registry artifacts
          { options with transport := none } s).2.log ∧
      LogVouched web AnsweredLatest
        (corroborateCasperTestnetBundle web registry artifacts
          { options with transport := none } s).2.log) ∧
    (∀ bodies registryUrl (options : UrlVerificationOptions),
      verifyUrl (web.withRedirectBodies bodies) registryUrl { options with fetchImpl := none } =
        verifyUrl web registryUrl { options with fetchImpl := none }) ∧
    (∀ bodies registry artifacts (options : CasperLiveOptions),
      corroborateCasperBundleObservations (web.withRedirectBodies bodies) registry artifacts
          { options with transport := none } =
        corroborateCasperBundleObservations web registry artifacts
          { options with transport := none } ∧
      corroborateCasperTestnetBundle (web.withRedirectBodies bodies) registry artifacts
          { options with transport := none } =
        corroborateCasperTestnetBundle web registry artifacts
          { options with transport := none }) ∧
    (∀ url kind maximumBytes dnsLookup s resource s' bytes,
      fetchBoundedResource web none url kind maximumBytes dnsLookup s = (.ok resource, s') →
      resource.bytes = some bytes → ∃ incoming, Received web [] url maximumBytes bytes incoming s') ∧
    (∀ maximumBytes deadline query endpoint s value s',
      queryRpc web none maximumBytes deadline query endpoint s = (.ok value, s') →
      ∃ body bytes incoming, Received web body endpoint.1 maximumBytes bytes incoming s' ∧
        readRpcResult web query.method query.id query.statusQuery bytes = .ok value) := by
  refine ⟨?_, ?_, ?_, ?_, ?_, ?_⟩
  · intro registryUrl options s hs
    exact Maintains.run (verifyUrl_maintains standard registryUrl options) hs
  · intro registry artifacts options s hs
    constructor
    · exact Maintains.run
        (corroborateCasperBundleObservations_maintains standard registry artifacts options) hs
    · exact Maintains.run
        (corroborateCasperTestnetBundle_maintains standard registry artifacts options) hs
  · intro bodies registryUrl options
    exact verifyUrl_withRedirectBodies registryUrl options
  · intro bodies registry artifacts options
    have hbundle := @corroborateCasperBundleObservations_withRedirectBodies web bodies registry
      artifacts options
    refine ⟨hbundle, ?_⟩
    unfold corroborateCasperTestnetBundle
    rw [hbundle]
    rfl
  · intro url kind maximumBytes dnsLookup s resource s' bytes hrun hbytes
    have hend := @fetchBoundedResource_received web url kind maximumBytes dnsLookup s trivial
    rw [hrun] at hend
    exact hend bytes hbytes
  · intro maximumBytes deadline query endpoint s value s' hrun
    have hend := @queryRpc_received web maximumBytes deadline query endpoint s trivial
    rw [hrun] at hend
    exact hend

def councilUrl : RemoteUrl where
  protocol := js "https:"
  username := []
  password := []
  hostname := js "council.example"
  origin := js "https://council.example"
  href := js "https://council.example/"
  bareHref := js "https://council.example/"
  search := []
  hash := []

def parseCouncil (text : JsString) : Option RemoteUrl :=
  if text = js "https://council.example" then some councilUrl else none

def lowerUnit (u : UInt16) : UInt16 := if 0x41 ≤ u && u ≤ 0x5a then u + 0x20 else u

theorem lowerUnit_plain {u : UInt16} (h : isPlain u = true) : lowerUnit u = u := by
  simp only [isPlain, Bool.and_eq_true, Bool.not_eq_true'] at h
  rw [lowerUnit, h.1.2]
  rfl

theorem lowerUnit_toNat (u : UInt16) : (lowerUnit u).toNat =
    if 0x41 ≤ u.toNat ∧ u.toNat ≤ 0x5a then u.toNat + 0x20 else u.toNat := by
  unfold lowerUnit
  simp only [Bool.and_eq_true, decide_eq_true_eq, UInt16.le_iff_toNat_le]
  split
  · rename_i hcapital
    simp only [UInt16.reduceToNat] at hcapital
    rw [if_pos hcapital, UInt16.toNat_add, Nat.mod_eq_of_lt]
    · rfl
    · simp only [UInt16.reduceToNat]
      omega
  · rename_i hother
    exact (if_neg hother).symm

theorem lowerUnit_twice (u : UInt16) : lowerUnit (lowerUnit u) = lowerUnit u := by
  apply UInt16.toNat_inj.mp
  simp only [lowerUnit_toNat]
  split_ifs
  · omega
  · rfl
  · rfl

theorem lowerUnit_period {u : UInt16} (h : lowerUnit u = period) : u = period := by
  have hnat := congrArg UInt16.toNat h
  rw [lowerUnit_toNat] at hnat
  apply UInt16.toNat_inj.mp
  have hperiod : period.toNat = 0x2e := rfl
  split_ifs at hnat
  · omega
  · exact hnat

/-- One host with one public address, where a redirect waits. -/
def councilWeb : Web := { midnightRuntime with
  parseUrl := fun text => (parseCouncil text).map RemoteUrl.toUrl
  parseRemoteUrl := parseCouncil
  parse_agrees := fun _ => rfl
  toLowerCase := fun text => text.map lowerUnit
  stringOf := fun _ => []
  jsonStringify := fun _ => .error .notAnError
  dateNow := fun _ => 0
  systemDnsLookup := fun _ _ => .ok (.array [.string (js "93.184.216.34")])
  httpsRequest := fun _ _ _ _ => .ok ⟨301, none, [.chunk [1]]⟩ }

theorem parseCouncil_some {text : JsString} {url : RemoteUrl} (h : parseCouncil text = some url) :
    url = councilUrl := by
  unfold parseCouncil at h
  split at h
  · exact (Option.some.inj h).symm
  · cases h

theorem councilUrl_plain : councilUrl.hostname.all isPlain = true ∧
    startsWithBracket councilUrl.hostname = false := by decide +kernel

theorem councilWeb_standard : Standard councilWeb where
  plainHost := by
    intro text url hparse _ u hu
    obtain rfl := parseCouncil_some hparse
    exact List.all_eq_true.mp councilUrl_plain.1 u hu
  closedHost := by
    intro text url hparse _ hopen
    obtain rfl := parseCouncil_some hparse
    rw [councilUrl_plain.2] at hopen
    cases hopen
  lowerPlain := by
    intro text hplain
    change text.map lowerUnit = text
    conv_rhs => rw [← List.map_id text]
    exact List.map_congr_left fun u hu => lowerUnit_plain (hplain u hu)
  lowerIdempotent := by
    intro text
    change (text.map lowerUnit).map lowerUnit = text.map lowerUnit
    rw [List.map_map]
    exact List.map_congr_left fun u _ => lowerUnit_twice u
  lowerPeriod := by
    intro text hlast
    change (text.map lowerUnit).getLast? = some period at hlast
    rw [List.getLast?_map] at hlast
    obtain ⟨u, hu, hperiod⟩ := Option.map_eq_some_iff.mp hlast
    rw [hu, lowerUnit_period hperiod]

theorem remote_connections_public_sample :
    Vouched councilWeb AnsweredLast
      [.lookup (js "council.example") (.array [.string (js "93.184.216.34")])] councilUrl
      (js "93.184.216.34") := by
  have hlog := (remote_connections_public councilWeb_standard).1 (js "https://council.example") {}
    ⟨0, []⟩ LogVouched.nil
  exact hlog [_] councilUrl (js "93.184.216.34") [] rfl

end PublicOnly
end Concordia.Verify
