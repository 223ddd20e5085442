import Concordia.Gateway.PublicationOrder
import Concordia.Verify.CardChain
import Concordia.Verify.Interchange

/-! The chains that the Gateway seals, before the verifier of card chains: what the verifier checks
beyond what every reachable state of the Gateway keeps. -/
namespace Concordia.Verify.CardChain
open Concordia.Gateway (CardRow Sys Env Action CardType NamesProposal FitsBehind ChainedRows rowData
  hexdigest strField optStr aboutProposal)
open Concordia.Js Concordia.Lib.HashChain Concordia.Lib.Transition Concordia.Verify.Interchange

section Export
variable (stamp : Gateway.Time → JsString)

/-- A stored card in the format of the verifier. -/
def cardRecord (row : CardRow) : Fields :=
  [(js "sequence_number", .number row.sequenceNumber), (js "card_type", .string row.cardType),
    (js "card_hash", .string row.cardHash), (js "canonical_card_json", .string row.cardJson),
    (js "published_at", (row.publishedAt.map fun time => Value.string (stamp time)).getD .null)]

/-- An artifact of stored cards. -/
def chainRecord (proposalId capturedAt sourceUrl : JsString) (rows : List CardRow) : Fields :=
  [(js "schema_version", .string (js schemaVersion)), (js "proposal_id", .string proposalId),
    (js "captured_at", .string capturedAt), (js "source_url", .string sourceUrl),
    (js "cards", .array (rows.map fun row => .object (cardRecord stamp row)))]

end Export

section Texts
variable {env : Env}

/-- A stored text that JSON carries to JavaScript, without a hash of its own. -/
def Portable (env : Env) (row : CardRow) : Prop :=
  ∃ data x, rowData env row = some data ∧ image (.dict data) = some x ∧ depth (.dict data) ≤ 128 ∧
    data.lookup (js "card_hash") = none

theorem lookup_of_get {data : Python.Dict} {name : String} {s : JsString}
    (h : data.get name = .str s) : data.lookup (js name) = some (.str s) := by
  unfold Python.Dict.get at h
  cases hlookup : data.lookup (js name) with
  | none =>
    rw [hlookup] at h
    cases h
  | some v =>
    rw [hlookup] at h
    exact congrArg some h

theorem get_of_strField {data : Python.Dict} {name : String} {s : JsString} (hs : s ≠ [])
    (h : strField data name = s) : data.get name = .str s := by
  unfold strField at h
  cases hget : data.get name with
  | str t =>
    rw [hget] at h
    exact congrArg Python.Value.str h
  | _ =>
    rw [hget] at h
    exact absurd h.symm hs

/-- The sealed text of a card, with what it says. -/
theorem sealed_text {row : CardRow} {i : Nat} {prev : Option JsString}
    (hfits : FitsBehind env i prev row) : ∃ data : Python.Dict, rowData env row = some data ∧
      row.cardJson = Python.dumps (.dict data) ∧ Python.WellFormed env.floats (.dict data) ∧
        data.lookup (js "sequence_number") = some (.int (i + 1)) ∧
          data.lookup (js "previous_card_hash") = some (optStr prev) ∧
            ∃ t : CardType, data.get "card_type" = .str t.column := by
  obtain ⟨card, hcard⟩ := hfits.sealed
  have hw := (card.linked (i + 1) prev).wellFormed
  have hsorted : row.cardJson =
      Python.dumps (.dict (Python.sortedItems (card.linked (i + 1) prev).dump)) := by
    rw [hcard, Gateway.Card.canonical, Python.dumpsSorted, Python.sortKeys_dict]
  have hloads : Python.loads env.floats row.cardJson =
      some (.dict (Python.sortedItems (card.linked (i + 1) prev).dump)) := by
    rw [hcard, Gateway.Card.canonical, Python.loads_dumpsSorted hw, Python.sortKeys_dict]
  refine ⟨_, by rw [rowData, hloads], hsorted, ?_, ?_, ?_, card.cardType, ?_⟩
  · rw [← Python.sortKeys_dict]
    exact Python.wellFormed_sortKeys hw
  · rw [Python.lookup_sortedItems hw.1, Gateway.Card.linked,
      Python.Dict.lookup_set_other (by decide), Python.Dict.lookup_set_self]
    simp [Python.sortKeys]
  · rw [Python.lookup_sortedItems hw.1, Gateway.Card.linked, Python.Dict.lookup_set_self,
      Option.map_some, Gateway.sortKeys_optStr]
  · have htyped := lookup_of_get (card.linked (i + 1) prev).typed
    rw [Python.Dict.get, Python.lookup_sortedItems hw.1, htyped]
    simp [Python.sortKeys, Gateway.Card.linked]

theorem isHexDigit_hexDigit : ∀ n < 16, isHexDigit (hexDigit n) = true := by decide

theorem isHexOf_toHex (bytes : List UInt8) : isHexOf (2 * bytes.length) (toHex bytes) = true := by
  induction bytes with
  | nil => rfl
  | cons b bytes ih =>
    obtain ⟨hlength, hdigits⟩ := Bool.and_eq_true_iff.mp ih
    have hb := b.toNat_lt
    have hhigh := isHexDigit_hexDigit (b.toNat / 16) (by omega)
    have hlow := isHexDigit_hexDigit (b.toNat % 16) (by omega)
    have hcons : toHex (b :: bytes) = hexDigit (b.toNat / 16) :: hexDigit (b.toNat % 16) :: toHex bytes :=
      rfl
    rw [isHexOf, hcons, List.all_cons, List.all_cons, hhigh, hlow, hdigits, List.length_cons,
      List.length_cons, eq_of_beq hlength]
    simp only [Bool.and_true, beq_iff_eq, List.length_cons]
    omega

variable {rt : Runtime}

/-- A sealed text is one of a chain of the verifier, at the same place. -/
theorem fits_of_sealed {row : CardRow} {i : Nat} {prev : Option JsString}
    (hsha : rt.sha256 = env.sha256) (hfits : FitsBehind env i prev row)
    (hnames : NamesProposal env row) (hportable : Portable env row) (hproposal : row.proposalId ≠ [])
    (hcount : i < maxCards) (hkind : row.cardType = js "ProposalCard" ↔ i = 0) :
    ∃ parsed, Fits rt row.proposalId i prev ⟨row.cardHash, row.cardJson, parsed⟩ ∧
      prop parsed "card_type" = .string row.cardType := by
  obtain ⟨data, hdata, hjson, hw, hsequence, hprevious, -⟩ := sealed_text hfits
  obtain ⟨data', x, hdata', hx, hdepth, hunhashed⟩ := hportable
  obtain rfl : data = data' := Option.some.inj (hdata.symm.trans hdata')
  obtain ⟨parsed, hparsed, hlookup⟩ := parseJsonStrict_dict hw hx hdepth
  obtain ⟨data', hdata', htype, habout⟩ := hnames
  obtain rfl : data = data' := Option.some.inj (hdata.symm.trans hdata')
  have hprop {name : String} {v : Python.Value} {y : Value}
      (h : data.lookup (js name) = some v) (hy : image v = some y) : prop parsed name = y := by
    rw [prop, hlookup, h, Option.bind_some, hy]
    rfl
  have htyped : prop parsed "card_type" = .string row.cardType := hprop (lookup_of_get htype) rfl
  refine ⟨parsed, ⟨?_, ?_, ?_⟩, htyped⟩
  · rw [hsha, hfits.hashed, hexdigest, fromHex_toHex]
  · rw [hjson]
    exact hparsed
  · constructor
    · rw [hasOwn, hlookup, hunhashed]
      rfl
    · refine hprop hsequence ?_
      have hsafe : |((i : Int) + 1)| ≤ Json.maxSafeInteger := by
        have hbound : i < 256 := hcount
        rw [abs_of_nonneg (by omega), Json.maxSafeInteger]
        omega
      rw [image, if_pos hsafe]
      simp
    · constructor
      · rw [hasOwn, hlookup, hprevious]
        cases prev <;> rfl
      · refine hprop hprevious ?_
        cases prev <;> rfl
    · have hcolumn : CardType.proposalCard.column = js "ProposalCard" := rfl
      rw [aboutProposal, hcolumn] at habout
      by_cases hfirst : i = 0
      · rw [if_pos (hkind.mpr hfirst)] at habout
        rw [if_pos (by omega)]
        exact hprop (lookup_of_get (get_of_strField hproposal habout)) rfl
      · have hother : row.cardType ≠ js "ProposalCard" := fun h => hfirst (hkind.mp h)
        rw [if_neg hother] at habout
        rw [if_neg (by omega), htyped]
        refine ⟨fun h => hother (Value.string.inj h), ?_⟩
        exact hprop (lookup_of_get (get_of_strField hproposal habout)) rfl

end Texts

section Chains
variable {env : Env} {rt : Runtime} {stamp : Gateway.Time → JsString} {row : CardRow} {p : JsString}

theorem cardRecord_exact : Exact cardFields (cardRecord stamp row) := exact_of_keys rfl

theorem cardRecord_type : prop (cardRecord stamp row) "card_type" = .string row.cardType := rfl

theorem cardRecord_hash : prop (cardRecord stamp row) "card_hash" = .string row.cardHash := rfl

theorem cardRecord_text : prop (cardRecord stamp row) "canonical_card_json" = .string row.cardJson :=
  rfl

theorem column_named (t : CardType) : (!t.column.isEmpty) = true := by
  cases t <;> rfl

/-- What the verifier asks of a stored card by itself. -/
structure Stored (rt : Runtime) (stamp : Gateway.Time → JsString) (row : CardRow) : Prop where
  small : (utf8 row.cardJson).length ≤ maxCardJsonBytes
  stamped : ∀ time, row.publishedAt = some time →
    isRfc3339Utc rt (.string (stamp time)) publishedEndings = true

theorem stamped_iff : (isNull (prop (cardRecord stamp row) "published_at") ||
    isRfc3339Utc rt (prop (cardRecord stamp row) "published_at") publishedEndings) = true ↔
      ∀ time, row.publishedAt = some time →
        isRfc3339Utc rt (.string (stamp time)) publishedEndings = true := by
  have hprop : prop (cardRecord stamp row) "published_at" =
      (row.publishedAt.map fun time => Value.string (stamp time)).getD .null := rfl
  rw [hprop]
  cases row.publishedAt with
  | none => simp [isNull, strictEq]
  | some time => simp [isNull, strictEq]

theorem sequence_numbered {n : Nat} (h : row.sequenceNumber = n) (hn : n ≤ maxCards) :
    isSequence (prop (cardRecord stamp row) "sequence_number") n = true := by
  have hprop : prop (cardRecord stamp row) "sequence_number" = .number (row.sequenceNumber : ℚ) := rfl
  have hsafe : n ≤ 2 ^ 53 - 1 := le_trans hn (by decide)
  rw [hprop, h]
  simp only [isSequence, Int.cast_natCast, safeInteger, Rat.den_natCast, Rat.num_natCast,
    Int.natAbs_natCast, hsafe, and_self, if_true, Option.isSome_some, beq_self_eq_true, Bool.and_self]

/-- A stored card whose text fits carries it. -/
theorem carries_of_sealed {i : Nat} {prev : Option JsString} {parsed : Fields}
    (hfits : FitsBehind env i prev row) (hnames : NamesProposal env row)
    (hstored : Stored rt stamp row) (hcount : i < maxCards)
    (htyped : prop parsed "card_type" = .string row.cardType) :
    Carries rt (i + 1) (cardRecord stamp row) row.cardType ⟨row.cardHash, row.cardJson, parsed⟩ where
  exact := cardRecord_exact
  numbered := sequence_numbered (by rw [hfits.numbered]; rfl) hcount
  typed := cardRecord_type
  named := by
    obtain ⟨data, hdata, -, -, -, -, t, ht⟩ := sealed_text hfits
    obtain ⟨data', hdata', htype, -⟩ := hnames
    obtain rfl : data = data' := Option.some.inj (hdata.symm.trans hdata')
    rw [Python.Value.str.inj (htype.symm.trans ht)]
    exact column_named t
  hashed := cardRecord_hash
  hexadecimal := by
    have h := isHexOf_toHex (env.sha256 (utf8 row.cardJson)).toList
    rw [Vector.length_toList] at h
    rw [hfits.hashed]
    exact h
  carried := cardRecord_text
  small := hstored.small
  published := stamped_iff.mpr hstored.stamped
  agrees := htyped

def rowSize (row : CardRow) : Nat := (utf8 row.cardJson).length

/-- The records of sealed rows carry a chain of the verifier. -/
theorem carried_of_sealed {rows : List CardRow} {i : Nat} {prev : Option JsString}
    (hsha : rt.sha256 = env.sha256) (hproposal : p ≠ [])
    (hlinked : Linked CardRow.cardHash (FitsBehind env) i prev rows)
    (hrows : ∀ r ∈ rows, r.proposalId = p ∧ NamesProposal env r ∧ Portable env r ∧ Stored rt stamp r)
    (hcount : i + rows.length ≤ maxCards)
    (hkinds : ∀ (j : Nat) (r : CardRow), rows[j]? = some r →
      (r.cardType = js "ProposalCard" ↔ i + j = 0)) :
    ∃ es, Carried rt i (rows.map fun r => .object (cardRecord stamp r)) es ∧
      Linked Entry.cardHash (Fits rt p) i prev es ∧ es.map Entry.size = rows.map rowSize ∧
        es.map Entry.cardHash = rows.map CardRow.cardHash := by
  induction rows generalizing i prev with
  | nil => exact ⟨[], trivial, trivial, rfl, rfl⟩
  | cons row rows ih =>
    obtain ⟨hfits, hrest⟩ := hlinked
    obtain ⟨rfl, hnames, hportable, hstored⟩ := hrows row List.mem_cons_self
    have hlength : i + 1 + rows.length ≤ maxCards := by
      rw [List.length_cons] at hcount
      omega
    have hposition : i < maxCards := by omega
    obtain ⟨parsed, hentry, htyped⟩ :=
      fits_of_sealed hsha hfits hnames hportable hproposal hposition (hkinds 0 row rfl)
    obtain ⟨es, hcarried, hentries, hsizes, hhashes⟩ := ih hrest
      (fun r hr => hrows r (List.mem_cons_of_mem _ hr)) hlength fun j r hr => by
        rw [hkinds (j + 1) r hr]
        omega
    have hcarries := carries_of_sealed hfits hnames hstored hposition htyped
    refine ⟨⟨row.cardHash, row.cardJson, parsed⟩ :: es, ⟨⟨_, _, rfl, hcarries⟩, hcarried⟩,
      ⟨hentry, hentries⟩, ?_, ?_⟩
    · rw [List.map_cons, List.map_cons, hsizes]
      rfl
    · rw [List.map_cons, List.map_cons, hhashes]

/-- What the verifier has checked of the stored rows whose records it accepts. -/
theorem stored_of_carried {rows : List CardRow} {i : Nat} {prev : Option JsString} {es : List Entry}
    (hcarried : Carried rt i (rows.map fun r => .object (cardRecord stamp r)) es)
    (hlinked : Linked Entry.cardHash (Fits rt p) i prev es) :
    (∀ r ∈ rows, Stored rt stamp r) ∧ es.map Entry.size = rows.map rowSize ∧
      es.map Entry.cardHash = rows.map CardRow.cardHash ∧
        ∀ (j : Nat) (r : CardRow), rows[j]? = some r → i + j ≠ 0 → r.cardType ≠ js "ProposalCard" := by
  induction rows generalizing i prev es with
  | nil =>
    cases es with
    | nil => simp
    | cons e es => exact hcarried.elim
  | cons row rows ih =>
    cases es with
    | nil => exact hcarried.elim
    | cons e es =>
      obtain ⟨⟨card, cardType, hcard, hcarries⟩, hrest⟩ := hcarried
      obtain rfl : cardRecord stamp row = card := Value.object.inj hcard
      obtain ⟨hfits, hentries⟩ := hlinked
      obtain ⟨hstored, hsizes, hhashes, hkinds⟩ := ih hrest hentries
      have htext : row.cardJson = e.text := Value.string.inj hcarries.carried
      have hhash : row.cardHash = e.cardHash := Value.string.inj hcarries.hashed
      have htype : row.cardType = cardType := Value.string.inj hcarries.typed
      refine ⟨?_, ?_, ?_, ?_⟩
      · intro r hr
        rcases List.mem_cons.mp hr with rfl | hr
        · exact ⟨by rw [htext]; exact hcarries.small, stamped_iff.mp hcarries.published⟩
        · exact hstored r hr
      · rw [List.map_cons, List.map_cons, hsizes, rowSize, htext, Entry.size]
      · rw [List.map_cons, List.map_cons, hhashes, hhash]
      · intro j r hr hlater
        cases j with
        | zero =>
          obtain rfl : row = r := Option.some.inj hr
          have hidentified := hfits.placed.identified
          rw [if_neg (by omega), hcarries.agrees, ← htype] at hidentified
          exact fun h => hidentified.1 (congrArg Value.string h)
        | succ j => exact hkinds j r hr (by omega)

/-- What the verifier asks of the stored chain of a proposal, beyond what the Gateway keeps. -/
structure Exportable (rt : Runtime) (stamp : Gateway.Time → JsString)
    (p capturedAt sourceUrl : JsString) (rows : List CardRow) : Prop where
  canonical : isChainProposalId p = true
  captured : isRfc3339Utc rt (.string capturedAt) capturedEndings = true
  located : ∃ href, requireSourceUrl rt (.string sourceUrl) p "card-chain source_url" = .ok href
  count : rows.length ≤ maxCards
  opens : rows.head?.map CardRow.cardType = some (js "ProposalCard")
  once : ∀ row ∈ rows.tail, row.cardType ≠ js "ProposalCard"
  stored : ∀ row ∈ rows, Stored rt stamp row
  total : (rows.map rowSize).sum ≤ maxTotalCardJsonBytes

variable {capturedAt sourceUrl : JsString} {rows : List CardRow}

/-- The kinds of the cards, position by position. -/
theorem kinds_iff {first : CardRow} {rest : List CardRow} (h : first.cardType = js "ProposalCard") :
    (∀ row ∈ rest, row.cardType ≠ js "ProposalCard") ↔ ∀ (i : Nat) (row : CardRow),
      (first :: rest)[i]? = some row → (row.cardType = js "ProposalCard" ↔ i = 0) := by
  constructor
  · intro hrest i row hrow
    cases i with
    | zero =>
      obtain rfl : first = row := Option.some.inj hrow
      exact iff_of_true h rfl
    | succ i => exact iff_of_false (hrest row (List.mem_of_getElem? hrow)) (Nat.succ_ne_zero i)
  · intro hkinds row hrow htype
    obtain ⟨i, hi, rfl⟩ := List.getElem_of_mem hrow
    exact Nat.succ_ne_zero i ((hkinds (i + 1) _ (List.getElem?_eq_getElem hi)).mp htype)

theorem envelope_iff {artifact : Fields} {q href : JsString} {values : List Value}
    (hartifact : artifact = chainRecord stamp p capturedAt sourceUrl rows) :
    Envelope rt artifact q href values ↔ q = p ∧ isChainProposalId p = true ∧
      isRfc3339Utc rt (.string capturedAt) capturedEndings = true ∧
        requireSourceUrl rt (.string sourceUrl) p "card-chain source_url" = .ok href ∧
          requireCards (.array (rows.map fun row => .object (cardRecord stamp row))) = .ok values := by
  subst hartifact
  constructor
  · intro h
    obtain rfl : p = q := Value.string.inj h.named
    exact ⟨rfl, h.canonical, h.captured, h.located, h.listed⟩
  · rintro ⟨rfl, hcanonical, hcaptured, hlocated, hlisted⟩
    exact ⟨exact_of_keys rfl, strictEq_text.mpr rfl, rfl, hcanonical, hcaptured, hlocated, hlisted⟩

theorem requireCards_records {values : List Value} :
    requireCards (.array (rows.map fun row => .object (cardRecord stamp row))) = .ok values ↔
      values = rows.map (fun row => .object (cardRecord stamp row)) ∧ rows.length ≤ maxCards ∧
        rows.head?.map CardRow.cardType = some (js "ProposalCard") := by
  rw [requireCards_ok, Value.array.injEq]
  constructor
  · rintro ⟨rfl, hlength, card, rest, hcards, htyped⟩
    refine ⟨rfl, by rwa [List.length_map] at hlength, ?_⟩
    cases rows with
    | nil => cases hcards
    | cons row rows =>
      obtain rfl : cardRecord stamp row = card := Value.object.inj (List.cons.inj hcards).1
      exact congrArg some (Value.string.inj (strictEq_text.mp htyped))
  · rintro ⟨rfl, hlength, hopens⟩
    refine ⟨rfl, by rwa [List.length_map], ?_⟩
    cases rows with
    | nil => cases hopens
    | cons row rows =>
      refine ⟨_, _, rfl, strictEq_text.mpr ?_⟩
      rw [cardRecord_type, Option.some.inj hopens]

section Acceptance
variable {log : List Action} {sys : Sys env} {expected : Option JsString} {facts : CardChainFacts}

/-- What is accepted is exportable. -/
theorem exportable_of_accepted (hrun : Accepts (Gateway.step env) (Sys.initial env) log sys)
    (h : verifyCardChainArtifact rt
      (.object (chainRecord stamp p capturedAt sourceUrl (sys.db.chainOf p))) expected = .ok facts) :
    Exportable rt stamp p capturedAt sourceUrl (sys.db.chainOf p) ∧
      facts.cardHashes = (sys.db.chainOf p).map CardRow.cardHash := by
  rw [Gateway.chainOf_chained ((Gateway.reachable_chained hrun).2 p)] at h ⊢
  obtain ⟨artifact, q, href, values, es, hinput, henvelope, hcarried, hlinked, hsum, -, rfl⟩ :=
    verifyCardChainArtifact_ok.mp h
  obtain ⟨rfl, hcanonical, hcaptured, hlocated, hlisted⟩ :=
    (envelope_iff (Value.object.inj hinput).symm).mp henvelope
  obtain ⟨rfl, hcount, hopens⟩ := requireCards_records.mp hlisted
  obtain ⟨hstored, hsizes, hhashes, hkinds⟩ := stored_of_carried hcarried hlinked
  have honce : ∀ row ∈ (sys.db.cardsOf q).tail, row.cardType ≠ js "ProposalCard" := by
    intro row hrow
    obtain ⟨i, hi, rfl⟩ := List.getElem_of_mem hrow
    rw [List.getElem_tail]
    exact hkinds (i + 1) _ (List.getElem?_eq_getElem _) (by omega)
  rw [hsizes] at hsum
  exact ⟨⟨hcanonical, hcaptured, ⟨href, hlocated⟩, hcount, hopens, honce, hstored, hsum⟩, hhashes⟩

/-- What is exportable is accepted. -/
theorem accepted_of_exportable (hrun : Accepts (Gateway.step env) (Sys.initial env) log sys)
    (hsha : rt.sha256 = env.sha256) (hportable : ∀ row ∈ sys.db.cardsOf p, Portable env row)
    (h : Exportable rt stamp p capturedAt sourceUrl (sys.db.chainOf p)) :
    ∃ facts, verifyCardChainArtifact rt
      (.object (chainRecord stamp p capturedAt sourceUrl (sys.db.chainOf p))) none = .ok facts := by
  have hchain := (Gateway.reachable_chained hrun).2 p
  have hnames := (Gateway.reachable_nameLaw hrun).2.rows
  rw [Gateway.chainOf_chained hchain] at h ⊢
  have hproposal : p ≠ [] := by
    rintro rfl
    cases h.canonical
  have hkinds : ∀ (j : Nat) (row : CardRow), (sys.db.cardsOf p)[j]? = some row →
      (row.cardType = js "ProposalCard" ↔ j = 0) := by
    have hopens := h.opens
    have honce := h.once
    revert hopens honce
    cases sys.db.cardsOf p with
    | nil => exact fun hopens => nomatch hopens
    | cons first rest => exact fun hopens => (kinds_iff (Option.some.inj hopens)).mp
  obtain ⟨es, hcarried, hlinked, hsizes, -⟩ := carried_of_sealed hsha hproposal hchain
    (fun row hrow => ⟨eq_of_beq (List.mem_filter.mp hrow).2, hnames row (List.mem_filter.mp hrow).1,
      hportable row hrow, h.stored row hrow⟩)
    (by rw [Nat.zero_add]; exact h.count) fun j row hrow => by rw [Nat.zero_add, hkinds j row hrow]
  obtain ⟨href, hlocated⟩ := h.located
  refine ⟨_, verifyCardChainArtifact_ok.mpr ⟨_, p, href, _, es, rfl, (envelope_iff rfl).mpr
    ⟨rfl, h.canonical, h.captured, hlocated, requireCards_records.mpr ⟨rfl, h.count, h.opens⟩⟩,
    hcarried, hlinked, ?_, rfl, rfl⟩⟩
  rw [hsizes]
  exact h.total

end Acceptance

end Chains

section Sample
open Concordia.Gateway (sampleEnv sampleSealed)

def isPortable (env : Env) (row : CardRow) : Bool :=
  (Gateway.rowData env row).any fun data => (image (.dict data)).isSome &&
    depth (.dict data) ≤ 128 && (data.lookup (js "card_hash")).isNone

theorem isPortable_iff {env : Env} {row : CardRow} : isPortable env row = true ↔ Portable env row := by
  simp only [isPortable, Option.any_eq_true, Bool.and_eq_true, decide_eq_true_eq,
    Option.isSome_iff_exists, Option.isNone_iff_eq_none, Portable]
  constructor
  · rintro ⟨data, hdata, ⟨⟨x, hx⟩, hdepth⟩, hunhashed⟩
    exact ⟨data, x, hdata, hx, hdepth, hunhashed⟩
  · rintro ⟨data, x, hdata, hx, hdepth, hunhashed⟩
    exact ⟨data, hdata, ⟨⟨x, hx⟩, hdepth⟩, hunhashed⟩

/-- Two unpublished cards of an openable chain. -/
structure Unpublished (rows : List CardRow) : Prop where
  two : rows.length = 2
  opens : rows.head?.map CardRow.cardType = some (js "ProposalCard")
  once : ∀ row ∈ rows.tail, row.cardType ≠ js "ProposalCard"
  portable : ∀ row ∈ rows, isPortable sampleEnv row = true
  unpublished : ∀ row ∈ rows, row.publishedAt = none
  small : ∀ row ∈ rows, rowSize row ≤ maxCardJsonBytes
  total : (rows.map rowSize).sum ≤ maxTotalCardJsonBytes

def sampleVerifier : Runtime := { sampleRuntime with sha256 := Gateway.sampleDigest }

theorem Unpublished.exportable {rows : List CardRow} (h : Unpublished rows) :
    Exportable sampleVerifier (fun _ => []) (js "P1") (js "2026-01-02T03:04:05Z") sampleUrl rows := by
  have hsource : (requireSourceUrl sampleVerifier (.string sampleUrl) (js "P1")
      "card-chain source_url").toOption = some sampleUrl := by
    decide +kernel
  refine ⟨rfl, by decide +kernel, ⟨_, ok_of_toOption hsource⟩, ?_, h.opens, h.once, ?_, h.total⟩
  · rw [h.two]
    decide
  · intro row hrow
    refine ⟨h.small row hrow, fun time htime => ?_⟩
    rw [h.unpublished row hrow] at htime
    cases htime

theorem sampleSealed_unpublished : Unpublished (sampleSealed.1.db.cardsOf (js "P1")) := by
  have h : ∃ rows, sampleSealed.1.db.cardsOf (js "P1") = rows ∧ rows.length = 2 ∧
      rows.head?.map CardRow.cardType = some (js "ProposalCard") ∧
        (∀ row ∈ rows.tail, row.cardType ≠ js "ProposalCard") ∧
          (∀ row ∈ rows, isPortable sampleEnv row = true) ∧ (∀ row ∈ rows, row.publishedAt = none) ∧
            (∀ row ∈ rows, rowSize row ≤ maxCardJsonBytes) ∧
              (rows.map rowSize).sum ≤ maxTotalCardJsonBytes :=
    ⟨_, rfl, by decide +kernel⟩
  obtain ⟨rows, hrows, htwo, hopens, honce, hportable, hunpublished, hsmall, htotal⟩ := h
  rw [hrows]
  exact ⟨htwo, hopens, honce, hportable, hunpublished, hsmall, htotal⟩

end Sample
end Concordia.Verify.CardChain
