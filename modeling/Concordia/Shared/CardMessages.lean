import Concordia.Shared.CardIntake
import Concordia.Gateway.Models

/-! `format_card_message`, and which card the scan takes from the message it renders. -/
namespace Concordia.Shared.CardIntake
open Concordia.Python Concordia.Locke
open Concordia.Js hiding Value

section Format
variable (str : Value → Str)

/-- A value in an f-string. -/
def shown : Value → Str
  | .str s => s
  | v => str v

/-- `s[:n]`, in code points. -/
def takePoints : Nat → Str → Str
  | 0, _ => []
  | _ + 1, [] => []
  | _ + 1, [u] => [u]
  | n + 1, u :: v :: rest =>
    if isHighSurrogate u && isLowSurrogate v then u :: v :: takePoints n rest
    else u :: takePoints n (v :: rest)

/-- `value[:12]`, which only texts and lists have. -/
def firstTwelve : Value → Option Value
  | .str s => some (.str (takePoints 12 s))
  | .list elements => some (.list (elements.take 12))
  | _ => none

/-- `d.get(key, default)`. -/
def getOr (card : Dict) (key : String) (default : Value) : Value :=
  (card.lookup (js key)).getD default

/-- The line of a card type under the header. -/
def summaryLine (card : Dict) (cardType : Str) : Option Str :=
  let field (key : String) (default : String) := shown str (getOr card key (.str (js default)))
  if cardType = js "ProposalCard" then
    some (js "🚨 " ++ field "preliminary_severity" "unknown" ++ js " — " ++ field "title" "" ++
      js " (from " ++ field "source" "" ++ js ")")
  else if cardType = js "TriageDecision" then
    some (js "📋 Decision: " ++ field "decision" "" ++ js " (noise score: " ++
      field "noise_score" "?" ++ js ")")
  else if cardType = js "Assessment" then
    some (js "🔬 Severity: " ++ field "severity" "?" ++ js ", Evidence: " ++
      field "evidence_strength" "?")
  else if cardType = js "Verdict" then some (js "⚖️ Verdict: " ++ field "decision" "?")
  else if cardType = js "ResponsePlan" then
    some (js "📝 Risk: " ++ field "risk_level" "?" ++ js ", Human approval: " ++
      shown str (getOr card "requires_human_approval" (.bool false)))
  else if cardType = js "CasperExecutionReceipt" then some (js "✅ Action completed")
  else none

def summaryHeader (card : Dict) (cardHash : Value) : Str :=
  js "**" ++ shown str (getOr card "card_type" (.str (js "Card"))) ++ js "** for proposal `" ++
    shown str (getOr card "proposal_id" (getOr card "signal_id" (.str (js "unknown")))) ++
    js "` (seq " ++ shown str (getOr card "sequence_number" (.str (js "?"))) ++ js ", hash `" ++
    shown str cardHash ++ js "…`)"

/-- The readable part of the message; a `card_hash` that cannot be cut raises an error. -/
def summary (card : Dict) : Option Str :=
  (firstTwelve (getOr card "card_hash" (.str []))).map fun cardHash =>
    summaryHeader str card cardHash ++
      match getOr card "card_type" (.str (js "Card")) with
      | .str cardType => ((summaryLine str card cardType).map (newline :: ·)).getD []
      | _ => []

/-- The fenced block at the end of the message. -/
def cardBlock (card : Dict) : Str :=
  newline :: newline :: (fence ++ js "json" ++ newline :: dumpsIndent 0 (.dict card) ++ fenceClose)

def formatCardMessage (card : Dict) : Option Str :=
  (summary str card).map fun lines => lines ++ cardBlock card

/-- A sealed card, as the Gateway returns it: a JSON object with a type and a hash. -/
structure SealedCard (floats : FloatFormat) where
  items : Dict
  wellFormed : WellFormed floats (.dict items)
  typed : (items.lookup (js "card_type")).isSome = true
  cardHash : Str
  hashed : items.lookup (js "card_hash") = some (.str cardHash)

end Format

/-! The scan over a text with a newline behind it. -/
section Scan
variable {literal s t x : Str}

theorem isPrefixOf_line (h : newline ∉ literal) :
    literal.isPrefixOf (s ++ newline :: x) = literal.isPrefixOf s := by
  induction literal generalizing s with
  | nil => rfl
  | cons u literal ih =>
    cases s with
    | nil =>
      have hne : (u == newline) = false := beq_eq_false_iff_ne.mpr (List.ne_of_not_mem_cons h).symm
      simp only [List.nil_append, List.isPrefixOf, hne, Bool.false_and]
    | cons v s =>
      have hrest := @ih s (List.not_mem_of_not_mem_cons h)
      simp only [List.cons_append, List.isPrefixOf, hrest]

theorem isPrefixOf_long (h : literal.length ≤ s.length) :
    literal.isPrefixOf (s ++ x) = literal.isPrefixOf s := by
  induction literal generalizing s with
  | nil => rfl
  | cons u literal ih =>
    cases s with
    | nil => cases h
    | cons v s =>
      have hrest := @ih s (Nat.le_of_succ_le_succ h)
      simp only [List.cons_append, List.isPrefixOf, hrest]

theorem after_line (h : newline ∉ literal) :
    after literal (s ++ newline :: x) = (after literal s).map (· ++ newline :: x) := by
  unfold after
  rw [isPrefixOf_line h]
  split_ifs with hprefix
  · have hle := (List.isPrefixOf_iff_prefix.mp hprefix).length_le
    rw [List.drop_append_of_le_length hle]
    rfl
  · rfl

theorem fenceOpening_line :
    fenceOpening (s ++ newline :: x) = (fenceOpening s).map (· ++ newline :: x) := by
  unfold fenceOpening
  rw [after_line (by decide), Option.map_map, Option.map_map]
  congr 1
  funext t
  simp only [Function.comp_apply]
  rw [after_line (by decide)]
  cases after (js "json") t <;> rfl

theorem lineStarts_stopped (h : lineStarts (s ++ [newline]) = []) :
    lineStarts (s ++ newline :: x) = [] := by
  induction s with
  | nil => cases h
  | cons u s ih =>
    simp only [List.cons_append, lineStarts] at h ⊢
    split_ifs at h ⊢ with hwhite hline
    · exact ih h
    · rfl

theorem lineStarts_suffix (h : t ∈ lineStarts s) : t <:+ s := by
  induction s with
  | nil => cases h
  | cons u s ih =>
    rw [lineStarts] at h
    split_ifs at h with hwhite hline
    · rcases List.mem_cons.mp h with rfl | h
      · exact List.suffix_cons u t
      · exact (ih h).trans (List.suffix_cons u s)
    · exact (ih h).trans (List.suffix_cons u s)
    · cases h

/-- A text with something visible in it ends its blank lines itself. -/
theorem lineStarts_append (h : ∃ u ∈ s, isWhite u = false) :
    lineStarts (s ++ x) = (lineStarts s).map (· ++ x) := by
  induction s with
  | nil =>
    obtain ⟨u, hmem, -⟩ := h
    cases hmem
  | cons u s ih =>
    rw [List.cons_append, lineStarts, lineStarts]
    split_ifs with hwhite hline
    · rw [ih (by grind), List.map_cons]
    · exact ih (by grind)
    · rfl

theorem closeFence_sound {block later : Str} (h : closeFence s = some (block, later)) :
    s = block ++ (fenceClose ++ later) := by
  induction s generalizing block with
  | nil => cases h
  | cons u s ih =>
    rw [closeFence] at h
    split_ifs at h with hclose
    · obtain ⟨rest, heq⟩ := List.isPrefixOf_iff_prefix.mp hclose
      obtain ⟨rfl, rfl⟩ := Prod.mk.inj (Option.some.inj h)
      rw [← heq]
      rfl
    · obtain ⟨⟨inner, behind⟩, hinner, heq⟩ := Option.map_eq_some_iff.mp h
      obtain ⟨rfl, rfl⟩ := Prod.mk.inj heq
      rw [List.cons_append, ← ih hinner]

theorem closeFence_append {block later : Str} (h : closeFence s = some (block, later)) :
    closeFence (s ++ x) = some (block, later ++ x) := by
  induction s generalizing block with
  | nil => cases h
  | cons u s ih =>
    have hlong : fenceClose.length ≤ (u :: s).length := by
      rw [closeFence_sound h]
      simp only [List.length_append]
      omega
    rw [List.cons_append, closeFence, ← List.cons_append, isPrefixOf_long hlong]
    rw [closeFence] at h
    split_ifs at h ⊢ with hclose
    · obtain ⟨rfl, rfl⟩ := Prod.mk.inj (Option.some.inj h)
      have hdrop : ((u :: s) ++ x).drop 4 = (u :: s).drop 4 ++ x :=
        List.drop_append_of_le_length hlong
      rw [hdrop]
    · obtain ⟨⟨inner, behind⟩, hinner, heq⟩ := Option.map_eq_some_iff.mp h
      obtain ⟨rfl, rfl⟩ := Prod.mk.inj heq
      rw [ih hinner]
      rfl

/-- The text of a fence, from its last possible line start on. -/
def fenceBody (s : Str) : Option Str := (fenceOpening s).bind fun t => (lineStarts t).getLast?

/-- A fence that opens and closes in a text is matched so with anything behind it. -/
theorem matchFence_closed {block later : Str}
    (h : (fenceBody s).bind closeFence = some (block, later)) :
    matchFence (s ++ newline :: x) = some (block, later ++ newline :: x) := by
  obtain ⟨body, hbody, hclose⟩ := Option.bind_eq_some_iff.mp h
  obtain ⟨t, hopening, hlast⟩ := Option.bind_eq_some_iff.mp hbody
  obtain ⟨front, hstarts⟩ := List.getLast?_eq_some_iff.mp hlast
  have hvisible : ∃ u ∈ t, isWhite u = false := by
    have hsuffix := lineStarts_suffix (List.mem_of_getLast? hlast)
    refine ⟨tick, hsuffix.subset ?_, by decide⟩
    rw [closeFence_sound hclose]
    exact List.mem_append_right block (List.mem_cons_of_mem _ List.mem_cons_self)
  have hbehind := @closeFence_append body (newline :: x) block later hclose
  rw [matchFence, fenceOpening_line, hopening, Option.map_some, Option.bind_some,
    lineStarts_append hvisible, hstarts, List.map_append, List.map_singleton,
    List.reverse_append, List.reverse_singleton, List.singleton_append, List.findSome?_cons,
    hbehind]

theorem matchFence_absent (h : fenceBody (s ++ [newline]) = none) :
    matchFence (s ++ newline :: x) = none := by
  rw [fenceBody, fenceOpening_line] at h
  rw [matchFence, fenceOpening_line]
  cases hopening : fenceOpening s with
  | none => rfl
  | some t =>
    rw [hopening, Option.map_some, Option.bind_some, List.getLast?_eq_none_iff] at h
    rw [Option.map_some, Option.bind_some, lineStarts_stopped h]
    rfl

/-- The blocks that a text closes, and the text from a fence on that it leaves open. -/
def fencesIn : Nat → Str → List Str × Str
  | 0, _ => ([], [])
  | _ + 1, [] => ([], [])
  | n + 1, u :: rest =>
    if (fenceBody (u :: rest ++ [newline])).isNone then fencesIn n rest
    else
      match (fenceBody (u :: rest)).bind closeFence with
      | some (block, later) => (block :: (fencesIn n later).1, (fencesIn n later).2)
      | none => ([], u :: rest)

theorem fenceBody_shrinks {block later : Str}
    (h : (fenceBody s).bind closeFence = some (block, later)) : later.length < s.length := by
  obtain ⟨body, hbody, hclose⟩ := Option.bind_eq_some_iff.mp h
  obtain ⟨t, hopening, hlast⟩ := Option.bind_eq_some_iff.mp hbody
  obtain ⟨r, hfence, hjson⟩ := Option.map_eq_some_iff.mp hopening
  have hbody' : body.length ≤ t.length := (lineStarts_suffix (List.mem_of_getLast? hlast)).length_le
  have hlater : body.length = block.length + (4 + later.length) := by
    rw [closeFence_sound hclose, List.length_append, List.length_append]
    rfl
  have hafter : ∀ {literal s r : Str}, after literal s = some r → r.length ≤ s.length := by
    intro literal s r hr
    rw [after] at hr
    split_ifs at hr
    obtain rfl := Option.some.inj hr
    rw [List.length_drop]
    omega
  have hr := hafter hfence
  have ht : t.length ≤ r.length := by
    rw [← hjson]
    cases hcase : after (js "json") r with
    | none => exact le_rfl
    | some rest => exact hafter hcase
  omega

/-- The scan over a text and a line behind it: the blocks of the text, then the scan from the fence
it leaves open on. -/
theorem findFences_append (n : Nat) {k : Nat} (hn : s.length ≤ n) (hk : s.length + x.length < k) :
    ∃ m, (fencesIn n s).2.length + x.length < m ∧ findFences k (s ++ newline :: x) =
      (fencesIn n s).1 ++ findFences m ((fencesIn n s).2 ++ newline :: x) := by
  induction n generalizing s k with
  | zero =>
    obtain rfl := List.length_eq_zero_iff.mp (Nat.le_zero.mp hn)
    exact ⟨k, hk, rfl⟩
  | succ n ih =>
    cases s with
    | nil => exact ⟨k, hk, rfl⟩
    | cons u s =>
      obtain ⟨k, rfl⟩ : ∃ k', k = k' + 1 := ⟨k - 1, by omega⟩
      simp only [List.length_cons] at hn hk
      rw [fencesIn]
      split_ifs with habsent
      · have hnone := @matchFence_absent (u :: s) x (Option.isNone_iff_eq_none.mp habsent)
        obtain ⟨m, hm, hscan⟩ := @ih s k (by omega) (by omega)
        refine ⟨m, hm, ?_⟩
        rw [List.cons_append] at hnone
        rw [List.cons_append, findFences, hnone]
        exact hscan
      · cases hclosed : (fenceBody (u :: s)).bind closeFence with
        | none => exact ⟨k + 1, hk, rfl⟩
        | some found =>
          obtain ⟨block, later⟩ := found
          have hmatch := @matchFence_closed (u :: s) x block later hclosed
          have hshort := fenceBody_shrinks hclosed
          simp only [List.length_cons] at hshort
          obtain ⟨m, hm, hscan⟩ := @ih later k (by omega) (by omega)
          refine ⟨m, hm, ?_⟩
          rw [List.cons_append] at hmatch
          rw [List.cons_append, findFences, hmatch]
          simp only [hscan, List.cons_append]

end Scan

section Publication
variable {floats : FloatFormat}

theorem strip_closed {first last : UInt16} (middle : Str) (hfirst : isWhite first = false)
    (hlast : isWhite last = false) : strip (first :: (middle ++ [last])) =
      first :: (middle ++ [last]) := by
  have hleft : lstrip (first :: (middle ++ [last])) = first :: (middle ++ [last]) :=
    List.dropWhile_cons_of_neg (by simp [hfirst])
  have hright : lstrip (last :: (middle.reverse ++ [first])) = last :: (middle.reverse ++ [first]) :=
    List.dropWhile_cons_of_neg (by simp [hlast])
  have hreverse : (first :: (middle ++ [last])).reverse = last :: (middle.reverse ++ [first]) := by
    simp
  rw [strip, hleft, hreverse, hright]
  simp

variable (card : SealedCard floats)

def SealedCard.json : Str := dumpsIndent 0 (.dict card.items)

theorem SealedCard.json_braces :
    ∃ middle, card.json = Json.leftBrace :: (middle ++ [Json.rightBrace]) := by
  unfold SealedCard.json
  cases hitems : card.items with
  | nil =>
    have htyped := card.typed
    rw [hitems] at htyped
    cases htyped
  | cons item items =>
    rw [dumpsIndent, List.append_assoc, List.append_assoc, List.cons_append]
    exact ⟨newlineAt 1 ++ (indentItems 1 (item :: items) ++ newlineAt 0), by simp⟩

theorem SealedCard.passes : Passes card.json := passes_dumpsIndent card.wellFormed 0

theorem SealedCard.cardInBlock : cardInBlock floats card.json = some card.items := by
  obtain ⟨middle, hjson⟩ := card.json_braces
  have hstrip : strip card.json = card.json := by
    rw [hjson]
    exact strip_closed middle (by decide) (by decide)
  have hloads : loads floats card.json = some (.dict card.items) :=
    loads_dumpsIndent card.wellFormed 0
  rw [CardIntake.cardInBlock, hstrip, cardIn, hloads]
  exact if_pos card.typed

theorem SealedCard.matchFence :
    matchFence (fence ++ js "json" ++ newline :: card.json ++ fenceClose) = some (card.json, []) := by
  have hopening : fenceOpening (fence ++ js "json" ++ newline :: card.json ++ fenceClose) =
      some (newline :: (card.json ++ fenceClose)) := rfl
  have hstarts : lineStarts (newline :: (card.json ++ fenceClose)) = [card.json ++ fenceClose] := by
    obtain ⟨middle, hjson⟩ := card.json_braces
    rw [hjson]
    rfl
  have hclose : closeFence (card.json ++ fenceClose) = some (card.json, []) := by
    rw [card.passes fenceClose, show closeFence fenceClose = some ([], []) by decide]
    simp
  rw [CardIntake.matchFence, hopening, Option.bind_some, hstarts, List.reverse_singleton,
    List.findSome?_cons, hclose]

theorem SealedCard.findFences {m : Nat} (hm : 2 < m) :
    findFences m (cardBlock card.items) = [card.json] := by
  obtain ⟨m, rfl⟩ : ∃ k, m = k + 3 := ⟨m - 3, by omega⟩
  have hfence := card.matchFence
  have hline : ∀ s, CardIntake.matchFence (newline :: s) = none := by
    intro s
    rfl
  rw [cardBlock, CardIntake.findFences, hline, CardIntake.findFences, hline]
  simp only [fence, List.cons_append] at hfence ⊢
  rw [CardIntake.findFences]
  simp only [SealedCard.json] at hfence ⊢
  rw [hfence]
  cases m <;> rfl

/-- The first card among the blocks that the lines of a message close. -/
def firstCard (floats : FloatFormat) (lines : Str) : Option Dict :=
  (fencesIn lines.length lines).1.findSome? (CardIntake.cardInBlock floats)

/-- A fence that the lines of a message leave open. -/
def openFence (lines : Str) : Str := (fencesIn lines.length lines).2

theorem scan_message (lines : Str) : ∃ m, 2 < m ∧
    CardIntake.findFences (lines ++ cardBlock card.items).length (lines ++ cardBlock card.items) =
      (fencesIn lines.length lines).1 ++
        CardIntake.findFences m (openFence lines ++ cardBlock card.items) := by
  obtain ⟨m, hm, hscan⟩ := @findFences_append lines
    (newline :: (fence ++ js "json" ++ newline :: card.json ++ fenceClose)) lines.length
    (lines ++ cardBlock card.items).length le_rfl (by rw [List.length_append]; exact Nat.lt_succ_self _)
  refine ⟨m, ?_, hscan⟩
  simp only [List.length_cons, List.length_append, fence] at hm
  omega

theorem extract_first {lines : Str} {other : Dict} (h : firstCard floats lines = some other) :
    extractSealedCard floats (lines ++ cardBlock card.items) = some other := by
  obtain ⟨m, -, hscan⟩ := scan_message card lines
  rw [extractSealedCard, hscan, List.findSome?_append, ← firstCard, h]
  rfl

theorem extract_closed {lines : Str} (hnone : firstCard floats lines = none)
    (hclosed : openFence lines = []) :
    extractSealedCard floats (lines ++ cardBlock card.items) = some card.items := by
  obtain ⟨m, hm, hscan⟩ := scan_message card lines
  rw [extractSealedCard, hscan, List.findSome?_append, ← firstCard, hnone, hclosed,
    List.nil_append, card.findFences hm, List.findSome?_singleton, card.cardInBlock]
  rfl

variable (str : Value → Str)

/-- The readable part of the message for a sealed card. -/
def SealedCard.lines : Str := (summary str card.items).getD []

theorem SealedCard.format :
    formatCardMessage str card.items = some (card.lines str ++ cardBlock card.items) := by
  have hhash : getOr card.items "card_hash" (.str []) = .str card.cardHash := by
    rw [getOr, card.hashed]
    rfl
  obtain ⟨lines, hlines⟩ : ∃ lines, summary str card.items = some lines := by
    rw [summary, hhash]
    exact ⟨_, rfl⟩
  rw [formatCardMessage, SealedCard.lines, hlines]
  rfl

/-- The lines say nothing that the scan takes for another card. -/
def SealedCard.ReadsBack : Prop :=
  match firstCard floats (card.lines str) with
  | some other => other = card.items
  | none => openFence (card.lines str) = []

theorem fencesIn_plain (n : Nat) {lines : Str} (h : occurs fence lines = false) :
    fencesIn n lines = ([], []) := by
  induction n generalizing lines with
  | zero => rfl
  | succ n ih =>
    cases lines with
    | nil => rfl
    | cons u rest =>
      rw [occurs, List.tails_cons, List.any_cons, Bool.or_eq_false_iff] at h
      have hnone : fenceBody (u :: rest ++ [newline]) = none := by
        rw [fenceBody, fenceOpening_line, fenceOpening, after, if_neg (by simp [h.1])]
        rfl
      rw [fencesIn, hnone]
      exact ih h.2

/-- A card whose lines hold no three backticks in a row is read back. -/
theorem SealedCard.readsBack_plain (h : occurs fence (card.lines str) = false) :
    card.ReadsBack str := by
  rw [SealedCard.ReadsBack, firstCard, openFence, fencesIn_plain _ h]
  rfl

/-- A message gives its card back when no text in its lines is a block with another card and none
opens a fence; it gives another card when the first block with a card is that one's. Only a fence
left open, with no card before it, leaves the answer to the rest of the text. -/
theorem publication_law : ∃ message, formatCardMessage str card.items = some message ∧
    (card.ReadsBack str → extractSealedCard floats message = some card.items) ∧
    (extractSealedCard floats message = some card.items → card.ReadsBack str ∨
      firstCard floats (card.lines str) = none ∧ openFence (card.lines str) ≠ []) := by
  refine ⟨_, card.format str, ?_, ?_⟩
  · intro hreads
    rw [SealedCard.ReadsBack] at hreads
    cases hfirst : firstCard floats (card.lines str) with
    | some other =>
      rw [hfirst] at hreads
      obtain rfl : other = card.items := hreads
      exact extract_first card hfirst
    | none =>
      rw [hfirst] at hreads
      exact extract_closed card hfirst hreads
  · intro hextract
    rw [SealedCard.ReadsBack]
    cases hfirst : firstCard floats (card.lines str) with
    | some other =>
      rw [extract_first card hfirst] at hextract
      exact .inl (Option.some.inj hextract)
    | none =>
      by_cases hopen : openFence (card.lines str) = []
      · exact .inl hopen
      · exact .inr ⟨rfl, hopen⟩

end Publication

section Sample
open Concordia.Gateway (sampleFloats)

def quotedCard : Dict := [(js "card_type", .str (js "Verdict"))]

/-- A proposal whose title quotes a card. -/
def quotingCard : SealedCard sampleFloats where
  items := [(js "card_type", .str (js "ProposalCard")), (js "proposal_id", .str (js "p1")),
    (js "title", .str (js "```json\n\x7b\"card_type\": \"Verdict\"\x7d\n```")),
    (js "sequence_number", .int 1), (js "card_hash", .str (js "ab"))]
  wellFormed := ⟨by decide, trivial, trivial, trivial, trivial, trivial, trivial⟩
  typed := by decide
  cardHash := js "ab"
  hashed := rfl

/-- The lines of its message. -/
def quotingLines : Str :=
  js "**ProposalCard** for proposal `p1` (seq 1, hash `ab…`)\n🚨 unknown — ```json
\x7b\"card_type\": \"Verdict\"\x7d\n``` (from )"

theorem quotingCard_lines : quotingCard.lines (fun _ => js "1") = quotingLines := by
  decide +kernel

theorem quotedCard_read : cardInBlock sampleFloats (dumps (.dict quotedCard)) = some quotedCard := by
  have hstrip : strip (dumps (.dict quotedCard)) = dumps (.dict quotedCard) := by
    decide +kernel
  have hloads : loads sampleFloats (dumps (.dict quotedCard)) = some (.dict quotedCard) :=
    loads_dumps ⟨by decide, trivial, trivial⟩
  rw [cardInBlock, hstrip, cardIn, hloads]
  rfl

theorem quotingLines_first : firstCard sampleFloats quotingLines = some quotedCard := by
  have hblocks : (fencesIn quotingLines.length quotingLines).1 = [dumps (.dict quotedCard)] := by
    decide +kernel
  rw [firstCard, hblocks, List.findSome?_singleton, quotedCard_read]

/-- The card in the title is taken for the card of the message. -/
theorem title_replaces_card : ∃ message,
    formatCardMessage (fun _ => js "1") quotingCard.items = some message ∧
    extractSealedCard sampleFloats message = some quotedCard ∧
    extractSealedCard sampleFloats message ≠ some quotingCard.items := by
  have hfirst := quotingLines_first
  rw [← quotingCard_lines] at hfirst
  have hextract := extract_first quotingCard hfirst
  refine ⟨_, quotingCard.format _, hextract, ?_⟩
  rw [hextract]
  intro heq
  exact absurd (congrArg List.length (Option.some.inj heq)) (by decide)

end Sample
end Concordia.Shared.CardIntake
