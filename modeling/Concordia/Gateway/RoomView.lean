import Concordia.Shared.Redaction

/-! The public view of a proposal's Council Chamber: which messages it shows, and what its three
patterns strike from them. -/
namespace Concordia.Gateway.RoomView
open Concordia.Python Concordia.Locke Concordia.Lib.Substitution
open Concordia.Shared.Redaction (foldCase isLetter heads heads_clash mark mark_eq)
open Concordia.Js hiding Value

section Patterns

/-- `["\s:=]`. -/
def isSeparator (u : UInt16) : Bool := u == 0x22 || isWhite u || u == 0x3a || u == 0x3d

/-- `[A-Z0-9]`, in any case. -/
def isAlphanumeric (u : UInt16) : Bool := isLetter u || isDigit u

/-- `[0-9a-f-]`, in any case. -/
def isHexDash (u : UInt16) : Bool := (0x61 ≤ foldCase u && foldCase u ≤ 0x66) || isDigit u || u == 0x2d

/-- `[?&]`. -/
def isQueryMark (u : UInt16) : Bool := u == 0x3f || u == 0x26

/-- ``[^&\s"`]``. -/
def isQueryValue (u : UInt16) : Bool := u != 0x26 && !isWhite u && u != 0x22 && u != 0x60

/-- `[_\s]`. -/
def isLabelGap (u : UInt16) : Bool := u == 0x5f || isWhite u

/-- `[0-9a-f-]{36}`. -/
def idLength (text : Str) : Option Nat :=
  if 36 ≤ (text.takeWhile isHexDash).length then some 36 else none

/-- `[A-Z0-9]{6,64}|[0-9a-f-]{36}`. -/
def nonceLength (text : Str) : Option Nat :=
  let run := text.takeWhile isAlphanumeric
  if 6 ≤ run.length then some (min run.length 64) else idLength text

/-- `(nonce["\s:=]+)([A-Z0-9]{6,64}|[0-9a-f-]{36})`. No value begins with a separator, so the
separators are taken whole. -/
def findNonce (_before text : Str) : Option (Nat × Nat) :=
  let label := js "nonce"
  if heads label text then
    let separators := (text.drop label.length).takeWhile isSeparator
    if separators.isEmpty then none
    else (nonceLength (text.drop (label.length + separators.length))).map fun n =>
      (label.length + separators.length, n)
  else none

/-- ``([?&]nonce=)[^&\s"`]+``. -/
def findQuery (_before : Str) : Str → Option (Nat × Nat)
  | [] => none
  | u :: text =>
    let label := js "nonce="
    if isQueryMark u && heads label text then
      let run := (text.drop label.length).takeWhile isQueryValue
      if run.isEmpty then none else some (1 + label.length, run.length)
    else none

/-- `(authorization[_\s]*id["\s:=]+)[0-9a-f-]{36}`. -/
def findAuthorization (_before text : Str) : Option (Nat × Nat) :=
  let label := js "authorization"
  if heads label text then
    let gap := (text.drop label.length).takeWhile isLabelGap
    let behind := (text.drop label.length).drop gap.length
    if heads (js "id") behind then
      let separators := (behind.drop 2).takeWhile isSeparator
      if separators.isEmpty then none
      else (idLength ((behind.drop 2).drop separators.length)).map fun n =>
        (label.length + gap.length + 2 + separators.length, n)
    else none
  else none

theorem idLength_some {text : Str} {n : Nat} (h : idLength text = some n) :
    0 < n ∧ n ≤ text.length := by
  unfold idLength at h
  split at h
  · rename_i hrun
    have hle := (List.takeWhile_sublist (l := text) isHexDash).length_le
    obtain rfl := Option.some.inj h
    omega
  · cases h

theorem nonceLength_some {text : Str} {n : Nat} (h : nonceLength text = some n) :
    0 < n ∧ n ≤ text.length := by
  unfold nonceLength at h
  dsimp only at h
  split at h
  · rename_i hrun
    have hle := (List.takeWhile_sublist (l := text) isAlphanumeric).length_le
    obtain rfl := Option.some.inj h
    omega
  · exact idLength_some h

def noncePattern : Matcher UInt16 where
  find := findNonce
  replaces := by
    intro before text kept replaced h
    unfold findNonce at h
    dsimp only at h
    split at h
    · split at h
      · cases h
      · obtain ⟨n, hn, heq⟩ := Option.map_eq_some_iff.mp h
        obtain ⟨hpos, hle⟩ := nonceLength_some hn
        obtain ⟨rfl, rfl⟩ := Prod.mk.inj heq
        rw [List.length_drop] at hle
        omega
    · cases h

def queryPattern : Matcher UInt16 where
  find := findQuery
  replaces := by
    intro before text kept replaced h
    cases text with
    | nil => cases h
    | cons u text =>
      unfold findQuery at h
      dsimp only at h
      split at h
      · split at h
        · cases h
        · rename_i hrun
          obtain ⟨rfl, rfl⟩ := Prod.mk.inj (Option.some.inj h)
          have hle := (List.takeWhile_sublist (l := text.drop (js "nonce=").length)
            isQueryValue).length_le
          rw [List.isEmpty_iff_length_eq_zero] at hrun
          rw [List.length_drop] at hle
          rw [List.length_cons]
          omega
      · cases h

def authorizationPattern : Matcher UInt16 where
  find := findAuthorization
  replaces := by
    intro before text kept replaced h
    unfold findAuthorization at h
    dsimp only at h
    split at h
    · split at h
      · split at h
        · cases h
        · obtain ⟨n, hn, heq⟩ := Option.map_eq_some_iff.mp h
          obtain ⟨hpos, hle⟩ := idLength_some hn
          obtain ⟨rfl, rfl⟩ := Prod.mk.inj heq
          simp only [List.length_drop] at hle
          omega
      · cases h
    · cases h

/-- The three substitutions, one behind the other. -/
def sanitizedContent (content : Str) : Str :=
  authorizationPattern.substitute mark
    (queryPattern.substitute mark (noncePattern.substitute mark content))

end Patterns

section Readings

/-- A text whose gaps are the values that have been struck from it. -/
abbrev Reading := List (Option UInt16)

/-- A class of characters, and whether it goes over gaps. -/
def across (gaps : Bool) (q : UInt16 → Bool) : Option UInt16 → Bool
  | some u => q u
  | none => gaps

def headsKept : Str → Reading → Bool
  | [], _ => true
  | c :: word, some u :: reading => foldCase u == c && headsKept word reading
  | _ :: _, _ => false

/-- A query goes over the gaps that are struck already. -/
def readQuery (_before : Reading) : Reading → Option (Nat × Nat)
  | some u :: reading =>
    let label := js "nonce="
    if isQueryMark u && headsKept label reading then
      let run := (reading.drop label.length).takeWhile (across true isQueryValue)
      if run.isEmpty then none else some (1 + label.length, run.length)
    else none
  | _ => none

def idReading (text : Reading) : Option Nat :=
  if 36 ≤ (text.takeWhile (across false isHexDash)).length then some 36 else none

def readAuthorization (_before reading : Reading) : Option (Nat × Nat) :=
  let label := js "authorization"
  if headsKept label reading then
    let gap := (reading.drop label.length).takeWhile (across false isLabelGap)
    let behind := (reading.drop label.length).drop gap.length
    if headsKept (js "id") behind then
      let separators := (behind.drop 2).takeWhile (across false isSeparator)
      if separators.isEmpty then none
      else (idReading ((behind.drop 2).drop separators.length)).map fun n =>
        (label.length + gap.length + 2 + separators.length, n)
    else none
  else none

theorem idReading_some {text : Reading} {n : Nat} (h : idReading text = some n) :
    0 < n ∧ n ≤ text.length := by
  unfold idReading at h
  split at h
  · rename_i hrun
    have hle := (List.takeWhile_sublist (l := text) (across false isHexDash)).length_le
    obtain rfl := Option.some.inj h
    omega
  · cases h

def queryReading : Matcher (Option UInt16) where
  find := readQuery
  replaces := by
    intro before reading kept replaced h
    unfold readQuery at h
    split at h
    · rename_i u reading
      dsimp only at h
      split at h
      · split at h
        · cases h
        · rename_i hrun
          obtain ⟨rfl, rfl⟩ := Prod.mk.inj (Option.some.inj h)
          have hle := (List.takeWhile_sublist (l := reading.drop (js "nonce=").length)
            (across true isQueryValue)).length_le
          rw [List.isEmpty_iff_length_eq_zero] at hrun
          rw [List.length_drop] at hle
          rw [List.length_cons]
          omega
      · cases h
    · cases h

def authorizationReading : Matcher (Option UInt16) where
  find := readAuthorization
  replaces := by
    intro before reading kept replaced h
    unfold readAuthorization at h
    dsimp only at h
    split at h
    · split at h
      · split at h
        · cases h
        · obtain ⟨n, hn, heq⟩ := Option.map_eq_some_iff.mp h
          obtain ⟨hpos, hle⟩ := idReading_some hn
          obtain ⟨rfl, rfl⟩ := Prod.mk.inj heq
          simp only [List.length_drop] at hle
          omega
      · cases h
    · cases h

/-- The content without the values that stand behind a label. -/
def reading (content : Str) : Reading :=
  authorizationReading.strike (queryReading.strike (noncePattern.cut content.length [] content))

/-- A blank for each of them. -/
def unlabelled (content : Str) : Str := (reading content).map fun u => u.getD 0x20

end Readings

/-! The patterns see in a filled text what the readings see in the one with gaps. -/
section Gaps
variable {cells : Reading}

theorem takeWhile_fill {gaps : Bool} {q : UInt16 → Bool}
    (hmark : (gaps = true ∧ mark.all q = true) ∨ (gaps = false ∧ q 0x5b = false)) :
    (fill mark cells).takeWhile q = fill mark (cells.takeWhile (across gaps q)) := by
  induction cells with
  | nil => rfl
  | cons cell cells ih =>
    cases cell with
    | none =>
      rcases hmark with ⟨rfl, hall⟩ | ⟨rfl, hstop⟩
      · rw [List.takeWhile_cons_of_pos rfl, fill_none, fill_none, List.takeWhile_append_of_pos, ih]
        exact fun u hu => List.all_eq_true.mp hall u hu
      · rw [List.takeWhile_cons_of_neg (by simp [across]), fill_none, mark_eq, List.cons_append,
          List.takeWhile_cons_of_neg (by rw [hstop]; decide)]
        rfl
    | some u =>
      rw [fill_some, List.takeWhile_cons, List.takeWhile_cons, ih]
      change (if q u = true then _ else _) = fill mark (if q u = true then _ else _)
      split
      · rfl
      · rfl

theorem drop_takeWhile_fill {gaps : Bool} {q : UInt16 → Bool}
    (h : (fill mark cells).takeWhile q = fill mark (cells.takeWhile (across gaps q))) :
    (fill mark cells).drop ((fill mark cells).takeWhile q).length =
      fill mark (cells.drop (cells.takeWhile (across gaps q)).length) := by
  rw [h, ← drop_fill, ← List.prefix_iff_eq_take.mp (List.takeWhile_prefix _)]

theorem isEmpty_fill : (fill mark cells).isEmpty = cells.isEmpty := by
  cases cells with
  | nil => rfl
  | cons cell cells =>
    cases cell with
    | none => rw [fill_none, mark_eq]; rfl
    | some u => rfl

/-- A run that stops at gaps has none. -/
theorem kept_takeWhile {q : UInt16 → Bool} : none ∉ cells.takeWhile (across false q) := by
  intro hmem
  exact absurd (List.mem_takeWhile_imp hmem) (by simp [across])

theorem length_fill_kept (h : none ∉ cells) : (fill mark cells).length = cells.length := by
  obtain ⟨units, rfl⟩ := map_some_of_kept h
  rw [fill_map_some, List.length_map]

theorem heads_fill {word : Str} (hword : (0x5b : UInt16) ∉ word) :
    heads word (fill mark cells) = headsKept word cells := by
  induction word generalizing cells with
  | nil => rw [heads, headsKept]
  | cons c word ih =>
    rw [List.mem_cons, not_or] at hword
    cases cells with
    | nil => rfl
    | cons cell cells =>
      cases cell with
      | none =>
        have hc : (foldCase 0x5b == c) = false := beq_eq_false_iff_ne.mpr hword.1
        rw [fill_none, mark_eq, List.cons_append, heads, hc]
        rfl
      | some u => rw [fill_some, heads, headsKept, ih hword.2]

theorem headsKept_take {word : Str} (h : headsKept word cells = true) :
    none ∉ cells.take word.length ∧ (cells.take word.length).length = word.length := by
  induction word generalizing cells with
  | nil => simp
  | cons c word ih =>
    cases cells with
    | nil => cases h
    | cons cell cells =>
      cases cell with
      | none => cases h
      | some u =>
        rw [headsKept, Bool.and_eq_true] at h
        obtain ⟨hkept, hlength⟩ := ih h.2
        rw [List.length_cons, List.take_succ_cons, List.mem_cons, not_or, List.length_cons, hlength]
        exact ⟨⟨by simp, hkept⟩, rfl⟩

theorem drop_headsKept {word : Str} (h : headsKept word cells = true) :
    (fill mark cells).drop word.length = fill mark (cells.drop word.length) := by
  obtain ⟨hkept, hlength⟩ := headsKept_take h
  rw [← drop_fill, length_fill_kept hkept, hlength]

theorem fill_take_takeWhile {q : Option UInt16 → Bool} :
    fill mark (cells.take (cells.takeWhile q).length) = fill mark (cells.takeWhile q) := by
  rw [← List.prefix_iff_eq_take.mp (List.takeWhile_prefix _)]

theorem queryReading_sees : Sees queryPattern queryReading mark := by
  apply Sees.of_find
  · intro x y hmark hy before rest
    have hall : ∀ y ∈ mark.tails, y.head?.any isQueryMark = false := by decide
    have hhead := hall y ((List.mem_tails _ _).mpr ⟨x, hmark.symm⟩)
    cases y with
    | nil => exact absurd rfl hy
    | cons u y =>
      change isQueryMark u = false at hhead
      change findQuery before (u :: (y ++ rest)) = none
      rw [findQuery, hhead]
      rfl
  · intro before before' text
    change findQuery before' (fill mark text) = (readQuery before text).map _
    cases text with
    | nil => rfl
    | cons cell cells =>
      cases cell with
      | none => rfl
      | some u =>
        have hrun := @takeWhile_fill (cells.drop (js "nonce=").length) true isQueryValue
          (.inl ⟨rfl, by decide⟩)
        rw [fill_some, findQuery, readQuery, heads_fill (by decide)]
        by_cases hlabel : isQueryMark u && headsKept (js "nonce=") cells
        · dsimp only
          rw [if_pos hlabel, if_pos hlabel,
            drop_headsKept (Bool.and_eq_true_iff.mp hlabel).2, hrun, isEmpty_fill]
          split
          · rfl
          · rw [Option.map_some, Nat.add_comm 1, List.drop_succ_cons, fill_take_takeWhile]
        · dsimp only
          rw [if_neg hlabel, if_neg hlabel]
          rfl
  · intro before text found h
    change readQuery before text = some found at h
    unfold readQuery at h
    split at h
    case h_2 => cases h
    case h_1 u cells =>
      dsimp only at h
      split at h
      case isFalse => cases h
      case isTrue hlabel =>
        split at h
        case isTrue => cases h
        case isFalse =>
          obtain rfl := (Option.some.inj h).symm
          rw [Nat.add_comm 1, List.take_succ_cons, List.mem_cons, not_or]
          exact ⟨by simp, (headsKept_take (Bool.and_eq_true_iff.mp hlabel).2).1⟩

theorem idLength_fill : idLength (fill mark cells) = idReading cells := by
  have hrun := @takeWhile_fill cells false isHexDash (.inr ⟨rfl, by decide⟩)
  rw [idLength, idReading, hrun, length_fill_kept kept_takeWhile]

theorem idReading_take {n : Nat} (h : idReading cells = some n) :
    (fill mark (cells.take n)).length = n := by
  unfold idReading at h
  split at h
  case isFalse => cases h
  case isTrue hrun =>
    obtain rfl := Option.some.inj h
    have hshort : cells.take 36 = (cells.takeWhile (across false isHexDash)).take 36 := by
      conv_rhs => rw [List.prefix_iff_eq_take.mp (List.takeWhile_prefix _)]
      rw [List.take_take, Nat.min_eq_left hrun]
    rw [hshort, length_fill_kept fun hmem => kept_takeWhile (List.mem_of_mem_take hmem),
      List.length_take, Nat.min_eq_left hrun]

/-- The parts before the identifier, in the order in which they are read. -/
structure Labelled (cells : Reading) (m n : Nat) : Prop where
  label : headsKept (js "authorization") cells = true
  gap : ((cells.drop 13).takeWhile (across false isLabelGap)).length = m
  id : headsKept (js "id") ((cells.drop 13).drop m) = true
  separators : ((((cells.drop 13).drop m).drop 2).takeWhile (across false isSeparator)).length = n

theorem readAuthorization_some {before : Reading} {found : Nat × Nat}
    (h : readAuthorization before cells = some found) :
    ∃ m n, Labelled cells m n ∧ found.1 = 13 + m + 2 + n := by
  unfold readAuthorization at h
  dsimp only at h
  split at h
  case isFalse => cases h
  case isTrue hlabel =>
    split at h
    case isFalse => cases h
    case isTrue hid =>
      split at h
      case isTrue => cases h
      case isFalse =>
        obtain ⟨n, -, rfl⟩ := Option.map_eq_some_iff.mp h
        exact ⟨_, _, ⟨hlabel, rfl, hid, rfl⟩, rfl⟩

theorem none_notMem_take_add {m n : Nat} (hm : none ∉ cells.take m)
    (hn : none ∉ (cells.drop m).take n) : none ∉ cells.take (m + n) := by
  rw [List.take_add, List.mem_append, not_or]
  exact ⟨hm, hn⟩

theorem kept_take_takeWhile {q : UInt16 → Bool} :
    none ∉ cells.take (cells.takeWhile (across false q)).length := by
  rw [← List.prefix_iff_eq_take.mp (List.takeWhile_prefix _)]
  exact kept_takeWhile

theorem Labelled.kept {m n : Nat} (h : Labelled cells m n) : none ∉ cells.take (13 + m + 2 + n) := by
  apply none_notMem_take_add
  · apply none_notMem_take_add
    · apply none_notMem_take_add
      · exact (headsKept_take h.label).1
      · rw [← h.gap]
        exact kept_take_takeWhile
    · rw [← List.drop_drop]
      exact (headsKept_take h.id).1
  · rw [← List.drop_drop, ← List.drop_drop, ← h.separators]
    exact kept_take_takeWhile

theorem authorizationReading_sees : Sees authorizationPattern authorizationReading mark := by
  apply Sees.of_find
  · intro x y hmark hy before rest
    have hall : ∀ y ∈ mark.tails, y ≠ [] →
        ((js "authorization").zip y).all (fun pair => foldCase pair.2 == pair.1) = false := by decide
    have hclash := hall y ((List.mem_tails _ _).mpr ⟨x, hmark.symm⟩) hy
    change findAuthorization before (y ++ rest) = none
    rw [findAuthorization, if_neg]
    intro h
    rw [heads_clash h] at hclash
    cases hclash
  · intro before before' text
    change findAuthorization before' (fill mark text) = (readAuthorization before text).map _
    unfold findAuthorization readAuthorization
    dsimp only
    rw [heads_fill (by decide)]
    by_cases hlabel : headsKept (js "authorization") text
    case neg =>
      rw [if_neg hlabel, if_neg hlabel]
      rfl
    case pos =>
      have hgap := @takeWhile_fill (text.drop (js "authorization").length) false isLabelGap
        (.inr ⟨rfl, by decide⟩)
      rw [if_pos hlabel, if_pos hlabel, drop_headsKept hlabel, drop_takeWhile_fill hgap,
        heads_fill (by decide), hgap, length_fill_kept kept_takeWhile]
      generalize hn : ((text.drop (js "authorization").length).takeWhile
        (across false isLabelGap)).length = n
      by_cases hid : headsKept (js "id") ((text.drop (js "authorization").length).drop n)
      case neg =>
        rw [if_neg hid, if_neg hid]
        rfl
      case pos =>
        have hdrop := drop_headsKept hid
        change (fill mark _).drop 2 = fill mark (List.drop 2 _) at hdrop
        rw [if_pos hid, if_pos hid, hdrop]
        have hrun := @takeWhile_fill (((text.drop (js "authorization").length).drop n).drop 2)
          false isSeparator (.inr ⟨rfl, by decide⟩)
        rw [drop_takeWhile_fill hrun, hrun, isEmpty_fill, idLength_fill,
          length_fill_kept kept_takeWhile]
        split
        · rfl
        · rw [Option.map_map]
          generalize hcells : ((((text.drop (js "authorization").length).drop n).drop 2).drop _) =
            behind
          cases hlength : idReading behind with
          | none => rfl
          | some length =>
            rw [Option.map_some, Option.map_some, Function.comp_apply, ← List.drop_drop,
              ← List.drop_drop, ← List.drop_drop, hcells, idReading_take hlength]
  · intro before text found h
    obtain ⟨m, n, hlabelled, heq⟩ := @readAuthorization_some text before found h
    rw [heq]
    exact hlabelled.kept

/-- The content is what the reading shows, with a mark in each gap. -/
theorem sanitizedContent_eq (content : Str) : sanitizedContent content = fill mark (reading content) := by
  unfold sanitizedContent reading
  change authorizationPattern.substitute mark (queryPattern.substitute mark (fill mark _)) = _
  rw [substitute_fill queryReading_sees, substitute_fill authorizationReading_sees]

end Gaps
end Concordia.Gateway.RoomView
