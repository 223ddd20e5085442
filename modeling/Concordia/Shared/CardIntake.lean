import Concordia.Python.Indented
import Concordia.Python.Printable
import Concordia.Locke.Messages

/-! Sealed cards in room messages: the scan for fenced blocks, the fallback to raw objects, and
which texts in front of a block leave the scan where it was. -/
namespace Concordia.Shared.CardIntake
open Concordia.Python Concordia.Locke
open Concordia.Js hiding Value

def tick : UInt16 := 0x60
def fence : Str := [tick, tick, tick]
def fenceClose : Str := newline :: fence

section Extraction

/-- The pattern `(.*?)\n` before three backticks, `.` being any unit: the shortest block, and what
follows its closing fence. -/
def closeFence : Str → Option (Str × Str)
  | [] => none
  | u :: rest =>
    if fenceClose.isPrefixOf (u :: rest) then some ([], (u :: rest).drop 4)
    else (closeFence rest).map fun (block, later) => (u :: block, later)

/-- Where the pattern `\s*\n` can end, from the first place to the last. -/
def lineStarts : Str → List Str
  | [] => []
  | u :: rest =>
    if isWhite u then if u = newline then rest :: lineStarts rest else lineStarts rest else []

/-- The text behind an opening fence, with its optional `json`. -/
def fenceOpening (s : Str) : Option Str :=
  (after fence s).map fun t => (after (js "json") t).getD t

/-- A match of the whole pattern here; `\s*` takes as much as it can. -/
def matchFence (s : Str) : Option (Str × Str) :=
  (fenceOpening s).bind fun t => (lineStarts t).reverse.findSome? closeFence

/-- `re.findall`, for at most so many units. -/
def findFences : Nat → Str → List Str
  | 0, _ => []
  | _ + 1, [] => []
  | n + 1, u :: rest =>
    match matchFence (u :: rest) with
    | some (block, later) => block :: findFences n later
    | none => findFences n rest

/-- A raw object from behind its brace on: `deep` inside the one level of nesting allowed. -/
def rawObject (deep : Bool) : Str → Option (Str × Str)
  | [] => none
  | u :: rest =>
    if u = Json.rightBrace then
      if deep then (rawObject false rest).map fun (text, later) => (u :: text, later)
      else some ([u], rest)
    else if u = Json.leftBrace then
      if deep then none else (rawObject true rest).map fun (text, later) => (u :: text, later)
    else (rawObject deep rest).map fun (text, later) => (u :: text, later)

def findObjects : Nat → Str → List Str
  | 0, _ => []
  | _ + 1, [] => []
  | n + 1, u :: rest =>
    match if u = Json.leftBrace then rawObject false rest else none with
    | some (text, later) => (u :: text) :: findObjects n later
    | none => findObjects n rest

variable (floats : FloatFormat)

/-- The dictionary in a text, when it is one with a `card_type`. -/
def cardIn (text : Str) : Option Dict :=
  match loads floats text with
  | some (.dict data) => if (data.lookup (js "card_type")).isSome then some data else none
  | _ => none

def cardInBlock (block : Str) : Option Dict := cardIn floats (strip block)

def extractSealedCard (content : Str) : Option Dict :=
  match (findFences content.length content).findSome? (cardInBlock floats) with
  | some data => some data
  | none => (findObjects content.length content).findSome? (cardIn floats)

end Extraction

/-! Texts that no closing fence starts in, whatever follows them. -/
section Passing

def Passes (s : Str) : Prop :=
  ∀ t, closeFence (s ++ t) = (closeFence t).map fun r => (s ++ r.1, r.2)

variable {s t : Str}

/-- A text that begins, and not with a backtick. -/
def Opens (s : Str) : Prop := ∃ u t, s = u :: t ∧ u ≠ tick

theorem Opens.append (h : Opens s) (t : Str) : Opens (s ++ t) := by
  obtain ⟨u, rest, rfl, hu⟩ := h
  exact ⟨u, rest ++ t, rfl, hu⟩

theorem Passes.nil : Passes [] := by
  intro t
  simp

theorem Passes.append (hs : Passes s) (ht : Passes t) : Passes (s ++ t) := by
  intro r
  rw [List.append_assoc, hs, ht, Option.map_map]
  simp [Function.comp_def]

theorem Passes.cons {u : UInt16} (hu : u ≠ newline) (hs : Passes s) : Passes (u :: s) := by
  intro r
  have hclose : fenceClose.isPrefixOf (u :: (s ++ r)) = false := by
    have hne : (newline == u) = false := beq_eq_false_iff_ne.mpr hu.symm
    simp only [fenceClose, List.isPrefixOf, hne, Bool.false_and]
  rw [List.cons_append, closeFence, hclose, hs]
  simp [Function.comp_def]

/-- A newline starts no closing fence when something else than a backtick follows it. -/
theorem Passes.newline {u : UInt16} (hu : u ≠ tick) (hs : Passes (u :: s)) :
    Passes (newline :: u :: s) := by
  intro r
  have hclose : fenceClose.isPrefixOf (Python.newline :: u :: (s ++ r)) = false := by
    have hne : (tick == u) = false := beq_eq_false_iff_ne.mpr hu.symm
    simp only [fenceClose, fence, List.isPrefixOf, hne, Bool.false_and, Bool.and_false]
  have hrest := hs r
  rw [List.cons_append] at hrest
  rw [List.cons_append, List.cons_append, closeFence, hclose, hrest]
  simp [Function.comp_def]

theorem Passes.of_line (h : Python.newline ∉ s) : Passes s := by
  induction s with
  | nil => exact .nil
  | cons u s ih =>
    apply Passes.cons
    · exact (List.ne_of_not_mem_cons h).symm
    · exact ih (List.not_mem_of_not_mem_cons h)

theorem Passes.replicate (n : Nat) (hs : Passes s) : Passes (List.replicate n space ++ s) := by
  induction n with
  | zero => exact hs
  | succ n ih => exact .cons (by decide) ih

theorem Passes.newlineAt (level : Nat) (hopen : Opens s) (hs : Passes s) :
    Passes (newlineAt level ++ s) := by
  obtain ⟨u, s, rfl, hu⟩ := hopen
  unfold Python.newlineAt
  cases hlevel : 2 * level with
  | zero => exact .newline hu hs
  | succ n =>
    have hblank : Passes (List.replicate (n + 1) space ++ u :: s) := .replicate (n + 1) hs
    rw [List.replicate_succ, List.cons_append] at hblank
    exact .newline (by decide) hblank

end Passing

/-! The text of a card is such a text. -/
section CardText
variable {floats : FloatFormat}

theorem Passes.printable {s : Str} (h : Printable s) : Passes s := .of_line (h.not_mem (by decide))

theorem opens_number {s : Str} {n : Json.NumberText} (h : Json.matchNumber s = some (n, [])) :
    Opens s := by
  obtain ⟨u, t, rfl, hu⟩ := matchNumber_head h
  refine ⟨u, t, rfl, ?_⟩
  rintro rfl
  rcases hu with hu | hu <;> exact absurd hu (by decide)

theorem opens_dumpsIndent {v : Value} (h : WellFormed floats v) (level : Nat) :
    Opens (dumpsIndent level v) := by
  match v, h with
  | .int n, _ => exact opens_number (matchNumber_dumpsInt n)
  | .float text, h =>
    rw [dumpsIndent]
    rcases h with rfl | rfl | rfl | ⟨n, hn, -⟩
    · exact ⟨_, _, rfl, by decide⟩
    · exact ⟨_, _, rfl, by decide⟩
    · exact ⟨_, _, rfl, by decide⟩
    · exact opens_number hn
  | .none, _ | .bool true, _ | .bool false, _ => exact ⟨_, _, by rw [dumpsIndent]; rfl, by decide⟩
  | .list [], _ | .dict [], _ => exact ⟨_, _, by rw [dumpsIndent], by decide⟩
  | .str _, _ | .list (_ :: _), _ | .dict (_ :: _), _ => exact ⟨_, _, by rw [dumpsIndent]; rfl, by decide⟩

theorem opens_indentElements {v : Value} {elements : List Value} (h : WellFormed floats v)
    (level : Nat) : Opens (indentElements level (v :: elements)) := by
  cases elements with
  | nil => exact opens_dumpsIndent h level
  | cons w rest =>
    rw [indentElements_cons, List.append_assoc]
    exact (opens_dumpsIndent h level).append _

theorem opens_indentItems (level : Nat) (item : Str × Value) (items : List (Str × Value)) :
    Opens (indentItems level (item :: items)) := by
  obtain ⟨t, heq⟩ := indentItems_head level item items
  exact ⟨Json.quote, t, heq, by decide⟩

theorem passes_item {level : Nat} {v : Value} (key : Str) (h : Passes (dumpsIndent level v)) :
    Passes (dumpsStr key ++ Json.colon :: space :: dumpsIndent level v) := by
  apply Passes.append
  · exact .printable (printable_dumpsStr key)
  · exact .cons (by decide) (.cons (by decide) h)

/-- The text of a container with parts. -/
theorem passes_container {level : Nat} {s : Str} {first last : UInt16} (hfirst : first ≠ newline)
    (hlast : last ≠ newline) (htick : last ≠ tick) (hopen : Opens s) (hs : Passes s) :
    Passes (first :: newlineAt (level + 1) ++ s ++ newlineAt level ++ [last]) := by
  have hend : Passes (newlineAt level ++ [last]) :=
    .newlineAt level ⟨last, [], rfl, htick⟩ (.cons hlast .nil)
  have hinner : Passes (newlineAt (level + 1) ++ s) := .newlineAt (level + 1) hopen hs
  have hall : Passes (first :: ((newlineAt (level + 1) ++ s) ++ (newlineAt level ++ [last]))) :=
    .cons hfirst (.append hinner hend)
  simpa only [List.append_assoc, List.cons_append] using hall

theorem passes_next {level : Nat} {s t : Str} (hs : Passes s) (hopen : Opens t) (ht : Passes t) :
    Passes (s ++ Json.comma :: newlineAt level ++ t) := by
  have hnext : Passes (Json.comma :: (newlineAt level ++ t)) :=
    .cons (by decide) (.newlineAt level hopen ht)
  simpa only [List.append_assoc, List.cons_append] using hs.append hnext

mutual

theorem passes_dumpsIndent : ∀ {v : Value}, WellFormed floats v → ∀ level : Nat,
    Passes (dumpsIndent level v)
  | .none, _, _ => .of_line (by rw [dumpsIndent]; decide)
  | .bool true, _, _ => .of_line (by rw [dumpsIndent]; decide)
  | .bool false, _, _ => .of_line (by rw [dumpsIndent]; decide)
  | .int n, _, _ => .printable (by rw [dumpsIndent]; exact printable_dumpsInt n)
  | .float text, h, _ => .printable (by rw [dumpsIndent]; exact printable_float h)
  | .str s, _, _ => .printable (by rw [dumpsIndent]; exact printable_dumpsStr s)
  | .list [], _, _ => .of_line (by rw [dumpsIndent]; decide)
  | .list (v :: elements), h, level => by
    have helements : WellFormedElements floats (v :: elements) := h
    rw [dumpsIndent]
    exact passes_container (by decide) (by decide) (by decide)
      (opens_indentElements helements.1 _) (passes_indentElements helements _)
  | .dict [], _, _ => .of_line (by rw [dumpsIndent]; decide)
  | .dict (item :: items), h, level => by
    have hitems : WellFormedItems floats (item :: items) := h.2
    rw [dumpsIndent]
    exact passes_container (by decide) (by decide) (by decide)
      (opens_indentItems _ item items) (passes_indentItems hitems _)

theorem passes_indentElements : ∀ {elements : List Value}, WellFormedElements floats elements →
    ∀ level : Nat, Passes (indentElements level elements)
  | [], _, _ => .nil
  | [_], h, level => passes_dumpsIndent h.1 level
  | v :: w :: rest, h, level => by
    have hrest : WellFormedElements floats (w :: rest) := h.2
    rw [indentElements_cons]
    exact passes_next (passes_dumpsIndent h.1 level) (opens_indentElements hrest.1 level)
      (passes_indentElements hrest level)

theorem passes_indentItems : ∀ {items : List (Str × Value)}, WellFormedItems floats items →
    ∀ level : Nat, Passes (indentItems level items)
  | [], _, _ => .nil
  | [(key, _)], h, level => passes_item key (passes_dumpsIndent h.1 level)
  | (key, v) :: next :: rest, h, level => by
    have hrest : WellFormedItems floats (next :: rest) := h.2
    rw [indentItems_cons]
    exact passes_next (passes_item key (passes_dumpsIndent h.1 level))
      (opens_indentItems level next rest) (passes_indentItems hrest level)

end

end CardText

end Concordia.Shared.CardIntake
