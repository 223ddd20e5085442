import Concordia.Python.RoundTrip

/-! `json.dumps(value, indent=2)`, and that `json.loads` reads it back. -/
namespace Concordia.Python
open Concordia.Js Concordia.Js.Json

def newline : UInt16 := 0x0a

/-- What separates the parts of a container at this depth. -/
def newlineAt (level : Nat) : Str := newline :: List.replicate (2 * level) space

mutual

/-- The text of a value inside `level` containers. -/
def dumpsIndent (level : Nat) : Value → Str
  | .none => Json.nullText
  | .bool true => Json.trueText
  | .bool false => Json.falseText
  | .int n => dumpsInt n
  | .float text => text
  | .str s => dumpsStr s
  | .list [] => [leftBracket, rightBracket]
  | .list (v :: elements) => leftBracket :: newlineAt (level + 1) ++
      indentElements (level + 1) (v :: elements) ++ newlineAt level ++ [rightBracket]
  | .dict [] => [leftBrace, rightBrace]
  | .dict (item :: items) => leftBrace :: newlineAt (level + 1) ++
      indentItems (level + 1) (item :: items) ++ newlineAt level ++ [rightBrace]

def indentElements (level : Nat) : List Value → Str
  | [] => []
  | [v] => dumpsIndent level v
  | v :: rest => dumpsIndent level v ++ comma :: newlineAt level ++ indentElements level rest

def indentItems (level : Nat) : List (Str × Value) → Str
  | [] => []
  | [(key, v)] => dumpsStr key ++ colon :: space :: dumpsIndent level v
  | (key, v) :: rest => dumpsStr key ++ colon :: space :: dumpsIndent level v ++
      comma :: newlineAt level ++ indentItems level rest

end

variable {floats : FloatFormat}

section Blanks

theorem whitespace_replicate (n : Nat) (s : Str) :
    whitespace (List.replicate n space ++ s) = whitespace s := by
  induction n with
  | zero => rfl
  | succ n ih => rw [List.replicate_succ, List.cons_append, whitespace_space, ih]

theorem whitespace_newlineAt (level : Nat) (s : Str) :
    whitespace (newlineAt level ++ s) = whitespace s := whitespace_replicate (2 * level) s

theorem scanValue_newlineAt (level fuel : Nat) (s : Str) :
    scanValue floats fuel (newlineAt level ++ s) = scanValue floats fuel s := by
  cases fuel with
  | zero => rfl
  | succ fuel => rw [scanValue, scanValue, whitespace_newlineAt]

theorem scanItems_newlineAt (level fuel : Nat) (s : Str) :
    scanItems floats fuel (newlineAt level ++ s) = scanItems floats fuel s := by
  cases fuel with
  | zero => rfl
  | succ fuel => rw [scanItems, scanItems, whitespace_newlineAt]

theorem scanElements_newlineAt (level fuel : Nat) (s : Str) :
    scanElements floats fuel (newlineAt level ++ s) = scanElements floats fuel s := by
  cases fuel with
  | zero => rfl
  | succ fuel => rw [scanElements, scanElements, scanValue_newlineAt]

theorem endsNumber_cons {u : UInt16} (h : continuesNumber u = false) (s : Str) :
    EndsNumber (u :: s) := by
  intro v hv
  rw [← Option.some.inj hv]
  exact h

theorem endsNumber_comma (s : Str) : EndsNumber (comma :: s) := endsNumber_cons (by decide) s

theorem endsNumber_newlineAt (level : Nat) (s : Str) : EndsNumber (newlineAt level ++ s) :=
  endsNumber_cons (by decide) _

end Blanks

section Heads

theorem dumpsIndent_head {v : Value} (h : WellFormed floats v) (level : Nat) :
    ∃ u t, dumpsIndent level v = u :: t ∧
      isSpace u = false ∧ u ≠ rightBracket ∧ u ≠ rightBrace := by
  match v, h with
  | .none, h | .bool true, h | .bool false, h | .int _, h | .float _, h | .str _, h =>
    have hhead := dumps_head h
    simp only [dumps, dumpsIndent] at hhead ⊢
    exact hhead
  | .list [], _ | .dict [], _ => exact ⟨_, _, by rw [dumpsIndent], by decide⟩
  | .list (_ :: _), _ | .dict (_ :: _), _ =>
    exact ⟨_, _, by rw [dumpsIndent]; rfl, by decide⟩

theorem indentElements_cons (level : Nat) (v w : Value) (rest : List Value) :
    indentElements level (v :: w :: rest) =
      dumpsIndent level v ++ comma :: newlineAt level ++ indentElements level (w :: rest) := rfl

theorem indentItems_cons (level : Nat) (key : Str) (v : Value) (next : Str × Value)
    (rest : List (Str × Value)) : indentItems level ((key, v) :: next :: rest) =
      dumpsStr key ++ colon :: space :: dumpsIndent level v ++
        comma :: newlineAt level ++ indentItems level (next :: rest) := rfl

theorem indentElements_head {v : Value} {elements : List Value} (h : WellFormed floats v)
    (level : Nat) : ∃ u t, indentElements level (v :: elements) = u :: t ∧ isSpace u = false ∧
      u ≠ rightBracket := by
  obtain ⟨u, t, heq, hs, hb, -⟩ := dumpsIndent_head h level
  cases elements with
  | nil => exact ⟨u, t, by rw [indentElements, heq], hs, hb⟩
  | cons w rest => exact ⟨u, _, by rw [indentElements_cons, heq]; rfl, hs, hb⟩

theorem indentItems_head (level : Nat) (item : Str × Value) (items : List (Str × Value)) :
    ∃ t, indentItems level (item :: items) = quote :: t := by
  cases items <;> exact ⟨_, rfl⟩

end Heads

section RoundTrip

private theorem blank_comma (s : Str) : whitespace (comma :: s) = comma :: s := rfl
private theorem blank_colon (s : Str) : whitespace (colon :: s) = colon :: s := rfl
private theorem blank_quote (s : Str) : whitespace (quote :: s) = quote :: s := rfl
private theorem blank_bracket (s : Str) : whitespace (rightBracket :: s) = rightBracket :: s := rfl
private theorem blank_brace (s : Str) : whitespace (rightBrace :: s) = rightBrace :: s := rfl

mutual

theorem scanValue_indent : ∀ {v : Value}, WellFormed floats v → ∀ {level fuel : Nat} {rest : Str},
    EndsNumber rest → (dumpsIndent level v).length < fuel →
      scanValue floats fuel (dumpsIndent level v ++ rest) = some (v, rest)
  | .none, _, _, fuel + 1, rest, _, _ => rfl
  | .bool true, _, _, fuel + 1, rest, _, _ => rfl
  | .bool false, _, _, fuel + 1, rest, _, _ => rfl
  | .int n, _, _, fuel + 1, rest, hstop, _ => scanValue_int n hstop fuel
  | .float text, h, _, fuel + 1, rest, hstop, _ => scanValue_float h hstop fuel
  | .str s, _, _, fuel + 1, rest, _, _ => scanValue_str fuel s rest
  | .list [], _, _, fuel + 1, rest, _, _ => rfl
  | .list (v :: elements), h, level, fuel + 1, rest, _, hfuel => by
    obtain ⟨u, t, heq, hs, hb⟩ := @indentElements_head floats v elements
      (h : WellFormedElements floats (v :: elements)).1 (level + 1)
    have hinner := @scanElements_indent elements v (h : WellFormedElements floats (v :: elements))
      (level + 1) level fuel rest (by simp [dumpsIndent] at hfuel; omega)
    simp only [dumpsIndent, List.cons_append, List.append_assoc, List.nil_append, heq] at hinner ⊢
    rw [scanValue, whitespace_cons (by decide)]
    simp only [List.head?_cons, List.tail_cons, whitespace_newlineAt, whitespace_cons hs, hinner]
    simp [hb, leftBracket, leftBrace, quote]
  | .dict [], _, _, fuel + 1, rest, _, _ => rfl
  | .dict (item :: items), h, level, fuel + 1, rest, _, hfuel => by
    obtain ⟨t, heq⟩ := indentItems_head (level + 1) item items
    have hinner := @scanItems_indent items item (h.2 : WellFormedItems floats (item :: items))
      (level + 1) level fuel rest (by simp [dumpsIndent] at hfuel; omega)
    simp only [dumpsIndent, List.cons_append, List.append_assoc, List.nil_append, heq] at hinner ⊢
    rw [scanValue, whitespace_cons (by decide)]
    simp only [List.head?_cons, List.tail_cons, whitespace_newlineAt, blank_quote, hinner]
    simp [show quote ≠ rightBrace from by decide, show leftBrace ≠ quote from by decide,
      Dict.ofPairs_nodup h.1]
termination_by structural _ _ _ fuel => fuel

theorem scanElements_indent : ∀ {elements : List Value} {v : Value},
    WellFormedElements floats (v :: elements) → ∀ {level outer fuel : Nat} {rest : Str},
    (indentElements level (v :: elements)).length + 1 < fuel →
      scanElements floats fuel (indentElements level (v :: elements) ++
        (newlineAt outer ++ rightBracket :: rest)) = some (v :: elements, rest)
  | [], v, h, level, outer, fuel + 1, rest, hfuel => by
    simp only [indentElements] at hfuel ⊢
    have hv := @scanValue_indent v h.1 level fuel _
      (endsNumber_newlineAt outer (rightBracket :: rest)) (by omega)
    rw [scanElements, hv]
    simp [whitespace_newlineAt, blank_bracket]
  | w :: elements, v, h, level, outer, fuel + 1, rest, hfuel => by
    simp only [indentElements_cons, List.append_assoc, List.cons_append, List.length_append,
      List.length_cons] at hfuel ⊢
    have hv := @scanValue_indent v h.1 level fuel _ (endsNumber_comma
      (newlineAt level ++ (indentElements level (w :: elements) ++
        (newlineAt outer ++ rightBracket :: rest)))) (by omega)
    have hrest := @scanElements_indent elements w h.2 level outer fuel rest (by omega)
    rw [scanElements, hv]
    simp [blank_comma, show comma ≠ rightBracket from by decide, scanElements_newlineAt, hrest]
termination_by structural _ _ _ _ _ fuel => fuel

theorem scanItems_indent : ∀ {items : List (Str × Value)} {item : Str × Value},
    WellFormedItems floats (item :: items) → ∀ {level outer fuel : Nat} {rest : Str},
    (indentItems level (item :: items)).length + 1 < fuel →
      scanItems floats fuel (indentItems level (item :: items) ++
        (newlineAt outer ++ rightBrace :: rest)) = some (item :: items, rest)
  | [], (key, v), h, level, outer, fuel + 1, rest, hfuel => by
    simp only [indentItems, dumpsStr, List.append_assoc, List.cons_append, List.nil_append,
      List.length_cons, List.length_append] at hfuel ⊢
    have hv := @scanValue_indent v h.1 level fuel _
      (endsNumber_newlineAt outer (rightBrace :: rest)) (by omega)
    rw [scanItems, blank_quote]
    simp [scanString_escape, blank_colon, scanValue_space, hv, whitespace_newlineAt, blank_brace]
  | next :: items, (key, v), h, level, outer, fuel + 1, rest, hfuel => by
    simp only [indentItems_cons, dumpsStr, List.append_assoc, List.cons_append, List.nil_append,
      List.length_cons, List.length_append] at hfuel ⊢
    have hv := @scanValue_indent v h.1 level fuel _ (endsNumber_comma
      (newlineAt level ++ (indentItems level (next :: items) ++
        (newlineAt outer ++ rightBrace :: rest)))) (by omega)
    have hrest := @scanItems_indent items next h.2 level outer fuel rest (by omega)
    rw [scanItems, blank_quote]
    simp [scanString_escape, blank_colon, scanValue_space, hv, blank_comma,
      show comma ≠ rightBrace from by decide, scanItems_newlineAt, hrest]
termination_by structural _ _ _ _ _ fuel => fuel

end

theorem loads_dumpsIndent {v : Value} (h : WellFormed floats v) (level : Nat) :
    loads floats (dumpsIndent level v) = some v := by
  have hscan := @scanValue_indent floats v h level (2 * (dumpsIndent level v).length + 2) []
    (by intro u hu; cases hu) (by omega)
  rw [List.append_nil] at hscan
  simp [loads, hscan, whitespace]

end RoundTrip
end Concordia.Python
