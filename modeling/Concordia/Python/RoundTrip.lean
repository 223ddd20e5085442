import Concordia.Python.Scanning

/-! `json.loads` reads back what `json.dumps` writes, so that `json.dumps` is injective. -/
namespace Concordia.Python
open Concordia.Js Concordia.Js.Json

variable {floats : FloatFormat}

section Spaces

theorem whitespace_cons {u : UInt16} (h : isSpace u = false) (s : Str) :
    whitespace (u :: s) = u :: s := by
  simp [whitespace, h]

theorem whitespace_space (s : Str) : whitespace (space :: s) = whitespace s := rfl

theorem scanValue_space (fuel : Nat) (s : Str) :
    scanValue floats fuel (space :: s) = scanValue floats fuel s := by
  cases fuel with
  | zero => rfl
  | succ fuel => rw [scanValue, scanValue, whitespace_space]

theorem scanItems_space (fuel : Nat) (s : Str) :
    scanItems floats fuel (space :: s) = scanItems floats fuel s := by
  cases fuel with
  | zero => rfl
  | succ fuel => rw [scanItems, scanItems, whitespace_space]

theorem scanElements_space (fuel : Nat) (s : Str) :
    scanElements floats fuel (space :: s) = scanElements floats fuel s := by
  cases fuel with
  | zero => rfl
  | succ fuel => rw [scanElements, scanElements, scanValue_space]

end Spaces

section Leaves

theorem scanValue_number {s after : Str} {n : NumberText} (h : matchNumber s = some (n, after))
    (fuel : Nat) : scanValue floats (fuel + 1) s =
      some (if isFloat n then .float (floats.repr n) else .int (intOf n), after) := by
  obtain ⟨u, t, rfl, hu⟩ := matchNumber_head h
  have hspace : isSpace u = false := by
    rcases hu with rfl | hu
    · rfl
    · by_contra hs
      simp only [isSpace, Bool.not_eq_false, Bool.or_eq_true, beq_iff_eq] at hs
      rcases hs with ((rfl | rfl) | rfl) | rfl <;> exact absurd hu (by decide)
  have hne : ∀ c, isDigit c = false → c ≠ minus → u ≠ c := by
    rintro c hc hm rfl
    rcases hu with rfl | hu
    · exact hm rfl
    · exact absurd hu (by simp [hc])
  have hq := hne quote (by decide) (by decide)
  have hb := hne leftBrace (by decide) (by decide)
  have hk := hne leftBracket (by decide) (by decide)
  have hn := hne 0x6e (by decide) (by decide)
  have ht := hne 0x74 (by decide) (by decide)
  have hf := hne 0x66 (by decide) (by decide)
  rw [scanValue, whitespace_cons hspace]
  simp [hq, hb, hk, nullText, trueText, falseText, Ne.symm hn, Ne.symm ht, Ne.symm hf, scanNumber, h]

theorem scanValue_nan (fuel : Nat) (rest : Str) :
    scanValue floats (fuel + 1) (nanText ++ rest) = some (.float nanText, rest) := rfl

theorem scanValue_infinity (fuel : Nat) (rest : Str) :
    scanValue floats (fuel + 1) (infinityText ++ rest) = some (.float infinityText, rest) := rfl

theorem scanValue_minusInfinity (fuel : Nat) (rest : Str) :
    scanValue floats (fuel + 1) (minusInfinityText ++ rest) =
      some (.float minusInfinityText, rest) := rfl

theorem scanValue_str (fuel : Nat) (s rest : Str) :
    scanValue floats (fuel + 1) (dumpsStr s ++ rest) = some (.str s, rest) := by
  have hw : whitespace (dumpsStr s ++ rest) = dumpsStr s ++ rest := rfl
  have htail : (dumpsStr s ++ rest).tail = s.flatMap escapeUnit ++ quote :: rest := by
    simp [dumpsStr]
  rw [scanValue, hw]
  simp only [htail, scanString_escape]
  rfl

theorem scanValue_float {text : Str} (h : FloatText floats.repr text) {rest : Str}
    (hstop : EndsNumber rest) (fuel : Nat) :
    scanValue floats (fuel + 1) (text ++ rest) = some (.float text, rest) := by
  rcases h with rfl | rfl | rfl | ⟨n, hn, hfloat, hrepr⟩
  · exact scanValue_nan fuel rest
  · exact scanValue_infinity fuel rest
  · exact scanValue_minusInfinity fuel rest
  · have happend := matchNumber_append hstop text
    rw [hn] at happend
    rw [scanValue_number happend]
    simp [hfloat, hrepr]

theorem scanValue_int (n : Int) {rest : Str} (hstop : EndsNumber rest) (fuel : Nat) :
    scanValue floats (fuel + 1) (dumpsInt n ++ rest) = some (.int n, rest) := by
  have happend := matchNumber_append hstop (dumpsInt n)
  rw [matchNumber_dumpsInt] at happend
  rw [scanValue_number happend]
  simp [isFloat, intOf_dumpsInt]

end Leaves

section Heads

/-- The texts of values start with no space and no closing bracket. -/
theorem dumps_head {v : Value} (h : WellFormed floats v) : ∃ u t, dumps v = u :: t ∧
    isSpace u = false ∧ u ≠ rightBracket ∧ u ≠ rightBrace := by
  have hnumber : ∀ {s r}, matchNumber s = some r → ∃ u t, s = u :: t ∧
      isSpace u = false ∧ u ≠ rightBracket ∧ u ≠ rightBrace := by
    intro s r hs
    obtain ⟨u, t, rfl, hu⟩ := matchNumber_head hs
    refine ⟨u, t, rfl, ?_⟩
    rcases hu with rfl | hu
    · decide
    · refine ⟨?_, ?_, ?_⟩
      · by_contra hs
        simp only [isSpace, Bool.not_eq_false, Bool.or_eq_true, beq_iff_eq] at hs
        rcases hs with ((rfl | rfl) | rfl) | rfl <;> exact absurd hu (by decide)
      · rintro rfl
        exact absurd hu (by decide)
      · rintro rfl
        exact absurd hu (by decide)
  cases v with
  | int n => exact hnumber (matchNumber_dumpsInt n)
  | float text =>
    rcases h with rfl | rfl | rfl | ⟨n, hn, -⟩
    · exact ⟨_, _, rfl, by decide⟩
    · exact ⟨_, _, rfl, by decide⟩
    · exact ⟨_, _, rfl, by decide⟩
    · exact hnumber hn
  | bool b => cases b <;> exact ⟨_, _, rfl, by decide⟩
  | none => exact ⟨_, _, rfl, by decide⟩
  | str s => exact ⟨_, _, rfl, by decide⟩
  | list elements => exact ⟨_, _, by rw [dumps]; rfl, by decide⟩
  | dict items => exact ⟨_, _, by rw [dumps]; rfl, by decide⟩

theorem dumpsElements_cons (v w : Value) (rest : List Value) : dumpsElements (v :: w :: rest) =
    dumps v ++ comma :: space :: dumpsElements (w :: rest) := rfl

theorem dumpsItems_cons (key : Str) (v : Value) (next : Str × Value) (rest : List (Str × Value)) :
    dumpsItems ((key, v) :: next :: rest) =
      dumpsStr key ++ colon :: space :: dumps v ++ comma :: space :: dumpsItems (next :: rest) := rfl

theorem dumpsElements_head {v : Value} {elements : List Value} (h : WellFormed floats v) :
    ∃ u t, dumpsElements (v :: elements) = u :: t ∧ isSpace u = false ∧ u ≠ rightBracket := by
  obtain ⟨u, t, heq, hs, hb, -⟩ := dumps_head h
  cases elements with
  | nil => exact ⟨u, t, by rw [dumpsElements, heq], hs, hb⟩
  | cons w rest => exact ⟨u, _, by rw [dumpsElements_cons, heq]; rfl, hs, hb⟩

theorem dumpsItems_head (item : Str × Value) (items : List (Str × Value)) :
    ∃ t, dumpsItems (item :: items) = quote :: t := by
  cases items <;> exact ⟨_, rfl⟩

end Heads

section Dictionaries

theorem Dict.set_new {d : Dict} {key : Str} {v : Value} (h : key ∉ d.map Prod.fst) :
    d.set key v = d ++ [(key, v)] := by
  induction d with
  | nil => rfl
  | cons item d ih =>
    simp only [List.map_cons, List.mem_cons, not_or] at h
    rw [Dict.set, if_neg (Ne.symm h.1), ih h.2, List.cons_append]

/-- Pairs with different keys are the items of their dictionary. -/
theorem Dict.ofPairs_nodup {items : List (Str × Value)} (h : (items.map Prod.fst).Nodup) :
    Dict.ofPairs items = items := by
  have hgo : ∀ acc : Dict, ((acc ++ items).map Prod.fst).Nodup →
      items.foldl (fun d item => d.set item.1 item.2) acc = acc ++ items := by
    induction items with
    | nil => simp
    | cons item items ih =>
      intro acc hacc
      have hnew : item.1 ∉ acc.map Prod.fst := by
        simp only [List.map_append, List.map_cons] at hacc
        exact fun hmem => (List.nodup_append.mp hacc).2.2 _ hmem _ (by simp) rfl
      rw [List.foldl_cons, Dict.set_new hnew, ih (List.nodup_cons.mp h).2]
      · simp
      · simpa using hacc
  exact hgo [] (by simpa using h)

end Dictionaries

section RoundTrip

private theorem whitespace_comma (s : Str) : whitespace (comma :: s) = comma :: s := rfl
private theorem whitespace_colon (s : Str) : whitespace (colon :: s) = colon :: s := rfl
private theorem whitespace_quote (s : Str) : whitespace (quote :: s) = quote :: s := rfl
private theorem whitespace_bracket (s : Str) :
    whitespace (rightBracket :: s) = rightBracket :: s := rfl
private theorem whitespace_brace (s : Str) : whitespace (rightBrace :: s) = rightBrace :: s := rfl
private theorem comma_ne_bracket : comma ≠ rightBracket := by decide
private theorem comma_ne_brace : comma ≠ rightBrace := by decide
private theorem quote_ne_brace : quote ≠ rightBrace := by decide

theorem stops_comma (s : Str) : Stops (comma :: s) := by
  rintro u hu
  exact .inl (Option.some.inj hu).symm

theorem stops_bracket (s : Str) : Stops (rightBracket :: s) := by
  rintro u hu
  exact .inr (.inl (Option.some.inj hu).symm)

theorem stops_brace (s : Str) : Stops (rightBrace :: s) := by
  rintro u hu
  exact .inr (.inr (Option.some.inj hu).symm)

mutual

theorem scanValue_dumps : ∀ {v : Value}, WellFormed floats v → ∀ {fuel : Nat} {rest : Str},
    Stops rest → (dumps v).length < fuel →
      scanValue floats fuel (dumps v ++ rest) = some (v, rest)
  | .none, _, fuel + 1, rest, _, _ => rfl
  | .bool true, _, fuel + 1, rest, _, _ => rfl
  | .bool false, _, fuel + 1, rest, _, _ => rfl
  | .int n, _, fuel + 1, rest, hstop, _ => scanValue_int n hstop.endsNumber fuel
  | .float text, h, fuel + 1, rest, hstop, _ => scanValue_float h hstop.endsNumber fuel
  | .str s, _, fuel + 1, rest, _, _ => scanValue_str fuel s rest
  | .list [], _, fuel + 1, rest, _, _ => rfl
  | .list (v :: elements), h, fuel + 1, rest, _, hfuel => by
    obtain ⟨u, t, heq, hs, hb⟩ := @dumpsElements_head floats v elements
      (h : WellFormedElements floats (v :: elements)).1
    have hinner := @scanElements_dumps elements v (h : WellFormedElements floats (v :: elements)) fuel rest
      (by simp [dumps] at hfuel; omega)
    simp only [dumps, List.cons_append, List.append_assoc, List.nil_append, heq] at hinner ⊢
    rw [scanValue, whitespace_cons (by decide)]
    simp only [List.head?_cons, List.tail_cons, whitespace_cons hs, hinner]
    simp [hb, leftBracket, leftBrace, quote]
  | .dict [], _, fuel + 1, rest, _, _ => rfl
  | .dict (item :: items), h, fuel + 1, rest, _, hfuel => by
    obtain ⟨t, heq⟩ := dumpsItems_head item items
    have hinner := @scanItems_dumps items item (h.2 : WellFormedItems floats (item :: items)) fuel rest
      (by simp [dumps] at hfuel; omega)
    simp only [dumps, List.cons_append, List.append_assoc, List.nil_append, heq] at hinner ⊢
    rw [scanValue, whitespace_cons (by decide)]
    simp only [List.head?_cons, List.tail_cons, whitespace_quote, hinner]
    simp [quote_ne_brace, show leftBrace ≠ quote from by decide, Dict.ofPairs_nodup h.1]

theorem scanElements_dumps : ∀ {elements : List Value} {v : Value},
    WellFormedElements floats (v :: elements) → ∀ {fuel : Nat} {rest : Str},
    (dumpsElements (v :: elements)).length + 1 < fuel →
      scanElements floats fuel (dumpsElements (v :: elements) ++ rightBracket :: rest) =
        some (v :: elements, rest)
  | [], v, h, fuel + 1, rest, hfuel => by
    simp only [dumpsElements] at hfuel ⊢
    have hv := @scanValue_dumps v h.1 fuel _ (stops_bracket rest) (by omega)
    rw [scanElements, hv]
    simp [whitespace_bracket]
  | w :: elements, v, h, fuel + 1, rest, hfuel => by
    simp only [dumpsElements_cons, List.append_assoc, List.cons_append, List.length_append,
      List.length_cons] at hfuel ⊢
    have hv := @scanValue_dumps v h.1 fuel _
      (stops_comma (space :: (dumpsElements (w :: elements) ++ rightBracket :: rest))) (by omega)
    have hrest := @scanElements_dumps elements w h.2 fuel rest (by omega)
    rw [scanElements, hv]
    simp [whitespace_comma, comma_ne_bracket, scanElements_space, hrest]

theorem scanItems_dumps : ∀ {items : List (Str × Value)} {item : Str × Value},
    WellFormedItems floats (item :: items) → ∀ {fuel : Nat} {rest : Str},
    (dumpsItems (item :: items)).length + 1 < fuel →
      scanItems floats fuel (dumpsItems (item :: items) ++ rightBrace :: rest) =
        some (item :: items, rest)
  | [], (key, v), h, fuel + 1, rest, hfuel => by
    simp only [dumpsItems, dumpsStr, List.append_assoc, List.cons_append, List.nil_append,
      List.length_cons, List.length_append] at hfuel ⊢
    have hv := @scanValue_dumps v h.1 fuel _ (stops_brace rest) (by omega)
    rw [scanItems, whitespace_quote]
    simp [scanString_escape, whitespace_colon, scanValue_space, hv, whitespace_brace]
  | next :: items, (key, v), h, fuel + 1, rest, hfuel => by
    simp only [dumpsItems_cons, dumpsStr, List.append_assoc, List.cons_append, List.nil_append,
      List.length_cons, List.length_append] at hfuel ⊢
    have hv := @scanValue_dumps v h.1 fuel _
      (stops_comma (space :: (dumpsItems (next :: items) ++ rightBrace :: rest))) (by omega)
    have hrest := @scanItems_dumps items next h.2 fuel rest (by omega)
    rw [scanItems, whitespace_quote]
    simp [scanString_escape, whitespace_colon, scanValue_space, hv, whitespace_comma,
      comma_ne_brace, scanItems_space, hrest]

end

theorem loads_dumps {v : Value} (h : WellFormed floats v) : loads floats (dumps v) = some v := by
  have hscan := @scanValue_dumps floats v h (2 * (dumps v).length + 2) []
    (by simp [Stops]) (by omega)
  rw [List.append_nil] at hscan
  simp [loads, hscan, whitespace]

theorem dumps_injective {v w : Value} (hv : WellFormed floats v) (hw : WellFormed floats w)
    (h : dumps v = dumps w) : v = w := by
  have heq := loads_dumps hv
  rw [h, loads_dumps hw] at heq
  exact (Option.some.inj heq).symm

end RoundTrip
end Concordia.Python
