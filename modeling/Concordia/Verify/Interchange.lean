import Concordia.Python.Canonical
import Concordia.Verify.Transcript

/-! What the strict parser of the verifier reads where `json.dumps` has written: the same value, in
the types of JavaScript. -/
namespace Concordia.Verify.Interchange
open Concordia.Js hiding Value
open Concordia.Js.Json Concordia.Verify.Transcript Concordia.Python

section Images

mutual

/-- A value in JavaScript. A constant that is none of JSON has no image, nor has a float beyond the
finite doubles. -/
def image : Value → Option Js.Value
  | .none => some .null
  | .bool b => some (.boolean b)
  | .int n => some (if |n| ≤ maxSafeInteger then .number n else .bigint n)
  | .float text =>
    match matchNumber text with
    | some (n, []) => (toDouble n.exact).map .number
    | _ => none
  | .str s => some (.string s)
  | .list elements => (elementImages elements).map .array
  | .dict items => (itemImages items).map .object

def elementImages : List Value → Option (List Js.Value)
  | [] => some []
  | v :: rest => do return (← image v) :: (← elementImages rest)

def itemImages : List (Str × Value) → Option (List (JsString × Js.Value))
  | [] => some []
  | (key, v) :: rest => do return (key, ← image v) :: (← itemImages rest)

end

mutual

/-- The depth of nesting, a scalar counted as one. -/
def depth : Value → Nat
  | .list elements => elementsDepth elements + 1
  | .dict items => itemsDepth items + 1
  | _ => 1

def elementsDepth : List Value → Nat
  | [] => 0
  | v :: rest => max (depth v) (elementsDepth rest)

def itemsDepth : List (Str × Value) → Nat
  | [] => 0
  | (_, v) :: rest => max (depth v) (itemsDepth rest)

end

theorem elementImages_cons {v : Value} {rest : List Value} {xs : List Js.Value}
    (h : elementImages (v :: rest) = some xs) :
    ∃ x ys, image v = some x ∧ elementImages rest = some ys ∧ xs = x :: ys := by
  simp only [elementImages, Option.bind_eq_bind, Option.bind_eq_some_iff] at h
  obtain ⟨x, hx, ys, hys, heq⟩ := h
  exact ⟨x, ys, hx, hys, (Option.some.inj heq).symm⟩

theorem itemImages_cons {key : Str} {v : Value} {rest : List (Str × Value)}
    {fields : List (JsString × Js.Value)} (h : itemImages ((key, v) :: rest) = some fields) :
    ∃ x others, image v = some x ∧ itemImages rest = some others ∧ fields = (key, x) :: others := by
  simp only [itemImages, Option.bind_eq_bind, Option.bind_eq_some_iff] at h
  obtain ⟨x, hx, others, hothers, heq⟩ := h
  exact ⟨x, others, hx, hothers, (Option.some.inj heq).symm⟩

end Images

section Leaves

theorem number_of_match {text : Str} {n : NumberText} (h : matchNumber text = some (n, [])) :
    Number text n := by
  obtain ⟨number, hnumber, htext⟩ := matchNumber_sound h
  rw [htext, List.append_nil]
  exact hnumber

theorem blank_nil : Whitespace [] := fun u hu => by cases hu

theorem blank_space : Whitespace [space] := by
  intro u hu
  rw [List.mem_singleton.mp hu]
  rfl

theorem dumpsInt_derives (n : Int) : ∃ t, Derives (dumpsInt n) t ∧ t.NamesUnique ∧ t.height = 1 ∧
    t.value = image (.int n) := by
  refine ⟨_, .number (integerText_number n), trivial, by simp [Json.Tree.height], ?_⟩
  rw [Json.Tree.value, integerTree_value, image]
  split_ifs <;> rfl

theorem float_derives {floats : FloatFormat} {text : Str} {x : Js.Value}
    (hw : FloatText floats.repr text) (h : image (.float text) = some x) :
    ∃ t, Derives text t ∧ t.NamesUnique ∧ t.height = 1 ∧ t.value = some x := by
  rcases hw with rfl | rfl | rfl | ⟨n, hn, hfloat, -⟩
  · cases h
  · cases h
  · cases h
  · refine ⟨_, .number (number_of_match hn), trivial, by simp [Json.Tree.height], ?_⟩
    have hpart : ¬ (n.fraction.isNone = true ∧ n.exponent.isNone = true) := by
      rintro ⟨hfraction, hexponent⟩
      rw [Option.isNone_iff_eq_none] at hfraction hexponent
      simp [isFloat, hfraction, hexponent] at hfloat
    rw [image, hn] at h
    rw [Json.Tree.value, NumberText.value, if_neg hpart]
    exact h

end Leaves

section Reading
variable {floats : FloatFormat}

/-- A tree that the strict parser reads as `x`, if its height permits. -/
structure Reads (t : Json.Tree) (height : Nat) (x : Js.Value) : Prop where
  unique : t.NamesUnique
  height : t.height = height
  value : t.value = some x

mutual

theorem dumps_derives : ∀ {v : Value} {x : Js.Value}, WellFormed floats v → image v = some x →
    ∃ t, Derives (dumps v) t ∧ Reads t (depth v) x
  | .none, _, _, h => ⟨.null, .nullLiteral, trivial, by simp [Json.Tree.height, depth], h⟩
  | .bool true, _, _, h => ⟨.boolean true, .trueLiteral, trivial, by simp [Json.Tree.height, depth], h⟩
  | .bool false, _, _, h => ⟨.boolean false, .falseLiteral, trivial, by simp [Json.Tree.height, depth], h⟩
  | .int n, _, _, h => by
    obtain ⟨t, hderives, hunique, hheight, hvalue⟩ := dumpsInt_derives n
    exact ⟨t, hderives, hunique, by simpa [depth] using hheight, hvalue.trans h⟩
  | .float text, _, hw, h => by
    obtain ⟨t, hderives, hunique, hheight, hvalue⟩ := float_derives hw h
    exact ⟨t, hderives, hunique, by simpa [depth] using hheight, hvalue⟩
  | .str s, _, _, h =>
    ⟨.string s, .string (quoteAscii_chars s), trivial, by simp [Json.Tree.height, depth], h⟩
  | .list [], _, _, h => by
    refine ⟨.array [], .emptyArray blank_nil, trivial,
      by simp [Json.Tree.height, depth, elementsHeight, elementsDepth], ?_⟩
    exact h
  | .list (v :: rest), _, hw, h => by
    obtain ⟨xs, hxs, rfl⟩ := Option.map_eq_some_iff.mp h
    obtain ⟨ts, helements, hunique, hheight, hvalues⟩ := dumpsElements_derives hw hxs
    refine ⟨.array ts, .array helements, hunique, ?_, ?_⟩
    · rw [Json.Tree.height, depth, hheight]
    · rw [Json.Tree.value, hvalues]
      rfl
  | .dict [], _, _, h => by
    refine ⟨.object [], .emptyObject blank_nil, ⟨List.nodup_nil, trivial⟩,
      by simp [Json.Tree.height, depth, membersHeight, itemsDepth], ?_⟩
    exact h
  | .dict ((key, v) :: rest), _, hw, h => by
    obtain ⟨fields, hfields, rfl⟩ := Option.map_eq_some_iff.mp h
    obtain ⟨ms, hmembers, hkeys, hunique, hheight, hvalues⟩ := dumpsItems_derives hw.2 hfields
    refine ⟨.object ms, .object hmembers, ⟨?_, hunique⟩, ?_, ?_⟩
    · rw [hkeys]
      exact hw.1
    · rw [Json.Tree.height, depth, hheight]
    · rw [Json.Tree.value, hvalues]
      rfl

theorem dumpsElements_derives : ∀ {v : Value} {rest : List Value} {xs : List Js.Value},
    WellFormedElements floats (v :: rest) → elementImages (v :: rest) = some xs →
      ∃ ts, Elements (dumpsElements (v :: rest)) ts ∧ ElementsUnique ts ∧
        elementsHeight ts = elementsDepth (v :: rest) ∧ elementValues ts = some xs
  | v, [], _, hw, h => by
    obtain ⟨x, ys, hx, hys, rfl⟩ := elementImages_cons h
    obtain ⟨t, hderives, hunique, hheight, hvalue⟩ := dumps_derives hw.1 hx
    cases hys
    refine ⟨[t], ?_, ⟨hunique, trivial⟩, ?_, ?_⟩
    · simpa [dumpsElements] using Elements.last blank_nil hderives blank_nil
    · simp [elementsHeight, elementsDepth, hheight]
    · simp [elementValues, hvalue]
  | v, w :: rest, _, hw, h => by
    obtain ⟨x, ys, hx, hys, rfl⟩ := elementImages_cons h
    obtain ⟨t, hderives, hunique, hheight, hvalue⟩ := dumps_derives hw.1 hx
    obtain ⟨ts, helements, huniques, hheights, hvalues⟩ := dumpsElements_derives hw.2 hys
    refine ⟨t :: ts, ?_, ⟨hunique, huniques⟩, ?_, ?_⟩
    · rw [dumpsElements_cons]
      simpa using Elements.more blank_nil hderives blank_nil (helements.space blank_space)
    · rw [elementsHeight, elementsDepth, hheight, hheights]
    · simp [elementValues, hvalue, hvalues]

theorem dumpsItems_derives : ∀ {key : Str} {v : Value} {rest : List (Str × Value)}
    {fields : List (JsString × Js.Value)}, WellFormedItems floats ((key, v) :: rest) →
      itemImages ((key, v) :: rest) = some fields →
        ∃ ms, Members (dumpsItems ((key, v) :: rest)) ms ∧
          ms.map Prod.fst = ((key, v) :: rest).map Prod.fst ∧ MembersUnique ms ∧
            membersHeight ms = itemsDepth ((key, v) :: rest) ∧ memberValues ms = some fields
  | key, v, [], _, hw, h => by
    obtain ⟨x, others, hx, hothers, rfl⟩ := itemImages_cons h
    obtain ⟨t, hderives, hunique, hheight, hvalue⟩ := dumps_derives hw.1 hx
    cases hothers
    refine ⟨[(key, t)], ?_, rfl, ⟨hunique, trivial⟩, ?_, ?_⟩
    · simpa [dumpsItems, dumpsStr] using
        Members.last blank_nil (quoteAscii_chars key) blank_nil blank_space hderives blank_nil
    · simp [membersHeight, itemsDepth, hheight]
    · simp [memberValues, hvalue]
  | key, v, (next, w) :: rest, _, hw, h => by
    obtain ⟨x, others, hx, hothers, rfl⟩ := itemImages_cons h
    obtain ⟨t, hderives, hunique, hheight, hvalue⟩ := dumps_derives hw.1 hx
    obtain ⟨ms, hmembers, hkeys, huniques, hheights, hvalues⟩ := dumpsItems_derives hw.2 hothers
    refine ⟨(key, t) :: ms, ?_, by rw [List.map_cons, hkeys]; rfl, ⟨hunique, huniques⟩, ?_, ?_⟩
    · rw [dumpsItems_cons]
      simpa [dumpsStr] using Members.more blank_nil (quoteAscii_chars key) blank_nil blank_space hderives
        blank_nil (hmembers.space blank_space)
    · rw [membersHeight, itemsDepth, hheight, hheights]
    · simp [memberValues, hvalue, hvalues]

end

/-- A dumped value is a text of one tree. -/
theorem dumps_text {v : Value} {x : Js.Value} (hw : WellFormed floats v) (h : image v = some x) :
    ∃ t, JsonText (dumps v) t ∧ Reads t (depth v) x := by
  obtain ⟨t, hderives, hreads⟩ := dumps_derives hw h
  exact ⟨t, by simpa using JsonText.intro blank_nil hderives blank_nil, hreads⟩

/-- The strict parser reads a dumped value up to a nesting of 128, and as that value. -/
theorem parseJsonStrict_dumps {v : Value} {x y : Js.Value} (hw : WellFormed floats v)
    (h : image v = some x) : parseJsonStrict (dumps v) = .ok y ↔ depth v ≤ 128 ∧ y = x := by
  obtain ⟨t, htext, hunique, hheight, hvalue⟩ := dumps_text hw h
  rw [parseJsonStrict_iff]
  constructor
  · rintro ⟨t', htext', -, hheight', hvalue'⟩
    obtain rfl := htext.unique htext'
    rw [hheight] at hheight'
    exact ⟨hheight', Option.some.inj (hvalue'.symm.trans hvalue)⟩
  · rintro ⟨hdepth, rfl⟩
    exact ⟨t, htext, hunique, by rwa [hheight], hvalue⟩

/-- No float is written below. -/
def noFloats : FloatFormat where
  repr _ := nanText
  repr_float _ _ := .inl rfl

/-- A record of a list and of an integer beyond the safe ones. -/
theorem parseJsonStrict_dumps_example : ∃ fields,
    parseJsonStrict (dumps (.dict [(js "a", .list [.none]), (js "b", .int (2 ^ 53))])) =
      .ok (.object fields) ∧ fields = [(js "a", .array [.null]), (js "b", .bigint (2 ^ 53))] := by
  have hkeys : [js "a", js "b"].Nodup := by decide +kernel
  have hw : WellFormed noFloats (.dict [(js "a", .list [.none]), (js "b", .int (2 ^ 53))]) :=
    ⟨hkeys, ⟨trivial, trivial⟩, trivial, trivial⟩
  exact ⟨_, (parseJsonStrict_dumps hw rfl).mpr ⟨by decide, rfl⟩, rfl⟩

/-- What a member of a dictionary is in the object. -/
theorem lookup_itemImages {items : Dict} {fields : List (JsString × Js.Value)}
    (h : itemImages items = some fields) (key : Str) :
    fields.lookup key = (items.lookup key).bind image := by
  induction items generalizing fields with
  | nil =>
    cases h
    rfl
  | cons item items ih =>
    obtain ⟨name, v⟩ := item
    obtain ⟨x, others, hx, hothers, rfl⟩ := itemImages_cons h
    rw [List.lookup_cons, List.lookup_cons]
    cases key == name with
    | true => simp [hx]
    | false => exact ih hothers

/-- A dumped dictionary is read as an object with the images of its members. -/
theorem parseJsonStrict_dict {items : Dict} {x : Js.Value} (hw : WellFormed floats (.dict items))
    (h : image (.dict items) = some x) (hdepth : depth (.dict items) ≤ 128) :
    ∃ fields, parseJsonStrict (dumps (.dict items)) = .ok (.object fields) ∧
      ∀ key, fields.lookup key = (items.lookup key).bind image := by
  obtain ⟨fields, hfields, rfl⟩ := Option.map_eq_some_iff.mp h
  obtain ⟨t, htext, hunique, hheight, hvalue⟩ := dumps_text hw h
  exact ⟨fields, (parseJsonStrict_iff _ _).mpr ⟨t, htext, hunique, by rwa [hheight], hvalue⟩,
    lookup_itemImages hfields⟩

end Reading
end Concordia.Verify.Interchange
