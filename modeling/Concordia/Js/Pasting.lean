import Concordia.Js.Unambiguity

/-! Objects written by pasting texts between quotes, with no escaping. The result denotes the pasted
members exactly when no text holds a quote, a backslash or a control character. -/
namespace Concordia.Js.Json

/-- A unit that stands for itself between quotes. -/
def Plain (u : UInt16) : Prop := 0x20 ≤ u ∧ u ≠ quote ∧ u ≠ backslash

def PlainText (s : JsString) : Prop := ∀ u ∈ s, Plain u

theorem PlainText.chars {s : JsString} (h : PlainText s) : Chars s s := by
  induction s with
  | nil => exact .nil
  | cons u s ih =>
    obtain ⟨printable, unquoted, plain⟩ := h u List.mem_cons_self
    exact .unescaped printable unquoted plain (ih fun v hv => h v (List.mem_cons_of_mem _ hv))

theorem hexDigit_ne_quote {u : UInt16} {n : Nat} (h : HexDigit u n) : u ≠ quote := by
  rintro rfl
  have := hexDigitValue_iff.mpr h
  cases this

section Lag
variable {text s r r' : JsString}

/-- Once the decoded string has fallen behind its text by units without a quote, it never
reaches the quote that closes the text. -/
theorem Chars.lag (h : Chars text s) {l : JsString} (hne : l ≠ []) (hl : quote ∉ l) :
    l ++ (text ++ quote :: r) ≠ s ++ quote :: r' := by
  induction h generalizing l with
  | nil =>
    intro e
    obtain ⟨u, l, rfl⟩ := List.exists_cons_of_ne_nil hne
    obtain ⟨rfl, -⟩ := List.cons.inj e
    exact hl List.mem_cons_self
  | @unescaped v text s printable unquoted plain chars ih =>
    intro e
    obtain ⟨u, l, rfl⟩ := List.exists_cons_of_ne_nil hne
    obtain ⟨rfl, e⟩ := List.cons.inj e
    refine @ih (l ++ [u]) (by simp) ?_ (by simpa using e)
    simp only [List.mem_append, List.mem_singleton, not_or]
    exact ⟨fun hq => hl (List.mem_cons_of_mem _ hq), unquoted.symm⟩
  | @escaped c v text s letter chars ih =>
    intro e
    obtain ⟨u, l, rfl⟩ := List.exists_cons_of_ne_nil hne
    obtain ⟨rfl, e⟩ := List.cons.inj e
    refine @ih (l ++ [backslash, c]) (by simp) ?_ (by simpa using e)
    have hu : u ≠ quote := fun hq => hl (hq ▸ List.mem_cons_self)
    have hc : c ≠ quote := by
      rintro rfl
      have := simpleEscape_iff.mpr letter
      exact hu (Option.some.inj this).symm
    simp only [List.mem_append, List.mem_cons, List.not_mem_nil, or_false, not_or]
    exact ⟨fun hq => hl (List.mem_cons_of_mem _ hq), by decide, hc.symm⟩
  | @unicode a b c d i j k n text s first second third fourth chars ih =>
    intro e
    obtain ⟨u, l, rfl⟩ := List.exists_cons_of_ne_nil hne
    obtain ⟨-, e⟩ := List.cons.inj e
    refine @ih (l ++ [backslash, letterU, a, b, c, d]) (by simp) ?_ (by simpa using e)
    simp only [List.mem_append, List.mem_cons, List.not_mem_nil, or_false, not_or]
    exact ⟨fun hq => hl (List.mem_cons_of_mem _ hq), by decide, by decide,
      (hexDigit_ne_quote first).symm, (hexDigit_ne_quote second).symm,
      (hexDigit_ne_quote third).symm, (hexDigit_ne_quote fourth).symm⟩

/-- A string that decodes to the very text it was pasted as is plain, and ends where the
pasted text ends. -/
theorem Chars.pasted (h : Chars text s) (e : text ++ quote :: r = s ++ quote :: r') :
    PlainText s ∧ r = r' := by
  induction h with
  | nil => exact ⟨nofun, (List.cons.inj e).2⟩
  | @unescaped u text s printable unquoted plain chars ih =>
    obtain ⟨hs, hr⟩ := ih (List.cons.inj e).2
    refine ⟨fun v hv => ?_, hr⟩
    rcases List.mem_cons.mp hv with rfl | hv
    · exact ⟨printable, unquoted, plain⟩
    · exact hs v hv
  | @escaped c u text s letter chars ih =>
    obtain ⟨hu, behind⟩ := List.cons.inj e
    have hc : c ≠ quote := by
      rintro rfl
      have := Option.some.inj (simpleEscape_iff.mpr letter)
      rw [← hu] at this
      cases this
    exact (chars.lag (l := [c]) (by simp) (by simpa using hc.symm) behind).elim
  | @unicode a b c d i j k n text s first second third fourth chars ih =>
    have behind := (List.cons.inj e).2
    refine (chars.lag (l := [letterU, a, b, c, d]) (by simp) ?_ behind).elim
    simp only [List.mem_cons, List.not_mem_nil, or_false, not_or]
    exact ⟨by decide, (hexDigit_ne_quote first).symm, (hexDigit_ne_quote second).symm,
      (hexDigit_ne_quote third).symm, (hexDigit_ne_quote fourth).symm⟩

end Lag

/-- A member value as it is pasted: a text between quotes, or a number in decimal. -/
inductive Pasted where
  | text (s : JsString)
  | number (n : Nat)

namespace Pasted

def render : Pasted → JsString
  | text s => quote :: (s ++ [quote])
  | number n => decimal n

def value : Pasted → Value
  | text s => .string s
  | number n => .number n

def Plain : Pasted → Prop
  | text s => PlainText s
  | number n => n ≤ 2 ^ 53 - 1

def tree : Pasted → Tree
  | text s => .string s
  | number n => .number ⟨false, decimal n, none, none⟩

end Pasted

def renderMembers : List (JsString × Pasted) → JsString
  | [] => []
  | [(key, v)] => quote :: (key ++ quote :: colon :: v.render)
  | (key, v) :: rest =>
    quote :: (key ++ quote :: colon :: (v.render ++ comma :: renderMembers rest))

def renderObject (members : List (JsString × Pasted)) : JsString :=
  leftBrace :: (renderMembers members ++ [rightBrace])

def memberTrees (members : List (JsString × Pasted)) : List (JsString × Tree) :=
  members.map fun m => (m.1, m.2.tree)

def memberValuesOf (members : List (JsString × Pasted)) : List (JsString × Value) :=
  members.map fun m => (m.1, m.2.value)

section Numbers

theorem decimal_number (n : Nat) : Number (decimal n) ⟨false, decimal n, none, none⟩ := by
  have integer : IntegerPart (decimal n) := by
    have canonical := isCanonicalDecimal_decimal n
    have h := canonical
    simp only [isCanonicalDecimal, Bool.or_eq_true, Bool.and_eq_true, beq_iff_eq, bne_iff_ne,
      List.all_eq_true] at h
    rcases h with h | ⟨⟨digits, -⟩, leading⟩
    · rw [h]
      exact .zero
    · cases hd : decimal n with
      | nil =>
        rw [hd] at canonical
        cases canonical
      | cons d ds =>
        rw [hd] at digits leading
        exact .nonzero (digits d List.mem_cons_self) (fun e => leading (by rw [e]; rfl))
          fun u hu => digits u (List.mem_cons_of_mem _ hu)
  simpa using Number.intro false integer .absent .absent

theorem decimal_value {n : Nat} (h : n ≤ 2 ^ 53 - 1) :
    NumberText.value ⟨false, decimal n, none, none⟩ = some (.number n) := by
  have hint : NumberText.integerValue ⟨false, decimal n, none, none⟩ = n := by
    simp [NumberText.integerValue, digitsValue_decimal]
  have hsafe : (n : Int) ≤ maxSafeInteger := by
    rw [maxSafeInteger]
    omega
  simp [NumberText.value, hint, hsafe]

theorem decimal_value_bound {n : Nat}
    (h : NumberText.value ⟨false, decimal n, none, none⟩ = some (.number n)) :
    n ≤ 2 ^ 53 - 1 := by
  have hint : NumberText.integerValue ⟨false, decimal n, none, none⟩ = n := by
    simp [NumberText.integerValue, digitsValue_decimal]
  by_contra hn
  have hunsafe : ¬ (n : Int) ≤ maxSafeInteger := by
    rw [maxSafeInteger]
    omega
  simp [NumberText.value, hint, hunsafe] at h

end Numbers

section Values
variable {text tail rest : JsString} {t : Tree}

theorem Tree.value_string {s : JsString} (h : t.value = some (.string s)) : t = .string s := by
  cases t with
  | string s' =>
    rw [Tree.value] at h
    cases h
    rfl
  | null => cases h
  | boolean => cases h
  | number n =>
    simp only [Tree.value, NumberText.value] at h
    split_ifs at h
    · cases h
    · cases h
    · simp at h
  | array ts => simp [Tree.value] at h
  | object ms => simp [Tree.value] at h

theorem Tree.value_number {x : ℚ} (h : t.value = some (.number x)) :
    ∃ n, t = .number n ∧ n.value = some (.number x) := by
  cases t with
  | number n => exact ⟨n, rfl, h⟩
  | null => cases h
  | boolean => cases h
  | string => cases h
  | array ts => simp [Tree.value] at h
  | object ms => simp [Tree.value] at h

theorem Tree.value_object {fields : List (JsString × Value)}
    (h : t.value = some (.object fields)) : ∃ ms, t = .object ms ∧ memberValues ms = some fields := by
  cases t with
  | object ms =>
    obtain ⟨fields', hms, hfields⟩ := Option.map_eq_some_iff.mp h
    cases hfields
    exact ⟨ms, rfl, hms⟩
  | number n =>
    simp only [Tree.value, NumberText.value] at h
    split_ifs at h
    · cases h
    · cases h
    · simp at h
  | null => cases h
  | boolean => cases h
  | string => cases h
  | array ts => simp [Tree.value] at h

theorem Pasted.derives {v : Pasted} (h : v.Plain) :
    Derives v.render v.tree ∧ v.tree.value = some v.value := by
  cases v with
  | text s => exact ⟨.string (PlainText.chars h), rfl⟩
  | number n => exact ⟨.number (decimal_number n), decimal_value h⟩

/-- A value read as it was pasted is plain, and ends where it was pasted to end. -/
theorem Pasted.of_derives {v : Pasted} (derives : Derives text t) (hv : t.value = some v.value)
    (htail : Ends tail) (hrest : Ends rest) (e : text ++ tail = v.render ++ rest) :
    v.Plain ∧ tail = rest := by
  cases v with
  | text s =>
    obtain rfl := Tree.value_string hv
    cases derives with
    | string chars =>
      simp only [render, List.cons_append, List.append_assoc, List.nil_append] at e
      exact chars.pasted (List.cons.inj e).2
  | number n =>
    obtain ⟨m, rfl, hm⟩ := Tree.value_number hv
    cases derives with
    | number number =>
      have hmatch := matchNumber_complete number htail
      rw [e, render, matchNumber_complete (decimal_number n) hrest] at hmatch
      obtain ⟨rfl, rfl⟩ := Prod.mk.inj (Option.some.inj hmatch)
      exact ⟨decimal_value_bound hm, rfl⟩

theorem Pasted.render_start (v : Pasted) (rest : JsString) :
    whitespace (v.render ++ rest) = v.render ++ rest := by
  cases v with
  | text s => exact @whitespace_cons_self _ [] _ nofun (by decide)
  | number n =>
    obtain ⟨u, ds, hu, hspace, -⟩ := Derives.start (.number (decimal_number n))
    rw [render, hu]
    exact whitespace_self fun w hw => Option.some.inj hw ▸ hspace

end Values

section Objects
variable {x r r' : JsString} {members : List (JsString × Pasted)}

private theorem blank : Whitespace [] := nofun

theorem renderMembers_derives (hne : members ≠ [])
    (plain : ∀ m ∈ members, PlainText m.1 ∧ m.2.Plain) :
    Members (renderMembers members) (memberTrees members) ∧
      memberValues (memberTrees members) = some (memberValuesOf members) := by
  induction members with
  | nil => exact absurd rfl hne
  | cons m members ih =>
    obtain ⟨key, v⟩ := m
    obtain ⟨hkey, hv⟩ := plain (key, v) List.mem_cons_self
    obtain ⟨derives, hvalue⟩ := Pasted.derives hv
    cases members with
    | nil =>
      refine ⟨?_, by simp [memberTrees, memberValuesOf, memberValues, hvalue]⟩
      have member := Members.last blank hkey.chars blank blank derives blank
      simp only [List.nil_append, List.append_nil] at member
      exact member
    | cons m members =>
      obtain ⟨hmembers, hvalues⟩ := ih (by simp) fun m hm => plain m (List.mem_cons_of_mem _ hm)
      constructor
      · have member := Members.more blank hkey.chars blank blank derives blank hmembers
        simp only [List.nil_append] at member
        exact member
      · simp only [memberTrees, memberValuesOf, List.map_cons] at hvalues ⊢
        rw [memberValues, hvalue, hvalues]
        rfl

/-- The members in front of what ends them. -/
theorem renderMembers_cons (key : JsString) (v : Pasted) (members : List (JsString × Pasted))
    (r : JsString) : ∃ rest, Ends rest ∧ whitespace rest = rest ∧
      renderMembers ((key, v) :: members) ++ rightBrace :: r =
        quote :: (key ++ quote :: colon :: (v.render ++ rest)) ∧
      (members = [] ∧ rest = rightBrace :: r ∨
        members ≠ [] ∧ rest = comma :: (renderMembers members ++ rightBrace :: r)) := by
  cases members with
  | nil =>
    refine ⟨rightBrace :: r, ends_cons (by simp), rfl, ?_, .inl ⟨rfl, rfl⟩⟩
    simp [renderMembers]
  | cons m members =>
    refine ⟨comma :: (renderMembers (m :: members) ++ rightBrace :: r), ends_cons (by simp), rfl,
      ?_, .inr ⟨by simp, rfl⟩⟩
    simp [renderMembers]

theorem memberValues_cons {key : JsString} {t : Tree} {ms : List (JsString × Tree)}
    {fields : List (JsString × Value)} (h : memberValues ((key, t) :: ms) = some fields) :
    ∃ v rest, t.value = some v ∧ memberValues ms = some rest ∧ fields = (key, v) :: rest := by
  simp only [memberValues, Option.bind_eq_bind, Option.bind_eq_some_iff, Option.pure_def,
    Option.some.injEq] at h
  obtain ⟨v, hv, rest, hrest, rfl⟩ := h
  exact ⟨v, rest, hv, hrest, rfl⟩

theorem renderMembers_plain {ms : List (JsString × Tree)} (h : Members x ms)
    (keys : ∀ m ∈ members, PlainText m.1) (hv : memberValues ms = some (memberValuesOf members))
    (e : x ++ rightBrace :: r = renderMembers members ++ rightBrace :: r') :
    (∀ m ∈ members, m.2.Plain) ∧ r = r' := by
  induction members generalizing x ms with
  | nil =>
    cases ms with
    | nil => cases h
    | cons m ms =>
      obtain ⟨_, _, -, -, hfields⟩ := memberValues_cons hv
      cases hfields
  | cons m members ih =>
    obtain ⟨key, v⟩ := m
    obtain ⟨rest, hrest, hspace, hrender, hlast⟩ := renderMembers_cons key v members r'
    obtain ⟨body, key', a, b, text, t, tail, hquote, hkey, hcolon, hwhite, derives, hends, hnext⟩ :=
      h.uncons r
    have hchars := PlainText.chars (keys (key, v) List.mem_cons_self)
    rw [e, hrender, whitespace_self (by simp [isSpace, quote])] at hquote
    rw [← (List.cons.inj hquote).2, parseString_complete hchars] at hkey
    obtain ⟨rfl, rfl⟩ := Prod.mk.inj (Except.ok.inj hkey)
    rw [whitespace_self (by simp [isSpace, colon])] at hcolon
    obtain rfl := (List.cons.inj hcolon).2
    rw [Pasted.render_start] at hwhite
    obtain ⟨ms', rfl⟩ : ∃ ms', ms = (key, t) :: ms' := by
      rcases hnext with ⟨-, hms⟩ | ⟨_, ms', -, -, hms⟩
      · exact ⟨[], hms⟩
      · exact ⟨ms', hms⟩
    obtain ⟨_, _, hvalue, hvalues, hfields⟩ := memberValues_cons hv
    simp only [memberValuesOf, List.map_cons, List.cons.injEq, Prod.mk.injEq, true_and] at hfields
    obtain ⟨rfl, rfl⟩ := hfields
    obtain ⟨plain, rfl⟩ := Pasted.of_derives derives hvalue hends hrest hwhite.symm
    rw [hspace] at hnext
    rcases hnext with ⟨hend, -⟩ | ⟨more, ns, hend, hmembers, hms⟩ <;>
      rcases hlast with ⟨rfl, htail⟩ | ⟨-, htail⟩ <;>
      rw [hend] at htail <;> obtain ⟨hhead, htail⟩ := List.cons.inj htail
    · exact ⟨by simpa using plain, htail⟩
    · cases hhead
    · cases hhead
    · obtain rfl := (List.cons.inj hms).2
      obtain ⟨hplain, hr⟩ := ih hmembers (fun m hm => keys m (List.mem_cons_of_mem _ hm)) hvalues
        htail
      exact ⟨List.forall_mem_cons.mpr ⟨plain, hplain⟩, hr⟩

/-- The pasted object denotes its members exactly when all of them are plain. -/
theorem renderObject_iff (hne : members ≠ []) (keys : ∀ m ∈ members, PlainText m.1) :
    (∃ t, JsonText (renderObject members) t ∧ t.value = some (.object (memberValuesOf members))) ↔
      ∀ m ∈ members, m.2.Plain := by
  constructor
  · rintro ⟨t, text, hvalue⟩
    obtain ⟨ms, rfl, hms⟩ := Tree.value_object hvalue
    generalize hsource : renderObject members = source at text
    cases text with
    | @intro before text after _ blankBefore derives blankAfter =>
      obtain ⟨inner, hinner, hcases⟩ := derives.object_cases after
      have hwhite := congrArg whitespace hsource
      rw [hinner, whitespace_cons_self blankBefore (by decide), renderObject,
        whitespace_self (by simp [isSpace, leftBrace])] at hwhite
      obtain rfl := (List.cons.inj hwhite).2
      rcases hcases with ⟨rfl, -⟩ | ⟨-, text', hmembers, htext⟩
      · obtain ⟨m, members, rfl⟩ := List.exists_cons_of_ne_nil hne
        cases hms
      · exact (renderMembers_plain hmembers keys hms htext.symm).1
  · intro plain
    obtain ⟨hmembers, hvalues⟩ := renderMembers_derives hne fun m hm => ⟨keys m hm, plain m hm⟩
    refine ⟨.object (memberTrees members), ?_, by simp [Tree.value, hvalues]⟩
    have text := JsonText.intro blank (.object hmembers) blank
    simp only [List.nil_append, List.append_nil] at text
    exact text

end Objects
end Concordia.Js.Json
