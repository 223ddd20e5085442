import Concordia.Js.Arrangement
import Concordia.Js.Pasting
import Concordia.Python.Scanning

/-! The canonical JSON of transcripts: what the strict parser returned is written with sorted names
and in ASCII, and is read back as it was. -/
namespace Concordia.Verify.Transcript
open Concordia.Js Concordia.Js.Json

def maxTranscriptBytes : Nat := 32 * 1024 * 1024

/-- `JSON.stringify(value)`, with `\u` escapes for all that is not printable ASCII. Unit by unit
this is what Python's `json.dumps` writes. -/
def quoteAscii (value : JsString) : JsString := Python.dumpsStr value

/-- `String(n)` and `n.toString()`. -/
def integerText (n : Int) : JsString := Python.dumpsInt n

/-- `texts.join(",")`. -/
def joinComma : List JsString → JsString
  | [] => []
  | [text] => text
  | text :: rest => text ++ comma :: joinComma rest

/-- The results, or the first error among them. -/
def collect {α : Type} : List (Except String α) → Except String (List α)
  | [] => .ok []
  | x :: rest => do return (← x) :: (← collect rest)

def limited (label : String) (depth : Nat) (result : Except String JsString) :
    Except String JsString :=
  if 128 < depth then .error s!"{label} exceeds JSON nesting limit" else result

/-- A member of an object in the text. -/
def memberText (member : JsString × Except String JsString) : Except String JsString :=
  member.2.map fun text => quoteAscii member.1 ++ Json.colon :: text

mutual

def canonicalJsonValue (label : String) (depth : Nat) : Value → Except String JsString
  | .null => limited label depth (.ok nullText)
  | .string s => limited label depth (.ok (quoteAscii s))
  | .boolean b => limited label depth (.ok (if b then trueText else falseText))
  | .number x => limited label depth (match safeInteger x with
    | some n => .ok (integerText n)
    | none => .error s!"{label} contains a non-canonical JSON number")
  | .bigint n => limited label depth (.ok (integerText n))
  | .array elements => limited label depth do
    let texts ← collect (canonicalElements label (depth + 1) elements)
    return leftBracket :: (joinComma texts ++ [rightBracket])
  | .object members => limited label depth do
    let texts ← collect ((sortMembers (canonicalMembers label (depth + 1) members)).map memberText)
    return leftBrace :: (joinComma texts ++ [rightBrace])
  | .undefined => limited label depth (.error s!"{label} is not canonical JSON")

def canonicalElements (label : String) (depth : Nat) :
    List Value → List (Except String JsString)
  | [] => []
  | v :: rest => canonicalJsonValue label depth v :: canonicalElements label depth rest

def canonicalMembers (label : String) (depth : Nat) :
    Js.Members → List (JsString × Except String JsString)
  | [] => []
  | (name, v) :: rest => (name, canonicalJsonValue label depth v) :: canonicalMembers label depth rest

end

def canonicalTranscriptJson (value : Value) (label : String) : Except String JsString := do
  let encoded ← canonicalJsonValue label 0 value
  if maxTranscriptBytes < encoded.length then .error s!"{label} exceeds transcript size limit"
  else return encoded

section Equations
variable {label : String} {depth : Nat}

theorem canonicalElements_eq (elements : List Value) :
    canonicalElements label depth elements = elements.map (canonicalJsonValue label depth) := by
  induction elements with
  | nil => rfl
  | cons v rest ih => rw [canonicalElements, ih, List.map_cons]

theorem canonicalMembers_eq (members : Js.Members) : canonicalMembers label depth members =
    members.map fun m => (m.1, canonicalJsonValue label depth m.2) := by
  induction members with
  | nil => rfl
  | cons m rest ih => rw [canonicalMembers, ih, List.map_cons]

theorem limited_ok {result : Except String JsString} {text : JsString}
    (h : limited label depth result = .ok text) : result = .ok text := by
  unfold limited at h
  split at h
  · cases h
  · exact h

theorem collect_cons {α : Type} {x : Except String α} {rest : List (Except String α)}
    {values : List α} (h : collect (x :: rest) = .ok values) :
    ∃ v vs, x = .ok v ∧ collect rest = .ok vs ∧ values = v :: vs := by
  cases x with
  | error message => cases h
  | ok v =>
    cases hrest : collect rest with
    | error message =>
      simp only [collect, hrest] at h
      cases h
    | ok vs =>
      simp only [collect, hrest] at h
      cases h
      exact ⟨v, vs, rfl, rfl, rfl⟩

/-- The texts of an object's members, in the order of their names. -/
def memberTexts (label : String) (depth : Nat) (members : Js.Members) :
    List (Except String JsString) :=
  (sortMembers members).map fun m => memberText (m.1, canonicalJsonValue label depth m.2)

theorem sorted_memberTexts (members : Js.Members) :
    (sortMembers (canonicalMembers label depth members)).map memberText =
      memberTexts label depth members := by
  rw [canonicalMembers_eq, sortMembers_map, List.map_map]
  rfl

theorem canonical_array {elements : List Value} {text : JsString}
    (h : canonicalJsonValue label depth (.array elements) = .ok text) :
    ∃ texts, collect (elements.map (canonicalJsonValue label (depth + 1))) = .ok texts ∧
      text = leftBracket :: (joinComma texts ++ [rightBracket]) := by
  rw [canonicalJsonValue, canonicalElements_eq] at h
  have h := limited_ok h
  cases htexts : collect (elements.map (canonicalJsonValue label (depth + 1))) with
  | error message =>
    rw [htexts] at h
    cases h
  | ok texts =>
    rw [htexts] at h
    exact ⟨texts, rfl, (Except.ok.inj h).symm⟩

theorem canonical_object {members : Js.Members} {text : JsString}
    (h : canonicalJsonValue label depth (.object members) = .ok text) :
    ∃ texts, collect (memberTexts label (depth + 1) members) = .ok texts ∧
      text = leftBrace :: (joinComma texts ++ [rightBrace]) := by
  rw [canonicalJsonValue, sorted_memberTexts] at h
  have h := limited_ok h
  cases htexts : collect (memberTexts label (depth + 1) members) with
  | error message =>
    rw [htexts] at h
    cases h
  | ok texts =>
    rw [htexts] at h
    exact ⟨texts, rfl, (Except.ok.inj h).symm⟩

end Equations

/-! The arrangement of a value has its text. -/
section Arranged

mutual

theorem canonical_arranged (label : String) : ∀ (depth : Nat) (v : Value),
    canonicalJsonValue label depth (arranged v) = canonicalJsonValue label depth v
  | depth, .array elements => by
    rw [arranged, canonicalJsonValue, canonicalJsonValue, canonicalElements_arranged]
  | depth, .object members => by
    rw [arranged, canonicalJsonValue, canonicalJsonValue, sorted_memberTexts, sorted_memberTexts,
      memberTexts, memberTexts, sortMembers_self (sortMembers_sorted _), arrangedMembers_eq,
      sortMembers_map, List.map_map]
    congr 2
    apply congrArg collect
    apply List.map_congr_left
    intro m hm
    have h := canonicalMembers_arranged label (depth + 1) members m (mem_sortMembers.mp hm)
    simp only [Function.comp_apply, h]
  | _, .undefined => rfl
  | _, .null => rfl
  | _, .boolean _ => rfl
  | _, .number _ => rfl
  | _, .bigint _ => rfl
  | _, .string _ => rfl

theorem canonicalElements_arranged (label : String) : ∀ (depth : Nat) (elements : List Value),
    canonicalElements label depth (arrangedElements elements) =
      canonicalElements label depth elements
  | _, [] => rfl
  | depth, v :: rest => by
    rw [arrangedElements, canonicalElements, canonicalElements, canonical_arranged,
      canonicalElements_arranged]

theorem canonicalMembers_arranged (label : String) : ∀ (depth : Nat) (members : Js.Members),
    ∀ m ∈ members, canonicalJsonValue label depth (arranged m.2) =
      canonicalJsonValue label depth m.2
  | depth, (_, v) :: rest, m, hm => by
    rcases List.mem_cons.mp hm with rfl | hm
    · exact canonical_arranged label depth v
    · exact canonicalMembers_arranged label depth rest m hm

end

end Arranged

/-! The label stands in errors only. -/
section Labels

theorem limited_label {label label' : String} (depth : Nat) {x y : Except String JsString}
    (h : x.toOption = y.toOption) :
    (limited label depth x).toOption = (limited label' depth y).toOption := by
  unfold limited
  split
  · rfl
  · exact h

theorem collect_toOption {α : Type} {xs ys : List (Except String α)}
    (h : xs.map Except.toOption = ys.map Except.toOption) :
    (collect xs).toOption = (collect ys).toOption := by
  induction xs generalizing ys with
  | nil =>
    obtain rfl := List.map_eq_nil_iff.mp h.symm
    rfl
  | cons x xs ih =>
    cases ys with
    | nil => cases h
    | cons y ys =>
      rw [List.map_cons, List.map_cons, List.cons.injEq] at h
      obtain ⟨hhead, htail⟩ := h
      have hrest := ih htail
      simp only [collect]
      cases x <;> cases y <;> cases hhead
      · rfl
      · generalize collect xs = a at hrest ⊢
        generalize collect ys = b at hrest ⊢
        cases a <;> cases b <;> cases hrest <;> rfl

theorem bind_toOption {x y : Except String (List JsString)} (h : x.toOption = y.toOption)
    (f : List JsString → JsString) :
    (x >>= fun texts => pure (f texts)).toOption =
      (y >>= fun texts => (pure (f texts) : Except String JsString)).toOption := by
  cases x <;> cases y <;> cases h <;> rfl

mutual

theorem canonical_label (label label' : String) : ∀ (depth : Nat) (v : Value),
    (canonicalJsonValue label depth v).toOption = (canonicalJsonValue label' depth v).toOption
  | depth, .array elements => by
    rw [canonicalJsonValue, canonicalJsonValue]
    apply limited_label
    apply bind_toOption
    exact collect_toOption (canonicalElements_label label label' (depth + 1) elements)
  | depth, .object members => by
    rw [canonicalJsonValue, canonicalJsonValue, sorted_memberTexts, sorted_memberTexts]
    apply limited_label
    apply bind_toOption
    apply collect_toOption
    rw [memberTexts, memberTexts, List.map_map, List.map_map]
    apply List.map_congr_left
    intro m hm
    have h := canonicalMembers_label label label' (depth + 1) members m (mem_sortMembers.mp hm)
    simp only [Function.comp_apply, memberText]
    generalize canonicalJsonValue label (depth + 1) m.2 = x at h ⊢
    generalize canonicalJsonValue label' (depth + 1) m.2 = y at h ⊢
    cases x <;> cases y <;> cases h <;> rfl
  | depth, .number x => by
    rw [canonicalJsonValue, canonicalJsonValue]
    apply limited_label
    cases safeInteger x <;> rfl
  | depth, .undefined => limited_label depth rfl
  | depth, .null => limited_label depth rfl
  | depth, .boolean b => limited_label depth rfl
  | depth, .bigint n => limited_label depth rfl
  | depth, .string s => limited_label depth rfl

theorem canonicalElements_label (label label' : String) : ∀ (depth : Nat) (elements : List Value),
    (canonicalElements label depth elements).map Except.toOption =
      (canonicalElements label' depth elements).map Except.toOption
  | _, [] => rfl
  | depth, v :: rest => by
    rw [canonicalElements, canonicalElements, List.map_cons, List.map_cons,
      canonical_label label label' depth v, canonicalElements_label label label' depth rest]

theorem canonicalMembers_label (label label' : String) : ∀ (depth : Nat) (members : Js.Members),
    ∀ m ∈ members, (canonicalJsonValue label depth m.2).toOption =
      (canonicalJsonValue label' depth m.2).toOption
  | depth, (_, v) :: rest, m, hm => by
    rcases List.mem_cons.mp hm with rfl | hm
    · exact canonical_label label label' depth v
    · exact canonicalMembers_label label label' depth rest m hm

end

end Labels

/-! The text is derived by the grammar, and denotes the arrangement. -/
section Written

private theorem blank : Whitespace [] := nofun

theorem quoteAscii_chars (s : JsString) : Chars (s.flatMap Python.escapeUnit) s := by
  have hread := @Python.parseString_escape 0 s []
  obtain ⟨text, chars, htext⟩ := parseString_sound hread
  rw [List.append_cancel_right htext]
  exact chars

theorem quoteAscii_derives (s : JsString) : Derives (quoteAscii s) (.string s) :=
  .string (quoteAscii_chars s)

theorem integerPart_of_number {text : JsString} {n : NumberText} (h : Number text n) :
    IntegerPart n.integer := by
  cases h with
  | intro negative integer fractional exponential => exact integer

def integerTree (n : Int) : NumberText := ⟨decide (n < 0), decimal n.natAbs, none, none⟩

theorem integerText_number (n : Int) : Number (integerText n) (integerTree n) := by
  have hnumber := Number.intro (decide (n < 0)) (integerPart_of_number (decimal_number n.natAbs))
    .absent .absent
  rw [List.append_nil, List.append_nil] at hnumber
  unfold integerText Python.dumpsInt
  by_cases h : n < 0
  · rw [if_pos h]
    rw [decide_eq_true h, if_pos rfl] at hnumber
    rw [integerTree, decide_eq_true h]
    exact hnumber
  · rw [if_neg h]
    rw [decide_eq_false h, if_neg Bool.false_ne_true] at hnumber
    rw [integerTree, decide_eq_false h]
    exact hnumber

theorem integerTree_integer (n : Int) : (integerTree n).integerValue = n := by
  rw [NumberText.integerValue, integerTree, digitsValue_decimal]
  by_cases h : n < 0
  · rw [if_pos (decide_eq_true h)]
    omega
  · rw [if_neg (by simpa using h)]
    omega

theorem integerTree_value (n : Int) : (integerTree n).value =
    if |n| ≤ maxSafeInteger then some (.number n) else some (.bigint n) := by
  rw [NumberText.value, integerTree_integer]
  rfl

/-- A text for the value: its tree nests no deeper than `levels`, and denotes the arrangement. -/
def Writes (levels : Nat) (v : Value) : Prop :=
  ∀ label depth text, canonicalJsonValue label depth v = .ok text →
    ∃ t, Derives text t ∧ t.NamesUnique ∧ t.height ≤ levels ∧ t.value = some (arranged v)

theorem Writes.mono {levels levels' : Nat} {v : Value} (h : Writes levels v)
    (hle : levels ≤ levels') : Writes levels' v := by
  intro label depth text htext
  obtain ⟨t, derives, unique, height, hvalue⟩ := h label depth text htext
  exact ⟨t, derives, unique, height.trans hle, hvalue⟩

theorem elements_written {levels : Nat} {elements : List Value} (hne : elements ≠ [])
    (h : ∀ v ∈ elements, Writes levels v) {label : String} {depth : Nat} {texts : List JsString}
    (htexts : collect (elements.map (canonicalJsonValue label depth)) = .ok texts) :
    ∃ ts, Elements (joinComma texts) ts ∧ ElementsUnique ts ∧ elementsHeight ts ≤ levels ∧
      elementValues ts = some (elements.map arranged) := by
  induction elements generalizing texts with
  | nil => exact absurd rfl hne
  | cons v rest ih =>
    rw [List.map_cons] at htexts
    obtain ⟨text, others, htext, hothers, rfl⟩ := collect_cons htexts
    obtain ⟨t, derives, unique, height, hvalue⟩ := h v List.mem_cons_self _ _ _ htext
    cases rest with
    | nil =>
      obtain rfl : [] = others := Except.ok.inj hothers
      refine ⟨[t], ?_, ⟨unique, trivial⟩, max_le height (Nat.zero_le _), by
        simp [elementValues, hvalue]⟩
      have element := Elements.last blank derives blank
      rwa [List.nil_append, List.append_nil] at element
    | cons w rest =>
      obtain ⟨ts, elements, uniques, heights, hvalues⟩ :=
        ih (by simp) (fun x hx => h x (List.mem_cons_of_mem _ hx)) hothers
      obtain ⟨text', others', -, -, rfl⟩ := collect_cons hothers
      refine ⟨t :: ts, ?_, ⟨unique, uniques⟩, max_le height heights, by
        simp [elementValues, hvalue, hvalues]⟩
      exact Elements.more blank derives blank elements

theorem members_written {levels : Nat} {members : Js.Members} (hne : members ≠ [])
    (h : ∀ m ∈ members, Writes levels m.2) {label : String} {depth : Nat} {texts : List JsString}
    (htexts : collect (members.map fun m =>
      memberText (m.1, canonicalJsonValue label depth m.2)) = .ok texts) :
    ∃ ms, Members (joinComma texts) ms ∧ ms.map Prod.fst = members.map Prod.fst ∧
      MembersUnique ms ∧ membersHeight ms ≤ levels ∧
      memberValues ms = some (members.map fun m => (m.1, arranged m.2)) := by
  induction members generalizing texts with
  | nil => exact absurd rfl hne
  | cons m rest ih =>
    obtain ⟨name, v⟩ := m
    rw [List.map_cons] at htexts
    obtain ⟨text, others, htext, hothers, rfl⟩ := collect_cons htexts
    obtain ⟨inner, hinner, rfl⟩ : ∃ inner, canonicalJsonValue label depth v = .ok inner ∧
        text = quoteAscii name ++ Json.colon :: inner := by
      cases hinner : canonicalJsonValue label depth v with
      | error message =>
        simp only [memberText, hinner] at htext
        cases htext
      | ok inner =>
        simp only [memberText, hinner] at htext
        exact ⟨inner, rfl, (Except.ok.inj htext).symm⟩
    obtain ⟨t, derives, unique, height, hvalue⟩ :=
      h (name, v) List.mem_cons_self _ _ _ hinner
    simp only at hvalue
    cases rest with
    | nil =>
      obtain rfl : [] = others := Except.ok.inj hothers
      refine ⟨[(name, t)], ?_, rfl, ⟨unique, trivial⟩, max_le height (Nat.zero_le _),
        by rw [memberValues, hvalue]; rfl⟩
      have member := Members.last blank (quoteAscii_chars name) blank blank derives blank
      simpa [joinComma, quoteAscii, Python.dumpsStr] using member
    | cons m' rest =>
      obtain ⟨ms, members, names, uniques, heights, hvalues⟩ :=
        ih (by simp) (fun x hx => h x (List.mem_cons_of_mem _ hx)) hothers
      obtain ⟨text', others', -, -, rfl⟩ := collect_cons hothers
      refine ⟨(name, t) :: ms, ?_, by rw [List.map_cons, names]; rfl,
        ⟨unique, uniques⟩, max_le height heights, by rw [memberValues, hvalue, hvalues]; rfl⟩
      have member := Members.more blank (quoteAscii_chars name) blank blank derives blank members
      simpa [joinComma, quoteAscii, Python.dumpsStr] using member

theorem writes_scalar {v : Value} {t : Tree} (hheight : t.height = 1) (hunique : t.NamesUnique)
    (hvalue : t.value = some (arranged v)) (h : ∀ label depth text,
      canonicalJsonValue label depth v = .ok text → Derives text t) : Writes 1 v :=
  fun label depth text htext => ⟨t, h label depth text htext, hunique, hheight.le, hvalue⟩

theorem memberValues_names {ms : List (JsString × Tree)} {members : Js.Members}
    (h : memberValues ms = some members) : members.map Prod.fst = ms.map Prod.fst := by
  induction ms generalizing members with
  | nil =>
    obtain rfl := Option.some.inj h
    rfl
  | cons m ms ih =>
    obtain ⟨v, rest, -, hrest, rfl⟩ := memberValues_cons h
    rw [List.map_cons, ih hrest, List.map_cons]

theorem safeInteger_some {x : ℚ} {n : Int} (h : safeInteger x = some n) :
    x = n ∧ |n| ≤ maxSafeInteger := by
  unfold safeInteger at h
  split at h
  · next hx =>
    obtain rfl := Option.some.inj h
    refine ⟨(Rat.den_eq_one_iff x).mp hx.1 |>.symm, ?_⟩
    rw [Int.abs_eq_natAbs, maxSafeInteger]
    omega
  · cases h

/-- A number that has a text is a safe integer, and is read back as one. -/
theorem writes_number (x : ℚ) : Writes 1 (.number x) := by
  intro label depth text htext
  rw [canonicalJsonValue] at htext
  have htext := limited_ok htext
  cases hsafe : safeInteger x with
  | none =>
    rw [hsafe] at htext
    cases htext
  | some n =>
    rw [hsafe] at htext
    obtain rfl := Except.ok.inj htext
    obtain ⟨rfl, hbound⟩ := safeInteger_some hsafe
    refine ⟨.number (integerTree n), .number (integerText_number n), trivial, le_rfl, ?_⟩
    rw [Tree.value, integerTree_value, if_pos hbound, arranged]
    all_goals simp

/-- A bigint outside the safe range is read back as one. -/
theorem writes_bigint {n : Int} (h : ¬ |n| ≤ maxSafeInteger) : Writes 1 (.bigint n) := by
  intro label depth text htext
  rw [canonicalJsonValue] at htext
  obtain rfl := Except.ok.inj (limited_ok htext)
  refine ⟨.number (integerTree n), .number (integerText_number n), trivial, le_rfl, ?_⟩
  rw [Tree.value, integerTree_value, if_neg h, arranged]
  all_goals simp

theorem writes_numberText {n : NumberText} {v : Value} (h : n.value = some v) : Writes 1 v := by
  unfold NumberText.value at h
  split at h
  · split at h
    · obtain rfl := Option.some.inj h
      exact writes_number _
    · next hbound =>
      obtain rfl := Option.some.inj h
      exact writes_bigint hbound
  · obtain ⟨x, -, rfl⟩ := Option.map_eq_some_iff.mp h
    exact writes_number x

theorem writes_array {levels : Nat} {elements : List Value}
    (h : ∀ v ∈ elements, Writes levels v) : Writes (levels + 1) (.array elements) := by
  intro label depth text htext
  obtain ⟨texts, htexts, rfl⟩ := canonical_array htext
  rw [arranged, arrangedElements_eq]
  by_cases hne : elements = []
  · subst hne
    obtain rfl : [] = texts := Except.ok.inj htexts
    exact ⟨.array [], .emptyArray blank, trivial, Nat.succ_le_succ (Nat.zero_le _), rfl⟩
  · obtain ⟨ts, elements, uniques, heights, hvalues⟩ := elements_written hne h htexts
    exact ⟨.array ts, .array elements, uniques, Nat.succ_le_succ heights, by
      rw [Tree.value, hvalues]; rfl⟩

theorem writes_object {levels : Nat} {members : Js.Members}
    (hnodup : (members.map Prod.fst).Nodup) (h : ∀ m ∈ members, Writes levels m.2) :
    Writes (levels + 1) (.object members) := by
  intro label depth text htext
  obtain ⟨texts, htexts, rfl⟩ := canonical_object htext
  rw [arranged_object]
  by_cases hne : sortMembers members = []
  · rw [memberTexts, hne] at htexts
    obtain rfl : [] = texts := Except.ok.inj htexts
    rw [hne]
    exact ⟨.object [], .emptyObject blank, ⟨List.nodup_nil, trivial⟩,
      Nat.succ_le_succ (Nat.zero_le _), rfl⟩
  · obtain ⟨ms, members', names, uniques, heights, hvalues⟩ :=
      members_written hne (fun m hm => h m (mem_sortMembers.mp hm)) htexts
    have hnames : (ms.map Prod.fst).Nodup := by
      rw [names, ((sortMembers_perm members).map Prod.fst).nodup_iff]
      exact hnodup
    exact ⟨.object ms, .object members', ⟨hnames, uniques⟩, Nat.succ_le_succ heights, by
      rw [Tree.value, hvalues]; rfl⟩

mutual

/-- Whatever a syntax tree denotes is written so that it can be read back. -/
theorem writes_tree : ∀ {t : Tree} {v : Value}, t.value = some v → t.NamesUnique →
    Writes t.height v ∧ UniqueNames v
  | .null, v, h, _ => by
    obtain rfl := Option.some.inj h
    refine ⟨@writes_scalar .null .null rfl trivial rfl fun label depth text htext => ?_, trivial⟩
    rw [canonicalJsonValue] at htext
    obtain rfl := Except.ok.inj (limited_ok htext)
    exact .nullLiteral
  | .boolean b, v, h, _ => by
    obtain rfl := Option.some.inj h
    refine ⟨@writes_scalar (.boolean b) (.boolean b) rfl trivial rfl
      fun label depth text htext => ?_, trivial⟩
    rw [canonicalJsonValue] at htext
    obtain rfl := Except.ok.inj (limited_ok htext)
    cases b
    · exact .falseLiteral
    · exact .trueLiteral
  | .number n, v, h, _ => by
    refine ⟨writes_numberText h, ?_⟩
    simp only [Tree.value, NumberText.value] at h
    split_ifs at h
    · obtain rfl := Option.some.inj h
      trivial
    · obtain rfl := Option.some.inj h
      trivial
    · obtain ⟨x, -, rfl⟩ := Option.map_eq_some_iff.mp h
      trivial
  | .string s, v, h, _ => by
    obtain rfl := Option.some.inj h
    refine ⟨@writes_scalar (.string s) (.string s) rfl trivial rfl
      fun label depth text htext => ?_, trivial⟩
    rw [canonicalJsonValue] at htext
    obtain rfl := Except.ok.inj (limited_ok htext)
    exact quoteAscii_derives s
  | .array ts, v, h, hunique => by
    obtain ⟨elements, helements, rfl⟩ := Option.map_eq_some_iff.mp h
    have hall := writes_elements helements hunique
    exact ⟨writes_array fun x hx => (hall x hx).1, uniqueElements_iff.mpr fun x hx => (hall x hx).2⟩
  | .object ms, v, h, hunique => by
    obtain ⟨members, hmembers, rfl⟩ := Option.map_eq_some_iff.mp h
    have hall := writes_members hmembers hunique.2
    have hnodup : (members.map Prod.fst).Nodup := by
      rw [memberValues_names hmembers]
      exact hunique.1
    exact ⟨writes_object hnodup fun m hm => (hall m hm).1,
      hnodup, uniqueMembers_iff.mpr fun m hm => (hall m hm).2⟩

theorem writes_elements : ∀ {ts : List Tree} {elements : List Value},
    elementValues ts = some elements → ElementsUnique ts →
    ∀ v ∈ elements, Writes (elementsHeight ts) v ∧ UniqueNames v
  | [], _, h, _, v, hv => by
    obtain rfl := Option.some.inj h
    cases hv
  | t :: ts, _, h, hunique, v, hv => by
    simp only [elementValues, Option.bind_eq_bind, Option.bind_eq_some_iff, Option.pure_def,
      Option.some.injEq] at h
    obtain ⟨w, hw, rest, hrest, rfl⟩ := h
    rcases List.mem_cons.mp hv with rfl | hv
    · obtain ⟨hwrites, hnames⟩ := writes_tree hw hunique.1
      exact ⟨hwrites.mono (le_max_left _ _), hnames⟩
    · obtain ⟨hwrites, hnames⟩ := writes_elements hrest hunique.2 v hv
      exact ⟨hwrites.mono (le_max_right _ _), hnames⟩

theorem writes_members : ∀ {ms : List (JsString × Tree)} {members : Js.Members},
    memberValues ms = some members → MembersUnique ms →
    ∀ m ∈ members, Writes (membersHeight ms) m.2 ∧ UniqueNames m.2
  | [], _, h, _, m, hm => by
    obtain rfl := Option.some.inj h
    cases hm
  | (name, t) :: ms, _, h, hunique, m, hm => by
    obtain ⟨w, rest, hw, hrest, rfl⟩ := memberValues_cons h
    rcases List.mem_cons.mp hm with rfl | hm
    · obtain ⟨hwrites, hnames⟩ := writes_tree hw hunique.1
      exact ⟨hwrites.mono (le_max_left _ _), hnames⟩
    · obtain ⟨hwrites, hnames⟩ := writes_members hrest hunique.2 m hm
      exact ⟨hwrites.mono (le_max_right _ _), hnames⟩

end

end Written

/-! What the strict parser returned. -/
section RoundTrip
variable {source text : JsString} {v : Value} {label : String}

theorem canonicalTranscriptJson_ok (h : canonicalTranscriptJson v label = .ok text) :
    canonicalJsonValue label 0 v = .ok text := by
  unfold canonicalTranscriptJson at h
  cases hencoded : canonicalJsonValue label 0 v with
  | error message =>
    rw [hencoded] at h
    cases h
  | ok encoded =>
    rw [hencoded] at h
    simp only [bind, Except.bind] at h
    split at h
    · cases h
    · rw [Except.ok.inj h]

theorem parsed_uniqueNames (h : parseJsonStrict source = .ok v) : UniqueNames v := by
  obtain ⟨t, -, hunique, -, hvalue⟩ := (parseJsonStrict_iff _ _).mp h
  exact (writes_tree hvalue hunique).2

/-- The text of a parsed value is parsed as its arrangement. -/
theorem parse_canonical (h : parseJsonStrict source = .ok v)
    (htext : canonicalTranscriptJson v label = .ok text) :
    parseJsonStrict text = .ok (arranged v) := by
  obtain ⟨t, -, hunique, hheight, hvalue⟩ := (parseJsonStrict_iff _ _).mp h
  obtain ⟨t', derives, hunique', hheight', hvalue'⟩ :=
    (writes_tree hvalue hunique).1 label 0 text (canonicalTranscriptJson_ok htext)
  rw [parseJsonStrict_iff]
  refine ⟨t', ?_, hunique', hheight'.trans hheight, hvalue'⟩
  have hjson := JsonText.intro blank derives blank
  rwa [List.nil_append, List.append_nil] at hjson

theorem canonicalTranscriptJson_arranged (v : Value) (label : String) :
    canonicalTranscriptJson (arranged v) label = canonicalTranscriptJson v label := by
  rw [canonicalTranscriptJson, canonicalTranscriptJson, canonical_arranged]

/-- Canonical text of a parsed value is read back as the same value, and two parsed values have one
text exactly when they are the same. -/
theorem canonical_round_trip (source : JsString) (v : Value) (label : String) (text : JsString)
    (h : parseJsonStrict source = .ok v) (htext : canonicalTranscriptJson v label = .ok text) :
    (∃ w, parseJsonStrict text = .ok w ∧ Same v w) ∧
    ∀ source' v' label' text', parseJsonStrict source' = .ok v' →
      canonicalTranscriptJson v' label' = .ok text' → (text = text' ↔ Same v v') := by
  have hparse := parse_canonical h htext
  have hnames := parsed_uniqueNames h
  refine ⟨⟨arranged v, hparse, ?_⟩, ?_⟩
  · rw [same_iff_arranged hnames (parsed_uniqueNames hparse)]
    have htwice := canonicalTranscriptJson_arranged v label
    rw [htext] at htwice
    exact Except.ok.inj (hparse.symm.trans (parse_canonical hparse htwice))
  · intro source' v' label' text' h' htext'
    have hparse' := parse_canonical h' htext'
    rw [same_iff_arranged hnames (parsed_uniqueNames h')]
    constructor
    · rintro rfl
      exact Except.ok.inj (hparse.symm.trans hparse')
    · intro harranged
      have hsame := canonical_label label label' 0 (arranged v)
      rw [canonical_arranged, harranged, canonical_arranged, canonicalTranscriptJson_ok htext,
        canonicalTranscriptJson_ok htext'] at hsame
      exact Option.some.inj hsame

/-- Members out of order, an escape that is not needed and an integer beyond the doubles. -/
def sampleSource : JsString := js "\x7b\"b\":9007199254740993, \"a\":[\"\\u0041\",null]\x7d"

def sampleText : JsString := js "\x7b\"a\":[\"A\",null],\"b\":9007199254740993\x7d"

theorem canonical_round_trip_sample : ∃ v w, parseJsonStrict sampleSource = .ok v ∧
    canonicalTranscriptJson v "sample" = .ok sampleText ∧ parseJsonStrict sampleText = .ok w ∧
    Same v w := by
  have hread : (parseJsonStrict sampleSource).toOption.map
      (fun v => (canonicalTranscriptJson v "sample").toOption) = some (some sampleText) := by
    decide +kernel
  obtain ⟨v, hv, htext⟩ := Option.map_eq_some_iff.mp hread
  have hparse : parseJsonStrict sampleSource = .ok v := by
    cases hsource : parseJsonStrict sampleSource with
    | error e =>
      rw [hsource] at hv
      cases hv
    | ok w =>
      rw [hsource] at hv
      rw [Option.some.inj hv]
  have hcanonical : canonicalTranscriptJson v "sample" = .ok sampleText := by
    cases hresult : canonicalTranscriptJson v "sample" with
    | error e =>
      rw [hresult] at htext
      cases htext
    | ok text =>
      rw [hresult] at htext
      rw [Option.some.inj htext]
  obtain ⟨w, hw, hsame⟩ :=
    (canonical_round_trip sampleSource v "sample" sampleText hparse hcanonical).1
  exact ⟨v, w, hparse, hcanonical, hw, hsame⟩

end RoundTrip
end Concordia.Verify.Transcript
