import Concordia.Js.Scanning

/-! The strict parser is sound and complete for the grammar: it accepts the JSON texts that are nested
to its limit, repeat no name and overflow in no number, and returns what they denote. -/
namespace Concordia.Js.Json

section Numbers
variable {total : Nat}

theorem roundEven_intCast (n : Int) : roundEven n = n := by
  simp [roundEven]

theorem lastPlace_natCast {n : Nat} (h : n < 2 ^ 53) : lastPlace n ≤ 0 := by
  have hlog : n.log2 ≤ 52 := by
    rcases Nat.eq_zero_or_pos n with rfl | hpos
    · decide
    · exact Nat.lt_succ_iff.mp ((Nat.log2_lt hpos.ne').mpr h)
  unfold lastPlace
  have hguess : Int.ofNat ((n : ℚ).num.natAbs.log2) - Int.ofNat ((n : ℚ).den.log2) ≤ 52 := by
    simp only [Rat.num_natCast, Rat.den_natCast, Int.natAbs_natCast, Int.ofNat_eq_natCast]
    have : Nat.log2 1 = 0 := by decide
    omega
  simp only
  split <;> omega

/-- Rounding to a place of an integer or below leaves the integer. -/
theorem round_natCast (n : Nat) {place : Int} (h : place ≤ 0) :
    (roundEven ((n : ℚ) / 2 ^ place) : ℚ) * 2 ^ place = n := by
  obtain ⟨k, rfl⟩ : ∃ k : Nat, place = -k := ⟨place.natAbs, by omega⟩
  have hscaled : (n : ℚ) / 2 ^ (-(k : ℤ)) = ((n * 2 ^ k : Int) : ℚ) := by
    rw [zpow_neg, div_inv_eq_mul, zpow_natCast]
    push_cast
    rfl
  rw [hscaled, roundEven_intCast, zpow_neg, zpow_natCast]
  push_cast
  field_simp

/-- A safe integer is a double. -/
theorem toDouble_intCast {n : Int} (h : |n| ≤ maxSafeInteger) : toDouble n = some (n : ℚ) := by
  have habs : |(n : ℚ)| = (n.natAbs : ℚ) := by
    rw [← Int.cast_abs, Nat.cast_natAbs]
  have hlt : n.natAbs < 2 ^ 53 := by
    rw [Int.abs_eq_natAbs, maxSafeInteger] at h
    omega
  have hsmall : (n.natAbs : ℚ) < 2 ^ 1024 := by
    exact_mod_cast hlt.trans (Nat.pow_lt_pow_right (by omega) (by omega))
  unfold toDouble
  split
  · rename_i hzero
    rw [hzero]
  · simp only [habs, round_natCast _ (lastPlace_natCast hlt), ge_iff_le, not_le.mpr hsmall, if_false]
    congr 1
    rw [← habs]
    split
    · rename_i hneg
      rw [abs_of_neg hneg, neg_neg]
    · rename_i hpos
      rw [abs_of_nonneg (not_lt.mp hpos)]
theorem exact_integer {n : NumberText} (hfraction : n.fraction = none)
    (hexponent : n.exponent = none) : n.exact = n.integerValue := by
  unfold NumberText.exact NumberText.integerValue
  rw [hfraction, hexponent]
  cases n.negative <;> simp

/-- The parser's number is what the literal denotes. -/
theorem parseNumber_eq (source : JsString) : parseNumber total source =
    match matchNumber source with
    | none => fail total "invalid JSON value" source
    | some (n, after) => match n.value with
      | some v => .ok (v, after)
      | none => fail total "non-finite JSON number" after := by
  unfold parseNumber
  cases matchNumber source with
  | none => rfl
  | some r =>
    obtain ⟨n, after⟩ := r
    simp only
    by_cases hinteger : n.fraction.isNone = true ∧ n.exponent.isNone = true
    · have hexact : n.exact = n.integerValue :=
        exact_integer (Option.isNone_iff_eq_none.mp hinteger.1)
          (Option.isNone_iff_eq_none.mp hinteger.2)
      have hnum : n.exact.num = n.integerValue := by rw [hexact, Rat.num_intCast]
      rw [NumberText.value, if_pos hinteger, hnum]
      by_cases hsafe : |n.integerValue| ≤ maxSafeInteger
      · have hinside := abs_le.mp hsafe
        rw [if_pos hsafe, if_neg (by omega), hexact, toDouble_intCast hsafe]
      · have houtside : n.integerValue > maxSafeInteger ∨ n.integerValue < -maxSafeInteger := by
          by_contra h
          exact hsafe (abs_le.mpr ⟨by omega, by omega⟩)
        rw [if_neg hsafe, if_pos ⟨hinteger.1, hinteger.2, houtside⟩]
    · rw [NumberText.value, if_neg hinteger, if_neg fun h => hinteger ⟨h.1, h.2.1⟩]
      cases toDouble n.exact <;> rfl

theorem parseNumber_ok {source after : JsString} {v : Value} :
    parseNumber total source = .ok (v, after) ↔
      ∃ n, matchNumber source = some (n, after) ∧ n.value = some v := by
  rw [parseNumber_eq]
  constructor
  · intro h
    split at h
    · cases h
    · rename_i n behind hmatch
      split at h
      · rename_i w hvalue
        cases h
        exact ⟨n, hmatch, hvalue⟩
      · cases h
  · rintro ⟨n, hmatch, hvalue⟩
    simp only [hmatch, hvalue]

end Numbers

section Levels

/-- What a reader of values with so many levels returns is denoted by a tree of its text. -/
def Sound (levels : Nat) (value : JsString → Scan (Value × JsString)) : Prop :=
  ∀ {source after : JsString} {v : Value}, value source = .ok (v, after) →
    ∃ space text t, Whitespace space ∧ source = space ++ (text ++ after) ∧ Derives text t ∧
      t.NamesUnique ∧ t.height ≤ levels ∧ t.value = some v

/-- Such a reader takes every text of the grammar, where nothing behind it continues a number. -/
def Complete (levels : Nat) (value : JsString → Scan (Value × JsString)) : Prop :=
  ∀ {space text after : JsString} {t : Tree} {v : Value}, Whitespace space → Derives text t →
    t.NamesUnique → t.height ≤ levels → t.value = some v → Ends after →
      value (space ++ (text ++ after)) = .ok (v, after)

end Levels

section Soundness
variable {total levels : Nat} {value : JsString → Scan (Value × JsString)}

/-- The head of what is left behind white space. -/
theorem whitespace_cons {source behind : JsString} {u : UInt16}
    (h : whitespace source = u :: behind) :
    ∃ space, Whitespace space ∧ source = space ++ u :: behind := by
  obtain ⟨space, blank, hsplit, -⟩ := whitespace_split source
  rw [h] at hsplit
  exact ⟨space, blank, hsplit⟩

/-- A round of the array loop that goes through: a value, and behind it the end or a comma. -/
theorem parseElements_ok {fuel : Nat} {source after : JsString} {vs : List Value}
    (hne : source ≠ []) :
    parseElements total value (fuel + 1) source = .ok (vs, after) ↔
      ∃ v c, value source = .ok (v, c) ∧ (whitespace c = rightBracket :: after ∧ vs = [v] ∨
        ∃ d more, whitespace c = comma :: d ∧
          parseElements total value fuel d = .ok (more, after) ∧ vs = v :: more) := by
  obtain ⟨head, tail, rfl⟩ := List.exists_cons_of_ne_nil hne
  simp only [parseElements]
  constructor
  · intro h
    obtain ⟨⟨v, c⟩, hv, h⟩ := scan_bind_ok.mp h
    refine ⟨v, c, hv, ?_⟩
    split at h
    · cases h
    · rename_i u d hend
      split_ifs at h with hbracket hcomma
      · cases h
        exact .inl ⟨by rw [hend, hbracket], rfl⟩
      · cases h
      · obtain ⟨⟨more, after'⟩, hmore, h⟩ := scan_bind_ok.mp h
        cases h
        exact .inr ⟨d, more, by rw [hend, not_not.mp hcomma], hmore, rfl⟩
  · rintro ⟨v, c, hv, ⟨hend, rfl⟩ | ⟨d, more, hend, hmore, rfl⟩⟩
    · exact scan_bind_ok.mpr ⟨_, hv, by simp only [hend, if_true]; rfl⟩
    · refine scan_bind_ok.mpr ⟨_, hv, ?_⟩
      simp only [hend, show comma ≠ rightBracket by decide, ne_eq, not_true, if_false, hmore]
      rfl

theorem parseElements_sound (hvalue : Sound levels value) {fuel : Nat} {source after : JsString}
    {vs : List Value} (h : parseElements total value fuel source = .ok (vs, after)) :
    ∃ text ts, source = text ++ rightBracket :: after ∧ Elements text ts ∧ ElementsUnique ts ∧
      elementsHeight ts ≤ levels ∧ elementValues ts = some vs := by
  induction fuel generalizing source vs with
  | zero => cases h
  | succ fuel ih =>
    have hne : source ≠ [] := by
      rintro rfl
      cases h
    obtain ⟨v, c, hv, hend⟩ := (parseElements_ok hne).mp h
    obtain ⟨before, text, t, blankBefore, rfl, derives, unique, height, denotes⟩ := hvalue hv
    rcases hend with ⟨hend, rfl⟩ | ⟨d, more, hend, hmore, rfl⟩
    · obtain ⟨behind, blankBehind, rfl⟩ := whitespace_cons hend
      refine ⟨_, [t], ?_, .last blankBefore derives blankBehind, ⟨unique, trivial⟩,
        max_le height (Nat.zero_le _), ?_⟩
      · simp only [List.append_assoc]
      · simp [elementValues, denotes]
    · obtain ⟨behind, blankBehind, rfl⟩ := whitespace_cons hend
      obtain ⟨rest, ts, rfl, elements, uniques, heights, values⟩ := ih hmore
      refine ⟨_, t :: ts, ?_, .more blankBefore derives blankBehind elements, ⟨unique, uniques⟩,
        max_le height heights, ?_⟩
      · simp only [List.append_assoc, List.cons_append]
      · simp [elementValues, denotes, values]

/-- A round of the object loop that goes through: a new name, a colon, a value, and behind them the
end or a comma. -/
theorem parseFields_ok {seen : List JsString} {fuel : Nat} {source after : JsString}
    {fields : List (JsString × Value)} (hne : source ≠ []) :
    parseFields total value seen (fuel + 1) source = .ok (fields, after) ↔
      ∃ body key a b v c, whitespace source = quote :: body ∧ parseString total body = .ok (key, a) ∧
        key ∉ seen ∧ whitespace a = colon :: b ∧ value b = .ok (v, c) ∧
        (whitespace c = rightBrace :: after ∧ fields = [(key, v)] ∨
          ∃ d more, whitespace c = comma :: d ∧
            parseFields total value (key :: seen) fuel d = .ok (more, after) ∧
            fields = (key, v) :: more) := by
  obtain ⟨head, tail, rfl⟩ := List.exists_cons_of_ne_nil hne
  simp only [parseFields]
  constructor
  · intro h
    split at h
    · cases h
    · rename_i u body hquote
      split_ifs at h with hu
      · cases h
      · obtain ⟨⟨key, a⟩, hkey, h⟩ := scan_bind_ok.mp h
        simp only at h
        split_ifs at h with hseen
        · obtain ⟨_, hthrow, -⟩ := scan_bind_ok.mp h
          cases hthrow
        · split at h
          · cases h
          · rename_i u' b hcolon
            split_ifs at h with hu'
            · cases h
            · obtain ⟨⟨v, c⟩, hv, h⟩ := scan_bind_ok.mp h
              refine ⟨body, key, a, b, v, c, ?_, hkey, by simpa using hseen, ?_, hv, ?_⟩
              · rw [hquote, not_not.mp hu]
              · rw [hcolon, not_not.mp hu']
              · split at h
                · cases h
                · rename_i u'' d hend
                  split_ifs at h with hbrace hcomma
                  · cases h
                    exact .inl ⟨by rw [hend, hbrace], rfl⟩
                  · cases h
                  · obtain ⟨⟨more, after'⟩, hmore, h⟩ := scan_bind_ok.mp h
                    cases h
                    exact .inr ⟨d, more, by rw [hend, not_not.mp hcomma], hmore, rfl⟩
  · rintro ⟨body, key, a, b, v, c, hquote, hkey, hseen, hcolon, hv, hend⟩
    have hnew : seen.contains key = false := by simpa using hseen
    simp only [hquote, ne_eq, not_true, if_false]
    refine scan_bind_ok.mpr ⟨_, hkey, ?_⟩
    simp only [hnew, Bool.false_eq_true, if_false, hcolon, not_true]
    refine scan_bind_ok.mpr ⟨_, hv, ?_⟩
    rcases hend with ⟨hend, rfl⟩ | ⟨d, more, hend, hmore, rfl⟩
    · simp only [hend, if_true]
      rfl
    · simp only [hend, show comma ≠ rightBrace by decide, not_true, if_false, hmore]
      rfl

/-- The names are new, and occur once. -/
theorem parseFields_sound (hvalue : Sound levels value) {seen : List JsString} {fuel : Nat}
    {source after : JsString} {fields : List (JsString × Value)}
    (h : parseFields total value seen fuel source = .ok (fields, after)) :
    ∃ text ms, source = text ++ rightBrace :: after ∧ Members text ms ∧
      ((ms.map Prod.fst).Nodup ∧ ∀ key ∈ ms.map Prod.fst, key ∉ seen) ∧ MembersUnique ms ∧
      membersHeight ms ≤ levels ∧ memberValues ms = some fields := by
  induction fuel generalizing source seen fields with
  | zero => cases h
  | succ fuel ih =>
    have hne : source ≠ [] := by
      rintro rfl
      cases h
    obtain ⟨body, key, a, b, v, c, hquote, hkey, hseen, hcolon, hv, hend⟩ := (parseFields_ok hne).mp h
    obtain ⟨before, blankBefore, rfl⟩ := whitespace_cons hquote
    obtain ⟨name, chars, rfl⟩ := parseString_sound hkey
    obtain ⟨between, blankBetween, rfl⟩ := whitespace_cons hcolon
    obtain ⟨inner, text, t, blankInner, rfl, derives, unique, height, denotes⟩ := hvalue hv
    rcases hend with ⟨hend, rfl⟩ | ⟨d, more, hend, hmore, rfl⟩
    · obtain ⟨behind, blankBehind, rfl⟩ := whitespace_cons hend
      refine ⟨_, [(key, t)], ?_,
        .last blankBefore chars blankBetween blankInner derives blankBehind, ?_, ⟨unique, trivial⟩,
        max_le height (Nat.zero_le _), ?_⟩
      · simp only [List.append_assoc, List.cons_append]
      · simpa using hseen
      · simp [memberValues, denotes]
    · obtain ⟨behind, blankBehind, rfl⟩ := whitespace_cons hend
      obtain ⟨rest, ms, rfl, members, ⟨nodup, fresh⟩, uniques, heights, values⟩ := ih hmore
      refine ⟨_, (key, t) :: ms, ?_,
        .more blankBefore chars blankBetween blankInner derives blankBehind members, ⟨?_, ?_⟩,
        ⟨unique, uniques⟩, max_le height heights, ?_⟩
      · simp only [List.append_assoc, List.cons_append]
      · rw [List.map_cons, List.nodup_cons]
        exact ⟨fun hmem => fresh key hmem List.mem_cons_self, nodup⟩
      · intro other hother
        rcases List.mem_cons.mp hother with rfl | hother
        · exact hseen
        · exact fun hmem => fresh other hother (List.mem_cons_of_mem _ hmem)
      · simp [memberValues, denotes, values]

theorem Whitespace.append {a b : JsString} (ha : Whitespace a) (hb : Whitespace b) :
    Whitespace (a ++ b) := by
  intro u hu
  exact (List.mem_append.mp hu).elim (ha u) (hb u)

theorem Elements.space {space text : JsString} {ts : List Tree} (blank : Whitespace space)
    (h : Elements text ts) : Elements (space ++ text) ts := by
  cases h with
  | last blankBefore value blankAfter =>
    rw [← List.append_assoc]
    exact .last (blank.append blankBefore) value blankAfter
  | more blankBefore value blankAfter elements =>
    rw [← List.append_assoc]
    exact .more (blank.append blankBefore) value blankAfter elements

theorem Members.space {space text : JsString} {ms : List (JsString × Tree)}
    (blank : Whitespace space) (h : Members text ms) : Members (space ++ text) ms := by
  cases h with
  | last blankBefore chars blankBetween blankInner value blankAfter =>
    rw [← List.append_assoc]
    exact .last (blank.append blankBefore) chars blankBetween blankInner value blankAfter
  | more blankBefore chars blankBetween blankInner value blankAfter members =>
    rw [← List.append_assoc]
    exact .more (blank.append blankBefore) chars blankBetween blankInner value blankAfter members

theorem head_eq {u : UInt16} {rest : JsString} (h : rest.head? = some u) : rest = u :: rest.tail :=
  List.eq_cons_of_mem_head? h

theorem literal_eq {text rest : JsString} (h : text.isPrefixOf rest = true) :
    rest = text ++ rest.drop text.length :=
  List.prefix_append_drop (List.isPrefixOf_iff_prefix.mp h)

theorem parseValue_sound (levels : Nat) : Sound levels (parseValue total levels) := by
  induction levels with
  | zero => exact nofun
  | succ levels ih =>
    intro source after v h
    obtain ⟨space, blank, hsource, -⟩ := whitespace_split source
    rw [parseValue] at h
    simp only at h
    generalize whitespace source = rest at h hsource
    suffices ∃ text t, rest = text ++ after ∧ Derives text t ∧ t.NamesUnique ∧
        t.height ≤ levels + 1 ∧ t.value = some v by
      obtain ⟨text, t, hrest, hread⟩ := this
      exact ⟨space, text, t, blank, by rw [hsource, hrest], hread⟩
    split_ifs at h with hbrace hbracket hquote htrue hfalse hnull
    · rw [head_eq hbrace]
      split at h
      · cases h
      · rename_i u behind hwhite
        obtain ⟨inner, blankInner, hinner⟩ := whitespace_cons hwhite
        rw [hinner]
        split_ifs at h with hclose
        · cases h
          refine ⟨_, .object [], ?_, .emptyObject blankInner, ⟨List.nodup_nil, trivial⟩,
            Nat.succ_le_succ (Nat.zero_le _), rfl⟩
          simp [hclose]
        · obtain ⟨⟨fields, after'⟩, hfields, heq⟩ := scan_bind_ok.mp h
          cases heq
          obtain ⟨text, ms, hsplit, members, ⟨nodup, -⟩, uniques, heights, values⟩ :=
            parseFields_sound ih hfields
          refine ⟨_, .object ms, ?_, .object (members.space blankInner), ⟨nodup, uniques⟩,
            Nat.succ_le_succ heights, by simp [Tree.value, values]⟩
          rw [hsplit]
          simp
    · rw [head_eq hbracket]
      split at h
      · cases h
      · rename_i u behind hwhite
        obtain ⟨inner, blankInner, hinner⟩ := whitespace_cons hwhite
        rw [hinner]
        split_ifs at h with hclose
        · cases h
          refine ⟨_, .array [], ?_, .emptyArray blankInner, trivial,
            Nat.succ_le_succ (Nat.zero_le _), rfl⟩
          simp [hclose]
        · obtain ⟨⟨elements, after'⟩, helements, heq⟩ := scan_bind_ok.mp h
          cases heq
          obtain ⟨text, ts, hsplit, elements, uniques, heights, values⟩ :=
            parseElements_sound ih helements
          refine ⟨_, .array ts, ?_, .array (elements.space blankInner), uniques,
            Nat.succ_le_succ heights, by simp [Tree.value, values]⟩
          rw [hsplit]
          simp
    · obtain ⟨⟨s, after'⟩, hstring, heq⟩ := scan_bind_ok.mp h
      cases heq
      obtain ⟨text, chars, htail⟩ := parseString_sound hstring
      refine ⟨_, .string s, ?_, .string chars, trivial, Nat.succ_le_succ (Nat.zero_le _), rfl⟩
      rw [head_eq hquote, htail]
      simp
    · cases h
      exact ⟨_, _, literal_eq htrue, .trueLiteral, trivial, Nat.succ_le_succ (Nat.zero_le _), rfl⟩
    · cases h
      exact ⟨_, _, literal_eq hfalse, .falseLiteral, trivial, Nat.succ_le_succ (Nat.zero_le _), rfl⟩
    · cases h
      exact ⟨_, _, literal_eq hnull, .nullLiteral, trivial, Nat.succ_le_succ (Nat.zero_le _), rfl⟩
    · obtain ⟨n, hmatch, hvalue⟩ := parseNumber_ok.mp h
      obtain ⟨text, number, hrest⟩ := matchNumber_sound hmatch
      exact ⟨text, .number n, hrest, .number number, trivial, Nat.succ_le_succ (Nat.zero_le _),
        hvalue⟩

end Soundness
section Completeness
variable {total levels : Nat} {value : JsString → Scan (Value × JsString)}

theorem Number.start {text : JsString} {n : NumberText} (h : Number text n) :
    ∃ u rest, text = u :: rest ∧ (u = minus ∨ isDigit u = true) := by
  cases h with
  | @intro negative i f e fraction exponent integer fractional exponential =>
    obtain ⟨d, ds, rfl, hd⟩ := integer.head
    cases negative with
    | true => exact ⟨minus, _, rfl, .inl rfl⟩
    | false => exact ⟨d, _, rfl, .inr hd⟩

/-- A number starts with none of the other units that the grammar knows. -/
theorem numberStart_ne {u : UInt16} (h : u = minus ∨ isDigit u = true) :
    ∀ c ∈ [leftBrace, leftBracket, rightBracket, quote, 0x74, 0x66, 0x6e, 0x20, 0x09, 0x0a, 0x0d],
      u ≠ c := by
  intro c hc hu
  subst hu
  rcases h with rfl | hdigit
  · revert hc
    decide
  · have hnone : ([leftBrace, leftBracket, rightBracket, quote, 0x74, 0x66, 0x6e, 0x20, 0x09, 0x0a,
        0x0d].all fun c => !isDigit c) = true := by decide
    have hu := List.all_eq_true.mp hnone u hc
    rw [hdigit] at hu
    cases hu

/-- A value starts with no white space, and not with the end of an array. -/
theorem Derives.start {text : JsString} {t : Tree} (h : Derives text t) :
    ∃ u rest, text = u :: rest ∧ isSpace u = false ∧ u ≠ rightBracket := by
  cases h with
  | number number =>
    obtain ⟨u, rest, rfl, hu⟩ := number.start
    have hne := numberStart_ne hu
    simp only [List.mem_cons, List.not_mem_nil, or_false, forall_eq_or_imp, forall_eq] at hne
    refine ⟨u, rest, rfl, ?_, hne.2.2.1⟩
    simp [isSpace, hne]
  | _ => exact ⟨_, _, rfl, rfl, by decide⟩

theorem ends_nil : Ends [] := nofun

theorem ends_cons {u : UInt16} {rest : JsString}
    (h : u = comma ∨ u = rightBracket ∨ u = rightBrace ∨ isSpace u = true) : Ends (u :: rest) := by
  intro v hv
  obtain rfl := Option.some.inj hv
  rcases h with rfl | rfl | rfl | hspace
  · decide
  · decide
  · decide
  · simp only [isSpace, Bool.or_eq_true, beq_iff_eq] at hspace
    rcases hspace with ((rfl | rfl) | rfl) | rfl <;> decide

theorem Ends.space {space rest : JsString} (blank : Whitespace space) (h : Ends rest) :
    Ends (space ++ rest) := by
  cases space with
  | nil => exact h
  | cons u space => exact ends_cons (.inr (.inr (.inr (blank u List.mem_cons_self))))

/-- The first of the elements, without the white space before it. -/
theorem Elements.trim {text : JsString} {ts : List Tree} (h : Elements text ts) (rest : JsString) :
    ∃ u text', Elements (u :: text') ts ∧ whitespace (text ++ rest) = u :: (text' ++ rest) ∧
      u ≠ rightBracket := by
  cases h with
  | @last before text after t blankBefore derives blankAfter =>
    obtain ⟨u, tail, rfl, hspace, hu⟩ := derives.start
    refine ⟨u, tail ++ after, @Elements.last [] _ _ _ nofun derives blankAfter, ?_, hu⟩
    simp only [List.append_assoc, List.cons_append, whitespace_cons_self blankBefore hspace]
  | @more before text after more t ts blankBefore derives blankAfter elements =>
    obtain ⟨u, tail, rfl, hspace, hu⟩ := derives.start
    refine ⟨u, tail ++ (after ++ comma :: more),
      @Elements.more [] _ _ _ _ _ nofun derives blankAfter elements, ?_, hu⟩
    simp only [List.append_assoc, List.cons_append, whitespace_cons_self blankBefore hspace]

theorem Members.trim {text : JsString} {ms : List (JsString × Tree)} (h : Members text ms)
    (rest : JsString) : ∃ text', Members (quote :: text') ms ∧
      whitespace (text ++ rest) = quote :: (text' ++ rest) := by
  have hquote : isSpace quote = false := rfl
  cases h with
  | last blankBefore chars blankBetween blankInner derives blankAfter =>
    refine ⟨_, @Members.last [] _ _ _ _ _ _ _ nofun chars blankBetween blankInner derives blankAfter,
      ?_⟩
    simp only [List.append_assoc, List.cons_append, whitespace_cons_self blankBefore hquote]
  | more blankBefore chars blankBetween blankInner derives blankAfter members =>
    refine ⟨_, @Members.more [] _ _ _ _ _ _ _ _ _ nofun chars blankBetween blankInner derives
      blankAfter members, ?_⟩
    simp only [List.append_assoc, List.cons_append, whitespace_cons_self blankBefore hquote]

theorem Elements.length {text : JsString} {ts : List Tree} (h : Elements text ts) :
    ts.length ≤ text.length := by
  induction ts generalizing text with
  | nil => exact Nat.zero_le _
  | cons t ts ih =>
    cases h with
    | last blankBefore derives blankAfter =>
      obtain ⟨u, tail, rfl, -⟩ := derives.start
      simp
      omega
    | more blankBefore derives blankAfter elements =>
      have := ih elements
      simp
      omega

theorem Members.length {text : JsString} {ms : List (JsString × Tree)} (h : Members text ms) :
    ms.length ≤ text.length := by
  induction ms generalizing text with
  | nil => exact Nat.zero_le _
  | cons m ms ih =>
    cases h with
    | last blankBefore chars blankBetween blankInner derives blankAfter =>
      simp
      omega
    | more blankBefore chars blankBetween blankInner derives blankAfter members =>
      have := ih members
      simp
      omega

theorem parseElements_complete (hvalue : Complete levels value) {text after : JsString}
    {ts : List Tree} {vs : List Value} {fuel : Nat} (h : Elements text ts)
    (hunique : ElementsUnique ts) (hheight : elementsHeight ts ≤ levels)
    (hvalues : elementValues ts = some vs) (hfuel : ts.length ≤ fuel) :
    parseElements total value fuel (text ++ rightBracket :: after) = .ok (vs, after) := by
  induction ts generalizing text vs fuel with
  | nil => cases h
  | cons t ts ih =>
    obtain ⟨fuel, rfl⟩ := Nat.exists_eq_succ_of_ne_zero (Nat.ne_of_gt (Nat.lt_of_lt_of_le
      (Nat.succ_pos _) hfuel))
    obtain ⟨hfirst, huniques⟩ := hunique
    obtain ⟨hlow, hheights⟩ := max_le_iff.mp hheight
    simp only [elementValues, Option.bind_eq_bind, Option.bind_eq_some_iff, Option.pure_def,
      Option.some.injEq] at hvalues
    obtain ⟨v, hv, more, hmore, rfl⟩ := hvalues
    refine (parseElements_ok (by simp)).mpr ?_
    cases h with
    | last blankBefore derives blankAfter =>
      obtain rfl := Option.some.inj hmore
      refine ⟨v, _, ?_, .inl ⟨whitespace_cons_self blankAfter (by decide), rfl⟩⟩
      simp only [List.append_assoc]
      exact hvalue blankBefore derives hfirst hlow hv (.space blankAfter (ends_cons (by simp)))
    | more blankBefore derives blankAfter elements =>
      refine ⟨v, _, ?_, .inr ⟨_, more, whitespace_cons_self blankAfter (by decide),
        ih elements huniques hheights hmore (Nat.le_of_succ_le_succ hfuel), rfl⟩⟩
      simp only [List.append_assoc, List.cons_append]
      exact hvalue blankBefore derives hfirst hlow hv (.space blankAfter (ends_cons (by simp)))

theorem parseFields_complete (hvalue : Complete levels value) {seen : List JsString}
    {text after : JsString} {ms : List (JsString × Tree)} {fields : List (JsString × Value)}
    {fuel : Nat} (h : Members text ms) (hnodup : (ms.map Prod.fst).Nodup)
    (hfresh : ∀ key ∈ ms.map Prod.fst, key ∉ seen) (hunique : MembersUnique ms)
    (hheight : membersHeight ms ≤ levels) (hvalues : memberValues ms = some fields)
    (hfuel : ms.length ≤ fuel) :
    parseFields total value seen fuel (text ++ rightBrace :: after) = .ok (fields, after) := by
  induction ms generalizing seen text fields fuel with
  | nil => cases h
  | cons m ms ih =>
    obtain ⟨key, t⟩ := m
    obtain ⟨fuel, rfl⟩ := Nat.exists_eq_succ_of_ne_zero (Nat.ne_of_gt (Nat.lt_of_lt_of_le
      (Nat.succ_pos _) hfuel))
    obtain ⟨hfirst, huniques⟩ := hunique
    obtain ⟨hlow, hheights⟩ := max_le_iff.mp hheight
    rw [List.map_cons, List.nodup_cons] at hnodup
    have hseen : key ∉ seen := hfresh key (by simp)
    simp only [memberValues, Option.bind_eq_bind, Option.bind_eq_some_iff, Option.pure_def,
      Option.some.injEq] at hvalues
    obtain ⟨v, hv, more, hmore, rfl⟩ := hvalues
    refine (parseFields_ok (by simp)).mpr ?_
    cases h with
    | @last before name between inner text behind _ _ blankBefore chars blankBetween blankInner
        derives blankAfter =>
      obtain rfl := Option.some.inj hmore
      refine ⟨_, key, _, inner ++ (text ++ (behind ++ rightBrace :: after)), v, _, ?_,
        parseString_complete chars _, hseen, whitespace_cons_self blankBetween (by decide), ?_,
        .inl ⟨whitespace_cons_self blankAfter (by decide), rfl⟩⟩
      · simp only [List.append_assoc, List.cons_append]
        exact whitespace_cons_self blankBefore (by decide)
      · exact hvalue blankInner derives hfirst hlow hv (.space blankAfter (ends_cons (by simp)))
    | @more before name between inner text behind rest _ _ _ blankBefore chars blankBetween
        blankInner derives blankAfter members =>
      have hfreshs : ∀ other ∈ ms.map Prod.fst, other ∉ key :: seen := by
        intro other hother hmem
        rcases List.mem_cons.mp hmem with rfl | hmem
        · exact hnodup.1 hother
        · exact hfresh other (by simp [hother]) hmem
      refine ⟨_, key, _, inner ++ (text ++ (behind ++ comma :: (rest ++ rightBrace :: after))), v, _,
        ?_, parseString_complete chars _, hseen, whitespace_cons_self blankBetween (by decide), ?_,
        .inr ⟨_, more, whitespace_cons_self blankAfter (by decide),
          ih members hnodup.2 hfreshs huniques hheights hmore (Nat.le_of_succ_le_succ hfuel), rfl⟩⟩
      · simp only [List.append_assoc, List.cons_append]
        exact whitespace_cons_self blankBefore (by decide)
      · exact hvalue blankInner derives hfirst hlow hv (.space blankAfter (ends_cons (by simp)))

theorem Tree.height_pos (t : Tree) : 0 < t.height := by
  cases t <;> simp [Tree.height]

section Dispatch
variable {source rest after : JsString} {u : UInt16}

theorem parseValue_number (hwhite : whitespace source = u :: rest)
    (hu : u = minus ∨ isDigit u = true) :
    parseValue total (levels + 1) source = parseNumber total (u :: rest) := by
  have hne := numberStart_ne hu
  simp only [List.mem_cons, List.not_mem_nil, or_false, forall_eq_or_imp, forall_eq] at hne
  obtain ⟨hbrace, hbracket, -, hquote, ht, hf, hn, -⟩ := hne
  have hword : ∀ (text : JsString) (c : UInt16) (tail : JsString), text = c :: tail → u ≠ c →
      ¬text.isPrefixOf (u :: rest) = true := by
    intro text c tail htext hc
    simp [htext, Ne.symm hc]
  rw [parseValue, hwhite]
  simp only [List.head?_cons, Option.some.injEq]
  rw [if_neg hbrace, if_neg hbracket, if_neg hquote, if_neg (hword trueText _ _ rfl ht),
    if_neg (hword falseText _ _ rfl hf), if_neg (hword nullText _ _ rfl hn)]

theorem parseValue_string (hwhite : whitespace source = quote :: rest) {s : JsString}
    (hstring : parseString total rest = .ok (s, after)) :
    parseValue total (levels + 1) source = .ok (.string s, after) := by
  rw [parseValue, hwhite]
  exact scan_bind_ok.mpr ⟨_, hstring, rfl⟩

theorem parseValue_emptyArray (hwhite : whitespace source = leftBracket :: rest)
    (hclose : whitespace rest = rightBracket :: after) :
    parseValue total (levels + 1) source = .ok (.array [], after) := by
  rw [parseValue, hwhite]
  simp only [List.tail_cons, hclose]
  rfl

theorem parseValue_array (hwhite : whitespace source = leftBracket :: rest) {behind : JsString}
    (hopen : whitespace rest = u :: behind) (hu : u ≠ rightBracket) {vs : List Value}
    (helements : parseElements total (parseValue total levels) (behind.length + 1) (u :: behind) =
      .ok (vs, after)) : parseValue total (levels + 1) source = .ok (.array vs, after) := by
  rw [parseValue, hwhite]
  simp only [List.tail_cons, hopen, if_neg hu]
  exact scan_bind_ok.mpr ⟨_, helements, rfl⟩

theorem parseValue_emptyObject (hwhite : whitespace source = leftBrace :: rest)
    (hclose : whitespace rest = rightBrace :: after) :
    parseValue total (levels + 1) source = .ok (.object [], after) := by
  rw [parseValue, hwhite]
  simp only [List.tail_cons, hclose]
  rfl

theorem parseValue_object (hwhite : whitespace source = leftBrace :: rest) {behind : JsString}
    (hopen : whitespace rest = u :: behind) (hu : u ≠ rightBrace)
    {fields : List (JsString × Value)}
    (hfields : parseFields total (parseValue total levels) [] (behind.length + 1) (u :: behind) =
      .ok (fields, after)) : parseValue total (levels + 1) source = .ok (.object fields, after) := by
  rw [parseValue, hwhite]
  simp only [List.tail_cons, hopen, if_neg hu]
  exact scan_bind_ok.mpr ⟨_, hfields, rfl⟩

end Dispatch

theorem parseValue_complete (levels : Nat) : Complete levels (parseValue total levels) := by
  induction levels with
  | zero =>
    intro space text after t v _ _ _ hheight
    exact absurd hheight (Nat.not_le.mpr t.height_pos)
  | succ levels ih =>
    intro space text after t v blank derives hunique hheight hvalue hends
    have hwhite : whitespace (space ++ (text ++ after)) = text ++ after := by
      obtain ⟨u, tail, rfl, hspace, -⟩ := derives.start
      exact whitespace_cons_self blank hspace
    cases derives with
    | nullLiteral =>
      obtain rfl := Option.some.inj hvalue
      rw [parseValue, hwhite]
      rfl
    | trueLiteral =>
      obtain rfl := Option.some.inj hvalue
      rw [parseValue, hwhite]
      rfl
    | falseLiteral =>
      obtain rfl := Option.some.inj hvalue
      rw [parseValue, hwhite]
      rfl
    | number number =>
      obtain ⟨u, tail, rfl, hu⟩ := number.start
      rw [parseValue_number hwhite hu]
      exact parseNumber_ok.mpr ⟨_, matchNumber_complete number hends, hvalue⟩
    | string chars =>
      obtain rfl := Option.some.inj hvalue
      rw [List.cons_append, List.append_assoc] at hwhite ⊢
      refine parseValue_string hwhite ?_
      exact parseString_complete chars after
    | emptyArray blankInner =>
      obtain rfl := Option.some.inj hvalue
      rw [List.cons_append, List.append_assoc] at hwhite ⊢
      refine parseValue_emptyArray hwhite ?_
      exact whitespace_cons_self blankInner (by decide)
    | @array text ts elements =>
      obtain ⟨vs, hvs, rfl⟩ := Option.map_eq_some_iff.mp hvalue
      obtain ⟨u, tail, trimmed, htrim, hu⟩ := elements.trim (rightBracket :: after)
      rw [List.cons_append, List.append_assoc] at hwhite ⊢
      refine parseValue_array hwhite htrim hu ?_
      refine parseElements_complete ih trimmed hunique (Nat.le_of_succ_le_succ hheight) hvs ?_
      have := trimmed.length
      simp only [List.length_append, List.length_cons] at this ⊢
      omega
    | emptyObject blankInner =>
      obtain rfl := Option.some.inj hvalue
      rw [List.cons_append, List.append_assoc] at hwhite ⊢
      refine parseValue_emptyObject hwhite ?_
      exact whitespace_cons_self blankInner (by decide)
    | @object text ms members =>
      obtain ⟨fields, hfields, rfl⟩ := Option.map_eq_some_iff.mp hvalue
      obtain ⟨tail, trimmed, htrim⟩ := members.trim (rightBrace :: after)
      rw [List.cons_append, List.append_assoc] at hwhite ⊢
      refine parseValue_object hwhite htrim (by decide) ?_
      refine parseFields_complete ih trimmed hunique.1 (fun _ _ => List.not_mem_nil) hunique.2
        (Nat.le_of_succ_le_succ hheight) hfields ?_
      have := trimmed.length
      simp only [List.length_append, List.length_cons] at this ⊢
      omega

end Completeness
end Json

open Json

/-- What the parser accepts and returns, by the grammar. -/
theorem parseJsonStrict_iff (source : JsString) (v : Value) :
    parseJsonStrict source = .ok v ↔
      ∃ t, JsonText source t ∧ t.NamesUnique ∧ t.height ≤ 128 ∧ t.value = some v := by
  unfold parseJsonStrict
  constructor
  · intro h
    obtain ⟨⟨result, after⟩, hvalue, hafter⟩ := scan_bind_ok.mp h
    obtain ⟨space, text, t, blank, hsource, derives, hread⟩ := parseValue_sound 128 hvalue
    simp only at hafter
    split at hafter
    · rename_i hend
      cases hafter
      obtain ⟨behind, blankBehind, hbehind, -⟩ := whitespace_split after
      rw [hend, List.append_nil] at hbehind
      refine ⟨t, ?_, hread⟩
      rw [hsource, hbehind]
      exact .intro blank derives blankBehind
    · cases hafter
  · rintro ⟨t, text, hunique, hheight, hvalue⟩
    cases text with
    | @intro before text after _ blankBefore derives blankAfter =>
      have hread := @parseValue_complete (before ++ (text ++ after)).length 128 _ _ _ _ _ blankBefore
        derives hunique hheight hvalue (by simpa using Ends.space blankAfter ends_nil)
      have hend : whitespace after = [] := by
        have := @whitespace_append [] after blankAfter nofun
        rwa [List.append_nil] at this
      refine scan_bind_ok.mpr ⟨_, hread, ?_⟩
      simp only [hend]
      rfl

end Concordia.Js
