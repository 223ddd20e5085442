import Concordia.Js.Grammar
import Mathlib.Data.List.TakeWhile

/-! The scanners of the parser against the tokens of the grammar: white space, numbers and strings.
A number ends where no digit, point or exponent follows. -/
namespace Concordia.Js.Json

section Runs
variable {p : UInt16 → Bool} {a rest : JsString}

theorem takeWhile_stop (h : ∀ u, rest.head? = some u → p u = false) :
    (a ++ rest).takeWhile p = a.takeWhile p := by
  induction a with
  | nil =>
    cases rest with
    | nil => rfl
    | cons u rest => simp [h u rfl]
  | cons u a ih =>
    simp only [List.cons_append, List.takeWhile_cons]
    split <;> simp [ih]

theorem takeWhile_all (ha : ∀ u ∈ a, p u = true) (h : ∀ u, rest.head? = some u → p u = false) :
    (a ++ rest).takeWhile p = a := by
  rw [takeWhile_stop h]
  exact List.takeWhile_eq_self_iff.mpr ha

theorem dropWhile_all (ha : ∀ u ∈ a, p u = true) (h : ∀ u, rest.head? = some u → p u = false) :
    (a ++ rest).dropWhile p = rest := by
  have happend := List.takeWhile_append_dropWhile (p := p) (l := a ++ rest)
  rw [takeWhile_all ha h] at happend
  exact List.append_cancel_left happend

theorem whitespace_append {space : JsString} (blank : Whitespace space)
    (h : ∀ u, rest.head? = some u → isSpace u = false) : whitespace (space ++ rest) = rest :=
  dropWhile_all blank h

theorem whitespace_cons_self {space : JsString} {u : UInt16} (blank : Whitespace space)
    (hu : isSpace u = false) : whitespace (space ++ u :: rest) = u :: rest := by
  refine whitespace_append blank fun v hv => ?_
  rw [← Option.some.inj hv]
  exact hu

theorem whitespace_self (h : ∀ u, rest.head? = some u → isSpace u = false) :
    whitespace rest = rest :=
  @whitespace_append rest [] (fun _ hu => absurd hu List.not_mem_nil) h

/-- What `whitespace` skips, and what it stops at. -/
theorem whitespace_split (source : JsString) :
    ∃ space, Whitespace space ∧ source = space ++ whitespace source ∧
      ∀ u, (whitespace source).head? = some u → isSpace u = false := by
  refine ⟨source.takeWhile isSpace, fun u hu => List.mem_takeWhile_imp hu, ?_, fun u hu => ?_⟩
  · exact (List.takeWhile_append_dropWhile (p := isSpace)).symm
  · have := List.head?_dropWhile_not isSpace source
    unfold whitespace at hu
    rw [hu] at this
    simpa using this

theorem whitespace_idem (source : JsString) : whitespace (whitespace source) = whitespace source := by
  obtain ⟨space, -, -, hhead⟩ := whitespace_split source
  exact whitespace_self hhead

end Runs

section Stages

/-- The sign of a number text, and what follows it. -/
def signStage (s : JsString) : Bool × JsString :=
  let negative := s.head? == some minus
  (negative, if negative then s.tail else s)

def integerStage (s : JsString) : Option (JsString × JsString) :=
  match s.takeWhile isDigit with
  | [] => none
  | d :: digits =>
    let integer := if d = zero then [zero] else d :: digits
    some (integer, s.drop integer.length)

def fractionStage (s : JsString) : Option JsString × JsString :=
  let digits := s.tail.takeWhile isDigit
  let hasFraction := s.head? == some dot && !digits.isEmpty
  (if hasFraction then some digits else none, if hasFraction then s.tail.drop digits.length else s)

def exponentStage (s : JsString) : Option (Bool × JsString) × JsString :=
  let behind := s.tail
  let signed := behind.head? == some plus || behind.head? == some minus
  let digits := (if signed then behind.tail else behind).takeWhile isDigit
  let hasExponent := (s.head? == some 0x65 || s.head? == some 0x45) && !digits.isEmpty
  (if hasExponent then some (behind.head? == some minus, digits) else none,
    if hasExponent then (if signed then behind.tail else behind).drop digits.length else s)

theorem matchNumber_stages (s : JsString) : matchNumber s =
    (integerStage (signStage s).2).map fun (integer, s') =>
      (⟨(signStage s).1, integer, (fractionStage s').1, (exponentStage (fractionStage s').2).1⟩,
        (exponentStage (fractionStage s').2).2) := by
  unfold matchNumber integerStage
  simp only [signStage]
  generalize (if (s.head? == some minus) = true then s.tail else s) = t
  cases h : t.takeWhile isDigit with
  | nil => rfl
  | cons d digits => rfl

/-- Nothing that would continue a number. -/
def Ends (rest : JsString) : Prop :=
  ∀ u, rest.head? = some u → isDigit u = false ∧ u ≠ dot ∧ u ≠ 0x65 ∧ u ≠ 0x45

end Stages

section Sound

theorem signStage_sound (s : JsString) :
    s = (if (signStage s).1 then [minus] else []) ++ (signStage s).2 := by
  cases s with
  | nil => rfl
  | cons u s => by_cases hu : u = minus <;> simp [signStage, hu]

theorem takeWhile_digits (s : JsString) : ∀ u ∈ s.takeWhile isDigit, isDigit u = true :=
  fun _ hu => List.mem_takeWhile_imp hu

theorem takeWhile_drop (s : JsString) :
    s = s.takeWhile isDigit ++ s.drop (s.takeWhile isDigit).length :=
  List.prefix_append_drop (List.takeWhile_prefix isDigit)

theorem integerStage_sound {s i s' : JsString} (h : integerStage s = some (i, s')) :
    IntegerPart i ∧ s = i ++ s' := by
  unfold integerStage at h
  have hdigits := takeWhile_digits s
  have hsplit := takeWhile_drop s
  cases htake : s.takeWhile isDigit with
  | nil =>
    rw [htake] at h
    cases h
  | cons d ds =>
    rw [htake] at h hdigits hsplit
    simp only [Option.some.injEq, Prod.mk.injEq] at h
    obtain ⟨rfl, rfl⟩ := h
    by_cases hzero : d = zero
    · rw [if_pos hzero]
      refine ⟨.zero, ?_⟩
      conv_lhs => rw [hsplit]
      rw [hsplit]
      simp [hzero]
    · rw [if_neg hzero]
      exact ⟨.nonzero (hdigits d (by simp)) hzero fun u hu => hdigits u (by simp [hu]), hsplit⟩

theorem fractionStage_sound (s : JsString) :
    ∃ f, Fraction f (fractionStage s).1 ∧ s = f ++ (fractionStage s).2 := by
  unfold fractionStage
  cases s with
  | nil => exact ⟨[], .absent, rfl⟩
  | cons u s =>
    simp only [List.head?_cons, List.tail_cons]
    by_cases h : (some u == some dot && !(s.takeWhile isDigit).isEmpty) = true
    · simp only [h, if_true]
      simp only [Bool.and_eq_true, beq_iff_eq, Option.some.injEq, Bool.not_eq_true',
        List.isEmpty_eq_false_iff] at h
      obtain ⟨rfl, hne⟩ := h
      refine ⟨dot :: s.takeWhile isDigit, .present ⟨hne, takeWhile_digits s⟩, ?_⟩
      rw [List.cons_append, ← takeWhile_drop]
    · simp only [h, if_false, Bool.false_eq_true]
      exact ⟨[], .absent, rfl⟩

/-- What follows the sign behind the letter of an exponent. -/
def afterSign (behind : JsString) : JsString :=
  if behind.head? == some plus || behind.head? == some minus then behind.tail else behind

theorem afterSign_sound (behind : JsString) : ∃ sign,
    ExponentSign sign (behind.head? == some minus) ∧ behind = sign ++ afterSign behind := by
  cases behind with
  | nil => exact ⟨[], .absent, rfl⟩
  | cons u behind =>
    by_cases hplus : u = plus
    · subst hplus
      exact ⟨[plus], .plus, rfl⟩
    · by_cases hminus : u = minus
      · subst hminus
        exact ⟨[minus], .minus, rfl⟩
      · refine ⟨[], ?_, by simp [afterSign, hplus, hminus]⟩
        rw [show ((u :: behind).head? == some minus) = false by simpa using hminus]
        exact .absent

theorem exponentStage_cons (u : UInt16) (behind : JsString) : exponentStage (u :: behind) =
    if (u = 0x65 ∨ u = 0x45) ∧ (afterSign behind).takeWhile isDigit ≠ [] then
      (some (behind.head? == some minus, (afterSign behind).takeWhile isDigit),
        (afterSign behind).drop ((afterSign behind).takeWhile isDigit).length)
    else (none, u :: behind) := by
  have htest : ((some u == some 0x65 || some u == some 0x45) &&
      !((afterSign behind).takeWhile isDigit).isEmpty) = true ↔
      (u = 0x65 ∨ u = 0x45) ∧ (afterSign behind).takeWhile isDigit ≠ [] := by
    simp
  change (if _ then _ else _, if _ then _ else _) = _
  by_cases h : (u = 0x65 ∨ u = 0x45) ∧ (afterSign behind).takeWhile isDigit ≠ []
  · rw [if_pos h]
    exact Prod.ext (if_pos (htest.mpr h)) (if_pos (htest.mpr h))
  · rw [if_neg h]
    exact Prod.ext (if_neg (mt htest.mp h)) (if_neg (mt htest.mp h))

theorem exponentStage_sound (s : JsString) :
    ∃ e, Exponent e (exponentStage s).1 ∧ s = e ++ (exponentStage s).2 := by
  cases s with
  | nil => exact ⟨[], .absent, rfl⟩
  | cons u behind =>
    obtain ⟨sign, hsign, hbehind⟩ := afterSign_sound behind
    rw [exponentStage_cons]
    split
    · rename_i h
      refine ⟨u :: (sign ++ (afterSign behind).takeWhile isDigit),
        .present h.1 hsign ⟨h.2, takeWhile_digits _⟩, ?_⟩
      rw [List.cons_append, List.append_assoc, ← takeWhile_drop, ← hbehind]
    · exact ⟨[], .absent, rfl⟩

/-- What the scanner matches is a number of the grammar. -/
theorem matchNumber_sound {source after : JsString} {n : NumberText}
    (h : matchNumber source = some (n, after)) : ∃ text, Number text n ∧ source = text ++ after := by
  rw [matchNumber_stages] at h
  obtain ⟨⟨i, s⟩, hinteger, hn⟩ := Option.map_eq_some_iff.mp h
  simp only [Prod.mk.injEq] at hn
  obtain ⟨rfl, rfl⟩ := hn
  obtain ⟨hi, hsplit⟩ := integerStage_sound hinteger
  obtain ⟨f, hf, hs⟩ := fractionStage_sound s
  obtain ⟨e, he, hs'⟩ := exponentStage_sound (fractionStage s).2
  refine ⟨_, .intro (signStage source).1 hi hf he, ?_⟩
  conv_lhs => rw [signStage_sound source, hsplit, hs, hs']
  simp only [List.append_assoc]

end Sound

section Complete
variable {rest : JsString}

theorem IntegerPart.head {i : JsString} (h : IntegerPart i) :
    ∃ d ds, i = d :: ds ∧ isDigit d = true := by
  cases h with
  | zero => exact ⟨Json.zero, [], rfl, rfl⟩
  | nonzero digit leading digits => exact ⟨_, _, rfl, digit⟩

theorem signStage_complete {negative : Bool} {i : JsString} (h : IntegerPart i) :
    signStage ((if negative then [minus] else []) ++ (i ++ rest)) = (negative, i ++ rest) := by
  obtain ⟨d, ds, rfl, hd⟩ := h.head
  have hminus : d ≠ minus := by
    rintro rfl
    revert hd
    decide
  cases negative <;> simp [signStage, hminus]

theorem integerStage_complete {i : JsString} (h : IntegerPart i)
    (hrest : ∀ u, rest.head? = some u → isDigit u = false) :
    integerStage (i ++ rest) = some (i, rest) := by
  unfold integerStage
  cases h with
  | zero =>
    have htake : ([zero] ++ rest).takeWhile isDigit = [zero] :=
      takeWhile_all (by simp; decide) hrest
    rw [htake]
    rfl
  | @nonzero d ds digit leading digits =>
    have hall : ∀ u ∈ d :: ds, isDigit u = true := by
      intro u hu
      rcases List.mem_cons.mp hu with rfl | hu
      · exact digit
      · exact digits u hu
    rw [takeWhile_all hall hrest]
    simp only [if_neg leading, List.drop_left]

theorem fractionStage_complete {f : JsString} {fraction : Option JsString}
    (h : Fraction f fraction) (hrest : ∀ u, rest.head? = some u → isDigit u = false ∧ u ≠ dot) :
    fractionStage (f ++ rest) = (fraction, rest) := by
  unfold fractionStage
  cases h with
  | absent =>
    have hdot : (rest.head? == some dot) = false := by
      rw [beq_eq_false_iff_ne]
      exact fun heq => (hrest dot heq).2 rfl
    simp [hdot]
  | @present ds digits =>
    have htake := takeWhile_all digits.2 fun u hu => (hrest u hu).1
    have hne : ds.isEmpty = false := List.isEmpty_eq_false_iff.mpr digits.1
    simp [htake, hne]

theorem afterSign_complete {sign ds : JsString} {negative : Bool} (h : ExponentSign sign negative)
    (digits : Digits ds) : afterSign (sign ++ (ds ++ rest)) = ds ++ rest ∧
      ((sign ++ (ds ++ rest)).head? == some minus) = negative := by
  cases h with
  | absent =>
    obtain ⟨d, ds', rfl⟩ := List.exists_cons_of_ne_nil digits.1
    have hd := digits.2 d List.mem_cons_self
    have hplus : d ≠ plus := by
      rintro rfl
      revert hd
      decide
    have hminus : d ≠ minus := by
      rintro rfl
      revert hd
      decide
    simp [afterSign, hplus, hminus]
  | plus => exact ⟨rfl, rfl⟩
  | minus => exact ⟨rfl, rfl⟩

theorem exponentStage_complete {e : JsString} {exponent : Option (Bool × JsString)}
    (h : Exponent e exponent) (hrest : Ends rest) :
    exponentStage (e ++ rest) = (exponent, rest) := by
  cases h with
  | absent =>
    cases rest with
    | nil => rfl
    | cons u rest =>
      obtain ⟨-, -, hlower, hupper⟩ := hrest u rfl
      rw [List.nil_append, exponentStage_cons, if_neg (by simp [hlower, hupper])]
  | @present letter sign ds negative hletter signed digits =>
    have htake := takeWhile_all digits.2 fun u hu => (hrest u hu).1
    obtain ⟨hafter, hsign⟩ := @afterSign_complete rest _ _ _ signed digits
    rw [List.cons_append, List.append_assoc, exponentStage_cons, hafter, hsign, htake,
      if_pos ⟨hletter, digits.1⟩, List.drop_left]

theorem Exponent.head {e : JsString} {exponent : Option (Bool × JsString)} (h : Exponent e exponent)
    (hrest : Ends rest) : ∀ u, (e ++ rest).head? = some u → isDigit u = false ∧ u ≠ dot := by
  intro u hu
  cases h with
  | absent => exact ⟨(hrest u hu).1, (hrest u hu).2.1⟩
  | present letter signed digits =>
    obtain rfl := Option.some.inj hu
    rcases letter with rfl | rfl <;> decide

theorem Fraction.head {f : JsString} {fraction : Option JsString} (h : Fraction f fraction)
    (hrest : ∀ u, rest.head? = some u → isDigit u = false ∧ u ≠ dot) :
    ∀ u, (f ++ rest).head? = some u → isDigit u = false := by
  intro u hu
  cases h with
  | absent => exact (hrest u hu).1
  | present digits =>
    obtain rfl := Option.some.inj hu
    decide

/-- The scanner takes a number of the grammar whole. -/
theorem matchNumber_complete {text : JsString} {n : NumberText} (h : Number text n)
    (hrest : Ends rest) : matchNumber (text ++ rest) = some (n, rest) := by
  cases h with
  | @intro negative i f e fraction exponent integer fractional exponential =>
    have hexponent := exponential.head hrest
    have hfraction := fractional.head hexponent
    simp only [List.append_assoc]
    rw [matchNumber_stages, signStage_complete integer, integerStage_complete integer hfraction]
    simp only [Option.map_some, fractionStage_complete fractional hexponent,
      exponentStage_complete exponential hrest]

end Complete
section Strings
variable {total : Nat}

theorem scan_bind_ok {α β : Type} {m : Scan α} {f : α → Scan β} {b : β} :
    m >>= f = .ok b ↔ ∃ a, m = .ok a ∧ f a = .ok b := by
  cases m with
  | error e => exact ⟨nofun, nofun⟩
  | ok a => exact ⟨fun h => ⟨a, rfl, h⟩, fun ⟨_, ha, h⟩ => by cases ha; exact h⟩

theorem simpleEscape_iff {e u : UInt16} : simpleEscape e = some u ↔ (e, u) ∈ escapes := by
  unfold simpleEscape escapes
  constructor
  · intro h
    split_ifs at h with h1 h2 h3 h4 h5 h6
    · obtain rfl := Option.some.inj h
      rcases h1 with rfl | rfl | rfl <;> decide
    all_goals
      obtain rfl := Option.some.inj h
      subst e
      decide
  · intro h
    simp only [List.mem_cons, List.not_mem_nil, or_false, Prod.mk.injEq] at h
    rcases h with ⟨rfl, rfl⟩ | ⟨rfl, rfl⟩ | ⟨rfl, rfl⟩ | ⟨rfl, rfl⟩ | ⟨rfl, rfl⟩ | ⟨rfl, rfl⟩ |
      ⟨rfl, rfl⟩ | ⟨rfl, rfl⟩ <;> rfl

theorem escapes_ne_letterU {e u : UInt16} (h : (e, u) ∈ escapes) : e ≠ letterU := by
  rintro rfl
  rw [← simpleEscape_iff] at h
  cases h

theorem hexDigit_lt {u : UInt16} {n : Nat} (h : HexDigit u n) : n < 16 := by
  rcases h with h | h <;> exact (List.getElem?_eq_some_iff.mp h).1

/-- A range of code units that are digits one after the other. -/
theorem hexDigit_range {lo hi first : Nat}
    (hrange : ∀ k ≤ hi, lo ≤ k → HexDigit k.toUInt16 (k - first)) {u : UInt16}
    (hlo : lo ≤ u.toNat) (hu : u.toNat ≤ hi) : HexDigit u (u.toNat - first) := by
  have := hrange u.toNat hu hlo
  rwa [show u.toNat.toUInt16 = u from UInt16.ofNat_toNat] at this

theorem hexDigitValue_iff {u : UInt16} {n : Nat} : hexDigitValue u = some n ↔ HexDigit u n := by
  constructor
  · intro h
    unfold hexDigitValue at h
    simp only [UInt16.le_iff_toNat_le] at h
    split_ifs at h with hdigit hlower hupper <;> obtain rfl := Option.some.inj h
    · exact @hexDigit_range 48 57 48 (by unfold HexDigit; decide) u hdigit.1 hdigit.2
    · exact @hexDigit_range 97 102 87 (by unfold HexDigit; decide) u hlower.1 hlower.2
    · exact @hexDigit_range 65 70 55 (by unfold HexDigit; decide) u hupper.1 hupper.2
  · intro h
    have hlt := hexDigit_lt h
    unfold HexDigit at h
    interval_cases n <;> rcases h with h | h <;> obtain rfl := Option.some.inj h <;> rfl

theorem bind_unit {u : UInt16} {m : Scan (JsString × JsString)} {s after : JsString}
    (h : (m >>= fun r => pure (u :: r.1, r.2)) = .ok (s, after)) :
    ∃ s', m = .ok (s', after) ∧ s = u :: s' := by
  obtain ⟨⟨s', after'⟩, hm, heq⟩ := scan_bind_ok.mp h
  cases heq
  exact ⟨s', hm, rfl⟩

/-- A string that the scanner reads is one of the grammar, up to its closing quote. -/
theorem parseString_sound {source s after : JsString}
    (h : parseString total source = .ok (s, after)) :
    ∃ text, Chars text s ∧ source = text ++ quote :: after := by
  fun_induction parseString total source generalizing s with
  | case2 rest =>
    cases h
    exact ⟨[], .nil, rfl⟩
  | case4 a b c d behind i j k l hd hc hb ha _ ih =>
    obtain ⟨s', hbehind, rfl⟩ := bind_unit h
    obtain ⟨text, chars, rfl⟩ := ih hbehind
    exact ⟨_, .unicode (hexDigitValue_iff.mp ha) (hexDigitValue_iff.mp hb) (hexDigitValue_iff.mp hc)
      (hexDigitValue_iff.mp hd) chars, rfl⟩
  | case7 e tail hletter escaped hescape _ ih =>
    obtain ⟨s', htail, rfl⟩ := bind_unit h
    obtain ⟨text, chars, rfl⟩ := ih htail
    exact ⟨_, .escaped (simpleEscape_iff.mp hescape) chars, rfl⟩
  | case10 u rest hquote hbackslash hcontrol ih =>
    obtain ⟨s', hrest, rfl⟩ := bind_unit h
    obtain ⟨text, chars, rfl⟩ := ih hrest
    exact ⟨_, .unescaped (UInt16.not_lt.mp hcontrol) hquote hbackslash chars, rfl⟩
  -- the refusals
  | _ => cases h

theorem parseString_complete {text s : JsString} (h : Chars text s) (rest : JsString) :
    parseString total (text ++ quote :: rest) = .ok (s, rest) := by
  induction h with
  | nil => rw [List.nil_append, parseString.eq_def]; rfl
  | unescaped printable unquoted plain chars ih =>
    rw [List.cons_append, parseString.eq_def]
    simp only [unquoted, plain, UInt16.not_lt.mpr printable, if_false, ih]
    rfl
  | escaped letter chars ih =>
    have hu := escapes_ne_letterU letter
    rw [List.cons_append, List.cons_append, parseString.eq_def]
    simp only [show backslash ≠ quote by decide, hu, if_true, if_false,
      simpleEscape_iff.mpr letter, ih]
    rfl
  | unicode first second third fourth chars ih =>
    simp only [List.cons_append]
    rw [parseString.eq_def]
    simp only [show backslash ≠ quote by decide, if_true, if_false, hexDigitValue_iff.mpr first,
      hexDigitValue_iff.mpr second, hexDigitValue_iff.mpr third, hexDigitValue_iff.mpr fourth, ih]
    rfl

end Strings
end Concordia.Js.Json
