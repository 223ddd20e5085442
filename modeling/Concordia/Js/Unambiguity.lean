import Concordia.Js.Parsing

/-! A text has one syntax tree: what the scanners find decides every step of a derivation. -/
namespace Concordia.Js.Json

section Lists
variable {x r : JsString}

/-- The first element of an array, and what decides whether another follows. -/
theorem Elements.uncons {ts : List Tree} (h : Elements x ts) (r : JsString) :
    ∃ text t tail, whitespace (x ++ rightBracket :: r) = text ++ tail ∧ Derives text t ∧ Ends tail ∧
      (whitespace tail = rightBracket :: r ∧ ts = [t] ∨ ∃ more ts',
        whitespace tail = comma :: (more ++ rightBracket :: r) ∧ Elements more ts' ∧
          ts = t :: ts') := by
  cases h with
  | @last before text after t blankBefore derives blankAfter =>
    refine ⟨text, t, after ++ rightBracket :: r, ?_, derives, .space blankAfter (ends_cons (by simp)),
      .inl ⟨whitespace_cons_self blankAfter (by decide), rfl⟩⟩
    obtain ⟨u, tail, rfl, hspace, -⟩ := derives.start
    simp only [List.append_assoc, List.cons_append, whitespace_cons_self blankBefore hspace]
  | @more before text after more t ts blankBefore derives blankAfter elements =>
    refine ⟨text, t, after ++ comma :: (more ++ rightBracket :: r), ?_, derives,
      .space blankAfter (ends_cons (by simp)),
      .inr ⟨more, ts, whitespace_cons_self blankAfter (by decide), elements, rfl⟩⟩
    obtain ⟨u, tail, rfl, hspace, -⟩ := derives.start
    simp only [List.append_assoc, List.cons_append, whitespace_cons_self blankBefore hspace]

/-- The first member of an object, in the same way. -/
theorem Members.uncons {ms : List (JsString × Tree)} (h : Members x ms) (r : JsString) :
    ∃ body key a b text t tail, whitespace (x ++ rightBrace :: r) = quote :: body ∧
      parseString 0 body = .ok (key, a) ∧ whitespace a = colon :: b ∧ whitespace b = text ++ tail ∧
      Derives text t ∧ Ends tail ∧
      (whitespace tail = rightBrace :: r ∧ ms = [(key, t)] ∨ ∃ more ms',
        whitespace tail = comma :: (more ++ rightBrace :: r) ∧ Members more ms' ∧
          ms = (key, t) :: ms') := by
  cases h with
  | @last before name between inner text after key t blankBefore chars blankBetween blankInner
      derives blankAfter =>
    refine ⟨_, key, _, inner ++ (text ++ (after ++ rightBrace :: r)), text, t,
      after ++ rightBrace :: r, ?_, parseString_complete chars _,
      whitespace_cons_self blankBetween (by decide), ?_, derives,
      .space blankAfter (ends_cons (by simp)),
      .inl ⟨whitespace_cons_self blankAfter (by decide), rfl⟩⟩
    · simp only [List.append_assoc, List.cons_append]
      exact whitespace_cons_self blankBefore (by decide)
    · obtain ⟨u, tail, rfl, hspace, -⟩ := derives.start
      exact whitespace_cons_self blankInner hspace
  | @more before name between inner text after more key t ms blankBefore chars blankBetween
      blankInner derives blankAfter members =>
    refine ⟨_, key, _, inner ++ (text ++ (after ++ comma :: (more ++ rightBrace :: r))), text, t,
      after ++ comma :: (more ++ rightBrace :: r), ?_, parseString_complete chars _,
      whitespace_cons_self blankBetween (by decide), ?_, derives,
      .space blankAfter (ends_cons (by simp)),
      .inr ⟨more, ms, whitespace_cons_self blankAfter (by decide), members, rfl⟩⟩
    · simp only [List.append_assoc, List.cons_append]
      exact whitespace_cons_self blankBefore (by decide)
    · obtain ⟨u, tail, rfl, hspace, -⟩ := derives.start
      exact whitespace_cons_self blankInner hspace

end Lists

section Unique
variable {levels : Nat} {x y r r' : JsString}

/-- Two derivations from one source, of which the first is nested to the level at most. -/
def Unique (levels : Nat) : Prop :=
  ∀ {x y r r' : JsString} {t t' : Tree}, Derives x t → Derives y t' → t.height ≤ levels →
    x ++ r = y ++ r' → Ends r → Ends r' → t = t' ∧ r = r'

theorem Elements.unique (h : Unique levels) {ts ts' : List Tree} (hx : Elements x ts)
    (hy : Elements y ts') (hheight : elementsHeight ts ≤ levels)
    (heq : x ++ rightBracket :: r = y ++ rightBracket :: r') : ts = ts' ∧ r = r' := by
  induction ts generalizing x y ts' with
  | nil => cases hx
  | cons t ts ih =>
    obtain ⟨text, u, tail, hwhite, derives, hends, hnext⟩ := hx.uncons r
    obtain ⟨text', u', tail', hwhite', derives', hends', hnext'⟩ := hy.uncons r'
    obtain ⟨hlow, hheights⟩ := max_le_iff.mp hheight
    rw [heq, hwhite'] at hwhite
    have hu : u = t := by
      rcases hnext with ⟨-, hts⟩ | ⟨_, _, -, -, hts⟩ <;> exact (List.cons.inj hts).1.symm
    subst hu
    obtain ⟨rfl, rfl⟩ := h derives derives' hlow hwhite.symm hends hends'
    rcases hnext with ⟨hend, hts⟩ | ⟨more, ms, hend, helements, hts⟩ <;>
      rcases hnext' with ⟨hend', hts'⟩ | ⟨more', ms', hend', helements', hts'⟩ <;>
      rw [hend'] at hend <;> obtain ⟨hhead, hrest⟩ := List.cons.inj hend
    · rw [hts, hts']
      exact ⟨rfl, hrest.symm⟩
    · cases hhead
    · cases hhead
    · obtain rfl := (List.cons.inj hts).2
      obtain ⟨rfl, hr⟩ := ih helements helements' hheights hrest.symm
      exact ⟨hts'.symm, hr⟩

theorem Members.unique (h : Unique levels) {ms ms' : List (JsString × Tree)} (hx : Members x ms)
    (hy : Members y ms') (hheight : membersHeight ms ≤ levels)
    (heq : x ++ rightBrace :: r = y ++ rightBrace :: r') : ms = ms' ∧ r = r' := by
  induction ms generalizing x y ms' with
  | nil => cases hx
  | cons m ms ih =>
    obtain ⟨body, key, a, b, text, u, tail, hquote, hkey, hcolon, hwhite, derives, hends, hnext⟩ :=
      hx.uncons r
    obtain ⟨body', key', a', b', text', u', tail', hquote', hkey', hcolon', hwhite', derives', hends',
      hnext'⟩ := hy.uncons r'
    obtain ⟨hlow, hheights⟩ := max_le_iff.mp hheight
    rw [heq, hquote'] at hquote
    obtain rfl := (List.cons.inj hquote).2
    rw [hkey'] at hkey
    obtain ⟨rfl, rfl⟩ := Prod.mk.inj (Except.ok.inj hkey)
    rw [hcolon'] at hcolon
    obtain rfl := (List.cons.inj hcolon).2
    rw [hwhite'] at hwhite
    have hu : m = (key', u) := by
      rcases hnext with ⟨-, hms⟩ | ⟨_, _, -, -, hms⟩ <;> exact (List.cons.inj hms).1
    subst hu
    obtain ⟨rfl, rfl⟩ := h derives derives' hlow hwhite.symm hends hends'
    rcases hnext with ⟨hend, hms⟩ | ⟨more, ns, hend, hmembers, hms⟩ <;>
      rcases hnext' with ⟨hend', hms'⟩ | ⟨more', ns', hend', hmembers', hms'⟩ <;>
      rw [hend'] at hend <;> obtain ⟨hhead, hrest⟩ := List.cons.inj hend
    · rw [hms, hms']
      exact ⟨rfl, hrest.symm⟩
    · cases hhead
    · cases hhead
    · obtain rfl := (List.cons.inj hms).2
      obtain ⟨rfl, hr⟩ := ih hmembers hmembers' hheights hrest.symm
      exact ⟨hms'.symm, hr⟩

/-- The kinds of values, told apart by their first unit. -/
inductive Kind where
  | null | true | false | string | array | object | number
  deriving DecidableEq

def kindOf (u : UInt16) : Kind :=
  if u = 0x6e then .null else if u = 0x74 then .true else if u = 0x66 then .false
  else if u = quote then .string else if u = leftBracket then .array
  else if u = leftBrace then .object else .number

def Tree.kind : Tree → Kind
  | .null => .null
  | .boolean b => if b then .true else .false
  | .number _ => .number
  | .string _ => .string
  | .array _ => .array
  | .object _ => .object

theorem Derives.kind {t : Tree} (h : Derives x t) : ∃ u rest, x = u :: rest ∧ kindOf u = t.kind := by
  cases h with
  | number number =>
    obtain ⟨u, rest, rfl, hu⟩ := number.start
    have hne := numberStart_ne hu
    simp only [List.mem_cons, List.not_mem_nil, or_false, forall_eq_or_imp, forall_eq] at hne
    refine ⟨u, rest, rfl, ?_⟩
    simp [kindOf, Tree.kind, hne]
  | _ => exact ⟨_, _, rfl, rfl⟩

/-- An array that is empty, or starts with a value. -/
theorem Derives.array_cases {ts : List Tree} (h : Derives x (.array ts)) (r : JsString) :
    ∃ inner, x ++ r = leftBracket :: inner ∧ (ts = [] ∧ whitespace inner = rightBracket :: r ∨
      (∃ u rest, whitespace inner = u :: rest ∧ u ≠ rightBracket) ∧
        ∃ text, Elements text ts ∧ inner = text ++ rightBracket :: r) := by
  cases h with
  | @emptyArray space blank =>
    exact ⟨space ++ rightBracket :: r, by simp, .inl ⟨rfl, whitespace_cons_self blank (by decide)⟩⟩
  | @array text ts elements =>
    refine ⟨text ++ rightBracket :: r, by simp, .inr ⟨?_, text, elements, rfl⟩⟩
    obtain ⟨u, tail, -, htrim, hu⟩ := elements.trim (rightBracket :: r)
    exact ⟨u, _, htrim, hu⟩

theorem Derives.object_cases {ms : List (JsString × Tree)} (h : Derives x (.object ms))
    (r : JsString) : ∃ inner, x ++ r = leftBrace :: inner ∧
      (ms = [] ∧ whitespace inner = rightBrace :: r ∨
        (∃ rest, whitespace inner = quote :: rest) ∧
          ∃ text, Members text ms ∧ inner = text ++ rightBrace :: r) := by
  cases h with
  | @emptyObject space blank =>
    exact ⟨space ++ rightBrace :: r, by simp, .inl ⟨rfl, whitespace_cons_self blank (by decide)⟩⟩
  | @object text ms members =>
    refine ⟨text ++ rightBrace :: r, by simp, .inr ⟨?_, text, members, rfl⟩⟩
    obtain ⟨tail, -, htrim⟩ := members.trim (rightBrace :: r)
    exact ⟨_, htrim⟩

theorem derives_unique (levels : Nat) : Unique levels := by
  induction levels with
  | zero =>
    intro x y r r' t t' _ _ hheight
    exact absurd hheight (Nat.not_le.mpr t.height_pos)
  | succ levels ih =>
    intro x y r r' t t' hx hy hheight heq hends hends'
    have hkind : t.kind = t'.kind := by
      obtain ⟨u, rest, rfl, hu⟩ := hx.kind
      obtain ⟨u', rest', rfl, hu'⟩ := hy.kind
      rw [← hu, ← hu', (List.cons.inj heq).1]
    cases t with
    | null =>
      cases t' with
      | null =>
        cases hx
        cases hy
        exact ⟨rfl, List.append_cancel_left heq⟩
      | boolean b => cases b <;> cases hkind
      | _ => cases hkind
    | boolean b =>
      cases t' with
      | boolean b' =>
        cases hx <;> cases hy
        · exact ⟨rfl, List.append_cancel_left heq⟩
        · cases hkind
        · cases hkind
        · exact ⟨rfl, List.append_cancel_left heq⟩
      | _ => cases b <;> cases hkind
    | number n =>
      cases t' with
      | number n' =>
        cases hx with
        | number hx =>
          cases hy with
          | number hy =>
            have hn := matchNumber_complete hx hends
            rw [heq, matchNumber_complete hy hends'] at hn
            obtain ⟨rfl, rfl⟩ := Prod.mk.inj (Option.some.inj hn)
            exact ⟨rfl, rfl⟩
      | boolean b => cases b <;> cases hkind
      | _ => cases hkind
    | string s =>
      cases t' with
      | string s' =>
        cases hx with
        | string hx =>
          cases hy with
          | string hy =>
            simp only [List.cons_append, List.append_assoc, List.nil_append] at heq
            have hs := @parseString_complete 0 _ _ hx r
            rw [(List.cons.inj heq).2, parseString_complete hy r'] at hs
            obtain ⟨rfl, rfl⟩ := Prod.mk.inj (Except.ok.inj hs)
            exact ⟨rfl, rfl⟩
      | boolean b => cases b <;> cases hkind
      | _ => cases hkind
    | array ts =>
      cases t' with
      | array ts' =>
        obtain ⟨inner, hinner, hts⟩ := hx.array_cases r
        obtain ⟨inner', hinner', hts'⟩ := hy.array_cases r'
        rw [hinner, hinner'] at heq
        obtain rfl := (List.cons.inj heq).2
        rcases hts with ⟨rfl, hclose⟩ | ⟨⟨u, rest, hopen, hu⟩, text, elements, htext⟩ <;>
          rcases hts' with ⟨rfl, hclose'⟩ | ⟨⟨u', rest', hopen', hu'⟩, text', elements', htext'⟩
        · rw [hclose'] at hclose
          exact ⟨rfl, (List.cons.inj hclose).2.symm⟩
        · rw [hclose] at hopen'
          exact absurd (List.cons.inj hopen').1.symm hu'
        · rw [hclose'] at hopen
          exact absurd (List.cons.inj hopen).1.symm hu
        · obtain ⟨rfl, hr⟩ := elements.unique ih elements' (Nat.le_of_succ_le_succ hheight)
            (htext.symm.trans htext')
          exact ⟨rfl, hr⟩
      | boolean b => cases b <;> cases hkind
      | _ => cases hkind
    | object ms =>
      cases t' with
      | object ms' =>
        obtain ⟨inner, hinner, hms⟩ := hx.object_cases r
        obtain ⟨inner', hinner', hms'⟩ := hy.object_cases r'
        rw [hinner, hinner'] at heq
        obtain rfl := (List.cons.inj heq).2
        rcases hms with ⟨rfl, hclose⟩ | ⟨⟨rest, hopen⟩, text, members, htext⟩ <;>
          rcases hms' with ⟨rfl, hclose'⟩ | ⟨⟨rest', hopen'⟩, text', members', htext'⟩
        · rw [hclose'] at hclose
          exact ⟨rfl, (List.cons.inj hclose).2.symm⟩
        · rw [hclose] at hopen'
          cases hopen'
        · rw [hclose'] at hopen
          cases hopen
        · obtain ⟨rfl, hr⟩ := members.unique ih members' (Nat.le_of_succ_le_succ hheight)
            (htext.symm.trans htext')
          exact ⟨rfl, hr⟩
      | boolean b => cases b <;> cases hkind
      | _ => cases hkind

/-- A JSON text has one syntax tree. -/
theorem JsonText.unique {source : JsString} {t t' : Tree} (h : JsonText source t)
    (h' : JsonText source t') : t = t' := by
  generalize hsource' : source = source' at h'
  cases h with
  | @intro before text after _ blankBefore derives blankAfter =>
    cases h' with
    | @intro before' text' after' _ blankBefore' derives' blankAfter' =>
      obtain ⟨u, rest, rfl, hu, -⟩ := derives.start
      obtain ⟨u', rest', rfl, hu', -⟩ := derives'.start
      have hwhite := congrArg whitespace hsource'
      simp only [List.cons_append, whitespace_cons_self blankBefore hu,
        whitespace_cons_self blankBefore' hu'] at hwhite
      have hends : ∀ {a : JsString}, Whitespace a → Ends a := by
        intro a blank
        simpa using Ends.space blank ends_nil
      exact (derives_unique _ derives derives' le_rfl (by simpa using hwhite) (hends blankAfter)
        (hends blankAfter')).1

end Unique
end Json

open Json

/-- The parser accepts exactly the JSON texts in which no object repeats a decoded name, to a nesting
of 128 and with finite numbers, and returns what their one syntax tree denotes. -/
theorem parseJsonStrict_denotes (source : JsString) :
    (∀ t t', JsonText source t → JsonText source t' → t = t') ∧
    ∀ v, parseJsonStrict source = .ok v ↔
      ∃ t, JsonText source t ∧ t.NamesUnique ∧ t.height ≤ 128 ∧ t.value = some v :=
  ⟨fun _ _ h h' => h.unique h', parseJsonStrict_iff source⟩

end Concordia.Js
