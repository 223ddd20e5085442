import Mathlib.Data.List.Basic
import Mathlib.Tactic

/-! Substitution of a mark for what a pattern matches, from left to right. A pattern sees the text
before the place, last character first, and may keep a first part of its match. -/
namespace Concordia.Lib.Substitution

variable {α : Type*}

/-- How much of the text is kept and how much is replaced, where the pattern matches. -/
structure Matcher (α : Type*) where
  find : List α → List α → Option (Nat × Nat)
  replaces : ∀ {before text : List α} {kept replaced : Nat},
    find before text = some (kept, replaced) → 0 < replaced ∧ kept + replaced ≤ text.length

namespace Matcher
variable (m : Matcher α)

/-- Whether there is a match in the text. -/
def search : List α → List α → Bool
  | _, [] => false
  | before, u :: rest => (m.find before (u :: rest)).isSome || search (u :: before) rest

/-- The text with `none` for what is replaced. The fuel is the length of the text. -/
def cut : Nat → List α → List α → List (Option α)
  | 0, _, _ => []
  | _ + 1, _, [] => []
  | fuel + 1, before, u :: rest =>
    match m.find before (u :: rest) with
    | some (kept, replaced) =>
      ((u :: rest).take kept).map some ++ none ::
        cut fuel (((u :: rest).take (kept + replaced)).reverse ++ before)
          ((u :: rest).drop (kept + replaced))
    | none => some u :: cut fuel (u :: before) rest

end Matcher

def fill (mark : List α) (symbols : List (Option α)) : List α :=
  symbols.flatMap fun symbol => match symbol with
    | some u => [u]
    | none => mark

def Matcher.substitute (m : Matcher α) (mark text : List α) : List α :=
  fill mark (m.cut text.length [] text)

/-- The steps of a substitution over a text. -/
inductive Cut (m : Matcher α) : List α → List α → List (Option α) → Prop
  | nil {before : List α} : Cut m before [] []
  | keep {before rest : List α} {u : α} {symbols : List (Option α)}
      (h : m.find before (u :: rest) = none) (hrest : Cut m (u :: before) rest symbols) :
      Cut m before (u :: rest) (some u :: symbols)
  | replace {before kept replaced rest : List α} {symbols : List (Option α)}
      (h : m.find before (kept ++ replaced ++ rest) = some (kept.length, replaced.length))
      (hrest : Cut m ((kept ++ replaced).reverse ++ before) rest symbols) :
      Cut m before (kept ++ replaced ++ rest) (kept.map some ++ none :: symbols)

section Fill
variable {mark : List α}

@[simp] theorem fill_nil : fill mark [] = [] := rfl

@[simp] theorem fill_some (u : α) (symbols : List (Option α)) :
    fill mark (some u :: symbols) = u :: fill mark symbols := rfl

@[simp] theorem fill_none (symbols : List (Option α)) :
    fill mark (none :: symbols) = mark ++ fill mark symbols := rfl

@[simp] theorem fill_kept (kept : List α) (symbols : List (Option α)) :
    fill mark (kept.map some ++ symbols) = kept ++ fill mark symbols := by
  induction kept with
  | nil => rfl
  | cons u kept ih => rw [List.map_cons, List.cons_append, fill_some, ih, List.cons_append]

theorem fill_map_some (text : List α) : fill mark (text.map some) = text := by
  have h := @fill_kept α mark text []
  rwa [List.append_nil, fill_nil, List.append_nil] at h

end Fill

variable {m : Matcher α}

/-- With enough fuel the substitution goes through the whole text. -/
theorem cut_cuts {fuel : Nat} {before text : List α} (h : text.length ≤ fuel) :
    Cut m before text (m.cut fuel before text) := by
  induction fuel generalizing before text with
  | zero =>
    obtain rfl := List.length_eq_zero_iff.mp (Nat.le_zero.mp h)
    exact .nil
  | succ fuel ih =>
    cases text with
    | nil => exact .nil
    | cons u rest =>
      rw [Matcher.cut]
      split
      · next kept replaced hfind =>
        obtain ⟨hpos, hle⟩ := m.replaces hfind
        have hsplit : u :: rest = (u :: rest).take kept ++ ((u :: rest).drop kept).take replaced ++
            (u :: rest).drop (kept + replaced) := by
          rw [← List.drop_drop, List.append_assoc, List.take_append_drop, List.take_append_drop]
        have htake : (u :: rest).take (kept + replaced) =
            (u :: rest).take kept ++ ((u :: rest).drop kept).take replaced :=
          List.take_add
        rw [htake]
        nth_rewrite 1 [hsplit]
        apply Cut.replace
        · rw [← hsplit, hfind, List.length_take, List.length_take, List.length_drop]
          congr 2 <;> omega
        · apply ih
          rw [List.length_drop]
          omega
      · next hfind =>
        exact .keep hfind (ih (by simpa using h))

theorem substitute_cuts (mark text : List α) :
    ∃ symbols, Cut m [] text symbols ∧ m.substitute mark text = fill mark symbols :=
  ⟨_, cut_cuts (le_refl _), rfl⟩

section Search
variable {before text : List α}

theorem search_cons {u : α} {rest : List α} (h : m.search before (u :: rest) = false) :
    m.find before (u :: rest) = none ∧ m.search (u :: before) rest = false := by
  rw [Matcher.search, Bool.or_eq_false_iff] at h
  exact ⟨by simpa using h.1, h.2⟩

/-- A text without a match stays as it is. -/
theorem Cut.unmatched {symbols : List (Option α)} (hcut : Cut m before text symbols)
    (h : m.search before text = false) : symbols = text.map some := by
  induction hcut with
  | nil => rfl
  | keep _ _ ih => rw [List.map_cons, ih (search_cons h).2]
  | @replace before kept replaced rest symbols hfind _ _ =>
    obtain ⟨hpos, -⟩ := m.replaces hfind
    have hcons : kept ++ replaced ++ rest ≠ [] := by
      intro hnil
      simp only [List.append_eq_nil_iff] at hnil
      rw [hnil.1.2] at hpos
      exact absurd hpos (lt_irrefl 0)
    obtain ⟨u, tail, htext⟩ := List.exists_cons_of_ne_nil hcons
    rw [htext] at h hfind
    rw [(search_cons h).1] at hfind
    cases hfind

theorem substitute_unmatched {mark : List α} (h : m.search [] text = false) :
    m.substitute mark text = text := by
  obtain ⟨symbols, hcut, heq⟩ := substitute_cuts (m := m) mark text
  rw [heq, hcut.unmatched h, fill_map_some]

end Search

/-! What stands in the result, when the mark begins with a character of its own. -/
section Result
variable {first : α} {tail : List α} {before text : List α} {symbols : List (Option α)}

/-- A word without the mark's first character at the head of the result is at the head of the
text. -/
theorem Cut.plain (hcut : Cut m before text symbols) {word : List α} (hword : first ∉ word)
    (h : word <+: fill (first :: tail) symbols) : word <+: text := by
  induction hcut generalizing word with
  | nil => exact h
  | keep _ _ ih =>
    cases word with
    | nil => exact List.nil_prefix
    | cons c word =>
      rw [fill_some, List.cons_prefix_cons] at h
      rw [List.cons_prefix_cons]
      exact ⟨h.1, ih (fun hmem => hword (List.mem_cons_of_mem _ hmem)) h.2⟩
  | @replace before kept replaced rest symbols _ _ _ =>
    rw [fill_kept, fill_none] at h
    have hkept : word <+: kept := by
      rcases List.prefix_or_prefix_of_prefix h (List.prefix_append kept _) with hle | ⟨more, rfl⟩
      · exact hle
      · rw [List.prefix_append_right_inj] at h
        cases more with
        | nil => simp
        | cons c more =>
          rw [List.cons_append, List.cons_prefix_cons] at h
          exact absurd (by simp [h.1]) hword
    exact (hkept.trans (List.prefix_append _ _)).trans (List.prefix_append _ _)

end Result

/-! A pattern that is nowhere found in the result. -/
section Absence
variable {p : Matcher α} {mark before before' text : List α} {symbols : List (Option α)}

theorem search_past {word : List α}
    (h : ∀ x y, word = x ++ y → y ≠ [] → ∀ before rest, p.find before (y ++ rest) = none)
    (before rest : List α) :
    p.search before (word ++ rest) = p.search (word.reverse ++ before) rest := by
  induction word generalizing before with
  | nil => rfl
  | cons u word ih =>
    have hhead := h [] (u :: word) rfl (by simp) before rest
    rw [List.cons_append] at hhead ⊢
    rw [Matcher.search, hhead, Option.isSome_none, Bool.false_or,
      ih (fun x y hxy => h (u :: x) y (by rw [hxy, List.cons_append])) (u :: before)]
    rw [List.reverse_cons, List.append_assoc, List.singleton_append]

/-- What is to be shown of a pattern, for it not to be found after the substitution of another (or
itself): it matches nowhere in the mark, and at no place that is kept. The relation between the
contexts is up to the pattern. -/
theorem Cut.search_fill {Alike : List α → List α → List α → Prop}
    (hwhole : ∀ before text kept replaced, m.find before text = some (kept, replaced) → kept = 0)
    (hmark : ∀ x y, mark = x ++ y → y ≠ [] → ∀ before rest, p.find before (y ++ rest) = none)
    (hkeep : ∀ before before' u rest symbols, Alike before before' (u :: rest) →
      m.find before (u :: rest) = none → Cut m (u :: before) rest symbols →
      p.find before' (u :: fill mark symbols) = none ∧ Alike (u :: before) (u :: before') rest)
    (hreplace : ∀ before before' replaced rest, Alike before before' (replaced ++ rest) →
      m.find before (replaced ++ rest) = some (0, replaced.length) →
      Alike (replaced.reverse ++ before) (mark.reverse ++ before') rest)
    (hcut : Cut m before text symbols) (h : Alike before before' text) :
    p.search before' (fill mark symbols) = false := by
  induction hcut generalizing before' with
  | nil => rfl
  | @keep before rest u symbols hfind hrest ih =>
    obtain ⟨hnone, halike⟩ := hkeep _ _ _ _ _ h hfind hrest
    rw [fill_some, Matcher.search, hnone, ih halike]
    rfl
  | @replace before kept replaced rest symbols hfind hrest ih =>
    obtain rfl := List.length_eq_zero_iff.mp (hwhole _ _ _ _ hfind)
    rw [List.map_nil, List.nil_append, fill_none, search_past hmark]
    exact ih (hreplace _ _ _ _ h hfind)

end Absence

/-! Patterns that are sets of words, each behind an edge that the text before it decides. -/
section Words

/-- The pattern matches where no edge is in the way and a word is at the head of the text. -/
structure Words (p : Matcher α) (edge : List α → Bool) (Word : List α → Prop) : Prop where
  found : ∀ {before text}, (p.find before text).isSome ↔
    edge before = false ∧ ∃ word, Word word ∧ word <+: text
  ne_nil : ¬ Word []
  /-- The edge goes by two characters at most. -/
  near : ∀ v u before before', edge (v :: u :: before) = edge (v :: u :: before')

/-- What follows a match of the substituted pattern: no word begins there, and the edges behind it
are those behind the mark. -/
def Parts (m : Matcher α) (mark : List α) (edge : List α → Bool) (Word : List α → Prop) : Prop :=
  ∀ before before' replaced rest, m.find before (replaced ++ rest) = some (0, replaced.length) →
    (edge = (fun _ => false) ∨ ∀ u ∈ rest.head?, ∀ word, ¬ Word (u :: word)) ∧
    ∀ v ∈ rest.head?, edge (v :: (replaced.reverse ++ before)) =
      edge (v :: (mark.reverse ++ before'))

variable {p : Matcher α} {edge : List α → Bool} {Word : List α → Prop}

theorem search_append {before x text : List α} (h : p.search before (x ++ text) = false) :
    p.search (x.reverse ++ before) text = false := by
  induction x generalizing before with
  | nil => exact h
  | cons u x ih =>
    rw [List.reverse_cons, List.append_assoc]
    exact ih (search_cons h).2

/-- After a substitution a pattern of words is nowhere found, if it was not found before, or is
the substituted one. -/
theorem Words.absent (hp : Words p edge Word) {first : α} {tail text : List α}
    (hwhole : ∀ before text kept replaced, m.find before text = some (kept, replaced) → kept = 0)
    (hfirst : ∀ word, Word word → first ∉ word)
    (hmark : ∀ x y, first :: tail = x ++ y → y ≠ [] → ∀ before rest,
      p.find before (y ++ rest) = none)
    (hparts : Parts m (first :: tail) edge Word) (h : p.search [] text = false ∨ p = m) :
    p.search [] (m.substitute (first :: tail) text) = false := by
  obtain ⟨symbols, hcut, heq⟩ := substitute_cuts (m := m) (first :: tail) text
  rw [heq]
  refine @Cut.search_fill _ _ p _ _ _ _ _ (fun before before' text =>
    (∀ v ∈ text.head?, edge (v :: before) = edge (v :: before')) ∧
    (edge before = edge before' ∨ ∀ u ∈ text.head?, ∀ word, ¬ Word (u :: word)) ∧
    (p.search before text = false ∨ p = m)) hwhole hmark ?_ ?_ hcut ?_
  · rintro before before' u rest symbols ⟨hedges, hedge, habsent⟩ hfind hrest
    refine ⟨?_, fun v _ => hp.near v u before before', .inl (hedges u rfl), habsent.imp ?_ id⟩
    · by_contra hne
      obtain ⟨hfree, word, hword, hleads⟩ := hp.found.mp (Option.isSome_iff_ne_none.mpr hne)
      obtain ⟨w, rfl⟩ : ∃ w, word = u :: w := by
        cases word with
        | nil => exact absurd hword hp.ne_nil
        | cons c w =>
          rw [List.cons_prefix_cons] at hleads
          exact ⟨w, by rw [hleads.1]⟩
      rcases hedge with hsame | hnone
      · have htext := (Cut.keep hfind hrest).plain (hfirst _ hword)
          (by rw [fill_some]; exact hleads)
        have hsome := hp.found.mpr ⟨hsame.trans hfree, _, hword, htext⟩
        rcases habsent with hsearch | rfl
        · rw [(search_cons hsearch).1] at hsome
          cases hsome
        · rw [hfind] at hsome
          cases hsome
      · exact hnone u rfl w hword
    · exact fun hsearch => (search_cons hsearch).2
  · rintro before before' replaced rest ⟨-, -, habsent⟩ hfind
    obtain ⟨hnext, hedges⟩ := hparts before before' replaced rest hfind
    refine ⟨hedges, hnext.imp ?_ id, habsent.imp search_append id⟩
    rintro rfl
    rfl
  · exact ⟨fun _ _ => rfl, .inl rfl, h⟩

end Words

/-! One substitution behind another: the second on the text with its gaps, where a gap stands for
a mark of the first. -/
section Layers

/-- The gaps that a matcher strikes in a text with gaps. -/
def Matcher.strike (q : Matcher (Option α)) (symbols : List (Option α)) : List (Option α) :=
  (q.cut symbols.length [] symbols).map Option.join

theorem fill_append (mark : List α) (x y : List (Option α)) :
    fill mark (x ++ y) = fill mark x ++ fill mark y := List.flatMap_append

theorem drop_fill (mark : List α) (symbols : List (Option α)) (n : Nat) :
    (fill mark symbols).drop (fill mark (symbols.take n)).length = fill mark (symbols.drop n) := by
  have hsplit : fill mark symbols = fill mark (symbols.take n) ++ fill mark (symbols.drop n) := by
    rw [← fill_append, List.take_append_drop]
  rw [hsplit, List.drop_left]

/-- The steps are determined by the text. -/
theorem Cut.unique {before text : List α} {s t : List (Option α)} (hs : Cut m before text s)
    (ht : Cut m before text t) : s = t := by
  induction hs generalizing t with
  | nil =>
    generalize hnil : ([] : List α) = text at ht
    cases ht with
    | nil => rfl
    | keep => cases hnil
    | @replace _ kept replaced rest _ hfind _ =>
      obtain ⟨hpos, -⟩ := m.replaces hfind
      have hlength := congrArg List.length hnil
      simp only [List.length_nil, List.length_append] at hlength
      omega
  | @keep before rest u symbols hfind _ ih =>
    generalize htext : u :: rest = text at ht
    cases ht with
    | nil => cases htext
    | keep _ hrest =>
      obtain ⟨rfl, rfl⟩ := List.cons.inj htext
      rw [ih hrest]
    | replace hfind' _ =>
      rw [← htext, hfind] at hfind'
      cases hfind'
  | @replace before kept replaced rest symbols hfind _ ih =>
    generalize htext : kept ++ replaced ++ rest = text at ht
    cases ht with
    | nil =>
      obtain ⟨hpos, -⟩ := m.replaces hfind
      have hlength := congrArg List.length htext
      simp only [List.length_nil, List.length_append] at hlength
      omega
    | keep hfind' _ =>
      rw [← htext, hfind] at hfind'
      cases hfind'
    | @replace _ kept' replaced' rest' symbols' hfind' hrest =>
      rw [← htext, hfind, Option.some.injEq, Prod.mk.injEq] at hfind'
      rw [List.append_assoc, List.append_assoc] at htext
      obtain ⟨rfl, htail⟩ := List.append_inj htext hfind'.1
      obtain ⟨rfl, rfl⟩ := List.append_inj htail hfind'.2
      rw [ih hrest]

theorem substitute_eq {mark text : List α} {symbols : List (Option α)}
    (h : Cut m [] text symbols) : m.substitute mark text = fill mark symbols := by
  obtain ⟨symbols', h', heq⟩ := substitute_cuts (m := m) mark text
  rw [heq, h.unique h']

/-- A word in which the pattern is not found is gone through character by character. -/
theorem Cut.keep_word {before word rest : List α} {symbols : List (Option α)}
    (hword : ∀ x y, word = x ++ y → y ≠ [] → ∀ before rest, m.find before (y ++ rest) = none)
    (hrest : Cut m (word.reverse ++ before) rest symbols) :
    Cut m before (word ++ rest) (word.map some ++ symbols) := by
  induction word generalizing before with
  | nil => exact hrest
  | cons u word ih =>
    refine .keep (hword [] (u :: word) rfl (List.cons_ne_nil _ _) before rest) (ih ?_ ?_)
    · exact fun x y hxy hy => hword (u :: x) y (by rw [hxy, List.cons_append]) hy
    · rw [List.reverse_cons, List.append_assoc] at hrest
      exact hrest

variable {p : Matcher α} {q : Matcher (Option α)} {mark : List α}

/-- The matcher on texts with gaps sees what the other sees once the gaps are filled. -/
structure Sees (p : Matcher α) (q : Matcher (Option α)) (mark : List α) : Prop where
  passes : ∀ x y, mark = x ++ y → y ≠ [] → ∀ before rest, p.find before (y ++ rest) = none
  misses : ∀ before before' u rest, q.find before (some u :: rest) = none →
    p.find before' (u :: fill mark rest) = none
  finds : ∀ before before' kept replaced rest,
    q.find before (kept ++ replaced ++ rest) = some (kept.length, replaced.length) →
    ∃ units, kept = units.map some ∧ p.find before' (units ++ fill mark replaced ++ fill mark rest) =
      some (units.length, (fill mark replaced).length)

theorem map_some_of_kept {kept : List (Option α)} (h : none ∉ kept) :
    ∃ units : List α, kept = units.map some := by
  induction kept with
  | nil => exact ⟨[], rfl⟩
  | cons u kept ih =>
    rw [List.mem_cons, not_or] at h
    obtain ⟨u, rfl⟩ := Option.ne_none_iff_exists'.mp (Ne.symm h.1)
    obtain ⟨units, rfl⟩ := ih h.2
    exact ⟨u :: units, rfl⟩

/-- One equation between the two is enough, and that no gap is kept. -/
theorem Sees.of_find
    (hpasses : ∀ x y, mark = x ++ y → y ≠ [] → ∀ before rest, p.find before (y ++ rest) = none)
    (hfind : ∀ before before' text, p.find before' (fill mark text) =
      (q.find before text).map fun found =>
        (found.1, (fill mark ((text.drop found.1).take found.2)).length))
    (hkept : ∀ before text found, q.find before text = some found → none ∉ text.take found.1) :
    Sees p q mark where
  passes := hpasses
  misses := by
    intro before before' u rest h
    rw [← fill_some, hfind before, h]
    rfl
  finds := by
    intro before before' kept replaced rest h
    have hnone := hkept before _ _ h
    rw [List.append_assoc, List.take_left] at hnone
    obtain ⟨units, rfl⟩ := map_some_of_kept hnone
    refine ⟨units, rfl, ?_⟩
    have hfound := hfind before before' (units.map some ++ replaced ++ rest)
    rw [h, fill_append, fill_append, fill_map_some] at hfound
    rw [hfound, Option.map_some, List.append_assoc, List.drop_left, List.take_left,
      List.length_map]

theorem Cut.through (h : Sees p q mark) {before : List (Option α)} {before' : List α}
    {text : List (Option α)} {symbols : List (Option (Option α))} (hcut : Cut q before text symbols) :
    ∃ symbols', Cut p before' (fill mark text) symbols' ∧
      fill mark symbols' = fill mark (symbols.map Option.join) := by
  induction hcut generalizing before' with
  | nil => exact ⟨[], .nil, rfl⟩
  | @keep before rest u symbols hfind _ ih =>
    cases u with
    | none =>
      obtain ⟨symbols', hrest, heq⟩ := @ih (mark.reverse ++ before')
      refine ⟨mark.map some ++ symbols', ?_, ?_⟩
      · rw [fill_none]
        exact .keep_word h.passes hrest
      · rw [fill_kept, heq, List.map_cons]
        rfl
    | some u =>
      obtain ⟨symbols', hrest, heq⟩ := @ih (u :: before')
      refine ⟨some u :: symbols', ?_, ?_⟩
      · exact .keep (h.misses before before' u rest hfind) hrest
      · rw [fill_some, heq, List.map_cons]
        rfl
  | @replace before kept replaced rest symbols hfind _ ih =>
    obtain ⟨units, rfl, hfound⟩ := h.finds before before' kept replaced rest hfind
    obtain ⟨symbols', hrest, heq⟩ := @ih ((units ++ fill mark replaced).reverse ++ before')
    refine ⟨units.map some ++ none :: symbols', ?_, ?_⟩
    · rw [fill_append, fill_append, fill_map_some]
      exact .replace hfound hrest
    · have hkept : ((units.map some).map some).map Option.join = units.map some := by
        rw [List.map_map, List.map_map]
        rfl
      rw [fill_kept, fill_none, heq, List.map_append, hkept, List.map_cons, fill_kept]
      rfl

/-- To substitute in a filled text is to strike more gaps before it is filled. -/
theorem substitute_fill (h : Sees p q mark) (symbols : List (Option α)) :
    p.substitute mark (fill mark symbols) = fill mark (q.strike symbols) := by
  obtain ⟨symbols', hcut, heq⟩ := Cut.through h (cut_cuts (le_refl symbols.length))
  rw [substitute_eq hcut, heq]
  rfl

end Layers

/-! The words between separators, when the mark stands between two of them. -/
section Splitting
variable {sep : α → Bool} {first last blank : α} {inner : List α}

theorem split_fill (hfirst : sep first = true) (hlast : sep last = true) (hblank : sep blank = true)
    (symbols : List (Option α)) :
    ∃ head words words', (fill (first :: (inner ++ [last])) symbols).splitOnP sep = head :: words ∧
      (symbols.map fun u => u.getD blank).splitOnP sep = head :: words' ∧
      ∀ word, word ∉ inner.splitOnP sep → (word ∈ words ↔ word ∈ words') := by
  induction symbols with
  | nil => exact ⟨[], [], [], List.splitOnP_nil, List.splitOnP_nil, fun _ _ => Iff.rfl⟩
  | cons u symbols ih =>
    obtain ⟨head, words, words', hfill, hblanks, hsame⟩ := ih
    cases u with
    | none =>
      refine ⟨[], inner.splitOnP sep ++ head :: words, head :: words', ?_, ?_, ?_⟩
      · rw [fill_none, List.cons_append, List.append_assoc, List.singleton_append,
          List.splitOnP_cons_eq_if_modifyHead, if_pos hfirst, List.splitOnP_append_cons _ _ hlast,
          hfill]
      · rw [List.map_cons, Option.getD_none, List.splitOnP_cons_eq_if_modifyHead, if_pos hblank,
          hblanks]
      · intro word hword
        rw [List.mem_append, List.mem_cons, List.mem_cons, hsame word hword]
        exact or_iff_right hword
    | some u =>
      rw [fill_some, List.map_cons, Option.getD_some, List.splitOnP_cons_eq_if_modifyHead,
        List.splitOnP_cons_eq_if_modifyHead, hfill, hblanks]
      by_cases hu : sep u = true
      · rw [if_pos hu, if_pos hu]
        refine ⟨[], _, _, rfl, rfl, fun word hword => ?_⟩
        rw [List.mem_cons, List.mem_cons, hsame word hword]
      · rw [if_neg hu, if_neg hu]
        exact ⟨u :: head, words, words', rfl, rfl, hsame⟩

/-- A word that the mark does not hold is in the filled text where it is in the text with a blank
for each gap. -/
theorem mem_split_fill (hfirst : sep first = true) (hlast : sep last = true)
    (hblank : sep blank = true) {word : List α} (hword : word ∉ inner.splitOnP sep)
    (symbols : List (Option α)) :
    word ∈ (fill (first :: (inner ++ [last])) symbols).splitOnP sep ↔
      word ∈ (symbols.map fun u => u.getD blank).splitOnP sep := by
  obtain ⟨head, words, words', hfill, hblanks, hsame⟩ :=
    @split_fill α sep first last blank inner hfirst hlast hblank symbols
  rw [hfill, hblanks, List.mem_cons, List.mem_cons, hsame word hword]

end Splitting

end Concordia.Lib.Substitution
