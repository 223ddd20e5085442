import Concordia.Lib.Substitution
import Concordia.Shared.CasperExecutor

/-! Redaction of public payloads: four patterns over every text, and the keys that name a secret;
beside it the scan for what a payload still shows. -/
namespace Concordia.Shared.Redaction
open Concordia.Python Concordia.Locke Concordia.Lib.Substitution
open Concordia.Js hiding Value

/-- Unicode tables of the library. -/
structure Tables where
  lower : Str → Str
  /-- `\w`, on a code point. -/
  isWord : Nat → Bool

section Characters

/-- The letter that a character matches under `re.IGNORECASE`. -/
def foldCase (u : UInt16) : UInt16 :=
  if 0x41 ≤ u ∧ u ≤ 0x5a then u + 0x20
  else if u = 0x130 ∨ u = 0x131 then 0x69
  else if u = 0x17f then 0x73
  else if u = 0x212a then 0x6b
  else u

def isLetter (u : UInt16) : Bool := 0x61 ≤ foldCase u && foldCase u ≤ 0x7a

/-- `[A-Za-z0-9._~+/=-]`, in any case. -/
def isToken (u : UInt16) : Bool := isLetter u || isDigit u || (js "._~+/=-").contains u

/-- `[^\s"']`. -/
def isPath (u : UInt16) : Bool := !isWhite u && u != 0x22 && u != 0x27

/-- `[A-Z ]`. -/
def isHeading (u : UInt16) : Bool := (0x41 ≤ u && u ≤ 0x5a) || u == 0x20

/-- A word at the head of the text, in any case. -/
def heads : Str → Str → Bool
  | [], _ => true
  | _ :: _, [] => false
  | c :: word, u :: text => foldCase u == c && heads word text

end Characters

def mark : Str := js "[REDACTED]"

section Patterns
variable (tables : Tables)

/-- Whether the text, given last character first, ends in a word character. -/
def endsInWord : Str → Bool
  | [] => false
  | [u] => tables.isWord u.toNat
  | low :: high :: _ =>
    if isHighSurrogate high && isLowSurrogate low then
      tables.isWord (0x10000 + (high.toNat - 0xd800) * 0x400 + (low.toNat - 0xdc00))
    else tables.isWord low.toNat

/-- `-----BEGIN [A-Z ]*PRIVATE KEY-----`. -/
def findPrivateKey (_before text : Str) : Option (Nat × Nat) :=
  let opening := js "-----BEGIN "
  let heading := (text.drop opening.length).takeWhile isHeading
  let dashes := js "-----"
  if opening.isPrefixOf text && (js "PRIVATE KEY").isSuffixOf heading &&
      dashes.isPrefixOf (text.drop (opening.length + heading.length)) then
    some (0, opening.length + heading.length + dashes.length)
  else none

/-- The white space at the head of the text, where that is asked for. -/
def gapOf (white : Bool) (text : Str) : Str := if white then text.takeWhile isWhite else []

/-- The length of the white space and a token of some length. -/
def tokenLength (white : Bool) (least : Nat) (text : Str) : Option Nat :=
  let gap := gapOf white text
  let token := (text.drop gap.length).takeWhile isToken
  if (white && gap.isEmpty) || token.length < least then none
  else some (gap.length + token.length)

/-- A word boundary, one of the labels and its token. The labels begin with a word character. -/
def findCredential (labels : List String) (white : Bool) (least : Nat) (before text : Str) :
    Option (Nat × Nat) :=
  if endsInWord tables before then none
  else labels.findSome? fun label =>
    if heads (js label) text then
      (tokenLength white least (text.drop (js label).length)).map fun n =>
        (0, (js label).length + n)
    else none

def keywords : List String := ["secret", "key", "env", "pem"]

def hasKeyword (s : Str) : Bool :=
  s.tails.any fun t => keywords.any fun keyword => heads (js keyword) t

def roots : List String := ["/opt/", "/etc/", "/home/", "/users/"]

/-- `/(?:opt|etc|home|Users)/[^\s"']*(?:secret|key|env|pem)[^\s"']*`. -/
def findPath (_before text : Str) : Option (Nat × Nat) :=
  roots.findSome? fun root =>
    let run := (text.drop (js root).length).takeWhile isPath
    if heads (js root) text && hasKeyword run then some (0, (js root).length + run.length)
    else none

end Patterns

/-! The patterns, as the words that they match. -/
section Found
variable {tables : Tables}

theorem heads_iff {word text : Str} :
    heads word text = true ↔ ∃ x rest, text = x ++ rest ∧ x.map foldCase = word := by
  induction word generalizing text with
  | nil =>
    constructor
    · exact fun _ => ⟨[], text, rfl, rfl⟩
    · exact fun _ => rfl
  | cons c word ih =>
    cases text with
    | nil =>
      constructor
      · intro h
        cases h
      · rintro ⟨x, rest, htext, hx⟩
        obtain ⟨rfl, -⟩ := List.append_eq_nil_iff.mp htext.symm
        cases hx
    | cons u text =>
      rw [heads, Bool.and_eq_true, beq_iff_eq, ih]
      constructor
      · rintro ⟨hu, x, rest, rfl, rfl⟩
        exact ⟨u :: x, rest, rfl, by rw [List.map_cons, hu]⟩
      · rintro ⟨x, rest, htext, hx⟩
        cases x with
        | nil => cases hx
        | cons v x =>
          rw [List.cons_append] at htext
          obtain ⟨rfl, rfl⟩ := List.cons.inj htext
          rw [List.map_cons] at hx
          obtain ⟨hu, hrest⟩ := List.cons.inj hx
          exact ⟨hu, x, rest, rfl, hrest⟩

theorem takeWhile_append_stop {q : UInt16 → Bool} {x rest : Str} (hx : ∀ u ∈ x, q u = true)
    (hrest : ∀ u ∈ rest.head?, q u = false) : (x ++ rest).takeWhile q = x := by
  rw [List.takeWhile_append_of_pos hx]
  cases rest with
  | nil => simp
  | cons u rest => rw [List.takeWhile_cons, hrest u rfl]; simp

theorem le_takeWhile {q : UInt16 → Bool} {x rest : Str} (hx : ∀ u ∈ x, q u = true) :
    x.length ≤ ((x ++ rest).takeWhile q).length := by
  rw [List.takeWhile_append_of_pos hx, List.length_append]
  omega

/-- The text splits at the end of a run. -/
theorem takeWhile_split (q : UInt16 → Bool) (text : Str) :
    text = text.takeWhile q ++ text.drop (text.takeWhile q).length :=
  (List.prefix_iff_eq_append.mp (List.takeWhile_prefix q)).symm

theorem takeWhile_end (q : UInt16 → Bool) (text : Str) :
    ∀ u ∈ (text.drop (text.takeWhile q).length).head?, q u = false := by
  induction text with
  | nil => simp
  | cons u text ih =>
    by_cases hu : q u = true
    · rw [List.takeWhile_cons_of_pos hu, List.length_cons, List.drop_succ_cons]
      exact ih
    · rw [List.takeWhile_cons_of_neg hu]
      simpa using hu

theorem forall_of_all {s : Str} {p : UInt16 → Prop} [DecidablePred p]
    (h : s.all (fun u => decide (p u)) = true) : ∀ u ∈ s, p u :=
  fun u hu => of_decide_eq_true (List.all_eq_true.mp h u hu)

theorem token_not_white {u : UInt16} (h : isToken u = true) : isWhite u = false := by
  simp only [isToken, isLetter, Bool.or_eq_true, Bool.and_eq_true, decide_eq_true_eq] at h
  rcases h with (h | h) | h
  · rw [foldCase] at h
    split_ifs at h with h1 h2 h3 h4
    all_goals
      simp only [isWhite, Bool.or_eq_false_iff, Bool.and_eq_false_iff, decide_eq_false_iff_not,
        beq_eq_false_iff_ne, UInt16.le_iff_toNat_le, ne_eq, ← UInt16.toNat_inj] at *
      simp only [UInt16.reduceToNat] at *
      omega
  · exact Shared.CasperExecutor.isWhite_digit h
  · have hpunctuation : ∀ v ∈ js "._~+/=-", isWhite v = false := forall_of_all (by decide)
    exact hpunctuation u (by simpa using h)

/-- White space where it is asked for, and a token of at least some length. -/
structure Token (white : Bool) (least : Nat) (gap token : Str) : Prop where
  space : ∀ u ∈ gap, isWhite u = true
  spaced : white = true → gap ≠ []
  unspaced : white = false → gap = []
  tokens : ∀ u ∈ token, isToken u = true
  least : least ≤ token.length

theorem tokenLength_some {white : Bool} {least n : Nat} {text : Str}
    (h : tokenLength white least text = some n) : ∃ gap token rest,
      text = gap ++ token ++ rest ∧ Token white least gap token ∧ n = gap.length + token.length ∧
      ∀ u ∈ rest.head?, isToken u = false := by
  rw [tokenLength] at h
  split at h
  · cases h
  · next hlong =>
    obtain rfl := (Option.some.inj h).symm
    simp only [Bool.or_eq_true, Bool.and_eq_true, decide_eq_true_eq, not_or, not_and] at hlong
    refine ⟨_, _, _, ?_, ⟨?_, ?_, ?_, fun u hu => List.mem_takeWhile_imp hu, by omega⟩, rfl,
      takeWhile_end isToken (text.drop (gapOf white text).length)⟩
    · rw [List.append_assoc, ← takeWhile_split]
      cases white with
      | false => rfl
      | true => exact takeWhile_split isWhite text
    · intro u hu
      cases white with
      | false => cases hu
      | true => exact List.mem_takeWhile_imp hu
    · intro hwhite
      simpa using hlong.1 hwhite
    · rintro rfl
      rfl

theorem tokenLength_of_token {white : Bool} {least : Nat} {gap token : Str} (hleast : 0 < least)
    (h : Token white least gap token) (rest : Str) :
    (tokenLength white least (gap ++ token ++ rest)).isSome := by
  have hgap : gapOf white (gap ++ token ++ rest) = gap := by
    rw [gapOf]
    cases white with
    | false => exact (h.unspaced rfl).symm
    | true =>
      rw [if_pos rfl, List.append_assoc]
      apply takeWhile_append_stop h.space
      intro u hu
      cases htoken : token with
      | nil =>
        have := h.least
        rw [htoken, List.length_nil] at this
        omega
      | cons v token =>
        rw [htoken] at hu
        obtain rfl := Option.some.inj hu
        exact token_not_white (h.tokens v (by simp [htoken]))
  have hlong : ¬ ((white && gap.isEmpty) ||
      decide ((((gap ++ token ++ rest).drop gap.length).takeWhile isToken).length < least)) =
        true := by
    rw [List.append_assoc, List.drop_left]
    have := @le_takeWhile isToken token rest h.tokens
    have := h.least
    simp only [Bool.or_eq_true, Bool.and_eq_true, decide_eq_true_eq, not_or, not_and]
    exact ⟨fun hwhite => by simpa using h.spaced hwhite, by omega⟩
  rw [tokenLength, hgap]
  simp only [if_neg hlong, Option.isSome_some]

/-- One of the labels in any case, and its token. -/
inductive Credential (labels : List String) (white : Bool) (least : Nat) : Str → Prop
  | intro {label : String} {head gap token : Str} (hlabel : label ∈ labels)
      (hhead : head.map foldCase = js label) (htoken : Token white least gap token) :
      Credential labels white least (head ++ gap ++ token)

variable {labels : List String} {white : Bool} {least kept replaced : Nat} {before text : Str}

theorem findCredential_some (h : findCredential tables labels white least before text =
    some (kept, replaced)) : endsInWord tables before = false ∧ kept = 0 ∧
      ∃ word rest, text = word ++ rest ∧ replaced = word.length ∧
        Credential labels white least word ∧ ∀ u ∈ rest.head?, isToken u = false := by
  rw [findCredential] at h
  split at h
  · cases h
  · next hedge =>
    obtain ⟨label, hlabel, h⟩ := List.exists_of_findSome?_eq_some h
    split at h
    · next hheads =>
      obtain ⟨x, more, rfl, hx⟩ := heads_iff.mp hheads
      have hlength : (js label).length = x.length := by rw [← hx, List.length_map]
      rw [hlength, List.drop_left, Option.map_eq_some_iff] at h
      obtain ⟨n, htoken, hpair⟩ := h
      obtain ⟨gap, token, rest, rfl, hfits, rfl, hrest⟩ := tokenLength_some htoken
      obtain ⟨rfl, rfl⟩ := Prod.mk.inj hpair.symm
      refine ⟨by simpa using hedge, rfl, x ++ gap ++ token, rest, ?_, ?_, .intro hlabel hx hfits,
        hrest⟩
      · simp only [List.append_assoc]
      · simp only [List.length_append]
        omega
    · cases h

theorem findCredential_isSome (hleast : 0 < least) :
    (findCredential tables labels white least before text).isSome ↔
      endsInWord tables before = false ∧ ∃ word, Credential labels white least word ∧
        word <+: text := by
  constructor
  · intro h
    obtain ⟨⟨kept, replaced⟩, h⟩ := Option.isSome_iff_exists.mp h
    obtain ⟨hedge, -, word, rest, rfl, -, hword, -⟩ := findCredential_some h
    exact ⟨hedge, word, hword, List.prefix_append _ _⟩
  · rintro ⟨hedge, _, ⟨hlabel, hhead, htoken⟩, rest, rfl⟩
    rw [findCredential, if_neg (by simp [hedge]), List.findSome?_isSome_iff]
    refine ⟨_, hlabel, ?_⟩
    rw [List.append_assoc, List.append_assoc, if_pos (heads_iff.mpr ⟨_, _, rfl, hhead⟩), ← hhead,
      List.length_map, List.drop_left, Option.isSome_map, ← List.append_assoc]
    exact tokenLength_of_token hleast htoken rest

/-- A heading, between its dashes. -/
inductive PrivateKey : Str → Prop
  | intro {heading : Str} (hheading : ∀ u ∈ heading, isHeading u = true)
      (hkey : js "PRIVATE KEY" <:+ heading) :
      PrivateKey (js "-----BEGIN " ++ heading ++ js "-----")

theorem findPrivateKey_some (h : findPrivateKey before text = some (kept, replaced)) :
    kept = 0 ∧ ∃ word rest, text = word ++ rest ∧ replaced = word.length ∧ PrivateKey word := by
  rw [findPrivateKey] at h
  split at h
  · next hfound =>
    simp only [Bool.and_eq_true, List.isPrefixOf_iff_prefix, List.isSuffixOf_iff_suffix] at hfound
    obtain ⟨⟨⟨more, rfl⟩, hkey⟩, hdashes⟩ := hfound
    rw [List.drop_left] at h hkey hdashes
    rw [← List.drop_drop, List.drop_left] at hdashes
    obtain ⟨rest, hrest⟩ := hdashes
    obtain ⟨rfl, rfl⟩ := Prod.mk.inj (Option.some.inj h)
    refine ⟨rfl, _, rest, ?_, ?_, .intro (fun u hu => List.mem_takeWhile_imp hu) hkey⟩
    · rw [List.append_assoc, List.append_assoc, hrest, ← takeWhile_split]
    · simp only [List.length_append]
  · cases h

theorem findPrivateKey_isSome : (findPrivateKey before text).isSome ↔
    ∃ word, PrivateKey word ∧ word <+: text := by
  constructor
  · intro h
    obtain ⟨⟨kept, replaced⟩, h⟩ := Option.isSome_iff_exists.mp h
    obtain ⟨-, word, rest, rfl, -, hword⟩ := findPrivateKey_some h
    exact ⟨word, hword, List.prefix_append _ _⟩
  · rintro ⟨_, ⟨hheading, hkey⟩, rest, rfl⟩
    rename_i heading
    have hrun : (((js "-----BEGIN " ++ heading ++ js "-----") ++ rest).drop
        (js "-----BEGIN ").length).takeWhile isHeading = heading := by
      rw [List.append_assoc, List.append_assoc, List.drop_left]
      apply takeWhile_append_stop hheading
      rintro u ⟨⟩
      decide
    rw [findPrivateKey]
    simp only [hrun]
    rw [if_pos]
    · rfl
    · simp only [Bool.and_eq_true, List.isPrefixOf_iff_prefix, List.isSuffixOf_iff_suffix]
      refine ⟨⟨⟨_, by rw [List.append_assoc, List.append_assoc]⟩, hkey⟩, ?_⟩
      rw [List.append_assoc, List.append_assoc, ← List.drop_drop, List.drop_left, List.drop_left]
      exact List.prefix_append _ _

theorem letter_token {u : UInt16} (h : isLetter u = true) : isToken u = true := by
  rw [isToken, h, Bool.true_or, Bool.true_or]

theorem token_path {u : UInt16} (h : isToken u = true) : isPath u = true := by
  have hwhite := token_not_white h
  have hquotes : isToken 0x22 = false ∧ isToken 0x27 = false := by decide
  rw [isPath, hwhite, Bool.not_false, Bool.true_and, Bool.and_eq_true, bne_iff_ne, bne_iff_ne]
  constructor
  · rintro rfl
    rw [hquotes.1] at h
    cases h
  · rintro rfl
    rw [hquotes.2] at h
    cases h

/-- What matches a word of letters has letters. -/
theorem letters_of_fold {x word : Str} (hx : x.map foldCase = word)
    (hword : ∀ c ∈ word, 0x61 ≤ c ∧ c ≤ 0x7a) : ∀ u ∈ x, isLetter u = true := by
  intro u hu
  obtain ⟨hlow, hhigh⟩ := hword (foldCase u) (hx ▸ List.mem_map_of_mem hu)
  rw [isLetter, decide_eq_true hlow, decide_eq_true hhigh]
  rfl

def IsKeyword (key : Str) : Prop := ∃ keyword ∈ keywords, key.map foldCase = js keyword

theorem IsKeyword.letters {key : Str} (h : IsKeyword key) : ∀ u ∈ key, isLetter u = true := by
  obtain ⟨keyword, hkeyword, hkey⟩ := h
  have hall : ∀ keyword ∈ keywords,
      (js keyword).all (fun c => decide (0x61 ≤ c ∧ c ≤ 0x7a)) = true := by decide
  exact letters_of_fold hkey (forall_of_all (hall keyword hkeyword))

theorem IsKeyword.ne_nil {key : Str} (h : IsKeyword key) : key ≠ [] := by
  rintro rfl
  obtain ⟨keyword, hkeyword, hkey⟩ := h
  have hall : ∀ keyword ∈ keywords, js keyword ≠ [] := by decide
  exact hall keyword hkeyword hkey.symm

theorem hasKeyword_iff {s : Str} :
    hasKeyword s = true ↔ ∃ a key b, s = a ++ key ++ b ∧ IsKeyword key := by
  simp only [hasKeyword, List.any_eq_true, List.mem_tails]
  constructor
  · rintro ⟨_, ⟨a, rfl⟩, keyword, hkeyword, hheads⟩
    obtain ⟨key, b, rfl, hkey⟩ := heads_iff.mp hheads
    exact ⟨a, key, b, by rw [List.append_assoc], keyword, hkeyword, hkey⟩
  · rintro ⟨a, key, b, rfl, keyword, hkeyword, hkey⟩
    refine ⟨key ++ b, ⟨a, by rw [List.append_assoc]⟩, keyword, hkeyword, ?_⟩
    exact heads_iff.mpr ⟨key, b, rfl, hkey⟩

/-- A root in any case, and a path up to a keyword. -/
inductive SecretPath : Str → Prop
  | intro {root : String} {head run key : Str} (hroot : root ∈ roots)
      (hhead : head.map foldCase = js root) (hrun : ∀ u ∈ run, isPath u = true)
      (hkey : IsKeyword key) : SecretPath (head ++ run ++ key)

theorem root_path {root : String} (hroot : root ∈ roots) {head : Str}
    (hhead : head.map foldCase = js root) : ∀ u ∈ head, isPath u = true := by
  intro u hu
  have hall : ∀ root ∈ roots,
      (js root).all (fun c => decide ((0x61 ≤ c ∧ c ≤ 0x7a) ∨ c = 0x2f)) = true := by decide
  have hroots := forall_of_all (hall root hroot)
  rcases hroots (foldCase u) (hhead ▸ List.mem_map_of_mem hu) with hletter | hslash
  · apply token_path
    apply letter_token
    rw [isLetter, decide_eq_true hletter.1, decide_eq_true hletter.2]
    rfl
  · obtain rfl : u = 0x2f := by
      rw [foldCase] at hslash
      split_ifs at hslash with h1 h2 h3 h4
      · simp only [UInt16.le_iff_toNat_le, ← UInt16.toNat_inj, UInt16.toNat_add] at h1 hslash
        simp only [UInt16.reduceToNat] at h1 hslash
        omega
      · cases hslash
      · cases hslash
      · cases hslash
      · exact hslash
    decide

theorem findPath_some (h : findPath before text = some (kept, replaced)) :
    kept = 0 ∧ ∃ x rest, text = x ++ rest ∧ replaced = x.length ∧
      (∃ word, SecretPath word ∧ word <+: x) ∧ (∀ u ∈ x, isPath u = true) ∧
      ∀ u ∈ rest.head?, isPath u = false := by
  rw [findPath] at h
  obtain ⟨root, hroot, h⟩ := List.exists_of_findSome?_eq_some h
  simp only at h
  split at h
  · next hfound =>
    rw [Bool.and_eq_true] at hfound
    obtain ⟨head, more, rfl, hhead⟩ := heads_iff.mp hfound.1
    have hlength : (js root).length = head.length := by rw [← hhead, List.length_map]
    rw [hlength, List.drop_left] at h hfound
    obtain ⟨rfl, rfl⟩ := Prod.mk.inj (Option.some.inj h)
    have hrun : ∀ u ∈ more.takeWhile isPath, isPath u = true :=
      fun u hu => List.mem_takeWhile_imp hu
    obtain ⟨a, key, b, hsplit, hkey⟩ := hasKeyword_iff.mp hfound.2
    refine ⟨rfl, head ++ more.takeWhile isPath, _, ?_, by rw [List.length_append], ?_, ?_,
      takeWhile_end isPath more⟩
    · rw [List.append_assoc, ← takeWhile_split]
    · refine ⟨head ++ a ++ key, .intro hroot hhead (fun u hu => hrun u ?_) hkey, b, ?_⟩
      · rw [hsplit]
        exact List.mem_append_left _ (List.mem_append_left _ hu)
      · rw [hsplit]
        simp only [List.append_assoc]
    · intro u hu
      rcases List.mem_append.mp hu with hu | hu
      · exact root_path hroot hhead u hu
      · exact hrun u hu
  · cases h

theorem findPath_isSome : (findPath before text).isSome ↔
    ∃ word, SecretPath word ∧ word <+: text := by
  constructor
  · intro h
    obtain ⟨⟨kept, replaced⟩, h⟩ := Option.isSome_iff_exists.mp h
    obtain ⟨-, x, rest, rfl, -, ⟨word, hword, hleads⟩, -⟩ := findPath_some h
    exact ⟨word, hword, hleads.trans (List.prefix_append _ _)⟩
  · rintro ⟨_, ⟨hroot, hhead, hrun, hkey⟩, rest, rfl⟩
    rw [findPath, List.findSome?_isSome_iff]
    refine ⟨_, hroot, ?_⟩
    rw [if_pos]
    · rfl
    · rw [List.append_assoc, List.append_assoc, Bool.and_eq_true]
      refine ⟨heads_iff.mpr ⟨_, _, rfl, hhead⟩, ?_⟩
      rw [← hhead, List.length_map, List.drop_left, ← List.append_assoc,
        List.takeWhile_append_of_pos, hasKeyword_iff]
      · exact ⟨_, _, _, rfl, hkey⟩
      · intro u hu
        rcases List.mem_append.mp hu with hu | hu
        · exact hrun u hu
        · exact token_path (letter_token (hkey.letters u hu))

end Found

/-! The four patterns, and what is left for them in a redacted text. -/
section Absence
variable (tables : Tables)

theorem PrivateKey.pos {word : Str} (h : PrivateKey word) : 0 < word.length := by
  obtain ⟨-, -⟩ := h
  have hdashes : (js "-----").length = 5 := by decide
  simp only [List.length_append, hdashes]
  omega

def privateKey : Matcher UInt16 where
  find := findPrivateKey
  replaces := by
    intro before text kept replaced h
    obtain ⟨rfl, word, rest, rfl, rfl, hword⟩ := findPrivateKey_some h
    have := hword.pos
    rw [List.length_append]
    omega

theorem Credential.pos {labels : List String} {white : Bool} {least : Nat} (hleast : 0 < least)
    {word : Str} (h : Credential labels white least word) : 0 < word.length := by
  obtain ⟨-, -, htoken⟩ := h
  have := htoken.least
  simp only [List.length_append]
  omega

def credential (labels : List String) (white : Bool) (least : Nat) (hleast : 0 < least) :
    Matcher UInt16 where
  find := findCredential tables labels white least
  replaces := by
    intro before text kept replaced h
    obtain ⟨-, rfl, word, rest, rfl, rfl, hword, -⟩ := findCredential_some h
    have := hword.pos hleast
    rw [List.length_append]
    omega

/-- `\bBearer\s+[A-Za-z0-9._~+/=-]{12,}`. -/
def bearer : Matcher UInt16 := credential tables ["bearer"] true 12 (by decide)

/-- `\b(sk|pk|ak|eyJ)[A-Za-z0-9._~+/=-]{16,}`. -/
def apiKey : Matcher UInt16 := credential tables ["sk", "pk", "ak", "eyj"] false 16 (by decide)

def secretPath : Matcher UInt16 where
  find := findPath
  replaces := by
    intro before text kept replaced h
    obtain ⟨rfl, x, rest, rfl, rfl, ⟨word, hword, hleads⟩, -⟩ := findPath_some h
    have hle := hleads.length_le
    have hpos : 0 < word.length := by
      obtain ⟨-, -, -, hkey⟩ := hword
      have := List.length_pos_iff.mpr hkey.ne_nil
      simp only [List.length_append]
      omega
    rw [List.length_append]
    omega

/-- `SECRET_VALUE_PATTERNS`. -/
def secretValuePatterns : List (Matcher UInt16) :=
  [privateKey, bearer tables, apiKey tables, secretPath]

variable {tables} {labels : List String} {white : Bool} {least : Nat} {hleast : 0 < least}

theorem privateKey_words : Words privateKey (fun _ => false) PrivateKey where
  found := by
    intro before text
    rw [eq_self_iff_true, true_and]
    exact @findPrivateKey_isSome before text
  ne_nil := fun h => absurd h.pos (by simp)
  near := fun _ _ _ _ => rfl

theorem credential_words : Words (credential tables labels white least hleast)
    (endsInWord tables) (Credential labels white least) where
  found := findCredential_isSome hleast
  ne_nil := fun h => absurd (h.pos hleast) (by simp)
  near := fun _ _ _ _ => rfl

/-- No word starts in the mark. -/
theorem heads_clash {word y rest : Str} (h : heads word (y ++ rest) = true) :
    (word.zip y).all (fun pair => foldCase pair.2 == pair.1) = true := by
  induction word generalizing y with
  | nil => rfl
  | cons c word ih =>
    cases y with
    | nil => rfl
    | cons u y =>
      rw [List.cons_append, heads, Bool.and_eq_true] at h
      rw [List.zip_cons_cons, List.all_cons, h.1, ih h.2]
      rfl

/-- The labels of the credentials and the roots of the paths. -/
def starts : List String := ["bearer", "sk", "pk", "ak", "eyj"] ++ roots

theorem heads_mark {start : String} (hstart : start ∈ starts) {x y rest : Str}
    (hmark : mark = x ++ y) (hy : y ≠ []) : heads (js start) (y ++ rest) = false := by
  have hall : ∀ start ∈ starts, ∀ y ∈ mark.tails, y ≠ [] →
      ((js start).zip y).all (fun pair => foldCase pair.2 == pair.1) = false := by decide
  have hclash := hall start hstart y ((List.mem_tails _ _).mpr ⟨x, hmark.symm⟩) hy
  by_contra h
  rw [Bool.not_eq_false] at h
  rw [heads_clash h] at hclash
  cases hclash

theorem mark_eq : mark = 0x5b :: js "REDACTED]" := by decide

theorem privateKey_plain (word : Str) (h : PrivateKey word) : (0x5b : UInt16) ∉ word := by
  obtain ⟨hheading, -⟩ := h
  have hliterals : (0x5b : UInt16) ∉ js "-----BEGIN " ∧ (0x5b : UInt16) ∉ js "-----" ∧
      isHeading 0x5b = false := by decide
  simp only [List.mem_append, not_or]
  refine ⟨⟨hliterals.1, fun hmem => ?_⟩, hliterals.2.1⟩
  rw [hheading _ hmem] at hliterals
  exact absurd hliterals.2.2 (by simp)

/-- A label in any case begins with a letter and has no bracket. -/
theorem label_letters {label : String} (hlabel : label ∈ starts.take 5) {head : Str}
    (hhead : head.map foldCase = js label) : head ≠ [] ∧ ∀ u ∈ head, isLetter u = true := by
  have hall : ∀ label ∈ starts.take 5,
      js label ≠ [] ∧ (js label).all (fun c => decide (0x61 ≤ c ∧ c ≤ 0x7a)) = true := by decide
  obtain ⟨hne, hletters⟩ := hall label hlabel
  refine ⟨?_, letters_of_fold hhead (forall_of_all hletters)⟩
  rintro rfl
  exact hne hhead.symm

variable (hlabels : ∀ label ∈ labels, label ∈ starts.take 5)
include hlabels

theorem credential_plain (word : Str) (h : Credential labels white least word) :
    (0x5b : UInt16) ∉ word := by
  obtain ⟨hlabel, hhead, htoken⟩ := h
  have hbracket : isLetter 0x5b = false ∧ isWhite 0x5b = false ∧ isToken 0x5b = false := by decide
  simp only [List.mem_append, not_or]
  refine ⟨⟨fun hmem => ?_, fun hmem => ?_⟩, fun hmem => ?_⟩
  · rw [(label_letters (hlabels _ hlabel) hhead).2 _ hmem] at hbracket
    exact absurd hbracket.1 (by simp)
  · rw [htoken.space _ hmem] at hbracket
    exact absurd hbracket.2.1 (by simp)
  · rw [htoken.tokens _ hmem] at hbracket
    exact absurd hbracket.2.2 (by simp)

theorem credential_head {u : UInt16} {word : Str} (h : Credential labels white least (u :: word)) :
    isLetter u = true := by
  generalize hcons : u :: word = whole at h
  obtain ⟨hlabel, hhead, htoken⟩ := h
  obtain ⟨hne, hletters⟩ := label_letters (hlabels _ hlabel) hhead
  obtain ⟨c, head, rfl⟩ := List.exists_cons_of_ne_nil hne
  obtain rfl : u = c := by
    rw [List.cons_append, List.cons_append] at hcons
    exact (List.cons.inj hcons).1
  exact hletters u List.mem_cons_self

omit hlabels

theorem privateKey_unmarked {x y : Str} (hmark : mark = x ++ y) (hy : y ≠ [])
    (before rest : Str) : privateKey.find before (y ++ rest) = none := by
  by_contra hne
  obtain ⟨word, hword, hleads⟩ :=
    (@findPrivateKey_isSome before (y ++ rest)).mp (Option.isSome_iff_ne_none.mpr hne)
  obtain ⟨u, y, rfl⟩ := List.exists_cons_of_ne_nil hy
  obtain ⟨-, -⟩ := hword
  have hopening : js "-----BEGIN " = 0x2d :: js "----BEGIN " := by decide
  rw [hopening, List.cons_append, List.cons_append, List.cons_append,
    List.cons_prefix_cons] at hleads
  have hdash : (0x2d : UInt16) ∉ mark := by decide
  apply hdash
  rw [hmark, hleads.1]
  exact List.mem_append_right _ List.mem_cons_self

theorem credential_unmarked (hlabels : ∀ label ∈ labels, label ∈ starts.take 5) {x y : Str}
    (hmark : mark = x ++ y) (hy : y ≠ []) (before rest : Str) :
    (credential tables labels white least hleast).find before (y ++ rest) = none := by
  by_contra hne
  obtain ⟨-, _, ⟨hlabel, hhead, -⟩, more, hmore⟩ :=
    (findCredential_isSome hleast).mp (Option.isSome_iff_ne_none.mpr hne)
  have hclash := @heads_mark _ (List.mem_of_mem_take (hlabels _ hlabel)) x y rest hmark hy
  rw [← hmore, List.append_assoc, List.append_assoc, heads_iff.mpr ⟨_, _, rfl, hhead⟩] at hclash
  cases hclash

theorem secretPath_unmarked {x y : Str} (hmark : mark = x ++ y) (hy : y ≠ [])
    (before rest : Str) : secretPath.find before (y ++ rest) = none := by
  by_contra hne
  obtain ⟨_, ⟨hroot, hhead, -, -⟩, more, hmore⟩ :=
    (@findPath_isSome before (y ++ rest)).mp (Option.isSome_iff_ne_none.mpr hne)
  have hclash := @heads_mark _ (List.mem_append_right _ hroot) x y rest hmark hy
  rw [← hmore, List.append_assoc, List.append_assoc, heads_iff.mpr ⟨_, _, rfl, hhead⟩] at hclash
  cases hclash

/-- After a match of the pattern no label begins, and the edge is as after the mark. -/
def Ends (tables : Tables) (m : Matcher UInt16) : Prop :=
  ∀ before before' x rest, m.find before (x ++ rest) = some (0, x.length) →
    ∀ v ∈ rest.head?, isLetter v = false ∧ endsInWord tables (v :: (x.reverse ++ before)) =
      endsInWord tables (v :: (mark.reverse ++ before'))

theorem endsInWord_cons {u : UInt16} {before : Str}
    (h : isLowSurrogate u = false ∨ ∀ v ∈ before.head?, isHighSurrogate v = false) :
    endsInWord tables (u :: before) = tables.isWord u.toNat := by
  cases before with
  | nil => rfl
  | cons v before =>
    rw [endsInWord, if_neg]
    rcases h with h | h
    · simp [h]
    · simp [h v rfl]

theorem endsInWord_mark (u : UInt16) (before : Str) :
    endsInWord tables (u :: (mark.reverse ++ before)) = tables.isWord u.toNat :=
  endsInWord_cons (.inr (by rintro v ⟨⟩; decide))

theorem token_not_surrogate {u : UInt16} (h : isToken u = true) : isHighSurrogate u = false := by
  simp only [isToken, isLetter, isDigit, Bool.or_eq_true, Bool.and_eq_true,
    decide_eq_true_eq] at h
  rcases h with (h | h) | h
  · rw [foldCase] at h
    split_ifs at h with h1 h2 h3 h4
    all_goals
      simp only [isHighSurrogate, Bool.and_eq_false_iff, decide_eq_false_iff_not,
        UInt16.le_iff_toNat_le, ← UInt16.toNat_inj] at *
      simp only [UInt16.reduceToNat] at *
      omega
  · simp only [isHighSurrogate, Bool.and_eq_false_iff, decide_eq_false_iff_not,
      UInt16.le_iff_toNat_le] at *
    simp only [UInt16.reduceToNat] at *
    omega
  · have hpunctuation : ∀ v ∈ js "._~+/=-", isHighSurrogate v = false := forall_of_all (by decide)
    exact hpunctuation u (by simpa using h)

theorem path_of_surrogate {u : UInt16} (h : isPath u = false) : isLowSurrogate u = false := by
  by_contra hlow
  rw [Bool.not_eq_false] at hlow
  have hwhite : isWhite u = false := by
    simp only [isLowSurrogate, Bool.and_eq_true, decide_eq_true_eq] at hlow
    simp only [isWhite, Bool.or_eq_false_iff, Bool.and_eq_false_iff, decide_eq_false_iff_not,
      beq_eq_false_iff_ne, UInt16.le_iff_toNat_le, ne_eq, ← UInt16.toNat_inj] at *
    simp only [UInt16.reduceToNat] at *
    omega
  rw [isPath, hwhite, Bool.not_false, Bool.true_and, Bool.and_eq_false_iff] at h
  simp only [bne_eq_false_iff_eq] at h
  rcases h with rfl | rfl <;> cases hlow

theorem letter_of_not {q : UInt16 → Bool} (h : ∀ u, isLetter u = true → q u = true) {u : UInt16}
    (hu : q u = false) : isLetter u = false := by
  by_contra hletter
  rw [h u (by simpa using hletter)] at hu
  cases hu

theorem credential_ends : Ends tables (credential tables labels white least hleast) := by
  intro before before' x rest hfind v hv
  obtain ⟨-, -, word, rest', hsplit, hlength, ⟨hlabel, hhead, htoken⟩, hrest⟩ :=
    findCredential_some hfind
  obtain ⟨rfl, rfl⟩ := List.append_inj hsplit hlength
  refine ⟨letter_of_not (fun _ => letter_token) (hrest v hv), ?_⟩
  rw [endsInWord_mark]
  apply endsInWord_cons
  right
  intro last hlast
  obtain ⟨token, final, rfl⟩ := List.eq_nil_or_concat' _ |>.resolve_left
    (List.length_pos_iff.mp (hleast.trans_le htoken.least))
  rw [List.reverse_append, List.reverse_concat] at hlast
  obtain rfl := Option.some.inj hlast
  exact token_not_surrogate (htoken.tokens final (by simp))

theorem secretPath_ends : Ends tables secretPath := by
  intro before before' x rest hfind v hv
  obtain ⟨-, x', rest', hsplit, hlength, -, -, hrest⟩ :=
    @findPath_some _ _ before _ hfind
  obtain ⟨rfl, rfl⟩ := List.append_inj hsplit hlength
  refine ⟨letter_of_not (fun _ h => token_path (letter_token h)) (hrest v hv), ?_⟩
  rw [endsInWord_mark]
  exact endsInWord_cons (.inl (path_of_surrogate (hrest v hv)))

theorem patterns_whole {m : Matcher UInt16} (hm : m ∈ secretValuePatterns tables)
    (before text : Str) (kept replaced : Nat) (h : m.find before text = some (kept, replaced)) :
    kept = 0 := by
  simp only [secretValuePatterns, List.mem_cons, List.not_mem_nil, or_false] at hm
  rcases hm with rfl | rfl | rfl | rfl
  · exact (@findPrivateKey_some _ _ before _ h).1
  · exact (findCredential_some h).2.1
  · exact (findCredential_some h).2.1
  · exact (@findPath_some _ _ before _ h).1

variable {m : Matcher UInt16} {text : Str}

theorem privateKey_absent (hm : m ∈ secretValuePatterns tables)
    (h : privateKey.search [] text = false ∨ privateKey = m) :
    privateKey.search [] (m.substitute mark text) = false := by
  have hunmarked : ∀ x y, mark = x ++ y → y ≠ [] → ∀ before rest,
      privateKey.find before (y ++ rest) = none := fun x y => privateKey_unmarked
  rw [mark_eq] at hunmarked ⊢
  exact privateKey_words.absent (patterns_whole hm) privateKey_plain hunmarked
    (fun _ _ _ _ _ => ⟨.inl rfl, fun _ _ => rfl⟩) h

theorem credential_absent (hlabels : ∀ label ∈ labels, label ∈ starts.take 5)
    (hm : m ∈ secretValuePatterns tables) (hends : Ends tables m)
    (h : (credential tables labels white least hleast).search [] text = false ∨
      credential tables labels white least hleast = m) :
    (credential tables labels white least hleast).search [] (m.substitute mark text) = false := by
  have hunmarked : ∀ x y, mark = x ++ y → y ≠ [] → ∀ before rest,
      (credential tables labels white least hleast).find before (y ++ rest) = none :=
    fun x y => credential_unmarked hlabels
  have hparts : Parts m mark (endsInWord tables) (Credential labels white least) := by
    intro before before' x rest hfind
    refine ⟨.inr fun u hu word hword => ?_, fun v hv => (hends before before' x rest hfind v hv).2⟩
    have hletter := (hends before before' x rest hfind u hu).1
    rw [credential_head hlabels hword] at hletter
    cases hletter
  rw [mark_eq] at hunmarked hparts ⊢
  exact credential_words.absent (patterns_whole hm) (credential_plain hlabels) hunmarked hparts h

theorem bearer_absent (hm : m ∈ secretValuePatterns tables) (hends : Ends tables m)
    (h : (bearer tables).search [] text = false ∨ bearer tables = m) :
    (bearer tables).search [] (m.substitute mark text) = false :=
  credential_absent (by decide) hm hends h

theorem apiKey_absent (hm : m ∈ secretValuePatterns tables) (hends : Ends tables m)
    (h : (apiKey tables).search [] text = false ∨ apiKey tables = m) :
    (apiKey tables).search [] (m.substitute mark text) = false :=
  credential_absent (by decide) hm hends h

/-- A root and a path with a keyword at the head of a result have their like at the head of the
text: what a mark hides has a keyword of its own. -/
theorem secretPath_kept {before : Str} {symbols : List (Option UInt16)}
    (hcut : Cut secretPath before text symbols) {head run key : Str}
    (hhead : (0x5b : UInt16) ∉ head) (hrun : ∀ u ∈ run, isPath u = true) (hkey : IsKeyword key)
    (h : head ++ run ++ key <+: fill mark symbols) : ∃ run' key',
      (∀ u ∈ run', isPath u = true) ∧ IsKeyword key' ∧ head ++ run' ++ key' <+: text := by
  induction hcut generalizing head run with
  | nil =>
    have hnil := List.prefix_nil.mp h
    simp only [List.append_eq_nil_iff] at hnil
    exact absurd hnil.2 hkey.ne_nil
  | @keep before rest u symbols hfind hrest ih =>
    cases head with
    | cons c head =>
      rw [fill_some, List.cons_append, List.cons_append, List.cons_prefix_cons] at h
      obtain ⟨run', key', hrun', hkey', hleads⟩ :=
        ih (fun hmem => hhead (List.mem_cons_of_mem _ hmem)) hrun h.2
      refine ⟨run', key', hrun', hkey', ?_⟩
      rw [List.cons_append, List.cons_append, List.cons_prefix_cons]
      exact ⟨h.1, hleads⟩
    | nil =>
      cases run with
      | cons c run =>
        rw [fill_some, List.nil_append, List.cons_append, List.cons_prefix_cons] at h
        obtain ⟨run', key', hrun', hkey', hleads⟩ :=
          ih List.not_mem_nil (fun v hv => hrun v (List.mem_cons_of_mem _ hv)) h.2
        refine ⟨c :: run', key', ?_, hkey', ?_⟩
        · rintro v (_ | ⟨_, hv⟩)
          · exact hrun c List.mem_cons_self
          · exact hrun' v hv
        · rw [List.nil_append, List.cons_append, List.cons_prefix_cons]
          exact ⟨h.1, hleads⟩
      | nil =>
        rw [mark_eq] at h
        have hbracket : (0x5b : UInt16) ∉ key := by
          intro hmem
          have hletter := hkey.letters _ hmem
          revert hletter
          decide
        exact ⟨[], key, hrun, hkey, (Cut.keep hfind hrest).plain hbracket h⟩
  | @replace before kept replaced rest symbols hfind hrest ih =>
    obtain ⟨hkept, x, rest', hsplit, hlength, ⟨_, ⟨hroot, hstart, hpath, hkey'⟩, hword⟩, hall, -⟩ :=
      @findPath_some _ _ before _ hfind
    obtain rfl := List.length_eq_zero_iff.mp hkept
    cases head with
    | nil =>
      rename_i root start path key'
      rw [List.nil_append] at hsplit
      obtain ⟨rfl, rfl⟩ := List.append_inj hsplit hlength
      refine ⟨start ++ path, key', fun u hu => hall u ?_, hkey', ?_⟩
      · exact hword.subset (List.mem_append_left _ hu)
      · rw [List.nil_append, List.nil_append]
        exact hword.trans (List.prefix_append _ _)
    | cons c head =>
      rw [mark_eq, List.map_nil, List.nil_append, fill_none, List.cons_append, List.cons_append,
        List.cons_append, List.cons_prefix_cons] at h
      exact absurd (by simp [h.1]) hhead

theorem secretPath_absent : secretPath.search [] (secretPath.substitute mark text) = false := by
  obtain ⟨symbols, hcut, heq⟩ := @substitute_cuts _ secretPath mark text
  rw [heq]
  refine @Cut.search_fill _ _ secretPath _ _ _ _ _ (fun _ _ _ => True)
    (fun before _ _ _ h => (@findPath_some _ _ before _ h).1)
    (fun x y => secretPath_unmarked) ?_ (fun _ _ _ _ _ _ => trivial) hcut trivial
  intro before before' u rest symbols _ hfind hrest
  refine ⟨?_, trivial⟩
  by_contra hne
  obtain ⟨_, ⟨hroot, hhead, hrun, hkey⟩, hleads⟩ :=
    (@findPath_isSome before' _).mp (Option.isSome_iff_ne_none.mpr hne)
  rename_i root head run key
  have hbracket : (0x5b : UInt16) ∉ head := by
    intro hmem
    have hall : ∀ root ∈ roots, (0x5b : UInt16) ∉ js root := by decide
    apply hall root hroot
    rw [← hhead]
    exact List.mem_map.mpr ⟨_, hmem, rfl⟩
  obtain ⟨run', key', hrun', hkey', hleads'⟩ :=
    secretPath_kept (Cut.keep hfind hrest) hbracket hrun hkey (by rw [fill_some]; exact hleads)
  have hsome := (@findPath_isSome before _).mpr ⟨_, .intro hroot hhead hrun' hkey', hleads'⟩
  change (secretPath.find before (u :: rest)).isSome = true at hsome
  rw [hfind] at hsome
  cases hsome

end Absence

section Payloads
variable (tables : Tables)

def secretKeyPatterns : List String := [
  "authorization", "api_key", "apikey", "access_token", "auth_token", "bearer", "client_secret",
  "docker_secret", "env_var", "env_vars", "environment_variable", "environment_variables", "jwt",
  "llm_api_key", "openai", "private_key", "secret", "secret_key", "token", "wallet_secret"]

def isSecretKey (key : Str) : Bool :=
  secretKeyPatterns.any fun pattern => occurs (js pattern) (tables.lower key)

def redactText (s : Str) : Str :=
  (secretValuePatterns tables).foldl (fun redacted pattern => pattern.substitute mark redacted) s

mutual

def redactPublicPayload : Value → Value
  | .list elements => .list (redactElements elements)
  | .dict items => .dict (redactItems items)
  | .str s => .str (redactText tables s)
  | v => v

def redactElements : List Value → List Value
  | [] => []
  | v :: rest => redactPublicPayload v :: redactElements rest

def redactItems : List (Str × Value) → List (Str × Value)
  | [] => []
  | (key, raw) :: rest =>
    (key, if isSecretKey tables key then .str mark else redactPublicPayload raw) ::
      redactItems rest

end

structure Finding where
  path : Str
  reason : String
  deriving DecidableEq

def isMark : Value → Bool
  | .str s => s == mark
  | _ => false

def textFindings (path s : Str) : List Finding :=
  if (secretValuePatterns tables).any fun pattern => pattern.search [] s then
    [⟨path, "secret-like value"⟩]
  else []

def keyFindings (path key : Str) (raw : Value) : List Finding :=
  if isSecretKey tables key && !isMark raw then [⟨path, "secret-like key"⟩] else []

mutual

def redactionFindings (path : Str) : Value → List Finding
  | .dict items => itemFindings path items
  | .list elements => elementFindings path 0 elements
  | .str s => textFindings tables path s
  | _ => []

def itemFindings (path : Str) : List (Str × Value) → List Finding
  | [] => []
  | (key, raw) :: rest =>
    let child := path ++ js "." ++ key
    keyFindings tables child key raw ++ redactionFindings child raw ++ itemFindings path rest

def elementFindings (path : Str) (index : Nat) : List Value → List Finding
  | [] => []
  | item :: rest =>
    redactionFindings (path ++ js "[" ++ decimal index ++ js "]") item ++
      elementFindings path (index + 1) rest

end

variable {tables}

theorem textFindings_eq_nil {path s : Str} : textFindings tables path s = [] ↔
    ∀ pattern ∈ secretValuePatterns tables, pattern.search [] s = false := by
  rw [textFindings]
  split
  · next hfound =>
    obtain ⟨pattern, hpattern, hsearch⟩ := List.any_eq_true.mp hfound
    refine iff_of_false (by simp) fun hnone => ?_
    rw [hnone pattern hpattern] at hsearch
    cases hsearch
  · next hnone => simpa using hnone

/-- What a pattern cannot find any more the later substitutions do not bring back. -/
theorem redactText_absent (s : Str) :
    ∀ pattern ∈ secretValuePatterns tables, pattern.search [] (redactText tables s) = false := by
  have hmem : privateKey ∈ secretValuePatterns tables ∧ bearer tables ∈ secretValuePatterns tables ∧
      apiKey tables ∈ secretValuePatterns tables ∧ secretPath ∈ secretValuePatterns tables := by
    simp [secretValuePatterns]
  obtain ⟨hm1, hm2, hm3, hm4⟩ := hmem
  have hends : Ends tables (bearer tables) ∧ Ends tables (apiKey tables) :=
    ⟨credential_ends, credential_ends⟩
  intro pattern hpattern
  simp only [secretValuePatterns, List.mem_cons, List.not_mem_nil, or_false] at hpattern
  simp only [redactText, secretValuePatterns, List.foldl_cons, List.foldl_nil]
  rcases hpattern with rfl | rfl | rfl | rfl
  · apply privateKey_absent hm4
    exact .inl (privateKey_absent hm3 (.inl (privateKey_absent hm2
      (.inl (privateKey_absent hm1 (.inr rfl))))))
  · apply bearer_absent hm4 secretPath_ends
    exact .inl (bearer_absent hm3 hends.2 (.inl (bearer_absent hm2 hends.1 (.inr rfl))))
  · apply apiKey_absent hm4 secretPath_ends
    exact .inl (apiKey_absent hm3 hends.2 (.inr rfl))
  · exact secretPath_absent

theorem redactText_unchanged {s : Str}
    (h : ∀ pattern ∈ secretValuePatterns tables, pattern.search [] s = false) :
    redactText tables s = s := by
  rw [redactText]
  generalize secretValuePatterns tables = patterns at h
  induction patterns with
  | nil => rfl
  | cons pattern patterns ih =>
    rw [List.foldl_cons, substitute_unmatched (h pattern List.mem_cons_self)]
    exact ih fun other hother => h other (List.mem_cons_of_mem _ hother)

theorem mark_absent : ∀ pattern ∈ secretValuePatterns tables, pattern.search [] mark = false := by
  intro pattern hpattern
  have hnone : ∀ x y, mark = x ++ y → y ≠ [] → ∀ before rest,
      pattern.find before (y ++ rest) = none := by
    simp only [secretValuePatterns, List.mem_cons, List.not_mem_nil, or_false] at hpattern
    intro x y hmark hy
    rcases hpattern with rfl | rfl | rfl | rfl
    · exact privateKey_unmarked hmark hy
    · exact credential_unmarked (by decide) hmark hy
    · exact credential_unmarked (by decide) hmark hy
    · exact secretPath_unmarked hmark hy
  have hpast := search_past hnone [] []
  rwa [List.append_nil] at hpast

mutual

/-- A redacted payload shows nothing. -/
theorem findings_redacted : ∀ (v : Value) (path : Str),
    redactionFindings tables path (redactPublicPayload tables v) = []
  | .none, _ => by simp [redactPublicPayload, redactionFindings]
  | .bool _, _ => by simp [redactPublicPayload, redactionFindings]
  | .int _, _ => by simp [redactPublicPayload, redactionFindings]
  | .float _, _ => by simp [redactPublicPayload, redactionFindings]
  | .str s, path => by
    rw [redactPublicPayload, redactionFindings]
    exact textFindings_eq_nil.mpr (redactText_absent s)
  | .list elements, path => by
    rw [redactPublicPayload, redactionFindings]
    exact elementFindings_redacted elements path 0
  | .dict items, path => by
    rw [redactPublicPayload, redactionFindings]
    exact itemFindings_redacted items path

theorem elementFindings_redacted : ∀ (elements : List Value) (path : Str) (index : Nat),
    elementFindings tables path index (redactElements tables elements) = []
  | [], _, _ => by rw [redactElements, elementFindings]
  | v :: rest, path, index => by
    rw [redactElements, elementFindings, findings_redacted v, List.nil_append]
    exact elementFindings_redacted rest path (index + 1)

theorem itemFindings_redacted : ∀ (items : List (Str × Value)) (path : Str),
    itemFindings tables path (redactItems tables items) = []
  | [], _ => by rw [redactItems, itemFindings]
  | (key, raw) :: rest, path => by
    rw [redactItems, itemFindings, itemFindings_redacted rest path, List.append_nil]
    by_cases hkey : isSecretKey tables key = true
    · rw [if_pos hkey, redactionFindings, textFindings_eq_nil.mpr mark_absent, List.append_nil,
        keyFindings, isMark, beq_self_eq_true, Bool.not_true, Bool.and_false]
      rfl
    · rw [if_neg hkey, findings_redacted raw, List.append_nil, keyFindings,
        if_neg (by simp [hkey])]

end

mutual

/-- A payload in which nothing is found stays as it is. -/
theorem redacted_of_clean : ∀ (v : Value) (path : Str), redactionFindings tables path v = [] →
    redactPublicPayload tables v = v
  | .none, _, _ => by rw [redactPublicPayload]; all_goals simp
  | .bool _, _, _ => by rw [redactPublicPayload]; all_goals simp
  | .int _, _, _ => by rw [redactPublicPayload]; all_goals simp
  | .float _, _, _ => by rw [redactPublicPayload]; all_goals simp
  | .str s, path, h => by
    rw [redactionFindings] at h
    rw [redactPublicPayload, redactText_unchanged (textFindings_eq_nil.mp h)]
  | .list elements, path, h => by
    rw [redactionFindings] at h
    rw [redactPublicPayload, redactedElements_of_clean elements path 0 h]
  | .dict items, path, h => by
    rw [redactionFindings] at h
    rw [redactPublicPayload, redactedItems_of_clean items path h]

theorem redactedElements_of_clean : ∀ (elements : List Value) (path : Str) (index : Nat),
    elementFindings tables path index elements = [] → redactElements tables elements = elements
  | [], _, _, _ => by rw [redactElements]
  | v :: rest, path, index, h => by
    rw [elementFindings, List.append_eq_nil_iff] at h
    rw [redactElements, redacted_of_clean v _ h.1, redactedElements_of_clean rest _ _ h.2]

theorem redactedItems_of_clean : ∀ (items : List (Str × Value)) (path : Str),
    itemFindings tables path items = [] → redactItems tables items = items
  | [], _, _ => by rw [redactItems]
  | (key, raw) :: rest, path, h => by
    rw [itemFindings] at h
    simp only [List.append_eq_nil_iff] at h
    obtain ⟨⟨hkey, hraw⟩, hrest⟩ := h
    rw [redactItems, redactedItems_of_clean rest path hrest]
    by_cases hsecret : isSecretKey tables key = true
    · have hmark : isMark raw = true := by
        rw [keyFindings, hsecret] at hkey
        by_contra hne
        simp [hne] at hkey
      cases raw with
      | str s => rw [if_pos hsecret, beq_iff_eq.mp hmark]
      | _ => cases hmark
    · rw [if_neg hsecret, redacted_of_clean raw _ hraw]

end

/-- The scan finds nothing in a redacted payload, a second redaction changes nothing, and neither
does one of a payload in which the scan finds nothing. -/
theorem redaction_complete (tables : Tables) (v : Value) (path : Str) :
    redactionFindings tables path (redactPublicPayload tables v) = [] ∧
    redactPublicPayload tables (redactPublicPayload tables v) = redactPublicPayload tables v ∧
    (redactionFindings tables path v = [] → redactPublicPayload tables v = v) :=
  ⟨findings_redacted v path, redacted_of_clean _ path (findings_redacted v path),
    redacted_of_clean v path⟩

end Payloads

end Concordia.Shared.Redaction
