import Mathlib.Data.List.Basic
import Mathlib.Tactic

/-! Big-endian and length-prefixed byte strings. Each encoding can be cut off
whatever follows it, so concatenations of them are injective field by field. -/
namespace Concordia.Lib.Encoding

/-- The `k` low bytes of `n`, most significant first. -/
def beBytes : Nat → Nat → List UInt8
  | 0, _ => []
  | k + 1, n => beBytes k (n / 256) ++ [UInt8.ofNat n]

/-- The number a big-endian byte string stands for. -/
def beValue (bytes : List UInt8) : Nat := bytes.foldl (fun n b => n * 256 + b.toNat) 0

/-- A byte string behind its length, written in `k` big-endian bytes. -/
def lengthPrefixed (k : Nat) (bytes : List UInt8) : List UInt8 :=
  beBytes k bytes.length ++ bytes

@[simp] theorem beBytes_length (k n : Nat) : (beBytes k n).length = k := by
  induction k generalizing n with
  | zero => rfl
  | succ k ih => simp [beBytes, ih]

theorem beValue_append (x : List UInt8) (b : UInt8) :
    beValue (x ++ [b]) = beValue x * 256 + b.toNat := by
  simp [beValue]

theorem beValue_beBytes (k n : Nat) : beValue (beBytes k n) = n % 256 ^ k := by
  induction k generalizing n with
  | zero => simp [beBytes, beValue, Nat.mod_one]
  | succ k ih =>
    have byte : (UInt8.ofNat n).toNat = n % 256 := by simp
    have digits : n % 256 ^ (k + 1) = n % 256 + 256 * (n / 256 % 256 ^ k) := by
      rw [pow_succ', Nat.mod_mul]
    rw [beBytes, beValue_append, ih, byte, digits]
    omega

theorem beBytes_inj {k m n : Nat} (hm : m < 256 ^ k) (hn : n < 256 ^ k)
    (h : beBytes k m = beBytes k n) : m = n := by
  have hv := congrArg beValue h
  rwa [beValue_beBytes, beValue_beBytes, Nat.mod_eq_of_lt hm, Nat.mod_eq_of_lt hn] at hv

/-- A number in range can be read off the front of any continuation. -/
theorem beBytes_cut {k m n : Nat} {r s : List UInt8} (hm : m < 256 ^ k) (hn : n < 256 ^ k)
    (h : beBytes k m ++ r = beBytes k n ++ s) : m = n ∧ r = s := by
  obtain ⟨hx, hr⟩ := List.append_inj h (by simp)
  exact ⟨beBytes_inj hm hn hx, hr⟩

/-- So can a length-prefixed string, whose prefix says where it ends. -/
theorem lengthPrefixed_cut {k : Nat} {x y r s : List UInt8} (hx : x.length < 256 ^ k)
    (hy : y.length < 256 ^ k) (h : lengthPrefixed k x ++ r = lengthPrefixed k y ++ s) :
    x = y ∧ r = s := by
  simp only [lengthPrefixed, List.append_assoc] at h
  obtain ⟨hlen, hrest⟩ := beBytes_cut hx hy h
  exact List.append_inj hrest hlen

theorem beValue_lt (x : List UInt8) : beValue x < 256 ^ x.length := by
  induction x using List.reverseRecOn with
  | nil => simp [beValue]
  | append_singleton x b ih =>
    have hb := b.toNat_lt
    rw [beValue_append, List.length_append, List.length_singleton, pow_succ]
    omega

/-- A byte string is the encoding of its number. -/
theorem beBytes_beValue (x : List UInt8) : beBytes x.length (beValue x) = x := by
  induction x using List.reverseRecOn with
  | nil => rfl
  | append_singleton x b ih =>
    have hb := b.toNat_lt
    have hhigh : (beValue x * 256 + b.toNat) / 256 = beValue x := by omega
    have hlow : UInt8.ofNat (beValue x * 256 + b.toNat) = b := by
      apply UInt8.toNat_inj.mp
      rw [UInt8.toNat_ofNat']
      omega
    rw [List.length_append, List.length_singleton, beBytes, beValue_append, hhigh, hlow, ih]

/-- The `k` low bytes of `n`, least significant first. -/
def leBytes (k n : Nat) : List UInt8 := (beBytes k n).reverse

theorem leBytes_beValue (x : List UInt8) : leBytes x.length (beValue x.reverse) = x := by
  have h := beBytes_beValue x.reverse
  rw [List.length_reverse] at h
  rw [leBytes, h, List.reverse_reverse]

/-- The bytes of `n` up to its highest one, least significant first. -/
def minimalBytes (n : Nat) : List UInt8 := (Nat.digits 256 n).map UInt8.ofNat

theorem beValue_reverse (x : List UInt8) :
    beValue x.reverse = Nat.ofDigits 256 (x.map UInt8.toNat) := by
  induction x with
  | nil => rfl
  | cons b x ih =>
    rw [List.reverse_cons, beValue_append, ih, List.map_cons, Nat.ofDigits_cons]
    omega

/-- A byte string that ends in no zero is minimal. -/
theorem minimalBytes_beValue {x : List UInt8} (h : x.getLast? ≠ some 0) :
    minimalBytes (beValue x.reverse) = x := by
  have hlast : ∀ hne : x.map UInt8.toNat ≠ [], (x.map UInt8.toNat).getLast hne ≠ 0 := by
    intro hne hzero
    have hx : x ≠ [] := fun hx => hne (by rw [hx, List.map_nil])
    rw [List.getLast_map] at hzero
    apply h
    have hlast : x.getLast hx = 0 := UInt8.toNat_inj.mp hzero
    rw [List.getLast?_eq_some_getLast hx, hlast]
  have hsmall : ∀ n ∈ x.map UInt8.toNat, n < 256 := by
    intro n hn
    obtain ⟨b, -, rfl⟩ := List.mem_map.mp hn
    exact b.toNat_lt
  rw [minimalBytes, beValue_reverse, Nat.digits_ofDigits 256 (by decide) _ hsmall hlast,
    List.map_map]
  exact List.map_id'' (fun b => UInt8.ofNat_toNat) x

theorem leBytes_cut {k m n : Nat} {r s : List UInt8} (hm : m < 256 ^ k) (hn : n < 256 ^ k)
    (h : leBytes k m ++ r = leBytes k n ++ s) : m = n ∧ r = s := by
  obtain ⟨hx, hr⟩ := List.append_inj h (by simp [leBytes])
  exact ⟨beBytes_inj hm hn (List.reverse_injective hx), hr⟩

/-- A byte string behind its length, written in `k` little-endian bytes. -/
def lePrefixed (k : Nat) (bytes : List UInt8) : List UInt8 := leBytes k bytes.length ++ bytes

theorem lePrefixed_cut {k : Nat} {x y r s : List UInt8} (hx : x.length < 256 ^ k)
    (hy : y.length < 256 ^ k) (h : lePrefixed k x ++ r = lePrefixed k y ++ s) :
    x = y ∧ r = s := by
  simp only [lePrefixed, List.append_assoc] at h
  obtain ⟨hlen, hrest⟩ := leBytes_cut hx hy h
  exact List.append_inj hrest hlen

/-! Encodings that end by themselves: what is encoded can be told from the bytes, whatever follows. -/
section SelfDelimiting
variable {α : Type}

/-- Of two encodings with any continuations, equal bytes have related contents and equal rests. -/
def SelfDelimiting (E : α → List UInt8 → Prop) (R : α → α → Prop) : Prop :=
  ∀ {a b x y r s}, E a x → E b y → x ++ r = y ++ s → R a b ∧ r = s

/-- So does a list of them whose length is known. -/
theorem SelfDelimiting.list {E : α → List UInt8 → Prop} {R : α → α → Prop}
    (hE : SelfDelimiting E R) {as bs : List α} {xs ys : List (List UInt8)} {r s : List UInt8}
    (ha : List.Forall₂ E as xs) (hb : List.Forall₂ E bs ys) (hlength : as.length = bs.length)
    (h : xs.flatten ++ r = ys.flatten ++ s) : List.Forall₂ R as bs ∧ r = s := by
  induction ha generalizing bs ys with
  | nil =>
    obtain rfl := List.length_eq_zero_iff.mp hlength.symm
    cases hb
    exact ⟨.nil, h⟩
  | cons hax _ ih =>
    cases hb with
    | nil => cases hlength
    | cons hby hrest =>
      simp only [List.flatten_cons, List.append_assoc] at h
      obtain ⟨hab, htail⟩ := hE hax hby h
      obtain ⟨hall, hend⟩ := ih hrest (Nat.succ.inj hlength) htail
      exact ⟨.cons hab hall, hend⟩

end SelfDelimiting

end Concordia.Lib.Encoding
