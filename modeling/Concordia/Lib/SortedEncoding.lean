import Concordia.Lib.Encoding
import Mathlib.Data.List.Sort

/-! Encodings of collections: the entries in the order of their keys, behind their number. Where no
two entries have one key, the bytes say which entries there are and nothing else. -/
namespace Concordia.Lib.SortedEncoding
open Concordia.Lib.Encoding

section Sorting
variable {α β κ : Type} (le : κ → κ → Prop) [DecidableRel le]

def sortBy (key : α → κ) (entries : List α) : List α :=
  entries.insertionSort fun a b => le (key a) (key b)

theorem sortBy_perm (key : α → κ) (entries : List α) : (sortBy le key entries).Perm entries :=
  List.perm_insertionSort _ _

theorem mem_sortBy {key : α → κ} {entries : List α} {a : α} :
    a ∈ sortBy le key entries ↔ a ∈ entries := (sortBy_perm le key entries).mem_iff

theorem sortBy_map {f : α → β} {key : α → κ} {other : β → κ} {entries : List α}
    (h : ∀ a ∈ entries, other (f a) = key a) :
    (sortBy le key entries).map f = sortBy le other (entries.map f) := by
  apply List.map_insertionSort
  intro a ha b hb
  rw [h a ha, h b hb]

variable [Std.Total le] [IsTrans κ le]

theorem sortBy_sorted (key : α → κ) (entries : List α) :
    (sortBy le key entries).Pairwise fun a b => le (key a) (key b) := by
  have : Std.Total fun a b : α => le (key a) (key b) :=
    ⟨fun a b => Std.Total.total (r := le) (key a) (key b)⟩
  have : IsTrans α fun a b => le (key a) (key b) :=
    ⟨fun a b c => IsTrans.trans (r := le) (key a) (key b) (key c)⟩
  exact List.pairwise_insertionSort _ _

variable [Std.Antisymm le]

/-- Entries of different keys have one order. -/
theorem sortBy_congr {key : α → κ} {as bs : List α} (hkeys : (as.map key).Nodup)
    (h : as.Perm bs) : sortBy le key as = sortBy le key bs := by
  have hperm : (sortBy le key as).Perm (sortBy le key bs) :=
    (sortBy_perm le key as).trans (h.trans (sortBy_perm le key bs).symm)
  apply hperm.eq_of_pairwise _ (sortBy_sorted le key as) (sortBy_sorted le key bs)
  intro a b ha hb hab hba
  have hkey : key a = key b := Std.Antisymm.antisymm (r := le) _ _ hab hba
  rw [mem_sortBy] at ha
  rw [mem_sortBy, ← h.mem_iff] at hb
  exact List.inj_on_of_nodup_map hkeys ha hb hkey

end Sorting

section Collections
variable {α κ : Type} (le : κ → κ → Prop) [DecidableRel le] (key : α → κ)
variable (E : α → List UInt8 → Prop) (k : Nat)

/-- The number of the entries in `k` bytes, and the encodings of the entries in order. -/
def EncodesAll (entries : List α) (bytes : List UInt8) : Prop :=
  ∃ parts, List.Forall₂ E (sortBy le key entries) parts ∧ entries.length < 256 ^ k ∧
    bytes = beBytes k entries.length ++ parts.flatten

variable {le key E k} {as bs : List α} {x y : List UInt8}

/-- The bytes say in which order the entries stand. -/
theorem EncodesAll.sorted_eq (hcut : SelfDelimiting E Eq) (hx : EncodesAll le key E k as x)
    (hy : EncodesAll le key E k bs y) (h : x = y) : sortBy le key as = sortBy le key bs := by
  obtain ⟨parts, hparts, hbound, rfl⟩ := hx
  obtain ⟨others, hothers, hbound', rfl⟩ := hy
  obtain ⟨hlength, hrest⟩ := beBytes_cut hbound hbound' h
  have hsorted : (sortBy le key as).length = (sortBy le key bs).length := by
    rw [(sortBy_perm le key as).length_eq, (sortBy_perm le key bs).length_eq, hlength]
  rw [← List.append_nil parts.flatten, ← List.append_nil others.flatten] at hrest
  obtain ⟨hall, -⟩ := SelfDelimiting.list (E := E) hcut hparts hothers hsorted hrest
  exact List.forall₂_eq_eq_eq ▸ hall

theorem forall₂_functional (hfun : ∀ a x y, E a x → E a y → x = y) {xs ys : List (List UInt8)}
    (hx : List.Forall₂ E as xs) (hy : List.Forall₂ E as ys) : xs = ys := by
  induction hx generalizing ys with
  | nil =>
    cases hy
    rfl
  | cons hfirst _ ih =>
    cases hy with
    | cons hother hrest => rw [hfun _ _ _ hfirst hother, ih hrest]

variable [Std.Total le] [IsTrans κ le] [Std.Antisymm le]

/-- Two collections have the same bytes exactly when they have the same entries. -/
theorem encodesAll_iff (hcut : SelfDelimiting E Eq) (hfun : ∀ a x y, E a x → E a y → x = y)
    (has : (as.map key).Nodup) (hbs : (bs.map key).Nodup) (hx : EncodesAll le key E k as x)
    (hy : EncodesAll le key E k bs y) : x = y ↔ ∀ a, a ∈ as ↔ a ∈ bs := by
  constructor
  · intro h a
    have hin : a ∈ sortBy le key as ↔ a ∈ as := mem_sortBy le
    rw [← hin, EncodesAll.sorted_eq hcut hx hy h, mem_sortBy]
  · intro h
    have hperm : as.Perm bs := (List.perm_ext_iff_of_nodup has.of_map hbs.of_map).mpr h
    obtain ⟨parts, hparts, -, rfl⟩ := hx
    obtain ⟨others, hothers, -, rfl⟩ := hy
    rw [sortBy_congr le has hperm] at hparts
    rw [hperm.length_eq, forall₂_functional hfun hparts hothers]

end Collections
end Concordia.Lib.SortedEncoding
