import Concordia.Js.Utf8
import Concordia.Python.Scanning

/-! `json.dumps` writes printable ASCII only, whose UTF-8 bytes say which text they are of. -/
namespace Concordia.Python
open Concordia.Js Concordia.Js.Json

/-- Between the space and the tilde. -/
def isPrintable (u : UInt16) : Bool := 0x20 ≤ u && u ≤ 0x7e

def Printable (text : Str) : Prop := ∀ u ∈ text, isPrintable u = true

instance (text : Str) : Decidable (Printable text) :=
  List.decidableBAll (fun u => isPrintable u = true) text

section Texts
variable {s t : Str}

theorem Printable.nil : Printable [] := by simp [Printable]

theorem Printable.cons {u : UInt16} (hu : isPrintable u = true) (hs : Printable s) :
    Printable (u :: s) :=
  List.forall_mem_cons.mpr ⟨hu, hs⟩

theorem Printable.append (hs : Printable s) (ht : Printable t) : Printable (s ++ t) :=
  List.forall_mem_append.mpr ⟨hs, ht⟩

theorem Printable.not_mem {u : UInt16} (hs : Printable s) (hu : isPrintable u = false) : u ∉ s := by
  intro hmem
  rw [hs u hmem] at hu
  cases hu

theorem isPrintable_digit {u : UInt16} (h : isDigit u = true) : isPrintable u = true := by
  simp only [isDigit, isPrintable, Bool.and_eq_true, decide_eq_true_eq] at h ⊢
  constructor
  · exact UInt16.le_trans (by decide) h.1
  · exact UInt16.le_trans h.2 (by decide)

theorem Printable.digits (h : ∀ u ∈ s, isDigit u = true) : Printable s :=
  fun u hu => isPrintable_digit (h u hu)

end Texts

section Leaves

theorem printable_number {text : Str} {n : NumberText} (h : Number text n) : Printable text := by
  obtain ⟨negative, integer, fractional, exponential⟩ := h
  apply Printable.append
  · cases negative <;> decide
  · apply Printable.append
    · cases integer with
      | zero => decide
      | nonzero digit leading digits =>
        apply Printable.digits
        intro u hu
        rcases List.mem_cons.mp hu with rfl | hu
        · exact digit
        · exact digits u hu
    · apply Printable.append
      · cases fractional with
        | absent => exact .nil
        | present digits => exact .cons (by decide) (.digits digits.2)
      · cases exponential with
        | absent => exact .nil
        | present letter signed digits =>
          apply Printable.cons
          · rcases letter with rfl | rfl <;> decide
          · apply Printable.append
            · cases signed <;> decide
            · exact .digits digits.2

theorem printable_matchNumber {text : Str} {n : NumberText} (h : matchNumber text = some (n, [])) :
    Printable text := by
  obtain ⟨number, hnumber, rfl⟩ := matchNumber_sound h
  rw [List.append_nil]
  exact printable_number hnumber

theorem isPrintable_hexDigit : ∀ n < 16, isPrintable (hexDigit n) = true := by decide

theorem printable_escapeUnit (u : UInt16) : Printable (escapeUnit u) := by
  unfold escapeUnit
  split_ifs
  any_goals decide
  · next hprint => exact .cons hprint .nil
  · have hu := u.toNat_lt
    apply Printable.append
    · decide
    · refine .cons ?_ (.cons ?_ (.cons ?_ (.cons ?_ .nil)))
      · exact isPrintable_hexDigit _ (by omega)
      · exact isPrintable_hexDigit _ (by omega)
      · exact isPrintable_hexDigit _ (by omega)
      · exact isPrintable_hexDigit _ (by omega)

theorem printable_dumpsStr (s : Str) : Printable (dumpsStr s) := by
  apply Printable.append
  · apply Printable.cons (by decide)
    intro u hu
    obtain ⟨v, -, hv⟩ := List.mem_flatMap.mp hu
    exact printable_escapeUnit v u hv
  · decide

theorem printable_dumpsInt (n : Int) : Printable (dumpsInt n) :=
  printable_matchNumber (matchNumber_dumpsInt n)

variable {floats : FloatFormat}

theorem printable_float {text : Str} (h : FloatText floats.repr text) : Printable text := by
  rcases h with rfl | rfl | rfl | ⟨n, hn, -⟩
  · decide
  · decide
  · decide
  · exact printable_matchNumber hn

end Leaves

section Trees
variable {floats : FloatFormat}

theorem Printable.between {s t : Str} (hs : Printable s) (ht : Printable t) :
    Printable (s ++ comma :: space :: t) :=
  hs.append (.cons (by decide) (.cons (by decide) ht))

theorem Printable.item {t : Str} (key : Str) (ht : Printable t) :
    Printable (dumpsStr key ++ colon :: space :: t) :=
  (printable_dumpsStr key).append (.cons (by decide) (.cons (by decide) ht))

mutual

theorem printable_dumps : ∀ {v : Value}, WellFormed floats v → Printable (dumps v)
  | .none, _ | .bool true, _ | .bool false, _ => by decide
  | .int n, _ => printable_dumpsInt n
  | .float _, h => printable_float h
  | .str s, _ => printable_dumpsStr s
  | .list elements, h => by
    rw [dumps]
    exact (Printable.cons (by decide) (printable_dumpsElements h)).append (by decide)
  | .dict items, h => by
    rw [dumps]
    exact (Printable.cons (by decide) (printable_dumpsItems h.2)).append (by decide)

theorem printable_dumpsElements : ∀ {elements : List Value}, WellFormedElements floats elements →
    Printable (dumpsElements elements)
  | [], _ => .nil
  | [_], h => printable_dumps h.1
  | _ :: w :: rest, h => by
    rw [dumpsElements]
    · exact (printable_dumps h.1).between (printable_dumpsElements h.2)
    · simp

theorem printable_dumpsItems : ∀ {items : List (Str × Value)}, WellFormedItems floats items →
    Printable (dumpsItems items)
  | [], _ => .nil
  | [(key, _)], h => .item key (printable_dumps h.1)
  | (key, _) :: next :: rest, h => by
    rw [dumpsItems]
    · exact (Printable.item key (printable_dumps h.1)).between (printable_dumpsItems h.2)
    · simp

end
end Trees

section Bytes

theorem utf8_printable {text : Str} (h : Printable text) :
    utf8 text = text.map fun u => u.toNat.toUInt8 := by
  have hsmall : ∀ u ∈ text, u.toNat < 128 := by
    intro u hu
    have hprint := h u hu
    simp only [isPrintable, Bool.and_eq_true, decide_eq_true_eq, UInt16.le_iff_toNat_le] at hprint
    have htilde : (0x7e : UInt16).toNat = 126 := rfl
    omega
  have hunits : text = (text.map fun u => u.toNat.toUInt8).map fun b => b.toNat.toUInt16 := by
    rw [List.map_map]
    refine (List.map_id text).symm.trans (List.map_congr_left fun u hu => ?_)
    have hu := hsmall u hu
    have hbyte : u.toNat.toUInt8.toNat = u.toNat := by
      rw [UInt8.toNat_ofNat']
      omega
    rw [Function.comp_apply, hbyte]
    exact UInt16.ofNat_toNat.symm
  have hascii := @utf8_ascii (text.map fun u => u.toNat.toUInt8) fun b hb => by
    obtain ⟨u, hu, rfl⟩ := List.mem_map.mp hb
    have hu := hsmall u hu
    rw [UInt8.lt_iff_toNat_lt, UInt8.toNat_ofNat']
    change u.toNat % 256 < 128
    omega
  rw [← hunits] at hascii
  exact hascii

theorem utf8_printable_injective {s t : Str} (hs : Printable s) (ht : Printable t)
    (h : utf8 s = utf8 t) : s = t := by
  rw [utf8_printable hs, utf8_printable ht] at h
  induction s generalizing t with
  | nil => exact (List.map_eq_nil_iff.mp h.symm).symm
  | cons u s ih =>
    cases t with
    | nil => cases h
    | cons v t =>
      obtain ⟨huv, hrest⟩ := List.cons.inj h
      have hsmall : ∀ w : UInt16, isPrintable w = true → w.toNat < 256 := by
        intro w hw
        simp only [isPrintable, Bool.and_eq_true, decide_eq_true_eq, UInt16.le_iff_toNat_le] at hw
        have htilde : (0x7e : UInt16).toNat = 126 := rfl
        omega
      have hu := hsmall u (hs u List.mem_cons_self)
      have hv := hsmall v (ht v List.mem_cons_self)
      have hnat := congrArg UInt8.toNat huv
      rw [UInt8.toNat_ofNat', UInt8.toNat_ofNat', Nat.mod_eq_of_lt hu, Nat.mod_eq_of_lt hv] at hnat
      rw [UInt16.toNat_inj.mp hnat, ih (fun w hw => hs w (List.mem_cons_of_mem _ hw))
        (fun w hw => ht w (List.mem_cons_of_mem _ hw)) hrest]

end Bytes
end Concordia.Python
