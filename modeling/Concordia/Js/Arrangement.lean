import Concordia.Js.Parsing
import Mathlib.Data.List.Sort

/-! Values up to the order of their members: two objects are the same when they have the same
members, and every value has one arrangement in which the members stand in the order of their
names. -/
namespace Concordia.Js

abbrev Members := List (JsString × Value)

/-- Members in the order of their names, as `Object.keys(..).sort()` lists them. -/
def sortMembers {α : Type} (members : List (JsString × α)) : List (JsString × α) :=
  members.insertionSort fun a b => a.1 ≤ b.1

section Sorting
variable {α β : Type}

theorem sortMembers_perm (members : List (JsString × α)) : (sortMembers members).Perm members :=
  List.perm_insertionSort _ _

theorem mem_sortMembers {members : List (JsString × α)} {m : JsString × α} :
    m ∈ sortMembers members ↔ m ∈ members :=
  (sortMembers_perm members).mem_iff

theorem sortMembers_sorted (members : List (JsString × α)) :
    (sortMembers members).Pairwise fun a b => a.1 ≤ b.1 := by
  have : Std.Total fun a b : JsString × α => a.1 ≤ b.1 := ⟨fun a b => List.le_total a.1 b.1⟩
  have : IsTrans (JsString × α) fun a b => a.1 ≤ b.1 := ⟨fun _ _ _ => List.le_trans⟩
  exact List.pairwise_insertionSort _ _

theorem sortMembers_map (f : α → β) (members : List (JsString × α)) :
    sortMembers (members.map fun m => (m.1, f m.2)) =
      (sortMembers members).map fun m => (m.1, f m.2) := by
  symm
  apply List.map_insertionSort
  intro a _ b _
  rfl

theorem sortMembers_self {members : List (JsString × α)}
    (h : members.Pairwise fun a b => a.1 ≤ b.1) : sortMembers members = members :=
  h.insertionSort_eq

/-- Members of different names have one arrangement. -/
theorem sortMembers_congr {members others : List (JsString × α)}
    (hnodup : (members.map Prod.fst).Nodup) (h : members.Perm others) :
    sortMembers members = sortMembers others := by
  have hperm : (sortMembers members).Perm (sortMembers others) :=
    (sortMembers_perm members).trans (h.trans (sortMembers_perm others).symm)
  refine hperm.eq_of_pairwise ?_ (sortMembers_sorted members) (sortMembers_sorted others)
  intro a b ha hb hab hba
  have hname : a.1 = b.1 := List.le_antisymm hab hba
  rw [mem_sortMembers] at ha
  rw [mem_sortMembers, ← h.mem_iff] at hb
  exact List.inj_on_of_nodup_map hnodup ha hb hname

end Sorting

section Arrangement

mutual

/-- The value with the members of every object in the order of their names. -/
def arranged : Value → Value
  | .array elements => .array (arrangedElements elements)
  | .object members => .object (sortMembers (arrangedMembers members))
  | v => v

def arrangedElements : List Value → List Value
  | [] => []
  | v :: rest => arranged v :: arrangedElements rest

def arrangedMembers : Members → Members
  | [] => []
  | (name, v) :: rest => (name, arranged v) :: arrangedMembers rest

end

theorem arrangedElements_eq (elements : List Value) :
    arrangedElements elements = elements.map arranged := by
  induction elements with
  | nil => rfl
  | cons v rest ih => rw [arrangedElements, ih, List.map_cons]

theorem arrangedMembers_eq (members : Members) :
    arrangedMembers members = members.map fun m => (m.1, arranged m.2) := by
  induction members with
  | nil => rfl
  | cons m rest ih => rw [arrangedMembers, ih, List.map_cons]

theorem arranged_object (members : Members) : arranged (.object members) =
    .object ((sortMembers members).map fun m => (m.1, arranged m.2)) := by
  rw [arranged, arrangedMembers_eq, sortMembers_map]

mutual

/-- Two values are equal up to the order of members: an object has as many members as the other,
and each of them in the other one. -/
def Same : Value → Value → Prop
  | .array elements, .array others => SameElements elements others
  | .object members, .object others =>
    members.length = others.length ∧ SameMembers members others
  | v, w => v = w

def SameElements : List Value → List Value → Prop
  | [], [] => True
  | v :: rest, w :: others => Same v w ∧ SameElements rest others
  | _, _ => False

def SameMembers : Members → Members → Prop
  | [], _ => True
  | (name, v) :: rest, others => (∃ w, (name, w) ∈ others ∧ Same v w) ∧ SameMembers rest others

end

mutual

/-- No object of the value has two members of one name. -/
def UniqueNames : Value → Prop
  | .array elements => UniqueElements elements
  | .object members => (members.map Prod.fst).Nodup ∧ UniqueMembers members
  | _ => True

def UniqueElements : List Value → Prop
  | [] => True
  | v :: rest => UniqueNames v ∧ UniqueElements rest

def UniqueMembers : Members → Prop
  | [] => True
  | (_, v) :: rest => UniqueNames v ∧ UniqueMembers rest

end

theorem uniqueElements_iff {elements : List Value} :
    UniqueElements elements ↔ ∀ v ∈ elements, UniqueNames v := by
  induction elements with
  | nil => simp [UniqueElements]
  | cons v rest ih => simp [UniqueElements, ih]

theorem uniqueMembers_iff {members : Members} :
    UniqueMembers members ↔ ∀ m ∈ members, UniqueNames m.2 := by
  induction members with
  | nil => simp [UniqueMembers]
  | cons m rest ih => simp [UniqueMembers, ih]

theorem sameMembers_iff {members others : Members} :
    SameMembers members others ↔ ∀ m ∈ members, ∃ w, (m.1, w) ∈ others ∧ Same m.2 w := by
  induction members with
  | nil => simp [SameMembers]
  | cons m rest ih => simp [SameMembers, ih]

/-- Equal arrangements are the same members. -/
theorem sortMembers_arranged_iff {members others : Members}
    (hmembers : (members.map Prod.fst).Nodup)
    (hsame : ∀ m ∈ members, ∀ n ∈ others, (Same m.2 n.2 ↔ arranged m.2 = arranged n.2)) :
    (members.length = others.length ∧ SameMembers members others) ↔
      sortMembers (arrangedMembers members) = sortMembers (arrangedMembers others) := by
  rw [arrangedMembers_eq, arrangedMembers_eq, sameMembers_iff]
  have hnames : ((members.map fun m => (m.1, arranged m.2)).map Prod.fst).Nodup := by
    rw [List.map_map]
    exact hmembers
  constructor
  · rintro ⟨hlength, h⟩
    apply sortMembers_congr hnames
    have hsub : (members.map fun m => (m.1, arranged m.2)) ⊆
        others.map fun m => (m.1, arranged m.2) := by
      intro entry hentry
      obtain ⟨m, hm, rfl⟩ := List.mem_map.mp hentry
      obtain ⟨w, hw, hmw⟩ := h m hm
      exact List.mem_map.mpr ⟨(m.1, w), hw, by rw [(hsame m hm _ hw).mp hmw]⟩
    apply (hnames.of_map.subperm hsub).perm_of_length_le
    rw [List.length_map, List.length_map, hlength]
  · intro h
    have hperm : (members.map fun m => (m.1, arranged m.2)).Perm
        (others.map fun m => (m.1, arranged m.2)) :=
      (sortMembers_perm _).symm.trans (h ▸ sortMembers_perm _)
    refine ⟨by simpa using hperm.length_eq, fun m hm => ?_⟩
    have hentry := hperm.mem_iff.mp (List.mem_map_of_mem (f := fun m => (m.1, arranged m.2)) hm)
    obtain ⟨n, hn, heq⟩ := List.mem_map.mp hentry
    obtain ⟨hname, hvalue⟩ := Prod.mk.inj heq
    exact ⟨n.2, hname ▸ hn, (hsame m hm n hn).mpr hvalue.symm⟩

mutual

/-- Two values are the same exactly when they have one arrangement. -/
theorem same_iff_arranged : ∀ {v w : Value}, UniqueNames v → UniqueNames w →
    (Same v w ↔ arranged v = arranged w)
  | .array elements, w, hv, hw => by
    cases w with
    | array others =>
      rw [Same, arranged, arranged, Value.array.injEq]
      exact sameElements_iff_arranged hv hw
    | _ => simp [Same, arranged]
  | .object members, w, hv, hw => by
    cases w with
    | object others =>
      rw [Same, arranged, arranged, Value.object.injEq]
      apply sortMembers_arranged_iff hv.1
      intro m hm n hn
      exact sameMembers_arranged hv.2 m hm (uniqueMembers_iff.mp hw.2 n hn)
    | _ => simp [Same, arranged]
  | .undefined, w, _, _ => by cases w <;> simp [Same, arranged]
  | .null, w, _, _ => by cases w <;> simp [Same, arranged]
  | .boolean b, w, _, _ => by cases w <;> simp [Same, arranged]
  | .number x, w, _, _ => by cases w <;> simp [Same, arranged]
  | .bigint n, w, _, _ => by cases w <;> simp [Same, arranged]
  | .string s, w, _, _ => by cases w <;> simp [Same, arranged]

theorem sameElements_iff_arranged : ∀ {elements others : List Value}, UniqueElements elements →
    UniqueElements others →
    (SameElements elements others ↔ arrangedElements elements = arrangedElements others)
  | [], [], _, _ => by simp [SameElements]
  | [], _ :: _, _, _ => by simp [SameElements, arrangedElements]
  | _ :: _, [], _, _ => by simp [SameElements, arrangedElements]
  | v :: rest, w :: others, hv, hw => by
    rw [SameElements, arrangedElements, arrangedElements, List.cons.injEq,
      same_iff_arranged hv.1 hw.1, sameElements_iff_arranged hv.2 hw.2]

theorem sameMembers_arranged : ∀ {members : Members}, UniqueMembers members →
    ∀ m ∈ members, ∀ {w : Value}, UniqueNames w → (Same m.2 w ↔ arranged m.2 = arranged w)
  | (_, v) :: rest, h, m, hm, w, hw => by
    rcases List.mem_cons.mp hm with rfl | hm
    · exact same_iff_arranged h.1 hw
    · exact sameMembers_arranged h.2 m hm hw

end

end Arrangement
end Concordia.Js
