import Concordia.Python.Ordering
import Concordia.Python.RoundTrip

/-! Dumps in the order of the keys, and what `json.loads` makes of any text. -/
namespace Concordia.Python
open Concordia.Js Concordia.Js.Json

variable {floats : FloatFormat}

section Lookup

theorem lookup_eq_some_iff {d : Dict} (h : (d.map Prod.fst).Nodup) {key : Str} {v : Value} :
    d.lookup key = some v ↔ (key, v) ∈ d := by
  induction d with
  | nil => simp
  | cons item d ih =>
    obtain ⟨k, w⟩ := item
    simp only [List.map_cons, List.nodup_cons] at h
    rw [List.lookup_cons]
    by_cases hk : key = k
    · subst hk
      have hnot : (key, v) ∉ d := fun hmem => h.1 (List.mem_map_of_mem hmem)
      simp [hnot, eq_comm]
    · simp [beq_eq_false_iff_ne.mpr hk, hk, ih h.2]

theorem lookup_perm {d e : Dict} (hd : (d.map Prod.fst).Nodup) (hp : d.Perm e) (key : Str) :
    d.lookup key = e.lookup key := by
  have he : (e.map Prod.fst).Nodup := (hp.map _).nodup_iff.mp hd
  refine Option.ext fun v => ?_
  rw [lookup_eq_some_iff hd, lookup_eq_some_iff he, hp.mem_iff]

theorem lookup_map {d : Dict} (f : Value → Value) (key : Str) :
    (d.map fun item => (item.1, f item.2)).lookup key = (d.lookup key).map f := by
  induction d with
  | nil => rfl
  | cons item d ih =>
    rw [List.map_cons, List.lookup_cons, List.lookup_cons, ih]
    split <;> rfl

end Lookup

section Sorting

theorem sortItems_eq (items : List (Str × Value)) :
    sortItems items = items.map fun item => (item.1, sortKeys item.2) := by
  induction items with
  | nil => rfl
  | cons item items ih => simp [sortItems, ih]

theorem sortElements_eq (elements : List Value) : sortElements elements = elements.map sortKeys := by
  induction elements with
  | nil => rfl
  | cons v elements ih => simp [sortElements, ih]

/-- The order that `sort_keys` gives to items. -/
def sortedItems (items : Dict) : Dict :=
  (items.map fun item => (item.1, sortKeys item.2)).insertionSort fun a b => strLe a.1 b.1

theorem sortKeys_dict (items : Dict) : sortKeys (.dict items) = .dict (sortedItems items) := by
  rw [sortKeys, sortItems_eq, sortedItems]

theorem sortedItems_perm (items : Dict) :
    (sortedItems items).Perm (items.map fun item => (item.1, sortKeys item.2)) :=
  List.perm_insertionSort _ _

theorem sortedItems_keys (items : Dict) :
    ((sortedItems items).map Prod.fst).Perm (items.map Prod.fst) := by
  have h := (sortedItems_perm items).map Prod.fst
  rwa [List.map_map] at h

theorem lookup_sortedItems {items : Dict} (h : (items.map Prod.fst).Nodup) (key : Str) :
    (sortedItems items).lookup key = (items.lookup key).map sortKeys := by
  rw [lookup_perm ((sortedItems_keys items).nodup_iff.mpr h) (sortedItems_perm items), lookup_map]

mutual

theorem wellFormed_sortKeys : ∀ {v : Value}, WellFormed floats v → WellFormed floats (sortKeys v)
  | .none, h | .bool _, h | .int _, h | .float _, h | .str _, h => h
  | .list elements, h => by
    rw [sortKeys]
    exact wellFormed_sortElements h
  | .dict items, h => by
    rw [sortKeys_dict]
    refine ⟨(sortedItems_keys items).nodup_iff.mpr h.1, ?_⟩
    rw [wellFormedItems_iff]
    intro item hitem
    rw [(sortedItems_perm items).mem_iff, ← sortItems_eq] at hitem
    exact (wellFormedItems_iff floats).mp (wellFormed_sortItems h.2) item hitem

theorem wellFormed_sortElements : ∀ {elements : List Value},
    WellFormedElements floats elements → WellFormedElements floats (sortElements elements)
  | [], h => h
  | _ :: _, h => ⟨wellFormed_sortKeys h.1, wellFormed_sortElements h.2⟩

theorem wellFormed_sortItems : ∀ {items : List (Str × Value)},
    WellFormedItems floats items → WellFormedItems floats (sortItems items)
  | [], h => h
  | _ :: _, h => ⟨wellFormed_sortKeys h.1, wellFormed_sortItems h.2⟩

end

theorem sortedItems_sorted (items : Dict) :
    (sortedItems items).Pairwise fun a b => strLe a.1 b.1 = true := by
  have : Std.Total fun a b : Str × Value => strLe a.1 b.1 = true := ⟨fun a b => strLe_total a.1 b.1⟩
  have : IsTrans (Str × Value) fun a b => strLe a.1 b.1 = true := ⟨fun _ _ _ => strLe_trans⟩
  exact List.pairwise_insertionSort _ _

mutual

/-- Sorting twice is sorting once. -/
theorem sortKeys_sortKeys : ∀ v : Value, sortKeys (sortKeys v) = sortKeys v
  | .none | .bool _ | .int _ | .float _ | .str _ => by simp [sortKeys]
  | .list elements => by rw [sortKeys, sortKeys, sortElements_sortElements elements]
  | .dict items => by
    have hitems : sortItems (sortedItems items) = sortedItems items := by
      rw [sortItems_eq]
      refine (List.map_congr_left fun item hitem => ?_).trans (List.map_id _)
      rw [(sortedItems_perm items).mem_iff, ← sortItems_eq] at hitem
      rw [sortItems_sortKeys items item hitem]
      rfl
    rw [sortKeys_dict, sortKeys, hitems, (sortedItems_sorted items).insertionSort_eq]

theorem sortElements_sortElements : ∀ elements : List Value,
    sortElements (sortElements elements) = sortElements elements
  | [] => rfl
  | v :: rest => by
    rw [sortElements, sortElements, sortKeys_sortKeys v, sortElements_sortElements rest]

theorem sortItems_sortKeys : ∀ items : List (Str × Value), ∀ item ∈ sortItems items,
    sortKeys item.2 = item.2
  | [], item, h => absurd h List.not_mem_nil
  | (key, v) :: rest, item, h => by
    rw [sortItems] at h
    rcases List.mem_cons.mp h with rfl | h
    · exact sortKeys_sortKeys v
    · exact sortItems_sortKeys rest item h

end

theorem loads_dumpsSorted {v : Value} (h : WellFormed floats v) :
    loads floats (dumpsSorted v) = some (sortKeys v) :=
  loads_dumps (wellFormed_sortKeys h)

/-- Dictionaries with the same entries, up to the order within them, have one canonical form. -/
theorem sortKeys_congr {d e : Dict} (hd : (d.map Prod.fst).Nodup) (he : (e.map Prod.fst).Nodup)
    (h : ∀ key, (d.lookup key).map sortKeys = (e.lookup key).map sortKeys) :
    sortKeys (.dict d) = sortKeys (.dict e) := by
  have hnodup : ∀ {c : Dict}, (c.map Prod.fst).Nodup → (sortedItems c).Nodup := fun hc =>
    ((sortedItems_keys _).nodup_iff.mpr hc).of_map
  have hmem : ∀ item, item ∈ sortedItems d ↔ item ∈ sortedItems e := by
    rintro ⟨key, v⟩
    rw [← lookup_eq_some_iff ((sortedItems_keys d).nodup_iff.mpr hd), lookup_sortedItems hd,
      ← lookup_eq_some_iff ((sortedItems_keys e).nodup_iff.mpr he), lookup_sortedItems he, h]
  have hperm : (sortedItems d).Perm (sortedItems e) :=
    (List.perm_ext_iff_of_nodup (hnodup hd) (hnodup he)).mpr hmem
  rw [sortKeys_dict, sortKeys_dict]
  congr 1
  refine hperm.eq_of_pairwise ?_ (sortedItems_sorted d) (sortedItems_sorted e)
  intro a b ha hb hab hba
  have hkey := strLe_antisymm hab hba
  obtain ⟨key, v⟩ := a
  obtain ⟨key', w⟩ := b
  obtain rfl : key = key' := hkey
  have hsorted := (sortedItems_keys d).nodup_iff.mpr hd
  have hv := (lookup_eq_some_iff hsorted).mpr ha
  have hw := (lookup_eq_some_iff hsorted).mpr ((hmem _).mpr hb)
  rw [Option.some.inj (hv.symm.trans hw)]

/-- Dictionaries with one canonical text have the same entries, up to the order within them. -/
theorem lookup_of_dumpsSorted {d e : Dict} (hd : WellFormed floats (.dict d))
    (he : WellFormed floats (.dict e)) (h : dumpsSorted (.dict d) = dumpsSorted (.dict e))
    (key : Str) : (d.lookup key).map sortKeys = (e.lookup key).map sortKeys := by
  have hsort := dumps_injective (wellFormed_sortKeys hd) (wellFormed_sortKeys he) h
  rw [sortKeys_dict, sortKeys_dict, Value.dict.injEq] at hsort
  rw [← lookup_sortedItems hd.1, ← lookup_sortedItems he.1, hsort]

end Sorting

section Loads

theorem Dict.mem_set {d : Dict} {key : Str} {v : Value} {item : Str × Value}
    (h : item ∈ d.set key v) : item = (key, v) ∨ item ∈ d := by
  induction d with
  | nil => simpa [Dict.set] using h
  | cons first d ih =>
    rw [Dict.set] at h
    split at h
    · rcases List.mem_cons.mp h with rfl | h
      · exact .inl rfl
      · exact .inr (List.mem_cons_of_mem _ h)
    · rcases List.mem_cons.mp h with rfl | h
      · exact .inr List.mem_cons_self
      · exact (ih h).imp id (List.mem_cons_of_mem _)

theorem Dict.lookup_set_self (d : Dict) (key : Str) (v : Value) :
    (d.set key v).lookup key = some v := by
  induction d with
  | nil => simp [Dict.set]
  | cons item d ih =>
    rw [Dict.set]
    split
    · simp
    · rename_i hkey
      rw [List.lookup_cons, beq_eq_false_iff_ne.mpr (Ne.symm hkey)]
      exact ih

theorem Dict.lookup_set_other {d : Dict} {key name : Str} (h : name ≠ key) (v : Value) :
    (d.set key v).lookup name = d.lookup name := by
  induction d with
  | nil => simp [Dict.set, List.lookup_cons, beq_eq_false_iff_ne.mpr h]
  | cons item d ih =>
    rw [Dict.set]
    split
    · rename_i hkey
      rw [List.lookup_cons, List.lookup_cons, beq_eq_false_iff_ne.mpr h,
        beq_eq_false_iff_ne.mpr (hkey ▸ h)]
    · rw [List.lookup_cons, List.lookup_cons, ih]

theorem Dict.set_keys (d : Dict) (key : Str) (v : Value) : (d.set key v).map Prod.fst =
    if key ∈ d.map Prod.fst then d.map Prod.fst else d.map Prod.fst ++ [key] := by
  induction d with
  | nil => rfl
  | cons first d ih =>
    rw [Dict.set]
    by_cases hk : first.1 = key
    · simp [hk]
    · rw [if_neg hk, List.map_cons, ih]
      by_cases hmem : key ∈ d.map Prod.fst <;> simp_all [eq_comm]

theorem Dict.set_nodup {d : Dict} (h : (d.map Prod.fst).Nodup) (key : Str) (v : Value) :
    ((d.set key v).map Prod.fst).Nodup := by
  rw [Dict.set_keys]
  split
  · exact h
  · rename_i hnew
    exact List.nodup_append.mpr ⟨h, List.nodup_singleton _, by
      rintro a ha b hb rfl
      exact hnew (List.mem_singleton.mp hb ▸ ha)⟩

theorem wellFormed_set {d : Dict} (h : WellFormed floats (.dict d)) {v : Value}
    (hv : WellFormed floats v) (key : Str) : WellFormed floats (.dict (d.set key v)) := by
  refine ⟨Dict.set_nodup h.1 key v, (wellFormedItems_iff floats).mpr fun item hitem => ?_⟩
  rcases Dict.mem_set hitem with rfl | hitem
  · exact hv
  · exact (wellFormedItems_iff floats).mp h.2 item hitem

theorem wellFormed_lookup {d : Dict} (h : WellFormed floats (.dict d)) {key : Str} {v : Value}
    (hv : d.lookup key = some v) : WellFormed floats v :=
  (wellFormedItems_iff floats).mp h.2 (key, v) ((lookup_eq_some_iff h.1).mp hv)

theorem wellFormed_ofPairs {items : List (Str × Value)} (h : WellFormedItems floats items) :
    WellFormed floats (.dict (Dict.ofPairs items)) := by
  have hgo : ∀ {items : List (Str × Value)}, WellFormedItems floats items → ∀ {acc : Dict},
      WellFormed floats (.dict acc) →
        WellFormed floats
          (.dict (items.foldl (fun (d : Dict) item => d.set item.1 item.2) acc)) := by
    intro items
    induction items with
    | nil => exact fun _ _ hacc => hacc
    | cons item items ih =>
      intro hitems acc hacc
      exact ih hitems.2 (wellFormed_set hacc hitems.1 item.1)
  exact hgo h ⟨List.nodup_nil, trivial⟩

mutual

theorem wellFormed_scanValue : ∀ {fuel : Nat} {source : Str} {v : Value} {after : Str},
    scanValue floats fuel source = some (v, after) → WellFormed floats v
  | 0, _, _, _, h => by cases h
  | fuel + 1, source, v, after, h => by
    rw [scanValue] at h
    dsimp only at h
    split_ifs at h
    · obtain ⟨⟨s, _⟩, -, heq⟩ := Option.map_eq_some_iff.mp h
      cases heq
      trivial
    · cases h
      exact ⟨List.nodup_nil, trivial⟩
    · obtain ⟨⟨items, _⟩, hitems, heq⟩ := Option.map_eq_some_iff.mp h
      cases heq
      exact wellFormed_ofPairs (wellFormed_scanItems hitems)
    · cases h
      trivial
    · obtain ⟨⟨elements, _⟩, helements, heq⟩ := Option.map_eq_some_iff.mp h
      cases heq
      exact wellFormed_scanElements helements
    · cases h
      trivial
    · cases h
      trivial
    · cases h
      trivial
    · unfold scanNumber at h
      split at h
      · rename_i n _ _
        cases h
        split
        · exact floats.repr_float n (by assumption)
        · trivial
      · split_ifs at h <;> cases h
        · exact .inl rfl
        · exact .inr (.inl rfl)
        · exact .inr (.inr (.inl rfl))

theorem wellFormed_scanItems : ∀ {fuel : Nat} {source : Str} {items : List (Str × Value)}
    {after : Str}, scanItems floats fuel source = some (items, after) →
      WellFormedItems floats items
  | 0, _, _, _, h => by cases h
  | fuel + 1, source, items, after, h => by
    rw [scanItems] at h
    split_ifs at h
    simp only [Option.bind_eq_bind, Option.bind_eq_some_iff] at h
    obtain ⟨⟨key, behind⟩, -, h⟩ := h
    dsimp only at h
    split_ifs at h
    obtain ⟨⟨v, behind⟩, hv, h⟩ := Option.bind_eq_some_iff.mp h
    dsimp only at h
    split_ifs at h
    · cases h
      exact ⟨wellFormed_scanValue hv, trivial⟩
    · obtain ⟨⟨rest, _⟩, hrest, h⟩ := Option.bind_eq_some_iff.mp h
      cases h
      exact ⟨wellFormed_scanValue hv, wellFormed_scanItems hrest⟩

theorem wellFormed_scanElements : ∀ {fuel : Nat} {source : Str} {elements : List Value}
    {after : Str}, scanElements floats fuel source = some (elements, after) →
      WellFormedElements floats elements
  | 0, _, _, _, h => by cases h
  | fuel + 1, source, elements, after, h => by
    rw [scanElements] at h
    simp only [Option.bind_eq_bind, Option.bind_eq_some_iff] at h
    obtain ⟨⟨v, behind⟩, hv, h⟩ := h
    dsimp only at h
    split_ifs at h
    · cases h
      exact ⟨wellFormed_scanValue hv, trivial⟩
    · obtain ⟨⟨rest, _⟩, hrest, h⟩ := Option.bind_eq_some_iff.mp h
      cases h
      exact ⟨wellFormed_scanValue hv, wellFormed_scanElements hrest⟩

end

theorem wellFormed_loads {source : Str} {v : Value} (h : loads floats source = some v) :
    WellFormed floats v := by
  unfold loads at h
  split at h
  · rename_i hscan
    split_ifs at h
    cases h
    exact wellFormed_scanValue hscan
  · cases h

end Loads
end Concordia.Python
