import Mathlib.Data.Finset.Card
import NandTools.Path.Map
import NandTools.Proofs.Path.Order

/-! Maps by path have their entries in path order, one for each path. So they have as many entries
as there are different paths, and an update changes the value at its own path only. -/
namespace NandTools.PathMap

variable {α : Type} {map : PathMap α}

/-- Entries stand in path order, and no two of them belong to the same path. -/
def Sorted (map : PathMap α) : Prop := map.Pairwise fun a b => a.1.compare b.1 = .lt

/-- The paths that have a value, as the steps that they name. -/
def keys (map : PathMap α) : List (List PathStep) := map.map fun entry => entry.1.steps

theorem nodup_keys (sorted : map.Sorted) : map.keys.Nodup := by
  rw [keys, List.nodup_iff_pairwise_ne, List.pairwise_map]
  apply sorted.imp
  intro a b before same
  simp [Path.compare_eq_eq_iff.mpr same] at before

/-- A key of a sorted map is counted once, so entries are counted by their keys. -/
theorem length_filter (sorted : map.Sorted) {q : Path × α → Bool} {P : List PathStep → Prop}
    [DecidablePred P] (agrees : ∀ entry ∈ map, q entry = true ↔ P entry.1.steps) :
    (map.filter q).length = (map.keys.toFinset.filter P).card := by
  have kept : (keys (map.filter q)).Nodup := nodup_keys (List.Pairwise.filter q sorted)
  have length : (keys (map.filter q)).length = (map.filter q).length := List.length_map _
  rw [← length, ← List.toFinset_card_of_nodup kept]
  congr 1
  ext place
  simp only [keys, List.mem_toFinset, List.mem_map, List.mem_filter, Finset.mem_filter]
  constructor
  · rintro ⟨entry, ⟨among, passes⟩, rfl⟩
    exact ⟨⟨entry, among, rfl⟩, (agrees entry among).mp passes⟩
  · rintro ⟨⟨entry, among, rfl⟩, holds⟩
    exact ⟨entry, ⟨among, (agrees entry among).mpr holds⟩, rfl⟩

theorem length_eq (sorted : map.Sorted) : map.length = map.keys.toFinset.card := by
  rw [List.toFinset_card_of_nodup (nodup_keys sorted), keys, List.length_map]

section Find

variable {path : Path}

theorem has_iff : map.has path = true ↔ path.steps ∈ map.keys := by
  simp [has, find?, keys, Path.compare_eq_eq_iff]

theorem find?_eq_none_iff : map.find? path = none ↔ path.steps ∉ map.keys := by
  rw [← has_iff, has, Option.not_isSome_iff_eq_none]

/-- What is found at a path is the value of an entry with its steps. -/
theorem mem_of_find? {value : α} (found : map.find? path = some value) :
    ∃ other, other.steps = path.steps ∧ (other, value) ∈ map := by
  obtain ⟨⟨other, value⟩, first, rfl⟩ := Option.map_eq_some_iff.mp found
  have same := List.find?_some first
  simp only [beq_iff_eq, Path.compare_eq_eq_iff] at same
  exact ⟨other, same, List.mem_of_find?_eq_some first⟩

theorem find?_cons (entry : Path × α) (rest : PathMap α) : find? (entry :: rest) path =
    if entry.1.steps = path.steps then some entry.2 else find? rest path := by
  by_cases same : entry.1.steps = path.steps
  · simp [find?, Path.compare_eq_eq_iff.mpr same, same]
  · have other : ¬(entry.1.compare path == .eq) = true := by
      simpa [Path.compare_eq_eq_iff] using same
    simp [find?, other, same]

end Find

section Update

variable {path : Path} {f : Option α → α}

theorem mem_keys_update {place : List PathStep} :
    place ∈ keys (update path f map) ↔ place = path.steps ∨ place ∈ keys map := by
  induction map with
  | nil => simp [update, keys]
  | cons entry rest ih =>
    obtain ⟨other, value⟩ := entry
    unfold update
    split
    · simp [keys]
    · next same => simp [keys, Path.compare_eq_eq_iff.mp same]
    · simp only [keys, List.map_cons, List.mem_cons] at ih ⊢
      rw [ih]
      tauto

theorem toFinset_keys_update :
    (keys (update path f map)).toFinset = (keys map).toFinset ∪ {path.steps} := by
  ext file
  simp [mem_keys_update]

/-- A path that stands before the first entry of a sorted map stands before all of them. -/
private theorem lt_of_lt_head {entry : Path × α} {rest : PathMap α}
    (sorted : Sorted (entry :: rest)) (less : path.compare entry.1 = .lt) :
    ∀ other ∈ entry :: rest, path.compare other.1 = .lt := by
  intro other among
  rcases List.mem_cons.mp among with rfl | among
  · exact less
  · exact Std.TransCmp.lt_trans less (List.rel_of_pairwise_cons sorted among)

private theorem steps_ne_of_lt {a b : Path} (less : a.compare b = .lt) : b.steps ≠ a.steps := by
  intro same
  simp [Path.compare_eq_eq_iff.mpr same.symm] at less

/-- An update changes the value at its path, or enters one, and keeps all others. -/
theorem of_mem_update (sorted : Sorted map) {entry : Path × α}
    (among : entry ∈ update path f map) :
    entry.1.steps = path.steps ∧ entry.2 = f (find? map path) ∨
      entry.1.steps ≠ path.steps ∧ entry ∈ map := by
  induction map with
  | nil =>
    rw [update, List.mem_singleton] at among
    simp [among, find?]
  | cons first rest ih =>
    obtain ⟨other, value⟩ := first
    unfold update at among
    split at among
    · next less =>
      have after := lt_of_lt_head sorted less
      rcases List.mem_cons.mp among with rfl | among
      · left
        refine ⟨rfl, congrArg f (Eq.symm (find?_eq_none_iff.mpr ?_))⟩
        intro member
        obtain ⟨entry, among, same⟩ := List.mem_map.mp member
        exact steps_ne_of_lt (after entry among) same
      · exact .inr ⟨steps_ne_of_lt (after entry among), among⟩
    · next same =>
      have steps := Path.compare_eq_eq_iff.mp same
      rcases List.mem_cons.mp among with rfl | among
      · simp [find?_cons, steps]
      · right
        refine ⟨?_, List.mem_cons_of_mem _ among⟩
        rw [steps]
        exact steps_ne_of_lt (List.rel_of_pairwise_cons sorted among)
    · next greater =>
      have differs : other.steps ≠ path.steps :=
        (steps_ne_of_lt (Std.OrientedCmp.gt_iff_lt.mp greater)).symm
      rw [find?_cons, if_neg differs]
      rcases List.mem_cons.mp among with rfl | among
      · exact .inr ⟨differs, List.mem_cons_self⟩
      · exact (ih sorted.of_cons among).imp_right fun kept =>
          ⟨kept.1, List.mem_cons_of_mem _ kept.2⟩

theorem sorted_update (sorted : Sorted map) : Sorted (update path f map) := by
  induction map with
  | nil => simp [update, Sorted]
  | cons entry rest ih =>
    obtain ⟨other, value⟩ := entry
    unfold update
    split
    · next less => exact List.pairwise_cons.mpr ⟨lt_of_lt_head sorted less, sorted⟩
    · exact List.pairwise_cons.mpr (List.pairwise_cons.mp sorted)
    · next greater =>
      apply List.pairwise_cons.mpr
      refine ⟨?_, ih sorted.of_cons⟩
      intro entry among
      rcases of_mem_update sorted.of_cons among with ⟨same, _⟩ | ⟨_, kept⟩
      · have less := Std.OrientedCmp.gt_iff_lt.mp greater
        rwa [← Std.TransCmp.congr_right (Path.compare_eq_eq_iff.mpr same.symm)]
      · exact List.rel_of_pairwise_cons sorted kept

end Update

end NandTools.PathMap
