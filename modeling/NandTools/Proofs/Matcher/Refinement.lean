import Mathlib.Data.List.TakeDrop
import Mathlib.Tactic.SplitIfs
import NandTools.Proofs.Grammar.Neighbours
import NandTools.Proofs.Matcher.InPlace

/-! An attempt does in place what a matcher does. Places in groups are slots in a row, and the search
through the groups finds the place that the search through the slots finds. -/
namespace NandTools

namespace Layout

variable {layout : Layout} {place old : Place} {spot : Nat × Nat} {tree : Tree}

def slots (layout : Layout) : List Slot := layout.flatten.map Place.slot

/-- How many places stand before this one. -/
def offset (layout : Layout) (spot : Nat × Nat) : Nat :=
  (layout.take spot.1).flatten.length + spot.2

/-- A place, with what stands around it. -/
inductive Split : Layout → Nat × Nat → Place → Prop where
  | around (front back : Layout) (before after : List Place) (place : Place) :
      Split (front ++ (before ++ place :: after) :: back) (front.length, before.length) place

theorem split_of_at (found : layout.at? spot = some place) : Split layout spot place := by
  obtain ⟨group, i⟩ := spot
  obtain ⟨places, inside, member⟩ := Option.bind_eq_some_iff.mp found
  obtain ⟨below, rfl⟩ := List.getElem?_eq_some_iff.mp inside
  obtain ⟨within, rfl⟩ := List.getElem?_eq_some_iff.mp member
  have whole := Split.around (layout.take group) (layout.drop (group + 1)) (layout[group].take i)
    (layout[group].drop (i + 1)) layout[group][i]
  simpa [Nat.le_of_lt below, Nat.le_of_lt within] using whole

section around

variable (front back : Layout) (before after : List Place) (place new : Place)

theorem at_around :
    at? (front ++ (before ++ place :: after) :: back) (front.length, before.length) =
      some place := by
  simp [at?]

theorem put_around :
    put (front ++ (before ++ place :: after) :: back) (front.length, before.length) new =
      front ++ (before ++ new :: after) :: back := by
  induction front with
  | nil => simp [put]
  | cons places front ih => exact congrArg (places :: ·) ih

theorem slots_around :
    slots (front ++ (before ++ place :: after) :: back) =
      (front.flatten ++ before).map Place.slot ++
        place.slot :: (after ++ back.flatten).map Place.slot := by
  simp [slots, List.map_flatten]

theorem offset_around :
    offset (front ++ (before ++ place :: after) :: back) (front.length, before.length) =
      ((front.flatten ++ before).map Place.slot).length := by
  rw [offset, List.take_left, List.length_map, List.length_append]

end around

theorem slot_of_at (found : layout.at? spot = some place) :
    layout.slots[layout.offset spot]? = some place.slot := by
  cases split_of_at found with
  | around front back before after =>
    rw [offset_around, slots_around, List.getElem?_append_right (Nat.le_refl _), Nat.sub_self]
    rfl

theorem slots_put (found : layout.at? spot = some old) (place : Place) :
    (layout.put spot place).slots = layout.slots.set (layout.offset spot) place.slot := by
  cases split_of_at found with
  | around front back before after =>
    rw [put_around, slots_around, slots_around, offset_around,
      List.set_append_right _ _ (Nat.le_refl _), Nat.sub_self]
    rfl

theorem at_put (found : layout.at? spot = some old) (place : Place) :
    (layout.put spot place).at? spot = some place := by
  cases split_of_at found with
  | around => rw [put_around, at_around]

theorem put_self (found : layout.at? spot = some place) : layout.put spot place = layout := by
  cases split_of_at found with
  | around => rw [put_around]

def Sound (layout : Layout) : Prop := ∀ place ∈ layout.flatten, place.Sound

theorem Sound.at (sound : layout.Sound) (found : layout.at? spot = some place) : place.Sound := by
  cases split_of_at found with
  | around => exact sound place (by simp)

theorem Sound.put (sound : layout.Sound) (found : layout.at? spot = some old)
    (fine : place.Sound) : (layout.put spot place).Sound := by
  cases split_of_at found with
  | around front back before after =>
    intro other member
    rw [put_around] at member
    simp only [List.flatten_append, List.flatten_cons, List.mem_append, List.mem_cons] at member
    rcases member with early | (beside | rfl | beside) | late
    · exact sound other (by simp [early])
    · exact sound other (by simp [beside])
    · exact fine
    · exact sound other (by simp [beside])
    · exact sound other (by simp [late])

/-- The layout with nothing matched yet. -/
def cleared (layout : Layout) : Layout := layout.map fun places => places.map Place.cleared

theorem at_cleared (layout : Layout) (spot : Nat × Nat) :
    layout.cleared.at? spot = (layout.at? spot).map Place.cleared := by
  simp only [at?, cleared, List.getElem?_map, Option.bind_map, Option.map_bind]
  congr 1
  funext places
  simp

theorem cleared_put (found : layout.at? spot = some old) (alike : place.cleared = old.cleared) :
    (layout.put spot place).cleared = layout.cleared := by
  cases split_of_at found with
  | around =>
    rw [put_around]
    simp [cleared, alike]

/-- The fields of each group have its number, where the first group has this one. -/
def numbered : Nat → Layout → Bool
  | _, [] => true
  | group, places :: rest =>
    places.all (·.field.group == group) && numbered (group + 1) rest

theorem numbered_cleared (group : Nat) (layout : Layout) :
    numbered group layout.cleared = numbered group layout := by
  induction layout generalizing group with
  | nil => rfl
  | cons places rest ih =>
    have same := ih (group + 1)
    simp only [cleared, List.map_cons, numbered, List.all_map] at same ⊢
    rw [same]
    rfl

theorem group_of_at {group : Nat} (counted : numbered group layout = true)
    (found : layout.at? spot = some place) : place.field.group = group + spot.1 := by
  obtain ⟨skipped, i⟩ := spot
  induction layout generalizing group skipped with
  | nil => cases found
  | cons places rest ih =>
    simp only [numbered, Bool.and_eq_true, List.all_eq_true, beq_iff_eq] at counted
    cases skipped with
    | zero => exact counted.1 place (List.mem_of_getElem? found)
    | succ skipped =>
      rw [ih counted.2 skipped found]
      omega

theorem le_group_of_numbered {group : Nat} (counted : numbered group layout = true) :
    ∀ slot ∈ layout.slots, group ≤ slot.field.group := by
  induction layout generalizing group with
  | nil => intro slot member; cases member
  | cons places rest ih =>
    simp only [numbered, Bool.and_eq_true, List.all_eq_true, beq_iff_eq] at counted
    intro slot member
    simp only [slots, List.flatten_cons, List.map_append, List.mem_append, List.mem_map] at member
    rcases member with ⟨place, here, rfl⟩ | ⟨place, there, rfl⟩
    · exact Nat.le_of_eq (counted.1 place here).symm
    · exact Nat.le_of_succ_le (ih counted.2 _ (List.mem_map_of_mem there))

end Layout

namespace Matcher

variable {tree : Tree} {start start' k : Nat} {slots : List Slot}

/-- Slots of earlier groups are passed over. -/
theorem seek_skip {front : List Slot} (early : ∀ slot ∈ front, slot.field.group < start)
    (k : Nat) (rest : List Slot) :
    seek tree start k (front ++ rest) = seek tree start (k + front.length) rest := by
  induction front generalizing k with
  | nil => rfl
  | cons slot front ih =>
    have before := early slot List.mem_cons_self
    rw [List.cons_append, seek, if_pos (by simp [before]),
      ih (fun other member => early other (List.mem_cons_of_mem slot member)), List.length_cons]
    congr 1
    omega

/-- Where the search begins does not matter among slots of later groups. -/
theorem seek_start (late : ∀ slot ∈ slots, start' ≤ slot.field.group) (le : start ≤ start')
    (k : Nat) : seek tree start k slots = seek tree start' k slots := by
  induction slots generalizing k with
  | nil => rfl
  | cons slot rest ih =>
    have here := late slot List.mem_cons_self
    have same := fun k => ih (fun other member => late other (List.mem_cons_of_mem slot member)) k
    have open_ : ¬ slot.field.group < start := by omega
    have open' : ¬ slot.field.group < start' := by omega
    simp only [seek, open_, open', decide_false, Bool.false_or, same]

end Matcher

namespace Layout

open Matcher (seek)

variable {layout : Layout} {places : List Place} {tree : Tree} {group : Nat}

/-- Place by place, a group is searched as slots in a row are. -/
theorem searchGroup_cons {place : Place} (sound : place.Sound) (tree : Tree) (rest : List Place) :
    searchGroup tree (place :: rest) =
      if place.slot.bound then
        ((searchGroup tree rest).1.later, place :: (searchGroup tree rest).2)
      else if place.slot.takes tree then (.taken 0, place.matched :: rest)
      else if !place.slot.isSatisfied then (.barred, place :: rest)
      else if place.slot.field.chained && !place.slot.matched then (.passed, place :: rest)
      else ((searchGroup tree rest).1.later, place :: (searchGroup tree rest).2) := by
  have unmatched : (place.count == 0) = !place.slot.matched := by
    cases count : place.count <;> simp [Place.slot, count]
  rw [searchGroup, Place.take_eq sound]
  by_cases taken : place.slot.takes tree = true
  · rw [if_pos taken, if_pos taken]
    rfl
  · rw [if_neg taken, if_neg taken]
    dsimp only
    rw [unmatched]
    rfl

/-- A search through one group marks the place that takes the child, and changes nothing else. -/
theorem searchGroup_changes (sound : ∀ place ∈ places, place.Sound) (tree : Tree) :
    (∃ i place, places[i]? = some place ∧
      searchGroup tree places = (.taken i, places.set i place.matched)) ∨
    searchGroup tree places = (.barred, places) ∨ searchGroup tree places = (.passed, places) := by
  induction places with
  | nil => exact .inr (.inr rfl)
  | cons place rest ih =>
    have onward : ∀ out, out = ((searchGroup tree rest).1.later,
        place :: (searchGroup tree rest).2) →
        (∃ i other, (place :: rest)[i]? = some other ∧
          out = (.taken i, (place :: rest).set i other.matched)) ∨
        out = (.barred, place :: rest) ∨ out = (.passed, place :: rest) := by
      rintro _ rfl
      rcases ih fun other member => sound other (List.mem_cons_of_mem place member) with
        ⟨i, other, found, taken⟩ | barred | passed
      · refine .inl ⟨i + 1, other, found, ?_⟩
        rw [taken]
        rfl
      · rw [barred]
        exact .inr (.inl rfl)
      · rw [passed]
        exact .inr (.inr rfl)
    rw [searchGroup_cons (sound place List.mem_cons_self)]
    split_ifs
    · exact onward _ rfl
    · exact .inl ⟨0, place, rfl, rfl⟩
    · exact .inr (.inl rfl)
    · exact .inr (.inr rfl)
    · exact onward _ rfl

/-- A search through slots in a row goes through the slots of a group as a search through the group
does. -/
theorem seek_group (sound : ∀ place ∈ places, place.Sound)
    (counted : ∀ place ∈ places, place.field.group = group) {start : Nat} (begun : start ≤ group)
    {rest : List Slot} (late : ∀ slot ∈ rest, group + 1 ≤ slot.field.group) (k : Nat) :
    seek tree start k (places.map Place.slot ++ rest) =
      match (searchGroup tree places).1 with
      | .taken i => some (k + i)
      | .barred => none
      | .passed => seek tree (group + 1) (k + places.length) rest := by
  induction places generalizing k with
  | nil => exact Matcher.seek_start late (Nat.le_succ_of_le begun) k
  | cons place others ih =>
    have here : place.field.group = group := counted place List.mem_cons_self
    have counted := fun other member => counted other (List.mem_cons_of_mem place member)
    have onward : seek tree start (k + 1) (others.map Place.slot ++ rest) =
        match (searchGroup tree others).1.later with
        | .taken i => some (k + i)
        | .barred => none
        | .passed => seek tree (group + 1) (k + (others.length + 1)) rest := by
      rw [ih (fun other member => sound other (List.mem_cons_of_mem place member)) counted (k + 1)]
      cases (searchGroup tree others).1 <;>
        simp only [Finding.later, Nat.add_assoc, Nat.add_comm 1]
    have hidden : seek tree (group + 1) (k + 1) (others.map Place.slot ++ rest) =
        seek tree (group + 1) (k + (others.length + 1)) rest := by
      rw [Matcher.seek_skip, List.length_map, Nat.add_assoc, Nat.add_comm 1]
      intro slot member
      obtain ⟨other, inside, rfl⟩ := List.mem_map.mp member
      exact Nat.lt_succ_of_le (Nat.le_of_eq (counted other inside))
    have open_ : decide (place.slot.field.group < start) = false := by
      simpa [here] using begun
    rw [List.map_cons, List.cons_append, seek, searchGroup_cons (sound place List.mem_cons_self),
      List.length_cons, open_, Bool.false_or, Place.slot_field, here]
    split_ifs
    · exact onward
    · rfl
    · rfl
    · exact hidden
    · exact onward

/-- A search through all groups marks the place that takes the child, and changes nothing else. -/
theorem search_changes (sound : layout.Sound) (tree : Tree) (skipped : Nat) :
    (∃ spot place, layout.at? spot = some place ∧
      layout.search tree skipped = (some spot, layout.put spot place.matched)) ∨
    layout.search tree skipped = (none, layout) := by
  induction layout generalizing skipped with
  | nil => exact .inr rfl
  | cons places rest ih =>
    have here : ∀ place ∈ places, place.Sound := fun place member => sound place (by simp [member])
    have there : Sound rest := fun place member => sound place (by simp [member])
    have onward : ∀ skipped, ∀ out, out = (((search tree skipped rest).1.map fun spot =>
        (spot.1 + 1, spot.2)), places :: (search tree skipped rest).2) →
        (∃ spot place, at? (places :: rest) spot = some place ∧
          out = (some spot, put (places :: rest) spot place.matched)) ∨
        out = (none, places :: rest) := by
      intro skipped out outcome
      subst outcome
      rcases ih there skipped with ⟨spot, place, found, taken⟩ | refused
      · exact .inl ⟨(spot.1 + 1, spot.2), place, found, by rw [taken]; rfl⟩
      · exact .inr (by rw [refused]; rfl)
    cases skipped with
    | succ skipped => exact onward skipped _ rfl
    | zero =>
      rw [search]
      rcases searchGroup_changes here tree with ⟨i, place, found, taken⟩ | barred | passed
      · refine .inl ⟨(0, i), place, found, ?_⟩
        rw [taken]
        rfl
      · exact .inr (by rw [barred])
      · rw [passed]
        exact onward 0 _ rfl

theorem offset_cons (places : List Place) (rest : Layout) (spot : Nat × Nat) :
    offset (places :: rest) (spot.1 + 1, spot.2) = places.length + rest.offset spot := by
  simp [offset, Nat.add_assoc]

theorem slots_cons (places : List Place) (rest : Layout) :
    slots (places :: rest) = places.map Place.slot ++ slots rest := by
  simp [slots]

/-- The search through the slots finds what the search through the groups finds. -/
theorem seek_slots (sound : layout.Sound) (counted : numbered group layout = true)
    (skipped k : Nat) :
    seek tree (group + skipped) k layout.slots =
      (layout.search tree skipped).1.map fun spot => k + layout.offset spot := by
  induction layout generalizing group skipped k with
  | nil => rfl
  | cons places rest ih =>
    have here : ∀ place ∈ places, place.Sound := fun place member => sound place (by simp [member])
    have there : Sound rest := fun place member => sound place (by simp [member])
    simp only [numbered, Bool.and_eq_true, List.all_eq_true, beq_iff_eq] at counted
    have onward : ∀ skipped, seek tree (group + 1 + skipped) (k + places.length) (slots rest) =
        ((search tree skipped rest).1.map fun spot => (spot.1 + 1, spot.2)).map
          fun spot => k + offset (places :: rest) spot := by
      intro skipped
      rw [ih there counted.2 skipped, Option.map_map]
      congr 1
      funext spot
      rw [Function.comp_apply, offset_cons, Nat.add_assoc]
    rw [slots_cons]
    cases skipped with
    | succ skipped =>
      rw [Matcher.seek_skip, List.length_map, ← Nat.add_assoc, Nat.add_right_comm]
      · exact onward skipped
      · intro slot member
        obtain ⟨place, inside, rfl⟩ := List.mem_map.mp member
        have equal : place.slot.field.group = group := counted.1 place inside
        omega
    | zero =>
      rw [Nat.add_zero, seek_group here counted.1 (Nat.le_refl group)
        (le_group_of_numbered counted.2), search]
      rcases searchGroup tree places with ⟨finding, changed⟩
      cases finding with
      | taken i => simp [offset]
      | barred => rfl
      | passed => exact onward 0

theorem offset_put {spot : Nat × Nat} {old : Place} (found : layout.at? spot = some old)
    (place : Place) (i : Nat) : (layout.put spot place).offset (spot.1, i) =
      layout.offset (spot.1, i) := by
  cases split_of_at found with
  | around => simp [put_around, offset]

section ofRule

variable (rule : Rule)

theorem slots_ofRule : (ofRule rule).slots = Slot.ofFields false rule.fields := by
  cases rule <;> rfl

theorem cleared_ofRule : (ofRule rule).cleared = ofRule rule := by
  cases rule <;> rfl

theorem numbered_ofRule : numbered 0 (ofRule rule) = true := by
  cases rule <;> rfl

theorem sound_ofRule : (ofRule rule).Sound := by
  intro place member
  rw [← cleared_ofRule, cleared, List.mem_flatten] at member
  obtain ⟨places, inside, member⟩ := member
  obtain ⟨fresh, _, rfl⟩ := List.mem_map.mp inside
  obtain ⟨place, _, rfl⟩ := List.mem_map.mp member
  rfl

/-- A field that demands the next one has a next one in its group. -/
private theorem demands_all : ∀ rule ∈ Rule.all, ∀ places ∈ ofRule rule, ∀ i < places.length,
    (places[i]?.all fun place => !place.field.demandsNext || places[i + 1]?.isSome) = true := by
  decide +kernel

theorem exists_next_ofRule {rule : Rule} {spot : Nat × Nat} {place : Place}
    (found : (ofRule rule).at? spot = some place) (demands : place.field.demandsNext = true) :
    ∃ next, (ofRule rule).at? (spot.1, spot.2 + 1) = some next := by
  obtain ⟨places, group, inside⟩ := Option.bind_eq_some_iff.mp found
  obtain ⟨below, _⟩ := List.getElem?_eq_some_iff.mp inside
  have demanded := demands_all rule rule.mem_all places (List.mem_of_getElem? group) spot.2 below
  rw [inside, Option.all_some, demands] at demanded
  obtain ⟨next, after⟩ := Option.isSome_iff_exists.mp demanded
  exact ⟨next, by rw [at?, group]; exact after⟩

end ofRule

end Layout

theorem Slot.required_ofFields (bound : Bool) (fields : List Field) :
    ((Slot.ofFields bound fields).find? fun slot => !slot.isSatisfied).map (·.field) =
      fields.find? (·.required) := by
  induction fields generalizing bound with
  | nil => rfl
  | cons field rest ih =>
    cases required : field.required with
    | true => simp [ofFields, isSatisfied, required]
    | false => simpa [ofFields, isSatisfied, required] using ih field.demandsNext

namespace Attempt

open Matcher (Call Reply)

variable {a : Attempt} {tree : Tree}

/-- The matcher that the attempt is. -/
def matcher (a : Attempt) : Matcher where
  rule := a.rule
  slots := a.layout.slots
  taken := a.children.reverse
  closed := a.closed
  stage := a.stage
  group := a.group
  lastGroup? := a.lastGroup?
  demanded? := a.demanded?.map a.layout.offset

/-- A required field without a match is the same whether or not the places have been made. -/
theorem unsatisfied_eq (a : Attempt) : a.unsatisfied? = a.matcher.unsatisfied? := by
  rw [Attempt.unsatisfied?, Matcher.unsatisfied?, matcher, Attempt.layout]
  cases a.layout? with
  | some layout =>
    rw [Option.getD_some, Layout.slots, List.find?_map, Option.map_map]
    rfl
  | none => rw [Option.getD_none, Layout.slots_ofRule, Slot.required_ofFields]

/-- The places are those of the production, and the place that is demanded is among them. -/
structure Laid (a : Attempt) : Prop where
  cleared : a.layout.cleared = .ofRule a.rule
  sound : a.layout.Sound
  demanded : ∀ spot, a.demanded? = some spot →
    ∃ layout place, a.layout? = some layout ∧ layout.at? spot = some place

theorem laid_ofRule (rule : Rule) : (ofRule rule).Laid where
  cleared := Layout.cleared_ofRule rule
  sound := Layout.sound_ofRule rule
  demanded := by intro spot demanded; cases demanded

theorem matcher_ofRule (rule : Rule) : (ofRule rule).matcher = .ofRule rule := by
  rw [matcher, layout, ofRule, Option.getD_none, Layout.slots_ofRule]
  rfl

namespace Laid

theorem numbered (laid : a.Laid) : Layout.numbered 0 a.layout = true := by
  rw [← Layout.numbered_cleared, laid.cleared]
  exact Layout.numbered_ofRule a.rule

/-- The place that takes the next child has the slot that takes it. -/
theorem find (laid : a.Laid) (tree : Tree) :
    (∃ spot place, a.layout.at? spot = some place ∧
      a.find tree = some (some spot, a.layout.put spot place.matched) ∧
      a.matcher.slotFor? tree = some (a.layout.offset spot)) ∨
    (a.find tree = some (none, a.layout) ∧ a.matcher.slotFor? tree = none) := by
  cases demanded : a.demanded? with
  | none =>
    have searched : a.matcher.slotFor? tree =
        (a.layout.search tree a.group).1.map fun spot => 0 + a.layout.offset spot := by
      rw [← Layout.seek_slots laid.sound laid.numbered, Nat.zero_add]
      simp [Matcher.slotFor?, matcher, demanded]
    rcases Layout.search_changes laid.sound tree a.group with
      ⟨spot, place, found, taken⟩ | refused
    · refine .inl ⟨spot, place, found, ?_, ?_⟩
      · rw [Attempt.find, demanded, ← taken]
      · rw [searched, taken, Option.map_some, Nat.zero_add]
    · refine .inr ⟨?_, ?_⟩
      · rw [Attempt.find, demanded, ← refused]
      · rw [searched, refused]
        rfl
  | some spot =>
    obtain ⟨layout, place, made, found⟩ := laid.demanded spot demanded
    have found : a.layout.at? spot = some place := by simpa [Attempt.layout, made] using found
    have searched : a.matcher.slotFor? tree =
        if place.slot.takes tree then some (a.layout.offset spot) else none := by
      simp [Matcher.slotFor?, matcher, demanded, Layout.slot_of_at found]
    have tried : a.find tree = some (if place.slot.takes tree then
        (some spot, a.layout.put spot place.matched) else (none, a.layout)) := by
      rw [Attempt.find, demanded]
      simp only [found, Option.map_some, Place.take_eq (laid.sound.at found)]
      split
      · rfl
      · simp [Layout.put_self found]
    rw [searched, tried]
    by_cases taken : place.slot.takes tree = true
    · exact .inl ⟨spot, place, found, by simp [taken]⟩
    · exact .inr (by simp [taken])

/-- Where a child has been taken, the places are still those of the production, and if the next
place is demanded there is one. -/
theorem taken (laid : a.Laid) {spot : Nat × Nat} {place : Place}
    (found : a.layout.at? spot = some place) {a' : Attempt} (rule : a'.rule = a.rule)
    (layout : a'.layout? = some (a.layout.put spot place.matched))
    (demanded : a'.demanded? =
      if place.field.demandsNext then some (spot.1, spot.2 + 1) else none) : a'.Laid := by
  have made : a'.layout = a.layout.put spot place.matched := by
    rw [Attempt.layout, layout, Option.getD_some]
  have cleared : a'.layout.cleared = .ofRule a'.rule := by
    rw [made, rule, Layout.cleared_put found, laid.cleared]
    rfl
  refine ⟨cleared, made ▸ laid.sound.put found place.sound_matched, fun next demands => ?_⟩
  rw [demanded] at demands
  split at demands
  · next more =>
    cases demands
    have fresh : (Layout.ofRule a'.rule).at? spot = some place.matched.cleared := by
      rw [← cleared, Layout.at_cleared, made, Layout.at_put found, Option.map_some]
    obtain ⟨next, after⟩ := Layout.exists_next_ofRule fresh more
    rw [← cleared, Layout.at_cleared, Option.map_eq_some_iff] at after
    obtain ⟨next, after, _⟩ := after
    exact ⟨_, next, layout, made ▸ after⟩
  · cases demands

/-- A child that is refused may have made the places, but has marked none. -/
theorem refused (laid : a.Laid) : { a with layout? := some a.layout }.Laid where
  cleared := laid.cleared
  sound := laid.sound
  demanded := by
    intro spot demanded
    obtain ⟨layout, place, made, found⟩ := laid.demanded spot demanded
    exact ⟨a.layout, place, rfl, by rwa [Attempt.layout, made]⟩

/-- One offer to the attempt is one offer to the matcher, and asks for no place that is not there. -/
theorem offer (laid : a.Laid) (tree : Tree) :
    ∃ reply a', a.answer (.offer tree) = some (reply, a') ∧ a'.Laid ∧
      a.matcher.answer (.offer tree) = (reply, a'.matcher) := by
  rw [answer, Attempt.offer, Matcher.answer, Matcher.offer?]
  by_cases closed : a.closed = true
  · have ended : a.matcher.closed = true := closed
    rw [if_pos closed, if_pos ended]
    exact ⟨.refused tree, a, rfl, laid, rfl⟩
  · have unclosed : ¬ a.matcher.closed = true := closed
    rw [if_neg closed, if_neg unclosed]
    rcases laid.find tree with ⟨spot, place, found, taken, sought⟩ | ⟨refused, sought⟩
    · have slot : a.matcher.slots[a.layout.offset spot]? = some place.slot :=
        Layout.slot_of_at found
      have group : place.field.group = spot.1 := by
        rw [← Nat.zero_add spot.1]
        exact Layout.group_of_at laid.numbered found
      rw [taken, sought]
      simp only [Option.bind_some, Layout.at_put found, Option.map_some, slot]
      refine ⟨.taken, _, rfl, laid.taken found rfl rfl rfl, ?_⟩
      have slots : (a.layout.put spot place.matched).slots =
          a.layout.slots.set (a.layout.offset spot) { place.slot with matched := true } := by
        rw [Layout.slots_put found]
        rfl
      have next : (a.layout.put spot place.matched).offset (spot.1, spot.2 + 1) =
          a.layout.offset spot + 1 := Layout.offset_put found place.matched (spot.2 + 1)
      simp only [matcher, Attempt.layout, Option.getD_some] at slots next ⊢
      cases leaves : place.field.leavesGroup <;> cases demands : place.field.demandsNext <;>
        simp [slots, next, group, closed, leaves, demands]
    · rw [refused, sought]
      exact ⟨.refused tree, _, rfl, laid.refused, rfl⟩

theorem answer (laid : a.Laid) (call : Call) :
    ∃ reply a', a.answer call = some (reply, a') ∧ a'.Laid ∧
      a.matcher.answer call = (reply, a'.matcher) := by
  cases call with
  | offer tree => exact laid.offer tree
  | pop =>
    refine ⟨_, _, rfl, ⟨laid.cleared, laid.sound, laid.demanded⟩, ?_⟩
    rw [Matcher.answer, Matcher.pop]
    cases taken : a.matcher.taken with
    | nil =>
      have none : a.children = [] := List.reverse_eq_nil_iff.mp taken
      simp [none, matcher, Attempt.layout]
    | cons tree rest =>
      have some : a.children = rest.reverse ++ [tree] := by
        rw [← List.reverse_cons]
        exact List.reverse_eq_iff.mp taken
      simp [some, matcher, Attempt.layout]

/-- A run of the attempt is a run of the matcher. -/
theorem answers (laid : a.Laid) (calls : List Call) :
    ∃ replies a', a.answers calls = some (replies, a') ∧ a'.Laid ∧
      a.matcher.answers calls = (replies, a'.matcher) := by
  induction calls generalizing a with
  | nil => exact ⟨[], a, rfl, laid, rfl⟩
  | cons call rest ih =>
    obtain ⟨reply, a₁, first, laid₁, same₁⟩ := laid.answer call
    obtain ⟨replies, a₂, later, laid₂, same₂⟩ := ih laid₁
    refine ⟨reply :: replies, a₂, ?_, laid₂, ?_⟩
    · simp [Attempt.answers, first, later]
    · rw [Matcher.answers, same₁, same₂]

theorem demandedField (laid : a.Laid) : a.demandedField = some a.matcher.demandedField? := by
  rw [Attempt.demandedField, Matcher.demandedField?, matcher]
  cases demanded : a.demanded? with
  | none => rfl
  | some spot =>
    obtain ⟨layout, place, made, found⟩ := laid.demanded spot demanded
    have same : a.layout = layout := by rw [Attempt.layout, made, Option.getD_some]
    rw [made, same]
    simp [found, Layout.slot_of_at found]

theorem awaited (laid : a.Laid) : a.awaited = some a.matcher.awaited? := by
  rw [Attempt.awaited, laid.demandedField, Option.map_some, Option.or_assoc, unsatisfied_eq]
  rfl

theorem isComplete (laid : a.Laid) : a.isComplete = some a.matcher.isComplete := by
  have awaited := laid.awaited
  rw [Attempt.awaited, laid.demandedField, Option.map_some] at awaited
  rw [Attempt.isComplete, laid.demandedField, Option.map_some, Matcher.isComplete,
    ← Option.some.inj awaited, Option.isNone_or, Option.isNone_or]

theorem expected (laid : a.Laid) :
    a.expected = some (Parser.expectation a.matcher).text := by
  rw [Attempt.expected, laid.awaited, Option.map_some, Parser.expectation]
  cases a.matcher.awaited? <;> rfl

theorem view (laid : a.Laid) : a.view = some a.matcher.view := by
  rw [Attempt.view, laid.isComplete, laid.expected]
  simp [Matcher.view, matcher, Matcher.children]

end Laid

end Attempt

end NandTools
