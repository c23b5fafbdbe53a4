import Mathlib.Data.Finset.Card
import NandTools.Proofs.Log.History

/-! The counts of a summary. Every file that was opened or had events is counted once among those
that succeeded, failed or had warnings, but the number of files is that of the larger of the two
groups. -/
namespace NandTools.Collector

/-- An error is among the events of a file that are kept. -/
def Fails (calls : List Call) (file : List PathStep) : Prop :=
  ∃ event ∈ (history calls file).take Limits.logEventsPerFile, event.isError = true

/-- A warning is among them, or stands for those that are not kept. -/
def Warns (calls : List Call) (file : List PathStep) : Prop :=
  Limits.logEventsPerFile < (history calls file).length ∨
    ∃ event ∈ (history calls file).take Limits.logEventsPerFile, event.isWarning = true

instance (calls : List Call) : DecidablePred (Fails calls) := fun file =>
  inferInstanceAs (Decidable (∃ event ∈ (history calls file).take Limits.logEventsPerFile,
    event.isError = true))

instance (calls : List Call) : DecidablePred (Warns calls) := fun file =>
  inferInstanceAs (Decidable (Limits.logEventsPerFile < (history calls file).length ∨
    ∃ event ∈ (history calls file).take Limits.logEventsPerFile, event.isWarning = true))

theorem mem_kept_iff {events : List Event} {event : Event} : event ∈ kept events ↔
    event ∈ events.take Limits.logEventsPerFile ∨
      Limits.logEventsPerFile < events.length ∧ event = overflow := by
  by_cases few : events.length ≤ Limits.logEventsPerFile
  · simp [kept_of_le few, List.take_of_length_le few, Nat.not_lt_of_le few]
  · have many := Nat.lt_of_not_le few
    simp [kept_of_gt many, many]

section Keeps

variable {collector : Collector} {calls : List Call} (keeps : Keeps collector calls)
include keeps

theorem Keeps.any_isError_iff {entry : Path × Array Event} (among : entry ∈ collector.events) :
    entry.2.any (·.isError) = true ↔ Fails calls entry.1.steps := by
  have warning : overflow.isError = false := rfl
  rw [← Array.any_toList, keeps.kept entry among, List.any_eq_true]
  constructor
  · rintro ⟨event, member, isError⟩
    rcases mem_kept_iff.mp member with early | ⟨_, rfl⟩
    · exact ⟨event, early, isError⟩
    · simp [warning] at isError
  · rintro ⟨event, early, isError⟩
    exact ⟨event, mem_kept_iff.mpr (.inl early), isError⟩

theorem Keeps.any_isWarning_iff {entry : Path × Array Event} (among : entry ∈ collector.events) :
    entry.2.any (·.isWarning) = true ↔ Warns calls entry.1.steps := by
  rw [← Array.any_toList, keeps.kept entry among, List.any_eq_true]
  constructor
  · rintro ⟨event, member, isWarning⟩
    rcases mem_kept_iff.mp member with early | ⟨many, _⟩
    · exact .inr ⟨event, early, isWarning⟩
    · exact .inl many
  · rintro (many | ⟨event, early, isWarning⟩)
    · exact ⟨overflow, mem_kept_iff.mpr (.inr ⟨many, rfl⟩), rfl⟩
    · exact ⟨event, mem_kept_iff.mpr (.inl early), isWarning⟩

/-- Kept files are counted by their paths. -/
theorem Keeps.length_filter {q : Array Event → Bool} {P : List PathStep → Prop} [DecidablePred P]
    (agrees : ∀ entry ∈ collector.events, q entry.2 = true ↔ P entry.1.steps) :
    ((collector.events.map (·.2)).filter q).length =
      ((Collector.recorded calls).filter P).card := by
  rw [List.filter_map, List.length_map, ← keeps.recorded]
  exact PathMap.length_filter keeps.sortedEvents agrees

theorem Keeps.failed_eq :
    collector.summary.failed = ((Collector.recorded calls).filter (Fails calls)).card :=
  keeps.length_filter fun _ => keeps.any_isError_iff

theorem Keeps.withWarnings_eq : collector.summary.withWarnings =
    ((Collector.recorded calls).filter fun file => ¬Fails calls file ∧ Warns calls file).card := by
  simp only [summary, List.filter_filter]
  apply keeps.length_filter
  intro entry among
  rw [Bool.and_eq_true, Bool.not_eq_true', ← Bool.not_eq_true, keeps.any_isError_iff among,
    keeps.any_isWarning_iff among, and_comm]

/-- Files that were opened and had no events have succeeded, like those whose events do no harm. -/
theorem Keeps.successful_eq : collector.summary.successful =
    (Collector.entered calls \ Collector.recorded calls).card +
      ((Collector.recorded calls).filter fun file =>
        ¬Fails calls file ∧ ¬Warns calls file).card := by
  simp only [summary, List.filter_filter]
  congr 1
  · rw [Finset.sdiff_eq_filter, ← keeps.entered]
    apply PathMap.length_filter keeps.sortedContexts
    intro entry _
    rw [← keeps.recorded, List.mem_toFinset, ← PathMap.has_iff, Bool.not_eq_true', Bool.not_eq_true]
  · apply keeps.length_filter
    intro entry among
    simp only [Bool.and_eq_true, Bool.not_eq_true', ← Bool.not_eq_true]
    rw [keeps.any_isError_iff among, keeps.any_isWarning_iff among, and_comm]

theorem Keeps.files_eq : collector.summary.files =
    max (Collector.entered calls).card (Collector.recorded calls).card := by
  rw [← keeps.entered, ← keeps.recorded, ← PathMap.length_eq keeps.sortedContexts,
    ← PathMap.length_eq keeps.sortedEvents]
  rfl

/-- A file that was opened or had events is counted once: as one that succeeded, that failed, or
that had warnings. -/
theorem Keeps.counts_add : collector.summary.successful + collector.summary.withWarnings +
    collector.summary.failed = (Collector.entered calls ∪ Collector.recorded calls).card := by
  have faults := Finset.card_filter_add_card_filter_not
    (s := Collector.recorded calls) (Fails calls)
  have warnings := Finset.card_filter_add_card_filter_not
    (s := (Collector.recorded calls).filter fun file => ¬Fails calls file) (Warns calls)
  simp only [Finset.filter_filter] at warnings
  have all := Finset.card_sdiff_add_card (Collector.entered calls) (Collector.recorded calls)
  rw [keeps.successful_eq, keeps.withWarnings_eq, keeps.failed_eq]
  omega

end Keeps

private theorem max_card_eq_iff {α : Type} [DecidableEq α] (s t : Finset α) :
    max s.card t.card = (s ∪ t).card ↔ s ⊆ t ∨ t ⊆ s := by
  constructor
  · intro same
    rcases Nat.le_total s.card t.card with less | less
    · left
      have whole : t = s ∪ t := Finset.eq_of_subset_of_card_le Finset.subset_union_right (by omega)
      exact Finset.union_eq_right.mp whole.symm
    · right
      have whole : s = s ∪ t := Finset.eq_of_subset_of_card_le Finset.subset_union_left (by omega)
      exact Finset.union_eq_left.mp whole.symm
  · rintro (inside | inside)
    · rw [Finset.union_eq_right.mpr inside, Nat.max_eq_right (Finset.card_le_card inside)]
    · rw [Finset.union_eq_left.mpr inside, Nat.max_eq_left (Finset.card_le_card inside)]

/-- Whatever a new collector is told, the files that succeeded, failed or had warnings are all those
that were opened or had events. Their number is given as that of the larger of these two groups, so
it is right just when one of them holds the other. -/
theorem summary_counts (calls : List Call) :
    let summary := (after calls).summary
    let seen := entered calls ∪ recorded calls
    summary.successful + summary.withWarnings + summary.failed = seen.card ∧
      summary.files = max (entered calls).card (recorded calls).card ∧
      (summary.files = seen.card ↔
        entered calls ⊆ recorded calls ∨ recorded calls ⊆ entered calls) := by
  intro summary seen
  have files : summary.files = max (entered calls).card (recorded calls).card :=
    (keeps_after calls).files_eq
  refine ⟨(keeps_after calls).counts_add, files, ?_⟩
  rw [files]
  exact max_card_eq_iff (entered calls) (recorded calls)

/-- A file that was opened and another that had an error count as one file. -/
theorem summary_misses_file :
    let calls : List Call :=
      [.enter ⟨"A.jack"⟩ 0, .record ⟨"B.jack"⟩ (.error .invalidCharacter "bad char" [])]
    let summary := (after calls).summary
    (entered calls ∪ recorded calls).card = 2 ∧ summary.files = 1 ∧
      summary.successful + summary.withWarnings + summary.failed = 2 := by
  decide +kernel

end NandTools.Collector
