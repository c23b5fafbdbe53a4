import NandTools.Log.Report
import NandTools.Proofs.Log.Summary

/-! Faults in the summary and in the report. An error counts, and is shown, if it is among the
events of its file that are kept; of those that come later only a warning is left. -/
namespace NandTools.Collector

theorem inside_join {text : String} {texts : List String} (among : text ∈ texts) :
    text.toList <:+: (String.join texts).toList := by
  rw [String.toList_join, List.flatMap_def]
  exact List.infix_of_mem_flatten (List.mem_map_of_mem among)

section Shown

variable {path : Path} {events : Array Event} {event : Event}

theorem describeError_inside (among : event ∈ events.toList) (isError : event.isError = true) :
    (describeError path event).toList <:+: (describeFile path events).toList := by
  have member : event ∈ events.toList.filter (·.isError) := List.mem_filter.mpr ⟨among, isError⟩
  have shown := inside_join (List.mem_map_of_mem (f := describeError path) member)
  have some : (events.toList.filter (·.isError)).isEmpty = false :=
    List.isEmpty_eq_false_iff_exists_mem.mpr ⟨event, member⟩
  unfold describeFile
  simp only [some, Bool.false_and, Bool.false_eq_true, if_false, String.toList_append,
    List.append_assoc]
  exact shown.trans (List.prefix_append _ _).isInfix

theorem describeWarning_inside (among : event ∈ events.toList)
    (isWarning : event.isWarning = true) :
    (describeWarning path event).toList <:+: (describeFile path events).toList := by
  have member : event ∈ events.toList.filter (·.isWarning) := List.mem_filter.mpr ⟨among, isWarning⟩
  have shown := inside_join (List.mem_map_of_mem (f := describeWarning path) member)
  have some : (events.toList.filter (·.isWarning)).isEmpty = false :=
    List.isEmpty_eq_false_iff_exists_mem.mpr ⟨event, member⟩
  unfold describeFile
  simp only [some, Bool.and_false, Bool.false_eq_true, if_false, String.toList_append,
    List.append_assoc]
  exact shown.trans (List.infix_append' _ _ _)

theorem describeFile_inside {collector : Collector} (among : (path, events) ∈ collector.events) :
    (describeFile path events).toList <:+: collector.report.toList := by
  unfold report
  simp only [String.toList_append, List.append_assoc]
  have member := List.mem_map_of_mem (f := fun entry => describeFile entry.1 entry.2) among
  exact (inside_join member).trans (List.prefix_append _ _).isInfix

end Shown

/-- The files with an error among their first events, as many as are kept, are those that have
failed, and the report shows each such error. A file that had more events but no such error counts
among those with warnings, and the report warns of every file that had more. -/
theorem kept_errors_counted (calls : List Call) :
    let collector := after calls
    collector.summary.failed = ((recorded calls).filter (Fails calls)).card ∧
      collector.summary.withWarnings =
        ((recorded calls).filter fun file => ¬Fails calls file ∧ Warns calls file).card ∧
      (∀ file ∈ recorded calls, ∃ path, path.steps = file ∧
        (∀ event ∈ (history calls file).take Limits.logEventsPerFile, event.isError = true →
          (describeError path event).toList <:+: collector.report.toList) ∧
        (Limits.logEventsPerFile < (history calls file).length →
          (describeWarning path overflow).toList <:+: collector.report.toList)) ∧
      ∀ path, (collector.fileEvents path).size ≤ Limits.logEventsPerFile + 1 := by
  intro collector
  have keeps : Keeps collector calls := keeps_after calls
  refine ⟨keeps.failed_eq, keeps.withWarnings_eq, ?_, ?_⟩
  · intro file member
    rw [← keeps.recorded, List.mem_toFinset] at member
    obtain ⟨⟨path, events⟩, among, rfl⟩ := List.mem_map.mp member
    have holds := keeps.kept _ among
    refine ⟨path, rfl, ?_, ?_⟩
    · intro event early isError
      have there : event ∈ events.toList := by
        rw [holds]
        exact mem_kept_iff.mpr (.inl early)
      exact (describeError_inside there isError).trans (describeFile_inside among)
    · intro many
      have there : overflow ∈ events.toList := by
        rw [holds]
        exact mem_kept_iff.mpr (.inr ⟨many, rfl⟩)
      exact (describeWarning_inside there rfl).trans (describeFile_inside among)
  · intro path
    have length := congrArg List.length (keeps.toList_fileEvents path)
    rw [Array.length_toList, length_kept] at length
    omega

section Sample

private def fault : Event := .error .invalidCharacter "bad char" []

private def odd : Event := .warning "odd" []

/-- An error after some warnings for the same file. -/
private def noisy (before : Nat) : List Call :=
  List.replicate before (.record ⟨"A.jack"⟩ odd) ++ [.record ⟨"A.jack"⟩ fault]

private theorem history_noisy (before : Nat) :
    history (noisy before) (Path.mk "A.jack").steps = List.replicate before odd ++ [fault] := by
  simp [history, noisy, Call.eventOf?]

private theorem recorded_noisy (before : Nat) :
    recorded (noisy before) = {(Path.mk "A.jack").steps} := by
  ext file
  simp [recorded, noisy, Call.recorded?, eq_comm]

private theorem fault_mem_noisy (before : Nat) :
    Call.record ⟨"A.jack"⟩ fault ∈ noisy before := by
  simp [noisy]

private theorem fault_early {before : Nat} (room : before < Limits.logEventsPerFile) :
    fault ∈ (history (noisy before) (Path.mk "A.jack").steps).take Limits.logEventsPerFile := by
  rw [history_noisy, List.take_of_length_le (by simp; omega)]
  simp

private theorem fails_noisy_iff (before : Nat) :
    Fails (noisy before) (Path.mk "A.jack").steps ↔ before < Limits.logEventsPerFile := by
  have harmless : odd.isError = false := rfl
  constructor
  · intro fails
    by_contra room
    unfold Fails at fails
    rw [history_noisy, List.take_append_of_le_length (by simpa using room)] at fails
    simp [harmless] at fails
  · intro room
    exact ⟨fault, fault_early room, rfl⟩

private theorem failed_noisy (before : Nat) : (after (noisy before)).summary.failed =
    if before < Limits.logEventsPerFile then 1 else 0 := by
  rw [(keeps_after _).failed_eq, recorded_noisy, Finset.filter_singleton]
  simp only [fails_noisy_iff]
  split <;> rfl

end Sample

/-- The last event that is kept of a file is an error, after 999 warnings. -/
theorem last_kept_error_counted :
    let calls := noisy 999
    Fails calls (Path.mk "A.jack").steps ∧ (after calls).summary.failed = 1 ∧
      ∃ path, path.steps = (Path.mk "A.jack").steps ∧
        (describeError path fault).toList <:+: (after calls).report.toList := by
  intro calls
  have room : 999 < Limits.logEventsPerFile := by decide
  have among : (Path.mk "A.jack").steps ∈ recorded calls := by
    rw [recorded_noisy]
    exact Finset.mem_singleton_self _
  obtain ⟨_, _, shown, _⟩ := kept_errors_counted calls
  obtain ⟨path, same, errors, _⟩ := shown _ among
  exact ⟨(fails_noisy_iff 999).mpr room, failed_noisy 999, path, same,
    errors fault (fault_early room) rfl⟩

/-- After a thousand warnings an error is not counted. -/
theorem late_error_masked :
    let calls := noisy 1000
    (∃ event, Call.record ⟨"A.jack"⟩ event ∈ calls ∧ event.isError = true) ∧
      (after calls).summary.failed = 0 := by
  intro calls
  exact ⟨⟨fault, fault_mem_noisy 1000, rfl⟩, failed_noisy 1000⟩

end NandTools.Collector
