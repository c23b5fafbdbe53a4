import NandTools.Proofs.Assembly.Renumbering
import NandTools.Proofs.Vm.Labels

/-! Annotations are lines of a translation on which nothing else of it depends: what is translated
without them is what is left when they are deleted, and is assembled alike. -/
namespace NandTools

namespace Text

/-- Whether a line begins with a comment. -/
def isCommentRow (row : List Char) : Bool := ['/', '/'].isPrefixOf row

/-- A text without the lines that begin with a comment. -/
def withoutComments (text : List Char) : List Char :=
  ['\n'].intercalate ((rows text).filter fun row => !isCommentRow row)

/-- With a line feed after each, lines are the rows before an empty one. -/
theorem intercalate_ended (pieces : List (List Char)) :
    ['\n'].intercalate (pieces ++ [[]]) = pieces.flatMap fun row => row ++ ['\n'] := by
  induction pieces with
  | nil => rfl
  | cons row rest ih =>
    obtain ⟨next, more, ended⟩ :=
      List.exists_cons_of_ne_nil (List.append_ne_nil_of_right_ne_nil rest (List.cons_ne_nil [] []))
    rw [List.flatMap_cons, ← ih, List.cons_append, ended, List.intercalate_cons_cons]

end Text

namespace AssemblyLine

def isComment : AssemblyLine → Bool
  | comment _ => true
  | instruction _ => false

/-- Only comments begin as comments. -/
theorem Unbroken.isCommentRow {line : AssemblyLine} (unbroken : line.Unbroken) :
    Text.isCommentRow line.text.toList = line.isComment := by
  cases unbroken with
  | address single =>
    rw [toList_address]
    rfl
  | printable printable =>
    cases line with
    | comment text =>
      have chars : (comment text).text.toList = '/' :: '/' :: ' ' :: text.toList := by
        simp [AssemblyLine.text, toString]
      rw [chars]
      rfl
    | instruction i =>
      have solid := (Instruction.solid_text printable).2
      refine Bool.eq_false_iff.mpr fun mark => ?_
      obtain ⟨rest, chars⟩ := List.isPrefixOf_iff_prefix.mp mark
      have slash : '/' ∈ i.text.toList := chars ▸ List.mem_cons_self
      exact absurd (List.all_eq_true.mp solid _ slash) (by decide)

theorem Unbroken.significant_of_comment {text : String} (unbroken : (comment text).Unbroken) :
    Instruction.significant (Text.dropReturn (comment text).text.toList) = [] := by
  cases unbroken with
  | printable printable => exact significant_of_printable printable

end AssemblyLine

namespace CodeWriter

section Lines

variable {lines : List AssemblyLine} (unbroken : ∀ line ∈ lines, line.Unbroken)
include unbroken

theorem withoutComments_textOf : Text.withoutComments (textOf lines).toList =
    (textOf (lines.filter fun line => !line.isComment)).toList := by
  have kept : (lines.map fun line => line.text.toList).filter (fun row => !Text.isCommentRow row) =
      (lines.filter fun line => !line.isComment).map fun line => line.text.toList := by
    rw [List.filter_map]
    refine congrArg _ (List.filter_congr fun line member => ?_)
    exact congrArg Bool.not (unbroken line member).isCommentRow
  rw [Text.withoutComments, rows_textOf fun line member => (unbroken line member).single,
    List.filter_append, kept, toList_textOf]
  exact Text.intercalate_ended _

/-- Comments show no text. -/
theorem texts_textOf : Assembly.texts (textOf (lines.filter fun line => !line.isComment)).toList =
    Assembly.texts (textOf lines).toList := by
  have single : ∀ line ∈ lines, '\n' ∉ line.text.toList := fun line member =>
    (unbroken line member).single
  rw [Assembly.texts, lines_textOf fun line member => single line (List.mem_of_mem_filter member),
    Assembly.texts, lines_textOf single, List.map_map, List.map_map, List.filter_map,
    List.filter_map, List.filter_filter]
  refine congrArg _ (List.filter_congr fun line member => ?_)
  cases line with
  | comment text =>
    have empty := (unbroken _ member).significant_of_comment
    simp [empty]
  | instruction i => exact Bool.and_true _

end Lines

theorem code_annotate (w : CodeWriter) (annotate : Bool) (command : VmCommand) :
    { w with annotate }.code command = w.code command := by
  cases command <;> rfl

theorem pass_annotate (w : CodeWriter) (annotate : Bool) (command : VmCommand) :
    { w with annotate }.pass command = { w.pass command with annotate } := by
  unfold pass
  split <;> rfl

private theorem filter_annotated (annotate : Bool) (text : String) (code : List Instruction) :
    ((if annotate then [AssemblyLine.comment text] else []) ++
        code.map AssemblyLine.instruction).filter (fun line => !line.isComment) =
      code.map AssemblyLine.instruction := by
  have all : (code.map AssemblyLine.instruction).filter (fun line => !line.isComment) =
      code.map AssemblyLine.instruction :=
    List.filter_eq_self.mpr (List.forall_mem_map.mpr fun i _ => rfl)
  rw [List.filter_append, all]
  split <;> rfl

theorem stepLines_unannotated (w : CodeWriter) (step : Step) :
    { w with annotate := false }.stepLines step =
      (w.stepLines step).filter fun line => !line.isComment := by
  cases step with
  | bootstrap =>
    rw [stepLines, stepLines, bootstrapLines, bootstrapLines, filter_annotated, code_annotate]
    rfl
  | module name => rfl
  | command command =>
    rw [stepLines, stepLines, lines, lines, filter_annotated, code_annotate]
    rfl

theorem after_annotate (w : CodeWriter) (annotate : Bool) (step : Step) :
    { w with annotate }.after step = { w.after step with annotate } := by
  cases step with
  | bootstrap => exact pass_annotate w annotate (.call "Sys.init" 0)
  | module name => rfl
  | command command => exact pass_annotate w annotate command

/-- Without annotations, the other lines of a session are written. -/
theorem listing_unannotated (w : CodeWriter) (steps : List Step) :
    { w with annotate := false }.listing steps =
      (w.listing steps).filter fun line => !line.isComment := by
  induction steps generalizing w with
  | nil => rfl
  | cons step rest ih =>
    rw [listing, listing, List.filter_append, stepLines_unannotated, after_annotate, ih]

end CodeWriter

namespace Translator

variable {t t' : Translator}

/-- What is counted, answered and reported does not depend on what was written. -/
theorem addModules_congr (same : t.stats = t'.stats) (events : List Event)
    (modules : List (String × List Char)) :
    (t.addModules events modules).1.map Translator.stats =
        (t'.addModules events modules).1.map Translator.stats ∧
      (t.addModules events modules).2 = (t'.addModules events modules).2 := by
  induction modules generalizing t t' events with
  | nil => exact ⟨congrArg Except.ok same, rfl⟩
  | cons module rest ih =>
    obtain ⟨name, source⟩ := module
    rw [addModules, addModules, addModule_eq, addModule_eq]
    cases commandsOf name source with
    | error e => exact ⟨rfl, rfl⟩
    | ok commands => exact ih (by rw [same]) _

end Translator

namespace Translation

/-- Whether annotations are written plays no part in what is counted, refused and reported. -/
theorem ofModules_congr (modules : List (String × List Char))
    (bootstrap annotate annotate' : Bool) :
    (ofModules modules bootstrap annotate).1.map Translation.stats =
        (ofModules modules bootstrap annotate').1.map Translation.stats ∧
      (ofModules modules bootstrap annotate).2 = (ofModules modules bootstrap annotate').2 := by
  have start (annotate : Bool) : (if bootstrap then (Translator.ofAnnotate annotate).writeBootstrap
      else Translator.ofAnnotate annotate).stats = { bootstrap } := by
    cases bootstrap <;> rfl
  obtain ⟨stats, events⟩ :=
    Translator.addModules_congr ((start annotate).trans (start annotate').symm) [] modules
  unfold ofModules
  dsimp only
  generalize Translator.addModules (if bootstrap = true then
    (Translator.ofAnnotate annotate).writeBootstrap else _) [] modules = out at stats events ⊢
  generalize Translator.addModules (if bootstrap = true then
    (Translator.ofAnnotate annotate').writeBootstrap else _) [] modules = out' at stats events ⊢
  obtain ⟨result, reported⟩ := out
  obtain ⟨result', _⟩ := out'
  obtain rfl : reported = _ := events
  cases result with
  | error e =>
    obtain rfl : result' = .error e := Except.error_of_map stats.symm
    exact ⟨rfl, rfl⟩
  | ok t =>
    obtain ⟨t', rfl, same⟩ := Except.ok_of_map stats.symm
    have counted : t.finish.stats = t'.finish.stats := same.symm
    dsimp only
    rw [counted]
    exact ⟨congrArg Except.ok counted, rfl⟩

section Accepted

variable {modules : List (String × List Char)} {bootstrap : Bool}
  (single : ∀ module ∈ modules, '\n' ∉ module.1.toList) {annotated plain : Translation}
  (first : (ofModules modules bootstrap true).1 = .ok annotated)
  (second : (ofModules modules bootstrap false).1 = .ok plain)
include single first second

theorem withoutComments_assembly :
    Text.withoutComments annotated.assembly.toList = plain.assembly.toList := by
  have kept :=
    CodeWriter.listing_unannotated { annotate := true } (Step.ofModules modules bootstrap)
  rw [Translator.assembly_of_ofModules first, Translator.assembly_of_ofModules second, kept]
  exact CodeWriter.withoutComments_textOf (CodeWriter.unbroken_listing single bootstrap true)

theorem agree_assembly :
    Assembly.Agree Eq (Assembly.assemble .initial annotated.assembly.toList).1
      (Assembly.assemble .initial plain.assembly.toList).1 := by
  have kept :=
    CodeWriter.listing_unannotated { annotate := true } (Step.ofModules modules bootstrap)
  have texts := CodeWriter.texts_textOf (CodeWriter.unbroken_listing single bootstrap true)
  rw [← kept, ← Translator.assembly_of_ofModules first, ← Translator.assembly_of_ofModules second]
    at texts
  exact (Assembly.agree_assemble texts.symm (.refl .initial)).1

end Accepted

/-- Modules are translated with annotations just when they are without. What the annotations add to
the program are the lines that begin with slashes, and both programs are assembled to the same words
and counts, or refused for the same reason at lines that may differ. -/
theorem ofModules_annotated {modules : List (String × List Char)}
    (single : ∀ module ∈ modules, '\n' ∉ module.1.toList) (bootstrap : Bool) :
    (∃ e, (ofModules modules bootstrap true).1 = .error e ∧
        (ofModules modules bootstrap false).1 = .error e) ∨
      ∃ annotated plain, (ofModules modules bootstrap true).1 = .ok annotated ∧
        (ofModules modules bootstrap false).1 = .ok plain ∧ annotated.stats = plain.stats ∧
          Text.withoutComments annotated.assembly.toList = plain.assembly.toList ∧
            (Assembly.assemble .initial annotated.assembly.toList).1.mapError
                AssemblyError.unplaced =
              (Assembly.assemble .initial plain.assembly.toList).1.mapError
                AssemblyError.unplaced := by
  have stats := (ofModules_congr modules bootstrap true false).1
  cases first : (ofModules modules bootstrap true).1 with
  | error e =>
    rw [first] at stats
    exact .inl ⟨e, rfl, Except.error_of_map stats.symm⟩
  | ok annotated =>
    rw [first] at stats
    obtain ⟨plain, second, same⟩ := Except.ok_of_map stats.symm
    exact .inr ⟨annotated, plain, rfl, second, same.symm,
      withoutComments_assembly single first second, (agree_assembly single first second).unplaced⟩

/-- The name of a module need not be a symbol. -/
theorem ofModules_annotated_push :
    let source := "function Main.main 0\npush static 3 // first\n".toList
    ∃ annotated plain, (ofModules [("a-b", source)] true true).1 = .ok annotated ∧
      (ofModules [("a-b", source)] true false).1 = .ok plain ∧
        Text.withoutComments annotated.assembly.toList = plain.assembly.toList ∧
          (Assembly.assemble .initial annotated.assembly.toList).1.mapError
              AssemblyError.unplaced =
            (Assembly.assemble .initial plain.assembly.toList).1.mapError
              AssemblyError.unplaced := by
  intro source
  have single : ∀ module ∈ [("a-b", source)], '\n' ∉ module.1.toList := by decide
  rcases ofModules_annotated single true with ⟨e, refused, _⟩ | ⟨annotated, plain, first, second, _,
    rest⟩
  · cases refused
  · exact ⟨annotated, plain, first, second, rest⟩

end Translation

end NandTools
