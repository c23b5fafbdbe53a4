import Mathlib.Data.List.Forall2
import NandTools.Assembly.Program
import Std.Data.HashMap.Lemmas

/-! Programs that differ in the numbers of their lines only: they are assembled alike. -/
namespace NandTools

/-- An error without the lines that it names. -/
def AssemblyError.unplaced : AssemblyError → AssemblyError
  | invalidComp comp _ => invalidComp comp 0
  | invalidDest dest _ => invalidDest dest 0
  | invalidJump jump _ => invalidJump jump 0
  | constantOutOfRange value _ => constantOutOfRange value 0
  | duplicateLabel label _ _ => duplicateLabel label 0 0
  | malformedLabel text _ => malformedLabel text 0
  | invalidSymbol symbol _ => invalidSymbol symbol 0
  | romOverflow limit => romOverflow limit
  | ramExhausted symbol address => ramExhausted symbol address

/-- Results that are related, or errors that differ in lines only. -/
inductive Assembly.Agree {α : Type} (R : α → α → Prop) :
    Except AssemblyError α → Except AssemblyError α → Prop
  | ok {a a' : α} (related : R a a') : Agree R (.ok a) (.ok a')
  | error {e e' : AssemblyError} (same : e.unplaced = e'.unplaced) : Agree R (.error e) (.error e')

theorem Assembly.Agree.unplaced {α : Type} {out out' : Except AssemblyError α}
    (agree : Agree Eq out out') :
    out.mapError AssemblyError.unplaced = out'.mapError AssemblyError.unplaced := by
  cases agree with
  | ok same => rw [same]
  | error same => exact congrArg Except.error same

/-- Bindings that differ in the line of a label only. -/
inductive Binding.Alike : Binding → Binding → Prop
  | predefined (address : Nat) : Alike (.predefined address) (.predefined address)
  | label (address line line' : Nat) : Alike (.label address line) (.label address line')
  | allocated (address : Nat) : Alike (.allocated address) (.allocated address)

theorem Binding.Alike.refl : (binding : Binding) → binding.Alike binding
  | .predefined address => .predefined address
  | .label address line => .label address line line
  | .allocated address => .allocated address

theorem Binding.Alike.address {binding binding' : Binding} (alike : binding.Alike binding') :
    binding.address = binding'.address := by
  cases alike <;> rfl

namespace AssemblySymbols

open Assembly (Agree)

structure Alike (symbols symbols' : AssemblySymbols) : Prop where
  bindings : ∀ name : String,
    Option.Rel Binding.Alike symbols.bindings[name]? symbols'.bindings[name]?
  labelCount : symbols.labelCount = symbols'.labelCount
  variableCount : symbols.variableCount = symbols'.variableCount

namespace Alike

theorem refl (symbols : AssemblySymbols) : symbols.Alike symbols where
  bindings name := by
    cases symbols.bindings[name]? with
    | none => exact .none
    | some binding => exact .some (.refl binding)
  labelCount := rfl
  variableCount := rfl

variable {symbols symbols' : AssemblySymbols} (alike : symbols.Alike symbols')
include alike

private theorem insert {binding binding' : Binding} (same : binding.Alike binding')
    (name other : String) :
    Option.Rel Binding.Alike (symbols.bindings.insert name binding)[other]?
      (symbols'.bindings.insert name binding')[other]? := by
  rw [Std.HashMap.getElem?_insert, Std.HashMap.getElem?_insert]
  split
  · exact .some same
  · exact alike.bindings other

theorem defineLabel (name : String) (address line line' : Nat) :
    Agree Alike (symbols.defineLabel name address line)
      (symbols'.defineLabel name address line') := by
  have defined : Alike
      { symbols with
        bindings := symbols.bindings.insert name (.label address line)
        labelCount := symbols.labelCount + 1 }
      { symbols' with
        bindings := symbols'.bindings.insert name (.label address line')
        labelCount := symbols'.labelCount + 1 } :=
    ⟨alike.insert (.label address line line') name, congrArg (· + 1) alike.labelCount,
      alike.variableCount⟩
  have before := alike.bindings name
  unfold AssemblySymbols.defineLabel
  generalize symbols.bindings[name]? = old, symbols'.bindings[name]? = old' at before
  cases before with
  | none => exact .ok defined
  | some same =>
    cases same with
    | predefined address => exact .error rfl
    | label address first first' => exact .error rfl
    | allocated address => exact .ok defined

theorem resolve (name : String) :
    Agree (fun out out' => out.1 = out'.1 ∧ out.2.Alike out'.2) (symbols.resolve name)
      (symbols'.resolve name) := by
  have before := alike.bindings name
  have allocated : Alike
      { symbols with
        bindings := symbols.bindings.insert name
          (.allocated (Limits.variableBase + symbols.variableCount))
        variableCount := symbols.variableCount + 1 }
      { symbols' with
        bindings := symbols'.bindings.insert name
          (.allocated (Limits.variableBase + symbols.variableCount))
        variableCount := symbols.variableCount + 1 } :=
    ⟨alike.insert (.refl _) name, alike.labelCount, rfl⟩
  unfold AssemblySymbols.resolve
  rw [← alike.variableCount]
  generalize symbols.bindings[name]? = old, symbols'.bindings[name]? = old' at before
  cases before with
  | none =>
    dsimp only
    split
    · exact .error rfl
    · exact .ok ⟨rfl, allocated⟩
  | some same => exact .ok ⟨same.address, alike⟩

end Alike

end AssemblySymbols

namespace Assembly

section Passes

variable {symbols symbols' : AssemblySymbols} (alike : symbols.Alike symbols')

theorem agree_parse (text : List Char) (line line' : Nat) :
    Agree Eq (Instruction.parse text line) (Instruction.parse text line') := by
  unfold Instruction.parse
  split
  · dsimp only
    split
    · exact .ok rfl
    · exact .error rfl
  · split
    · exact .error rfl
    · exact .ok rfl
  · exact .ok rfl

theorem agree_computeWord (dest comp jump : String) (line line' : Nat) :
    Agree Eq (computeWord dest comp jump line) (computeWord dest comp jump line') := by
  unfold computeWord
  split
  · exact .error rfl
  · exact .error rfl
  · exact .error rfl
  · exact .ok rfl

include alike

theorem agree_addressOf (value : String) (line line' : Nat) :
    Agree (fun out out' => out.1 = out'.1 ∧ out.2.Alike out'.2) (addressOf symbols value line)
      (addressOf symbols' value line') := by
  unfold addressOf
  dsimp only
  split
  · split
    · split
      · exact .ok ⟨rfl, alike⟩
      · exact .error rfl
    · exact .error rfl
  · split
    · exact alike.resolve value
    · exact .error rfl

variable {program program' : Program}
  (same : List.Forall₂ (fun entry entry' => entry.2 = entry'.2) program program')
include same

theorem agree_bindLabels (address : Nat) :
    Agree Eq (bindLabels address symbols program).1 (bindLabels address symbols' program').1 ∧
      (bindLabels address symbols program).2.Alike (bindLabels address symbols' program').2 := by
  induction same generalizing address symbols symbols' with
  | nil => exact ⟨.ok rfl, alike⟩
  | @cons entry entry' rest rest' first later ih =>
    obtain ⟨line, i⟩ := entry
    obtain ⟨line', i'⟩ := entry'
    obtain rfl : i = i' := first
    cases i with
    | label name =>
      rw [bindLabels, bindLabels]
      by_cases full : address > Limits.romWords
      · rw [if_pos full, if_pos full]
        exact ⟨.error rfl, alike⟩
      · rw [if_neg full, if_neg full]
        have defined := alike.defineLabel name address line line'
        generalize symbols.defineLabel name address line = out,
          symbols'.defineLabel name address line' = out' at defined
        cases defined with
        | ok alike => exact ih alike address
        | error refused => exact ⟨.error refused, alike⟩
    | address value | compute dest comp jump =>
      rw [bindLabels, bindLabels]
      · by_cases full : address + 1 > Limits.romWords
        · rw [if_pos full, if_pos full]
          exact ⟨.error rfl, alike⟩
        · rw [if_neg full, if_neg full]
          exact ih alike (address + 1)
      all_goals exact nofun

theorem agree_encode (words : Array String) :
    Agree Eq (encode words symbols program).1 (encode words symbols' program').1 ∧
      (encode words symbols program).2.Alike (encode words symbols' program').2 := by
  induction same generalizing words symbols symbols' with
  | nil => exact ⟨.ok rfl, alike⟩
  | @cons entry entry' rest rest' first later ih =>
    obtain ⟨line, i⟩ := entry
    obtain ⟨line', i'⟩ := entry'
    obtain rfl : i = i' := first
    cases i with
    | label name => exact ih alike words
    | address value =>
      have found := agree_addressOf alike value line line'
      rw [encode, encode]
      generalize addressOf symbols value line = out, addressOf symbols' value line' = out' at found
      cases found with
      | @ok a a' related =>
        obtain ⟨address, more⟩ := a
        obtain ⟨address', more'⟩ := a'
        obtain ⟨rfl, alike⟩ : address = address' ∧ more.Alike more' := related
        exact ih alike _
      | error refused => exact ⟨.error refused, alike⟩
    | compute dest comp jump =>
      have found := agree_computeWord dest comp jump line line'
      rw [encode, encode]
      generalize computeWord dest comp jump line = out, computeWord dest comp jump line' = out'
        at found
      cases found with
      | ok same =>
        subst same
        exact ih alike _
      | error refused => exact ⟨.error refused, alike⟩

end Passes

/-- The texts of the lines that count. -/
def texts (source : List Char) : List (List Char) :=
  ((Text.lines source).map Instruction.significant).filter fun text => !text.isEmpty

private def numberedTexts (source : List Char) : List (Nat × List Char) :=
  ((Text.numberedLines source).map fun (number, line) =>
    (number, Instruction.significant line)).filter fun (_, text) => !text.isEmpty

private theorem map_numberedTexts (source : List Char) :
    (numberedTexts source).map Prod.snd = texts source := by
  have counted : (Text.numberedLines source).map Prod.snd = Text.lines source := by
    rw [Text.numberedLines, List.map_map]
    exact List.zipIdx_map_fst 1 _
  have shown : ((Text.numberedLines source).map fun (number, line) =>
      (number, Instruction.significant line)).map Prod.snd =
        (Text.lines source).map Instruction.significant := by
    rw [← counted, List.map_map, List.map_map]
    rfl
  rw [texts, ← shown, List.filter_map]
  rfl

private theorem agree_mapM_parse {front back : List (Nat × List Char)}
    (same : List.Forall₂ (fun line line' => line.2 = line'.2) front back) :
    Agree (List.Forall₂ fun entry entry' => entry.2 = entry'.2)
      (front.mapM fun (number, text) =>
        (Instruction.parse text number).map fun instruction => (number, instruction))
      (back.mapM fun (number, text) =>
        (Instruction.parse text number).map fun instruction => (number, instruction)) := by
  induction same with
  | nil => exact .ok .nil
  | @cons line line' rest rest' first later ih =>
    obtain ⟨number, text⟩ := line
    obtain ⟨number', text'⟩ := line'
    obtain rfl : text = text' := first
    have parsed := agree_parse text number number'
    rw [List.mapM_cons, List.mapM_cons]
    dsimp only
    generalize Instruction.parse text number = out, Instruction.parse text number' = out' at parsed
    cases parsed with
    | error refused => exact .error refused
    | @ok i i' read =>
      subst read
      generalize List.mapM (m := Except AssemblyError) _ rest = more,
        List.mapM (m := Except AssemblyError) _ rest' = more' at ih
      cases ih with
      | error refused => exact .error refused
      | ok each => exact .ok (.cons rfl each)

variable {source source' : List Char} (same : texts source = texts source')
include same

theorem agree_parseProgram : Agree (List.Forall₂ fun entry entry' => entry.2 = entry'.2)
    (Instruction.parseProgram source) (Instruction.parseProgram source') := by
  refine @agree_mapM_parse (numberedTexts source) (numberedTexts source') ?_
  rw [← map_numberedTexts, ← map_numberedTexts] at same
  rw [← List.forall₂_eq_eq_eq, List.forall₂_map_left_iff, List.forall₂_map_right_iff] at same
  exact same

/-- Programs whose lines have the same texts are assembled alike, but for the lines of errors. Blank
lines and lines of comments may stand anywhere. -/
theorem agree_assemble {symbols symbols' : AssemblySymbols} (alike : symbols.Alike symbols') :
    Agree Eq (assemble symbols source).1 (assemble symbols' source').1 ∧
      (assemble symbols source).2.Alike (assemble symbols' source').2 := by
  have parsed := agree_parseProgram same
  unfold assemble
  generalize Instruction.parseProgram source = out,
    Instruction.parseProgram source' = out' at parsed
  cases parsed with
  | error refused => exact ⟨.error refused, alike⟩
  | @ok program program' each =>
    dsimp only
    obtain ⟨bound, labelled⟩ := agree_bindLabels alike each 0
    generalize bindLabels 0 symbols program = out, bindLabels 0 symbols' program' = out'
      at bound labelled
    obtain ⟨result, symbols⟩ := out
    obtain ⟨result', symbols'⟩ := out'
    cases bound with
    | error refused => exact ⟨.error refused, labelled⟩
    | ok =>
      dsimp only
      obtain ⟨encoded, ended⟩ := agree_encode labelled each #[]
      generalize encode #[] symbols program = out, encode #[] symbols' program' = out'
        at encoded ended
      obtain ⟨result, symbols⟩ := out
      obtain ⟨result', symbols'⟩ := out'
      cases encoded with
      | error refused => exact ⟨.error refused, ended⟩
      | ok words =>
        dsimp only at ended ⊢
        rw [words, ended.labelCount, ended.variableCount]
        exact ⟨.ok rfl, ended⟩

end Assembly

end NandTools
