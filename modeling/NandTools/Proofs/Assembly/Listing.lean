import NandTools.Proofs.Assembly.Mnemonic
import NandTools.Proofs.Text.Blank
import NandTools.Proofs.Text.Lines
import NandTools.Proofs.Text.Numeral
import NandTools.Vm.Code

/-! Instructions and the programs that they are written to. -/
namespace NandTools

namespace Instruction

/-- Characters that neither begin a comment nor are cut off. -/
def isSolid (c : Char) : Bool := c != '/' && !Text.isBlank c

private theorem isSolid_of_toNat {c : Char} (least : 33 ≤ c.toNat) (most : c.toNat ≤ 126)
    (other : c.toNat ≠ 47) : isSolid c = true := by
  have unslashed : c ≠ '/' := by
    rintro rfl
    exact other rfl
  simp [isSolid, unslashed, Text.isBlank_of_visible least most]

theorem isSolid_of_isSymbolChar {c : Char} (symbol : isSymbolChar c = true) : isSolid c = true := by
  simp only [isSymbolChar, Bool.or_eq_true, beq_iff_eq] at symbol
  rcases symbol with (((alphanumeric | rfl) | rfl) | rfl) | rfl
  · have range := Text.toNat_of_isAlphanum alphanumeric
    exact isSolid_of_toNat (by omega) (by omega) (by omega)
  all_goals decide

theorem isSymbolChar_of_isDigit {c : Char} (digit : c.isDigit = true) : isSymbolChar c = true := by
  simp [isSymbolChar, Char.isAlphanum, digit]

private theorem uncommented_of_solid {seen text : List Char} (solid : text.all isSolid = true) :
    uncommented seen text = seen.reverse ++ text := by
  induction text generalizing seen with
  | nil => simp [uncommented]
  | cons c rest ih =>
    rw [List.all_cons, Bool.and_eq_true] at solid
    have unslashed : c ≠ '/' := by
      rintro rfl
      exact absurd solid.1 (by decide)
    rw [uncommented, ih solid.2]
    · simp
    · exact fun _ same _ => absurd same unslashed

theorem significant_of_solid {text : List Char} (solid : text.all isSolid = true) :
    significant text = text := by
  have visible : ∀ c ∈ text, Text.isBlank c = false := by
    intro c member
    have each := List.all_eq_true.mp solid c member
    simp only [isSolid, Bool.and_eq_true, Bool.not_eq_true'] at each
    exact each.2
  rw [significant, uncommented_of_solid solid]
  exact Text.trim_eq_self visible

/-- Whether an instruction can be encoded, but for what its symbol stands for. -/
def isLegal : Instruction → Bool
  | label name => isSymbol name.toList
  | address value => (Text.readNat Limits.address value.toList).isSome || isSymbol value.toList
  | compute dest comp jump =>
    (Mnemonic.destBits? dest).isSome && (Mnemonic.compBits? comp).isSome &&
      (Mnemonic.jumpBits? jump).isSome

theorem isSymbol_append {text more : List Char} (symbol : isSymbol text = true)
    (fits : more.all isSymbolChar = true) : isSymbol (text ++ more) = true := by
  cases text with
  | nil => cases symbol
  | cons c rest =>
    rw [isSymbol, Bool.and_eq_true] at symbol
    rw [List.cons_append, isSymbol, ← List.cons_append, List.all_append, symbol.1, symbol.2, fits]
    rfl

theorem isSymbolChar_of_toString (n : Nat) : (toString n).toList.all isSymbolChar = true :=
  List.all_eq_true.mpr fun c member => isSymbolChar_of_isDigit (Text.isDigit_of_toString c member)

theorem isSolid_of_isPart {c : Char} (part : Mnemonic.isPart c = true) : isSolid c = true := by
  have checked : "01-+!&|ADMJGTEQLNP".toList.all isSolid = true := by decide +kernel
  exact List.all_eq_true.mp checked c (List.contains_iff_mem.mp part)

/-- Whether an instruction is read as it was written. The number of an address need not fit. -/
def isReadable : Instruction → Bool
  | address value => !value.toList.isEmpty && value.toList.all isSymbolChar
  | i => i.isLegal

theorem symbolChars_of_symbol {name : List Char} (symbol : isSymbol name = true) :
    name ≠ [] ∧ name.all isSymbolChar = true := by
  cases name with
  | nil => cases symbol
  | cons c rest =>
    rw [isSymbol, Bool.and_eq_true] at symbol
    exact ⟨List.cons_ne_nil c rest, symbol.2⟩

theorem solid_of_symbol {text : List Char} (symbol : isSymbol text = true) :
    text ≠ [] ∧ text.all isSolid = true := by
  obtain ⟨nonempty, fits⟩ := symbolChars_of_symbol symbol
  refine ⟨nonempty, List.all_eq_true.mpr fun c member => ?_⟩
  exact isSolid_of_isSymbolChar (List.all_eq_true.mp fits c member)

theorem isReadable_address {value : String} (nonempty : value.toList ≠ [])
    (fits : value.toList.all isSymbolChar = true) : (address value).isReadable = true := by
  rw [isReadable, fits, Bool.and_true, Bool.not_eq_true', List.isEmpty_eq_false_iff]
  exact nonempty

theorem isReadable_of_legal {i : Instruction} (legal : i.isLegal = true) : i.isReadable = true := by
  cases i with
  | label name => exact legal
  | compute dest comp jump => exact legal
  | address value =>
    rcases Bool.or_eq_true_iff.mp legal with numeral | symbol
    · obtain ⟨n, read⟩ := Option.isSome_iff_exists.mp numeral
      obtain ⟨nonempty, digits⟩ := Text.isDigit_of_readNat read
      refine isReadable_address nonempty (List.all_eq_true.mpr fun c member => ?_)
      exact isSymbolChar_of_isDigit (digits c member)
    · exact isReadable_address (symbolChars_of_symbol symbol).1 (symbolChars_of_symbol symbol).2

/-- Numbers can be encoded up to the limit. -/
theorem isLegal_number (n : Nat) :
    (address (toString n)).isLegal = decide (n ≤ Limits.address) := by
  have unnamed : isSymbol (toString n).toList = false := by
    cases chars : (toString n).toList with
    | nil => rfl
    | cons c rest =>
      have digit : c.isDigit = true := Text.isDigit_of_toString c (chars ▸ List.mem_cons_self)
      rw [isSymbol, digit]
      rfl
  rw [isLegal, unnamed, Bool.or_false]
  by_cases small : n ≤ Limits.address
  · rw [Text.readNat_toString small, decide_eq_true small]
    rfl
  · rw [Text.readNat_toString_of_lt (Nat.lt_of_not_le small), decide_eq_false small]
    rfl

private theorem solid_of_value {value : String} (readable : (address value).isReadable = true) :
    value.toList ≠ [] ∧ value.toList.all isSolid = true := by
  rw [isReadable, Bool.and_eq_true, Bool.not_eq_true', List.isEmpty_eq_false_iff] at readable
  refine ⟨readable.1, List.all_eq_true.mpr fun c member => ?_⟩
  exact isSolid_of_isSymbolChar (List.all_eq_true.mp readable.2 c member)

/-- The parts that a legal computing instruction is made of. -/
private theorem parts_of_legal {dest comp jump : String}
    (legal : (compute dest comp jump).isLegal = true) :
    dest.toList.all Mnemonic.isPart = true ∧
      (comp.toList ≠ [] ∧ comp.toList.all Mnemonic.isPart = true) ∧
        jump.toList.all Mnemonic.isPart = true := by
  simp only [isLegal, Bool.and_eq_true] at legal
  obtain ⟨⟨dests, comps⟩, jumps⟩ := legal
  obtain ⟨bits, dests⟩ := Option.isSome_iff_exists.mp dests
  obtain ⟨target, parsed, _⟩ := Option.map_eq_some_iff.mp dests
  obtain ⟨compBits, comps⟩ := Option.isSome_iff_exists.mp comps
  obtain ⟨jumpBits, jumps⟩ := Option.isSome_iff_exists.mp jumps
  exact ⟨Mnemonic.parts_of_dest parsed, Mnemonic.parts_of_comps (Mnemonic.mem_of_lookup comps),
    Mnemonic.parts_of_jumps (Mnemonic.mem_of_lookup jumps)⟩

private theorem solid_of_parts {text : List Char} (parts : text.all Mnemonic.isPart = true) :
    text.all isSolid = true :=
  List.all_eq_true.mpr fun c member => isSolid_of_isPart (List.all_eq_true.mp parts c member)

/-- What precedes the jump of a computing instruction. -/
private def assignment (dest comp : String) : List Char :=
  (if dest = "" then [] else dest.toList ++ ['=']) ++ comp.toList

private theorem toList_compute (dest comp jump : String) : (compute dest comp jump).text.toList =
    assignment dest comp ++ (if jump = "" then [] else ';' :: jump.toList) := by
  rw [text, assignment]
  split <;> split <;> simp

/-- Nothing of an instruction's text is a blank or a comment. -/
theorem solid_text {i : Instruction} (readable : i.isReadable = true) :
    i.text.toList ≠ [] ∧ i.text.toList.all isSolid = true := by
  cases i with
  | label name =>
    have solid := (solid_of_symbol readable).2
    simp [text, toString, solid, show isSolid '(' = true by decide,
      show isSolid ')' = true by decide]
  | address value =>
    have solid := (solid_of_value readable).2
    simp [text, toString, solid, show isSolid '@' = true by decide]
  | compute dest comp jump =>
    obtain ⟨dests, ⟨nonempty, comps⟩, jumps⟩ := parts_of_legal readable
    have dests := solid_of_parts dests
    have comps := solid_of_parts comps
    have jumps := solid_of_parts jumps
    rw [toList_compute, assignment]
    refine ⟨by simp [nonempty], ?_⟩
    split <;> split <;>
      simp [dests, comps, jumps, show isSolid '=' = true by decide,
        show isSolid ';' = true by decide]

private theorem bne_of_absent {mark : Char} {text : List Char} (absent : mark ∉ text) :
    ∀ c ∈ text, (c != mark) = true := by
  intro c member
  exact bne_iff_ne.mpr fun same => absent (same ▸ member)

theorem splitAt_of_absent {mark : Char} {text : List Char} (absent : mark ∉ text) :
    splitAt? mark text = none := by
  have dropped : text.dropWhile (· != mark) = [] := by
    rw [← List.append_nil text, List.dropWhile_append_of_pos (bne_of_absent absent)]
    rfl
  rw [splitAt?, dropped]

theorem splitAt_of_append {mark : Char} {text : List Char} (absent : mark ∉ text)
    (rest : List Char) : splitAt? mark (text ++ mark :: rest) = some (text, rest) := by
  have others := bne_of_absent absent
  have dropped : (text ++ mark :: rest).dropWhile (· != mark) = mark :: rest := by
    rw [List.dropWhile_append_of_pos others, List.dropWhile_cons_of_neg (by simp)]
  have taken : (text ++ mark :: rest).takeWhile (· != mark) = text := by
    rw [List.takeWhile_append_of_pos others, List.takeWhile_cons_of_neg (by simp), List.append_nil]
  rw [splitAt?, dropped, taken]

theorem not_mem_of_parts {text : List Char} (parts : text.all Mnemonic.isPart = true)
    {mark : Char} (other : Mnemonic.isPart mark = false) : mark ∉ text := by
  intro member
  exact Bool.false_ne_true (other.symm.trans (List.all_eq_true.mp parts mark member))

private theorem splitAt_assignment {dest comp : String}
    (dests : dest.toList.all Mnemonic.isPart = true)
    (comps : comp.toList.all Mnemonic.isPart = true) :
    (splitAt? '=' (assignment dest comp)).getD ([], assignment dest comp) =
      (dest.toList, comp.toList) := by
  by_cases unassigned : dest = ""
  · subst unassigned
    have absent : '=' ∉ assignment "" comp := not_mem_of_parts comps (by decide)
    rw [splitAt_of_absent absent]
    rfl
  · have text : assignment dest comp = dest.toList ++ '=' :: comp.toList := by
      simp [assignment, unassigned]
    rw [text, splitAt_of_append (not_mem_of_parts dests (by decide))]
    rfl

private theorem splitAt_jump {dest comp jump : String}
    (dests : dest.toList.all Mnemonic.isPart = true)
    (comps : comp.toList.all Mnemonic.isPart = true) :
    (splitAt? ';' (compute dest comp jump).text.toList).getD
      ((compute dest comp jump).text.toList, []) = (assignment dest comp, jump.toList) := by
  have absent : ';' ∉ assignment dest comp := by
    have dests : ';' ∉ dest.toList := not_mem_of_parts dests (by decide)
    have comps : ';' ∉ comp.toList := not_mem_of_parts comps (by decide)
    rw [assignment]
    split <;> simp [dests, comps]
  rw [toList_compute]
  by_cases still : jump = ""
  · subst still
    rw [if_pos rfl, List.append_nil, splitAt_of_absent absent]
    rfl
  · rw [if_neg still, splitAt_of_append absent]
    rfl

private theorem head_compute {dest comp : String} (jump : String)
    (dests : dest.toList.all Mnemonic.isPart = true) (nonempty : comp.toList ≠ [])
    (comps : comp.toList.all Mnemonic.isPart = true) :
    ∃ c rest, (compute dest comp jump).text.toList = c :: rest ∧ Mnemonic.isPart c = true := by
  rw [toList_compute, assignment]
  by_cases unassigned : dest = ""
  · obtain ⟨c, rest, chars⟩ := List.exists_cons_of_ne_nil nonempty
    rw [if_pos unassigned, List.nil_append, chars]
    exact ⟨c, _, rfl, List.all_eq_true.mp comps c (chars ▸ List.mem_cons_self)⟩
  · have assigned : dest.toList ≠ [] := fun none => unassigned (String.toList_eq_nil_iff.mp none)
    obtain ⟨c, rest, chars⟩ := List.exists_cons_of_ne_nil assigned
    rw [if_neg unassigned, chars]
    exact ⟨c, _, rfl, List.all_eq_true.mp dests c (chars ▸ List.mem_cons_self)⟩

/-- Instructions are read as what they are written for. -/
theorem parse_text {i : Instruction} (readable : i.isReadable = true) (line : Nat) :
    parse i.text.toList line = .ok i := by
  cases i with
  | label name =>
    have chars : (label name).text.toList = '(' :: (name.toList ++ [')']) := by
      simp [text, toString]
    have symbol : isSymbol name.toList = true := readable
    simp [parse, chars, symbol]
  | address value =>
    have chars : (address value).text.toList = '@' :: value.toList := by
      simp [text, toString]
    simp [parse, chars, (solid_of_value readable).1]
  | compute dest comp jump =>
    obtain ⟨dests, ⟨nonempty, comps⟩, jumps⟩ := parts_of_legal readable
    have read : parseCompute (compute dest comp jump).text.toList = .compute dest comp jump := by
      rw [parseCompute, splitAt_jump dests comps]
      dsimp only
      rw [splitAt_assignment dests comps]
      simp
    obtain ⟨c, rest, chars, part⟩ := head_compute jump dests nonempty comps
    have unmarked {mark : Char} (other : Mnemonic.isPart mark = false) (tail : List Char) :
        (compute dest comp jump).text.toList ≠ mark :: tail := by
      intro same
      obtain ⟨rfl, _⟩ := List.cons.inj (chars.symm.trans same)
      exact Bool.false_ne_true (other.symm.trans part)
    rw [parse, read]
    · exact unmarked (by decide)
    · exact unmarked (by decide)

end Instruction

namespace AssemblyLine

def instruction? : AssemblyLine → Option Instruction
  | comment _ => none
  | instruction i => some i

/-- Whether a line stays one line, which is read as it was written. -/
def isPrintable : AssemblyLine → Bool
  | comment text => !text.toList.contains '\n'
  | instruction i => i.isReadable

theorem single_of_printable {line : AssemblyLine} (printable : line.isPrintable = true) :
    '\n' ∉ line.text.toList := by
  cases line with
  | comment text =>
    have single : '\n' ∉ text.toList := by simpa [isPrintable] using printable
    simp [AssemblyLine.text, toString, single]
  | instruction i =>
    intro member
    exact absurd (List.all_eq_true.mp (Instruction.solid_text printable).2 _ member) (by decide)

theorem significant_of_printable {line : AssemblyLine}
    (printable : line.isPrintable = true) :
    Instruction.significant (Text.dropReturn line.text.toList) =
      (line.instruction?.map fun i => i.text.toList).getD [] := by
  cases line with
  | comment text =>
    have chars : (comment text).text.toList = '/' :: '/' :: ' ' :: text.toList := by
      simp [AssemblyLine.text, toString]
    rw [chars, Text.dropReturn]
    split <;> rfl
  | instruction i =>
    have solid := (Instruction.solid_text printable).2
    have returnless : '\r' ∉ i.text.toList := by
      intro member
      exact absurd (List.all_eq_true.mp solid _ member) (by decide)
    exact (congrArg _ (Text.dropReturn_eq_self returnless)).trans
      (Instruction.significant_of_solid solid)

end AssemblyLine

namespace CodeWriter

theorem toList_textOf (lines : List AssemblyLine) : (textOf lines).toList =
    (lines.map fun line => line.text.toList).flatMap fun row => row ++ ['\n'] := by
  have grown (out : String) :
      (lines.foldl (fun out line => out ++ line.text ++ "\n") out).toList =
        out.toList ++ (lines.map fun line => line.text.toList).flatMap fun row => row ++ ['\n'] := by
    induction lines generalizing out with
    | nil => simp
    | cons line lines ih => simp [ih]
  exact grown ""

theorem textOf_append (front back : List AssemblyLine) :
    textOf (front ++ back) = textOf front ++ textOf back := by
  rw [← String.toList_inj, String.toList_append, toList_textOf, toList_textOf, toList_textOf,
    List.map_append, List.flatMap_append]

theorem rows_textOf {lines : List AssemblyLine} (single : ∀ line ∈ lines, '\n' ∉ line.text.toList) :
    Text.rows (textOf lines).toList = (lines.map fun line => line.text.toList) ++ [[]] := by
  rw [toList_textOf]
  exact Text.rows_of_ended (List.forall_mem_map.mpr single)

theorem lines_textOf {lines : List AssemblyLine} (single : ∀ line ∈ lines, '\n' ∉ line.text.toList) :
    Text.lines (textOf lines).toList = lines.map fun line => Text.dropReturn line.text.toList := by
  rw [toList_textOf, Text.lines_of_ended (List.forall_mem_map.mpr single), List.map_map]
  rfl

end CodeWriter

namespace Instruction

/-- Lines that are written are read as the instructions among them. -/
theorem parseProgram_textOf {lines : List AssemblyLine}
    (printable : ∀ line ∈ lines, line.isPrintable = true) :
    ∃ program, parseProgram (CodeWriter.textOf lines).toList = .ok program ∧
      program.map Prod.snd = lines.filterMap AssemblyLine.instruction? := by
  have single : ∀ line ∈ lines, '\n' ∉ line.text.toList := fun line among =>
    AssemblyLine.single_of_printable (printable line among)
  rw [parseProgram, Text.numberedLines, CodeWriter.lines_textOf single]
  generalize 1 = number
  clear single
  induction lines generalizing number with
  | nil => exact ⟨[], rfl, rfl⟩
  | cons line lines ih =>
    obtain ⟨program, read, instructions⟩ :=
      ih (fun other member => printable other (List.mem_cons_of_mem line member)) (number + 1)
    have meant := AssemblyLine.significant_of_printable (printable line List.mem_cons_self)
    simp only [List.map_cons, List.zipIdx_cons]
    rw [meant]
    cases line with
    | comment text => exact ⟨program, read, instructions⟩
    | instruction i =>
      have readable : i.isReadable = true := printable (.instruction i) List.mem_cons_self
      have counts : (!i.text.toList.isEmpty) = true := by simp [(solid_text readable).1]
      refine ⟨(number, i) :: program, ?_, congrArg (i :: ·) instructions⟩
      simp only [AssemblyLine.instruction?, Option.map_some, Option.getD_some] at read ⊢
      rw [List.filter_cons, if_pos counts, List.mapM_cons, read, parse_text readable]
      rfl

end Instruction

end NandTools
