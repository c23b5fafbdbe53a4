import Mathlib.Data.List.Forall2
import NandTools.Proofs.Assembly.Line
import NandTools.Proofs.Assembly.Passes

/-! The language of programs: what is assembled, and what an error says of the line that it names. -/
namespace NandTools

namespace Instruction

/-- What a line adds to a program: nothing when it is blank, else what its text has the form of. -/
inductive Reads (Form : List Char → Instruction → Prop) (raw : List Char) :
    Option Instruction → Prop
  | blank (shows : Shows raw []) : Reads Form raw none
  | text {text : List Char} {i : Instruction} (shows : Shows raw text) (visible : text ≠ [])
    (form : Form text i) : Reads Form raw (some i)

/-- The instructions of consecutive lines with their numbers, which begin at `line`. -/
def numbered (line : Nat) : List (Option Instruction) → Assembly.Program
  | [] => []
  | none :: rest => numbered (line + 1) rest
  | some i :: rest => (line, i) :: numbered (line + 1) rest

/-- The text of a numbered line of a source. -/
def LineShows (source : List Char) (line : Nat) (text : List Char) : Prop :=
  ∃ index raw, line = index + 1 ∧ (Text.lines source)[index]? = some raw ∧ Shows raw text

section Numbered

variable {line number : Nat} {entries : List (Option Instruction)} {i : Instruction}

theorem map_numbered (line : Nat) (entries : List (Option Instruction)) :
    (numbered line entries).map Prod.snd = entries.filterMap id := by
  fun_induction numbered line entries with
  | case1 => rfl
  | case2 line rest ih => exact ih
  | case3 line i rest ih => exact congrArg (i :: ·) ih

theorem exists_of_numbered (member : (number, i) ∈ numbered line entries) :
    ∃ index, number = line + index ∧ entries[index]? = some (some i) := by
  fun_induction numbered line entries with
  | case1 => cases member
  | case2 line rest ih =>
    obtain ⟨index, rfl, found⟩ := ih member
    exact ⟨index + 1, by omega, found⟩
  | case3 line j rest ih =>
    rcases List.mem_cons.mp member with same | member
    · cases same
      exact ⟨0, rfl, rfl⟩
    · obtain ⟨index, rfl, found⟩ := ih member
      exact ⟨index + 1, by omega, found⟩

/-- Later instructions have larger numbers. -/
theorem numbered_increasing (line : Nat) (entries : List (Option Instruction)) :
    (numbered line entries).Pairwise (·.1 < ·.1) := by
  fun_induction numbered line entries with
  | case1 => exact .nil
  | case2 line rest ih => exact ih
  | case3 line i rest ih =>
    refine .cons (fun later member => ?_) ih
    obtain ⟨index, same, _⟩ := exists_of_numbered member
    show line < later.1
    omega

end Numbered

section Lines

variable {lines : List (List Char)} {entries : List (Option Instruction)} {number : Nat}
  {program : Assembly.Program} {e : AssemblyError}

/-- Lines read one after the other, which `number` counts. -/
private def readLines (number : Nat) : List (List Char) → Except AssemblyError Assembly.Program
  | [] => .ok []
  | raw :: rest =>
    if significant raw = [] then readLines (number + 1) rest
    else
      match parse (significant raw) number, readLines (number + 1) rest with
      | .error e, _ => .error e
      | .ok _, .error e => .error e
      | .ok i, .ok later => .ok ((number, i) :: later)

private theorem parseProgram_eq (source : List Char) :
    parseProgram source = readLines 1 (Text.lines source) := by
  rw [parseProgram, Text.numberedLines]
  generalize 1 = number
  induction Text.lines source generalizing number with
  | nil => rfl
  | cons raw rest ih =>
    simp only [List.map_cons, List.zipIdx_cons, List.filter_cons, readLines]
    by_cases blank : significant raw = []
    · rw [if_pos blank, ← ih (number + 1)]
      simp [blank]
    · rw [if_neg blank, if_pos (by simpa using blank), List.mapM_cons, ← ih (number + 1)]
      dsimp only
      cases parse (significant raw) number with
      | error e => rfl
      | ok i => cases List.mapM (m := Except AssemblyError) _ (List.filter _ _) <;> rfl

private theorem readLines_iff : readLines number lines = .ok program ↔
    ∃ entries, List.Forall₂ (Reads Spells) lines entries ∧ numbered number entries = program := by
  induction lines generalizing number program with
  | nil => simp [readLines, numbered, eq_comm]
  | cons raw rest ih =>
    constructor
    · intro read
      rw [readLines] at read
      split at read
      · next blank =>
        obtain ⟨entries, each, same⟩ := ih.mp read
        exact ⟨none :: entries, .cons (.blank (shows_iff.mpr blank)) each, same⟩
      · next visible =>
        split at read
        · cases read
        · cases read
        · next i later parsed rest_read =>
          cases read
          obtain ⟨entries, each, rfl⟩ := ih.mp rest_read
          refine ⟨some i :: entries, .cons ?_ each, rfl⟩
          exact .text (shows_iff.mpr rfl) visible (parse_iff.mp parsed)
    · rintro ⟨_, each, rfl⟩
      obtain ⟨entry, entries, first, others, rfl⟩ := List.forall₂_cons_left_iff.mp each
      have later : readLines (number + 1) rest = .ok (numbered (number + 1) entries) :=
        ih.mpr ⟨entries, others, rfl⟩
      rw [readLines]
      cases first with
      | blank shows => rw [if_pos (shows_iff.mp shows), later, numbered]
      | text shows visible form =>
        obtain rfl := shows_iff.mp shows
        rw [if_neg visible, parse_iff.mpr form, later, numbered]

private theorem misspelled_of_readLines (failed : readLines number lines = .error e) :
    ∃ index raw, lines[index]? = some raw ∧ significant raw ≠ [] ∧
      Misspelled (number + index) (significant raw) e := by
  induction lines generalizing number with
  | nil => cases failed
  | cons raw rest ih =>
    have later (failed : readLines (number + 1) rest = .error e) :
        ∃ index other, (raw :: rest)[index]? = some other ∧ significant other ≠ [] ∧
          Misspelled (number + index) (significant other) e := by
      obtain ⟨index, other, found, visible, misspelled⟩ := ih failed
      refine ⟨index + 1, other, found, visible, ?_⟩
      rwa [Nat.add_assoc, Nat.add_comm 1] at misspelled
    rw [readLines] at failed
    split at failed
    · exact later failed
    · next visible =>
      split at failed
      · next refused =>
        cases failed
        exact ⟨0, raw, rfl, visible, misspelled_of_parse refused⟩
      · next refused =>
        cases failed
        exact later refused
      · cases failed

theorem parseProgram_iff {source : List Char} : parseProgram source = .ok program ↔
    ∃ entries, List.Forall₂ (Reads Spells) (Text.lines source) entries ∧
      numbered 1 entries = program := by
  rw [parseProgram_eq, readLines_iff]

theorem misspelled_of_parseProgram {source : List Char} (failed : parseProgram source = .error e) :
    ∃ line text, LineShows source line text ∧ text ≠ [] ∧ Misspelled line text e := by
  rw [parseProgram_eq] at failed
  obtain ⟨index, raw, found, visible, misspelled⟩ := misspelled_of_readLines failed
  refine ⟨index + 1, significant raw, ⟨index, raw, rfl, found, shows_iff.mpr rfl⟩, visible, ?_⟩
  rwa [Nat.add_comm] at misspelled

end Lines

end Instruction

namespace Assembly

open AssemblySymbols (Allocated)
open Instruction (LineShows Misspelled Phrase Reads Refused Spells)

/-- The language of programs whose lines have a form. -/
def Language (Form : List Char → Instruction → Prop) (source : List Char) : Prop :=
  ∃ entries, List.Forall₂ (Reads Form) (Text.lines source) entries ∧ Fits (entries.filterMap id)

/-- What is wrong with a source. An error that names a line is about the text of that line. -/
inductive Violates (source : List Char) : AssemblyError → Prop
  | form {line : Nat} {text : List Char} {e : AssemblyError} (shows : LineShows source line text)
    (visible : text ≠ []) (misspelled : Misspelled line text e) : Violates source e
  | part {line : Nat} {text : List Char} {i : Instruction} {e : AssemblyError}
    (shows : LineShows source line text) (spells : Spells text i) (refused : Refused line i e) :
    Violates source e
  | predefined {line : Nat} {name : String}
    (declares : LineShows source line ('(' :: (name.toList ++ [')'])))
    (listed : name ∈ AssemblySymbols.predefined.map Prod.fst) :
    Violates source (.malformedLabel s!"({name})" line)
  | duplicate {first line : Nat} {name : String}
    (declares : LineShows source line ('(' :: (name.toList ++ [')'])))
    (declared : LineShows source first ('(' :: (name.toList ++ [')']))) (before : first < line) :
    Violates source (.duplicateLabel name line first)
  | rom {entries : List (Option Instruction)}
    (lines : List.Forall₂ (Reads Spells) (Text.lines source) entries)
    (large : Limits.romWords < Instruction.size (entries.filterMap id)) :
    Violates source (.romOverflow Limits.romWords)
  | ram {entries : List (Option Instruction)}
    (lines : List.Forall₂ (Reads Spells) (Text.lines source) entries)
    (many : Limits.screen - Limits.variableBase <
      (Instruction.variableUses (entries.filterMap id)).eraseDups.length)
    (name : String) (address : Nat) : Violates source (.ramExhausted name address)

section Language

variable {source : List Char} {lines : List (List Char)} {entries : List (Option Instruction)}
  {Form Other : List Char → Instruction → Prop}

theorem reads_mono (each : List.Forall₂ (Reads Form) lines entries)
    (mono : ∀ raw ∈ lines, ∀ text i, Instruction.Shows raw text → i ∈ entries.filterMap id →
      Form text i → Other text i) :
    List.Forall₂ (Reads Other) lines entries := by
  induction each with
  | nil => exact .nil
  | @cons raw entry lines entries first _ ih =>
    refine .cons ?_ (ih fun other member text i shows among => ?_)
    · cases first with
      | blank shows => exact .blank shows
      | text shows visible form =>
        exact .text shows visible (mono raw List.mem_cons_self _ _ shows (by simp) form)
    · refine mono other (List.mem_cons_of_mem raw member) text i shows ?_
      obtain ⟨entry, member, same⟩ := List.mem_filterMap.mp among
      exact List.mem_filterMap.mpr ⟨entry, List.mem_cons_of_mem _ member, same⟩

theorem reads_at (each : List.Forall₂ (Reads Form) lines entries) {index : Nat} {i : Instruction}
    (found : entries[index]? = some (some i)) :
    ∃ raw text, lines[index]? = some raw ∧ Instruction.Shows raw text ∧ Form text i := by
  induction each generalizing index with
  | nil => cases found
  | @cons raw entry _ _ first _ ih =>
    cases index with
    | zero =>
      cases found
      cases first with
      | text shows _ form => exact ⟨raw, _, rfl, shows, form⟩
    | succ index => exact ih found

private theorem shows_of_numbered (each : List.Forall₂ (Reads Form) (Text.lines source) entries)
    {line : Nat} {i : Instruction} (member : (line, i) ∈ Instruction.numbered 1 entries) :
    ∃ text, LineShows source line text ∧ Form text i := by
  obtain ⟨index, rfl, found⟩ := Instruction.exists_of_numbered member
  obtain ⟨raw, text, here, shows, form⟩ := reads_at each found
  exact ⟨text, ⟨index, raw, Nat.add_comm 1 index, here, shows⟩, form⟩

private theorem declares_of_numbered
    (each : List.Forall₂ (Reads Spells) (Text.lines source) entries) {line : Nat} {name : String}
    (member : (line, .label name) ∈ Instruction.numbered 1 entries) :
    LineShows source line ('(' :: (name.toList ++ [')'])) := by
  obtain ⟨text, shows, spells⟩ := shows_of_numbered each member
  cases spells with
  | label symbol => exact shows

theorem language_of_assemble {assembly : Assembly} {symbols : AssemblySymbols}
    (assembled : assemble .initial source = (.ok assembly, symbols)) :
    Language (Phrase true) source := by
  obtain ⟨program, labelled, parsed, _, encoded, _⟩ := passes_of_assemble assembled
  obtain ⟨entries, each, rfl⟩ := Instruction.parseProgram_iff.mp parsed
  have labels (i : Instruction) (member : i ∈ (Instruction.numbered 1 entries).map Prod.snd)
      (label : i.isLabel = true) : i.isLegal = true := by
    obtain ⟨⟨line, i⟩, entry, rfl⟩ := List.mem_map.mp member
    obtain ⟨text, _, spells⟩ := shows_of_numbered each entry
    cases spells with
    | label symbol => exact symbol
    | address _ => cases label
    | compute _ _ _ => cases label
  have legal := legal_of_encode labels encoded
  have fits := fits_of_assemble parsed assembled
  rw [Instruction.map_numbered] at legal fits
  refine ⟨entries, reads_mono each fun _ _ text i _ among spells => ?_, fits⟩
  exact Instruction.phrase_iff.mpr ⟨spells, legal i among⟩

theorem assemble_of_language (language : Language (Phrase true) source) :
    ∃ assembly, (assemble .initial source).1 = .ok assembly := by
  obtain ⟨entries, each, fits⟩ := language
  have spelled : List.Forall₂ (Reads Spells) (Text.lines source) entries :=
    reads_mono each fun _ _ _ _ _ _ phrase => (Instruction.phrase_iff.mp phrase).1
  have legal (i : Instruction) (member : i ∈ (Instruction.numbered 1 entries).map Prod.snd) :
      i.isLegal = true := by
    obtain ⟨⟨line, i⟩, entry, rfl⟩ := List.mem_map.mp member
    obtain ⟨text, _, phrase⟩ := shows_of_numbered each entry
    exact (Instruction.phrase_iff.mp phrase).2
  rw [← Instruction.map_numbered 1 entries] at fits
  exact assemble_of_fits (Instruction.parseProgram_iff.mpr ⟨entries, spelled, rfl⟩) legal fits

/-- Acceptance needs every line to have the form of the grammar, and the program to fit. -/
theorem accepted_iff : (∃ assembly, (assemble .initial source).1 = .ok assembly) ↔
    Language (Phrase true) source := by
  constructor
  · rintro ⟨assembly, accepted⟩
    exact language_of_assemble (Prod.ext accepted rfl)
  · exact assemble_of_language

private theorem firm_of_reads {raw text : List Char} {entry : Option Instruction}
    (reads : Reads (Phrase false) raw entry) (shows : Instruction.Shows raw text) :
    text.head? ≠ some '=' ∧ text.getLast? ≠ some ';' := by
  obtain rfl := Instruction.shows_iff.mp shows
  cases reads with
  | blank shows =>
    rw [Instruction.shows_iff.mp shows]
    exact ⟨nofun, nofun⟩
  | text shows _ phrase =>
    rw [Instruction.shows_iff.mp shows]
    exact (Instruction.phrase_strict.mp phrase).2

/-- Marks that stand alone are all that the grammar would refuse in addition. -/
theorem language_strict : Language (Phrase false) source ↔ Language (Phrase true) source ∧
    ∀ line text, LineShows source line text →
      text.head? ≠ some '=' ∧ text.getLast? ≠ some ';' := by
  constructor
  · rintro ⟨entries, each, fits⟩
    refine ⟨⟨entries, reads_mono each fun _ _ _ _ _ _ phrase => ?_, fits⟩, ?_⟩
    · exact (Instruction.phrase_strict.mp phrase).1
    · rintro line text ⟨index, raw, -, found, shows⟩
      obtain ⟨inside, rfl⟩ := List.getElem?_eq_some_iff.mp found
      obtain ⟨length, reads⟩ := List.forall₂_iff_get.mp each
      exact firm_of_reads (reads index inside (length ▸ inside)) shows
  · rintro ⟨⟨entries, each, fits⟩, firm⟩
    refine ⟨entries, reads_mono each fun raw member text i shows _ phrase => ?_, fits⟩
    obtain ⟨index, found⟩ := List.getElem?_of_mem member
    exact Instruction.phrase_strict.mpr ⟨phrase, firm (index + 1) text ⟨index, raw, rfl, found, shows⟩⟩

private theorem violates_of_unbound {e : AssemblyError}
    (each : List.Forall₂ (Reads Spells) (Text.lines source) entries)
    (unbound : Unbound (Instruction.numbered 1 entries) e) : Violates source e := by
  cases unbound with
  | rom large => exact .rom each (Instruction.map_numbered 1 entries ▸ large)
  | predefined declared listed => exact .predefined (declares_of_numbered each declared) listed
  | @duplicate front back first line name divided before =>
    have earlier : (first, .label name) ∈ Instruction.numbered 1 entries :=
      divided ▸ List.mem_append_left _ before
    have later : (line, .label name) ∈ Instruction.numbered 1 entries :=
      divided ▸ List.mem_append_right front List.mem_cons_self
    have increasing := Instruction.numbered_increasing 1 entries
    rw [divided] at increasing
    refine .duplicate (declares_of_numbered each later) (declares_of_numbered each earlier) ?_
    exact (List.pairwise_append.mp increasing).2.2 _ before _ List.mem_cons_self

theorem violates_of_assemble {e : AssemblyError} (failed : (assemble .initial source).1 = .error e) :
    Violates source e := by
  rw [assemble] at failed
  split at failed
  · next refused =>
    cases failed
    obtain ⟨line, text, shows, visible, misspelled⟩ :=
      Instruction.misspelled_of_parseProgram refused
    exact .form shows visible misspelled
  · next program parsed =>
    obtain ⟨entries, each, rfl⟩ := Instruction.parseProgram_iff.mp parsed
    split at failed
    · next refused =>
      cases failed
      exact violates_of_unbound each (unbound_of_initial refused)
    · next labelled bound =>
      split at failed
      · next refused =>
        cases failed
        have none := (counts_of_bindLabels bound).2
        rcases refused_of_encode (Allocated.start none) refused with
          ⟨line, i, member, refused⟩ | ⟨⟨name, address, rfl⟩, many⟩
        · obtain ⟨text, shows, spells⟩ := shows_of_numbered each member
          exact .part shows spells refused
        · rw [List.nil_append, left_of_bindLabels bound, Instruction.map_numbered] at many
          exact .ram each many name address
      · cases failed

end Language

/-- A program is assembled if and only if every line has the form of the grammar, where `=` and `;`
may also stand alone, labels are new and differ, and both memories have room. No mark stands alone
if and only if no line begins with `=` or ends with `;`. Any other program is refused for what is
wrong in the line that the error names. -/
theorem assembles_language (source : List Char) :
    ((∃ assembly, (assemble .initial source).1 = .ok assembly) ↔ Language (Phrase true) source) ∧
    (Language (Phrase false) source ↔ (∃ assembly, (assemble .initial source).1 = .ok assembly) ∧
      ∀ line text, LineShows source line text →
        text.head? ≠ some '=' ∧ text.getLast? ≠ some ';') ∧
    ∀ e, (assemble .initial source).1 = .error e → Violates source e := by
  refine ⟨accepted_iff, ?_, fun e => violates_of_assemble⟩
  rw [accepted_iff]
  exact language_strict

/-- A mark without a destination is passed over. -/
theorem assembles_bare_mark :
    (∃ assembly, (assemble .initial "=D".toList).1 = .ok assembly) ∧
      ¬ Language (Phrase false) "=D".toList := by
  constructor
  · exact ⟨⟨#["1110001100000000"], ⟨1, 0, 0⟩⟩, rfl⟩
  · intro strict
    have firm := (language_strict.mp strict).2 1 "=D".toList
    have shows : LineShows "=D".toList 1 "=D".toList :=
      ⟨0, "=D".toList, rfl, by decide, Instruction.shows_iff.mpr (by decide)⟩
    exact (firm shows).1 rfl

end Assembly

end NandTools
