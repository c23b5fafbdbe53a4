import NandTools.Proofs.Assembly.Passes

/-! Why programs that can be read are not assembled. -/
namespace NandTools

/-- Errors of a program that declares `labels`, but for those of single instructions: a label is
declared twice or is predefined, or a memory is too small. -/
inductive AssemblyError.Misplaced (labels : List String) : AssemblyError → Prop
  | duplicate (twice : ¬ labels.Nodup) (label : String) (line first : Nat) :
    Misplaced labels (.duplicateLabel label line first)
  | predefined {name : String} (declared : name ∈ labels) {address : Nat}
    (listed : (name, address) ∈ AssemblySymbols.predefined) (line : Nat) :
    Misplaced labels (.malformedLabel s!"({name})" line)
  | rom : Misplaced labels (.romOverflow Limits.romWords)
  | ram (symbol : String) (address : Nat) : Misplaced labels (.ramExhausted symbol address)

namespace Assembly

variable {symbols more : AssemblySymbols} {program : Program} {e : AssemblyError}

theorem Unbound.misplaced (unbound : Unbound program e) :
    AssemblyError.Misplaced ((program.map Prod.snd).filterMap Instruction.declared?) e := by
  have declares {line : Nat} {name : String} {part : Program} (member : (line, .label name) ∈ part) :
      name ∈ (part.map Prod.snd).filterMap Instruction.declared? :=
    List.mem_filterMap.mpr ⟨_, List.mem_map_of_mem (f := Prod.snd) member, rfl⟩
  cases unbound with
  | rom => exact .rom
  | predefined declared listed =>
    obtain ⟨⟨_, address⟩, member, rfl⟩ := List.mem_map.mp listed
    exact .predefined (declares declared) member _
  | duplicate divided before =>
    refine .duplicate (fun distinct => ?_) _ _ _
    rw [divided, List.map_append, List.filterMap_append] at distinct
    exact (List.nodup_append.mp distinct).2.2 _ (declares before) _ List.mem_cons_self rfl

theorem error_of_resolve {name : String} (failed : symbols.resolve name = .error e) :
    ∃ address, e = .ramExhausted name address := by
  unfold AssemblySymbols.resolve at failed
  split at failed
  · cases failed
  · dsimp only at failed
    split at failed
    · cases failed
      exact ⟨_, rfl⟩
    · cases failed

/-- Instructions that can be encoded, or that load a number. -/
def Loads (i : Instruction) : Prop := i.isLegal = true ∨ ∃ n : Nat, i = .address (toString n)

/-- Of such instructions only a number is refused, when it is too large. -/
theorem Loads.large_of_refused {i : Instruction} {line : Nat} (loads : Loads i)
    (refused : Instruction.Refused line i e) :
    ∃ n : Nat, i = .address (toString n) ∧ Limits.address < n ∧
      e = .constantOutOfRange (toString n) line := by
  rcases loads with legal | ⟨n, rfl⟩
  · exact absurd (refused.illegal.symm.trans legal) Bool.false_ne_true
  · have value : Nat.ofDigitChars 10 (toString n).toList 0 = n := by
      rw [Text.toList_toString, Nat.ofDigitChars_ten_toDigits]
    cases refused with
    | constant numeral large =>
      rw [← numeral.value_eq, value] at large
      exact ⟨n, rfl, large, rfl⟩
    | symbol _ unlike =>
      have numeral : Text.Numeral n (toString n).toList n :=
        ⟨Text.toString_ne_nil n, Text.isDigit_of_toString, Nat.le_refl n, value⟩
      exact absurd numeral (unlike n)

/-- A program whose instructions can be encoded is refused for its labels or for want of memory;
otherwise it loads a number that is too large. -/
theorem error_of_assemble {source : List Char} {code : List Instruction}
    (read : Instruction.read? source = some code) (loads : ∀ i ∈ code, Loads i)
    (failed : (assemble .initial source).1 = .error e) :
    AssemblyError.Misplaced (code.filterMap Instruction.declared?) e ∨
      ∃ n line : Nat, .address (toString n) ∈ code ∧ Limits.address < n ∧
        e = .constantOutOfRange (toString n) line := by
  obtain ⟨program, parsed, rfl⟩ := Instruction.parseProgram_of_read? read
  rw [assemble, parsed] at failed
  dsimp only at failed
  split at failed
  · next symbols bound =>
    cases failed
    exact .inl (unbound_of_initial bound).misplaced
  · next bound =>
    split at failed
    · next encoded =>
      cases failed
      have start := AssemblySymbols.Allocated.start (counts_of_bindLabels bound).2
      rcases refused_of_encode start encoded with
        ⟨line, i, member, refused⟩ | ⟨⟨name, address, rfl⟩, _⟩
      · have among : i ∈ program.map Prod.snd := List.mem_map_of_mem (f := Prod.snd) member
        obtain ⟨n, rfl, large, same⟩ := (loads i among).large_of_refused refused
        exact .inr ⟨n, line, among, large, same⟩
      · exact .inl (.ram name address)
    · cases failed

end Assembly

end NandTools
