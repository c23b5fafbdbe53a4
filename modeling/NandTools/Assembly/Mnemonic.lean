/-! The parts of a computing instruction and their bits. -/
namespace NandTools.Mnemonic

/-- Computations: the bit that selects memory, then the six control bits. -/
def comps : List (String × String) :=
  [ ("0", "0101010"), ("1", "0111111"), ("-1", "0111010"),
    ("D", "0001100"), ("A", "0110000"), ("!D", "0001101"), ("!A", "0110001"),
    ("-D", "0001111"), ("-A", "0110011"),
    ("D+1", "0011111"), ("1+D", "0011111"), ("A+1", "0110111"), ("1+A", "0110111"),
    ("D-1", "0001110"), ("A-1", "0110010"),
    ("D+A", "0000010"), ("A+D", "0000010"), ("D-A", "0010011"), ("A-D", "0000111"),
    ("D&A", "0000000"), ("A&D", "0000000"), ("D|A", "0010101"), ("A|D", "0010101"),
    ("M", "1110000"), ("!M", "1110001"), ("-M", "1110011"),
    ("M+1", "1110111"), ("1+M", "1110111"), ("M-1", "1110010"),
    ("D+M", "1000010"), ("M+D", "1000010"), ("D-M", "1010011"), ("M-D", "1000111"),
    ("D&M", "1000000"), ("M&D", "1000000"), ("D|M", "1010101"), ("M|D", "1010101") ]

def jumps : List (String × String) :=
  [ ("", "000"), ("JGT", "001"), ("JEQ", "010"), ("JGE", "011"),
    ("JLT", "100"), ("JNE", "101"), ("JLE", "110"), ("JMP", "111") ]

def compBits? (comp : String) : Option String := comps.lookup comp

def jumpBits? (jump : String) : Option String := jumps.lookup jump

/-- The registers named by a destination, in any order and each at most once. -/
structure Dest where
  a : Bool
  d : Bool
  m : Bool
deriving Repr, DecidableEq

namespace Dest

def add? (dest : Dest) (register : Char) : Option Dest :=
  match register with
  | 'A' => if dest.a then none else some { dest with a := true }
  | 'D' => if dest.d then none else some { dest with d := true }
  | 'M' => if dest.m then none else some { dest with m := true }
  | _ => none

def ofList? (registers : List Char) : Option Dest := registers.foldlM add? ⟨false, false, false⟩

def bits (dest : Dest) : String :=
  String.ofList ([dest.a, dest.d, dest.m].map fun bit => if bit then '1' else '0')

end Dest

def destBits? (dest : String) : Option String := (Dest.ofList? dest.toList).map Dest.bits

end NandTools.Mnemonic
