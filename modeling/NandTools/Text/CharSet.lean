/-! Sets of characters as tables of stretches of code points. -/
namespace NandTools.Text

/-- The first and the last code point of every stretch, in order. -/
abbrev CharSet := List (Nat × Nat)

def CharSet.has (set : CharSet) (c : Char) : Bool :=
  set.any fun (first, last) => first ≤ c.toNat && c.toNat ≤ last

end NandTools.Text
