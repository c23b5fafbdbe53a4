import NandTools.Grammar.Rule
import NandTools.Limits
import NandTools.Log.Code
import NandTools.Token

/-! The variables of one scope in the order of their declaration. A variable is numbered among
those of its kind. -/
namespace NandTools

inductive SymbolKind where
  | static | field | argument | local_
deriving Repr, DecidableEq, Inhabited

namespace SymbolKind

def text : SymbolKind → String
  | static => "static"
  | field => "field"
  | argument => "argument"
  | local_ => "local"

def all : List SymbolKind := [static, field, argument, local_]

/-- The memory segment that holds variables of this kind. -/
def segment : SymbolKind → String
  | static => "static"
  | field => "this"
  | argument => "argument"
  | local_ => "local"

/-- The kind of variable that a declaration's first word announces. -/
def ofToken? : TokenKind → Option SymbolKind
  | .keyword .static => some static
  | .keyword .field => some field
  | .keyword .var => some local_
  | _ => none

end SymbolKind

inductive SymbolType where
  | int | char | boolean
  | className (name : String)
deriving Repr, DecidableEq, Inhabited

namespace SymbolType

def text : SymbolType → String
  | int => "int"
  | char => "char"
  | boolean => "boolean"
  | className name => name

def ofToken? (token : Token) : Option SymbolType :=
  match token.kind with
  | .keyword .int => some int
  | .keyword .char => some char
  | .keyword .boolean => some boolean
  | .identifier => some (className token.literal)
  | _ => none

end SymbolType

structure SymbolEntry where
  name : String
  kind : SymbolKind
  type : SymbolType
  index : Nat
deriving Repr, DecidableEq, Inhabited

inductive SymbolError where
  | duplicateSymbol (name scope : String)
  | tooManySymbols (scope : String) (limit : Nat)
  | malformedDeclaration (rule : Rule) (detail : String)
deriving Repr, DecidableEq

namespace SymbolError

def message : SymbolError → String
  | duplicateSymbol name scope => s!"Duplicate symbol '{name}' in {scope}"
  | tooManySymbols scope limit => s!"Too many symbols in {scope} (max {limit})"
  | malformedDeclaration rule detail => s!"Malformed {rule.name}: {detail}"

def code : SymbolError → Code
  | duplicateSymbol .. => .duplicateSymbol
  | tooManySymbols .. => .tooManySymbols
  | malformedDeclaration .. => .malformedDeclaration

end SymbolError

structure SymbolTable where
  scope : String
  entries : Array SymbolEntry
deriving Repr, DecidableEq

namespace SymbolTable

def empty (scope : String) : SymbolTable := ⟨scope, #[]⟩

def size (table : SymbolTable) : Nat := table.entries.size

def get? (table : SymbolTable) (name : String) : Option SymbolEntry :=
  table.entries.find? (·.name == name)

def contains (table : SymbolTable) (name : String) : Bool := table.entries.any (·.name == name)

def count (table : SymbolTable) (kind : SymbolKind) : Nat :=
  table.entries.countP (·.kind == kind)

/-- Add a variable under the next number of its kind. A name that is taken is refused first, then
a table that is full. -/
def define (table : SymbolTable) (name : String) (kind : SymbolKind) (type : SymbolType) :
    Except SymbolError (SymbolEntry × SymbolTable) :=
  if table.contains name then .error (.duplicateSymbol name table.scope)
  else if table.size ≥ Limits.symbolsPerScope then
    .error (.tooManySymbols table.scope Limits.symbolsPerScope)
  else
    let entry := ⟨name, kind, type, table.count kind⟩
    .ok (entry, { table with entries := table.entries.push entry })

end SymbolTable

end NandTools
