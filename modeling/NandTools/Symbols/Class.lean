import NandTools.Log.Event
import NandTools.Symbols.Table
import NandTools.Tree

/-! The variables of a class and of its subroutines, collected from its tree. -/
namespace NandTools

inductive SubroutineKind where
  | constructor | function | method
deriving Repr, DecidableEq, Inhabited

def SubroutineKind.ofToken? : TokenKind → Option SubroutineKind
  | .keyword .constructor => some constructor
  | .keyword .function => some function
  | .keyword .method => some method
  | _ => none

/-- Without a type a subroutine returns nothing. -/
structure SubroutineSymbols where
  name : String
  kind : SubroutineKind
  returns? : Option SymbolType
  table : SymbolTable
deriving Repr, DecidableEq

structure ClassSymbols where
  name : String
  table : SymbolTable
  subroutines : Array SubroutineSymbols
deriving Repr, DecidableEq

namespace SymbolTable

/-- Add variables of one kind and type. -/
def defineAll (table : SymbolTable) (kind : SymbolKind) (type : SymbolType)
    (names : List String) : Except SymbolError SymbolTable :=
  names.foldlM (fun table name => (table.define name kind type).map (·.2)) table

/-- Add what a declaration `kind type name, name, ... ;` declares. -/
def declare (table : SymbolTable) (declaration : Tree) : Except SymbolError SymbolTable :=
  let malformed (detail : String) : SymbolError :=
    .malformedDeclaration (declaration.rule?.getD .varDec) detail
  match declaration.childTokens with
  | word :: type :: rest =>
    match SymbolKind.ofToken? word.kind, SymbolType.ofToken? type with
    | none, _ => .error (malformed "unknown declaration keyword")
    | some _, none => .error (malformed "invalid type")
    | some kind, some type =>
      table.defineAll kind type ((rest.filter (·.kind == .identifier)).map (·.literal))
  | _ => .error (malformed "truncated declaration")

/-- Add parameters given as types and names by turns. -/
def defineParameters (table : SymbolTable) : List Token → Except SymbolError SymbolTable
  | type :: name :: rest =>
    match SymbolType.ofToken? type with
    | none => .error (.malformedDeclaration .parameterList "invalid parameter type")
    | some type =>
      match table.define name.literal .argument type with
      | .error e => .error e
      | .ok (_, table) => table.defineParameters rest
  | _ => .ok table

/-- Add what a list `type name, type name, ...` declares. -/
def declareParameters (table : SymbolTable) (parameters : Tree) : Except SymbolError SymbolTable :=
  let tokens := parameters.childTokens.filter (·.kind != .sign .comma)
  if tokens.length % 2 ≠ 0 then
    .error (.malformedDeclaration .parameterList "parameter without a name")
  else table.defineParameters tokens

end SymbolTable

namespace SubroutineSymbols

/-- A method has its object as the first argument. -/
def receiver (className : String) (kind : SubroutineKind) (table : SymbolTable) :
    Except SymbolError SymbolTable :=
  if kind = .method then (table.define "this" .argument (.className className)).map (·.2)
  else .ok table

def ofTree (className : String) (declaration : Tree) : Except SymbolError SubroutineSymbols :=
  let malformed (detail : String) : SymbolError := .malformedDeclaration .subroutineDec detail
  match declaration.childTokens with
  | word :: returned :: name :: _ =>
    match SubroutineKind.ofToken? word.kind with
    | none => .error (malformed "expected constructor, function or method")
    | some kind =>
      let type? := SymbolType.ofToken? returned
      if returned.kind ≠ .keyword .void ∧ type? = none then .error (malformed "invalid return type")
      else do
        let table ← receiver className kind (.empty s!"{className}.{name.literal}")
        let table ← (declaration.childRules .parameterList).foldlM SymbolTable.declareParameters table
        let locals := (declaration.childRules .subroutineBody).flatMap (·.childRules .varDec)
        let table ← locals.foldlM SymbolTable.declare table
        return ⟨name.literal, kind, type?, table⟩
  | _ => .error (malformed "truncated signature")

end SubroutineSymbols

namespace ClassSymbols

/-- Add a subroutine, unless there are as many as a class may have. -/
def addSubroutine (symbols : ClassSymbols) (declaration : Tree) : Except SymbolError ClassSymbols :=
  if symbols.subroutines.size ≥ Limits.subroutines then
    .error (.tooManySymbols s!"subroutines of {symbols.name}" Limits.subroutines)
  else
    (SubroutineSymbols.ofTree symbols.name declaration).map fun subroutine =>
      { symbols with subroutines := symbols.subroutines.push subroutine }

def ofTree (tree : Tree) : Except SymbolError ClassSymbols :=
  if !tree.isRule .class_ then .error (.malformedDeclaration .class_ "root is not a class")
  else
    match tree.childTokens.find? (·.kind == .identifier) with
    | none => .error (.malformedDeclaration .class_ "missing class name")
    | some name => do
      let table ← (tree.childRules .classVarDec).foldlM SymbolTable.declare (.empty name.literal)
      (tree.childRules .subroutineDec).foldlM addSubroutine ⟨name.literal, table, #[]⟩

/-- The number of variables in all scopes. -/
def symbolCount (symbols : ClassSymbols) : Nat :=
  symbols.subroutines.foldl (fun n subroutine => n + subroutine.table.size) symbols.table.size

/-- What a name means inside a subroutine: its own variables hide those of the class. -/
def resolve? (symbols : ClassSymbols) (subroutine name : String) : Option SymbolEntry :=
  ((symbols.subroutines.find? (·.name == subroutine)).bind (·.table.get? name)).or
    (symbols.table.get? name)

/-- Collect the variables, with a report of how it went. -/
def collect (tree : Tree) : Except SymbolError ClassSymbols × Event :=
  let result := ofTree tree
  match result with
  | .ok symbols =>
    (result, .success .symbolsCollected "Symbol collection completed"
      [("class", symbols.name), ("subroutines", toString symbols.subroutines.size),
        ("symbols", toString symbols.symbolCount)])
  | .error e =>
    (result, .warning "Symbol collection failed" [("code", e.code.text), ("error", e.message)])

end ClassSymbols

end NandTools
