import NandTools.Proofs.Parser.Soundness
import NandTools.Proofs.Symbols.Outline

/-! The variables that are collected from a class are those that it declares. -/
namespace NandTools

namespace SubroutineOutline

/-- The variables in the scope of a subroutine. A method has its object before all others. -/
def scope (className : String) (s : SubroutineOutline) : List Variable :=
  (if s.kind = .method then [⟨"this", .argument, .className className⟩] else []) ++
    (s.parameters ++ s.locals)

def symbols (className : String) (s : SubroutineOutline) : SubroutineSymbols where
  name := s.name
  kind := s.kind
  returns? := s.returns?
  table := .of s!"{className}.{s.name}" (s.scope className)

end SubroutineOutline

namespace ClassOutline

def symbols (c : ClassOutline) : ClassSymbols where
  name := c.name
  table := .of c.name c.vars
  subroutines := (c.subroutines.map (·.symbols c.name)).toArray

/-- No scope has two variables of one name or too many of them, and there are not too many
subroutines. -/
structure Fits (c : ClassOutline) : Prop where
  vars : Variable.Fit c.vars
  scopes : ∀ s ∈ c.subroutines, Variable.Fit (s.scope c.name)
  subroutines : c.subroutines.length ≤ Limits.subroutines

end ClassOutline

theorem Parameters.kind {list : List Tree} {vars : List Variable} (listed : Parameters list vars) :
    ∀ v ∈ vars, v.kind = .argument := by
  induction listed with
  | last => simp
  | more _ _ _ _ ih => exact List.forall_mem_cons.mpr ⟨rfl, ih⟩

theorem Parenthesized.kind {list : List Tree} {vars : List Variable}
    (parenthesized : Parenthesized list vars) : ∀ v ∈ vars, v.kind = .argument := by
  cases parenthesized with
  | empty => exact nofun
  | inside _ listed | behind _ listed => exact listed.kind

namespace SubroutineOutline

variable {s : SubroutineOutline} {tree : Tree}

/-- In a method the object comes first and the parameters are numbered from one. -/
theorem method_entries (className : String) (described : s.Describes tree)
    (method : s.kind = .method) :
    (s.symbols className).table.entries[0]? = some ⟨"this", .argument, .className className, 0⟩ ∧
      ∀ i v, s.parameters[i]? = some v →
        (s.symbols className).table.entries[i + 1]? =
          some ⟨v.name, .argument, v.type, i + 1⟩ := by
  have arguments : ∀ v ∈ s.parameters, v.kind = .argument := by
    obtain ⟨_, _, _, _, parenthesized, _⟩ := described
    exact parenthesized.kind
  simp only [symbols, SymbolTable.of, scope, method, if_true, List.singleton_append,
    List.getElem?_toArray, Variable.getElem?_entries, List.nil_append]
  refine ⟨rfl, fun i v parameter => ?_⟩
  obtain ⟨inside, rfl⟩ := List.getElem?_eq_some_iff.mp parameter
  have kind := arguments _ (List.getElem_mem inside)
  have counted : (s.parameters.take i).countP (·.kind == .argument) = i := by
    rw [List.countP_eq_length.mpr fun v member => ?_, List.length_take_of_le (Nat.le_of_lt inside)]
    exact beq_iff_eq.mpr (arguments v (List.mem_of_mem_take member))
  rw [List.getElem?_cons_succ, List.getElem?_append_left inside, parameter, Option.map_some,
    List.take_succ_cons, List.take_append_of_le_length (Nat.le_of_lt inside), List.countP_cons, kind,
    counted]
  rfl

end SubroutineOutline

theorem SymbolType.Spelled.ofToken {token : Token} {type : SymbolType}
    (spelled : SymbolType.Spelled token type) :
    SymbolType.ofToken? token = some type ∧ (token.kind != .sign .comma) = true := by
  cases spelled with
  | _ => exact ⟨rfl, rfl⟩

theorem SymbolKind.Announced.ofToken {rule : Rule} {token : Token} {kind : SymbolKind}
    (announced : SymbolKind.Announced rule token kind) :
    SymbolKind.ofToken? token.kind = some kind := by
  cases announced with
  | _ => rfl

theorem SubroutineKind.Announced.ofToken {token : Token} {kind : SubroutineKind}
    (announced : SubroutineKind.Announced token kind) :
    SubroutineKind.ofToken? token.kind = some kind := by
  cases announced with
  | _ => rfl

theorem SymbolType.Returned.ofToken {token : Token} {returns? : Option SymbolType}
    (returned : SymbolType.Returned token returns?) :
    SymbolType.ofToken? token = returns? ∧ ¬ (token.kind ≠ .keyword .void ∧ returns? = none) := by
  cases returned with
  | void => exact ⟨rfl, fun wrong => wrong.1 rfl⟩
  | value spelled => exact ⟨spelled.ofToken.1, fun wrong => nomatch wrong.2⟩

namespace Tree

variable {rule : Rule} {trees : List Tree}

theorem childTokens_branch (rule : Rule) (children : List Tree) (closed : Bool) :
    (branch rule children closed).childTokens = children.filterMap token? := rfl

theorem filterMap_leaf (token : Token) (rest : List Tree) :
    (leaf token :: rest).filterMap token? = token :: rest.filterMap token? := rfl

private theorem filter_isRule_self (all : ∀ tree ∈ trees, tree.rule? = some rule) :
    trees.filter (·.isRule rule) = trees := by
  rw [List.filter_eq_self]
  intro tree member
  rw [isRule, all tree member, beq_self_eq_true]

private theorem filter_isRule_other (none : ∀ tree ∈ trees, tree.rule? ≠ some rule) :
    trees.filter (·.isRule rule) = [] := by
  rw [List.filter_eq_nil_iff]
  intro tree member
  rw [isRule, beq_iff_eq]
  exact none tree member

/-- Among parts of other kinds only those of this rule are picked. -/
private theorem filter_isRule_append (front : List Tree) {back : List Tree}
    (all : ∀ tree ∈ trees, tree.rule? = some rule) (before : front.filter (·.isRule rule) = [])
    (after : ∀ tree ∈ back, tree.rule? ≠ some rule) :
    (front ++ (trees ++ back)).filter (·.isRule rule) = trees := by
  rw [List.filter_append, List.filter_append, before, filter_isRule_self all,
    filter_isRule_other after, List.nil_append, List.append_nil]

end Tree

private theorem partners_of_forall₂ {α β : Type} {related : α → β → Prop} {as : List α}
    {bs : List β} (all : List.Forall₂ related as bs) :
    (∀ a ∈ as, ∃ b, related a b) ∧ ∀ b ∈ bs, ∃ a, related a b := by
  induction all with
  | nil => exact ⟨List.forall_mem_nil _, List.forall_mem_nil _⟩
  | cons first _ ih =>
    obtain ⟨left, right⟩ := ih
    exact ⟨List.forall_mem_cons.mpr ⟨⟨_, first⟩, left⟩,
      List.forall_mem_cons.mpr ⟨⟨_, first⟩, right⟩⟩

theorem Declares.rule_of_mem {rule : Rule} {trees : List Tree} {vars : List (List Variable)}
    (declared : List.Forall₂ (Declares rule) trees vars) :
    ∀ tree ∈ trees, tree.rule? = some rule := by
  intro tree member
  obtain ⟨_, declares⟩ := (partners_of_forall₂ declared).1 tree member
  cases declares
  rfl

theorem SubroutineOutline.Describes.rule_of_mem {trees : List Tree}
    {subroutines : List SubroutineOutline}
    (described : List.Forall₂ (fun tree s => SubroutineOutline.Describes s tree) trees subroutines) :
    ∀ tree ∈ trees, tree.rule? = some .subroutineDec := by
  intro tree member
  obtain ⟨_, describes⟩ := (partners_of_forall₂ described).1 tree member
  cases describes
  rfl

theorem Names.literals {list : List Tree} {names : List String} (listed : Names list names) :
    ((list.filterMap Tree.token?).filter (·.kind == .identifier)).map (·.literal) = names := by
  induction listed with
  | last => rfl
  | more name literal _ ih =>
    rw [Tree.filterMap_leaf, Tree.filterMap_leaf, List.filter_cons_of_pos rfl,
      List.filter_cons_of_neg (by simp), List.map_cons, ih]

namespace SymbolTable

variable {table : SymbolTable}

theorem defineEach_append (first second : List Variable) :
    table.defineEach (first ++ second) =
      table.defineEach first >>= fun table => table.defineEach second :=
  List.foldlM_append

theorem defineEach_singleton (v : Variable) :
    table.defineEach [v] = (table.define v.name v.kind v.type).map (·.2) := by
  rw [defineEach, List.foldlM_cons]
  exact bind_pure _

theorem declare_eq {rule : Rule} {tree : Tree} {vars : List Variable}
    (declared : Declares rule tree vars) : table.declare tree = table.defineEach vars := by
  obtain ⟨announced, spelled, listed⟩ := declared
  simp only [declare, Tree.childTokens_branch, Tree.filterMap_leaf, announced.ofToken,
    spelled.ofToken.1, listed.literals, defineAll, defineEach, List.foldlM_map]

theorem declare_each {rule : Rule} {declarations : List Tree} {vars : List (List Variable)}
    (declared : List.Forall₂ (Declares rule) declarations vars) :
    declarations.foldlM declare table = table.defineEach vars.flatten := by
  induction declared generalizing table with
  | nil => rfl
  | cons first _ ih =>
    rw [List.foldlM_cons, List.flatten_cons, defineEach_append, declare_eq first]
    exact congrArg _ (funext fun table => ih)

private theorem filter_parameter {typed : Token} {type : SymbolType}
    (spelled : SymbolType.Spelled typed type) (name : String) (rest : List Token) :
    (typed :: ⟨.identifier, name⟩ :: rest).filter (·.kind != .sign .comma) =
      typed :: ⟨.identifier, name⟩ :: rest.filter (·.kind != .sign .comma) := by
  have other := spelled.ofToken.2
  simp [bne_iff_ne.mp other]

private theorem defineParameters_cons {typed : Token} {type : SymbolType}
    (spelled : SymbolType.Spelled typed type) (name : String) (rest : List Token) :
    table.defineParameters (typed :: ⟨.identifier, name⟩ :: rest) =
      (table.define name .argument type).map (·.2) >>= fun table => table.defineParameters rest := by
  rw [defineParameters]
  simp only [spelled.ofToken.1]
  cases table.define name .argument type <;> rfl

private theorem defineParameters_eq {list : List Tree} {vars : List Variable}
    (listed : Parameters list vars) :
    ((list.filterMap Tree.token?).filter (·.kind != .sign .comma)).length % 2 = 0 ∧
      ∀ table : SymbolTable, table.defineParameters
        ((list.filterMap Tree.token?).filter (·.kind != .sign .comma)) = table.defineEach vars := by
  induction listed with
  | last name spelled =>
    rw [Tree.filterMap_leaf, Tree.filterMap_leaf, filter_parameter spelled]
    constructor
    · simp
    · intro table
      rw [defineParameters_cons spelled]
      rfl
  | more name literal spelled _ ih =>
    obtain ⟨even, defined⟩ := ih
    rw [Tree.filterMap_leaf, Tree.filterMap_leaf, Tree.filterMap_leaf, filter_parameter spelled,
      List.filter_cons_of_neg (by simp)]
    constructor
    · rw [List.length_cons, List.length_cons, Nat.add_assoc, Nat.add_mod_right, even]
    · intro table
      rw [defineParameters_cons spelled]
      exact congrArg _ (funext defined)

theorem declareParameters_eq {list : List Tree} {vars : List Variable} {closed : Bool}
    (listed : Parameters list vars) :
    table.declareParameters (.branch .parameterList list closed) = table.defineEach vars := by
  obtain ⟨even, defined⟩ := defineParameters_eq listed
  simp only [declareParameters, Tree.childTokens_branch, even, ne_eq, not_true_eq_false, if_false,
    defined]

end SymbolTable

namespace SubroutineSymbols

variable {className : String} {tree : Tree}

theorem receiver_eq (className : String) (kind : SubroutineKind) (scope : String) :
    receiver className kind (.empty scope) = (SymbolTable.of scope []).defineEach
      (if kind = .method then [⟨"this", .argument, .className className⟩] else []) := by
  unfold receiver
  split
  · rw [SymbolTable.defineEach_singleton]
    rfl
  · rfl

private theorem body_parameterList {vars : List Variable} (filled : Body tree vars) :
    [tree].filter (·.isRule .parameterList) = [] := by
  cases filled
  rfl

private theorem body_subroutineBody {vars : List Variable} (filled : Body tree vars) :
    [tree].filter (·.isRule .subroutineBody) = [tree] := by
  cases filled
  rfl

private theorem locals_eq {vars : List Variable} {table : SymbolTable} (filled : Body tree vars) :
    (tree.childRules .varDec).foldlM SymbolTable.declare table = table.defineEach vars := by
  obtain ⟨opening, ending, declared, commands⟩ := filled
  rw [← SymbolTable.declare_each declared]
  refine congrArg (List.foldlM SymbolTable.declare table) ?_
  refine Tree.filter_isRule_append [_] (Declares.rule_of_mem declared) rfl fun tree member => ?_
  rcases List.mem_append.mp member with statement | brace
  · obtain ⟨rule, named, command⟩ := commands tree statement
    rw [named]
    rintro ⟨⟩
    cases command
  · rw [List.mem_singleton.mp brace]
    exact nofun

variable {list : List Tree} {vars : List Variable}

private theorem parameters_eq {table : SymbolTable} (parenthesized : Parenthesized list vars) :
    (list.filter (·.isRule .parameterList)).foldlM SymbolTable.declareParameters table =
      table.defineEach vars := by
  cases parenthesized with
  | empty => rfl
  | inside literal listed | behind literal listed =>
    rw [← SymbolTable.declareParameters_eq listed]
    exact bind_pure _

private theorem no_body_of_parenthesized (parenthesized : Parenthesized list vars) :
    list.filter (·.isRule .subroutineBody) = [] := by
  cases parenthesized with
  | _ => rfl

/-- The constructs of a subroutine stand behind the four tokens of its signature. -/
private theorem childRules_subroutine {word returned name opening : Token} {body : Tree}
    {closed : Bool} (rule : Rule) :
    (Tree.branch .subroutineDec (.leaf word :: .leaf returned :: .leaf name :: .leaf opening ::
      (list ++ [body])) closed).childRules rule =
        list.filter (·.isRule rule) ++ [body].filter (·.isRule rule) :=
  List.filter_append ..

/-- The variables in the scope of a subroutine are added in their order. -/
theorem ofTree_eq {s : SubroutineOutline} (described : s.Describes tree) :
    ofTree className tree =
      ((SymbolTable.of s!"{className}.{s.name}" []).defineEach (s.scope className)).map
        fun table => ⟨s.name, s.kind, s.returns?, table⟩ := by
  obtain ⟨name, literal, announced, returned, parenthesized, filled⟩ := described
  obtain ⟨type, typed⟩ := returned.ofToken
  simp only [ofTree, Tree.childTokens_branch, Tree.filterMap_leaf, announced.ofToken, type, typed,
    if_false, childRules_subroutine, body_parameterList filled, body_subroutineBody filled,
    no_body_of_parenthesized parenthesized, List.append_nil, List.nil_append, List.flatMap_singleton,
    receiver_eq, parameters_eq parenthesized, locals_eq filled, SubroutineOutline.scope,
    SymbolTable.defineEach_append]
  refine Eq.trans ?_ (map_eq_pure_bind _ _).symm
  simp only [bind_assoc]

/-- A subroutine is collected just where its scope fits. -/
theorem ofTree_settles {s : SubroutineOutline} (described : s.Describes tree) :
    Settles (Variable.Fit (s.scope className)) (ofTree className tree) (s.symbols className) := by
  have nothing : Variable.Fit [] := ⟨.nil, Nat.zero_le _⟩
  rw [ofTree_eq described]
  exact (SymbolTable.defineEach_of (s.scope className) nothing).map _

end SubroutineSymbols

namespace ClassSymbols

theorem addSubroutines_settle {members : List Tree} {subroutines : List SubroutineOutline}
    (described : List.Forall₂ (fun tree s => SubroutineOutline.Describes s tree) members subroutines)
    (symbols : ClassSymbols) (few : symbols.subroutines.size ≤ Limits.subroutines) :
    Settles ((∀ s ∈ subroutines, Variable.Fit (s.scope symbols.name)) ∧
        symbols.subroutines.size + subroutines.length ≤ Limits.subroutines)
      (members.foldlM addSubroutine symbols)
      { symbols with
        subroutines := symbols.subroutines ++ (subroutines.map (·.symbols symbols.name)).toArray } := by
  induction described generalizing symbols with
  | nil =>
    refine .inl ⟨⟨nofun, few⟩, ?_⟩
    rw [List.map_nil, Array.append_empty]
    rfl
  | @cons tree s _ subroutines first _ ih =>
    rw [List.foldlM_cons]
    have counted : symbols.subroutines.size + (s :: subroutines).length =
        (symbols.subroutines.push (s.symbols symbols.name)).size + subroutines.length := by
      simp only [List.length_cons, Array.size_push]
      omega
    have pushed : symbols.subroutines ++ ((s :: subroutines).map (·.symbols symbols.name)).toArray =
        symbols.subroutines.push (s.symbols symbols.name) ++
          (subroutines.map (·.symbols symbols.name)).toArray := by
      simp
    rw [counted, pushed, List.forall_mem_cons]
    unfold addSubroutine
    split
    · next full =>
      refine .inr ⟨fun ⟨_, room⟩ => ?_, _, rfl, fun _ _ => nofun⟩
      rw [Array.size_push] at room
      omega
    · next room =>
      refine ((SubroutineSymbols.ofTree_settles first).map _).bind (fun scope => ?_)
        fun fits => fits.1.1
      refine (ih { symbols with subroutines := symbols.subroutines.push (s.symbols symbols.name) }
        (by rw [Array.size_push]; omega)).congr ?_
      simp only [scope, true_and]

section

variable {first second third last : Token} {declarations members : List Tree} {closed : Bool}

private theorem childRules_classVarDec
    (declared : ∀ tree ∈ declarations, tree.rule? = some .classVarDec)
    (described : ∀ tree ∈ members, tree.rule? = some .subroutineDec) :
    (Tree.branch .class_ (.leaf first :: .leaf second :: .leaf third ::
      (declarations ++ (members ++ [.leaf last]))) closed).childRules .classVarDec =
        declarations := by
  refine Tree.filter_isRule_append [_, _, _] declared rfl fun tree member => ?_
  rcases List.mem_append.mp member with subroutine | brace
  · rw [described tree subroutine]
    exact nofun
  · rw [List.mem_singleton.mp brace]
    exact nofun

private theorem childRules_subroutineDec
    (declared : ∀ tree ∈ declarations, tree.rule? = some .classVarDec)
    (described : ∀ tree ∈ members, tree.rule? = some .subroutineDec) :
    (Tree.branch .class_ (.leaf first :: .leaf second :: .leaf third ::
      (declarations ++ (members ++ [.leaf last]))) closed).childRules .subroutineDec = members := by
  refine Tree.filter_isRule_append (_ :: _ :: _ :: declarations) described
    (Tree.filter_isRule_other ?_) fun tree brace => ?_
  · simp only [List.forall_mem_cons]
    refine ⟨nofun, nofun, nofun, fun tree member => ?_⟩
    rw [declared tree member]
    exact nofun
  · rw [List.mem_singleton.mp brace]
    exact nofun

end

/-- A class is collected just where it fits. -/
theorem ofTree_settles {tree : Tree} {c : ClassOutline} (described : c.Describes tree) :
    Settles c.Fits (ofTree tree) c.symbols := by
  have nothing : Variable.Fit [] := ⟨.nil, Nat.zero_le _⟩
  obtain @⟨_, _, vars, subroutines, _, name, word, opening, ending, declared, described⟩ := described
  have declarations := Declares.rule_of_mem declared
  have members := SubroutineOutline.Describes.rule_of_mem described
  unfold ofTree
  simp only [Tree.childTokens_branch, Tree.filterMap_leaf,
    childRules_classVarDec declarations members, childRules_subroutineDec declarations members,
    SymbolTable.declare_each declared]
  refine (SymbolTable.defineEach_of _ nothing).bind (fun scope => ?_) fun fits => fits.vars
  have added := addSubroutines_settle described ⟨name, .of name vars.flatten, #[]⟩ (Nat.zero_le _)
  simp only [Array.empty_append, Array.size_empty, Nat.zero_add] at added
  exact added.congr
    ⟨fun fits => ⟨scope, fits.1, fits.2⟩, fun fits => ⟨fits.scopes, fits.subroutines⟩⟩

/-- A class that has been read declares something. Whatever it declares, its declarations are never
malformed; its variables are collected just where no scope has two of one name or too many of them,
and there are not too many subroutines; and those that are collected are those that it declares, in
their order, each with its number among those of its kind before it. In a method the parameters come
after the object. -/
theorem collect_of_parsed {σ : Type} [TokenSupply σ] {p : Parser σ} {tree : Tree}
    (parsed : p.parseClass.1 = .ok tree) :
    (∃ outline : ClassOutline, outline.Describes tree) ∧
      ∀ outline : ClassOutline, outline.Describes tree →
        (∀ rule detail, (collect tree).1 ≠ .error (.malformedDeclaration rule detail)) ∧
        ((∃ symbols, (collect tree).1 = .ok symbols) ↔ outline.Fits) ∧
        (∀ symbols, (collect tree).1 = .ok symbols → symbols = outline.symbols) ∧
        ∀ s ∈ outline.subroutines, s.kind = .method →
          (s.symbols outline.name).table.entries[0]? =
              some ⟨"this", .argument, .className outline.name, 0⟩ ∧
            ∀ i v, s.parameters[i]? = some v →
              (s.symbols outline.name).table.entries[i + 1]? =
                some ⟨v.name, .argument, v.type, i + 1⟩ := by
  obtain ⟨named, assembled⟩ := Parser.parseClass_assembled parsed
  refine ⟨Tree.describes_of_derivation named assembled.derivation, fun outline described => ?_⟩
  have collected : (collect tree).1 = ofTree tree := by
    unfold collect
    dsimp only
    split <;> rfl
  have settles := ofTree_settles described
  rw [collected]
  refine ⟨settles.wellformed, ⟨?_, fun fits => ⟨_, (settles.ok_iff _).mpr ⟨fits, rfl⟩⟩⟩,
    fun symbols ok => ((settles.ok_iff symbols).mp ok).2, fun s member method => ?_⟩
  · rintro ⟨symbols, ok⟩
    exact ((settles.ok_iff symbols).mp ok).1
  · obtain ⟨_, _, _, _, _, described⟩ := described
    obtain ⟨_, described⟩ := (partners_of_forall₂ described).2 s member
    exact s.method_entries _ described method

private def pointText : String :=
  "class P { static int n; field int x, y; method P f(int a, P b) { var int c; return b; } }"

private def pointSymbols : ClassSymbols where
  name := "P"
  table := ⟨"P", #[⟨"n", .static, .int, 0⟩, ⟨"x", .field, .int, 0⟩, ⟨"y", .field, .int, 1⟩]⟩
  subroutines := #[⟨"f", .method, some (.className "P"), "P.f",
    #[⟨"this", .argument, .className "P", 0⟩, ⟨"a", .argument, .int, 1⟩,
      ⟨"b", .argument, .className "P", 2⟩, ⟨"c", .local_, .int, 0⟩]⟩]

/-- A class with variables of every kind is read, collected, and declares what is collected. -/
theorem collect_of_parsed_of_method :
    ∃ tree, (Parser.ofSupply (Scanner.ofText pointText.toList) Limits.parseDepth).parseClass.1 =
        .ok tree ∧ (collect tree).1 = .ok pointSymbols ∧
      ∃ outline : ClassOutline, outline.Describes tree ∧ outline.Fits ∧
        outline.symbols = pointSymbols := by
  have read : (Parser.ofSupply (Scanner.ofText pointText.toList) Limits.parseDepth).parseClass.1
      |>.toOption.any fun tree => (collect tree).1 = .ok pointSymbols := by
    decide +kernel
  obtain ⟨tree, present, agreed⟩ := (Option.any_eq_true _ _).mp read
  have parsed := Except.ok_of_toOption present
  have collected := of_decide_eq_true agreed
  obtain ⟨⟨outline, described⟩, all⟩ := collect_of_parsed parsed
  obtain ⟨_, fits, same, _⟩ := all outline described
  exact ⟨tree, parsed, collected, outline, described, fits.mp ⟨_, collected⟩,
    (same _ collected).symm⟩

end ClassSymbols

end NandTools
