import Mathlib.Tactic.SplitIfs
import NandTools.Proofs.Tree.Tokens
import NandTools.Tree.Xml

/-! Trees that were written as XML are read back: the calls are gone, and of each token its kind of
element and its literal are left. The indentation is white space between tags. -/
namespace NandTools

/-- What the XML of a tree tells about it. -/
inductive Element where
  | token (element literal : String)
  | node (rule : Rule) (inside : List Element)
deriving Repr, Inhabited

mutual

/-- The tokens that an element holds, each as its name and its literal. -/
def Element.leaves : Element → List (String × String)
  | .token element literal => [(element, literal)]
  | .node _ inside => Element.allLeaves inside

def Element.allLeaves : List Element → List (String × String)
  | [] => []
  | element :: rest => element.leaves ++ Element.allLeaves rest

end

theorem Element.allLeaves_append (front back : List Element) :
    allLeaves (front ++ back) = allLeaves front ++ allLeaves back := by
  induction front with
  | nil => rfl
  | cons element front ih => rw [List.cons_append, allLeaves, allLeaves, ih, List.append_assoc]

/-! ### Reading -/
namespace Markup

/-- What stands between tags where no literal is. -/
def Padding (run : List Char) : Prop := ∀ c ∈ run, c = ' ' ∨ c = '\n'

instance (run : List Char) : Decidable (Padding run) := List.decidableBAll _ run

/-- A tag without its brackets, and the text from it to the next tag. -/
structure Mark where
  tag : List Char
  run : List Char
deriving Repr, DecidableEq

def Mark.ofSegment? (segment : List Char) : Option Mark :=
  match segment.dropWhile (· != '>') with
  | _ :: run => some ⟨segment.takeWhile (· != '>'), run⟩
  | [] => none

/-- The tags of a text, which has nothing but padding before the first of them. -/
def marks? (text : List Char) : Option (List Mark) :=
  match text.splitOnP (· == '<') with
  | lead :: segments => if Padding lead then segments.mapM Mark.ofSegment? else none
  | [] => none

inductive Tag where
  | opening (rule : Rule)
  | closing (rule : Rule)
  | token (element : String)
deriving Repr, DecidableEq

def Tag.ofName? : List Char → Option Tag
  | '/' :: name => (Rule.ofName? (.ofList name)).map .closing
  | name =>
    if .ofList name ∈ TokenKind.all.map (·.element) then some (.token (.ofList name))
    else (Rule.ofName? (.ofList name)).map .opening

def unescape? : List Char → Option (List Char)
  | [] => some []
  | '&' :: 'l' :: 't' :: ';' :: rest => (unescape? rest).map ('<' :: ·)
  | '&' :: 'g' :: 't' :: ';' :: rest => (unescape? rest).map ('>' :: ·)
  | '&' :: 'a' :: 'm' :: 'p' :: ';' :: rest => (unescape? rest).map ('&' :: ·)
  | '&' :: 'a' :: 'p' :: 'o' :: 's' :: ';' :: rest => (unescape? rest).map ('\'' :: ·)
  | '&' :: 'q' :: 'u' :: 'o' :: 't' :: ';' :: rest => (unescape? rest).map ('"' :: ·)
  | '&' :: _ => none
  | c :: rest => (unescape? rest).map (c :: ·)

/-- The literal that was written between two tags: one space on each side is not its own. -/
def literal? : List Char → Option String
  | ' ' :: rest =>
    if rest.getLast? = some ' ' then (unescape? rest.dropLast).map .ofList else none
  | _ => none

/-- Put elements together. `stack` has the productions that are open, each with the elements that
were read before it, last one first; `done` has those of the innermost one. -/
def read? (stack : List (Rule × List Element)) (done : List Element) :
    List Mark → Option (List Element)
  | [] => if stack.isEmpty then some done.reverse else none
  | mark :: rest =>
    match Tag.ofName? mark.tag with
    | some (.opening rule) => if Padding mark.run then read? ((rule, done) :: stack) [] rest else none
    | some (.closing rule) =>
      match stack with
      | (opened, before) :: stack =>
        if opened = rule ∧ Padding mark.run then read? stack (.node rule done.reverse :: before) rest
        else none
      | [] => none
    | some (.token element) =>
      match literal? mark.run, rest with
      | some literal, close :: rest =>
        if close.tag = '/' :: mark.tag ∧ Padding close.run then
          read? stack (.token element literal :: done) rest
        else none
      | _, _ => none
    | none => none

def decode? (text : String) : Option (List Element) := (marks? text.toList).bind (read? [] [])

/-- What is never torn apart: a tag of a production, or a token with both of its tags. -/
inductive Piece where
  | opening (rule : Rule)
  | closing (rule : Rule)
  | terminal (token : Token)
deriving Repr, DecidableEq

def Piece.text : Piece → String
  | opening rule => s!"<{rule.name}>"
  | closing rule => s!"</{rule.name}>"
  | terminal token => Tree.leafXml token

/-- A text that consists of these pieces and of padding around them. -/
inductive Spaced : List Piece → List Char → Prop
  | done {gap : List Char} (padding : Padding gap) : Spaced [] gap
  | piece {piece : Piece} {pieces : List Piece} {gap text : List Char} (padding : Padding gap)
      (rest : Spaced pieces text) : Spaced (piece :: pieces) (gap ++ (piece.text.toList ++ text))

/-! ### Tags in a text -/

/-- Where a text is cut: what it has before its first tag, and its tags. -/
private def Cut (text lead : List Char) (marks : List Mark) : Prop :=
  ∃ segments, text.splitOnP (· == '<') = lead :: segments ∧
    segments.mapM Mark.ofSegment? = some marks

private theorem Cut.run {text lead run : List Char} {marks : List Mark} (level : '<' ∉ run)
    (cut : Cut text lead marks) : Cut (run ++ text) (run ++ lead) marks := by
  obtain ⟨segments, split, read⟩ := cut
  refine ⟨segments, ?_, read⟩
  induction run with
  | nil => exact split
  | cons c run ih =>
    have other : (c == '<') = false := beq_eq_false_iff_ne.mpr fun same => level (by simp [same])
    have rest := ih fun member => level (List.mem_cons_of_mem _ member)
    rw [List.cons_append, List.splitOnP_cons_eq_if_modifyHead, other, rest]
    rfl

private theorem Cut.of_level {run : List Char} (level : '<' ∉ run) : Cut run run [] := by
  have empty : Cut [] [] [] := ⟨[], rfl, rfl⟩
  simpa using empty.run level

/-- Names that are written in a tag end where the tag does. -/
private def Plain (name : List Char) : Prop := '<' ∉ name ∧ '>' ∉ name

private theorem ofSegment_of_plain {name : List Char} (plain : '>' ∉ name) (run : List Char) :
    Mark.ofSegment? (name ++ '>' :: run) = some ⟨name, run⟩ := by
  have kept : ∀ c ∈ name, (c != '>') = true := by
    intro c member
    exact bne_iff_ne.mpr fun same => plain (same ▸ member)
  rw [Mark.ofSegment?, List.dropWhile_append_of_pos kept, List.takeWhile_append_of_pos kept]
  simp

private theorem Cut.tag {text name lead : List Char} {marks : List Mark} (plain : Plain name)
    (cut : Cut text lead marks) :
    Cut ('<' :: (name ++ '>' :: text)) [] (⟨name, lead⟩ :: marks) := by
  have whole : '<' ∉ name ++ ['>'] := by simp [plain.1]
  obtain ⟨segments, split, read⟩ := cut.run whole
  refine ⟨(name ++ ['>'] ++ lead) :: segments, ?_, ?_⟩
  · rw [List.splitOnP_cons_eq_if_modifyHead, if_pos (beq_self_eq_true '<')]
    rw [← split, List.append_assoc, List.singleton_append]
  · rw [List.append_assoc, List.singleton_append, List.mapM_cons, ofSegment_of_plain plain.2, read]
    rfl

/-! ### What the pieces read as -/

private theorem ofName_rule (rule : Rule) :
    Tag.ofName? rule.name.toList = some (.opening rule) ∧
      Tag.ofName? ('/' :: rule.name.toList) = some (.closing rule) := by
  cases rule <;> decide +kernel

private theorem ofName_element (kind : TokenKind) :
    Tag.ofName? kind.element.toList = some (.token kind.element) := by
  cases kind <;> simp only [TokenKind.element] <;> decide +kernel

private theorem plain_rule (rule : Rule) :
    Plain rule.name.toList ∧ Plain ('/' :: rule.name.toList) := by
  cases rule <;> (unfold Plain; decide +kernel)

private theorem plain_element (kind : TokenKind) :
    Plain kind.element.toList ∧ Plain ('/' :: kind.element.toList) := by
  cases kind <;> simp only [TokenKind.element] <;> (unfold Plain; decide +kernel)

private theorem unescape_escapeXml (c : Char) (rest : List Char) :
    unescape? (Tree.escapeXml c ++ rest) = (unescape? rest).map (c :: ·) := by
  unfold Tree.escapeXml
  split_ifs with less greater ampersand apostrophe quote
  · subst less
    rfl
  · subst greater
    rfl
  · subst ampersand
    rfl
  · subst apostrophe
    rfl
  · subst quote
    rfl
  · rw [List.singleton_append, unescape?]
    all_goals simp [ampersand]

private theorem unescape_escapeXmlText (text : List Char) :
    unescape? (text.flatMap Tree.escapeXml) = some text := by
  induction text with
  | nil => rfl
  | cons c rest ih => rw [List.flatMap_cons, unescape_escapeXml, ih, Option.map_some]

private theorem level_escapeXml (c : Char) : '<' ∉ Tree.escapeXml c := by
  unfold Tree.escapeXml
  split_ifs with less <;> first | decide | simpa using Ne.symm less

/-- The text between the tags of a token. -/
private def literalRun (token : Token) : List Char :=
  ' ' :: (token.literal.toList.flatMap Tree.escapeXml ++ [' '])

private theorem literal_run (token : Token) : literal? (literalRun token) = some token.literal := by
  simp [literalRun, literal?, unescape_escapeXmlText]

private theorem toList_text_opening (rule : Rule) :
    (Piece.opening rule).text.toList = '<' :: (rule.name.toList ++ ['>']) := by
  simp [Piece.text, toString]

private theorem toList_text_closing (rule : Rule) :
    (Piece.closing rule).text.toList = '<' :: ('/' :: rule.name.toList ++ ['>']) := by
  simp [Piece.text, toString]

private theorem toList_text_terminal (token : Token) :
    (Piece.terminal token).text.toList = '<' :: (token.kind.element.toList ++ ['>']) ++
      (literalRun token ++ '<' :: ('/' :: token.kind.element.toList ++ ['>'])) := by
  simp [Piece.text, Tree.leafXml, Tree.escapeXmlText, literalRun, toString]

/-! ### Pieces and padding -/

theorem Padding.append {front back : List Char} (before : Padding front) (after : Padding back) :
    Padding (front ++ back) := fun c member =>
  (List.mem_append.mp member).elim (before c) (after c)

theorem Spaced.behind {run : List Char} (padding : Padding run) {pieces : List Piece}
    {text : List Char} (spaced : Spaced pieces text) : Spaced pieces (run ++ text) := by
  cases spaced with
  | done gap => exact .done (padding.append gap)
  | piece gap rest =>
    rw [← List.append_assoc]
    exact .piece (padding.append gap) rest

private theorem Padding.level {run : List Char} (padding : Padding run) : '<' ∉ run := by
  intro member
  have blank := padding '<' member
  revert blank
  decide

/-- The elements that the pieces make up, as `read?` puts them together. -/
def build? (stack : List (Rule × List Element)) (done : List Element) :
    List Piece → Option (List Element)
  | [] => if stack.isEmpty then some done.reverse else none
  | .opening rule :: rest => build? ((rule, done) :: stack) [] rest
  | .closing rule :: rest =>
    match stack with
    | (opened, before) :: stack =>
      if opened = rule then build? stack (.node rule done.reverse :: before) rest else none
    | [] => none
  | .terminal token :: rest =>
    build? stack (.token token.kind.element token.literal :: done) rest

private theorem read_opening {name run : List Char} {rule : Rule}
    (known : Tag.ofName? name = some (.opening rule)) (padding : Padding run)
    (stack : List (Rule × List Element)) (done : List Element) (rest : List Mark) :
    read? stack done (⟨name, run⟩ :: rest) = read? ((rule, done) :: stack) [] rest := by
  simp only [read?, known, if_pos padding]

private theorem read_closing {name run : List Char} {rule : Rule}
    (known : Tag.ofName? name = some (.closing rule)) (padding : Padding run)
    (stack : List (Rule × List Element)) (done : List Element) (rest : List Mark) :
    read? stack done (⟨name, run⟩ :: rest) =
      match stack with
      | (opened, before) :: stack =>
        if opened = rule then read? stack (.node rule done.reverse :: before) rest else none
      | [] => none := by
  simp only [read?, known, padding, and_true]

private theorem read_terminal {run : List Char} (token : Token) (padding : Padding run)
    (stack : List (Rule × List Element)) (done : List Element) (rest : List Mark) :
    read? stack done (⟨token.kind.element.toList, literalRun token⟩ ::
        ⟨'/' :: token.kind.element.toList, run⟩ :: rest) =
      read? stack (.token token.kind.element token.literal :: done) rest := by
  simp only [read?, ofName_element, literal_run, true_and, if_pos padding]

/-- The padding between pieces makes no difference to what is read. -/
private theorem Spaced.read {pieces : List Piece} {text : List Char} (spaced : Spaced pieces text) :
    ∃ lead marks, Cut text lead marks ∧ Padding lead ∧
      ∀ stack done, read? stack done marks = build? stack done pieces := by
  induction spaced with
  | @done gap padding => exact ⟨gap, [], Cut.of_level padding.level, padding, fun _ _ => rfl⟩
  | @piece piece pieces gap text padding rest ih =>
    obtain ⟨lead, marks, cut, blank, same⟩ := ih
    -- What stood before the rest of the text stands after the last tag of this piece now.
    suffices here : ∃ marks', Cut (piece.text.toList ++ text) [] marks' ∧
        ∀ stack done, read? stack done marks' = build? stack done (piece :: pieces) by
      obtain ⟨marks', cut', same'⟩ := here
      exact ⟨gap, marks', by simpa using cut'.run padding.level, padding, same'⟩
    cases piece with
    | opening rule =>
      refine ⟨⟨rule.name.toList, lead⟩ :: marks, ?_, fun stack done => ?_⟩
      · rw [toList_text_opening]
        simpa using cut.tag (plain_rule rule).1
      · rw [read_opening (ofName_rule rule).1 blank, same, build?]
    | closing rule =>
      refine ⟨⟨'/' :: rule.name.toList, lead⟩ :: marks, ?_, fun stack done => ?_⟩
      · rw [toList_text_closing]
        simpa using cut.tag (plain_rule rule).2
      · rw [read_closing (ofName_rule rule).2 blank]
        cases stack <;> simp only [same, build?]
    | terminal token =>
      have level : '<' ∉ literalRun token := by simp [literalRun, level_escapeXml]
      have content := (cut.tag (plain_element token.kind).2).run level
      refine ⟨⟨token.kind.element.toList, literalRun token⟩ ::
        ⟨'/' :: token.kind.element.toList, lead⟩ :: marks, ?_, fun stack done => ?_⟩
      · rw [toList_text_terminal]
        simpa using content.tag (plain_element token.kind).1
      · rw [read_terminal token blank, same, build?]

private theorem Spaced.decode {pieces : List Piece} {text : String}
    (spaced : Spaced pieces text.toList) : decode? text = build? [] [] pieces := by
  obtain ⟨lead, marks, ⟨segments, split, read⟩, padding, same⟩ := spaced.read
  simp only [decode?, marks?, split, if_pos padding, read, Option.bind_some, same]

end Markup

/-! ### Trees -/
namespace Tree

open Markup

mutual

/-- What the written tree is made of. -/
def pieces : Tree → List Piece
  | leaf token => [.terminal token]
  | branch .subroutineCall children _ => allPieces children
  | branch rule children _ => .opening rule :: (allPieces children ++ [.closing rule])

def allPieces : List Tree → List Piece
  | [] => []
  | tree :: rest => tree.pieces ++ allPieces rest

end

mutual

/-- The tree without its calls, which leave their children in their place, and without the kinds
of its tokens and its closing marks. -/
def elements : Tree → List Element
  | leaf token => [.token token.kind.element token.literal]
  | branch .subroutineCall children _ => allElements children
  | branch rule children _ => [.node rule (allElements children)]

def allElements : List Tree → List Element
  | [] => []
  | tree :: rest => tree.elements ++ allElements rest

end

section Kept

variable {rule : Rule} (kept : rule ≠ .subroutineCall) (children : List Tree) (closed : Bool)
include kept

private theorem pieces_kept : (branch rule children closed).pieces =
    .opening rule :: (allPieces children ++ [.closing rule]) := by
  rw [pieces]
  exact kept

private theorem elements_kept :
    (branch rule children closed).elements = [.node rule (allElements children)] := by
  rw [elements]
  exact kept

private theorem pushXml_kept (depth : Nat) (seen : List XmlLine) :
    pushXml depth seen (branch rule children closed) = ⟨depth, s!"</{rule.name}>"⟩ ::
      pushAllXml (depth + 1) (⟨depth, s!"<{rule.name}>"⟩ :: seen) children := by
  rw [pushXml]
  exact kept

end Kept

mutual

private theorem build_pieces (stack : List (Rule × List Element)) (done : List Element)
    (rest : List Piece) : (tree : Tree) →
    build? stack done (tree.pieces ++ rest) = build? stack (tree.elements.reverse ++ done) rest
  | leaf token => rfl
  | branch rule children closed => by
    by_cases call : rule = .subroutineCall
    · subst call
      exact build_allPieces stack done rest children
    · have inside := build_allPieces ((rule, done) :: stack) [] (.closing rule :: rest) children
      rw [pieces_kept call, elements_kept call, List.cons_append, List.append_assoc, build?,
        List.singleton_append, inside]
      simp [build?]

private theorem build_allPieces (stack : List (Rule × List Element)) (done : List Element)
    (rest : List Piece) : (trees : List Tree) →
    build? stack done (allPieces trees ++ rest) =
      build? stack ((allElements trees).reverse ++ done) rest
  | [] => rfl
  | tree :: trees => by
    rw [allPieces, List.append_assoc, build_pieces, build_allPieces, allElements,
      List.reverse_append, List.append_assoc]

end

mutual

private theorem pushXml_texts (depth : Nat) (seen : List XmlLine) : (tree : Tree) →
    (pushXml depth seen tree).map (·.text) =
      (tree.pieces.map Piece.text).reverse ++ seen.map (·.text)
  | leaf token => rfl
  | branch rule children closed => by
    by_cases call : rule = .subroutineCall
    · subst call
      exact pushAllXml_texts depth seen children
    · rw [pushXml_kept call, pieces_kept call, List.map_cons, pushAllXml_texts]
      simp [Piece.text]

private theorem pushAllXml_texts (depth : Nat) (seen : List XmlLine) : (trees : List Tree) →
    (pushAllXml depth seen trees).map (·.text) =
      ((allPieces trees).map Piece.text).reverse ++ seen.map (·.text)
  | [] => rfl
  | tree :: trees => by
    rw [pushAllXml, pushAllXml_texts, pushXml_texts, allPieces, List.map_append,
      List.reverse_append, List.append_assoc]

end

private theorem xmlLines_texts (tree : Tree) :
    tree.xmlLines.map (·.text) = tree.pieces.map Piece.text := by
  rw [xmlLines, List.map_reverse, pushXml_texts, List.map_nil, List.append_nil, List.reverse_reverse]

private theorem toList_pushn (text : String) (c : Char) (count : Nat) :
    (text.pushn c count).toList = text.toList ++ List.replicate count c := by
  rw [String.pushn_eq_repeat_push]
  induction count with
  | zero => simp [Nat.repeat]
  | succ count ih => simp [Nat.repeat, ih, List.replicate_succ']

private theorem padding_replicate (count : Nat) : Padding (List.replicate count ' ') :=
  fun _ member => .inl (List.eq_of_mem_replicate member)

/-- A line as `xml` puts it. -/
private def placed (indent : Nat) (line : XmlLine) : String :=
  "".pushn ' ' (indent * line.depth) ++ line.text

private theorem spaced_of_lines (indent : Nat) {separator : List Char} (padding : Padding separator)
    (lines : List XmlLine) (pieces : List Piece)
    (texts : lines.map (·.text) = pieces.map Piece.text) :
    Spaced pieces
      (separator.intercalate ((lines.map (placed indent)).map String.toList) ++ ['\n']) := by
  have feed : Padding ['\n'] := by decide
  induction lines generalizing pieces with
  | nil =>
    obtain rfl := List.map_eq_nil_iff.mp texts.symm
    exact .done feed
  | cons line lines ih =>
    obtain ⟨piece, pieces, rfl, text, later⟩ := List.map_eq_cons_iff.mp texts.symm
    have front : Padding (List.replicate (indent * line.depth) ' ') := padding_replicate _
    have here : (placed indent line).toList =
        List.replicate (indent * line.depth) ' ' ++ piece.text.toList := by
      rw [placed, String.toList_append, toList_pushn, text]
      rfl
    cases lines with
    | nil =>
      obtain rfl := List.map_eq_nil_iff.mp later
      have last : Spaced [piece] _ := .piece front (.done feed)
      simpa [here] using last
    | cons next lines =>
      have rest := (ih pieces later.symm).behind padding
      simp only [List.map_cons, List.intercalate_cons_cons, here, List.append_assoc] at rest ⊢
      exact .piece front rest

private theorem spaced_xml (tree : Tree) (indent : Nat) :
    Spaced tree.pieces (tree.xml indent).toList := by
  have separator : Padding (if indent = 0 then "" else "\n").toList := by
    split <;> decide
  have spaced := spaced_of_lines indent separator tree.xmlLines tree.pieces tree.xmlLines_texts
  rw [xml, String.toList_append, String.toList_intercalate]
  exact spaced

mutual

private theorem leaves_elements : (tree : Tree) →
    Element.allLeaves tree.elements = tree.tokens.map fun token => (token.kind.element, token.literal)
  | leaf token => rfl
  | branch rule children closed => by
    rw [tokens_branch]
    by_cases call : rule = .subroutineCall
    · subst call
      exact leaves_allElements children
    · rw [elements_kept call, ← leaves_allElements children]
      simp [Element.allLeaves, Element.leaves]

private theorem leaves_allElements : (trees : List Tree) →
    Element.allLeaves (allElements trees) =
      (trees.flatMap tokens).map fun token => (token.kind.element, token.literal)
  | [] => rfl
  | tree :: trees => by
    rw [allElements, Element.allLeaves_append, leaves_elements, leaves_allElements, List.flatMap_cons,
      List.map_append]

end

/-- A tree that was written with any indentation is read back without its calls, and the literals
are read as they were. Texts of two indentations consist of the same pieces: they differ in the
padding between them only, where a token with both of its tags is one piece. -/
theorem decode_xml (tree : Tree) :
    (∀ indent, Spaced tree.pieces (tree.xml indent).toList) ∧
      (∀ text : String, Spaced tree.pieces text.toList → decode? text = some tree.elements) ∧
      (∀ indent, decode? (tree.xml indent) = some tree.elements) ∧
      Element.allLeaves tree.elements =
        tree.tokens.map fun token => (token.kind.element, token.literal) := by
  have built : build? [] [] tree.pieces = some tree.elements := by
    have whole := build_pieces [] [] [] tree
    rw [List.append_nil, List.append_nil] at whole
    rw [whole, build?, List.reverse_reverse]
    rfl
  have read (text : String) (spaced : Spaced tree.pieces text.toList) :
      decode? text = some tree.elements := spaced.decode.trans built
  exact ⟨tree.spaced_xml, read, fun indent => read _ (tree.spaced_xml indent), tree.leaves_elements⟩

example :
    (branch .subroutineCall [leaf ⟨.string, " <"⟩, branch .term [] false] true).xml 2 =
      "<stringConstant>  &lt; </stringConstant>\n<term>\n</term>\n" := by
  decide +kernel

end Tree

end NandTools
