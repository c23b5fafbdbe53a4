import Mathlib.Data.List.Basic
import NandTools.Path

/-! The pieces of a path, the file name among them, and what becomes of them when the extension is
replaced. -/
namespace NandTools.Path

theorem slash_notMem_of_mem_pieces {path : Path} {piece : List Char}
    (among : piece ∈ path.pieces) : '/' ∉ piece := by
  rw [pieces] at among
  generalize path.text.toList = text at among
  induction text generalizing piece with
  | nil =>
    cases List.mem_singleton.mp among
    exact List.not_mem_nil
  | cons c rest ih =>
    rw [List.splitOn_cons_eq_if_modifyHead] at among
    split at among
    · rcases List.mem_cons.mp among with rfl | among
      · exact List.not_mem_nil
      · exact ih among
    · next other =>
      cases first : rest.splitOn '/' with
      | nil => exact absurd first (List.splitOn_ne_nil '/' rest)
      | cons head tail =>
        rw [first] at among ih
        rcases List.mem_cons.mp among with rfl | among
        · intro member
          rcases List.mem_cons.mp member with rfl | member
          · exact other (beq_self_eq_true '/')
          · exact ih List.mem_cons_self member
        · exact ih (List.mem_cons_of_mem head among)

/-- Pieces that are set together with slashes are cut apart again. -/
theorem pieces_intercalate {pieces : List (List Char)} (whole : ∀ piece ∈ pieces, '/' ∉ piece)
    (some : pieces ≠ []) : (Path.mk ("/".intercalate (pieces.map String.ofList))).pieces = pieces := by
  rw [Path.pieces, String.toList_intercalate, List.map_map]
  have same : String.toList ∘ String.ofList = id := funext fun _ => String.toList_ofList
  rw [same, List.map_id]
  exact List.splitOn_intercalate '/' whole some

/-- A text that does not end with a slash has characters after its last slash. -/
theorem pieces_of_open_end {path : Path} (some : path.text.toList ≠ [])
    (opens : path.text.toList.getLast? ≠ Option.some '/') :
    ∃ before last, path.pieces = before ++ [last] ∧ last ≠ [] := by
  rw [pieces]
  generalize path.text.toList = text at some opens
  induction text with
  | nil => exact absurd rfl some
  | cons c rest ih =>
    rw [List.splitOn_cons_eq_if_modifyHead]
    by_cases single : rest = []
    · rw [single] at opens
      have other : (c == '/') = false := beq_eq_false_iff_ne.mpr fun same => opens (by rw [same]; rfl)
      rw [single, other]
      exact ⟨[], [c], rfl, List.cons_ne_nil c []⟩
    · rw [List.getLast?_cons_of_ne_nil single] at opens
      obtain ⟨before, last, cut, nonempty⟩ := ih single opens
      rw [cut]
      split
      · exact ⟨[] :: before, last, rfl, nonempty⟩
      · cases before with
        | nil => exact ⟨[], c :: last, rfl, List.cons_ne_nil c last⟩
        | cons head tail => exact ⟨(c :: head) :: tail, last, rfl, nonempty⟩

/-- An absolute path has an empty piece before its first slash. -/
theorem isAbsolute_iff {path : Path} :
    path.isAbsolute = true ↔ ∃ rest, rest ≠ [] ∧ path.pieces = [] :: rest := by
  rw [isAbsolute, pieces, beq_iff_eq]
  constructor
  · intro absolute
    obtain ⟨rest, same⟩ := List.head?_eq_some_iff.mp absolute
    refine ⟨rest.splitOn '/', List.splitOn_ne_nil '/' rest, ?_⟩
    rw [same]
    exact List.splitOn_append_cons_self_of_not_mem List.not_mem_nil rest
  · rintro ⟨rest, some, cut⟩
    have set : ['/'].intercalate (path.text.toList.splitOn '/') = path.text.toList :=
      List.intercalate_splitOn '/'
    rw [cut] at set
    obtain ⟨head, tail, rfl⟩ := List.exists_cons_of_ne_nil some
    rw [← set, List.intercalate_cons_cons]
    rfl

private theorem getLast?_of_cons {first step : PathStep} {rest : List PathStep}
    (other : first ≠ step) (last : (first :: rest).getLast? = some step) :
    rest.getLast? = some step := by
  rw [List.getLast?_cons] at last
  cases found : rest.getLast? with
  | none =>
    rw [found] at last
    exact absurd (Option.some.inj last) other
  | some step' =>
    rw [found] at last
    exact last

/-- A path ends in a name: the pieces after it, if any, are idle. -/
structure EndsIn (path : Path) (before : List (List Char)) (name : String)
    (idle : List (List Char)) : Prop where
  cut : path.pieces = before ++ name.toList :: idle
  idles : ∀ piece ∈ idle, isIdle piece = true
  busy : isIdle name.toList = false
  forth : name.toList ≠ ['.', '.']

theorem endsIn_of_fileName? {path : Path} {name : String} (named : path.fileName? = some name) :
    ∃ before idle, path.EndsIn before name idle := by
  have last : ((path.pieces.filter (!isIdle ·)).map stepOf).getLast? = some (.name name) := by
    have found : path.steps.getLast? = some (.name name) := by
      unfold fileName? at named
      split at named
      · next found =>
        cases named
        exact found
      · cases named
    unfold steps at found
    dsimp only at found
    split at found
    · exact getLast?_of_cons (by intro same; cases same) found
    · split at found
      · exact getLast?_of_cons (by intro same; cases same) found
      · exact found
  rw [List.getLast?_map] at last
  obtain ⟨piece, last, steps⟩ := Option.map_eq_some_iff.mp last
  obtain ⟨_, parts⟩ := List.getLast?_eq_some_iff.mp last
  obtain ⟨front, back, cut, _, parts⟩ := List.filter_eq_append_iff.mp parts
  obtain ⟨idle, idle', rfl, _, busy, idles⟩ := List.filter_eq_cons_iff.mp parts
  unfold stepOf at steps
  split at steps
  · cases steps
  · next other =>
    cases steps
    refine ⟨front ++ idle, idle', ?_, ?_, ?_, ?_⟩
    · rw [cut, List.append_assoc, String.toList_ofList]
    · intro piece among
      simpa using List.filter_eq_nil_iff.mp idles piece among
    · simpa using busy
    · rw [String.toList_ofList]
      exact other

section Extension

variable {name : String}

/-- A name whose extension is cut off is put together of its parts. -/
private theorem splitName_cases (name : String) :
    splitName name = (name, none) ∨ ∃ stem extension, stem ≠ [] ∧
      name.toList = stem ++ '.' :: extension ∧
      splitName name = (String.ofList stem, some (String.ofList extension)) := by
  unfold splitName
  dsimp only
  split
  · next c rest found =>
    refine .inr ⟨(c :: rest).reverse, _, by simp, ?_, rfl⟩
    have front := List.prefix_iff_eq_take.mp
      (List.takeWhile_prefix (l := name.toList.reverse) (· != '.'))
    have whole := List.take_append_drop
      (name.toList.reverse.takeWhile (· != '.')).length name.toList.reverse
    rw [found, ← front] at whole
    have back := congrArg List.reverse whole
    simpa using back.symm
  · exact .inl rfl

/-- The stem of a name is its beginning, and empty only for the empty name. -/
theorem splitName_stem (name : String) :
    (splitName name).1.toList <+: name.toList ∧ (name ≠ "" → (splitName name).1 ≠ "") := by
  rcases splitName_cases name with same | ⟨stem, extension, some, whole, same⟩
  · rw [same]
    exact ⟨List.prefix_refl _, id⟩
  · rw [same, String.toList_ofList, whole]
    refine ⟨List.prefix_append _ _, fun _ empty => some ?_⟩
    rw [← String.toList_ofList (l := stem)]
    exact congrArg String.toList empty

/-- A name that is put together of a stem and an extension is cut there. -/
theorem splitName_dot {stem extension : String} (nonempty : stem ≠ "")
    (plain : '.' ∉ extension.toList) :
    splitName s!"{stem}.{extension}" = (stem, some extension) := by
  have whole : (s!"{stem}.{extension}").toList.reverse =
      extension.toList.reverse ++ '.' :: stem.toList.reverse := by
    simp [toString]
  have tail : (extension.toList.reverse ++ '.' :: stem.toList.reverse).takeWhile (· != '.') =
      extension.toList.reverse := by
    rw [List.takeWhile_append_of_pos]
    · simp
    · intro c member
      have other : c ≠ '.' := fun same => plain (same ▸ List.mem_reverse.mp member)
      simpa using other
  have some : stem.toList ≠ [] := fun empty => nonempty (String.toList_inj.mp empty)
  obtain ⟨c, rest, front⟩ := List.exists_cons_of_ne_nil (List.reverse_ne_nil_iff.mpr some)
  have back : (c :: rest).reverse = stem.toList := by rw [← front, List.reverse_reverse]
  unfold splitName
  simp only [whole]
  rw [tail, List.drop_left, front]
  simp only [back, List.reverse_reverse, String.ofList_toList]

/-- An extension begins at a dot that is not the first character. -/
theorem splitName_eq_self_iff : (splitName name).1 = name ↔ '.' ∉ name.toList.tail := by
  constructor
  · intro uncut dotted
    obtain ⟨c, rest, text⟩ :=
      List.exists_cons_of_ne_nil (List.ne_nil_of_mem (List.mem_of_mem_tail dotted))
    rw [text, List.tail_cons, ← List.mem_reverse] at dotted
    obtain ⟨back, front, parts, last⟩ := List.eq_append_cons_of_mem dotted
    have same : name =
        s!"{String.ofList (c :: front.reverse)}.{String.ofList back.reverse}" := by
      apply String.toList_inj.mp
      rw [text, ← List.reverse_reverse rest, parts]
      simp [toString]
    have cut := @splitName_dot (String.ofList (c :: front.reverse)) (String.ofList back.reverse)
      (by simp) (by simpa using last)
    rw [← same] at cut
    rw [cut] at uncut
    have text' := congrArg String.toList uncut
    rw [text, ← List.reverse_reverse rest, parts] at text'
    simp at text'
  · intro undotted
    rcases splitName_cases name with uncut | ⟨stem, extension, some, text, _⟩
    · rw [uncut]
    · obtain ⟨c, rest, rfl⟩ := List.exists_cons_of_ne_nil some
      exact absurd (by simp [text]) undotted

/-- Replacing the extension changes the name and drops what is idle after it. -/
theorem pieces_withExtension {path : Path} (named : path.fileName? = some name)
    {before idle : List (List Char)} (ends : path.EndsIn before name idle) {extension : String}
    (plain : '/' ∉ extension.toList) : (path.withExtension extension).pieces =
      before ++ [s!"{(splitName name).1}.{extension}".toList] := by
  have stem : path.stem? = some (splitName name).1 := by
    rw [stem?, named]
    rfl
  have back : path.pieces.reverse.dropWhile isIdle = name.toList :: before.reverse := by
    rw [ends.cut, List.reverse_append, List.reverse_cons, List.append_assoc,
      List.dropWhile_append_of_pos]
    · simp [ends.busy]
    · intro piece among
      exact ends.idles piece (List.mem_reverse.mp among)
  unfold withExtension
  simp only [stem, back, List.reverse_reverse]
  have pieces := @pieces_intercalate
    (before ++ [s!"{(splitName name).1}.{extension}".toList]) ?_ (by simp)
  · rw [List.map_append, List.map_singleton, String.ofList_toList] at pieces
    exact pieces
  · intro piece among
    rcases List.mem_append.mp among with among | last
    · exact slash_notMem_of_mem_pieces (ends.cut ▸ List.mem_append_left _ among)
    · rw [List.mem_singleton.mp last]
      have inside : '/' ∉ name.toList :=
        slash_notMem_of_mem_pieces (ends.cut ▸ List.mem_append_right _ List.mem_cons_self)
      have inStem : '/' ∉ (splitName name).1.toList :=
        fun member => inside ((splitName_stem name).1.subset member)
      simpa [toString] using ⟨inStem, plain⟩

theorem isAbsolute_withExtension {path : Path} (named : path.fileName? = some name)
    {extension : String} (plain : '/' ∉ extension.toList) :
    (path.withExtension extension).isAbsolute = path.isAbsolute := by
  obtain ⟨before, idle, ends⟩ := endsIn_of_fileName? named
  rw [Bool.eq_iff_iff, isAbsolute_iff, isAbsolute_iff, pieces_withExtension named ends plain,
    ends.cut]
  cases before with
  | cons first rest => simp
  | nil =>
    have busy : name.toList ≠ [] := fun empty => absurd ends.busy (by rw [empty]; decide)
    simp [busy, toString]

end Extension

end NandTools.Path
