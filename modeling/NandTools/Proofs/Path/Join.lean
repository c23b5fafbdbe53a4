import NandTools.Proofs.Path.Names

/-! Paths of names in a directory, and their extensions. -/
namespace NandTools.Path

/-- Paths that are cut into the same pieces have the same text. -/
theorem eq_of_pieces {a b : Path} (same : a.pieces = b.pieces) : a = b := by
  have own : ['/'].intercalate (a.text.toList.splitOn '/') = a.text.toList :=
    List.intercalate_splitOn '/'
  have other : ['/'].intercalate (b.text.toList.splitOn '/') = b.text.toList :=
    List.intercalate_splitOn '/'
  have text : a.text.toList = b.text.toList :=
    own.symm.trans ((congrArg (['/'].intercalate) same).trans other)
  cases a
  cases b
  exact congrArg Path.mk (String.toList_inj.mp text)

/-- A name that a file or directory can have. How long it can be is up to the disk. -/
structure IsFileName (name : String) : Prop where
  nonempty : name ≠ ""
  notHere : name ≠ "."
  notUp : name ≠ ".."
  whole : '/' ∉ name.toList
  noZero : '\x00' ∉ name.toList

section Name

variable {name : String}

theorem IsFileName.busy (valid : IsFileName name) : isIdle name.toList = false := by
  have other : name.toList ≠ ['.'] := fun here => valid.notHere (String.toList_inj.mp here)
  simpa [isIdle] using ⟨valid.nonempty, other⟩

theorem IsFileName.forth (valid : IsFileName name) : name.toList ≠ ['.', '.'] :=
  fun up => valid.notUp (String.toList_inj.mp up)

theorem IsFileName.endsIn (valid : IsFileName name) {path : Path} {before : List (List Char)}
    (cut : path.pieces = before ++ [name.toList]) : path.EndsIn before name [] :=
  ⟨cut, nofun, valid.busy, valid.forth⟩

theorem fileName?_of_endsIn {path : Path} {before idle : List (List Char)}
    (ends : path.EndsIn before name idle) : path.fileName? = some name := by
  have parts : (path.pieces.filter (!isIdle ·)).map stepOf =
      (before.filter (!isIdle ·)).map stepOf ++ [.name name] := by
    have none : idle.filter (!isIdle ·) = [] :=
      List.filter_eq_nil_iff.mpr fun piece among => by simp [ends.idles piece among]
    rw [ends.cut, List.filter_append, List.filter_cons_of_pos (by simp [ends.busy]), none,
      List.map_append, List.map_singleton, stepOf, if_neg ends.forth, String.ofList_toList]
  obtain ⟨front, last⟩ : ∃ front, path.steps = front ++ [.name name] := by
    unfold steps
    rw [parts]
    dsimp only
    split
    · exact ⟨_ :: _, rfl⟩
    · split
      · exact ⟨_ :: _, rfl⟩
      · exact ⟨_, rfl⟩
  rw [fileName?, last, List.getLast?_concat]

end Name

section Join

variable {base : Path} {name : String}

/-- A name in a directory comes after a slash, which the directory's path may end with. -/
theorem toList_join (nonempty : base.text ≠ "") :
    ∃ front, (base.text.toList = front ∨ base.text.toList = front ++ ['/']) ∧
      ∀ name : String, '/' ∉ name.toList →
        (base.join ⟨name⟩).text.toList = front ++ '/' :: name.toList := by
  have relative (name : String) (whole : '/' ∉ name.toList) :
      ((Path.mk name).isAbsolute || base.text.isEmpty) = false := by
    have inside : base.text.isEmpty = false := by simpa using nonempty
    have opens : (name.toList.head? == some '/') = false := by
      rw [beq_eq_false_iff_ne]
      exact fun slash => whole (List.mem_of_mem_head? slash)
    rw [inside, Bool.or_false]
    exact opens
  by_cases slash : base.text.toList.getLast? = some '/'
  · obtain ⟨front, same⟩ := List.getLast?_eq_some_iff.mp slash
    refine ⟨front, .inr same, fun name whole => ?_⟩
    simp [join, relative name whole, same]
  · refine ⟨base.text.toList, .inl rfl, fun name whole => ?_⟩
    simp [join, relative name whole, slash]

/-- The pieces before a name in a directory are those of the directory, without the empty one after
a slash at the end. -/
theorem pieces_join (nonempty : base.text ≠ "") :
    ∃ before, (base.pieces = before ∨ base.pieces = before ++ [[]]) ∧
      ∀ name : String, '/' ∉ name.toList →
        (base.join ⟨name⟩).pieces = before ++ [name.toList] := by
  obtain ⟨front, own, joined⟩ := toList_join nonempty
  refine ⟨front.splitOn '/', ?_, ?_⟩
  · unfold pieces
    rcases own with same | same
    · exact .inl (by rw [same])
    · exact .inr (by rw [same, List.splitOn_append_cons_self]; rfl)
  · intro name whole
    rw [pieces, joined name whole, List.splitOn_append_cons_self, List.splitOn_eq_singleton whole]

theorem fileName?_join (nonempty : base.text ≠ "") (valid : IsFileName name) :
    (base.join ⟨name⟩).fileName? = some name := by
  obtain ⟨before, _, joined⟩ := pieces_join nonempty
  exact fileName?_of_endsIn (valid.endsIn (joined name valid.whole))

theorem open_join (nonempty : base.text ≠ "") (valid : IsFileName name) :
    (base.join ⟨name⟩).text.toList.getLast? ≠ some '/' := by
  obtain ⟨front, _, joined⟩ := toList_join nonempty
  have ends : name.toList ≠ [] := by simpa using valid.nonempty
  rw [joined name valid.whole, List.getLast?_append_of_ne_nil _ (List.cons_ne_nil _ _),
    List.getLast?_cons_of_ne_nil ends]
  exact fun slash => valid.whole (List.mem_of_getLast? slash)

theorem join_inj (nonempty : base.text ≠ "") {other : String} (whole : '/' ∉ name.toList)
    (whole' : '/' ∉ other.toList) : base.join ⟨name⟩ = base.join ⟨other⟩ ↔ name = other := by
  constructor
  · intro same
    obtain ⟨before, _, joined⟩ := pieces_join nonempty
    have pieces := (joined name whole).symm.trans (same ▸ joined other whole')
    exact String.toList_inj.mp (List.singleton_inj.mp (List.append_cancel_left pieces))
  · rintro rfl
    rfl

theorem isAbsolute_join (nonempty : base.text ≠ "") (whole : '/' ∉ name.toList) :
    (base.join ⟨name⟩).isAbsolute = base.isAbsolute := by
  obtain ⟨front, own, joined⟩ := toList_join nonempty
  unfold isAbsolute
  rw [joined name whole]
  cases front with
  | cons c rest => rcases own with same | same <;> rw [same] <;> rfl
  | nil =>
    rcases own with same | same
    · exact absurd (String.toList_inj.mp same) nonempty
    · rw [same]
      rfl

/-- Putting an extension to a name in a directory replaces what follows the last dot of the name,
unless that is where the name begins. -/
theorem join_withExtension (nonempty : base.text ≠ "") (valid : IsFileName name)
    {extension : String} (plain : '/' ∉ extension.toList) :
    (base.join ⟨name⟩).withExtension extension =
      base.join ⟨s!"{(splitName name).1}.{extension}"⟩ := by
  obtain ⟨before, _, joined⟩ := pieces_join nonempty
  have ends := valid.endsIn (joined name valid.whole)
  have whole : '/' ∉ (s!"{(splitName name).1}.{extension}").toList := by
    have inStem : '/' ∉ (splitName name).1.toList :=
      fun member => valid.whole ((splitName_stem name).1.subset member)
    simpa [toString] using ⟨inStem, plain⟩
  apply eq_of_pieces
  rw [pieces_withExtension (fileName?_join nonempty valid) ends plain, joined _ whole]

end Join

end NandTools.Path
