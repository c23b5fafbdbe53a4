import NandTools.Disk
import NandTools.Proofs.Outcome
import NandTools.Proofs.Path.Names

/-! What is read from a disk on which a file was written. Disks with the same directories are walked
in the same way, so a file that is written changes what is found at its own place only. -/
namespace NandTools.Disk

private theorem find?_put (entries : List (Location × DiskEntry)) (place other : Location)
    (entry : DiskEntry) :
    ((entries.filter (·.1 != place)) ++ [(place, entry)]).find? (·.1 == other) =
      if other = place then some (place, entry) else entries.find? (·.1 == other) := by
  rw [List.find?_append]
  split
  · next same =>
    have absent : (entries.filter (·.1 != place)).find? (·.1 == other) = none := by
      rw [List.find?_eq_none, same]
      intro found among
      simpa using (List.mem_filter.mp among).2
    rw [absent, same]
    simp
  · next differs =>
    have kept : (fun found : Location × DiskEntry =>
        decide ((found.1 != place) = true ∧ (found.1 == other) = true)) = (·.1 == other) := by
      funext found
      by_cases same : found.1 = other
      · simp [same, differs]
      · simp [same]
    rw [List.find?_filter, kept]
    simp [Ne.symm differs]

theorem entry_put (disk : Disk) {place : Location} (below : place ≠ []) (entry : DiskEntry)
    (other : Location) :
    Disk.entry? (disk.put place entry) other =
      if other = place then some entry else disk.entry? other := by
  unfold entry? put
  dsimp only
  rw [find?_put]
  by_cases root : other = []
  · have other_ne : other ≠ place := fun same => below (same.symm.trans root)
    rw [if_neg other_ne, if_neg other_ne]
  · have inside : ¬other.isEmpty = true := fun empty => root (List.isEmpty_iff.mp empty)
    rw [if_neg inside, if_neg inside]
    split <;> rfl

section Walk

variable {disk : Disk} {place place' : Location}

theorem step_of_directory (here : disk.entry? place = some .directory) (piece : List Char) :
    disk.step place piece =
      if Path.isIdle piece then .ok place
      else if piece = ['.', '.'] then .ok place.dropLast
      else if (String.ofList piece).utf8ByteSize > 255 then .error .nameTooLong
      else if (disk.entry? (place ++ [String.ofList piece])).isSome then
        .ok (place ++ [String.ofList piece])
      else .error .notFound := by
  unfold step
  rw [here]

theorem directory_of_step {piece : List Char} (taken : disk.step place piece = .ok place') :
    disk.entry? place = some .directory := by
  unfold step at taken
  split at taken
  · cases taken
  · cases taken
  · next here => exact here

/-- A piece that is a name leads to the entry of that name. -/
theorem step_name {name : String} (busy : Path.isIdle name.toList = false)
    (forth : name.toList ≠ ['.', '.']) (taken : disk.step place name.toList = .ok place') :
    place' = place ++ [name] := by
  rw [step_of_directory (directory_of_step taken), busy, if_neg Bool.false_ne_true, if_neg forth,
    String.ofList_toList] at taken
  split at taken
  · cases taken
  · split at taken
    · cases taken
      rfl
    · cases taken

/-- A walk that ends in a directory starts from one. -/
theorem directory_of_walk {pieces : List (List Char)}
    (walk : pieces.foldlM disk.step place = .ok place')
    (there : disk.entry? place' = some .directory) : disk.entry? place = some .directory := by
  cases pieces with
  | nil =>
    cases walk
    exact there
  | cons piece rest =>
    obtain ⟨_, taken, _⟩ := Except.ok_of_bind walk
    exact directory_of_step taken

/-- Idle pieces lead nowhere else. -/
theorem walk_idle {pieces : List (List Char)} (idle : ∀ piece ∈ pieces, Path.isIdle piece = true)
    (walk : pieces.foldlM disk.step place = .ok place') :
    place' = place ∧ (pieces = [] ∨ disk.entry? place = some .directory) := by
  induction pieces with
  | nil =>
    cases walk
    exact ⟨rfl, .inl rfl⟩
  | cons piece rest ih =>
    obtain ⟨next, taken, walk⟩ := Except.ok_of_bind walk
    have here := directory_of_step taken
    rw [step_of_directory here, if_pos (idle piece List.mem_cons_self)] at taken
    cases taken
    exact ⟨(ih (fun piece among => idle piece (List.mem_cons_of_mem _ among)) walk).1, .inr here⟩

/-- Empty pieces can be left out of a walk, and can be put in where it ends in a directory. -/
theorem walk_filter {pieces : List (List Char)} (there : disk.entry? place' = some .directory) :
    (pieces.filter (!·.isEmpty)).foldlM disk.step place = .ok place' ↔
      pieces.foldlM disk.step place = .ok place' := by
  induction pieces generalizing place with
  | nil => rfl
  | cons piece rest ih =>
    cases piece with
    | cons c rest =>
      rw [List.filter_cons_of_pos rfl, List.foldlM_cons, List.foldlM_cons]
      cases disk.step place (c :: rest) with
      | error e => rfl
      | ok next => exact ih
    | nil =>
      rw [List.filter_cons_of_neg (by simp), List.foldlM_cons, ih]
      constructor
      · intro walk
        rw [step_of_directory (directory_of_walk walk there), if_pos (show Path.isIdle [] = true from rfl)]
        exact walk
      · intro walk
        obtain ⟨next, taken, walk⟩ := Except.ok_of_bind walk
        rw [step_of_directory (directory_of_step taken), if_pos (show Path.isIdle [] = true from rfl)] at taken
        cases taken
        exact walk

end Walk

/-- A path that leads somewhere walks to a directory, and from there to its name. -/
theorem walk_of_resolve {disk : Disk} {path : Path} {before idle : List (List Char)} {name : String}
    (ends : path.EndsIn before name idle) {place : Location}
    (found : disk.resolve path = .ok place) :
    ∃ parent, before.foldlM disk.step (disk.start path) = .ok parent ∧
      disk.entry? parent = some .directory ∧ place = parent ++ [name] := by
  obtain ⟨_, _, walk⟩ := Except.ok_of_bind found
  rw [ends.cut, List.foldlM_append] at walk
  obtain ⟨parent, walk, walk'⟩ := Except.ok_of_bind walk
  obtain ⟨file, taken, rest⟩ := Except.ok_of_bind walk'
  obtain ⟨rfl, _⟩ := walk_idle ends.idles rest
  exact ⟨parent, walk, directory_of_step taken, step_name ends.busy ends.forth taken⟩

/-- Two disks have the same directories, and the same files except at places that are set apart. -/
structure SameBut (Apart : Location → Prop) (a b : Disk) : Prop where
  home : a.home = b.home
  directories : ∀ place, a.entry? place = some .directory ↔ b.entry? place = some .directory
  entries : ∀ place, ¬Apart place → a.entry? place = b.entry? place

section SameBut

variable {Apart : Location → Prop} {a b c : Disk}

theorem SameBut.refl (Apart : Location → Prop) (a : Disk) : SameBut Apart a a :=
  ⟨rfl, fun _ => .rfl, fun _ _ => rfl⟩

theorem SameBut.symm (same : SameBut Apart a b) : SameBut Apart b a :=
  ⟨same.home.symm, fun place => (same.directories place).symm,
    fun place apart => (same.entries place apart).symm⟩

theorem SameBut.trans (same : SameBut Apart a b) (same' : SameBut Apart b c) : SameBut Apart a c :=
  ⟨same.home.trans same'.home,
    fun place => (same.directories place).trans (same'.directories place),
    fun place apart => (same.entries place apart).trans (same'.entries place apart)⟩

/-- Writing a file sets its place apart. -/
theorem sameBut_put {place : Location} (free : a.entry? place ≠ some .directory) (apart : Apart place)
    (bytes : ByteArray) : SameBut Apart a (a.put place (.file bytes)) where
  home := rfl
  directories other := by
    have below : place ≠ [] := fun root => free (by rw [root]; rfl)
    rw [entry_put a below]
    split
    · next same =>
      rw [same]
      exact ⟨fun here => absurd here free, nofun⟩
    · exact .rfl
  entries other differs := by
    have below : place ≠ [] := fun root => free (by rw [root]; rfl)
    have elsewhere : other ≠ place := fun same => differs (same ▸ apart)
    rw [entry_put a below, if_neg elsewhere]

theorem SameBut.start (same : SameBut Apart a b) (path : Path) : a.start path = b.start path := by
  rw [Disk.start, Disk.start, same.home]

theorem SameBut.step (same : SameBut Apart a b) {place place' : Location} {piece : List Char}
    (taken : a.step place piece = .ok place')
    (there : (a.entry? place').isSome = true → (b.entry? place').isSome = true) :
    b.step place piece = .ok place' := by
  have here := directory_of_step taken
  rw [step_of_directory here] at taken
  rw [step_of_directory ((same.directories place).mp here)]
  split
  · next idle => rwa [if_pos idle] at taken
  · next busy =>
    rw [if_neg busy] at taken
    split
    · next up => rwa [if_pos up] at taken
    · next forth =>
      rw [if_neg forth] at taken
      split
      · next long =>
        rw [if_pos long] at taken
        cases taken
      · next short =>
        rw [if_neg short] at taken
        split at taken
        · next found =>
          cases taken
          rw [if_pos (there found)]
        · cases taken

/-- A walk to a directory is the same on both disks. -/
theorem SameBut.walk (same : SameBut Apart a b) {pieces : List (List Char)}
    {place place' : Location} (walk : pieces.foldlM a.step place = .ok place')
    (there : a.entry? place' = some .directory) : pieces.foldlM b.step place = .ok place' := by
  induction pieces generalizing place with
  | nil => exact walk
  | cons piece rest ih =>
    obtain ⟨next, taken, walk⟩ := Except.ok_of_bind walk
    have stays := (same.directories next).mp (directory_of_walk walk there)
    rw [List.foldlM_cons, same.step taken (fun _ => by rw [stays]; rfl)]
    exact ih walk

/-- A path whose name is never set apart leads to the same entry on both disks. -/
theorem SameBut.resolve (same : SameBut Apart a b) {path : Path} {before idle : List (List Char)}
    {name : String} (ends : path.EndsIn before name idle)
    (kept : ∀ parent, ¬Apart (parent ++ [name])) {place : Location}
    (found : a.resolve path = .ok place) :
    b.resolve path = .ok place ∧ a.entry? place = b.entry? place := by
  unfold Disk.resolve at found ⊢
  obtain ⟨_, checked, walk⟩ := Except.ok_of_bind found
  rw [ends.cut, List.foldlM_append] at walk
  obtain ⟨parent, walk, walk'⟩ := Except.ok_of_bind walk
  obtain ⟨file, taken, rest⟩ := Except.ok_of_bind walk'
  obtain ⟨rfl, still⟩ := walk_idle ends.idles rest
  -- The directories lead both disks to the name; there the entry may be a file, which `walk` does
  -- not cover, but the name is never set apart.
  have entry := same.entries place (step_name ends.busy ends.forth taken ▸ kept parent)
  have walked := same.walk walk (directory_of_step taken)
  have stepped := same.step taken (fun found => entry ▸ found)
  refine ⟨?_, entry⟩
  rw [checked, ends.cut, List.foldlM_append, ← same.start, walked]
  change (b.step parent name.toList >>= fun place => idle.foldlM b.step place) = _
  rw [stepped]
  rcases still with none | there
  · rw [none]
    rfl
  · exact same.walk rest there

end SameBut

section Target

variable {disk : Disk} {path : Path}

/-- The place of a new file in a directory, if its name is one that files can have. -/
def placeIn (disk : Disk) (path : Path) (parent : Location) (last : List Char) :
    Except DiskError Location :=
  if path.text.toList.getLast? = some '/' || last = ['.'] || last = ['.', '.'] then
    .error .isADirectory
  else if (String.ofList last).utf8ByteSize > 255 then .error .nameTooLong
  else
    match disk.entry? (parent ++ [String.ofList last]) with
    | some .directory => .error .isADirectory
    | _ => .ok (parent ++ [String.ofList last])

/-- A new file belongs into the directory that the pieces before its name lead to. -/
theorem target_of_walk {before : List (List Char)} {last : List Char} {parent : Location}
    (checked : checkPath path = .ok ()) (cut : path.pieces = before ++ [last])
    (some : last ≠ []) (walk : before.foldlM disk.step (disk.start path) = .ok parent)
    (there : disk.entry? parent = .some .directory) :
    disk.target path = disk.placeIn path parent last := by
  have pieces : (path.pieces.filter (!·.isEmpty)).reverse =
      last :: (before.filter (!·.isEmpty)).reverse := by
    simp [cut, some]
  unfold target
  rw [checked]
  simp only [bind, Except.bind, pieces, List.reverse_reverse]
  rw [(walk_filter there).mpr walk]
  simp only [there]
  rfl

/-- What it takes to be the place of a new file. -/
theorem of_target {place : Location} (found : disk.target path = .ok place) :
    ∃ before last parent, path.pieces = before ++ [last] ∧
      before.foldlM disk.step (disk.start path) = .ok parent ∧
      disk.entry? parent = some .directory ∧ Path.isIdle last = false ∧ last ≠ ['.', '.'] ∧
      (String.ofList last).utf8ByteSize ≤ 255 ∧ place = parent ++ [String.ofList last] ∧
      disk.entry? place ≠ some .directory ∧ checkPath path = .ok () := by
  unfold target at found
  obtain ⟨_, checked, found⟩ := Except.ok_of_bind found
  split at found
  · cases found
  · next last front reversed =>
    obtain ⟨parent, walk, found⟩ := Except.ok_of_bind found
    split at found
    · next there =>
      dsimp only at found
      split at found
      · cases found
      · next open_ =>
        simp only [Bool.or_eq_true, decide_eq_true_eq, not_or] at open_
        obtain ⟨⟨opens, here⟩, forth⟩ := open_
        split at found
        · cases found
        · next short =>
          split at found
          · cases found
          · next free =>
            cases found
            have text : path.text.toList ≠ [] := by
              intro empty
              rw [Path.pieces, empty] at reversed
              cases reversed
            obtain ⟨before, last', cut, nonempty⟩ := Path.pieces_of_open_end text opens
            have ends : last' = last ∧ (before.filter (!·.isEmpty)).reverse = front := by
              simpa [cut, nonempty] using reversed
            obtain ⟨rfl, rfl⟩ := ends
            rw [List.reverse_reverse, walk_filter there] at walk
            refine ⟨before, last', parent, cut, walk, there, ?_, forth, Nat.le_of_not_lt short, rfl,
              free, checked⟩
            simpa [Path.isIdle] using ⟨nonempty, here⟩
    · cases found
    · cases found

/-- With another extension, a path names a place in the directory that it walks to. -/
theorem of_target_withExtension {before idle : List (List Char)} {name extension : String}
    (named : path.fileName? = some name) (ends : path.EndsIn before name idle)
    (plain : '/' ∉ extension.toList) {place : Location}
    (found : disk.target (path.withExtension extension) = .ok place) :
    ∃ parent, before.foldlM disk.step (disk.start path) = .ok parent ∧
      place = parent ++ [s!"{(Path.splitName name).1}.{extension}"] := by
  obtain ⟨front, last, parent, cut, walk, _, _, _, _, rfl, _⟩ := of_target found
  rw [Path.pieces_withExtension named ends plain] at cut
  obtain ⟨rfl, name_eq⟩ := List.append_inj' cut rfl
  rw [Disk.start, Path.isAbsolute_withExtension named plain, ← Disk.start] at walk
  refine ⟨parent, walk, ?_⟩
  rw [← List.singleton_inj.mp name_eq, String.ofList_toList]

/-- A path that walks to a directory and on to a name has the same place for a new file on disks
with the same directories. -/
theorem SameBut.target {Apart : Location → Prop} {a b : Disk} (same : SameBut Apart a b)
    {before : List (List Char)} {last : List Char} {parent : Location}
    (cut : path.pieces = before ++ [last]) (some : last ≠ [])
    (walk : before.foldlM a.step (a.start path) = .ok parent)
    (there : a.entry? parent = .some .directory) : a.target path = b.target path := by
  cases checked : checkPath path with
  | error e =>
    unfold Disk.target
    rw [checked]
    rfl
  | ok =>
    have walk' := same.walk walk there
    rw [same.start] at walk'
    rw [target_of_walk checked cut some walk there,
      target_of_walk checked cut some walk' ((same.directories parent).mp there)]
    have directories := same.directories (parent ++ [String.ofList last])
    unfold placeIn
    split
    · rfl
    · split
      · rfl
      · split
        · next here => rw [directories.mp here]
        · next free =>
          split
          · next here => exact absurd (directories.mpr here) free
          · rfl

theorem of_write {bytes : ByteArray} {disk' : Disk}
    (written : disk.write path bytes = .ok disk') :
    ∃ place, disk.target path = .ok place ∧ disk' = disk.put place (.file bytes) := by
  obtain ⟨place, found, same⟩ := Except.ok_of_bind written
  cases same
  exact ⟨place, found, rfl⟩

/-- The place of a new file is the same on disks with the same directories. -/
theorem SameBut.target_eq {Apart : Location → Prop} {a b : Disk} (same : SameBut Apart a b)
    {place : Location} (found : a.target path = .ok place) : b.target path = .ok place := by
  obtain ⟨before, last, parent, cut, walk, there, busy, _⟩ := of_target found
  have some : last ≠ [] := by
    rintro rfl
    cases busy
  rw [← same.target cut some walk there, found]

/-- A file that stands where a path names the place of a new one is read. -/
theorem read_of_target {place : Location} (found : disk.target path = .ok place) {bytes : ByteArray}
    (entry : disk.entry? place = some (.file bytes)) : disk.read path = .ok bytes := by
  obtain ⟨before, last, parent, cut, walk, there, busy, forth, short, named, _, checked⟩ :=
    of_target found
  have resolved : disk.resolve path = .ok place := by
    unfold resolve
    rw [checked, cut, List.foldlM_append, walk]
    change Disk.step _ parent last >>= _ = _
    rw [step_of_directory there, busy, if_neg Bool.false_ne_true, if_neg forth,
      if_neg (Nat.not_lt.mpr short), ← named, entry, Option.isSome_some, if_pos rfl]
    rfl
  rw [read, resolved]
  simp only [bind, Except.bind, entry]

end Target

/-- A directory that is there can be listed. -/
theorem directory_of_isDirectory {disk : Disk} {path : Path}
    (isDirectory : disk.isDirectory path = true) : ∃ place, disk.directory path = .ok place := by
  unfold Disk.isDirectory at? at isDirectory
  unfold directory
  cases found : disk.resolve path with
  | error cause => simp [found] at isDirectory
  | ok place =>
    rw [found] at isDirectory
    cases there : disk.entry? place with
    | none => simp [there] at isDirectory
    | some entry =>
      cases entry with
      | file bytes => simp [there] at isDirectory
      | directory => exact ⟨place, by simp only [bind, Except.bind, there]⟩

theorem mem_below_iff {disk : Disk} {place names : Location} {entry : DiskEntry} :
    (names, entry) ∈ disk.below place ↔ names ≠ [] ∧ (place ++ names, entry) ∈ disk.entries := by
  unfold below
  rw [List.mem_filterMap]
  constructor
  · rintro ⟨⟨location, entry'⟩, among, found⟩
    dsimp only at found
    split at found
    · next under =>
      cases found
      simp only [Bool.and_eq_true, List.isPrefixOf_iff_prefix, decide_eq_true_eq] at under
      obtain ⟨⟨rest, rfl⟩, longer⟩ := under
      rw [List.drop_left]
      refine ⟨?_, among⟩
      rintro rfl
      simp at longer
    · cases found
  · rintro ⟨inside, among⟩
    refine ⟨_, among, ?_⟩
    have longer := List.length_pos_iff.mpr inside
    simp [longer]

end NandTools.Disk
