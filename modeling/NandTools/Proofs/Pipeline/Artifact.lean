import NandTools.Pipeline.Artifact
import NandTools.Proofs.Parser.Streaming
import NandTools.Proofs.SourceFile

/-! What an artifact holds: the tree of a class, the words of an assembly program, or the assembly
program of virtual machine code, made from the text of its input and from nothing else. -/
namespace NandTools.Artifact

open Reported

variable {disk : Disk} {preferences : Preferences} {path : Path} {output? : Option Path}

/-- The files that the virtual machine code of an input stands in. -/
def vmSources (disk : Disk) (path : Path) : Except PipelineError (List Path) :=
  if disk.isDirectory path then vmFiles disk path else .ok [path]

/-- The path that their translation is written to. -/
def vmOutput (disk : Disk) (path : Path) : Option Path → Except PipelineError Path
  | some output => .ok output
  | none => if disk.isDirectory path then directoryOutput disk path else .ok (path.withExtension "asm")

section Values

instance (preferences : FilePreferences) (kind : SourceKind) :
    Blind (loadSource disk preferences kind path) := by
  unfold loadSource
  infer_instance

instance (preferences : ScanPreferences) (file : SourceFile) : Blind (scan preferences file) := by
  unfold scan
  infer_instance

theorem value_loadSource (preferences : FilePreferences) (kind : SourceKind) :
    (loadSource disk preferences kind path).value =
      (SourceFile.load disk preferences (some kind.extension) path).value.mapError
        .fileProcessing := rfl

theorem value_scan (preferences : ScanPreferences) (file : SourceFile) :
    (scan preferences file).value =
      (tokenize preferences file.text.toList).result.map fun stream =>
        { stream with index? := some (Source.LineIndex.ofText file.text.toList) } := by
  unfold scan
  simp only [value_bind, value_report, value_ofPair, value_pure]
  cases (tokenize preferences file.text.toList).result <;> rfl

theorem value_ofClass : (ofClass disk preferences path output?).value = do
    let file ← (loadSource disk preferences.files .jack path).value
    let stream ← (scan preferences.scan file).value.mapError .lexicalAnalysis
    let tree ← (parseStream stream).1.mapError .syntaxAnalysis
    let format := preferences.tree.format.extension
    let output := output?.getD (path.withExtension format)
    return {
      product := ⟨path, output, file.size,
        classSummary tree stream.length (ClassSymbols.collect tree).1⟩
      text := tree.render preferences.tree
      failure := fun cause => (.treeOutput output cause, [])
      written := .success .outputWritten "Parse tree written"
        [("path", output.text), ("format", format)]
      remarks := [(ClassSymbols.collect tree).2] } := by
  unfold ofClass
  simp only [value_bind, value_report, value_mapError, value_ofPair, value_pure]
  rfl

theorem value_ofAssembly : (ofAssembly disk preferences path output?).value = do
    let file ← (loadSource disk preferences.files .assembly path).value
    let assembly ← (Assembly.assemble .initial file.text.toList).1.mapError .assembly
    return plain ⟨path, output?.getD (path.withExtension "hack"), file.size,
      .assembly assembly.stats⟩ assembly.text := by
  unfold ofAssembly
  simp only [value_bind, value_report, value_mapError, value_ofPair, value_pure]
  rfl

theorem value_ofVm : (ofVm disk preferences path output?).value = do
    let paths ← vmSources disk path
    let files ← paths.mapM fun path => (loadSource disk preferences.files .vm path).value
    let modules := files.map fun file => (file.moduleName, file.text.toList)
    let bootstrap := disk.isDirectory path && preferences.translation.bootstrap
    let translation ← (Translation.ofModules modules bootstrap
      preferences.translation.annotate).1.mapError .translation
    let output ← vmOutput disk path output?
    return plain ⟨path, output, files.foldl (fun sum file => sum + file.size) 0,
      .translation translation.stats⟩ translation.assembly := by
  unfold ofVm
  cases isDirectory : disk.isDirectory path <;> cases output? <;>
    simp only [value_bind, value_report, value_mapM, value_mapError, value_ofPair,
      value_liftExcept, value_pure, vmSources, vmOutput, isDirectory, Bool.false_eq_true, if_false,
      if_true] <;>
    rfl

/-- A text that is scanned is parsed as its tokens are. -/
theorem parseStream_of_scan {preferences : ScanPreferences} {file : SourceFile}
    {stream : TokenStream} (scanned : (scan preferences file).value = .ok stream) :
    (parseStream stream).1 = (parseText file.text.toList).1 := by
  rw [value_scan] at scanned
  rcases tokenize_cases preferences file.text.toList with
    ⟨plain, tokens, last, tokenized, leads, holds⟩ | ⟨e, failed, _⟩
  · rw [tokenized] at scanned
    cases scanned
    have holds' : TokenStream.Holds { plain with
      index? := some (Source.LineIndex.ofText file.text.toList) } tokens last := holds
    exact (parseText_of_streamed leads holds').symm
  · rw [failed] at scanned
    cases scanned

/-- A text that is parsed is scanned. -/
theorem scan_of_parseText (preferences : ScanPreferences) {file : SourceFile} {tree : Tree}
    (parsed : (parseText file.text.toList).1 = .ok tree) :
    ∃ stream, (scan preferences file).value = .ok stream := by
  rw [value_scan]
  rcases tokenize_cases preferences file.text.toList with
    ⟨stream, _, _, scanned, _⟩ | ⟨e, _, fails⟩
  · rw [scanned]
    exact ⟨_, rfl⟩
  · obtain ⟨e', refused, _⟩ := parseText_of_fails fails
    cases parsed.symm.trans refused

end Values

/-- A file is accepted as a source of its kind, with the text that stands on the disk. -/
structure Loads (disk : Disk) (preferences : FilePreferences) (kind : SourceKind) (path : Path)
    (file : SourceFile) : Prop where
  value : (SourceFile.load disk preferences (some kind.extension) path).value = .ok file
  read : disk.read path = .ok file.text.toUTF8

theorem loads_of_value {preferences : FilePreferences} {kind : SourceKind} {file : SourceFile}
    (loaded : (loadSource disk preferences kind path).value = .ok file) :
    Loads disk preferences kind path file := by
  have value := Except.ok_of_mapError loaded
  exact ⟨value, SourceFile.read_of_load value⟩

/-- The text that an input stands for, by its kind: a rendered tree, the words of a program, or the
translation of modules. -/
inductive StandsFor (disk : Disk) (preferences : Preferences) (path : Path) :
    SourceKind → String → Prop
  | tree {file : SourceFile} {tree : Tree} (loads : Loads disk preferences.files .jack path file)
      (parses : (parseText file.text.toList).1 = .ok tree) :
      StandsFor disk preferences path .jack (tree.render preferences.tree)
  | words {file : SourceFile} {assembly : Assembly}
      (loads : Loads disk preferences.files .assembly path file)
      (assembles : (Assembly.assemble .initial file.text.toList).1 = .ok assembly) :
      StandsFor disk preferences path .assembly assembly.text
  | program {paths : List Path} {files : List SourceFile} {translation : Translation}
      (finds : vmSources disk path = .ok paths)
      (loads : List.Forall₂ (Loads disk preferences.files .vm) paths files)
      (translates : (Translation.ofModules
        (files.map fun file => (file.moduleName, file.text.toList))
        (disk.isDirectory path && preferences.translation.bootstrap)
        preferences.translation.annotate).1 = .ok translation) :
      StandsFor disk preferences path .vm translation.assembly

theorem Loads.loadSource {preferences : FilePreferences} {kind : SourceKind} {file : SourceFile}
    (loads : Loads disk preferences kind path file) :
    (loadSource disk preferences kind path).value = .ok file := by
  rw [value_loadSource, loads.value]
  rfl

theorem StandsFor.loads {text : String} (stands : StandsFor disk preferences path .jack text) :
    ∃ file, Loads disk preferences.files .jack path file := by
  cases stands with
  | tree loads _ => exact ⟨_, loads⟩

theorem forall₂_loads {paths : List Path} {files : List SourceFile}
    (loaded : (paths.mapM fun path => (loadSource disk preferences.files .vm path).value) =
      .ok files) : List.Forall₂ (Loads disk preferences.files .vm) paths files := by
  induction paths generalizing files with
  | nil =>
    cases loaded
    exact .nil
  | cons path rest ih =>
    rw [List.mapM_cons] at loaded
    obtain ⟨file, first, loaded⟩ := Except.ok_of_bind loaded
    obtain ⟨files', others, loaded⟩ := Except.ok_of_bind loaded
    cases loaded
    exact .cons (loads_of_value first) (ih others)

theorem loaded_of_forall₂ {paths : List Path} {files : List SourceFile}
    (loads : List.Forall₂ (Loads disk preferences.files .vm) paths files) :
    (paths.mapM fun path => (loadSource disk preferences.files .vm path).value) = .ok files := by
  induction loads with
  | nil => rfl
  | cons first _ ih =>
    rw [List.mapM_cons, first.loadSource, ih]
    rfl

variable {kind : SourceKind} {artifact : Artifact}

/-- An artifact holds the text that its input stands for, and goes where it is asked for. -/
theorem standsFor_of_make
    (made : (make kind disk preferences path output?).value = .ok artifact) :
    StandsFor disk preferences path kind artifact.text ∧ artifact.product.input = path ∧
      ∀ output, output? = some output → artifact.product.output = output := by
  cases kind with
  | jack =>
    rw [make, value_ofClass] at made
    obtain ⟨file, loads, made⟩ := Except.ok_of_bind made
    obtain ⟨stream, scanned, made⟩ := Except.ok_of_bind made
    obtain ⟨tree, parsed, made⟩ := Except.ok_of_bind made
    have parses := Except.ok_of_mapError parsed
    rw [parseStream_of_scan (Except.ok_of_mapError scanned)] at parses
    cases made
    refine ⟨.tree (loads_of_value loads) parses, rfl, ?_⟩
    rintro output rfl
    rfl
  | assembly =>
    rw [make, value_ofAssembly] at made
    obtain ⟨file, loads, made⟩ := Except.ok_of_bind made
    obtain ⟨assembly, assembles, made⟩ := Except.ok_of_bind made
    cases made
    refine ⟨.words (loads_of_value loads) (Except.ok_of_mapError assembles), rfl, ?_⟩
    rintro output rfl
    rfl
  | vm =>
    rw [make, value_ofVm] at made
    obtain ⟨paths, finds, made⟩ := Except.ok_of_bind made
    obtain ⟨files, loads, made⟩ := Except.ok_of_bind made
    obtain ⟨translation, translates, made⟩ := Except.ok_of_bind made
    obtain ⟨target, chosen, made⟩ := Except.ok_of_bind made
    cases made
    refine ⟨.program finds (forall₂_loads loads) (Except.ok_of_mapError translates), rfl, ?_⟩
    rintro output rfl
    cases chosen
    rfl

theorem output_of_make (made : (make .jack disk preferences path output?).value = .ok artifact) :
    artifact.product.output =
      output?.getD (path.withExtension preferences.tree.format.extension) := by
  rw [make, value_ofClass] at made
  obtain ⟨_, _, made⟩ := Except.ok_of_bind made
  obtain ⟨_, _, made⟩ := Except.ok_of_bind made
  obtain ⟨_, _, made⟩ := Except.ok_of_bind made
  cases made
  rfl

/-- A class that is read and parsed has its tree made, whatever its variables are. -/
theorem make_of_parsed {file : SourceFile} {tree : Tree}
    (loads : Loads disk preferences.files .jack path file)
    (parses : (parseText file.text.toList).1 = .ok tree) :
    ∃ artifact, (make .jack disk preferences path output?).value = .ok artifact ∧
      artifact.text = tree.render preferences.tree ∧
      ∀ cause, (artifact.failure cause).1 = .treeOutput artifact.product.output cause := by
  obtain ⟨stream, scanned⟩ := scan_of_parseText preferences.scan parses
  have parsed := (parseStream_of_scan scanned).trans parses
  rw [make, value_ofClass, loads.loadSource]
  simp only [bind, Except.bind, scanned, parsed, Except.mapError, pure, Except.pure]
  exact ⟨_, rfl, rfl, fun _ => rfl⟩

/-- A class stands for one text, which it is made into. -/
theorem StandsFor.make_eq {text : String} (stands : StandsFor disk preferences path .jack text)
    (output? : Option Path) :
    (make .jack disk preferences path output?).value.toOption.map Artifact.text = some text := by
  cases stands with
  | tree loads parses =>
    obtain ⟨artifact, made, same, _⟩ := @make_of_parsed _ _ _ output? _ _ loads parses
    rw [made, ← same]
    rfl

end NandTools.Artifact
