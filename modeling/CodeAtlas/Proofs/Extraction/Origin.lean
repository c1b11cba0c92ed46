import CodeAtlas.Proofs.ContentIds
import CodeAtlas.Proofs.Extraction.ClearNames
import CodeAtlas.Proofs.FileSystem.Operations
import CodeAtlas.Proofs.Text.Segments

/-!
# A file is extracted in one way

Files are extracted by the standard extractors as their paths and texts say: the extension of the
path decides on the language, and the parser gives one tree for a text in a language. A path can be
spelled with backslashes, which the extracted file has replaced, but its extension can not. So two
extracted files with one path and one text are the same.

## Main results

* `Builder.hasOrigin_of_extractFile`: every extracted file has an origin.
* `ParsedFile.HasOrigin.eq`: files with one path and one text are the same.
-/

namespace CodeAtlas

open PathText (Part)

/-! ### The end of a path -/

/-- The separator does not occur before its first occurrence. -/
theorem Text.not_mem_of_cutFirst? {sep : Char} {cs before after : List Char}
    (h : cutFirst? sep cs = some (before, after)) : sep ∉ before := by
  induction cs generalizing before with
  | nil => simp [cutFirst?] at h
  | cons c rest ih =>
    rw [cutFirst?] at h
    split at h
    case isTrue =>
      obtain ⟨rfl, -⟩ := Prod.mk.inj (Option.some.inj h)
      exact List.not_mem_nil
    case isFalse hc =>
      obtain ⟨⟨front, back⟩, hcut, heq⟩ := Option.map_eq_some_iff.mp h
      obtain ⟨rfl, rfl⟩ := Prod.mk.inj heq
      rw [List.mem_cons, not_or]
      exact ⟨fun heq => hc (by simp [heq]), ih hcut⟩

theorem Text.not_mem_of_cutLast? {sep : Char} {cs before after : List Char}
    (h : cutLast? sep cs = some (before, after)) : sep ∉ after := by
  obtain ⟨⟨back, front⟩, hcut, heq⟩ := Option.map_eq_some_iff.mp h
  obtain ⟨-, rfl⟩ := Prod.mk.inj heq
  rw [List.mem_reverse]
  exact not_mem_of_cutFirst? hcut

namespace PathText

/-- The extension of a path that does not ask for a directory is what follows its last dot. -/
theorem exists_eq_append_extension {path extension : String} (h : extension? path = some extension)
    (hasks : FileSystem.asksDirectory path = false) :
    ∃ front, path.toList = front ++ '.' :: extension.toList ∧ '.' ∉ extension.toList := by
  obtain ⟨name, hname, hextension⟩ := Option.bind_eq_some_iff.mp h
  obtain ⟨front, hpath, -⟩ := exists_eq_append_fileName hname hasks
  unfold extensionOfName? at hextension
  split at hextension
  · rename_i before after hcut
    split_ifs at hextension
    obtain rfl := Option.some.inj hextension
    refine ⟨front ++ before, ?_, ?_⟩
    · rw [hpath, Text.cutLast?_eq_some hcut, String.toList_ofList, List.append_assoc]
    · rw [String.toList_ofList]
      exact Text.not_mem_of_cutLast? hcut
  · simp at hextension

end PathText

/-! ### Languages of paths -/

namespace Language

/-- The path ends with a dot and an extension of the language, in any letter case. -/
def Matches (language : Language) (path : String) : Prop :=
  ∃ (front : List Char) (extension : String), path.toList = front ++ '.' :: extension.toList ∧
    '.' ∉ extension.toList ∧ Text.lower extension ∈ language.extensions

private theorem append_dot_inj {front front' back back' : List Char} (hback : '.' ∉ back)
    (hback' : '.' ∉ back') (h : front ++ '.' :: back = front' ++ '.' :: back') : back = back' := by
  induction front generalizing front' with
  | nil =>
    cases front' with
    | nil => exact (List.cons.inj h).2
    | cons c front' =>
      refine absurd ?_ hback
      rw [(List.cons.inj h).2]
      simp
  | cons c front ih =>
    cases front' with
    | nil =>
      refine absurd ?_ hback'
      rw [← (List.cons.inj h).2]
      simp
    | cons d front' => exact ih (List.cons.inj h).2

/-- A path matches one language at most. -/
theorem eq_of_matches {language language' : Language} {path : String}
    (h : language.Matches path) (h' : language'.Matches path) : language = language' := by
  obtain ⟨front, extension, hpath, hdot, hmem⟩ := h
  obtain ⟨front', extension', hpath', hdot', hmem'⟩ := h'
  obtain rfl := String.toList_inj.mp (append_dot_inj hdot hdot' (hpath.symm.trans hpath'))
  have hapart : ∀ l l' : Language, ∀ e ∈ l.extensions, e ∈ l'.extensions → l = l' := by
    intro l l'
    cases l <;> cases l' <;> decide +kernel
  exact hapart language language' _ hmem hmem'

/-- No extension has a backslash, so that replacing these keeps the language. -/
theorem Matches.replaceChar {language : Language} {path : String} (h : language.Matches path) :
    language.Matches (Text.replaceChar '\\' '/' path) := by
  obtain ⟨front, extension, hpath, hdot, hmem⟩ := h
  have hback : '\\' ∉ extension.toList :=
    Language.notMem_extension hmem (by decide +kernel) (by cases language <;> decide +kernel)
  refine ⟨front.map fun c => if c = '\\' then '/' else c, extension, ?_, hdot, hmem⟩
  have hsame : extension.toList.map (fun c => if c = '\\' then '/' else c) = extension.toList := by
    have hkept := congrArg String.toList (Text.replaceChar_of_notMem '/' hback)
    rwa [Text.replaceChar, String.toList_map] at hkept
  rw [Text.replaceChar, String.toList_map, hpath, List.map_append, List.map_cons, hsame]
  rfl

end Language

/-! ### Origins -/

/-- The file is what the language of its path and the tree of its text make of them. -/
def ParsedFile.HasOrigin (parser : SyntaxParser) (file : ParsedFile) : Prop :=
  ∃ (language : Language) (root : Node), language.Matches file.relativePath ∧
    parser language file.text = some root ∧
    file = Extraction.extract language file.relativePath file.text root

/-- Files with one path and one text are the same. -/
theorem ParsedFile.HasOrigin.eq {parser : SyntaxParser} {file other : ParsedFile}
    (h : file.HasOrigin parser) (h' : other.HasOrigin parser)
    (hpath : file.relativePath = other.relativePath) (htext : file.text = other.text) :
    file = other := by
  obtain ⟨language, root, hmatches, hroot, hfile⟩ := h
  obtain ⟨language', root', hmatches', hroot', hother⟩ := h'
  obtain rfl := Language.eq_of_matches hmatches (hpath ▸ hmatches')
  rw [htext, hroot'] at hroot
  obtain rfl := Option.some.inj hroot
  rw [hfile, hother, hpath, htext]

/-- Backslashes are replaced once and for all. -/
theorem Text.replaceChar_replaceChar (s : String) :
    replaceChar '\\' '/' (replaceChar '\\' '/' s) = replaceChar '\\' '/' s := by
  rw [replaceChar, replaceChar, String.map_map]
  congr 1
  funext c
  by_cases hc : c = '\\'
  · simp [hc]
  · simp [hc]

/-- What is extracted does not depend on how the path spells its slashes. -/
theorem Extraction.extract_replaceChar (language : Language) (path source : String) (root : Node) :
    extract language (Text.replaceChar '\\' '/' path) source root =
      extract language path source root := by
  have hctx : Context.ofFile language (Text.replaceChar '\\' '/' path) source =
      Context.ofFile language path source := by
    simp only [Context.ofFile, Language.symbolQualifier, Language.packagePath?,
      Language.modulePath, Text.replaceChar_replaceChar]
  simp only [extract, hctx]

/-- The extractor for a file that can be read is that of the language its path matches. -/
theorem Registry.exists_matches_of_readText {parser : SyntaxParser} {fs : FileSystem}
    {directory path source : String} {extractor : Extractor}
    (h : (standard parser).forPath? path = some extractor)
    (hread : fs.readText (PathText.join directory path) = .ok source) :
    ∃ language : Language, language.Matches path ∧ extractor = .ofLanguage parser language := by
  obtain ⟨language, extension, hextension, hmem, rfl⟩ := exists_language_of_forPath? h
  have hasks : FileSystem.asksDirectory path = false := by
    obtain ⟨-, -, -, hasks⟩ := FileSystem.entry_eq_file (FileSystem.entry_of_readText hread)
    by_contra hdirectory
    rw [PathText.asksDirectory_join (by simpa using hdirectory)] at hasks
    exact absurd hasks (by simp)
  obtain ⟨front, hpath, hdot⟩ := PathText.exists_eq_append_extension hextension hasks
  exact ⟨language, ⟨front, extension, hpath, hdot, hmem⟩, rfl⟩

/-- The extraction by the standard extractors. -/
theorem Builder.extractFile_standard {parser : SyntaxParser} {builder : Builder} {fs : FileSystem}
    {directory path : String} {file : ParsedFile} (hregistry : builder.registry = .standard parser)
    (h : builder.extractFile fs directory path = .ok file) :
    ∃ (language : Language) (source : String) (root : Node), language.Matches path ∧
      fs.readText (PathText.join directory path) = .ok source ∧
      parser language (Text.normalizeLines source) = some root ∧
      file = Extraction.extract language path (Text.normalizeLines source) root := by
  obtain ⟨extractor, source, hextractor, hread, hextract⟩ := extractFile_eq_ok h
  rw [hregistry] at hextractor
  obtain ⟨language, hmatches, rfl⟩ := Registry.exists_matches_of_readText hextractor hread
  simp only [Extractor.ofLanguage] at hextract
  split at hextract
  · rename_i root hroot
    exact ⟨language, source, root, hmatches, hread, hroot, (Except.ok.inj hextract).symm⟩
  · simp at hextract

/-- Every file that is extracted has an origin. -/
theorem Builder.hasOrigin_of_extractFile {parser : SyntaxParser} {builder : Builder}
    {fs : FileSystem} {directory path : String} {file : ParsedFile}
    (hregistry : builder.registry = .standard parser)
    (h : builder.extractFile fs directory path = .ok file) : file.HasOrigin parser := by
  obtain ⟨language, source, root, hmatches, -, hroot, rfl⟩ := extractFile_standard hregistry h
  exact ⟨language, root, hmatches.replaceChar, hroot,
    (Extraction.extract_replaceChar language path _ root).symm⟩

end CodeAtlas
