import CodeAtlas.Extraction.Imports
import CodeAtlas.Proofs.Text.Segments

/-!
# Imports relative to a file

A relative import names a module by the way from the importing file to it. The name it is recorded
under and the name of the module's file are made in two ways: one follows the way from the segments
of the importing file, the other takes the path of the imported file apart. They have to agree, or
what is imported is taken for something outside of the repository.

In scripts they agree when the import spells the extension of the file. Without the extension they
agree unless the file's own name has a further dot, behind which the import loses its end. In Python
they agree when the importing file is recognized as what it is, the initializer of its package or
one of its modules; a module whose name ends like an initializer's is taken for one, and so is an
initializer outside of all packages.

## Main definitions

* `Extraction.Leads`: the segments of a specification lead from a directory to a path.

## Main results

* `Extraction.scriptModule_relative`: relative imports of scripts.
* `Extraction.pythonModule_relative`: relative imports of Python.
-/

namespace CodeAtlas.Extraction

/-! ### Scripts -/

/-- Segment by segment there is a way from a directory to a path: empty segments and single dots
stay in a directory, two dots leave it, and names go down from it. -/
inductive Leads : List String → List String → List String → Prop
  | arrived (path : List String) : Leads path [] path
  | stay {directory segments path : List String} {segment : String}
      (idle : segment = "" ∨ segment = ".") :
      Leads directory segments path → Leads directory (segment :: segments) path
  | up {directory segments path : List String} {folder : String} :
      Leads directory segments path → Leads (directory ++ [folder]) (".." :: segments) path
  | down {directory segments path : List String} {segment : String}
      (isName : PathText.IsName segment) :
      Leads (directory ++ [segment]) segments path → Leads directory (segment :: segments) path

/-- Following the segments arrives where they lead. -/
theorem Leads.foldl_followSegment {directory segments path : List String}
    (h : Leads directory segments path) : segments.foldl followSegment directory = path := by
  induction h with
  | arrived path => rfl
  | stay idle _ ih => rw [List.foldl_cons, followSegment, if_pos idle, ih]
  | up _ ih =>
    rw [List.foldl_cons, followSegment, if_neg (by decide), if_pos rfl, List.dropLast_concat, ih]
  | down isName _ ih =>
    rw [List.foldl_cons, followSegment, if_neg (not_or.mpr ⟨isName.not_empty, isName.not_here⟩),
      if_neg isName.not_up, ih]

/-- A relative specification stands for the path it leads to, without the extension and with dots
between the segments. -/
theorem scriptModule_of_leads {language : Language} (file : FilePath language) (source : String)
    {spec : String} (hspec : Text.startsWith "." spec = true)
    {folders : List String} {name : String}
    (hfolders : ∀ folder ∈ folders, '/' ∉ folder.toList) (hname : '/' ∉ name.toList)
    (hleads : Leads file.folders (Text.split '/' spec) (folders ++ [name])) :
    scriptModule (.ofFile language file.text source) spec =
      Text.join "." (folders ++ [Language.withoutExtension name]) := by
  have hdirectory : (Text.split '/' (Text.replaceChar '\\' '/' file.text)).dropLast =
      file.folders := by
    rw [file.replaceChar_text, file.split_text, List.dropLast_concat]
  have hparts : ∀ part ∈ folders ++ [Language.withoutExtension name], '/' ∉ part.toList := by
    intro part hpart
    rcases List.mem_append.mp hpart with hpart | hpart
    · exact hfolders part hpart
    · exact List.mem_singleton.mp hpart ▸ Language.slash_notMem_withoutExtension hname
  simp only [scriptModule, Context.ofFile, hspec, ↓reduceIte, hdirectory,
    hleads.foldl_followSegment, Language.withoutExtension_join folders hname,
    Text.replaceChar_join hparts]

theorem startsWith_dot_of_relative {spec : String}
    (h : Text.startsWith "./" spec = true ∨ Text.startsWith "../" spec = true) :
    Text.startsWith "." spec = true := by
  simp only [Text.startsWith, List.isPrefixOf_iff_prefix] at h ⊢
  rcases h with h | h
  · exact List.IsPrefix.trans (by decide) h
  · exact List.IsPrefix.trans (by decide) h

/-- The script languages. -/
def scriptLanguages : List Language :=
  [.javaScript, .typeScript, .tsx]

/-- The module of a script is named by all segments of its path. -/
theorem modulePath_script {language : Language} (h : language ∈ scriptLanguages)
    (file : FilePath language) :
    language.modulePath file.text = Text.join "." (file.folders ++ [file.stem]) := by
  have hsegments : ∀ names, language.moduleSegments names = names := by
    intro names
    simp only [scriptLanguages, List.mem_cons, List.not_mem_nil, or_false] at h
    rcases h with rfl | rfl | rfl <;> rfl
  rw [file.modulePath_text, hsegments]

/-- A relative import that leads to the path of a script stands for the module of the script. One
that leads to the path without the extension does so exactly when the name without the extension
has no dot after its first character. -/
theorem scriptModule_relative {language targetLanguage : Language}
    (htarget : targetLanguage ∈ scriptLanguages) (file : FilePath language)
    (target : FilePath targetLanguage) (source spec : String)
    (hspec : Text.startsWith "./" spec = true ∨ Text.startsWith "../" spec = true) :
    let resolved := scriptModule (.ofFile language file.text source) spec
    (Leads file.folders (Text.split '/' spec) (target.folders ++ [target.name]) →
      resolved = targetLanguage.modulePath target.text) ∧
    (Leads file.folders (Text.split '/' spec) (target.folders ++ [target.stem]) →
      (resolved = targetLanguage.modulePath target.text ↔ '.' ∉ target.stem.toList.tail)) := by
  intro resolved
  have hdot := startsWith_dot_of_relative hspec
  have hfolders : ∀ folder ∈ target.folders, '/' ∉ folder.toList := fun folder h =>
    (target.isSegment_folders folder h).one_segment
  rw [modulePath_script htarget]
  refine ⟨fun hleads => ?_, fun hleads => ?_⟩
  · have hstem : Language.withoutExtension target.name = target.stem :=
      Language.withoutExtension_append target.stem_ne target.slash_notMem_name
        target.dot_notMem_extension
    exact hstem ▸ scriptModule_of_leads file source hdot hfolders target.slash_notMem_name hleads
  · have hresolved : resolved =
        Text.join "." (target.folders ++ [Language.withoutExtension target.stem]) :=
      scriptModule_of_leads file source hdot hfolders target.slash_notMem_stem hleads
    rw [hresolved, Text.join_concat_inj,
      Language.withoutExtension_eq_self_iff target.slash_notMem_stem]

/-- A script in a directory below another. -/
def importingScript : FilePath .typeScript where
  folders := ["src", "ui"]
  stem := "a"
  extension := "ts"
  isSegment_folders := by decide +kernel
  stem_ne := by decide
  slash_notMem_stem := by decide
  backslash_notMem_stem := by decide
  extension_mem := by decide +kernel

/-- A script beside it, with a dot in its name. -/
def dottedScript : FilePath .javaScript where
  folders := ["src", "lib.v2"]
  stem := "b.min"
  extension := "js"
  isSegment_folders := by decide +kernel
  stem_ne := by decide
  slash_notMem_stem := by decide
  backslash_notMem_stem := by decide
  extension_mem := by decide +kernel

/-- Segments lead up from a directory and down to another one's file. -/
private theorem leads_beside (name spec : String) (hname : IsSegment name)
    (hspec : Text.split '/' spec = ["..", ".", "lib.v2", name]) :
    Leads importingScript.folders (Text.split '/' spec) ["src", "lib.v2", name] := by
  rw [hspec]
  have hfolder : IsSegment "lib.v2" := by decide +kernel
  have hdown : Leads ["src"] [".", "lib.v2", name] ["src", "lib.v2", name] :=
    .stay (Or.inr rfl) (.down hfolder.toIsName (.down hname.toIsName (.arrived _)))
  exact hdown.up

theorem scriptModule_relative_extension :
    scriptModule (.ofFile .typeScript importingScript.text "") ".././lib.v2/b.min.js" =
      "src.lib.v2.b.min" := by
  have hleads := leads_beside dottedScript.name ".././lib.v2/b.min.js" (by decide +kernel)
    (by decide +kernel)
  have hresolved := (scriptModule_relative (by decide) importingScript dottedScript ""
    ".././lib.v2/b.min.js" (Or.inr (by decide +kernel))).1 hleads
  exact hresolved.trans (by decide +kernel)

/-- Without the extension the import of a file with a further dot in its name stands for another
module. -/
theorem scriptModule_loses_end :
    ¬ ∀ (file : FilePath .typeScript) (target : FilePath .javaScript) (source spec : String),
      Text.startsWith "./" spec = true ∨ Text.startsWith "../" spec = true →
      Leads file.folders (Text.split '/' spec) (target.folders ++ [target.stem]) →
      scriptModule (.ofFile .typeScript file.text source) spec =
        Language.javaScript.modulePath target.text := by
  intro hall
  have hleads := leads_beside dottedScript.stem ".././lib.v2/b.min" (by decide +kernel)
    (by decide +kernel)
  have hresolved := hall importingScript dottedScript "" ".././lib.v2/b.min"
    (Or.inr (by decide +kernel)) hleads
  revert hresolved
  decide +kernel

/-! ### Python -/

/-- The file is the initializer of a directory. -/
def IsInitializer (file : FilePath .python) : Prop :=
  file.stem = "__init__" ∧ file.folders ≠ []

instance (file : FilePath .python) : Decidable (IsInitializer file) :=
  inferInstanceAs (Decidable (_ ∧ _))

/-- The module of a Python file has all segments of the path, and an initializer's has those of its
directory. -/
theorem modulePath_python (file : FilePath .python) :
    Language.python.modulePath file.text = Text.join "."
      (if IsInitializer file then file.folders else file.folders ++ [file.stem]) := by
  have hlength : (file.folders ++ [file.stem]).length > 1 ↔ file.folders ≠ [] := by
    rw [List.length_append, List.length_singleton, ← List.length_pos_iff]
    omega
  simp only [file.modulePath_text, Language.moduleSegments, hlength, List.getLast?_concat,
    Option.some.injEq, List.dropLast_concat]
  by_cases hinit : IsInitializer file
  · rw [if_pos hinit, if_pos ⟨hinit.2, hinit.1⟩]
  · rw [if_neg hinit, if_neg fun h => hinit ⟨h.2, h.1⟩]

/-- The package a Python file is taken to be in. -/
def packageOf (ctx : Context) : List String :=
  let own := Text.split '.' ctx.moduleName
  if Text.endsWith "__init__.py" ctx.relativePath then own else own.dropLast

/-- Dots before a name go up from the package of the file, one level less than there are dots. -/
theorem pythonModule_dots (ctx : Context) {level : Nat} (hlevel : 1 ≤ level) {rest : String}
    (hrest : ∀ c ∈ rest.toList.head?, c ≠ '.') :
    pythonModule ctx (String.ofList (List.replicate level '.') ++ rest) =
      Symbol.qualify
        (Text.join "." ((packageOf ctx).take ((packageOf ctx).length - (level - 1)))) rest := by
  have htext : (String.ofList (List.replicate level '.') ++ rest).toList =
      List.replicate level '.' ++ rest.toList := by
    simp
  have hstop : rest.toList.takeWhile (· == '.') = [] ∧ rest.toList.dropWhile (· == '.') =
      rest.toList := by
    cases hchars : rest.toList with
    | nil => exact ⟨rfl, rfl⟩
    | cons c cs =>
      have hc : (c == '.') = false := by simpa [hchars] using hrest
      simp [hc]
  have hdots : (List.replicate level '.' ++ rest.toList).takeWhile (· == '.') =
      List.replicate level '.' := by
    rw [List.takeWhile_append_of_pos (by simp), hstop.1, List.append_nil]
  have hafter : (List.replicate level '.' ++ rest.toList).dropWhile (· == '.') = rest.toList := by
    rw [List.dropWhile_append_of_pos (by simp), hstop.2]
  have hsome : (List.replicate level '.').isEmpty = false := by
    cases level with
    | zero => omega
    | succ n => rfl
  simp only [pythonModule, htext, hdots, hafter, hsome, Bool.false_eq_true, ↓reduceIte,
    List.length_replicate, String.ofList_toList, packageOf]

/-- How many segments of the path of a Python file the file's package is taken to have. It has as
many as there are directories when the file is recognized as what it is, the initializer of a
directory or another module. -/
def packageDepth (file : FilePath .python) : Nat :=
  if Text.endsWith "__init__.py" file.text then
    if IsInitializer file then file.folders.length else file.folders.length + 1
  else
    if IsInitializer file then file.folders.length - 1 else file.folders.length

theorem packageDepth_le (file : FilePath .python) :
    packageDepth file ≤ (file.folders ++ [file.stem]).length := by
  simp only [packageDepth, List.length_append, List.length_singleton]
  split_ifs <;> omega

/-- A relative import starts from the right directory exactly when the file is recognized as what it
is, or when it is an initializer and leaves all directories. -/
theorem packageDepth_sub_eq_iff (file : FilePath .python) {level : Nat} (hlevel : 1 ≤ level)
    (hmost : level ≤ file.folders.length + 1) :
    packageDepth file - (level - 1) = file.folders.length + 1 - level ↔
      (Text.endsWith "__init__.py" file.text = true ↔ IsInitializer file) ∨
        IsInitializer file ∧ level = file.folders.length + 1 := by
  by_cases hends : Text.endsWith "__init__.py" file.text = true
  · by_cases hinit : IsInitializer file
    · have hequal : packageDepth file = file.folders.length := by
        rw [packageDepth, if_pos hends, if_pos hinit]
      simp only [hequal, hends, hinit, true_or, iff_true]
      omega
    · have hdeeper : packageDepth file = file.folders.length + 1 := by
        rw [packageDepth, if_pos hends, if_neg hinit]
      simp only [hdeeper, hends, hinit, iff_false, not_true, false_and, or_false]
      omega
  · by_cases hinit : IsInitializer file
    · have hsome : 0 < file.folders.length := List.length_pos_iff.mpr hinit.2
      have hhigher : packageDepth file = file.folders.length - 1 := by
        rw [packageDepth, if_neg hends, if_pos hinit]
      simp only [hhigher, hends, hinit, Bool.false_eq_true, iff_true, true_and, false_or]
      omega
    · have hequal : packageDepth file = file.folders.length := by
        rw [packageDepth, if_neg hends, if_neg hinit]
      simp only [hequal, hends, hinit, Bool.false_eq_true, true_or, iff_true]
      omega

/-- The package of a file is the directory of that depth. -/
theorem packageOf_ofFile (file : FilePath .python)
    (hplain : ∀ segment ∈ file.folders ++ [file.stem], '.' ∉ segment.toList) (source : String) :
    packageOf (.ofFile .python file.text source) =
      (file.folders ++ [file.stem]).take (packageDepth file) := by
  have hown : Text.split '.' (Language.python.modulePath file.text) =
      if IsInitializer file then file.folders else file.folders ++ [file.stem] := by
    rw [modulePath_python]
    split
    · rename_i hinit
      exact Text.split_join (by rfl) hinit.2 fun segment h =>
        hplain segment (List.mem_append_left _ h)
    · exact Text.split_join (by rfl) (by simp) hplain
  simp only [packageOf, packageDepth, Context.ofFile, file.replaceChar_text, hown]
  split_ifs
  · rw [List.take_left]
  · rw [List.take_of_length_le (by simp)]
  · rw [List.dropLast_eq_take, List.take_append_of_le_length (Nat.sub_le _ _)]
  · rw [List.dropLast_concat, List.take_left]

/-- The path of the file that a relative import of Python names: so many directories of the
importing file, then the segments of the import. -/
def importedPath (file : FilePath .python) (level : Nat) (rest : List String) : String :=
  Text.join "/" (file.folders.take (file.folders.length + 1 - level) ++ rest) ++ ".py"

/-- The module of the file that an import names. -/
theorem modulePath_importedPath (file : FilePath .python) (level : Nat) {rest : List String}
    (hrest : rest ≠ []) (hsegments : ∀ segment ∈ rest, IsSegment segment)
    (hlast : rest.getLast? ≠ some "__init__") :
    Language.python.modulePath (importedPath file level rest) =
      Text.join "." (file.folders.take (file.folders.length + 1 - level) ++ rest) := by
  obtain ⟨front, last, rfl⟩ : ∃ front last, rest = front ++ [last] :=
    ⟨_, _, (List.dropLast_append_getLast hrest).symm⟩
  have hinit : last ≠ "__init__" := by simpa using hlast
  have hlast' := hsegments last (by simp)
  let imported : FilePath .python :=
    { folders := file.folders.take (file.folders.length + 1 - level) ++ front
      stem := last
      extension := "py"
      isSegment_folders := by
        intro folder hfolder
        rcases List.mem_append.mp hfolder with hfolder | hfolder
        · exact file.isSegment_folders folder (List.mem_of_mem_take hfolder)
        · exact hsegments folder (List.mem_append_left _ hfolder)
      stem_ne := hlast'.not_empty
      slash_notMem_stem := hlast'.one_segment
      backslash_notMem_stem := hlast'.no_backslash
      extension_mem := by decide +kernel }
  have htext : importedPath file level (front ++ [last]) = imported.text := by
    have hpy : last ++ ".py" = last ++ "." ++ "py" := by
      rw [String.append_assoc]
      rfl
    rw [importedPath, ← List.append_assoc, Text.join_concat_append, hpy]
    rfl
  rw [htext, modulePath_python, if_neg fun h => hinit h.1, ← List.append_assoc]

/-- A relative import of Python stands for the module of the file that it names exactly when the
importing file is recognized as what it is: its path ends like an initializer's if and only if it is
the initializer of a directory. An initializer that is not recognized still imports what lies in the
outermost directory. -/
theorem pythonModule_relative (file : FilePath .python)
    (hplain : ∀ segment ∈ file.folders ++ [file.stem], '.' ∉ segment.toList) (source : String)
    (level : Nat) (hlevel : 1 ≤ level) (hmost : level ≤ file.folders.length + 1)
    (rest : List String) (hrest : rest ≠ [])
    (hsegments : ∀ segment ∈ rest, IsSegment segment ∧ '.' ∉ segment.toList)
    (hlast : rest.getLast? ≠ some "__init__") :
    pythonModule (.ofFile .python file.text source)
        (String.ofList (List.replicate level '.') ++ Text.join "." rest) =
      Language.python.modulePath (importedPath file level rest) ↔
    (Text.endsWith "__init__.py" file.text = true ↔ IsInitializer file) ∨
      IsInitializer file ∧ level = file.folders.length + 1 := by
  have hfirst : ∀ c ∈ (Text.join "." rest).toList.head?, c ≠ '.' := by
    obtain ⟨first, others, rfl⟩ := List.exists_cons_of_ne_nil hrest
    have hsegment := hsegments first (by simp)
    rw [Text.head?_join_cons hsegment.1.not_empty]
    rintro c hc rfl
    exact hsegment.2 (List.mem_of_mem_head? hc)
  -- Both names are a part of the importing path, followed by the segments of the import.
  have hjoined (depth : Nat) : ∀ segment ∈ (file.folders ++ [file.stem]).take depth ++ rest,
      segment ≠ "" ∧ '.' ∉ segment.toList := by
    intro segment h
    rcases List.mem_append.mp h with h | h
    · have hmem := List.mem_of_mem_take h
      exact ⟨file.ne_empty_of_mem hmem, hplain segment hmem⟩
    · exact ⟨(hsegments segment h).1.not_empty, (hsegments segment h).2⟩
  have hfolders : file.folders.take (file.folders.length + 1 - level) =
      (file.folders ++ [file.stem]).take (file.folders.length + 1 - level) := by
    rw [List.take_append_of_le_length (by omega)]
  rw [pythonModule_dots _ hlevel hfirst, packageOf_ofFile file hplain,
    modulePath_importedPath file level hrest (fun segment h => (hsegments segment h).1) hlast,
    List.take_take, List.length_take, Nat.min_eq_left (packageDepth_le file),
    Nat.min_eq_left (Nat.sub_le _ _),
    Symbol.qualify_join hrest fun segment h => (hjoined _ segment h).1, hfolders,
    Text.join_inj (by rfl) (by simp [hrest]) (by simp [hrest])
      (fun segment h => (hjoined _ segment h).2) (fun segment h => (hjoined _ segment h).2),
    List.append_left_inj, List.take_eq_take_iff, ← packageDepth_sub_eq_iff file hlevel hmost]
  have hdepth := packageDepth_le file
  rw [List.length_append, List.length_singleton] at hdepth ⊢
  omega

/-- A module whose name ends like an initializer's. -/
def lookalike : FilePath .python where
  folders := ["pkg"]
  stem := "my__init__"
  extension := "py"
  isSegment_folders := by decide +kernel
  stem_ne := by decide
  slash_notMem_stem := by decide
  backslash_notMem_stem := by decide
  extension_mem := by decide +kernel

/-- The initializer of a package in another one. -/
def packageInitializer : FilePath .python where
  folders := ["pkg", "sub"]
  stem := "__init__"
  extension := "py"
  isSegment_folders := by decide +kernel
  stem_ne := by decide
  slash_notMem_stem := by decide
  backslash_notMem_stem := by decide
  extension_mem := by decide +kernel

/-- An initializer outside of all packages. -/
def topInitializer : FilePath .python where
  folders := []
  stem := "__init__"
  extension := "py"
  isSegment_folders := by decide +kernel
  stem_ne := by decide
  slash_notMem_stem := by decide
  backslash_notMem_stem := by decide
  extension_mem := by decide +kernel

theorem pythonModule_relative_parent :
    pythonModule (.ofFile .python packageInitializer.text "") "..util.text" = "pkg.util.text" := by
  have hresolved := (pythonModule_relative packageInitializer (by decide +kernel) "" 2 (by decide)
    (by decide) ["util", "text"] (by decide) (by decide +kernel) (by decide)).mpr
    (Or.inl (by decide +kernel))
  exact hresolved.trans (by decide +kernel)

/-- Imports of what lies beside the file go wrong in a module whose name ends like an initializer's
and in an initializer outside of all packages. -/
theorem pythonModule_mistakes_package :
    pythonModule (.ofFile .python lookalike.text "") ".a" ≠
      Language.python.modulePath (importedPath lookalike 1 ["a"]) ∧
    pythonModule (.ofFile .python topInitializer.text "") ".a" ≠
      Language.python.modulePath (importedPath topInitializer 1 ["a"]) := by
  decide +kernel

end CodeAtlas.Extraction
