import CodeAtlas.Proofs.ContentIds
import Mathlib.Algebra.GroupWithZero.Nat

/-!
# Failures are isolated

A file that cannot be extracted and a component whose code cannot be cut out are left out of a build,
but by then they have been looked at: the component is registered, and others may name it as their
parent. Nothing of that is left in the result. It is the graph of the files that can be extracted,
with their components that have code, as if there were no others.

## Main definitions

* `ParsedFile.withoutFailed`: a file without the components that have no code.
* `Builder.withoutFailed`: the builder whose extractors leave such components out.

## Main results

* `ParsedFile.unlinked_withoutFailed`: components without code do not change the others of a file.
* `Builder.length_candidates`: every component found is kept, repeats another, or fails.
* `Builder.failures_isolated`: a build is that of what can be extracted.
-/

namespace CodeAtlas

private theorem countP_add_countP_not {α : Type} (p : α → Bool) (xs : List α) :
    xs.countP p + xs.countP (fun x => !p x) = xs.length := by
  rw [List.length_eq_countP_add_countP p]
  congr 2
  funext x
  cases p x <;> rfl

/-- Among distinct keys, entries of which nothing is taken need not be there. -/
theorem Keyed.bind_find?_filter {α β γ : Type} [BEq β] [LawfulBEq β] {key : α → β} {xs : List α}
    (h : (xs.map key).Nodup) {p : α → Bool} {taken : α → Option γ}
    (hp : ∀ x ∈ xs, p x = false → taken x = none) (k : β) :
    ((xs.filter p).find? fun x => key x == k).bind taken =
      (xs.find? fun x => key x == k).bind taken := by
  cases hfound : xs.find? fun x => key x == k with
  | none =>
    have hnone : ((xs.filter p).find? fun x => key x == k) = none := by
      rw [List.find?_eq_none] at hfound ⊢
      exact fun x hx => hfound x (List.mem_filter.mp hx).1
    rw [hnone]
  | some x =>
    have hx := List.mem_of_find?_eq_some hfound
    have hkey := List.find?_some hfound
    obtain rfl : key x = k := beq_iff_eq.mp hkey
    cases hpx : p x with
    | true =>
      rw [find?_eq_some key (h.sublist (List.filter_sublist.map key))
        (List.mem_filter.mpr ⟨hx, hpx⟩)]
    | false =>
      have hnone : ((xs.filter p).find? fun y => key y == key x) = none := by
        refine List.find?_eq_none.mpr fun y hy hsame => ?_
        obtain ⟨hmem, hpy⟩ := List.mem_filter.mp hy
        rw [List.inj_on_of_nodup_map h hmem hx (beq_iff_eq.mp hsame), hpx] at hpy
        exact Bool.false_ne_true hpy
      rw [hnone, Option.bind_none, Option.bind_some, hp x hx hpx]

/-! ### Files without the components that fail -/

namespace ParsedFile

/-- Every span of the component cuts a piece out of the text. -/
def hasCode (file : ParsedFile) (component : ParsedComponent) : Bool :=
  component.spans.all fun span => (Text.slice? file.text span.start span.stop).isSome

/-- The file without the components that have a span which cuts nothing out. -/
def withoutFailed (file : ParsedFile) : ParsedFile :=
  { file with components := file.components.filter file.hasCode }

theorem pieces_isOk (text : String) (spans : List Span) :
    (∃ found, pieces text spans = .ok found) ↔
      spans.all (fun span => (Text.slice? text span.start span.stop).isSome) = true := by
  induction spans with
  | nil => simp [pieces]
  | cons span rest ih =>
    rw [pieces, List.all_cons, Bool.and_eq_true, ← ih]
    cases hpiece : Text.slice? text span.start span.stop with
    | none => simp
    | some piece =>
      cases pieces text rest with
      | error failed => simp [Except.map]
      | ok found => simp [Except.map]

variable {file : ParsedFile} {component : ParsedComponent}

theorem isSome_assembly? :
    (Builder.assembly? file component).isSome = file.hasCode component := by
  rw [Bool.eq_iff_iff, hasCode, ← pieces_isOk, Builder.assembly?, componentText]
  cases pieces file.text component.spans with
  | error failed => simp
  | ok found => simp

/-- The candidate of a component. -/
def candidate (file : ParsedFile) (component : ParsedComponent) : Candidate where
  registration := ⟨0, component.qualifiedName, component.kind, component.parent⟩
  assembly := Builder.assembly? file component

/-- Where the names are distinct, each component is a candidate. -/
theorem candidatesOf_of_nodup (h : (file.components.map (·.qualifiedName)).Nodup) :
    Builder.candidatesOf 0 file = file.components.map file.candidate := by
  rw [Builder.candidatesOf, ← List.filterMap_eq_map]
  refine List.filterMap_congr fun component hcomponent => ?_
  rw [file.component?_of_nodup h hcomponent]
  rfl

theorem nodup_withoutFailed (h : (file.components.map (·.qualifiedName)).Nodup) :
    (file.withoutFailed.components.map (·.qualifiedName)).Nodup :=
  h.sublist (List.filter_sublist.map _)

/-- The candidates that are left are those with code. -/
theorem candidatesOf_withoutFailed (h : (file.components.map (·.qualifiedName)).Nodup) :
    Builder.candidatesOf 0 file.withoutFailed =
      (Builder.candidatesOf 0 file).filter (·.assembly.isSome) := by
  rw [candidatesOf_of_nodup (nodup_withoutFailed h), candidatesOf_of_nodup h, List.filter_map]
  have hsome : (fun c : Candidate => c.assembly.isSome) ∘ file.candidate = file.hasCode :=
    funext fun component => isSome_assembly?
  rw [hsome]
  rfl

/-- A candidate without code is found as a parent as little as one that does not exist. -/
theorem registeredId?_withoutFailed (fingerprint : Fingerprint)
    (h : (file.components.map (·.qualifiedName)).Nodup) (name : String) :
    Identity.registeredId? fingerprint (Builder.candidatesOf 0 file.withoutFailed) 0 name =
      Identity.registeredId? fingerprint (Builder.candidatesOf 0 file) 0 name := by
  have hkeys : ((Builder.candidatesOf 0 file).reverse.map Identity.key).Nodup := by
    rw [candidatesOf_of_nodup h, List.map_reverse, List.nodup_reverse, List.map_map]
    have hkey : Identity.key ∘ file.candidate = (fun name => (0, name)) ∘ (·.qualifiedName) := rfl
    rw [hkey, ← List.map_map]
    exact h.map fun _ _ heq => congrArg Prod.snd heq
  rw [Identity.registeredId?, candidatesOf_withoutFailed h, ← List.filter_reverse]
  refine Keyed.bind_find?_filter hkeys (fun candidate _ hnone => ?_) _
  rw [Identity.finalId?, Option.isSome_eq_false_iff.mp hnone |> Option.isNone_iff_eq_none.mp,
    Option.map_none]

/-- The components of a file with code are the same without those that have none. -/
theorem unlinked_withoutFailed (fingerprint : Fingerprint)
    (h : (file.components.map (·.qualifiedName)).Nodup) :
    file.withoutFailed.unlinked fingerprint = file.unlinked fingerprint := by
  have hparents := funext (registeredId?_withoutFailed fingerprint h)
  rw [candidatesOf_withoutFailed h] at hparents
  have hzero : ∀ c ∈ Builder.candidatesOf 0 file, c.registration.fileIndex = 0 :=
    fun c hc => Builder.fileIndex_of_mem_candidatesOf hc
  unfold unlinked Identity.resolved
  conv_lhs => rw [candidatesOf_withoutFailed h, List.filterMap_filter]
  refine List.filterMap_congr fun c hc => ?_
  cases hassembly : c.assembly with
  | none => simp
  | some assembly =>
    simp only [Option.isSome_some, ↓reduceIte, Identity.componentOf, hzero c hc, hparents]
    rfl

end ParsedFile

/-! ### Extractors that leave them out -/

/-- The extractor without the components that have no code. -/
def Extractor.withoutFailed (extractor : Extractor) : Extractor where
  name := extractor.name
  extract := fun relativePath source =>
    (extractor.extract relativePath source).map ParsedFile.withoutFailed

/-- The same choice of extractors, which leave out the components without code. -/
def Registry.withoutFailed (registry : Registry) : Registry :=
  ⟨registry.entries.map fun entry => (entry.1, entry.2.withoutFailed)⟩

theorem Registry.forPath?_withoutFailed (registry : Registry) (path : String) :
    registry.withoutFailed.forPath? path =
      (registry.forPath? path).map Extractor.withoutFailed := by
  have hlookup : ∀ extension,
      registry.withoutFailed.entries.lookup extension =
        (registry.entries.lookup extension).map Extractor.withoutFailed := by
    intro extension
    unfold withoutFailed
    induction registry.entries with
    | nil => rfl
    | cons entry rest ih =>
      rw [List.map_cons, List.lookup_cons, List.lookup_cons, ih]
      cases extension == entry.1 <;> rfl
  unfold forPath?
  rw [Option.map_bind]
  exact Option.bind_congr fun extension _ => hlookup _

namespace Builder

/-- The builder whose extractors leave out the components without code. -/
def withoutFailed (builder : Builder) : Builder :=
  { builder with registry := builder.registry.withoutFailed }

/-- The file at the path can be read and extracted. -/
def extracts (builder : Builder) (fs : FileSystem) (directory path : String) : Bool :=
  (builder.extractFile fs directory path).isOk

variable (builder : Builder) (fs : FileSystem) (directory : String)

theorem extractFile_withoutFailed (path : String) :
    builder.withoutFailed.extractFile fs directory path =
      (builder.extractFile fs directory path).map ParsedFile.withoutFailed := by
  unfold extractFile
  have hregistry := builder.registry.forPath?_withoutFailed path
  simp only [withoutFailed, hregistry]
  cases builder.registry.forPath? path with
  | none => rfl
  | some extractor =>
    simp only [Option.map_some]
    cases fs.readText (PathText.join directory path) with
    | error e => rfl
    | ok source => rfl

/-- What is extracted from the files that can be extracted is what is extracted from all. -/
theorem extractFiles_withoutFailed (paths : List String) :
    builder.withoutFailed.extractFiles fs directory (paths.filter (builder.extracts fs directory)) =
      (builder.extractFiles fs directory paths).map ParsedFile.withoutFailed := by
  unfold extractFiles
  rw [List.filterMap_filter, List.map_filterMap]
  refine List.filterMap_congr fun path _ => ?_
  rw [extractFile_withoutFailed, extracts]
  cases builder.extractFile fs directory path with
  | error e => rfl
  | ok file => rfl

/-- As many files are extracted as can be. -/
theorem length_extractFiles (paths : List String) :
    (builder.extractFiles fs directory paths).length =
      paths.countP (builder.extracts fs directory) := by
  unfold extractFiles
  rw [List.length_filterMap_eq_countP]
  refine List.countP_congr fun path _ => ?_
  rw [extracts]
  cases builder.extractFile fs directory path with
  | error e => simp [Except.toOption, Except.isOk, Except.toBool]
  | ok file => simp [Except.toOption, Except.isOk, Except.toBool]

/-! ### The graph -/

variable {builder} {files : List ParsedFile}

theorem unlinked_withoutFailed
    (h : ∀ file ∈ files, (file.components.map (·.qualifiedName)).Nodup) :
    builder.withoutFailed.unlinked (files.map ParsedFile.withoutFailed) =
      builder.unlinked files := by
  unfold unlinked
  rw [List.flatMap_map]
  exact List.flatMap_congr fun file hfile => file.unlinked_withoutFailed _ (h file hfile)

/-- The build without the components that fail has the same names, graph and supply. -/
theorem assemble_withoutFailed (builder : Builder)
    (h : ∀ file ∈ files, (file.components.map (·.qualifiedName)).Nodup) (seed : LinkSeed) :
    let clean := builder.withoutFailed.assemble (files.map ParsedFile.withoutFailed) seed
    let output := builder.assemble files seed
    output.graph = clean.graph ∧ output.nameTable = clean.nameTable ∧
      output.supply = clean.supply := by
  intro clean output
  have hnames : output.nameTable = clean.nameTable := by
    rw [nameTable_assemble, nameTable_assemble, unlinked_withoutFailed h]
  have hexternals : Externals.mk output.graph.externalSymbols output.supply =
      Externals.mk clean.graph.externalSymbols clean.supply := by
    rw [externals_assemble, externals_assemble, unlinked_withoutFailed h]
    simp only [output, clean] at hnames
    rw [hnames]
  obtain ⟨hsymbols, hsupply⟩ := Externals.mk.inj hexternals
  have hcomponents : output.graph.components = clean.graph.components := by
    rw [components_assemble, components_assemble, unlinked_withoutFailed h]
    simp only [output, clean] at hnames hsymbols
    rw [hnames, hsymbols]
  have hfiles : output.graph.files = clean.graph.files :=
    (List.map_map (f := ParsedFile.withoutFailed) (g := builder.withoutFailed.fileRecord)).symm
  exact ⟨by cases hgraph : output.graph; cases hgraph' : clean.graph; simp_all, hnames, hsupply⟩

/-! ### The counts -/

theorem length_candidatesOf (index : Nat) (file : ParsedFile) :
    (candidatesOf index file).length = file.components.length := by
  unfold candidatesOf
  rw [List.length_filterMap_eq_countP, List.countP_eq_length]
  intro component hcomponent
  rw [Option.isSome_map, ParsedFile.component?, List.find?_isSome]
  exact ⟨component, hcomponent, beq_self_eq_true _⟩

/-- What is counted in the candidates of all files is counted file by file. -/
theorem countP_candidates {p : Candidate → Bool}
    (hp : ∀ index candidate, p (candidate.inFile index) = p candidate) (files : List ParsedFile) :
    (candidates files).countP p = (files.map fun file => (candidatesOf 0 file).countP p).sum := by
  rw [candidates, List.countP_flatMap]
  conv_rhs => rw [← List.zipIdx_map_fst 0 files, List.map_map]
  congr 1
  refine List.map_congr_left fun pair _ => ?_
  obtain ⟨file, index⟩ := pair
  simp only [Function.comp_apply]
  rw [candidatesOf_eq_map, List.countP_map]
  exact List.countP_congr fun candidate _ => by rw [Function.comp_apply, hp]

theorem length_unlinked (fingerprint : Fingerprint) (file : ParsedFile) :
    (file.unlinked fingerprint).length = (candidatesOf 0 file).countP (·.assembly.isSome) := by
  rw [ParsedFile.unlinked, Identity.resolved, List.length_filterMap_eq_countP]
  refine List.countP_congr fun c hc => ?_
  rw [fileIndex_of_mem_candidatesOf hc]
  cases c.assembly with
  | none => simp
  | some assembly => simp

/-- Every component that was found is in the graph, repeats one that is, or failed. -/
theorem components_counted (builder : Builder) (files : List ParsedFile) (seed : LinkSeed) :
    let stats := (builder.assemble files seed).stats
    stats.components + stats.duplicateComponents + stats.componentsFailed =
      (files.map (·.components.length)).sum := by
  intro stats
  have hkept : stats.components = (Identity.keepFirst (builder.unlinked files)).length := by
    rw [← resolved_fileRecord]
    rfl
  have hdropped : stats.duplicateComponents =
      (builder.unlinked files).length - (Identity.keepFirst (builder.unlinked files)).length := by
    rw [← resolved_fileRecord]
    rfl
  have hle : (Identity.keepFirst (builder.unlinked files)).length ≤
      (builder.unlinked files).length :=
    (Keyed.firsts_sublist (fun c : Component => c.id) (builder.unlinked files)).length_le
  have hassembled : (builder.unlinked files).length =
      (candidates files).countP (·.assembly.isSome) := by
    rw [countP_candidates (fun _ _ => rfl), unlinked, List.length_flatMap]
    simp only [length_unlinked]
  have hfailed : stats.componentsFailed =
      (candidates files).countP (fun c => !c.assembly.isSome) := by
    refine List.countP_congr fun c _ => ?_
    cases c.assembly <;> rfl
  have hall : (candidates files).countP (fun _ => true) =
      (files.map (·.components.length)).sum := by
    rw [countP_candidates (fun _ _ => rfl)]
    simp only [List.countP_true, length_candidatesOf]
  have hsplit := countP_add_countP_not (fun c : Candidate => c.assembly.isSome) (candidates files)
  rw [List.countP_true] at hall
  omega

/-- Without the components that have no code, none fails. -/
theorem componentsFailed_withoutFailed (builder : Builder)
    (h : ∀ file ∈ files, (file.components.map (·.qualifiedName)).Nodup) (seed : LinkSeed) :
    (builder.withoutFailed.assemble (files.map ParsedFile.withoutFailed)
      seed).stats.componentsFailed = 0 := by
  have hcounted : (builder.withoutFailed.assemble (files.map ParsedFile.withoutFailed)
      seed).stats.componentsFailed =
      (candidates (files.map ParsedFile.withoutFailed)).countP (·.assembly.isNone) := rfl
  have hzero : ∀ file ∈ files,
      (candidatesOf 0 file.withoutFailed).countP (·.assembly.isNone) = 0 := by
    intro file hfile
    rw [ParsedFile.candidatesOf_withoutFailed (h file hfile), List.countP_eq_zero]
    intro c hc
    obtain ⟨assembly, hassembly⟩ := Option.isSome_iff_exists.mp (List.mem_filter.mp hc).2
    simp [hassembly]
  rw [hcounted, countP_candidates (fun _ _ => rfl), List.map_map, Function.comp_def,
    List.map_congr_left hzero]
  simp

/-- A build is that of the files that can be extracted, with the components that have code, if no
file gives a name twice. The counts say what was left out: each file is extracted or failed, and
each component of the extracted files is in the graph, repeats one that is, or failed. -/
theorem failures_isolated (builder : Builder) (fs : FileSystem) (directory : String)
    (paths : List String) (seed : LinkSeed)
    (hdistinct : ∀ path ∈ paths, ∀ file, builder.extractFile fs directory path = .ok file →
      (file.components.map (·.qualifiedName)).Nodup) :
    let output := builder.buildFiles fs directory paths seed
    let clean := builder.withoutFailed.buildFiles fs directory
      (paths.filter (builder.extracts fs directory)) seed
    output.graph = clean.graph ∧ output.nameTable = clean.nameTable ∧
    output.supply = clean.supply ∧
    (clean.stats.filesFailed = 0 ∧ clean.stats.componentsFailed = 0) ∧
    output.stats.filesSeen = paths.length ∧
    output.stats.filesFailed = paths.countP (fun path => !builder.extracts fs directory path) ∧
    output.stats.filesExtracted + output.stats.filesFailed = output.stats.filesSeen ∧
    output.stats.components + output.stats.duplicateComponents + output.stats.componentsFailed =
      ((builder.extractFiles fs directory paths).map (·.components.length)).sum := by
  intro output clean
  have hfiles : ∀ file ∈ builder.extractFiles fs directory paths,
      (file.components.map (·.qualifiedName)).Nodup := by
    intro file hfile
    obtain ⟨path, hpath, hextract⟩ := exists_extract_of_mem_extractFiles hfile
    exact hdistinct path hpath file hextract
  have hclean := builder.extractFiles_withoutFailed fs directory paths
  obtain ⟨hgraph, hnames, hsupply⟩ := builder.assemble_withoutFailed hfiles seed
  rw [← hclean] at hgraph hnames hsupply
  have hnone := builder.componentsFailed_withoutFailed hfiles seed
  rw [← hclean] at hnone
  have hextracted := builder.length_extractFiles fs directory paths
  have hseen := countP_add_countP_not (builder.extracts fs directory) paths
  have hfailed : output.stats.filesFailed =
      paths.length - (builder.extractFiles fs directory paths).length := rfl
  have hextracts : output.stats.filesExtracted =
      (builder.extractFiles fs directory paths).length := rfl
  have hcleanFailed : clean.stats.filesFailed = 0 := by
    have hcleanFiles : clean.stats.filesFailed =
        (paths.filter (builder.extracts fs directory)).length -
          (builder.withoutFailed.extractFiles fs directory
            (paths.filter (builder.extracts fs directory))).length := rfl
    rw [hcleanFiles, hclean, List.length_map, hextracted, List.countP_eq_length_filter,
      Nat.sub_self]
  have hseenAll : output.stats.filesSeen = paths.length := rfl
  exact ⟨hgraph, hnames, hsupply, ⟨hcleanFailed, hnone⟩, hseenAll, by omega, by omega,
    components_counted builder (builder.extractFiles fs directory paths) seed⟩

/-! ### A build in which both kinds of failure occur -/

/-- A class with a span beyond the text, and a method of it. -/
def brokenFile : ParsedFile where
  relativePath := "a.mk"
  moduleName := "a"
  text := "ab"
  imports := []
  calledSymbols := []
  callableSymbols := []
  components :=
    [⟨"a.C", .type, none, [⟨0, 9⟩], []⟩, ⟨"a.C.m", .method, some "a.C", [⟨0, 1⟩], ["a.C", "a"]⟩,
      ⟨"a", .residual, none, [⟨1, 2⟩], []⟩]

/-- A builder that finds these in one file, and cannot parse any other. -/
def brokenBuilder : Builder where
  config := .standard
  registry := ⟨[("mk", ⟨"broken", fun path _ =>
    if path = "a.mk" then .ok brokenFile else .error (.parseFailed path)⟩)]⟩
  fingerprint := .verbatim
  excluded := []

/-- A directory with two files. -/
def brokenTree : FileSystem where
  entries := [(["repo"], .directory), (["repo", "a.mk"], .file (.text "ab")),
    (["repo", "b.mk"], .file (.text "cd"))]
  current := "/"

theorem failures_isolated_broken :
    let output := brokenBuilder.buildFiles brokenTree "/repo" ["b.mk", "a.mk", "gone.mk"]
      ⟨[("a.C", "seeded")], ⟨.empty, ⟨0⟩⟩⟩
    output.graph = (brokenBuilder.withoutFailed.buildFiles brokenTree "/repo" ["a.mk"]
      ⟨[("a.C", "seeded")], ⟨.empty, ⟨0⟩⟩⟩).graph ∧
    output.graph.components.map (fun c => (c.qualifiedName, c.parentId, c.linkedIds)) =
      [("a.C.m", none, ["seeded", "a\x00b"]), ("a", none, [])] ∧
    output.stats.filesFailed = 2 ∧ output.stats.componentsFailed = 1 := by
  have hextract : ∀ path ∈ ["b.mk", "a.mk", "gone.mk"], ∀ file,
      brokenBuilder.extractFile brokenTree "/repo" path = .ok file →
        (file.components.map (·.qualifiedName)).Nodup := by
    intro path hpath file hfile
    have hbroken : file = brokenFile := by
      obtain ⟨extractor, source, hextractor, -, hok⟩ := extractFile_eq_ok hfile
      obtain ⟨extension, -, hlookup⟩ := Option.bind_eq_some_iff.mp hextractor
      obtain ⟨-, rfl⟩ := Prod.mk.inj (List.mem_singleton.mp (mem_of_lookup_eq_some hlookup))
      simp only at hok
      split at hok
      · exact (Except.ok.inj hok).symm
      · cases hok
    rw [hbroken]
    decide +kernel
  have hsame := (failures_isolated brokenBuilder brokenTree "/repo" ["b.mk", "a.mk", "gone.mk"]
    ⟨[("a.C", "seeded")], ⟨.empty, ⟨0⟩⟩⟩ hextract).1
  have hpaths : ["b.mk", "a.mk", "gone.mk"].filter (brokenBuilder.extracts brokenTree "/repo") =
      ["a.mk"] := by decide +kernel
  rw [hpaths] at hsame
  exact ⟨hsame, by decide +kernel, by decide +kernel, by decide +kernel⟩

end Builder

end CodeAtlas
