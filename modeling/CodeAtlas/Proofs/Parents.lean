import CodeAtlas.Proofs.LinkSoundness
import CodeAtlas.Proofs.Portrait
import CodeAtlas.Proofs.SyntaxTree.WellFormed

/-!
# When a parent is missing

The parent of a component is a component of the same file. In a build it is therefore there, if only
as the equal component of another file that was kept in its place. A filter takes the parent away
together with the component it drops. An update does not: when the equal component belongs to a file
that is changed, it is dropped, and the components that have it as their parent are kept as they are.
So a parent can be missing, but only where an earlier pass had it in two files.

## Main definitions

* `ParsedFile.Holds`: a component and its parent are those of a file.
* `ParsedFile.Repeats`: another file had the same component in some pass.
* `Traced`: the graphs of a build and of updates and filters after it, with the files of each pass.

## Main results

* `Builder.exists_parent_of_mem_assemble`: no parent is missing in a build.
* `Update.parented_apply`, `Parented.filter`: what an update and a filter can do to a parent.
* `Traced.parent_present`: a parent is there unless it was repeated.
* `Traced.parent_missing`: a parent that is missing.
-/

namespace CodeAtlas

/-! ### Parents in one file -/

/-- The parent of a component is a component of the same file. -/
theorem ParsedFile.exists_parent {fingerprint : Fingerprint} {file : ParsedFile} {c : Component}
    (hc : c ∈ file.unlinked fingerprint) {parent : ComponentId} (hparent : c.parentId = some parent) :
    ∃ d ∈ file.unlinked fingerprint, d.id = parent := by
  obtain ⟨parsed, code, -, -, rfl⟩ := (file.mem_unlinked fingerprint).mp hc
  obtain ⟨name, -, hregistered⟩ := Option.bind_eq_some_iff.mp hparent
  obtain ⟨candidate, hfound, hid⟩ := Option.bind_eq_some_iff.mp hregistered
  obtain ⟨assembly, hassembly, rfl⟩ := Option.map_eq_some_iff.mp hid
  have hcandidate : candidate ∈ Builder.candidatesOf 0 file :=
    List.mem_reverse.mp (List.mem_of_find?_eq_some hfound)
  refine ⟨Identity.componentOf fingerprint (Builder.candidatesOf 0 file) candidate.registration
    assembly (file.ident fingerprint), List.mem_filterMap.mpr ⟨candidate, hcandidate, ?_⟩, rfl⟩
  rw [hassembly, Builder.fileIndex_of_mem_candidatesOf hcandidate]
  rfl

/-- The component is one of the file's, and so is its parent. -/
structure ParsedFile.Holds (fingerprint : Fingerprint) (file : ParsedFile) (c : Component) :
    Prop where
  fileId_eq : c.fileId = file.ident fingerprint
  own : ∃ d ∈ file.unlinked fingerprint, d.id = c.id
  parent : ∀ parent, c.parentId = some parent → ∃ d ∈ file.unlinked fingerprint, d.id = parent

namespace ParsedFile.Holds

variable {fingerprint : Fingerprint} {file : ParsedFile} {c d : Component}

theorem of_mem_unlinked (h : c.unlink ∈ file.unlinked fingerprint) :
    file.Holds fingerprint c := by
  have hfileId : c.unlink.fileId = file.ident fingerprint :=
    file.fileId_of_mem_unlinked fingerprint h
  exact ⟨hfileId, ⟨c.unlink, h, rfl⟩, fun _ hparent => exists_parent h hparent⟩

/-- What a file holds does not depend on links. -/
theorem of_unlink_eq (h : file.Holds fingerprint d) (heq : d.unlink = c.unlink) :
    file.Holds fingerprint c := by
  have hunlink : file.Holds fingerprint d.unlink := ⟨h.fileId_eq, h.own, h.parent⟩
  rw [heq] at hunlink
  exact ⟨hunlink.fileId_eq, hunlink.own, hunlink.parent⟩

theorem without (h : file.Holds fingerprint c) (dropped : List ComponentId) :
    file.Holds fingerprint (c.without dropped) where
  fileId_eq := h.fileId_eq
  own := h.own
  parent := fun parent hparent => h.parent parent (Option.filter_eq_some_iff.mp hparent).1

end ParsedFile.Holds

/-- In one of the passes, another file had a component with the name and the code of the file's
component with the identifier. -/
def ParsedFile.Repeats (fingerprint : Fingerprint) (passes : List (List ParsedFile))
    (file : ParsedFile) (id : ComponentId) : Prop :=
  ∃ d ∈ file.unlinked fingerprint, d.id = id ∧
    ∃ pass ∈ passes, file ∈ pass ∧ ¬ Alone fingerprint pass file d

theorem ParsedFile.Repeats.mono {fingerprint : Fingerprint} {passes : List (List ParsedFile)}
    {file : ParsedFile} {id : ComponentId} (h : file.Repeats fingerprint passes id)
    (latest : List ParsedFile) : file.Repeats fingerprint (latest :: passes) id := by
  obtain ⟨d, hd, hid, pass, hpass, hrest⟩ := h
  exact ⟨d, hd, hid, pass, List.mem_cons_of_mem _ hpass, hrest⟩

/-- Files that have a component with one identifier repeat each other. -/
theorem ParsedFile.Sourced.repeats {parser : SyntaxParser} {fingerprint : Fingerprint}
    {contents : Contents} (hfree : fingerprint.CollisionFree contents) {pass : List ParsedFile}
    {passes : List (List ParsedFile)} (hpass : pass ∈ passes) {file other : ParsedFile}
    (hsourced : file.Sourced parser contents) (hsourced' : other.Sourced parser contents)
    (hfile : file ∈ pass) (hother : other ∈ pass) (hne : other ≠ file) {d e : Component}
    (hd : d ∈ file.unlinked fingerprint) (he : e ∈ other.unlinked fingerprint) (hid : e.id = d.id) :
    file.Repeats fingerprint passes d.id := by
  refine ⟨d, hd, rfl, pass, hpass, hfile, fun halone => ?_⟩
  obtain ⟨hname, hcode⟩ := hsourced'.content_eq hfree hsourced he hd hid
  exact hne (halone other hother _ he hname hcode)

/-! ### Parents in a graph -/

/-- The files of the graph are records of the parsed files, which hold its components. -/
structure Tends (fingerprint : Fingerprint) (contents : Contents) (files : List ParsedFile)
    (graph : CodeGraph) : Prop where
  files_eq : graph.files = files.map (ParsedFile.record fingerprint)
  identified : Identified fingerprint contents graph.components
  held : ∀ c ∈ graph.components, ∃ file ∈ files, file.Holds fingerprint c

theorem Portrays.tends {fingerprint : Fingerprint} {contents : Contents}
    {files : List ParsedFile} {graph : CodeGraph}
    (h : Portrays fingerprint contents files graph) : Tends fingerprint contents files graph where
  files_eq := h.files_eq
  identified := h.identified
  held := by
    intro c hc
    obtain ⟨file, hfile, hmem⟩ := h.extracted c hc
    exact ⟨file, hfile, .of_mem_unlinked hmem⟩

/-- Each parent that is set is in the graph, or was repeated in one of the passes. -/
def Parented (fingerprint : Fingerprint) (files : List ParsedFile)
    (passes : List (List ParsedFile)) (graph : CodeGraph) : Prop :=
  ∀ c ∈ graph.components, ∀ parent, c.parentId = some parent →
    (∃ e ∈ graph.components, e.id = parent) ∨
      ∃ file ∈ files, file.ident fingerprint = c.fileId ∧ file.Repeats fingerprint passes parent

/-! ### Builds -/

/-- In a build every parent is there. -/
theorem Builder.exists_parent_of_mem_assemble {builder : Builder} {files : List ParsedFile}
    {seed : LinkSeed} {c : Component} (hc : c ∈ (builder.assemble files seed).graph.components)
    {parent : ComponentId} (hparent : c.parentId = some parent) :
    ∃ e ∈ (builder.assemble files seed).graph.components, e.id = parent := by
  rw [components_assemble] at hc ⊢
  obtain ⟨d, hd, rfl⟩ := List.mem_map.mp hc
  have hsub := Keyed.firsts_sublist (fun c : Component => c.id) (builder.unlinked files)
  obtain ⟨file, hfile, hmem⟩ := List.mem_flatMap.mp (hsub.subset hd)
  obtain ⟨p, hp, rfl⟩ := ParsedFile.exists_parent hmem hparent
  -- Of the components with the identifier of the parent one is kept.
  obtain ⟨e, he, hid⟩ := Keyed.exists_mem_firsts (fun c : Component => c.id)
    (List.mem_flatMap.mpr ⟨file, hfile, hp⟩ : p ∈ builder.unlinked files)
  exact ⟨_, List.mem_map_of_mem he, hid⟩

/-! ### Filters -/

section Filters

variable {fingerprint : Fingerprint} {contents : Contents} {files : List ParsedFile}
  {passes : List (List ParsedFile)} {graph : CodeGraph}

theorem Tends.filter (h : Tends fingerprint contents files graph) (keep : String → Bool) :
    Tends fingerprint contents files (graph.filter keep) where
  files_eq := h.files_eq
  identified := CodeGraph.identified_filter h.identified keep
  held := by
    intro c hc
    obtain ⟨d, hd, rfl⟩ := List.mem_map.mp hc
    obtain ⟨file, hfile, hheld⟩ := h.held d (List.mem_filter.mp hd).1
    exact ⟨file, hfile, hheld.without _⟩

/-- A filter takes the parents away that it drops. -/
theorem Parented.filter (h : Parented fingerprint files passes graph) (keep : String → Bool) :
    Parented fingerprint files passes (graph.filter keep) := by
  intro c hc parent hparent
  obtain ⟨d, hd, rfl⟩ := List.mem_map.mp hc
  obtain ⟨hset, hkept⟩ := Option.filter_eq_some_iff.mp hparent
  rcases h d (List.mem_filter.mp hd).1 parent hset with ⟨e, he, rfl⟩ | hrepeats
  · have hmem := CodeGraph.mem_filter_of_id_notMem he (by simpa using hkept)
    exact Or.inl ⟨_, List.mem_map_of_mem hmem, rfl⟩
  · exact Or.inr hrepeats

end Filters

/-! ### Updates -/

namespace Update

variable {parser : SyntaxParser} {fingerprint : Fingerprint} {contents : Contents}
  {builder : Builder} {fs : FileSystem} {directory : String} {files : List ParsedFile}
  {previous : CodeGraph} {changes : ChangeSet}
  {supply : IdSupply}

theorem tends_apply (hfree : fingerprint.CollisionFree contents)
    (hstandard : builder.Standard parser fingerprint contents fs directory
      (rebuildPaths builder fs directory changes))
    (hsourced : ∀ file ∈ files, file.Sourced parser contents)
    (h : Tends fingerprint contents files previous)
    (relinkRetained : Bool) :
    Tends fingerprint contents (nextFiles builder fs directory changes files)
      (apply builder relinkRetained fs directory previous changes supply).graph where
  files_eq := files_apply hfree hstandard hsourced h.files_eq relinkRetained
  identified := identified_apply hstandard.toWorksWith h.identified relinkRetained
  held := by
    intro c hc
    rw [graph_apply] at hc
    rcases List.mem_append.mp hc with hkept | hadded
    · obtain ⟨d, hd, heq⟩ := exists_of_mem_relinked hkept
      have hmem := (mem_untouched.mp hd).1
      obtain ⟨file, hfile, hheld⟩ := h.held d hmem
      have hkeptFile := (mem_untouched_iff_of_fileId hfree hsourced h.files_eq h.identified.nodup
        hmem hfile hheld.fileId_eq).mp hd
      exact ⟨file, List.mem_append_left _ hkeptFile, hheld.of_unlink_eq heq⟩
    · obtain ⟨file, hfile, hheld⟩ :=
        (portrays_built hstandard).tends.held c ((additions_sublist _ _).subset hadded)
      exact ⟨file, List.mem_append_right _ hfile, hheld⟩

/-- The parent of a component that is kept is kept as well, or its file repeats it. -/
theorem exists_parent_of_mem_untouched (hfree : fingerprint.CollisionFree contents)
    (hsourced : ∀ file ∈ files, file.Sourced parser contents)
    (h : Tends fingerprint contents files previous)
    {passes : List (List ParsedFile)} (hfiles : files ∈ passes) {c e : Component}
    (hc : c ∈ untouched (classify previous changes) previous.components)
    (hparent : c.parentId = some e.id) (he : e ∈ previous.components) :
    e ∈ untouched (classify previous changes) previous.components ∨
      ∃ file ∈ keptFiles changes files, file.ident fingerprint = c.fileId ∧
        file.Repeats fingerprint passes e.id := by
  have hmem := (mem_untouched.mp hc).1
  obtain ⟨file, hfile, hheld⟩ := h.held c hmem
  obtain ⟨other, hother, hheldOther⟩ := h.held e he
  have hkept := (mem_untouched_iff_of_fileId hfree hsourced h.files_eq h.identified.nodup hmem
    hfile hheld.fileId_eq).mp hc
  have hiff : e ∈ untouched (classify previous changes) previous.components ↔
      other ∈ keptFiles changes files :=
    mem_untouched_iff_of_fileId hfree hsourced h.files_eq h.identified.nodup he hother
      hheldOther.fileId_eq
  by_cases hsame : other = file
  · exact Or.inl (hiff.mpr (hsame ▸ hkept))
  · obtain ⟨p, hp, hpid⟩ := hheld.parent e.id hparent
    obtain ⟨q, hq, hqid⟩ := hheldOther.own
    rw [← hpid] at hqid ⊢
    exact Or.inr ⟨file, hkept, hheld.fileId_eq.symm, (hsourced file hfile).repeats hfree hfiles
      (hsourced other hother) hfile hother hsame hp hq hqid⟩

/-- After an update a parent is there, unless it was repeated in a pass before. -/
theorem parented_apply (hfree : fingerprint.CollisionFree contents)
    (hsourced : ∀ file ∈ files, file.Sourced parser contents)
    (h : Tends fingerprint contents files previous)
    {passes : List (List ParsedFile)} (hparented : Parented fingerprint files passes previous)
    (relinkRetained : Bool) :
    Parented fingerprint (nextFiles builder fs directory changes files) (files :: passes)
      (apply builder relinkRetained fs directory previous changes supply).graph := by
  intro c hc parent hparent
  rw [graph_apply] at hc ⊢
  rcases List.mem_append.mp hc with hkept | hadded
  · obtain ⟨d, hd, heq⟩ := exists_of_mem_relinked hkept
    have hmem := (mem_untouched.mp hd).1
    have hfileId : d.unlink.fileId = c.unlink.fileId := by rw [heq]
    have hset : d.unlink.parentId = some parent := by rw [heq]; exact hparent
    rcases hparented d hmem parent hset with ⟨e, he, rfl⟩ | ⟨file, hfile, hid, hrepeats⟩
    · rcases exists_parent_of_mem_untouched hfree hsourced h List.mem_cons_self hd hset he with
        huntouched | ⟨file, hfile, hid, hrepeats⟩
      · obtain ⟨e', he', hunlink⟩ := exists_mem_relinked relinkRetained huntouched
        have hid : e'.unlink.id = e.unlink.id := by rw [hunlink]
        exact Or.inl ⟨e', List.mem_append_left _ he', hid⟩
      · exact Or.inr ⟨file, List.mem_append_left _ hfile, hid.trans hfileId, hrepeats⟩
    · have hkeptFile := (mem_untouched_iff_of_fileId hfree hsourced h.files_eq h.identified.nodup
        hmem hfile hid.symm).mp hd
      exact Or.inr ⟨file, List.mem_append_left _ hkeptFile, hid.trans hfileId, hrepeats.mono files⟩
  · obtain ⟨e, he, hid⟩ := Builder.exists_parent_of_mem_assemble
      ((additions_sublist _ _).subset hadded) hparent
    rcases mem_additions_or he with headded | ⟨e', he', hid'⟩
    · exact Or.inl ⟨e, List.mem_append_right _ headded, hid⟩
    · exact Or.inl ⟨e', List.mem_append_left _ he', hid'.trans hid⟩

end Update

/-! ### Runs -/

/-- The graph is built and then updated and filtered some number of times, with any changes, by
standard builders. The files are those of the graph, and those of the graphs before each update, the
latest first. -/
inductive Traced (parser : SyntaxParser) (fingerprint : Fingerprint) (contents : Contents) :
    List ParsedFile → List (List ParsedFile) → CodeGraph → Prop
  | built {builder : Builder} {fs : FileSystem} {directory : String} {paths : List String}
      (standard : builder.Standard parser fingerprint contents fs directory paths)
      (seed : LinkSeed) :
      Traced parser fingerprint contents (builder.extractFiles fs directory paths) []
        (builder.buildFiles fs directory paths seed).graph
  | updated {builder : Builder} {fs : FileSystem} {files : List ParsedFile}
      {earlier : List (List ParsedFile)} {graph : CodeGraph} {relinkRetained : Bool}
      {directory : String} {changes : ChangeSet} {supply : IdSupply} {result : UpdateResult}
      (before : Traced parser fingerprint contents files earlier graph)
      (standard : builder.Standard parser fingerprint contents fs directory
        (Update.rebuildPaths builder fs directory changes))
      (updated : update builder relinkRetained fs directory graph changes supply = .ok result) :
      Traced parser fingerprint contents (Update.nextFiles builder fs directory changes files)
        (files :: earlier) result.graph
  | filtered {files : List ParsedFile} {earlier : List (List ParsedFile)} {graph : CodeGraph}
      (before : Traced parser fingerprint contents files earlier graph) (keep : String → Bool) :
      Traced parser fingerprint contents files earlier (graph.filter keep)

namespace Traced

variable {parser : SyntaxParser} {fingerprint : Fingerprint} {contents : Contents}
  {files : List ParsedFile} {earlier : List (List ParsedFile)} {graph : CodeGraph}

theorem sourced (h : Traced parser fingerprint contents files earlier graph) :
    ∀ file ∈ files, file.Sourced parser contents := by
  induction h with
  | built standard seed => exact fun file hfile => standard.sourced hfile
  | updated _ standard _ ih => exact Update.sourced_nextFiles standard ih
  | filtered _ _ ih => exact ih

/-- In every run, the files hold the components, and a parent is there unless it was repeated. -/
theorem tends_and_parented (hfree : fingerprint.CollisionFree contents)
    (h : Traced parser fingerprint contents files earlier graph) :
    Tends fingerprint contents files graph ∧ Parented fingerprint files earlier graph := by
  induction h with
  | built standard seed =>
    obtain rfl := standard.fingerprint_eq
    refine ⟨(Builder.portrays_assemble standard.codes seed).tends, fun c hc parent hparent => ?_⟩
    exact Or.inl (Builder.exists_parent_of_mem_assemble hc hparent)
  | @updated builder fs files earlier graph relinkRetained directory changes supply result before
      standard updated ih =>
    obtain ⟨htends, hparented⟩ := ih
    rcases Update.update_eq_ok updated with ⟨hnone, hsame, -⟩ | ⟨-, rfl⟩
    · rw [hsame, Update.nextFiles_of_not_hasChanges hnone]
      refine ⟨htends, fun c hc parent hparent => (hparented c hc parent hparent).imp_right ?_⟩
      rintro ⟨file, hfile, hid, hrepeats⟩
      exact ⟨file, hfile, hid, hrepeats.mono files⟩
    · exact ⟨Update.tends_apply hfree standard before.sourced htends relinkRetained,
        Update.parented_apply hfree before.sourced htends hparented relinkRetained⟩
  | filtered _ keep ih => exact ⟨ih.1.filter keep, ih.2.filter keep⟩

/-- In every run, a parent that is set is in the graph, unless in a pass before the latest another
file had a component with the name and the code that the parent has in the component's file. -/
theorem parent_present (hfree : fingerprint.CollisionFree contents)
    (h : Traced parser fingerprint contents files earlier graph) {c : Component}
    (hc : c ∈ graph.components)
    {parent : ComponentId} (hparent : c.parentId = some parent) :
    (∃ e ∈ graph.components, e.id = parent) ∨
      ∃ file ∈ files, file.ident fingerprint = c.fileId ∧ file.Repeats fingerprint earlier parent :=
  (h.tends_and_parented hfree).2 c hc parent hparent

/-! ### A class in two files -/

/-- A class with a method of one statement. -/
def classText (statement : String) : String :=
  "class C:\n def m(): " ++ statement ++ "\n"

/-- The tree of a `classText`, by the kind of the statement and its end. -/
def classTree (kind : String) (stop : Nat) : Node :=
  .mk "module" ⟨0, stop + 1⟩ true ""
    [.mk "class_definition" ⟨0, stop⟩ true ""
      [.mk "identifier" ⟨6, 7⟩ true "name" [],
        .mk "block" ⟨10, stop⟩ true "body"
          [.mk "function_definition" ⟨10, stop⟩ true ""
            [.mk "identifier" ⟨14, 15⟩ true "name" [],
              .mk "parameters" ⟨15, 17⟩ true "parameters" [],
              .mk "block" ⟨19, stop⟩ true "body" [.mk kind ⟨19, stop⟩ true "" []]]]]]

/-- A parser that knows two texts. -/
def classParser : SyntaxParser := fun _ text =>
  if text = classText "pass" then some (classTree "pass_statement" 23)
  else if text = classText "return" then some (classTree "return_statement" 25)
  else none

theorem wellFormed_classParser (language : Language) (text : String) (root : Node)
    (h : classParser language text = some root) : Node.WellFormed text root := by
  unfold classParser at h
  split_ifs at h with hpass hreturn
  · obtain rfl := Option.some.inj h
    subst hpass
    decide +kernel
  · obtain rfl := Option.some.inj h
    subst hreturn
    decide +kernel

/-- A module and a package of one name, with classes that differ only in their method. -/
def classTrees : FileSystem where
  entries :=
    [(["repo"], .directory), (["repo", "a.py"], .file (.text (classText "pass"))),
      (["repo", "a"], .directory),
      (["repo", "a", "__init__.py"], .file (.text (classText "return")))]
  current := "/"

def classBuilder : Builder where
  config := .standard
  registry := .standard classParser
  fingerprint := .verbatim
  excluded := []

theorem standard_classBuilder {fs : FileSystem} (h : fs.ClearNames) (paths : List String) :
    classBuilder.Standard classParser .verbatim .clear fs "/repo" paths :=
  classBuilder.standard_of_clearNames rfl h "/repo" paths

/-- The files of the module and the package. -/
def classFiles : List ParsedFile :=
  classBuilder.extractFiles classTrees "/repo" ["a.py", "a/__init__.py"]

/-- The build of both, in which the class is that of the module. -/
def classBuild : BuildOutput :=
  classBuilder.buildFiles classTrees "/repo" ["a.py", "a/__init__.py"] ⟨[], ⟨.empty, ⟨0⟩⟩⟩

/-- The package without the module. -/
def packageTree : FileSystem where
  entries :=
    [(["repo"], .directory), (["repo", "a"], .directory),
      (["repo", "a", "__init__.py"], .file (.text (classText "return")))]
  current := "/"

/-- The module is deleted. -/
def moduleDeleted : ChangeSet :=
  ⟨[], [], ["a.py"]⟩

/-- The update after the module is deleted. -/
def orphanUpdate : UpdateResult :=
  Update.apply classBuilder false packageTree "/repo" classBuild.graph moduleDeleted
    classBuild.supply

theorem traced_orphanUpdate :
    Traced classParser .verbatim .clear
      (Update.nextFiles classBuilder packageTree "/repo" moduleDeleted classFiles) [classFiles]
      orphanUpdate.graph := by
  have hbuilt : Traced classParser .verbatim .clear classFiles [] classBuild.graph :=
    .built (standard_classBuilder (by decide +kernel) ["a.py", "a/__init__.py"])
      ⟨[], ⟨.empty, ⟨0⟩⟩⟩
  exact .updated hbuilt (standard_classBuilder (by decide +kernel) _)
    (Update.update_eq_apply _ _ _ _ (by decide +kernel) rfl)

/-- The method of the package has lost its class. -/
theorem exists_orphan :
    ∃ c ∈ orphanUpdate.graph.components, c.parentId = some "a.C\x00class C:\n " ∧
      ∀ e ∈ orphanUpdate.graph.components, e.id ≠ "a.C\x00class C:\n " := by
  decide +kernel

theorem parent_present_orphan :
    ∃ c ∈ orphanUpdate.graph.components, ∃ file : ParsedFile, file.ident .verbatim = c.fileId ∧
      file.Repeats .verbatim [classFiles] "a.C\x00class C:\n " := by
  obtain ⟨c, hc, hparent, hnone⟩ := exists_orphan
  rcases parent_present Fingerprint.collisionFree_verbatim traced_orphanUpdate hc hparent with
    ⟨e, he, hid⟩ | ⟨file, -, hfile⟩
  · exact absurd hid (hnone e he)
  · exact ⟨c, hc, file, hfile⟩

/-- A parent can be missing. -/
theorem parent_missing :
    ¬ ∀ (parser : SyntaxParser) (fingerprint : Fingerprint) (contents : Contents)
      (files : List ParsedFile) (earlier : List (List ParsedFile)) (graph : CodeGraph),
      fingerprint.CollisionFree contents →
      (∀ language text root, parser language text = some root → Node.WellFormed text root) →
      Traced parser fingerprint contents files earlier graph →
      ∀ c ∈ graph.components, ∀ parent, c.parentId = some parent →
        ∃ e ∈ graph.components, e.id = parent := by
  intro hall
  obtain ⟨c, hc, hparent, hnone⟩ := exists_orphan
  obtain ⟨e, he, hid⟩ := hall _ _ _ _ _ _ Fingerprint.collisionFree_verbatim wellFormed_classParser
    traced_orphanUpdate c hc _ hparent
  exact hnone e he hid

end Traced

end CodeAtlas
