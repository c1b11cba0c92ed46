import CodeAtlas.Proofs.Mirror
import CodeAtlas.Proofs.Snapshot

/-!
# Following a working tree

A graph follows a working tree when it is built once and then, each time the tree has changed,
updated with the changes since the last time, linking the retained components again. However often
the tree changes, and whatever is edited, deleted, created again or cannot be extracted in between,
the graph agrees with a fresh build of the last tree.

The invariant is that the graph mirrors the files that a fresh build would extract. One step keeps it:
the files after the update are those of the new tree, and an update mirrors its files.

## Main definitions

* `WorkTree.Sound`: what is asked of a tree, above all that no two of its files give one name.
* `WorkTree.follow`, `WorkTree.followAll`: one update, and all of them.
* `WorkTree.Tracks`: the invariant.

## Main results

* `WorkTree.tracks_build`, `WorkTree.tracks_follow`: the invariant of following.
* `WorkTree.followAll_eq_none`: following breaks off where files cannot be collected.
* `WorkTree.followAll_agrees`: following gives what a fresh build gives.
-/

namespace CodeAtlas

/-- A directory in a file system, with the home directory that holds the user's ignore rules. -/
structure WorkTree where
  fs : FileSystem
  home : String
  directory : String

namespace WorkTree

/-- The paths of the files of the tree, unless collecting them breaks off. -/
def paths? (builder : Builder) (tree : WorkTree) : Option (List String) :=
  builder.collectFiles tree.fs tree.home tree.directory

/-- The files of the tree that are extracted. -/
def files (builder : Builder) (tree : WorkTree) : List ParsedFile :=
  builder.extractFiles tree.fs tree.directory ((tree.paths? builder).getD [])

/-- A fresh build of the files of the tree. -/
def build (builder : Builder) (tree : WorkTree) (supply : IdSupply) : BuildOutput :=
  builder.buildFiles tree.fs tree.directory ((tree.paths? builder).getD []) ⟨[], ⟨.empty, supply⟩⟩

/-- Bring a graph up to date with the changes of the tree since the graph was made, with or without
linking its retained components again. -/
def follow (builder : Builder) (relinkRetained : Bool) (state : CodeGraph × IdSupply)
    (tree : WorkTree) : Option (Except UpdateError (CodeGraph × IdSupply)) :=
  (Snapshot.changes builder tree.fs tree.home tree.directory state.1.files).map fun changes =>
    (update builder relinkRetained tree.fs tree.directory state.1 changes state.2).map fun result =>
      (result.graph, result.supply)

/-- Follow one tree after the other. -/
def followFrom (builder : Builder) (relinkRetained : Bool) :
    CodeGraph × IdSupply → List WorkTree → Option (Except UpdateError (CodeGraph × IdSupply))
  | state, [] => some (.ok state)
  | state, tree :: rest =>
    match follow builder relinkRetained state tree with
    | some (.ok next) => followFrom builder relinkRetained next rest
    | other => other

/-- Build the first tree and follow the later ones. -/
def followAll (builder : Builder) (relinkRetained : Bool) (first : WorkTree) (later : List WorkTree)
    (supply : IdSupply) : Option (Except UpdateError (CodeGraph × IdSupply)) :=
  (first.paths? builder).bind fun _ =>
    followFrom builder relinkRetained
      ((first.build builder supply).graph, (first.build builder supply).supply) later

/-- The directory is there, no two of its files give one name, and the texts and codes of its files
are among the contents. -/
structure Sound (contents : Contents) (builder : Builder) (tree : WorkTree) : Prop where
  isDirectory : tree.fs.isDirectory tree.directory = true
  distinct : DistinctNames (tree.files builder)
  texts : tree.fs.TextsIn contents tree.directory ((tree.paths? builder).getD [])
  codes : ∀ file ∈ tree.files builder, file.CodesIn contents

/-- The graph mirrors the files of the tree, and its external identifiers are kept apart. -/
structure Tracks (contents : Contents) (builder : Builder) (tree : WorkTree)
    (state : CodeGraph × IdSupply) : Prop where
  mirrors : ∃ files, files.Perm (tree.files builder) ∧
    Mirrors builder.fingerprint contents files state.1
  fresh : Externals.Fresh ⟨state.1.externalSymbols, state.2⟩

variable {parser : SyntaxParser} {contents : Contents} {builder : Builder} {tree next : WorkTree}

/-- Every file has a component, the remainder. -/
theorem exists_mem_components {file : ParsedFile} (h : file.HasOrigin parser) :
    ∃ c, c ∈ file.components := by
  obtain ⟨language, root, -, -, heq⟩ := h
  rw [heq]
  exact ⟨_, List.mem_append_right _ (List.mem_singleton_self _)⟩

theorem files_eq {paths : List String} (h : tree.paths? builder = some paths) :
    tree.files builder = builder.extractFiles tree.fs tree.directory paths := by
  rw [files, h, Option.getD_some]

theorem build_eq {paths : List String} (h : tree.paths? builder = some paths) (supply : IdSupply) :
    tree.build builder supply =
      builder.buildFiles tree.fs tree.directory paths ⟨[], ⟨.empty, supply⟩⟩ := by
  rw [build, h, Option.getD_some]

/-- What is extracted was collected. -/
theorem exists_extract_of_mem_files {file : ParsedFile} (h : file ∈ tree.files builder) :
    ∃ path ∈ (tree.paths? builder).getD [], Text.replaceChar '\\' '/' path = path ∧
      builder.extractFile tree.fs tree.directory path = .ok file := by
  obtain ⟨path, hpath, hextract⟩ := Builder.exists_extract_of_mem_extractFiles h
  refine ⟨path, hpath, ?_, hextract⟩
  cases hpaths : tree.paths? builder with
  | none =>
    rw [hpaths] at hpath
    exact absurd hpath List.not_mem_nil
  | some paths =>
    rw [hpaths] at hpath
    exact (Builder.of_mem_collectFiles hpaths hpath).2

/-- The builder finds what the trees are asked to have among the contents. -/
theorem Sound.standard (h : tree.Sound contents builder)
    (hregistry : builder.registry = .standard parser) :
    builder.Standard parser builder.fingerprint contents tree.fs tree.directory
      ((tree.paths? builder).getD []) where
  fingerprint_eq := rfl
  codes := h.codes
  registry_eq := hregistry
  texts := by
    intro file hfile
    obtain ⟨path, hpath, hslashes, hextract⟩ := exists_extract_of_mem_files hfile
    obtain ⟨language, source, root, -, hread, -, rfl⟩ :=
      Builder.extractFile_standard hregistry hextract
    have htext := h.texts path hpath source hread
    rw [← hslashes] at htext
    exact htext

/-- Where no name in the file system holds a zero character, a tree is sound for clear contents. -/
theorem sound_of_clearNames (hregistry : builder.registry = .standard parser)
    (hdirectory : tree.fs.isDirectory tree.directory = true) (hnames : tree.fs.ClearNames)
    (hdistinct : DistinctNames (tree.files builder)) : tree.Sound .clear builder where
  isDirectory := hdirectory
  distinct := hdistinct
  texts := fun _ _ _ hread => hnames.of_readText hread
  codes := (builder.standard_of_clearNames hregistry hnames _ _).codes

/-- Files that give no name twice have distinct paths. -/
theorem Sound.nodup_paths (h : tree.Sound contents builder)
    (hregistry : builder.registry = .standard parser) :
    ((tree.files builder).map (·.relativePath)).Nodup := by
  refine List.pairwise_map.mpr (h.distinct.imp_of_mem ?_)
  intro file other hfile hother hnames heq
  have hextract : ∀ {file : ParsedFile}, file ∈ tree.files builder →
      builder.extractFile tree.fs tree.directory file.relativePath = .ok file := by
    intro file hfile
    obtain ⟨path, -, hslashes, hextract⟩ := exists_extract_of_mem_files hfile
    rwa [Builder.relativePath_of_extractFile hregistry hextract hslashes]
  have hsame := hextract hfile
  rw [heq, hextract hother] at hsame
  obtain rfl := Except.ok.inj hsame
  obtain ⟨c, hc⟩ := exists_mem_components ((h.standard hregistry).sourced hfile).origin
  exact hnames c hc c hc rfl

/-- A fresh build mirrors the files of its tree. -/
theorem Sound.mirrors_build (hfree : builder.fingerprint.CollisionFree contents)
    (h : tree.Sound contents builder) (supply : IdSupply) :
    Mirrors builder.fingerprint contents (tree.files builder) (tree.build builder supply).graph :=
  Builder.mirrors_assemble hfree h.codes h.distinct (Externals.fresh_empty supply)

/-- A fresh build keeps the external identifiers apart. -/
theorem fresh_build (builder : Builder) (tree : WorkTree) (supply : IdSupply) :
    Externals.Fresh ⟨(tree.build builder supply).graph.externalSymbols,
      (tree.build builder supply).supply⟩ :=
  Builder.fresh_assemble (Externals.fresh_empty supply)

/-- A fresh build tracks its tree. -/
theorem tracks_build (hfree : builder.fingerprint.CollisionFree contents)
    (h : tree.Sound contents builder) (supply : IdSupply) :
    Tracks contents builder tree
      ((tree.build builder supply).graph, (tree.build builder supply).supply) where
  mirrors := ⟨tree.files builder, .refl _, h.mirrors_build hfree supply⟩
  fresh := fresh_build builder tree supply

/-- The changes of the tree since its files were these. -/
def changesSince (builder : Builder) (tree : WorkTree) (files : List ParsedFile) : ChangeSet :=
  Update.changesSince builder.fingerprint builder tree.fs tree.directory
    ((tree.paths? builder).getD []) files

/-- What an update with these changes builds is among the files of the tree. -/
theorem Sound.standard_rebuilt (h : next.Sound contents builder)
    (hregistry : builder.registry = .standard parser) {paths : List String}
    (hpaths : next.paths? builder = some paths) (files : List ParsedFile) :
    builder.Standard parser builder.fingerprint contents next.fs next.directory
      (Update.rebuildPaths builder next.fs next.directory (next.changesSince builder files)) := by
  refine (h.standard hregistry).mono fun path hpath => ?_
  rw [changesSince, hpaths, Option.getD_some] at hpath
  rw [hpaths, Option.getD_some]
  exact ((Update.mem_rebuildPaths_changes hpaths).mp hpath).1

/-- The files after an update with the changes of the next tree are those of the next tree. -/
theorem Sound.nextFiles_perm (hfree : builder.fingerprint.CollisionFree contents)
    (hregistry : builder.registry = .standard parser) (htree : tree.Sound contents builder)
    (hnext : next.Sound contents builder) {paths : List String}
    (hpaths : next.paths? builder = some paths)
    {files : List ParsedFile} (hperm : files.Perm (tree.files builder)) :
    (Update.nextFiles builder next.fs next.directory (next.changesSince builder files) files).Perm
      (next.files builder) := by
  have hsourced : ∀ file ∈ files, file.Sourced parser contents := fun file hfile =>
    (htree.standard hregistry).sourced (hperm.mem_iff.mp hfile)
  have hdistinct : (files.map (·.relativePath)).Nodup :=
    (hperm.map _).nodup_iff.mpr (htree.nodup_paths hregistry)
  have hnodup := (hnext.nodup_paths hregistry).of_map
  have htexts := hnext.texts
  rw [hpaths, Option.getD_some] at htexts
  rw [files_eq hpaths] at hnodup ⊢
  rw [changesSince, hpaths, Option.getD_some]
  refine (List.perm_ext_iff_of_nodup
    (Update.nodup_nextFiles_changesSince hpaths hregistry hdistinct) hnodup).mpr fun file => ?_
  exact Update.mem_nextFiles_changesSince hfree hregistry hpaths htexts hsourced hdistinct

/-! ### Following -/

/-- The changes since a graph with these files are found. -/
theorem changes_eq {paths : List String} (hpaths : next.paths? builder = some paths)
    {files : List ParsedFile} {graph : CodeGraph}
    (hfiles : graph.files = files.map (ParsedFile.record builder.fingerprint)) :
    Snapshot.changes builder next.fs next.home next.directory graph.files =
      some (next.changesSince builder files) := by
  have hcollected : builder.collectFiles next.fs next.home next.directory = some paths := hpaths
  rw [Snapshot.changes, hcollected, Option.map_some, changesSince, hpaths, hfiles]
  rfl

/-- Following a change is an update with the changes since the files were built. -/
theorem exists_follow (hnext : next.Sound contents builder) {paths : List String}
    (hpaths : next.paths? builder = some paths) {files : List ParsedFile} {graph : CodeGraph}
    (hfiles : graph.files = files.map (ParsedFile.record builder.fingerprint))
    (relinkRetained : Bool) (supply : IdSupply) :
    ∃ result, update builder relinkRetained next.fs next.directory graph
        (next.changesSince builder files) supply = .ok result ∧
      follow builder relinkRetained (graph, supply) next =
        some (.ok (result.graph, result.supply)) := by
  obtain ⟨result, hresult⟩ := Update.exists_update_eq_ok builder relinkRetained graph
    (next.changesSince builder files) supply hnext.isDirectory
  refine ⟨result, hresult, ?_⟩
  rw [follow, changes_eq hpaths hfiles, Option.map_some, hresult]
  rfl

theorem followFrom_append (builder : Builder) (relinkRetained : Bool)
    (state : CodeGraph × IdSupply) (earlier later : List WorkTree) :
    followFrom builder relinkRetained state (earlier ++ later) =
      match followFrom builder relinkRetained state earlier with
      | some (.ok middle) => followFrom builder relinkRetained middle later
      | other => other := by
  induction earlier generalizing state with
  | nil => rfl
  | cons next rest ih =>
    rw [List.cons_append, followFrom, followFrom]
    rcases follow builder relinkRetained state next with _ | (error | middle)
    · rfl
    · rfl
    · exact ih middle

/-- Following breaks off at the first tree whose files cannot be collected. -/
theorem followFrom_eq_none (relinkRetained : Bool) {later : List WorkTree}
    (hsound : ∀ next ∈ later, next.Sound contents builder)
    (h : ∃ next ∈ later, next.paths? builder = none) (state : CodeGraph × IdSupply) :
    followFrom builder relinkRetained state later = none := by
  induction later generalizing state with
  | nil => exact absurd h (by simp)
  | cons next rest ih =>
    obtain ⟨hnext, hrest⟩ := List.forall_mem_cons.mp hsound
    obtain ⟨graph, supply⟩ := state
    rw [followFrom, follow, Snapshot.changes]
    cases hpaths : next.paths? builder with
    | none =>
      have hcollected : builder.collectFiles next.fs next.home next.directory = none := hpaths
      rw [hcollected]
      rfl
    | some paths =>
      have hcollected : builder.collectFiles next.fs next.home next.directory = some paths := hpaths
      obtain ⟨result, hresult⟩ := Update.exists_update_eq_ok builder relinkRetained graph
        (Snapshot.changesTo builder next.fs next.directory paths graph.files) supply
        hnext.isDirectory
      have hlater : ∃ tree ∈ rest, tree.paths? builder = none := by
        obtain ⟨tree, htree, hnone⟩ := h
        rcases List.mem_cons.mp htree with rfl | htree
        · exact absurd (hpaths.symm.trans hnone) (by simp)
        · exact ⟨tree, htree, hnone⟩
      simp only [hcollected, Option.map_some, hresult, Except.map]
      exact ih hrest hlater _

/-- So does following that starts with a build. -/
theorem followAll_eq_none (relinkRetained : Bool) {first : WorkTree} {later : List WorkTree}
    (hsound : ∀ tree ∈ first :: later, tree.Sound contents builder)
    (h : ∃ tree ∈ first :: later, tree.paths? builder = none) (supply : IdSupply) :
    followAll builder relinkRetained first later supply = none := by
  rw [followAll]
  cases hfirst : first.paths? builder with
  | none => rfl
  | some paths =>
    rw [Option.bind_some]
    refine followFrom_eq_none relinkRetained (List.forall_mem_cons.mp hsound).2 ?_ _
    obtain ⟨tree, htree, hnone⟩ := h
    rcases List.mem_cons.mp htree with rfl | htree
    · exact absurd (hfirst.symm.trans hnone) (by simp)
    · exact ⟨tree, htree, hnone⟩

theorem followAll_of_paths? {first : WorkTree} {paths : List String}
    (h : first.paths? builder = some paths) (relinkRetained : Bool) (later : List WorkTree)
    (supply : IdSupply) :
    followAll builder relinkRetained first later supply =
      followFrom builder relinkRetained
        ((first.build builder supply).graph, (first.build builder supply).supply) later := by
  rw [followAll, h, Option.bind_some]

/-- Following one change keeps the graph a mirror of the tree. -/
theorem tracks_follow (hfree : builder.fingerprint.CollisionFree contents)
    (hregistry : builder.registry = .standard parser) (htree : tree.Sound contents builder)
    (hnext : next.Sound contents builder) {paths : List String}
    (hpaths : next.paths? builder = some paths)
    {state : CodeGraph × IdSupply} (h : Tracks contents builder tree state) :
    ∃ state', follow builder true state next = some (.ok state') ∧
      Tracks contents builder next state' := by
  obtain ⟨graph, supply⟩ := state
  obtain ⟨⟨files, hperm, hmirrors⟩, hfresh⟩ := h
  have hstandard := hnext.standard_rebuilt hregistry hpaths files
  have hsourced : ∀ file ∈ files, file.Sourced parser contents := fun file hfile =>
    (htree.standard hregistry).sourced (hperm.mem_iff.mp hfile)
  have hfiles := htree.nextFiles_perm hfree hregistry hnext hpaths hperm
  obtain ⟨result, hresult, hfollow⟩ :=
    exists_follow hnext hpaths hmirrors.portrays.files_eq true supply
  refine ⟨(result.graph, result.supply), hfollow, ?_⟩
  rcases Update.update_eq_ok hresult with ⟨hnone, hsame, hsupply⟩ | ⟨-, rfl⟩
  · rw [hsame, hsupply]
    rw [Update.nextFiles_of_not_hasChanges hnone] at hfiles
    exact ⟨⟨files, hfiles, hmirrors⟩, hfresh⟩
  · refine ⟨⟨_, hfiles, Update.mirrors_apply hfree hstandard hsourced
      (htree.distinct.perm hperm.symm) hmirrors hfresh (hnext.distinct.perm hfiles.symm)⟩, ?_⟩
    simp only [Update.graph_apply, Update.supply_apply]
    exact Update.fresh_relinked hfresh

/-- Following all changes keeps the graph a mirror of the tree. -/
theorem tracks_followFrom (hfree : builder.fingerprint.CollisionFree contents)
    (hregistry : builder.registry = .standard parser) (htree : tree.Sound contents builder)
    {later : List WorkTree} (hlater : ∀ next ∈ later, next.Sound contents builder)
    (hpaths : ∀ next ∈ later, ∃ paths, next.paths? builder = some paths)
    {state : CodeGraph × IdSupply} (h : Tracks contents builder tree state) :
    ∃ state', followFrom builder true state later = some (.ok state') ∧
      Tracks contents builder (later.getLastD tree) state' := by
  induction later generalizing tree state with
  | nil => exact ⟨state, rfl, h⟩
  | cons next rest ih =>
    obtain ⟨hnext, hrest⟩ := List.forall_mem_cons.mp hlater
    obtain ⟨⟨paths, hcollected⟩, hcollects⟩ := List.forall_mem_cons.mp hpaths
    obtain ⟨middle, hmiddle, htracks⟩ := tracks_follow hfree hregistry htree hnext hcollected h
    obtain ⟨last, hlast, hend⟩ := ih hnext hrest hcollects htracks
    refine ⟨last, ?_, ?_⟩
    · rw [followFrom, hmiddle]
      exact hlast
    · rwa [List.getLastD_cons]

/-- Whatever happens to a tree, the graph that follows it agrees with a fresh build. Only where the
files of one of the trees cannot be collected, the whole breaks off. -/
theorem followAll_agrees (hfree : builder.fingerprint.CollisionFree contents)
    (hregistry : builder.registry = .standard parser) (first : WorkTree) (later : List WorkTree)
    (htrees : ∀ tree ∈ first :: later, tree.Sound contents builder) (supply supply' : IdSupply) :
    ((∃ tree ∈ first :: later, tree.paths? builder = none) →
      followAll builder true first later supply = none) ∧
    ((∀ tree ∈ first :: later, ∃ paths, tree.paths? builder = some paths) →
      ∃ graph rest, followAll builder true first later supply = some (.ok (graph, rest)) ∧
        graph.Agrees ((later.getLastD first).build builder supply').graph) := by
  refine ⟨fun hnone => followAll_eq_none true htrees hnone supply, fun hpaths => ?_⟩
  obtain ⟨hfirst, hlater⟩ := List.forall_mem_cons.mp htrees
  obtain ⟨⟨paths, hcollected⟩, hcollects⟩ := List.forall_mem_cons.mp hpaths
  obtain ⟨⟨graph, rest⟩, hfollow, ⟨files, hperm, hmirrors⟩, -⟩ := tracks_followFrom hfree hregistry
    hfirst hlater hcollects (tracks_build hfree hfirst supply)
  have hlast : (later.getLastD first).Sound contents builder :=
    htrees _ List.getLastD_mem_cons
  refine ⟨graph, rest, (followAll_of_paths? hcollected true later supply).trans hfollow, ?_⟩
  exact hmirrors.agrees_assemble hfree hlast.codes hlast.distinct hperm supply'

/-! ### A module that is edited, goes away and comes back -/

/-- A call of a name without arguments. -/
def callNode (start stop : Nat) : Node :=
  .mk "call" ⟨start, stop⟩ true "" [.mk "identifier" ⟨start, stop - 2⟩ true "function" []]

/-- A parser that finds calls, and one text that defines a function. -/
def callParser : SyntaxParser := fun _ text =>
  let module (children : List Node) : Node :=
    .mk "module" ⟨0, text.utf8ByteSize⟩ true "" children
  if text = "(" then none
  else if text = "def f(): b()" then
    some (module [.mk "function_definition" ⟨0, 12⟩ true ""
      [.mk "identifier" ⟨4, 5⟩ true "name" [], .mk "parameters" ⟨5, 7⟩ true "parameters" [],
        .mk "block" ⟨9, 12⟩ true "body" [callNode 9 12]]])
  else if Text.endsWith "()" text then some (module [callNode 0 text.utf8ByteSize])
  else some (module [])

def callBuilder : Builder where
  config := .standard
  registry := .standard callParser
  fingerprint := .verbatim
  excluded := []

/-- Two modules that call a third one, which may be missing, and one that calls a name of no
module. -/
def editedTree (callee : Option String) : WorkTree where
  fs :=
    { entries := [(["repo"], .directory), (["repo", "a.py"], .file (.text "b()"))] ++
        (callee.toList.map fun text => (["repo", "b.py"], .file (.text text))) ++
        [(["repo", "c.py"], .file (.text "def f(): b()")), (["repo", "d.py"], .file (.text "p()"))]
      current := "/" }
  home := "/"
  directory := "/repo"

/-- The module is edited so that it parses no more, removed, and written again as it was. -/
def edits : List WorkTree :=
  [editedTree (some "y"), editedTree (some "("), editedTree none, editedTree (some "x")]

theorem collectFiles_editedTree {callee : Option String}
    (h : callee ∈ [some "x", some "y", some "(", none]) :
    callBuilder.collectFiles (editedTree callee).fs (editedTree callee).home
      (editedTree callee).directory =
        some (["a.py"] ++ (callee.toList.map fun _ => "b.py") ++ ["c.py", "d.py"]) := by
  simp only [List.mem_cons, List.not_mem_nil, or_false] at h
  rcases h with rfl | rfl | rfl | rfl
  · exact Builder.collectFiles_of_pairwise (by decide +kernel) (by decide +kernel) rfl
  · exact Builder.collectFiles_of_pairwise (by decide +kernel) (by decide +kernel) rfl
  · exact Builder.collectFiles_of_pairwise (by decide +kernel) (by decide +kernel) rfl
  · exact Builder.collectFiles_of_pairwise (by decide +kernel) (by decide +kernel) rfl

theorem sound_editedTree {callee : Option String}
    (h : callee ∈ [some "x", some "y", some "(", none]) :
    (editedTree callee).Sound .clear callBuilder := by
  have hpaths : (editedTree callee).paths? callBuilder = _ := collectFiles_editedTree h
  have hfiles := files_eq hpaths
  simp only [List.mem_cons, List.not_mem_nil, or_false] at h
  rcases h with rfl | rfl | rfl | rfl
  · exact sound_of_clearNames rfl (by decide +kernel) (by decide +kernel)
      (by rw [hfiles]; decide +kernel)
  · exact sound_of_clearNames rfl (by decide +kernel) (by decide +kernel)
      (by rw [hfiles]; decide +kernel)
  · exact sound_of_clearNames rfl (by decide +kernel) (by decide +kernel)
      (by rw [hfiles]; decide +kernel)
  · exact sound_of_clearNames rfl (by decide +kernel) (by decide +kernel)
      (by rw [hfiles]; decide +kernel)

/-- The links and the names of the external edges of the components, after some of the edits. -/
def edgesAfter (count : Nat) :
    Option (Except UpdateError (List (String × List String × List String))) :=
  (followAll callBuilder true (editedTree (some "x")) (edits.take count) ⟨0⟩).map fun outcome =>
    outcome.map fun (graph, _) => graph.components.map fun c =>
      (c.qualifiedName, c.linkedIds, c.externalIds.filterMap graph.externalSymbols.nameOf?)

/-- The graph of the edits agrees with a fresh build. On the way the callers are retained, lose
their links to what was edited or removed, and are linked to what takes its place. -/
theorem followAll_agrees_edits :
    (∀ tree ∈ editedTree (some "x") :: edits, tree.Sound .clear callBuilder) ∧
    (∃ graph rest, followAll callBuilder true (editedTree (some "x")) edits ⟨0⟩ =
        some (.ok (graph, rest)) ∧
      graph.Agrees ((editedTree (some "x")).build callBuilder ⟨0⟩).graph) ∧
    edgesAfter 0 = some (.ok [("a", ["b\x00x"], []), ("b", [], []), ("c.f", ["b\x00x"], []),
      ("c", [], []), ("d", [], ["p"])]) ∧
    edgesAfter 1 = some (.ok [("a", ["b\x00y"], []), ("c.f", ["b\x00y"], []), ("c", [], []),
      ("d", [], ["p"]), ("b", [], [])]) ∧
    edgesAfter 3 = some (.ok [("a", [], ["b"]), ("c.f", [], ["b"]), ("c", [], []),
      ("d", [], ["p"])]) ∧
    edgesAfter 4 = some (.ok [("a", ["b\x00x"], []), ("c.f", ["b\x00x"], []), ("c", [], []),
      ("d", [], ["p"]), ("b", [], [])]) := by
  have hedits : ∀ tree ∈ editedTree (some "x") :: edits,
      ∃ callee ∈ [some "x", some "y", some "(", none], tree = editedTree callee := by
    simp [edits]
  have htrees : ∀ tree ∈ editedTree (some "x") :: edits, tree.Sound .clear callBuilder := by
    intro tree htree
    obtain ⟨callee, hcallee, rfl⟩ := hedits tree htree
    exact sound_editedTree hcallee
  have hpaths : ∀ tree ∈ editedTree (some "x") :: edits,
      ∃ paths, tree.paths? callBuilder = some paths := by
    intro tree htree
    obtain ⟨callee, hcallee, rfl⟩ := hedits tree htree
    exact ⟨_, collectFiles_editedTree hcallee⟩
  have hx := collectFiles_editedTree (by decide : some "x" ∈ [some "x", some "y", some "(", none])
  have hy := collectFiles_editedTree (by decide : some "y" ∈ [some "x", some "y", some "(", none])
  have hopen := collectFiles_editedTree (by decide : some "(" ∈ [some "x", some "y", some "(", none])
  have hnone := collectFiles_editedTree (by decide : none ∈ [some "x", some "y", some "(", none])
  refine ⟨htrees,
    (followAll_agrees Fingerprint.collisionFree_verbatim rfl _ _ htrees ⟨0⟩ ⟨0⟩).2 hpaths,
    ?_, ?_, ?_, ?_⟩
  · simp only [edgesAfter, followAll, List.take, followFrom, paths?, build, hx, Option.bind_some,
      Option.getD_some]
    decide +kernel
  · simp only [edgesAfter, followAll, edits, List.take, followFrom, follow, Snapshot.changes, paths?,
      build, hx, hy, Option.bind_some, Option.getD_some]
    decide +kernel
  · simp only [edgesAfter, followAll, edits, List.take, followFrom, follow, Snapshot.changes, paths?,
      build, hx, hy, hopen, hnone, Option.bind_some, Option.getD_some]
    decide +kernel
  · simp only [edgesAfter, followAll, edits, List.take, followFrom, follow, Snapshot.changes, paths?,
      build, hx, hy, hopen, hnone, Option.bind_some, Option.getD_some]
    decide +kernel

end WorkTree

end CodeAtlas
