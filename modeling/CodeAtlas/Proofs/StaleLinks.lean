import CodeAtlas.Proofs.Incremental

/-!
# Links that fall behind

A graph that follows a working tree without linking the retained components again falls behind: the
links that an edit takes away stay away, and names that appear later are not linked to. Nothing else
goes wrong. Files and components are those of a fresh build, a link that is there is there in the
fresh build as well, and whatever the last update has built is linked as in the fresh build.

The invariant is that each component's links are a sublist of its targets in a table of all the names.
It survives an update because pruning and the new table agree on what was retained: an identifier
stands for one name, so among the retained identifiers both tables find the same.

## Main definitions

* `Sketches`: a graph with the files and components, and with some of the links.
* `CodeGraph.Lags`: a graph that differs from a fresh one by missing links and external edges only.

## Main results

* `Update.sketches_apply`: an update without linking again keeps the invariant.
* `Update.linkedIn_of_rebuilt`: what an update has built is linked completely.
* `WorkTree.followAll_lags`: the graph and a fresh build of the last tree.
-/

namespace CodeAtlas

/-- The graph has the files and all of their components, and the links of each component are some of
its targets, in their order. -/
structure Sketches (fingerprint : Fingerprint) (contents : Contents) (files : List ParsedFile)
    (graph : CodeGraph) : Prop extends Depicts fingerprint contents files graph where
  linked : ∃ known, Answers fingerprint files known ∧ ∀ c ∈ graph.components,
    c.linkedIds.Sublist (internalTargets known c.id c.referencedSymbols)

/-- The graph has, in some order, the files and the components of the fresh one, and each component
has some of its links there, in their order. -/
structure CodeGraph.Lags (graph fresh : CodeGraph) : Prop where
  files_perm : graph.files.Perm fresh.files
  components_perm :
    (graph.components.map Component.unlink).Perm (fresh.components.map Component.unlink)
  links_sublist : ∀ c ∈ graph.components, ∀ d ∈ fresh.components, c.id = d.id →
    c.linkedIds.Sublist d.linkedIds

theorem Mirrors.sketches {fingerprint : Fingerprint} {contents : Contents}
    {files : List ParsedFile} {graph : CodeGraph} (h : Mirrors fingerprint contents files graph) :
    Sketches fingerprint contents files graph where
  toDepicts := h.depicts
  linked := by
    obtain ⟨known, hanswers, hlinked⟩ := h.linked
    exact ⟨known, hanswers, fun c hc => (hlinked c hc).linkedIds_eq ▸ List.Sublist.refl _⟩

/-! ### Comparing graphs of the same files -/

namespace Depicts

variable {fingerprint : Fingerprint} {contents : Contents} {files files' : List ParsedFile}
  {graph graph' : CodeGraph}

/-- A graph of the same files has each component, if with other links. -/
theorem exists_unlink_eq (h : Depicts fingerprint contents files graph)
    (h' : Depicts fingerprint contents files' graph') (hperm : files.Perm files') {c : Component}
    (hc : c ∈ graph.components) : ∃ d ∈ graph'.components, d.unlink = c.unlink := by
  obtain ⟨file, hfile, hmem⟩ := h.portrays.extracted c hc
  exact h'.complete file (hperm.mem_iff.mp hfile) c.unlink hmem

theorem unlink_eq (h : Depicts fingerprint contents files graph)
    (h' : Depicts fingerprint contents files' graph')
    (hperm : files.Perm files') {c d : Component} (hc : c ∈ graph.components)
    (hd : d ∈ graph'.components) (hid : c.id = d.id) : c.unlink = d.unlink := by
  obtain ⟨e, he, hunlink⟩ := h.exists_unlink_eq h' hperm hc
  have heid : e.unlink.id = c.unlink.id := congrArg Component.id hunlink
  rw [← hunlink, List.inj_on_of_nodup_map h'.portrays.identified.nodup he hd (heid.trans hid)]

theorem nodup_map_unlink (h : Depicts fingerprint contents files graph) :
    (graph.components.map Component.unlink).Nodup := by
  have hids : ((graph.components.map Component.unlink).map (·.id)).Nodup := by
    rw [List.map_map]
    exact h.portrays.identified.nodup
  exact hids.of_map

/-- Graphs of the same files have the same components, up to links. -/
theorem unlink_perm (h : Depicts fingerprint contents files graph)
    (h' : Depicts fingerprint contents files' graph')
    (hperm : files.Perm files') :
    (graph.components.map Component.unlink).Perm (graph'.components.map Component.unlink) := by
  refine (List.perm_ext_iff_of_nodup h.nodup_map_unlink h'.nodup_map_unlink).mpr fun u => ?_
  constructor
  · intro hu
    obtain ⟨c, hc, rfl⟩ := List.mem_map.mp hu
    exact List.mem_map.mpr (h.exists_unlink_eq h' hperm hc)
  · intro hu
    obtain ⟨c, hc, rfl⟩ := List.mem_map.mp hu
    exact List.mem_map.mpr (h'.exists_unlink_eq h hperm.symm hc)

end Depicts

/-- A sketch of the files of a mirror lags behind it. -/
theorem Sketches.lags {fingerprint : Fingerprint} {contents : Contents}
    {files files' : List ParsedFile} {graph fresh : CodeGraph}
    (h : Sketches fingerprint contents files graph)
    (h' : Mirrors fingerprint contents files' fresh) (hperm : files.Perm files') :
    graph.Lags fresh where
  files_perm := by
    rw [h.portrays.files_eq, h'.portrays.files_eq]
    exact hperm.map _
  components_perm := h.toDepicts.unlink_perm h'.depicts hperm
  links_sublist := by
    intro c hc d hd hid
    obtain ⟨known, hanswers, hlinked⟩ := h.linked
    obtain ⟨known', hanswers', hlinked'⟩ := h'.linked
    have hunlink : c.unlink = d.unlink := h.toDepicts.unlink_eq h'.depicts hperm hc hd hid
    have hreferences : c.unlink.referencedSymbols = d.unlink.referencedSymbols :=
      congrArg Component.referencedSymbols hunlink
    rw [(hlinked' d hd).linkedIds_eq, ← hid, ← internalTargets_congr
      (hanswers.find?_eq hanswers' hperm)]
    exact hreferences ▸ hlinked c hc

/-! ### Updates without linking again -/

namespace Update

variable {parser : SyntaxParser} {fingerprint : Fingerprint} {contents : Contents}
  {builder : Builder} {fs : FileSystem} {directory : String} {files : List ParsedFile}
  {previous : CodeGraph} {changes : ChangeSet}
  {supply : IdSupply}

/-- The identifier is that of a retained component. -/
def isRetained (previous : CodeGraph) (changes : ChangeSet) (id : ComponentId) : Bool :=
  (retained previous changes).any (·.id == id)

/-- Among the retained identifiers, a table for files with the kept ones finds the components of the
kept ones. -/
theorem filter_isRetained_find? (hfree : fingerprint.CollisionFree contents)
    (hsourced : ∀ file ∈ files, file.Sourced parser contents)
    (h : Depicts fingerprint contents files previous)
    {others : List ParsedFile} (hothers : ∀ file ∈ others, file.Sourced parser contents)
    (hkept : keptFiles changes files ⊆ others) {known : NameTable}
    (hanswers : Answers fingerprint others known) {name : String} {id : ComponentId} :
    (known.find? name).filter (isRetained previous changes) = some id ↔
      ∃ d ∈ (keptFiles changes files).flatMap (ParsedFile.unlinked fingerprint),
        d.qualifiedName = name ∧ d.id = id := by
  rw [Option.filter_eq_some_iff, hanswers name id, isRetained, List.any_eq_true]
  constructor
  · rintro ⟨⟨d, hd, rfl, rfl⟩, c, hc, hid⟩
    obtain ⟨e, he, -, heid⟩ := (mem_retained_iff hfree hsourced h).mp ⟨c, hc, rfl, rfl⟩
    have hsame : e.id = d.id := heid.trans (beq_iff_eq.mp hid)
    -- The identifier stands for one name, so what was retained has the name asked for.
    obtain ⟨file, hfile, hd⟩ := List.mem_flatMap.mp hd
    obtain ⟨other, hother, hemem⟩ := List.mem_flatMap.mp he
    exact ⟨e, he, ((hothers other (hkept hother)).content_eq hfree (hothers file hfile) hemem hd
      hsame).1, hsame⟩
  · rintro ⟨d, hd, rfl, rfl⟩
    obtain ⟨c, hc, -, hid⟩ := (mem_retained_iff hfree hsourced h).mpr ⟨d, hd, rfl, rfl⟩
    obtain ⟨file, hfile, hmem⟩ := List.mem_flatMap.mp hd
    exact ⟨⟨d, List.mem_flatMap.mpr ⟨file, hkept hfile, hmem⟩, rfl, rfl⟩, c, hc,
      beq_iff_eq.mpr hid⟩

/-- What is left of some links after pruning leads to retained components. -/
theorem pruneLinks_sublist (h : Depicts fingerprint contents files previous) {known : NameTable}
    (hanswers : Answers fingerprint files known) {c : Component}
    (hlinked : c.linkedIds.Sublist (internalTargets known c.id c.referencedSymbols)) :
    (pruneLinks (classify previous changes).dropped c).linkedIds.Sublist
      ((internalTargets known c.id c.referencedSymbols).filter (isRetained previous changes)) := by
  have hretained : ∀ target ∈ (pruneLinks (classify previous changes).dropped c).linkedIds,
      isRetained previous changes target = true := by
    intro target htarget
    obtain ⟨hmem, hleft⟩ := List.mem_filter.mp htarget
    obtain ⟨-, symbol, -, hfound⟩ := mem_internalTargets.mp (hlinked.subset hmem)
    obtain ⟨d, hd, -, rfl⟩ := (hanswers symbol target).mp hfound
    obtain ⟨file, hfile, hdmem⟩ := List.mem_flatMap.mp hd
    obtain ⟨e, he, rfl⟩ := h.complete file hfile d hdmem
    have hdropped : e.unlink.id ∉ (classify previous changes).dropped := by simpa using hleft
    have hkept := mem_untouched_of_not_mem_dropped he hdropped
    exact List.any_eq_true.mpr ⟨_, List.mem_map_of_mem hkept, beq_self_eq_true _⟩
  rw [← List.filter_eq_self.mpr hretained]
  exact ((List.filter_sublist).trans hlinked).filter _

/-- The links of a retained component are some of its targets after the update. -/
theorem linkedIds_retained_sublist (hfree : fingerprint.CollisionFree contents)
    (hstandard : builder.Standard parser fingerprint contents fs directory
      (rebuildPaths builder fs directory changes))
    (hsourced : ∀ file ∈ files, file.Sourced parser contents)
    (h : Sketches fingerprint contents files previous)
    {known : NameTable}
    (hanswers : Answers fingerprint (nextFiles builder fs directory changes files) known)
    {c : Component} (hc : c ∈ retained previous changes) :
    c.linkedIds.Sublist (internalTargets known c.id c.referencedSymbols) := by
  obtain ⟨before, hbefore, hlinked⟩ := h.linked
  obtain ⟨d, hd, rfl⟩ := List.mem_map.mp hc
  have hfind : ∀ name, (before.find? name).filter (isRetained previous changes) =
      (known.find? name).filter (isRetained previous changes) := by
    refine fun name => Option.ext fun id => ?_
    rw [filter_isRetained_find? hfree hsourced h.toDepicts hsourced
        (fun _ hfile => (mem_keptFiles.mp hfile).1) hbefore,
      filter_isRetained_find? hfree hsourced h.toDepicts (sourced_nextFiles hstandard hsourced)
        (List.subset_append_left _ _) hanswers]
  have hpruned : (pruneLinks (classify previous changes).dropped d).linkedIds.Sublist
      ((internalTargets before d.id d.referencedSymbols).filter (isRetained previous changes)) :=
    pruneLinks_sublist h.toDepicts hbefore (hlinked d (mem_untouched.mp hd).1)
  rw [filter_internalTargets_congr hfind] at hpruned
  exact hpruned.trans List.filter_sublist

/-- What is added in an update is linked completely. -/
theorem linkedIn_of_mem_additions (hfresh : Externals.Fresh ⟨previous.externalSymbols, supply⟩)
    {linked : List Component} {c : Component}
    (hc : c ∈ additions linked (built builder fs directory previous changes supply).graph.components) :
    LinkedIn (built builder fs directory previous changes supply).nameTable
      (built builder fs directory previous changes supply).graph.externalSymbols c :=
  Builder.linkedIn_assemble hfresh ((additions_sublist _ _).subset hc)

/-- The external symbols after an update without linking again are kept apart. -/
theorem fresh_apply (hfresh : Externals.Fresh ⟨previous.externalSymbols, supply⟩) :
    Externals.Fresh ⟨(apply builder false fs directory previous changes supply).graph.externalSymbols,
      (apply builder false fs directory previous changes supply).supply⟩ := by
  have hbuilt : Externals.Fresh
      ⟨(built builder fs directory previous changes supply).graph.externalSymbols,
        (built builder fs directory previous changes supply).supply⟩ :=
    Builder.fresh_assemble hfresh
  rw [graph_apply, supply_apply]
  exact hbuilt

/-- An update without linking again sketches the next files. -/
theorem sketches_apply (hfree : fingerprint.CollisionFree contents)
    (hstandard : builder.Standard parser fingerprint contents fs directory
      (rebuildPaths builder fs directory changes))
    (hsourced : ∀ file ∈ files, file.Sourced parser contents) (hnames : DistinctNames files)
    (h : Sketches fingerprint contents files previous)
    (hfresh : Externals.Fresh ⟨previous.externalSymbols, supply⟩)
    (hdistinct : DistinctNames (nextFiles builder fs directory changes files)) :
    Sketches fingerprint contents (nextFiles builder fs directory changes files)
      (apply builder false fs directory previous changes supply).graph where
  toDepicts := depicts_apply hfree hstandard hsourced hnames h.toDepicts hdistinct false
  linked := by
    have hanswers : Answers fingerprint (nextFiles builder fs directory changes files)
        (built builder fs directory previous changes supply).nameTable :=
      answers_built hfree hstandard hsourced h.toDepicts hdistinct
    refine ⟨_, hanswers, fun c hc => ?_⟩
    rw [graph_apply] at hc
    rcases List.mem_append.mp hc with hretained | hadded
    · exact linkedIds_retained_sublist hfree hstandard hsourced h hanswers hretained
    · exact (linkedIn_of_mem_additions hfresh hadded).linkedIds_eq ▸ List.Sublist.refl _

/-- A component of a file that was built in an update is linked completely. -/
theorem linkedIn_of_rebuilt (hfree : fingerprint.CollisionFree contents)
    (hstandard : builder.Standard parser fingerprint contents fs directory
      (rebuildPaths builder fs directory changes))
    (hsourced : ∀ file ∈ files, file.Sourced parser contents)
    (h : Portrays fingerprint contents files previous)
    (hfresh : Externals.Fresh ⟨previous.externalSymbols, supply⟩)
    (hnodup : (nextFiles builder fs directory changes files).Nodup) {file : ParsedFile}
    (hfile : file ∈ rebuiltFiles builder fs directory changes) {c : Component}
    (hc : c ∈ (apply builder false fs directory previous changes supply).graph.components)
    (hfileId : c.fileId = file.ident fingerprint) :
    LinkedIn (built builder fs directory previous changes supply).nameTable
      (apply builder false fs directory previous changes supply).graph.externalSymbols c := by
  rw [graph_apply] at hc ⊢
  rcases List.mem_append.mp hc with hretained | hadded
  · -- A retained component belongs to a kept file, and no file is kept and built.
    obtain ⟨other, hother, hmem⟩ := exists_keptFile_of_mem_relinked hfree hsourced h hretained
    have hident : other.ident fingerprint = file.ident fingerprint :=
      (other.fileId_of_mem_unlinked fingerprint hmem).symm.trans hfileId
    obtain rfl := (hsourced other (mem_keptFiles.mp hother).1).eq_of_ident hfree
      (hstandard.sourced hfile) hident
    exact absurd rfl ((List.nodup_append.mp hnodup).2.2 other hother other hfile)
  · exact linkedIn_of_mem_additions hfresh hadded

end Update

/-! ### Following a tree without linking again -/

namespace WorkTree

variable {parser : SyntaxParser} {contents : Contents} {builder : Builder} {tree next : WorkTree}

/-- The graph sketches the files of the tree, and its external identifiers are kept apart. -/
structure Trails (contents : Contents) (builder : Builder) (tree : WorkTree)
    (state : CodeGraph × IdSupply) : Prop where
  sketches : ∃ files, files.Perm (tree.files builder) ∧
    Sketches builder.fingerprint contents files state.1
  fresh : Externals.Fresh ⟨state.1.externalSymbols, state.2⟩

theorem Tracks.trails {state : CodeGraph × IdSupply} (h : Tracks contents builder tree state) :
    Trails contents builder tree state where
  sketches := by
    obtain ⟨files, hperm, hmirrors⟩ := h.mirrors
    exact ⟨files, hperm, hmirrors.sketches⟩
  fresh := h.fresh

/-- The components of the files that are built on the way from a graph to the next tree are, with
their links and the names of their external edges, those of the fresh graph. -/
def RebuiltAgree (builder : Builder) (before : CodeGraph) (next : WorkTree)
    (graph fresh : CodeGraph) : Prop :=
  ∀ changes, Snapshot.changes builder next.fs next.home next.directory before.files = some changes →
    ∀ file ∈ Update.rebuiltFiles builder next.fs next.directory changes,
      ∀ c ∈ graph.components, c.fileId = file.ident builder.fingerprint →
        graph.view c ∈ fresh.components.map fresh.view

/-- Following one change keeps the graph a sketch of the tree, and what it builds agrees with every
graph that mirrors the tree. -/
theorem trails_follow (hfree : builder.fingerprint.CollisionFree contents)
    (hregistry : builder.registry = .standard parser) (htree : tree.Sound contents builder)
    (hnext : next.Sound contents builder) {paths : List String}
    (hpaths : next.paths? builder = some paths)
    {state : CodeGraph × IdSupply} (h : Trails contents builder tree state) :
    ∃ state', follow builder false state next = some (.ok state') ∧
      Trails contents builder next state' ∧
      ∀ fresh, Mirrors builder.fingerprint contents (next.files builder) fresh →
        RebuiltAgree builder state.1 next state'.1 fresh := by
  obtain ⟨graph, supply⟩ := state
  obtain ⟨⟨files, hperm, hsketches⟩, hfresh⟩ := h
  have hstandard := hnext.standard_rebuilt hregistry hpaths files
  have hsourced : ∀ file ∈ files, file.Sourced parser contents := fun file hfile =>
    (htree.standard hregistry).sourced (hperm.mem_iff.mp hfile)
  have hfiles := htree.nextFiles_perm hfree hregistry hnext hpaths hperm
  have hchanges := changes_eq hpaths hsketches.portrays.files_eq
  obtain ⟨result, hresult, hfollow⟩ :=
    exists_follow hnext hpaths hsketches.portrays.files_eq false supply
  refine ⟨(result.graph, result.supply), hfollow, ?_⟩
  rcases Update.update_eq_ok hresult with ⟨hnone, hsame, hsupply⟩ | ⟨-, rfl⟩
  · rw [Update.nextFiles_of_not_hasChanges hnone] at hfiles
    rw [hsame, hsupply]
    refine ⟨⟨⟨files, hfiles, hsketches⟩, hfresh⟩, fun fresh _ changes hfound file hfile => ?_⟩
    obtain rfl := Option.some.inj (hchanges.symm.trans hfound)
    rw [Update.rebuiltFiles_of_not_hasChanges hnone] at hfile
    exact absurd hfile List.not_mem_nil
  · have hdistinct := hnext.distinct.perm hfiles.symm
    have happly := Update.sketches_apply hfree hstandard hsourced (htree.distinct.perm hperm.symm)
      hsketches hfresh hdistinct
    refine ⟨⟨⟨_, hfiles, happly⟩, Update.fresh_apply hfresh⟩,
      fun fresh hmirrors changes hfound file hfile c hc hfileId => ?_⟩
    obtain rfl := Option.some.inj (hchanges.symm.trans hfound)
    have hnodup := hfiles.nodup_iff.mpr (hnext.nodup_paths hregistry).of_map
    exact hmirrors.view_mem happly.portrays hfiles
      (Update.answers_built hfree hstandard hsourced hsketches.toDepicts hdistinct) hc
      (Update.linkedIn_of_rebuilt hfree hstandard hsourced hsketches.portrays hfresh hnodup hfile
        hc hfileId)

/-- Following all changes keeps the graph a sketch of the tree. -/
theorem trails_followFrom (hfree : builder.fingerprint.CollisionFree contents)
    (hregistry : builder.registry = .standard parser) (htree : tree.Sound contents builder)
    {later : List WorkTree} (hlater : ∀ next ∈ later, next.Sound contents builder)
    (hpaths : ∀ next ∈ later, ∃ paths, next.paths? builder = some paths)
    {state : CodeGraph × IdSupply} (h : Trails contents builder tree state) :
    ∃ state', followFrom builder false state later = some (.ok state') ∧
      Trails contents builder (later.getLastD tree) state' := by
  induction later generalizing tree state with
  | nil => exact ⟨state, rfl, h⟩
  | cons next rest ih =>
    obtain ⟨hnext, hrest⟩ := List.forall_mem_cons.mp hlater
    obtain ⟨⟨paths, hcollected⟩, hcollects⟩ := List.forall_mem_cons.mp hpaths
    obtain ⟨middle, hmiddle, htrails, -⟩ := trails_follow hfree hregistry htree hnext hcollected h
    obtain ⟨last, hlast, hend⟩ := ih hnext hrest hcollects htrails
    refine ⟨last, ?_, ?_⟩
    · rw [followFrom, hmiddle]
      exact hlast
    · rwa [List.getLastD_cons]

/-- Whatever happens to a tree, the graph that follows it without linking again lags behind a fresh
build by links and external edges only, and what the last update has built does not lag at all. Only
where the files of one of the trees cannot be collected, the whole breaks off. -/
theorem followAll_lags (hfree : builder.fingerprint.CollisionFree contents)
    (hregistry : builder.registry = .standard parser) (first : WorkTree) (later : List WorkTree)
    (htrees : ∀ tree ∈ first :: later, tree.Sound contents builder) (supply supply' : IdSupply) :
    ((∃ tree ∈ first :: later, tree.paths? builder = none) →
      followAll builder false first later supply = none) ∧
    ((∀ tree ∈ first :: later, ∃ paths, tree.paths? builder = some paths) →
      ∃ graph rest, followAll builder false first later supply = some (.ok (graph, rest)) ∧
        graph.Lags ((later.getLastD first).build builder supply').graph ∧
        ∀ earlier last, later = earlier ++ [last] →
          ∃ before rest', followAll builder false first earlier supply = some (.ok (before, rest')) ∧
            RebuiltAgree builder before last graph (last.build builder supply').graph) := by
  refine ⟨fun hnone => followAll_eq_none false htrees hnone supply, fun hpaths => ?_⟩
  obtain ⟨hfirst, hlater⟩ := List.forall_mem_cons.mp htrees
  obtain ⟨⟨paths, hcollected⟩, hcollects⟩ := List.forall_mem_cons.mp hpaths
  have hstart := (tracks_build hfree hfirst supply).trails
  simp only [followAll_of_paths? hcollected]
  obtain rfl | ⟨earlier, last, rfl⟩ := List.eq_nil_or_concat' later
  · obtain ⟨files, hperm, hsketches⟩ := hstart.sketches
    exact ⟨_, _, rfl, hsketches.lags (hfirst.mirrors_build hfree supply') hperm,
      by simp⟩
  · obtain ⟨hearlier, hlast⟩ := List.forall_mem_append.mp hlater
    obtain ⟨hearlierPaths, hlastPaths⟩ := List.forall_mem_append.mp hcollects
    replace hlast := hlast last (List.mem_singleton_self last)
    obtain ⟨lastPaths, hlastPaths⟩ := hlastPaths last (List.mem_singleton_self last)
    obtain ⟨⟨before, rest⟩, hbefore, htrails⟩ :=
      trails_followFrom hfree hregistry hfirst hearlier hearlierPaths hstart
    have hmiddle : (earlier.getLastD first).Sound contents builder :=
      List.forall_mem_cons.mpr ⟨hfirst, hearlier⟩ _ List.getLastD_mem_cons
    obtain ⟨⟨graph, rest'⟩, hgraph, hend, hagree⟩ :=
      trails_follow hfree hregistry hmiddle hlast hlastPaths htrails
    obtain ⟨files, hperm, hsketches⟩ := hend.sketches
    refine ⟨graph, rest', ?_, ?_, fun earlier' last' heq => ?_⟩
    · rw [followFrom_append, hbefore]
      simp only [followFrom, hgraph]
    · rw [List.getLastD_concat]
      exact hsketches.lags (hlast.mirrors_build hfree supply') hperm
    · obtain ⟨rfl, hlasts⟩ := List.append_inj' heq rfl
      obtain rfl := List.singleton_inj.mp hlasts
      exact ⟨before, rest, hbefore, hagree _
        (hlast.mirrors_build hfree supply')⟩

/-! ### A callee that is edited -/

/-- A module that calls another one, with the text of the other. -/
def callTree (callee : String) : WorkTree where
  fs := ⟨[(["repo"], .directory), (["repo", "a.py"], .file (.text "b()")),
    (["repo", "b.py"], .file (.text callee))], "/"⟩
  home := "/"
  directory := "/repo"

private theorem collectFiles_callTree {callee : String} (h : callee ∈ ["x", "y"]) :
    callBuilder.collectFiles (callTree callee).fs (callTree callee).home
      (callTree callee).directory = some ["a.py", "b.py"] := by
  simp only [List.mem_cons, List.not_mem_nil, or_false] at h
  rcases h with rfl | rfl
  · exact Builder.collectFiles_of_pairwise (by decide +kernel) (by decide +kernel) rfl
  · exact Builder.collectFiles_of_pairwise (by decide +kernel) (by decide +kernel) rfl

private theorem sound_callTree {callee : String} (h : callee ∈ ["x", "y"]) :
    (callTree callee).Sound .clear callBuilder := by
  have hpaths : (callTree callee).paths? callBuilder = _ := collectFiles_callTree h
  have hfiles := files_eq hpaths
  simp only [List.mem_cons, List.not_mem_nil, or_false] at h
  rcases h with rfl | rfl
  · exact sound_of_clearNames rfl (by decide +kernel) (by decide +kernel)
      (by rw [hfiles]; decide +kernel)
  · exact sound_of_clearNames rfl (by decide +kernel) (by decide +kernel)
      (by rw [hfiles]; decide +kernel)

theorem followAll_lags_edit :
    (∀ tree ∈ [callTree "x", callTree "y"], tree.Sound .clear callBuilder) ∧
    ∃ graph rest, followAll callBuilder false (callTree "x") [callTree "y"] ⟨0⟩ =
        some (.ok (graph, rest)) ∧
      graph.Lags ((callTree "y").build callBuilder ⟨0⟩).graph ∧
      (∃ before rest', followAll callBuilder false (callTree "x") [] ⟨0⟩ =
          some (.ok (before, rest')) ∧
        RebuiltAgree callBuilder before (callTree "y") graph
          ((callTree "y").build callBuilder ⟨0⟩).graph) ∧
      graph.components.map (·.linkedIds) = [[], []] ∧
      ((callTree "y").build callBuilder ⟨0⟩).graph.components.map (·.linkedIds) =
        [["b\x00y"], []] := by
  have hcallees : ∀ tree ∈ [callTree "x", callTree "y"], ∃ callee ∈ ["x", "y"],
      tree = callTree callee := by
    simp
  have htrees : ∀ tree ∈ [callTree "x", callTree "y"], tree.Sound .clear callBuilder := by
    intro tree htree
    obtain ⟨callee, hcallee, rfl⟩ := hcallees tree htree
    exact sound_callTree hcallee
  have hpaths : ∀ tree ∈ [callTree "x", callTree "y"],
      ∃ paths, tree.paths? callBuilder = some paths := by
    intro tree htree
    obtain ⟨callee, hcallee, rfl⟩ := hcallees tree htree
    exact ⟨_, collectFiles_callTree hcallee⟩
  obtain ⟨graph, rest, hgraph, hlags, hrebuilt⟩ :=
    (followAll_lags Fingerprint.collisionFree_verbatim rfl _ _ htrees ⟨0⟩ ⟨0⟩).2 hpaths
  have hx := collectFiles_callTree (by decide : "x" ∈ ["x", "y"])
  have hy := collectFiles_callTree (by decide : "y" ∈ ["x", "y"])
  have hlinks : (followAll callBuilder false (callTree "x") [callTree "y"] ⟨0⟩).map
      (fun outcome => outcome.map fun state => state.1.components.map (·.linkedIds)) =
        some (.ok [[], []]) := by
    simp only [followAll, followFrom, follow, Snapshot.changes, paths?, build, hx, hy,
      Option.bind_some, Option.getD_some]
    decide +kernel
  rw [hgraph] at hlinks
  refine ⟨htrees, graph, rest, hgraph, hlags, hrebuilt [] _ rfl,
    Except.ok.inj (Option.some.inj hlinks), ?_⟩
  rw [build, paths?, hy, Option.getD_some]
  decide +kernel

end WorkTree

end CodeAtlas
