import CodeAtlas.Proofs.ContentAddressing
import CodeAtlas.Proofs.LinkingPass
import CodeAtlas.Proofs.Query.View
import CodeAtlas.Proofs.SymbolStability
import Mathlib.Algebra.BigOperators.Group.List.Basic

/-!
# What the counts say

A build counts while it links, an update counts while it classifies and merges, and the view of a
graph counts its own nodes and edges. The view drops repeated nodes and edges that lead nowhere, so
its counts are those of the lists of the graph only where nothing is repeated and no link leads
nowhere. This is so in every build of distinct paths that starts from nothing.

The counts of an update tell what became of each component: it was removed, is stale or is retained,
and what is not retained was built. This needs that no identifier is repeated, since the buckets of
a classification go by identifiers, and it is so in every graph that is reached by builds and
updates.

## Main definitions

* `CodeGraph.Intact`: nothing is repeated in a graph, and no link leads nowhere.
* `BuildOutput.CountsAgree`: the counts of a build are those of the view of its graph.
* `CodeGraph.linksLost`: the links that components had in a graph and have no longer.
* `UpdateResult.Accounts`: the counts of an update tell what became of each component.

## Main results

* `CodeGraph.Intact.stats_ofGraph`: what the view of an intact graph counts.
* `Builder.intact_assemble`: a build of distinct paths that starts from nothing is intact.
* `Run.nodup_ids_reached`: no graph that is reached repeats an identifier.
* `counters_agree`: the counts of builds and of updates.
-/

namespace CodeAtlas

/-! ### Counts of a view -/

/-- Nothing is repeated, and what a component is linked to is there. -/
structure CodeGraph.Intact (graph : CodeGraph) : Prop where
  nodup_files : (graph.files.map (·.id)).Nodup
  nodup_components : (graph.components.map (·.id)).Nodup
  nodup_externals : (graph.externalSymbols.entries.map (·.2)).Nodup
  present : ∀ c ∈ graph.components, ∀ target ∈ c.targets, (graph.nodeAt? target).isSome = true

namespace GraphView

/-- The nodes of a sort are the files, external symbols and components of the sort. -/
theorem countP_nodesOf (graph : CodeGraph) (p : GraphNode → Bool) :
    (nodesOf graph).countP p =
      graph.files.countP (fun file => p (.file file.id file.relativePath)) +
      graph.externalSymbols.entries.countP (fun entry => p (.external entry.2 entry.1)) +
      graph.components.countP (fun c => p c.node) := by
  rw [nodesOf, List.countP_append, List.countP_append, List.countP_map, List.countP_map,
    List.countP_map]
  rfl

end GraphView

namespace CodeGraph.Intact

open GraphView

variable {graph : CodeGraph}

/-- The view of an intact graph has all its nodes. -/
theorem nodes_ofGraph (h : graph.Intact) : (ofGraph graph).nodes = nodesOf graph := by
  rw [nodes_eq_firsts]
  refine Keyed.firsts_eq_self GraphNode.key ?_
  rw [nodesOf, List.map_append, List.map_append, List.map_map, List.map_map, List.map_map]
  have hfiles : (graph.files.map fun file => NodeKey.file file.id).Nodup := by
    have := h.nodup_files.map fun _ _ => NodeKey.file.inj
    rwa [List.map_map] at this
  have hexternals :
      (graph.externalSymbols.entries.map fun entry => NodeKey.external entry.2).Nodup := by
    have := h.nodup_externals.map fun _ _ => NodeKey.external.inj
    rwa [List.map_map] at this
  have hcomponents : (graph.components.map fun c => NodeKey.component c.id).Nodup := by
    have := h.nodup_components.map fun _ _ => NodeKey.component.inj
    rwa [List.map_map] at this
  -- Keys of different sorts are different.
  refine List.nodup_append.mpr ⟨List.nodup_append.mpr ⟨hfiles, hexternals, ?_⟩, hcomponents, ?_⟩
  · intro key hkey key' hkey'
    obtain ⟨file, -, rfl⟩ := List.mem_map.mp hkey
    obtain ⟨entry, -, rfl⟩ := List.mem_map.mp hkey'
    simp [GraphNode.key]
  · intro key hkey key' hkey'
    obtain ⟨c, -, rfl⟩ := List.mem_map.mp hkey'
    rcases List.mem_append.mp hkey with hfile | hexternal
    · obtain ⟨file, -, rfl⟩ := List.mem_map.mp hfile
      simp [GraphNode.key]
    · obtain ⟨entry, -, rfl⟩ := List.mem_map.mp hexternal
      simp [GraphNode.key]

/-- The uses in the view of an intact graph are all links. -/
theorem uses_ofGraph (h : graph.Intact) :
    (ofGraph graph).edges.filter (fun edge => edge.kind == .uses) =
      graph.components.flatMap fun c => c.targets.map fun target =>
        ⟨.component c.id, .uses, target⟩ := by
  rw [GraphView.uses_ofGraph]
  refine List.flatMap_congr fun c hc => ?_
  rw [useEdges, List.filter_eq_self.mpr (h.present c hc)]

/-- The number of uses with targets of a sort, component by component. -/
theorem countP_uses (h : graph.Intact) (p : NodeKey → Bool) :
    ((ofGraph graph).edges.filter (fun edge => edge.kind == .uses)).countP
      (fun edge => p edge.target) = (graph.components.map fun c => c.targets.countP p).sum := by
  rw [h.uses_ofGraph, List.countP_flatMap]
  refine congrArg List.sum (List.map_congr_left fun c _ => ?_)
  rw [Function.comp_apply, List.countP_map]
  rfl

/-- The view of an intact graph counts the files, components, external symbols and links. -/
theorem stats_ofGraph (h : graph.Intact) :
    let stats := (ofGraph graph).stats
    stats.files = graph.files.length ∧ stats.components = graph.components.length ∧
    stats.externalSymbols = graph.externalSymbols.size ∧
    stats.internalEdges = (graph.components.map (·.linkedIds.length)).sum ∧
    stats.externalEdges = (graph.components.map (·.externalIds.length)).sum := by
  intro stats
  have hinternal (c : Component) :
      c.targets.countP (fun target => !toExternal ⟨target, .uses, target⟩) =
        c.linkedIds.length := by
    simp [Component.targets, toExternal, List.countP_map, Function.comp_def]
  have hexternal (c : Component) :
      c.targets.countP (fun target => toExternal ⟨target, .uses, target⟩) =
        c.externalIds.length := by
    simp [Component.targets, toExternal, List.countP_map, Function.comp_def]
  refine ⟨?_, ?_, ?_, ?_, ?_⟩
  · change (ofGraph graph).nodes.countP _ = _
    rw [h.nodes_ofGraph, countP_nodesOf]
    simp [Component.node]
  · change (((ofGraph graph).nodes.filterMap kindOf?).map ComponentKind.name).length = _
    rw [List.length_map, List.length_filterMap_eq_countP, h.nodes_ofGraph, countP_nodesOf]
    simp [Component.node, kindOf?]
  · change (ofGraph graph).nodes.countP GraphNode.isExternal = _
    rw [h.nodes_ofGraph, countP_nodesOf]
    simp [Component.node, GraphNode.isExternal, SymbolTable.size]
  · exact (h.countP_uses fun target => !toExternal ⟨target, .uses, target⟩).trans
      (congrArg List.sum (List.map_congr_left fun c _ => hinternal c))
  · exact (h.countP_uses fun target => toExternal ⟨target, .uses, target⟩).trans
      (congrArg List.sum (List.map_congr_left fun c _ => hexternal c))

end CodeGraph.Intact

/-! ### Counts of a build -/

/-- The counts of a build are those of the view of its graph. -/
structure BuildOutput.CountsAgree (output : BuildOutput) : Prop where
  components : (GraphView.ofGraph output.graph).stats.components = output.stats.components
  files : (GraphView.ofGraph output.graph).stats.files = output.stats.filesExtracted
  internalEdges :
    (GraphView.ofGraph output.graph).stats.internalEdges = output.stats.links.internalLinks
  externalEdges :
    (GraphView.ofGraph output.graph).stats.externalEdges = output.stats.links.externalLinks
  externalSymbols :
    (GraphView.ofGraph output.graph).stats.externalSymbols = output.stats.links.newExternalSymbols

namespace Builder

variable (builder : Builder) (files : List ParsedFile)

/-- The counts of a build's links. -/
theorem describes_assemble (seed : LinkSeed) :
    (builder.assemble files seed).stats.links.Describes
      (builder.assemble files seed).graph.components seed.externals.table
      (builder.assemble files seed).graph.externalSymbols := by
  have hlinked := describes_linkAll (builder.assemble files seed).nameTable seed.externals
    (Identity.keepFirst (builder.unlinked files))
  rwa [linkAll_assemble] at hlinked

theorem length_components_assemble (seed : LinkSeed) :
    (builder.assemble files seed).graph.components.length =
      (builder.assemble files seed).stats.components := by
  have hcount : (builder.assemble files seed).stats.components =
      (Identity.keepFirst (builder.unlinked files)).length := by
    rw [← resolved_fileRecord]
    rfl
  rw [components_assemble, List.length_map, hcount]

/-- Without a seed, the names of a build lead to its components. They do so by identifier, also
where the component of the name repeats an identifier and is not kept. -/
theorem isSome_nodeAt?_of_nameTable {externals : Externals} {name : String} {id : ComponentId}
    (h : (builder.assemble files ⟨[], externals⟩).nameTable.find? name = some id) :
    ((builder.assemble files ⟨[], externals⟩).graph.nodeAt? (.component id)).isSome = true := by
  rw [nameTable_assemble, NameTable.find?_override, Option.or_eq_some_iff] at h
  rcases h with hown | ⟨-, hseed⟩
  · obtain ⟨c, hc, -, rfl⟩ := NameTable.exists_of_find?_ofPairs hown
    obtain ⟨kept, hkept, hsame⟩ := Keyed.exists_mem_firsts (fun c : Component => c.id) hc
    have hmem : kept.linkedBy (builder.assemble files ⟨[], externals⟩).nameTable
        (builder.assemble files ⟨[], externals⟩).graph.externalSymbols ∈
          (builder.assemble files ⟨[], externals⟩).graph.components := by
      rw [components_assemble]
      exact List.mem_map_of_mem hkept
    have hthere := CodeGraph.isSome_nodeAt?_component hmem
    rw [← hsame]
    exact hthere
  · cases hseed

/-- Without a seed, what the components of a build are linked to is there. -/
theorem present_assemble (externals : Externals) {c : Component}
    (hc : c ∈ (builder.assemble files ⟨[], externals⟩).graph.components) {target : NodeKey}
    (htarget : target ∈ c.targets) :
    ((builder.assemble files ⟨[], externals⟩).graph.nodeAt? target).isSome = true := by
  rw [components_assemble] at hc
  obtain ⟨d, hd, rfl⟩ := List.mem_map.mp hc
  rcases List.mem_append.mp htarget with hlinked | hexternal
  · obtain ⟨id, hid, rfl⟩ := List.mem_map.mp hlinked
    obtain ⟨-, name, -, hfound⟩ := mem_internalTargets.mp hid
    exact isSome_nodeAt?_of_nameTable builder files hfound
  · obtain ⟨id, hid, rfl⟩ := List.mem_map.mp hexternal
    obtain ⟨name, -, hname⟩ :=
      Component.namedIn_linkedBy (fun name hname => contains_assemble hd hname) id hid
    rw [CodeGraph.nodeAt?, Option.isSome_map, SymbolTable.nameOf?, Option.isSome_map,
      List.find?_isSome]
    exact ⟨(name, id), mem_of_lookup_eq_some hname, beq_self_eq_true id⟩

variable {builder files}

/-- Without a seed, a build of files with distinct identifiers is intact. -/
theorem intact_assemble {externals : Externals} (hfresh : externals.Fresh)
    (hfiles : ((files.map builder.fileRecord).map (·.id)).Nodup) :
    (builder.assemble files ⟨[], externals⟩).graph.Intact where
  nodup_files := hfiles
  nodup_components := nodup_ids_assemble _ _ _
  nodup_externals := SymbolTable.apart_iff.mp (fresh_assemble hfresh).injective
  present := fun _ hc _ htarget => builder.present_assemble files externals hc htarget

/-- A build of distinct paths that starts from nothing counts what its graph has. -/
theorem Faithful.countsAgree_buildFiles {fingerprint : Fingerprint} {contents : Contents}
    {fs : FileSystem} {directory : String} {paths : List String}
    (h : builder.Faithful fingerprint contents fs directory paths)
    (hfree : fingerprint.CollisionFree contents) (hnodup : paths.Nodup)
    (hslashes : ∀ path ∈ paths, '\\' ∉ path.toList) (supply : IdSupply) :
    (builder.buildFiles fs directory paths ⟨[], ⟨.empty, supply⟩⟩).CountsAgree := by
  have haddressed := h.addressed_buildFiles hfree hnodup hslashes ⟨[], ⟨.empty, supply⟩⟩
  have hintact : (builder.buildFiles fs directory paths ⟨[], ⟨.empty, supply⟩⟩).graph.Intact :=
    intact_assemble (Externals.fresh_empty supply) haddressed.nodup_file_ids
  obtain ⟨hfiles, hcomponents, hexternals, hinternalEdges, hexternalEdges⟩ := hintact.stats_ofGraph
  have hlinks := builder.describes_assemble (builder.extractFiles fs directory paths)
    ⟨[], ⟨.empty, supply⟩⟩
  refine ⟨hcomponents.trans (length_components_assemble _ _ _), hfiles.trans (List.length_map _),
    hinternalEdges.trans hlinks.internal.symm, hexternalEdges.trans hlinks.external.symm,
    hexternals.trans (hlinks.grown.trans (Nat.zero_add _))⟩

end Builder

/-! ### Counts of an update -/

namespace Buckets

/-- Where identifiers are distinct, a bucket has as many as were put there. -/
theorem count_ofPairs {pairs : List (String × Bucket)} (h : (pairs.map (·.1)).Nodup)
    (bucket : Bucket) : (ofPairs pairs).count bucket = pairs.countP (·.2 == bucket) := by
  have hreverse : (pairs.reverse.map (·.1)).Nodup := by
    rw [List.map_reverse]
    exact List.nodup_reverse.mpr h
  have hall : ofPairs pairs = pairs.reverse := Keyed.firsts_eq_self Prod.fst hreverse
  rw [count, ← List.countP_eq_length_filter, hall, List.countP_reverse]

/-- There are three buckets. -/
theorem countP_add_countP (buckets : List Bucket) :
    buckets.countP (· == .removed) + buckets.countP (· == .stale) +
      buckets.countP (· == .untouched) = buckets.length := by
  induction buckets with
  | nil => rfl
  | cons bucket rest ih =>
    rw [List.length_cons, ← ih]
    cases bucket <;> simp <;> omega

end Buckets

/-- The number of links that components had in a graph and have no longer. -/
def CodeGraph.linksLost (previous : CodeGraph) (later : List Component) : Nat :=
  (later.map fun c => (previous.component? c.id).elim 0 fun before =>
    before.linkedIds.countP fun target => !c.linkedIds.contains target).sum

namespace Update

section Classification

variable {previous : CodeGraph} {changes : ChangeSet}

/-- The bucket of a component. -/
def bucketOf (previous : CodeGraph) (changes : ChangeSet) (c : Component) : Bucket :=
  ((classify previous changes).files.find? c.fileId).getD .removed

/-- Where identifiers are distinct, the counts of a classification are numbers of components. -/
theorem count_components_classify (hids : (previous.components.map (·.id)).Nodup)
    (bucket : Bucket) :
    (classify previous changes).components.count bucket =
      (previous.components.map (bucketOf previous changes)).countP (· == bucket) := by
  have hpairs : ((previous.components.map fun c => (c.id, bucketOf previous changes c)).map
      (·.1)).Nodup := by
    rwa [List.map_map]
  have hcount := Buckets.count_ofPairs hpairs bucket
  rw [List.countP_map] at hcount
  rw [List.countP_map]
  exact hcount

theorem length_untouched (hids : (previous.components.map (·.id)).Nodup) :
    (untouched (classify previous changes) previous.components).length =
      (classify previous changes).components.count .untouched := by
  rw [count_components_classify hids, List.countP_map, untouched, ← List.countP_eq_length_filter]
  refine List.countP_congr fun c hc => ?_
  rw [find?_components_classify hids hc]
  simp [bucketOf]

theorem linkCount_eq_sum (components : List Component) :
    linkCount components = (components.map (·.linkedIds.length)).sum := by
  rw [linkCount, List.sum_eq_foldl, List.foldl_map]

theorem pruneLinks_nil (c : Component) : pruneLinks [] c = c := by
  simp [pruneLinks]

/-- Each link of the components is lost or still there. -/
theorem linksLost_add_linkCount (hids : (previous.components.map (·.id)).Nodup)
    {components : List Component} (hmem : ∀ c ∈ components, c ∈ previous.components)
    (dropped : List ComponentId) :
    previous.linksLost (components.map (pruneLinks dropped)) +
      linkCount (components.map (pruneLinks dropped)) = linkCount components := by
  rw [CodeGraph.linksLost, linkCount_eq_sum, linkCount_eq_sum, List.map_map, List.map_map,
    ← List.sum_map_add]
  refine congrArg List.sum (List.map_congr_left fun c hc => ?_)
  have hfound : previous.component? (pruneLinks dropped c).id = some c :=
    Keyed.find?_eq_some (fun c : Component => c.id) hids (hmem c hc)
  have hlost :
      (c.linkedIds.countP fun target => !(pruneLinks dropped c).linkedIds.contains target) =
        c.linkedIds.countP fun target => dropped.contains target := by
    refine List.countP_congr fun target htarget => ?_
    simp [pruneLinks, htarget]
  simp only [Function.comp_apply, hfound, Option.elim_some, hlost]
  rw [pruneLinks, ← List.countP_eq_length_filter,
    List.length_eq_countP_add_countP fun target => dropped.contains target]
  simp

end Classification

section Counts

variable (builder : Builder) (relinkRetained : Bool) (fs : FileSystem) (directory : String)
  (previous : CodeGraph) (changes : ChangeSet) (supply : IdSupply)

theorem length_relinked :
    (relinked builder relinkRetained fs directory previous changes supply).1.length =
      (retained previous changes).length := by
  obtain ⟨f, heq, -⟩ :=
    exists_relinked_eq_map builder relinkRetained fs directory previous changes supply
  rw [heq, List.length_map]

/-- The counts of an update are taken from its parts. -/
theorem stats_apply :
    let stats := (apply builder relinkRetained fs directory previous changes supply).stats
    stats.removedComponents = (classify previous changes).components.count .removed ∧
    stats.staleComponents = (classify previous changes).components.count .stale ∧
    stats.retainedComponents = (retained previous changes).length ∧
    stats.prunedLinks = linkCount (untouched (classify previous changes) previous.components) -
      linkCount (retained previous changes) ∧
    stats.rebuiltComponents =
      (additions (relinked builder relinkRetained fs directory previous changes supply).1
        (built builder fs directory previous changes supply).graph.components).length := by
  obtain ⟨hgraph, hsupply, hnames⟩ :=
    rebuild_eq_built builder fs directory previous changes supply
  rw [relinked, ← hgraph, ← hsupply, ← hnames]
  cases relinkRetained with
  | false => exact ⟨rfl, rfl, rfl, rfl, rfl⟩
  | true => exact ⟨rfl, rfl, rfl, rfl, rfl⟩

end Counts

/-- The components of a graph that an update retains: all, if there are no changes. -/
def survivors (previous : CodeGraph) (changes : ChangeSet) : List Component :=
  if changes.hasChanges then untouched (classify previous changes) previous.components
  else previous.components

end Update

namespace UpdateResult

/-- The components that an update retained come first. -/
def retained (result : UpdateResult) : List Component :=
  result.graph.components.take result.stats.retainedComponents

/-- The components of the previous graph were removed, are stale or are retained; those of the graph
are retained or were built. What is retained differs in links only. -/
structure Accounts (previous : CodeGraph) (changes : ChangeSet) (result : UpdateResult) : Prop where
  before : result.stats.removedComponents + result.stats.staleComponents +
    result.stats.retainedComponents = previous.components.length
  after : result.stats.retainedComponents + result.stats.rebuiltComponents =
    result.graph.components.length
  retained_eq : result.retained.map Component.unlink =
    (Update.survivors previous changes).map Component.unlink

end UpdateResult

namespace Update

variable {builder : Builder} {relinkRetained : Bool} {fs : FileSystem} {directory : String}
  {previous : CodeGraph} {changes : ChangeSet} {supply : IdSupply}

theorem retained_apply :
    (apply builder relinkRetained fs directory previous changes supply).retained =
      (relinked builder relinkRetained fs directory previous changes supply).1 := by
  obtain ⟨-, -, hretained, -, -⟩ :=
    stats_apply builder relinkRetained fs directory previous changes supply
  rw [UpdateResult.retained, hretained, graph_apply,
    ← length_relinked builder relinkRetained fs directory previous changes supply]
  exact List.take_left

/-- The counts after changes were applied. -/
theorem accounts_apply (hids : (previous.components.map (·.id)).Nodup)
    (hchanges : changes.hasChanges = true) :
    (apply builder relinkRetained fs directory previous changes supply).Accounts previous
      changes := by
  obtain ⟨hremoved, hstale, hretained, -, hrebuilt⟩ :=
    stats_apply builder relinkRetained fs directory previous changes supply
  refine ⟨?_, ?_, ?_⟩
  · rw [hremoved, hstale, hretained, Update.retained, List.length_map, length_untouched hids]
    simp only [count_components_classify hids]
    rw [Buckets.countP_add_countP, List.length_map]
  · rw [hretained, hrebuilt, graph_apply, List.length_append, length_relinked]
  · obtain ⟨f, heq, hf⟩ :=
      exists_relinked_eq_map builder relinkRetained fs directory previous changes supply
    rw [retained_apply, survivors, if_pos hchanges, heq, Update.retained, List.map_map,
      List.map_map]
    rcases hf with rfl | ⟨table, rfl⟩
    · rfl
    · rfl

/-- The number of pruned links is that of links that were lost. -/
theorem prunedLinks_apply (hids : (previous.components.map (·.id)).Nodup) :
    (apply builder false fs directory previous changes supply).stats.prunedLinks =
      previous.linksLost (apply builder false fs directory previous changes supply).retained := by
  obtain ⟨-, -, -, hpruned, -⟩ := stats_apply builder false fs directory previous changes supply
  have hmem : ∀ c ∈ untouched (classify previous changes) previous.components,
      c ∈ previous.components := fun c hc => (mem_untouched.mp hc).1
  have hlost := linksLost_add_linkCount hids hmem (classify previous changes).dropped
  rw [hpruned, retained_apply, ← hlost]
  exact Nat.add_sub_cancel _ _

/-- An update without changes retains everything. -/
theorem update_eq_previous (builder : Builder) (relinkRetained : Bool) {fs : FileSystem}
    {directory : String} (previous : CodeGraph) {changes : ChangeSet} (supply : IdSupply)
    (h : fs.isDirectory directory = true) (hchanges : changes.hasChanges = false) :
    update builder relinkRetained fs directory previous changes supply =
      .ok
        { graph := previous
          supply := supply
          stats :=
            { untouchedFiles := previous.files.length
              retainedComponents := previous.components.length } } := by
  rw [update, if_neg (by simp [h]), if_pos (by simp [hchanges])]

/-- The counts of an update of a graph that repeats no identifier. -/
theorem exists_accounts (builder : Builder) (relinkRetained : Bool) (changes : ChangeSet)
    (supply : IdSupply) (hids : (previous.components.map (·.id)).Nodup)
    (hdirectory : fs.isDirectory directory = true) :
    ∃ result, update builder relinkRetained fs directory previous changes supply = .ok result ∧
      result.Accounts previous changes ∧
      (relinkRetained = false → result.stats.prunedLinks = previous.linksLost result.retained) := by
  cases hchanges : changes.hasChanges with
  | true =>
    refine ⟨_, update_eq_apply builder relinkRetained previous supply hdirectory hchanges,
      accounts_apply hids hchanges, ?_⟩
    rintro rfl
    exact prunedLinks_apply hids
  | false =>
    refine ⟨_, update_eq_previous builder relinkRetained previous supply hdirectory hchanges,
      ⟨Nat.zero_add _, rfl, ?_⟩, fun _ => ?_⟩
    · rw [UpdateResult.retained, List.take_length, survivors, hchanges]
      rfl
    · -- Pruning nothing is the case of nothing dropped.
      have hlost := linksLost_add_linkCount hids (fun c (hc : c ∈ previous.components) => hc) []
      rw [funext pruneLinks_nil, List.map_id'] at hlost
      rw [UpdateResult.retained, List.take_length]
      change 0 = _
      omega

end Update

/-! ### Runs -/

namespace Run

variable {Allowed : Builder → FileSystem → String → List String → Prop} {known : NameTable}
  {graph graph' : CodeGraph}

theorem nodup_ids_started (h : Started Allowed known graph) :
    (graph.components.map (·.id)).Nodup := by
  cases h with
  | files _ seed => exact Builder.nodup_ids_assemble _ _ _
  | directory _ _ built =>
    obtain ⟨collected, -, rfl⟩ := Builder.buildDirectory_eq_ok built
    exact Builder.nodup_ids_assemble _ _ _

theorem nodup_ids_step (h : (graph.components.map (·.id)).Nodup)
    (hstep : Step Allowed graph graph') : (graph'.components.map (·.id)).Nodup := by
  cases hstep with
  | update _ updated =>
    rcases Update.update_eq_ok updated with ⟨-, hsame, -⟩ | ⟨-, rfl⟩
    · rwa [hsame]
    · exact Update.nodup_ids_apply _ h
  | filter _ keep =>
    have hids : (graph.filter keep).components.map (·.id) =
        (graph.components.filter fun c => keep c.qualifiedName).map (·.id) := List.map_map
    rw [hids]
    exact h.sublist (List.filter_sublist.map _)
  | @reload _ _ _ _ repository commit _ saved loaded =>
    have hcurrent : (Document.ofGraph graph repository commit).isCurrent = true :=
      beq_self_eq_true currentSchema
    rcases GraphStore.eq_of_load saved loaded h hcurrent with rfl | rfl
    · exact h
    · exact h

/-- No graph that is reached repeats an identifier of a component. -/
theorem nodup_ids_reached (h : Reached Allowed known graph) : (graph.components.map (·.id)).Nodup :=
  h.invariant (fun _ hstarted => nodup_ids_started hstarted) fun _ _ => nodup_ids_step

end Run

/-- Counts agree with the graphs they are about. A build of distinct paths without backslashes that
starts from nothing counts the components, files, links and external symbols that the view of its
graph has. The counts of an update of any graph that is reached by builds and updates tell what
became of each component of the previous graph and where each component of the new graph comes from,
and if what is retained is not linked again, the number of pruned links is that of the links it
lost. -/
theorem counters_agree {fingerprint : Fingerprint} {contents : Contents}
    (hfree : fingerprint.CollisionFree contents) :
    (∀ (builder : Builder) (fs : FileSystem),
      (∀ (directory : String) (paths : List String) (supply : IdSupply),
        builder.Faithful fingerprint contents fs directory paths → paths.Nodup →
        (∀ path ∈ paths, '\\' ∉ path.toList) →
        (builder.buildFiles fs directory paths ⟨[], ⟨.empty, supply⟩⟩).CountsAgree) ∧
      ∀ (home directory : String) (supply : IdSupply) (output : BuildOutput)
        (collected : List String),
        builder.Faithful fingerprint contents fs directory collected →
        builder.collectFiles fs home directory = some collected → collected.Nodup →
        builder.buildDirectory fs home directory supply = some (.ok output) → output.CountsAgree) ∧
    ∀ (Allowed : Builder → FileSystem → String → List String → Prop) (known : NameTable)
      (previous : CodeGraph),
      Run.Reached Allowed known previous →
      ∀ (builder : Builder) (relinkRetained : Bool) (fs : FileSystem) (directory : String)
        (changes : ChangeSet) (supply : IdSupply), fs.isDirectory directory = true →
        ∃ result, update builder relinkRetained fs directory previous changes supply = .ok result ∧
          result.Accounts previous changes ∧
          (relinkRetained = false →
            result.stats.prunedLinks = previous.linksLost result.retained) := by
  refine ⟨fun builder fs => ⟨?_, ?_⟩, ?_⟩
  · intro directory paths supply hfaithful hnodup hslashes
    exact hfaithful.countsAgree_buildFiles hfree hnodup hslashes supply
  · intro home directory supply output collected hfaithful hcollected hnodup houtput
    obtain ⟨collected', hfound, rfl⟩ := Builder.buildDirectory_eq_ok houtput
    obtain rfl := Option.some.inj (hcollected.symm.trans hfound)
    refine hfaithful.countsAgree_buildFiles hfree hnodup (fun path hpath => ?_) supply
    exact Text.replaceChar_eq_self_iff.mp (Builder.of_mem_collectFiles hcollected hpath).2
  · intro Allowed known previous hreached builder relinkRetained fs directory changes supply
      hdirectory
    exact Update.exists_accounts builder relinkRetained changes supply
      (Run.nodup_ids_reached hreached) hdirectory

/-! ### Two files that refer to each other -/

namespace CounterSample

/-- Each file is one component that refers to two files and to a name that is defined nowhere. -/
def extracted (path source : String) : ParsedFile where
  relativePath := path
  moduleName := path
  text := source
  imports := []
  calledSymbols := []
  callableSymbols := []
  components := [⟨path, .residual, none, [⟨0, 2⟩], ["a.mk", "b.mk", "print"]⟩]

def builder : Builder where
  config := .standard
  registry := ⟨[("mk", ⟨"sample", fun path source => .ok (extracted path source)⟩)]⟩
  fingerprint := .verbatim
  excluded := []

def tree : FileSystem where
  entries :=
    [(["repo"], .directory), (["repo", "a.mk"], .file (.text "ab")),
      (["repo", "b.mk"], .file (.text "cd"))]
  current := "/"

theorem faithful_builder :
    builder.Faithful .verbatim .clear tree "/repo" ["a.mk", "b.mk"] where
  fingerprint_eq := rfl
  keeps_paths := by
    intro path source extractor file hextractor hfile _
    obtain ⟨extension, -, hlookup⟩ := Option.bind_eq_some_iff.mp hextractor
    have hmem : (Text.lower extension, extractor) ∈ builder.registry.entries :=
      mem_of_lookup_eq_some hlookup
    obtain ⟨-, rfl⟩ := Prod.mk.inj (List.mem_singleton.mp hmem)
    obtain rfl := Except.ok.inj hfile
    rfl
  texts := by
    have hclear : ∀ file ∈ builder.extractFiles tree "/repo" ["a.mk", "b.mk"],
        Text.Clear file.relativePath := by
      decide +kernel
    exact hclear

/-- The build of the two files. -/
def output : BuildOutput :=
  builder.buildFiles tree "/repo" ["a.mk", "b.mk"] ⟨[], ⟨.empty, ⟨0⟩⟩⟩

theorem counters_agree_sample :
    output.CountsAgree ∧ (GraphView.ofGraph output.graph).stats.internalEdges = 2 ∧
    (GraphView.ofGraph output.graph).stats.externalSymbols = 1 ∧
    ∃ result, update builder false tree "/repo" output.graph ⟨["b.mk"], [], []⟩ ⟨1⟩ = .ok result ∧
      result.Accounts output.graph ⟨["b.mk"], [], []⟩ ∧ result.stats.staleComponents = 1 ∧
      result.stats.retainedComponents = 1 ∧ result.stats.rebuiltComponents = 1 ∧
      output.graph.linksLost result.retained = 1 := by
  obtain ⟨hbuilds, hupdates⟩ := counters_agree Fingerprint.collisionFree_verbatim
  have hcounts : output.CountsAgree :=
    (hbuilds builder tree).1 "/repo" ["a.mk", "b.mk"] ⟨0⟩ faithful_builder (by decide)
      (by decide +kernel)
  have hreached : Run.Reached (fun _ _ _ _ => True) [] output.graph :=
    .start (.files trivial ⟨[], ⟨.empty, ⟨0⟩⟩⟩)
  obtain ⟨result, hresult, haccounts, hpruned⟩ := hupdates _ _ _ hreached builder false tree "/repo"
    ⟨["b.mk"], [], []⟩ ⟨1⟩ (by decide +kernel)
  have hstats : result.stats.staleComponents = 1 ∧ result.stats.retainedComponents = 1 ∧
      result.stats.rebuiltComponents = 1 ∧ result.stats.prunedLinks = 1 := by
    rw [Update.update_eq_apply _ _ _ _ (by decide +kernel) rfl] at hresult
    obtain rfl := Except.ok.inj hresult
    decide +kernel
  refine ⟨hcounts, hcounts.internalEdges.trans (by decide +kernel),
    hcounts.externalSymbols.trans (by decide +kernel), result, hresult, haccounts, hstats.1,
    hstats.2.1, hstats.2.2.1, (hpruned rfl).symm.trans hstats.2.2.2⟩

end CounterSample

end CodeAtlas
