import CodeAtlas.Document.Rows
import CodeAtlas.Proofs.Document.Json
import CodeAtlas.Proofs.KeyedLists

/-!
# Documents are read back from rows

A row takes the place of an earlier one with its sort and identifier, so the rows of a sort are, of
the rows written, the last with each identifier. Components with distinct identifiers are therefore
read back as they were, with their links, since every edge belongs to the component it starts at. Of
files with one identifier the last is read back.

## Main results

* `Document.nodesOfType_toRows`: the nodes of a sort that are left after writing.
* `Document.ofRows_toRows`: reading the rows of a document.
-/

namespace CodeAtlas

/-! ### Reading many -/

/-- Reading a list whose items are read, or not, one independently of the other. -/
theorem Rows.mapM_guard {α β : Type} {read : α → Except RowError β} {f : α → β} {p : α → Bool}
    {e : RowError} {xs : List α} (h : ∀ x ∈ xs, read x = if p x then .ok (f x) else .error e) :
    xs.mapM read = if xs.all p then .ok (xs.map f) else .error e := by
  induction xs with
  | nil => rfl
  | cons x xs ih =>
    have hx := h x (by simp)
    have hxs := ih fun y hy => h y (by simp [hy])
    rw [List.mapM_cons, hx, hxs, List.all_cons]
    by_cases hpx : p x = true
    · by_cases hpxs : xs.all p = true
      · simp only [hpx, hpxs, Bool.and_self, ↓reduceIte]
        rfl
      · simp only [hpx, hpxs, Bool.true_and, ↓reduceIte]
        rfl
    · simp only [hpx, Bool.false_and, ↓reduceIte, Bool.false_eq_true]
      rfl

/-! ### Nodes -/

/-- What identifies a node. -/
def NodeRow.key (row : NodeRow) : String × String :=
  (row.nodeType, row.id)

namespace Database

theorem nodes_foldl_putNode (db : Database) (h : db.nodes = []) (rows : List NodeRow) :
    (rows.foldl putNode db).nodes = Keyed.lasts NodeRow.key rows := by
  induction rows using List.reverseRecOn with
  | nil => exact h
  | append_singleton rows row ih =>
    rw [List.foldl_append, List.foldl_cons, List.foldl_nil, putNode, ih,
      Keyed.lasts_append_singleton]
    rfl

theorem metadata_foldl_putNode (db : Database) (rows : List NodeRow) :
    (rows.foldl putNode db).metadata = db.metadata := by
  induction rows generalizing db with
  | nil => rfl
  | cons row rows ih => rw [List.foldl_cons, ih, putNode]

theorem edges_foldl_putNode (db : Database) (rows : List NodeRow) :
    (rows.foldl putNode db).edges = db.edges := by
  induction rows generalizing db with
  | nil => rfl
  | cons row rows ih => rw [List.foldl_cons, ih, putNode]

theorem nodes_foldl_putValue (db : Database) (values : List (String × String)) :
    (values.foldl (fun db entry => db.putValue entry.1 entry.2) db).nodes = db.nodes := by
  induction values generalizing db with
  | nil => rfl
  | cons entry values ih => rw [List.foldl_cons, ih, putValue]

theorem edges_foldl_putValue (db : Database) (values : List (String × String)) :
    (values.foldl (fun db entry => db.putValue entry.1 entry.2) db).edges = db.edges := by
  induction values generalizing db with
  | nil => rfl
  | cons entry values ih => rw [List.foldl_cons, ih, putValue]

end Database

namespace Rows

/-- The rows of a sort, each numbered by its place, and reduced to the last of each identifier. -/
theorem pairwise_position_numbered {α : Type} {row : α → Nat → NodeRow}
    (hrow : ∀ x i, (row x i).position = i) (items : List α) :
    (numbered row items).Pairwise fun a b => a.position ≤ b.position := by
  rw [numbered, List.pairwise_map]
  have hzip : items.zipIdx.Pairwise fun a b => a.2 < b.2 := by
    rw [← List.pairwise_map (f := Prod.snd) (R := (· < ·)), List.zipIdx_map_snd]
    exact List.pairwise_lt_range'
  refine hzip.imp fun {a b} hab => ?_
  simp only [hrow]
  exact Int.ofNat_le.mpr (Nat.le_of_lt hab)

theorem filter_numbered {α : Type} {row : α → Nat → NodeRow} {nodeType : String}
    (hrow : ∀ x i, (row x i).nodeType = nodeType) (items : List α) (t : String) :
    (numbered row items).filter (·.nodeType == t) = if nodeType = t then numbered row items else [] := by
  split
  · rename_i ht
    refine List.filter_eq_self.mpr fun r hr => ?_
    obtain ⟨⟨x, i⟩, -, rfl⟩ := List.mem_map.mp hr
    simpa [hrow] using ht
  · rename_i ht
    refine List.filter_eq_nil_iff.mpr fun r hr => ?_
    obtain ⟨⟨x, i⟩, -, rfl⟩ := List.mem_map.mp hr
    simpa [hrow] using ht

/-- The rows that are left are those of the last items with each identifier. -/
theorem exists_lasts_numbered {α : Type} {row : α → Nat → NodeRow} {ident : α → String}
    {nodeType : String} (hrow : ∀ x i, (row x i).key = (nodeType, ident x)) (items : List α) :
    ∃ kept : List (α × Nat),
      Keyed.lasts NodeRow.key (numbered row items) = kept.map (fun (x, i) => row x i) ∧
      kept.map Prod.fst = Keyed.lasts ident items := by
  have hkeys : ∀ p q : α × Nat, (NodeRow.key (row p.1 p.2) == NodeRow.key (row q.1 q.2)) =
      (ident p.1 == ident q.1) := by
    intro p q
    rw [hrow, hrow]
    simp
  refine ⟨Keyed.lasts (fun p => ident p.1) items.zipIdx, ?_, ?_⟩
  · rw [numbered, Keyed.lasts_map, Keyed.lasts, Keyed.firsts_congr _ hkeys]
    rfl
  · rw [← Keyed.lasts_map, List.zipIdx_map_fst]

end Rows

/-! ### Written documents -/

namespace Document

variable (document : Document)

theorem nodes_toRows : document.toRows.nodes = Keyed.lasts NodeRow.key document.nodeRows :=
  Database.nodes_foldl_putNode _ (Database.nodes_foldl_putValue _ _) _

theorem edges_toRows :
    document.toRows.edges = document.graph.components.flatMap Rows.edgesOf := by
  rw [toRows, Database.addEdges, Database.edges_foldl_putNode, Database.edges_foldl_putValue]
  rfl

theorem metadata_toRows : document.toRows.metadata = document.values := by
  rw [toRows, Database.addEdges, Database.metadata_foldl_putNode, values]
  cases document.repository <;> cases document.commitHash <;>
    simp [Database.putValue, Database.empty]

/-- The nodes of a sort are the last rows of each identifier among those written. -/
theorem nodesOfType_toRows {α : Type} {row : α → Nat → NodeRow} {items : List α} {t : String}
    (hposition : ∀ x i, (row x i).position = i)
    (hrows : document.nodeRows.filter (·.nodeType == t) = Rows.numbered row items) :
    document.toRows.nodesOfType t = Keyed.lasts NodeRow.key (Rows.numbered row items) := by
  have hkey : ∀ a b : NodeRow, a.key = b.key → (a.nodeType == t) = (b.nodeType == t) := by
    intro a b hab
    rw [show a.nodeType = b.nodeType from congrArg Prod.fst hab]
  rw [Database.nodesOfType, nodes_toRows, Keyed.filter_lasts _ hkey, hrows]
  refine List.mergeSort_of_pairwise ?_
  refine ((Rows.pairwise_position_numbered hposition items).sublist
    (Keyed.lasts_sublist _ _)).imp fun {a b} hab => ?_
  exact decide_eq_true hab

theorem filter_nodeRows (t : String) :
    document.nodeRows.filter (·.nodeType == t) =
      (if Rows.fileType = t then Rows.numbered Rows.ofFile document.graph.files else [])
        ++ (if Rows.externalType = t then
          Rows.numbered Rows.ofExternal document.graph.externalSymbols.entries else [])
        ++ (if Rows.componentType = t then
          Rows.numbered Rows.ofComponent document.graph.components else []) := by
  have hfile : ∀ x i, (Rows.ofFile x i).nodeType = Rows.fileType := fun _ _ => rfl
  have hexternal : ∀ x i, (Rows.ofExternal x i).nodeType = Rows.externalType := fun _ _ => rfl
  have hcomponent : ∀ x i, (Rows.ofComponent x i).nodeType = Rows.componentType := fun _ _ => rfl
  rw [nodeRows, List.filter_append, List.filter_append, Rows.filter_numbered hfile,
    Rows.filter_numbered hexternal, Rows.filter_numbered hcomponent]

end Document

/-! ### Reading rows -/

namespace Rows

theorem toFile_ofFile (file : SourceFile) (position : Nat) :
    toFile (ofFile file position) = .ok file := by
  have hwritable : Json.Writable (.object [("imports", .texts file.imports),
      ("called_symbols", .texts file.calledSymbols),
      ("callable_symbols", .texts file.callableSymbols)]) :=
    ⟨Json.writable_texts _, Json.writable_texts _, Json.writable_texts _, trivial⟩
  have hlists : readFileLists (.object [("imports", .texts file.imports),
      ("called_symbols", .texts file.calledSymbols),
      ("callable_symbols", .texts file.callableSymbols)]) =
      some (file.imports, file.calledSymbols, file.callableSymbols) := by
    simp [readFileLists, Json.fields?, List.lookup_cons, Json.required?]
  simp only [toFile, detailsOf, ofFile, fileDetails, Json.parse?_compact hwritable,
    Option.bind_some, hlists]
  rfl

/-- The lists of a component are read from its row, as long as its offsets fit. -/
theorem detailsOf_ofComponent (c : Component) (position : Nat) :
    detailsOf readComponentLists (ofComponent c position) =
      if c.fits then .ok (c.spans, c.referencedSymbols) else .error .invalidDetails := by
  have hwritable : Json.Writable (.object [("spans", .array (c.spans.map Span.toJson)),
      ("referenced_symbols", .texts c.referencedSymbols)]) :=
    ⟨Json.writable_array_map Span.writable_toJson _, Json.writable_texts _, trivial⟩
  have hspans : Json.asList? Span.ofJson? (.array (c.spans.map Span.toJson)) =
      if c.fits then some c.spans else none := Json.asList?_array Span.ofJson?_toJson c.spans
  simp only [detailsOf, ofComponent, componentDetails, Json.parse?_compact hwritable,
    Option.bind_some]
  by_cases hfits : c.fits = true
  · rw [if_pos hfits] at hspans
    simp [readComponentLists, Json.fields?, List.lookup_cons, Json.required?, hspans, hfits]
  · rw [if_neg hfits] at hspans
    simp [readComponentLists, Json.fields?, List.lookup_cons, Json.required?, hspans, hfits]

/-- A component is read from its row and its edges, as long as its offsets fit. -/
theorem toComponent_ofComponent {uses : List EdgeRow} {c : Component}
    (hlinked : targets uses c.id componentType = c.linkedIds)
    (hexternal : targets uses c.id externalType = c.externalIds) (position : Nat) :
    toComponent uses (ofComponent c position) =
      if c.fits then .ok c else .error .invalidDetails := by
  rw [toComponent, detailsOf_ofComponent]
  split
  · simp only [ofComponent, Option.bind_some, ComponentKind.ofName?_name, hlinked, hexternal]
    rfl
  · rfl

/-! ### Edges -/

/-- The edges of one component to what it refers to. -/
theorem filter_edgesOf (c : Component) :
    (edgesOf c).filter (·.edgeType == usesType) =
      c.linkedIds.map (⟨c.id, ·, componentType, usesType⟩)
        ++ c.externalIds.map (⟨c.id, ·, externalType, usesType⟩) := by
  have hinside : (insideType == usesType) = false := by decide
  simp [edgesOf, hinside, List.filter_append, List.filter_map, Function.comp_def]

theorem targets_append (edges edges' : List EdgeRow) (source t : String) :
    targets (edges ++ edges') source t = targets edges source t ++ targets edges' source t := by
  rw [targets, List.filter_append, List.map_append]
  rfl

theorem targets_map (ids : List String) (id source t t' : String) :
    targets (ids.map (⟨id, ·, t', usesType⟩)) source t =
      if id = source ∧ t' = t then ids else [] := by
  by_cases h : id = source ∧ t' = t
  · simp [targets, List.filter_map, Function.comp_def, h]
  · have hfalse : (id == source && t' == t) = false := by simpa using h
    simp [targets, List.filter_map, Function.comp_def, h, hfalse]

/-- All edges that start at a component are its own. -/
theorem targets_flatMap_edgesOf {components : List Component}
    (hids : (components.map (·.id)).Nodup) {c : Component} (hc : c ∈ components) (t : String) :
    targets ((components.flatMap edgesOf).filter (·.edgeType == usesType)) c.id t =
      targets ((edgesOf c).filter (·.edgeType == usesType)) c.id t := by
  have hother : ∀ others : List Component, c.id ∉ others.map (·.id) →
      targets ((others.flatMap edgesOf).filter (·.edgeType == usesType)) c.id t = [] := by
    intro others hnot
    induction others with
    | nil => rfl
    | cons other rest ih =>
      rw [List.map_cons, List.mem_cons, not_or] at hnot
      rw [List.flatMap_cons, List.filter_append, targets_append, ih hnot.2, filter_edgesOf,
        targets_append, targets_map, targets_map]
      simp [Ne.symm hnot.1]
  obtain ⟨before, after, rfl⟩ := List.append_of_mem hc
  rw [List.map_append, List.map_cons, List.nodup_append, List.nodup_cons] at hids
  obtain ⟨-, ⟨hafter, -⟩, hbefore⟩ := hids
  have hnot : c.id ∉ before.map (·.id) := fun h => hbefore _ h _ (by simp) rfl
  rw [List.flatMap_append, List.flatMap_cons, List.filter_append, List.filter_append,
    targets_append, targets_append, hother before hnot, hother after hafter, List.nil_append,
    List.append_nil]

theorem strayTarget?_edgesOf (components : List Component) :
    strayTarget? ((components.flatMap edgesOf).filter (·.edgeType == usesType)) = none := by
  rw [strayTarget?, List.find?_eq_none]
  intro t ht
  obtain ⟨edge, hedge, rfl⟩ := List.mem_map.mp ht
  obtain ⟨hmem, huses⟩ := List.mem_filter.mp hedge
  obtain ⟨c, -, hc⟩ := List.mem_flatMap.mp hmem
  have hown : edge ∈ (edgesOf c).filter (·.edgeType == usesType) := List.mem_filter.mpr ⟨hc, huses⟩
  rw [filter_edgesOf, List.mem_append, List.mem_map, List.mem_map] at hown
  rcases hown with ⟨id, -, rfl⟩ | ⟨id, -, rfl⟩ <;> simp

end Rows

/-! ### Documents -/

/-- What a database keeps of a document: the last file of each identifier, and the last external
name of each identifier. -/
def Document.kept (document : Document) : Document :=
  { document with
    graph :=
      { components := document.graph.components
        files := Keyed.lasts (·.id) document.graph.files
        externalSymbols := .ofList (Keyed.lasts (·.2) document.graph.externalSymbols.entries) } }

namespace Document

variable (document : Document)

theorem value?_repository_toRows :
    document.toRows.value? "repository" = document.repository := by
  rw [Database.value?, metadata_toRows, values]
  cases document.repository <;> cases document.commitHash <;> simp [List.lookup_cons]

theorem value?_commit_toRows : document.toRows.value? "commit_hash" = document.commitHash := by
  rw [Database.value?, metadata_toRows, values]
  cases document.repository <;> cases document.commitHash <;> simp [List.lookup_cons]

theorem mapM_toFile_toRows :
    (document.toRows.nodesOfType Rows.fileType).mapM Rows.toFile =
      .ok (Keyed.lasts (·.id) document.graph.files) := by
  have hkey : ∀ file i, (Rows.ofFile file i).key = (Rows.fileType, file.id) := fun _ _ => rfl
  have hposition : ∀ file i, (Rows.ofFile file i).position = i := fun _ _ => rfl
  have hrows : document.nodeRows.filter (·.nodeType == Rows.fileType) =
      Rows.numbered Rows.ofFile document.graph.files := by
    rw [filter_nodeRows]
    simp [Rows.fileType, Rows.externalType, Rows.componentType]
  obtain ⟨kept, hkept, hfst⟩ := Rows.exists_lasts_numbered hkey document.graph.files
  have hread : ∀ p ∈ kept, Rows.toFile (Rows.ofFile p.1 p.2) =
      if true then .ok p.1 else .error .invalidDetails := fun p _ => Rows.toFile_ofFile p.1 p.2
  rw [nodesOfType_toRows document hposition hrows, hkept, List.mapM_map]
  refine (Rows.mapM_guard hread).trans ?_
  rw [hfst]
  simp

theorem map_externals_toRows :
    (document.toRows.nodesOfType Rows.externalType).map (fun row => (row.name, row.id)) =
      Keyed.lasts (·.2) document.graph.externalSymbols.entries := by
  have hkey : ∀ (entry : String × ExternalId) i,
      (Rows.ofExternal entry i).key = (Rows.externalType, entry.2) := fun _ _ => rfl
  have hposition : ∀ entry i, (Rows.ofExternal entry i).position = i := fun _ _ => rfl
  have hrows : document.nodeRows.filter (·.nodeType == Rows.externalType) =
      Rows.numbered Rows.ofExternal document.graph.externalSymbols.entries := by
    rw [filter_nodeRows]
    simp [Rows.fileType, Rows.externalType, Rows.componentType]
  obtain ⟨kept, hkept, hfst⟩ :=
    Rows.exists_lasts_numbered hkey document.graph.externalSymbols.entries
  rw [nodesOfType_toRows document hposition hrows, hkept, List.map_map]
  exact hfst

theorem mapM_toComponent_toRows (hids : (document.graph.components.map (·.id)).Nodup) :
    (document.toRows.nodesOfType Rows.componentType).mapM
        (Rows.toComponent (document.toRows.edgesOfType Rows.usesType)) =
      if document.fits then .ok document.graph.components else .error .invalidDetails := by
  have hkey : ∀ (c : Component) i, (Rows.ofComponent c i).key = (Rows.componentType, c.id) :=
    fun _ _ => rfl
  have hposition : ∀ c i, (Rows.ofComponent c i).position = i := fun _ _ => rfl
  have hrows : document.nodeRows.filter (·.nodeType == Rows.componentType) =
      Rows.numbered Rows.ofComponent document.graph.components := by
    rw [filter_nodeRows]
    simp [Rows.fileType, Rows.externalType, Rows.componentType]
  obtain ⟨kept, hkept, hfst⟩ := Rows.exists_lasts_numbered hkey document.graph.components
  rw [Keyed.lasts_eq_self _ hids] at hfst
  have hread : ∀ p ∈ kept,
      Rows.toComponent (document.toRows.edgesOfType Rows.usesType) (Rows.ofComponent p.1 p.2) =
        if p.1.fits then .ok p.1 else .error .invalidDetails := by
    intro p hp
    have hc : p.1 ∈ document.graph.components := hfst ▸ List.mem_map_of_mem hp
    rw [Database.edgesOfType, edges_toRows]
    refine Rows.toComponent_ofComponent ?_ ?_ p.2
    · rw [Rows.targets_flatMap_edgesOf hids hc, Rows.filter_edgesOf, Rows.targets_append,
        Rows.targets_map, Rows.targets_map]
      simp [Rows.externalType, Rows.componentType]
    · rw [Rows.targets_flatMap_edgesOf hids hc, Rows.filter_edgesOf, Rows.targets_append,
        Rows.targets_map, Rows.targets_map]
      simp [Rows.externalType, Rows.componentType]
  have hfits : kept.all (fun p => p.1.fits) = document.fits := by
    rw [fits, ← hfst, List.all_map]
    rfl
  rw [nodesOfType_toRows document hposition hrows, hkept, List.mapM_map]
  refine (Rows.mapM_guard hread).trans ?_
  rw [hfits, hfst]

/-- A current document with distinct components is read back from its rows, as long as its offsets
fit. -/
theorem ofRows_toRows (hcurrent : document.isCurrent = true)
    (hids : (document.graph.components.map (·.id)).Nodup) :
    ofRows document.toRows =
      if document.fits then .ok document.kept else .error .invalidDetails := by
  have hversion : document.toRows.value? "schema_version" = some currentSchema := by
    rw [Database.value?, metadata_toRows, ← beq_iff_eq.mp hcurrent]
    rfl
  have hstray : Rows.strayTarget? (document.toRows.edgesOfType Rows.usesType) = none := by
    rw [Database.edgesOfType, edges_toRows]
    exact Rows.strayTarget?_edgesOf _
  simp only [ofRows, hversion, mapM_toFile_toRows, map_externals_toRows, hstray,
    mapM_toComponent_toRows document hids, value?_repository_toRows, value?_commit_toRows]
  have hschema : document.schemaVersion = currentSchema := beq_iff_eq.mp hcurrent
  by_cases hfits : document.fits = true
  · simp only [hfits, ↓reduceIte, kept, hschema]
    rfl
  · simp only [hfits]
    rfl

end Document

end CodeAtlas
