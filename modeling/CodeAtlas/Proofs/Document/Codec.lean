import CodeAtlas.Proofs.Store
import Mathlib

/-!
# Storage keeps documents exactly

A document of the current version in which no identifier is repeated is read back as it was, from its
rows and from its JSON, in the order it had. What is read from rows is such a document, whatever the
rows are, as long as no two nodes have one sort and one identifier: a missing text is read as an
empty one, edges that start nowhere are passed over, and of external symbols with one name the first
is taken. So what can be loaded at all can be saved and loaded again without a change, in both
formats.

## Main definitions

* `Document.Storable`: the documents that are kept exactly.

## Main results

* `Document.Storable.ofRows_toRows`, `Document.Storable.load_of_save`: storable documents are read
  back.
* `Document.storable_of_ofRows`: what is read from rows is storable.
* `Document.storage_exact`: both together.
-/

namespace CodeAtlas

/-! ### External symbols -/

namespace SymbolTable

theorem insertEntry_of_gt {name : String} {id : ExternalId} {entries : List (String × ExternalId)}
    (h : ∀ entry ∈ entries, entry.1 < name) :
    insertEntry name id entries = entries ++ [(name, id)] := by
  induction entries with
  | nil => rfl
  | cons entry rest ih =>
    obtain ⟨hfirst, hrest⟩ := List.forall_mem_cons.mp h
    rw [insertEntry, if_neg (String.lt_asymm hfirst), if_neg, ih hrest, List.cons_append]
    rintro rfl
    exact String.lt_irrefl _ hfirst

/-- A table is made again from its entries. -/
theorem ofList_entries (table : SymbolTable) : ofList table.entries = table := by
  obtain ⟨entries, hsorted⟩ := table
  induction entries using List.reverseRecOn with
  | nil => rfl
  | append_singleton entries entry ih =>
    obtain ⟨hinit, -, hlast⟩ := List.pairwise_append.mp hsorted
    have hmade : ofList entries = ⟨entries, hinit⟩ := ih hinit
    have hgreatest : ∀ e ∈ entries, e.1 < entry.1 := fun e he => hlast e he entry (by simp)
    simp only [ofList, List.foldl_append, List.foldl_cons, List.foldl_nil]
    rw [ofList] at hmade
    rw [hmade]
    simp only [insert, insertEntry_of_gt hgreatest]

/-- The entries of a table that is made of a list are in the list. -/
theorem mem_of_mem_entries_ofList {entries : List (String × ExternalId)}
    {entry : String × ExternalId} (h : entry ∈ (ofList entries).entries) : entry ∈ entries := by
  induction entries using List.reverseRecOn with
  | nil => exact h
  | append_singleton entries last ih =>
    rw [ofList, List.foldl_append, List.foldl_cons, List.foldl_nil] at h
    rcases mem_insertEntry h with rfl | hmem
    · simp
    · exact List.mem_append_left _ (ih hmem)

/-- Distinct identifiers stay distinct, whatever their names are. -/
theorem nodup_ids_ofList {entries : List (String × ExternalId)} (h : (entries.map (·.2)).Nodup) :
    ((ofList entries).entries.map (·.2)).Nodup := by
  have hdistinct : (ofList entries).entries.Nodup := by
    refine List.Pairwise.imp ?_ (ofList entries).sorted
    rintro a b hlt rfl
    exact String.lt_irrefl _ hlt
  refine hdistinct.map_on fun a ha b hb heq => ?_
  exact List.inj_on_of_nodup_map h (mem_of_mem_entries_ofList ha) (mem_of_mem_entries_ofList hb) heq

end SymbolTable

/-! ### What can be read -/

namespace Json

/-- A number that is read has 64 bits. -/
theorem lt_of_asNat? {value : Json} {n : Nat} (h : asNat? value = some n) : n < wordCount := by
  unfold asNat? at h
  split at h
  · simp only at h
    split_ifs at h with hdigits hsmall
    exact Option.some.inj h ▸ hsmall
  · exact absurd h (by simp)

/-- What holds of every item that can be read holds of every item of a list that can be read. -/
theorem all_of_asList? {α : Type} {read : Json → Option α} {p : α → Bool}
    (hread : ∀ value x, read value = some x → p x = true) {value : Json} {xs : List α}
    (h : asList? read value = some xs) : xs.all p = true := by
  cases value with
  | array items =>
    rw [asList?] at h
    induction items generalizing xs with
    | nil =>
      obtain rfl := Option.some.inj h
      rfl
    | cons item items ih =>
      rw [List.mapM_cons] at h
      obtain ⟨x, hx, h⟩ := Option.bind_eq_some_iff.mp h
      obtain ⟨rest, hrest, h⟩ := Option.bind_eq_some_iff.mp h
      obtain rfl := Option.some.inj h
      rw [List.all_cons, hread _ _ hx, ih hrest, Bool.and_self]
  | _ => exact absurd h (by simp [asList?])

end Json

/-- The offsets of a span that is read are numbers of 64 bits. -/
theorem Span.fits_of_ofJson? {value : Json} {span : Span} (h : ofJson? value = some span) :
    span.fits = true := by
  unfold ofJson? at h
  obtain ⟨fields, -, h⟩ := Option.bind_eq_some_iff.mp h
  split at h
  · obtain ⟨start, hstart, h⟩ := Option.bind_eq_some_iff.mp h
    obtain ⟨stop, hstop, h⟩ := Option.bind_eq_some_iff.mp h
    obtain rfl := Option.some.inj h
    obtain ⟨_, -, hfirst⟩ := Option.bind_eq_some_iff.mp hstart
    obtain ⟨_, -, hlast⟩ := Option.bind_eq_some_iff.mp hstop
    simp only [fits, Bool.and_eq_true, decide_eq_true_eq]
    exact ⟨Json.lt_of_asNat? hfirst, Json.lt_of_asNat? hlast⟩
  · exact absurd h (by simp)

namespace Rows

/-- What every result has of what it was read from, the results of many have of theirs, in order. -/
theorem map_eq_of_mapM {α β γ : Type} {read : α → Except RowError β} {f : β → γ} {g : α → γ}
    (hread : ∀ x y, read x = .ok y → f y = g x) {xs : List α} {ys : List β}
    (h : xs.mapM read = .ok ys) : ys.map f = xs.map g := by
  induction xs generalizing ys with
  | nil =>
    obtain rfl := Except.ok.inj h
    rfl
  | cons x xs ih =>
    rw [List.mapM_cons] at h
    obtain ⟨y, hx, h⟩ := exists_of_bind_eq_ok h
    obtain ⟨rest, hxs, h⟩ := exists_of_bind_eq_ok h
    obtain rfl := Except.ok.inj h
    rw [List.map_cons, List.map_cons, hread x y hx, ih hxs]

theorem id_of_toFile {row : NodeRow} {file : SourceFile} (h : toFile row = .ok file) :
    file.id = row.id := by
  obtain ⟨lists, -, h⟩ := exists_of_bind_eq_ok h
  obtain rfl := Except.ok.inj h
  rfl

/-- The lists of a component that are read have offsets of 64 bits. -/
theorem fits_of_detailsOf {row : NodeRow} {spans : List Span} {referenced : List String}
    (h : detailsOf readComponentLists row = .ok (spans, referenced)) :
    spans.all Span.fits = true := by
  unfold detailsOf at h
  split at h
  · exact absurd h (by simp)
  · split at h
    · rename_i lists hlists
      obtain rfl := Except.ok.inj h
      obtain ⟨value, -, hread⟩ := Option.bind_eq_some_iff.mp hlists
      unfold readComponentLists at hread
      obtain ⟨fields, -, hread⟩ := Option.bind_eq_some_iff.mp hread
      split at hread
      · obtain ⟨found, hfound, hread⟩ := Option.bind_eq_some_iff.mp hread
        obtain ⟨names, -, hread⟩ := Option.bind_eq_some_iff.mp hread
        obtain ⟨rfl, -⟩ := Prod.mk.inj (Option.some.inj hread)
        obtain ⟨_, -, hspans⟩ := Option.bind_eq_some_iff.mp hfound
        exact Json.all_of_asList? (fun _ _ => Span.fits_of_ofJson?) hspans
      · exact absurd hread (by simp)
    · exact absurd h (by simp)

theorem of_toComponent {uses : List EdgeRow} {row : NodeRow} {c : Component}
    (h : toComponent uses row = .ok c) : c.id = row.id ∧ c.fits = true := by
  obtain ⟨⟨spans, referenced⟩, hlists, h⟩ := exists_of_bind_eq_ok h
  dsimp only at h
  split at h
  · exact absurd h throw_ne_ok
  · exact absurd h throw_ne_ok
  · obtain rfl := Except.ok.inj h
    exact ⟨rfl, fits_of_detailsOf hlists⟩

end Rows

/-- Nodes of one sort have distinct identifiers. -/
theorem Database.nodup_nodesOfType {db : Database} (hkeys : (db.nodes.map NodeRow.key).Nodup)
    (nodeType : String) : ((db.nodesOfType nodeType).map (·.id)).Nodup := by
  have hperm : (db.nodesOfType nodeType).Perm (db.nodes.filter (·.nodeType == nodeType)) :=
    List.mergeSort_perm _ _
  rw [(hperm.map (·.id)).nodup_iff]
  refine (hkeys.of_map.filter _).map_on fun a ha b hb heq => ?_
  obtain ⟨hamem, hatype⟩ := List.mem_filter.mp ha
  obtain ⟨hbmem, hbtype⟩ := List.mem_filter.mp hb
  refine List.inj_on_of_nodup_map hkeys hamem hbmem (Prod.ext ?_ heq)
  exact (beq_iff_eq.mp hatype).trans (beq_iff_eq.mp hbtype).symm

/-! ### Storable documents -/

namespace Document

/-- The document has the current version, no identifier is that of two components, of two files or of
two external names, and its offsets are numbers of 64 bits. -/
structure Storable (document : Document) : Prop where
  current : document.isCurrent = true
  components : (document.graph.components.map (·.id)).Nodup
  files : (document.graph.files.map (·.id)).Nodup
  externals : (document.graph.externalSymbols.entries.map (·.2)).Nodup
  fits : document.fits = true

instance (document : Document) : Decidable document.Storable :=
  decidable_of_iff
    (document.isCurrent = true ∧ (document.graph.components.map (·.id)).Nodup ∧
      (document.graph.files.map (·.id)).Nodup ∧
      (document.graph.externalSymbols.entries.map (·.2)).Nodup ∧ document.fits = true)
    ⟨fun ⟨hcurrent, hcomponents, hfiles, hexternals, hfits⟩ =>
      ⟨hcurrent, hcomponents, hfiles, hexternals, hfits⟩,
      fun h => ⟨h.current, h.components, h.files, h.externals, h.fits⟩⟩

/-- A document of the current version is loaded from JSON as it was saved. -/
theorem load_of_save_json {document : Document} {store : GraphStore} {fs fs' : FileSystem}
    (hformat : store.format = .json) (hcurrent : document.isCurrent = true)
    (hfits : document.fits = true) (hsave : store.save document fs = (.ok (), fs')) :
    (store.load fs').1 = .ok document := by
  rw [GraphStore.load_of_save hsave, GraphStore.isBlocked]
  simp only [hformat, Bool.false_eq_true, ↓reduceIte, GraphStore.contentOf, GraphStore.read,
    GraphStore.jsonText, document.parse?_pretty_toJson, Option.guard, hfits, hcurrent]

namespace Storable

variable {document : Document}

/-- A database keeps all of a storable document. -/
theorem kept_eq (h : document.Storable) : document.kept = document := by
  rw [kept, Keyed.lasts_eq_self _ h.files, Keyed.lasts_eq_self _ h.externals,
    SymbolTable.ofList_entries]

theorem ofRows_toRows (h : document.Storable) : ofRows document.toRows = .ok document := by
  rw [document.ofRows_toRows h.current h.components, if_pos h.fits, h.kept_eq]

theorem ofJson?_toJson (h : document.Storable) : ofJson? document.toJson = some document := by
  rw [document.ofJson?_toJson, Option.guard, if_pos h.fits]

/-- What is read from what is written for a storable document is the document, in both formats. -/
theorem read_contentOf (h : document.Storable) (format : GraphFormat) :
    GraphStore.read format (GraphStore.contentOf format document) = .ok document := by
  cases format with
  | json =>
    simp only [GraphStore.contentOf, GraphStore.read, GraphStore.jsonText,
      document.parse?_pretty_toJson, Option.guard, h.fits, h.current, ↓reduceIte]
  | sqlite => simp only [GraphStore.contentOf, GraphStore.read, h.ofRows_toRows, Except.mapError]

/-- A storable document is loaded as it was saved, in both formats, if its store can be opened. -/
theorem load_of_save (h : document.Storable) {store : GraphStore} {fs fs' : FileSystem}
    (hsave : store.save document fs = (.ok (), fs')) (hopen : store.isBlocked fs' = false) :
    (store.load fs').1 = .ok document := by
  rw [GraphStore.load_of_save hsave, hopen, if_neg Bool.false_ne_true, h.read_contentOf]

end Storable

variable {db : Database} {document : Document}

/-- The parts of a document that is read from rows. -/
theorem ofRows_eq_ok (h : ofRows db = .ok document) :
    document.isCurrent = true ∧
    (db.nodesOfType Rows.fileType).mapM Rows.toFile = .ok document.graph.files ∧
    document.graph.externalSymbols = .ofList
      ((db.nodesOfType Rows.externalType).map fun row => (row.name, row.id)) ∧
    (db.nodesOfType Rows.componentType).mapM
      (Rows.toComponent (db.edgesOfType Rows.usesType)) = .ok document.graph.components := by
  unfold ofRows at h
  split at h
  · obtain ⟨hversion, h⟩ := not_and_of_check_eq_ok h
    obtain ⟨files, hfiles, h⟩ := exists_of_bind_eq_ok h
    dsimp only at h
    split at h
    · exact absurd h throw_ne_ok
    · obtain ⟨components, hcomponents, h⟩ := exists_of_bind_eq_ok h
      obtain rfl := Except.ok.inj h
      exact ⟨by simpa [isCurrent] using hversion, hfiles, rfl, hcomponents⟩
  · exact absurd h throw_ne_ok

/-- What is read from rows with distinct keys is storable. -/
theorem storable_of_ofRows (hkeys : (db.nodes.map NodeRow.key).Nodup)
    (h : ofRows db = .ok document) : document.Storable := by
  obtain ⟨hcurrent, hfiles, hexternals, hcomponents⟩ := ofRows_eq_ok h
  refine ⟨hcurrent, ?_, ?_, ?_, ?_⟩
  · rw [Rows.map_eq_of_mapM (fun _ _ hread => (Rows.of_toComponent hread).1) hcomponents]
    exact Database.nodup_nodesOfType hkeys _
  · rw [Rows.map_eq_of_mapM (fun _ _ => Rows.id_of_toFile) hfiles]
    exact Database.nodup_nodesOfType hkeys _
  · rw [hexternals]
    refine SymbolTable.nodup_ids_ofList ?_
    rw [List.map_map]
    exact Database.nodup_nodesOfType hkeys _
  · have hfits : document.graph.components.map Component.fits =
        (db.nodesOfType Rows.componentType).map fun _ => true :=
      Rows.map_eq_of_mapM (fun _ _ hread => (Rows.of_toComponent hread).2) hcomponents
    rw [fits, List.all_eq_true]
    intro c hc
    obtain ⟨_, -, hc⟩ := List.mem_map.mp (hfits ▸ List.mem_map_of_mem hc)
    exact hc.symm

/-- A document of the current version without repeated identifiers is read back from its rows and
from its JSON, and is loaded as it was saved in either format, from a database as long as no
directory is where its journal would be. What is read from rows, in which each sort and identifier
comes once, is such a document. -/
theorem storage_exact :
    (∀ document : Document, document.Storable →
      ofRows document.toRows = .ok document ∧ ofJson? document.toJson = some document ∧
      ∀ (store : GraphStore) (fs fs' : FileSystem), store.save document fs = (.ok (), fs') →
        (store.format = .sqlite → fs'.isDirectory (FileSystem.journalPath store.path) = false) →
        (store.load fs').1 = .ok document) ∧
    ∀ (db : Database) (document : Document), (db.nodes.map NodeRow.key).Nodup →
      ofRows db = .ok document → document.Storable ∧ ofRows document.toRows = .ok document := by
  refine ⟨fun document hstorable => ?_, fun db document hkeys hread => ?_⟩
  · refine ⟨hstorable.ofRows_toRows, hstorable.ofJson?_toJson, fun store fs fs' hsave hjournal => ?_⟩
    exact hstorable.load_of_save hsave (GraphStore.isBlocked_eq_false_of_save hsave hjournal)
  · have hstorable := storable_of_ofRows hkeys hread
    exact ⟨hstorable, hstorable.ofRows_toRows⟩

/-! ### Odd rows -/

/-- Rows with places that are negative or taken twice, with texts that are missing, with an external
name that comes twice, and with edges that start or end nowhere. -/
def oddRows : Database where
  metadata := [("schema_version", "1.0"), ("commit_hash", "")]
  nodes :=
    [⟨4, "c", Rows.componentType, "m.c", some "method", some "lost", some "gone", none,
        some ("\x7b\"spans\":[\x7b\"start\":7,\"end\":2\x7d],"
          ++ "\"referenced_symbols\":[\"print\"]\x7d")⟩,
      ⟨0, "x", Rows.externalType, "print", none, none, none, none, none⟩,
      ⟨0, "y", Rows.externalType, "print", none, none, none, none, none⟩,
      ⟨-1, "b", Rows.componentType, "m.b", some "class", some "f", none, some "b",
        some "\x7b\"referenced_symbols\":[],\"spans\":[]\x7d"⟩,
      ⟨9, "f", Rows.fileType, "m.py", none, none, none, none,
        some "[[],[\"print\"],[]]"⟩]
  edges :=
    [⟨"c", "y", Rows.externalType, Rows.usesType⟩, ⟨"ghost", "b", Rows.componentType, Rows.usesType⟩,
      ⟨"c", "nowhere", Rows.componentType, Rows.usesType⟩, ⟨"c", "b", "planet", "ORBITS"⟩,
      ⟨"c", "b", Rows.componentType, Rows.usesType⟩]

/-- The document of the odd rows. -/
def oddDocument : Document where
  schemaVersion := currentSchema
  repository := none
  commitHash := some ""
  graph :=
    { components :=
        [⟨"b", "m.b", "b", .type, "f", none, [], [], [], []⟩,
          ⟨"c", "m.c", "", .method, "lost", some "gone", [⟨7, 2⟩], ["nowhere", "b"], ["y"],
            ["print"]⟩]
      files := [⟨"f", "m.py", [], ["print"], [], ""⟩]
      externalSymbols := .ofList [("print", "x")] }

theorem storage_exact_oddRows :
    ofRows oddRows = .ok oddDocument ∧ ofRows oddDocument.toRows = .ok oddDocument ∧
      ofJson? oddDocument.toJson = some oddDocument := by
  have hread : ofRows oddRows = .ok oddDocument := by cbv
  obtain ⟨hstorable, hagain⟩ := storage_exact.2 oddRows oddDocument (by decide +kernel) hread
  exact ⟨hread, hagain, (storage_exact.1 oddDocument hstorable).2.1⟩

end Document

end CodeAtlas
