import CodeAtlas.Document.Json
import CodeAtlas.Proofs.Json.RoundTrip
import CodeAtlas.Proofs.SymbolTable

/-!
# Documents are read back from JSON

The object of a document is decoded to the same document, unless an offset of a span is not a number
of 64 bits, in which case it is decoded to none. Every value in the object can be written, so the
same holds for the text of the object.

## Main results

* `Document.ofJson?_toJson`: decoding the object of a document.
* `Document.parse?_pretty_toJson`: reading the text of a document.
-/

namespace CodeAtlas

open Json (asText? asNat? asList? fields? required? optional? variant? Writable)

/-! ### Lists -/

/-- A list is read back when each of its items is, and is not when one of them is not. -/
theorem Json.mapM_map_guard {α : Type} {read : Json → Option α} {write : α → Json} {p : α → Bool}
    (h : ∀ x, read (write x) = Option.guard p x) (xs : List α) :
    (xs.map write).mapM read = Option.guard (·.all p) xs := by
  induction xs with
  | nil => rfl
  | cons x xs ih =>
    rw [List.map_cons, List.mapM_cons, ih, h]
    by_cases hx : p x = true
    · by_cases hxs : xs.all p = true <;> simp [Option.guard, hx, hxs]
    · simp [Option.guard, hx]

theorem Json.asList?_array {α : Type} {read : Json → Option α} {write : α → Json} {p : α → Bool}
    (h : ∀ x, read (write x) = Option.guard p x) (xs : List α) :
    asList? read (.array (xs.map write)) = Option.guard (·.all p) xs :=
  mapM_map_guard h xs

@[simp] theorem Json.asList?_texts (items : List String) :
    asList? asText? (.texts items) = some items := by
  have hitem : ∀ s : String, asText? (.string s) = Option.guard (fun _ => true) s := fun _ => rfl
  rw [texts, asList?_array hitem]
  simp [Option.guard]

/-! ### Parts of a document -/

/-- The offsets are numbers of 64 bits. -/
def Span.fits (span : Span) : Bool :=
  decide (span.start < Json.wordCount) && decide (span.stop < Json.wordCount)

/-- The offsets of all spans are numbers of 64 bits. -/
def Component.fits (c : Component) : Bool :=
  c.spans.all Span.fits

theorem Span.ofJson?_toJson (span : Span) : ofJson? span.toJson = Option.guard fits span := by
  have hfields : fields? ["start", "end"] span.toJson =
      some [some (.nat span.start), some (.nat span.stop)] := by
    simp [toJson, fields?, List.lookup_cons]
  by_cases hstart : span.start < Json.wordCount
  · by_cases hstop : span.stop < Json.wordCount <;>
      simp [ofJson?, hfields, required?, Json.asNat?_nat, Option.guard, fits,
        hstart, hstop]
  · simp [ofJson?, hfields, required?, Json.asNat?_nat, Option.guard, fits, hstart]

theorem ComponentKind.ofName?_name (kind : ComponentKind) : ofName? kind.name = some kind := by
  cases kind <;> rfl

theorem Json.textOrNone?_map (text : Option String) :
    textOrNone? (text.map .string) = some text := by
  cases text <;> rfl

theorem Component.fields?_toJson (c : Component) :
    fields? members c.toJson =
      some [some (.string c.id), some (.string c.qualifiedName), some (.string c.codeText),
        some (.string c.kind.name), some (.string c.fileId), c.parentId.map .string,
        some (.array (c.spans.map Span.toJson)), some (.texts c.linkedIds),
        some (.texts c.externalIds), some (.texts c.referencedSymbols)] := by
  cases hparent : c.parentId <;>
    simp [toJson, fields?, members, Json.optionalMember, hparent, List.lookup_cons]

theorem Component.ofJson?_toJson (c : Component) : ofJson? c.toJson = Option.guard fits c := by
  have hspans := Json.asList?_array Span.ofJson?_toJson c.spans
  by_cases hfits : c.spans.all Span.fits = true
  · rw [Option.guard, if_pos hfits] at hspans
    rw [Option.guard, fits, if_pos hfits]
    simp [ofJson?, fields?_toJson, Json.textOrNone?_map, Json.textsOrNone?, required?, optional?,
      variant?, asText?, ComponentKind.ofName?_name, hspans]
  · rw [Option.guard, if_neg hfits] at hspans
    rw [Option.guard, fits, if_neg hfits]
    simp [ofJson?, fields?_toJson, Json.textOrNone?_map, Json.textsOrNone?, required?, optional?,
      variant?, asText?, ComponentKind.ofName?_name, hspans]

theorem SourceFile.ofJson?_toJson (file : SourceFile) : ofJson? file.toJson = some file := by
  have hfields : fields? members file.toJson =
      some [some (.string file.id), some (.string file.relativePath), some (.texts file.imports),
        some (.texts file.calledSymbols), some (.texts file.callableSymbols),
        some (.string file.formattedText)] := by
    simp [toJson, fields?, members, List.lookup_cons]
  simp [ofJson?, hfields, required?, optional?, asText?, Json.textsOrNone?]

/-! ### External symbols -/

namespace SymbolTable

theorem insertEntry_of_lt {name : String} {id : ExternalId} {entries : List (String × ExternalId)}
    (h : ∀ entry ∈ entries, name < entry.1) :
    insertEntry name id entries = (name, id) :: entries := by
  cases entries with
  | nil => rfl
  | cons entry rest => rw [insertEntry, if_pos (h entry (by simp))]

/-- A table is made again from its entries, the greatest name first. -/
theorem ofList_reverse_entries (table : SymbolTable) : ofList table.entries.reverse = table := by
  obtain ⟨entries, hsorted⟩ := table
  induction entries with
  | nil => rfl
  | cons entry rest ih =>
    obtain ⟨hfirst, hrest⟩ := List.pairwise_cons.mp hsorted
    have htail : ofList rest.reverse = ⟨rest, hrest⟩ := ih hrest
    simp only [List.reverse_cons, ofList, List.foldl_append, List.foldl_cons, List.foldl_nil]
    rw [ofList] at htail
    rw [htail]
    simp only [insert, insertEntry_of_lt hfirst]

theorem ofJson?_toJson (table : SymbolTable) : ofJson? table.toJson = some table := by
  have hmembers : ∀ entries : List (String × ExternalId), Json.asMembers? asText?
      (.object (entries.map fun entry => (entry.1, Json.string entry.2))) = some entries := by
    intro entries
    rw [Json.asMembers?]
    induction entries with
    | nil => rfl
    | cons entry rest ih =>
      rw [List.map_cons, List.mapM_cons, ih]
      rfl
  have hread : Json.asMembers? asText? table.toJson = some table.entries := hmembers table.entries
  rw [ofJson?, hread, Option.map_some, ofList_reverse_entries]

end SymbolTable

/-! ### Documents -/

/-- The offsets of all spans in the document are numbers of 64 bits. -/
def Document.fits (document : Document) : Bool :=
  document.graph.components.all Component.fits

theorem CodeGraph.ofFields?_toMembers (graph : CodeGraph) :
    ofFields? (some (.array (graph.components.map Component.toJson)))
      (some (.array (graph.files.map SourceFile.toJson))) (some graph.externalSymbols.toJson) =
      Option.guard (·.components.all Component.fits) graph := by
  have hcomponents := Json.asList?_array Component.ofJson?_toJson graph.components
  have hfile : ∀ file : SourceFile, SourceFile.ofJson? file.toJson =
      Option.guard (fun _ => true) file := SourceFile.ofJson?_toJson
  have hfiles := Json.asList?_array hfile graph.files
  have hall : graph.files.all (fun _ => true) = true := by simp
  rw [Option.guard, if_pos hall] at hfiles
  by_cases hfits : graph.components.all Component.fits = true
  · rw [Option.guard, if_pos hfits] at hcomponents
    rw [Option.guard, if_pos hfits]
    simp [ofFields?, required?, hcomponents, hfiles, SymbolTable.ofJson?_toJson]
  · rw [Option.guard, if_neg hfits] at hcomponents
    rw [Option.guard, if_neg hfits]
    simp [ofFields?, required?, hcomponents]

/-- A document is decoded from its object, as long as its offsets fit. -/
theorem Document.ofJson?_toJson (document : Document) :
    ofJson? document.toJson = Option.guard fits document := by
  have hfields : fields? members document.toJson =
      some [some (.string document.schemaVersion), document.repository.map .string,
        document.commitHash.map .string,
        some (.array (document.graph.components.map Component.toJson)),
        some (.array (document.graph.files.map SourceFile.toJson)),
        some document.graph.externalSymbols.toJson] := by
    cases hrepository : document.repository <;> cases hcommit : document.commitHash <;>
      simp [toJson, fields?, members, Json.optionalMember, CodeGraph.toMembers, hrepository,
        hcommit, List.lookup_cons]
  have hgraph := CodeGraph.ofFields?_toMembers document.graph
  by_cases hfits : document.graph.components.all Component.fits = true
  · rw [Option.guard, if_pos hfits] at hgraph
    rw [Option.guard, fits, if_pos hfits]
    simp [ofJson?, hfields, required?, asText?, Json.textOrNone?_map, hgraph]
  · rw [Option.guard, if_neg hfits] at hgraph
    rw [Option.guard, fits, if_neg hfits]
    simp [ofJson?, hfields, required?, asText?, Json.textOrNone?_map, hgraph]

/-! ### Texts -/

theorem Json.writable_string (s : String) : Writable (.string s) := trivial

theorem Json.writable_texts (items : List String) : Writable (.texts items) := by
  rw [texts, Writable, writableItems_iff]
  intro item hitem
  obtain ⟨s, -, rfl⟩ := List.mem_map.mp hitem
  trivial

theorem Json.writable_array_map {α : Type} {write : α → Json} (h : ∀ x, Writable (write x))
    (xs : List α) : Writable (.array (xs.map write)) := by
  rw [Writable, writableItems_iff]
  intro item hitem
  obtain ⟨x, -, rfl⟩ := List.mem_map.mp hitem
  exact h x

theorem Span.writable_toJson (span : Span) : Writable span.toJson :=
  ⟨⟨span.start, rfl⟩, ⟨span.stop, rfl⟩, trivial⟩

theorem Component.writable_toJson (c : Component) : Writable c.toJson := by
  have hspans := Json.writable_array_map Span.writable_toJson c.spans
  rw [toJson, Writable, Json.writableMembers_iff]
  cases hparent : c.parentId <;>
    simp [Json.optionalMember, hspans, Json.writable_texts, Json.writable_string]

theorem SourceFile.writable_toJson (file : SourceFile) : Writable file.toJson := by
  rw [toJson, Writable, Json.writableMembers_iff]
  simp [Json.writable_texts, Json.writable_string]

theorem SymbolTable.writable_toJson (table : SymbolTable) : Writable table.toJson := by
  rw [toJson, Writable, Json.writableMembers_iff]
  intro entry hentry
  obtain ⟨e, -, rfl⟩ := List.mem_map.mp hentry
  trivial

theorem Document.writable_toJson (document : Document) : Writable document.toJson := by
  have hcomponents := Json.writable_array_map Component.writable_toJson document.graph.components
  have hfiles := Json.writable_array_map SourceFile.writable_toJson document.graph.files
  rw [toJson, Writable, Json.writableMembers_iff]
  cases hrepository : document.repository <;> cases hcommit : document.commitHash <;>
    simp [Json.optionalMember, CodeGraph.toMembers, hcomponents, hfiles,
      SymbolTable.writable_toJson, Json.writable_string]

/-- A document is read from its text, as long as its offsets fit. -/
theorem Document.parse?_pretty_toJson (document : Document) :
    (Json.parse? (document.toJson.pretty ++ "\n")).bind ofJson? = Option.guard fits document := by
  rw [Json.parse?_pretty document.writable_toJson, Option.bind_some, ofJson?_toJson]

end CodeAtlas
