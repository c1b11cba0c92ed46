import CodeAtlas.Proofs.ContentIds
import CodeAtlas.Proofs.ExternalIds

/-!
# The names of a build and the names of its graph

A name may be defined in several files. While a build links, the name stands for its last
definition. The graph keeps each component once, at its first place, so that looking a name up there
gives the definition that came up last for the first time. This is another one when the last
definition repeats an earlier one and a new one stands between them.

## Main definitions

* `codesOf`: the codes that define a name, file by file.

## Main results

* `Builder.find?_nameTable_assemble`: what a name stands for while a build links.
* `Builder.find?_nameTable_graph`: what it stands for in the graph.
* `Builder.name_tables_agree`: when the two are the same.
* `Builder.name_tables_differ`: three files for which they are not.
-/

namespace CodeAtlas

open Text (firstOccurrences mem_firstOccurrences)

/-! ### Lists in which entries are repeated -/

namespace Text

variable {α : Type} [BEq α] [LawfulBEq α]

theorem firstOccurrences_append_singleton (xs : List α) (x : α) :
    firstOccurrences (xs ++ [x]) =
      if x ∈ xs then firstOccurrences xs else firstOccurrences xs ++ [x] := by
  rw [firstOccurrences_eq_firsts, Keyed.firsts_append_singleton, ← firstOccurrences_eq_firsts]
  have hany : ((firstOccurrences xs).any fun y => id y == id x) = true ↔ x ∈ xs := by
    simp [mem_firstOccurrences]
  by_cases hx : x ∈ xs
  · rw [if_pos (hany.mpr hx), if_pos hx]
  · rw [if_neg (mt hany.mp hx), if_neg hx]

/-- An entry that is repeated at the end counts as if it stood there once. -/
theorem firstOccurrences_append_replicate (xs : List α) (x : α) (n : Nat) :
    firstOccurrences (xs ++ List.replicate (n + 1) x) = firstOccurrences (xs ++ [x]) := by
  induction n with
  | zero => rfl
  | succ n ih =>
    rw [List.replicate_succ', ← List.append_assoc, firstOccurrences_append_singleton,
      if_pos (by simp), ih]

end Text

/-- The entries are copies of a value, at least one, or there is neither. -/
def IsCopied {α : Type} (value : Option α) (copies : List α) : Prop :=
  ∀ x, x ∈ copies ↔ value = some x

theorem IsCopied.eq_nil {α : Type} {copies : List α} (h : IsCopied none copies) : copies = [] :=
  List.eq_nil_iff_forall_not_mem.mpr fun x hx => nomatch (h x).mp hx

theorem IsCopied.exists_replicate {α : Type} {x : α} {copies : List α}
    (h : IsCopied (some x) copies) : ∃ n, copies = List.replicate (n + 1) x := by
  obtain ⟨n, hn⟩ : ∃ n, copies.length = n + 1 :=
    Nat.exists_eq_add_one.mpr (List.length_pos_of_mem ((h x).mpr rfl))
  exact ⟨n, List.eq_replicate_iff.mpr ⟨hn, fun y hy => (Option.some.inj ((h y).mp hy)).symm⟩⟩

section Copies

variable {α β : Type} {value : α → Option β} {copies : α → List β} {xs : List α}

/-- The last of the copies is the last value. -/
theorem getLast?_flatMap_of_isCopied (h : ∀ x ∈ xs, IsCopied (value x) (copies x)) :
    (xs.flatMap copies).getLast? = (xs.filterMap value).getLast? := by
  induction xs using List.reverseRecOn with
  | nil => rfl
  | append_singleton xs x ih =>
    have hrest := ih fun y hy => h y (List.mem_append_left _ hy)
    have hlast := h x (by simp)
    rw [List.flatMap_append, List.filterMap_append]
    cases hvalue : value x with
    | none =>
      rw [hvalue] at hlast
      simp [hvalue, hlast.eq_nil, hrest]
    | some y =>
      rw [hvalue] at hlast
      obtain ⟨n, hn⟩ := hlast.exists_replicate
      simp [hvalue, hn, List.replicate_succ']

/-- The copies that count are the values that count. -/
theorem firstOccurrences_flatMap_of_isCopied [BEq β] [LawfulBEq β]
    (h : ∀ x ∈ xs, IsCopied (value x) (copies x)) :
    firstOccurrences (xs.flatMap copies) = firstOccurrences (xs.filterMap value) := by
  induction xs using List.reverseRecOn with
  | nil => rfl
  | append_singleton xs x ih =>
    have hrest := ih fun y hy => h y (List.mem_append_left _ hy)
    have hlast := h x (by simp)
    rw [List.flatMap_append, List.filterMap_append]
    cases hvalue : value x with
    | none =>
      rw [hvalue] at hlast
      simp [hvalue, hlast.eq_nil, hrest]
    | some y =>
      rw [hvalue] at hlast
      obtain ⟨n, hn⟩ := hlast.exists_replicate
      have hmem : y ∈ xs.flatMap copies ↔ y ∈ xs.filterMap value := by
        rw [← mem_firstOccurrences, hrest, mem_firstOccurrences]
      simp only [List.flatMap_cons, List.flatMap_nil, List.append_nil, hn, List.filterMap_cons,
        hvalue, List.filterMap_nil, Text.firstOccurrences_append_replicate,
        Text.firstOccurrences_append_singleton, hrest, hmem]

end Copies

/-! ### The definitions of a name -/

/-- The code of the component that a name stands for in a file, if it has any. -/
def ParsedFile.codeOf? (file : ParsedFile) (name : String) : Option String :=
  (file.component? name).bind fun component => (file.componentText component).toOption

/-- The code that a name stands for in a file is among the contents. -/
theorem ParsedFile.CodesIn.of_codeOf? {contents : Contents} {file : ParsedFile}
    (h : file.CodesIn contents) {name code : String} (hcode : file.codeOf? name = some code) :
    contents name code := by
  obtain ⟨parsed, hparsed, htext⟩ := Option.bind_eq_some_iff.mp hcode
  obtain ⟨hmem, rfl⟩ := file.component?_mem hparsed
  cases hfound : file.componentText parsed with
  | error failed => simp [hfound, Except.toOption] at htext
  | ok found =>
    obtain rfl : found = code := by simpa [hfound, Except.toOption] using htext
    exact h parsed hmem found hfound

/-- The codes that define a name, file by file. -/
def codesOf (files : List ParsedFile) (name : String) : List String :=
  files.filterMap fun file => file.codeOf? name

/-- The components with a name. -/
def withName (name : String) (components : List Component) : List Component :=
  components.filter (·.qualifiedName == name)

theorem mem_withName {name : String} {components : List Component} {c : Component} :
    c ∈ withName name components ↔ c ∈ components ∧ c.qualifiedName = name := by
  simp [withName]

/-- The components of a file with a name are copies of the one that the name stands for. -/
theorem ParsedFile.isCopied_codeOf? (fingerprint : Fingerprint) (file : ParsedFile)
    (name : String) :
    IsCopied (file.codeOf? name)
      ((withName name (file.unlinked fingerprint)).map (·.codeText)) := by
  intro text
  simp only [List.mem_map, mem_withName, codeOf?, Option.bind_eq_some_iff]
  constructor
  · rintro ⟨c, ⟨hc, rfl⟩, rfl⟩
    obtain ⟨parsed, code, hparsed, hcode, rfl⟩ := (file.mem_unlinked fingerprint).mp hc
    exact ⟨parsed, hparsed, by rw [hcode]; rfl⟩
  · rintro ⟨parsed, hparsed, htext⟩
    have hname := (file.component?_mem hparsed).2
    cases hcode : file.componentText parsed with
    | error failed => simp [hcode, Except.toOption] at htext
    | ok code =>
      obtain rfl : code = text := by simpa [hcode, Except.toOption] using htext
      refine ⟨file.toComponent fingerprint parsed code, ⟨?_, hname⟩, rfl⟩
      exact (file.mem_unlinked fingerprint).mpr ⟨parsed, code, hname ▸ hparsed, hcode, rfl⟩

/-! ### The two tables -/

/-- A table of names finds the last component with a name. -/
theorem NameTable.find?_ofPairs_components (components : List Component) (name : String) :
    find? (ofPairs (components.map fun c => (c.qualifiedName, c.id))) name =
      ((withName name components).map (·.id)).getLast? := by
  rw [find?, ofPairs, lookup_eq_find?, ← List.map_reverse, List.find?_map, Option.map_map,
    List.getLast?_map, withName, List.getLast?_eq_head?_reverse, ← List.filter_reverse,
    List.head?_filter]
  rfl

/-- Looking a component up by its name gives the one that the table of names has. -/
theorem CodeGraph.map_id_componentByName? (graph : CodeGraph) (name : String) :
    (graph.componentByName? name).map (·.id) = graph.nameTable.find? name := by
  rw [nameTable, NameTable.find?, NameTable.ofPairs, lookup_eq_find?, ← List.map_reverse,
    List.find?_map, Option.map_map, componentByName?]
  rfl

namespace Builder

variable {builder : Builder} {files : List ParsedFile}

theorem withName_unlinked (name : String) :
    (withName name (builder.unlinked files)).map (·.codeText) =
      files.flatMap fun file =>
        (withName name (file.unlinked builder.fingerprint)).map (·.codeText) := by
  rw [unlinked, withName, List.filter_flatMap, List.map_flatMap]
  rfl

/-- The identifiers of the components with a name come from their codes. -/
theorem map_id_withName (name : String) :
    (withName name (builder.unlinked files)).map (·.id) =
      ((withName name (builder.unlinked files)).map (·.codeText)).map
        (builder.fingerprint name) := by
  rw [List.map_map]
  refine List.map_congr_left fun c hc => ?_
  obtain ⟨hmem, rfl⟩ := mem_withName.mp hc
  obtain ⟨file, -, hfile⟩ := List.mem_flatMap.mp hmem
  obtain ⟨parsed, code, -, -, rfl⟩ := (file.mem_unlinked builder.fingerprint).mp hfile
  rfl

/-- While a build links, a name stands for its last definition. -/
theorem find?_nameTable_assemble (builder : Builder) (files : List ParsedFile)
    (externals : Externals) (name : String) :
    (builder.assemble files ⟨[], externals⟩).nameTable.find? name =
      (codesOf files name).getLast?.map (builder.fingerprint name) := by
  rw [nameTable_assemble, NameTable.find?_override, NameTable.find?_ofPairs_components,
    map_id_withName, List.getLast?_map, withName_unlinked,
    getLast?_flatMap_of_isCopied fun file _ => file.isCopied_codeOf? builder.fingerprint name]
  exact Option.or_none

section Kept

variable {contents : Contents} (hfree : builder.fingerprint.CollisionFree contents)
  (hcodes : ∀ file ∈ files, file.CodesIn contents)

include hfree hcodes

/-- The components with a name are kept among themselves. -/
theorem withName_keepFirst (name : String) :
    withName name (Identity.keepFirst (builder.unlinked files)) =
      Identity.keepFirst (withName name (builder.unlinked files)) := by
  refine Keyed.filter_firsts (fun c : Component => c.id) fun c hc d hd hid => ?_
  obtain ⟨hcid, hcmem⟩ := content_of_mem_unlinked hcodes hc
  obtain ⟨hdid, hdmem⟩ := content_of_mem_unlinked hcodes hd
  rw [hcid, hdid] at hid
  rw [(hfree _ _ _ _ hcmem hdmem hid).1]

/-- Codes of one name have different fingerprints. -/
theorem fingerprint_inj {name code code' : String} (hcode : code ∈ codesOf files name)
    (hcode' : code' ∈ codesOf files name)
    (h : builder.fingerprint name code = builder.fingerprint name code') : code = code' := by
  have hmem : ∀ {code : String}, code ∈ codesOf files name → contents name code := by
    intro code hcode
    obtain ⟨file, hfile, hfound⟩ := List.mem_filterMap.mp hcode
    exact (hcodes file hfile).of_codeOf? hfound
  exact (hfree _ _ _ _ (hmem hcode) (hmem hcode') h).2

/-- In the graph of a build, a name stands for the definition that came up last for the first
time. -/
theorem find?_nameTable_graph (seed : LinkSeed) (name : String) :
    (builder.assemble files seed).graph.nameTable.find? name =
      (firstOccurrences (codesOf files name)).getLast?.map (builder.fingerprint name) := by
  have hoccurrences : firstOccurrences ((withName name (builder.unlinked files)).map (·.codeText)) =
      firstOccurrences (codesOf files name) := by
    rw [withName_unlinked]
    exact firstOccurrences_flatMap_of_isCopied fun file _ =>
      file.isCopied_codeOf? builder.fingerprint name
  have hinjective : ∀ code ∈ (withName name (builder.unlinked files)).map (·.codeText),
      ∀ code' ∈ (withName name (builder.unlinked files)).map (·.codeText),
        builder.fingerprint name code = builder.fingerprint name code' → code = code' := by
    intro code hcode code' hcode' h
    rw [← mem_firstOccurrences, hoccurrences, mem_firstOccurrences] at hcode hcode'
    exact fingerprint_inj hfree hcodes hcode hcode' h
  have hkept : ((withName name (Identity.keepFirst (builder.unlinked files))).map (·.id)) =
      (firstOccurrences (codesOf files name)).map (builder.fingerprint name) := by
    have hids := Keyed.firsts_map id (fun c : Component => c.id)
      (withName name (builder.unlinked files))
    rw [← Text.firstOccurrences_eq_firsts] at hids
    rw [withName_keepFirst hfree hcodes, ← hoccurrences, ← Text.firstOccurrences_map hinjective,
      ← map_id_withName]
    exact hids.symm
  have hpairs : (builder.assemble files seed).graph.nameTable =
      .ofPairs ((Identity.keepFirst (builder.unlinked files)).map fun c =>
        (c.qualifiedName, c.id)) := by
    rw [CodeGraph.nameTable, components_assemble, List.map_map]
    rfl
  rw [hpairs, NameTable.find?_ofPairs_components, hkept, List.getLast?_map]

end Kept

/-- While a build links, a name stands for its last definition. In the graph, whose table of names
and whose search for a name agree, it stands for the definition that came up last for the first time.
The two are the same exactly if no other definition came up for the first time after the last one
did. -/
theorem name_tables_agree {fingerprint : Fingerprint} {contents : Contents} {builder : Builder}
    {fs : FileSystem} {directory : String} {paths : List String}
    (hfree : fingerprint.CollisionFree contents)
    (hworks : builder.WorksWith fingerprint contents fs directory paths) (externals : Externals)
    (name : String) :
    let output := builder.buildFiles fs directory paths ⟨[], externals⟩
    let codes := codesOf (builder.extractFiles fs directory paths) name
    output.nameTable.find? name = codes.getLast?.map (fingerprint name) ∧
    output.graph.nameTable.find? name =
      (firstOccurrences codes).getLast?.map (fingerprint name) ∧
    (output.graph.componentByName? name).map (·.id) = output.graph.nameTable.find? name ∧
    (output.nameTable.find? name = output.graph.nameTable.find? name ↔
      (firstOccurrences codes).getLast? = codes.getLast?) := by
  intro output codes
  obtain rfl := hworks.fingerprint_eq
  have hlinked : output.nameTable.find? name = codes.getLast?.map (builder.fingerprint name) :=
    find?_nameTable_assemble builder _ externals name
  have hgraph : output.graph.nameTable.find? name =
      (firstOccurrences codes).getLast?.map (builder.fingerprint name) :=
    find?_nameTable_graph hfree hworks.codes ⟨[], externals⟩ name
  refine ⟨hlinked, hgraph, output.graph.map_id_componentByName? name, ?_⟩
  rw [hlinked, hgraph, eq_comm]
  refine ⟨fun h => ?_, fun h => by rw [h]⟩
  cases hfirst : (firstOccurrences codes).getLast? with
  | none =>
    rw [hfirst] at h
    exact (Option.map_eq_none_iff.mp h.symm).symm
  | some code =>
    rw [hfirst] at h
    obtain ⟨code', hlast, hid⟩ := Option.map_eq_some_iff.mp h.symm
    have hcode : code ∈ codes := mem_firstOccurrences.mp (List.mem_of_getLast? hfirst)
    rw [hlast, fingerprint_inj hfree hworks.codes (List.mem_of_getLast? hlast) hcode hid]

/-! ### A definition that comes up again -/

/-- The text of the file is a definition of the one name there is. -/
def definitionFile (path text : String) : ParsedFile where
  relativePath := path
  moduleName := "m"
  text := text
  imports := []
  calledSymbols := []
  callableSymbols := []
  components := [⟨"m", .residual, none, [⟨0, text.utf8ByteSize⟩], []⟩]

/-- A builder that takes every file with the extension `mk` for a definition. -/
def definitionBuilder : Builder where
  config := .standard
  registry := ⟨[("mk", ⟨"definitions", fun path text => .ok (definitionFile path text)⟩)]⟩
  fingerprint := .verbatim
  excluded := []

/-- Three files, of which the last repeats the first. -/
def definitionTree : FileSystem where
  entries := [(["repo"], .directory), (["repo", "a.mk"], .file (.text "x")),
    (["repo", "b.mk"], .file (.text "y")), (["repo", "c.mk"], .file (.text "x"))]
  current := "/"

theorem worksWith_definitions (paths : List String) :
    definitionBuilder.WorksWith .verbatim .clear definitionTree "/repo" paths where
  fingerprint_eq := rfl
  codes := by
    intro file hfile c hc _ _
    obtain ⟨path, -, hextract⟩ := exists_extract_of_mem_extractFiles hfile
    obtain ⟨extractor, source, hextractor, -, hfound⟩ := extractFile_eq_ok hextract
    obtain ⟨extension, -, hlookup⟩ := Option.bind_eq_some_iff.mp hextractor
    have hmem : (Text.lower extension, extractor) ∈ definitionBuilder.registry.entries :=
      mem_of_lookup_eq_some hlookup
    obtain ⟨-, rfl⟩ := Prod.mk.inj (List.mem_singleton.mp hmem)
    obtain rfl := Except.ok.inj hfound
    obtain rfl := List.mem_singleton.mp hc
    exact show Text.Clear "m" by decide

/-- The build of some of the files. -/
def definitionBuild (paths : List String) : BuildOutput :=
  definitionBuilder.buildFiles definitionTree "/repo" paths ⟨[], ⟨.empty, ⟨0⟩⟩⟩

theorem name_tables_agree_definitions :
    (definitionBuild ["b.mk", "a.mk", "c.mk"]).nameTable.find? "m" = some "m\x00x" ∧
    (definitionBuild ["b.mk", "a.mk", "c.mk"]).graph.nameTable.find? "m" = some "m\x00x" := by
  have hagree := name_tables_agree Fingerprint.collisionFree_verbatim
    (worksWith_definitions ["b.mk", "a.mk", "c.mk"]) ⟨.empty, ⟨0⟩⟩ "m"
  have hcodes : codesOf (definitionBuilder.extractFiles definitionTree "/repo"
      ["b.mk", "a.mk", "c.mk"]) "m" = ["y", "x", "x"] := by decide +kernel
  rw [hcodes] at hagree
  exact ⟨hagree.1, hagree.2.1⟩

/-- If a definition is followed by another one and comes up again, the build links to it and the
graph finds the other one. -/
theorem name_tables_differ :
    ¬ ∀ (contents : Contents) (builder : Builder) (fs : FileSystem) (directory : String)
      (paths : List String) (externals : Externals) (name : String),
      builder.fingerprint.CollisionFree contents →
      builder.WorksWith builder.fingerprint contents fs directory paths →
      let output := builder.buildFiles fs directory paths ⟨[], externals⟩
      output.nameTable.find? name = output.graph.nameTable.find? name ∧
      (output.graph.componentByName? name).map (·.id) = output.nameTable.find? name := by
  intro hall
  have hsame := (hall .clear definitionBuilder definitionTree "/repo" ["a.mk", "b.mk", "c.mk"]
    ⟨.empty, ⟨0⟩⟩ "m" Fingerprint.collisionFree_verbatim (worksWith_definitions _)).1
  revert hsame
  decide +kernel

end Builder

end CodeAtlas
