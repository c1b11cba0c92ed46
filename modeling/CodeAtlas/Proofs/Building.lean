import CodeAtlas.Builder
import CodeAtlas.Proofs.Linking
import Mathlib.Data.List.Find
import Mathlib.Data.List.Nodup

/-!
# What a build gives

The components of a build are those of its files, file by file: which others are built with a file
has no influence on the components it gives, before they are linked. Of components with one
identifier the first is kept, and all are linked against the names of the build and of its seed.

## Main definitions

* `ParsedFile.unlinked`: the components of one file, before they are linked.

## Main results

* `Identity.resolved_candidates`: the components of many files are those of each.
* `ParsedFile.mem_unlinked`: what the components of a file are.
* `Builder.components_assemble`, `Builder.nameTable_assemble`, `Builder.externals_assemble`: the
  components of a build, the names it knows and its external symbols.
-/

namespace CodeAtlas

/-! ### One file -/

namespace ParsedFile

/-- The identifier of a file. -/
def ident (fingerprint : Fingerprint) (file : ParsedFile) : FileId :=
  fingerprint file.relativePath file.text

/-- The components of a file, before they are linked. -/
def unlinked (fingerprint : Fingerprint) (file : ParsedFile) : List Component :=
  Identity.resolved fingerprint (Builder.candidatesOf 0 file) [file.ident fingerprint]

end ParsedFile

/-- The candidate in the file with another number. -/
def Candidate.inFile (index : Nat) (candidate : Candidate) : Candidate :=
  { candidate with registration := { candidate.registration with fileIndex := index } }

namespace Builder

/-- The candidates of a file do not depend on its place but for the number. -/
theorem candidatesOf_eq_map (index : Nat) (file : ParsedFile) :
    candidatesOf index file = (candidatesOf 0 file).map (Candidate.inFile index) := by
  unfold candidatesOf
  rw [List.map_filterMap]
  refine List.filterMap_congr fun named _ => ?_
  cases file.component? named.qualifiedName <;> rfl

theorem fileIndex_of_mem_candidatesOf {index : Nat} {file : ParsedFile} {candidate : Candidate}
    (h : candidate ∈ candidatesOf index file) : candidate.registration.fileIndex = index := by
  obtain ⟨named, -, hnamed⟩ := List.mem_filterMap.mp h
  obtain ⟨component, -, rfl⟩ := Option.map_eq_some_iff.mp hnamed
  rfl

end Builder

namespace Identity

variable (fingerprint : Fingerprint)

/-- A parent is looked up among the candidates of its own file. -/
theorem registeredId?_append {before own after : List Candidate} {index : Nat}
    (hbefore : ∀ c ∈ before, c.registration.fileIndex ≠ index)
    (hafter : ∀ c ∈ after, c.registration.fileIndex ≠ index) (name : String) :
    registeredId? fingerprint (before ++ own ++ after) index name =
      registeredId? fingerprint own index name := by
  have hnone : ∀ others : List Candidate, (∀ c ∈ others, c.registration.fileIndex ≠ index) →
      others.reverse.find? (fun c => key c == (index, name)) = none := by
    intro others hothers
    rw [List.find?_eq_none]
    intro c hc hkey
    exact hothers c (List.mem_reverse.mp hc) (congrArg Prod.fst (beq_iff_eq.mp hkey))
  rw [registeredId?, List.reverse_append, List.reverse_append, List.find?_append,
    List.find?_append, hnone after hafter, hnone before hbefore, Option.none_or, Option.or_none,
    registeredId?]

/-- The number of a file does not matter for finding a parent. -/
theorem registeredId?_candidatesOf (index : Nat) (file : ParsedFile) (name : String) :
    registeredId? fingerprint (Builder.candidatesOf index file) index name =
      registeredId? fingerprint (Builder.candidatesOf 0 file) 0 name := by
  have hkey : ∀ c ∈ (Builder.candidatesOf 0 file).reverse,
      ((fun candidate => key candidate == (index, name)) ∘ Candidate.inFile index) c =
      (key c == (0, name)) := by
    intro c hc
    have hzero := Builder.fileIndex_of_mem_candidatesOf (List.mem_reverse.mp hc)
    simp [key, Candidate.inFile, hzero]
  rw [registeredId?, registeredId?, Builder.candidatesOf_eq_map index, ← List.map_reverse,
    List.find?_map, List.find?_congr hkey, Option.bind_map]
  rfl

/-- The components of one of several files are those of the file. -/
theorem filterMap_candidatesOf {candidates : List Candidate} {fileIds : List FileId} {index : Nat}
    {file : ParsedFile} (hid : fileIds[index]? = some (file.ident fingerprint))
    (hparent : ∀ name, registeredId? fingerprint candidates index name =
      registeredId? fingerprint (Builder.candidatesOf index file) index name) :
    (Builder.candidatesOf index file).filterMap (fun candidate =>
      match candidate.assembly, fileIds[candidate.registration.fileIndex]? with
      | some assembly, some fileId =>
        some (componentOf fingerprint candidates candidate.registration assembly fileId)
      | _, _ => none) = file.unlinked fingerprint := by
  rw [ParsedFile.unlinked, resolved, Builder.candidatesOf_eq_map index, List.filterMap_map]
  refine List.filterMap_congr fun c hc => ?_
  have hzero := Builder.fileIndex_of_mem_candidatesOf hc
  have hparent' : ∀ name, registeredId? fingerprint candidates index name =
      registeredId? fingerprint (Builder.candidatesOf 0 file) 0 name :=
    fun name => (hparent name).trans (registeredId?_candidatesOf fingerprint index file name)
  cases hassembly : c.assembly with
  | none => simp [Candidate.inFile, hassembly]
  | some assembly =>
    simp [Candidate.inFile, hassembly, hid, hzero, componentOf, funext hparent']

/-- In the candidates of many files, those of a file stand alone with its number. -/
theorem registeredId?_candidates {files : List ParsedFile} {file : ParsedFile} {index : Nat}
    (h : (file, index) ∈ files.zipIdx) (name : String) :
    registeredId? fingerprint (Builder.candidates files) index name =
      registeredId? fingerprint (Builder.candidatesOf index file) index name := by
  obtain ⟨before, after, hsplit⟩ := List.append_of_mem h
  have hnodup : (files.zipIdx.map Prod.snd).Nodup := by
    rw [List.zipIdx_map_snd]
    exact List.nodup_range'
  rw [hsplit, List.map_append, List.map_cons, List.nodup_append, List.nodup_cons] at hnodup
  obtain ⟨-, ⟨hafter, -⟩, hbefore⟩ := hnodup
  have hothers : ∀ others : List (ParsedFile × Nat), index ∉ others.map Prod.snd →
      ∀ c ∈ others.flatMap (fun pair => Builder.candidatesOf pair.2 pair.1),
        c.registration.fileIndex ≠ index := by
    intro others hnot c hc heq
    obtain ⟨pair, hpair, hmem⟩ := List.mem_flatMap.mp hc
    rw [Builder.fileIndex_of_mem_candidatesOf hmem] at heq
    exact hnot (List.mem_map.mpr ⟨pair, hpair, heq⟩)
  rw [Builder.candidates, hsplit, List.flatMap_append, List.flatMap_cons, ← List.append_assoc]
  refine registeredId?_append fingerprint (hothers before fun hmem => ?_) (hothers after hafter) name
  exact hbefore index hmem index (by simp) rfl

/-- The components of many files are those of each file, in order. -/
theorem resolved_candidates (files : List ParsedFile) :
    resolved fingerprint (Builder.candidates files) (files.map (ParsedFile.ident fingerprint)) =
      files.flatMap (ParsedFile.unlinked fingerprint) := by
  have hzip : files.flatMap (ParsedFile.unlinked fingerprint) =
      files.zipIdx.flatMap fun pair => pair.1.unlinked fingerprint := by
    conv_lhs => rw [← List.zipIdx_map_fst 0 files, List.flatMap_map]
  rw [hzip, resolved]
  conv_lhs => rw [Builder.candidates, List.filterMap_flatMap]
  refine List.flatMap_congr fun pair hpair => ?_
  obtain ⟨file, index⟩ := pair
  refine filterMap_candidatesOf fingerprint ?_ (registeredId?_candidates fingerprint hpair)
  rw [List.getElem?_map, List.mk_mem_zipIdx_iff_getElem?.mp hpair, Option.map_some]

end Identity

/-! ### The components of a file -/

/-- The component without its links. -/
def Component.unlink (c : Component) : Component :=
  { c with linkedIds := [], externalIds := [] }

@[simp] theorem Component.unlink_linkedBy (known : NameTable) (table : SymbolTable)
    (c : Component) : (c.linkedBy known table).unlink = c.unlink := rfl

namespace ParsedFile

variable (fingerprint : Fingerprint) (file : ParsedFile)

/-- The component of what extraction found, with the given code. -/
def toComponent (parsed : ParsedComponent) (code : String) : Component :=
  Identity.componentOf fingerprint (Builder.candidatesOf 0 file)
    ⟨0, parsed.qualifiedName, parsed.kind, parsed.parent⟩
    ⟨code, parsed.spans, parsed.referencedSymbols⟩ (file.ident fingerprint)

theorem component?_mem {name : String} {parsed : ParsedComponent}
    (h : file.component? name = some parsed) :
    parsed ∈ file.components ∧ parsed.qualifiedName = name := by
  have hname := List.find?_some h
  exact ⟨List.mem_of_find?_eq_some h, beq_iff_eq.mp hname⟩

/-- Among components with distinct names each is found under its own. -/
theorem component?_of_nodup (h : (file.components.map (·.qualifiedName)).Nodup)
    {parsed : ParsedComponent} (hmem : parsed ∈ file.components) :
    file.component? parsed.qualifiedName = some parsed :=
  Keyed.find?_eq_some (fun c : ParsedComponent => c.qualifiedName) h hmem

/-- The components of a file are those that are found under their own names and have code. -/
theorem mem_unlinked {c : Component} :
    c ∈ file.unlinked fingerprint ↔
      ∃ parsed code, file.component? parsed.qualifiedName = some parsed ∧
        file.componentText parsed = .ok code ∧ c = file.toComponent fingerprint parsed code := by
  constructor
  · intro h
    obtain ⟨candidate, hcandidate, hc⟩ := List.mem_filterMap.mp h
    obtain ⟨named, -, hnamed⟩ := List.mem_filterMap.mp hcandidate
    obtain ⟨parsed, hparsed, rfl⟩ := Option.map_eq_some_iff.mp hnamed
    have hname := (file.component?_mem hparsed).2
    cases htext : file.componentText parsed with
    | error e => simp [Builder.assembly?, htext] at hc
    | ok code =>
      simp only [Builder.assembly?, htext, List.getElem?_cons_zero, Option.some.injEq] at hc
      exact ⟨parsed, code, hname ▸ hparsed, htext, hc.symm⟩
  · rintro ⟨parsed, code, hparsed, htext, rfl⟩
    refine List.mem_filterMap.mpr ⟨⟨⟨0, parsed.qualifiedName, parsed.kind, parsed.parent⟩,
      some ⟨code, parsed.spans, parsed.referencedSymbols⟩⟩, ?_, rfl⟩
    refine List.mem_filterMap.mpr ⟨parsed, (file.component?_mem hparsed).1, ?_⟩
    simp only [hparsed, Option.map_some, Builder.assembly?, htext]

/-- Components are not linked yet. -/
theorem unlink_of_mem_unlinked {c : Component} (hc : c ∈ file.unlinked fingerprint) :
    c.unlink = c := by
  obtain ⟨parsed, code, -, -, rfl⟩ := (file.mem_unlinked fingerprint).mp hc
  rfl

/-- The components of a file belong to it. -/
theorem fileId_of_mem_unlinked {c : Component} (hc : c ∈ file.unlinked fingerprint) :
    c.fileId = file.ident fingerprint := by
  obtain ⟨parsed, code, -, -, rfl⟩ := (file.mem_unlinked fingerprint).mp hc
  rfl

/-- Components of a file with one name are one component. -/
theorem eq_of_mem_unlinked {c d : Component} (hc : c ∈ file.unlinked fingerprint)
    (hd : d ∈ file.unlinked fingerprint) (h : c.qualifiedName = d.qualifiedName) : c = d := by
  obtain ⟨parsed, code, hparsed, hcode, rfl⟩ := (file.mem_unlinked fingerprint).mp hc
  obtain ⟨parsed', code', hparsed', hcode', rfl⟩ := (file.mem_unlinked fingerprint).mp hd
  have hname : parsed.qualifiedName = parsed'.qualifiedName := h
  rw [← hname, hparsed] at hparsed'
  obtain rfl := Option.some.inj hparsed'
  rw [hcode] at hcode'
  rw [Except.ok.inj hcode']

end ParsedFile

/-! ### Builds -/

namespace Builder

variable (builder : Builder) (files : List ParsedFile) (seed : LinkSeed)

/-- The build of a directory is that of the files collected there. -/
theorem buildDirectory_eq_ok {builder : Builder} {fs : FileSystem} {home directory : String}
    {supply : IdSupply} {output : BuildOutput}
    (h : builder.buildDirectory fs home directory supply = some (.ok output)) :
    ∃ collected, builder.collectFiles fs home directory = some collected ∧
      output = builder.buildFiles fs directory collected ⟨[], ⟨.empty, supply⟩⟩ := by
  unfold buildDirectory at h
  split at h
  · simp at h
  · obtain ⟨collected, hcollected, hbuilt⟩ := Option.map_eq_some_iff.mp h
    refine ⟨collected, hcollected, ?_⟩
    split at hbuilt
    · simp at hbuilt
    · exact (Except.ok.inj hbuilt).symm

/-- A directory with files to analyze is built. -/
theorem buildDirectory_of_collectFiles {builder : Builder} {fs : FileSystem}
    {home directory : String} {collected : List String}
    (hdirectory : fs.isDirectory directory = true)
    (hcollected : builder.collectFiles fs home directory = some collected) (hne : collected ≠ [])
    (supply : IdSupply) :
    builder.buildDirectory fs home directory supply =
      some (.ok (builder.buildFiles fs directory collected ⟨[], ⟨.empty, supply⟩⟩)) := by
  simp only [buildDirectory, hdirectory, Bool.not_true, Bool.false_eq_true, ↓reduceIte, hcollected,
    Option.map_some]

/-- The components of a build, before they are linked. -/
def unlinked (builder : Builder) (files : List ParsedFile) : List Component :=
  files.flatMap (ParsedFile.unlinked builder.fingerprint)

/-- The candidates of a build are resolved to its components. -/
theorem resolved_fileRecord :
    Identity.resolved builder.fingerprint (candidates files)
      ((files.map builder.fileRecord).map (·.id)) = builder.unlinked files := by
  have hids : (files.map builder.fileRecord).map (·.id) =
      files.map (ParsedFile.ident builder.fingerprint) := by
    rw [List.map_map]
    rfl
  rw [hids, Identity.resolved_candidates, unlinked]

theorem nameTable_assemble :
    (builder.assemble files seed).nameTable =
      seed.known.override (.ofPairs ((builder.unlinked files).map fun c =>
        (c.qualifiedName, c.id))) := by
  rw [← resolved_fileRecord]
  rfl

/-- Linking the components of a build. -/
theorem linkAll_assemble :
    linkAll (builder.assemble files seed).nameTable seed.externals
        (Identity.keepFirst (builder.unlinked files)) =
      ((builder.assemble files seed).graph.components,
        ⟨(builder.assemble files seed).graph.externalSymbols,
          (builder.assemble files seed).supply⟩, (builder.assemble files seed).stats.links) := by
  rw [← resolved_fileRecord]
  rfl

/-- The external symbols of a build are those of its seed and the names nobody knows. -/
theorem externals_assemble :
    Externals.mk (builder.assemble files seed).graph.externalSymbols
        (builder.assemble files seed).supply =
      seed.externals.internAll ((Identity.keepFirst (builder.unlinked files)).flatMap fun c =>
        unknownNames (builder.assemble files seed).nameTable c.referencedSymbols) := by
  rw [← linkAll_externals, linkAll_assemble]

/-- The components of a build are the first of each identifier, linked. -/
theorem components_assemble :
    (builder.assemble files seed).graph.components =
      (Identity.keepFirst (builder.unlinked files)).map
        (Component.linkedBy (builder.assemble files seed).nameTable
          (builder.assemble files seed).graph.externalSymbols) := by
  have hlinked := linkAll_fst (builder.assemble files seed).nameTable seed.externals
    (Identity.keepFirst (builder.unlinked files))
  rwa [linkAll_assemble] at hlinked

end Builder

end CodeAtlas
