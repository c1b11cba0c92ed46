import CodeAtlas.Proofs.Convergence
import CodeAtlas.Proofs.FilterLaws
import CodeAtlas.Proofs.Incremental
import CodeAtlas.Proofs.Parents

/-!
# Updates of filtered graphs

A graph that was filtered lacks the names of the components that were dropped. When it is updated and
filtered again, the files that are built anew are whole until the filter is applied, and the files
that are retained are not: a reference to a name that the filter dropped is answered if the name is
built anew, and is then pruned, and otherwise it becomes an external symbol. All else is as in a
filtered build: the components that are left, their parents and their links.

The invariant of a graph between an update and its filter is that it has some of its files sifted and
others whole. A fresh build is the case in which all files are whole.

## Main definitions

* `ParsedFile.sifted`: what a filter leaves of a file.
* `Sifts`: a graph has what a filter leaves of its files.
* `Blends`: a graph has some files sifted and others whole, and is linked.
* `CodeGraph.AgreesBeside`: two graphs differ in nothing but order, external identifiers, and some
  external names.
* `WorkTree.Conceals`: the names that make the difference.

## Main results

* `Mirrors.blends`, `Update.blends_apply`: builds, and updates of filtered graphs.
* `Blends.sifts`: what a filter makes of such a graph.
* `Blends.agreesBeside`: what a filter makes of two of them.
* `WorkTree.agreesBeside_update`: a filtered update against a filtered build.
-/

namespace CodeAtlas

open Text (firstOccurrences)

theorem Component.unlink_without (dropped : List ComponentId) (c : Component) :
    (c.without dropped).unlink = c.unlink.without dropped := rfl

/-! ### Filtered files -/

/-- What a filter leaves of the components of a file. -/
def ParsedFile.sifted (fingerprint : Fingerprint) (keep : String → Bool) (file : ParsedFile) :
    List Component :=
  filterComponents keep (file.unlinked fingerprint)

section Files

variable {parser : SyntaxParser} {fingerprint : Fingerprint} {contents : Contents}
  {keep : String → Bool} {file : ParsedFile} {components : List Component}
  {dropped dropped' : List ComponentId} {c d e : Component}

theorem ParsedFile.mem_sifted :
    c ∈ file.sifted fingerprint keep ↔
      ∃ d ∈ file.unlinked fingerprint, keep d.qualifiedName = true ∧
        d.without (droppedIds keep (file.unlinked fingerprint)) = c :=
  mem_filterComponents

/-- A sifted component has the name and the identifier of a component of the file. -/
theorem ParsedFile.exists_of_mem_sifted (h : c ∈ file.sifted fingerprint keep) :
    ∃ d ∈ file.unlinked fingerprint, keep d.qualifiedName = true ∧
      d.qualifiedName = c.qualifiedName ∧ d.id = c.id := by
  obtain ⟨d, hd, hkeep, rfl⟩ := mem_sifted.mp h
  exact ⟨d, hd, hkeep, rfl, rfl⟩

theorem ParsedFile.keep_of_mem_sifted (h : c ∈ file.sifted fingerprint keep) :
    keep c.qualifiedName = true := by
  obtain ⟨d, -, hkeep, rfl⟩ := mem_sifted.mp h
  exact hkeep

theorem ParsedFile.fileId_of_mem_sifted (h : c ∈ file.sifted fingerprint keep) :
    c.fileId = file.ident fingerprint := by
  obtain ⟨d, hd, -, rfl⟩ := mem_sifted.mp h
  have hfileId : d.fileId = file.ident fingerprint := file.fileId_of_mem_unlinked fingerprint hd
  exact hfileId

/-- Of a component of a file nothing but the parent is taken away, which is in the file as well. -/
theorem ParsedFile.without_congr (hd : d ∈ file.unlinked fingerprint)
    (h : ∀ e ∈ file.unlinked fingerprint, e.id ∈ dropped ↔ e.id ∈ dropped') :
    d.without dropped = d.without dropped' := by
  have hlinks : d.linkedIds = [] := by
    rw [← file.unlink_of_mem_unlinked fingerprint hd]
    rfl
  have hparent : d.parentId.filter (fun parent => !dropped.contains parent) =
      d.parentId.filter fun parent => !dropped'.contains parent := by
    cases hset : d.parentId with
    | none => rfl
    | some parent =>
      obtain ⟨e, he, rfl⟩ := exists_parent hd hset
      have hsame : dropped.contains e.id = dropped'.contains e.id := by
        rw [Bool.eq_iff_iff, List.contains_iff_mem, List.contains_iff_mem]
        exact h e he
      simp only [Option.filter_some, hsame]
  simp only [Component.without, hlinks, hparent, List.filter_nil]

/-- A component that has the identifier of a component of the file has its name. -/
theorem ParsedFile.Sourced.name_eq (hfree : fingerprint.CollisionFree contents)
    (h : file.Sourced parser contents)
    (hids : Identified fingerprint contents components) (hc : c ∈ components)
    (he : e ∈ file.unlinked fingerprint) (hid : c.id = e.id) :
    c.qualifiedName = e.qualifiedName := by
  have hcode := h.codes.of_mem_unlinked he
  obtain ⟨parsed, code, -, -, rfl⟩ := (file.mem_unlinked fingerprint).mp he
  rw [hids.id_eq c hc] at hid
  exact (hfree _ _ _ _ (hids.code_mem c hc) hcode hid).1

/-- What is dropped from identified components under an identifier of the file has a dropped name. -/
theorem ParsedFile.Sourced.keep_of_mem_droppedIds (hfree : fingerprint.CollisionFree contents)
    (h : file.Sourced parser contents) (hids : Identified fingerprint contents components)
    (he : e ∈ file.unlinked fingerprint) (hdropped : e.id ∈ droppedIds keep components) :
    keep e.qualifiedName = false := by
  obtain ⟨c, hc, hkeep, hid⟩ := mem_droppedIds.mp hdropped
  rwa [h.name_eq hfree hids hc he hid] at hkeep

theorem ParsedFile.Sourced.mem_droppedIds_unlinked (hfree : fingerprint.CollisionFree contents)
    (h : file.Sourced parser contents) (he : e ∈ file.unlinked fingerprint) :
    e.id ∈ droppedIds keep (file.unlinked fingerprint) ↔ keep e.qualifiedName = false := by
  refine ⟨fun hdropped => ?_, fun hkeep => mem_droppedIds.mpr ⟨e, he, hkeep, rfl⟩⟩
  obtain ⟨d, hd, hkeep, hid⟩ := mem_droppedIds.mp hdropped
  rwa [(h.content_eq hfree h hd he hid).1] at hkeep

/-- A filter that drops the names of the file leaves its sifted components. -/
theorem ParsedFile.Sourced.without_mem_sifted (hfree : fingerprint.CollisionFree contents)
    (h : file.Sourced parser contents) (hd : d ∈ file.unlinked fingerprint)
    (hkeep : keep d.qualifiedName = true)
    (hdropped : ∀ e ∈ file.unlinked fingerprint,
      e.id ∈ dropped ↔ keep e.qualifiedName = false) :
    d.without dropped ∈ file.sifted fingerprint keep := by
  refine mem_sifted.mpr ⟨d, hd, hkeep, without_congr hd fun e he => ?_⟩
  rw [h.mem_droppedIds_unlinked hfree he, hdropped e he]

/-- From sifted components nothing is taken away again. -/
theorem ParsedFile.Sourced.without_of_mem_sifted (hfree : fingerprint.CollisionFree contents)
    (h : file.Sourced parser contents) (hc : c ∈ file.sifted fingerprint keep)
    (hdropped : ∀ e ∈ file.unlinked fingerprint, e.id ∈ dropped → keep e.qualifiedName = false) :
    c.without dropped = c := by
  obtain ⟨d, hd, -, rfl⟩ := mem_sifted.mp hc
  rw [d.without_without]
  refine without_congr hd fun e he => ?_
  rw [List.mem_append, or_iff_left_iff_imp, h.mem_droppedIds_unlinked hfree he]
  exact hdropped e he

/-- A name is not given by a file of the first list and one of the second. -/
theorem DistinctNames.name_ne_of_append {files others : List ParsedFile}
    (h : DistinctNames (files ++ others)) {file other : ParsedFile} (hfile : file ∈ files)
    (hother : other ∈ others) {d e : Component} (hd : d ∈ file.unlinked fingerprint)
    (he : e ∈ other.unlinked fingerprint) : d.qualifiedName ≠ e.qualifiedName := by
  obtain ⟨parsed, code, hparsed, -, rfl⟩ := (file.mem_unlinked fingerprint).mp hd
  obtain ⟨parsed', code', hparsed', -, rfl⟩ := (other.mem_unlinked fingerprint).mp he
  exact (List.pairwise_append.mp h).2.2 file hfile other hother parsed
    (file.component?_mem hparsed).1 parsed' (other.component?_mem hparsed').1

end Files

/-! ### Filtered graphs -/

/-- The graph has the files, what a filter leaves of their components and nothing else, whatever its
links are. -/
structure Sifts (fingerprint : Fingerprint) (contents : Contents) (keep : String → Bool)
    (files : List ParsedFile) (graph : CodeGraph) : Prop where
  files_eq : graph.files = files.map (ParsedFile.record fingerprint)
  identified : Identified fingerprint contents graph.components
  extracted : ∀ c ∈ graph.components, ∃ file ∈ files, c.unlink ∈ file.sifted fingerprint keep
  complete : ∀ file ∈ files, ∀ d ∈ file.sifted fingerprint keep,
    ∃ c ∈ graph.components, c.unlink = d

/-- The components whose names are known where some files are sifted and others whole. -/
def blendedComponents (fingerprint : Fingerprint) (keep : String → Bool)
    (sifted whole : List ParsedFile) : List Component :=
  ((sifted.flatMap (ParsedFile.unlinked fingerprint)).filter fun d => keep d.qualifiedName) ++
    whole.flatMap (ParsedFile.unlinked fingerprint)

/-- The graph has some files sifted and others whole, and its components are linked against the names
it has. -/
structure Blends (fingerprint : Fingerprint) (contents : Contents) (keep : String → Bool)
    (sifted whole : List ParsedFile) (graph : CodeGraph) : Prop where
  files_eq : graph.files = (sifted ++ whole).map (ParsedFile.record fingerprint)
  identified : Identified fingerprint contents graph.components
  extracted : ∀ c ∈ graph.components,
    (∃ file ∈ sifted, c.unlink ∈ file.sifted fingerprint keep) ∨
      ∃ file ∈ whole, c.unlink ∈ file.unlinked fingerprint
  complete_sifted : ∀ file ∈ sifted, ∀ d ∈ file.sifted fingerprint keep,
    ∃ c ∈ graph.components, c.unlink = d
  complete_whole : ∀ file ∈ whole, ∀ d ∈ file.unlinked fingerprint,
    ∃ c ∈ graph.components, c.unlink = d
  linked : ∃ known : NameTable,
    (∀ name id, known.find? name = some id ↔
      ∃ d ∈ blendedComponents fingerprint keep sifted whole, d.qualifiedName = name ∧ d.id = id) ∧
    ∀ c ∈ graph.components, LinkedIn known graph.externalSymbols c

/-- A graph that mirrors files has them whole. -/
theorem Mirrors.blends {fingerprint : Fingerprint} {contents : Contents} {files : List ParsedFile}
    {graph : CodeGraph} (h : Mirrors fingerprint contents files graph) (keep : String → Bool) :
    Blends fingerprint contents keep [] files graph where
  files_eq := h.portrays.files_eq
  identified := h.portrays.identified
  extracted := fun c hc => Or.inr (h.portrays.extracted c hc)
  complete_sifted := fun _ hfile => absurd hfile List.not_mem_nil
  complete_whole := h.complete
  linked := h.linked

namespace Blends

variable {parser : SyntaxParser} {fingerprint : Fingerprint} {contents : Contents}
  {keep : String → Bool} {sifted whole : List ParsedFile} {graph : CodeGraph} {d : Component}

/-- A filter drops a component of a whole file if it drops its name. -/
theorem mem_droppedIds_whole (hfree : fingerprint.CollisionFree contents)
    (hsourced : ∀ file ∈ sifted ++ whole, file.Sourced parser contents)
    (h : Blends fingerprint contents keep sifted whole graph) {file : ParsedFile}
    (hfile : file ∈ whole)
    (hd : d ∈ file.unlinked fingerprint) :
    d.id ∈ droppedIds keep graph.components ↔ keep d.qualifiedName = false := by
  refine ⟨(hsourced file (List.mem_append_right _ hfile)).keep_of_mem_droppedIds hfree h.identified
    hd, fun hkeep => ?_⟩
  obtain ⟨c, hc, rfl⟩ := h.complete_whole file hfile d hd
  exact mem_droppedIds.mpr ⟨c, hc, hkeep, rfl⟩

/-- What a filter leaves of such a graph is what it leaves of its files. -/
theorem sifts (hfree : fingerprint.CollisionFree contents)
    (hsourced : ∀ file ∈ sifted ++ whole, file.Sourced parser contents)
    (h : Blends fingerprint contents keep sifted whole graph) :
    Sifts fingerprint contents keep (sifted ++ whole) (graph.filter keep) where
  files_eq := h.files_eq
  identified := CodeGraph.identified_filter h.identified keep
  extracted := by
    intro c hc
    obtain ⟨d, hd, hkeep, rfl⟩ := mem_filterComponents.mp hc
    rw [Component.unlink_without]
    rcases h.extracted d hd with ⟨file, hfile, hmem⟩ | ⟨file, hfile, hmem⟩
    · have hin : file ∈ sifted ++ whole := List.mem_append_left _ hfile
      refine ⟨file, hin, ?_⟩
      rwa [(hsourced file hin).without_of_mem_sifted hfree hmem fun e he =>
        (hsourced file hin).keep_of_mem_droppedIds hfree h.identified he]
    · have hin : file ∈ sifted ++ whole := List.mem_append_right _ hfile
      exact ⟨file, hin, (hsourced file hin).without_mem_sifted hfree hmem hkeep fun e he =>
        h.mem_droppedIds_whole hfree hsourced hfile he⟩
  complete := by
    intro file hfile d hd
    have hsource := hsourced file hfile
    rcases List.mem_append.mp hfile with hin | hin
    · obtain ⟨c, hc, rfl⟩ := h.complete_sifted file hin d hd
      have hkeep : keep c.unlink.qualifiedName = true := ParsedFile.keep_of_mem_sifted hd
      refine ⟨c.without (droppedIds keep graph.components), mem_filterComponents.mpr
        ⟨c, hc, hkeep, rfl⟩, ?_⟩
      rw [Component.unlink_without]
      exact hsource.without_of_mem_sifted hfree hd fun e he =>
        hsource.keep_of_mem_droppedIds hfree h.identified he
    · obtain ⟨e, he, hkeep, rfl⟩ := ParsedFile.mem_sifted.mp hd
      obtain ⟨c, hc, rfl⟩ := h.complete_whole file hin e he
      refine ⟨c.without (droppedIds keep graph.components), mem_filterComponents.mpr
        ⟨c, hc, hkeep, rfl⟩, ?_⟩
      rw [Component.unlink_without]
      refine ParsedFile.without_congr he fun e' he' => ?_
      rw [h.mem_droppedIds_whole hfree hsourced hin he', hsource.mem_droppedIds_unlinked hfree he']

end Blends

/-! ### Links and names -/

/-- The entries of a table whose names pass a filter. -/
def NameTable.only (keep : String → Bool) (known : NameTable) : NameTable :=
  known.filter fun entry => keep entry.1

theorem NameTable.find?_only (keep : String → Bool) (known : NameTable) (name : String) :
    (known.only keep).find? name = if keep name then known.find? name else none := by
  have hentry : ∀ entry : String × ComponentId,
      (keep entry.1 = true ∧ (entry.1 == name) = true) ↔
        (keep name = true ∧ (entry.1 == name) = true) := by
    intro entry
    refine and_congr_left fun hname => ?_
    rw [beq_iff_eq.mp hname]
  rw [find?, only, lookup_eq_find?, List.find?_filter]
  simp only [hentry]
  cases keep name with
  | true => simp only [find?, lookup_eq_find?, true_and, Bool.decide_eq_true, ↓reduceIte]
  | false => simp

/-- A filter leaves the links to the names that pass it. -/
theorem LinkedIn.linkedIds_without {known : NameTable} {table : SymbolTable} {c : Component}
    (h : LinkedIn known table c) {keep : String → Bool} {dropped : List ComponentId}
    (hdropped : ∀ name id, known.find? name = some id → (id ∈ dropped ↔ keep name = false)) :
    (c.without dropped).linkedIds =
      internalTargets (known.only keep) c.id c.referencedSymbols := by
  have hlinks : (c.without dropped).linkedIds =
      (internalTargets known c.id c.referencedSymbols).filter
        fun target => !dropped.contains target := by
    rw [← h.linkedIds_eq]
    rfl
  rw [hlinks, filter_internalTargets, internalTargets]
  congr 2
  funext symbol
  rw [NameTable.find?_only]
  cases hfound : known.find? symbol with
  | none => simp
  | some id =>
    have hid := hdropped symbol id hfound
    cases hkeep : keep symbol <;> simp_all [Option.filter]

namespace Blends

variable {parser : SyntaxParser} {fingerprint : Fingerprint} {contents : Contents}
  {keep : String → Bool} {sifted whole : List ParsedFile} {graph : CodeGraph}

/-- The names that are known are those of the files, but for those that a filter drops from the
sifted ones. -/
theorem exists_known_iff (hdistinct : DistinctNames (sifted ++ whole)) {known : NameTable}
    (hknown : ∀ name id, known.find? name = some id ↔
      ∃ d ∈ blendedComponents fingerprint keep sifted whole, d.qualifiedName = name ∧ d.id = id)
    (name : String) (id : ComponentId) :
    known.find? name = some id ↔
      (∃ d ∈ (sifted ++ whole).flatMap (ParsedFile.unlinked fingerprint),
        d.qualifiedName = name ∧ d.id = id) ∧
      ¬ (keep name = false ∧
        ∃ d ∈ sifted.flatMap (ParsedFile.unlinked fingerprint), d.qualifiedName = name) := by
  rw [hknown, List.flatMap_append]
  constructor
  · rintro ⟨d, hd, rfl, rfl⟩
    rcases List.mem_append.mp hd with hsifted | hwhole
    · obtain ⟨hmem, hkeep⟩ := List.mem_filter.mp hsifted
      exact ⟨⟨d, List.mem_append_left _ hmem, rfl, rfl⟩, fun hhidden => by simp_all⟩
    · refine ⟨⟨d, List.mem_append_right _ hwhole, rfl, rfl⟩, ?_⟩
      rintro ⟨-, e, he, hname⟩
      obtain ⟨file, hfile, hefile⟩ := List.mem_flatMap.mp he
      obtain ⟨other, hother, hdother⟩ := List.mem_flatMap.mp hwhole
      exact hdistinct.name_ne_of_append hfile hother hefile hdother hname
  · rintro ⟨⟨d, hd, rfl, rfl⟩, hhidden⟩
    refine ⟨d, List.mem_append.mpr ?_, rfl, rfl⟩
    rcases List.mem_append.mp hd with hsifted | hwhole
    · refine Or.inl (List.mem_filter.mpr ⟨hsifted, ?_⟩)
      by_contra hkeep
      exact hhidden ⟨by simpa using hkeep, d, hsifted, rfl⟩
    · exact Or.inr hwhole

/-- A name is not known if no file gives it, or if it is dropped from a sifted one. -/
theorem find?_eq_none_iff (hdistinct : DistinctNames (sifted ++ whole)) {known : NameTable}
    (hknown : ∀ name id, known.find? name = some id ↔
      ∃ d ∈ blendedComponents fingerprint keep sifted whole, d.qualifiedName = name ∧ d.id = id)
    (name : String) :
    known.find? name = none ↔
      (¬ ∃ d ∈ (sifted ++ whole).flatMap (ParsedFile.unlinked fingerprint),
        d.qualifiedName = name) ∨
      keep name = false ∧
        ∃ d ∈ sifted.flatMap (ParsedFile.unlinked fingerprint), d.qualifiedName = name := by
  rw [← not_iff_not, not_or, not_not, ← ne_eq, Option.ne_none_iff_exists']
  simp only [exists_known_iff hdistinct hknown]
  constructor
  · rintro ⟨id, ⟨d, hd, hname, -⟩, hhidden⟩
    exact ⟨⟨d, hd, hname⟩, hhidden⟩
  · rintro ⟨⟨d, hd, hname⟩, hhidden⟩
    exact ⟨d.id, ⟨d, hd, hname, rfl⟩, hhidden⟩

/-- A filter drops what is known under a name if it drops the name. -/
theorem mem_droppedIds_blended (hfree : fingerprint.CollisionFree contents)
    (hsourced : ∀ file ∈ sifted ++ whole, file.Sourced parser contents)
    (h : Blends fingerprint contents keep sifted whole graph) {d : Component}
    (hd : d ∈ blendedComponents fingerprint keep sifted whole) :
    d.id ∈ droppedIds keep graph.components ↔ keep d.qualifiedName = false := by
  rcases List.mem_append.mp hd with hsifted | hwhole
  · obtain ⟨hmem, hkeep⟩ := List.mem_filter.mp hsifted
    obtain ⟨file, hfile, hdfile⟩ := List.mem_flatMap.mp hmem
    refine ⟨(hsourced file (List.mem_append_left _ hfile)).keep_of_mem_droppedIds hfree h.identified
      hdfile, fun hdrop => ?_⟩
    rw [hkeep] at hdrop
    cases hdrop
  · obtain ⟨file, hfile, hdfile⟩ := List.mem_flatMap.mp hwhole
    exact h.mem_droppedIds_whole hfree hsourced hfile hdfile

/-- What a filter leaves is linked to the names that pass it, and its external edges stand for the
references that were not known before. -/
theorem linked_filter (hfree : fingerprint.CollisionFree contents)
    (hsourced : ∀ file ∈ sifted ++ whole, file.Sourced parser contents)
    (h : Blends fingerprint contents keep sifted whole graph) :
    ∃ known : NameTable,
      (∀ name id, known.find? name = some id ↔ ∃ d ∈ blendedComponents fingerprint keep sifted
        whole, d.qualifiedName = name ∧ d.id = id) ∧
      ∀ c ∈ (graph.filter keep).components,
        c.linkedIds = internalTargets (known.only keep) c.id c.referencedSymbols ∧
        c.externalIds.map graph.externalSymbols.nameOf? =
          (firstOccurrences (unknownNames known c.referencedSymbols)).map some := by
  obtain ⟨known, hknown, hlinked⟩ := h.linked
  refine ⟨known, hknown, fun c hc => ?_⟩
  obtain ⟨d, hd, -, rfl⟩ := mem_filterComponents.mp hc
  refine ⟨(hlinked d hd).linkedIds_without fun name id hfound => ?_, (hlinked d hd).names_eq⟩
  obtain ⟨e, he, rfl, rfl⟩ := (hknown name id).mp hfound
  exact h.mem_droppedIds_blended hfree hsourced he

end Blends

/-! ### Agreement -/

namespace CodeGraph

/-- The names that the external edges of a component stand for. -/
def externalNames (graph : CodeGraph) (c : Component) : List (Option String) :=
  c.externalIds.map graph.externalSymbols.nameOf?

/-- The graphs have, in some order, the same files and, but for external edges, the same components.
All external edges of the first stand for names: those that they stand for in the second, in the same
order, and besides them the hidden names that the component refers to. -/
structure AgreesBeside (hidden : String → Prop) (graph other : CodeGraph) : Prop where
  files_perm : graph.files.Perm other.files
  components_perm : (graph.components.map fun c => { c with externalIds := [] }).Perm
    (other.components.map fun c => { c with externalIds := [] })
  names_found : ∀ c ∈ graph.components, none ∉ graph.externalNames c
  names_sublist : ∀ c ∈ graph.components, ∀ d ∈ other.components, c.id = d.id →
    (other.externalNames d).Sublist (graph.externalNames c)
  mem_names : ∀ c ∈ graph.components, ∀ d ∈ other.components, c.id = d.id → ∀ name,
    some name ∈ graph.externalNames c ↔
      some name ∈ other.externalNames d ∨ hidden name ∧ name ∈ c.referencedSymbols

end CodeGraph

/-- Where more is known, fewer references are unknown, in the same order. -/
theorem firstOccurrences_unknownNames_sublist {known known' : NameTable}
    (h : ∀ name, known'.find? name = none → known.find? name = none) (references : List String) :
    (firstOccurrences (unknownNames known' references)).Sublist
      (firstOccurrences (unknownNames known references)) := by
  have hfilter : unknownNames known' references =
      (unknownNames known references).filter fun name => (known'.find? name).isNone := by
    rw [unknownNames, unknownNames, List.filter_filter]
    refine List.filter_congr fun name _ => ?_
    cases hfound : known'.find? name with
    | none => simp [h name hfound]
    | some id => rfl
  rw [hfilter, ← Text.filter_firstOccurrences]
  exact List.filter_sublist

namespace Sifts

variable {fingerprint : Fingerprint} {contents : Contents} {keep : String → Bool}
  {files files' : List ParsedFile} {graph graph' : CodeGraph} {c d : Component}

theorem exists_unlink_eq (h : Sifts fingerprint contents keep files graph)
    (h' : Sifts fingerprint contents keep files' graph') (hperm : files.Perm files')
    (hc : c ∈ graph.components) : ∃ d ∈ graph'.components, d.unlink = c.unlink := by
  obtain ⟨file, hfile, hmem⟩ := h.extracted c hc
  exact h'.complete file (hperm.mem_iff.mp hfile) c.unlink hmem

/-- Components with one identifier differ in their links only. -/
theorem unlink_eq (h : Sifts fingerprint contents keep files graph)
    (h' : Sifts fingerprint contents keep files' graph') (hperm : files.Perm files')
    (hc : c ∈ graph.components) (hd : d ∈ graph'.components) (hid : c.id = d.id) :
    d.unlink = c.unlink := by
  obtain ⟨e, he, hunlink⟩ := h.exists_unlink_eq h' hperm hc
  have hsame : e.unlink.id = c.unlink.id := by rw [hunlink]
  rwa [← List.inj_on_of_nodup_map h'.identified.nodup he hd (hsame.trans hid)]

/-- Components with the same links are the same but for their external edges. -/
theorem mem_map_bare (h : Sifts fingerprint contents keep files graph)
    (h' : Sifts fingerprint contents keep files' graph') (hperm : files.Perm files')
    (hlinks : ∀ c ∈ graph.components, ∀ d ∈ graph'.components, d.unlink = c.unlink →
      d.linkedIds = c.linkedIds) {bare : Component}
    (hbare : bare ∈ graph.components.map fun c => { c with externalIds := [] }) :
    bare ∈ graph'.components.map fun c => { c with externalIds := [] } := by
  obtain ⟨c, hc, rfl⟩ := List.mem_map.mp hbare
  obtain ⟨d, hd, hunlink⟩ := h.exists_unlink_eq h' hperm hc
  refine List.mem_map.mpr ⟨d, hd, ?_⟩
  calc ({ d with externalIds := [] } : Component)
      = { d.unlink with linkedIds := d.linkedIds } := rfl
    _ = { c.unlink with linkedIds := c.linkedIds } := by rw [hunlink, hlinks c hc d hd hunlink]
    _ = { c with externalIds := [] } := rfl

theorem nodup_map_bare (h : Sifts fingerprint contents keep files graph) :
    (graph.components.map fun c => { c with externalIds := [] }).Nodup := by
  have hids : ((graph.components.map fun c => { c with externalIds := [] }).map (·.id)).Nodup := by
    rw [List.map_map]
    exact h.identified.nodup
  exact hids.of_map

end Sifts

namespace Blends

variable {parser : SyntaxParser} {fingerprint : Fingerprint} {contents : Contents}
  {keep : String → Bool} {sifted whole files : List ParsedFile} {graph graph' : CodeGraph}

section Tables

variable {known known' : NameTable}

/-- With the same files, of which some are sifted or all are whole, the tables know the same names
among those that pass the filter. -/
theorem find?_only_eq (hdistinct : DistinctNames (sifted ++ whole))
    (hperm : (sifted ++ whole).Perm files)
    (hknown : ∀ name id, known.find? name = some id ↔
      ∃ d ∈ blendedComponents fingerprint keep sifted whole, d.qualifiedName = name ∧ d.id = id)
    (hknown' : ∀ name id, known'.find? name = some id ↔
      ∃ d ∈ blendedComponents fingerprint keep [] files, d.qualifiedName = name ∧ d.id = id)
    (name : String) : (known.only keep).find? name = (known'.only keep).find? name := by
  rw [NameTable.find?_only, NameTable.find?_only]
  cases hkeep : keep name with
  | false => rfl
  | true =>
    refine Option.ext fun id => ?_
    rw [if_pos rfl, if_pos rfl, exists_known_iff hdistinct hknown, hkeep, hknown']
    simp only [Bool.true_eq_false, false_and, not_false_eq_true, and_true, blendedComponents,
      List.flatMap_nil, List.filter_nil, List.nil_append,
      (hperm.flatMap_right (ParsedFile.unlinked fingerprint)).mem_iff]

/-- What is unknown where some files are sifted is what is unknown where all are whole, and the names
that are dropped from the sifted ones. -/
theorem find?_eq_none_iff_or (hdistinct : DistinctNames (sifted ++ whole))
    (hperm : (sifted ++ whole).Perm files)
    (hknown : ∀ name id, known.find? name = some id ↔
      ∃ d ∈ blendedComponents fingerprint keep sifted whole, d.qualifiedName = name ∧ d.id = id)
    (hknown' : ∀ name id, known'.find? name = some id ↔
      ∃ d ∈ blendedComponents fingerprint keep [] files, d.qualifiedName = name ∧ d.id = id)
    (name : String) :
    known.find? name = none ↔ known'.find? name = none ∨
      keep name = false ∧
        ∃ d ∈ sifted.flatMap (ParsedFile.unlinked fingerprint), d.qualifiedName = name := by
  have hdistinct' : DistinctNames ([] ++ files) := hdistinct.perm hperm
  rw [find?_eq_none_iff hdistinct hknown, find?_eq_none_iff hdistinct' hknown']
  simp only [List.flatMap_nil, List.not_mem_nil, false_and, exists_false, and_false, or_false,
    List.nil_append, (hperm.flatMap_right (ParsedFile.unlinked fingerprint)).mem_iff]

end Tables

/-- What a filter leaves of a graph with some files sifted is what it leaves of one with all files
whole, but for the external names that it drops from the sifted files. -/
theorem agreesBeside (hfree : fingerprint.CollisionFree contents)
    (hsourced : ∀ file ∈ sifted ++ whole, file.Sourced parser contents)
    (hdistinct : DistinctNames (sifted ++ whole)) (hperm : (sifted ++ whole).Perm files)
    (h : Blends fingerprint contents keep sifted whole graph)
    (h' : Blends fingerprint contents keep [] files graph') :
    (graph.filter keep).AgreesBeside
      (fun name => keep name = false ∧
        ∃ d ∈ sifted.flatMap (ParsedFile.unlinked fingerprint), d.qualifiedName = name)
      (graph'.filter keep) := by
  have hsourced' : ∀ file ∈ [] ++ files, file.Sourced parser contents :=
    fun file hfile => hsourced file (hperm.mem_iff.mpr hfile)
  have hsifts := h.sifts hfree hsourced
  have hsifts' := h'.sifts hfree hsourced'
  obtain ⟨known, hknown, hlinked⟩ := h.linked_filter hfree hsourced
  obtain ⟨known', hknown', hlinked'⟩ := h'.linked_filter hfree hsourced'
  have honly := find?_only_eq hdistinct hperm hknown hknown'
  have hnone := find?_eq_none_iff_or hdistinct hperm hknown hknown'
  have hlinks : ∀ c ∈ (graph.filter keep).components, ∀ d ∈ (graph'.filter keep).components,
      d.unlink = c.unlink → d.linkedIds = c.linkedIds := by
    intro c hc d hd hunlink
    have hid : d.unlink.id = c.unlink.id := by rw [hunlink]
    have hreferences : d.unlink.referencedSymbols = c.unlink.referencedSymbols := by rw [hunlink]
    calc d.linkedIds
        = internalTargets (known'.only keep) d.id d.referencedSymbols := (hlinked' d hd).1
      _ = internalTargets (known'.only keep) c.id c.referencedSymbols := by
        rw [show d.id = c.id from hid, show d.referencedSymbols = c.referencedSymbols from hreferences]
      _ = internalTargets (known.only keep) c.id c.referencedSymbols :=
        (internalTargets_congr honly _ _).symm
      _ = c.linkedIds := (hlinked c hc).1.symm
  have hnames : ∀ c ∈ (graph.filter keep).components, ∀ d ∈ (graph'.filter keep).components,
      c.id = d.id → (graph'.filter keep).externalNames d =
        (firstOccurrences (unknownNames known' c.referencedSymbols)).map some := by
    intro c hc d hd hid
    have hreferences : d.unlink.referencedSymbols = c.unlink.referencedSymbols := by
      rw [hsifts.unlink_eq hsifts' hperm hc hd hid]
    rw [← show d.referencedSymbols = c.referencedSymbols from hreferences]
    exact (hlinked' d hd).2
  have hnames' : ∀ c ∈ (graph.filter keep).components, (graph.filter keep).externalNames c =
      (firstOccurrences (unknownNames known c.referencedSymbols)).map some :=
    fun c hc => (hlinked c hc).2
  refine ⟨?_, ?_, fun c hc => ?_, fun c hc d hd hid => ?_, fun c hc d hd hid name => ?_⟩
  · rw [hsifts.files_eq, hsifts'.files_eq]
    exact hperm.map _
  · refine (List.perm_ext_iff_of_nodup hsifts.nodup_map_bare hsifts'.nodup_map_bare).mpr fun _ =>
      ⟨hsifts.mem_map_bare hsifts' hperm hlinks, hsifts'.mem_map_bare hsifts hperm.symm
        fun d hd c hc hunlink => (hlinks c hc d hd hunlink.symm).symm⟩
  · rw [hnames' c hc]
    simp
  · rw [hnames c hc d hd hid, hnames' c hc]
    exact (firstOccurrences_unknownNames_sublist (fun name hunknown =>
      (hnone name).mpr (Or.inl hunknown)) _).map _
  · rw [hnames c hc d hd hid, hnames' c hc]
    simp only [List.mem_map, Option.some.injEq, exists_eq_right, Text.mem_firstOccurrences,
      unknownNames, List.mem_filter, Option.isNone_iff_eq_none, hnone]
    tauto

end Blends

/-! ### Updates of filtered graphs -/

namespace Update

variable {parser : SyntaxParser} {fingerprint : Fingerprint} {contents : Contents}
  {keep : String → Bool} {builder : Builder} {fs : FileSystem} {directory : String}
  {files : List ParsedFile} {previous : CodeGraph} {changes : ChangeSet} {supply : IdSupply}

/-- A component of a filtered graph is kept if its file is. -/
theorem mem_untouched_iff_of_sifts (hfree : fingerprint.CollisionFree contents)
    (hsourced : ∀ file ∈ files, file.Sourced parser contents)
    (h : Sifts fingerprint contents keep files previous)
    {c : Component} (hc : c ∈ previous.components) {file : ParsedFile} (hfile : file ∈ files)
    (hmem : c.unlink ∈ file.sifted fingerprint keep) :
    c ∈ untouched (classify previous changes) previous.components ↔
      file ∈ keptFiles changes files := by
  have hfileId : c.unlink.fileId = file.ident fingerprint := ParsedFile.fileId_of_mem_sifted hmem
  exact mem_untouched_iff_of_fileId hfree hsourced h.files_eq h.identified.nodup hc hfile hfileId

/-- What is retained of a filtered graph are the sifted components of the kept files. -/
theorem exists_keptFile_of_sifts (hfree : fingerprint.CollisionFree contents)
    (hsourced : ∀ file ∈ files, file.Sourced parser contents)
    (h : Sifts fingerprint contents keep files previous)
    {c : Component} (hc : c ∈ untouched (classify previous changes) previous.components) :
    ∃ file ∈ keptFiles changes files, c.unlink ∈ file.sifted fingerprint keep := by
  have hprevious := (mem_untouched.mp hc).1
  obtain ⟨file, hfile, hmem⟩ := h.extracted c hprevious
  exact ⟨file, (mem_untouched_iff_of_sifts hfree hsourced h hprevious hfile hmem).mp hc, hmem⟩

/-- The names that are retained of a filtered graph are those of the kept files that pass the
filter. -/
theorem mem_retained_iff_of_sifts (hfree : fingerprint.CollisionFree contents)
    (hsourced : ∀ file ∈ files, file.Sourced parser contents)
    (h : Sifts fingerprint contents keep files previous)
    (name : String) (id : ComponentId) :
    (∃ c ∈ retained previous changes, c.qualifiedName = name ∧ c.id = id) ↔
      ∃ d ∈ ((keptFiles changes files).flatMap (ParsedFile.unlinked fingerprint)).filter
        (fun d => keep d.qualifiedName), d.qualifiedName = name ∧ d.id = id := by
  constructor
  · rintro ⟨c, hc, rfl, rfl⟩
    obtain ⟨e, he, rfl⟩ := List.mem_map.mp hc
    obtain ⟨file, hkept, hmem⟩ := exists_keptFile_of_sifts hfree hsourced h he
    obtain ⟨d, hd, hkeep, hname, hid⟩ := ParsedFile.exists_of_mem_sifted hmem
    exact ⟨d, List.mem_filter.mpr ⟨List.mem_flatMap.mpr ⟨file, hkept, hd⟩, hkeep⟩, hname, hid⟩
  · rintro ⟨d, hd, rfl, rfl⟩
    obtain ⟨hmem, hkeep⟩ := List.mem_filter.mp hd
    obtain ⟨file, hkept, hdfile⟩ := List.mem_flatMap.mp hmem
    have hfile := (mem_keptFiles.mp hkept).1
    have hsifted : d.without (droppedIds keep (file.unlinked fingerprint)) ∈
        file.sifted fingerprint keep := ParsedFile.mem_sifted.mpr ⟨d, hdfile, hkeep, rfl⟩
    obtain ⟨c, hc, heq⟩ := h.complete file hfile _ hsifted
    have huntouched := (mem_untouched_iff_of_sifts hfree hsourced h hc hfile (heq ▸ hsifted)).mpr
      hkept
    have hname : c.unlink.qualifiedName = d.qualifiedName := by rw [heq]; rfl
    have hid : c.unlink.id = d.id := by rw [heq]; rfl
    exact ⟨pruneLinks (classify previous changes).dropped c, List.mem_map_of_mem huntouched,
      hname, hid⟩

/-- An update keeps the external identifiers apart. -/
theorem fresh_update {result : UpdateResult}
    (hfresh : Externals.Fresh ⟨previous.externalSymbols, supply⟩)
    (h : update builder true fs directory previous changes supply = .ok result) :
    Externals.Fresh ⟨result.graph.externalSymbols, result.supply⟩ := by
  rcases update_eq_ok h with ⟨-, hsame, hsupply⟩ | ⟨-, rfl⟩
  · rwa [hsame, hsupply]
  · simp only [graph_apply, supply_apply]
    exact fresh_relinked hfresh

/-- An update of a filtered graph has the kept files sifted and the files it builds whole. -/
theorem blends_apply (hfree : fingerprint.CollisionFree contents)
    (hstandard : builder.Standard parser fingerprint contents fs directory
      (rebuildPaths builder fs directory changes))
    (hsourced : ∀ file ∈ files, file.Sourced parser contents)
    (h : Sifts fingerprint contents keep files previous)
    (hfresh : Externals.Fresh ⟨previous.externalSymbols, supply⟩)
    (hdistinct : DistinctNames (nextFiles builder fs directory changes files)) :
    Blends fingerprint contents keep (keptFiles changes files)
    (rebuiltFiles builder fs directory changes)
      (apply builder true fs directory previous changes supply).graph where
  files_eq := files_apply hfree hstandard hsourced h.files_eq true
  identified := identified_apply hstandard.toWorksWith h.identified true
  extracted := by
    intro c hc
    rw [graph_apply] at hc
    rcases List.mem_append.mp hc with hretained | hadded
    · obtain ⟨d, hd, heq⟩ := exists_of_mem_relinked hretained
      obtain ⟨file, hkept, hmem⟩ := exists_keptFile_of_sifts hfree hsourced h hd
      exact Or.inl ⟨file, hkept, heq ▸ hmem⟩
    · exact Or.inr ((portrays_built hstandard).extracted c ((additions_sublist _ _).subset hadded))
  complete_sifted := by
    intro file hkept d hd
    obtain ⟨c, hc, rfl⟩ := h.complete file (mem_keptFiles.mp hkept).1 d hd
    have huntouched := (mem_untouched_iff_of_sifts hfree hsourced h hc (mem_keptFiles.mp hkept).1
      hd).mpr hkept
    obtain ⟨e, he, hunlink⟩ := exists_mem_relinked true huntouched
    rw [graph_apply]
    exact ⟨e, List.mem_append_left _ he, hunlink⟩
  complete_whole := by
    intro file hrebuilt d hd
    have hworks := hstandard.toWorksWith
    obtain rfl := hstandard.fingerprint_eq
    obtain ⟨c, hc, rfl⟩ := Builder.exists_unlink_eq_of_alone hfree hworks.codes
      (seedOf previous changes supply) hrebuilt hd
      (Builder.alone_of_distinctNames (List.pairwise_append.mp hdistinct).2.1 hrebuilt hd)
    rw [graph_apply]
    rcases mem_additions_or hc with hadded | ⟨e, he, hid⟩
    · exact ⟨c, List.mem_append_right _ hadded, rfl⟩
    · -- The identifier is retained, so a kept file has the name as well.
      obtain ⟨hname, -⟩ := (identified_relinked h.identified true).content_eq hfree
        (identified_built hworks) he hc hid
      obtain ⟨e', he', heq⟩ := exists_of_mem_relinked he
      obtain ⟨other, hother, hmem⟩ := exists_keptFile_of_sifts hfree hsourced h he'
      rw [heq] at hmem
      obtain ⟨d, hd', -, hsame, -⟩ := ParsedFile.exists_of_mem_sifted hmem
      have hclash : d.qualifiedName = c.unlink.qualifiedName := hsame.trans hname
      exact absurd hclash (hdistinct.name_ne_of_append hother hrebuilt hd' hd)
  linked := by
    obtain rfl := hstandard.fingerprint_eq
    refine ⟨_, fun name id => find?_built (mem_retained_iff_of_sifts hfree hsourced h) ?_,
      fun c hc => linkedIn_apply hfresh hc⟩
    intro d hd e he hname
    have hnext : ∀ {d : Component}, d ∈ blendedComponents builder.fingerprint keep
        (keptFiles changes files) (rebuiltFiles builder fs directory changes) →
        d ∈ (nextFiles builder fs directory changes files).flatMap
          (ParsedFile.unlinked builder.fingerprint) := by
      intro d hd
      rw [nextFiles, List.flatMap_append]
      rcases List.mem_append.mp hd with hkept | hrebuilt
      · exact List.mem_append_left _ (List.mem_filter.mp hkept).1
      · exact List.mem_append_right _ hrebuilt
    exact congrArg Component.id (hdistinct.component_eq (hnext hd) (hnext he) hname)

end Update

/-! ### Filtered trees -/

namespace WorkTree

variable {parser : SyntaxParser} {contents : Contents} {builder : Builder} {keep : String → Bool}
  {tree next : WorkTree}

/-- The name is one that the filter drops, of a component in a file that is in both trees as it is,
and there are changes between the trees. -/
def Conceals (builder : Builder) (keep : String → Bool) (tree next : WorkTree) (name : String) :
    Prop :=
  keep name = false ∧ (next.changesSince builder (tree.files builder)).hasChanges = true ∧
    ∃ file ∈ tree.files builder, file ∈ next.files builder ∧
      ∃ d ∈ file.unlinked builder.fingerprint, d.qualifiedName = name

/-- The kept files are those that are in both trees. -/
theorem mem_keptFiles_iff (hfree : builder.fingerprint.CollisionFree contents)
    (hregistry : builder.registry = .standard parser) (htree : tree.Sound contents builder)
    (hnext : next.Sound contents builder) {paths : List String}
    (hpaths : next.paths? builder = some paths)
    {file : ParsedFile} :
    file ∈ Update.keptFiles (next.changesSince builder (tree.files builder)) (tree.files builder) ↔
      file ∈ tree.files builder ∧ file ∈ next.files builder := by
  rw [changesSince, hpaths, Option.getD_some, files_eq hpaths,
    Update.mem_keptFiles_changesSince (htree.nodup_paths hregistry)]
  refine and_congr_right fun hfile => ⟨fun hcurrent => ?_, fun hfile' => ?_⟩
  · have htexts := hnext.texts
    rw [hpaths, Option.getD_some] at htexts
    have hextract := Builder.extractFile_of_current hfree hregistry htexts
      ((htree.standard hregistry).sourced hfile) hcurrent.1
      (Builder.of_mem_collectFiles hpaths hcurrent.1).1 hcurrent.2
    exact List.mem_filterMap.mpr ⟨_, hcurrent.1, by rw [hextract]; rfl⟩
  · obtain ⟨path, hpath, hextract⟩ := Builder.exists_extract_of_mem_extractFiles hfile'
    have hslashes := (Builder.of_mem_collectFiles hpaths hpath).2
    obtain rfl := Builder.relativePath_of_extractFile hregistry hextract hslashes
    exact ⟨hpath, (Builder.fileRecord_of_extractFile hregistry hslashes hextract).2⟩

/-- When a filtered build is updated with the changes of the next tree and filtered again, the outcome
is a filtered build of the next tree, but for external symbols in place of concealed names. -/
theorem agreesBeside_update (hfree : builder.fingerprint.CollisionFree contents)
    (hregistry : builder.registry = .standard parser) (htree : tree.Sound contents builder)
    (hnext : next.Sound contents builder) {first : IdSupply} {supply : IdSupply}
    (hfresh : Externals.Fresh ⟨(tree.build builder first).graph.externalSymbols, supply⟩)
    {changes : ChangeSet} {result : UpdateResult}
    (hchanges : Snapshot.changes builder next.fs next.home next.directory
      ((tree.build builder first).graph.filter keep).files = some changes)
    (h : update builder true next.fs next.directory ((tree.build builder first).graph.filter keep)
      changes supply = .ok result)
    (last : IdSupply) :
    (result.graph.filter keep).AgreesBeside (Conceals builder keep tree next)
      ((next.build builder last).graph.filter keep) := by
  have hsourced : ∀ file ∈ tree.files builder, file.Sourced parser contents := fun file hfile =>
    (htree.standard hregistry).sourced hfile
  have hblends := (htree.mirrors_build hfree first).blends keep
  have hblends' := (hnext.mirrors_build hfree last).blends keep
  have hsifts : Sifts builder.fingerprint contents keep (tree.files builder)
      ((tree.build builder first).graph.filter keep) := hblends.sifts hfree hsourced
  obtain ⟨paths, hpaths, -⟩ := Option.map_eq_some_iff.mp hchanges
  obtain rfl := Option.some.inj ((changes_eq hpaths hsifts.files_eq).symm.trans hchanges)
  have hfiles := htree.nextFiles_perm hfree hregistry hnext hpaths (.refl _)
  rcases Update.update_eq_ok h with ⟨hnone, hsame, -⟩ | ⟨hsome, hresult⟩
  · rw [Update.nextFiles_of_not_hasChanges hnone] at hfiles
    have hhidden : Conceals builder keep tree next = fun name => keep name = false ∧
        ∃ d ∈ ([] : List ParsedFile).flatMap (ParsedFile.unlinked builder.fingerprint),
          d.qualifiedName = name := by
      funext name
      simp [Conceals, hnone]
    rw [hsame, CodeGraph.filter_self, hhidden]
    exact hblends.agreesBeside hfree hsourced htree.distinct hfiles hblends'
  · have hhidden : Conceals builder keep tree next = fun name => keep name = false ∧
        ∃ d ∈ (Update.keptFiles (next.changesSince builder (tree.files builder))
          (tree.files builder)).flatMap (ParsedFile.unlinked builder.fingerprint),
          d.qualifiedName = name := by
      funext name
      simp only [Conceals, hsome, true_and, List.mem_flatMap,
        mem_keptFiles_iff hfree hregistry htree hnext hpaths]
      grind
    have hnextDistinct := hnext.distinct.perm hfiles.symm
    rw [hresult, hhidden]
    have hstandard := hnext.standard_rebuilt hregistry hpaths (tree.files builder)
    exact (Update.blends_apply hfree hstandard hsourced hsifts hfresh hnextDistinct).agreesBeside
      hfree (Update.sourced_nextFiles hstandard hsourced) hnextDistinct hfiles hblends'

end WorkTree

end CodeAtlas
