import CodeAtlas.Proofs.Building
import CodeAtlas.Proofs.Text.Clear
import CodeAtlas.Proofs.Updating

/-!
# Identifiers come from content

Every component is identified by the fingerprint of its name and its code, and no two components of
a graph have the same identifier. When the fingerprint has no collision among the contents of a run,
an identifier then stands for one name and one code, also when it is found in different graphs.

Which contents these are is left open: it is only asked that all files and components that a run
extracts are among them. With real digests they can be those of one run and no others, and with
names and texts in the place of digests they can be all that have a clear name.

## Main definitions

* `Identified`: the components have distinct identifiers, taken from their content.
* `ParsedFile.CodesIn`: the codes of a file's components are among some contents.
* `Builder.WorksWith`: what is asked of the builder and the file system of a run.

## Main results

* `Identified.content_eq`: an identifier determines the name and the code.
* `Builder.identified_assemble`: the components of a build are identified.
* `Update.identified_apply`: an update keeps components identified.
-/

namespace CodeAtlas

open Text (Clear)

/-! ### A fingerprint without collisions -/

/-- The name and the text themselves, with a zero character between them. -/
def Fingerprint.verbatim : Fingerprint := fun name text =>
  name ++ "\x00" ++ text

private theorem append_zero_inj {a b s t : List Char} (ha : '\x00' ∉ a) (hb : '\x00' ∉ b)
    (h : a ++ '\x00' :: s = b ++ '\x00' :: t) : a = b ∧ s = t := by
  induction a generalizing b with
  | nil =>
    cases b with
    | nil => exact ⟨rfl, (List.cons.inj h).2⟩
    | cons c b => exact absurd ((List.cons.inj h).1 ▸ List.mem_cons_self) hb
  | cons c a ih =>
    cases b with
    | nil => exact absurd ((List.cons.inj h).1 ▸ List.mem_cons_self) ha
    | cons d b =>
      obtain ⟨rfl, hrest⟩ := List.cons.inj h
      obtain ⟨rfl, rfl⟩ := ih (fun hmem => ha (List.mem_cons_of_mem _ hmem))
        (fun hmem => hb (List.mem_cons_of_mem _ hmem)) hrest
      exact ⟨rfl, rfl⟩

/-- All contents with a name that holds no zero character. -/
def Contents.clear : Contents := fun name _ =>
  Clear name

/-- Names and texts can be told apart when no name holds a zero character. -/
theorem Fingerprint.collisionFree_verbatim : verbatim.CollisionFree .clear := by
  intro name text name' text' hname hname' h
  have hchars : name.toList ++ '\x00' :: text.toList = name'.toList ++ '\x00' :: text'.toList := by
    simpa [verbatim] using congrArg String.toList h
  obtain ⟨hnames, htexts⟩ := append_zero_inj hname hname' hchars
  exact ⟨String.toList_inj.mp hnames, String.toList_inj.mp htexts⟩

/-- Contents that are listed have no collision if their fingerprints are distinct. -/
theorem Fingerprint.collisionFree_of_nodup {fingerprint : Fingerprint}
    {pairs : List (String × String)}
    (h : (pairs.map fun pair => fingerprint pair.1 pair.2).Nodup) :
    fingerprint.CollisionFree fun name text => (name, text) ∈ pairs := by
  intro name text name' text' hmem hmem' heq
  exact Prod.mk.inj (List.inj_on_of_nodup_map h hmem hmem' heq)

-- So it can be checked of the digests of one run.
example : contentHash.CollisionFree fun name text =>
    (name, text) ∈ [("m.mk", "ab"), ("m.f", "a"), ("m", "b")] :=
  Fingerprint.collisionFree_of_nodup (by decide +kernel)

/-! ### Identified components -/

/-- The components have distinct identifiers, the fingerprints of their names and codes, and these
are among the contents. -/
structure Identified (fingerprint : Fingerprint) (contents : Contents)
    (components : List Component) : Prop where
  nodup : (components.map (·.id)).Nodup
  id_eq : ∀ c ∈ components, c.id = fingerprint c.qualifiedName c.codeText
  code_mem : ∀ c ∈ components, contents c.qualifiedName c.codeText

namespace Identified

variable {fingerprint : Fingerprint} {contents : Contents} {components others : List Component}

/-- Components with one identifier have one name and one code. -/
theorem content_eq (hfree : fingerprint.CollisionFree contents)
    (h : Identified fingerprint contents components)
    (h' : Identified fingerprint contents others) {c d : Component} (hc : c ∈ components)
    (hd : d ∈ others) (hid : c.id = d.id) :
    c.qualifiedName = d.qualifiedName ∧ c.codeText = d.codeText := by
  rw [h.id_eq c hc, h'.id_eq d hd] at hid
  exact hfree _ _ _ _ (h.code_mem c hc) (h'.code_mem d hd) hid

theorem sublist (h : Identified fingerprint contents components)
    (hsub : others.Sublist components) :
    Identified fingerprint contents others where
  nodup := h.nodup.sublist (hsub.map _)
  id_eq := fun c hc => h.id_eq c (hsub.subset hc)
  code_mem := fun c hc => h.code_mem c (hsub.subset hc)

/-- What keeps the identifier, the name and the code of components keeps them identified. -/
theorem map (h : Identified fingerprint contents components) {f : Component → Component}
    (hid : ∀ c, (f c).id = c.id) (hname : ∀ c, (f c).qualifiedName = c.qualifiedName)
    (hcode : ∀ c, (f c).codeText = c.codeText) :
    Identified fingerprint contents (components.map f) where
  nodup := by
    rw [List.map_map]
    simpa only [Function.comp_def, hid] using h.nodup
  id_eq := by
    intro c hc
    obtain ⟨d, hd, rfl⟩ := List.mem_map.mp hc
    rw [hid, hname, hcode, h.id_eq d hd]
  code_mem := by
    intro c hc
    obtain ⟨d, hd, rfl⟩ := List.mem_map.mp hc
    rw [hname, hcode]
    exact h.code_mem d hd

theorem append (h : Identified fingerprint contents components)
    (h' : Identified fingerprint contents others)
    (hdisjoint : ∀ c ∈ components, ∀ d ∈ others, c.id ≠ d.id) :
    Identified fingerprint contents (components ++ others) where
  nodup := by
    rw [List.map_append, List.nodup_append]
    refine ⟨h.nodup, h'.nodup, fun id hid id' hid' heq => ?_⟩
    obtain ⟨c, hc, rfl⟩ := List.mem_map.mp hid
    obtain ⟨d, hd, rfl⟩ := List.mem_map.mp hid'
    exact hdisjoint c hc d hd heq
  id_eq := by
    intro c hc
    rcases List.mem_append.mp hc with hc | hc
    · exact h.id_eq c hc
    · exact h'.id_eq c hc
  code_mem := by
    intro c hc
    rcases List.mem_append.mp hc with hc | hc
    · exact h.code_mem c hc
    · exact h'.code_mem c hc

end Identified

/-! ### Builds -/

/-- The code of each component of the file is among the contents, under its name. -/
def ParsedFile.CodesIn (contents : Contents) (file : ParsedFile) : Prop :=
  ∀ c ∈ file.components, ∀ code, file.componentText c = .ok code → contents c.qualifiedName code

theorem ParsedFile.CodesIn.of_mem_unlinked {contents : Contents} {file : ParsedFile}
    (h : file.CodesIn contents) {fingerprint : Fingerprint} {c : Component}
    (hc : c ∈ file.unlinked fingerprint) : contents c.qualifiedName c.codeText := by
  obtain ⟨parsed, code, hparsed, hcode, rfl⟩ := (file.mem_unlinked fingerprint).mp hc
  exact h parsed (file.component?_mem hparsed).1 code hcode

namespace Builder

/-- The builder identifies by the fingerprint, and the codes that are found at the paths are among
the contents. -/
structure WorksWith (fingerprint : Fingerprint) (contents : Contents) (builder : Builder)
    (fs : FileSystem) (directory : String) (paths : List String) : Prop where
  fingerprint_eq : builder.fingerprint = fingerprint
  codes : ∀ file ∈ builder.extractFiles fs directory paths, file.CodesIn contents

/-- A file that was extracted has a path, a text and an extractor. -/
theorem exists_extract_of_mem_extractFiles {builder : Builder} {fs : FileSystem}
    {directory : String} {paths : List String} {file : ParsedFile}
    (h : file ∈ builder.extractFiles fs directory paths) :
    ∃ path ∈ paths, builder.extractFile fs directory path = .ok file := by
  obtain ⟨path, hpath, hfile⟩ := List.mem_filterMap.mp h
  cases hextract : builder.extractFile fs directory path with
  | error e => simp [hextract, Except.toOption] at hfile
  | ok found =>
    obtain rfl : found = file := by simpa [hextract, Except.toOption] using hfile
    exact ⟨path, hpath, hextract⟩

/-- The extraction of one file. -/
theorem extractFile_eq_ok {builder : Builder} {fs : FileSystem} {directory path : String}
    {file : ParsedFile} (h : builder.extractFile fs directory path = .ok file) :
    ∃ extractor source, builder.registry.forPath? path = some extractor ∧
      fs.readText (PathText.join directory path) = .ok source ∧
      extractor.extract path source = .ok file := by
  unfold extractFile at h
  split at h
  · simp at h
  · rename_i extractor hextractor
    split at h
    · simp at h
    · rename_i source hsource
      exact ⟨extractor, source, hextractor, hsource, h⟩

/-- The components of a build before linking have identifiers from their content. -/
theorem content_of_mem_unlinked {builder : Builder} {contents : Contents} {files : List ParsedFile}
    (hcodes : ∀ file ∈ files, file.CodesIn contents) {c : Component}
    (hc : c ∈ builder.unlinked files) :
    c.id = builder.fingerprint c.qualifiedName c.codeText ∧
      contents c.qualifiedName c.codeText := by
  obtain ⟨file, hfile, hmem⟩ := List.mem_flatMap.mp hc
  refine ⟨?_, (hcodes file hfile).of_mem_unlinked hmem⟩
  obtain ⟨parsed, code, -, -, rfl⟩ := (file.mem_unlinked builder.fingerprint).mp hmem
  rfl

/-- A build repeats no identifier. -/
theorem nodup_ids_assemble (builder : Builder) (files : List ParsedFile) (seed : LinkSeed) :
    ((builder.assemble files seed).graph.components.map (·.id)).Nodup := by
  rw [components_assemble, List.map_map]
  exact Keyed.nodup_map_firsts (fun c : Component => c.id) (builder.unlinked files)

/-- The components of a build are identified. -/
theorem identified_assemble {builder : Builder} {contents : Contents} {files : List ParsedFile}
    (hcodes : ∀ file ∈ files, file.CodesIn contents) (seed : LinkSeed) :
    Identified builder.fingerprint contents (builder.assemble files seed).graph.components := by
  have hsub := Keyed.firsts_sublist (·.id) (builder.unlinked files)
  have hkept : Identified builder.fingerprint contents
      (Identity.keepFirst (builder.unlinked files)) :=
    ⟨Keyed.nodup_map_firsts _ _,
      fun c hc => (content_of_mem_unlinked hcodes (hsub.subset hc)).1,
      fun c hc => (content_of_mem_unlinked hcodes (hsub.subset hc)).2⟩
  rw [components_assemble]
  exact hkept.map (fun _ => rfl) (fun _ => rfl) fun _ => rfl

end Builder

/-! ### Updates -/

namespace Update

variable {fingerprint : Fingerprint} {contents : Contents} {builder : Builder} {fs : FileSystem}
  {directory : String} {previous : CodeGraph} {changes : ChangeSet} {supply : IdSupply}

theorem identified_retained (h : Identified fingerprint contents previous.components) :
    Identified fingerprint contents (retained previous changes) :=
  (h.sublist List.filter_sublist).map (fun _ => rfl) (fun _ => rfl) fun _ => rfl

/-- Relinking changes the links of the components that are kept, and nothing else. -/
theorem exists_relinked_eq_map (builder : Builder) (relinkRetained : Bool) (fs : FileSystem)
    (directory : String) (previous : CodeGraph) (changes : ChangeSet) (supply : IdSupply) :
    ∃ f : Component → Component,
      (relinked builder relinkRetained fs directory previous changes supply).1 =
        (retained previous changes).map f ∧
      (f = id ∨ ∃ table, f = Component.linkedBy
        (built builder fs directory previous changes supply).nameTable table) := by
  cases relinkRetained with
  | false => exact ⟨id, (List.map_id _).symm, Or.inl rfl⟩
  | true => exact ⟨_, linkAll_fst _ _ _, Or.inr ⟨_, rfl⟩⟩

theorem identified_relinked (h : Identified fingerprint contents previous.components)
    (relinkRetained : Bool) :
    Identified fingerprint contents
      (relinked builder relinkRetained fs directory previous changes supply).1 := by
  obtain ⟨f, heq, hf⟩ :=
    exists_relinked_eq_map builder relinkRetained fs directory previous changes supply
  rw [heq]
  rcases hf with rfl | ⟨table, rfl⟩
  · exact (identified_retained h).map (fun _ => rfl) (fun _ => rfl) fun _ => rfl
  · exact (identified_retained h).map (fun _ => rfl) (fun _ => rfl) fun _ => rfl

theorem identified_built
    (hworks : builder.WorksWith fingerprint contents fs directory
      (rebuildPaths builder fs directory changes)) :
    Identified fingerprint contents
      (built builder fs directory previous changes supply).graph.components := by
  rw [← hworks.fingerprint_eq]
  exact Builder.identified_assemble hworks.codes _

theorem additions_sublist (retained rebuilt : List Component) :
    (additions retained rebuilt).Sublist rebuilt :=
  List.filter_sublist

/-- Added components repeat no identifier. -/
theorem id_ne_of_mem_additions {retained rebuilt : List Component} {c d : Component}
    (hc : c ∈ retained) (hd : d ∈ additions retained rebuilt) : c.id ≠ d.id := by
  intro heq
  have hkeep := (List.mem_filter.mp hd).2
  have hany : retained.any (·.id == d.id) = true :=
    List.any_eq_true.mpr ⟨c, hc, beq_iff_eq.mpr heq⟩
  simp [hany] at hkeep

/-- A component that was built is added, unless its identifier is there. -/
theorem mem_additions_or {retained rebuilt : List Component} {d : Component} (hd : d ∈ rebuilt) :
    d ∈ additions retained rebuilt ∨ ∃ c ∈ retained, c.id = d.id := by
  by_cases hany : retained.any (·.id == d.id) = true
  · obtain ⟨c, hc, heq⟩ := List.any_eq_true.mp hany
    exact Or.inr ⟨c, hc, beq_iff_eq.mp heq⟩
  · exact Or.inl (List.mem_filter.mpr ⟨hd, by simpa using hany⟩)

/-- Relinking changes no identifier. -/
theorem map_id_relinked (relinkRetained : Bool) :
    (relinked builder relinkRetained fs directory previous changes supply).1.map (·.id) =
      (untouched (classify previous changes) previous.components).map (·.id) := by
  obtain ⟨f, heq, hf⟩ :=
    exists_relinked_eq_map builder relinkRetained fs directory previous changes supply
  rw [heq, retained, List.map_map, List.map_map]
  rcases hf with rfl | ⟨table, rfl⟩
  · rfl
  · rfl

/-- An update repeats no identifier. -/
theorem nodup_ids_apply (relinkRetained : Bool) (h : (previous.components.map (·.id)).Nodup) :
    ((apply builder relinkRetained fs directory previous changes supply).graph.components.map
      (·.id)).Nodup := by
  rw [graph_apply, List.map_append, List.nodup_append]
  refine ⟨?_, ?_, ?_⟩
  · rw [map_id_relinked]
    exact h.sublist (List.filter_sublist.map _)
  · exact (Builder.nodup_ids_assemble _ _ _).sublist ((additions_sublist _ _).map _)
  · rintro id hretained _ hadded rfl
    obtain ⟨c, hc, rfl⟩ := List.mem_map.mp hretained
    obtain ⟨d, hd, heq⟩ := List.mem_map.mp hadded
    exact id_ne_of_mem_additions hc hd heq.symm

/-- An update keeps components identified. -/
theorem identified_apply
    (hworks : builder.WorksWith fingerprint contents fs directory
      (rebuildPaths builder fs directory changes))
    (h : Identified fingerprint contents previous.components) (relinkRetained : Bool) :
    Identified fingerprint contents
      (apply builder relinkRetained fs directory previous changes supply).graph.components := by
  rw [graph_apply]
  exact (identified_relinked h relinkRetained).append
    ((identified_built hworks).sublist (additions_sublist _ _))
    fun c hc d hd => id_ne_of_mem_additions hc hd

end Update

end CodeAtlas
