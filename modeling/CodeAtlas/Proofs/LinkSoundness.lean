import CodeAtlas.Proofs.ContentIds
import CodeAtlas.Proofs.Runs
import CodeAtlas.Proofs.Store

/-!
# Links stay sound

A link is sound when it leads to a component of the graph whose name the linked component refers to.
A build can also be given names that stand for components outside of it, and then leads its links
there; nothing else can make a link lead outside of a graph, in any run. No component is ever linked
to itself or twice to another, and the file of every component is in the graph.

The step that is not obvious is the merge of an update: a component that was built is left out when
its identifier is retained, so that links to it must be links to the retained one. They are, since
an identifier stands for one name.

## Main definitions

* `SoundIn`: the links of a component are sound among some components.
* `CodeGraph.LinkSound`: all links of a graph are sound, and all its components belong to its files.

## Main results

* `Run.linkSound_started`, `Run.linkSound_step`: what is built is sound, and every step keeps it so.
* `Run.linkSound_reached`: every graph of a run is sound.
-/

namespace CodeAtlas

/-- One of the components has the name and the identifier. -/
def Offers (components : List Component) (name : String) (id : ComponentId) : Prop :=
  ∃ d ∈ components, d.id = id ∧ d.qualifiedName = name

theorem Offers.of_mem {components : List Component} {d : Component} (h : d ∈ components) :
    Offers components d.qualifiedName d.id :=
  ⟨d, h, rfl, rfl⟩

/-- Each link of the component leads to a component with a name it refers to, or to what a name it
refers to stands for in the table; none leads to itself, and no two to the same. -/
structure SoundIn (known : NameTable) (components : List Component) (c : Component) : Prop where
  target : ∀ target ∈ c.linkedIds, ∃ name ∈ c.referencedSymbols,
    Offers components name target ∨ known.find? name = some target
  not_self : c.id ∉ c.linkedIds
  nodup : c.linkedIds.Nodup

namespace SoundIn

variable {known : NameTable} {components others : List Component} {c : Component}

/-- Links stay sound among components that offer everything offered before. -/
theorem mono (h : SoundIn known components c)
    (hoffers : ∀ name id, Offers components name id → Offers others name id) :
    SoundIn known others c where
  target := by
    intro target htarget
    obtain ⟨name, hname, htarget⟩ := h.target target htarget
    exact ⟨name, hname, htarget.imp_left (hoffers name target)⟩
  not_self := h.not_self
  nodup := h.nodup

/-- A component is linked soundly when the names it is linked against are offered. -/
theorem linkedBy {names : NameTable}
    (hnames : ∀ name target, names.find? name = some target →
      Offers components name target ∨ known.find? name = some target)
    (table : SymbolTable) (c : Component) : SoundIn known components (c.linkedBy names table) where
  target := by
    intro target htarget
    obtain ⟨-, name, hname, hfound⟩ := mem_internalTargets.mp htarget
    exact ⟨name, hname, hnames name target hfound⟩
  not_self := fun hself => (mem_internalTargets.mp hself).1 rfl
  nodup := nodup_internalTargets _ _ _

/-- Links stay sound when all links to what is left out are taken away. -/
theorem prune {kept : List Component} {dropped : List ComponentId}
    (hkept : ∀ d ∈ components, d.id ∉ dropped → d ∈ kept) (h : SoundIn known components c)
    {c' : Component} (hid : c'.id = c.id) (hrefs : c'.referencedSymbols = c.referencedSymbols)
    (hlinks : c'.linkedIds = c.linkedIds.filter fun target => !dropped.contains target) :
    SoundIn known kept c' where
  target := by
    intro target htarget
    rw [hlinks, List.mem_filter] at htarget
    obtain ⟨hlinked, hnot⟩ := htarget
    have hnotdropped : target ∉ dropped := by simpa using hnot
    obtain ⟨name, hname, hoffered | hknown⟩ := h.target target hlinked
    · obtain ⟨d, hd, rfl, rfl⟩ := hoffered
      exact ⟨_, hrefs ▸ hname, Or.inl (.of_mem (hkept d hd hnotdropped))⟩
    · exact ⟨name, hrefs ▸ hname, Or.inr hknown⟩
  not_self := by
    rw [hid, hlinks]
    exact fun hself => h.not_self (List.mem_filter.mp hself).1
  nodup := by
    rw [hlinks]
    exact h.nodup.filter _

end SoundIn

/-- Components with the same names and identifiers offer the same. -/
theorem offers_map {components : List Component} (f : Component → Component)
    (hid : ∀ c, (f c).id = c.id) (hname : ∀ c, (f c).qualifiedName = c.qualifiedName)
    {name : String} {id : ComponentId} (h : Offers components name id) :
    Offers (components.map f) name id := by
  obtain ⟨d, hd, rfl, rfl⟩ := h
  exact ⟨f d, List.mem_map_of_mem hd, hid d, hname d⟩

/-- All links of the graph are sound, and the file of each component is in the graph. -/
structure CodeGraph.LinkSound (known : NameTable) (graph : CodeGraph) : Prop where
  sound : ∀ c ∈ graph.components, SoundIn known graph.components c
  owned : ∀ c ∈ graph.components, ∃ file ∈ graph.files, file.id = c.fileId

/-! ### Builds -/

namespace Builder

variable {builder : Builder} {contents : Contents} {files : List ParsedFile}

/-- Everything that is found in the files of a build is offered by its graph. -/
theorem offers_assemble (hfree : builder.fingerprint.CollisionFree contents)
    (hcodes : ∀ file ∈ files, file.CodesIn contents) (seed : LinkSeed)
    {c : Component} (hc : c ∈ builder.unlinked files) :
    Offers (builder.assemble files seed).graph.components c.qualifiedName c.id := by
  obtain ⟨d, hd, hid⟩ := Keyed.exists_mem_firsts (·.id) hc
  have hsub := Keyed.firsts_sublist (fun c : Component => c.id) (builder.unlinked files)
  obtain ⟨hcid, hcmem⟩ := content_of_mem_unlinked hcodes hc
  obtain ⟨hdid, hdmem⟩ := content_of_mem_unlinked hcodes (hsub.subset hd)
  have hname : d.qualifiedName = c.qualifiedName :=
    (hfree _ _ _ _ hdmem hcmem (hdid ▸ hcid ▸ hid)).1
  rw [components_assemble]
  exact offers_map (Component.linkedBy _ _) (fun _ => rfl) (fun _ => rfl) ⟨d, hd, hid, hname⟩

/-- The names a build knows are offered by its graph, or come from its seed. -/
theorem offers_of_nameTable (hfree : builder.fingerprint.CollisionFree contents)
    (hcodes : ∀ file ∈ files, file.CodesIn contents) {seed : LinkSeed}
    {name : String} {target : ComponentId}
    (h : (builder.assemble files seed).nameTable.find? name = some target) :
    Offers (builder.assemble files seed).graph.components name target ∨
      seed.known.find? name = some target := by
  rw [nameTable_assemble, NameTable.find?_override] at h
  rcases Option.or_eq_some_iff.mp h with hown | ⟨-, hseed⟩
  · obtain ⟨c, hc, rfl, rfl⟩ := NameTable.exists_of_find?_ofPairs hown
    exact Or.inl (offers_assemble hfree hcodes seed hc)
  · exact Or.inr hseed

theorem owned_assemble {seed : LinkSeed} {c : Component}
    (hc : c ∈ (builder.assemble files seed).graph.components) :
    ∃ file ∈ (builder.assemble files seed).graph.files, file.id = c.fileId := by
  rw [components_assemble] at hc
  obtain ⟨d, hd, rfl⟩ := List.mem_map.mp hc
  have hsub := Keyed.firsts_sublist (fun c : Component => c.id) (builder.unlinked files)
  obtain ⟨file, hfile, hmem⟩ := List.mem_flatMap.mp (hsub.subset hd)
  obtain ⟨parsed, code, -, -, rfl⟩ := (file.mem_unlinked builder.fingerprint).mp hmem
  exact ⟨builder.fileRecord file, List.mem_map_of_mem hfile, rfl⟩

/-- The graph of a build is sound up to the names of its seed. -/
theorem linkSound_assemble (hfree : builder.fingerprint.CollisionFree contents)
    (hcodes : ∀ file ∈ files, file.CodesIn contents) (seed : LinkSeed) :
    (builder.assemble files seed).graph.LinkSound seed.known where
  sound := by
    intro c hc
    rw [components_assemble] at hc
    obtain ⟨d, -, rfl⟩ := List.mem_map.mp hc
    exact SoundIn.linkedBy (fun name target => offers_of_nameTable hfree hcodes) _ d
  owned := fun c hc => owned_assemble hc

end Builder

/-! ### Updates -/

namespace Update

variable {fingerprint : Fingerprint} {contents : Contents} {builder : Builder} {fs : FileSystem}
  {directory : String} {previous : CodeGraph} {changes : ChangeSet} {supply : IdSupply}
  {known : NameTable}

/-- What is retained is sound without what is dropped. -/
theorem soundIn_retained (h : previous.LinkSound known) {c : Component}
    (hc : c ∈ retained previous changes) : SoundIn known (retained previous changes) c := by
  obtain ⟨d, hd, rfl⟩ := List.mem_map.mp hc
  have hsound := h.sound d (mem_untouched.mp hd).1
  have hpruned : SoundIn known (untouched (classify previous changes) previous.components)
      (pruneLinks (classify previous changes).dropped d) :=
    hsound.prune (fun e he hnot => mem_untouched_of_not_mem_dropped he hnot) rfl rfl rfl
  exact hpruned.mono fun name id => offers_map (pruneLinks _) (fun _ => rfl) fun _ => rfl

/-- The merged components offer what was retained. -/
theorem offers_of_retained (relinkRetained : Bool) {name : String} {target : ComponentId}
    (h : Offers (retained previous changes) name target) :
    Offers (apply builder relinkRetained fs directory previous changes supply).graph.components
      name target := by
  obtain ⟨f, heq, hf⟩ :=
    exists_relinked_eq_map builder relinkRetained fs directory previous changes supply
  have hmap : Offers ((retained previous changes).map f) name target := by
    rcases hf with rfl | ⟨table, rfl⟩
    · exact offers_map id (fun _ => rfl) (fun _ => rfl) h
    · exact offers_map (Component.linkedBy _ table) (fun _ => rfl) (fun _ => rfl) h
  obtain ⟨d, hd, hid, hname⟩ := hmap
  rw [graph_apply, heq]
  exact ⟨d, List.mem_append_left _ hd, hid, hname⟩

/-- The merged components offer what was built, if only as what was retained. -/
theorem offers_of_built (hfree : fingerprint.CollisionFree contents)
    (hworks : builder.WorksWith fingerprint contents fs directory
      (rebuildPaths builder fs directory changes))
    (hids : Identified fingerprint contents previous.components) (relinkRetained : Bool)
    {name : String} {id : ComponentId}
    (h : Offers (built builder fs directory previous changes supply).graph.components name id) :
    Offers (apply builder relinkRetained fs directory previous changes supply).graph.components
      name id := by
  obtain ⟨d, hd, rfl, rfl⟩ := h
  rw [graph_apply]
  rcases mem_additions_or hd with hadded | ⟨c, hc, hid⟩
  · exact .of_mem (List.mem_append_right _ hadded)
  · have hname := ((identified_relinked hids relinkRetained).content_eq hfree
      (identified_built hworks) hc hd hid).1
    exact ⟨c, List.mem_append_left _ hc, hid, hname⟩

/-- The names the parts of an update are linked against are offered by the merged components. -/
theorem offers_of_nameTable_built (hfree : fingerprint.CollisionFree contents)
    (hworks : builder.WorksWith fingerprint contents fs directory
      (rebuildPaths builder fs directory changes))
    (hids : Identified fingerprint contents previous.components) (relinkRetained : Bool)
    {name : String} {target : ComponentId}
    (h : (built builder fs directory previous changes supply).nameTable.find? name = some target) :
    Offers (apply builder relinkRetained fs directory previous changes supply).graph.components
      name target := by
  have hfree' : builder.fingerprint.CollisionFree contents := hworks.fingerprint_eq ▸ hfree
  rcases Builder.offers_of_nameTable hfree' hworks.codes h with hbuilt | hseed
  · exact offers_of_built hfree hworks hids relinkRetained hbuilt
  · obtain ⟨c, hc, rfl, rfl⟩ := NameTable.exists_of_find?_ofPairs hseed
    exact offers_of_retained relinkRetained (.of_mem hc)

/-- An update keeps the graph sound. -/
theorem linkSound_apply (hfree : fingerprint.CollisionFree contents)
    (hworks : builder.WorksWith fingerprint contents fs directory
      (rebuildPaths builder fs directory changes))
    (hids : Identified fingerprint contents previous.components)
    (h : previous.LinkSound known) (relinkRetained : Bool) :
    (apply builder relinkRetained fs directory previous changes supply).graph.LinkSound known where
  sound := by
    have hlinked : ∀ table (c : Component), SoundIn known
        (apply builder relinkRetained fs directory previous changes supply).graph.components
        (c.linkedBy (built builder fs directory previous changes supply).nameTable table) :=
      SoundIn.linkedBy fun name target hfound =>
        Or.inl (offers_of_nameTable_built hfree hworks hids relinkRetained hfound)
    intro c hc
    rw [graph_apply] at hc
    rcases List.mem_append.mp hc with hc | hc
    · obtain ⟨f, heq, hf⟩ :=
        exists_relinked_eq_map builder relinkRetained fs directory previous changes supply
      rw [heq] at hc
      obtain ⟨d, hd, rfl⟩ := List.mem_map.mp hc
      rcases hf with rfl | ⟨table, rfl⟩
      · exact (soundIn_retained h hd).mono fun name id => offers_of_retained relinkRetained
      · exact hlinked table d
    · have hbuilt := (additions_sublist _ _).subset hc
      rw [built, Builder.components_assemble] at hbuilt
      obtain ⟨d, -, rfl⟩ := List.mem_map.mp hbuilt
      exact hlinked _ d
  owned := by
    intro c hc
    rw [graph_apply] at hc ⊢
    rcases List.mem_append.mp hc with hc | hc
    · obtain ⟨f, heq, hf⟩ :=
        exists_relinked_eq_map builder relinkRetained fs directory previous changes supply
      rw [heq] at hc
      obtain ⟨d, hd, rfl⟩ := List.mem_map.mp hc
      obtain ⟨e, he, rfl⟩ := List.mem_map.mp hd
      obtain ⟨file, hfile, hid⟩ := exists_untouchedFile hids.nodup he
      refine ⟨file, List.mem_append_left _ hfile, hid.trans ?_⟩
      rcases hf with rfl | ⟨table, rfl⟩ <;> rfl
    · obtain ⟨file, hfile, hid⟩ := Builder.owned_assemble ((additions_sublist _ _).subset hc)
      exact ⟨file, List.mem_append_right _ hfile, hid⟩

end Update

/-! ### Filters -/

theorem CodeGraph.identified_filter {fingerprint : Fingerprint} {contents : Contents}
    {graph : CodeGraph} (h : Identified fingerprint contents graph.components)
    (keep : String → Bool) :
    Identified fingerprint contents (graph.filter keep).components :=
  (h.sublist List.filter_sublist).map (fun _ => rfl) (fun _ => rfl) fun _ => rfl

/-- What a filter does not drop it keeps. -/
theorem CodeGraph.mem_filter_of_id_notMem {components : List Component} {keep : String → Bool}
    {c : Component} (hc : c ∈ components)
    (h : c.id ∉ (components.filter fun c => !keep c.qualifiedName).map (·.id)) :
    c ∈ components.filter fun c => keep c.qualifiedName := by
  refine List.mem_filter.mpr ⟨hc, ?_⟩
  by_contra hkeep
  exact h (List.mem_map_of_mem (List.mem_filter.mpr ⟨hc, by simpa using hkeep⟩))

/-- A filter keeps the graph sound. -/
theorem CodeGraph.LinkSound.filter {known : NameTable} {graph : CodeGraph}
    (h : graph.LinkSound known) (keep : String → Bool) : (graph.filter keep).LinkSound known where
  sound := by
    intro c hc
    obtain ⟨d, hd, rfl⟩ := List.mem_map.mp hc
    have hpruned : SoundIn known (graph.components.filter fun c => keep c.qualifiedName)
        (d.without ((graph.components.filter fun c => !keep c.qualifiedName).map (·.id))) :=
      (h.sound d (List.mem_filter.mp hd).1).prune
        (fun e he hnot => CodeGraph.mem_filter_of_id_notMem he hnot) rfl rfl rfl
    exact hpruned.mono fun name id => offers_map (Component.without _) (fun _ => rfl) fun _ => rfl
  owned := by
    intro c hc
    obtain ⟨d, hd, rfl⟩ := List.mem_map.mp hc
    exact h.owned d (List.mem_filter.mp hd).1

/-! ### Storage -/

/-- What a database keeps of a document keeps the graph sound. -/
theorem CodeGraph.LinkSound.kept {known : NameTable} {document : Document}
    (h : document.graph.LinkSound known) : document.kept.graph.LinkSound known where
  sound := h.sound
  owned := by
    intro c hc
    obtain ⟨file, hfile, hid⟩ := h.owned c hc
    obtain ⟨last, hlast, heq⟩ := Keyed.exists_mem_lasts (·.id) hfile
    exact ⟨last, hlast, heq.trans hid⟩

/-! ### Runs -/

namespace Run

variable {fingerprint : Fingerprint} {contents : Contents} {known : NameTable}
  {graph graph' : CodeGraph}

/-- What is built is identified, and sound up to the names the build was given. -/
theorem linkSound_started (hfree : fingerprint.CollisionFree contents)
    (h : Started (Builder.WorksWith fingerprint contents) known graph) :
    Identified fingerprint contents graph.components ∧ graph.LinkSound known := by
  have hbuild : ∀ {builder : Builder} {fs : FileSystem} {directory : String} {paths : List String},
      builder.WorksWith fingerprint contents fs directory paths → ∀ seed : LinkSeed,
      Identified fingerprint contents (builder.buildFiles fs directory paths seed).graph.components ∧
        (builder.buildFiles fs directory paths seed).graph.LinkSound seed.known := by
    intro builder fs directory paths hworks seed
    obtain rfl := hworks.fingerprint_eq
    exact ⟨Builder.identified_assemble hworks.codes seed,
      Builder.linkSound_assemble hfree hworks.codes seed⟩
  cases h with
  | files hworks seed => exact hbuild hworks seed
  | @directory builder fs home directory collected supply output hfound hworks hbuilt =>
    obtain ⟨collected', hcollected, rfl⟩ := Builder.buildDirectory_eq_ok hbuilt
    obtain rfl := Option.some.inj (hfound.symm.trans hcollected)
    exact hbuild hworks ⟨[], ⟨.empty, supply⟩⟩

/-- Every step keeps the graph identified and sound. -/
theorem linkSound_step (hfree : fingerprint.CollisionFree contents)
    (hids : Identified fingerprint contents graph.components) (hsound : graph.LinkSound known)
    (h : Step (Builder.WorksWith fingerprint contents) graph graph') :
    Identified fingerprint contents graph'.components ∧ graph'.LinkSound known := by
  cases h with
  | update hworks hupdate =>
    rcases Update.update_eq_ok hupdate with ⟨-, hsame, -⟩ | ⟨-, rfl⟩
    · rw [hsame]
      exact ⟨hids, hsound⟩
    · exact ⟨Update.identified_apply hworks hids _, Update.linkSound_apply hfree hworks hids hsound _⟩
  | filter _ keep => exact ⟨CodeGraph.identified_filter hids keep, hsound.filter keep⟩
  | @reload store fs fs' _ repository commit document hsaved hloaded =>
    have hcurrent : (Document.ofGraph graph repository commit).isCurrent = true :=
      beq_self_eq_true currentSchema
    rcases GraphStore.eq_of_load hsaved hloaded hids.nodup hcurrent with rfl | rfl
    · exact ⟨hids, hsound⟩
    · have hkept : (Document.ofGraph graph repository commit).graph.LinkSound known := hsound
      exact ⟨hids, hkept.kept⟩

/-- In every run, each link leads to a component of the graph with a name that is referred to, or to
what such a name stood for in the seed of the first build; without names in that seed it always leads
to a component of the graph. No component is linked to itself or twice to another, and all components
belong to files of the graph. -/
theorem linkSound_reached (hfree : fingerprint.CollisionFree contents)
    (h : Reached (Builder.WorksWith fingerprint contents) known graph) :
    graph.LinkSound known ∧
    (known = [] → ∀ c ∈ graph.components, ∀ target ∈ c.linkedIds,
      ∃ d ∈ graph.components, d.id = target ∧ d.qualifiedName ∈ c.referencedSymbols) := by
  have hinv : Identified fingerprint contents graph.components ∧ graph.LinkSound known :=
    h.invariant (fun _ hstart => linkSound_started hfree hstart)
      fun _ _ hgraph hstep => linkSound_step hfree hgraph.1 hgraph.2 hstep
  refine ⟨hinv.2, fun hempty c hc target htarget => ?_⟩
  obtain ⟨name, hname, ⟨d, hd, hid, rfl⟩ | hknown⟩ := (hinv.2.sound c hc).target target htarget
  · exact ⟨d, hd, hid, hname⟩
  · rw [hempty] at hknown
    exact absurd hknown (by simp [NameTable.find?])

/-! ### A run -/

/-- Two components, of which the second refers to the first and to a name defined elsewhere. -/
def sampleFile : ParsedFile where
  relativePath := "m.mk"
  moduleName := "m"
  text := "ab"
  imports := []
  calledSymbols := []
  callableSymbols := []
  components :=
    [⟨"m.f", .function, none, [⟨0, 1⟩], []⟩, ⟨"m", .residual, none, [⟨1, 2⟩], ["m.f", "helper"]⟩]

/-- A builder that finds the sample in every file with the extension `mk`. -/
def sampleBuilder : Builder where
  config := .standard
  registry := ⟨[("mk", ⟨"sample", fun _ _ => .ok sampleFile⟩)]⟩
  fingerprint := .verbatim
  excluded := []

/-- A directory with one file. -/
def sampleTree : FileSystem where
  entries := [(["repo"], .directory), (["repo", "m.mk"], .file (.text "ab"))]
  current := "/"

theorem worksWith_sample :
    sampleBuilder.WorksWith .verbatim .clear sampleTree "/repo" ["m.mk"] where
  fingerprint_eq := rfl
  codes := by
    have hclear : ∀ file ∈ sampleBuilder.extractFiles sampleTree "/repo" ["m.mk"],
        ∀ c ∈ file.components, Text.Clear c.qualifiedName := by
      decide +kernel
    exact fun file hfile c hc _ _ => hclear file hfile c hc

/-- The build of the sample against a seed. -/
def sampleBuild (seed : LinkSeed) : CodeGraph :=
  (sampleBuilder.buildFiles sampleTree "/repo" ["m.mk"] seed).graph

/-- The file of the sample was modified. -/
def sampleChanges : ChangeSet :=
  ⟨["m.mk"], [], []⟩

/-- The sample is built, brought up to date, and filtered. -/
def sampleEnd : CodeGraph :=
  (Update.apply sampleBuilder true sampleTree "/repo" (sampleBuild ⟨[], ⟨.empty, ⟨0⟩⟩⟩)
    sampleChanges ⟨1⟩).graph.filter fun name => name != "helper"

theorem linkSound_reached_sample :
    (∃ c ∈ sampleEnd.components, c.linkedIds = ["m.f\x00a"]) ∧ sampleEnd.LinkSound [] := by
  have hbuilt : Reached (Builder.WorksWith .verbatim .clear) [] (sampleBuild ⟨[], ⟨.empty, ⟨0⟩⟩⟩) :=
    .start (.files worksWith_sample ⟨[], ⟨.empty, ⟨0⟩⟩⟩)
  have hupdated : update sampleBuilder true sampleTree "/repo" (sampleBuild ⟨[], ⟨.empty, ⟨0⟩⟩⟩)
      sampleChanges ⟨1⟩ = .ok (Update.apply sampleBuilder true sampleTree "/repo"
        (sampleBuild ⟨[], ⟨.empty, ⟨0⟩⟩⟩) sampleChanges ⟨1⟩) := by
    rw [update, if_neg (by decide +kernel), if_neg (by decide +kernel)]
  have hrebuilt : Update.rebuildPaths sampleBuilder sampleTree "/repo" sampleChanges =
      ["m.mk"] := by
    decide +kernel
  have hreached : Reached (Builder.WorksWith .verbatim .clear) [] sampleEnd :=
    (hbuilt.step (.update (hrebuilt ▸ worksWith_sample) hupdated)).step (.filter _ _)
  exact ⟨by decide +kernel, (linkSound_reached Fingerprint.collisionFree_verbatim hreached).1⟩

/-- A build that is given a name for a component outside of it is linked there. -/
theorem links_outside_of_seeded_build :
    ¬ ∀ (fingerprint : Fingerprint) (contents : Contents) (known : NameTable) (graph : CodeGraph),
      fingerprint.CollisionFree contents →
      Reached (Builder.WorksWith fingerprint contents) known graph →
      ∀ c ∈ graph.components, ∀ target ∈ c.linkedIds, ∃ d ∈ graph.components, d.id = target := by
  intro hall
  have hreached : Reached (Builder.WorksWith .verbatim .clear) [("helper", "elsewhere")]
      (sampleBuild ⟨[("helper", "elsewhere")], ⟨.empty, ⟨0⟩⟩⟩) :=
    .start (.files worksWith_sample ⟨[("helper", "elsewhere")], ⟨.empty, ⟨0⟩⟩⟩)
  have hinside := hall _ _ _ _ Fingerprint.collisionFree_verbatim hreached
  revert hinside
  decide +kernel

end Run

end CodeAtlas
