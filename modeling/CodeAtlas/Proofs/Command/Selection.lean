import CodeAtlas.Command.Inspection
import CodeAtlas.Proofs.Command.ReadBack
import CodeAtlas.Proofs.Query.View
import CodeAtlas.Proofs.Text.Segments
import CodeAtlas.Proofs.Text.Sorted

/-!
# The component that a name stands for

A name stands for the components whose dotted segments end with its own, and the dependencies of a
component are listed if there is exactly one. The full name of a component is no exception: it
stands for all components whose names end with it, so it is refused where there are others.

## Main definitions

* `Component.Answers`: a name stands for a component.
* `CodeGraph.shown`, `CodeGraph.answering`: the components of the view, and those of a name among
  them.
* `CodeGraph.Singles`: a name stands for one component only.
* `Command.Opens`: the document that a command works on.

## Main results

* `GraphView.findByName_perm`: what is found by name.
* `Command.selectComponent_of_singleton`, `Command.selectComponent_of_nil`,
  `Command.selectComponent_of_many`: what is selected where a name stands for one component, for
  none and for several.
* `Command.listing_selects`: what a listing of dependencies reports on.
-/

namespace CodeAtlas

/-! ### Names and components -/

/-- The dotted segments of the component's name end with those of the given one. -/
def Component.Answers (name : String) (c : Component) : Prop :=
  Text.split '.' name <:+ Text.split '.' c.qualifiedName

instance (name : String) : DecidablePred (Component.Answers name) :=
  fun c => inferInstanceAs (Decidable (Text.split '.' name <:+ Text.split '.' c.qualifiedName))

theorem Component.answers_self (c : Component) : c.Answers c.qualifiedName :=
  List.suffix_refl _

theorem GraphView.isNamed_node (name : String) (c : Component) :
    isNamed name c.node = decide (c.Answers name) := by
  have hdot : (".".toList : List Char) = ['.'] := rfl
  rw [Bool.eq_iff_iff, decide_eq_true_iff, Component.Answers, Text.split_suffix_split_iff hdot,
    Component.node, isNamed, Bool.or_eq_true, beq_iff_eq]

namespace CodeGraph

/-- The components that the view of a graph has: the first of each identifier. -/
def shown (graph : CodeGraph) : List Component :=
  Keyed.firsts (·.id) graph.components

/-- The components that a name stands for. -/
def answering (graph : CodeGraph) (name : String) : List Component :=
  graph.shown.filter fun c => c.Answers name

/-- The name stands for the component and for no other. -/
def Singles (graph : CodeGraph) (name : String) (c : Component) : Prop :=
  c ∈ graph.shown ∧ ∀ d ∈ graph.shown, d.Answers name ↔ d = c

variable {graph : CodeGraph} {name : String}

theorem shown_eq_components (hids : (graph.components.map (·.id)).Nodup) :
    graph.shown = graph.components :=
  Keyed.firsts_eq_self _ hids

theorem nodup_shown (graph : CodeGraph) : graph.shown.Nodup :=
  (Keyed.nodup_map_firsts (fun c : Component => c.id) graph.components).of_map

theorem mem_answering {c : Component} :
    c ∈ graph.answering name ↔ c ∈ graph.shown ∧ c.Answers name := by
  rw [answering, List.mem_filter, decide_eq_true_iff]

theorem answering_eq_singleton_iff {c : Component} :
    graph.answering name = [c] ↔ graph.Singles name c := by
  constructor
  · intro h
    have hmem (d : Component) : d ∈ graph.shown ∧ d.Answers name ↔ d = c := by
      rw [← mem_answering, h, List.mem_singleton]
    exact ⟨((hmem c).mpr rfl).1, fun d hd => ⟨fun hname => (hmem d).mp ⟨hd, hname⟩,
      fun heq => ((hmem d).mpr heq).2⟩⟩
  · rintro ⟨hc, hall⟩
    have hnodup : (graph.answering name).Nodup := graph.nodup_shown.filter _
    refine List.perm_singleton.mp
      ((List.perm_ext_iff_of_nodup hnodup (List.nodup_singleton c)).mpr fun d => ?_)
    rw [mem_answering, List.mem_singleton]
    constructor
    · rintro ⟨hd, hname⟩
      exact (hall d hd).mp hname
    · rintro rfl
      exact ⟨hc, (hall d hc).mpr rfl⟩

end CodeGraph

/-! ### Finding by name -/

namespace GraphView

variable {graph : CodeGraph}

/-- The component nodes of the view. -/
theorem filter_kindOf?_ofGraph (graph : CodeGraph) :
    (ofGraph graph).nodes.filter (fun node => (kindOf? node).isSome) =
      graph.shown.map Component.node := by
  have hkinds : (nodesOf graph).filter (fun node => (kindOf? node).isSome) =
      graph.components.map Component.node := by
    simp only [nodesOf, List.filter_append, List.filter_map, Function.comp_def, kindOf?,
      Option.isSome_none, Option.isSome_some, List.filter_false, List.filter_true, List.map_nil,
      List.nil_append]
    rfl
  have hsame : ∀ node ∈ nodesOf graph, ∀ other ∈ nodesOf graph, node.key = other.key →
      (kindOf? node).isSome = (kindOf? other).isSome := by
    intro node _ other _ hkey
    cases node <;> cases other <;> simp_all [kindOf?, GraphNode.key]
  rw [nodes_eq_firsts, Keyed.filter_firsts GraphNode.key hsame, hkinds, Keyed.firsts_map, CodeGraph.shown]
  refine congrArg _ (Keyed.firsts_congr _ (fun c d => ?_) _)
  rw [Bool.eq_iff_iff, beq_iff_eq, beq_iff_eq]
  exact NodeKey.component.injEq _ _ ▸ Iff.rfl

/-- What is found by name are the nodes of the components that the name stands for. -/
theorem findByName_perm (graph : CodeGraph) (name : String) :
    ((ofGraph graph).findByName name).Perm ((graph.answering name).map Component.node) := by
  have hnamed (node : GraphNode) :
      isNamed name node = (isNamed name node && (kindOf? node).isSome) := by
    cases node <;> simp [isNamed, kindOf?]
  have hfound : (ofGraph graph).nodes.filter (isNamed name) =
      (graph.answering name).map Component.node := by
    rw [funext hnamed, ← List.filter_filter, filter_kindOf?_ofGraph, List.filter_map]
    refine congrArg _ (List.filter_congr fun c _ => ?_)
    exact isNamed_node name c
  rw [← hfound]
  exact Text.sortBy_perm _ _

end GraphView

namespace Command

open CodeAtlas.GraphView (findByName_perm ofGraph)

/-! ### Selecting -/

section

variable {graph : CodeGraph} {name : String}

/-- A name that stands for one component selects it. -/
theorem selectComponent_of_singleton {c : Component} (h : graph.answering name = [c]) :
    selectComponent (ofGraph graph) name = .ok (c.id, c.qualifiedName) := by
  have hfound := findByName_perm graph name
  rw [h] at hfound
  rw [selectComponent, List.perm_singleton.mp hfound]
  rfl

/-- A name that stands for no component is unknown. -/
theorem selectComponent_of_nil (h : graph.answering name = []) :
    selectComponent (ofGraph graph) name = .error ("No component named '" ++ name ++ "'") := by
  have hfound := findByName_perm graph name
  rw [h] at hfound
  rw [selectComponent, List.perm_nil.mp hfound]

/-- A name that stands for several components is ambiguous, and all of them are told. -/
theorem selectComponent_of_many (h : 1 < (graph.answering name).length) :
    ∃ candidates : List String,
      candidates.Perm ((graph.answering name).map (·.qualifiedName)) ∧
      candidates.Pairwise (· ≤ ·) ∧
      selectComponent (ofGraph graph) name =
        .error ("'" ++ name ++ "' is ambiguous; candidates:\n  " ++
          Text.join "\n  " candidates) := by
  have hfound := findByName_perm graph name
  have hnames := hfound.map GraphNode.name
  rw [List.map_map] at hnames
  refine ⟨((ofGraph graph).findByName name).map GraphNode.name, hnames,
    List.pairwise_map.mpr (Text.pairwise_sortBy _ _), ?_⟩
  have hlength := hfound.length_eq
  rw [List.length_map] at hlength
  rw [selectComponent]
  match hnodes : (ofGraph graph).findByName name with
  | [] =>
    rw [hnodes, List.length_nil] at hlength
    omega
  | [node] =>
    rw [hnodes, List.length_singleton] at hlength
    omega
  | first :: second :: rest => cases first <;> rfl

end

/-! ### Listing -/

/-- A command that is asked for a graph works on the document, in the run after it was opened. -/
def Opens (globals : GlobalOptions) (config : Config) (graph : Option String) (run : Run)
    (document : Document) (after : Run) : Prop :=
  ∃ tree, (workingTree globals).runIn run = (.ok tree, run) ∧
    (loadDocument (storeOf config tree graph)).runIn run = (.ok document, after)

/-- What is printed about a component. -/
def listingOf (graph : CodeGraph) (options : DepsOptions) (c : Component) : String :=
  let (relation, nodes) := related (ofGraph graph) options c.id
  if options.json then (depsJson c.qualifiedName relation nodes).pretty ++ "\n"
  else String.join ((depsLines c.qualifiedName relation nodes).map (· ++ "\n"))

theorem runIn_printLine (line : String) (run : Run) :
    (Action.printLine line).runIn run =
      (.ok (), { run with stdout := run.stdout ++ (line ++ "\n") }) :=
  rfl

/-- Lines are printed one after the other. -/
theorem runIn_forM_printLine (lines : List String) (run : Run) :
    (lines.forM Action.printLine).runIn run =
      (.ok (), { run with stdout := run.stdout ++ String.join (lines.map (· ++ "\n")) }) := by
  induction lines generalizing run with
  | nil => simp
  | cons line lines ih =>
    change (Action.printLine line >>= fun _ => lines.forM Action.printLine).runIn run = _
    rw [Action.runIn_bind_of_ok (runIn_printLine line run), ih]
    simp [String.append_assoc]

section

variable {globals : GlobalOptions} {options : DepsOptions} {config : Config} {run after : Run}
  {document : Document}

/-- Opening changes nothing but files. -/
theorem Opens.after_eq {graph : Option String} (h : Opens globals config graph run document after) :
    after = { run with world := { run.world with files := after.world.files } } := by
  obtain ⟨tree, -, hload⟩ := h
  rw [runIn_loadDocument] at hload
  split at hload
  · split at hload
    · obtain rfl := (Prod.mk.inj hload).2
      rfl
    · cases hload
  · cases hload

/-- A component that is selected is reported on. -/
theorem runIn_listDependencies_of_ok
    (hopens : Opens globals config options.graph run document after)
    {c : Component} (h : selectComponent (ofGraph document.graph) options.name =
      .ok (c.id, c.qualifiedName)) :
    (listDependencies globals options config).runIn run =
      (.ok (), { after with stdout := after.stdout ++ listingOf document.graph options c }) := by
  obtain ⟨tree, htree, hload⟩ := hopens
  have hselect : (Action.ofExcept (fun message => [message])
      (selectComponent (ofGraph document.graph) options.name)).runIn after =
        (.ok (c.id, c.qualifiedName), after) := by
    rw [h]
    rfl
  unfold listDependencies
  rw [Action.runIn_bind_of_ok htree, Action.runIn_bind_of_ok hload, Action.runIn_bind_of_ok hselect,
    listingOf]
  dsimp only
  rcases related (ofGraph document.graph) options c.id with ⟨relation, nodes⟩
  cases options.json with
  | true => exact runIn_printLine _ after
  | false => exact runIn_forM_printLine _ after

/-- A name that selects nothing is refused, and nothing is printed. -/
theorem runIn_listDependencies_of_error
    (hopens : Opens globals config options.graph run document after)
    {message : String}
    (h : selectComponent (ofGraph document.graph) options.name = .error message) :
    (listDependencies globals options config).runIn run = (.error (.simple message), after) := by
  obtain ⟨tree, htree, hload⟩ := hopens
  unfold listDependencies
  rw [Action.runIn_bind_of_ok htree, Action.runIn_bind_of_ok hload]
  simp only [h]
  rfl

/-- A listing that succeeds reports on the one component that the name stands for. -/
theorem exists_singles_of_listing (hopens : Opens globals config options.graph run document after)
    {run' : Run} (h : (listDependencies globals options config).runIn run = (.ok (), run')) :
    ∃ c, document.graph.Singles options.name c ∧
      run' = { after with stdout := after.stdout ++ listingOf document.graph options c } := by
  match hanswering : document.graph.answering options.name with
  | [] =>
    rw [runIn_listDependencies_of_error hopens (selectComponent_of_nil hanswering)] at h
    cases h
  | [c] =>
    rw [runIn_listDependencies_of_ok hopens (selectComponent_of_singleton hanswering)] at h
    exact ⟨c, CodeGraph.answering_eq_singleton_iff.mp hanswering, (Prod.mk.inj h).2.symm⟩
  | first :: second :: rest =>
    have hmany : 1 < (document.graph.answering options.name).length := by
      rw [hanswering]
      exact Nat.one_lt_succ_succ _
    obtain ⟨candidates, -, -, hselect⟩ := selectComponent_of_many hmany
    rw [runIn_listDependencies_of_error hopens hselect] at h
    cases h

/-- A name of two components is refused, with all the names it can stand for. -/
theorem exists_candidates_of_listing
    (hopens : Opens globals config options.graph run document after)
    {c d : Component} (hc : c ∈ document.graph.answering options.name)
    (hd : d ∈ document.graph.answering options.name) (hne : c ≠ d) :
    ∃ candidates : List String,
      candidates.Perm ((document.graph.answering options.name).map (·.qualifiedName)) ∧
      candidates.Pairwise (· ≤ ·) ∧
      (listDependencies globals options config).runIn run =
        (.error (.simple ("'" ++ options.name ++ "' is ambiguous; candidates:\n  " ++
          Text.join "\n  " candidates)), after) := by
  have hboth : [c, d].Subperm (document.graph.answering options.name) :=
    List.subperm_of_subset (by simpa using hne) (by simp [hc, hd])
  obtain ⟨candidates, hperm, hsorted, hselect⟩ := selectComponent_of_many hboth.length_le
  exact ⟨candidates, hperm, hsorted, runIn_listDependencies_of_error hopens hselect⟩

/-- A listing reports on the one component that the name stands for, and on nothing else. A name of
no component is unknown, and a name of several is ambiguous. The full name of a component stands for
it alone exactly where the name of no other component ends with it. All this is about the components
of the view, which are those of the graph where no identifier is repeated. Besides what is printed,
nothing has changed but the files that opening the store changes. -/
theorem listing_selects (hopens : Opens globals config options.graph run document after) :
    let graph := document.graph
    let listing := (listDependencies globals options config).runIn run
    after = { run with world := { run.world with files := after.world.files } } ∧
    ((graph.components.map (·.id)).Nodup → graph.shown = graph.components) ∧
    (∀ c, graph.Singles options.name c →
      listing = (.ok (), { after with stdout := after.stdout ++ listingOf graph options c })) ∧
    (∀ run', listing = (.ok (), run') → ∃ c, graph.Singles options.name c ∧
      run' = { after with stdout := after.stdout ++ listingOf graph options c }) ∧
    ((∀ c ∈ graph.shown, ¬ c.Answers options.name) →
      listing = (.error (.simple ("No component named '" ++ options.name ++ "'")), after)) ∧
    (∀ c ∈ graph.shown, ∀ d ∈ graph.shown, c ≠ d → c.Answers options.name →
      d.Answers options.name → ∃ candidates : List String,
        candidates.Perm ((graph.answering options.name).map (·.qualifiedName)) ∧
        candidates.Pairwise (· ≤ ·) ∧
        listing = (.error (.simple ("'" ++ options.name ++ "' is ambiguous; candidates:\n  " ++
          Text.join "\n  " candidates)), after)) ∧
    ∀ c ∈ graph.shown, options.name = c.qualifiedName →
      (graph.Singles options.name c ↔ ∀ d ∈ graph.shown, d.Answers options.name → d = c) := by
  intro graph listing
  refine ⟨hopens.after_eq, CodeGraph.shown_eq_components, fun c hsingles => ?_,
    fun run' => exists_singles_of_listing hopens, fun hnone => ?_,
    fun c hc d hd hne hcname hdname => ?_, fun c hc hname => ?_⟩
  · exact runIn_listDependencies_of_ok hopens
      (selectComponent_of_singleton (CodeGraph.answering_eq_singleton_iff.mpr hsingles))
  · refine runIn_listDependencies_of_error hopens (selectComponent_of_nil ?_)
    exact List.filter_eq_nil_iff.mpr fun c hc => by simpa using hnone c hc
  · exact exists_candidates_of_listing hopens (CodeGraph.mem_answering.mpr ⟨hc, hcname⟩)
      (CodeGraph.mem_answering.mpr ⟨hd, hdname⟩) hne
  · refine ⟨fun hsingles d hd => (hsingles.2 d hd).mp, fun hothers => ⟨hc, fun d hd => ?_⟩⟩
    refine ⟨hothers d hd, ?_⟩
    rintro rfl
    rw [hname]
    exact d.answers_self

end

/-- A directory that is named is the working tree. -/
theorem runIn_workingTree {globals : GlobalOptions} {run : Run} {path tree : String}
    (hpath : globals.repository = some path) (haddress : looksLikeAddress path = false)
    (hdirectory : run.world.files.isDirectory path = true)
    (htree : run.world.files.canonical path = .ok tree) :
    (workingTree globals).runIn run = (.ok tree, run) := by
  have hsource : (repositorySource globals).runIn run = (.ok (.tree tree), run) := by
    simp only [repositorySource, hpath, haddress, Bool.false_eq_true, ↓reduceIte,
      Action.runIn_bind, Action.runIn_files, hdirectory, htree]
    rfl
  exact Action.runIn_bind_of_ok hsource

/-! ### A name that ends another -/

namespace NamesakeSample

/-- A component without links. -/
def part (id : ComponentId) (qualifiedName : String) : Component :=
  ⟨id, qualifiedName, "", .function, "file", none, [], [], [], []⟩

/-- A module and a function of its name in another module. -/
def document : Document :=
  .ofGraph ⟨[part "1" "a", part "2" "b.a"], [], .empty⟩ none none

def store : GraphStore :=
  .ofPath "/out/graph.json"

/-- The run in which the document is stored. -/
def run : Run :=
  ⟨{ loneWorld with files := (store.save document loneWorld.files).2 }, "", ""⟩

def listing (name : String) : DepsOptions :=
  ⟨name, false, false, false, some "/out/graph.json"⟩

theorem opens_document (name : String) :
    Opens loneGlobals .standard (listing name).graph run document run := by
  have hresult : (store.save document loneWorld.files).1 = .ok () := by decide +kernel
  have hsave : store.save document loneWorld.files = (.ok (), run.world.files) :=
    Prod.ext hresult rfl
  have hformat : store.format = .json := by decide +kernel
  have hload : (store.load run.world.files).1 = .ok document :=
    Document.load_of_save_json hformat (beq_self_eq_true currentSchema) (by decide +kernel) hsave
  have hopened : opened store run = run := by
    rw [opened, GraphStore.load_snd, hformat]
  have hreads : (loadDocument store).runIn run = (.ok document, opened store run) :=
    (readsBack_of_load (isPresent_of_save hsave) hload "/repo").loadDocument_eq
  rw [hopened] at hreads
  exact ⟨"/repo", runIn_workingTree rfl (by decide +kernel) (by decide +kernel) (by decide +kernel),
    hreads⟩

theorem shown_document : document.graph.shown = [part "1" "a", part "2" "b.a"] := by
  decide +kernel

/-- The longer name is listed, and the shorter one is refused. -/
theorem listing_selects_longer :
    (listDependencies loneGlobals (listing "b.a") .standard).runIn run =
      (.ok (), { run with
        stdout := run.stdout ++ listingOf document.graph (listing "b.a") (part "2" "b.a") }) ∧
    ∃ candidates : List String, "a" ∈ candidates ∧ "b.a" ∈ candidates ∧
      (listDependencies loneGlobals (listing "a") .standard).runIn run =
        (.error (.simple ("'a' is ambiguous; candidates:\n  " ++ Text.join "\n  " candidates)),
          run) := by
  obtain ⟨-, -, hlists, -, -, -, hfull⟩ := listing_selects (opens_document "b.a")
  obtain ⟨-, -, -, -, -, hrefuses, -⟩ := listing_selects (opens_document "a")
  rw [shown_document] at hfull hrefuses
  refine ⟨hlists _ ((hfull (part "2" "b.a") (by decide) rfl).mpr (by decide +kernel)), ?_⟩
  obtain ⟨candidates, hperm, -, hlisting⟩ := hrefuses (part "1" "a") (by decide) (part "2" "b.a")
    (by decide) (by decide) (by decide +kernel) (by decide +kernel)
  have hanswering : (document.graph.answering "a").map (·.qualifiedName) = ["a", "b.a"] := by
    decide +kernel
  rw [show (listing "a").name = "a" from rfl, hanswering] at hperm
  exact ⟨candidates, hperm.mem_iff.mpr (by decide), hperm.mem_iff.mpr (by decide), hlisting⟩

/-- A full name can be refused although no other component has it. -/
theorem full_name_refused :
    ¬ ∀ (globals : GlobalOptions) (options : DepsOptions) (config : Config) (run after : Run)
      (document : Document), Opens globals config options.graph run document after →
      (document.graph.components.map (·.qualifiedName)).Nodup →
      ∀ c ∈ document.graph.components, options.name = c.qualifiedName →
        (listDependencies globals options config).runIn run =
          (.ok (), { after with stdout := after.stdout ++ listingOf document.graph options c }) := by
  intro hall
  have hlists := hall loneGlobals (listing "a") .standard run run document (opens_document "a")
    (by decide) (part "1" "a") (by decide) rfl
  have hanswers : ∀ c ∈ [part "1" "a", part "2" "b.a"], c ∈ document.graph.answering "a" := by
    decide +kernel
  obtain ⟨candidates, -, -, hrefused⟩ := exists_candidates_of_listing (opens_document "a")
    (hanswers (part "1" "a") (by decide)) (hanswers (part "2" "b.a") (by decide)) (by decide)
  rw [hlists] at hrefused
  cases hrefused

end NamesakeSample

end Command

end CodeAtlas
