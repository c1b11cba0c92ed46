import CodeAtlas.Proofs.MintedIds
import CodeAtlas.Proofs.Pipeline.PassedStages

/-!
# Built-in stages keep their declarations

A stage declares which attributes it needs, which it reads if they are set, and which it produces. The
stages of an analysis keep to that. What one of them does depends on the repository, on what is
outside and on the attributes it declares, and on nothing else in the container; from another supply
of identifiers it does the same, with the identifiers it mints exchanged. Where everything it needs is
set to a value of the right sort, it does not fail on an attribute, and what it returns is what it
declares.

## Main definitions

* `Stage.BuiltIn`: the stages of an analysis.
* `Container.AgreesOn`: containers of one repository with the same values under some keys.
* `Stage.reissued`: the result of a run with the identifiers of another supply.
* `Stage.SparesHeld`: a supply that will not give the identifiers that a container holds.
* `Stage.Meets`: an outcome that is no failure on an attribute and that passes the check of returned
  attributes.

## Main results

* `Stage.run_congr`: the attributes that a built-in stage reads are declared.
* `Stage.run_reissue`: a run from another supply.
* `Stage.meets_run`: a built-in stage finds what it needs and returns what it declares.
* `Stage.built_in_stage_keeps_contract`: the three together.
-/

namespace CodeAtlas

/-! ### The built-in stages -/

/-- The stages of an analysis, with all their settings. -/
inductive Stage.BuiltIn : Stage → Prop
  | localRepository : BuiltIn .localRepository
  | cloneRepository : BuiltIn .cloneRepository
  | gitMetadata : BuiltIn .gitMetadata
  | loadGraph (format : Option GraphFormat) : BuiltIn (.loadGraph format)
  | buildGraph (builder : Builder) : BuiltIn (.buildGraph builder)
  | detectChanges (mode : ChangeDetection) (since : Option String) (builder : Builder) :
      BuiltIn (.detectChanges mode since builder)
  | updateGraph (updater : Updater) : BuiltIn (.updateGraph updater)
  | filterComponents (pattern : Pattern) : BuiltIn (.filterComponents pattern)
  | saveGraph (format : Option GraphFormat) : BuiltIn (.saveGraph format)

/-- The attributes that a stage declares to read. -/
def StageSchema.reads (schema : StageSchema) : List AttributeKey :=
  schema.needs ++ schema.optional

/-! ### Reading attributes -/

/-- The containers are about one repository, and hold the same under some keys. -/
structure Container.AgreesOn (keys : List AttributeKey) (container container' : Container) :
    Prop where
  repository_eq : container'.repository = container.repository
  get?_eq : ∀ key ∈ keys, container'.attributes.get? key = container.attributes.get? key

namespace Container

variable {container container' : Container}

theorem read_congr {α : Type} {key : AttributeKey}
    (h : container'.attributes.get? key = container.attributes.get? key) (expected : ValueSort)
    (view : AttributeValue → Option α) :
    container'.read key expected view = container.read key expected view := by
  rw [read, read, h]

/-- The components that are read are the value of their attribute. -/
theorem get?_of_components {components : List Component}
    (h : container.components = .ok components) :
    container.attributes.get? .components = some (.components components) := by
  unfold Container.components read at h
  split at h
  · cases h
  · rename_i value hvalue
    cases value <;> simp_all

/-- So is the table of external symbols. -/
theorem get?_of_externalSymbols {table : SymbolTable} (h : container.externalSymbols = .ok table) :
    container.attributes.get? .externalSymbols = some (.externalSymbols table) := by
  unfold Container.externalSymbols read at h
  split at h
  · cases h
  · rename_i value hvalue
    cases value <;> simp_all

/-- The attributes that are needed are set, and all values are of the sorts of their keys. -/
structure Ready (schema : StageSchema) (container : Container) : Prop where
  set : ∀ key ∈ schema.needs, container.has key = true
  accepted : ∀ key value, container.attributes.get? key = some value → key.accepts value = true

/-- A value of the sort of its key can be read. -/
theorem exists_read {α : Type} {key : AttributeKey} {expected : ValueSort}
    (hsort : key.sort? = some expected) (hset : container.has key = true)
    (haccepted : ∀ value, container.attributes.get? key = some value → key.accepts value = true)
    {view : AttributeValue → Option α}
    (hview : ∀ value, value.sort = expected → (view value).isSome = true) :
    ∃ seen, container.read key expected view = .ok seen := by
  obtain ⟨value, hvalue⟩ := Option.isSome_iff_exists.mp hset
  have hvalueSort : value.sort = expected := by
    have haccepts := haccepted value hvalue
    rw [AttributeKey.accepts, hsort] at haccepts
    exact (beq_iff_eq.mp haccepts).symm
  obtain ⟨seen, hseen⟩ := Option.isSome_iff_exists.mp (hview value hvalueSort)
  exact ⟨seen, by simp only [read, hvalue, hseen]⟩

namespace Ready

variable {schema : StageSchema}

theorem exists_components (h : Ready schema container) (hneeds : .components ∈ schema.needs) :
    ∃ components, container.components = .ok components :=
  exists_read rfl (h.set _ hneeds) (h.accepted _) fun value hvalue => by
    cases value <;> simp_all [AttributeValue.sort]

theorem exists_files (h : Ready schema container) (hneeds : .files ∈ schema.needs) :
    ∃ files, container.files = .ok files :=
  exists_read rfl (h.set _ hneeds) (h.accepted _) fun value hvalue => by
    cases value <;> simp_all [AttributeValue.sort]

theorem exists_externalSymbols (h : Ready schema container)
    (hneeds : .externalSymbols ∈ schema.needs) :
    ∃ table, container.externalSymbols = .ok table :=
  exists_read rfl (h.set _ hneeds) (h.accepted _) fun value hvalue => by
    cases value <;> simp_all [AttributeValue.sort]

theorem exists_changes (h : Ready schema container) (hneeds : .changes ∈ schema.needs) :
    ∃ changes, container.changes = .ok changes :=
  exists_read rfl (h.set _ hneeds) (h.accepted _) fun value hvalue => by
    cases value <;> simp_all [AttributeValue.sort]

theorem exists_optionalText (h : Ready schema container) {key : AttributeKey}
    (hsort : key.sort? = some .optionalText) (hset : container.has key = true) :
    ∃ text, container.optionalText key = .ok text :=
  exists_read hsort hset (h.accepted _) fun value hvalue => by
    cases value <;> simp_all [AttributeValue.sort]

/-- The attributes of a graph are read together. -/
theorem exists_codeGraph (h : Ready schema container)
    (hneeds : ∀ key ∈ Stage.graphKeys, key ∈ schema.needs) :
    ∃ graph, container.codeGraph = .ok graph := by
  obtain ⟨components, hcomponents⟩ := h.exists_components (hneeds _ (by decide))
  obtain ⟨files, hfiles⟩ := h.exists_files (hneeds _ (by decide))
  obtain ⟨table, htable⟩ := h.exists_externalSymbols (hneeds _ (by decide))
  exact ⟨⟨components, files, table⟩, by simp [codeGraph, hcomponents, hfiles, htable]; rfl⟩

end Ready

end Container

/-! ### Undeclared attributes are not read -/

namespace Stage

variable {stage : Stage} {container container' : Container}

theorem recordedCommit_congr
    (h : container'.attributes.get? .commitHash = container.attributes.get? .commitHash) :
    recordedCommit container' = recordedCommit container := by
  unfold recordedCommit Container.has Attributes.contains Container.optionalText Container.read
  rw [h]

theorem baseCommit_congr {mode : ChangeDetection} {since : Option String}
    (h : since = none → mode ≠ .snapshot →
      container'.attributes.get? .previousCommitHash =
        container.attributes.get? .previousCommitHash) :
    baseCommit container' mode since = baseCommit container mode since := by
  cases since with
  | some commit => rfl
  | none =>
    cases mode with
    | snapshot => rfl
    | auto => exact Container.read_congr (h rfl (by simp)) _ _
    | git => exact Container.read_congr (h rfl (by simp)) _ _

theorem files_mem_needs_detectChanges (mode : ChangeDetection) (since : Option String)
    (builder : Builder) : .files ∈ (detectChanges mode since builder).schema.needs := by
  unfold detectChanges
  dsimp only
  generalize (since.isSome || _) = withoutCommit
  cases withoutCommit <;> decide

/-- The stored commit is declared whenever it is asked for. -/
theorem previousCommitHash_mem_needs_detectChanges {mode : ChangeDetection} {since : Option String}
    (builder : Builder) (hsince : since = none)
    (hmode : (if since.isSome then .git else mode) ≠ ChangeDetection.snapshot) :
    .previousCommitHash ∈ (detectChanges mode since builder).schema.needs := by
  subst hsince
  have hnot : (mode == ChangeDetection.snapshot) = false := by simpa using hmode
  simp [detectChanges, hnot, detectChangesSchema]

/-- The commit to compare with can be read. -/
theorem exists_baseCommit {mode : ChangeDetection} {since : Option String} {builder : Builder}
    (hready : container.Ready (detectChanges mode since builder).schema) :
    ∃ commit, baseCommit container (if since.isSome then .git else mode) since = .ok commit := by
  cases since with
  | some commit => exact ⟨some commit, rfl⟩
  | none =>
    have hread (hmode : mode ≠ .snapshot) :
        ∃ commit, container.optionalText .previousCommitHash = .ok commit :=
      hready.exists_optionalText rfl
        (hready.set _ (previousCommitHash_mem_needs_detectChanges builder rfl hmode))
    cases mode with
    | snapshot => exact ⟨none, rfl⟩
    | auto => exact hread (by simp)
    | git => exact hread (by simp)

/-- What a built-in stage does depends on the repository and the attributes it declares. -/
theorem run_congr (h : stage.BuiltIn) (hagree : container.AgreesOn stage.schema.reads container') :
    stage.run container' = stage.run container := by
  have hrepository := hagree.repository_eq
  funext world
  cases h with
  | localRepository => simp only [localRepository, hrepository]
  | cloneRepository => simp only [cloneRepository, hrepository]
  | gitMetadata => simp only [gitMetadata, hrepository]
  | loadGraph format => simp only [loadGraph, storeOf, hrepository]
  | buildGraph builder => simp only [buildGraph, hrepository]
  | detectChanges mode since builder =>
    have hfiles : container'.files = container.files :=
      Container.read_congr (hagree.get?_eq _
        (List.mem_append_left _ (files_mem_needs_detectChanges mode since builder))) _ _
    have hcommit : baseCommit container' (if since.isSome then .git else mode) since =
        baseCommit container (if since.isSome then .git else mode) since :=
      baseCommit_congr fun hsince hmode =>
        hagree.get?_eq _ (List.mem_append_left _
          (previousCommitHash_mem_needs_detectChanges builder hsince hmode))
    simp only [detectChanges, usesGit, gitChanges, hcommit, hfiles, hrepository]
  | updateGraph updater =>
    have hgraph : container'.codeGraph = container.codeGraph :=
      Container.codeGraph_congr fun key hkey => hagree.get?_eq key
        (by simp [updateGraph, updateGraphSchema, StageSchema.reads, hkey])
    have hchanges : container'.changes = container.changes :=
      Container.read_congr (hagree.get?_eq .changes (by
        simp [updateGraph, updateGraphSchema, StageSchema.reads])) _ _
    simp only [updateGraph, hgraph, hchanges, hrepository]
  | filterComponents pattern =>
    have hcomponents : container'.components = container.components :=
      Container.read_congr (hagree.get?_eq .components (by
        simp [filterComponents, filterComponentsSchema, StageSchema.reads])) _ _
    simp only [filterComponents, hcomponents]
  | saveGraph format =>
    have hgraph : container'.codeGraph = container.codeGraph :=
      Container.codeGraph_congr fun key hkey => hagree.get?_eq key
        (by simp [saveGraph, saveGraphSchema, StageSchema.reads, hkey])
    have hcommit : recordedCommit container' = recordedCommit container :=
      recordedCommit_congr (hagree.get?_eq .commitHash (by
        simp [saveGraph, saveGraphSchema, StageSchema.reads]))
    simp only [saveGraph, storeOf, hgraph, hcommit, hrepository]

/-! ### Built-in stages return what they declare -/

/-- The outcome is no failure on an attribute, and attributes that are returned pass their check. -/
structure Meets (schema : StageSchema) (outcome : StageOutcome) : Prop where
  not_attribute : ∀ error, outcome ≠ .failed (.attribute error)
  verified : ∀ updates, outcome = .returned updates → Pipeline.violation? schema updates = none

variable {schema : StageSchema}

theorem meets_returned {updates : Attributes} (h : Pipeline.violation? schema updates = none) :
    Meets schema (.returned updates) where
  not_attribute := fun _ heq => StageOutcome.noConfusion heq
  verified := fun _ heq => StageOutcome.returned.inj heq ▸ h

theorem meets_failed {failure : StageError} (h : ∀ error, failure ≠ .attribute error) :
    Meets schema (.failed failure) where
  not_attribute := fun error heq => h error (StageOutcome.failed.inj heq)
  verified := fun _ heq => StageOutcome.noConfusion heq

theorem meets_brokenOff : Meets schema .brokenOff where
  not_attribute := fun _ heq => StageOutcome.noConfusion heq
  verified := fun _ heq => StageOutcome.noConfusion heq

/-- A stage whose attributes can be read does what follows. -/
theorem meets_reading {world : World} {outcome : StageOutcome × World}
    {body : Except AttributeError (StageOutcome × World)} (hbody : body = .ok outcome)
    (h : Meets schema outcome.1) : Meets schema (reading world body).1 := by
  rw [hbody]
  exact h

theorem meets_run_cloneRepository (container : Container) (world : World) :
    Meets cloneRepositorySchema (cloneRepository.run container world).1 := by
  unfold cloneRepository
  dsimp only
  split
  · exact meets_failed (by simp)
  · split
    · exact meets_returned rfl
    · split
      · exact meets_returned rfl
      · exact meets_failed (by simp)

/-- The changes are found, or version control gives no answer. -/
theorem meets_run_detectChanges {mode : ChangeDetection} {since : Option String} {builder : Builder}
    (hready : container.Ready (detectChanges mode since builder).schema) (world : World) :
    Meets (detectChanges mode since builder).schema
      ((detectChanges mode since builder).run container world).1 := by
  obtain ⟨commit, hcommit⟩ := exists_baseCommit hready
  obtain ⟨files, hfiles⟩ := hready.exists_files (files_mem_needs_detectChanges mode since builder)
  have hreturned (changes : ChangeSet) : Meets (detectChanges mode since builder).schema
      (.returned (.ofList [(.changes, .changes changes)])) :=
    meets_returned (Pipeline.violation?_eq_none.mpr (delivers_detectChanges mode since builder changes))
  generalize (detectChanges mode since builder).schema = schema at hreturned ⊢
  simp only [detectChanges, hcommit, hfiles, bind, Except.bind]
  generalize (if since.isSome = true then ChangeDetection.git else mode) = chosen
  by_cases hgit : usesGit container world chosen commit = true
  · simp only [hgit, ↓reduceIte]
    cases commit with
    | none => exact meets_failed (by simp)
    | some commit =>
      dsimp only
      split
      · exact meets_reading rfl (meets_failed (by simp))
      · split
        · dsimp only [pure, Except.pure]
          generalize Snapshot.changes builder _ _ _ files = found
          cases found with
          | none => exact meets_brokenOff
          | some found => exact hreturned _
        · exact hreturned _
  · simp only [hgit, Bool.false_eq_true, ↓reduceIte]
    dsimp only [pure, Except.pure]
    generalize Snapshot.changes builder _ _ _ files = found
    cases found with
    | none => exact meets_brokenOff
    | some found => exact hreturned _

/-- A built-in stage that has what it needs does not fail on an attribute, and returns what it
declares. -/
theorem meets_run (h : stage.BuiltIn) (hready : container.Ready stage.schema) (world : World) :
    Meets stage.schema (stage.run container world).1 := by
  cases h with
  | localRepository =>
    simp only [localRepository]
    split
    · exact meets_returned rfl
    · exact meets_failed (by simp)
  | cloneRepository => exact meets_run_cloneRepository container world
  | gitMetadata => exact meets_returned rfl
  | loadGraph format =>
    simp only [loadGraph]
    split
    · exact meets_failed (by simp)
    · exact meets_returned rfl
  | buildGraph builder =>
    simp only [buildGraph]
    split
    · exact meets_brokenOff
    · exact meets_failed (by simp)
    · exact meets_returned rfl
  | detectChanges mode since builder => exact meets_run_detectChanges hready world
  | updateGraph updater =>
    obtain ⟨previous, hprevious⟩ := hready.exists_codeGraph fun key hkey => by
      simp [updateGraph, updateGraphSchema, hkey]
    obtain ⟨changes, hchanges⟩ := hready.exists_changes (by simp [updateGraph, updateGraphSchema])
    simp only [updateGraph, hprevious, hchanges, bind, Except.bind]
    split
    · exact meets_reading rfl (meets_failed (by simp))
    · exact meets_reading rfl (meets_returned rfl)
  | filterComponents pattern =>
    obtain ⟨components, hcomponents⟩ := hready.exists_components
      (by simp [filterComponents, filterComponentsSchema])
    simp only [filterComponents, hcomponents, bind, Except.bind]
    exact meets_reading rfl (meets_returned rfl)
  | saveGraph format =>
    obtain ⟨graph, hgraph⟩ := hready.exists_codeGraph fun key hkey => hkey
    obtain ⟨commit, hcommit⟩ : ∃ commit, recordedCommit container = .ok commit := by
      unfold recordedCommit
      split
      · exact hready.exists_optionalText rfl ‹_›
      · exact ⟨none, rfl⟩
    rw [saveGraph_run_of_ok hcommit hgraph]
    split
    · exact meets_failed (by simp)
    · exact meets_returned rfl

end Stage

/-! ### Another supply -/

/-- The world with another supply of identifiers. -/
def World.resupply (world : World) (supply : IdSupply) : World :=
  { world with supply := supply }

@[simp] theorem World.files_resupply (world : World) (supply : IdSupply) :
    (world.resupply supply).files = world.files :=
  rfl

@[simp] theorem World.home_resupply (world : World) (supply : IdSupply) :
    (world.resupply supply).home = world.home :=
  rfl

@[simp] theorem World.supply_resupply (world : World) (supply : IdSupply) :
    (world.resupply supply).supply = supply :=
  rfl

/-- A step that has nothing to do with the supply. -/
def World.Supplyless {α : Type} (f : World → α × World) : Prop :=
  ∀ world supply, f (world.resupply supply) = ((f world).1, (f world).2.resupply supply)

namespace World

theorem Supplyless.supply_eq {α : Type} {f : World → α × World} (h : Supplyless f)
    (world : World) : (f world).2.supply = world.supply := by
  have hsame : f world = ((f world).1, (f world).2.resupply world.supply) := h world world.supply
  exact congrArg (fun result => result.2.supply) hsame

theorem supplyless_askGit (args : List String) : Supplyless fun world => world.askGit args := by
  intro world supply
  unfold askGit resupply
  dsimp only
  split <;> rfl

end World

namespace Git

open World (Supplyless supplyless_askGit)

theorem supplyless_output (args : List String) : Supplyless fun world => output world args := by
  intro world supply
  have hask := supplyless_askGit args world supply
  unfold output
  dsimp only at hask ⊢
  rw [hask]
  split <;> rfl

theorem supplyless_outputLine? (args : List String) :
    Supplyless fun world => outputLine? world args := by
  intro world supply
  have houtput := supplyless_output args world supply
  unfold outputLine?
  dsimp only at houtput ⊢
  rw [houtput]
  rcases output world args with ⟨result, after⟩
  cases result <;> rfl

theorem supplyless_changesSince (commit : String) :
    Supplyless fun world => changesSince world commit := by
  intro world supply
  have hdiff := supplyless_output ["diff", "--name-status", "--no-renames", "-z", commit] world supply
  unfold changesSince
  dsimp only at hdiff ⊢
  rw [hdiff]
  rcases output world ["diff", "--name-status", "--no-renames", "-z", commit] with ⟨result, after⟩
  cases result with
  | error error => rfl
  | ok report =>
    have hlist := supplyless_output ["ls-files", "--others", "--exclude-standard", "-z"] after supply
    dsimp only at hlist ⊢
    rw [hlist]
    rcases output after ["ls-files", "--others", "--exclude-standard", "-z"] with ⟨result, after⟩
    cases result <;> rfl

theorem supplyless_clone (url destination : String) :
    Supplyless fun world => clone world url destination := by
  intro world supply
  unfold clone World.resupply
  dsimp only
  split
  · rfl
  · rename_i fs _
    have hask := supplyless_askGit ["clone", "--quiet", url, destination]
      { world with files := fs } supply
    unfold World.resupply at hask
    dsimp only at hask
    rw [hask]
    split <;> rfl

end Git

/-! ### Built-in stages from another supply -/

/-- The value with other identifiers of external symbols. -/
def AttributeValue.rename (f : ExternalId → ExternalId) : AttributeValue → AttributeValue
  | .components cs => .components (cs.map (Component.rename f))
  | .externalSymbols table => .externalSymbols (table.rename f)
  | value => value

/-- The identifiers of external symbols in a value. -/
def AttributeValue.externalIds : AttributeValue → List ExternalId
  | .components cs => cs.flatMap (·.externalIds)
  | .externalSymbols table => table.entries.map (·.2)
  | _ => []

/-- The values with other identifiers of external symbols. -/
def Attributes.rename (f : ExternalId → ExternalId) (attributes : Attributes) : Attributes where
  entries := attributes.entries.map fun entry => (entry.1, entry.2.rename f)
  sorted := by
    rw [KeysIncrease, List.pairwise_map]
    exact attributes.sorted

/-- The outcome with other identifiers of external symbols. -/
def StageOutcome.rename (f : ExternalId → ExternalId) : StageOutcome → StageOutcome
  | .returned updates => .returned (updates.rename f)
  | .failed error => .failed error
  | .brokenOff => .brokenOff

theorem AttributeValue.rename_id (value : AttributeValue) : value.rename id = value := by
  have hgraph := CodeGraph.rename_id
  cases value with
  | components cs =>
    exact congrArg (fun graph => AttributeValue.components graph.components) (hgraph ⟨cs, [], .empty⟩)
  | externalSymbols table =>
    exact congrArg (fun graph => AttributeValue.externalSymbols graph.externalSymbols)
      (hgraph ⟨[], [], table⟩)
  | _ => rfl

theorem StageOutcome.rename_id (outcome : StageOutcome) : outcome.rename id = outcome := by
  cases outcome with
  | returned updates =>
    obtain ⟨entries, sorted⟩ := updates
    have hentries : entries.map (fun entry => (entry.1, entry.2.rename id)) = entries := by
      conv_rhs => rw [← List.map_id entries]
      exact List.map_congr_left fun entry _ => Prod.ext rfl entry.2.rename_id
    simp only [rename, Attributes.rename, hentries]
  | failed error => rfl
  | brokenOff => rfl

namespace Stage

open World (Supplyless)

variable {stage : Stage} {container container' : Container}

/-- The result of a run that began with a supply, with the identifiers of another supply in place of
those that were minted. -/
def reissued (supply supply' : IdSupply) (result : StageOutcome × World) : StageOutcome × World :=
  let count := result.2.supply.next - supply.next
  (result.1.rename (supply.exchange supply' count), result.2.resupply ⟨supply'.next + count⟩)

/-- Where nothing is minted, nothing is exchanged. -/
theorem reissued_self (outcome : StageOutcome) (world : World) (supply' : IdSupply) :
    reissued world.supply supply' (outcome, world) = (outcome, world.resupply supply') := by
  simp [reissued, StageOutcome.rename_id]

/-- So the outcome is the same. -/
theorem eq_reissued_of_supplyless {f : World → StageOutcome × World} (h : Supplyless f)
    (world : World) (supply' : IdSupply) :
    f (world.resupply supply') = reissued world.supply supply' (f world) := by
  rw [h world supply', reissued, h.supply_eq world]
  simp only [Nat.sub_self, IdSupply.exchange_zero, StageOutcome.rename_id, Nat.add_zero]

theorem supplyless_cloneRepository (container : Container) :
    Supplyless (cloneRepository.run container) := by
  intro world supply
  unfold cloneRepository
  dsimp only
  split
  · rfl
  · rename_i url _
    rw [World.files_resupply]
    split_ifs
    · rfl
    · have hclone := Git.supplyless_clone url container.repository.path world supply
      dsimp only at hclone
      rw [hclone]
      rcases Git.clone world url container.repository.path with ⟨result, after⟩
      cases result <;> rfl

theorem supplyless_gitMetadata (container : Container) :
    Supplyless (gitMetadata.run container) := by
  intro world supply
  unfold gitMetadata
  dsimp only
  rw [World.files_resupply]
  split_ifs
  · have hcommit := Git.supplyless_outputLine? ["rev-parse", "--verify", "HEAD"] world supply
    have hauthor := Git.supplyless_outputLine? ["log", "-1", "--format=%an <%ae>"]
      (Git.headCommit? world).2 supply
    unfold Git.headAuthor? Git.headCommit? at *
    dsimp only at hcommit hauthor ⊢
    rw [hcommit, hauthor]
  · rfl

theorem supplyless_gitChanges (builder : Builder) (container : Container) (commit : String) :
    Supplyless fun world => gitChanges builder container world commit := by
  intro world supply
  have hchanges := Git.supplyless_changesSince commit world supply
  unfold gitChanges
  dsimp only at hchanges ⊢
  rw [World.files_resupply]
  split
  · rfl
  · rw [hchanges]
    rcases Git.changesSince world commit with ⟨result, after⟩
    cases result <;> rfl

theorem supplyless_detectChanges (mode : ChangeDetection) (since : Option String)
    (builder : Builder) (container : Container) :
    Supplyless ((detectChanges mode since builder).run container) := by
  intro world supply
  have hgit (mode : ChangeDetection) (commit : Option String) :
      usesGit container (world.resupply supply) mode commit = usesGit container world mode commit :=
    rfl
  unfold detectChanges
  dsimp only
  generalize (if since.isSome = true then ChangeDetection.git else mode) = chosen
  cases hcommit : baseCommit container chosen since with
  | error error => rfl
  | ok commit =>
    simp only [bind, Except.bind, hgit, World.files_resupply, World.home_resupply]
    by_cases huses : usesGit container world chosen commit = true
    · simp only [huses, ↓reduceIte]
      cases commit with
      | none => rfl
      | some commit =>
        have hchanges := supplyless_gitChanges builder container commit world supply
        dsimp only at hchanges ⊢
        rw [hchanges]
        rcases gitChanges builder container world commit with ⟨result, after⟩
        cases result with
        | error error => rfl
        | ok changes =>
          cases container.files with
          | error error => cases chosen <;> rfl
          | ok files =>
            simp only [World.files_resupply, World.home_resupply, pure, Except.pure]
            generalize Snapshot.changes builder after.files _ _ files = found
            cases found <;> cases chosen <;> rfl
    · simp only [huses, Bool.false_eq_true, ↓reduceIte]
      cases container.files with
      | error error => rfl
      | ok files =>
        dsimp only [pure, Except.pure]
        generalize Snapshot.changes builder world.files _ _ files = found
        cases found <;> rfl

theorem supplyless_saveGraph (format : Option GraphFormat) (container : Container) :
    Supplyless ((saveGraph format).run container) := by
  intro world supply
  cases hcommit : recordedCommit container with
  | error error => simp only [saveGraph, reading, hcommit, bind, Except.bind]
  | ok commit =>
    cases hgraph : container.codeGraph with
    | error error => simp only [saveGraph, reading, hcommit, hgraph, bind, Except.bind]
    | ok graph =>
      rw [saveGraph_run_of_ok hcommit hgraph, saveGraph_run_of_ok hcommit hgraph,
        World.files_resupply]
      rcases (storeOf container format).save (savedDocument container graph commit) world.files with
        ⟨result, files⟩
      cases result <;> rfl

/-- Identifiers that the attributes under some keys hold are none that the supply will give. -/
def SparesHeld (keys : List AttributeKey) (container : Container) (supply : IdSupply) : Prop :=
  ∀ key ∈ keys, ∀ value, container.attributes.get? key = some value →
    ∀ id ∈ value.externalIds, supply.Spares id

theorem sparedBy_of_codeGraph {keys : List AttributeKey} {supply : IdSupply} {graph : CodeGraph}
    (hkeys : ∀ key ∈ graphKeys, key ∈ keys) (hspares : SparesHeld keys container supply)
    (hgraph : container.codeGraph = .ok graph) : graph.SparedBy supply := by
  obtain ⟨hcomponents, -, hsymbols⟩ := Container.of_codeGraph hgraph
  constructor
  · intro c hc id hid
    refine hspares _ (hkeys .components (by decide)) _ (Container.get?_of_components hcomponents) id ?_
    exact List.mem_flatMap.mpr ⟨c, hc, hid⟩
  · intro entry hentry
    refine hspares _ (hkeys .externalSymbols (by decide)) _
      (Container.get?_of_externalSymbols hsymbols) entry.2 ?_
    exact List.mem_map_of_mem hentry

theorem run_buildGraph_reissue (builder : Builder) (container : Container) (world : World)
    (supply' : IdSupply) :
    (buildGraph builder).run container (world.resupply supply') =
      reissued world.supply supply' ((buildGraph builder).run container world) := by
  unfold buildGraph
  simp only [World.files_resupply, World.home_resupply]
  rcases hbuild : builder.buildDirectory world.files world.home container.repository.path
      world.supply with _ | error | output
  · have hother := Builder.buildDirectory_congr supply' fun output => by rw [hbuild]; nofun
    simp only [World.supply_resupply, hother, hbuild, reissued_self]
  · have hother := Builder.buildDirectory_congr supply' fun output => by rw [hbuild]; nofun
    simp only [World.supply_resupply, hother, hbuild, reissued_self]
  · obtain ⟨other, hother, hgraph, hsupply⟩ := Builder.buildDirectory_reissue supply' hbuild
    simp only [World.supply_resupply, hother, hgraph, hsupply]
    rfl

theorem run_updateGraph_reissue (updater : Updater) (world : World)
    {supply' : IdSupply} (hspares : SparesHeld updateGraphSchema.needs container world.supply)
    (hspares' : SparesHeld updateGraphSchema.needs container supply') :
    (updateGraph updater).run container (world.resupply supply') =
      reissued world.supply supply' ((updateGraph updater).run container world) := by
  cases hprevious : container.codeGraph with
  | error error =>
    simp only [updateGraph, hprevious, bind, Except.bind, reading, reissued_self]
  | ok previous =>
    cases hchanges : container.changes with
    | error error =>
      simp only [updateGraph, hprevious, hchanges, bind, Except.bind, reading, reissued_self]
    | ok changes =>
      have hkeys : ∀ key ∈ graphKeys, key ∈ updateGraphSchema.needs := by decide
      have hspared := sparedBy_of_codeGraph hkeys hspares hprevious
      have hspared' := sparedBy_of_codeGraph hkeys hspares' hprevious
      simp only [updateGraph, hprevious, hchanges, bind, Except.bind, World.files_resupply,
        World.supply_resupply]
      cases hupdate : update updater.builder updater.relinkRetained world.files
          container.repository.path previous changes world.supply with
      | error error =>
        simp only [Update.update_error_congr supply' hupdate]
        exact (reissued_self _ world supply').symm
      | ok result =>
        obtain ⟨other, hother, hgraph, hsupply⟩ :=
          Update.update_reissue hspared hspared' hupdate
        simp only [hother, hgraph, hsupply]
        rfl

/-- From another supply a built-in stage does the same, with the identifiers of that supply. -/
theorem run_reissue (h : stage.BuiltIn) {world : World} {supply' : IdSupply}
    (hspares : SparesHeld stage.schema.reads container world.supply)
    (hspares' : SparesHeld stage.schema.reads container supply') :
    stage.run container (world.resupply supply') =
      reissued world.supply supply' (stage.run container world) := by
  cases h with
  | localRepository =>
    refine eq_reissued_of_supplyless (fun world supply => ?_) world supply'
    by_cases hdirectory : world.files.isDirectory container.repository.path = true <;>
      simp [localRepository, hdirectory]
  | cloneRepository => exact eq_reissued_of_supplyless (supplyless_cloneRepository _) _ _
  | gitMetadata => exact eq_reissued_of_supplyless (supplyless_gitMetadata _) _ _
  | loadGraph format =>
    refine eq_reissued_of_supplyless (fun world supply => ?_) world supply'
    simp only [loadGraph, World.files_resupply]
    split <;> rfl
  | buildGraph builder => exact run_buildGraph_reissue builder container world supply'
  | detectChanges mode since builder =>
    exact eq_reissued_of_supplyless (supplyless_detectChanges mode since builder _) _ _
  | updateGraph updater =>
    refine run_updateGraph_reissue updater world ?_ ?_
    · exact fun key hkey => hspares key (List.mem_append_left _ hkey)
    · exact fun key hkey => hspares' key (List.mem_append_left _ hkey)
  | filterComponents pattern =>
    refine eq_reissued_of_supplyless (fun world supply => ?_) world supply'
    simp only [filterComponents]
    cases container.components <;> rfl
  | saveGraph format => exact eq_reissued_of_supplyless (supplyless_saveGraph format _) _ _

/-- In containers of one repository that agree on what a built-in stage declares to read, the stage
does the same: the same outcome, and the same effect on what is outside. From another supply only
the identifiers that it mints are others. Where all that it needs is set, and to values that the keys
accept, it does not fail on an attribute, and attributes that it returns pass their check. -/
theorem built_in_stage_keeps_contract (h : stage.BuiltIn) (world : World) :
    (container.AgreesOn stage.schema.reads container' →
      stage.run container' world = stage.run container world ∧
      ∀ supply', SparesHeld stage.schema.reads container world.supply →
        SparesHeld stage.schema.reads container supply' →
        stage.run container' (world.resupply supply') =
          reissued world.supply supply' (stage.run container world)) ∧
    (container.Ready stage.schema → Meets stage.schema (stage.run container world).1) := by
  refine ⟨fun hagree => ?_, fun hready => meets_run h hready world⟩
  have hsame := run_congr h hagree
  refine ⟨congrFun hsame world, fun supply' hspares hspares' => ?_⟩
  rw [hsame]
  exact run_reissue h hspares hspares'

/-- A graph with an external symbol, and the changes to be applied to it. -/
def heldContainer : Container where
  repository := .ofPath "/repo" "/store/graph.json"
  attributes :=
    (Attributes.ofGraph
      ⟨[⟨"n", "n", "", .residual, "n.mk", none, [], [], [IdSupply.ident 0], ["os"]⟩], [],
        SymbolTable.empty.insert "os" (IdSupply.ident 0)⟩).insert .changes (.changes Run.sampleChanges)

/-- The same, and an attribute that the update does not declare. -/
def annotatedContainer : Container :=
  heldContainer.apply (.ofList [(.author, .optionalText (some "someone"))])

/-- The first identifier has been given out. -/
def heldWorld : World where
  files := Run.sampleTree
  gitAnswers := []
  supply := ⟨1⟩
  home := "/home"

/-- What the update is given. -/
theorem get?_heldContainer {key : AttributeKey} {value : AttributeValue}
    (h : heldContainer.attributes.get? key = some value) :
    key.accepts value = true ∧ ∀ id ∈ value.externalIds, id = IdSupply.ident 0 := by
  have hmem : (key, value) ∈ heldContainer.attributes.entries := mem_of_lookup_eq_some h
  have hentries : ∀ entry ∈ heldContainer.attributes.entries,
      entry.1.accepts entry.2 = true ∧ ∀ id ∈ entry.2.externalIds, id = IdSupply.ident 0 := by
    decide +kernel
  exact hentries _ hmem

theorem sparesHeld_heldContainer {supply : IdSupply} (h : 0 < supply.next) :
    SparesHeld updateGraphSchema.reads heldContainer supply := by
  intro key _ value hvalue id hid n hn heq
  rw [(get?_heldContainer hvalue).2 id hid] at heq
  have := IdSupply.ident_injective heq
  omega

/-- The update mints an identifier for a name that it meets, the first of the supply. -/
theorem built_in_stage_keeps_contract_update :
    let stage := updateGraph ⟨Run.sampleBuilder, true⟩
    stage.run annotatedContainer (heldWorld.resupply ⟨5⟩) =
        reissued ⟨1⟩ ⟨5⟩ (stage.run heldContainer heldWorld) ∧
      (stage.run heldContainer heldWorld).2.supply = ⟨2⟩ ∧
      Meets stage.schema (stage.run heldContainer heldWorld).1 := by
  intro stage
  have hagree : heldContainer.AgreesOn stage.schema.reads annotatedContainer := by
    refine ⟨rfl, fun key hkey => ?_⟩
    simp only [stage, updateGraph, StageSchema.reads, updateGraphSchema, graphKeys] at hkey
    fin_cases hkey <;> rfl
  have hready : heldContainer.Ready stage.schema :=
    ⟨by decide +kernel, fun _ _ hvalue => (get?_heldContainer hvalue).1⟩
  obtain ⟨hruns, hmeets⟩ := @built_in_stage_keeps_contract stage heldContainer annotatedContainer
    (.updateGraph _) heldWorld
  exact ⟨(hruns hagree).2 ⟨5⟩ (sparesHeld_heldContainer (by decide))
    (sparesHeld_heldContainer (by decide)), by decide +kernel, hmeets hready⟩

end Stage

end CodeAtlas
