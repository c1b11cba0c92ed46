import CodeAtlas.Pipeline
import CodeAtlas.Proofs.KeyedLists

/-!
# Running a pipeline stage by stage

A stage is passed when everything it needs is set and what it returns is what it declares, with
values of the declared sorts; only then its values are applied. A run passes the stages of a list one
after the other up to the first that fails, so that a run of a list is a run of its first part, and
of the rest if the first part is passed.

## Main definitions

* `Container.HasExactly`: the attributes that are set.
* `Pipeline.Delivers`: the returned attributes are the declared ones, with values of their sorts.
* `Pipeline.LastReturned`: the value returned for an attribute by the last stage that declares it.

## Main results

* `Attributes.get?_apply`: the values after new ones are set.
* `Pipeline.runStage_cases`: a stage fails, or what it delivers is applied.
* `Pipeline.runFrom_cons_eq_ok`: a stage that is passed.
* `Pipeline.state_of_runFrom`: the state in which a run leaves the pipeline.
* `Pipeline.runFrom_append`, `Pipeline.exists_of_runFrom_eq_error`: runs of lists.
* `Pipeline.hasExactly_of_runFrom`: the attributes after a run of some stages.
* `Pipeline.get?_eq_some_iff_of_runFrom`: the values after a run.
-/

namespace CodeAtlas

/-! ### Attributes -/

namespace Attributes

theorem lookup_insertEntry (key : AttributeKey) (value : AttributeValue)
    (entries : List (AttributeKey × AttributeValue)) (k : AttributeKey) :
    (insertEntry key value entries).lookup k =
      if k = key then some value else entries.lookup k := by
  induction entries with
  | nil =>
    by_cases hk : k = key
    · simp [insertEntry, hk]
    · have hother : (k == key) = false := by simpa using hk
      simp [insertEntry, List.lookup_cons, hother, hk]
  | cons entry rest ih =>
    obtain ⟨first, found⟩ := entry
    by_cases hk : k = key
    · subst hk
      simp only [insertEntry, ↓reduceIte]
      split
      · rw [List.lookup_cons_self]
      · rename_i hne
        have hother : (k == first) = false := by simpa using hne
        split
        · rw [List.lookup_cons_self]
        · rw [List.lookup_cons, hother, ih, if_pos rfl]
    · have hother : (k == key) = false := by simpa using hk
      simp only [insertEntry, hk, ↓reduceIte]
      split
      · rename_i heq
        simp only [List.lookup_cons, ← heq, hother]
      · split
        · rw [List.lookup_cons, hother]
        · rw [List.lookup_cons, List.lookup_cons, ih, if_neg hk]

theorem get?_insert (attributes : Attributes) (key : AttributeKey) (value : AttributeValue)
    (k : AttributeKey) :
    (attributes.insert key value).get? k = if k = key then some value else attributes.get? k :=
  lookup_insertEntry key value attributes.entries k

/-- No key precedes itself, so no key comes twice. -/
theorem nodup_keys (attributes : Attributes) : attributes.keys.Nodup := by
  refine List.pairwise_map.mpr (attributes.sorted.imp ?_)
  intro a b hlt heq
  rw [heq, AttributeKey.precedes_iff] at hlt
  exact hlt.elim (Nat.lt_irrefl _) fun hname => String.lt_irrefl _ hname.2

/-- The entries are what is found. -/
theorem get?_eq_some_iff {attributes : Attributes} {key : AttributeKey} {value : AttributeValue} :
    attributes.get? key = some value ↔ (key, value) ∈ attributes.entries := by
  refine ⟨mem_of_lookup_eq_some, fun hmem => lookup_eq_some_of_mem hmem fun value' hmem' => ?_⟩
  exact congrArg Prod.snd (List.inj_on_of_nodup_map attributes.nodup_keys hmem' hmem rfl)

/-- New values replace the old ones under their keys and leave all others. -/
theorem get?_apply (attributes updates : Attributes) (k : AttributeKey) :
    (attributes.apply updates).get? k = (updates.get? k).or (attributes.get? k) := by
  obtain ⟨entries, hsorted⟩ := updates
  have hnodup : (entries.map Prod.fst).Nodup := nodup_keys ⟨entries, hsorted⟩
  simp only [apply, get?]
  clear hsorted
  induction entries generalizing attributes with
  | nil => rfl
  | cons entry rest ih =>
    obtain ⟨hfirst, hrest⟩ := List.nodup_cons.mp hnodup
    rw [List.foldl_cons, ih _ hrest]
    have hinsert := get?_insert attributes entry.1 entry.2 k
    simp only [get?] at hinsert
    rw [hinsert]
    by_cases hk : k = entry.1
    · -- The key does not come again in the rest.
      have hnone : rest.lookup k = none := by
        refine List.lookup_eq_none_iff.mpr fun other hother => ?_
        have hne : k ≠ other.1 := fun heq => hfirst (hk ▸ heq ▸ List.mem_map_of_mem hother)
        simpa using hne
      rw [hnone, if_pos hk, hk, List.lookup_cons_self]
      rfl
    · have hother : (k == entry.1) = false := by simpa using hk
      rw [if_neg hk, List.lookup_cons, hother]

theorem contains_apply (attributes updates : Attributes) (k : AttributeKey) :
    (attributes.apply updates).contains k = (updates.contains k || attributes.contains k) := by
  rw [contains, get?_apply, Option.isSome_or]
  rfl

end Attributes

/-- The attributes that are set are the given ones. -/
def Container.HasExactly (container : Container) (keys : List AttributeKey) : Prop :=
  ∀ key, container.has key = true ↔ key ∈ keys

namespace Pipeline

variable {producers : Producers} {schema : StageSchema} {stage : Stage} {stages : List Stage}
  {container container' final : Container} {world world' : World} {updates : Attributes}
  {available : List AttributeKey} {index : Nat} {error : PipelineError}

/-! ### What a stage returns -/

/-- The attributes returned are those declared, with values of their sorts. -/
structure Delivers (schema : StageSchema) (updates : Attributes) : Prop where
  keys : ∀ key, updates.contains key = true ↔ key ∈ schema.produces
  accepted : ∀ key value, updates.get? key = some value → key.accepts value = true

theorem entryViolation?_eq_none {entries : List (AttributeKey × AttributeValue)} :
    entryViolation? schema entries = none ↔
      ∀ entry ∈ entries, entry.1 ∈ schema.produces ∧ entry.1.accepts entry.2 = true := by
  induction entries with
  | nil => simp [entryViolation?]
  | cons entry rest ih =>
    obtain ⟨key, value⟩ := entry
    rw [List.forall_mem_cons, ← ih, entryViolation?]
    by_cases hdeclared : key ∈ schema.produces
    · by_cases haccepted : key.accepts value = true
      · simp [hdeclared, haccepted]
      · simp [hdeclared, haccepted]
    · simp [hdeclared]

theorem violation?_eq_none : violation? schema updates = none ↔ Delivers schema updates := by
  have hentries : entryViolation? schema updates.entries = none ↔
      ∀ key value, updates.get? key = some value →
        key ∈ schema.produces ∧ key.accepts value = true := by
    simp only [entryViolation?_eq_none, Attributes.get?_eq_some_iff, Prod.forall]
  have hmissing : ((schema.produces.find? fun key => !updates.contains key).map
      Violation.notReturned) = none ↔ ∀ key ∈ schema.produces, updates.contains key = true := by
    simp [List.find?_eq_none]
  unfold violation?
  constructor
  · intro h
    split at h
    · exact absurd h (by simp)
    · rename_i hnone
      have hallowed := hentries.mp hnone
      refine ⟨fun key => ⟨fun hset => ?_, hmissing.mp h key⟩, fun key value hvalue =>
        (hallowed key value hvalue).2⟩
      obtain ⟨value, hvalue⟩ := Option.isSome_iff_exists.mp hset
      exact (hallowed key value hvalue).1
  · intro h
    have hnone : entryViolation? schema updates.entries = none := by
      refine hentries.mpr fun key value hvalue => ⟨(h.keys key).mp ?_, h.accepted key value hvalue⟩
      rw [Attributes.contains, hvalue]
      rfl
    rw [hnone]
    exact hmissing.mpr fun key hkey => (h.keys key).mpr hkey

/-- What is delivered is set, besides what was. -/
theorem Delivers.hasExactly (h : Delivers schema updates) (hkeys : container.HasExactly available) :
    (container.apply updates).HasExactly (available ++ schema.produces) := by
  intro key
  have hset : (container.apply updates).has key = (updates.contains key || container.has key) :=
    Attributes.contains_apply container.attributes updates key
  rw [hset, Bool.or_eq_true, h.keys, hkeys, List.mem_append, or_comm]

/-! ### One stage -/

theorem runStage_of_missing (h : missing producers stage.schema container.has ≠ []) :
    runStage producers index stage container world =
      (.error (.missingAttributes stage.schema.name
        (missing producers stage.schema container.has)), .failed index, world) := by
  unfold runStage
  dsimp only
  split
  · rename_i hnone
    exact absurd hnone h
  · rfl

/-- A stage is passed, and the pipeline is left running it, or it fails, and so has the pipeline
with its number. One that is passed misses nothing, and what it returns is delivered and applied. -/
theorem runStage_cases (producers : Producers) (index : Nat) (stage : Stage)
    (container : Container) (world : World) :
    (∃ error world', runStage producers index stage container world =
      (.error error, .failed index, world')) ∨
    ∃ updates world', missing producers stage.schema container.has = [] ∧
      stage.run container world = (.returned updates, world') ∧ Delivers stage.schema updates ∧
      runStage producers index stage container world =
        (.ok (container.apply updates), .running index, world') := by
  unfold runStage
  dsimp only
  split
  · rename_i hnone
    split
    · exact Or.inl ⟨_, _, rfl⟩
    · exact Or.inl ⟨_, _, rfl⟩
    · rename_i updates after hrun
      split
      · exact Or.inl ⟨_, _, rfl⟩
      · rename_i hdelivers
        exact Or.inr ⟨updates, after, hnone, hrun, violation?_eq_none.mp hdelivers, rfl⟩
  · exact Or.inl ⟨_, _, rfl⟩

/-- A stage that misses nothing and delivers is passed. -/
theorem runStage_of_returned (hnone : missing producers stage.schema container.has = [])
    (hrun : stage.run container world = (.returned updates, world'))
    (hdelivers : Delivers stage.schema updates) :
    runStage producers index stage container world =
      (.ok (container.apply updates), .running index, world') := by
  simp only [runStage, hnone, hrun, violation?_eq_none.mpr hdelivers]

/-! ### Stages one after the other -/

@[simp] theorem runFrom_nil (producers : Producers) (index : Nat) (container : Container)
    (world : World) :
    runFrom producers index [] container world = (.ok container, .done, world) := rfl

theorem runFrom_cons_of_error {state : PipelineState}
    (h : runStage producers index stage container world = (.error error, state, world')) :
    runFrom producers index (stage :: stages) container world = (.error error, state, world') := by
  rw [runFrom, h]

theorem runFrom_cons_of_ok {state : PipelineState}
    (h : runStage producers index stage container world = (.ok container', state, world')) :
    runFrom producers index (stage :: stages) container world =
      runFrom producers (index + 1) stages container' world' := by
  rw [runFrom, h]

/-- A run that succeeds is done, and one that fails has failed at one of its stages. -/
theorem state_of_runFrom (producers : Producers) (index : Nat) (stages : List Stage)
    (container : Container) (world : World) :
    (∃ final world', runFrom producers index stages container world =
      (.ok final, .done, world')) ∨
    ∃ error position world', position < stages.length ∧
      runFrom producers index stages container world =
        (.error error, .failed (index + position), world') := by
  induction stages generalizing index container world with
  | nil => exact Or.inl ⟨container, world, rfl⟩
  | cons stage rest ih =>
    obtain ⟨error, after, hstage⟩ | ⟨updates, after, -, -, -, hstage⟩ :=
      runStage_cases producers index stage container world
    · exact Or.inr ⟨error, 0, after, Nat.succ_pos _, runFrom_cons_of_error hstage⟩
    · rw [runFrom_cons_of_ok hstage]
      obtain hpassed | ⟨error, position, world', hposition, hfailed⟩ :=
        ih (index + 1) (container.apply updates) after
      · exact Or.inl hpassed
      · refine Or.inr ⟨error, position + 1, world', Nat.succ_lt_succ hposition, ?_⟩
        rw [hfailed, Nat.add_right_comm, Nat.add_assoc]

/-- A run that succeeds is done. -/
theorem state_eq_done_of_runFrom {state : PipelineState}
    (h : runFrom producers index stages container world = (.ok final, state, world')) :
    state = .done := by
  obtain ⟨passed, after, hrun⟩ | ⟨error, position, after, -, hrun⟩ :=
    state_of_runFrom producers index stages container world
  · exact (Prod.mk.inj (Prod.mk.inj (h.symm.trans hrun)).2).1
  · exact absurd (Prod.mk.inj (h.symm.trans hrun)).1 (by simp)

/-- A run that passes a stage has everything the stage needs, applies what it delivers and goes
on. -/
theorem runFrom_cons_eq_ok
    (h : runFrom producers index (stage :: stages) container world = (.ok final, .done, world')) :
    ∃ updates between, missing producers stage.schema container.has = [] ∧
      stage.run container world = (.returned updates, between) ∧ Delivers stage.schema updates ∧
      runFrom producers (index + 1) stages (container.apply updates) between =
        (.ok final, .done, world') := by
  obtain ⟨error, after, hstage⟩ | ⟨updates, after, hnone, hrun, hdelivers, hstage⟩ :=
    runStage_cases producers index stage container world
  · rw [runFrom_cons_of_error hstage] at h
    exact absurd (Prod.mk.inj h).1 (by simp)
  · rw [runFrom_cons_of_ok hstage] at h
    exact ⟨updates, after, hnone, hrun, hdelivers, h⟩

/-- A run of a list is a run of its first part, and of the rest if the first part is passed. -/
theorem runFrom_append (producers : Producers) (index : Nat) (stages others : List Stage)
    (container : Container) (world : World) :
    runFrom producers index (stages ++ others) container world =
      match runFrom producers index stages container world with
      | (.error failure, state, world) => (.error failure, state, world)
      | (.ok container, _, world) =>
        runFrom producers (index + stages.length) others container world := by
  induction stages generalizing index container world with
  | nil => rfl
  | cons stage rest ih =>
    rw [List.cons_append]
    obtain ⟨error, after, hstage⟩ | ⟨updates, after, -, -, -, hstage⟩ :=
      runStage_cases producers index stage container world
    · rw [runFrom_cons_of_error hstage, runFrom_cons_of_error hstage]
    · rw [runFrom_cons_of_ok hstage, runFrom_cons_of_ok hstage, ih, List.length_cons,
        Nat.add_right_comm, Nat.add_assoc]

/-- A run that passes its first part goes on with the rest. -/
theorem runFrom_append_of_ok {others : List Stage} {state : PipelineState}
    (h : runFrom producers index stages container world = (.ok container', state, world')) :
    runFrom producers index (stages ++ others) container world =
      runFrom producers (index + stages.length) others container' world' := by
  rw [runFrom_append, h]

/-- A run that passes a list passes its first part, and then the rest. -/
theorem runFrom_append_eq_ok {others : List Stage}
    (h : runFrom producers index (stages ++ others) container world =
      (.ok final, .done, world')) :
    ∃ next between, runFrom producers index stages container world = (.ok next, .done, between) ∧
      runFrom producers (index + stages.length) others next between =
        (.ok final, .done, world') := by
  obtain ⟨next, between, hfirst⟩ | ⟨error, position, between, -, hfirst⟩ :=
    state_of_runFrom producers index stages container world
  · exact ⟨next, between, hfirst, by rwa [runFrom_append_of_ok hfirst] at h⟩
  · rw [runFrom_append, hfirst] at h
    exact absurd (Prod.mk.inj h).1 (by simp)

/-- A run that fails has passed the stages before the one that fails. -/
theorem exists_of_runFrom_eq_error {failed : Nat}
    (h : runFrom producers index stages container world =
      (.error error, .failed failed, world')) :
    ∃ before stage after next between, stages = before ++ stage :: after ∧
      failed = index + before.length ∧
      runFrom producers index before container world = (.ok next, .done, between) ∧
      runStage producers failed stage next between = (.error error, .failed failed, world') := by
  induction stages generalizing index container world with
  | nil => exact absurd (Prod.mk.inj h).1 (by simp)
  | cons stage rest ih =>
    obtain ⟨reason, after, hstage⟩ | ⟨updates, after, -, -, -, hstage⟩ :=
      runStage_cases producers index stage container world
    · rw [runFrom_cons_of_error hstage] at h
      obtain ⟨hreason, hafter⟩ := Prod.mk.inj h
      obtain ⟨hindex, rfl⟩ := Prod.mk.inj hafter
      obtain rfl := Except.error.inj hreason
      obtain rfl := PipelineState.failed.inj hindex
      exact ⟨[], stage, rest, container, world, rfl, rfl, rfl, hstage⟩
    · rw [runFrom_cons_of_ok hstage] at h
      obtain ⟨before, last, later, reached, between, rfl, hfailed, hpassed, hlast⟩ := ih h
      refine ⟨stage :: before, last, later, reached, between, rfl, ?_, ?_, hlast⟩
      · rw [hfailed, List.length_cons]
        omega
      · rw [runFrom_cons_of_ok hstage, hpassed]

/-- The attributes that stages declare to return. -/
def outputs (stages : List Stage) : List AttributeKey :=
  stages.flatMap (·.schema.produces)

/-- After stages are passed, what they declare is set besides what was. -/
theorem hasExactly_of_runFrom (hkeys : container.HasExactly available)
    (h : runFrom producers index stages container world = (.ok final, .done, world')) :
    final.HasExactly (available ++ outputs stages) := by
  induction stages generalizing index available container world with
  | nil =>
    obtain rfl := Except.ok.inj (Prod.mk.inj h).1
    simpa [outputs] using hkeys
  | cons stage rest ih =>
    obtain ⟨updates, between, -, -, hdelivers, hrest⟩ := runFrom_cons_eq_ok h
    have hfinal := ih (hdelivers.hasExactly hkeys) hrest
    rwa [List.append_assoc] at hfinal

/-! ### Values -/

/-- Attributes that no stage declares keep their values. -/
theorem get?_of_not_mem_outputs {key : AttributeKey} (hkey : key ∉ outputs stages)
    (h : runFrom producers index stages container world = (.ok final, .done, world')) :
    final.attributes.get? key = container.attributes.get? key := by
  induction stages generalizing index container world with
  | nil => rw [Except.ok.inj (Prod.mk.inj h).1]
  | cons stage rest ih =>
    rw [outputs, List.flatMap_cons, List.mem_append, not_or] at hkey
    obtain ⟨updates, between, -, -, hdelivers, hrest⟩ := runFrom_cons_eq_ok h
    have hunset : updates.get? key = none := by
      have hnot := fun hset => hkey.1 ((hdelivers.keys key).mp hset)
      simpa [Attributes.contains] using hnot
    rw [ih hkey.2 hrest, Container.apply, Attributes.get?_apply, hunset, Option.none_or]

/-- The value is returned for the attribute by the last of the stages that declares it, in a run
that has passed the stages before. -/
def LastReturned (producers : Producers) (stages : List Stage) (container : Container)
    (world : World) (key : AttributeKey) (value : AttributeValue) : Prop :=
  ∃ before stage after next between updates world',
    stages = before ++ stage :: after ∧ key ∈ stage.schema.produces ∧ key ∉ outputs after ∧
    runFrom producers 0 before container world = (.ok next, .done, between) ∧
    stage.run next between = (.returned updates, world') ∧ updates.get? key = some value

/-- Of the stages that declare an attribute one is the last. -/
theorem exists_last_of_mem_outputs {key : AttributeKey} (h : key ∈ outputs stages) :
    ∃ before stage after, stages = before ++ stage :: after ∧ key ∈ stage.schema.produces ∧
      key ∉ outputs after := by
  induction stages with
  | nil => simp [outputs] at h
  | cons stage rest ih =>
    by_cases hrest : key ∈ outputs rest
    · obtain ⟨before, last, after, rfl, hkey, hafter⟩ := ih hrest
      exact ⟨stage :: before, last, after, rfl, hkey, hafter⟩
    · have hstage : key ∈ stage.schema.produces := by
        rw [outputs, List.flatMap_cons, List.mem_append] at h
        exact h.resolve_right hrest
      exact ⟨[], stage, rest, rfl, hstage, hrest⟩

/-- After a run, an attribute has the value that the last stage declaring it has returned. -/
theorem get?_of_last {before after : List Stage} {key : AttributeKey}
    (hkey : key ∈ stage.schema.produces) (hafter : key ∉ outputs after)
    (h : runFrom producers 0 (before ++ stage :: after) container world =
      (.ok final, .done, world')) :
    ∃ next between updates later,
      runFrom producers 0 before container world = (.ok next, .done, between) ∧
      stage.run next between = (.returned updates, later) ∧ Delivers stage.schema updates ∧
      final.attributes.get? key = updates.get? key := by
  obtain ⟨next, between, hbefore, hrest⟩ := runFrom_append_eq_ok h
  obtain ⟨updates, later, -, hrun, hdelivers, hlast⟩ := runFrom_cons_eq_ok hrest
  refine ⟨next, between, updates, later, hbefore, hrun, hdelivers, ?_⟩
  have hset : (updates.get? key).isSome = true := (hdelivers.keys key).mpr hkey
  obtain ⟨value, hvalue⟩ := Option.isSome_iff_exists.mp hset
  rw [get?_of_not_mem_outputs hafter hlast, Container.apply, Attributes.get?_apply, hvalue,
    Option.some_or]

/-- What a stage was the last to return is there after the run, and of the right sort. -/
theorem LastReturned.get?_eq {key : AttributeKey} {value : AttributeValue}
    (hvalue : LastReturned producers stages container world key value)
    (h : runFrom producers 0 stages container world = (.ok final, .done, world')) :
    final.attributes.get? key = some value ∧ key.accepts value = true := by
  obtain ⟨before, stage, after, next, between, updates, later, rfl, hkey, hafter, hbefore, hrun,
    hreturned⟩ := hvalue
  obtain ⟨next', between', updates', later', hbefore', hrun', hdelivers, hget⟩ :=
    get?_of_last hkey hafter h
  -- The run up to the stage, and so what the stage returns, is determined.
  rw [hbefore] at hbefore'
  obtain ⟨hnext, hbetween⟩ := Prod.mk.inj hbefore'
  obtain rfl := Except.ok.inj hnext
  obtain ⟨-, rfl⟩ := Prod.mk.inj hbetween
  rw [hrun] at hrun'
  obtain rfl := StageOutcome.returned.inj (Prod.mk.inj hrun').1
  exact ⟨hget.trans hreturned, hdelivers.accepted key value hreturned⟩

/-- The values after a run: those that were returned last, and those that nobody declared. -/
theorem get?_eq_some_iff_of_runFrom {key : AttributeKey} {value : AttributeValue}
    (h : runFrom producers 0 stages container world = (.ok final, .done, world')) :
    final.attributes.get? key = some value ↔
      LastReturned producers stages container world key value ∨
        key ∉ outputs stages ∧ container.attributes.get? key = some value := by
  constructor
  · intro hvalue
    by_cases hkey : key ∈ outputs stages
    · obtain ⟨before, stage, after, rfl, hstage, hafter⟩ := exists_last_of_mem_outputs hkey
      obtain ⟨next, between, updates, later, hbefore, hrun, -, hget⟩ :=
        get?_of_last hstage hafter h
      exact Or.inl ⟨before, stage, after, next, between, updates, later, rfl, hstage, hafter,
        hbefore, hrun, hget ▸ hvalue⟩
    · exact Or.inr ⟨hkey, get?_of_not_mem_outputs hkey h ▸ hvalue⟩
  · rintro (hlast | ⟨hkey, hvalue⟩)
    · exact (hlast.get?_eq h).1
    · rw [get?_of_not_mem_outputs hkey h, hvalue]

end Pipeline

end CodeAtlas
