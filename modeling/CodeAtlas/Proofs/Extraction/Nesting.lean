import CodeAtlas.Proofs.Building
import CodeAtlas.Proofs.Extraction.DistinctNames

/-!
# Names and parents of the components of a file

A definition is named below the scope it stands in, and only the body of a type is searched for
definitions. So whatever the tree of a file looks like, a component that has a parent lies in a type
found before it, and its name is that of the parent with a dot and more behind it. The remainder of
the file is the last component, and no other component is one.

## Main definitions

* `Symbol.Extends`: a name goes on after a dot where another ends.
* `Extraction.Nested`: what holds of the definitions that were found.

## Main results

* `Extraction.nested_walk`: the definitions of every walk are nested.
* `Extraction.names_and_parents_extract`: the names and parents of a file's components.
-/

namespace CodeAtlas

/-! ### Names that extend a name -/

namespace Symbol

/-- The name is the given one, then a dot, then something. -/
def Extends (outer name : String) : Prop :=
  ∃ rest, rest ≠ "" ∧ name = outer ++ "." ++ rest

theorem qualify_eq {outer inner : String} (houter : outer ≠ "") (hinner : inner ≠ "") :
    qualify outer inner = outer ++ "." ++ inner := by
  rw [qualify, if_neg houter, if_neg hinner]

theorem qualify_ne_empty {outer inner : String} (hinner : inner ≠ "") :
    qualify outer inner ≠ "" := by
  by_cases houter : outer = ""
  · rwa [qualify, if_pos houter]
  · rw [qualify_eq houter hinner]
    simp

theorem length_lt_qualify {outer inner : String} (hinner : inner ≠ "") :
    outer.length < (qualify outer inner).length := by
  have hpos : 0 < inner.length := Nat.pos_of_ne_zero (mt String.length_eq_zero_iff.mp hinner)
  by_cases houter : outer = ""
  · simpa [qualify, houter] using hpos
  · rw [qualify_eq houter hinner, String.length_append, String.length_append]
    omega

/-- A name below a qualifier that is the outer name, or extends it, extends the outer name. -/
theorem extends_qualify {outer qualifier inner : String} (houter : outer ≠ "")
    (hqualifier : qualifier = outer ∨ Extends outer qualifier) (hinner : inner ≠ "") :
    Extends outer (qualify qualifier inner) := by
  obtain rfl | ⟨rest, -, rfl⟩ := hqualifier
  · exact ⟨inner, hinner, qualify_eq houter hinner⟩
  · refine ⟨rest ++ "." ++ inner, by simp, ?_⟩
    rw [qualify_eq (by simp) hinner]
    simp only [String.append_assoc]

/-- A canonical name has a segment, and no segment is empty. -/
theorem normalize?_ne_empty {raw name : String} (h : normalize? raw = some name) : name ≠ "" := by
  unfold normalize? at h
  simp only at h
  split_ifs at h with hempty
  obtain rfl := Option.some.inj h
  cases hsegments : segments raw with
  | nil => simp [hsegments] at hempty
  | cons first rest =>
    have hmem : first ∈ segments raw := hsegments ▸ List.mem_cons_self
    have hfirst : first ≠ [] := by simpa using (List.mem_filter.mp hmem).2
    rw [Text.join]
    cases rest <;> simp [hfirst]

end Symbol

namespace Extraction

/-- Every definition has a name of its own below its scope. -/
theorem localName_ne_empty {ctx : Context} {scope : Scope} {rule : DefinitionRule} {node : Node}
    {name : DefinitionName} (h : definitionAt? ctx scope rule node = some name) :
    name.localName ≠ "" := by
  unfold definitionAt? at h
  split_ifs at h
  unfold definitionName? at h
  split at h
  · simp only [receiverName?, Option.bind_eq_bind, Option.bind_eq_some_iff] at h
    obtain ⟨_, _, method, _, _, _, _, _, _, _, typeName, _, heq⟩ := h
    obtain rfl := Option.some.inj heq
    simp
  · obtain ⟨target, _, hspelled⟩ := Option.bind_eq_some_iff.mp h
    unfold spelledName? at hspelled
    split at hspelled
    · simp at hspelled
    · split at hspelled
      · simp at hspelled
      · rename_i spelled hsymbol
        have hspelling := Symbol.normalize?_ne_empty hsymbol
        split at hspelled
        · split at hspelled
          · obtain rfl := Option.some.inj hspelled
            exact hspelling
          · simp at hspelled
        · obtain rfl := Option.some.inj hspelled
          exact hspelling

/-! ### Kinds of definitions -/

/-- No language has a rule that defines a remainder. -/
theorem kind_ne_residual_of_definition? {language : Language} {nodeKind : String}
    {rule : DefinitionRule} (h : language.rules.definition? nodeKind = some rule) :
    rule.kind ≠ .residual := by
  have hrules : ∀ rule ∈ language.rules.definitions, rule.kind ≠ .residual := by
    cases language <;> decide
  exact hrules rule (List.mem_of_find?_eq_some h)

/-- Its place makes no definition a remainder. -/
theorem placedKind_ne_residual {rule : DefinitionRule} (h : rule.kind ≠ .residual) (node : Node)
    (ofType : Bool) : placedKind rule node ofType ≠ .residual := by
  unfold placedKind
  cases ofType <;> cases hkind : rule.kind <;> simp_all <;> split <;> simp_all

/-! ### Nested definitions -/

/-- Definitions have names and are no remainders, and those with a parent lie in an earlier type
whose name theirs extend. -/
structure Nested (drafts : List Draft) : Prop where
  named : ∀ d ∈ drafts, d.qualifiedName ≠ "" ∧ d.kind ≠ .residual
  inside : ∀ (i : Nat) (d : Draft) (j : Nat), drafts[i]? = some d → d.parent = some j →
    j < i ∧ ∃ e, drafts[j]? = some e ∧ e.kind = .type ∧
      Symbol.Extends e.qualifiedName d.qualifiedName

/-- The definition is a type, and names in the scope extend its name. -/
structure Draft.Holds (e : Draft) (scope : Scope) : Prop where
  kind_eq : e.kind = .type
  name_ne : e.qualifiedName ≠ ""
  qualifier : scope.qualifier = e.qualifiedName ∨ Symbol.Extends e.qualifiedName scope.qualifier

/-- Where definitions are looked for inside of a definition, that one is a type. -/
def InsideType (found : Findings) (scope : Scope) : Prop :=
  scope.isSealed = false → ∀ j, scope.owner = some j →
    ∃ e : Draft, found.drafts[j]? = some e ∧ e.Holds scope

/-- What is known of a scope stays so when definitions are added. -/
theorem InsideType.append {found found' : Findings} {scope : Scope} {added : List Draft}
    (h : InsideType found scope) (hdrafts : found'.drafts = found.drafts ++ added) :
    InsideType found' scope := by
  intro hopen j hj
  obtain ⟨e, he, hholds⟩ := h hopen j hj
  have hlt := (List.getElem?_eq_some_iff.mp he).1
  exact ⟨e, by rwa [hdrafts, List.getElem?_append_left hlt], hholds⟩

theorem nested_nil : Nested [] where
  named := by simp
  inside := by simp

/-- A definition can be added whose parent is a type that holds its scope. -/
theorem Nested.push {drafts : List Draft} (h : Nested drafts) {d : Draft}
    (hname : d.qualifiedName ≠ "") (hkind : d.kind ≠ .residual)
    (hparent : ∀ j, d.parent = some j → ∃ e, drafts[j]? = some e ∧ e.kind = .type ∧
      Symbol.Extends e.qualifiedName d.qualifiedName) : Nested (drafts ++ [d]) where
  named := by
    intro e he
    rcases List.mem_append.mp he with he | he
    · exact h.named e he
    · obtain rfl := List.mem_singleton.mp he
      exact ⟨hname, hkind⟩
  inside := by
    intro i e j he hj
    rw [List.getElem?_append] at he
    split at he
    case isTrue hi =>
      obtain ⟨hji, parent, hparent, hrest⟩ := h.inside i e j he hj
      exact ⟨hji, parent, by rwa [List.getElem?_append_left (by omega)], hrest⟩
    case isFalse hi =>
      obtain rfl := List.mem_singleton.mp (List.mem_of_getElem? he)
      obtain ⟨parent, hfound, hrest⟩ := hparent j hj
      have hlt := (List.getElem?_eq_some_iff.mp hfound).1
      exact ⟨by omega, parent, by rwa [List.getElem?_append_left hlt], hrest⟩

/-! ### The walk nests definitions -/

variable {ctx : Context} {scope : Scope} {found : Findings}

/-- A definition in an open scope extends the name of the type around it. -/
theorem nested_append_draftOf (hscope : InsideType found scope) (hfound : Nested found.drafts)
    {node : Node} {rule : DefinitionRule} {name : DefinitionName}
    (hopen : scope.isSealed = false) (hrule : ctx.rules.definition? node.kind = some rule)
    (hname : definitionAt? ctx scope rule node = some name) :
    Nested (found.drafts ++ [draftOf scope rule node name]) := by
  have hlocal := localName_ne_empty hname
  have hkind := kind_ne_residual_of_definition? hrule
  refine hfound.push (Symbol.qualify_ne_empty hlocal) (placedKind_ne_residual hkind node _) ?_
  intro j hj
  obtain ⟨e, he, hholds⟩ := hscope hopen j hj
  exact ⟨e, he, hholds.kind_eq, Symbol.extends_qualify hholds.name_ne hholds.qualifier hlocal⟩

/-- The body of a new type is a scope inside of it; other bodies are sealed. -/
theorem insideType_bodyScope {d : Draft} (hname : d.qualifiedName ≠ "") {found' : Findings}
    (hdrafts : found'.drafts = found.drafts ++ [d]) :
    InsideType found' (bodyScope scope found.drafts.length d) := by
  intro hopen j hj
  obtain rfl := Option.some.inj hj
  have htype : d.kind = .type := by simpa [bodyScope] using hopen
  refine ⟨d, by simp [hdrafts], htype, hname, Or.inl ?_⟩
  simp [bodyScope, htype]

/-- A named scope inside of a type extends the name of the type too. -/
theorem insideType_innerScope (hscope : InsideType found scope) {rule : ScopeRule} {name : String}
    (hname : name ≠ "") : InsideType found (innerScope scope rule name) := by
  intro hopen j hj
  obtain ⟨e, he, hholds⟩ := hscope hopen j hj
  exact ⟨e, he, hholds.kind_eq, hholds.name_ne,
    Or.inr (Symbol.extends_qualify hholds.name_ne hholds.qualifier hname)⟩

private theorem stepUpholds_nested (ctx : Context) :
    StepUpholds ctx InsideType (fun found => Nested found.drafts) where
  good := by
    intro scope found node result hscope hfound hstep
    cases hstep with
    | definition rule name hopen hrule hname _ =>
      exact nested_append_draftOf hscope hfound hopen hrule hname
    | redefinition => exact hfound
    | scope => exact hfound
    | imports => exact hfound
    | call => exact hfound
    | code => exact hfound
  enter := by
    intro scope scope' found found' node hscope hfound hstep
    cases hstep with
    | redefinition => exact fun hopen => absurd hopen (by simp)
    | definition rule name _ _ hname _ =>
      exact insideType_bodyScope (Symbol.qualify_ne_empty (localName_ne_empty hname)) rfl
    | scope rule name _ _ hname =>
      obtain ⟨_, _, hsymbol⟩ := Option.bind_eq_some_iff.mp hname
      exact insideType_innerScope hscope (Symbol.normalize?_ne_empty hsymbol)
    | call => exact hscope
    | code => exact hscope
  back := by
    intro scope outer found node result houter hstep
    cases hstep with
    | definition => exact houter.append rfl
    | redefinition => exact houter
    | scope => exact houter
    | imports => exact houter
    | call => exact houter
    | code => exact houter

/-- The definitions that are found in a tree are nested. -/
theorem nested_walk (ctx : Context) (root : Node) : Nested (walk ctx root).drafts :=
  (visitAll_upholds (stepUpholds_nested ctx) root.children (.ofFile ctx) .none
    (fun _ j hj => absurd hj (by simp [Scope.ofFile])) nested_nil).1

/-! ### The components of a file -/

/-- The components that come of definitions, in order. -/
def definedComponents (ctx : Context) (found : Findings) : List ParsedComponent :=
  found.drafts.zipIdx.map fun (draft, index) => componentOfDraft ctx found index draft

theorem components_assemble (ctx : Context) (found : Findings) :
    (assemble ctx found).components =
      definedComponents ctx found ++ [residualComponent ctx found] :=
  rfl

theorem getElem?_definedComponents (ctx : Context) (found : Findings) (i : Nat) :
    (definedComponents ctx found)[i]? =
      found.drafts[i]?.map (componentOfDraft ctx found i) := by
  simp [definedComponents, List.getElem?_zipIdx, Function.comp_def]

/-- A definition has its component at its place. -/
theorem getElem?_components_of_draft {i : Nat} {d : Draft} (h : found.drafts[i]? = some d) :
    (assemble ctx found).components[i]? = some (componentOfDraft ctx found i d) := by
  have hdefined : (definedComponents ctx found)[i]? = some (componentOfDraft ctx found i d) := by
    rw [getElem?_definedComponents, h, Option.map_some]
  rw [components_assemble, List.getElem?_append_left (List.getElem?_eq_some_iff.mp hdefined).1,
    hdefined]

/-- A component comes of the definition at its place, or else is the remainder. -/
theorem components_cases {i : Nat} {c : ParsedComponent}
    (hc : (assemble ctx found).components[i]? = some c) :
    (∃ d, found.drafts[i]? = some d ∧ c = componentOfDraft ctx found i d) ∨
      found.drafts[i]? = none ∧ c = residualComponent ctx found := by
  rw [components_assemble, List.getElem?_append] at hc
  split at hc
  · rw [getElem?_definedComponents] at hc
    obtain ⟨d, hd, rfl⟩ := Option.map_eq_some_iff.mp hc
    exact Or.inl ⟨d, hd, rfl⟩
  · rename_i hlength
    obtain rfl := List.mem_singleton.mp (List.mem_of_getElem? hc)
    exact Or.inr ⟨by simpa [definedComponents] using hlength, rfl⟩

/-- A component with a parent comes of a definition inside of a definition. -/
theorem exists_parent_draft {i : Nat} {c : ParsedComponent} {parent : String}
    (hc : (assemble ctx found).components[i]? = some c) (hparent : c.parent = some parent) :
    ∃ d j e, found.drafts[i]? = some d ∧ c = componentOfDraft ctx found i d ∧
      d.parent = some j ∧ found.drafts[j]? = some e ∧ e.qualifiedName = parent := by
  obtain ⟨d, hd, rfl⟩ | ⟨-, rfl⟩ := components_cases hc
  · obtain ⟨e, hbind, hname⟩ := Option.map_eq_some_iff.mp hparent
    obtain ⟨j, hj, he⟩ := Option.bind_eq_some_iff.mp hbind
    exact ⟨d, j, e, hd, rfl, hj, he, hname⟩
  · simp [residualComponent] at hparent

/-- The parent of a component is an earlier type, which begins its name. -/
theorem Nested.exists_parent (h : Nested found.drafts) {i : Nat} {c : ParsedComponent}
    {parent : String} (hc : (assemble ctx found).components[i]? = some c)
    (hparent : c.parent = some parent) :
    Symbol.Extends parent c.qualifiedName ∧ ∃ (j : Nat) (d : ParsedComponent), j < i ∧
      (assemble ctx found).components[j]? = some d ∧ d.qualifiedName = parent ∧ d.kind = .type := by
  obtain ⟨d, j, e, hd, rfl, hj, he, rfl⟩ := exists_parent_draft hc hparent
  obtain ⟨hji, e', he', htype, hextends⟩ := h.inside i d j hd hj
  obtain rfl := Option.some.inj (he'.symm.trans he)
  exact ⟨hextends, j, componentOfDraft ctx found j e', hji, getElem?_components_of_draft he, rfl,
    htype⟩

/-- For every tree, the components of a file have distinct names, so that each is found under its
own. The last is the remainder, under the name of the module, and the only one of its kind. A
component with a parent lies in an earlier type, and its name is the parent's, a dot and more. -/
theorem names_and_parents_extract (language : Language) (relativePath source : String)
    (root : Node) :
    let file := extract language relativePath source root
    (file.components.map (·.qualifiedName)).Nodup ∧
    (∃ front residual, file.components = front ++ [residual] ∧ residual.kind = .residual ∧
      residual.qualifiedName = language.modulePath relativePath ∧ residual.parent = none ∧
      ∀ c ∈ front, c.kind ≠ .residual) ∧
    (∀ (i : Nat) (c : ParsedComponent) (parent : String), file.components[i]? = some c →
      c.parent = some parent →
      Symbol.Extends parent c.qualifiedName ∧ ∃ (j : Nat) (d : ParsedComponent), j < i ∧
        file.components[j]? = some d ∧ d.qualifiedName = parent ∧ d.kind = .type) ∧
    (∀ c ∈ file.components, ∀ d ∈ file.components, c.parent = some d.qualifiedName →
      d.kind = .type) ∧
    ∀ c ∈ file.components, file.component? c.qualifiedName = some c := by
  intro file
  let ctx := Context.ofFile language relativePath source
  let found := walk ctx root
  have hnested : Nested found.drafts := nested_walk ctx root
  have hnodup := nodup_names_extract language relativePath source root
  have hlookup : ∀ c ∈ file.components, file.component? c.qualifiedName = some c :=
    fun c hc => file.component?_of_nodup hnodup hc
  refine ⟨hnodup, ⟨definedComponents ctx found, residualComponent ctx found, rfl, rfl, rfl, rfl,
    fun c hc => ?_⟩, fun i c parent hc hparent => hnested.exists_parent hc hparent,
    fun c hc d hd hparent => ?_, hlookup⟩
  · obtain ⟨⟨draft, index⟩, hdraft, rfl⟩ := List.mem_map.mp hc
    exact (hnested.named draft (List.fst_mem_of_mem_zipIdx hdraft)).2
  · obtain ⟨i, hi⟩ := List.mem_iff_getElem?.mp hc
    obtain ⟨-, j, d', -, hd', hname, htype⟩ := hnested.exists_parent hi hparent
    -- The name of the parent stands for one component only.
    have hsame := hlookup d' (List.mem_of_getElem? hd')
    rw [hname, hlookup d hd] at hsame
    exact Option.some.inj hsame ▸ htype

end Extraction

end CodeAtlas
