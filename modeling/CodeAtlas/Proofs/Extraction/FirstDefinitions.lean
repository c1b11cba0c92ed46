import CodeAtlas.Proofs.Extraction.Nesting
import CodeAtlas.Proofs.KeyedLists
import CodeAtlas.Proofs.SyntaxTree.WellFormed

/-!
# Which definitions become components

The walk passes through the nodes of a tree one after the other. A node that is a definition where
definitions are looked for becomes a component when its name is used for the first time in the file
and is not the name of the file's remainder; the code of any other stays with the definition around
it. Where the symbols of a file are named below its module no definition has the remainder's name.
Where they are named below its directory one can, if it is called like the file.

## Main definitions

* `Extraction.Site`: a node that the walk reaches, with its scope and what was found before it.
* `Extraction.sitesOf`: the sites of a walk, in order.
* `Extraction.Site.definition?`: the definition at a site.

## Main results

* `Extraction.drafts_walk`: what a walk finds is the first definition of each name.
* `Extraction.first_definition_extracted`: a first definition has a component of its own.
* `Extraction.first_definition_swallowed`: a first definition without one.
-/

namespace CodeAtlas.Extraction

/-! ### The sites of a walk -/

/-- A node that the walk reaches, its scope, and what was found before. -/
structure Site where
  scope : Scope
  found : Findings
  node : Node

/-- The definition at a site, if definitions are looked for there and the node is one. -/
def Site.definition? (ctx : Context) (site : Site) : Option Draft :=
  if site.scope.isSealed then none
  else
    (ctx.rules.definition? site.node.kind).bind fun rule =>
      (definitionAt? ctx site.scope rule site.node).map (draftOf site.scope rule site.node)

mutual

/-- The sites at a node and below it. -/
def sites (ctx : Context) (scope : Scope) (found : Findings) : Node → List Site
  | .mk kind range isNamed field children =>
    ⟨scope, found, .mk kind range isNamed field children⟩ ::
      match step ctx scope found (.mk kind range isNamed field children) with
      | .descend scope found => sitesAll ctx scope found children
      | .finish _ => []

/-- The sites at the named nodes of a list and below them. -/
def sitesAll (ctx : Context) (scope : Scope) (found : Findings) : List Node → List Site
  | [] => []
  | node :: rest =>
    if node.isNamed then
      sites ctx scope found node ++ sitesAll ctx scope (visit ctx scope found node) rest
    else sitesAll ctx scope found rest

end

/-- The sites of the walk over a file's tree. -/
def sitesOf (ctx : Context) (root : Node) : List Site :=
  sitesAll ctx (.ofFile ctx) .none root.children

/-- The definitions after those of a site are taken in: its own is added unless the name is taken. -/
def record (ctx : Context) (drafts : List Draft) (site : Site) : List Draft :=
  match site.definition? ctx with
  | some d =>
    if d.qualifiedName == ctx.moduleName || drafts.any (·.qualifiedName == d.qualifiedName) then
      drafts
    else drafts ++ [d]
  | none => drafts

/-! ### Steps at definitions -/

variable {ctx : Context}

theorem record_of_none {drafts : List Draft} {site : Site} (h : site.definition? ctx = none) :
    record ctx drafts site = drafts := by
  rw [record, h]

/-- At a definition whose name is taken the walk goes on in the same scope, now sealed. -/
theorem step_of_taken {site : Site} {d : Draft} (hd : site.definition? ctx = some d)
    (htaken : isTaken ctx site.found d.qualifiedName = true) :
    step ctx site.scope site.found site.node =
      .descend { site.scope with isSealed := true } site.found := by
  unfold Site.definition? at hd
  split_ifs at hd with hsealed
  obtain ⟨rule, hrule, hd⟩ := Option.bind_eq_some_iff.mp hd
  obtain ⟨name, hname, rfl⟩ := Option.map_eq_some_iff.mp hd
  simp [step, definitionStep?, hsealed, hrule, hname, enterDefinition_of_taken htaken]

/-- At a definition whose name is free the definition is recorded. -/
theorem step_of_free {site : Site} {d : Draft} (hd : site.definition? ctx = some d)
    (hfree : isTaken ctx site.found d.qualifiedName = false) :
    step ctx site.scope site.found site.node =
      .descend (bodyScope site.scope site.found.drafts.length d)
        { site.found with drafts := site.found.drafts ++ [d] } := by
  unfold Site.definition? at hd
  split_ifs at hd with hsealed
  obtain ⟨rule, hrule, hd⟩ := Option.bind_eq_some_iff.mp hd
  obtain ⟨name, hname, rfl⟩ := Option.map_eq_some_iff.mp hd
  simp [step, definitionStep?, hsealed, hrule, hname, enterDefinition_of_free hfree]

/-- A site is a definition when the walk treats it as one. -/
theorem definition?_eq_some {scope : Scope} {found : Findings} {node : Node}
    {rule : DefinitionRule} {name : DefinitionName} (hopen : scope.isSealed = false)
    (hrule : ctx.rules.definition? node.kind = some rule)
    (hname : definitionAt? ctx scope rule node = some name) :
    Site.definition? ctx ⟨scope, found, node⟩ = some (draftOf scope rule node name) := by
  simp [Site.definition?, hopen, hrule, hname]

/-- One step of the walk takes in the definition of its site. -/
theorem drafts_step (ctx : Context) (scope : Scope) (found : Findings) (node : Node) :
    (step ctx scope found node).found.drafts = record ctx found.drafts ⟨scope, found, node⟩ := by
  cases hd : Site.definition? ctx ⟨scope, found, node⟩ with
  | some d =>
    rw [record, hd]
    cases htaken : isTaken ctx found d.qualifiedName with
    | true =>
      rw [step_of_taken hd htaken]
      exact (if_pos htaken).symm
    | false =>
      rw [step_of_free hd htaken]
      exact (if_neg (Bool.eq_false_iff.mp htaken)).symm
  | none =>
    rw [record_of_none hd]
    have hstep := stepped ctx scope found node
    generalize step ctx scope found node = result at hstep
    cases hstep with
    | redefinition rule name hopen hrule hname _ => rfl
    | definition rule name hopen hrule hname _ =>
      rw [definition?_eq_some hopen hrule hname] at hd
      exact absurd hd (by simp)
    | scope => rfl
    | imports => rfl
    | call => rfl
    | code => rfl

/-! ### The walk takes in the definitions of its sites -/

mutual

private theorem drafts_visit (ctx : Context) : (node : Node) → (scope : Scope) →
    (found : Findings) → (visit ctx scope found node).drafts =
      (sites ctx scope found node).foldl (record ctx) found.drafts
  | .mk kind range isNamed field children, scope, found => by
    have hstep := drafts_step ctx scope found (.mk kind range isNamed field children)
    rw [visit, sites, List.foldl_cons, ← hstep]
    cases step ctx scope found (.mk kind range isNamed field children) with
    | descend scope' found' => exact drafts_visitAll ctx children scope' found'
    | finish found' => rfl

/-- The definitions after a walk are those before it with the definitions of its sites taken in. -/
theorem drafts_visitAll (ctx : Context) : (nodes : List Node) → (scope : Scope) →
    (found : Findings) → (visitAll ctx scope found nodes).drafts =
      (sitesAll ctx scope found nodes).foldl (record ctx) found.drafts
  | [], _, _ => by rw [visitAll, sitesAll, List.foldl_nil]
  | node :: rest, scope, found => by
    rw [visitAll, sitesAll]
    split
    · rw [List.foldl_append, drafts_visitAll ctx rest, drafts_visit ctx node]
    · exact drafts_visitAll ctx rest scope found

end

/-- The sites are in the order of the walk: each finds the definitions of those before it. -/
def InOrder (ctx : Context) : List Draft → List Site → Prop
  | _, [] => True
  | drafts, site :: rest => site.found.drafts = drafts ∧ InOrder ctx (record ctx drafts site) rest

theorem inOrder_append {front back : List Site} {drafts : List Draft} :
    InOrder ctx drafts (front ++ back) ↔
      InOrder ctx drafts front ∧ InOrder ctx (front.foldl (record ctx) drafts) back := by
  induction front generalizing drafts with
  | nil => simp [InOrder]
  | cons site front ih => simp [InOrder, ih, and_assoc]

mutual

private theorem inOrder_sites (ctx : Context) : (node : Node) → (scope : Scope) →
    (found : Findings) → InOrder ctx found.drafts (sites ctx scope found node)
  | .mk kind range isNamed field children, scope, found => by
    have hstep := drafts_step ctx scope found (.mk kind range isNamed field children)
    rw [sites, InOrder, ← hstep]
    refine ⟨rfl, ?_⟩
    cases step ctx scope found (.mk kind range isNamed field children) with
    | descend scope' found' => exact inOrder_sitesAll ctx children scope' found'
    | finish found' => trivial

theorem inOrder_sitesAll (ctx : Context) : (nodes : List Node) → (scope : Scope) →
    (found : Findings) → InOrder ctx found.drafts (sitesAll ctx scope found nodes)
  | [], _, _ => by
    rw [sitesAll]
    trivial
  | node :: rest, scope, found => by
    rw [sitesAll]
    split
    · refine inOrder_append.mpr ⟨inOrder_sites ctx node scope found, ?_⟩
      rw [← drafts_visit ctx node]
      exact inOrder_sitesAll ctx rest scope (visit ctx scope found node)
    · exact inOrder_sitesAll ctx rest scope found

end

/-- What is found before a site is what the sites before it define. -/
theorem found_of_sitesOf {root : Node} {front back : List Site} {site : Site}
    (h : sitesOf ctx root = front ++ site :: back) :
    site.found.drafts = front.foldl (record ctx) [] := by
  have horder : InOrder ctx [] (sitesOf ctx root) :=
    inOrder_sitesAll ctx root.children (.ofFile ctx) .none
  rw [h, inOrder_append] at horder
  exact horder.2.1

/-! ### First definitions -/

/-- The definitions of some sites, without those called like the remainder. -/
def definitionsAt (ctx : Context) (front : List Site) : List Draft :=
  (front.filterMap (Site.definition? ctx)).filter fun d => !(d.qualifiedName == ctx.moduleName)

theorem definitionsAt_append_singleton (front : List Site) (site : Site) :
    definitionsAt ctx (front ++ [site]) = definitionsAt ctx front ++ definitionsAt ctx [site] := by
  rw [definitionsAt, List.filterMap_append, List.filter_append]
  rfl

theorem mem_definitionsAt {front : List Site} {d : Draft} :
    d ∈ definitionsAt ctx front ↔
      (∃ site ∈ front, site.definition? ctx = some d) ∧ d.qualifiedName ≠ ctx.moduleName := by
  simp [definitionsAt]

/-- Taking in the definitions of some sites keeps the first of each name. -/
theorem foldl_record (front : List Site) :
    front.foldl (record ctx) [] = Keyed.firsts (·.qualifiedName) (definitionsAt ctx front) := by
  induction front using List.reverseRecOn with
  | nil => rfl
  | append_singleton front site ih =>
    rw [List.foldl_append, List.foldl_cons, List.foldl_nil, ih, definitionsAt_append_singleton]
    cases hd : site.definition? ctx with
    | none => simp [record_of_none hd, definitionsAt, hd]
    | some d =>
      by_cases hmodule : d.qualifiedName = ctx.moduleName
      · simp [record, definitionsAt, hd, hmodule]
      · have hsingle : definitionsAt ctx [site] = [d] := by simp [definitionsAt, hd, hmodule]
        rw [hsingle, Keyed.firsts_append_singleton, record, hd]
        simp [hmodule]

/-- What a walk finds is the first definition of each name that is not the remainder's. -/
theorem drafts_walk (ctx : Context) (root : Node) :
    (walk ctx root).drafts =
      Keyed.firsts (·.qualifiedName) (definitionsAt ctx (sitesOf ctx root)) :=
  (drafts_visitAll ctx root.children (.ofFile ctx) .none).trans (foldl_record _)

/-- A name is taken at a site when it is the remainder's or was defined at a site before. -/
theorem isTaken_iff {root : Node} {front back : List Site} {site : Site}
    (h : sitesOf ctx root = front ++ site :: back) {name : String} :
    isTaken ctx site.found name = true ↔
      name = ctx.moduleName ∨
        ∃ earlier ∈ front, ∃ e, earlier.definition? ctx = some e ∧ e.qualifiedName = name := by
  rw [isTaken, found_of_sitesOf h, foldl_record, Bool.or_eq_true, beq_iff_eq]
  by_cases hmodule : name = ctx.moduleName
  · simp [hmodule]
  simp only [hmodule, false_or, List.any_eq_true, beq_iff_eq]
  constructor
  · rintro ⟨e, he, hname⟩
    obtain ⟨⟨earlier, hearlier, hdefines⟩, -⟩ :=
      mem_definitionsAt.mp ((Keyed.firsts_sublist _ _).subset he)
    exact ⟨earlier, hearlier, e, hdefines, hname⟩
  · rintro ⟨earlier, hearlier, e, hdefines, hname⟩
    have he : e ∈ definitionsAt ctx front :=
      mem_definitionsAt.mpr ⟨⟨earlier, hearlier, hdefines⟩, hname ▸ hmodule⟩
    obtain ⟨kept, hkept, hsame⟩ := Keyed.exists_mem_firsts (fun d : Draft => d.qualifiedName) he
    exact ⟨kept, hkept, hsame.trans hname⟩

/-- The first definition of a name that is not the remainder's is found. -/
theorem mem_drafts_walk {root : Node} {front back : List Site} {site : Site}
    (h : sitesOf ctx root = front ++ site :: back) {d : Draft}
    (hd : site.definition? ctx = some d)
    (hfirst : ∀ earlier ∈ front, ∀ e, earlier.definition? ctx = some e →
      e.qualifiedName ≠ d.qualifiedName)
    (hmodule : d.qualifiedName ≠ ctx.moduleName) : d ∈ (walk ctx root).drafts := by
  have hsplit : definitionsAt ctx (sitesOf ctx root) =
      definitionsAt ctx front ++ d :: definitionsAt ctx back := by
    rw [h, definitionsAt, List.filterMap_append, List.filter_append, List.filterMap_cons_some hd,
      List.filter_cons_of_pos (by simpa using hmodule)]
    rfl
  have hnone : (definitionsAt ctx front).find? (fun e => e.qualifiedName == d.qualifiedName) =
      none := by
    refine List.find?_eq_none.mpr fun e he => ?_
    obtain ⟨⟨earlier, hearlier, hdefines⟩, -⟩ := mem_definitionsAt.mp he
    simpa using hfirst earlier hearlier e hdefines
  have hfind : (walk ctx root).drafts.find? (fun e => e.qualifiedName == d.qualifiedName) =
      some d := by
    rw [drafts_walk, Keyed.find?_firsts, hsplit, List.find?_append, hnone, Option.none_or,
      List.find?_cons_of_pos (by simp)]
  exact List.mem_of_find?_eq_some hfind

theorem range_of_definition? {site : Site} {d : Draft} (h : site.definition? ctx = some d) :
    d.range = site.node.range := by
  unfold Site.definition? at h
  split_ifs at h
  obtain ⟨rule, -, h⟩ := Option.bind_eq_some_iff.mp h
  obtain ⟨name, -, rfl⟩ := Option.map_eq_some_iff.mp h
  rfl

/-! ### Names below the module -/

/-- Names in the scope are at least as long as what the names of the file start with. -/
def Lengthens (ctx : Context) (scope : Scope) : Prop :=
  ctx.qualifier.length ≤ scope.qualifier.length

private theorem Lengthens.step {scope scope' : Scope} {found found' : Findings} {node : Node}
    (h : Lengthens ctx scope) (hstep : Stepped ctx scope found node (.descend scope' found')) :
    Lengthens ctx scope' := by
  unfold Lengthens at h ⊢
  cases hstep with
  | redefinition => exact h
  | definition rule name _ _ hname _ =>
    have hlt : scope.qualifier.length < (draftOf scope rule node name).qualifiedName.length :=
      Symbol.length_lt_qualify (localName_ne_empty hname)
    simp only [bodyScope]
    split <;> omega
  | scope rule name _ _ hname =>
    obtain ⟨_, _, hsymbol⟩ := Option.bind_eq_some_iff.mp hname
    have hlt : scope.qualifier.length < (innerScope scope rule name).qualifier.length :=
      Symbol.length_lt_qualify (Symbol.normalize?_ne_empty hsymbol)
    omega
  | call => exact h
  | code => exact h

mutual

private theorem scope_of_mem_sites {P : Scope → Prop}
    (hkeeps : ∀ {scope scope' : Scope} {found found' : Findings} {node : Node}, P scope →
      Stepped ctx scope found node (.descend scope' found') → P scope') :
    (node : Node) → (scope : Scope) → (found : Findings) → P scope →
      ∀ site ∈ sites ctx scope found node, P site.scope
  | .mk kind range isNamed field children, scope, found, hscope => by
    have hstep := stepped ctx scope found (.mk kind range isNamed field children)
    rw [sites]
    refine List.forall_mem_cons.mpr ⟨hscope, ?_⟩
    split
    case h_1 scope' found' heq =>
      rw [heq] at hstep
      exact scope_of_mem_sitesAll hkeeps children scope' found' (hkeeps hscope hstep)
    case h_2 => simp

/-- What every step keeps of the scope holds of the scopes of all sites. -/
theorem scope_of_mem_sitesAll {P : Scope → Prop}
    (hkeeps : ∀ {scope scope' : Scope} {found found' : Findings} {node : Node}, P scope →
      Stepped ctx scope found node (.descend scope' found') → P scope') :
    (nodes : List Node) → (scope : Scope) → (found : Findings) → P scope →
      ∀ site ∈ sitesAll ctx scope found nodes, P site.scope
  | [], _, _, _ => by simp [sitesAll]
  | node :: rest, scope, found, hscope => by
    rw [sitesAll]
    split
    · exact List.forall_mem_append.mpr ⟨scope_of_mem_sites hkeeps node scope found hscope,
        scope_of_mem_sitesAll hkeeps rest scope _ hscope⟩
    · exact scope_of_mem_sitesAll hkeeps rest scope found hscope

end

/-- Every definition is called longer than what the names of the file start with. -/
theorem qualifier_lt_of_definition? {root : Node} {site : Site} (hsite : site ∈ sitesOf ctx root)
    {d : Draft} (h : site.definition? ctx = some d) :
    ctx.qualifier.length < d.qualifiedName.length := by
  have hscope : Lengthens ctx site.scope :=
    scope_of_mem_sitesAll Lengthens.step root.children (.ofFile ctx) .none (Nat.le_refl _) site
      hsite
  unfold Site.definition? at h
  split_ifs at h
  obtain ⟨rule, -, h⟩ := Option.bind_eq_some_iff.mp h
  obtain ⟨name, hname, rfl⟩ := Option.map_eq_some_iff.mp h
  exact Nat.lt_of_le_of_lt hscope (Symbol.length_lt_qualify (localName_ne_empty hname))

/-! ### Components of definitions -/

/-- A definition is found at the site, among those of a file. The first of its name has a component
of its own with the range of the node, less the ranges of the definitions in it, unless it is called
like the remainder. Otherwise nothing is defined at the node or below it, and its code stays with the
definition around it. Where names start with the module, no definition is called like the
remainder. -/
theorem first_definition_extracted (language : Language) (relativePath source : String)
    (root : Node) (front back : List Site) (site : Site) (d : Draft)
    (hsites : sitesOf (.ofFile language relativePath source) root = front ++ site :: back)
    (hd : site.definition? (.ofFile language relativePath source) = some d) :
    let ctx := Context.ofFile language relativePath source
    let file := extract language relativePath source root
    let isFirst := ∀ earlier ∈ front, ∀ e, earlier.definition? ctx = some e →
      e.qualifiedName ≠ d.qualifiedName
    (isFirst → d.qualifiedName ≠ language.modulePath relativePath →
      ∃ index component, (walk ctx root).drafts[index]? = some d ∧
        file.components[index]? = some component ∧
        component.qualifiedName = d.qualifiedName ∧ component.kind = d.kind ∧
        component.kind ≠ .residual ∧
        component.spans = site.node.range.subtract (rangesBelow (walk ctx root) (some index))) ∧
    (¬ isFirst ∨ d.qualifiedName = language.modulePath relativePath →
      step ctx site.scope site.found site.node =
        .descend { site.scope with isSealed := true } site.found) ∧
    (language.symbolQualifier relativePath = language.modulePath relativePath →
      d.qualifiedName ≠ language.modulePath relativePath) := by
  intro ctx file isFirst
  refine ⟨fun hfirst hname => ?_, fun hswallowed => ?_, fun hqualifier hname => ?_⟩
  · obtain ⟨index, hindex⟩ := List.mem_iff_getElem?.mp (mem_drafts_walk hsites hd hfirst hname)
    have hkind := ((nested_walk ctx root).named d (List.mem_of_getElem? hindex)).2
    refine ⟨index, componentOfDraft ctx (walk ctx root) index d, hindex,
      getElem?_components_of_draft hindex, rfl, rfl, hkind, ?_⟩
    rw [← range_of_definition? hd]
    rfl
  · refine step_of_taken hd ((isTaken_iff hsites).mpr ?_)
    rcases hswallowed with hlater | hname
    · right
      simpa [isFirst] using hlater
    · exact Or.inl hname
  · have hmem : site ∈ sitesOf ctx root := by simp [hsites, ctx]
    have hlt := qualifier_lt_of_definition? hmem hd
    rw [hname] at hlt
    exact absurd (congrArg String.length hqualifier) (by simpa [ctx, Context.ofFile] using hlt.ne)

/-- A file of Go with one function. -/
def oneFunctionSource : String :=
  "package d\nfunc f() { g() }\n"

/-- The tree of `oneFunctionSource`. -/
def oneFunctionTree : Node :=
  .mk "source_file" ⟨0, 27⟩ true ""
    [.mk "package_clause" ⟨0, 9⟩ true "" [.mk "package_identifier" ⟨8, 9⟩ true "" []],
      .mk "function_declaration" ⟨10, 26⟩ true ""
        [.mk "identifier" ⟨15, 16⟩ true "name" [],
          .mk "parameter_list" ⟨16, 18⟩ true "parameters" [],
          .mk "block" ⟨19, 26⟩ true "body"
            [.mk "expression_statement" ⟨21, 24⟩ true ""
              [.mk "call_expression" ⟨21, 24⟩ true ""
                [.mk "identifier" ⟨21, 22⟩ true "function" [],
                  .mk "argument_list" ⟨22, 24⟩ true "arguments" []]]]]]

/-- The definition of the function, in a directory. -/
def functionDraft : Draft where
  qualifiedName := "x.f"
  kind := .function
  parent := none
  range := ⟨10, 26⟩
  selfType := none
  selfAlias := none

/-- A site after sites without definitions is the first to define its name. -/
private theorem exists_first_site (ctx : Context) (root : Node) (i : Nat) {d : Draft}
    (hsite : (sitesOf ctx root)[i]?.bind (Site.definition? ctx) = some d)
    (hfront : ((sitesOf ctx root).take i).all (fun s => (s.definition? ctx).isNone) = true) :
    ∃ front site back, sitesOf ctx root = front ++ site :: back ∧ site.definition? ctx = some d ∧
      ∀ earlier ∈ front, ∀ e, earlier.definition? ctx = some e →
        e.qualifiedName ≠ d.qualifiedName := by
  obtain ⟨site, hget, hd⟩ := Option.bind_eq_some_iff.mp hsite
  obtain ⟨hlt, rfl⟩ := List.getElem?_eq_some_iff.mp hget
  refine ⟨(sitesOf ctx root).take i, _, (sitesOf ctx root).drop (i + 1), ?_, hd, ?_⟩
  · rw [List.getElem_cons_drop, List.take_append_drop]
  · intro earlier hearlier e he
    have hnone := List.all_eq_true.mp hfront earlier hearlier
    simp [he] at hnone

/-- In a file of another name the function has a component. -/
theorem first_definition_extracted_function :
    ∃ component ∈ (extract .go "x/m.go" oneFunctionSource oneFunctionTree).components,
      component.qualifiedName = "x.f" ∧ component.kind = .function := by
  obtain ⟨front, site, back, hsites, hd, hfirst⟩ :=
    exists_first_site (.ofFile .go "x/m.go" oneFunctionSource) oneFunctionTree 2 (d := functionDraft)
      (by decide +kernel) (by decide +kernel)
  obtain ⟨index, component, -, hcomponent, hname, hkind, -⟩ :=
    (first_definition_extracted .go "x/m.go" oneFunctionSource oneFunctionTree front back site
      functionDraft hsites hd).1 hfirst (by decide +kernel)
  exact ⟨component, List.mem_of_getElem? hcomponent, hname, hkind⟩

/-- A function called like its file is the first to define its name, and the remainder, which is the
only component of the file, has its code. -/
theorem first_definition_swallowed :
    let ctx := Context.ofFile .go "x/f.go" oneFunctionSource
    let file := extract .go "x/f.go" oneFunctionSource oneFunctionTree
    Node.WellFormed oneFunctionSource oneFunctionTree ∧
    (∃ front site back, sitesOf ctx oneFunctionTree = front ++ site :: back ∧
      site.definition? ctx = some functionDraft ∧
      ∀ earlier ∈ front, ∀ e, earlier.definition? ctx = some e →
        e.qualifiedName ≠ functionDraft.qualifiedName) ∧
    file.components.map (fun c => (c.qualifiedName, c.kind, c.spans)) =
      [("x.f", .residual, [⟨0, 27⟩])] := by
  refine ⟨by decide +kernel, ?_, by decide +kernel⟩
  exact exists_first_site _ _ 2 (by decide +kernel) (by decide +kernel)

end CodeAtlas.Extraction
