import CodeAtlas.Extraction.Walk

/-!
# What a step of the walk does

At every node of a syntax tree the walk does one of six things: it passes a redefinition over, it
records a new definition, it enters a scope, it reads an import, it records a call, or it goes on.
`Stepped` lists them with everything that is known in each case, and what all of them keep is kept
by the whole walk.

## Main results

* `Extraction.stepped`: every step is one of the six.
* `Extraction.visitAll_upholds`: from one step to a whole walk, where what is known of a scope hangs
  on the definitions found so far.
* `Extraction.visitAll_induction`: the same, where it does not.
-/

namespace CodeAtlas.Extraction

/-- The draft of a definition found in a scope. -/
def draftOf (scope : Scope) (rule : DefinitionRule) (node : Node) (name : DefinitionName) : Draft :=
  let kind := placedKind rule node (scope.inType || name.ownerType.isSome)
  let qualifiedName := Symbol.qualify scope.qualifier name.localName
  { qualifiedName := qualifiedName
    kind := kind
    parent := scope.owner
    range := node.range
    selfType :=
      if kind == .type then some qualifiedName
      else (name.ownerType.map (Symbol.qualify scope.qualifier)).or scope.selfType
    selfAlias := name.selfAlias.or scope.selfAlias }

/-- The scope inside of a definition, which is sealed unless it is a type. -/
def bodyScope (scope : Scope) (index : Nat) (draft : Draft) : Scope where
  qualifier := if draft.kind == .type then draft.qualifiedName else scope.qualifier
  owner := some index
  inType := draft.kind == .type
  isSealed := !(draft.kind == .type)
  selfType := draft.selfType
  selfAlias := draft.selfAlias

/-- What the walk does at a node, by cases. -/
inductive Stepped (ctx : Context) (scope : Scope) (found : Findings) (node : Node) : Step → Prop
  /-- The name is taken: nothing is defined below, and the code stays with the owner. -/
  | redefinition (rule : DefinitionRule) (name : DefinitionName)
      (open_scope : scope.isSealed = false) (has_rule : ctx.rules.definition? node.kind = some rule)
      (has_name : definitionAt? ctx scope rule node = some name)
      (taken : isTaken ctx found (Symbol.qualify scope.qualifier name.localName) = true) :
      Stepped ctx scope found node (.descend { scope with isSealed := true } found)
  /-- A first definition becomes a draft, and its body is visited below it. -/
  | definition (rule : DefinitionRule) (name : DefinitionName)
      (open_scope : scope.isSealed = false) (has_rule : ctx.rules.definition? node.kind = some rule)
      (has_name : definitionAt? ctx scope rule node = some name)
      (free : isTaken ctx found (Symbol.qualify scope.qualifier name.localName) = false) :
      Stepped ctx scope found node
        (.descend (bodyScope scope found.drafts.length (draftOf scope rule node name))
          { found with drafts := found.drafts ++ [draftOf scope rule node name] })
  /-- A scope changes how the names below start. -/
  | scope (rule : ScopeRule) (name : String) (open_scope : scope.isSealed = false)
      (has_rule : ctx.rules.scope? node.kind = some rule)
      (has_name : (nameNode? node rule.name).bind ctx.symbol? = some name) :
      Stepped ctx scope found node (.descend (innerScope scope rule name) found)
  /-- Imports are read and not entered. -/
  | imports (is_import : ctx.rules.isImport node.kind = true) :
      Stepped ctx scope found node
        (.finish { found with imports := found.imports ++ importsOf ctx node })
  /-- A call belongs to the owner of its place. -/
  | call (callee : String) (has_callee : calleeOf? ctx node = some callee) :
      Stepped ctx scope found node
        (.descend scope { found with calls := found.calls ++ [⟨scope.owner, callee⟩] })
  /-- Other code is passed through. -/
  | code (no_callee : calleeOf? ctx node = none) :
      Stepped ctx scope found node (.descend scope found)

theorem enterDefinition_of_taken {ctx : Context} {scope : Scope} {rule : DefinitionRule}
    {node : Node} {name : DefinitionName} {found : Findings}
    (h : isTaken ctx found (Symbol.qualify scope.qualifier name.localName) = true) :
    enterDefinition ctx scope rule node name found =
      .descend { scope with isSealed := true } found := by
  simp only [enterDefinition, h, ↓reduceIte]

theorem enterDefinition_of_free {ctx : Context} {scope : Scope} {rule : DefinitionRule}
    {node : Node} {name : DefinitionName} {found : Findings}
    (h : isTaken ctx found (Symbol.qualify scope.qualifier name.localName) = false) :
    enterDefinition ctx scope rule node name found =
      .descend (bodyScope scope found.drafts.length (draftOf scope rule node name))
        { found with drafts := found.drafts ++ [draftOf scope rule node name] } := by
  simp only [enterDefinition, h, Bool.false_eq_true, ↓reduceIte]
  rfl

private theorem stepped_definitionStep? {ctx : Context} {scope : Scope} {found : Findings}
    {node : Node} {result : Step} (h : definitionStep? ctx scope found node = some result) :
    Stepped ctx scope found node result := by
  cases hsealed : scope.isSealed with
  | true => simp [definitionStep?, hsealed] at h
  | false =>
    simp only [definitionStep?, hsealed, Bool.false_eq_true, ↓reduceIte] at h
    obtain ⟨rule, hrule, h⟩ := Option.bind_eq_some_iff.mp h
    obtain ⟨name, hname, rfl⟩ := Option.map_eq_some_iff.mp h
    cases htaken : isTaken ctx found (Symbol.qualify scope.qualifier name.localName) with
    | true =>
      rw [enterDefinition_of_taken htaken]
      exact .redefinition rule name hsealed hrule hname htaken
    | false =>
      rw [enterDefinition_of_free htaken]
      exact .definition rule name hsealed hrule hname htaken

private theorem stepped_scopeStep? {ctx : Context} {scope : Scope} {found : Findings}
    {node : Node} {result : Step} (h : scopeStep? ctx scope found node = some result) :
    Stepped ctx scope found node result := by
  cases hsealed : scope.isSealed with
  | true => simp [scopeStep?, hsealed] at h
  | false =>
    simp only [scopeStep?, hsealed, Bool.false_eq_true, ↓reduceIte] at h
    obtain ⟨rule, hrule, h⟩ := Option.bind_eq_some_iff.mp h
    obtain ⟨name, hname, rfl⟩ := Option.map_eq_some_iff.mp h
    exact .scope rule name hsealed hrule hname

private theorem stepped_codeStep (ctx : Context) (scope : Scope) (found : Findings) (node : Node) :
    Stepped ctx scope found node (codeStep ctx scope found node) := by
  unfold codeStep
  split
  case isTrue himport => exact .imports himport
  case isFalse =>
    split
    case h_1 callee hcallee => exact .call callee hcallee
    case h_2 hcallee => exact .code hcallee

/-- Every step is one of the six. -/
theorem stepped (ctx : Context) (scope : Scope) (found : Findings) (node : Node) :
    Stepped ctx scope found node (step ctx scope found node) := by
  unfold step
  cases hdef : definitionStep? ctx scope found node with
  | some result => exact stepped_definitionStep? hdef
  | none =>
    cases hscope : scopeStep? ctx scope found node with
    | some result => exact stepped_scopeStep? hscope
    | none => exact stepped_codeStep ctx scope found node

/-- What is found when a step is done. -/
def Step.found : Step → Findings
  | .descend _ found => found
  | .finish found => found

/-- Every step upholds a property of what was found and what is known of the scopes in view of it:
of the scope that is entered, and of all scopes that the walk returns to. -/
structure StepUpholds (ctx : Context) (Inside : Findings → Scope → Prop)
    (Good : Findings → Prop) : Prop where
  good {scope : Scope} {found : Findings} {node : Node} {result : Step} :
    Inside found scope → Good found → Stepped ctx scope found node result → Good result.found
  enter {scope scope' : Scope} {found found' : Findings} {node : Node} :
    Inside found scope → Good found → Stepped ctx scope found node (.descend scope' found') →
      Inside found' scope'
  back {scope outer : Scope} {found : Findings} {node : Node} {result : Step} :
    Inside found outer → Stepped ctx scope found node result → Inside result.found outer

mutual

private theorem visit_upholds {ctx : Context} {Inside : Findings → Scope → Prop}
    {Good : Findings → Prop} (h : StepUpholds ctx Inside Good) : (node : Node) → (scope : Scope) →
      (found : Findings) → Inside found scope → Good found →
      Good (visit ctx scope found node) ∧
        ∀ outer, Inside found outer → Inside (visit ctx scope found node) outer
  | .mk kind range isNamed field children, scope, found, hscope, hfound => by
    have hstep := stepped ctx scope found (.mk kind range isNamed field children)
    rw [visit]
    split
    case h_1 scope' found' heq =>
      rw [heq] at hstep
      obtain ⟨hgood, houter⟩ := visitAll_upholds h children scope' found'
        (h.enter hscope hfound hstep) (h.good hscope hfound hstep)
      exact ⟨hgood, fun outer hinside => houter outer (h.back hinside hstep)⟩
    case h_2 found' heq =>
      rw [heq] at hstep
      exact ⟨h.good hscope hfound hstep, fun outer hinside => h.back hinside hstep⟩

/-- What every step upholds, a walk over any nodes upholds. -/
theorem visitAll_upholds {ctx : Context} {Inside : Findings → Scope → Prop}
    {Good : Findings → Prop} (h : StepUpholds ctx Inside Good) : (nodes : List Node) →
      (scope : Scope) → (found : Findings) → Inside found scope → Good found →
      Good (visitAll ctx scope found nodes) ∧
        ∀ outer, Inside found outer → Inside (visitAll ctx scope found nodes) outer
  | [], _, _, _, hfound => by
    rw [visitAll]
    exact ⟨hfound, fun _ hinside => hinside⟩
  | node :: rest, scope, found, hscope, hfound => by
    rw [visitAll]
    split
    · obtain ⟨hgood, houter⟩ := visit_upholds h node scope found hscope hfound
      obtain ⟨hgood', houter'⟩ := visitAll_upholds h rest scope _ (houter scope hscope) hgood
      exact ⟨hgood', fun outer hinside => houter' outer (houter outer hinside)⟩
    · exact visitAll_upholds h rest scope found hscope hfound

end

/-- Every step keeps a property of the scope and a property of what was found. -/
structure StepKeeps (ctx : Context) (Inside : Scope → Prop) (Good : Findings → Prop) : Prop where
  descend {scope scope' : Scope} {found found' : Findings} {node : Node} :
    Inside scope → Good found → Stepped ctx scope found node (.descend scope' found') →
      Inside scope' ∧ Good found'
  finish {scope : Scope} {found found' : Findings} {node : Node} :
    Inside scope → Good found → Stepped ctx scope found node (.finish found') → Good found'

theorem StepKeeps.upholds {ctx : Context} {Inside : Scope → Prop} {Good : Findings → Prop}
    (h : StepKeeps ctx Inside Good) : StepUpholds ctx (fun _ => Inside) Good where
  good {_ _ _ result} hscope hfound hstep := by
    cases result with
    | descend scope' found' => exact (h.descend hscope hfound hstep).2
    | finish found' => exact h.finish hscope hfound hstep
  enter hscope hfound hstep := (h.descend hscope hfound hstep).1
  back hinside _ := hinside

/-- What every step keeps, a walk over any nodes keeps. -/
theorem visitAll_induction {ctx : Context} {Inside : Scope → Prop} {Good : Findings → Prop}
    (hkeeps : StepKeeps ctx Inside Good) (nodes : List Node) (scope : Scope) (found : Findings)
    (hscope : Inside scope) (hfound : Good found) : Good (visitAll ctx scope found nodes) :=
  (visitAll_upholds hkeeps.upholds nodes scope found hscope hfound).1

end CodeAtlas.Extraction
