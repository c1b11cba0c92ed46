import CodeAtlas.Proofs.Extraction.FirstDefinitions

/-!
# Which calls are recorded

The calls of a file are the call nodes of its tree, as far as no import stands above them. The walk
takes many ways through a tree: bodies are sealed, redefinitions are passed over, scopes change how
names start, and imports are not entered. None of this loses a call or records one twice. Each call
belongs to the innermost definition around it that became a component, and to the remainder where
there is none.

## Main definitions

* `Extraction.Place`: a node of a tree with the nodes above it.
* `Extraction.Spot`: a site of the walk with the sites above it.
* `Extraction.Spot.owner?`: the number of the definition a spot belongs to.

## Main results

* `Extraction.place_spotsOf`: the walk reaches the nodes that no import stands above, in order.
* `Extraction.calls_walk`: the recorded calls are those of its spots.
* `Extraction.calls_recorded`: what a file records of its calls.
-/

namespace CodeAtlas

/-! ### Kinds of nodes -/

namespace Language

/-- Definitions and scopes are neither calls nor imports. -/
theorem not_call_or_import {language : Language} {nodeKind : String}
    (h : (language.rules.definition? nodeKind).isSome ∨ (language.rules.scope? nodeKind).isSome) :
    language.rules.callField? nodeKind = none ∧ language.rules.isImport nodeKind = false := by
  have hdefinitions : ∀ rule ∈ language.rules.definitions,
      language.rules.callField? rule.nodeKind = none ∧
        language.rules.isImport rule.nodeKind = false := by
    cases language <;> decide
  have hscopes : ∀ rule ∈ language.rules.scopes,
      language.rules.callField? rule.nodeKind = none ∧
        language.rules.isImport rule.nodeKind = false := by
    cases language <;> decide
  rcases h with h | h
  · obtain ⟨rule, hrule⟩ := Option.isSome_iff_exists.mp h
    have hkind : rule.nodeKind = nodeKind := by simpa using List.find?_some hrule
    exact hkind ▸ hdefinitions rule (List.mem_of_find?_eq_some hrule)
  · obtain ⟨rule, hrule⟩ := Option.isSome_iff_exists.mp h
    have hkind : rule.nodeKind = nodeKind := by simpa using List.find?_some hrule
    exact hkind ▸ hscopes rule (List.mem_of_find?_eq_some hrule)

/-- Imports are no calls. -/
theorem not_call_of_import {language : Language} {nodeKind : String}
    (h : language.rules.isImport nodeKind = true) : language.rules.callField? nodeKind = none := by
  have himports : ∀ kind ∈ language.rules.imports, language.rules.callField? kind = none := by
    cases language <;> decide
  exact himports nodeKind (by simpa [Rules.isImport] using h)

end Language

namespace Extraction

/-! ### Nodes and what is above them -/

/-- A node below the root of a tree, and the nodes between it and the root, the innermost first. -/
structure Place where
  node : Node
  above : List Node

mutual

/-- The places at a node and below it, in pre-order through named nodes. -/
def places (above : List Node) : Node → List Place
  | .mk kind range isNamed field children =>
    ⟨.mk kind range isNamed field children, above⟩ ::
      placesAll (.mk kind range isNamed field children :: above) children

/-- The places at the named nodes of a list and below them. -/
def placesAll (above : List Node) : List Node → List Place
  | [] => []
  | node :: rest =>
    if node.isNamed then places above node ++ placesAll above rest else placesAll above rest

end

/-- No import stands above the place. -/
def Place.isOpen (ctx : Context) (place : Place) : Bool :=
  place.above.all fun node => !ctx.rules.isImport node.kind

/-- The places of a file's tree that no import stands above. -/
def openPlaces (ctx : Context) (root : Node) : List Place :=
  (placesAll [] root.children).filter (Place.isOpen ctx)

mutual

private theorem suffix_of_mem_places : (node : Node) → (above : List Node) →
    ∀ place ∈ places above node, above <:+ place.above
  | .mk kind range isNamed field children, above => by
    rw [places]
    refine List.forall_mem_cons.mpr ⟨List.suffix_refl above, fun place hplace => ?_⟩
    exact (List.suffix_cons _ above).trans (suffix_of_mem_placesAll children _ place hplace)

/-- What is above some nodes is above all places at them and below them. -/
theorem suffix_of_mem_placesAll : (nodes : List Node) → (above : List Node) →
    ∀ place ∈ placesAll above nodes, above <:+ place.above
  | [], _ => by simp [placesAll]
  | node :: rest, above => by
    rw [placesAll]
    split
    · exact List.forall_mem_append.mpr
        ⟨suffix_of_mem_places node above, suffix_of_mem_placesAll rest above⟩
    · exact suffix_of_mem_placesAll rest above

end

/-- Nothing below an import is open. -/
theorem filter_isOpen_of_import {ctx : Context} {above nodes : List Node} {node : Node}
    (hmem : node ∈ above) (himport : ctx.rules.isImport node.kind = true) :
    (placesAll above nodes).filter (Place.isOpen ctx) = [] := by
  refine List.filter_eq_nil_iff.mpr fun place hplace hopen => ?_
  have habove := (suffix_of_mem_placesAll nodes above place hplace).subset hmem
  have hnot := List.all_eq_true.mp hopen node habove
  simp [himport] at hnot

/-! ### The spots of a walk -/

/-- A site of the walk, and the sites above it, the innermost first. -/
structure Spot where
  around : List Site
  site : Site

/-- The place of the spot's node. -/
def Spot.place (spot : Spot) : Place :=
  ⟨spot.site.node, spot.around.map (·.node)⟩

mutual

/-- The spots at a node and below it. -/
def spots (ctx : Context) (around : List Site) (scope : Scope) (found : Findings) :
    Node → List Spot
  | .mk kind range isNamed field children =>
    ⟨around, scope, found, .mk kind range isNamed field children⟩ ::
      match step ctx scope found (.mk kind range isNamed field children) with
      | .descend scope' found' =>
        spotsAll ctx (⟨scope, found, .mk kind range isNamed field children⟩ :: around) scope'
          found' children
      | .finish _ => []

/-- The spots at the named nodes of a list and below them. -/
def spotsAll (ctx : Context) (around : List Site) (scope : Scope) (found : Findings) :
    List Node → List Spot
  | [] => []
  | node :: rest =>
    if node.isNamed then
      spots ctx around scope found node ++
        spotsAll ctx around scope (visit ctx scope found node) rest
    else spotsAll ctx around scope found rest

end

/-- The spots of the walk over a file's tree. -/
def spotsOf (ctx : Context) (root : Node) : List Spot :=
  spotsAll ctx [] (.ofFile ctx) .none root.children

/-- The definition of a site, if it is recorded because its name is free. -/
def Site.recorded? (ctx : Context) (site : Site) : Option Draft :=
  (site.definition? ctx).filter fun d => !isTaken ctx site.found d.qualifiedName

/-- The number under which the definition of a site is recorded, if it is. -/
def Site.registers? (ctx : Context) (site : Site) : Option Nat :=
  (site.recorded? ctx).map fun _ => site.found.drafts.length

/-- The node opens a scope for the members of a type that is defined elsewhere. -/
def Site.opensType (ctx : Context) (site : Site) : Bool :=
  !site.scope.isSealed && (ctx.rules.scope? site.node.kind).any (·.isType)

/-- The number of the innermost recorded definition above a spot. -/
def Spot.owner? (ctx : Context) (spot : Spot) : Option Nat :=
  spot.around.findSome? (Site.registers? ctx)

/-- The callee of the spot's node, if it is a call of a name. -/
def Spot.callee? (ctx : Context) (spot : Spot) : Option String :=
  calleeOf? ctx spot.site.node

/-- The call at a spot. -/
def Spot.call? (ctx : Context) (spot : Spot) : Option Call :=
  (spot.callee? ctx).map (Call.mk (spot.owner? ctx))

variable {ctx : Context}

/-! ### One step of the walk -/

theorem calleeOf?_eq_none {node : Node} (h : ctx.rules.callField? node.kind = none) :
    calleeOf? ctx node = none := by
  simp [calleeOf?, h]

/-- A step records the call of its node for the owner of its scope, and no other. -/
theorem calls_step (ctx : Context) (scope : Scope) (found : Findings) (node : Node) :
    (step ctx scope found node).found.calls =
      found.calls ++ ((calleeOf? ctx node).map (Call.mk scope.owner)).toList := by
  have hstep := stepped ctx scope found node
  generalize step ctx scope found node = result at hstep
  cases hstep with
  | redefinition rule name _ hrule _ _ =>
    have hkind := Language.not_call_or_import (Or.inl (by rw [← Context.rules, hrule]; rfl))
    simp [Step.found, calleeOf?_eq_none hkind.1]
  | definition rule name _ hrule _ _ =>
    have hkind := Language.not_call_or_import (Or.inl (by rw [← Context.rules, hrule]; rfl))
    simp [Step.found, calleeOf?_eq_none hkind.1]
  | scope rule name _ hrule _ =>
    have hkind := Language.not_call_or_import (Or.inr (by rw [← Context.rules, hrule]; rfl))
    simp [Step.found, calleeOf?_eq_none hkind.1]
  | imports himport =>
    simp [Step.found, calleeOf?_eq_none (Language.not_call_of_import himport)]
  | call callee hcallee => simp [Step.found, hcallee]
  | code hcallee => simp [Step.found, hcallee]

/-- At a definition that is recorded the walk enters its body. -/
theorem step_of_recorded? {site : Site} {d : Draft} (h : site.recorded? ctx = some d) :
    step ctx site.scope site.found site.node =
      .descend (bodyScope site.scope site.found.drafts.length d)
        { site.found with drafts := site.found.drafts ++ [d] } := by
  obtain ⟨hd, hfree⟩ := Option.filter_eq_some_iff.mp h
  exact step_of_free hd (by simpa using hfree)

/-- Below any other node the owner stays, and so do the words for the own value; only a scope of a
type's members changes what they stand for. -/
theorem scope_of_step {site : Site} {scope' : Scope} {found' : Findings}
    (hnone : site.recorded? ctx = none)
    (hstep : step ctx site.scope site.found site.node = .descend scope' found') :
    scope'.owner = site.scope.owner ∧ scope'.selfAlias = site.scope.selfAlias ∧
      (scope'.selfType = site.scope.selfType ∨
        site.opensType ctx = true ∧ scope'.selfType.isSome) := by
  have hcases := stepped ctx site.scope site.found site.node
  rw [hstep] at hcases
  cases hcases with
  | redefinition => exact ⟨rfl, rfl, Or.inl rfl⟩
  | definition rule name hopen hrule hname hfree =>
    have hd : site.definition? ctx = some (draftOf site.scope rule site.node name) :=
      definition?_eq_some hopen hrule hname
    have hrecorded : site.recorded? ctx = some (draftOf site.scope rule site.node name) :=
      Option.filter_eq_some_iff.mpr ⟨hd, by simpa [draftOf] using hfree⟩
    exact absurd (hnone.symm.trans hrecorded) (by simp)
  | scope rule name hopen hrule _ =>
    refine ⟨rfl, rfl, ?_⟩
    cases htype : rule.isType with
    | true =>
      exact Or.inr ⟨by simp [Site.opensType, hopen, hrule, htype], by simp [innerScope, htype]⟩
    | false => exact Or.inl (by simp [innerScope, htype])
  | call => exact ⟨rfl, rfl, Or.inl rfl⟩
  | code => exact ⟨rfl, rfl, Or.inl rfl⟩

/-- The walk ends at imports. -/
theorem step_of_import {scope : Scope} {found : Findings} {node : Node}
    (himport : ctx.rules.isImport node.kind = true) :
    step ctx scope found node =
      .finish { found with imports := found.imports ++ importsOf ctx node } := by
  have hnone : ctx.rules.definition? node.kind = none ∧ ctx.rules.scope? node.kind = none := by
    refine ⟨Option.eq_none_iff_forall_not_mem.mpr fun rule hrule => ?_,
      Option.eq_none_iff_forall_not_mem.mpr fun rule hrule => ?_⟩
    · have hkind := Language.not_call_or_import (Or.inl (Option.isSome_of_mem hrule))
      exact absurd (hkind.2.symm.trans himport) (by simp)
    · have hkind := Language.not_call_or_import (Or.inr (Option.isSome_of_mem hrule))
      exact absurd (hkind.2.symm.trans himport) (by simp)
  simp [step, definitionStep?, scopeStep?, codeStep, hnone.1, hnone.2, himport]

/-- The walk goes on below every other node. -/
theorem import_of_finish {scope : Scope} {found found' : Findings} {node : Node}
    (hstep : step ctx scope found node = .finish found') :
    ctx.rules.isImport node.kind = true := by
  have hcases := stepped ctx scope found node
  rw [hstep] at hcases
  cases hcases with
  | imports himport => exact himport

/-! ### The walk reaches all open places -/

mutual

private theorem place_spots (ctx : Context) : (node : Node) → (around : List Site) →
    (scope : Scope) → (found : Findings) →
    (∀ site ∈ around, ctx.rules.isImport site.node.kind = false) →
    (spots ctx around scope found node).map Spot.place =
      (places (around.map (·.node)) node).filter (Place.isOpen ctx)
  | .mk kind range isNamed field children, around, scope, found, haround => by
    have hopen : Place.isOpen ctx ⟨.mk kind range isNamed field children, around.map (·.node)⟩ =
        true := by
      simpa [Place.isOpen] using haround
    rw [spots, places, List.map_cons, List.filter_cons_of_pos hopen, Spot.place]
    congr 1
    split
    case h_1 scope' found' hstep =>
      refine place_spotsAll ctx children _ scope' found' ?_
      refine List.forall_mem_cons.mpr ⟨Bool.eq_false_iff.mpr fun himport => ?_, haround⟩
      rw [step_of_import himport] at hstep
      exact absurd hstep (by simp)
    case h_2 found' hstep =>
      exact (filter_isOpen_of_import List.mem_cons_self (import_of_finish hstep)).symm

private theorem place_spotsAll (ctx : Context) : (nodes : List Node) → (around : List Site) →
    (scope : Scope) → (found : Findings) →
    (∀ site ∈ around, ctx.rules.isImport site.node.kind = false) →
    (spotsAll ctx around scope found nodes).map Spot.place =
      (placesAll (around.map (·.node)) nodes).filter (Place.isOpen ctx)
  | [], _, _, _, _ => by simp [spotsAll, placesAll]
  | node :: rest, around, scope, found, haround => by
    rw [spotsAll, placesAll]
    split
    · rw [List.map_append, List.filter_append, place_spots ctx node around scope found haround,
        place_spotsAll ctx rest around scope _ haround]
    · exact place_spotsAll ctx rest around scope found haround

end

/-- The walk reaches the nodes that no import stands above, each once and in pre-order. -/
theorem place_spotsOf (ctx : Context) (root : Node) :
    (spotsOf ctx root).map Spot.place = openPlaces ctx root :=
  place_spotsAll ctx root.children [] (.ofFile ctx) .none fun _ h => absurd h List.not_mem_nil

/-! ### Scopes and what is around them -/

mutual

private theorem around_spots {P : List Site → Scope → Prop}
    (henter : ∀ {around : List Site} {scope scope' : Scope} {found found' : Findings} {node : Node},
      P around scope → step ctx scope found node = .descend scope' found' →
        P (⟨scope, found, node⟩ :: around) scope') :
    (node : Node) → (around : List Site) → (scope : Scope) → (found : Findings) → P around scope →
      ∀ spot ∈ spots ctx around scope found node, P spot.around spot.site.scope
  | .mk kind range isNamed field children, around, scope, found, hscope => by
    rw [spots]
    refine List.forall_mem_cons.mpr ⟨hscope, ?_⟩
    split
    case h_1 scope' found' hstep =>
      exact around_spotsAll henter children _ scope' found' (henter hscope hstep)
    case h_2 => simp

/-- What holds of a scope in view of the sites around it, and holds below every node that is
entered, holds at all spots. -/
theorem around_spotsAll {P : List Site → Scope → Prop}
    (henter : ∀ {around : List Site} {scope scope' : Scope} {found found' : Findings} {node : Node},
      P around scope → step ctx scope found node = .descend scope' found' →
        P (⟨scope, found, node⟩ :: around) scope') :
    (nodes : List Node) → (around : List Site) → (scope : Scope) → (found : Findings) →
      P around scope → ∀ spot ∈ spotsAll ctx around scope found nodes, P spot.around spot.site.scope
  | [], _, _, _, _ => by simp [spotsAll]
  | node :: rest, around, scope, found, hscope => by
    rw [spotsAll]
    split
    · exact List.forall_mem_append.mpr ⟨around_spots henter node around scope found hscope,
        around_spotsAll henter rest around scope _ hscope⟩
    · exact around_spotsAll henter rest around scope found hscope

end

/-- The walk knows the owner of each spot. -/
theorem owner_of_spot {root : Node} {spot : Spot} (hspot : spot ∈ spotsOf ctx root) :
    spot.site.scope.owner = spot.owner? ctx := by
  refine around_spotsAll (P := fun around scope =>
    scope.owner = around.findSome? (Site.registers? ctx)) (fun howner hstep => ?_) root.children []
    (.ofFile ctx) .none rfl spot hspot
  rename_i around scope scope' found found' node
  rw [List.findSome?_cons, Site.registers?]
  cases hrecorded : Site.recorded? ctx ⟨scope, found, node⟩ with
  | some d =>
    obtain ⟨rfl, -⟩ := Step.descend.inj ((step_of_recorded? hrecorded).symm.trans hstep)
    rfl
  | none => exact (scope_of_step hrecorded hstep).1.trans howner

/-! ### The recorded calls -/

/-- The call that a step records at a site. -/
def Site.call? (ctx : Context) (site : Site) : Option Call :=
  (calleeOf? ctx site.node).map (Call.mk site.scope.owner)

mutual

private theorem calls_visit (ctx : Context) : (node : Node) → (scope : Scope) →
    (found : Findings) → (around : List Site) → (visit ctx scope found node).calls =
      found.calls ++ (spots ctx around scope found node).filterMap fun spot => spot.site.call? ctx
  | .mk kind range isNamed field children, scope, found, around => by
    have hcall := calls_step ctx scope found (.mk kind range isNamed field children)
    have hcons (rest : List Spot) :
        (Spot.mk around ⟨scope, found, .mk kind range isNamed field children⟩ :: rest).filterMap
            (fun spot => spot.site.call? ctx) =
          (Site.call? ctx ⟨scope, found, .mk kind range isNamed field children⟩).toList ++
            rest.filterMap fun spot => spot.site.call? ctx := by
      rw [List.filterMap_cons]
      cases Site.call? ctx ⟨scope, found, .mk kind range isNamed field children⟩ <;> rfl
    rw [visit, spots, hcons, Site.call?, ← List.append_assoc, ← hcall]
    cases step ctx scope found (.mk kind range isNamed field children) with
    | descend scope' found' => exact calls_visitAll ctx children scope' found' _
    | finish found' => simp [Step.found]

private theorem calls_visitAll (ctx : Context) : (nodes : List Node) → (scope : Scope) →
    (found : Findings) → (around : List Site) → (visitAll ctx scope found nodes).calls =
      found.calls ++ (spotsAll ctx around scope found nodes).filterMap
        fun spot => spot.site.call? ctx
  | [], _, _, _ => by simp [visitAll, spotsAll]
  | node :: rest, scope, found, around => by
    rw [visitAll, spotsAll]
    split
    · rw [calls_visitAll ctx rest scope _ around, calls_visit ctx node scope found around,
        List.filterMap_append, List.append_assoc]
    · exact calls_visitAll ctx rest scope found around

end

/-- A walk records the calls of its spots, in order and each for the owner of its spot. -/
theorem calls_walk (ctx : Context) (root : Node) :
    (walk ctx root).calls = (spotsOf ctx root).filterMap (Spot.call? ctx) := by
  have hcalls : (walk ctx root).calls =
      (spotsOf ctx root).filterMap fun spot => spot.site.call? ctx :=
    calls_visitAll ctx root.children (.ofFile ctx) .none []
  rw [hcalls]
  refine List.filterMap_congr fun spot hspot => ?_
  rw [Site.call?, owner_of_spot hspot]
  rfl

/-! ### The owners of calls -/

mutual

private theorem sites_of_mem_spots (ctx : Context) : (node : Node) → (around : List Site) →
    (scope : Scope) → (found : Findings) → ∀ spot ∈ spots ctx around scope found node,
      ∀ site ∈ spot.site :: spot.around, site ∈ around ∨ site ∈ sites ctx scope found node
  | .mk kind range isNamed field children, around, scope, found => by
    rw [spots, sites]
    refine List.forall_mem_cons.mpr ⟨?_, fun spot hspot site hsite => ?_⟩
    · exact List.forall_mem_cons.mpr ⟨Or.inr List.mem_cons_self, fun site hsite => Or.inl hsite⟩
    · cases hstep : step ctx scope found (.mk kind range isNamed field children) with
      | descend scope' found' =>
        rw [hstep] at hspot
        rcases sites_of_mem_spotsAll ctx children _ scope' found' spot hspot site hsite with h | h
        · rcases List.mem_cons.mp h with rfl | h
          · exact Or.inr List.mem_cons_self
          · exact Or.inl h
        · exact Or.inr (List.mem_cons_of_mem _ h)
      | finish found' =>
        rw [hstep] at hspot
        exact absurd hspot List.not_mem_nil

private theorem sites_of_mem_spotsAll (ctx : Context) : (nodes : List Node) →
    (around : List Site) → (scope : Scope) → (found : Findings) →
    ∀ spot ∈ spotsAll ctx around scope found nodes, ∀ site ∈ spot.site :: spot.around,
      site ∈ around ∨ site ∈ sitesAll ctx scope found nodes
  | [], _, _, _ => by simp [spotsAll]
  | node :: rest, around, scope, found => by
    rw [spotsAll, sitesAll]
    split
    · refine List.forall_mem_append.mpr ⟨fun spot hspot site hsite => ?_,
        fun spot hspot site hsite => ?_⟩
      · exact (sites_of_mem_spots ctx node around scope found spot hspot site hsite).imp_right
          (List.mem_append_left _)
      · exact (sites_of_mem_spotsAll ctx rest around scope _ spot hspot site hsite).imp_right
          (List.mem_append_right _)
    · exact sites_of_mem_spotsAll ctx rest around scope found

end

/-- A spot and what is around it are sites of the walk. -/
theorem mem_sitesOf_of_spot {root : Node} {spot : Spot} (hspot : spot ∈ spotsOf ctx root)
    {site : Site} (hsite : site ∈ spot.site :: spot.around) : site ∈ sitesOf ctx root :=
  have hsites := sites_of_mem_spotsAll ctx root.children [] (.ofFile ctx) .none spot hspot site hsite
  hsites.resolve_left List.not_mem_nil

/-- Definitions are only added. -/
theorem prefix_foldl_record (ctx : Context) (later : List Site) (drafts : List Draft) :
    drafts <+: later.foldl (record ctx) drafts := by
  induction later generalizing drafts with
  | nil => exact List.prefix_refl drafts
  | cons site later ih =>
    refine List.IsPrefix.trans ?_ (ih (record ctx drafts site))
    unfold record
    split
    · split
      · exact List.prefix_refl drafts
      · exact List.prefix_append drafts _
    · exact List.prefix_refl drafts

/-- The definition of a site is found under the number it is recorded with. -/
theorem drafts_of_recorded? {root : Node} {site : Site} (hsite : site ∈ sitesOf ctx root)
    {d : Draft} (hrecorded : site.recorded? ctx = some d) :
    (walk ctx root).drafts[site.found.drafts.length]? = some d := by
  obtain ⟨hd, hfree⟩ := Option.filter_eq_some_iff.mp hrecorded
  obtain ⟨front, back, hsplit⟩ := List.append_of_mem hsite
  have hrecord : record ctx site.found.drafts site = site.found.drafts ++ [d] := by
    rw [record, hd]
    exact if_neg (by simpa [isTaken] using hfree)
  have hwalk : (walk ctx root).drafts = back.foldl (record ctx) (site.found.drafts ++ [d]) := by
    have hfold : (walk ctx root).drafts = (sitesOf ctx root).foldl (record ctx) [] :=
      drafts_visitAll ctx root.children (.ofFile ctx) .none
    rw [hfold, hsplit, List.foldl_append, List.foldl_cons, ← found_of_sitesOf hsplit, hrecord]
  obtain ⟨added, hadded⟩ := prefix_foldl_record ctx back (site.found.drafts ++ [d])
  rw [hwalk, ← hadded]
  simp

theorem exists_recorded?_of_registers? {site : Site} {index : Nat}
    (h : site.registers? ctx = some index) :
    ∃ d, site.recorded? ctx = some d ∧ index = site.found.drafts.length := by
  obtain ⟨d, hd, rfl⟩ := Option.map_eq_some_iff.mp h
  exact ⟨d, hd, rfl⟩

/-- The owner of a spot is a definition around it that was found. -/
theorem exists_draft_of_owner? {root : Node} {spot : Spot} (hspot : spot ∈ spotsOf ctx root)
    {index : Nat} (howner : spot.owner? ctx = some index) :
    ∃ d, (walk ctx root).drafts[index]? = some d := by
  obtain ⟨site, hsite, hindex⟩ := List.exists_of_findSome?_eq_some howner
  obtain ⟨d, hd, rfl⟩ := exists_recorded?_of_registers? hindex
  exact ⟨d, drafts_of_recorded? (mem_sitesOf_of_spot hspot (List.mem_cons_of_mem _ hsite)) hd⟩

/-! ### The calls of a file -/

/-- The callees of the spots of an owner, in order. -/
def calleesAt (ctx : Context) (root : Node) (owner : Option Nat) : List String :=
  ((spotsOf ctx root).filter fun spot => spot.owner? ctx == owner).filterMap (Spot.callee? ctx)

/-- The callees that are recorded for an owner are those of its spots. -/
theorem calleesOf_walk (ctx : Context) (root : Node) (owner : Option Nat) :
    calleesOf (walk ctx root) owner = calleesAt ctx root owner := by
  rw [calleesOf, calls_walk, calleesAt, List.filter_filterMap, List.map_filterMap,
    List.filterMap_filter]
  refine List.filterMap_congr fun spot _ => ?_
  cases hcallee : spot.callee? ctx with
  | none => simp [Spot.call?, hcallee]
  | some callee =>
    by_cases howner : spot.owner? ctx = owner
    · simp [Spot.call?, hcallee, howner]
    · simp [Spot.call?, hcallee, howner]

/-- The names called in a file are the callees at its open places. -/
theorem mem_allCallees {root : Node} {name : String} :
    name ∈ allCallees (walk ctx root) ↔
      ∃ place ∈ openPlaces ctx root, calleeOf? ctx place.node = some name := by
  have hspots : (∃ place ∈ openPlaces ctx root, calleeOf? ctx place.node = some name) ↔
      ∃ spot ∈ spotsOf ctx root, spot.callee? ctx = some name := by
    rw [← place_spotsOf]
    simp [Spot.place, Spot.callee?]
  rw [hspots, allCallees]
  simp only [List.mem_append, List.mem_flatMap, List.mem_range, calleesOf_walk, calleesAt,
    List.mem_filterMap, List.mem_filter, beq_iff_eq]
  constructor
  · rintro (⟨-, -, spot, ⟨hspot, -⟩, hcallee⟩ | ⟨spot, ⟨hspot, -⟩, hcallee⟩)
    · exact ⟨spot, hspot, hcallee⟩
    · exact ⟨spot, hspot, hcallee⟩
  · rintro ⟨spot, hspot, hcallee⟩
    cases howner : spot.owner? ctx with
    | none => exact Or.inr ⟨spot, ⟨hspot, howner⟩, hcallee⟩
    | some index =>
      obtain ⟨d, hd⟩ := exists_draft_of_owner? hspot howner
      exact Or.inl ⟨index, (List.getElem?_eq_some_iff.mp hd).1, spot, ⟨hspot, howner⟩, hcallee⟩

/-- The owner of the component at a number: the definition there, or none for the remainder. -/
def ownerAt (found : Findings) (index : Nat) : Option Nat :=
  found.drafts[index]?.map fun _ => index

/-- A component refers to its callees, resolved with the words for its own value. -/
theorem referencedSymbols_of_components {found : Findings} {index : Nat} {c : ParsedComponent}
    (h : (assemble ctx found).components[index]? = some c) :
    c.referencedSymbols = referencesOf ctx found (ownerAt found index)
      (found.drafts[index]?.bind (·.selfType)) (found.drafts[index]?.bind (·.selfAlias)) := by
  obtain ⟨d, hd, rfl⟩ | ⟨hnone, rfl⟩ := components_cases h
  · rw [ownerAt, hd]
    rfl
  · rw [ownerAt, hnone]
    rfl

/-- The remainder is the component without a definition. -/
theorem kind_eq_residual_iff {root : Node} {index : Nat} {c : ParsedComponent}
    (h : (assemble ctx (walk ctx root)).components[index]? = some c) :
    c.kind = .residual ↔ ownerAt (walk ctx root) index = none := by
  obtain ⟨d, hd, rfl⟩ | ⟨hnone, rfl⟩ := components_cases h
  · have hkind := ((nested_walk ctx root).named d (List.mem_of_getElem? hd)).2
    simpa [ownerAt, hd, componentOfDraft] using hkind
  · simp [ownerAt, hnone, residualComponent]

/-- The calls of a file are the call nodes of its tree that no import stands above and whose callee
is a name. Each is recorded once, in pre-order, and nothing else is. It belongs to the innermost
definition around it that was recorded, which has the component of that number, or else to the
remainder. The called names of the file are the callees, each once, and a component refers to what
exactly its own callees stand for, each once and in order. -/
theorem calls_recorded (language : Language) (relativePath source : String) (root : Node) :
    let ctx := Context.ofFile language relativePath source
    let found := walk ctx root
    let file := extract language relativePath source root
    (spotsOf ctx root).map Spot.place = openPlaces ctx root ∧
    found.calls = (spotsOf ctx root).filterMap (Spot.call? ctx) ∧
    (∀ spot ∈ spotsOf ctx root, ∀ site ∈ spot.around, ∀ index, site.registers? ctx = some index →
      ∃ d c, site.definition? ctx = some d ∧ found.drafts[index]? = some d ∧
        file.components[index]? = some c ∧ c.qualifiedName = d.qualifiedName ∧ c.kind = d.kind) ∧
    file.calledSymbols.Nodup ∧
    (∀ name, name ∈ file.calledSymbols ↔
      ∃ place ∈ openPlaces ctx root, calleeOf? ctx place.node = some name) ∧
    ∀ index c, file.components[index]? = some c →
      (c.kind = .residual ↔ ownerAt found index = none) ∧
      c.referencedSymbols = Text.firstOccurrences
        ((calleesAt ctx root (ownerAt found index)).map
          (resolve ctx found (found.drafts[index]?.bind (·.selfType))
            (found.drafts[index]?.bind (·.selfAlias)))) := by
  intro ctx found file
  refine ⟨place_spotsOf ctx root, calls_walk ctx root, fun spot hspot site hsite index hindex => ?_,
    Text.nodup_firstOccurrences _, fun name => ?_, fun index c hc => ⟨?_, ?_⟩⟩
  · obtain ⟨d, hd, rfl⟩ := exists_recorded?_of_registers? hindex
    have hdraft := drafts_of_recorded?
      (mem_sitesOf_of_spot hspot (List.mem_cons_of_mem _ hsite)) hd
    exact ⟨d, _, (Option.filter_eq_some_iff.mp hd).1, hdraft, getElem?_components_of_draft hdraft,
      rfl, rfl⟩
  · exact Text.mem_firstOccurrences.trans mem_allCallees
  · exact kind_eq_residual_iff hc
  · rw [← calleesOf_walk]
    exact referencedSymbols_of_components hc

end Extraction

end CodeAtlas
