import CodeAtlas.Proofs.Extraction.Calls
import CodeAtlas.Proofs.Extraction.Partition
import CodeAtlas.Proofs.LinkSoundness
import CodeAtlas.Proofs.Mirror
import CodeAtlas.Proofs.Text.Segments

/-!
# Calls to definitions of the same file

A call can name a definition of its own file in two ways: by the name without what all names of the
file start with, or by a word for the own value and a member of the enclosing type. Either way the
component that calls is linked to a component of that name, whatever is built with the file and
whatever is known before, and nothing is added to the external symbols. No import, builtin or name
of the seed comes in between.

There are two exceptions. A function of Go can have the name of its file's remainder, and then it is
no definition that calls are compared with. In Rust the members of a type stand in blocks of their
own, and what is passed over there belongs to the definition around the block, for which the words
for the own value mean nothing.

## Main definitions

* `Extraction.Scope.IsSelfWord`: the words for the own value.
* `Extraction.Spot.CallsByName`, `Extraction.Spot.CallsMember`: the two ways to name a definition.
* `LinksTo`: what becomes of a reference.

## Main results

* `Extraction.sharesWords_of_mem`: the words for the own value at a call and in its definition.
* `Extraction.exists_callee_of_calls`: what callees are resolved to.
* `Builder.linksTo_assemble`: what becomes of references to names of the build.
* `Builder.local_calls_linked`: what becomes of calls to definitions of the same file.
-/

namespace CodeAtlas

/-- Outside of Go names start with the module. -/
theorem Language.symbolQualifier_eq {language : Language} (h : language ≠ .go)
    (relativePath : String) :
    language.symbolQualifier relativePath = language.modulePath relativePath := by
  have hscoped : language.isPackageScoped = false := by
    cases language <;> first | rfl | exact absurd rfl h
  simp [symbolQualifier, hscoped]

namespace Extraction

variable {ctx : Context}

/-! ### Words for the own value -/

/-- In the scope the word stands for the own value of a type. -/
def Scope.IsSelfWord (ctx : Context) (scope : Scope) (word : String) : Prop :=
  scope.selfType.isSome ∧ (word ∈ ctx.rules.selfNames ∨ scope.selfAlias = some word)

/-- The innermost of the sites whose definition is recorded, by its definition. -/
def innermost? (ctx : Context) (around : List Site) : Option Draft :=
  around.findSome? (Site.recorded? ctx)

/-- The sites inside of the innermost one whose definition is recorded. -/
def insideOf (ctx : Context) (around : List Site) : List Site :=
  around.takeWhile fun site => (site.recorded? ctx).isNone

/-- The words for the own value in a scope are those of the innermost definition around it, and what
they stand for is the same unless a scope for the members of a type comes in between. -/
structure SharesWords (ctx : Context) (around : List Site) (scope : Scope) : Prop where
  alias_eq : scope.selfAlias = (innermost? ctx around).bind (·.selfAlias)
  has_type : ((innermost? ctx around).bind (·.selfType)).isSome → scope.selfType.isSome
  type_eq : (∀ site ∈ insideOf ctx around, site.opensType ctx = false) →
    scope.selfType = (innermost? ctx around).bind (·.selfType)

/-- Entering a node keeps the words as they are, or makes them those of the definition there. -/
theorem SharesWords.enter {around : List Site} {site : Site} {scope' : Scope} {found' : Findings}
    (h : SharesWords ctx around site.scope)
    (hstep : step ctx site.scope site.found site.node = .descend scope' found') :
    SharesWords ctx (site :: around) scope' := by
  cases hrecorded : site.recorded? ctx with
  | some d =>
    have hown : innermost? ctx (site :: around) = some d := by
      rw [innermost?, List.findSome?_cons, hrecorded]
    obtain ⟨rfl, -⟩ := Step.descend.inj ((step_of_recorded? hrecorded).symm.trans hstep)
    exact ⟨by rw [hown]; rfl, by rw [hown]; exact id, fun _ => by rw [hown]; rfl⟩
  | none =>
    have hown : innermost? ctx (site :: around) = innermost? ctx around := by
      rw [innermost?, List.findSome?_cons, hrecorded]
      rfl
    have hinside : insideOf ctx (site :: around) = site :: insideOf ctx around := by
      rw [insideOf, List.takeWhile_cons, hrecorded]
      rfl
    obtain ⟨-, halias, htype⟩ := scope_of_step hrecorded hstep
    refine ⟨halias.trans (hown ▸ h.alias_eq), fun hsome => ?_, fun hnone => ?_⟩
    · rcases htype with heq | ⟨-, hopened⟩
      · exact heq ▸ h.has_type (hown ▸ hsome)
      · exact hopened
    · rw [hinside, List.forall_mem_cons] at hnone
      rcases htype with heq | ⟨hopens, -⟩
      · rw [heq, hown, h.type_eq hnone.2]
      · exact absurd (hopens.symm.trans hnone.1) (by simp)

theorem sharesWords_of_mem {root : Node} {spot : Spot} (hspot : spot ∈ spotsOf ctx root) :
    SharesWords ctx spot.around spot.site.scope :=
  around_spotsAll (fun h hstep => h.enter hstep) root.children [] (.ofFile ctx) .none
    ⟨rfl, by simp [innermost?], fun _ => rfl⟩ spot hspot

/-- The innermost definition around a spot is that of the spot's owner. -/
theorem getElem?_drafts_of_owner? {root : Node} {spot : Spot} (hspot : spot ∈ spotsOf ctx root)
    {index : Nat} (howner : spot.owner? ctx = ownerAt (walk ctx root) index) :
    (walk ctx root).drafts[index]? = innermost? ctx spot.around := by
  have hsites : ∀ site ∈ spot.around, site ∈ sitesOf ctx root := fun site hsite =>
    mem_sitesOf_of_spot hspot (List.mem_cons_of_mem _ hsite)
  rw [Spot.owner?] at howner
  generalize spot.around = around at howner hsites
  induction around with
  | nil =>
    have hnone : ownerAt (walk ctx root) index = none := howner.symm
    simpa [ownerAt, innermost?] using hnone
  | cons site around ih =>
    obtain ⟨hsite, haround⟩ := List.forall_mem_cons.mp hsites
    rw [List.findSome?_cons, Site.registers?] at howner
    rw [innermost?, List.findSome?_cons]
    cases hrecorded : site.recorded? ctx with
    | some d =>
      rw [hrecorded] at howner
      obtain ⟨-, -, heq⟩ := Option.map_eq_some_iff.mp howner.symm
      exact heq ▸ drafts_of_recorded? hsite hrecorded
    | none =>
      rw [hrecorded] at howner
      exact ih howner haround

/-! ### What callees are resolved to -/

/-- The call names a definition without what the names of the file start with, and its first segment
is no word for the own value. -/
def Spot.CallsByName (ctx : Context) (spot : Spot) (name : String) : Prop :=
  ∃ callee, spot.callee? ctx = some callee ∧ name = ctx.qualifier ++ "." ++ callee ∧
    ¬ spot.site.scope.IsSelfWord ctx (headAndRest callee).1

/-- The call names a member of the enclosing type behind a word for the own value. -/
def Spot.CallsMember (ctx : Context) (spot : Spot) (name : String) : Prop :=
  ∃ word rest owner, spot.callee? ctx = some (word ++ "." ++ rest) ∧ '.' ∉ word.toList ∧
    spot.site.scope.IsSelfWord ctx word ∧ spot.site.scope.selfType = some owner ∧
    name = Symbol.qualify owner rest

theorem selfMember?_eq_none {selfType selfAlias : Option String} {callee : String}
    (h : selfType.isSome → (headAndRest callee).1 ∉ ctx.rules.selfNames ∧
      selfAlias ≠ some (headAndRest callee).1) :
    selfMember? ctx selfType selfAlias callee = none := by
  unfold selfMember?
  split
  case h_1 owner head rest hcallee =>
    rw [hcallee] at h
    obtain ⟨hnames, halias⟩ := h rfl
    exact if_neg (by simp [hnames, halias])
  case h_2 => rfl

theorem selfMember?_eq_some {selfAlias : Option String} {owner word rest : String}
    (hfirst : '.' ∉ word.toList) (hword : word ∈ ctx.rules.selfNames ∨ selfAlias = some word) :
    selfMember? ctx (some owner) selfAlias (word ++ "." ++ rest) =
      some (Symbol.qualify owner rest) := by
  have hcut : headAndRest (word ++ "." ++ rest) = (word, some rest) := by
    have htext : (word ++ "." ++ rest).toList = word.toList ++ '.' :: rest.toList := by simp
    rw [headAndRest, htext, Text.cutFirst?_append hfirst]
    simp
  have hin : (ctx.rules.selfNames.contains word || selfAlias == some word) = true := by
    simpa using hword
  simp only [selfMember?, hcut, hin, ↓reduceIte]

/-- A definition of the file is found under its name without what all names start with. -/
theorem localDefinition?_eq_some {found : Findings} {name : String}
    (h : ∃ d ∈ found.drafts, d.qualifiedName = ctx.qualifier ++ "." ++ name) :
    localDefinition? ctx found name = some (ctx.qualifier ++ "." ++ name) := by
  obtain ⟨d, hd, hname⟩ := h
  have hsome : (found.drafts.find? fun draft =>
      Text.afterStart? (ctx.qualifier ++ ".") draft.qualifiedName == some name).isSome :=
    List.find?_isSome.mpr ⟨d, hd, by simpa using Text.afterStart?_eq_some_iff.mpr hname⟩
  obtain ⟨e, he⟩ := Option.isSome_iff_exists.mp hsome
  have hfound : Text.afterStart? (ctx.qualifier ++ ".") e.qualifiedName = some name := by
    simpa using List.find?_some he
  rw [localDefinition?, he, Option.map_some, Text.afterStart?_eq_some_iff.mp hfound]

variable {root : Node} {spot : Spot} {index : Nat} {name : String}

/-- A call by the name of a definition that was found is resolved to the definition. -/
theorem exists_callee_of_callsByName (hspot : spot ∈ spotsOf ctx root)
    (howner : spot.owner? ctx = ownerAt (walk ctx root) index) (hcalls : spot.CallsByName ctx name)
    (hfound : ∃ d ∈ (walk ctx root).drafts, d.qualifiedName = name) :
    ∃ callee, spot.callee? ctx = some callee ∧
      resolve ctx (walk ctx root) ((walk ctx root).drafts[index]?.bind (·.selfType))
        ((walk ctx root).drafts[index]?.bind (·.selfAlias)) callee = name := by
  obtain ⟨callee, hcallee, rfl, hword⟩ := hcalls
  refine ⟨callee, hcallee, ?_⟩
  have hshares := sharesWords_of_mem hspot
  have hself : selfMember? ctx ((innermost? ctx spot.around).bind (·.selfType))
      ((innermost? ctx spot.around).bind (·.selfAlias)) callee = none := by
    refine selfMember?_eq_none fun hsome => ?_
    have hnot := not_or.mp fun h => hword ⟨hshares.has_type hsome, h⟩
    exact ⟨hnot.1, hshares.alias_eq ▸ hnot.2⟩
  rw [getElem?_drafts_of_owner? hspot howner, resolve, hself, localDefinition?_eq_some hfound]
  rfl

/-- A call to a member of the enclosing type is resolved to the member, unless a scope for the
members of a type comes between the call and the definition it belongs to. -/
theorem exists_callee_of_callsMember (hspot : spot ∈ spotsOf ctx root)
    (howner : spot.owner? ctx = ownerAt (walk ctx root) index) (hcalls : spot.CallsMember ctx name)
    (hinside : ∀ site ∈ insideOf ctx spot.around, site.opensType ctx = false) :
    ∃ callee, spot.callee? ctx = some callee ∧
      resolve ctx (walk ctx root) ((walk ctx root).drafts[index]?.bind (·.selfType))
        ((walk ctx root).drafts[index]?.bind (·.selfAlias)) callee = name := by
  obtain ⟨word, rest, owner, hcallee, hfirst, hword, htype, rfl⟩ := hcalls
  refine ⟨word ++ "." ++ rest, hcallee, ?_⟩
  have hshares := sharesWords_of_mem hspot
  rw [getElem?_drafts_of_owner? hspot howner, ← hshares.type_eq hinside, htype, ← hshares.alias_eq,
    resolve, selfMember?_eq_some hfirst hword.2]
  rfl

/-- A component refers to what its calls are resolved to. -/
theorem mem_referencedSymbols {parsed : ParsedComponent}
    (hparsed : (assemble ctx (walk ctx root)).components[index]? = some parsed)
    (hspot : spot ∈ spotsOf ctx root) (howner : spot.owner? ctx = ownerAt (walk ctx root) index)
    {callee : String} (hcallee : spot.callee? ctx = some callee) :
    resolve ctx (walk ctx root) ((walk ctx root).drafts[index]?.bind (·.selfType))
      ((walk ctx root).drafts[index]?.bind (·.selfAlias)) callee ∈ parsed.referencedSymbols := by
  have hmem : callee ∈ calleesAt ctx root (ownerAt (walk ctx root) index) :=
    List.mem_filterMap.mpr ⟨spot, List.mem_filter.mpr ⟨hspot, by simpa using howner⟩, hcallee⟩
  rw [referencedSymbols_of_components hparsed, referencesOf, calleesOf_walk]
  exact Text.mem_firstOccurrences.mpr (List.mem_map_of_mem hmem)

/-! ### Definitions of a file -/

/-- A definition of the file has the name, also if another one or the remainder stands for it. -/
def IsDefinition (ctx : Context) (root : Node) (name : String) : Prop :=
  ∃ site ∈ sitesOf ctx root, ∃ d, site.definition? ctx = some d ∧ d.qualifiedName = name

/-- A definition is found under its name, unless it is called like the remainder. -/
theorem exists_draft_of_isDefinition (h : IsDefinition ctx root name)
    (hname : name ≠ ctx.moduleName) : ∃ d ∈ (walk ctx root).drafts, d.qualifiedName = name := by
  obtain ⟨site, hsite, d, hd, rfl⟩ := h
  rw [drafts_walk]
  exact Keyed.exists_mem_firsts (fun d : Draft => d.qualifiedName)
    (mem_definitionsAt.mpr ⟨⟨site, hsite, hd⟩, hname⟩)

/-- A component has the name of a definition, if only the remainder. -/
theorem exists_component_of_isDefinition (h : IsDefinition ctx root name) :
    ∃ parsed ∈ (assemble ctx (walk ctx root)).components, parsed.qualifiedName = name := by
  by_cases hname : name = ctx.moduleName
  · exact ⟨residualComponent ctx (walk ctx root), List.mem_append_right _ List.mem_cons_self,
      hname.symm⟩
  · obtain ⟨d, hd, rfl⟩ := exists_draft_of_isDefinition h hname
    obtain ⟨i, hi⟩ := List.mem_iff_getElem?.mp hd
    exact ⟨_, List.mem_of_getElem? (getElem?_components_of_draft hi), rfl⟩

/-- Where names start with the module, no definition is called like the remainder. -/
theorem IsDefinition.ne_moduleName (h : IsDefinition ctx root name)
    (hqualifier : ctx.qualifier = ctx.moduleName) : name ≠ ctx.moduleName := by
  obtain ⟨site, hsite, d, hd, rfl⟩ := h
  intro heq
  have hlt := qualifier_lt_of_definition? hsite hd
  rw [heq, hqualifier] at hlt
  exact absurd hlt (Nat.lt_irrefl _)

/-- Outside of Rust the members of a type stand in its definition. -/
theorem opensType_eq_false (h : ctx.language ≠ .rust) (site : Site) :
    site.opensType ctx = false := by
  have hscopes : ∀ rule ∈ ctx.language.rules.scopes, rule.isType = false := by
    revert h
    cases ctx.language <;> decide
  cases hrule : ctx.rules.scope? site.node.kind with
  | none => simp [Site.opensType, hrule]
  | some rule => simp [Site.opensType, hrule, hscopes rule (List.mem_of_find?_eq_some hrule)]

/-- A call to a definition of the file is resolved to it. Left out are functions of Go that are called
like the remainder, and calls of Rust that a scope for the members of a type parts from the definition
they belong to. -/
theorem exists_callee_of_calls {language : Language} {relativePath source : String}
    (hspot : spot ∈ spotsOf (.ofFile language relativePath source) root)
    (howner : spot.owner? (.ofFile language relativePath source) =
      ownerAt (walk (.ofFile language relativePath source) root) index)
    (hdefined : IsDefinition (.ofFile language relativePath source) root name)
    (hcalls : spot.CallsByName (.ofFile language relativePath source) name ∧
        (language = .go → name ≠ language.modulePath relativePath) ∨
      spot.CallsMember (.ofFile language relativePath source) name ∧
        (language = .rust → ∀ site ∈ insideOf (.ofFile language relativePath source) spot.around,
          site.opensType (.ofFile language relativePath source) = false)) :
    let ctx := Context.ofFile language relativePath source
    ∃ callee, spot.callee? ctx = some callee ∧
      resolve ctx (walk ctx root) ((walk ctx root).drafts[index]?.bind (·.selfType))
        ((walk ctx root).drafts[index]?.bind (·.selfAlias)) callee = name := by
  rcases hcalls with ⟨hcalls, hmodule⟩ | ⟨hcalls, hinside⟩
  · refine exists_callee_of_callsByName hspot howner hcalls
      (exists_draft_of_isDefinition hdefined ?_)
    by_cases hgo : language = .go
    · exact hmodule hgo
    · exact hdefined.ne_moduleName (Language.symbolQualifier_eq hgo relativePath)
  · refine exists_callee_of_callsMember hspot howner hcalls fun site hsite => ?_
    by_cases hrust : language = .rust
    · exact hinside hrust site hsite
    · exact opensType_eq_false hrust site

/-- The call at the spot counts for the component with the name. -/
def Spot.CountsFor (ctx : Context) (root : Node) (spot : Spot) (name : String) : Prop :=
  ∃ index parsed, spot.owner? ctx = ownerAt (walk ctx root) index ∧
    (assemble ctx (walk ctx root)).components[index]? = some parsed ∧ parsed.qualifiedName = name

/-- Every component of a well-formed file is assembled. -/
theorem exists_unlinked_of_mem {language : Language} {relativePath source : String}
    (hroot : root.WellFormed source) (fingerprint : Fingerprint) {parsed : ParsedComponent}
    (h : parsed ∈ (extract language relativePath source root).components) :
    ∃ c ∈ (extract language relativePath source root).unlinked fingerprint,
      c.qualifiedName = parsed.qualifiedName := by
  have hlaid : Laid (Context.ofFile language relativePath source).source
      (walk (.ofFile language relativePath source) root).drafts := laid_walk _ hroot
  obtain ⟨code, hcode⟩ := exists_componentText hlaid h
  refine ⟨_, (ParsedFile.mem_unlinked fingerprint _).mpr ⟨parsed, code, ?_, hcode, rfl⟩, rfl⟩
  exact ParsedFile.component?_of_nodup _ (nodup_names_extract language relativePath source root) h

/-- A component of a file refers to what was found under its name. -/
theorem referencedSymbols_of_unlink {language : Language} {relativePath source : String}
    {fingerprint : Fingerprint} {c : Component} {parsed : ParsedComponent}
    (hc : c.unlink ∈ (extract language relativePath source root).unlinked fingerprint)
    (hparsed : parsed ∈ (extract language relativePath source root).components)
    (hname : parsed.qualifiedName = c.qualifiedName) :
    c.referencedSymbols = parsed.referencedSymbols := by
  obtain ⟨parsed', code, hparsed', -, hunlinked⟩ := (ParsedFile.mem_unlinked _ _).mp hc
  have hname' : c.qualifiedName = parsed'.qualifiedName := congrArg (·.qualifiedName) hunlinked
  have hsame := ParsedFile.component?_of_nodup _
    (nodup_names_extract language relativePath source root) hparsed
  rw [hname, hname', hparsed'] at hsame
  obtain rfl := Option.some.inj hsame
  exact congrArg (·.referencedSymbols) hunlinked

end Extraction

/-! ### What becomes of references -/

/-- The component refers to the name. The name is known, as that of a component among the given ones
to which the component is linked unless it is that component; and the reference has no part in the
component's external edges. -/
structure LinksTo (known : NameTable) (table : SymbolTable) (components : List Component)
    (c : Component) (name : String) : Prop where
  refers : name ∈ c.referencedSymbols
  target : ∃ e ∈ components, e.qualifiedName = name ∧ known.find? name = some e.id ∧
    (e.id ≠ c.id → e.id ∈ c.linkedIds)
  not_external : c.externalIds =
    externalTargets known table (c.referencedSymbols.filter fun reference => reference ≠ name)

/-- Interning other names leaves the entry of a name as it is. -/
theorem Externals.get?_internAll_of_notMem (ext : Externals) {names : List String} {name : String}
    (h : name ∉ names) : (ext.internAll names).table.get? name = ext.table.get? name := by
  cases hget : ext.table.get? name with
  | some id => exact grows_internAll ext names name id hget
  | none =>
    have hold : ext.table.contains name ≠ true := by simp [SymbolTable.contains, hget]
    have hnew := mt (contains_internAll ext names name).mp (not_or.mpr ⟨hold, h⟩)
    simpa [SymbolTable.contains] using hnew

/-- A known name is not among the unknown ones. -/
theorem notMem_unknownNames {known : NameTable} {references : List String} {name : String}
    {target : ComponentId} (h : known.find? name = some target) :
    name ∉ unknownNames known references := by
  simp [unknownNames, h]

/-- References to a known name give no external edges. -/
theorem externalTargets_filter {known : NameTable} {name : String} {target : ComponentId}
    (h : known.find? name = some target) (table : SymbolTable) (references : List String) :
    externalTargets known table references =
      externalTargets known table (references.filter fun reference => reference ≠ name) := by
  have hunknown : unknownNames known references =
      unknownNames known (references.filter fun reference => reference ≠ name) := by
    rw [unknownNames, unknownNames, List.filter_filter]
    refine List.filter_congr fun reference _ => ?_
    by_cases heq : reference = name
    · simp [heq, h]
    · simp [heq]
  rw [externalTargets, externalTargets, ← hunknown]

namespace Builder

variable {builder : Builder} {contents : Contents} {files : List ParsedFile}

/-- The names of the components of a build are known. -/
theorem exists_find?_nameTable (seed : LinkSeed) {d : Component} (hd : d ∈ builder.unlinked files) :
    ∃ e ∈ builder.unlinked files, e.qualifiedName = d.qualifiedName ∧
      (builder.assemble files seed).nameTable.find? d.qualifiedName = some e.id := by
  let pairs := (builder.unlinked files).map fun c => (c.qualifiedName, c.id)
  have hsome : ((NameTable.ofPairs pairs).find? d.qualifiedName).isSome := by
    rw [NameTable.find?, NameTable.ofPairs, lookup_eq_find?, Option.isSome_map, List.find?_isSome]
    exact ⟨_, List.mem_reverse.mpr (List.mem_map_of_mem hd), beq_self_eq_true _⟩
  obtain ⟨target, htarget⟩ := Option.isSome_iff_exists.mp hsome
  obtain ⟨e, he, hname, rfl⟩ := NameTable.exists_of_find?_ofPairs htarget
  refine ⟨e, he, hname, ?_⟩
  rw [nameTable_assemble, NameTable.find?_override, htarget, Option.some_or]

/-- What becomes of a reference to a name of the build: a link to a component of that name, and
nothing in the external symbols. -/
theorem linksTo_assemble (hfree : builder.fingerprint.CollisionFree contents)
    (hcodes : ∀ file ∈ files, file.CodesIn contents) (seed : LinkSeed)
    {c d : Component} (hc : c ∈ (builder.assemble files seed).graph.components)
    (hd : d ∈ builder.unlinked files) (hrefers : d.qualifiedName ∈ c.referencedSymbols) :
    LinksTo (builder.assemble files seed).nameTable
      (builder.assemble files seed).graph.externalSymbols
      (builder.assemble files seed).graph.components c d.qualifiedName := by
  obtain ⟨e, he, hname, hknown⟩ := exists_find?_nameTable seed hd
  obtain ⟨e', he', hid, hname'⟩ := offers_assemble hfree hcodes seed he
  rw [← hid] at hknown
  rw [components_assemble] at hc
  obtain ⟨c, -, rfl⟩ := List.mem_map.mp hc
  refine ⟨hrefers, ⟨e', he', hname'.trans hname, hknown, fun hne => ?_⟩, ?_⟩
  · exact mem_internalTargets.mpr ⟨hne, d.qualifiedName, hrefers, hknown⟩
  · exact externalTargets_filter hknown _ _

/-- The external symbols of a build say of its own names what the seed says. -/
theorem get?_externalSymbols_of_known (seed : LinkSeed) {name : String} {target : ComponentId}
    (h : (builder.assemble files seed).nameTable.find? name = some target) :
    (builder.assemble files seed).graph.externalSymbols.get? name =
      seed.externals.table.get? name := by
  have htable := congrArg Externals.table (builder.externals_assemble files seed)
  rw [show (builder.assemble files seed).graph.externalSymbols = _ from htable]
  refine Externals.get?_internAll_of_notMem _ fun hmem => ?_
  obtain ⟨c, -, hunknown⟩ := List.mem_flatMap.mp hmem
  exact notMem_unknownNames h hunknown

end Builder

/-- After an update the external symbols say of the names known in it what they said before. -/
theorem Update.get?_externalSymbols_of_known {builder : Builder} {fs : FileSystem}
    {directory : String} {previous : CodeGraph} {changes : ChangeSet} {supply : IdSupply}
    (relinkRetained : Bool) {name : String} {target : ComponentId}
    (h : (built builder fs directory previous changes supply).nameTable.find? name = some target) :
    (apply builder relinkRetained fs directory previous changes supply).graph.externalSymbols.get?
      name = previous.externalSymbols.get? name := by
  have hbuilt : (built builder fs directory previous changes supply).graph.externalSymbols.get?
      name = previous.externalSymbols.get? name :=
    Builder.get?_externalSymbols_of_known (seedOf previous changes supply) h
  rw [graph_apply]
  cases relinkRetained with
  | false => exact hbuilt
  | true =>
    rw [relinked_snd, Externals.get?_internAll_of_notMem _ fun hmem => ?_, hbuilt]
    obtain ⟨c, -, hunknown⟩ := List.mem_flatMap.mp hmem
    exact notMem_unknownNames h hunknown

/-! ### What becomes of calls -/

namespace Builder

open Extraction

/-- A component that calls a definition of its own file refers to it by its name. It is linked to a
component of that name, unless it is that component itself, and the call adds nothing to the
external symbols. So it is whatever is built with the file and whatever the seed knows, and when the
build is part of an update, also in the graph after the update. -/
theorem local_calls_linked (builder : Builder) {contents : Contents}
    (hfree : builder.fingerprint.CollisionFree contents) (files : List ParsedFile)
    (hcodes : ∀ file ∈ files, file.CodesIn contents) (seed : LinkSeed) (language : Language)
    (relativePath source : String) (root : Node)
    (hroot : root.WellFormed source)
    (hfile : extract language relativePath source root ∈ files) (c : Component)
    (hc : c ∈ (builder.assemble files seed).graph.components)
    (hown : c.unlink ∈ (extract language relativePath source root).unlinked builder.fingerprint)
    (spot : Spot) (name : String) :
    let ctx := Context.ofFile language relativePath source
    let output := builder.assemble files seed
    spot ∈ spotsOf ctx root → spot.CountsFor ctx root c.qualifiedName → IsDefinition ctx root name →
    (spot.CallsByName ctx name ∧ (language = .go → name ≠ language.modulePath relativePath) ∨
      spot.CallsMember ctx name ∧
        (language = .rust → ∀ site ∈ insideOf ctx spot.around, site.opensType ctx = false)) →
    LinksTo output.nameTable output.graph.externalSymbols output.graph.components c name ∧
    output.graph.externalSymbols.get? name = seed.externals.table.get? name ∧
    ∀ (relinkRetained : Bool) (fs : FileSystem) (directory : String) (previous : CodeGraph)
      (changes : ChangeSet) (supply : IdSupply),
      builder.WorksWith builder.fingerprint contents fs directory
        (Update.rebuildPaths builder fs directory changes) →
      Identified builder.fingerprint contents previous.components →
      files = Update.rebuiltFiles builder fs directory changes →
      seed = Update.seedOf previous changes supply →
      let after := (Update.apply builder relinkRetained fs directory previous changes supply).graph
      (∃ e ∈ after.components, e.qualifiedName = name ∧ (e.id ≠ c.id → e.id ∈ c.linkedIds)) ∧
        after.externalSymbols.get? name = previous.externalSymbols.get? name := by
  intro ctx output hspot hcounts hdefined hcalls
  obtain ⟨index, parsed, howner, hparsed, hname⟩ := hcounts
  obtain ⟨callee, hcallee, hresolved⟩ := exists_callee_of_calls hspot howner hdefined hcalls
  have hrefers : name ∈ c.referencedSymbols := by
    rw [referencedSymbols_of_unlink hown (List.mem_of_getElem? hparsed) hname, ← hresolved]
    exact mem_referencedSymbols hparsed hspot howner hcallee
  obtain ⟨target, htarget, rfl⟩ := exists_component_of_isDefinition hdefined
  obtain ⟨d, hd, hdname⟩ := exists_unlinked_of_mem hroot builder.fingerprint htarget
  have hdmem : d ∈ builder.unlinked files := List.mem_flatMap.mpr ⟨_, hfile, hd⟩
  have hlinks := linksTo_assemble hfree hcodes seed hc hdmem (hdname ▸ hrefers)
  rw [hdname] at hlinks
  obtain ⟨e, he, hename, hknown, hlinked⟩ := hlinks.target
  refine ⟨hlinks, get?_externalSymbols_of_known seed hknown, ?_⟩
  rintro relinkRetained fs directory previous changes supply hworks hids rfl rfl
  obtain ⟨e', he', hid, hename'⟩ :=
    Update.offers_of_nameTable_built hfree hworks hids relinkRetained hknown
  exact ⟨⟨e', he', hename', hid ▸ hlinked⟩,
    Update.get?_externalSymbols_of_known relinkRetained hknown⟩

/-! ### Three files -/

/-- A class that defines a method twice, and calls it in the second definition. -/
def methodsSource : String :=
  "class C:\n  def g(self): pass\n  def g(self): self.g()\n"

/-- The tree of `methodsSource`. -/
def methodsTree : Node :=
  .mk "module" ⟨0, 53⟩ true ""
    [.mk "class_definition" ⟨0, 52⟩ true ""
      [.mk "identifier" ⟨6, 7⟩ true "name" [],
        .mk "block" ⟨11, 52⟩ true "body"
          [.mk "function_definition" ⟨11, 28⟩ true ""
            [.mk "identifier" ⟨15, 16⟩ true "name" [],
              .mk "parameters" ⟨16, 22⟩ true "parameters" [.mk "identifier" ⟨17, 21⟩ true "" []],
              .mk "block" ⟨24, 28⟩ true "body" [.mk "pass_statement" ⟨24, 28⟩ true "" []]],
            .mk "function_definition" ⟨31, 52⟩ true ""
              [.mk "identifier" ⟨35, 36⟩ true "name" [],
                .mk "parameters" ⟨36, 42⟩ true "parameters" [.mk "identifier" ⟨37, 41⟩ true "" []],
                .mk "block" ⟨44, 52⟩ true "body"
                  [.mk "expression_statement" ⟨44, 52⟩ true ""
                    [.mk "call" ⟨44, 52⟩ true ""
                      [.mk "attribute" ⟨44, 50⟩ true "function"
                        [.mk "identifier" ⟨44, 48⟩ true "object" [],
                          .mk "identifier" ⟨49, 50⟩ true "attribute" []],
                        .mk "argument_list" ⟨50, 52⟩ true "arguments" []]]]]]]]

/-- Two blocks that define the same method, which the second one calls. -/
def blocksSource : String :=
  "impl A for S { fn b(&self) {} }\nimpl B for S { fn b(&self) { self.b(); } }\n"

/-- The tree of a block with a method, from its offset to its end. -/
private def blockTree (start stop : Nat) (body : List Node) : Node :=
  .mk "impl_item" ⟨start, stop⟩ true ""
    [.mk "type_identifier" ⟨start + 5, start + 6⟩ true "trait" [],
      .mk "type_identifier" ⟨start + 11, start + 12⟩ true "type" [],
      .mk "declaration_list" ⟨start + 13, stop⟩ true "body"
        [.mk "function_item" ⟨start + 15, stop - 2⟩ true ""
          [.mk "identifier" ⟨start + 18, start + 19⟩ true "name" [],
            .mk "parameters" ⟨start + 19, start + 26⟩ true "parameters"
              [.mk "self_parameter" ⟨start + 20, start + 25⟩ true ""
                [.mk "self" ⟨start + 21, start + 25⟩ true "" []]],
            .mk "block" ⟨start + 27, stop - 2⟩ true "body" body]]]

/-- The tree of `blocksSource`. -/
def blocksTree : Node :=
  .mk "source_file" ⟨0, 75⟩ true ""
    [blockTree 0 31 [],
      blockTree 32 74
        [.mk "expression_statement" ⟨61, 70⟩ true ""
          [.mk "call_expression" ⟨61, 69⟩ true ""
            [.mk "field_expression" ⟨61, 67⟩ true "function"
              [.mk "self" ⟨61, 65⟩ true "value" [],
                .mk "field_identifier" ⟨66, 67⟩ true "field" []],
              .mk "arguments" ⟨67, 69⟩ true "arguments" []]]]]

/-- A function that is called like its file and like a builtin, and a call of it. -/
def builtinSource : String :=
  "package x\nfunc min() {}\nfunc g() { min() }\n"

/-- The tree of `builtinSource`. -/
def builtinTree : Node :=
  .mk "source_file" ⟨0, 43⟩ true ""
    [.mk "package_clause" ⟨0, 9⟩ true "" [.mk "package_identifier" ⟨8, 9⟩ true "" []],
      .mk "function_declaration" ⟨10, 23⟩ true ""
        [.mk "identifier" ⟨15, 18⟩ true "name" [],
          .mk "parameter_list" ⟨18, 20⟩ true "parameters" [],
          .mk "block" ⟨21, 23⟩ true "body" []],
      .mk "function_declaration" ⟨24, 42⟩ true ""
        [.mk "identifier" ⟨29, 30⟩ true "name" [],
          .mk "parameter_list" ⟨30, 32⟩ true "parameters" [],
          .mk "block" ⟨33, 42⟩ true "body"
            [.mk "expression_statement" ⟨35, 40⟩ true ""
              [.mk "call_expression" ⟨35, 40⟩ true ""
                [.mk "identifier" ⟨35, 38⟩ true "function" [],
                  .mk "argument_list" ⟨38, 40⟩ true "arguments" []]]]]]

/-- A builder that identifies by names and texts. -/
def verbatimBuilder : Builder where
  config := .standard
  registry := ⟨[]⟩
  fingerprint := .verbatim
  excluded := []

/-- The build of one file without a seed. -/
def builtAlone (file : ParsedFile) : BuildOutput :=
  verbatimBuilder.assemble [file] ⟨[], ⟨.empty, ⟨0⟩⟩⟩

private theorem isDefinition_of_name {ctx : Context} {root : Node} {name : String}
    (h : ∃ site ∈ sitesOf ctx root, (site.definition? ctx).map (·.qualifiedName) = some name) :
    IsDefinition ctx root name := by
  obtain ⟨site, hsite, hd⟩ := h
  obtain ⟨d, hd, hname⟩ := Option.map_eq_some_iff.mp hd
  exact ⟨site, hsite, d, hd, hname⟩

private theorem countsFor_of_name {ctx : Context} {root : Node} {spot : Spot} {name : String}
    (index : Nat) (howner : spot.owner? ctx = ownerAt (walk ctx root) index)
    (hname : (Extraction.assemble ctx (walk ctx root)).components[index]?.map (·.qualifiedName) =
      some name) : spot.CountsFor ctx root name := by
  obtain ⟨parsed, hparsed, hname⟩ := Option.map_eq_some_iff.mp hname
  exact ⟨index, parsed, howner, hparsed, hname⟩

/-- The second definition of a method belongs to the class, which is linked to the first. -/
theorem local_calls_linked_member :
    let output := builtAlone (extract .python "m.py" methodsSource methodsTree)
    ∃ c ∈ output.graph.components, c.qualifiedName = "m.C" ∧
      LinksTo output.nameTable output.graph.externalSymbols output.graph.components c "m.C.g" := by
  let ctx := Context.ofFile .python "m.py" methodsSource
  obtain ⟨spot, hspot, howner, hcallee, htype⟩ : ∃ spot ∈ spotsOf ctx methodsTree,
      spot.owner? ctx = ownerAt (walk ctx methodsTree) 0 ∧ spot.callee? ctx = some "self.g" ∧
      spot.site.scope.selfType = some "m.C" := by
    decide +kernel
  obtain ⟨c, hc, hown, hname⟩ :
      ∃ c ∈ (builtAlone (extract .python "m.py" methodsSource methodsTree)).graph.components,
        c.unlink ∈ (extract .python "m.py" methodsSource methodsTree).unlinked .verbatim ∧
          c.qualifiedName = "m.C" := by
    decide +kernel
  have hmember : spot.CallsMember ctx "m.C.g" :=
    ⟨"self", "g", "m.C", hcallee, by decide, ⟨by simp [htype], Or.inl (by decide)⟩, htype,
      by decide +kernel⟩
  have hcodes : ∀ file ∈ [extract .python "m.py" methodsSource methodsTree],
      file.CodesIn .clear := by
    intro file hfile c hc _ _
    obtain rfl := List.mem_singleton.mp hfile
    exact clear_extract (by decide) hc
  have hlinked := local_calls_linked verbatimBuilder Fingerprint.collisionFree_verbatim
    [extract .python "m.py" methodsSource methodsTree] hcodes ⟨[], ⟨.empty, ⟨0⟩⟩⟩
    .python "m.py" methodsSource methodsTree (by decide +kernel) List.mem_cons_self c hc hown spot
    "m.C.g" hspot (hname ▸ countsFor_of_name 0 howner (by decide +kernel))
    (isDefinition_of_name (by decide +kernel)) (Or.inr ⟨hmember, by simp⟩)
  exact ⟨c, hc, hname, hlinked.1⟩

/-- A component of the file calls a definition of the file, and is linked to nothing: it refers to
an external symbol instead. -/
structure LeavesOut (language : Language) (relativePath source : String) (root : Node)
    (caller name external : String) : Prop where
  wellFormed : root.WellFormed source
  isDefinition : IsDefinition (.ofFile language relativePath source) root name
  exists_spot : ∃ spot ∈ spotsOf (.ofFile language relativePath source) root,
    spot.CountsFor (.ofFile language relativePath source) root caller ∧
      (spot.CallsByName (.ofFile language relativePath source) name ∨
        spot.CallsMember (.ofFile language relativePath source) name)
  exists_component :
    ∃ c ∈ (builtAlone (extract language relativePath source root)).graph.components,
      c.qualifiedName = caller ∧ c.referencedSymbols = [external] ∧ c.linkedIds = []
  contains : (builtAlone
    (extract language relativePath source root)).graph.externalSymbols.contains external = true

/-- Calls are left out of the function of Go that is called like its file, and of the method in a
block of Rust from code that belongs to the remainder. -/
theorem local_calls_left_out :
    LeavesOut .go "x/min.go" builtinSource builtinTree "x.g" "x.min" "min" ∧
      LeavesOut .rust "m.rs" blocksSource blocksTree "m" "m.S.b" "self.b" := by
  refine ⟨⟨by decide +kernel, isDefinition_of_name (by decide +kernel), ?_, by decide +kernel,
    by decide +kernel⟩, ⟨by decide +kernel, isDefinition_of_name (by decide +kernel), ?_,
    by decide +kernel, by decide +kernel⟩⟩
  · obtain ⟨spot, hspot, howner, hcallee, htype⟩ :
        ∃ spot ∈ spotsOf (.ofFile .go "x/min.go" builtinSource) builtinTree,
          spot.owner? (.ofFile .go "x/min.go" builtinSource) = ownerAt
            (walk (.ofFile .go "x/min.go" builtinSource) builtinTree) 0 ∧
          spot.callee? (.ofFile .go "x/min.go" builtinSource) = some "min" ∧
          spot.site.scope.selfType = none := by
      decide +kernel
    exact ⟨spot, hspot, countsFor_of_name 0 howner (by decide +kernel),
      Or.inl ⟨"min", hcallee, by decide +kernel, fun hword => by simpa [htype] using hword.1⟩⟩
  · obtain ⟨spot, hspot, howner, hcallee, htype⟩ :
        ∃ spot ∈ spotsOf (.ofFile .rust "m.rs" blocksSource) blocksTree,
          spot.owner? (.ofFile .rust "m.rs" blocksSource) = ownerAt
            (walk (.ofFile .rust "m.rs" blocksSource) blocksTree) 1 ∧
          spot.callee? (.ofFile .rust "m.rs" blocksSource) = some "self.b" ∧
          spot.site.scope.selfType = some "m.S" := by
      decide +kernel
    exact ⟨spot, hspot, countsFor_of_name 1 howner (by decide +kernel),
      Or.inr ⟨"self", "b", "m.S", hcallee, by decide, ⟨by simp [htype], Or.inl (by decide)⟩, htype,
        by decide +kernel⟩⟩

end Builder

end CodeAtlas
