import CodeAtlas.CodeGraph

/-!
# Linking

The names a component refers to are looked up in a table of known names. A known name becomes a link
to its component, any other an edge to the table of external symbols, which gets a new entry for a
name it has not seen. Names match exactly, and no component is linked to itself.
-/

namespace CodeAtlas

/-- Counts of one linking pass. -/
structure LinkStats where
  internalLinks : Nat
  externalLinks : Nat
  /-- Names that were new to the table of external symbols. -/
  newExternalSymbols : Nat
deriving DecidableEq, Repr, Inhabited

namespace LinkStats

/-- Nothing counted. -/
def zero : LinkStats :=
  ⟨0, 0, 0⟩

/-- The sum of two counts. -/
def add (a b : LinkStats) : LinkStats :=
  ⟨a.internalLinks + b.internalLinks, a.externalLinks + b.externalLinks,
    a.newExternalSymbols + b.newExternalSymbols⟩

end LinkStats

/-- The table of external symbols together with the supply of identifiers. -/
structure Externals where
  table : SymbolTable
  supply : IdSupply
deriving DecidableEq, Inhabited

namespace Externals

/-- The identifier of an external name, new if the table lacks it. -/
def intern (ext : Externals) (name : String) : ExternalId × Externals :=
  let (id, table, supply) := ext.table.getOrMint ext.supply name
  (id, ⟨table, supply⟩)

end Externals

/-- The link lists of a component while its references are looked up. -/
structure Linking where
  linkedIds : List ComponentId
  externalIds : List ExternalId
  externals : Externals
  stats : LinkStats
deriving DecidableEq, Inhabited

namespace Linking

/-- No reference looked up yet. -/
def start (externals : Externals) : Linking :=
  ⟨[], [], externals, .zero⟩

/-- A link to a component, unless it is there already. -/
def addInternal (state : Linking) (target : ComponentId) : Linking :=
  if state.linkedIds.contains target then state
  else
    { state with
      linkedIds := state.linkedIds ++ [target]
      stats := { state.stats with internalLinks := state.stats.internalLinks + 1 } }

/-- An edge to an external name, unless it is there already. -/
def addExternal (state : Linking) (symbol : String) : Linking :=
  let isNew := !state.externals.table.contains symbol
  let (id, externals) := state.externals.intern symbol
  let stats :=
    if isNew then
      { state.stats with newExternalSymbols := state.stats.newExternalSymbols + 1 }
    else state.stats
  if state.externalIds.contains id then
    { state with externals := externals, stats := stats }
  else
    { state with
      externalIds := state.externalIds ++ [id]
      externals := externals
      stats := { stats with externalLinks := stats.externalLinks + 1 } }

/-- Look up one reference of the component with the given identifier. -/
def addReference (known : NameTable) (self : ComponentId) (state : Linking) (symbol : String) :
    Linking :=
  match known.find? symbol with
  | some target => if target = self then state else state.addInternal target
  | none => state.addExternal symbol

end Linking

/-- Link one component anew from its references. -/
def link (known : NameTable) (externals : Externals) (component : Component) :
    Component × Externals × LinkStats :=
  let state := component.referencedSymbols.foldl
    (Linking.addReference known component.id) (.start externals)
  ({ component with linkedIds := state.linkedIds, externalIds := state.externalIds },
    state.externals, state.stats)

/-- Link components in order. -/
def linkAll (known : NameTable) : Externals → List Component →
    List Component × Externals × LinkStats
  | externals, [] => ([], externals, .zero)
  | externals, component :: rest =>
    let (linked, externals, stats) := link known externals component
    let (others, externals, more) := linkAll known externals rest
    (linked :: others, externals, stats.add more)

end CodeAtlas
