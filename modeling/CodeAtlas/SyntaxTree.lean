import CodeAtlas.Span
import CodeAtlas.Text.Chars

/-!
# Syntax trees

The result of parsing a file: nodes with a kind, the span of text they cover, whether they are named
by the grammar, and the field under which their parent holds them. A tree is well formed over a text
when the children of each node lie in it, one after the other, and every offset falls between
characters of the text.
-/

namespace CodeAtlas

/-- A node with its children in order. The field is empty where the parent gives none. -/
inductive Node where
  | mk (kind : String) (range : Span) (isNamed : Bool) (field : String) (children : List Node)
deriving Repr, Inhabited

namespace Node

/-- The kind of a node. -/
def kind : Node → String
  | mk kind .. => kind

/-- The span of text a node covers. -/
def range : Node → Span
  | mk _ range .. => range

/-- The grammar gives the node a name. -/
def isNamed : Node → Bool
  | mk _ _ isNamed .. => isNamed

/-- The field under which the parent holds the node. -/
def field : Node → String
  | mk _ _ _ field _ => field

/-- The children in order. -/
def children : Node → List Node
  | mk _ _ _ _ children => children

/-- The named children in order. -/
def namedChildren (node : Node) : List Node :=
  node.children.filter isNamed

/-- The first child in a field. -/
def child? (node : Node) (field : String) : Option Node :=
  node.children.find? (·.field == field)

/-- The text a node covers; it is empty where the span does not cut out a text. -/
def text (node : Node) (source : String) : String :=
  (Text.slice? source node.range.start node.range.stop).getD ""

mutual

/-- The first named node of a kind below a node, in pre-order. -/
def descendant? (kind : String) : Node → Option Node
  | mk _ _ _ _ children => descendantAmong? kind children

/-- The first named node of a kind among some nodes and below them, in pre-order. -/
def descendantAmong? (kind : String) : List Node → Option Node
  | [] => none
  | node :: rest =>
    if !node.isNamed then
      descendantAmong? kind rest
    else if node.kind == kind then
      some node
    else
      match descendant? kind node with
      | some found => some found
      | none => descendantAmong? kind rest

end

mutual

/-- The outermost named nodes of a kind below a node, in order. -/
def descendants (kind : String) : Node → List Node
  | mk _ _ _ _ children => descendantsAmong kind children

/-- The outermost named nodes of a kind among some nodes and below them, in order. -/
def descendantsAmong (kind : String) : List Node → List Node
  | [] => []
  | node :: rest =>
    if !node.isNamed then descendantsAmong kind rest
    else if node.kind == kind then node :: descendantsAmong kind rest
    else descendants kind node ++ descendantsAmong kind rest

end

/-! ## Flat lists of rows -/

/-- A node without its children, with its depth in the tree. -/
structure Row where
  depth : Nat
  kind : String
  range : Span
  isNamed : Bool
  field : String
deriving DecidableEq, Repr, Inhabited

/-- Hang a row below: collect the finished trees of the next level as its children. -/
def hang (row : Row) (pending : List (Nat × Node)) : List (Nat × Node) :=
  let below := pending.takeWhile fun entry => decide (row.depth < entry.1)
  let rest := pending.dropWhile fun entry => decide (row.depth < entry.1)
  let children := (below.filter fun entry => entry.1 == row.depth + 1).map (·.2)
  (row.depth, mk row.kind row.range row.isNamed row.field children) :: rest

/-- The tree of a list of rows in pre-order: the children of a row are the rows one level deeper
that follow it, up to the next row that is not deeper. -/
def ofRows? (rows : List Row) : Option Node :=
  match rows.foldr hang [] with
  | (_, node) :: _ => some node
  | [] => none

/-! ## Well-formed trees -/

/-- The offset falls between characters of the text, or at one of its ends. -/
def IsBoundary (source : String) (offset : Nat) : Prop :=
  (Text.dropBytes? offset source.toList).isSome = true

mutual

/-- The children lie in the node one after the other, all offsets are boundaries, and so for every
node below. -/
inductive WellFormed (source : String) : Node → Prop
  | mk {kind : String} {range : Span} {isNamed : Bool} {field : String} {children : List Node}
      (ordered : range.start ≤ range.stop)
      (start : IsBoundary source range.start) (stop : IsBoundary source range.stop)
      (inside : WellFormedRow source range.start range.stop children) :
      WellFormed source (Node.mk kind range isNamed field children)

/-- Nodes one after the other between two offsets. -/
inductive WellFormedRow (source : String) : Nat → Nat → List Node → Prop
  | nil {lower upper : Nat} (ordered : lower ≤ upper) : WellFormedRow source lower upper []
  | cons {lower upper : Nat} {node : Node} {rest : List Node}
      (start : lower ≤ node.range.start) (node_wf : WellFormed source node)
      (rest_wf : WellFormedRow source node.range.stop upper rest) :
      WellFormedRow source lower upper (node :: rest)

end

end Node

end CodeAtlas
