import CodeAtlas.Json
import CodeAtlas.SyntaxTree

/-!
# Syntax trees as JSON

A syntax tree is exchanged as a list of its nodes in pre-order. A node is the list of its depth, its
kind, the two ends of its range, one or zero for whether it is named, and the field under which its
parent holds it.
-/

namespace CodeAtlas.Node

/-- The row of a list of columns. -/
def Row.ofJson? : Json → Option Row
  | .array [depth, kind, start, stop, named, field] => do
    return {
      depth := ← depth.asNat?
      kind := ← kind.asText?
      range := ⟨← start.asNat?, ← stop.asNat?⟩
      isNamed := (← named.asNat?) == 1
      field := ← field.asText? }
  | _ => none

/-- The tree of a list of rows. -/
def ofJson? (value : Json) : Option Node :=
  (value.asList? Row.ofJson?).bind ofRows?

end CodeAtlas.Node
