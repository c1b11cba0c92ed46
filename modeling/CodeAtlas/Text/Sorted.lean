/-!
# Sorted lists of text

Text is ordered by its characters, which is also the order of its UTF-8 bytes. A sorted set is kept
as a strictly increasing list.
-/

namespace CodeAtlas.Text

/-- Insert into an increasing list, keeping it increasing; a text that is there is not repeated. -/
def insertSorted (s : String) : List String → List String
  | [] => [s]
  | t :: rest =>
    if s < t then s :: t :: rest
    else if s = t then t :: rest
    else t :: insertSorted s rest

/-- The increasing list of the texts in a list, each once. -/
def sortedSet (ss : List String) : List String :=
  ss.foldl (fun set s => insertSorted s set) []

/-- Sort by a text, keeping the order of entries with equal text. -/
def sortBy {α : Type} (key : α → String) (xs : List α) : List α :=
  xs.mergeSort fun a b => decide (key a ≤ key b)

/-- The first occurrences of the entries of a list, in order. -/
def firstOccurrences {α : Type} [BEq α] (xs : List α) : List α :=
  xs.foldl (fun kept x => if kept.contains x then kept else kept ++ [x]) []

end CodeAtlas.Text
