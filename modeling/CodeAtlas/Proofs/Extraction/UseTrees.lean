import CodeAtlas.Extraction.Imports
import CodeAtlas.Proofs.Text.Slices
import CodeAtlas.Proofs.Text.SymbolPaths

/-!
# Grouped use declarations

A use declaration groups paths that start alike, to any depth. Each of its leaves can be declared on
its own, by the paths of the groups around it and its own path one after the other, where the leaf
`self` stands for the group it is in. A grouped declaration is read level by level: at each level a
word that roots the path in a crate or module is dropped, and the word `super` alone counts for
nothing. So it brings what the declarations of its leaves bring as long as one root at most is
dropped on the way to a leaf, the paths of the groups are plain names, and no leaf is `self`.

## Main definitions

* `UseItem`: what stands at a leaf of a use tree, with its declaration `UseItem.declaration`.
* `UseLeaf`: a leaf with the paths of the groups around it; `UseLeaf.flat` is the leaf on its own.
* `useLeaves`: the leaves of a use tree in order.
* `UseLeaf.Transparent`: the groups around the leaf do not change what it brings.

## Main results

* `UseItem.read_eq`: what the declaration of an item brings.
* `rustUse_eq_concat`: a use tree brings what its leaves bring below the bases of their groups.
* `rustImport_ungrouped`: a grouped declaration brings what the declarations of its leaves bring.
-/

namespace CodeAtlas.Extraction

open CodeAtlas.Symbol (IsPath IsNamed IsWord words)

/-! ### Imports in order -/

namespace Imports

theorem append_none (imports : Imports) : imports ++ none = imports := by
  show append imports none = imports
  simp [append, none]

theorem append_assoc (a b c : Imports) : a ++ b ++ c = a ++ (b ++ c) := by
  show append (append a b) c = append a (append b c)
  simp [append]

theorem concat_append (xs ys : List Imports) : concat (xs ++ ys) = concat xs ++ concat ys := by
  induction xs with
  | nil => rfl
  | cons x xs ih =>
    show x ++ concat (xs ++ ys) = x ++ concat xs ++ concat ys
    rw [ih, append_assoc]

theorem concat_singleton (x : Imports) : concat [x] = x :=
  append_none x

end Imports

/-! ### Leaves -/

/-- What stands at a leaf of a use tree: a path, a path with another name, or all of a path. -/
inductive UseItem where
  | plain (path : String)
  | renamed (path other : String)
  | wildcard (path : Option String)
deriving DecidableEq, Repr

/-- A leaf of a use tree: the paths of the groups around it, from the outside in, and its item. -/
structure UseLeaf where
  outer : List String
  item : UseItem
deriving DecidableEq, Repr

/-- The leaf of a clause with another name. -/
def renamedLeaf (ctx : Context) (outer : List String) (node : Node) : List UseLeaf :=
  match node.child? "path", node.child? "alias" with
  | some pathNode, some aliasNode => [⟨outer, .renamed (ctx.text pathNode) (ctx.text aliasNode)⟩]
  | _, _ => []

/-- The paths of the groups around the members of a group. -/
def memberOuter (ctx : Context) (outer : List String) (node : Node) : List String :=
  outer ++ ((node.child? "path").map ctx.text).toList

mutual

/-- The leaves of a use tree, in order. -/
def useLeaves (ctx : Context) (outer : List String) : Node → List UseLeaf
  | .mk kind range isNamed field children =>
    let node := Node.mk kind range isNamed field children
    if kind = "use_as_clause" then renamedLeaf ctx outer node
    else if kind = "scoped_use_list" then
      useLeavesList ctx (memberOuter ctx outer node) children
    else if kind = "use_list" then useLeavesAll ctx outer children
    else if kind = "use_wildcard" then
      [⟨outer, .wildcard (node.namedChildren.head?.map ctx.text)⟩]
    else [⟨outer, .plain (ctx.text node)⟩]

/-- The leaves of the first node in the field `list`. -/
def useLeavesList (ctx : Context) (outer : List String) : List Node → List UseLeaf
  | [] => []
  | node :: rest =>
    if node.field == "list" then useLeaves ctx outer node else useLeavesList ctx outer rest

/-- The leaves of the named nodes, in order. -/
def useLeavesAll (ctx : Context) (outer : List String) : List Node → List UseLeaf
  | [] => []
  | node :: rest =>
    if node.isNamed then useLeaves ctx outer node ++ useLeavesAll ctx outer rest
    else useLeavesAll ctx outer rest

end

/-- The leaves of a use declaration. -/
def declaredLeaves (ctx : Context) (node : Node) : List UseLeaf :=
  match node.child? "argument" with
  | some argument => useLeaves ctx [] argument
  | none => []

/-- The base of the members of a group with a path. -/
def descend (base path : String) : String :=
  match Symbol.normalize? path with
  | some name => rustPath base name
  | none => base

/-- What an item brings below a base path. -/
def UseItem.importsBelow (base : String) : UseItem → Imports
  | .plain path =>
    match Symbol.normalize? path with
    | none => .none
    | some name =>
      if name = "self" then .none else .bound (Text.afterLast '.' name) (rustPath base name)
  | .renamed path other =>
    match Symbol.normalize? path with
    | some name => .bound other (rustPath base name)
    | none => .none
  | .wildcard path =>
    match path.bind Symbol.normalize? with
    | some name => .target (rustPath base name)
    | none => .target base

section Reading

variable {ctx : Context} {base : String}

theorem UseItem.importsBelow_wildcard (path : Option String) :
    (UseItem.wildcard path).importsBelow base = .target (path.elim base (descend base)) := by
  cases path with
  | none => rfl
  | some path =>
    rw [importsBelow, Option.bind_some, Option.elim_some, descend]
    cases Symbol.normalize? path <;> rfl

theorem rustRenamed_eq {node path other : Node} (hpath : node.child? "path" = some path)
    (hother : node.child? "alias" = some other) :
    rustRenamed ctx base node =
      (UseItem.renamed (ctx.text path) (ctx.text other)).importsBelow base := by
  rw [rustRenamed, hpath, hother, UseItem.importsBelow]
  cases hname : Symbol.normalize? (ctx.text path) <;> simp only [Context.symbol?, hname]

theorem rustWildcard_eq (node : Node) :
    rustWildcard ctx base node =
      (UseItem.wildcard (node.namedChildren.head?.map ctx.text)).importsBelow base := by
  rw [UseItem.importsBelow_wildcard, rustWildcard]
  cases node.namedChildren.head? with
  | none => rfl
  | some child =>
    rw [Option.bind_some, Option.map_some, Option.elim_some, descend]
    cases hname : Symbol.normalize? (ctx.text child) <;> simp only [Context.symbol?, hname]

theorem rustLeaf_eq (node : Node) :
    rustLeaf ctx base node = (UseItem.plain (ctx.text node)).importsBelow base := by
  rw [rustLeaf, UseItem.importsBelow]
  cases hname : Symbol.normalize? (ctx.text node) <;> simp only [Context.symbol?, hname]

end Reading

/-! ### A leaf on its own -/

namespace UseItem

/-- The declaration of an item alone. -/
def source : UseItem → String
  | .plain path => "use " ++ path ++ ";"
  | .renamed path other => "use " ++ path ++ (" as " ++ other ++ ";")
  | .wildcard none => "use *;"
  | .wildcard (some path) => "use " ++ path ++ "::*;"

/-- The node of a path that follows the word `use`. -/
def pathNode (field path : String) : Node :=
  .mk "scoped_identifier" ⟨4, 4 + path.utf8ByteSize⟩ true field []

/-- The tree of the declaration without the word `use`. -/
def argument : UseItem → Node
  | .plain path => pathNode "argument" path
  | .renamed path other =>
    let start := 4 + path.utf8ByteSize + 4
    let stop := start + other.utf8ByteSize
    .mk "use_as_clause" ⟨4, stop⟩ true "argument"
      [pathNode "path" path, .mk "identifier" ⟨start, stop⟩ true "alias" []]
  | .wildcard none => .mk "use_wildcard" ⟨4, 5⟩ true "argument" []
  | .wildcard (some path) =>
    .mk "use_wildcard" ⟨4, 4 + path.utf8ByteSize + 3⟩ true "argument" [pathNode "" path]

/-- The tree of the declaration. -/
def declaration (item : UseItem) : Node :=
  .mk "use_declaration" ⟨0, item.source.utf8ByteSize⟩ true "" [item.argument]

/-- What the declaration of an item alone brings to a file. -/
def read (ctx : Context) (item : UseItem) : Imports :=
  rustImport { ctx with source := item.source } item.declaration

variable {ctx : Context}

theorem rustImport_declaration (item : UseItem) :
    rustImport ctx item.declaration = rustUse ctx "" item.argument := by
  have hfield : item.argument.field = "argument" := by
    match item with
    | .plain _ | .renamed .. | .wildcard none | .wildcard (some _) => rfl
  have hfound : item.declaration.child? "argument" = some item.argument := by
    rw [Node.child?, declaration, Node.children, List.find?_cons_of_pos (by simp [hfield])]
  rw [rustImport, hfound]

/-- The text of a node, from what stands before and after it. -/
private theorem text_eq_of_source (front piece back : String) {node : Node}
    (h : ctx.source = front ++ piece ++ back)
    (hrange : node.range = ⟨front.utf8ByteSize, front.utf8ByteSize + piece.utf8ByteSize⟩) :
    ctx.text node = piece := by
  rw [Context.text, Node.text, h, hrange, Text.slice?_append, Option.getD_some]

private theorem text_pathNode (field : String) {path back : String}
    (h : ctx.source = "use " ++ path ++ back) : ctx.text (pathNode field path) = path :=
  text_eq_of_source "use " path back h rfl

/-- The tree of a declaration is read as its item. -/
theorem rustUse_argument {item : UseItem} (h : ctx.source = item.source) :
    rustUse ctx "" item.argument = item.importsBelow "" := by
  match item with
  | .plain path =>
    rw [argument, pathNode, rustUse, if_neg (by decide), if_neg (by decide), if_neg (by decide),
      if_neg (by decide), rustLeaf_eq]
    exact congrArg (fun text => importsBelow "" (.plain text)) (text_pathNode "argument" h)
  | .renamed path other =>
    have hother : ctx.text (.mk "identifier" ⟨4 + path.utf8ByteSize + 4,
        4 + path.utf8ByteSize + 4 + other.utf8ByteSize⟩ true "alias" []) = other := by
      refine text_eq_of_source ("use " ++ path ++ " as ") other ";" ?_ ?_
      · simp only [h, source, String.append_assoc]
      · simp only [String.utf8ByteSize_append]
        rfl
    rw [argument, rustUse, if_pos rfl, rustRenamed_eq (by rfl) (by rfl), text_pathNode "path" h,
      hother]
  | .wildcard none =>
    rw [argument, rustUse, if_neg (by decide), if_neg (by decide), if_neg (by decide), if_pos rfl,
      rustWildcard_eq]
    rfl
  | .wildcard (some path) =>
    rw [argument, rustUse, if_neg (by decide), if_neg (by decide), if_neg (by decide), if_pos rfl,
      rustWildcard_eq]
    exact congrArg (fun text => importsBelow "" (.wildcard (some text))) (text_pathNode "" h)

/-- The declaration of an item alone brings what the item brings below no base. -/
theorem read_eq (ctx : Context) (item : UseItem) : item.read ctx = item.importsBelow "" := by
  rw [read, rustImport_declaration, rustUse_argument rfl]

end UseItem

/-! ### Level by level -/

/-- The base inside of groups with the given paths. -/
def groupBase (outer : List String) : String :=
  outer.foldl descend ""

theorem groupBase_append (outer inner : List String) :
    groupBase (outer ++ inner) = inner.foldl descend (groupBase outer) :=
  List.foldl_append

theorem groupBase_memberOuter (ctx : Context) (outer : List String) (node : Node) :
    groupBase (memberOuter ctx outer node) = rustGroupBase ctx (groupBase outer) node := by
  rw [memberOuter, groupBase_append, rustGroupBase]
  cases node.child? "path" with
  | none => rfl
  | some path =>
    rw [Option.map_some, Option.toList_some, List.foldl_cons, List.foldl_nil, descend,
      Option.bind_some]
    cases hname : Symbol.normalize? (ctx.text path) <;> simp only [Context.symbol?, hname]

/-- What a leaf brings below the base of its groups. -/
def UseLeaf.grouped (leaf : UseLeaf) : Imports :=
  leaf.item.importsBelow (groupBase leaf.outer)

theorem rustRenamed_eq_concat (ctx : Context) (outer : List String) (node : Node) :
    rustRenamed ctx (groupBase outer) node =
      .concat ((renamedLeaf ctx outer node).map UseLeaf.grouped) := by
  rw [renamedLeaf]
  cases hpath : node.child? "path" with
  | none => rw [rustRenamed, hpath]; rfl
  | some path =>
    cases hother : node.child? "alias" with
    | none => rw [rustRenamed, hpath, hother]; rfl
    | some other =>
      rw [rustRenamed_eq hpath hother]
      exact (Imports.concat_singleton _).symm

mutual

/-- A use tree brings what its leaves bring below the bases of their groups. -/
theorem rustUse_eq_concat (ctx : Context) : (node : Node) → (outer : List String) →
    rustUse ctx (groupBase outer) node = .concat ((useLeaves ctx outer node).map UseLeaf.grouped)
  | .mk kind range isNamed field children, outer => by
    rw [rustUse, useLeaves]
    split_ifs
    · exact rustRenamed_eq_concat ctx outer _
    · rw [← groupBase_memberOuter]
      exact rustUseList_eq_concat ctx children _
    · exact rustUseAll_eq_concat ctx children outer
    · rw [rustWildcard_eq]
      exact (Imports.concat_singleton _).symm
    · rw [rustLeaf_eq]
      exact (Imports.concat_singleton _).symm

theorem rustUseList_eq_concat (ctx : Context) : (nodes : List Node) → (outer : List String) →
    rustUseList ctx (groupBase outer) nodes =
      .concat ((useLeavesList ctx outer nodes).map UseLeaf.grouped)
  | [], _ => rfl
  | node :: rest, outer => by
    rw [rustUseList, useLeavesList]
    split
    · exact rustUse_eq_concat ctx node outer
    · exact rustUseList_eq_concat ctx rest outer

theorem rustUseAll_eq_concat (ctx : Context) : (nodes : List Node) → (outer : List String) →
    rustUseAll ctx (groupBase outer) nodes =
      .concat ((useLeavesAll ctx outer nodes).map UseLeaf.grouped)
  | [], _ => rfl
  | node :: rest, outer => by
    rw [rustUseAll, useLeavesAll]
    split
    · rw [rustUse_eq_concat ctx node outer, rustUseAll_eq_concat ctx rest outer, List.map_append,
        Imports.concat_append]
    · exact rustUseAll_eq_concat ctx rest outer

end

/-! ### Roots -/

/-- The words that root a path in the current crate or module. -/
def rootWords : List String :=
  ["crate", "self", "super"]

/-- The path without the word that roots it, unless it is that word alone. -/
def dropRoot : List String → List String
  | first :: second :: rest => if first ∈ rootWords then second :: rest else first :: second :: rest
  | path => path

/-- A joined text starts with a word and a dot if that is its first word and not its only one. -/
theorem afterStart?_join {root first : String} {rest : List String} (hroot : '.' ∉ root.toList)
    (h : ∀ word ∈ first :: rest, IsWord word) :
    Text.afterStart? (root ++ ".") (Text.join "." (first :: rest)) =
      if rest ≠ [] ∧ first = root then some (Text.join "." rest) else none := by
  split
  · rename_i hfirst
    rw [Text.afterStart?_eq_some_iff, ← List.singleton_append, Text.join_append (by simp) hfirst.1,
      Text.join_singleton, hfirst.2]
  · rename_i hfirst
    refine Option.eq_none_iff_forall_ne_some.mpr fun back hback => hfirst ?_
    have hsplit : Text.split '.' (Text.join "." (first :: rest)) = first :: rest :=
      Text.split_join rfl (List.cons_ne_nil first rest) fun word hword => (h word hword).2
    rw [Text.afterStart?_eq_some_iff.mp hback, Text.split_append_of_notMem rfl hroot] at hsplit
    obtain ⟨rfl, rfl⟩ := List.cons.inj hsplit
    exact ⟨by simp [Text.split, Text.splitChars_ne_nil], rfl⟩

/-- Joined words are joined again, less the root of the whole path. -/
theorem rustPath_join {base path : List String} (hpath : path ≠ [])
    (h : ∀ word ∈ base ++ path, IsWord word) :
    rustPath (Text.join "." base) (Text.join "." path) =
      Text.join "." (dropRoot (base ++ path)) := by
  obtain ⟨first, rest, hwords⟩ :=
    List.exists_cons_of_ne_nil (List.append_ne_nil_of_right_ne_nil base hpath)
  have hroots : ["crate.", "self.", "super."] = rootWords.map (· ++ ".") := by decide
  have hstart : ∀ root ∈ rootWords, Text.afterStart? (root ++ ".") (Text.join "." (first :: rest)) =
      if rest ≠ [] ∧ first = root then some (Text.join "." rest) else none := by
    intro root hroot
    refine afterStart?_join ?_ (hwords ▸ h)
    revert root
    decide
  rw [rustPath, Symbol.qualify_join hpath fun word hword => (h word hword).1, hwords, hroots]
  simp only [rootWords, List.map_cons, List.map_nil, List.findSome?_cons, List.findSome?_nil,
    List.forall_mem_cons] at hstart ⊢
  rw [hstart.1, hstart.2.1, hstart.2.2.1]
  cases rest with
  | nil => simp [dropRoot]
  | cons second rest =>
    by_cases hfirst : first ∈ rootWords
    · rw [dropRoot, if_pos hfirst]
      obtain rfl | rfl | rfl : first = "crate" ∨ first = "self" ∨ first = "super" := by
        simpa [rootWords] using hfirst
      all_goals simp
    · rw [dropRoot, if_neg hfirst]
      obtain ⟨hcrate, hself, hsuper⟩ : first ≠ "crate" ∧ first ≠ "self" ∧ first ≠ "super" := by
        simpa [rootWords] using hfirst
      simp [hcrate, hself, hsuper]

theorem rustPath_empty {path : List String} (hpath : path ≠ []) (h : ∀ word ∈ path, IsWord word) :
    rustPath "" (Text.join "." path) = Text.join "." (dropRoot path) := by
  have hempty : Text.join "." [] = "" := by decide
  rw [← hempty, rustPath_join hpath (by simpa using h), List.nil_append]

/-! ### The words on the way to a leaf -/

/-- The words of a base and of a level below it: a root is dropped, and `super` alone is left
out. -/
def descendWords (base level : List String) : List String :=
  if level = ["super"] then base else dropRoot (base ++ level)

theorem mem_of_mem_dropRoot {word : String} {path : List String} (h : word ∈ dropRoot path) :
    word ∈ path := by
  unfold dropRoot at h
  split at h
  · split at h
    · exact List.mem_cons_of_mem _ h
    · exact h
  · exact h

theorem dropRoot_of_head {path : List String} (h : ∀ word ∈ path.head?, word ∉ rootWords) :
    dropRoot path = path := by
  unfold dropRoot
  split
  · exact if_neg (h _ rfl)
  · rfl

/-- Going down to a path is going down to its words. -/
theorem descend_join {base : List String} (hbase : ∀ word ∈ base, IsWord word) {path : String}
    (h : IsPath path) :
    descend (Text.join "." base) path = Text.join "." (descendWords base (words path)) := by
  rw [descend, h.normalize?_eq, descendWords]
  split_ifs
  · rfl
  · refine rustPath_join h.ne_nil fun word hword => ?_
    rcases List.mem_append.mp hword with hword | hword
    · exact hbase word hword
    · exact Symbol.isWord_of_mem_words hword

/-- The base inside of groups, by the words of their paths. -/
theorem groupBase_eq {outer : List String} (h : ∀ path ∈ outer, IsPath path) :
    groupBase outer = Text.join "." ((outer.map words).foldl descendWords []) ∧
      ∀ word ∈ (outer.map words).foldl descendWords [], IsWord word := by
  induction outer using List.reverseRecOn with
  | nil => exact ⟨by decide, by simp⟩
  | append_singleton front last ih =>
    obtain ⟨hbase, hwords⟩ := ih fun path hpath => h path (List.mem_append_left _ hpath)
    rw [groupBase_append, List.map_append, List.foldl_append, hbase]
    simp only [List.map_cons, List.map_nil, List.foldl_cons, List.foldl_nil]
    refine ⟨descend_join hwords (h last (by simp)), fun word hword => ?_⟩
    rw [descendWords] at hword
    split_ifs at hword
    · exact hwords word hword
    · rcases List.mem_append.mp (mem_of_mem_dropRoot hword) with hword | hword
      · exact hwords word hword
      · exact Symbol.isWord_of_mem_words hword

/-- Nothing is dropped below a base that starts with no root. -/
theorem foldl_descendWords_of_head {levels : List (List String)} {base : List String}
    (hne : ∀ level ∈ levels, level ≠ []) (hsuper : ["super"] ∉ levels)
    (hhead : ∀ word ∈ (base ++ levels.flatten).head?, word ∉ rootWords) :
    levels.foldl descendWords base = base ++ levels.flatten := by
  induction levels generalizing base with
  | nil => simp
  | cons level levels ih =>
    obtain ⟨hlevel, hlevels⟩ := List.forall_mem_cons.mp hne
    obtain ⟨hfirst, hrest⟩ := not_or.mp (mt List.mem_cons.mpr hsuper)
    have hbase : dropRoot (base ++ level) = base ++ level := by
      refine dropRoot_of_head fun word hword => hhead word ?_
      rw [List.flatten_cons, ← List.append_assoc, List.head?_append, hword]
      rfl
    rw [List.foldl_cons, descendWords, if_neg (Ne.symm hfirst), hbase, ih hlevels hrest,
      List.append_assoc, List.flatten_cons]
    rwa [List.append_assoc, ← List.flatten_cons]

/-- One root at most is dropped on the way through the levels of a path: below the first level none
is the word `super` alone, and the first two words are not both roots, unless the first of two levels
is a single root that stays until the second. -/
def RootedOnce (levels : List (List String)) : Prop :=
  ["super"] ∉ levels.tail ∧
    ((¬ ∀ word ∈ levels.flatten.take 2, word ∈ rootWords) ∨
      levels.length = 2 ∧ (levels.head? = some ["crate"] ∨ levels.head? = some ["self"]))

instance (levels : List (List String)) : Decidable (RootedOnce levels) :=
  inferInstanceAs (Decidable (_ ∧ _))

/-- If one root at most is dropped, going through the levels is dropping the root of the path. -/
theorem RootedOnce.foldl_descendWords {levels : List (List String)} (h : RootedOnce levels)
    (hlevels : 2 ≤ levels.length) (hne : ∀ level ∈ levels, level ≠ []) :
    levels.foldl descendWords [] = dropRoot levels.flatten := by
  obtain ⟨first, second, rest, rfl⟩ : ∃ first second rest, levels = first :: second :: rest := by
    match levels, hlevels with
    | first :: second :: rest, _ => exact ⟨first, second, rest, rfl⟩
  obtain ⟨hfirst, hbelow⟩ := List.forall_mem_cons.mp hne
  obtain ⟨hsecond, hrest⟩ := List.forall_mem_cons.mp hbelow
  obtain ⟨x, xs, rfl⟩ := List.exists_cons_of_ne_nil hfirst
  obtain ⟨y, ys, rfl⟩ := List.exists_cons_of_ne_nil hsecond
  obtain ⟨hsuper, honce⟩ := h
  have hsuper : ["super"] ∉ (y :: ys) :: rest := hsuper
  obtain ⟨hlevel, hlast⟩ := not_or.mp (mt List.mem_cons.mpr hsuper)
  by_cases hx : x ∈ rootWords
  · -- The root is dropped at the first level, or with the second one if it stands alone.
    have hstay (hword : [x] ≠ ["super"]) :
        descendWords (descendWords [] [x]) (y :: ys) = y :: ys := by
      rw [descendWords, if_neg (Ne.symm hlevel), descendWords, if_neg hword]
      exact if_pos hx
    have hpath : dropRoot (((x :: xs) :: (y :: ys) :: rest).flatten) =
        xs ++ ((y :: ys) :: rest).flatten := by
      cases xs <;> exact if_pos hx
    rw [hpath]
    rcases honce with hwords | ⟨hlength, halone⟩
    · cases xs with
      | nil =>
        have hy : y ∉ rootWords := by simpa [hx] using hwords
        by_cases hword : [x] = ["super"]
        · rw [List.foldl_cons, descendWords, if_pos hword]
          exact foldl_descendWords_of_head hbelow hsuper (by simpa using hy)
        · rw [List.foldl_cons, List.foldl_cons, hstay hword]
          exact foldl_descendWords_of_head hrest hlast (by simpa using hy)
      | cons x' xs =>
        have hx' : x' ∉ rootWords := by simpa [hx] using hwords
        have hdrop : descendWords [] (x :: x' :: xs) = x' :: xs := by
          rw [descendWords, if_neg (by simp)]
          exact if_pos hx
        rw [List.foldl_cons, hdrop]
        exact foldl_descendWords_of_head hbelow hsuper (by simpa using hx')
    · obtain rfl : rest = [] := by simpa using hlength
      have hxs : xs = [] ∧ [x] ≠ ["super"] := by
        rcases halone with halone | halone <;> simp_all
      obtain ⟨rfl, hword⟩ := hxs
      rw [List.foldl_cons, List.foldl_cons, hstay hword]
      simp
  · -- No word is dropped below a level that starts with no root.
    have hhead : ∀ word ∈ ((x :: xs) :: (y :: ys) :: rest).flatten.head?, word ∉ rootWords := by
      simpa using hx
    have hword : ["super"] ≠ x :: xs := by
      rintro heq
      obtain ⟨rfl, -⟩ := List.cons.inj heq
      exact hx (by decide)
    rw [dropRoot_of_head hhead]
    exact foldl_descendWords_of_head hne
      (fun hmem => (List.mem_cons.mp hmem).elim hword hsuper) hhead

/-! ### Leaves without their groups -/

/-- The paths that lead to a leaf: the leaf `self` in groups stands for them. -/
def leafLevels (outer : List String) (path : String) : List String :=
  if outer ≠ [] ∧ Symbol.normalize? path = some "self" then outer else outer ++ [path]

/-- The leaf alone, with its whole path. -/
def UseLeaf.flat (leaf : UseLeaf) : UseItem :=
  match leaf.item with
  | .plain path => .plain (Text.join "::" (leafLevels leaf.outer path))
  | .renamed path other => .renamed (Text.join "::" (leafLevels leaf.outer path)) other
  | .wildcard path =>
    match leaf.outer ++ path.toList with
    | [] => .wildcard none
    | levels => .wildcard (some (Text.join "::" levels))

/-- The path is one of plain names, and on the way to it one root at most is dropped. -/
def Follows (outer : List String) (path : String) : Prop :=
  IsPath path ∧ RootedOnce ((outer ++ [path]).map words)

instance (outer : List String) (path : String) : Decidable (Follows outer path) :=
  inferInstanceAs (Decidable (_ ∧ _))

/-- The item can be taken out of the groups: its path follows theirs and is not `self`. A text that
is no name brings nothing in any place. -/
def UseItem.Extractable (outer : List String) : UseItem → Prop
  | .plain path => ¬ IsNamed path ∨ Follows outer path ∧ words path ≠ ["self"]
  | .renamed path _ => ¬ IsNamed path ∨ Follows outer path ∧ words path ≠ ["self"]
  | .wildcard none => outer.length = 1 ∨ RootedOnce (outer.map words)
  | .wildcard (some path) => Follows outer path

instance (outer : List String) : (item : UseItem) → Decidable (item.Extractable outer)
  | .plain _ => inferInstanceAs (Decidable (_ ∨ _))
  | .renamed .. => inferInstanceAs (Decidable (_ ∨ _))
  | .wildcard none => inferInstanceAs (Decidable (_ ∨ _))
  | .wildcard (some path) => inferInstanceAs (Decidable (Follows outer path))

/-- The groups around the leaf do not change what it brings: there are none, or their paths are of
plain names and the item can be taken out. -/
def UseLeaf.Transparent (leaf : UseLeaf) : Prop :=
  leaf.outer = [] ∨ (∀ path ∈ leaf.outer, IsPath path) ∧ leaf.item.Extractable leaf.outer

instance (leaf : UseLeaf) : Decidable leaf.Transparent :=
  inferInstanceAs (Decidable (_ ∨ _))

theorem afterLast_join {front : List String} {last : String} (h : '.' ∉ last.toList) :
    Text.afterLast '.' (Text.join "." (front ++ [last])) = last := by
  by_cases hfront : front = []
  · rw [hfront, List.nil_append, Text.join_singleton, Text.afterLast, Text.cutLast?_eq_none h]
  · have hdot : (".".toList : List Char) = ['.'] := rfl
    rw [Text.afterLast, Text.toList_join_append_singleton "." hfront, hdot, List.singleton_append,
      Text.cutLast?_append h]
    exact String.ofList_toList

theorem eq_self_of_join {parts : List String} (hne : parts ≠ []) (h : ∀ word ∈ parts, IsWord word)
    (heq : Text.join "." parts = "self") : parts = ["self"] := by
  rw [← Text.join_singleton "." "self"] at heq
  exact (Text.join_inj rfl hne (by simp) (fun word hword => (h word hword).2) (by decide)).mp heq

namespace Follows

variable {outer : List String} {path : String}

theorem words_ne_super (h : Follows outer path) (houter : outer ≠ []) : words path ≠ ["super"] := by
  obtain ⟨first, rest, rfl⟩ := List.exists_cons_of_ne_nil houter
  intro heq
  exact h.2.1 (by simp [heq])

theorem isWord_of_mem {word : String} (h : word ∈ (outer ++ [path]).flatMap words) :
    IsWord word := by
  obtain ⟨p, -, hword⟩ := List.mem_flatMap.mp h
  exact Symbol.isWord_of_mem_words hword

/-- A path in groups stands for the words of the whole path without its root. -/
theorem rustPath_groupBase (h : Follows outer path) (houter : outer ≠ [])
    (hpaths : ∀ path ∈ outer, IsPath path) :
    rustPath (groupBase outer) (Text.join "." (words path)) =
      Text.join "." (dropRoot ((outer ++ [path]).flatMap words)) := by
  obtain ⟨hbase, hwords⟩ := groupBase_eq hpaths
  have hne : ∀ level ∈ (outer ++ [path]).map words, level ≠ [] := by
    simpa [or_imp, forall_and, h.1.ne_nil] using fun p hp => (hpaths p hp).ne_nil
  have hlength : 2 ≤ ((outer ++ [path]).map words).length := by
    have hpos := List.length_pos_iff.mpr houter
    rw [List.length_map, List.length_append, List.length_singleton]
    omega
  have hlevels := h.2.foldl_descendWords hlength hne
  rw [List.map_append, List.foldl_append, List.map_singleton, List.foldl_cons, List.foldl_nil,
    descendWords, if_neg (h.words_ne_super houter)] at hlevels
  rw [hbase, rustPath_join h.1.ne_nil, hlevels]
  · simp [List.flatMap_def]
  · intro word hword
    rcases List.mem_append.mp hword with hword | hword
    · exact hwords word hword
    · exact Symbol.isWord_of_mem_words hword

/-- A path in groups and the whole path have names that stand for the same and end alike. Neither is
the word `self`, if the path is not. -/
theorem exists_names (h : Follows outer path) (houter : outer ≠ [])
    (hpaths : ∀ path ∈ outer, IsPath path) :
    ∃ name whole, Symbol.normalize? path = some name ∧
      Symbol.normalize? (Text.join "::" (outer ++ [path])) = some whole ∧
      rustPath (groupBase outer) name = rustPath "" whole ∧
      Text.afterLast '.' name = Text.afterLast '.' whole ∧
      (name = "self" → words path = ["self"]) ∧ whole ≠ "self" := by
  have hall : ∀ p ∈ outer ++ [path], IsPath p := by
    simpa [or_imp, forall_and] using And.intro hpaths h.1
  obtain ⟨hwhole, hwords⟩ := IsPath.words_join (by simp) hall
  obtain ⟨front, last, hlast⟩ : ∃ front last, words path = front ++ [last] :=
    ⟨_, _, (List.dropLast_append_getLast h.1.ne_nil).symm⟩
  have hfull : (outer ++ [path]).flatMap words = outer.flatMap words ++ front ++ [last] := by
    rw [List.flatMap_append, List.flatMap_singleton, hlast, List.append_assoc]
  have hlong : outer.flatMap words ++ front ≠ [] := by
    obtain ⟨first, rest, rfl⟩ := List.exists_cons_of_ne_nil houter
    simp [(hpaths first (by simp)).ne_nil]
  have hsingle (word : String) : (outer ++ [path]).flatMap words ≠ [word] := by
    rw [hfull]
    exact fun heq => hlong (List.append_eq_singleton_iff.mp heq |>.resolve_right (by simp)).1
  have hdot : '.' ∉ last.toList :=
    (Symbol.isWord_of_mem_words (by rw [hlast]; simp : last ∈ words path)).2
  have hne : (outer ++ [path]).flatMap words ≠ [] := hwords ▸ hwhole.ne_nil
  refine ⟨Text.join "." (words path), Text.join "." ((outer ++ [path]).flatMap words), ?_, ?_, ?_,
    ?_, eq_self_of_join h.1.ne_nil fun word => Symbol.isWord_of_mem_words, fun heq => ?_⟩
  · rw [h.1.normalize?_eq, if_neg (h.words_ne_super houter)]
  · rw [hwhole.normalize?_eq, hwords, if_neg (hsingle "super")]
  · rw [h.rustPath_groupBase houter hpaths, rustPath_empty hne fun word => isWord_of_mem]
  · rw [hfull, hlast, afterLast_join hdot, afterLast_join hdot]
  · exact hsingle "self" (eq_self_of_join hne (fun word => isWord_of_mem) heq)

end Follows

/-- Without groups a leaf is alone. -/
theorem UseLeaf.flat_of_nil (item : UseItem) : UseLeaf.flat ⟨[], item⟩ = item := by
  match item with
  | .plain path | .renamed path other => simp [flat, leafLevels, Text.join_singleton]
  | .wildcard none => rfl
  | .wildcard (some path) => simp [flat, Text.join_singleton]

section Extractable

variable {outer : List String} {path : String} (houter : outer ≠ [])
  (hpaths : ∀ path ∈ outer, IsPath path)

include houter hpaths

/-- A path that can be taken out of groups: it is no name, and neither is the whole path, or both
have names that stand for the same and end alike. -/
theorem exists_names_of_extractable
    (h : ¬ IsNamed path ∨ Follows outer path ∧ words path ≠ ["self"]) :
    leafLevels outer path = outer ++ [path] ∧
    (Symbol.normalize? path = none ∧
        Symbol.normalize? (Text.join "::" (outer ++ [path])) = none ∨
      ∃ name whole, (Symbol.normalize? path = some name ∧ name ≠ "self") ∧
        (Symbol.normalize? (Text.join "::" (outer ++ [path])) = some whole ∧ whole ≠ "self") ∧
        rustPath (groupBase outer) name = rustPath "" whole ∧
        Text.afterLast '.' name = Text.afterLast '.' whole) := by
  have hlevels (hself : Symbol.normalize? path ≠ some "self") :
      leafLevels outer path = outer ++ [path] := if_neg fun h => hself h.2
  rcases h with hnamed | ⟨hfollows, hself⟩
  · have hpath := Symbol.normalize?_of_not_isNamed hnamed
    have hwhole := Symbol.normalize?_of_not_isNamed (Symbol.not_isNamed_join hpaths hnamed)
    exact ⟨hlevels (by simp [hpath]), Or.inl ⟨hpath, hwhole⟩⟩
  · obtain ⟨name, whole, hname, hwhole, hstands, hlast, hnself, hwself⟩ :=
      hfollows.exists_names houter hpaths
    have hne : name ≠ "self" := mt hnself hself
    exact ⟨hlevels (by simpa [hname] using hne),
      Or.inr ⟨name, whole, ⟨hname, hne⟩, ⟨hwhole, hwself⟩, hstands, hlast⟩⟩

/-- The base inside of groups is that inside of one group with the joined path. -/
theorem groupBase_eq_descend (h : outer.length = 1 ∨ RootedOnce (outer.map words)) :
    groupBase outer = descend "" (Text.join "::" outer) := by
  obtain ⟨front, last, rfl⟩ : ∃ front last, outer = front ++ [last] :=
    ⟨_, _, (List.dropLast_append_getLast houter).symm⟩
  by_cases hfront : front = []
  · rw [hfront, List.nil_append, Text.join_singleton]
    rfl
  · have hpath : ∀ path ∈ front, IsPath path := fun path hmem =>
      hpaths path (List.mem_append_left _ hmem)
    have hfollows : Follows front last :=
      ⟨hpaths last (by simp), h.resolve_left (by simpa using hfront)⟩
    obtain ⟨name, whole, hname, hwhole, hstands, -⟩ := hfollows.exists_names hfront hpath
    rw [groupBase_append, descend, hwhole, List.foldl_cons, List.foldl_nil, descend, hname]
    exact hstands

end Extractable

/-- All of a path in groups is all of the joined path. -/
theorem UseLeaf.grouped_wildcard {outer : List String} {path : Option String}
    (hne : outer ++ path.toList ≠ []) (hpaths : ∀ p ∈ outer ++ path.toList, IsPath p)
    (h : (outer ++ path.toList).length = 1 ∨ RootedOnce ((outer ++ path.toList).map words)) :
    UseLeaf.grouped ⟨outer, .wildcard path⟩ =
      (UseLeaf.flat ⟨outer, .wildcard path⟩).importsBelow "" := by
  have hflat : UseLeaf.flat ⟨outer, .wildcard path⟩ =
      .wildcard (some (Text.join "::" (outer ++ path.toList))) := by
    obtain ⟨first, rest, hlevels⟩ := List.exists_cons_of_ne_nil hne
    simp only [flat, hlevels]
  have hbase : path.elim (groupBase outer) (descend (groupBase outer)) =
      groupBase (outer ++ path.toList) := by
    rw [groupBase_append]
    cases path <;> rfl
  rw [hflat, grouped, UseItem.importsBelow_wildcard, UseItem.importsBelow_wildcard, hbase,
    groupBase_eq_descend hne hpaths h, Option.elim_some]

/-- A leaf that its groups do not change brings in them what it brings alone. -/
theorem UseLeaf.Transparent.grouped_eq {leaf : UseLeaf} (h : leaf.Transparent) :
    leaf.grouped = leaf.flat.importsBelow "" := by
  obtain ⟨outer, item⟩ := leaf
  by_cases houter : outer = []
  · rw [houter, UseLeaf.flat_of_nil]
    rfl
  obtain ⟨hpaths, hitem⟩ := h.resolve_left houter
  match item with
  | .plain path =>
    obtain ⟨hlevels, hnames⟩ := exists_names_of_extractable houter hpaths hitem
    simp only [grouped, flat, UseItem.importsBelow, hlevels]
    obtain ⟨hpath, hwhole⟩ | ⟨name, whole, ⟨hname, hne⟩, ⟨hwhole, hwne⟩, hstands, hlast⟩ := hnames
    · rw [hpath, hwhole]
    · simp only [hname, hwhole, if_neg hne, if_neg hwne, hstands, hlast]
  | .renamed path other =>
    obtain ⟨hlevels, hnames⟩ := exists_names_of_extractable houter hpaths hitem
    simp only [grouped, flat, UseItem.importsBelow, hlevels]
    obtain ⟨hpath, hwhole⟩ | ⟨name, whole, ⟨hname, -⟩, ⟨hwhole, -⟩, hstands, -⟩ := hnames
    · rw [hpath, hwhole]
    · simp only [hname, hwhole, hstands]
  | .wildcard none =>
    exact grouped_wildcard (by simpa using houter) (by simpa using hpaths)
      (by simpa [UseItem.Extractable] using hitem)
  | .wildcard (some path) =>
    refine grouped_wildcard (by simp) ?_ (Or.inr hitem.2)
    simpa [or_imp, forall_and] using And.intro hpaths hitem.1

/-- A use declaration whose groups do not change its leaves brings what the declarations of its
leaves bring, in order. -/
theorem rustImport_ungrouped (ctx : Context) (node : Node)
    (h : ∀ leaf ∈ declaredLeaves ctx node, leaf.Transparent) :
    rustImport ctx node =
      .concat ((declaredLeaves ctx node).map fun leaf => leaf.flat.read ctx) := by
  have hleaves : rustImport ctx node = .concat ((declaredLeaves ctx node).map UseLeaf.grouped) := by
    rw [rustImport, declaredLeaves]
    cases node.child? "argument" with
    | none => rfl
    | some argument => exact rustUse_eq_concat ctx argument []
  rw [hleaves]
  congr 1
  refine List.map_congr_left fun leaf hleaf => ?_
  rw [(h leaf hleaf).grouped_eq, UseItem.read_eq]

/-! ### Declarations with groups -/

/-- A file that holds only a use declaration. -/
def useContext (source : String) : Context :=
  .ofFile .rust "m.rs" source

/-- Groups in a group, with a comment among the members. -/
def nestedText : String :=
  "use super::\x7ba::\x7bb, /* c */ c as d\x7d, e::*\x7d;"

/-- The tree of the nested groups. -/
def nestedUse : Node :=
  .mk "use_declaration" ⟨0, 42⟩ true ""
    [.mk "scoped_use_list" ⟨4, 41⟩ true "argument"
      [.mk "super" ⟨4, 9⟩ true "path" [],
        .mk "use_list" ⟨11, 41⟩ true "list"
          [.mk "scoped_use_list" ⟨12, 34⟩ true ""
            [.mk "identifier" ⟨12, 13⟩ true "path" [],
              .mk "use_list" ⟨15, 34⟩ true "list"
                [.mk "identifier" ⟨16, 17⟩ true "" [],
                  .mk "block_comment" ⟨19, 26⟩ true "" [],
                  .mk "use_as_clause" ⟨27, 33⟩ true ""
                    [.mk "identifier" ⟨27, 28⟩ true "path" [],
                      .mk "identifier" ⟨32, 33⟩ true "alias" []]]],
            .mk "use_wildcard" ⟨36, 40⟩ true "" [.mk "identifier" ⟨36, 37⟩ true "" []]]]]

theorem rustImport_ungrouped_nested :
    declaredLeaves (useContext nestedText) nestedUse =
      [⟨["super", "a"], .plain "b"⟩, ⟨["super", "a"], .plain "/* c */"⟩,
        ⟨["super", "a"], .renamed "c" "d"⟩, ⟨["super"], .wildcard (some "e")⟩] ∧
    rustImport (useContext nestedText) nestedUse =
      ⟨["a.b", "a.c", "e"], [("b", "a.b"), ("d", "a.c")]⟩ := by
  have hleaves : declaredLeaves (useContext nestedText) nestedUse =
      [⟨["super", "a"], .plain "b"⟩, ⟨["super", "a"], .plain "/* c */"⟩,
        ⟨["super", "a"], .renamed "c" "d"⟩, ⟨["super"], .wildcard (some "e")⟩] := by
    decide +kernel
  refine ⟨hleaves, ?_⟩
  rw [rustImport_ungrouped (useContext nestedText) nestedUse (by rw [hleaves]; decide +kernel),
    hleaves]
  decide +kernel

/-- A group with the leaf `self`. -/
def selfUse : Node :=
  .mk "use_declaration" ⟨0, 14⟩ true ""
    [.mk "scoped_use_list" ⟨4, 13⟩ true "argument"
      [.mk "identifier" ⟨4, 5⟩ true "path" [],
        .mk "use_list" ⟨7, 13⟩ true "list" [.mk "self" ⟨8, 12⟩ true "" []]]]

/-- The leaf `self` brings nothing in a group, and the path of the group alone brings itself. -/
theorem rustImport_group_of_self :
    ¬ ∀ (ctx : Context) (node : Node), rustImport ctx node =
      .concat ((declaredLeaves ctx node).map fun leaf => leaf.flat.read ctx) := by
  intro hall
  have hself := hall (useContext "use a::\x7bself\x7d;") selfUse
  revert hself
  decide +kernel

-- Groups change what a leaf brings when it is `self` with another name, when a second root is
-- dropped, when `super` is left out below the first level, and when the path of a group is not of
-- plain names.
example : ∀ leaf ∈ [⟨["a"], .renamed "self" "x"⟩, ⟨["super::super"], .plain "b"⟩,
    ⟨["a"], .plain "super"⟩, ⟨["a"], .wildcard (some "super")⟩, ⟨["r#try"], .plain "b"⟩],
    UseLeaf.grouped leaf ≠ leaf.flat.read (useContext "") := by
  decide +kernel

end CodeAtlas.Extraction
