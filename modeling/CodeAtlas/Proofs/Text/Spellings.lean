import CodeAtlas.Proofs.Text.SymbolPaths

/-!
# Spellings of a canonical name

The canonical name of a symbol is made of segments joined by single dots. A text spells the name if
it has the characters of the segments in their order and one of four marks for each dot; blanks and
bracketed type arguments may stand wherever they do not part a mark. The passes that write dots and
drop arguments undo all of this, though they share characters: the bracket that ends an arrow is gone
before the brackets of arguments are counted, and no hyphen stands among arguments. So every
spelling of a canonical name has that name, the name itself among them.

## Main definitions

* `Symbol.IsCanonical`: the form of canonical names.
* `Symbol.Balanced`, `Symbol.Spells`: type arguments, and the spellings of a name.

## Main results

* `Symbol.withDots_of_spells`: what is left of a spelling is the name.
* `Symbol.normalize?_canonical`: canonical names, and the texts that have one.
-/

namespace CodeAtlas

namespace Text

theorem replacePair_pair (a b : Char) (new xs : List Char) :
    replacePair a b new (a :: b :: xs) = new ++ replacePair a b new xs := by
  rw [replacePair, if_pos ⟨rfl, rfl⟩]

/-- Nothing is replaced in a text that does not hold the first character of the pair. -/
theorem replacePair_append_of_notMem {a b : Char} {new xs : List Char} (h : a ∉ xs)
    (ys : List Char) : replacePair a b new (xs ++ ys) = xs ++ replacePair a b new ys := by
  induction xs with
  | nil => rfl
  | cons c xs ih =>
    obtain ⟨hc, hxs⟩ := not_or.mp (mt List.mem_cons.mpr h)
    rw [List.cons_append, replacePair_cons (Ne.symm hc), ih hxs, List.cons_append]

end Text

namespace Symbol

variable {raw name inner rest : List Char} {c : Char}

/-! ### Characters of names -/

theorem ne_of_isNameChar {d : Char} (hc : isNameChar c = true) (hd : isNameChar d = false) :
    c ≠ d := by
  rintro rfl
  exact Bool.noConfusion (hc.symm.trans hd)

theorem notMem_of_isNameChar {ds : List Char} (hc : isNameChar c = true)
    (hds : (ds.all fun d => !isNameChar d) = true) : c ∉ ds := by
  intro hmem
  have hnone : isNameChar c = false := by simpa using List.all_eq_true.mp hds c hmem
  exact ne_of_isNameChar hc hnone rfl

/-- No blank is a character of names. -/
theorem isBlank_of_isNameChar (h : isNameChar c = true) : Text.isBlank c = false := by
  have hranges : ∀ range ∈ Text.blankRanges, ∀ code ∈ List.range' range.1 (range.2 + 1 - range.1),
      isNameChar (Char.ofNat code) = false := by
    decide +kernel
  rw [Bool.eq_false_iff]
  intro hblank
  obtain ⟨range, hrange, hcode⟩ := List.any_eq_true.mp hblank
  rw [Bool.and_eq_true, decide_eq_true_eq, decide_eq_true_eq] at hcode
  have hnone := hranges range hrange c.toNat (List.mem_range'_1.mpr (by omega))
  rw [Char.ofNat_toNat] at hnone
  exact ne_of_isNameChar h hnone rfl

/-- Every pass keeps the character as it is. -/
structure Plain (c : Char) : Prop where
  not_mark : c ∉ ['-', '?', ':', '<', '>']
  not_blank : Text.isBlank c = false

theorem plain_dot : Plain '.' :=
  ⟨by decide, by decide +kernel⟩

theorem plain_of_isNameChar (h : isNameChar c = true) : Plain c :=
  ⟨notMem_of_isNameChar h (by decide +kernel), isBlank_of_isNameChar h⟩

/-! ### Spellings -/

/-- Text in which the angle brackets are balanced and no hyphen stands. -/
inductive Balanced : List Char → Prop
  | nil : Balanced []
  | text {c : Char} {rest : List Char} (hc : c ≠ '<' ∧ c ≠ '>' ∧ c ≠ '-') (hrest : Balanced rest) :
      Balanced (c :: rest)
  | brackets {inner rest : List Char} (hinner : Balanced inner) (hrest : Balanced rest) :
      Balanced ('<' :: (inner ++ '>' :: rest))

/-- The marks that separate two segments. -/
def separators : List (List Char) :=
  [['.'], [':', ':'], ['-', '>'], ['?', '.']]

/-- The first text spells the second: it has the same characters of names, and any of the marks for
each dot. Before, between, and after them there may be blanks and bracketed type arguments. -/
inductive Spells : List Char → List Char → Prop
  | nil : Spells [] []
  | letter {c : Char} {raw name : List Char} (hc : isNameChar c = true) (h : Spells raw name) :
      Spells (c :: raw) (c :: name)
  | separator {mark raw name : List Char} (hmark : mark ∈ separators) (h : Spells raw name) :
      Spells (mark ++ raw) ('.' :: name)
  | blank {c : Char} {raw name : List Char} (hc : Text.isBlank c = true) (h : Spells raw name) :
      Spells (c :: raw) name
  | arguments {inner raw name : List Char} (hinner : Balanced inner) (h : Spells raw name) :
      Spells ('<' :: (inner ++ '>' :: raw)) name

/-! ### What is left of a spelling -/

namespace Balanced

theorem hyphen_notMem (h : Balanced inner) : '-' ∉ inner := by
  induction h with
  | nil => exact List.not_mem_nil
  | text hc _ ih =>
    rintro (_ | ⟨_, hmem⟩)
    · exact hc.2.2 rfl
    · exact ih hmem
  | brackets _ _ ihinner ihrest =>
    intro hmem
    rcases List.mem_cons.mp hmem with heq | hmem
    · exact absurd heq (by decide)
    · rcases List.mem_append.mp hmem with hmem | hmem
      · exact ihinner hmem
      · rcases List.mem_cons.mp hmem with heq | hmem
        · exact absurd heq (by decide)
        · exact ihrest hmem

/-- Writing dots in a chain leaves the brackets. -/
theorem replaceChains (h : Balanced inner) :
    Balanced (Text.replacePair '?' '.' ['.'] inner) := by
  induction h with
  | nil => exact .nil
  | @text c rest hc hrest ih =>
    cases rest with
    | nil => exact .text hc .nil
    | cons d rest =>
      rw [Text.replacePair]
      split_ifs with hpair
      · -- The dot of the pair is written for both.
        rwa [hpair.2, Text.replacePair_cons (by decide)] at ih
      · exact .text hc ih
  | @brackets inner rest _ _ ihinner ihrest =>
    rw [Text.replacePair_cons (by decide), Text.replacePair_append (by decide),
      Text.replacePair_cons (by decide)]
    exact .brackets ihinner ihrest

/-- Within brackets everything is dropped up to the one that closes them. -/
theorem dropArguments_append (h : Balanced inner) (depth : Nat) (rest : List Char) :
    dropArguments (depth + 1) (inner ++ rest) = dropArguments (depth + 1) rest := by
  induction h generalizing depth rest with
  | nil => rfl
  | text hc _ ih =>
    rw [List.cons_append, dropArguments, if_neg hc.1, if_neg hc.2.1,
      if_pos (Or.inl (Nat.succ_pos depth)), ih]
  | brackets _ _ ihinner ihrest =>
    rw [List.cons_append, List.append_assoc, List.cons_append, dropArguments, if_pos rfl, ihinner,
      dropArguments, if_neg (by decide), if_pos rfl, Nat.add_sub_cancel, ihrest]

end Balanced

theorem Plain.withDots_cons (h : Plain c) (raw : List Char) :
    withDots (c :: raw) = c :: withDots raw := by
  obtain ⟨harrow, hchain, hcolon, hopen, hclose⟩ :
      c ≠ '-' ∧ c ≠ '?' ∧ c ≠ ':' ∧ c ≠ '<' ∧ c ≠ '>' := by simpa using h.not_mark
  have hkept : ¬ (0 < 0 ∨ Text.isBlank c = true) := by simp [h.not_blank]
  rw [withDots, withDots, Text.replacePair_cons harrow, Text.replacePair_cons hchain,
    dropArguments, if_neg hopen, if_neg hclose, if_neg hkept, Text.replacePair_cons hcolon]

theorem withDots_cons_of_isBlank (h : Text.isBlank c = true) (raw : List Char) :
    withDots (c :: raw) = withDots raw := by
  have hmarks : (['-', '?', '<', '>'].all fun d => !Text.isBlank d) = true := by decide +kernel
  obtain ⟨harrow, hchain, hopen, hclose⟩ : c ≠ '-' ∧ c ≠ '?' ∧ c ≠ '<' ∧ c ≠ '>' := by
    have hmem : c ∉ ['-', '?', '<', '>'] := by
      intro hmem
      simpa [h] using List.all_eq_true.mp hmarks c hmem
    simpa using hmem
  rw [withDots, withDots, Text.replacePair_cons harrow, Text.replacePair_cons hchain,
    dropArguments, if_neg hopen, if_neg hclose, if_pos (Or.inr h)]

theorem withDots_separator {mark : List Char} (h : mark ∈ separators) (raw : List Char) :
    withDots (mark ++ raw) = '.' :: withDots raw := by
  have harrow : withDots ('-' :: '>' :: raw) = withDots ('.' :: raw) := by
    rw [withDots, withDots, Text.replacePair_pair, Text.replacePair_cons (c := '.') (by decide)]
    rfl
  have hchain : withDots ('?' :: '.' :: raw) = withDots ('.' :: raw) := by
    have hdot (ys : List Char) : Text.replacePair '-' '>' ['.'] ('.' :: ys) =
        '.' :: Text.replacePair '-' '>' ['.'] ys :=
      Text.replacePair_cons (by decide) ys
    rw [withDots, withDots, Text.replacePair_cons (c := '?') (by decide), hdot,
      Text.replacePair_pair, Text.replacePair_cons (c := '.') (by decide)]
    rfl
  have hcolons : withDots (':' :: ':' :: raw) = '.' :: withDots raw :=
    withDots_append List.not_mem_nil List.not_mem_nil raw
  simp only [separators, List.mem_cons, List.not_mem_nil, or_false] at h
  rcases h with rfl | rfl | rfl | rfl
  · exact plain_dot.withDots_cons raw
  · exact hcolons
  · exact harrow.trans (plain_dot.withDots_cons raw)
  · exact hchain.trans (plain_dot.withDots_cons raw)

theorem withDots_arguments (h : Balanced inner) (raw : List Char) :
    withDots ('<' :: (inner ++ '>' :: raw)) = withDots raw := by
  have harrows : Text.replacePair '-' '>' ['.'] ('<' :: (inner ++ '>' :: raw)) =
      '<' :: (inner ++ '>' :: Text.replacePair '-' '>' ['.'] raw) := by
    rw [Text.replacePair_cons (by decide), Text.replacePair_append_of_notMem h.hyphen_notMem,
      Text.replacePair_cons (by decide)]
  have hchains (ys : List Char) : Text.replacePair '?' '.' ['.'] ('<' :: (inner ++ '>' :: ys)) =
      '<' :: (Text.replacePair '?' '.' ['.'] inner ++ '>' :: Text.replacePair '?' '.' ['.'] ys) := by
    rw [Text.replacePair_cons (by decide), Text.replacePair_append (by decide),
      Text.replacePair_cons (by decide)]
  rw [withDots, withDots, harrows, hchains, dropArguments, if_pos rfl,
    h.replaceChains.dropArguments_append, dropArguments, if_neg (by decide), if_pos rfl]

/-- What is left of a spelling is the name. -/
theorem withDots_of_spells (h : Spells raw name) : withDots raw = name := by
  induction h with
  | nil => rfl
  | letter hc _ ih => rw [(plain_of_isNameChar hc).withDots_cons, ih]
  | separator hmark _ ih => rw [withDots_separator hmark, ih]
  | blank hc _ ih => rw [withDots_cons_of_isBlank hc, ih]
  | arguments hinner _ ih => rw [withDots_arguments hinner, ih]

/-- A text of characters of names and dots spells itself. -/
theorem spells_self (h : ∀ c ∈ raw, c = '.' ∨ isNameChar c = true) : Spells raw raw := by
  induction raw with
  | nil => exact .nil
  | cons c raw ih =>
    obtain ⟨hc, hraw⟩ := List.forall_mem_cons.mp h
    rcases hc with rfl | hc
    · have hmark : ['.'] ∈ separators := by decide
      exact .separator hmark (ih hraw)
    · exact .letter hc (ih hraw)

/-! ### Canonical names -/

/-- One segment or several, each of at least one character of names, joined by single dots. The word
`super` alone is not canonical. -/
structure IsCanonical (name : String) : Prop where
  ne_super : name ≠ "super"
  joined : ∃ parts : List String, parts ≠ [] ∧
    (∀ part ∈ parts, part ≠ "" ∧ ∀ c ∈ part.toList, isNameChar c = true) ∧
    name = Text.join "." parts

namespace IsCanonical

variable {name : String}

theorem split_eq {parts : List String} (hne : parts ≠ [])
    (hparts : ∀ part ∈ parts, part ≠ "" ∧ ∀ c ∈ part.toList, isNameChar c = true) :
    Text.split '.' (Text.join "." parts) = parts := by
  have hdot : isNameChar '.' = false := by decide +kernel
  exact Text.split_join rfl hne fun part hpart hmem =>
    ne_of_isNameChar ((hparts part hpart).2 '.' hmem) hdot rfl

theorem mem_or (h : IsCanonical name) {c : Char} (hc : c ∈ name.toList) :
    c = '.' ∨ isNameChar c = true := by
  obtain ⟨parts, hne, hparts, rfl⟩ := h.joined
  by_cases hdot : c = '.'
  · exact Or.inl hdot
  · obtain ⟨field, hfield, hmem⟩ :=
      Text.exists_mem_splitChars (· == '.') hc (by simpa using hdot)
    have hpart : String.ofList field ∈ parts :=
      split_eq hne hparts ▸ List.mem_map_of_mem hfield
    exact Or.inr ((hparts _ hpart).2 c (by rwa [String.toList_ofList]))

/-- A canonical name is what is left of itself. -/
theorem withDots_eq (h : IsCanonical name) : withDots name.toList = name.toList :=
  withDots_of_spells (spells_self fun _ hc => h.mem_or hc)

theorem bare (h : IsCanonical name) {c : Char} (hc : c ∈ name.toList) :
    c ≠ '<' ∧ isSigil c = false := by
  rcases h.mem_or hc with rfl | hname
  · decide
  · have hmem : c ∉ ['<', '&', '*', '@'] := notMem_of_isNameChar hname (by decide +kernel)
    simpa [isSigil, and_assoc] using hmem

/-- The words of a canonical name are its segments. -/
theorem words_eq {parts : List String} (h : IsCanonical (Text.join "." parts)) (hne : parts ≠ [])
    (hparts : ∀ part ∈ parts, part ≠ "" ∧ ∀ c ∈ part.toList, isNameChar c = true) :
    words (Text.join "." parts) = parts := by
  have hsplit := split_eq hne hparts
  have hfilled : ∀ field ∈ Text.splitChars (· == '.') (Text.join "." parts).toList,
      (!field.isEmpty) = true := by
    intro field hfield
    have hpart : String.ofList field ∈ parts := hsplit ▸ List.mem_map_of_mem hfield
    rw [Bool.not_eq_true', Bool.eq_false_iff, ne_eq, List.isEmpty_iff]
    rintro rfl
    exact (hparts _ hpart).1 rfl
  rw [words, segments, dropWhile_isSigil fun c hc => (h.bare hc).2, h.withDots_eq,
    List.filter_eq_self.mpr hfilled]
  exact hsplit

theorem isPath (h : IsCanonical name) : IsPath name where
  bare := fun _ hc => h.bare hc
  isNamed := by
    refine isNamed_iff.mpr fun c hc => h.mem_or ?_
    have hmem := (List.dropWhile_sublist isSigil).subset hc
    rwa [h.withDots_eq] at hmem
  ne_nil := by
    obtain ⟨parts, hne, hparts, rfl⟩ := h.joined
    rwa [h.words_eq hne hparts]

/-- A canonical name is its own. -/
theorem normalize?_eq (h : IsCanonical name) : normalize? name = some name := by
  obtain ⟨parts, hne, hparts, rfl⟩ := h.joined
  rw [h.isPath.normalize?_eq, h.words_eq hne hparts, if_neg]
  rintro rfl
  exact h.ne_super (Text.join_singleton "." "super")

end IsCanonical

theorem isCanonical_of_normalize? {raw name : String} (h : normalize? raw = some name) :
    IsCanonical name := by
  unfold normalize? at h
  simp only at h
  split_ifs at h with hempty hchars hsuper
  obtain rfl := Option.some.inj h
  have hne : (segments raw).map String.ofList ≠ [] := by simpa using hempty
  have hparts : ∀ part ∈ (segments raw).map String.ofList,
      part ≠ "" ∧ ∀ c ∈ part.toList, isNameChar c = true := by
    intro part hpart
    refine ⟨(isWord_of_mem_words hpart).1, fun c hc => ?_⟩
    obtain ⟨segment, hsegment, rfl⟩ := List.mem_map.mp hpart
    have hall : ((segments raw).all fun segment => segment.all isNameChar) = true := by
      simpa using hchars
    rw [String.toList_ofList] at hc
    exact all_isNameChar_iff.mp hall segment hsegment c hc
  refine ⟨fun heq => hsuper ?_, _, hne, hparts, rfl⟩
  have hsplit := IsCanonical.split_eq hne hparts
  have hword : Text.split '.' "super" = ["super"] := by decide
  rw [heq, hword] at hsplit
  obtain ⟨segment, hsegment, hspelled⟩ := List.map_eq_singleton_iff.mp hsplit.symm
  rw [hsegment, ← hspelled, String.toList_ofList]

/-- Only the segments decide on the canonical name. -/
theorem normalize?_congr {raw other : String} (h : segments raw = segments other) :
    normalize? raw = normalize? other := by
  simp only [normalize?, h]

/-- The canonical name of a text has the form of canonical names, is its own canonical name, and is
that of all its spellings. -/
theorem normalize?_canonical {raw name : String} (h : normalize? raw = some name) :
    IsCanonical name ∧ normalize? name = some name ∧
    ∀ spelling : String, Spells spelling.toList name.toList → normalize? spelling = some name := by
  have hcanonical := isCanonical_of_normalize? h
  refine ⟨hcanonical, hcanonical.normalize?_eq, fun spelling hspells => ?_⟩
  have hsegments : segments spelling = segments name := by
    rw [segments, segments, withDots_of_spells hspells, hcanonical.withDots_eq]
  rw [normalize?_congr hsegments, hcanonical.normalize?_eq]

theorem normalize?_canonical_arrow :
    normalize? "&a::<T>::b" = some "a.b" ∧ IsCanonical "a.b" ∧ normalize? "a.b" = some "a.b" ∧
    normalize? " a ->b<A<B>>" = some "a.b" := by
  have h : normalize? "&a::<T>::b" = some "a.b" := by decide +kernel
  have harguments : Balanced ['A', '<', 'B', '>'] :=
    .text (by decide) (.brackets (.text (c := 'B') (by decide) .nil) .nil)
  have harrow : ['-', '>'] ∈ separators := by decide
  have hspells : Spells " a ->b<A<B>>".toList "a.b".toList :=
    .blank (by decide +kernel) <| .letter (by decide +kernel) <| .blank (by decide +kernel) <|
      .separator harrow <| .letter (by decide +kernel) <| .arguments harguments .nil
  obtain ⟨hcanonical, hself, hspellings⟩ := normalize?_canonical h
  exact ⟨h, hcanonical, hself, hspellings _ hspells⟩

end Symbol

end CodeAtlas
