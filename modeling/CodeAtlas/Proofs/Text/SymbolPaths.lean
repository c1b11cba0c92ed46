import CodeAtlas.Proofs.Text.Segments
import CodeAtlas.Symbol

/-!
# Paths of symbols

Code joins the names along a path by double colons. The canonical name of such a text is made of its
words, and the words of two paths that are written one after the other are those of the first and
then those of the second. A text that is no name spoils the path it stands in.

## Main definitions

* `Symbol.words`: the words of a symbol's text.
* `Symbol.IsPath`: the text is a path of plain names.

## Main results

* `Symbol.IsPath.words_join`: the words of joined paths.
* `Symbol.IsPath.normalize?_eq`: the canonical name of a path.
* `Symbol.not_isNamed_join`: a path that ends in no name has no canonical name.
-/

namespace CodeAtlas

/-! ### Replacing pairs -/

namespace Text

variable {a b c : Char} {new xs : List Char}

theorem replacePair_cons (hc : c ≠ a) (ys : List Char) :
    replacePair a b new (c :: ys) = c :: replacePair a b new ys := by
  cases ys with
  | nil => rfl
  | cons d ys => rw [replacePair, if_neg (by simp [hc])]

/-- No pair is made of what stands on both sides of a character that ends none. -/
theorem replacePair_append (hc : c ≠ b) (xs ys : List Char) :
    replacePair a b new (xs ++ c :: ys) =
      replacePair a b new xs ++ replacePair a b new (c :: ys) := by
  fun_induction replacePair a b new xs with
  | case1 => rfl
  | case2 d => rw [List.singleton_append, replacePair, if_neg (by simp [hc])]; rfl
  | case3 d e rest hpair ih =>
    rw [List.cons_append, List.cons_append, replacePair, if_pos hpair, ih, List.append_assoc]
  | case4 d e rest hpair ih =>
    rw [List.cons_append, List.cons_append, replacePair, if_neg hpair, ← List.cons_append, ih,
      List.cons_append]

/-- A pair of equal characters is replaced where it stands, if none of them is left over before. -/
theorem replacePair_append_pair (hxs : a ∉ replacePair a a new xs) (ys : List Char) :
    replacePair a a new (xs ++ a :: a :: ys) =
      replacePair a a new xs ++ (new ++ replacePair a a new ys) := by
  fun_induction replacePair a a new xs with
  | case1 => rw [List.nil_append, replacePair, if_pos ⟨rfl, rfl⟩]; rfl
  | case2 d =>
    have hd : d ≠ a := fun heq => hxs (by simp [heq])
    rw [List.singleton_append, replacePair_cons hd, replacePair, if_pos ⟨rfl, rfl⟩]
    rfl
  | case3 d e rest hpair ih =>
    rw [List.cons_append, List.cons_append, replacePair, if_pos hpair,
      ih fun hmem => hxs (List.mem_append_right _ hmem), List.append_assoc]
  | case4 d e rest hpair ih =>
    rw [List.cons_append, List.cons_append, replacePair, if_neg hpair, ← List.cons_append,
      ih fun hmem => hxs (List.mem_cons_of_mem _ hmem), List.cons_append]

theorem mem_replacePair (h : c ∈ replacePair a b new xs) : c ∈ xs ∨ c ∈ new := by
  fun_induction replacePair a b new xs with
  | case1 => exact absurd h List.not_mem_nil
  | case2 d => exact Or.inl h
  | case3 d e rest hpair ih =>
    rcases List.mem_append.mp h with h | h
    · exact Or.inr h
    · exact (ih h).imp_left fun hmem => List.mem_cons_of_mem _ (List.mem_cons_of_mem _ hmem)
  | case4 d e rest hpair ih =>
    rcases List.mem_cons.mp h with rfl | h
    · exact Or.inl List.mem_cons_self
    · exact (ih h).imp_left (List.mem_cons_of_mem _)

end Text

namespace Symbol

/-! ### Texts with dots -/

theorem mem_dropArguments {depth : Nat} {c : Char} {cs : List Char}
    (h : c ∈ dropArguments depth cs) : c ∈ cs := by
  fun_induction dropArguments depth cs with
  | case1 => exact absurd h List.not_mem_nil
  | case2 depth rest ih => exact List.mem_cons_of_mem _ (ih h)
  | case3 depth rest _ ih => exact List.mem_cons_of_mem _ (ih h)
  | case4 depth d rest _ _ _ ih => exact List.mem_cons_of_mem _ (ih h)
  | case5 depth d rest _ _ _ ih =>
    rcases List.mem_cons.mp h with rfl | h
    · exact List.mem_cons_self
    · exact List.mem_cons_of_mem _ (ih h)

/-- Nothing is open after a text that opens no bracket. -/
theorem dropArguments_append {xs : List Char} (h : '<' ∉ xs) (ys : List Char) :
    dropArguments 0 (xs ++ ys) = dropArguments 0 xs ++ dropArguments 0 ys := by
  induction xs with
  | nil => rfl
  | cons c xs ih =>
    obtain ⟨hc, hxs⟩ := not_or.mp (mt List.mem_cons.mpr h)
    rw [List.cons_append, dropArguments, dropArguments, if_neg (Ne.symm hc), if_neg (Ne.symm hc),
      ih hxs]
    split_ifs <;> rfl

theorem mem_withDots {c : Char} {cs : List Char} (h : c ∈ withDots cs) : c ∈ cs ∨ c = '.' := by
  rcases Text.mem_replacePair h with h | h
  · rcases Text.mem_replacePair (mem_dropArguments h) with h | h
    · exact (Text.mem_replacePair h).imp_right List.mem_singleton.mp
    · exact Or.inr (List.mem_singleton.mp h)
  · exact Or.inr (List.mem_singleton.mp h)

/-- Double colons between two texts become a dot between them. -/
theorem withDots_append {xs : List Char} (hopen : '<' ∉ xs) (hcolon : ':' ∉ withDots xs)
    (ys : List Char) : withDots (xs ++ ':' :: ':' :: ys) = withDots xs ++ '.' :: withDots ys := by
  have harrows : Text.replacePair '-' '>' ['.'] (xs ++ ':' :: ':' :: ys) =
      Text.replacePair '-' '>' ['.'] xs ++ ':' :: ':' :: Text.replacePair '-' '>' ['.'] ys := by
    rw [Text.replacePair_append (by decide), Text.replacePair_cons (by decide),
      Text.replacePair_cons (by decide)]
  have hchains (us vs : List Char) : Text.replacePair '?' '.' ['.'] (us ++ ':' :: ':' :: vs) =
      Text.replacePair '?' '.' ['.'] us ++ ':' :: ':' :: Text.replacePair '?' '.' ['.'] vs := by
    rw [Text.replacePair_append (by decide), Text.replacePair_cons (by decide),
      Text.replacePair_cons (by decide)]
  have hbrackets : '<' ∉ Text.replacePair '?' '.' ['.'] (Text.replacePair '-' '>' ['.'] xs) := by
    intro hmem
    rcases Text.mem_replacePair hmem with hmem | hmem
    · rcases Text.mem_replacePair hmem with hmem | hmem
      · exact hopen hmem
      · exact absurd hmem (by decide)
    · exact absurd hmem (by decide)
  have hcolons (vs : List Char) :
      dropArguments 0 (':' :: ':' :: vs) = ':' :: ':' :: dropArguments 0 vs := by
    have hblank : Text.isBlank ':' = false := by decide +kernel
    simp [dropArguments, hblank]
  simp only [withDots, harrows, hchains]
  rw [dropArguments_append hbrackets, hcolons]
  exact Text.replacePair_append_pair hcolon _

/-! ### Words -/

/-- The words of a symbol's text. -/
def words (raw : String) : List String :=
  (segments raw).map String.ofList

/-- A word of a name: it is not empty and holds no dot. -/
def IsWord (word : String) : Prop :=
  word ≠ "" ∧ '.' ∉ word.toList

theorem isWord_of_mem_words {raw word : String} (h : word ∈ words raw) : IsWord word := by
  obtain ⟨segment, hsegment, rfl⟩ := List.mem_map.mp h
  obtain ⟨hfield, hne⟩ := List.mem_filter.mp hsegment
  refine ⟨by simpa using hne, fun hdot => ?_⟩
  rw [String.toList_ofList] at hdot
  exact Bool.noConfusion (Text.sep_eq_false_of_mem_splitChars hfield hdot)

/-- The words of the text are made of the characters of names. -/
def IsNamed (raw : String) : Prop :=
  ∀ segment ∈ segments raw, ∀ c ∈ segment, isNameChar c = true

theorem all_isNameChar_iff {raw : String} :
    ((segments raw).all fun segment => segment.all isNameChar) = true ↔ IsNamed raw := by
  simp [IsNamed]

instance (raw : String) : Decidable (IsNamed raw) :=
  decidable_of_iff _ all_isNameChar_iff

theorem isNamed_iff {raw : String} :
    IsNamed raw ↔
      ∀ c ∈ (withDots raw.toList).dropWhile isSigil, c = '.' ∨ isNameChar c = true := by
  constructor
  · intro h c hc
    by_cases hdot : c = '.'
    · exact Or.inl hdot
    · obtain ⟨field, hfield, hmem⟩ :=
        Text.exists_mem_splitChars (· == '.') hc (by simpa using hdot)
      have hne : field ≠ [] := List.ne_nil_of_mem hmem
      exact Or.inr (h field (List.mem_filter.mpr ⟨hfield, by simpa using hne⟩) c hmem)
  · intro h segment hsegment c hc
    have hfield := (List.mem_filter.mp hsegment).1
    refine (h c (Text.mem_of_mem_splitChars hfield hc)).resolve_left fun hdot => ?_
    simpa [hdot] using Text.sep_eq_false_of_mem_splitChars hfield hc

theorem normalize?_of_not_isNamed {raw : String} (h : ¬ IsNamed raw) : normalize? raw = none := by
  have hall : ((segments raw).all fun segment => segment.all isNameChar) = false :=
    Bool.eq_false_iff.mpr (mt all_isNameChar_iff.mp h)
  unfold normalize?
  simp [hall]

/-- The text is a path of plain names: it opens no bracket, has no marks, and is made of words. -/
structure IsPath (raw : String) : Prop where
  bare : ∀ c ∈ raw.toList, c ≠ '<' ∧ isSigil c = false
  isNamed : IsNamed raw
  ne_nil : words raw ≠ []

instance (raw : String) : Decidable (IsPath raw) :=
  decidable_of_iff
    ((raw.toList.all fun c => c != '<' && !isSigil c) = true ∧ IsNamed raw ∧ words raw ≠ [])
    ⟨fun h => ⟨by simpa using h.1, h.2.1, h.2.2⟩,
      fun h => ⟨by simpa using h.bare, h.isNamed, h.ne_nil⟩⟩

/-- No mark is dropped from a text that holds none. -/
theorem dropWhile_isSigil {cs : List Char} (h : ∀ c ∈ cs, isSigil c = false) :
    (withDots cs).dropWhile isSigil = withDots cs := by
  have hbare : ∀ c ∈ withDots cs, isSigil c = false := by
    intro c hc
    rcases mem_withDots hc with hc | rfl
    · exact h c hc
    · rfl
  cases hdots : withDots cs with
  | nil => rfl
  | cons c rest =>
    rw [List.dropWhile_cons_of_neg]
    simp [hbare c (hdots ▸ List.mem_cons_self)]

namespace IsPath

variable {raw outer inner : String}

/-- The canonical name of a path is made of its words, unless the path is the word `super`. -/
theorem normalize?_eq (h : IsPath raw) :
    normalize? raw = if words raw = ["super"] then none else some (Text.join "." (words raw)) := by
  have hall := all_isNameChar_iff.mpr h.isNamed
  have hne : (segments raw).isEmpty = false := by simpa [words] using h.ne_nil
  have hsuper : segments raw = ["super".toList] ↔ words raw = ["super"] := by
    rw [words, List.map_eq_singleton_iff]
    constructor
    · intro heq
      exact ⟨_, heq, String.ofList_toList⟩
    · rintro ⟨segment, heq, hsegment⟩
      rw [heq, ← hsegment, String.toList_ofList]
  simp only [normalize?, hall, hne, Bool.not_true, Bool.false_eq_true, if_false]
  exact if_congr hsuper rfl rfl

/-- What follows a path is split on its own. -/
theorem segments_append (h : IsPath outer) (inner : String) :
    segments (outer ++ "::" ++ inner) = segments outer ++
      (Text.splitChars (· == '.') (withDots inner.toList)).filter (!·.isEmpty) := by
  have hopen : '<' ∉ outer.toList := fun hmem => (h.bare '<' hmem).1 rfl
  have hmarks := dropWhile_isSigil fun c hc => (h.bare c hc).2
  have hcolon : ':' ∉ withDots outer.toList := by
    intro hmem
    rw [← hmarks] at hmem
    exact absurd (isNamed_iff.mp h.isNamed ':' hmem) (by decide +kernel)
  have hdots : withDots (outer ++ "::" ++ inner).toList =
      withDots outer.toList ++ '.' :: withDots inner.toList := by
    rw [String.toList_append, String.toList_append, List.append_assoc]
    exact withDots_append hopen hcolon inner.toList
  have hdrop : (withDots outer.toList ++ '.' :: withDots inner.toList).dropWhile isSigil =
      withDots outer.toList ++ '.' :: withDots inner.toList := by
    rw [List.dropWhile_append, hmarks]
    split
    · rename_i hempty
      rw [List.isEmpty_iff.mp hempty, List.dropWhile_cons_of_neg (by decide), List.nil_append]
    · rfl
  simp only [segments, hdots, hdrop, hmarks]
  rw [Text.splitChars_append (by rfl), List.filter_append]

theorem words_append (h : IsPath outer) (hinner : IsPath inner) :
    words (outer ++ "::" ++ inner) = words outer ++ words inner := by
  rw [words, h.segments_append, List.map_append]
  have hmarks := dropWhile_isSigil fun c hc => (hinner.bare c hc).2
  rw [words, words, segments, segments, hmarks]

/-- Two paths make a path. -/
theorem append (h : IsPath outer) (hinner : IsPath inner) : IsPath (outer ++ "::" ++ inner) where
  bare := by
    simp only [String.toList_append, List.mem_append]
    rintro c ((hc | hc) | hc)
    · exact h.bare c hc
    · obtain rfl : c = ':' := by simpa using hc
      exact ⟨by decide, by decide⟩
    · exact hinner.bare c hc
  isNamed := by
    intro segment hsegment
    have hword : String.ofList segment ∈ words outer ++ words inner :=
      h.words_append hinner ▸ List.mem_map_of_mem hsegment
    rw [words, words, ← List.map_append,
      List.mem_map_of_injective fun _ _ => String.ofList_inj.mp] at hword
    rcases List.mem_append.mp hword with hmem | hmem
    · exact h.isNamed segment hmem
    · exact hinner.isNamed segment hmem
  ne_nil := by simp [h.words_append hinner, h.ne_nil]

/-- What follows a path and is no name spoils it. -/
theorem not_isNamed_append (h : IsPath outer) (hinner : ¬ IsNamed inner) :
    ¬ IsNamed (outer ++ "::" ++ inner) := by
  intro hnamed
  refine hinner (isNamed_iff.mpr fun c hc => ?_)
  have hdots : c ∈ withDots inner.toList := (List.dropWhile_sublist isSigil).subset hc
  by_cases hdot : c = '.'
  · exact Or.inl hdot
  · obtain ⟨field, hfield, hmem⟩ :=
      Text.exists_mem_splitChars (· == '.') hdots (by simpa using hdot)
    have hne : field ≠ [] := List.ne_nil_of_mem hmem
    refine Or.inr (hnamed field ?_ c hmem)
    rw [h.segments_append]
    exact List.mem_append_right _ (List.mem_filter.mpr ⟨hfield, by simpa using hne⟩)

/-- Paths that are joined make a path with all their words. -/
theorem words_join {paths : List String} (hne : paths ≠ []) (h : ∀ path ∈ paths, IsPath path) :
    IsPath (Text.join "::" paths) ∧ words (Text.join "::" paths) = paths.flatMap words := by
  induction paths using List.reverseRecOn with
  | nil => exact absurd rfl hne
  | append_singleton front last ih =>
    have hlast := h last (by simp)
    by_cases hfront : front = []
    · simpa [hfront, Text.join_singleton] using hlast
    · obtain ⟨hpath, hwords⟩ := ih hfront fun path hmem => h path (List.mem_append_left _ hmem)
      rw [Text.join_append hfront (by simp), Text.join_singleton]
      refine ⟨hpath.append hlast, ?_⟩
      rw [hpath.words_append hlast, hwords, List.flatMap_append, List.flatMap_singleton]

end IsPath

/-- A path that ends in no name has no canonical name. -/
theorem not_isNamed_join {front : List String} {last : String} (h : ∀ path ∈ front, IsPath path)
    (hlast : ¬ IsNamed last) : ¬ IsNamed (Text.join "::" (front ++ [last])) := by
  by_cases hfront : front = []
  · simpa [hfront, Text.join_singleton] using hlast
  · rw [Text.join_append hfront (by simp), Text.join_singleton]
    exact (IsPath.words_join hfront h).1.not_isNamed_append hlast

end Symbol

end CodeAtlas
