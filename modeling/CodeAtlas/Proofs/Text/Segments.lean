import CodeAtlas.Proofs.PathText
import CodeAtlas.Proofs.Text.Clear
import CodeAtlas.Text.LetterCase
import Mathlib.Data.List.Induction

/-!
# Paths and names as segments

A path is a list of segments joined by slashes, and the name of a module is a list of segments
joined by dots. Segments that hold no separator are what splitting gives back, so a joined text
determines them. The module of a file is named by the directories of the file and by its own name up
to the last dot.

## Main definitions

* `FilePath`: the path of a file of a language, by its parts.

## Main results

* `Text.split_join`, `Text.join_split`: splitting undoes joining, and joining undoes splitting.
* `Text.split_suffix_split_iff`: what ends with the segments of a text.
* `Language.withoutExtension_join`: only the last segment of a path loses its extension.
* `FilePath.modulePath_text`: the module of a file, by the parts of its path.
-/

namespace CodeAtlas

namespace Text

/-! ### Cutting -/

theorem cutFirst?_append {sep : Char} {before : List Char} (h : sep ∉ before) (after : List Char) :
    cutFirst? sep (before ++ sep :: after) = some (before, after) := by
  induction before with
  | nil => simp [cutFirst?]
  | cons c before ih =>
    obtain ⟨hc, hbefore⟩ := not_or.mp (mt List.mem_cons.mpr h)
    have hne : (c == sep) = false := by simpa using fun heq : c = sep => hc heq.symm
    simp [cutFirst?, hne, ih hbefore]

theorem cutFirst?_eq_none {sep : Char} {cs : List Char} (h : sep ∉ cs) :
    cutFirst? sep cs = none := by
  induction cs with
  | nil => rfl
  | cons c cs ih =>
    obtain ⟨hc, hcs⟩ := not_or.mp (mt List.mem_cons.mpr h)
    have hne : (c == sep) = false := by simpa using fun heq : c = sep => hc heq.symm
    simp [cutFirst?, hne, ih hcs]

theorem cutLast?_append {sep : Char} {after : List Char} (h : sep ∉ after) (before : List Char) :
    cutLast? sep (before ++ sep :: after) = some (before, after) := by
  have hreverse : (before ++ sep :: after).reverse = after.reverse ++ sep :: before.reverse := by
    simp
  rw [cutLast?, hreverse, cutFirst?_append (by simpa using h)]
  simp

theorem cutLast?_eq_none {sep : Char} {cs : List Char} (h : sep ∉ cs) : cutLast? sep cs = none := by
  rw [cutLast?, cutFirst?_eq_none (by simpa using h), Option.map_none]

theorem afterStart?_eq_some_iff {start s rest : String} :
    afterStart? start s = some rest ↔ s = start ++ rest := by
  rw [afterStart?, Option.map_eq_some_iff]
  constructor
  · rintro ⟨chars, hchars, rfl⟩
    rw [← String.toList_inj, ← List.isPrefixOf?_eq_some_iff_append_eq.mp hchars]
    simp
  · rintro rfl
    exact ⟨rest.toList, List.isPrefixOf?_eq_some_iff_append_eq.mpr (by simp), by simp⟩

/-! ### Joining -/

theorem join_singleton (sep part : String) : join sep [part] = part := by
  simp [join]

theorem join_append {sep : String} {front back : List String} (hfront : front ≠ [])
    (hback : back ≠ []) : join sep (front ++ back) = join sep front ++ sep ++ join sep back := by
  induction front with
  | nil => exact absurd rfl hfront
  | cons first front ih =>
    cases front with
    | nil =>
      obtain ⟨second, rest, rfl⟩ := List.exists_cons_of_ne_nil hback
      simp [join]
    | cons second front =>
      have hrest := ih (by simp)
      simp only [join, List.cons_append, String.intercalate_cons_cons] at hrest ⊢
      rw [hrest]
      simp only [String.append_assoc]

/-- What is appended to a joined text is appended to its last part. -/
theorem join_concat_append (sep : String) (front : List String) (last suffix : String) :
    join sep (front ++ [last]) ++ suffix = join sep (front ++ [last ++ suffix]) := by
  by_cases hfront : front = []
  · simp [hfront, join_singleton]
  · rw [join_append hfront (by simp), join_append hfront (by simp), join_singleton, join_singleton]
    simp only [String.append_assoc]

theorem join_concat_inj {sep : String} {front : List String} {last other : String} :
    join sep (front ++ [last]) = join sep (front ++ [other]) ↔ last = other := by
  by_cases hfront : front = []
  · simp [hfront, join_singleton]
  · rw [join_append hfront (by simp), join_append hfront (by simp), join_singleton, join_singleton]
    exact String.append_right_inj _

theorem toList_join_append_singleton (sep : String) {front : List String} (h : front ≠ [])
    (last : String) :
    (join sep (front ++ [last])).toList =
      (join sep front).toList ++ (sep.toList ++ last.toList) := by
  rw [join_append h (by simp), join_singleton]
  simp

/-- Splitting at a separator undoes joining with it. -/
theorem split_join {sep : Char} {between : String} (hbetween : between.toList = [sep])
    {parts : List String} (hne : parts ≠ []) (h : ∀ part ∈ parts, sep ∉ part.toList) :
    split sep (join between parts) = parts := by
  induction parts using List.reverseRecOn with
  | nil => exact absurd rfl hne
  | append_singleton front last ih =>
    have hlast := splitChars_of_notMem (h last (by simp))
    by_cases hfront : front = []
    · simp [hfront, join_singleton, split, hlast]
    · have hrest := ih hfront fun part hpart => h part (List.mem_append_left _ hpart)
      rw [split] at hrest
      rw [split, toList_join_append_singleton between hfront, hbetween, List.singleton_append,
        splitChars_append (by simp), List.map_append, hrest, hlast]
      simp

/-- The segments before and after a separator. -/
theorem split_append {sep : Char} {between : String} (hbetween : between.toList = [sep])
    (front back : String) :
    split sep (front ++ between ++ back) = split sep front ++ split sep back := by
  rw [split, String.toList_append, String.toList_append, hbetween, List.append_assoc,
    List.singleton_append, splitChars_append (by simp), List.map_append]
  rfl

/-- A segment is peeled off up to the first separator. -/
theorem split_append_of_notMem {sep : Char} {between : String} (hbetween : between.toList = [sep])
    {front : String} (h : sep ∉ front.toList) (back : String) :
    split sep (front ++ between ++ back) = front :: split sep back := by
  rw [split_append hbetween, split_of_notMem h, List.singleton_append]

theorem split_ne_nil (sep : Char) (s : String) : split sep s ≠ [] :=
  fun h => splitChars_ne_nil _ _ (List.map_eq_nil_iff.mp h)

/-- What stands before a joined text stands before its first part. -/
theorem join_cons_append (sep lead first : String) (rest : List String) :
    join sep ((lead ++ first) :: rest) = lead ++ join sep (first :: rest) := by
  cases rest with
  | nil => rw [join_singleton, join_singleton]
  | cons second rest => simp only [join, String.intercalate_cons_cons, String.append_assoc]

/-- Joining with a separator undoes splitting at it. -/
theorem join_split {sep : Char} {between : String} (hbetween : between.toList = [sep])
    (s : String) : join between (split sep s) = s := by
  obtain ⟨cs, rfl⟩ : ∃ cs, s = String.ofList cs := ⟨s.toList, String.ofList_toList.symm⟩
  rw [split, String.toList_ofList]
  induction cs with
  | nil => exact join_singleton _ _
  | cons c rest ih =>
    rw [splitChars]
    split
    · rename_i hc
      have hrest : (splitChars (· == sep) rest).map String.ofList ≠ [] :=
        fun h => splitChars_ne_nil _ _ (List.map_eq_nil_iff.mp h)
      rw [List.map_cons, ← List.singleton_append, join_append (by simp) hrest, ih, join_singleton,
        ← String.toList_inj, beq_iff_eq.mp hc]
      simp [hbetween]
    · cases hfields : splitChars (· == sep) rest with
      | nil => exact absurd hfields (splitChars_ne_nil _ _)
      | cons field fields =>
        have hlead (cs : List Char) :
            String.ofList (c :: cs) = String.ofList [c] ++ String.ofList cs :=
          (congrArg String.ofList List.singleton_append.symm).trans String.ofList_append
        rw [hfields, List.map_cons] at ih
        simp only [List.map_cons]
        rw [hlead, join_cons_append, ih]
        exact (hlead rest).symm

/-- The segments of a text end with those of another when it is the other or ends with it after a
separator. -/
theorem split_suffix_split_iff {sep : Char} {between : String} (hbetween : between.toList = [sep])
    (ending s : String) :
    split sep ending <:+ split sep s ↔ s = ending ∨ endsWith (between ++ ending) s = true := by
  rw [endsWith, List.isSuffixOf_iff_suffix]
  constructor
  · rintro ⟨front, hfront⟩
    rw [← join_split hbetween s, ← hfront]
    by_cases hnil : front = []
    · left
      rw [hnil, List.nil_append, join_split hbetween]
    · right
      rw [join_append hnil (split_ne_nil sep ending), join_split hbetween, String.append_assoc]
      exact ⟨(join between front).toList, String.toList_append.symm⟩
  · rintro (rfl | ⟨front, hfront⟩)
    · exact List.suffix_refl _
    · have hs : s = String.ofList front ++ between ++ ending := by
        rw [← String.toList_inj, ← hfront]
        simp
      rw [hs, split_append hbetween]
      exact List.suffix_append _ _

/-- Segments without the separator are determined by the text they are joined to. -/
theorem join_inj {sep : Char} {between : String} (hbetween : between.toList = [sep])
    {parts others : List String} (hne : parts ≠ []) (hne' : others ≠ [])
    (h : ∀ part ∈ parts, sep ∉ part.toList) (h' : ∀ part ∈ others, sep ∉ part.toList) :
    join between parts = join between others ↔ parts = others := by
  constructor
  · intro heq
    rw [← split_join hbetween hne h, ← split_join hbetween hne' h', heq]
  · exact congrArg _

/-- Parts that are not empty have a text that is not empty. -/
theorem join_ne_empty {sep : String} {parts : List String} (hne : parts ≠ [])
    (h : ∀ part ∈ parts, part ≠ "") : join sep parts ≠ "" := by
  obtain ⟨front, last, rfl⟩ : ∃ front last, parts = front ++ [last] :=
    ⟨_, _, (List.dropLast_append_getLast hne).symm⟩
  have hlast := h last (by simp)
  by_cases hfront : front = []
  · simpa [hfront, join_singleton] using hlast
  · rw [join_append hfront (by simp), join_singleton]
    simp [hlast]

/-- A joined text starts as its first part does. -/
theorem head?_join_cons {sep first : String} (hne : first ≠ "") (rest : List String) :
    (join sep (first :: rest)).toList.head? = first.toList.head? := by
  have hchars : first.toList ≠ [] := by simpa using hne
  obtain ⟨c, cs, hfirst⟩ := List.exists_cons_of_ne_nil hchars
  cases rest with
  | nil => rw [join_singleton]
  | cons second rest => simp [join, hfirst]

theorem replaceChar_append (old new : Char) (s t : String) :
    replaceChar old new (s ++ t) = replaceChar old new s ++ replaceChar old new t := by
  rw [← String.toList_inj]
  simp [replaceChar]

theorem replaceChar_of_notMem {old : Char} (new : Char) {s : String} (h : old ∉ s.toList) :
    replaceChar old new s = s := by
  rw [← String.toList_inj, replaceChar, String.toList_map]
  conv_rhs => rw [← List.map_id s.toList]
  refine List.map_congr_left fun c hc => if_neg ?_
  rintro rfl
  exact h hc

/-- Slashes between segments become dots. -/
theorem replaceChar_join {parts : List String} (h : ∀ part ∈ parts, '/' ∉ part.toList) :
    replaceChar '/' '.' (join "/" parts) = join "." parts := by
  induction parts using List.reverseRecOn with
  | nil => decide +kernel
  | append_singleton front last ih =>
    have hlast := replaceChar_of_notMem '.' (h last (by simp))
    by_cases hfront : front = []
    · simpa [hfront, join_singleton] using hlast
    · have hrest := ih fun part hpart => h part (List.mem_append_left _ hpart)
      have hslash : replaceChar '/' '.' "/" = "." := by decide +kernel
      rw [join_append hfront (by simp), join_append hfront (by simp), join_singleton,
        join_singleton, replaceChar_append, replaceChar_append, hrest, hlast, hslash]

end Text

/-- Names of which none is empty are qualified by joining their segments. -/
theorem Symbol.qualify_join {outer inner : List String} (hinner : inner ≠ [])
    (h : ∀ segment ∈ outer ++ inner, segment ≠ "") :
    qualify (Text.join "." outer) (Text.join "." inner) = Text.join "." (outer ++ inner) := by
  have hinner' : Text.join "." inner ≠ "" :=
    Text.join_ne_empty hinner fun segment hsegment => h segment (List.mem_append_right _ hsegment)
  by_cases houter : outer = []
  · have hempty : Text.join "." [] = "" := by decide
    rw [houter, hempty, qualify, if_pos rfl, List.nil_append]
  · have houter' : Text.join "." outer ≠ "" :=
      Text.join_ne_empty houter fun segment hsegment => h segment (List.mem_append_left _ hsegment)
    rw [qualify, if_neg houter', if_neg hinner', Text.join_append houter hinner]

/-! ### Extensions -/

namespace Language

/-- A name of one segment without its extension: what stands before its last dot, unless that is
its first character. -/
theorem withoutExtension_of_notMem {name : String} (h : '/' ∉ name.toList) :
    withoutExtension name =
      match Text.cutLast? '.' name.toList with
      | some (before, _) => if before.isEmpty then name else String.ofList before
      | none => name := by
  rw [withoutExtension, Text.cutLast?_eq_none h]
  rfl

/-- Only the last segment of a path loses its extension. -/
theorem withoutExtension_join (folders : List String) {name : String} (h : '/' ∉ name.toList) :
    withoutExtension (Text.join "/" (folders ++ [name])) =
      Text.join "/" (folders ++ [withoutExtension name]) := by
  by_cases hfolders : folders = []
  · simp [hfolders, Text.join_singleton]
  · have htext : (Text.join "/" (folders ++ [name])).toList =
        (Text.join "/" folders).toList ++ '/' :: name.toList :=
      Text.toList_join_append_singleton "/" hfolders name
    have hjoin (last : String) : Text.join "/" (folders ++ [last]) =
        Text.join "/" folders ++ "/" ++ last := by
      rw [Text.join_append hfolders (by simp), Text.join_singleton]
    rw [withoutExtension, htext, Text.cutLast?_append h, withoutExtension_of_notMem h]
    cases hcut : Text.cutLast? '.' name.toList with
    | none => simp only [hcut]
    | some cut =>
      simp only [hcut]
      split
      · rfl
      · rw [hjoin, ← String.toList_inj]
        simp

theorem withoutExtension_append {stem extension : String} (hstem : stem ≠ "")
    (hslash : '/' ∉ (stem ++ "." ++ extension).toList) (hdot : '.' ∉ extension.toList) :
    withoutExtension (stem ++ "." ++ extension) = stem := by
  have htext : (stem ++ "." ++ extension).toList = stem.toList ++ '.' :: extension.toList := by
    simp
  have hne : stem.toList.isEmpty = false := by
    simpa [List.isEmpty_iff] using hstem
  rw [withoutExtension_of_notMem hslash, htext, Text.cutLast?_append hdot]
  simp [hne]

/-- What is left of a name is still one segment. -/
theorem slash_notMem_withoutExtension {name : String} (h : '/' ∉ name.toList) :
    '/' ∉ (withoutExtension name).toList := by
  rw [withoutExtension_of_notMem h]
  split
  · rename_i before after hcut
    split
    · exact h
    · rw [Text.cutLast?_eq_some hcut] at h
      simpa using fun hmem => h (List.mem_append_left _ hmem)
  · exact h

/-- A name has no extension when it has no dot after its first character. -/
theorem withoutExtension_eq_self_iff {name : String} (h : '/' ∉ name.toList) :
    withoutExtension name = name ↔ '.' ∉ name.toList.tail := by
  rw [withoutExtension_of_notMem h]
  by_cases hdot : '.' ∈ name.toList
  · -- The name is cut at its last dot.
    obtain ⟨before, after, hname, hafter⟩ :
        ∃ before after, name.toList = before ++ '.' :: after ∧ '.' ∉ after := by
      obtain ⟨back, front, hsplit, hback⟩ :=
        List.eq_append_cons_of_mem (List.mem_reverse.mpr hdot)
      refine ⟨front.reverse, back.reverse, ?_, by simpa using hback⟩
      simpa using congrArg List.reverse hsplit
    rw [hname, Text.cutLast?_append hafter]
    cases before with
    | nil => simpa using hafter
    | cons c before =>
      have hlength : String.ofList (c :: before) ≠ name := by
        intro heq
        have := congrArg String.toList heq
        rw [hname, String.toList_ofList] at this
        simpa using congrArg List.length this
      simpa using hlength
  · rw [Text.cutLast?_eq_none hdot]
    simpa using fun hmem => hdot (List.mem_of_mem_tail hmem)

end Language

/-! ### Paths of files -/

/-- The text is a name between slashes, and free of backslashes. -/
structure IsSegment (text : String) : Prop extends PathText.IsName text where
  no_backslash : '\\' ∉ text.toList

theorem isSegment_iff {text : String} :
    IsSegment text ↔ ('/' ∉ text.toList ∧ '\\' ∉ text.toList) ∧ text ∉ ["", ".", ".."] := by
  constructor
  · intro h
    exact ⟨⟨h.one_segment, h.no_backslash⟩, by simp [h.not_empty, h.not_here, h.not_up]⟩
  · rintro ⟨⟨hslash, hback⟩, hidle⟩
    simp only [List.mem_cons, List.not_mem_nil, or_false, not_or] at hidle
    exact ⟨⟨hslash, hidle.1, hidle.2.1, hidle.2.2⟩, hback⟩

instance (text : String) : Decidable (IsSegment text) :=
  decidable_of_iff _ isSegment_iff.symm

/-- The path of a file of a language: its directories, and its name before and after the last
dot. -/
structure FilePath (language : Language) where
  folders : List String
  stem : String
  extension : String
  isSegment_folders : ∀ folder ∈ folders, IsSegment folder
  stem_ne : stem ≠ ""
  slash_notMem_stem : '/' ∉ stem.toList
  backslash_notMem_stem : '\\' ∉ stem.toList
  extension_mem : Text.lower extension ∈ language.extensions

/-- Characters that are the same in lower case occur in no extension unless in a listed one. -/
theorem Language.notMem_extension {language : Language} {extension : String}
    (h : Text.lower extension ∈ language.extensions) {c : Char} (hc : Text.lowerChar c = [c])
    (hnone : ∀ e ∈ language.extensions, c ∉ e.toList) : c ∉ extension.toList := by
  intro hmem
  refine hnone _ h ?_
  rw [Text.lower, String.toList_ofList]
  exact List.mem_flatMap.mpr ⟨c, hmem, by simp [hc]⟩

namespace FilePath

variable {language : Language} (path : FilePath language)

/-- The name of the file. -/
def name : String :=
  path.stem ++ "." ++ path.extension

/-- The text of the path. -/
def text : String :=
  Text.join "/" (path.folders ++ [path.name])

theorem dot_notMem_extension : '.' ∉ path.extension.toList :=
  Language.notMem_extension path.extension_mem (by decide +kernel)
    (by cases language <;> decide +kernel)

theorem slash_notMem_name : '/' ∉ path.name.toList := by
  have hextension : '/' ∉ path.extension.toList :=
    Language.notMem_extension path.extension_mem (by decide +kernel)
      (by cases language <;> decide +kernel)
  simp [name, path.slash_notMem_stem, hextension]

theorem backslash_notMem_name : '\\' ∉ path.name.toList := by
  have hextension : '\\' ∉ path.extension.toList :=
    Language.notMem_extension path.extension_mem (by decide +kernel)
      (by cases language <;> decide +kernel)
  simp [name, path.backslash_notMem_stem, hextension]

theorem split_text : Text.split '/' path.text = path.folders ++ [path.name] := by
  refine Text.split_join (by rfl) (by simp) fun part hpart => ?_
  rcases List.mem_append.mp hpart with hpart | hpart
  · exact (path.isSegment_folders part hpart).one_segment
  · exact List.mem_singleton.mp hpart ▸ path.slash_notMem_name

/-- The path has forward slashes only. -/
theorem replaceChar_text : Text.replaceChar '\\' '/' path.text = path.text := by
  refine Text.replaceChar_of_notMem '/' fun hmem => ?_
  obtain ⟨field, hfield, hin⟩ := Text.exists_mem_splitChars (· == '/') hmem (by decide)
  have hpart : String.ofList field ∈ path.folders ++ [path.name] :=
    path.split_text ▸ List.mem_map_of_mem hfield
  rw [← String.toList_ofList (l := field)] at hin
  rcases List.mem_append.mp hpart with hpart | hpart
  · exact (path.isSegment_folders _ hpart).no_backslash hin
  · exact path.backslash_notMem_name (List.mem_singleton.mp hpart ▸ hin)

theorem withoutExtension_text :
    Language.withoutExtension path.text = Text.join "/" (path.folders ++ [path.stem]) := by
  rw [text, Language.withoutExtension_join path.folders path.slash_notMem_name, name,
    Language.withoutExtension_append path.stem_ne path.slash_notMem_name path.dot_notMem_extension]

theorem slash_notMem_of_mem {segment : String} (h : segment ∈ path.folders ++ [path.stem]) :
    '/' ∉ segment.toList := by
  rcases List.mem_append.mp h with h | h
  · exact (path.isSegment_folders segment h).one_segment
  · exact List.mem_singleton.mp h ▸ path.slash_notMem_stem

theorem ne_empty_of_mem {segment : String} (h : segment ∈ path.folders ++ [path.stem]) :
    segment ≠ "" := by
  rcases List.mem_append.mp h with h | h
  · exact (path.isSegment_folders segment h).not_empty
  · exact List.mem_singleton.mp h ▸ path.stem_ne

/-- The module of a file is named by the directories and the name without its extension, as far as
the language counts them. -/
theorem modulePath_text :
    language.modulePath path.text =
      Text.join "." (language.moduleSegments (path.folders ++ [path.stem])) := by
  have hsegments : Language.segments (Text.join "/" (path.folders ++ [path.stem])) =
      path.folders ++ [path.stem] := by
    rw [Language.segments, Text.split_join (by rfl) (by simp) fun _ => path.slash_notMem_of_mem]
    exact List.filter_eq_self.mpr fun segment h => by simpa using path.ne_empty_of_mem h
  rw [Language.modulePath, path.replaceChar_text, path.withoutExtension_text, hsegments]

end FilePath

end CodeAtlas
