import CodeAtlas.FileSystem
import Mathlib.Data.List.Basic

/-!
# Names in paths

A name is a segment of a path that stands for itself. Joining a path with a name appends a part to
its parts. The file name of a path is a name, and unless the path asks for a directory it is also
the end of the path's text, so that what is appended to the text is appended to the name.

## Main definitions

* `PathText.IsName`: the text is a name.

## Main results

* `PathText.parts_join`: the parts of a path joined with a name.
* `PathText.exists_eq_append_fileName`: a path ends with its file name.
-/

namespace CodeAtlas

/-! ### Fields of a text -/

namespace Text

theorem splitChars_ne_nil (sep : Char → Bool) (cs : List Char) : splitChars sep cs ≠ [] := by
  fun_induction splitChars sep cs with
  | case1 => simp
  | case2 c rest hc ih => simp
  | case3 c rest hc hnil ih => exact absurd hnil ih
  | case4 c rest hc field fields hsplit ih => simp

/-- The fields before and after a separator. -/
theorem splitChars_append {sep : Char → Bool} {s : Char} (hs : sep s = true)
    (front back : List Char) :
    splitChars sep (front ++ s :: back) = splitChars sep front ++ splitChars sep back := by
  induction front with
  | nil => simp [splitChars, hs]
  | cons c front ih =>
    rw [List.cons_append, splitChars, splitChars, ih]
    split
    · rfl
    · cases hfront : splitChars sep front with
      | nil => exact absurd hfront (splitChars_ne_nil sep front)
      | cons field fields => rfl

theorem splitChars_of_forall {sep : Char → Bool} {cs : List Char}
    (h : ∀ c ∈ cs, sep c = false) : splitChars sep cs = [cs] := by
  induction cs with
  | nil => rfl
  | cons c rest ih =>
    obtain ⟨hc, hrest⟩ := List.forall_mem_cons.mp h
    simp [splitChars, hc, ih hrest]

theorem splitChars_of_notMem {sep : Char} {cs : List Char} (h : sep ∉ cs) :
    splitChars (· == sep) cs = [cs] :=
  splitChars_of_forall fun c hc => by simpa using fun heq : c = sep => h (heq ▸ hc)

theorem split_of_notMem {sep : Char} {s : String} (h : sep ∉ s.toList) : split sep s = [s] := by
  rw [split, splitChars_of_notMem h, List.map_singleton, String.ofList_toList]

/-- No field holds a separator. -/
theorem sep_eq_false_of_mem_splitChars {sep : Char → Bool} {cs field : List Char}
    (hfield : field ∈ splitChars sep cs) {c : Char} (hc : c ∈ field) : sep c = false := by
  fun_induction splitChars sep cs generalizing field with
  | case1 => simp_all
  | case2 d rest hd ih =>
    rcases List.mem_cons.mp hfield with rfl | hfield
    · exact absurd hc List.not_mem_nil
    · exact ih hfield hc
  | case3 d rest hd hnil ih => simp_all
  | case4 d rest hd first fields hsplit ih =>
    rcases List.mem_cons.mp hfield with rfl | hfield
    · rcases List.mem_cons.mp hc with rfl | hc
      · simpa using hd
      · exact ih (hsplit ▸ List.mem_cons_self) hc
    · exact ih (hsplit ▸ List.mem_cons_of_mem first hfield) hc

/-- The last field is the whole text, or follows the last separator. -/
theorem exists_splitChars_eq (sep : Char → Bool) (cs : List Char) :
    ∃ init field, splitChars sep cs = init ++ [field] ∧
      (init = [] ∧ cs = field ∨
        init ≠ [] ∧ ∃ front s, sep s = true ∧ cs = front ++ s :: field) := by
  fun_induction splitChars sep cs with
  | case1 => exact ⟨[], [], rfl, Or.inl ⟨rfl, rfl⟩⟩
  | case2 d rest hd ih =>
    obtain ⟨init, field, hsplit, hfield⟩ := ih
    refine ⟨[] :: init, field, by rw [hsplit, List.cons_append], Or.inr ⟨by simp, ?_⟩⟩
    rcases hfield with ⟨-, rfl⟩ | ⟨-, front, s, hs, rfl⟩
    · exact ⟨[], d, hd, rfl⟩
    · exact ⟨d :: front, s, hs, rfl⟩
  | case3 d rest hd hnil ih =>
    obtain ⟨init, field, hsplit, -⟩ := ih
    simp [hnil] at hsplit
  | case4 d rest hd first fields hsplit ih =>
    obtain ⟨init, field, hinit, hfield⟩ := ih
    rw [hsplit] at hinit
    rcases hfield with ⟨rfl, rfl⟩ | ⟨hne, front, s, hs, rfl⟩
    · obtain ⟨rfl, rfl⟩ := List.cons.inj hinit
      exact ⟨[], d :: first, rfl, Or.inl ⟨rfl, rfl⟩⟩
    · cases init with
      | nil => exact absurd rfl hne
      | cons start init =>
        obtain ⟨rfl, rfl⟩ := List.cons.inj hinit
        exact ⟨(d :: first) :: init, field, rfl, Or.inr ⟨by simp, d :: front, s, hs, rfl⟩⟩

end Text

namespace PathText

/-- What a joined path ends with. -/
theorem asksDirectory_join {base path : String} (h : FileSystem.asksDirectory path = true) :
    FileSystem.asksDirectory (join base path) = true := by
  have hends : ∀ ending front : String, Text.endsWith ending path = true →
      Text.endsWith ending (front ++ path) = true := by
    intro ending front hpath
    rw [Text.endsWith, List.isSuffixOf_iff_suffix] at hpath ⊢
    rw [String.toList_append]
    exact hpath.trans (List.suffix_append _ _)
  have hfront : ∀ front : String, FileSystem.asksDirectory (front ++ path) = true := by
    intro front
    rw [FileSystem.asksDirectory, Bool.or_eq_true] at h ⊢
    exact h.imp (hends "/" front) (hends "/." front)
  unfold join
  split_ifs
  · exact h
  · exact hfront base
  · exact hfront (base ++ "/")

/-- A path whose last segment carries no meaning asks for a directory or has no file name. -/
private theorem fileName?_of_idle {path : String} {init : List (List Char)} {field : List Char}
    (hasks : FileSystem.asksDirectory path = false) (hidle : field = [] ∨ field = ['.'])
    (hfield : init = [] ∧ path.toList = field ∨
      init ≠ [] ∧ ∃ front s, (s == '/') = true ∧ path.toList = front ++ s :: field) :
    fileName? path = none := by
  rcases hfield with ⟨-, hpath⟩ | ⟨-, front, s, hs, hpath⟩
  · have hlist : path = String.ofList field := by rw [← hpath, String.ofList_toList]
    rcases hidle with rfl | rfl
    · rw [hlist]
      decide +kernel
    · rw [hlist]
      decide +kernel
  · obtain rfl : s = '/' := beq_iff_eq.mp hs
    rw [FileSystem.asksDirectory, Bool.or_eq_false_iff, Text.endsWith, Text.endsWith,
      Bool.eq_false_iff, Bool.eq_false_iff, ne_eq, ne_eq, List.isSuffixOf_iff_suffix,
      List.isSuffixOf_iff_suffix, hpath] at hasks
    rcases hidle with rfl | rfl
    · exact absurd (List.suffix_append front ['/']) hasks.1
    · exact absurd (List.suffix_append front ['/', '.']) hasks.2

/-! ### Names -/

/-- The text is a segment that stands for itself. -/
structure IsName (text : String) : Prop where
  one_segment : '/' ∉ text.toList
  not_empty : text ≠ ""
  not_here : text ≠ "."
  not_up : text ≠ ".."

namespace IsName

variable {name : String}

theorem partOfSegment_eq (h : IsName name) : partOfSegment name = some (.name name) := by
  rw [partOfSegment, if_neg (not_or.mpr ⟨h.not_empty, h.not_here⟩), if_neg h.not_up]

theorem isAbsolute_eq (h : IsName name) : isAbsolute name = false := by
  rw [isAbsolute, Text.startsWith, Bool.eq_false_iff, ne_eq, List.isPrefixOf_iff_prefix]
  exact fun hfront => h.one_segment (hfront.subset (by simp))

/-- A name with something behind it is a name. -/
theorem append (h : IsName name) {suffix : String} (hsuffix : '/' ∉ suffix.toList) :
    IsName (name ++ suffix) := by
  -- The texts that are no names all begin with none but dots, two at most.
  have hdots : ¬ name.toList <+: ['.', '.'] := by
    intro hfront
    rcases List.prefix_cons_iff.mp hfront with hname | ⟨rest, hname, hrest⟩
    · exact h.not_empty (String.toList_inj.mp hname)
    · rcases List.prefix_cons_iff.mp hrest with rfl | ⟨last, rfl, hlast⟩
      · exact h.not_here (String.toList_inj.mp hname)
      · rw [List.prefix_nil.mp hlast] at hname
        exact h.not_up (String.toList_inj.mp hname)
  have hfront : ∀ {text : String}, text.toList <+: ['.', '.'] → name ++ suffix ≠ text := by
    rintro text htext rfl
    rw [String.toList_append] at htext
    exact hdots ((List.prefix_append _ _).trans htext)
  refine ⟨?_, hfront (by simp), hfront (by simp), hfront (by simp)⟩
  rw [String.toList_append, List.mem_append, not_or]
  exact ⟨h.one_segment, hsuffix⟩

end IsName

/-- A segment with a suffix of three characters or more is a name. -/
theorem isName_append {front suffix : String} (hfront : '/' ∉ front.toList)
    (hsuffix : '/' ∉ suffix.toList) (hlong : 2 < suffix.length) : IsName (front ++ suffix) := by
  have hshort {text : String} (htext : text.length ≤ 2) : front ++ suffix ≠ text := by
    rintro rfl
    rw [String.length_append] at htext
    omega
  refine ⟨?_, hshort (by decide), hshort (by decide), hshort (by decide)⟩
  rw [String.toList_append, List.mem_append, not_or]
  exact ⟨hfront, hsuffix⟩

/-! ### Joining -/

theorem isAbsolute_append {base : String} (h : base ≠ "") (path : String) :
    isAbsolute (base ++ path) = isAbsolute base := by
  cases hbase : base.toList with
  | nil => exact absurd (String.toList_inj.mp (hbase.trans rfl)) h
  | cons c rest => simp [isAbsolute, Text.startsWith, String.toList_append, hbase, List.isPrefixOf]

theorem endsWith_append {path : String} (h : path ≠ "") (front : String) :
    Text.endsWith "/" (front ++ path) = Text.endsWith "/" path := by
  have hlength : 1 ≤ path.toList.length := by
    cases hpath : path.toList with
    | nil => exact absurd (String.toList_inj.mp (hpath.trans rfl)) h
    | cons c rest => simp
  rw [Text.endsWith, Text.endsWith, Bool.eq_iff_iff, List.isSuffixOf_iff_suffix,
    List.isSuffixOf_iff_suffix, String.toList_append]
  exact ⟨fun hends => List.suffix_of_suffix_length_le hends (List.suffix_append _ _) hlength,
    fun hends => hends.trans (List.suffix_append _ _)⟩

/-- What stands between a path and a relative one that is appended to it. -/
private def glue (base : String) : String :=
  if base = "" ∨ Text.endsWith "/" base = true then "" else "/"

private theorem join_eq_append {path : String} (h : isAbsolute path = false) (base : String) :
    join base path = base ++ glue base ++ path := by
  rw [join, if_neg (by simp [h]), glue]
  split_ifs
  · rw [String.append_empty]
  · rfl

private theorem glue_append {path : String} (h : path ≠ "") (front : String) :
    glue (front ++ path) = glue path := by
  have hne : front ++ path ≠ "" := fun heq => h (String.append_eq_empty_iff.mp heq).2
  simp only [glue, hne, h, endsWith_append h, false_or]

private theorem glue_append_glue (base : String) : glue (base ++ glue base) = "" := by
  by_cases hbase : base = "" ∨ Text.endsWith "/" base = true
  · have hglue : glue base = "" := if_pos hbase
    rw [hglue, String.append_empty, hglue]
  · have hglue : glue base = "/" := if_neg hbase
    rw [hglue, glue_append (by decide)]
    decide

/-- Joining one after the other is joining what is joined. -/
theorem join_join {a b path : String} (h : isAbsolute path = false) :
    join (join a b) path = join a (join b path) := by
  rw [join_eq_append h, join_eq_append h b]
  by_cases hb : isAbsolute b = true
  · have hne : b ≠ "" := by
      rintro rfl
      exact absurd hb (by decide)
    have habsolute : isAbsolute (b ++ glue b ++ path) = true := by
      rw [String.append_assoc, isAbsolute_append hne, hb]
    have hjoin : join a b = b := if_pos hb
    rw [hjoin, join, if_pos habsolute]
  · rw [Bool.not_eq_true] at hb
    rw [join_eq_append hb]
    by_cases hempty : b = ""
    · subst hempty
      have hglue : glue "" = "" := by decide
      rw [String.append_empty, glue_append_glue, hglue, String.append_empty, String.empty_append,
        String.empty_append, join_eq_append h]
    · have hrelative : isAbsolute (b ++ glue b ++ path) = false := by
        rw [String.append_assoc, isAbsolute_append hempty, hb]
      rw [glue_append hempty, join_eq_append hrelative]
      simp only [String.append_assoc]

theorem join_name_ne {name : String} (h : IsName name) (base : String) : join base name ≠ "" := by
  rw [join_eq_append h.isAbsolute_eq]
  exact fun hempty => h.not_empty (String.append_eq_empty_iff.mp hempty).2

/-- A slash is put before a name that is joined to a path with a name at its end. -/
theorem join_join_name {directory name : String} (hdirectory : IsName directory)
    (hname : IsName name) (base : String) :
    join (join base directory) name = join base directory ++ "/" ++ name := by
  have hends : ¬ Text.endsWith "/" directory = true := by
    rw [Text.endsWith, List.isSuffixOf_iff_suffix]
    exact fun hsuffix => hdirectory.one_segment (hsuffix.subset (by simp))
  have hglue : glue directory = "/" := if_neg (not_or.mpr ⟨hdirectory.not_empty, hends⟩)
  rw [join_eq_append hname.isAbsolute_eq, join_eq_append hdirectory.isAbsolute_eq,
    glue_append hdirectory.not_empty, hglue]

/-- A path that ends with a name does not ask for a directory. -/
theorem asksDirectory_join_name {name : String} (h : IsName name) (base : String) :
    FileSystem.asksDirectory (join base name) = false := by
  rw [FileSystem.asksDirectory, Bool.or_eq_false_iff, join_eq_append h.isAbsolute_eq]
  have hlength : 1 ≤ name.toList.length := List.length_pos_of_ne_nil fun hnil =>
    h.not_empty (String.toList_inj.mp hnil)
  have hsuffix {ending : List Char} (hends : ending <:+ (base ++ glue base ++ name).toList)
      (hle : ending.length ≤ name.toList.length) : ending <:+ name.toList := by
    rw [String.toList_append] at hends
    exact List.suffix_of_suffix_length_le hends (List.suffix_append _ _) hle
  constructor
  · rw [Text.endsWith, Bool.eq_false_iff, ne_eq, List.isSuffixOf_iff_suffix]
    exact fun hends => h.one_segment ((hsuffix hends hlength).subset (by simp))
  · rw [Text.endsWith, Bool.eq_false_iff, ne_eq, List.isSuffixOf_iff_suffix]
    intro hends
    -- The dot alone would be the whole name, and the slash before it is in no name.
    by_cases hone : name.toList.length = 1
    · have hdot : ['.'] <:+ name.toList :=
        hsuffix ((List.suffix_cons '/' ['.']).trans hends) hlength
      exact h.not_here (String.toList_inj.mp (hdot.eq_of_length hone.symm).symm)
    · exact h.one_segment ((hsuffix hends (by simp; omega)).subset (by simp))

/-! ### Parts -/

private theorem split_append_slash (base path : String) :
    Text.split '/' (base ++ "/" ++ path) = Text.split '/' base ++ Text.split '/' path := by
  have htext : (base ++ "/" ++ path).toList = base.toList ++ '/' :: path.toList := by
    simp [String.toList_append]
  rw [Text.split, htext, Text.splitChars_append (by rfl), List.map_append, Text.split, Text.split]

private theorem split_append_name {name : String} (h : IsName name) (base : String) :
    Text.split '/' (base ++ "/" ++ name) = Text.split '/' base ++ [name] := by
  rw [split_append_slash, Text.split_of_notMem h.one_segment]

/-- A path that is not empty has the fields of the text before the slash that a relative path is
appended with, and possibly an empty one. -/
private theorem exists_join_eq {base path : String} (h : isAbsolute path = false)
    (hbase : base ≠ "") :
    ∃ front idle, join base path = front ++ "/" ++ path ∧
      Text.split '/' base = Text.split '/' front ++ idle ∧ idle.filterMap partOfSegment = [] := by
  rw [join_eq_append h]
  by_cases hends : Text.endsWith "/" base = true
  · obtain ⟨front, hfront⟩ := List.isSuffixOf_iff_suffix.mp hends
    have htext : base = String.ofList front ++ "/" := by
      rw [← String.toList_inj, String.toList_append, String.toList_ofList, hfront]
    have hglue : glue base = "" := if_pos (Or.inr hends)
    refine ⟨String.ofList front, [""], ?_, ?_, by decide⟩
    · rw [hglue, String.append_empty, htext]
    · have hfields : Text.splitChars (· == '/') base.toList =
          Text.splitChars (· == '/') front ++ [[]] := by
        rw [← hfront]
        exact Text.splitChars_append (by rfl) front []
      rw [Text.split, hfields, List.map_append, Text.split, String.toList_ofList]
      rfl
  · have hglue : glue base = "/" := if_neg (not_or.mpr ⟨hbase, hends⟩)
    exact ⟨base, [], by rw [hglue], (List.append_nil _).symm, rfl⟩

/-- The segments of a path joined with a name end with the name. -/
theorem exists_split_join {name : String} (h : IsName name) (base : String) :
    ∃ front, Text.split '/' (join base name) = front ++ [name] := by
  by_cases hbase : base = ""
  · have hjoin : join "" name = name := if_neg (by simp [h.isAbsolute_eq])
    refine ⟨[], ?_⟩
    rw [hbase, hjoin, Text.split_of_notMem h.one_segment]
    rfl
  · obtain ⟨front, -, hjoin, -⟩ := exists_join_eq h.isAbsolute_eq hbase
    exact ⟨Text.split '/' front, by rw [hjoin, split_append_name h]⟩

/-- The parts of a relative path come after those of the path it is joined to. -/
theorem parts_join_of_relative {base path : String} (h : isAbsolute path = false)
    (hbase : base ≠ "") :
    parts (join base path) = parts base ++ (Text.split '/' path).filterMap partOfSegment := by
  obtain ⟨front, idle, hjoin, hfields, hidle⟩ := exists_join_eq h hbase
  have habsolute : isAbsolute (join base path) = isAbsolute base := by
    rw [join_eq_append h, String.append_assoc, isAbsolute_append hbase]
  have hne : Text.split '/' front ≠ [] := by
    simpa [Text.split] using Text.splitChars_ne_nil (· == '/') front.toList
  have hhead : (Text.split '/' front ++ Text.split '/' path).head? =
      (Text.split '/' base).head? := by
    rw [hfields, List.head?_append_of_ne_nil _ hne, List.head?_append_of_ne_nil _ hne]
  have hsplit : Text.split '/' (join base path) = Text.split '/' front ++ Text.split '/' path := by
    rw [hjoin, split_append_slash]
  simp only [parts, hsplit, habsolute, hhead, hfields, List.filterMap_append, hidle,
    List.append_nil, List.append_assoc]

/-- A path joined with a name has one part more. -/
theorem parts_join {base name : String} (h : IsName name) :
    parts (join base name) = parts base ++ [.name name] := by
  have hsplit : Text.split '/' name = [name] := Text.split_of_notMem h.one_segment
  by_cases hbase : base = ""
  · have hjoin : join "" name = name := if_neg (by simp [h.isAbsolute_eq])
    have hhead : [name].head? ≠ some "." := fun heq => h.not_here (Option.some.inj heq)
    have hnone : parts "" = [] := by decide +kernel
    rw [hbase, hjoin, hnone, parts, hsplit, h.isAbsolute_eq, if_neg (by simp), if_neg hhead]
    simp only [List.filterMap_cons, h.partOfSegment_eq, List.filterMap_nil]
  · rw [parts_join_of_relative h.isAbsolute_eq hbase, hsplit,
      List.filterMap_cons_some h.partOfSegment_eq]
    rfl

/-- What is appended to a joined name is appended to the name. -/
theorem join_append {base name suffix : String} (h : IsName name) (hsuffix : '/' ∉ suffix.toList) :
    join base name ++ suffix = join base (name ++ suffix) := by
  rw [join_eq_append h.isAbsolute_eq, join_eq_append (h.append hsuffix).isAbsolute_eq,
    String.append_assoc]

theorem slash_notMem_of_mem_split {path segment : String} (h : segment ∈ Text.split '/' path) :
    '/' ∉ segment.toList := by
  obtain ⟨field, hfield, rfl⟩ := List.mem_map.mp h
  rw [String.toList_ofList]
  exact fun hmem => absurd (Text.sep_eq_false_of_mem_splitChars hfield hmem) (by decide)

/-- What is appended to a path without a slash is appended to its last segment. -/
theorem exists_split_append (path : String) {suffix : String} (hsuffix : '/' ∉ suffix.toList) :
    ∃ init last, Text.split '/' path = init ++ [last] ∧
      Text.split '/' (path ++ suffix) = init ++ [last ++ suffix] := by
  obtain ⟨init, field, hsplit, hfield⟩ := Text.exists_splitChars_eq (· == '/') path.toList
  have hnone : '/' ∉ field := fun hmem => absurd (Text.sep_eq_false_of_mem_splitChars
    (hsplit ▸ List.mem_append_right _ (List.mem_singleton_self field)) hmem) (by decide)
  have hlast : Text.splitChars (· == '/') (field ++ suffix.toList) = [field ++ suffix.toList] :=
    Text.splitChars_of_notMem (by rw [List.mem_append, not_or]; exact ⟨hnone, hsuffix⟩)
  have htext : String.ofList (field ++ suffix.toList) = String.ofList field ++ suffix := by
    rw [String.ofList_append, String.ofList_toList]
  refine ⟨init.map String.ofList, String.ofList field, by simp [Text.split, hsplit], ?_⟩
  rw [Text.split, String.toList_append]
  rcases hfield with ⟨rfl, hpath⟩ | ⟨-, front, s, hs, hpath⟩
  · simp [hpath, hlast, htext]
  · obtain rfl : s = '/' := beq_iff_eq.mp hs
    rw [hpath, Text.splitChars_append (by rfl), Text.splitChars_of_notMem hnone] at hsplit
    obtain ⟨rfl, -⟩ := List.append_inj' hsplit rfl
    rw [hpath, List.append_assoc, List.cons_append, Text.splitChars_append (by rfl), hlast, ← htext,
      List.map_append]
    rfl

/-! ### File names -/

theorem partOfSegment_eq_name {segment name : String}
    (h : partOfSegment segment = some (.name name)) :
    name = segment ∧ segment ≠ "" ∧ segment ≠ "." ∧ segment ≠ ".." := by
  unfold partOfSegment at h
  split_ifs at h with hidle hup
  · exact absurd (Option.some.inj h) (by simp)
  · rw [not_or] at hidle
    exact ⟨(Part.name.inj (Option.some.inj h)).symm, hidle.1, hidle.2, hup⟩

theorem slash_notMem_fileName? {path name : String} (h : fileName? path = some name) :
    '/' ∉ name.toList := by
  have hlast : Part.name name ∈ parts path := by
    unfold fileName? at h
    split at h
    · rename_i text hpart
      exact Option.some.inj h ▸ List.mem_of_getLast? hpart
    · cases h
  rcases List.mem_append.mp hlast with hlead | hsegment
  · split_ifs at hlead <;> simp at hlead
  · obtain ⟨segment, hmem, hpart⟩ := List.mem_filterMap.mp hsegment
    rw [(partOfSegment_eq_name hpart).1]
    exact slash_notMem_of_mem_split hmem

/-- The file name of a path that does not ask for a directory ends it, after a slash if there is
anything before it. -/
theorem exists_eq_append_fileName {path name : String} (h : fileName? path = some name)
    (hasks : FileSystem.asksDirectory path = false) :
    ∃ front, path.toList = front ++ name.toList ∧ (front = [] ∨ ['/'] <:+ front) ∧ IsName name := by
  obtain ⟨init, field, hsplit, hfield⟩ := Text.exists_splitChars_eq (· == '/') path.toList
  have hnotidle : ¬ (String.ofList field = "" ∨ String.ofList field = ".") := by
    intro hidle
    have hidle' : field = [] ∨ field = ['.'] :=
      hidle.imp (fun h => by simpa using congrArg String.toList h)
        fun h => by simpa using congrArg String.toList h
    rw [fileName?_of_idle hasks hidle' hfield] at h
    exact absurd h (by simp)
  have hlast : (parts path).getLast? = partOfSegment (String.ofList field) := by
    have hsome : (partOfSegment (String.ofList field)).isSome = true := by
      unfold partOfSegment
      split_ifs <;> rfl
    obtain ⟨part, hpart⟩ := Option.isSome_iff_exists.mp hsome
    simp only [parts, Text.split, hsplit, List.map_append, List.map_singleton,
      List.filterMap_append, List.filterMap_cons, hpart, List.filterMap_nil]
    rw [← List.append_assoc, List.getLast?_concat]
  have hpart : partOfSegment (String.ofList field) = some (.name name) := by
    unfold fileName? at h
    split at h
    · rename_i text hpart
      rw [← hlast, hpart, Option.some.inj h]
    · exact absurd h (by simp)
  obtain ⟨hname, hempty, hhere, hup⟩ := partOfSegment_eq_name hpart
  subst hname
  have hslash : '/' ∉ (String.ofList field).toList := by
    rw [String.toList_ofList]
    intro hmem
    have hsep := Text.sep_eq_false_of_mem_splitChars (hsplit ▸ List.mem_append_right _
      (List.mem_singleton_self field)) hmem
    exact absurd hsep (by decide)
  rw [String.toList_ofList]
  rcases hfield with ⟨-, hpath⟩ | ⟨-, front, s, hs, hpath⟩
  · exact ⟨[], hpath, Or.inl rfl, hslash, hempty, hhere, hup⟩
  · obtain rfl : s = '/' := beq_iff_eq.mp hs
    refine ⟨front ++ ['/'], ?_, Or.inr (List.suffix_append _ _), hslash, hempty, hhere, hup⟩
    rw [hpath, List.append_assoc]
    rfl

end PathText

end CodeAtlas
