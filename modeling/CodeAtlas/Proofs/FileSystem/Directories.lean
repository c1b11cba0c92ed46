import CodeAtlas.Proofs.FileSystem.Frames
import CodeAtlas.Proofs.Text.Segments

/-!
# Directories that are created

Creating a directory goes along its path and creates what is missing. If that succeeds, the path
leads to a directory afterwards, also where the path goes up and down again: wherever the way has led
there are directories. A file whose directory was created can then be written, unless the way has
made a directory in its place.

## Main results

* `PathText.parent?_join`: the directory of a path with two names at its end.
* `PathText.exists_parts_join_eq`: a path goes one part further than the path of its directory.
* `FileSystem.locate_of_createDirectories`: where the path of a created directory leads.
* `FileSystem.createDirectories_parent`: the directory of a path that can be followed is there.
* `FileSystem.locate_of_createDirectories_error`: where a directory cannot be created no path leads
  further.
-/

namespace CodeAtlas

/-! ### The directory of a path -/

namespace PathText

theorem dropIdleSegments_cons {name : String} (h : IsName name) (rest : List String) :
    dropIdleSegments (name :: rest) = name :: rest := by
  cases rest with
  | nil => rfl
  | cons next rest => exact if_neg (not_or.mpr ⟨h.not_empty, h.not_here⟩)

theorem parent?_join {directory name : String} (hdirectory : IsName directory)
    (hname : IsName name) (base : String) :
    parent? (join (join base directory) name) = some (join base directory) := by
  obtain ⟨front, hfront⟩ := exists_split_join hdirectory base
  have hslash : "/".toList = ['/'] := rfl
  have hsplit : Text.split '/' (join (join base directory) name) = front ++ [directory, name] := by
    rw [join_join_name hdirectory hname, Text.split_append hslash, hfront,
      Text.split_of_notMem hname.one_segment, List.append_assoc]
    rfl
  have hlast : (parts (join (join base directory) name)).getLast? = some (.name name) := by
    rw [parts_join hname, List.getLast?_concat]
  have hkept : dropIdleSegments ((dropIdleSegments
      (front ++ [directory, name]).reverse).drop 1) = directory :: front.reverse := by
    have hreverse : (front ++ [directory, name]).reverse = name :: directory :: front.reverse := by
      simp
    rw [hreverse, dropIdleSegments_cons hname, List.drop_one, List.tail_cons,
      dropIdleSegments_cons hdirectory]
  have hjoin : Text.join "/" (directory :: front.reverse).reverse = join base directory := by
    rw [List.reverse_cons, List.reverse_reverse, ← hfront, Text.join_split hslash]
  simp only [parent?, hlast, hsplit, hkept]
  split
  · rename_i heq
    cases heq
  · rename_i heq
    exact absurd (List.cons.inj heq).1 hdirectory.not_empty
  · rw [hjoin]

/-- What is dropped carries no meaning. -/
theorem dropIdleSegments_eq (segments : List String) :
    ∃ idle, segments = idle ++ dropIdleSegments segments ∧ idle.filterMap partOfSegment = [] := by
  fun_induction dropIdleSegments segments with
  | case1 => exact ⟨[], rfl, rfl⟩
  | case2 first => exact ⟨[], rfl, rfl⟩
  | case3 segment rest hrest hidle ih =>
    obtain ⟨idle, heq, hnone⟩ := ih
    refine ⟨segment :: idle, by rw [List.cons_append, ← heq], ?_⟩
    have hpart : partOfSegment segment = none := if_pos hidle
    rw [List.filterMap_cons_none hpart, hnone]
  | case4 segment rest hrest hidle => exact ⟨[], rfl, rfl⟩

theorem exists_partOfSegment {segments rest : List String} {segment : String}
    (h : dropIdleSegments segments = segment :: rest) (hrest : rest ≠ []) :
    ∃ part, partOfSegment segment = some part := by
  fun_induction dropIdleSegments segments with
  | case1 => cases h
  | case2 first => exact absurd (List.cons.inj h).2.symm hrest
  | case3 segment rest hmany hidle ih => exact ih h
  | case4 first others hmany hidle =>
    obtain ⟨rfl, -⟩ := List.cons.inj h
    unfold partOfSegment
    rw [if_neg hidle]
    split_ifs
    · exact ⟨_, rfl⟩
    · exact ⟨_, rfl⟩

/-- A path is absolute when its first segment of several is empty. -/
theorem isAbsolute_iff {path : String} :
    isAbsolute path = true ↔ ∃ next rest, Text.split '/' path = "" :: next :: rest := by
  rw [isAbsolute, Text.startsWith, Text.split]
  cases path.toList with
  | nil => simp [Text.splitChars]
  | cons c cs =>
    obtain ⟨field, fields, hfields⟩ := List.exists_cons_of_ne_nil
      (Text.splitChars_ne_nil (· == '/') cs)
    by_cases hc : c = '/'
    · subst hc
      simp [Text.splitChars, hfields]
    · have hother : ¬ '/' = c := fun heq => hc heq.symm
      simp [Text.splitChars, hfields, hc, hother]

/-- The directory of a path keeps its first segments, and of those after them only one carries
meaning. -/
private theorem exists_kept_of_parent? {path parent : String} (h : parent? path = some parent)
    (hne : parent ≠ "") :
    ∃ kept rest part, Text.split '/' path = kept ++ rest ∧ kept ≠ [] ∧ rest ≠ [] ∧
      rest.filterMap partOfSegment = [part] ∧
      ((kept = [""] ∧ isAbsolute path = true ∧ parent = "/") ∨
        (kept ≠ [""] ∧ parent = Text.join "/" kept)) := by
  obtain ⟨idle, hsplit, hidle⟩ := dropIdleSegments_eq (Text.split '/' path).reverse
  unfold parent? at h
  split at h
  · cases h
  · cases h
  dsimp only at h
  cases hlast : dropIdleSegments (Text.split '/' path).reverse with
  | nil => simp [hlast, dropIdleSegments, hne.symm] at h
  | cons segment before =>
    rw [hlast, List.drop_one, List.tail_cons] at h
    rw [hlast] at hsplit
    obtain ⟨idle', hbefore, hidle'⟩ := dropIdleSegments_eq before
    have hmany : before ≠ [] := by
      rintro rfl
      simp [dropIdleSegments, hne.symm] at h
    obtain ⟨part, hpart⟩ := exists_partOfSegment hlast hmany
    generalize dropIdleSegments before = kept at h hbefore
    have hsegments : Text.split '/' path =
        kept.reverse ++ (idle'.reverse ++ (segment :: idle.reverse)) := by
      rw [← List.reverse_reverse (Text.split '/' path), hsplit, hbefore]
      simp
    refine ⟨kept.reverse, _, part, hsegments, ?_, by simp, by simp [hidle, hidle', hpart], ?_⟩
    · rintro hnil
      rw [List.reverse_eq_nil_iff.mp hnil] at h
      exact hne (Option.some.inj h).symm
    · split at h
      · exact absurd (Option.some.inj h).symm hne
      · split_ifs at h with habsolute
        · exact Or.inl ⟨rfl, habsolute, (Option.some.inj h).symm⟩
        · exact absurd (Option.some.inj h).symm hne
      · rename_i hone
        refine Or.inr ⟨fun heq => hone ?_, (Option.some.inj h).symm⟩
        rw [← List.reverse_reverse kept, heq]
        rfl

/-- A path goes one part further than the path of its directory. -/
theorem exists_parts_eq {path parent : String} (h : parent? path = some parent)
    (hne : parent ≠ "") :
    isAbsolute parent = isAbsolute path ∧
      (Text.split '/' parent).head? = (Text.split '/' path).head? ∧
      ∃ part, (Text.split '/' path).filterMap partOfSegment =
        (Text.split '/' parent).filterMap partOfSegment ++ [part] := by
  obtain ⟨kept, rest, part, hsegments, hkept, hrest, hpart, ⟨rfl, habsolute, rfl⟩ | ⟨hone, rfl⟩⟩ :=
    exists_kept_of_parent? h hne
  · have hroot : Text.split '/' "/" = ["", ""] := by decide +kernel
    refine ⟨by rw [habsolute]; decide +kernel, by rw [hroot, hsegments]; rfl, part, ?_⟩
    rw [hroot, hsegments, List.filterMap_append, hpart]
    rfl
  · have hsplit : Text.split '/' (Text.join "/" kept) = kept :=
      Text.split_join (by rfl) hkept fun part hmem =>
        slash_notMem_of_mem_split (hsegments ▸ List.mem_append_left _ hmem)
    refine ⟨?_, by rw [hsplit, hsegments, List.head?_append_of_ne_nil _ hkept], part,
      by rw [hsplit, hsegments, List.filterMap_append, hpart]⟩
    rw [Bool.eq_iff_iff, isAbsolute_iff, isAbsolute_iff, hsplit, hsegments]
    obtain ⟨first, others, rfl⟩ := List.exists_cons_of_ne_nil hkept
    obtain ⟨next, later, rfl⟩ := List.exists_cons_of_ne_nil hrest
    -- A single segment that is kept is not empty, and with a second one both see the same two.
    cases others with
    | nil =>
      have hfirst : first ≠ "" := by
        rintro rfl
        exact hone rfl
      simp [hfirst]
    | cons second others => simp

/-- A path goes one part further than the path of its directory, from wherever it starts. -/
theorem exists_parts_join_eq {path parent : String} (h : parent? path = some parent)
    (hne : parent ≠ "") (base : String) :
    ∃ part, parts (join base path) = parts (join base parent) ++ [part] := by
  obtain ⟨habsolute, hhead, part, hparts⟩ := exists_parts_eq h hne
  have hsame : parts path = parts parent ++ [part] := by
    simp only [parts, habsolute, hhead, hparts, List.append_assoc]
  refine ⟨part, ?_⟩
  cases hpath : isAbsolute path with
  | true => rw [join, join, if_pos hpath, if_pos (habsolute.trans hpath), hsame]
  | false =>
    by_cases hbase : base = ""
    · simpa [join, hbase, hpath, habsolute] using hsame
    · rw [parts_join_of_relative hpath hbase, parts_join_of_relative (habsolute.trans hpath) hbase,
        hparts, List.append_assoc]

end PathText

/-! ### Created directories -/

namespace FileSystem

variable {fs fs' : FileSystem} {path : String}

/-- What is opened stays so when a directory is put next to it. -/
theorem Opens.put_directory {location : Location} (h : fs.Opens location) (text : String) :
    (fs.put (location ++ [text]) .directory).Opens (location ++ [text]) := by
  intro above hfront
  rw [at?_put _ (by simp)]
  split_ifs with heq
  · rfl
  · rcases List.prefix_concat_iff.mp hfront with hsame | hbefore
    · exact absurd hsame heq
    · exact h above hbefore

theorem Opens.concat {location : Location} (h : fs.Opens location) {text : String}
    (hat : fs.at? (location ++ [text]) = some .directory) : fs.Opens (location ++ [text]) := by
  intro above hfront
  rcases List.prefix_concat_iff.mp hfront with rfl | hbefore
  · exact hat
  · exact h above hbefore

/-- The way along which directories were created can be followed, and ends at a directory. -/
theorem exists_follow_of_createAlong {location : Location} {parts : List PathText.Part}
    (hopens : fs.Opens location) (h : fs.createAlong location parts = (.ok (), fs')) :
    ∃ l, fs'.follow location parts = .ok l ∧ fs'.at? l = some .directory := by
  induction parts generalizing fs location with
  | nil =>
    obtain rfl := (Prod.mk.inj h).2
    exact ⟨location, rfl, hopens location (List.prefix_refl location)⟩
  | cons part rest ih =>
    have hshrinks := shrinks_createAlong fs location (part :: rest)
    rw [h] at hshrinks
    have hstart : fs'.at? location = some .directory :=
      hshrinks.at?_eq location _ (hopens location (List.prefix_refl location))
    cases part with
    | root =>
      have hroot : fs.Opens [] := fun above hfront => by rw [List.prefix_nil.mp hfront]; rfl
      simpa only [follow, hstart] using ih hroot h
    | here => simpa only [follow, hstart] using ih hopens h
    | up =>
      have hup : fs.Opens location.dropLast := fun above hfront =>
        hopens above (hfront.trans (List.dropLast_prefix location))
      simpa only [follow, hstart] using ih hup h
    | name text =>
      simp only [follow, hstart]
      simp only [createAlong] at h
      split at h
      · rename_i hat
        exact ih (hopens.concat hat) h
      · cases h
      · rcases hrest : (fs.put (location ++ [text]) .directory).createAlong (location ++ [text]) rest
          with ⟨result, after⟩
        rw [hrest] at h
        cases result with
        | error error => cases h
        | ok done =>
          obtain rfl := (Prod.mk.inj h).2
          exact ih (hopens.put_directory text) hrest

theorem locate_of_createDirectories (hne : path ≠ "")
    (h : fs.createDirectories path = (.ok (), fs')) :
    ∃ l, fs'.locate path = .ok l ∧ fs'.at? l = some .directory := by
  have hcurrent := (shrinks_createDirectories fs path).current_eq
  rw [h] at hcurrent
  rw [createDirectories, if_neg hne] at h
  have hroot : fs.Opens [] := fun above hfront => by rw [List.prefix_nil.mp hfront]; rfl
  rw [locate, if_neg hne, hcurrent]
  exact exists_follow_of_createAlong hroot h

/-- A path at which a directory can be created leads to no file. -/
theorem entry_of_createDirectories (hne : path ≠ "") (h : fs.createDirectories path = (.ok (), fs'))
    (hexists : fs.pathExists path = true) : fs.entry path = .ok .directory := by
  have hshrinks := shrinks_createDirectories fs path
  rw [h] at hshrinks
  unfold pathExists at hexists
  cases hentry : fs.entry path with
  | error e => simp [hentry] at hexists
  | ok found =>
    cases found with
    | directory => rfl
    | file content =>
      obtain ⟨l, hlocate, hat⟩ := locate_of_createDirectories hne h
      obtain ⟨l', hlocate', hfile, -⟩ := entry_eq_file (entry_of_shrinks hshrinks hentry)
      obtain rfl := Except.ok.inj (hlocate.symm.trans hlocate')
      exact absurd (hat.symm.trans hfile) (by simp)

/-! ### Ways that are there, and ways that are blocked -/

/-- On a way that leads further, no directory is missing. -/
theorem createAlong_of_follow {location target : Location} {parts : List PathText.Part}
    {part : PathText.Part} (h : fs.follow location (parts ++ [part]) = .ok target) :
    fs.createAlong location parts = (.ok (), fs) := by
  -- The way goes on, so that it has come to a directory.
  have hdirectory {location : Location} {parts : List PathText.Part}
      (h : fs.follow location (parts ++ [part]) = .ok target) :
      fs.at? location = some .directory := by
    obtain ⟨first, rest, hparts⟩ := List.exists_cons_of_ne_nil
      (List.append_ne_nil_of_right_ne_nil parts (List.cons_ne_nil part []))
    rw [hparts] at h
    exact (follow_cons_eq_ok.mp h).1
  induction parts generalizing location with
  | nil => rfl
  | cons first rest ih =>
    obtain ⟨-, hrest⟩ := follow_cons_eq_ok.mp h
    cases first with
    | root => exact ih hrest
    | here => exact ih hrest
    | up => exact ih hrest
    | name text =>
      have hnext : fs.at? (location ++ [text]) = some .directory := hdirectory hrest
      simp only [createAlong, hnext]
      exact ih hrest

/-- Where directories cannot be created the way does not lead further. -/
theorem follow_of_createAlong_error {location : Location} {parts : List PathText.Part}
    {error : IoError} (h : fs.createAlong location parts = (.error error, fs'))
    {more : List PathText.Part} (hmore : more ≠ []) (target : Location) :
    fs'.follow location (parts ++ more) ≠ .ok target := by
  intro hfollow
  induction parts generalizing fs location error with
  | nil => cases h
  | cons first rest ih =>
    obtain ⟨-, hfollow⟩ := follow_cons_eq_ok.mp hfollow
    cases first with
    | root => exact ih h hfollow
    | here => exact ih h hfollow
    | up => exact ih h hfollow
    | name text =>
      simp only [createAlong] at h
      split at h
      · exact ih h hfollow
      · rename_i hat
        obtain rfl := (Prod.mk.inj h).2
        obtain ⟨next, others, hparts⟩ := List.exists_cons_of_ne_nil
          (List.append_ne_nil_of_right_ne_nil rest hmore)
        have hnext : fs.follow (location ++ [text]) (rest ++ more) = .ok target := hfollow
        rw [hparts] at hnext
        exact absurd (hat.symm.trans (follow_cons_eq_ok.mp hnext).1) (by simp)
      · rcases hrest : (fs.put (location ++ [text]) .directory).createAlong (location ++ [text])
          rest with ⟨result, after⟩
        rw [hrest] at h
        obtain ⟨hresult, rfl⟩ := Prod.mk.inj h
        cases result with
        | ok done => cases hresult
        | error reason => exact ih hrest hfollow

/-- The directory of a path that can be followed is there. -/
theorem createDirectories_parent {parent : String} (hparent : PathText.parent? path = some parent)
    {l : Location} (hlocate : fs.locate path = .ok l) :
    fs.createDirectories parent = (.ok (), fs) := by
  unfold createDirectories
  split_ifs with hempty
  · rfl
  · obtain ⟨part, hparts⟩ := PathText.exists_parts_join_eq hparent hempty fs.current
    unfold locate at hlocate
    split_ifs at hlocate
    rw [hparts] at hlocate
    exact createAlong_of_follow hlocate

/-- Where a directory cannot be created no path leads further. -/
theorem locate_of_createDirectories_error {error : IoError}
    (h : fs.createDirectories path = (.error error, fs')) {further : String}
    {more : List PathText.Part} (hmore : more ≠ [])
    (hparts : PathText.parts (PathText.join fs.current further) =
      PathText.parts (PathText.join fs.current path) ++ more) (l : Location) :
    fs'.locate further ≠ .ok l := by
  intro hlocate
  have hcurrent := (shrinks_createDirectories fs path).current_eq
  rw [h] at hcurrent
  unfold createDirectories at h
  unfold locate at hlocate
  split_ifs at h
  · cases h
  · split_ifs at hlocate
    rw [hcurrent, hparts] at hlocate
    exact follow_of_createAlong_error h hmore l hlocate

end FileSystem

end CodeAtlas
