import CodeAtlas.Proofs.PathText

/-!
# What the operations on files do

Where a path leads depends on its text alone; the file system only decides whether one can go there.
So two file systems with the same current directory agree on the location of a path whenever both of
them allow it, and an operation changes nothing but the entries at or below the locations it names.

## Main results

* `locate_eq_locate`: paths lead to the same location in both file systems.
* `locate_of_opens`: a path can be followed in a file system that keeps the directories on its way.
* `locate_join_eq_ok`, `locate_join`: where a path leads that is joined with a name.
* `entry_eq_ok_iff`: what is found at a path.
* `write_eq_ok`, `removeFile_eq_ok`, `rename_eq_ok`: the operations that succeed.
* `entry_of_write`: what is at a path after it was written.
-/

namespace CodeAtlas

/-! ### Steps that can fail -/

section Results

variable {ε α β : Type}

/-- Of two steps that succeed together, each one does. -/
theorem exists_of_bind_eq_ok {x : Except ε α} {f : α → Except ε β} {b : β}
    (h : x >>= f = .ok b) : ∃ a, x = .ok a ∧ f a = .ok b := by
  cases x with
  | error error => exact absurd h nofun
  | ok a => exact ⟨a, rfl, h⟩

theorem throw_ne_ok {error : ε} {a : α} : (throw error : Except ε α) ≠ .ok a :=
  nofun

/-- What comes after a check only succeeds if the check did. -/
theorem not_and_of_check_eq_ok {c : Prop} [Decidable c] {error : ε} {next : PUnit → Except ε β}
    {b : β} (h : (if c then throw error >>= next else next ⟨⟩) = .ok b) :
    ¬ c ∧ next ⟨⟩ = .ok b := by
  split_ifs at h with hc
  · exact absurd h throw_ne_ok
  · exact ⟨hc, h⟩

end Results

namespace FileSystem

open PathText (Part)

variable {fs fs' : FileSystem}

/-! ### Entries -/

/-- Looking up among the entries with certain locations. -/
private theorem lookup_filter_fst (keep : Location → Bool) (l : Location)
    (entries : List (Location × Entry)) :
    (entries.filter fun e => keep e.1).lookup l = if keep l then entries.lookup l else none := by
  induction entries with
  | nil => simp
  | cons e rest ih =>
    obtain ⟨place, found⟩ := e
    rw [List.filter_cons]
    by_cases hl : l = place
    · subst hl
      by_cases hkeep : keep l = true
      · simp [hkeep]
      · simp [hkeep, ih]
    · have hother : (l == place) = false := by simpa using hl
      split
      · rw [List.lookup_cons, List.lookup_cons, hother, ih]
      · rw [List.lookup_cons, hother, ih]

theorem at?_put (fs : FileSystem) {location : Location} (hne : location ≠ []) (entry : Entry)
    (l : Location) :
    (fs.put location entry).at? l = if l = location then some entry else fs.at? l := by
  unfold at? put
  by_cases hroot : l = []
  · have hl : l ≠ location := fun h => hne (h ▸ hroot)
    rw [if_pos hroot, if_pos hroot, if_neg hl]
  · rw [if_neg hroot, if_neg hroot, List.lookup_append, lookup_filter_fst (· != location)]
    by_cases hl : l = location
    · simp [hl]
    · have hother : (l == location) = false := by simpa using hl
      simp [hl, List.lookup_cons, hother]

theorem at?_erase (fs : FileSystem) (location l : Location) :
    (fs.erase location).at? l = if l ≠ [] ∧ location <+: l then none else fs.at? l := by
  unfold at? erase
  by_cases hroot : l = []
  · simp [hroot]
  · rw [if_neg hroot, if_neg hroot, lookup_filter_fst (fun place => !location.isPrefixOf place)]
    by_cases hbelow : location <+: l
    · have hgone : ¬ (!location.isPrefixOf l) = true := by
        simpa using List.isPrefixOf_iff_prefix.mpr hbelow
      rw [if_neg hgone, if_pos (And.intro hroot hbelow)]
    · have hkept : (!location.isPrefixOf l) = true := by
        rw [Bool.not_eq_true', Bool.eq_false_iff, ne_eq, List.isPrefixOf_iff_prefix]
        exact hbelow
      rw [if_pos hkept, if_neg (not_and_of_not_right _ hbelow)]

/-- The root is a directory. -/
theorem ne_nil_of_at?_ne {l : Location} (h : fs.at? l ≠ some .directory) : l ≠ [] := by
  rintro rfl
  exact h rfl

theorem ne_nil_of_at?_file {l : Location} {content : Content}
    (h : fs.at? l = some (.file content)) : l ≠ [] := by
  have hne : fs.at? l ≠ some .directory := by simp [h]
  exact ne_nil_of_at?_ne hne

/-! ### Locations -/

/-- The location one part further. -/
def advance (location : Location) : Part → Location
  | .root => []
  | .here => location
  | .up => location.dropLast
  | .name text => location ++ [text]

theorem follow_cons_eq_ok {location target : Location} {part : Part} {rest : List Part} :
    fs.follow location (part :: rest) = .ok target ↔
      fs.at? location = some .directory ∧ fs.follow (advance location part) rest = .ok target := by
  cases hat : fs.at? location with
  | none => simp [follow, hat]
  | some entry =>
    cases entry with
    | file content => simp [follow, hat]
    | directory => cases part <;> simp [follow, hat, advance]

private theorem eq_foldl_of_follow {location target : Location} {parts : List Part}
    (h : fs.follow location parts = .ok target) : target = parts.foldl advance location := by
  induction parts generalizing location with
  | nil => exact (Except.ok.inj h).symm
  | cons part rest ih => exact ih (follow_cons_eq_ok.mp h).2

/-- A path leads to one location only. -/
theorem locate_eq_locate (hcurrent : fs.current = fs'.current) {path : String}
    {l l' : Location} (h : fs.locate path = .ok l) (h' : fs'.locate path = .ok l') : l = l' := by
  unfold locate at h h'
  split_ifs at h h'
  rw [hcurrent] at h
  rw [eq_foldl_of_follow h, eq_foldl_of_follow h']

/-- The lead of a path that starts from the root makes no difference. -/
private theorem foldl_parts (path : String) :
    (PathText.parts path).foldl advance [] =
      ((Text.split '/' path).filterMap PathText.partOfSegment).foldl advance [] := by
  simp only [PathText.parts, List.foldl_append]
  split_ifs <;> rfl

/-- A path leads on from the current directory, or from the root if it is absolute. -/
private theorem foldl_parts_join (base path : String) :
    (PathText.parts (PathText.join base path)).foldl advance [] =
      ((Text.split '/' path).filterMap PathText.partOfSegment).foldl advance
        (if PathText.isAbsolute path then [] else (PathText.parts base).foldl advance []) := by
  by_cases habsolute : PathText.isAbsolute path = true
  · rw [PathText.join, if_pos habsolute, if_pos habsolute, foldl_parts]
  · rw [if_neg habsolute]
    by_cases hbase : base = ""
    · have hjoin : PathText.join "" path = path := by
        rw [PathText.join, if_neg habsolute, if_pos (Or.inl rfl), String.empty_append]
      have hnone : PathText.parts "" = [] := by decide +kernel
      rw [hbase, hjoin, hnone, foldl_parts]
      rfl
    · rw [PathText.parts_join_of_relative (Bool.eq_false_iff.mpr habsolute) hbase,
        List.foldl_append]

/-- Something appended to the last segment of a path leads to another location. -/
theorem locate_append_ne {path suffix : String} {l : Location} (hlocate : fs.locate path = .ok l)
    (hsuffix : '/' ∉ suffix.toList) (hlong : 2 < suffix.length) :
    fs.locate path ≠ fs.locate (path ++ suffix) := by
  intro heq
  rw [heq] at hlocate
  have hsame := heq.trans hlocate
  have hne : path ≠ "" := by
    rintro rfl
    rw [locate, if_pos rfl] at hsame
    cases hsame
  unfold locate at hsame hlocate
  split_ifs at hsame hlocate
  obtain ⟨init, last, hsplit, hsplit'⟩ := PathText.exists_split_append path hsuffix
  have hslash : '/' ∉ last.toList := PathText.slash_notMem_of_mem_split
    (hsplit ▸ List.mem_append_right init (List.mem_singleton_self last))
  have hname := PathText.isName_append hslash hsuffix hlong
  have hplace := (eq_foldl_of_follow hsame).symm.trans (eq_foldl_of_follow hlocate)
  rw [foldl_parts_join, foldl_parts_join, PathText.isAbsolute_append hne, hsplit, hsplit',
    List.filterMap_append, List.filterMap_append, List.foldl_append, List.foldl_append,
    List.filterMap_cons_some hname.partOfSegment_eq] at hplace
  generalize (init.filterMap PathText.partOfSegment).foldl advance _ = above at hplace
  -- The path leads no further than to an entry of the same directory, with another name.
  cases hlast : PathText.partOfSegment last with
  | none =>
    rw [List.filterMap_cons_none hlast] at hplace
    exact absurd (congrArg List.length hplace) (by simp [advance])
  | some part =>
    rw [List.filterMap_cons_some hlast] at hplace
    cases part with
    | root => exact absurd (congrArg List.length hplace) (by simp [advance])
    | here => exact absurd (congrArg List.length hplace) (by simp [advance])
    | up => exact absurd (congrArg List.length hplace) (by simp [advance])
    | name text =>
      obtain ⟨rfl, -⟩ := PathText.partOfSegment_eq_name hlast
      have htext : text = text ++ suffix :=
        List.singleton_inj.mp (List.append_inj' hplace rfl).2
      have hlength := congrArg String.length htext
      rw [String.length_append] at hlength
      omega

/-- A path with a file name leads to an entry of that name. -/
theorem exists_concat_of_fileName? {path name : String} {l : Location}
    (hname : PathText.fileName? path = some name) (hlocate : fs.locate path = .ok l) :
    ∃ above, l = above ++ [name] := by
  have hlast : (PathText.parts path).getLast? = some (.name name) := by
    unfold PathText.fileName? at hname
    split at hname
    · rename_i hlast
      rw [hlast, Option.some.inj hname]
    · cases hname
  have hsegments :
      ((Text.split '/' path).filterMap PathText.partOfSegment).getLast? = some (.name name) := by
    rw [PathText.parts, List.getLast?_append] at hlast
    cases hsegments : ((Text.split '/' path).filterMap PathText.partOfSegment).getLast? with
    | some part => rwa [hsegments, Option.some_or] at hlast
    | none =>
      rw [hsegments, Option.none_or] at hlast
      split_ifs at hlast <;> simp at hlast
  obtain ⟨front, hfront⟩ := List.getLast?_eq_some_iff.mp hsegments
  unfold locate at hlocate
  split_ifs at hlocate
  rw [eq_foldl_of_follow hlocate, foldl_parts_join, hfront, List.foldl_append]
  exact ⟨_, rfl⟩

/-- The location and everything above it are directories. -/
def Opens (fs : FileSystem) (location : Location) : Prop :=
  ∀ above, above <+: location → fs.at? above = some .directory

/-- Everything above the location is a directory. -/
def OpensAbove (fs : FileSystem) (location : Location) : Prop :=
  ∀ above, above <+: location → above ≠ location → fs.at? above = some .directory

private theorem opensAbove_nil : fs.OpensAbove [] :=
  fun _ hfront hne => absurd (List.prefix_nil.mp hfront) hne

theorem OpensAbove.opens {location : Location} (h : fs.OpensAbove location)
    (hat : fs.at? location = some .directory) : fs.Opens location := by
  intro above hfront
  by_cases heq : above = location
  · rw [heq, hat]
  · exact h above hfront heq

private theorem OpensAbove.advance {location : Location} (h : fs.OpensAbove location)
    (hat : fs.at? location = some .directory) (part : Part) :
    fs.OpensAbove (advance location part) := by
  have hopens := h.opens hat
  cases part with
  | root => exact opensAbove_nil
  | here => exact h
  | up => exact fun above hfront _ => hopens above (hfront.trans (List.dropLast_prefix location))
  | name text =>
    intro above hfront hne
    rcases List.prefix_concat_iff.mp hfront with heq | hfront
    · exact absurd heq hne
    · exact hopens above hfront

private theorem opensAbove_of_follow {location target : Location} {parts : List Part}
    (habove : fs.OpensAbove location) (h : fs.follow location parts = .ok target) :
    fs.OpensAbove target := by
  induction parts generalizing location with
  | nil =>
    obtain rfl := Except.ok.inj h
    exact habove
  | cons part rest ih =>
    obtain ⟨hat, hrest⟩ := follow_cons_eq_ok.mp h
    exact ih (habove.advance hat part) hrest

private theorem follow_of_opens (h : ∀ l, fs.Opens l → fs'.at? l = some .directory)
    {location target : Location} {parts : List Part} (habove : fs.OpensAbove location)
    (hfollow : fs.follow location parts = .ok target) : fs'.follow location parts = .ok target := by
  induction parts generalizing location with
  | nil => exact hfollow
  | cons part rest ih =>
    obtain ⟨hat, hrest⟩ := follow_cons_eq_ok.mp hfollow
    exact follow_cons_eq_ok.mpr
      ⟨h location (habove.opens hat), ih (habove.advance hat part) hrest⟩

/-- A path that can be followed leads through directories. -/
theorem opensAbove_of_locate {path : String} {l : Location} (h : fs.locate path = .ok l) :
    fs.OpensAbove l := by
  unfold locate at h
  split_ifs at h
  exact opensAbove_of_follow opensAbove_nil h

/-- A path can be followed where the directories on its way are kept. -/
theorem locate_of_opens (hcurrent : fs.current = fs'.current)
    (h : ∀ l, fs.Opens l → fs'.at? l = some .directory) {path : String} {l : Location}
    (hlocate : fs.locate path = .ok l) : fs'.locate path = .ok l := by
  unfold locate at hlocate ⊢
  split_ifs at hlocate ⊢
  rw [← hcurrent]
  exact follow_of_opens h opensAbove_nil hlocate

/-- A path with a name at its end leads from the directory above it. -/
private theorem follow_concat_eq_ok {location target : Location} {parts : List Part} {name : String}
    (h : fs.follow location (parts ++ [.name name]) = .ok target) :
    ∃ above, fs.follow location parts = .ok above ∧ fs.at? above = some .directory ∧
      target = above ++ [name] := by
  induction parts generalizing location with
  | nil =>
    obtain ⟨hat, hrest⟩ := follow_cons_eq_ok.mp h
    exact ⟨location, rfl, hat, (Except.ok.inj hrest).symm⟩
  | cons part rest ih =>
    obtain ⟨hat, hrest⟩ := follow_cons_eq_ok.mp h
    obtain ⟨above, hfollow, habove, rfl⟩ := ih hrest
    exact ⟨above, follow_cons_eq_ok.mpr ⟨hat, hfollow⟩, habove, rfl⟩

/-- A path joined with a name leads to the entry of that name in a directory, which is where the
path leads. -/
theorem locate_join_eq_ok {base name : String} (hname : PathText.IsName name) {l : Location}
    (h : fs.locate (PathText.join base name) = .ok l) :
    ∃ above, l = above ++ [name] ∧ fs.at? above = some .directory ∧
      (base ≠ "" → fs.locate base = .ok above) := by
  unfold locate at h
  split_ifs at h
  rw [← PathText.join_join hname.isAbsolute_eq, PathText.parts_join hname] at h
  obtain ⟨above, hfollow, habove, rfl⟩ := follow_concat_eq_ok h
  exact ⟨above, rfl, habove, fun hbase => by rw [locate, if_neg hbase, hfollow]⟩

private theorem follow_concat {location above : Location} {parts : List Part}
    (h : fs.follow location parts = .ok above) (hat : fs.at? above = some .directory)
    (name : String) : fs.follow location (parts ++ [.name name]) = .ok (above ++ [name]) := by
  induction parts generalizing location with
  | nil =>
    obtain rfl := Except.ok.inj h
    exact follow_cons_eq_ok.mpr ⟨hat, rfl⟩
  | cons part rest ih =>
    obtain ⟨hstart, hrest⟩ := follow_cons_eq_ok.mp h
    exact follow_cons_eq_ok.mpr ⟨hstart, ih hrest⟩

/-- From a directory a name leads on. -/
theorem locate_join {base name : String} (hname : PathText.IsName name) {above : Location}
    (h : fs.locate base = .ok above) (hat : fs.at? above = some .directory) :
    fs.locate (PathText.join base name) = .ok (above ++ [name]) := by
  unfold locate at h
  split_ifs at h
  rw [locate, if_neg (PathText.join_name_ne hname base), ← PathText.join_join hname.isAbsolute_eq,
    PathText.parts_join hname]
  exact follow_concat h hat name

/-! ### Operations that succeed -/

/-- What is found at a path is what is at its location, unless a file is asked for a directory. -/
theorem entry_eq_ok_iff {path : String} {found : Entry} :
    fs.entry path = .ok found ↔ ∃ l, fs.locate path = .ok l ∧ fs.at? l = some found ∧
      (asksDirectory path = true → found = .directory) := by
  constructor
  · intro h
    obtain ⟨l, hlocate, h⟩ := exists_of_bind_eq_ok h
    refine ⟨l, hlocate, ?_⟩
    split at h
    · exact absurd h throw_ne_ok
    · obtain rfl := Except.ok.inj h
      exact ⟨‹_›, fun _ => rfl⟩
    · split at h
      · exact absurd h throw_ne_ok
      · obtain rfl := Except.ok.inj h
        exact ⟨‹_›, fun hasks => absurd hasks ‹_›⟩
  · rintro ⟨l, hlocate, hat, hasks⟩
    simp only [entry, hlocate, bind, Except.bind, hat]
    cases found with
    | directory => rfl
    | file content => exact if_neg fun h => Entry.noConfusion (hasks h)

theorem entry_eq_file {path : String} {content : Content}
    (h : fs.entry path = .ok (.file content)) :
    ∃ l, fs.locate path = .ok l ∧ fs.at? l = some (.file content) ∧ asksDirectory path = false := by
  obtain ⟨l, hlocate, hat, hasks⟩ := entry_eq_ok_iff.mp h
  exact ⟨l, hlocate, hat, Bool.eq_false_iff.mpr fun h => Entry.noConfusion (hasks h)⟩

theorem entry_of_at? {path : String} {l : Location} {content : Content}
    (hlocate : fs.locate path = .ok l) (hat : fs.at? l = some (.file content))
    (hasks : asksDirectory path = false) : fs.entry path = .ok (.file content) :=
  entry_eq_ok_iff.mpr ⟨l, hlocate, hat, fun h => absurd (hasks.symm.trans h) Bool.false_ne_true⟩

theorem entry_eq_directory {path : String} (h : fs.entry path = .ok .directory) :
    ∃ l, fs.locate path = .ok l ∧ fs.at? l = some .directory := by
  obtain ⟨l, hlocate, hat, -⟩ := entry_eq_ok_iff.mp h
  exact ⟨l, hlocate, hat⟩

theorem entry_of_directory {path : String} {l : Location} (hlocate : fs.locate path = .ok l)
    (hat : fs.at? l = some .directory) : fs.entry path = .ok .directory :=
  entry_eq_ok_iff.mpr ⟨l, hlocate, hat, fun _ => rfl⟩

theorem content?_of_entry {path : String} {content : Content}
    (h : fs.entry path = .ok (.file content)) : fs.content? path = some content := by
  rw [content?, h]

/-- What is read is a text file. -/
theorem entry_of_readText {path text : String} (h : fs.readText path = .ok text) :
    fs.entry path = .ok (.file (.text text)) := by
  obtain ⟨found, hentry, h⟩ := exists_of_bind_eq_ok h
  split at h
  · exact absurd h throw_ne_ok
  · obtain rfl := Except.ok.inj h
    exact hentry
  · exact absurd h throw_ne_ok

/-- A file is written in place of what was at its location. -/
theorem write_eq_ok {path : String} {content : Content} (h : fs.write path content = .ok fs') :
    ∃ l, fs.locate path = .ok l ∧ asksDirectory path = false ∧ l ≠ [] ∧
      fs.at? l ≠ some .directory ∧ fs' = fs.put l (.file content) := by
  obtain ⟨l, hlocate, h⟩ := exists_of_bind_eq_ok h
  obtain ⟨hfree, h⟩ := not_and_of_check_eq_ok h
  rw [Bool.or_eq_true, not_or, Bool.not_eq_true, beq_iff_eq] at hfree
  refine ⟨l, hlocate, hfree.1, ne_nil_of_at?_ne hfree.2, hfree.2, ?_⟩
  split at h
  · exact (Except.ok.inj h).symm
  · exact absurd h throw_ne_ok
  · exact absurd h throw_ne_ok

/-- What was written is there. -/
theorem entry_of_write {path : String} {content : Content}
    (h : fs.write path content = .ok fs') : fs'.entry path = .ok (.file content) := by
  obtain ⟨l, hlocate, hasks, hne, hfree, rfl⟩ := write_eq_ok h
  have hcurrent : fs.current = (fs.put l (.file content)).current := rfl
  have hplace : (fs.put l (.file content)).locate path = .ok l := by
    refine locate_of_opens hcurrent (fun d hopens => ?_) hlocate
    have hd := hopens d (List.prefix_refl d)
    have hother : d ≠ l := fun heq => hfree (heq ▸ hd)
    rw [at?_put _ hne, if_neg hother, hd]
  refine entry_of_at? hplace ?_ hasks
  rw [at?_put _ hne, if_pos rfl]

/-- A file can be written in a directory, unless its place is one. -/
theorem write_of_directory {path name : String} {above : Location}
    (hlocate : fs.locate path = .ok (above ++ [name])) (hat : fs.at? above = some .directory)
    (hfree : fs.at? (above ++ [name]) ≠ some .directory) (hasks : asksDirectory path = false)
    (content : Content) :
    fs.write path content = .ok (fs.put (above ++ [name]) (.file content)) := by
  have hplace : (fs.at? (above ++ [name]) == some .directory) = false := by simpa using hfree
  simp only [write, hlocate, bind, Except.bind, hasks, hplace, Bool.or_self, Bool.false_eq_true,
    ↓reduceIte, pure, Except.pure, List.dropLast_concat, hat]

/-- Only a file is removed. -/
theorem removeFile_eq_ok {path : String} (h : fs.removeFile path = .ok fs') :
    ∃ l content, fs.locate path = .ok l ∧ fs.at? l = some (.file content) ∧ fs' = fs.erase l := by
  obtain ⟨found, hentry, h⟩ := exists_of_bind_eq_ok h
  cases found with
  | directory => exact absurd h throw_ne_ok
  | file content =>
    obtain ⟨l, hlocate, hat, -⟩ := entry_eq_file hentry
    obtain ⟨place, hplace, h⟩ := exists_of_bind_eq_ok h
    obtain rfl := Except.ok.inj (hlocate.symm.trans hplace)
    exact ⟨l, content, hlocate, hat, (Except.ok.inj h).symm⟩

/-- A file takes the place of what was at the other path, and leaves its own. -/
theorem rename_eq_ok {source target : String} (h : fs.rename source target = .ok fs') :
    ∃ l l' content, fs.locate source = .ok l ∧ fs.at? l = some (.file content) ∧
      fs.locate target = .ok l' ∧ asksDirectory target = false ∧
      fs.at? l' ≠ some .directory ∧ fs' = (fs.erase l).put l' (.file content) := by
  obtain ⟨found, hentry, h⟩ := exists_of_bind_eq_ok h
  cases found with
  | directory => exact absurd h throw_ne_ok
  | file content =>
    obtain ⟨l, hlocate, hat, -⟩ := entry_eq_file hentry
    obtain ⟨l', htarget, h⟩ := exists_of_bind_eq_ok h
    obtain ⟨hasks, h⟩ := not_and_of_check_eq_ok h
    obtain ⟨hdirectory, h⟩ := not_and_of_check_eq_ok h
    obtain ⟨place, hplace, h⟩ := exists_of_bind_eq_ok h
    obtain rfl := Except.ok.inj (hlocate.symm.trans hplace)
    exact ⟨l, l', content, hlocate, hat, htarget, Bool.eq_false_iff.mpr hasks,
      mt beq_iff_eq.mpr hdirectory, (Except.ok.inj h).symm⟩

end FileSystem

end CodeAtlas
