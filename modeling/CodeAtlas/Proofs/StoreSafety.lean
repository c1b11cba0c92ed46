import CodeAtlas.Proofs.FileSystem.Directories
import CodeAtlas.Proofs.Store
import CodeAtlas.Proofs.Text.Slices

/-!
# A failed save leaves the stored document

What a save does before the last step happens beside the stored file: the staging file is written or
discarded, with the files beside it as a database, and the files beside the stored database are
removed. None of their paths leads to the stored file, because each ends with the name of that file
and something more. The last step takes its place or fails without an effect.

A load can change the stored file, but only one of at most one byte, from which no document can be
read before or after.

## Main definitions

* `GraphStore.otherPaths`: the paths a save uses besides the store's.
* `GraphStore.Keeps`: the stored file is there, as it was or opened as a database.

## Main results

* `GraphStore.locate_ne_of_mem_otherPaths`: none of them leads to the stored file.
* `GraphStore.changesFiles_of_failed_save`: what a save that failed has changed.
* `GraphStore.read_of_opened`: what is read from a file that was opened as a database.
* `GraphStore.keeps_load`, `GraphStore.keeps_of_failed_save`: a load and a failed save keep the
  stored file.
* `GraphStore.Keeps.load_fst`: from a stored file that is kept the same is loaded.
-/

namespace CodeAtlas

/-! ### Texts of one byte -/

/-- A text of at most one byte is empty, or one of the first characters. -/
theorem Text.eq_empty_or_singleton {s : String} (h : s.utf8ByteSize ≤ 1) :
    s = "" ∨ ∃ n < 128, s = String.singleton (Char.ofNat n) := by
  obtain ⟨cs, rfl⟩ : ∃ cs, s = String.ofList cs := ⟨s.toList, String.ofList_toList.symm⟩
  rw [utf8ByteSize_eq_byteLength, String.toList_ofList] at h
  cases cs with
  | nil => exact .inl rfl
  | cons c rest =>
    rw [byteLength_cons] at h
    have hc := c.utf8Size_pos
    cases rest with
    | nil =>
      have hascii := Char.utf8Size_eq_one_iff.mp (show c.utf8Size = 1 by omega)
      refine .inr ⟨c.toNat, Nat.lt_succ_of_le hascii, ?_⟩
      rw [Char.ofNat_toNat]
      rfl
    | cons d rest =>
      rw [byteLength_cons] at h
      have hd := d.utf8Size_pos
      omega

/-- No document is a text of one character. -/
private theorem ofJson?_of_singleton :
    ∀ n < 128,
      ((Json.parse? (String.singleton (Char.ofNat n))).bind Document.ofJson?).isNone = true := by
  decide +kernel

/-- A text that starts with this letter is no value. -/
private theorem parse?_of_letter {s : String} {rest : List Char} (h : s.toList = 'S' :: rest) :
    Json.parse? s = none := by
  have hspace : Json.skipSpace ('S' :: rest) = 'S' :: rest := rfl
  have hnumber : Json.readNumber ('S' :: rest) = none := rfl
  have hvalue (fuel : Nat) : Json.readValue (fuel + 1) ('S' :: rest) = none := by
    rw [Json.readValue, hspace]
    exact hnumber
  rw [Json.parse?, h, hvalue]

private theorem parse?_blankDatabase : Json.parse? FileSystem.blankDatabase = none := by
  have htoList (tail : String) :
      ("SQLite format 3" ++ tail).toList = 'S' :: ("QLite format 3".toList ++ tail.toList) := by
    rw [String.toList_append]
    rfl
  exact parse?_of_letter (htoList _)

namespace GraphStore

open FileSystem (ChangesFiles SameDirectories besides)
open PathText (IsName fileName?)

variable {store : GraphStore} {document : Document} {fs fs' : FileSystem} {content : Content}

/-! ### The other paths of a save -/

/-- The staging path joins a name to the directory of the store, or to its path if that ends with no
name. -/
theorem exists_stagingPath_eq (store : GraphStore) :
    ∃ base front, IsName (front ++ ".tmp") ∧
      store.stagingPath = PathText.join base (front ++ ".tmp") ∧
      (fileName? store.path = none ∧ base = store.path ∨
        fileName? store.path = some front ∧ base = (PathText.parent? store.path).getD "") := by
  unfold stagingPath PathText.withFileName
  cases hfile : fileName? store.path with
  | none =>
    have hname : IsName ("" ++ ".tmp") :=
      PathText.isName_append List.not_mem_nil (by decide) (by decide)
    exact ⟨store.path, "", hname, rfl, .inl ⟨rfl, rfl⟩⟩
  | some name =>
    have hname : IsName (name ++ ".tmp") :=
      PathText.isName_append (PathText.slash_notMem_fileName? hfile) (by decide) (by decide)
    exact ⟨_, name, hname, rfl, .inr ⟨rfl, rfl⟩⟩

/-- What is at the staging path or beside it is at another place than the stored file. -/
theorem locate_stagingPath_append_ne {l : Location} (hlocate : fs.locate store.path = .ok l)
    {suffix : String} (hsuffix : '/' ∉ suffix.toList) :
    fs.locate store.path ≠ fs.locate (store.stagingPath ++ suffix) := by
  intro heq
  have hplace := heq.symm.trans hlocate
  obtain ⟨base, front, hname, hpath, hfront⟩ := store.exists_stagingPath_eq
  rw [hpath, PathText.join_append hname hsuffix] at hplace
  obtain ⟨above, rfl, -, hbase⟩ := FileSystem.locate_join_eq_ok (hname.append hsuffix) hplace
  rcases hfront with ⟨-, rfl⟩ | ⟨hfront, -⟩
  · have hne : store.path ≠ "" := by
      intro hempty
      rw [hempty, FileSystem.locate, if_pos rfl] at hlocate
      cases hlocate
    have hsame := Except.ok.inj ((hbase hne).symm.trans hlocate)
    simpa using congrArg List.length hsame
  · obtain ⟨above', hlast⟩ := FileSystem.exists_concat_of_fileName? hfront hlocate
    have hsame := congrArg String.length (List.singleton_inj.mp (List.append_inj' hlast rfl).2)
    have hlong : 0 < ".tmp".length := by decide
    rw [String.length_append, String.length_append] at hsame
    omega

/-- The paths a save uses besides the store's. -/
def otherPaths (store : GraphStore) : List String :=
  store.stagingPath :: (besides store.stagingPath ++ besides store.path)

theorem locate_ne_of_mem_otherPaths {l : Location} (hlocate : fs.locate store.path = .ok l)
    {other : String} (hother : other ∈ store.otherPaths) :
    fs.locate store.path ≠ fs.locate other := by
  rcases List.mem_cons.mp hother with rfl | hother
  · have hne : fs.locate store.path ≠ fs.locate (store.stagingPath ++ "") :=
      locate_stagingPath_append_ne hlocate (by simp)
    rwa [String.append_empty] at hne
  · rcases List.mem_append.mp hother with hother | hother
    · simp only [besides, List.mem_cons, List.not_mem_nil, or_false] at hother
      rcases hother with rfl | rfl | rfl
      · exact locate_stagingPath_append_ne hlocate (by decide)
      · exact locate_stagingPath_append_ne hlocate (by decide)
      · exact locate_stagingPath_append_ne hlocate (by decide)
    · exact FileSystem.locate_ne_of_mem_besides hlocate hother

theorem stagingPath_mem_otherPaths (store : GraphStore) : store.stagingPath ∈ store.otherPaths :=
  List.mem_cons_self ..

theorem staging_subset_otherPaths (store : GraphStore) :
    store.stagingPath :: besides store.stagingPath ⊆ store.otherPaths :=
  List.cons_subset_cons _ (List.subset_append_left _ _)

theorem sidecars_subset_otherPaths (store : GraphStore) : store.sidecars ⊆ store.otherPaths := by
  have hbesides : besides store.path ⊆ store.otherPaths :=
    List.Subset.trans (List.subset_append_right _ _) (List.subset_cons_self _ _)
  unfold sidecars
  split
  · exact List.nil_subset _
  · exact List.Subset.trans (List.subset_cons_self _ _) hbesides

/-! ### The steps of a save -/

/-- The directory of a store whose path can be followed is there. -/
theorem createParent_of_locate {l : Location} (hlocate : fs.locate store.path = .ok l) :
    store.createParent fs = (.ok (), fs) := by
  unfold createParent
  split
  · exact FileSystem.createDirectories_parent ‹_› hlocate
  · rfl

theorem changesFiles_writeStaging (store : GraphStore) (document : Document) (fs : FileSystem) :
    ChangesFiles (store.stagingPath :: besides store.stagingPath) fs
      (store.writeStaging document fs).2 := by
  have hself : store.stagingPath ∈ store.stagingPath :: besides store.stagingPath :=
    List.mem_cons_self ..
  unfold writeStaging
  split
  · split
    · exact ChangesFiles.refl _ fs
    · exact ChangesFiles.write hself ‹_›
  · rcases hremoved : removePresent [store.stagingPath] fs with ⟨result, removed⟩
    have hfirst := (changesFiles_removePresent hremoved).mono
      (List.cons_subset_cons store.stagingPath (List.nil_subset (besides store.stagingPath)))
    cases result with
    | error error => exact hfirst
    | ok done =>
      have hcreated := removed.changesFiles_createDatabase store.stagingPath document.toRows
      rcases hcreate : removed.createDatabase store.stagingPath document.toRows with
        ⟨result, created⟩
      rw [hcreate] at hcreated
      dsimp only
      rw [hcreate]
      cases result with
      | error error => exact hfirst.trans hcreated
      | ok done => exact hfirst.trans hcreated

/-- A save that fails where the store's path can be followed has changed nothing but files at the
other paths. -/
theorem changesFiles_of_failed_save {error : StoreError} {l : Location}
    (hlocate : fs.locate store.path = .ok l)
    (hsave : store.save document fs = (.error error, fs')) :
    ChangesFiles store.otherPaths fs fs' := by
  have hwritten := (store.changesFiles_writeStaging document fs).mono
    store.staging_subset_otherPaths
  rw [save, createParent_of_locate hlocate] at hsave
  dsimp only at hsave
  rcases hstaged : store.writeStaging document fs with ⟨result, staged⟩
  rw [hstaged] at hsave hwritten
  cases result with
  | error reason =>
    obtain rfl := (Prod.mk.inj hsave).2
    exact hwritten.trans (ChangesFiles.discard staged store.stagingPath_mem_otherPaths)
  | ok done =>
    rcases hcleared : removePresent store.sidecars staged with ⟨result, cleared⟩
    have hremoved := (changesFiles_removePresent hcleared).mono store.sidecars_subset_otherPaths
    dsimp only at hsave
    rw [hcleared] at hsave
    cases result with
    | error reason =>
      obtain rfl := (Prod.mk.inj hsave).2
      exact hwritten.trans hremoved
    | ok done =>
      dsimp only at hsave
      split at hsave
      · obtain rfl := (Prod.mk.inj hsave).2
        exact hwritten.trans hremoved
      · cases hsave

/-- A save keeps the directories where the store's path can be followed. -/
theorem directories_save {l : Location} (hlocate : fs.locate store.path = .ok l)
    (document : Document) : SameDirectories fs (store.save document fs).2 := by
  rcases hsave : store.save document fs with ⟨result, after⟩
  cases result with
  | error error => exact (changesFiles_of_failed_save hlocate hsave).directories
  | ok done =>
    obtain ⟨created, staged, cleared, hcreated, hstaged, hcleared, hmoved⟩ := save_eq_ok hsave
    obtain rfl : fs = created :=
      (Prod.mk.inj ((createParent_of_locate hlocate).symm.trans hcreated)).2
    have hwritten := (store.changesFiles_writeStaging document fs).directories
    rw [hstaged] at hwritten
    exact (hwritten.trans (changesFiles_removePresent hcleared).directories).trans (.rename hmoved)

theorem isBlocked_save {l : Location} (hlocate : fs.locate store.path = .ok l)
    (document : Document) :
    store.isBlocked (store.save document fs).2 = store.isBlocked fs :=
  isBlocked_eq (directories_save hlocate document)

/-! ### What is loaded -/

/-- What is found at the store's place is in a file. -/
theorem exists_entry_of_content? (h : fs.content? store.path = some content) :
    fs.entry store.path = .ok (.file content) := by
  unfold FileSystem.content? at h
  split at h
  · rwa [← Option.some.inj h]
  · cases h

theorem read_json_of_no_value {s : String} (h : Json.parse? s = none) :
    read .json (.text s) = .error .invalidJson := by
  simp only [read, h, Option.bind_none]

/-- No document is read from at most one byte. -/
theorem read_json_of_isBlank (h : content.isBlank = true) :
    read .json content = .error .invalidJson := by
  cases content with
  | database rows => cases h
  | binary bytes => rfl
  | text s =>
    have hnone : (Json.parse? s).bind Document.ofJson? = none := by
      rw [← Option.isNone_iff_eq_none]
      rcases Text.eq_empty_or_singleton (of_decide_eq_true h) with rfl | ⟨n, hn, rfl⟩
      · decide +kernel
      · exact ofJson?_of_singleton n hn
    simp only [read, hnone]

/-- From a file that was opened as a database the same is read as before, in every format. -/
theorem read_of_opened {after : Content} (h : content.Opened after) (format : GraphFormat) :
    read format after = read format content := by
  rcases h with rfl | ⟨hblank, rfl⟩
  · rfl
  · cases format with
    | json => rw [read_json_of_isBlank hblank, read_json_of_no_value parse?_blankDatabase]
    | sqlite =>
      cases content with
      | database rows => cases hblank
      | binary bytes => simp only [read]
      | text s => simp only [read]

/-! ### A stored file that is kept -/

/-- What is a directory still is one, and the stored file is there as it was, but that a database of
at most one byte may have been opened. -/
structure Keeps (store : GraphStore) (fs fs' : FileSystem) : Prop where
  directories : SameDirectories fs fs'
  entry : ∀ {content}, fs.entry store.path = .ok (.file content) →
    ∃ after, (after = content ∨ store.format = .sqlite ∧ content.isBlank = true ∧
        after = .text FileSystem.blankDatabase) ∧
      fs'.entry store.path = .ok (.file after)

namespace Keeps

theorem refl (store : GraphStore) (fs : FileSystem) : store.Keeps fs fs :=
  ⟨SameDirectories.refl fs, fun h => ⟨_, .inl rfl, h⟩⟩

theorem trans {a b c : FileSystem} (hab : store.Keeps a b) (hbc : store.Keeps b c) :
    store.Keeps a c where
  directories := hab.directories.trans hbc.directories
  entry h := by
    obtain ⟨between, hbetween, hentry⟩ := hab.entry h
    obtain ⟨after, hafter, hlast⟩ := hbc.entry hentry
    refine ⟨after, ?_, hlast⟩
    rcases hafter with rfl | ⟨hformat, hblank, rfl⟩
    · exact hbetween
    · rcases hbetween with rfl | ⟨-, hbefore, -⟩
      · exact .inr ⟨hformat, hblank, rfl⟩
      · exact .inr ⟨hformat, hbefore, rfl⟩

/-- From a stored file that is kept the same is loaded, by every store at its place. -/
theorem load_fst (h : store.Keeps fs fs') (hcontent : fs.content? store.path = some content)
    {other : GraphStore} (hplace : other.path = store.path) :
    (other.load fs').1 = (other.load fs).1 := by
  obtain ⟨after, hafter, hentry⟩ := h.entry (exists_entry_of_content? hcontent)
  have hopened : content.Opened after := hafter.imp_right fun hblank => hblank.2
  rw [← hplace] at hcontent hentry
  rw [GraphStore.load_fst hcontent, GraphStore.load_fst (FileSystem.content?_of_entry hentry),
    isBlocked_eq h.directories, read_of_opened hopened]

end Keeps

/-- A store from which something was loaded can be opened after the next save as well. -/
theorem isBlocked_eq_false_of_load_of_save {loaded : Document} {after : FileSystem}
    (hload : store.load fs = (.ok loaded, fs')) (hsave : store.save document fs' = (.ok (), after)) :
    store.isBlocked after = false := by
  obtain ⟨⟨content, hcontent⟩, hopens⟩ := content?_of_load hload
  have hdirectories := (changesFiles_of_load hload).directories
  obtain ⟨l, hlocate, -, -⟩ := FileSystem.entry_eq_file (exists_entry_of_content? hcontent)
  have hsaved := isBlocked_save (hdirectories.locate_eq_ok_iff.mpr hlocate) document
  rw [hsave, isBlocked_eq hdirectories] at hsaved
  exact hsaved.trans hopens

end GraphStore

end CodeAtlas
