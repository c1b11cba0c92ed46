import CodeAtlas.Proofs.StoreSafety

/-!
# What a save leaves at the staging path

A save writes a staging file and moves it to the store's place. If the staging file cannot be
written, it is discarded; if it has been written and the save fails afterwards, because a file beside
the database or the place itself is a directory, it stays where it is. So an entry is left at the
staging path exactly by the saves that fail once the staging file is written, besides those whose way
to the store's directory makes a directory of the staging path.

## Main definitions

* `GraphStore.Staged`: the staging file was written.

## Main results

* `FileSystem.pathExists_discard`: only a directory withstands being discarded.
* `GraphStore.locate_stagingPath_ne_sidecar`: the staging file is none of the files beside a database.
* `GraphStore.stagingFile_left_iff`: when there is an entry at the staging path after a save.
* `GraphStore.stagingFile_left`: saves that leave the staging file.
-/

namespace CodeAtlas

/-! ### Paths with a suffix -/

namespace PathText

/-- What is appended to a path is appended to its last segment. -/
theorem exists_append_eq_join (path : String) {suffix : String} (hsuffix : '/' ∉ suffix.toList)
    (hlong : 2 < suffix.length) : ∃ base front, IsName (front ++ suffix) ∧
      path ++ suffix = join base (front ++ suffix) := by
  obtain ⟨init, field, hsplit, hfield⟩ := Text.exists_splitChars_eq (· == '/') path.toList
  have hlast : field ∈ Text.splitChars (· == '/') path.toList :=
    hsplit ▸ List.mem_append_right init (List.mem_singleton_self field)
  have hslash : '/' ∉ (String.ofList field).toList :=
    slash_notMem_of_mem_split (List.mem_map_of_mem hlast)
  have hname := isName_append hslash hsuffix hlong
  rcases hfield with ⟨-, hpath⟩ | ⟨-, front, s, hs, hpath⟩
  · refine ⟨"", String.ofList field, hname, ?_⟩
    rw [join, if_neg (by simp [hname.isAbsolute_eq]), if_pos (Or.inl rfl), ← hpath,
      String.ofList_toList, String.empty_append]
  · obtain rfl : s = '/' := beq_iff_eq.mp hs
    have hends : Text.endsWith "/" (String.ofList (front ++ ['/'])) = true := by
      have htoList : (String.ofList (front ++ ['/'])).toList = front ++ ['/'] := String.toList_ofList
      rw [Text.endsWith, List.isSuffixOf_iff_suffix, htoList]
      exact List.suffix_append front ['/']
    refine ⟨String.ofList (front ++ ['/']), String.ofList field, hname, ?_⟩
    rw [join, if_neg (by simp [hname.isAbsolute_eq]), if_pos (Or.inr hends), ← String.append_assoc,
      ← String.ofList_append, List.append_assoc, List.singleton_append, ← hpath,
      String.ofList_toList]

end PathText

/-! ### Paths without an entry -/

namespace FileSystem

variable {fs fs' : FileSystem} {path : String}

/-- Nothing is at a path whose location holds nothing, wherever it could be followed. -/
theorem pathExists_eq_false (hcurrent : fs.current = fs'.current) {l : Location}
    (hlocate : fs.locate path = .ok l) (hat : fs'.at? l = none) : fs'.pathExists path = false := by
  unfold pathExists entry
  cases hlocate' : fs'.locate path with
  | error error => rfl
  | ok l' =>
    obtain rfl := locate_eq_locate hcurrent hlocate hlocate'
    simp only [bind, Except.bind, hat]
    rfl

/-- Only a directory withstands being discarded. -/
theorem pathExists_discard (fs : FileSystem) (path : String) :
    (fs.discard path).pathExists path = fs.isDirectory path := by
  unfold discard isDirectory
  cases hremove : fs.removeFile path with
  | error error =>
    dsimp only
    unfold pathExists
    cases hentry : fs.entry path with
    | error error => rfl
    | ok found =>
      cases found with
      | directory => rfl
      | file content =>
        obtain ⟨l, hlocate, -, -⟩ := entry_eq_file hentry
        simp [removeFile, hentry, hlocate, bind, Except.bind, pure, Except.pure] at hremove
  | ok removed =>
    obtain ⟨l, content, hlocate, hfile, rfl⟩ := removeFile_eq_ok hremove
    have hgone : (fs.erase l).at? l = none := by
      rw [at?_erase, if_pos ⟨ne_nil_of_at?_file hfile, List.prefix_refl l⟩]
    have hdirectory : fs.entry path ≠ .ok .directory := by
      intro hentry
      obtain ⟨l', hlocate', hat⟩ := entry_eq_directory hentry
      obtain rfl := Except.ok.inj (hlocate.symm.trans hlocate')
      exact absurd (hfile.symm.trans hat) (by simp)
    have hcurrent : fs.current = (fs.erase l).current := rfl
    dsimp only
    rw [pathExists_eq_false hcurrent hlocate hgone]
    split
    · exact absurd ‹_› hdirectory
    · rfl

end FileSystem

namespace GraphStore

open PathText (IsName fileName?)

variable {store : GraphStore} {document : Document} {fs fs' staged : FileSystem}
  {content : Content}

/-! ### The staging path -/

/-- The staging file is none of the files beside a database. -/
theorem locate_stagingPath_ne_sidecar (h : fs.entry store.stagingPath = .ok (.file content))
    {other : String} (hother : other ∈ store.sidecars) :
    fs.locate store.stagingPath ≠ fs.locate other := by
  intro heq
  obtain ⟨l, hlocate, -, -⟩ := FileSystem.entry_eq_file h
  rw [hlocate] at heq
  obtain ⟨base, front, hname, hpath, -⟩ := store.exists_stagingPath_eq
  rw [hpath] at hlocate
  obtain ⟨above, rfl, -, -⟩ := FileSystem.locate_join_eq_ok hname hlocate
  obtain ⟨suffix, rfl, hslash, hlong, hlast⟩ : ∃ suffix, other = store.path ++ suffix ∧
      '/' ∉ suffix.toList ∧ 2 < suffix.length ∧ suffix.toList.getLast? ≠ some 'p' := by
    unfold sidecars at hother
    split at hother
    · exact absurd hother List.not_mem_nil
    · simp only [List.mem_cons, List.not_mem_nil, or_false] at hother
      rcases hother with rfl | rfl
      · exact ⟨"-wal", rfl, by decide, by decide, by decide⟩
      · exact ⟨"-shm", rfl, by decide, by decide, by decide⟩
  obtain ⟨base', front', hname', hpath'⟩ :=
    PathText.exists_append_eq_join store.path hslash hlong
  rw [hpath'] at heq
  obtain ⟨above', hplace, -, -⟩ := FileSystem.locate_join_eq_ok hname' heq.symm
  -- One name ends with the suffix of staging files, and the other does not.
  have hsame : front ++ ".tmp" = front' ++ suffix :=
    List.singleton_inj.mp (List.append_inj' hplace rfl).2
  have hends := congrArg (fun text => text.toList.getLast?) hsame
  have hne : suffix.toList ≠ [] := by
    intro hnil
    rw [← String.length_toList, hnil] at hlong
    exact absurd hlong (by decide)
  simp only [String.toList_append, List.getLast?_append_of_ne_nil _ hne] at hends
  rw [List.getLast?_append_of_ne_nil _ (by decide)] at hends
  exact hlast hends.symm

/-! ### After a save -/

/-- A save writes the staging file, which gives this file system. -/
def Staged (store : GraphStore) (document : Document) (fs staged : FileSystem) : Prop :=
  ∃ created, store.createParent fs = (.ok (), created) ∧
    store.writeStaging document created = (.ok (), staged)

theorem Staged.entry (h : store.Staged document fs staged) :
    staged.entry store.stagingPath = .ok (.file (contentOf store.format document)) := by
  obtain ⟨created, -, hstaged⟩ := h
  obtain ⟨before, hwritten⟩ := writeStaging_eq_ok hstaged
  exact FileSystem.entry_of_write hwritten

/-- The staging file stays while the files beside a database are removed. -/
theorem Staged.entry_removePresent {cleared : FileSystem} {result : Except IoError Unit}
    (h : store.Staged document fs staged)
    (hcleared : removePresent store.sidecars staged = (result, cleared)) :
    cleared.entry store.stagingPath = .ok (.file (contentOf store.format document)) :=
  (changesFiles_removePresent hcleared).entry_kept
    (fun _ hother => locate_stagingPath_ne_sidecar h.entry hother) h.entry

/-- A save that fails once the staging file is written leaves it there. -/
theorem Staged.entry_of_failed_save {error : StoreError} (h : store.Staged document fs staged)
    (hsave : store.save document fs = (.error error, fs')) :
    fs'.entry store.stagingPath = .ok (.file (contentOf store.format document)) := by
  obtain ⟨created, hcreated, hstaged⟩ := id h
  simp only [save, hcreated, hstaged] at hsave
  split at hsave
  · rename_i cleared hcleared
    obtain rfl := (Prod.mk.inj hsave).2
    exact h.entry_removePresent hcleared
  · rename_i cleared hcleared
    split at hsave
    · obtain rfl := (Prod.mk.inj hsave).2
      exact h.entry_removePresent hcleared
    · exact absurd (Prod.mk.inj hsave).1 (by simp)

/-- A save that succeeds has moved the staging file away. -/
theorem pathExists_stagingPath_of_save (hsave : store.save document fs = (.ok (), fs')) :
    fs'.pathExists store.stagingPath = false := by
  obtain ⟨created, staged, cleared, -, -, -, hmoved⟩ := save_eq_ok hsave
  obtain ⟨l, target, content, hsource, hfile, htarget, hasks, hfree, rfl⟩ :=
    FileSystem.rename_eq_ok hmoved
  have hcurrent : cleared.current = ((cleared.erase l).put target (.file content)).current := rfl
  refine FileSystem.pathExists_eq_false hcurrent hsource ?_
  rw [FileSystem.at?_put _ (FileSystem.ne_nil_of_at?_ne hfree)]
  split_ifs with heq
  · -- The place would hold the staging file, which is elsewhere.
    subst heq
    have hplace : cleared.entry store.path = .ok (.file content) :=
      FileSystem.entry_of_at? htarget hfile hasks
    exact absurd (htarget.trans hsource.symm)
      (locate_ne_of_mem_otherPaths htarget store.stagingPath_mem_otherPaths)
  · rw [FileSystem.at?_erase,
      if_pos ⟨FileSystem.ne_nil_of_at?_file hfile, List.prefix_refl l⟩]

/-- Where the directory of a store cannot be created there is nothing at the staging path. -/
theorem pathExists_stagingPath_of_createParent_error {error : IoError}
    (h : store.createParent fs = (.error error, fs')) :
    fs'.pathExists store.stagingPath = false := by
  have hunreached (l : Location) : fs'.locate store.stagingPath ≠ .ok l := by
    unfold createParent at h
    cases hparent : PathText.parent? store.path with
    | none =>
      rw [hparent] at h
      cases h
    | some parent =>
      rw [hparent] at h
      have hne : parent ≠ "" := by
        rintro rfl
        cases h
      obtain ⟨base, front, hname, hpath, hbase⟩ := store.exists_stagingPath_eq
      have hparts : PathText.parts (PathText.join fs.current store.stagingPath) =
          PathText.parts (PathText.join fs.current base) ++ [.name (front ++ ".tmp")] := by
        rw [hpath, ← PathText.join_join hname.isAbsolute_eq, PathText.parts_join hname]
      rcases hbase with ⟨-, rfl⟩ | ⟨-, rfl⟩
      · obtain ⟨part, hpart⟩ := PathText.exists_parts_join_eq hparent hne fs.current
        rw [hpart, List.append_assoc] at hparts
        exact FileSystem.locate_of_createDirectories_error h (by simp) hparts l
      · rw [hparent, Option.getD_some] at hparts
        exact FileSystem.locate_of_createDirectories_error h (by simp) hparts l
  unfold FileSystem.pathExists FileSystem.entry
  cases hlocate : fs'.locate store.stagingPath with
  | error reason => rfl
  | ok l => exact absurd hlocate (hunreached l)

/-- Before the staging file is written, only directories are created: there is one at the staging
path, or nothing is left there. -/
theorem pathExists_stagingPath_of_not_staged (h : ¬ ∃ staged, store.Staged document fs staged) :
    (store.save document fs).2.pathExists store.stagingPath = true ↔
      ∃ created, store.createParent fs = (.ok (), created) ∧
        created.isDirectory store.stagingPath = true := by
  rcases hcreated : store.createParent fs with ⟨result, created⟩
  cases result with
  | error error =>
    simp only [save, hcreated, pathExists_stagingPath_of_createParent_error hcreated]
    simp
  | ok done =>
    have hdirectories := (store.changesFiles_writeStaging document created).directories
    rcases hstaged : store.writeStaging document created with ⟨result, staged⟩
    rw [hstaged] at hdirectories
    cases result with
    | error error =>
      simp only [save, hcreated, hstaged, FileSystem.pathExists_discard, hdirectories.isDirectory_eq]
      simp
    | ok done => exact absurd ⟨staged, created, hcreated, hstaged⟩ h

/-- No staging file is written in place of a directory. -/
theorem isDirectory_stagingPath_of_staged {created : FileSystem}
    (h : store.Staged document fs staged) (hcreated : store.createParent fs = (.ok (), created)) :
    created.isDirectory store.stagingPath = false := by
  have hentry := h.entry
  obtain ⟨created', hcreated', hstaged⟩ := h
  obtain rfl := (Prod.mk.inj (hcreated.symm.trans hcreated')).2
  have hdirectories := (store.changesFiles_writeStaging document created).directories
  rw [hstaged] at hdirectories
  rw [← hdirectories.isDirectory_eq, FileSystem.isDirectory, hentry]

/-- There is something at the staging path after a save exactly if there is a directory once the
store's directory is created, or if the save failed after the staging file was written. Then it is
this file that is left. -/
theorem stagingFile_left_iff (store : GraphStore) (document : Document) (fs : FileSystem) :
    ((store.save document fs).2.pathExists store.stagingPath = true ↔
      (∃ created, store.createParent fs = (.ok (), created) ∧
        created.isDirectory store.stagingPath = true) ∨
      ∃ staged error, store.Staged document fs staged ∧
        (store.save document fs).1 = .error error) ∧
    ∀ staged error, store.Staged document fs staged → (store.save document fs).1 = .error error →
      (store.save document fs).2.entry store.stagingPath =
        .ok (.file (contentOf store.format document)) := by
  have hleft (staged : FileSystem) (error : StoreError) (hstaged : store.Staged document fs staged)
      (hsave : (store.save document fs).1 = .error error) :
      (store.save document fs).2.entry store.stagingPath =
        .ok (.file (contentOf store.format document)) :=
    hstaged.entry_of_failed_save (Prod.ext hsave rfl)
  refine ⟨?_, hleft⟩
  by_cases hstages : ∃ staged, store.Staged document fs staged
  · obtain ⟨staged, hstaged⟩ := hstages
    have hnone : ¬ ∃ created, store.createParent fs = (.ok (), created) ∧
        created.isDirectory store.stagingPath = true := by
      rintro ⟨created, hcreated, hdirectory⟩
      rw [isDirectory_stagingPath_of_staged hstaged hcreated] at hdirectory
      exact Bool.noConfusion hdirectory
    rw [or_iff_right hnone]
    cases hsave : (store.save document fs).1 with
    | error error =>
      have hentry := hleft staged error hstaged hsave
      simp only [FileSystem.pathExists, hentry, true_iff]
      exact ⟨staged, error, hstaged, rfl⟩
    | ok done =>
      rw [pathExists_stagingPath_of_save (Prod.ext hsave rfl)]
      simp
  · rw [pathExists_stagingPath_of_not_staged hstages, or_iff_left]
    rintro ⟨staged, error, hstaged, -⟩
    exact hstages ⟨staged, hstaged⟩

/-! ### Saves that leave the staging file -/

/-- A directory where a directory stands in place of a document, and another in place of the log
beside a database. -/
def blockedTree : FileSystem where
  entries := [(["repo"], .directory), (["repo", "g.json"], .directory),
    (["repo", "g.db-wal"], .directory)]
  current := "/"

/-- A place at which there is a directory. -/
def takenPlace : GraphStore :=
  ⟨"/repo/g.json", .json⟩

/-- A place beside which there is a directory. -/
def loggedPlace : GraphStore :=
  ⟨"/repo/g.db", .sqlite⟩

/-- A document without contents. -/
def bareDocument : Document :=
  .ofGraph ⟨[], [], .empty⟩ none none

theorem stagingFile_left_iff_logged :
    blockedTree.pathExists loggedPlace.stagingPath = false ∧
    ∃ staged error, loggedPlace.Staged bareDocument blockedTree staged ∧
      (loggedPlace.save bareDocument blockedTree).1 = .error error := by
  have habsent : blockedTree.pathExists loggedPlace.stagingPath = false := by
    decide +kernel
  have hcreated : loggedPlace.createParent blockedTree = (.ok (), blockedTree) := by
    decide +kernel
  have hleft : (loggedPlace.save bareDocument blockedTree).2.pathExists loggedPlace.stagingPath =
      true := by
    decide +kernel
  refine ⟨habsent, ((stagingFile_left_iff _ _ blockedTree).1.mp hleft).resolve_left ?_⟩
  rintro ⟨created, hcreated', hdirectory⟩
  obtain rfl := (Prod.mk.inj (hcreated.symm.trans hcreated')).2
  exact absurd hdirectory (by decide +kernel)

/-- Neither save succeeds, and each leaves a staging file where there was none. -/
theorem stagingFile_left :
    blockedTree.pathExists takenPlace.stagingPath = false ∧
    (takenPlace.save bareDocument blockedTree).1 = .error (.io .isADirectory) ∧
    (takenPlace.save bareDocument blockedTree).2.pathExists takenPlace.stagingPath = true ∧
    blockedTree.pathExists loggedPlace.stagingPath = false ∧
    (loggedPlace.save bareDocument blockedTree).1 = .error (.io .isADirectory) ∧
    (loggedPlace.save bareDocument blockedTree).2.pathExists loggedPlace.stagingPath = true := by
  decide +kernel

end GraphStore

end CodeAtlas
