import CodeAtlas.Proofs.FileSystem.Operations

/-!
# What the operations on files leave alone

Files are written and removed without making or losing a directory that can be reached, so a path
leads where it led before, and what is a directory stays one. A file is left alone by everything
that is done at other locations.

## Main definitions

* `FileSystem.Shrinks`: entries were only taken away.
* `FileSystem.SameDirectories`: the same directories can be reached.
* `FileSystem.ChangesFiles`: files were written and removed at some paths only.

## Main results

* `FileSystem.SameDirectories.locate_eq_ok_iff`, `FileSystem.SameDirectories.isDirectory_eq`: paths
  lead to the same locations, and to the same directories.
* `FileSystem.ChangesFiles.entry_eq`, `FileSystem.ChangesFiles.pathExists_eq`: what is done
  elsewhere leaves an entry alone.
-/

namespace CodeAtlas.FileSystem

variable {fs fs' : FileSystem} {path other : String} {content : Content}

/-! ### Entries that are taken away -/

/-- Files were only taken away. -/
structure Shrinks (fs fs' : FileSystem) : Prop where
  current_eq : fs.current = fs'.current
  at?_eq : ∀ l entry, fs'.at? l = some entry → fs.at? l = some entry

theorem Shrinks.refl (fs : FileSystem) : Shrinks fs fs :=
  ⟨rfl, fun _ _ h => h⟩

theorem Shrinks.trans {a b c : FileSystem} (hab : Shrinks a b) (hbc : Shrinks b c) : Shrinks a c :=
  ⟨hab.current_eq.trans hbc.current_eq, fun l entry h => hab.at?_eq l entry (hbc.at?_eq l entry h)⟩

theorem shrinks_removeFile (h : fs.removeFile path = .ok fs') : Shrinks fs fs' := by
  obtain ⟨l, content, -, -, rfl⟩ := removeFile_eq_ok h
  refine ⟨rfl, fun l' entry hat => ?_⟩
  rw [at?_erase] at hat
  split at hat
  · exact absurd hat (by simp)
  · exact hat

/-! ### Directories that are kept -/

theorem isDirectory_iff : fs.isDirectory path = true ↔ fs.entry path = .ok .directory := by
  unfold isDirectory
  split
  · simp_all
  · simp_all

/-- The same directories can be reached in both file systems, and the second has no other ones. -/
structure SameDirectories (fs fs' : FileSystem) : Prop where
  current_eq : fs.current = fs'.current
  kept : ∀ l, fs.Opens l → fs'.at? l = some .directory
  old : ∀ l, fs'.at? l = some .directory → fs.at? l = some .directory

namespace SameDirectories

theorem refl (fs : FileSystem) : SameDirectories fs fs :=
  ⟨rfl, fun l h => h l (List.prefix_refl l), fun _ h => h⟩

theorem trans {a b c : FileSystem} (hab : SameDirectories a b) (hbc : SameDirectories b c) :
    SameDirectories a c where
  current_eq := hab.current_eq.trans hbc.current_eq
  kept l h := hbc.kept l fun above hfront =>
    hab.kept above fun higher hhigher => h higher (hhigher.trans hfront)
  old l h := hab.old l (hbc.old l h)

theorem locate_eq_ok_iff (h : SameDirectories fs fs') {l : Location} :
    fs'.locate path = .ok l ↔ fs.locate path = .ok l :=
  ⟨locate_of_opens h.current_eq.symm fun d hd => h.old d (hd d (List.prefix_refl d)),
    locate_of_opens h.current_eq h.kept⟩

theorem entry_eq_directory_iff (h : SameDirectories fs fs') :
    fs'.entry path = .ok .directory ↔ fs.entry path = .ok .directory := by
  constructor
  · intro hentry
    obtain ⟨l, hlocate, hat⟩ := entry_eq_directory hentry
    exact entry_of_directory (h.locate_eq_ok_iff.mp hlocate) (h.old l hat)
  · intro hentry
    obtain ⟨l, hlocate, hat⟩ := entry_eq_directory hentry
    exact entry_of_directory (h.locate_eq_ok_iff.mpr hlocate)
      (h.kept l ((opensAbove_of_locate hlocate).opens hat))

theorem isDirectory_eq (h : SameDirectories fs fs') :
    fs'.isDirectory path = fs.isDirectory path := by
  rw [Bool.eq_iff_iff, isDirectory_iff, isDirectory_iff, h.entry_eq_directory_iff]

theorem put {l : Location} (hfree : fs.at? l ≠ some .directory) (content : Content) :
    SameDirectories fs (fs.put l (.file content)) where
  current_eq := rfl
  kept d hd := by
    have hat := hd d (List.prefix_refl d)
    have hne : d ≠ l := fun heq => hfree (heq ▸ hat)
    rw [at?_put _ (ne_nil_of_at?_ne hfree), if_neg hne, hat]
  old d hd := by
    rw [at?_put _ (ne_nil_of_at?_ne hfree)] at hd
    split_ifs at hd
    · simp at hd
    · exact hd

theorem erase {l : Location} (hfile : fs.at? l = some (.file content)) :
    SameDirectories fs (fs.erase l) where
  current_eq := rfl
  kept d hd := by
    rw [at?_erase, if_neg, hd d (List.prefix_refl d)]
    rintro ⟨-, hbelow⟩
    exact absurd (hfile.symm.trans (hd l hbelow)) (by simp)
  old d hd := by
    rw [at?_erase] at hd
    split_ifs at hd
    exact hd

theorem write (h : fs.write path content = .ok fs') : SameDirectories fs fs' := by
  obtain ⟨l, -, -, -, hfree, rfl⟩ := write_eq_ok h
  exact put hfree content

theorem removeFile (h : fs.removeFile path = .ok fs') : SameDirectories fs fs' := by
  obtain ⟨l, content, -, hfile, rfl⟩ := removeFile_eq_ok h
  exact erase hfile

theorem rename {source target : String} (h : fs.rename source target = .ok fs') :
    SameDirectories fs fs' := by
  obtain ⟨l, l', content, -, hfile, -, -, hfree, rfl⟩ := rename_eq_ok h
  have herased := erase hfile
  exact herased.trans (put (mt (herased.old l') hfree) content)

end SameDirectories

/-! ### Changes elsewhere -/

/-- What is taken away from a larger file system leaves the files of the smaller one. -/
theorem entry_of_shrinks (hshrinks : Shrinks fs' fs) (h : fs.entry path = .ok (.file content)) :
    fs'.entry path = .ok (.file content) := by
  obtain ⟨l, hlocate, hfile, hasks⟩ := entry_eq_file h
  have hopens : ∀ d, fs.Opens d → fs'.at? d = some .directory := fun d hd =>
    hshrinks.at?_eq d _ (hd d (List.prefix_refl d))
  exact entry_of_at? (locate_of_opens hshrinks.current_eq.symm hopens hlocate)
    (hshrinks.at?_eq l _ hfile) hasks

/-- Creating directories only adds entries, also where it fails. -/
theorem shrinks_createAlong (fs : FileSystem) (location : Location) (parts : List PathText.Part) :
    Shrinks (fs.createAlong location parts).2 fs := by
  induction parts generalizing fs location with
  | nil => exact Shrinks.refl _
  | cons part rest ih =>
    cases part with
    | root => exact ih fs []
    | here => exact ih fs location
    | up => exact ih fs location.dropLast
    | name text =>
      simp only [createAlong]
      split
      · exact ih fs _
      · exact Shrinks.refl _
      · rename_i hnone
        refine (ih _ _).trans ⟨rfl, fun l entry hat => ?_⟩
        have hne : l ≠ location ++ [text] := by
          rintro rfl
          exact absurd (hat.symm.trans hnone) (by simp)
        rw [at?_put _ (by simp), if_neg hne, hat]

theorem shrinks_createDirectories (fs : FileSystem) (path : String) :
    Shrinks (fs.createDirectories path).2 fs := by
  unfold createDirectories
  split_ifs
  · exact Shrinks.refl _
  · exact shrinks_createAlong _ _ _

/-! ### Files that are changed -/

/-- Files were written and removed at some paths only. -/
structure ChangesFiles (paths : List String) (fs fs' : FileSystem) : Prop where
  directories : SameDirectories fs fs'
  at?_eq : ∀ {l}, fs.OpensAbove l → (∀ other ∈ paths, fs.locate other ≠ .ok l) →
    fs'.at? l = fs.at? l

namespace ChangesFiles

variable {paths paths' : List String}

theorem refl (paths : List String) (fs : FileSystem) : ChangesFiles paths fs fs :=
  ⟨SameDirectories.refl fs, fun _ _ => rfl⟩

theorem trans {a b c : FileSystem} (hab : ChangesFiles paths a b) (hbc : ChangesFiles paths b c) :
    ChangesFiles paths a c where
  directories := hab.directories.trans hbc.directories
  at?_eq {l} habove helse := by
    have hkept : b.OpensAbove l := fun above hfront hne =>
      hab.directories.kept above fun higher hhigher =>
        habove higher (hhigher.trans hfront) fun heq =>
          hne (hfront.eq_of_length_le (heq ▸ hhigher.length_le))
    rw [hbc.at?_eq hkept fun other hmem => mt hab.directories.locate_eq_ok_iff.mp (helse other hmem),
      hab.at?_eq habove helse]

theorem mono (h : ChangesFiles paths fs fs') (hsubset : paths ⊆ paths') :
    ChangesFiles paths' fs fs' :=
  ⟨h.directories, fun habove helse =>
    h.at?_eq habove fun other hmem => helse other (hsubset hmem)⟩

theorem write (hmem : path ∈ paths) (h : fs.write path content = .ok fs') :
    ChangesFiles paths fs fs' where
  directories := SameDirectories.write h
  at?_eq {l} _ helse := by
    obtain ⟨target, hlocate, -, hne, -, rfl⟩ := write_eq_ok h
    rw [at?_put _ hne, if_neg]
    rintro rfl
    exact helse path hmem hlocate

theorem removeFile (hmem : path ∈ paths) (h : fs.removeFile path = .ok fs') :
    ChangesFiles paths fs fs' where
  directories := SameDirectories.removeFile h
  at?_eq {l} habove helse := by
    obtain ⟨target, removed, hlocate, hfile, rfl⟩ := removeFile_eq_ok h
    -- Were it below the removed file, the way to it would lead through a file.
    rw [at?_erase, if_neg]
    rintro ⟨-, hbelow⟩
    have hne : target ≠ l := by
      rintro rfl
      exact helse path hmem hlocate
    exact absurd (hfile.symm.trans (habove target hbelow hne)) (by simp)

theorem discard (fs : FileSystem) (hmem : path ∈ paths) :
    ChangesFiles paths fs (fs.discard path) := by
  unfold FileSystem.discard
  split
  · exact removeFile hmem ‹_›
  · exact refl _ fs

/-- What a path leads to is left alone, if the path leads somewhere else. -/
theorem entry_eq (h : ChangesFiles paths fs fs') {l : Location} (hlocate : fs.locate path = .ok l)
    (helse : ∀ other ∈ paths, fs.locate other ≠ .ok l) : fs'.entry path = fs.entry path := by
  simp only [entry, hlocate, h.directories.locate_eq_ok_iff.mpr hlocate, bind, Except.bind,
    h.at?_eq (opensAbove_of_locate hlocate) helse]

theorem entry_kept (h : ChangesFiles paths fs fs')
    (helse : ∀ other ∈ paths, fs.locate path ≠ fs.locate other)
    (hfile : fs.entry path = .ok (.file content)) : fs'.entry path = .ok (.file content) := by
  obtain ⟨l, hlocate, -, -⟩ := entry_eq_file hfile
  rw [h.entry_eq hlocate fun other hmem heq => helse other hmem (hlocate.trans heq.symm), hfile]

end ChangesFiles

end CodeAtlas.FileSystem
