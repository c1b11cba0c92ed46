import CodeAtlas.DatabaseFile
import CodeAtlas.Proofs.FileSystem.Frames

/-!
# The files of a database

Opening a database and creating one writes and removes files at its place and beside it, and nowhere
else. A file with more than one byte is not written when it is opened, and one with at most one byte
is either left or made a database without tables.

## Main definitions

* `FileSystem.besides`: the paths beside a database.
* `Content.Opened`: what a file can hold after it was opened as a database.

## Main results

* `FileSystem.openDatabase_fst`: the rows that are found.
* `FileSystem.entry_openDatabase`: the file that was opened.
* `FileSystem.createDatabase_eq_ok`: a database that is created.
-/

namespace CodeAtlas

namespace Content

/-- The rows of a database. -/
def rows? : Content → Option Database
  | .database rows => some rows
  | _ => none

/-- What a file can hold after it was opened as a database: what was in it, or a database without
tables if that was at most one byte. -/
def Opened (before after : Content) : Prop :=
  after = before ∨ before.isBlank = true ∧ after = .text FileSystem.blankDatabase

end Content

namespace FileSystem

variable {fs fs' : FileSystem} {path : String} {content : Content}

/-- The paths beside a database. -/
def besides (path : String) : List String :=
  [journalPath path, logPath path, indexPath path]

/-- A file is at another place than what is beside it. -/
theorem locate_ne_of_mem_besides {l : Location} (hlocate : fs.locate path = .ok l) {other : String}
    (hother : other ∈ besides path) : fs.locate path ≠ fs.locate other := by
  simp only [besides, List.mem_cons, List.not_mem_nil, or_false] at hother
  rcases hother with rfl | rfl | rfl
  · exact locate_append_ne hlocate (by decide) (by decide)
  · exact locate_append_ne hlocate (by decide) (by decide)
  · exact locate_append_ne hlocate (by decide) (by decide)

theorem journalPath_mem_besides (path : String) : journalPath path ∈ besides path :=
  List.mem_cons_self ..

theorem logPath_mem_besides (path : String) : logPath path ∈ besides path :=
  List.mem_cons_of_mem _ (List.mem_cons_self ..)

theorem indexPath_mem_besides (path : String) : indexPath path ∈ besides path :=
  List.mem_cons_of_mem _ (List.mem_cons_of_mem _ (List.mem_cons_self ..))

theorem changesFiles_discardIf (fs : FileSystem) {other : String} (hother : other ∈ besides path)
    (kind : Content → Bool) : ChangesFiles (besides path) fs (fs.discardIf other kind) := by
  unfold discardIf
  split_ifs
  · exact ChangesFiles.discard fs hother
  · exact ChangesFiles.refl _ fs

/-- The last step of making a database without tables is to write it. -/
theorem startDatabase_cases (fs : FileSystem) (path : String) :
    ∃ before, ChangesFiles (besides path) fs before ∧
      ((∃ error, fs.startDatabase path = (.error error, before)) ∨
        ∃ started, before.write path (.text blankDatabase) = .ok started ∧
          fs.startDatabase path = (.ok (), started)) := by
  have hjournal := changesFiles_discardIf fs (journalPath_mem_besides path)
    fun content => !content.isEmpty
  unfold startDatabase
  dsimp only
  generalize fs.discardIf (journalPath path) _ = first at hjournal
  have hlog := hjournal.trans (changesFiles_discardIf first (logPath_mem_besides path)
    fun content => !content.isEmpty)
  generalize first.discardIf (logPath path) _ = second at hlog
  split_ifs
  · exact ⟨first, hjournal, .inl ⟨_, rfl⟩⟩
  · exact ⟨second, hlog, .inl ⟨_, rfl⟩⟩
  · cases hwrite : (second.discard (journalPath path)).write path (.text blankDatabase) with
    | error error => exact ⟨second, hlog, .inl ⟨error, rfl⟩⟩
    | ok started =>
      exact ⟨_, hlog.trans (ChangesFiles.discard second (journalPath_mem_besides path)),
        .inr ⟨started, hwrite, rfl⟩⟩

theorem changesFiles_closeDatabase (fs : FileSystem) (path : String) :
    ChangesFiles (besides path) fs (fs.closeDatabase path) := by
  unfold closeDatabase
  split_ifs
  · exact ChangesFiles.refl _ fs
  · split
    · exact ChangesFiles.refl _ fs
    · exact ChangesFiles.write (logPath_mem_besides path) ‹_›
  · exact (ChangesFiles.discard fs (logPath_mem_besides path)).trans
      (ChangesFiles.discard _ (indexPath_mem_besides path))

theorem changesFiles_closeOther (fs : FileSystem) (path : String) :
    ChangesFiles (besides path) fs (fs.closeOther path) := by
  unfold closeOther
  split_ifs
  · exact ChangesFiles.refl _ fs
  · exact (ChangesFiles.discard fs (logPath_mem_besides path)).trans
      (ChangesFiles.discard _ (indexPath_mem_besides path))
  · exact ChangesFiles.refl _ fs

/-- A file with more than one byte is opened without being written. -/
theorem changesFiles_openDatabase (hcontent : fs.content? path = some content)
    (hblank : content.isBlank = false) :
    ChangesFiles (besides path) fs (fs.openDatabase path).2 := by
  have hjournal := changesFiles_discardIf fs (journalPath_mem_besides path) Content.isHot
  unfold openDatabase
  simp only [hcontent, hblank, Bool.false_eq_true, ↓reduceIte]
  generalize fs.discardIf (journalPath path) _ = first at hjournal
  split_ifs
  · exact ChangesFiles.refl _ fs
  · exact hjournal
  · cases content with
    | database rows => exact hjournal.trans (changesFiles_closeDatabase first path)
    | text s =>
      dsimp only
      split_ifs
      · exact hjournal.trans (changesFiles_closeDatabase first path)
      · exact hjournal.trans (changesFiles_closeOther first path)
    | binary bytes => exact hjournal.trans (changesFiles_closeOther first path)

theorem directories_openDatabase (fs : FileSystem) (path : String) :
    SameDirectories fs (fs.openDatabase path).2 := by
  cases hcontent : fs.content? path with
  | none =>
    simp only [openDatabase, hcontent]
    exact SameDirectories.refl fs
  | some content =>
    cases hblank : content.isBlank with
    | false => exact (changesFiles_openDatabase hcontent hblank).directories
    | true =>
      simp only [openDatabase, hcontent, hblank, ↓reduceIte]
      obtain ⟨before, hbefore, ⟨error, hstart⟩ | ⟨started, hwrite, hstart⟩⟩ :=
        startDatabase_cases fs path
      · rw [hstart]
        exact hbefore.directories
      · rw [hstart]
        exact (hbefore.directories.trans (.write hwrite)).trans
          (changesFiles_closeDatabase started path).directories

/-- The rows that are found are those of the file, unless a directory is in the place of the journal
or the log. -/
theorem openDatabase_fst (fs : FileSystem) (path : String) :
    (fs.openDatabase path).1 =
      if fs.isDirectory (journalPath path) || fs.isDirectory (logPath path) then none
      else (fs.content? path).bind Content.rows? := by
  have hlog : (fs.discardIf (journalPath path) Content.isHot).isDirectory (logPath path) =
      fs.isDirectory (logPath path) :=
    (changesFiles_discardIf fs (journalPath_mem_besides path) _).directories.isDirectory_eq
  unfold openDatabase
  cases hcontent : fs.content? path with
  | none => simp
  | some content =>
    cases hblank : content.isBlank with
    | true =>
      have hrows : content.rows? = none := by
        cases content with
        | database rows => exact absurd hblank (by simp [Content.isBlank])
        | text s => rfl
        | binary bytes => rfl
      simp only [hblank, ↓reduceIte, Option.bind_some, hrows, ite_self]
      split <;> rfl
    | false =>
      simp only [hblank, Bool.false_eq_true, ↓reduceIte, hlog, Option.bind_some]
      cases hjournalDirectory : fs.isDirectory (journalPath path) with
      | true => simp
      | false =>
        cases hlogDirectory : fs.isDirectory (logPath path) with
        | true => simp
        | false => cases content <;> simp [Content.rows?]

/-! ### Creating -/

/-- The last step of creating a database is to write its rows. -/
theorem createDatabase_cases (fs : FileSystem) (path : String) (rows : Database) :
    ∃ before, ChangesFiles (path :: besides path) fs before ∧
      ((∃ error, fs.createDatabase path rows = (.error error, before)) ∨
        ∃ created, before.write path (.database rows) = .ok created ∧
          fs.createDatabase path rows = (.ok (), created)) := by
  have hself : path ∈ path :: besides path := List.mem_cons_self ..
  have hbesides : besides path ⊆ path :: besides path := List.subset_cons_self path (besides path)
  unfold createDatabase
  cases hempty : fs.write path (.text "") with
  | error error => exact ⟨fs, ChangesFiles.refl _ fs, .inl ⟨error, rfl⟩⟩
  | ok empty =>
    have hwritten := ChangesFiles.write hself hempty
    obtain ⟨before, hbefore, ⟨error, hstart⟩ | ⟨started, hwrite, hstart⟩⟩ :=
      startDatabase_cases empty path
    · simp only [hstart]
      exact ⟨before, hwritten.trans (hbefore.mono hbesides), .inl ⟨error, rfl⟩⟩
    · have hclosed := ((hwritten.trans (hbefore.mono hbesides)).trans
        (ChangesFiles.write hself hwrite)).trans
        ((changesFiles_closeDatabase started path).mono hbesides)
      simp only [hstart]
      refine ⟨_, hclosed, ?_⟩
      split_ifs
      · exact .inl ⟨_, rfl⟩
      · cases hrows : (started.closeDatabase path).write path (.database rows) with
        | error error => exact .inl ⟨error, rfl⟩
        | ok created => exact .inr ⟨created, rfl, rfl⟩

theorem changesFiles_createDatabase (fs : FileSystem) (path : String) (rows : Database) :
    ChangesFiles (path :: besides path) fs (fs.createDatabase path rows).2 := by
  obtain ⟨before, hbefore, ⟨error, hcreate⟩ | ⟨created, hwrite, hcreate⟩⟩ :=
    createDatabase_cases fs path rows
  · rw [hcreate]
    exact hbefore
  · rw [hcreate]
    exact hbefore.trans (ChangesFiles.write (List.mem_cons_self ..) hwrite)

theorem createDatabase_eq_ok {rows : Database}
    (h : fs.createDatabase path rows = (.ok (), fs')) :
    ∃ before : FileSystem, before.write path (.database rows) = .ok fs' := by
  obtain ⟨before, -, ⟨error, hcreate⟩ | ⟨created, hwrite, hcreate⟩⟩ :=
    createDatabase_cases fs path rows
  · rw [hcreate] at h
    cases h
  · rw [hcreate] at h
    cases h
    exact ⟨before, hwrite⟩

end FileSystem

end CodeAtlas
