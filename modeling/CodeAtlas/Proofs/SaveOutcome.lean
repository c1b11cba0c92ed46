import CodeAtlas.Proofs.FileSystem.Operations
import CodeAtlas.Store

/-!
# Whether a save succeeds

A document is the last that is written to the staging file. What a save does from there looks at
what is a file and what is a directory, and never at what a file holds. So it does the same to a
file system whose files are all blank, and a save succeeds or fails alike for all documents.

## Main definitions

* `FileSystem.blank`: the same files and directories, with nothing in the files.

## Main results

* `FileSystem.blank_write`, `FileSystem.blank_removeFile`, `FileSystem.blank_rename`: the operations
  on blank files.
* `GraphStore.save_fst_eq`: the outcome of a save.
-/

namespace CodeAtlas

/-- The same entry, with nothing in it. -/
def Entry.blank : Entry → Entry
  | .directory => .directory
  | .file _ => .file (.text "")

theorem Entry.blank_eq_directory {entry : Entry} : entry.blank = .directory ↔ entry = .directory := by
  cases entry <;> simp [blank]

namespace FileSystem

/-- The same files and directories, with nothing in the files. -/
def blank (fs : FileSystem) : FileSystem where
  entries := fs.entries.map fun (location, entry) => (location, entry.blank)
  current := fs.current

variable {fs : FileSystem}

theorem at?_blank (fs : FileSystem) (location : Location) :
    fs.blank.at? location = (fs.at? location).map Entry.blank := by
  unfold at? blank
  split
  · rfl
  · induction fs.entries with
    | nil => rfl
    | cons first rest ih =>
      rw [List.map_cons, List.lookup_cons, List.lookup_cons, ih]
      split <;> rfl

theorem at?_blank_eq_directory {location : Location} :
    fs.blank.at? location = some .directory ↔ fs.at? location = some .directory := by
  rw [at?_blank]
  cases fs.at? location with
  | none => simp
  | some entry => simp [Entry.blank_eq_directory]

theorem blank_put (fs : FileSystem) (location : Location) (entry : Entry) :
    (fs.put location entry).blank = fs.blank.put location entry.blank := by
  simp [put, blank, List.filter_map, Function.comp_def]

theorem blank_erase (fs : FileSystem) (location : Location) :
    (fs.erase location).blank = fs.blank.erase location := by
  simp [erase, blank, List.filter_map, Function.comp_def]

theorem follow_blank (fs : FileSystem) (location : Location) (parts : List PathText.Part) :
    fs.blank.follow location parts = fs.follow location parts := by
  induction parts generalizing location with
  | nil => rfl
  | cons part rest ih =>
    unfold follow
    rw [at?_blank]
    cases fs.at? location with
    | none => rfl
    | some entry =>
      cases entry with
      | file content => rfl
      | directory => cases part <;> exact ih _

theorem locate_blank (fs : FileSystem) (path : String) : fs.blank.locate path = fs.locate path := by
  unfold locate
  rw [follow_blank]
  rfl

theorem entry_blank (fs : FileSystem) (path : String) :
    fs.blank.entry path = (fs.entry path).map Entry.blank := by
  simp only [entry, locate_blank, at?_blank, bind, Except.bind]
  cases fs.locate path with
  | error error => rfl
  | ok location =>
    dsimp only
    cases fs.at? location with
    | none => rfl
    | some found =>
      cases found with
      | directory => rfl
      | file content =>
        simp only [Option.map_some, Entry.blank]
        split <;> rfl

theorem pathExists_blank (fs : FileSystem) (path : String) :
    fs.blank.pathExists path = fs.pathExists path := by
  unfold pathExists
  rw [entry_blank]
  cases fs.entry path <;> rfl

/-- What is written to a file system does not matter when it is blanked. -/
theorem blank_write (fs : FileSystem) (path : String) (content : Content) :
    (fs.write path content).map blank = fs.blank.write path (.text "") := by
  simp only [write, locate_blank, at?_blank_eq_directory, bind, Except.bind, beq_iff_eq,
    Bool.or_eq_true]
  cases fs.locate path with
  | error error => rfl
  | ok location =>
    dsimp only
    split
    · rfl
    · rw [at?_blank]
      dsimp only [pure, Except.pure]
      cases fs.at? location.dropLast with
      | none => rfl
      | some found =>
        cases found with
        | file other => rfl
        | directory => exact congrArg Except.ok (blank_put fs location (.file content))

theorem blank_removeFile (fs : FileSystem) (path : String) :
    (fs.removeFile path).map blank = fs.blank.removeFile path := by
  simp only [removeFile, locate_blank, entry_blank, bind, Except.bind]
  cases fs.entry path with
  | error error => rfl
  | ok found =>
    cases found with
    | directory => rfl
    | file content =>
      cases fs.locate path with
      | error error => rfl
      | ok location => exact congrArg Except.ok (blank_erase fs location)

theorem blank_rename (fs : FileSystem) (source target : String) :
    (fs.rename source target).map blank = fs.blank.rename source target := by
  simp only [rename, locate_blank, entry_blank, at?_blank_eq_directory, bind, Except.bind, beq_iff_eq]
  cases fs.entry source with
  | error error => rfl
  | ok found =>
    cases found with
    | directory => rfl
    | file content =>
      cases fs.locate target with
      | error error => rfl
      | ok location =>
        by_cases hasks : asksDirectory target = true
        · simp only [hasks, ↓reduceIte]
          rfl
        · by_cases hat : fs.at? location = some .directory
          · simp only [hasks, hat, ↓reduceIte]
            rfl
          · simp only [hasks, hat, ↓reduceIte]
            cases fs.locate source with
            | error error => rfl
            | ok place =>
              refine congrArg Except.ok ?_
              rw [blank_put, blank_erase]
              rfl

/-- What is written matters neither for whether it can be written nor for the blank files. -/
theorem write_blank (fs : FileSystem) (path : String) (content other : Content) :
    (∃ error, fs.write path content = .error error ∧ fs.write path other = .error error) ∨
      ∃ left right, fs.write path content = .ok left ∧ fs.write path other = .ok right ∧
        left.blank = right.blank := by
  have hsame := (blank_write fs path content).trans (blank_write fs path other).symm
  cases hleft : fs.write path content with
  | error error =>
    rw [hleft] at hsame
    cases hright : fs.write path other with
    | error error' =>
      rw [hright] at hsame
      exact .inl ⟨error, rfl, congrArg _ (Except.error.inj hsame).symm⟩
    | ok right =>
      rw [hright] at hsame
      cases hsame
  | ok left =>
    rw [hleft] at hsame
    cases hright : fs.write path other with
    | error error' =>
      rw [hright] at hsame
      cases hsame
    | ok right =>
      rw [hright] at hsame
      exact .inr ⟨left, right, rfl, rfl, Except.ok.inj hsame⟩

/-- Rows are the last that is written to a database, and matter as little. -/
theorem createDatabase_blank (fs : FileSystem) (path : String) (rows other : Database) :
    (fs.createDatabase path rows).1 = (fs.createDatabase path other).1 ∧
      (fs.createDatabase path rows).2.blank = (fs.createDatabase path other).2.blank := by
  unfold createDatabase
  cases fs.write path (.text "") with
  | error error => exact ⟨rfl, rfl⟩
  | ok empty =>
    dsimp only
    rcases empty.startDatabase path with ⟨result, started⟩
    cases result with
    | error error => exact ⟨rfl, rfl⟩
    | ok done =>
      dsimp only
      split_ifs
      · exact ⟨rfl, rfl⟩
      · rcases write_blank (started.closeDatabase path) path (.database rows) (.database other) with
          ⟨error, hleft, hright⟩ | ⟨left, right, hleft, hright, hblank⟩
        · simp only [hleft, hright, and_self]
        · simp only [hleft, hright, hblank, and_self]

end FileSystem

namespace GraphStore

variable {store : GraphStore} {fs fs' : FileSystem}

theorem removePresent_blank (paths : List String) (fs : FileSystem) :
    removePresent paths fs.blank =
      ((removePresent paths fs).1, (removePresent paths fs).2.blank) := by
  induction paths generalizing fs with
  | nil => rfl
  | cons path rest ih =>
    rw [removePresent, removePresent, FileSystem.pathExists_blank, ← FileSystem.blank_removeFile]
    split
    · cases fs.removeFile path with
      | error error => rfl
      | ok removed => exact ih removed
    · exact ih fs

/-- The staging file is written for all documents, or fails to be for the same reason. -/
theorem writeStaging_blank (store : GraphStore) (document other : Document) (fs : FileSystem) :
    (store.writeStaging document fs).1 = (store.writeStaging other fs).1 ∧
      (store.writeStaging document fs).2.blank = (store.writeStaging other fs).2.blank := by
  unfold writeStaging
  cases store.format with
  | json =>
    rcases FileSystem.write_blank fs store.stagingPath (.text (jsonText document))
      (.text (jsonText other)) with ⟨error, hleft, hright⟩ | ⟨left, right, hleft, hright, hblank⟩
    · simp only [hleft, hright, and_self]
    · simp only [hleft, hright, hblank, and_self]
  | sqlite =>
    dsimp only
    rcases removePresent [store.stagingPath] fs with ⟨result, removed⟩
    cases result with
    | error error => exact ⟨rfl, rfl⟩
    | ok done =>
      obtain ⟨hfst, hsnd⟩ := FileSystem.createDatabase_blank removed store.stagingPath
        document.toRows other.toRows
      dsimp only
      rcases hleft : removed.createDatabase store.stagingPath document.toRows with ⟨result, left⟩
      rcases hright : removed.createDatabase store.stagingPath other.toRows with ⟨result', right⟩
      rw [hleft, hright] at hfst hsnd
      obtain rfl : result = result' := hfst
      cases result with
      | error error => exact ⟨rfl, hsnd⟩
      | ok done => exact ⟨rfl, hsnd⟩

/-- How a save goes on from the staging file can be seen on blank files. -/
theorem save_fst (store : GraphStore) (document : Document) (fs : FileSystem) :
    (store.save document fs).1 =
      match store.createParent fs with
      | (.error error, _) => .error (.io error)
      | (.ok (), created) =>
        match (store.writeStaging document created).1 with
        | .error error => .error error
        | .ok () =>
          match removePresent store.sidecars (store.writeStaging document created).2.blank with
          | (.error error, _) => .error (.io error)
          | (.ok (), cleared) =>
            match cleared.rename store.stagingPath store.path with
            | .error error => .error (.io error)
            | .ok _ => .ok () := by
  unfold save
  rcases store.createParent fs with ⟨result, created⟩
  cases result with
  | error error => rfl
  | ok done =>
    dsimp only
    rcases store.writeStaging document created with ⟨result, staged⟩
    cases result with
    | error error => rfl
    | ok done =>
      simp only [removePresent_blank]
      rcases removePresent store.sidecars staged with ⟨result, cleared⟩
      cases result with
      | error error => rfl
      | ok done =>
        dsimp only
        rw [← FileSystem.blank_rename]
        cases cleared.rename store.stagingPath store.path <;> rfl

/-- A save succeeds, or fails for the same reason, whatever the document is. -/
theorem save_fst_eq (store : GraphStore) (document other : Document) (fs : FileSystem) :
    (store.save document fs).1 = (store.save other fs).1 := by
  rw [save_fst, save_fst]
  rcases store.createParent fs with ⟨result, created⟩
  cases result with
  | error error => rfl
  | ok done =>
    obtain ⟨hfst, hsnd⟩ := store.writeStaging_blank document other created
    dsimp only
    rw [hfst, hsnd]

end GraphStore

end CodeAtlas
