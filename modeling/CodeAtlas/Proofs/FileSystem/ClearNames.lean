import CodeAtlas.Proofs.FileSystem.Operations
import CodeAtlas.Proofs.KeyedLists
import CodeAtlas.Proofs.Text.Clear

/-!
# Clear names in a file system

When no name in a file system holds a zero character, a path with one leads nowhere: following it
would have to pass through an entry with such a name.

## Main results

* `FileSystem.ClearNames.of_entry`: paths that lead to an entry are clear.
* `FileSystem.ClearNames.of_readText`: so are those of the files that can be read below a directory.
-/

namespace CodeAtlas

open Text (Clear)

namespace PathText

/-- A path with clear parts is clear. -/
theorem clear_of_parts {path : String} (h : ∀ text, Part.name text ∈ parts path → Clear text) :
    Clear path := by
  refine Text.clear_of_split (by decide : '/' ≠ '\x00') fun segment hsegment => ?_
  by_cases hidle : segment = "" ∨ segment = "."
  · rcases hidle with rfl | rfl <;> decide +kernel
  by_cases hup : segment = ".."
  · rw [hup]
    decide +kernel
  refine h segment (List.mem_append_right _ (List.mem_filterMap.mpr ⟨segment, hsegment, ?_⟩))
  rw [partOfSegment, if_neg hidle, if_neg hup]

theorem clear_of_join {base path : String} (h : Clear (join base path)) : Clear path := by
  unfold join at h
  split_ifs at h
  · exact h
  · exact (Text.clear_append.mp h).2
  · exact (Text.clear_append.mp h).2

end PathText

namespace FileSystem

open PathText (Part)

/-- No name in the file system holds a zero character. -/
def ClearNames (fs : FileSystem) : Prop :=
  ∀ entry ∈ fs.entries, ∀ name ∈ entry.1, Clear name

instance (fs : FileSystem) : Decidable fs.ClearNames :=
  inferInstanceAs (Decidable (∀ entry ∈ fs.entries, ∀ name ∈ entry.1, Clear name))

variable {fs : FileSystem}

theorem ClearNames.of_at? (h : fs.ClearNames) {location : Location}
    (hat : (fs.at? location).isSome = true) : ∀ name ∈ location, Clear name := by
  by_cases hroot : location = []
  · simp [hroot]
  rw [at?, if_neg hroot] at hat
  obtain ⟨entry, hentry⟩ := Option.isSome_iff_exists.mp hat
  exact h (location, entry) (mem_of_lookup_eq_some hentry)

/-- A path that leads to an entry starts at one. -/
theorem isSome_at?_of_follow {location target : Location} {parts : List Part}
    (h : fs.follow location parts = .ok target) (htarget : (fs.at? target).isSome = true) :
    (fs.at? location).isSome = true := by
  cases parts with
  | nil =>
    obtain rfl := Except.ok.inj h
    exact htarget
  | cons part rest =>
    cases hat : fs.at? location with
    | none => simp [follow, hat] at h
    | some entry => rfl

/-- The names on a path that leads to an entry are clear. -/
theorem ClearNames.of_follow (hfs : fs.ClearNames) {location target : Location}
    {parts : List Part} (h : fs.follow location parts = .ok target)
    (htarget : (fs.at? target).isSome = true) {text : String} (htext : Part.name text ∈ parts) :
    Clear text := by
  induction parts generalizing location with
  | nil => exact absurd htext List.not_mem_nil
  | cons part rest ih =>
    cases hat : fs.at? location with
    | none => simp [follow, hat] at h
    | some entry =>
      cases entry with
      | file content => simp [follow, hat] at h
      | directory =>
        simp only [follow, hat] at h
        rcases List.mem_cons.mp htext with rfl | hrest
        · have hnext := isSome_at?_of_follow h htarget
          exact hfs.of_at? hnext text (by simp)
        · cases part <;> exact ih h hrest

/-- A path that leads to an entry is clear. -/
theorem ClearNames.of_entry (hfs : fs.ClearNames) {path : String} {found : Entry}
    (h : fs.entry path = .ok found) : Clear path := by
  obtain ⟨target, hlocate, hat, -⟩ := entry_eq_ok_iff.mp h
  have htarget : (fs.at? target).isSome = true := Option.isSome_iff_exists.mpr ⟨found, hat⟩
  unfold locate at hlocate
  split_ifs at hlocate
  exact PathText.clear_of_join (PathText.clear_of_parts fun text htext =>
    hfs.of_follow hlocate htarget htext)

/-- The path of a file that can be read below a directory is clear. -/
theorem ClearNames.of_readText (hfs : fs.ClearNames) {directory path text : String}
    (h : fs.readText (PathText.join directory path) = .ok text) : Clear path :=
  PathText.clear_of_join (hfs.of_entry (entry_of_readText h))

end FileSystem

end CodeAtlas
