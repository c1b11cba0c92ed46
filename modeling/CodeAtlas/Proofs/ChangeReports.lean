import CodeAtlas.ChangeSet
import CodeAtlas.Proofs.Text.Clear
import CodeAtlas.Proofs.Text.Segments
import Mathlib.Data.List.DropRight
import Mathlib.Data.List.Forall2

/-!
# Reports of version control

A report is a sequence of entries. Each has a status and a path, and a zero character ends each of
the two. The reader splits the text at the zero characters and takes the fields in pairs; what stands
after the last zero character is a field without a partner. No other character of a path has any
meaning, so paths may hold line ends, quotes, tabs and blanks.

Reading a report gives the changes its entries tell of, one for each and in order. Whatever the text
is, the reader takes two fields at a time and ends when there are less, and every path it gives is a
field of the text that is not empty.

## Main definitions

* `ReportEntry`: a status and a path that a report can hold.
* `ReportEntry.report`: the text of a report.
* `ReportEntry.Tells`: the change that an entry stands for.

## Main results

* `Text.head?_trim`: the first character of a trimmed text.
* `ReportEntry.parseNameStatus_report`: the changes that are read from a report.
* `sublist_changesOfFields`, `length_changesOfFields`: what is read from any fields.
* `ReportEntry.report_recovered`: both together.
-/

namespace CodeAtlas

/-! ### Trimmed text -/

namespace Text

/-- Dropping from the end leaves the first character, unless all are dropped. -/
theorem head?_dropEndWhile {p : Char → Bool} {c : Char} (hc : p c = false) (rest : List Char) :
    (dropEndWhile p (c :: rest)).head? = some c := by
  have hne : (c :: rest).rdropWhile p ≠ [] := by
    intro hnil
    have hall := List.rdropWhile_eq_nil_iff.mp hnil c List.mem_cons_self
    exact absurd hall (by simp [hc])
  obtain ⟨dropped, hfront⟩ := List.rdropWhile_prefix p (c :: rest)
  calc ((c :: rest).rdropWhile p).head?
      = ((c :: rest).rdropWhile p ++ dropped).head? := (List.head?_append_of_ne_nil _ hne).symm
    _ = some c := by rw [hfront, List.head?_cons]

/-- Trimming brings the first character that is not blank to the front. -/
theorem head?_trim (s : String) : (trim s).toList.head? = s.toList.find? fun c => !isBlank c := by
  rw [trim, trimMatches, String.toList_ofList, trimWhile, List.find?_eq_head?_dropWhile_not]
  simp only [Bool.not_not]
  cases hrest : s.toList.dropWhile isBlank with
  | nil => rfl
  | cons c rest =>
    have hc : isBlank c = false := by
      have hhead := List.head?_dropWhile_not isBlank s.toList
      simpa [hrest] using hhead
    exact head?_dropEndWhile hc rest

end Text

/-! ### Fields -/

theorem changeOfFields_eq_some {status path : String} {change : FileChange}
    (h : changeOfFields status path = some change) : change.path = path ∧ path ≠ "" := by
  unfold changeOfFields at h
  split at h
  · cases h
  · split_ifs at h with hpath
    obtain rfl := Option.some.inj h
    exact ⟨rfl, hpath⟩

/-- The paths that are read are fields, in the same order. -/
theorem sublist_changesOfFields (fields : List String) :
    ((changesOfFields fields).map (·.path)).Sublist fields := by
  fun_induction changesOfFields fields with
  | case1 status path rest ih =>
    cases hchange : changeOfFields status path with
    | none => exact (ih.cons path).cons status
    | some change =>
      obtain ⟨hpath, -⟩ := changeOfFields_eq_some hchange
      rw [Option.toList_some, List.singleton_append, List.map_cons, hpath]
      exact (ih.cons_cons path).cons status
  | case2 fields => exact List.nil_sublist fields

theorem path_ne_of_mem_changesOfFields {fields : List String} {change : FileChange}
    (h : change ∈ changesOfFields fields) : change.path ≠ "" := by
  fun_induction changesOfFields fields with
  | case1 status path rest ih =>
    rcases List.mem_append.mp h with hhere | hlater
    · obtain ⟨hpath, hne⟩ := changeOfFields_eq_some (Option.mem_toList.mp hhere)
      rwa [hpath]
    · exact ih hlater
  | case2 => exact absurd h List.not_mem_nil

/-- Two fields are used up for each change. -/
theorem length_changesOfFields (fields : List String) :
    2 * (changesOfFields fields).length ≤ fields.length := by
  fun_induction changesOfFields fields with
  | case1 status path rest ih =>
    have hone : (changeOfFields status path).toList.length ≤ 1 := Option.length_toList_le
    simp only [List.length_append, List.length_cons]
    omega
  | case2 => simp

/-! ### Entries -/

/-- A status and a path that can be told apart in a report. -/
structure ReportEntry where
  status : String
  path : String
  status_clear : Text.Clear status
  path_clear : Text.Clear path
  /-- The status is not blank. -/
  status_visible : status.toList.all Text.isBlank = false
  path_ne : path ≠ ""

namespace ReportEntry

/-- The first character of the status that is not blank. -/
def letter? (entry : ReportEntry) : Option Char :=
  entry.status.toList.find? fun c => !Text.isBlank c

/-- The status and the path, each ended by a zero character. -/
def text (entry : ReportEntry) : String :=
  entry.status ++ "\x00" ++ (entry.path ++ "\x00")

/-- The entries one after the other. -/
def report (entries : List ReportEntry) : String :=
  String.join (entries.map text)

/-- The change has the path of the entry, and the status its letter stands for: addition, deletion,
and modification for all other letters. -/
structure Tells (entry : ReportEntry) (change : FileChange) : Prop where
  path_eq : change.path = entry.path
  status_iff : ∃ letter, entry.letter? = some letter ∧
    (change.status = .added ↔ letter = 'A') ∧ (change.status = .deleted ↔ letter = 'D')

variable (entry : ReportEntry)

theorem exists_letter : ∃ letter, entry.letter? = some letter := by
  obtain ⟨c, hc, hvisible⟩ := List.all_eq_false.mp entry.status_visible
  refine Option.isSome_iff_exists.mp (List.find?_isSome.mpr ⟨c, hc, ?_⟩)
  simpa using hvisible

theorem changeOfFields_eq {letter : Char} (h : entry.letter? = some letter) :
    changeOfFields entry.status entry.path = some ⟨entry.path, statusOfLetter letter⟩ := by
  have hhead := (Text.head?_trim entry.status).trans h
  obtain ⟨rest, hrest⟩ := List.head?_eq_some_iff.mp hhead
  rw [changeOfFields, hrest]
  exact if_neg entry.path_ne

theorem exists_tells :
    ∃ change, changeOfFields entry.status entry.path = some change ∧ entry.Tells change := by
  obtain ⟨letter, hletter⟩ := entry.exists_letter
  refine ⟨_, entry.changeOfFields_eq hletter, rfl, letter, hletter, ?_⟩
  unfold statusOfLetter
  split_ifs <;> simp_all

theorem split_report_cons (rest : List ReportEntry) :
    Text.split '\x00' (report (entry :: rest)) =
      entry.status :: entry.path :: Text.split '\x00' (report rest) := by
  have hzero : "\x00".toList = ['\x00'] := rfl
  have htext : report (entry :: rest) =
      entry.status ++ "\x00" ++ (entry.path ++ "\x00" ++ report rest) := by
    simp only [report, List.map_cons, String.join_cons, text, String.append_assoc]
  rw [htext, Text.split_append_of_notMem hzero entry.status_clear,
    Text.split_append_of_notMem hzero entry.path_clear]

/-- Reading gives the changes that the entries tell of. -/
theorem parseNameStatus_report (entries : List ReportEntry) :
    List.Forall₂ Tells entries (parseNameStatus (report entries)) := by
  unfold parseNameStatus
  induction entries with
  | nil => exact .nil
  | cons entry rest ih =>
    obtain ⟨change, hchange, htells⟩ := entry.exists_tells
    rw [entry.split_report_cons, changesOfFields, hchange]
    exact .cons htells ih

/-- Reading a report gives one change for each entry, in order, with its path and the status its
letter stands for. Reading any text takes two fields for each change, and gives paths that are fields
of the text, in order and not empty. -/
theorem report_recovered (entries : List ReportEntry) (source : String) :
    List.Forall₂ Tells entries (parseNameStatus (report entries)) ∧
    2 * (parseNameStatus source).length ≤ (Text.split '\x00' source).length ∧
    ((parseNameStatus source).map (·.path)).Sublist (Text.split '\x00' source) ∧
    ∀ change ∈ parseNameStatus source, change.path ≠ "" :=
  ⟨parseNameStatus_report entries, length_changesOfFields _, sublist_changesOfFields _,
    fun _ => path_ne_of_mem_changesOfFields⟩

/-- An addition of a path that holds a tab, quotes, a line end and a blank. -/
def oddEntry : ReportEntry where
  status := " A\n"
  path := "a\t\"b\"\n c"
  status_clear := by decide
  path_clear := by decide
  status_visible := by decide
  path_ne := by decide

/-- A deletion of a path that looks like a status. -/
def lostEntry : ReportEntry where
  status := "D"
  path := "A"
  status_clear := by decide
  path_clear := by decide
  status_visible := by decide
  path_ne := by decide

/-- A rename, which is told with a number, of a path with letters beyond ASCII. -/
def movedEntry : ReportEntry where
  status := "R100"
  path := "é.py"
  status_clear := by decide
  path_clear := by decide
  status_visible := by decide
  path_ne := by decide

theorem report_recovered_odd :
    report [oddEntry, lostEntry, movedEntry] =
      " A\n\x00a\t\"b\"\n c\x00D\x00A\x00R100\x00é.py\x00" ∧
    ∃ odd lost moved,
      parseNameStatus (report [oddEntry, lostEntry, movedEntry]) = [odd, lost, moved] ∧
      odd.path = "a\t\"b\"\n c" ∧ odd.status = .added ∧
      lost.path = "A" ∧ lost.status = .deleted ∧
      moved.path = "é.py" ∧ moved.status ≠ .added ∧ moved.status ≠ .deleted := by
  obtain ⟨hall, -⟩ := report_recovered [oddEntry, lostEntry, movedEntry] ""
  generalize parseNameStatus (report [oddEntry, lostEntry, movedEntry]) = changes at hall ⊢
  obtain _ | ⟨hodd, _ | ⟨hlost, _ | ⟨hmoved, _ | _⟩⟩⟩ := hall
  obtain ⟨_, hletter, hadded, -⟩ := hodd.status_iff
  obtain ⟨_, hletter', -, hdeleted⟩ := hlost.status_iff
  obtain ⟨_, hletter'', hneither⟩ := hmoved.status_iff
  obtain rfl := Option.some.inj ((by decide : oddEntry.letter? = some 'A').symm.trans hletter)
  obtain rfl := Option.some.inj ((by decide : lostEntry.letter? = some 'D').symm.trans hletter')
  obtain rfl := Option.some.inj ((by decide : movedEntry.letter? = some 'R').symm.trans hletter'')
  exact ⟨by decide, _, _, _, rfl, hodd.path_eq, hadded.mpr rfl, hlost.path_eq,
    hdeleted.mpr rfl, hmoved.path_eq, mt hneither.1.mp (by decide), mt hneither.2.mp (by decide)⟩

end ReportEntry

end CodeAtlas
