import CodeAtlas.Builder
import CodeAtlas.Proofs.Text.Sorted

/-!
# Which files are collected

Of the files that a walk yields, the accepted ones within the size limit are collected, in
increasing order of their paths and cut to the number that the settings allow. The order of the walk
has no influence. The limit is given in kibibytes and compared in bytes, as a number of 64 bits:
from `2 ^ 54` kibibytes on it overflows, and collecting breaks off at the first accepted file.

## Main definitions

* `BuilderConfig.Admits`: the number of bytes is within the limit.

## Main results

* `BuilderConfig.select_eq_none`, `BuilderConfig.select_eq_some`: what is selected of a walk.
* `BuilderConfig.mem_of_collect`: a collected path is one of the walk and accepted.
* `Builder.collectFiles_exact`: what is collected, and when collecting breaks off.
* `Builder.collectFiles_hugeLimit`: a limit that overflows.
-/

namespace CodeAtlas

namespace BuilderConfig

variable {config : BuilderConfig} {accepts : String → Bool} {walked : List (String × Nat)}

/-- A file of so many bytes is within the limit, or there is none. -/
def Admits (config : BuilderConfig) (size : Nat) : Prop :=
  config.maxFileSizeKb = 0 ∨ size ≤ 1024 * config.maxFileSizeKb

instance (config : BuilderConfig) (size : Nat) : Decidable (config.Admits size) :=
  inferInstanceAs (Decidable (_ ∨ _))

/-! ### The limit -/

theorem byteLimit?_eq_none :
    config.byteLimit? = none ↔ 0x40000000000000 ≤ config.maxFileSizeKb := by
  simp only [byteLimit?, ite_eq_right_iff, reduceCtorEq, imp_false]
  omega

/-- The comparison breaks off exactly for `2 ^ 54` kibibytes and more, whatever the size. -/
theorem isTooLarge?_eq_none {size : Nat} :
    config.isTooLarge? size = none ↔ 0x40000000000000 ≤ config.maxFileSizeKb := by
  unfold isTooLarge?
  split_ifs with hzero
  · simp [hzero]
  · rw [Option.map_eq_none_iff, byteLimit?_eq_none]

/-- Below that it is the comparison with the limit that was set. -/
theorem isTooLarge?_eq_some (h : config.maxFileSizeKb < 0x40000000000000) (size : Nat) :
    config.isTooLarge? size = some (!decide (config.Admits size)) := by
  unfold isTooLarge?
  split_ifs with hzero
  · simp [Admits, hzero]
  · have hfits : config.maxFileSizeKb * 1024 < 0x10000000000000000 := by omega
    rw [byteLimit?, if_pos hfits, Option.map_some, ← decide_not, Option.some_inj, decide_eq_decide,
      Admits]
    omega

/-! ### The selection -/

/-- Selecting breaks off exactly at an accepted path, if the limit overflows. -/
theorem select_eq_none :
    config.select accepts walked = none ↔
      0x40000000000000 ≤ config.maxFileSizeKb ∧ ∃ file ∈ walked, accepts file.1 = true := by
  induction walked with
  | nil => simp [select]
  | cons file rest ih =>
    obtain ⟨path, size⟩ := file
    rw [select]
    by_cases haccepts : accepts path = true
    · cases hlarge : config.isTooLarge? size with
      | none => simp [haccepts, isTooLarge?_eq_none.mp hlarge]
      | some large =>
        have hfits : ¬ 0x40000000000000 ≤ config.maxFileSizeKb := by
          rw [← isTooLarge?_eq_none, hlarge]
          simp
        obtain ⟨selected, hselected⟩ := Option.ne_none_iff_exists'.mp fun h => hfits (ih.mp h).1
        simp [haccepts, hselected, hfits]
    · simp [haccepts, ih]

/-- What is selected: the accepted paths within the limit, as the walk yields them. -/
theorem select_eq_some {selected : List String}
    (h : config.select accepts walked = some selected) :
    selected = (walked.filter fun file =>
      accepts file.1 && decide (config.Admits file.2)).map (·.1) := by
  induction walked generalizing selected with
  | nil => exact (Option.some.inj h).symm
  | cons file rest ih =>
    obtain ⟨path, size⟩ := file
    rw [select] at h
    by_cases haccepts : accepts path = true
    · rw [if_pos haccepts] at h
      obtain ⟨large, hlarge, h⟩ := Option.bind_eq_some_iff.mp h
      obtain ⟨others, hothers, h⟩ := Option.bind_eq_some_iff.mp h
      have hfits : config.maxFileSizeKb < 0x40000000000000 := by
        by_contra hhuge
        rw [isTooLarge?_eq_none.mpr (by omega)] at hlarge
        cases hlarge
      rw [isTooLarge?_eq_some hfits] at hlarge
      rw [← Option.some.inj h, ← Option.some.inj hlarge, ih hothers]
      by_cases hadmits : config.Admits size <;> simp [haccepts, hadmits]
    · rw [if_neg haccepts] at h
      simp [ih h, haccepts]

/-! ### The collected paths -/

/-- The collected paths are the selected ones, in order and cut to the allowed number. -/
theorem collect_eq_some {collected : List String}
    (h : config.collect accepts walked = some collected) :
    ∃ selected, config.select accepts walked = some selected ∧
      collected = (Text.sortBy id selected).take
        (config.maxFiles.getD (Text.sortBy id selected).length) := by
  obtain ⟨selected, hselected, rfl⟩ := Option.map_eq_some_iff.mp h
  refine ⟨selected, hselected, ?_⟩
  cases config.maxFiles with
  | none => exact (List.take_length).symm
  | some most => rfl

/-- A collected path is that of a file of the walk, and accepted. -/
theorem mem_of_collect {collected : List String}
    (h : config.collect accepts walked = some collected)
    {path : String} (hpath : path ∈ collected) :
    accepts path = true ∧ ∃ size, (path, size) ∈ walked := by
  obtain ⟨selected, hselected, rfl⟩ := collect_eq_some h
  have hmem : path ∈ selected :=
    (Text.sortBy_perm id selected).mem_iff.mp (List.mem_of_mem_take hpath)
  rw [select_eq_some hselected] at hmem
  obtain ⟨⟨_, size⟩, hfile, rfl⟩ := List.mem_map.mp hmem
  rw [List.mem_filter, Bool.and_eq_true] at hfile
  exact ⟨hfile.2.1, size, hfile.1⟩

end BuilderConfig

namespace Builder

/-- What is selected is collected as it is when it is in order and all of it is allowed. -/
theorem collectFiles_of_pairwise {builder : Builder} {fs : FileSystem} {home directory : String}
    {selected : List String}
    (h : builder.config.select builder.accepts (walkedFiles fs home directory) = some selected)
    (hsorted : selected.Pairwise (· ≤ ·)) (hall : builder.config.maxFiles = none) :
    builder.collectFiles fs home directory = some selected := by
  have hsort : Text.sortBy id selected = selected :=
    List.mergeSort_of_pairwise (hsorted.imp fun hle => by simpa using hle)
  simp only [collectFiles, BuilderConfig.collect, h, Option.map_some, hall, hsort]

/-- Of the files that a walk yields, the accepted ones that are within the limit are collected, in
order and cut to the allowed number. Nothing comes out exactly if the limit is `2 ^ 54` kibibytes or
more and a file is accepted: then the program breaks off. The files of a directory are those that a
walk below it yields, and what the builder accepts is accepted. -/
theorem collectFiles_exact (config : BuilderConfig) (accepts : String → Bool)
    (walked : List (String × Nat)) :
    (config.collect accepts walked = none ↔
      0x40000000000000 ≤ config.maxFileSizeKb ∧ ∃ file ∈ walked, accepts file.1 = true) ∧
    (∀ collected, config.collect accepts walked = some collected →
      ∃ chosen : List String,
        chosen.Perm ((walked.filter fun file =>
          accepts file.1 && decide (config.Admits file.2)).map (·.1)) ∧
        chosen.Pairwise (· ≤ ·) ∧
        collected = chosen.take (config.maxFiles.getD chosen.length)) ∧
    ∀ (builder : Builder) (fs : FileSystem) (home directory : String),
      builder.collectFiles fs home directory =
        builder.config.collect builder.accepts (walkedFiles fs home directory) := by
  refine ⟨?_, ?_, fun _ _ _ _ => rfl⟩
  · rw [BuilderConfig.collect, Option.map_eq_none_iff, BuilderConfig.select_eq_none]
  · intro collected hcollected
    obtain ⟨selected, hselected, rfl⟩ := BuilderConfig.collect_eq_some hcollected
    rw [← BuilderConfig.select_eq_some hselected]
    exact ⟨_, Text.sortBy_perm id _, Text.pairwise_sortBy id _, rfl⟩

/-! ### A limit that overflows -/

/-- A directory with one small file. -/
def smallTree : FileSystem where
  entries := [(["repo"], .directory), (["repo", "a.py"], .file (.text "x = 1\n"))]
  current := "/"

/-- A builder that leaves out files of more than `2 ^ 54` kibibytes. -/
def hugeLimit : Builder :=
  .ofConfig { BuilderConfig.standard with maxFileSizeKb := 0x40000000000000 }
    (.standard fun _ _ => none)

/-- The limit is a number of 64 bits and above the size of the file, and nothing is collected. -/
theorem collectFiles_hugeLimit :
    walkedFiles smallTree "/" "/repo" = [("a.py", 6)] ∧ hugeLimit.accepts "a.py" = true ∧
    hugeLimit.config.maxFileSizeKb < 0x10000000000000000 ∧
    6 ≤ 1024 * hugeLimit.config.maxFileSizeKb ∧ hugeLimit.config.maxFiles = none ∧
    hugeLimit.collectFiles smallTree "/" "/repo" = none := by
  decide +kernel

end Builder

end CodeAtlas
