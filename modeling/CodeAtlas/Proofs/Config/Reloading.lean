import CodeAtlas.Config.Files
import CodeAtlas.Proofs.Config.Layers
import CodeAtlas.Proofs.FileSystem.Directories

/-!
# A configuration that is saved and loaded again

The configuration that applies to a repository is put together from the standard settings, the user's
configuration and the repository's. When it is saved as the repository's configuration, all that the
user's configuration says is in it already. So loading again, below the same user's configuration,
gives what was saved, whatever the two files said before, and whether they were there or not.

That a configuration is read from the text it is written as is a matter of the text format, and is
assumed of the one configuration that is saved.

## Main definitions

* `Config.ReadsBack`: the configuration is read again as it is written.

## Main results

* `ConfigFiles.load_eq_ok_iff`: the configuration that is loaded.
* `ConfigFiles.loadLocal_of_saveLocal`: the repository's configuration after it was saved.
* `ConfigFiles.exists_saveLocal`: a configuration that was loaded can be saved.
* `ConfigFiles.layers_stable`: the laws of layers, and the configuration that is loaded again.
-/

namespace CodeAtlas

/-! ### Configurations as they are written -/

/-- The configuration can be written, and is read again as it was. -/
def Config.ReadsBack (config : Config) : Prop :=
  ∃ text, config.toToml? = some text ∧ Config.ofToml? text = some config

theorem Config.override_nothing (config : Config) : config.override {} = config := by
  simp only [override, Option.getD_none, Option.none_or]

namespace ConfigFiles

open PathText (IsName)

variable {files again : ConfigFiles} {fs saved : FileSystem} {repository : String}
  {config : Config}

/-! ### Loading -/

/-- A layer that is in what is put on top changes nothing. -/
theorem withLayer_withLayer (base : Config) (overlay : Option Config) :
    withLayer base (some (withLayer base overlay)) = withLayer base overlay := by
  cases overlay with
  | none => exact base.layer_self
  | some overlay => exact base.layer_layer_self overlay

/-- Without settings of the run, what is loaded are the layers of the user and of the repository on
top of the standard settings, if both can be read and the outcome is valid. -/
theorem load_eq_ok_iff :
    (files.load fs repository {}).1 = .ok config ↔
      ∃ global own, (files.loadGlobal fs).1 = .ok global ∧ loadLocal fs repository = .ok own ∧
        config = withLayer (withLayer .standard global) own ∧ config.validate = .ok () := by
  unfold load
  obtain ⟨result, rest⟩ := files.loadGlobal fs
  cases result with
  | error error => simp
  | ok global =>
    cases hlocal : loadLocal fs repository with
    | error error => simp [bind, Except.bind]
    | ok own =>
      simp only [bind, Except.bind, pure, Except.pure, Config.override_nothing, Except.ok.injEq]
      cases hvalid : (withLayer (withLayer .standard global) own).validate with
      | error error =>
        simp only [reduceCtorEq, false_iff]
        rintro ⟨_, _, rfl, rfl, rfl, hok⟩
        exact absurd (hvalid.symm.trans hok) (by simp)
      | ok _ =>
        simp only [Except.ok.injEq]
        constructor
        · rintro rfl
          exact ⟨global, own, rfl, rfl, rfl, hvalid⟩
        · rintro ⟨_, _, rfl, rfl, rfl, -⟩
          rfl

theorem load_snd (files : ConfigFiles) (fs : FileSystem) (repository : String)
    (overrides : ConfigOverrides) :
    (files.load fs repository overrides).2 = (files.loadGlobal fs).2 := by
  unfold load
  obtain ⟨result, rest⟩ := files.loadGlobal fs
  cases result <;> rfl

theorem loadGlobal_of_cached {global : Config} (h : files.cached = some global)
    (fs : FileSystem) : files.loadGlobal fs = (.ok (some global), files) := by
  rw [loadGlobal, h]

theorem cached_loadGlobal {global : Config} (h : (files.loadGlobal fs).1 = .ok (some global)) :
    (files.loadGlobal fs).2.cached = some global := by
  cases hcached : files.cached with
  | some config =>
    rw [loadGlobal_of_cached hcached] at h ⊢
    rw [hcached, Option.some.inj (Except.ok.inj h)]
  | none =>
    cases hpath : files.globalPath? with
    | none => simp [loadGlobal, hcached, hpath] at h
    | some path =>
      simp only [loadGlobal, hcached, hpath] at h ⊢
      cases hread : readIfPresent fs path with
      | error error => simp [hread] at h
      | ok found =>
        rw [hread] at h
        exact Except.ok.inj h

/-- A user's configuration that was found is kept, whatever becomes of its file. -/
theorem loadGlobal_loadGlobal {global : Config}
    (h : (files.loadGlobal fs).1 = .ok (some global)) (saved : FileSystem) :
    ((files.loadGlobal fs).2.loadGlobal saved).1 = (files.loadGlobal fs).1 := by
  rw [loadGlobal_of_cached (cached_loadGlobal h), h]

/-! ### Saving -/

private theorem isName_directoryName : IsName directoryName :=
  ⟨by decide, by decide, by decide, by decide⟩

private theorem isName_fileName : IsName fileName :=
  ⟨by decide, by decide, by decide, by decide⟩

/-- The directory of a repository's configuration. -/
def localDirectory (repository : String) : String :=
  PathText.join repository directoryName

theorem parent?_localPath (repository : String) :
    PathText.parent? (localPath repository) = some (localDirectory repository) :=
  PathText.parent?_join isName_directoryName isName_fileName repository

/-- A save that succeeds has written the text of the configuration to the place of the repository's
configuration. -/
theorem saveLocal_eq_ok {path : String} (h : saveLocal config repository fs = (.ok path, saved)) :
    ∃ before : FileSystem, ∃ text, config.toToml? = some text ∧
      before.write (localPath repository) (.text text) = .ok saved := by
  unfold saveLocal saveAt at h
  split at h
  · rename_i written hsave
    obtain ⟨-, rfl⟩ := Prod.mk.inj h
    unfold saveFile at hsave
    simp only at hsave
    split at hsave
    · simp at hsave
    · rename_i before hbefore
      split at hsave
      · simp at hsave
      · rename_i text htext
        split at hsave
        · simp at hsave
        · rename_i after hwrite
          obtain ⟨-, rfl⟩ := Prod.mk.inj hsave
          refine ⟨before, text, ?_, hwrite⟩
          unfold Config.toToml at htext
          split at htext
          · rename_i hrendered
            rw [hrendered, Except.ok.inj htext]
          · cases htext
  · simp at h

/-- What was saved for a repository is its configuration. -/
theorem loadLocal_of_saveLocal {path : String} (hreads : config.ReadsBack)
    (h : saveLocal config repository fs = (.ok path, saved)) :
    loadLocal saved repository = .ok (some config) := by
  obtain ⟨before, text, htext, hwrite⟩ := saveLocal_eq_ok h
  obtain ⟨text', htext', hread⟩ := hreads
  obtain rfl := Option.some.inj (htext.symm.trans htext')
  have hentry := FileSystem.entry_of_write hwrite
  have hexists : saved.pathExists (localPath repository) = true := by
    rw [FileSystem.pathExists, hentry]
  have htextRead : saved.readText (localPath repository) = .ok text := by
    rw [FileSystem.readText, hentry]
    rfl
  rw [loadLocal, readIfPresent, if_pos hexists, readFile, htextRead]
  simp only [hread, Except.map]

/-- Nothing but a file is at the place of a configuration that was looked for. -/
theorem at?_ne_directory_of_loadLocal {own : Option Config}
    (h : loadLocal fs repository = .ok own) {l : Location}
    (hlocate : fs.locate (localPath repository) = .ok l) : fs.at? l ≠ some .directory := by
  intro hat
  have hentry := FileSystem.entry_of_directory hlocate hat
  have hexists : fs.pathExists (localPath repository) = true := by
    rw [FileSystem.pathExists, hentry]
  have htext : fs.readText (localPath repository) = .error .isADirectory := by
    rw [FileSystem.readText, hentry]
    rfl
  rw [loadLocal, readIfPresent, if_pos hexists, readFile, htext] at h
  cases h

/-- The file is written where its directory is there or was created. -/
theorem saveLocal_of_write {before : FileSystem} {text : String}
    (hbefore : (if fs.pathExists (localDirectory repository) then (.ok (), fs)
      else fs.createDirectories (localDirectory repository)) = (.ok (), before))
    (htext : config.toToml? = some text)
    (hwrite : before.write (localPath repository) (.text text) = .ok saved) :
    saveLocal config repository fs = (.ok (localPath repository), saved) := by
  have hrendered : config.toToml = .ok text := by rw [Config.toToml, htext]
  have hfile : saveFile config (localPath repository) fs = (.ok (), saved) := by
    unfold saveFile
    simp only [parent?_localPath, Option.getD_some, hbefore, hrendered, hwrite]
  unfold saveLocal saveAt
  rw [hfile]

/-- A configuration that was loaded can be saved for the repository if its directory can be created
and is not created at the place of the file. -/
theorem exists_saveLocal {own : Option Config} {made : FileSystem} {text : String}
    (hown : loadLocal fs repository = .ok own) (htext : config.toToml? = some text)
    (hmade : fs.createDirectories (localDirectory repository) = (.ok (), made))
    (hfree : made.isDirectory (localPath repository) = false) :
    ∃ saved, saveLocal config repository fs = (.ok (localPath repository), saved) := by
  have hne : localDirectory repository ≠ "" :=
    PathText.join_name_ne isName_directoryName repository
  -- Whether it was there or was created, the file is written in a directory.
  have hwrite : ∀ before : FileSystem, ∀ above, before.locate (localDirectory repository) = .ok above →
      before.at? above = some .directory →
      (∀ l, before.locate (localPath repository) = .ok l → before.at? l ≠ some .directory) →
      ∃ saved, before.write (localPath repository) (.text text) = .ok saved := by
    intro before above hlocate hat hplace
    have hjoined : before.locate (localPath repository) = .ok (above ++ [fileName]) :=
      FileSystem.locate_join isName_fileName hlocate hat
    exact ⟨_, FileSystem.write_of_directory hjoined hat (hplace _ hjoined)
      (PathText.asksDirectory_join_name isName_fileName _) _⟩
  by_cases hexists : fs.pathExists (localDirectory repository) = true
  · obtain ⟨above, hlocate, hat⟩ := FileSystem.entry_eq_directory
      (FileSystem.entry_of_createDirectories hne hmade hexists)
    obtain ⟨saved, hsaved⟩ := hwrite fs above hlocate hat fun l =>
      at?_ne_directory_of_loadLocal hown
    exact ⟨saved, saveLocal_of_write (if_pos hexists) htext hsaved⟩
  · obtain ⟨above, hlocate, hat⟩ := FileSystem.locate_of_createDirectories hne hmade
    obtain ⟨saved, hsaved⟩ := hwrite made above hlocate hat fun l hl hdirectory => by
      rw [FileSystem.isDirectory, FileSystem.entry_of_directory hl hdirectory] at hfree
      cases hfree
    exact ⟨saved, saveLocal_of_write ((if_neg hexists).trans hmade) htext hsaved⟩

/-! ### Loading again -/

/-- What was loaded, saved for the repository and loaded again below the same configuration of the
user is as it was. -/
theorem load_of_saveLocal {path : String} (hload : (files.load fs repository {}).1 = .ok config)
    (hreads : config.ReadsBack) (hsave : saveLocal config repository fs = (.ok path, saved))
    (hglobal : (again.loadGlobal saved).1 = (files.loadGlobal fs).1) :
    (again.load saved repository {}).1 = .ok config := by
  obtain ⟨global, own, hloaded, -, hlayers, hvalid⟩ := load_eq_ok_iff.mp hload
  refine load_eq_ok_iff.mpr ⟨global, some config, hglobal.trans hloaded,
    loadLocal_of_saveLocal hreads hsave, ?_, hvalid⟩
  rw [hlayers, withLayer_withLayer]

/-- Layers can be put together in any order of neighbours, and a layer on top of itself changes
nothing. So a configuration that was loaded can be saved for its repository, as far as its directory
can be created and is not created in place of the file, and after every save that succeeds, loading
again below the same configuration of the user gives it again. -/
theorem layers_stable :
    (∀ a b c : Config, (a.layer b).layer c = a.layer (b.layer c)) ∧
    (∀ a : Config, a.layer a = a) ∧
    ∀ (files : ConfigFiles) (fs : FileSystem) (repository : String) (config : Config),
      (files.load fs repository {}).1 = .ok config → config.ReadsBack →
      (∀ made, fs.createDirectories (localDirectory repository) = (.ok (), made) →
        made.isDirectory (localPath repository) = false →
        ∃ saved, saveLocal config repository fs = (.ok (localPath repository), saved)) ∧
      ∀ path saved, saveLocal config repository fs = (.ok path, saved) →
        ∀ again : ConfigFiles, (again.loadGlobal saved).1 = (files.loadGlobal fs).1 →
          (again.load saved repository {}).1 = .ok config := by
  refine ⟨Config.layer_assoc, Config.layer_self, ?_⟩
  intro files fs repository config hload hreads
  constructor
  · intro made hmade hfree
    obtain ⟨text, htext, -⟩ := hreads
    obtain ⟨-, own, -, hown, -⟩ := load_eq_ok_iff.mp hload
    exact exists_saveLocal hown htext hmade hfree
  · intro path saved hsave again hglobal
    exact load_of_saveLocal hload hreads hsave hglobal

/-! ### A user's and a repository's settings -/

/-- The user sets the level and leaves documents out; the repository sets the format and leaves out
documents and what it has from others. -/
def twoFiles : FileSystem where
  entries :=
    [(["home"], .directory), (["home", ".depgraph"], .directory),
      (["home", ".depgraph", "config.toml"], .file (.text
        "[logging]\nlevel = \"debug\"\n[analysis]\nexclude_patterns = [\"docs/**\"]\n")),
      (["r"], .directory), (["r", ".depgraph"], .directory),
      (["r", ".depgraph", "config.toml"], .file (.text
        "analysis.exclude_patterns = [\"lib/**\", \"docs/**\"]\nstorage.format = \"sqlite\"\n"))]
  current := "/"

/-- What the user's file says. -/
def userSettings : Config where
  storage := .standard
  analysis := { AnalysisSettings.standard with excludePatterns := ["docs/**"] }
  filter := .standard
  logging := { LoggingSettings.standard with level := "debug" }

/-- What both of them say together. -/
def bothSettings : Config where
  storage := { StorageSettings.standard with format := .sqlite }
  analysis :=
    { AnalysisSettings.standard with
      excludePatterns := AnalysisSettings.standard.excludePatterns ++ ["docs/**", "lib/**"] }
  filter := .standard
  logging := userSettings.logging

theorem readsBack_bothSettings : bothSettings.ReadsBack := by
  refine ⟨Toml.renderSections bothSettings.toSections, rfl, ?_⟩
  rw [Config.ofToml?, Toml.parse?]
  -- The text is taken apart into its pieces before it is read.
  simp only [Toml.renderSections, Config.toSections, bothSettings, AnalysisSettings.standard,
    FilterSettings.standard, List.map_cons, List.map_nil, List.cons_append, List.nil_append,
    Text.join, Toml.renderSection, Toml.render, Toml.renderItems, Toml.bracketed,
    Option.toList_none, String.intercalate_cons_cons, String.intercalate_singleton,
    String.join_cons, String.join_nil, String.toList_append]
  decide +kernel

theorem layers_stable_bothSettings :
    ((ofHome "/home").load twoFiles "/r" {}).1 = .ok bothSettings ∧ bothSettings.ReadsBack ∧
    ∃ saved, saveLocal bothSettings "/r" twoFiles = (.ok (localPath "/r"), saved) ∧
      (((ofHome "/home").load twoFiles "/r" {}).2.load saved "/r" {}).1 = .ok bothSettings := by
  have hload : ((ofHome "/home").load twoFiles "/r" {}).1 = .ok bothSettings := by decide +kernel
  have hglobal : ((ofHome "/home").loadGlobal twoFiles).1 = .ok (some userSettings) := by
    decide +kernel
  obtain ⟨hsave, hagain⟩ := layers_stable.2.2 _ _ _ _ hload readsBack_bothSettings
  obtain ⟨saved, hsaved⟩ := hsave twoFiles (by decide +kernel) (by decide +kernel)
  refine ⟨hload, readsBack_bothSettings, saved, hsaved, hagain _ saved hsaved _ ?_⟩
  rw [load_snd]
  exact loadGlobal_loadGlobal hglobal saved

end ConfigFiles

end CodeAtlas
