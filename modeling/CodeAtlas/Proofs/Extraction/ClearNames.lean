import CodeAtlas.Proofs.Extraction.Steps
import CodeAtlas.Proofs.KeyedLists
import CodeAtlas.Proofs.Text.Clear
import CodeAtlas.Registry
import Mathlib.Data.List.Basic

/-!
# Extracted names are clear

The names of the components of a file are made of its path and of canonical symbol names, so they
hold no zero character if the path holds none, whatever the text and its tree are.

## Main results

* `Extraction.clear_extract`: the names of one file's components.
* `Registry.exists_language_of_forPath?`: the extractors of paths are those of languages.
-/

namespace CodeAtlas

open Text (Clear)

namespace Extraction

/-- The name of a definition below its scope is clear. -/
theorem clear_definitionName? {ctx : Context} {rule : DefinitionRule} {node : Node}
    {name : DefinitionName} (h : definitionName? ctx rule node = some name) :
    Clear name.localName := by
  unfold definitionName? at h
  split at h
  · simp only [receiverName?, Option.bind_eq_bind, Option.bind_eq_some_iff] at h
    obtain ⟨_, _, method, hmethod, _, _, _, _, _, _, typeName, htype, heq⟩ := h
    obtain rfl := Option.some.inj heq
    exact Text.clear_append.mpr ⟨Text.clear_append.mpr
      ⟨Symbol.clear_normalize? htype, by decide +kernel⟩, Symbol.clear_normalize? hmethod⟩
  · obtain ⟨target, _, hspelled⟩ := Option.bind_eq_some_iff.mp h
    unfold spelledName? at hspelled
    split at hspelled
    · simp at hspelled
    · split at hspelled
      · simp at hspelled
      · rename_i spelled hsymbol
        have hclear := Symbol.clear_normalize? hsymbol
        split at hspelled
        · split at hspelled
          · obtain rfl := Option.some.inj hspelled
            exact hclear
          · simp at hspelled
        · obtain rfl := Option.some.inj hspelled
          exact hclear

theorem clear_definitionAt? {ctx : Context} {scope : Scope} {rule : DefinitionRule} {node : Node}
    {name : DefinitionName} (h : definitionAt? ctx scope rule node = some name) :
    Clear name.localName := by
  unfold definitionAt? at h
  split_ifs at h
  exact clear_definitionName? h

private theorem stepKeeps_clear (ctx : Context) :
    StepKeeps ctx (fun scope => Clear scope.qualifier)
      (fun found => ∀ d ∈ found.drafts, Clear d.qualifiedName) where
  descend := by
    intro scope scope' found found' node hscope hfound hstep
    cases hstep with
    | redefinition => exact ⟨hscope, hfound⟩
    | definition rule name _ _ hname _ =>
      have hqualified := Symbol.clear_qualify hscope (clear_definitionAt? hname)
      refine ⟨?_, fun d hd => ?_⟩
      · simp only [bodyScope]
        split
        · exact hqualified
        · exact hscope
      · rcases List.mem_append.mp hd with hd | hd
        · exact hfound d hd
        · obtain rfl := List.mem_singleton.mp hd
          exact hqualified
    | scope rule name _ _ hname =>
      obtain ⟨_, _, hsymbol⟩ := Option.bind_eq_some_iff.mp hname
      exact ⟨Symbol.clear_qualify hscope (Symbol.clear_normalize? hsymbol), hfound⟩
    | call => exact ⟨hscope, hfound⟩
    | code => exact ⟨hscope, hfound⟩
  finish := by
    intro scope found found' node _ hfound hstep
    cases hstep
    exact hfound

/-- The components of a file with a clear path have clear names. -/
theorem clear_extract {language : Language} {relativePath source : String} {root : Node}
    (hpath : Clear relativePath) {c : ParsedComponent}
    (hc : c ∈ (extract language relativePath source root).components) : Clear c.qualifiedName := by
  have hmodule : Clear (Context.ofFile language relativePath source).moduleName :=
    Language.clear_modulePath hpath
  have hdrafts : ∀ d ∈ (walk (.ofFile language relativePath source) root).drafts,
      Clear d.qualifiedName :=
    visitAll_induction (stepKeeps_clear _) root.children (.ofFile _) .none
      (Language.clear_symbolQualifier hpath) fun d hd => absurd hd List.not_mem_nil
  rcases List.mem_append.mp hc with hc | hc
  · obtain ⟨⟨draft, index⟩, hdraft, rfl⟩ := List.mem_map.mp hc
    exact hdrafts draft (List.fst_mem_of_mem_zipIdx hdraft)
  · obtain rfl := List.mem_singleton.mp hc
    exact hmodule

end Extraction

namespace Registry

private def OfLanguages (parser : SyntaxParser) (registry : Registry) : Prop :=
  ∀ entry ∈ registry.entries, ∃ language : Language,
    entry.1 ∈ language.extensions ∧ entry.2 = .ofLanguage parser language

/-- The standard extractors are those of the languages. -/
private theorem ofLanguages_standard (parser : SyntaxParser) :
    OfLanguages parser (standard parser) := by
  refine List.foldlRecOn (motive := OfLanguages parser) Language.all _
    (fun entry h => absurd h List.not_mem_nil) fun registry hregistry language _ => ?_
  have hlower : ∀ extension ∈ language.extensions, Text.lower extension = extension := by
    cases language <;> decide +kernel
  refine List.foldlRecOn (motive := OfLanguages parser) language.extensions _ hregistry
    fun registry hregistry extension hextension entry h => ?_
  rcases List.mem_cons.mp h with rfl | h
  · exact ⟨language, (hlower extension hextension).symm ▸ hextension, rfl⟩
  · exact hregistry entry h

/-- The extractor of a path is that of the language with its extension. -/
theorem exists_language_of_forPath? {parser : SyntaxParser} {path : String} {extractor : Extractor}
    (h : (standard parser).forPath? path = some extractor) :
    ∃ (language : Language) (extension : String), PathText.extension? path = some extension ∧
      Text.lower extension ∈ language.extensions ∧ extractor = .ofLanguage parser language := by
  obtain ⟨extension, hextension, hlookup⟩ := Option.bind_eq_some_iff.mp h
  obtain ⟨language, hmem, heq⟩ :=
    ofLanguages_standard parser (Text.lower extension, extractor) (mem_of_lookup_eq_some hlookup)
  exact ⟨language, extension, hextension, hmem, heq⟩

end Registry

end CodeAtlas
