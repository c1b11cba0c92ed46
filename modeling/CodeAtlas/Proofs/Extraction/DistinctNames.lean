import CodeAtlas.Extraction
import CodeAtlas.Proofs.Extraction.Steps
import Mathlib.Data.List.Nodup

/-!
# The components of a file have distinct names

A definition is recorded only when its name is neither that of an earlier definition nor that of the
file's remainder, whatever the tree looks like. So a name stands for one component of a file.

## Main results

* `Extraction.nodup_names_extract`: no two components of a file have the same name.
-/

namespace CodeAtlas.Extraction

/-- The name of the remainder and the names of the definitions. -/
def namesOf (ctx : Context) (found : Findings) : List String :=
  ctx.moduleName :: found.drafts.map (·.qualifiedName)

private theorem stepKeeps_nodup (ctx : Context) :
    StepKeeps ctx (fun _ => True) (fun found => (namesOf ctx found).Nodup) where
  descend := by
    intro scope scope' found found' node _ hfound hstep
    cases hstep with
    | definition rule name _ _ _ hfree =>
      have hnew : Symbol.qualify scope.qualifier name.localName ∉ namesOf ctx found := by
        simp only [isTaken, Bool.or_eq_false_iff, beq_eq_false_iff_ne, List.any_eq_false,
          beq_iff_eq] at hfree
        simp only [namesOf, List.mem_cons, List.mem_map, not_or, not_exists, not_and]
        exact hfree
      refine ⟨trivial, ?_⟩
      simp only [namesOf, List.map_append, List.map_singleton, ← List.cons_append]
      refine List.nodup_middle.mpr ?_
      rw [List.append_nil]
      exact List.nodup_cons.mpr ⟨hnew, hfound⟩
    | redefinition => exact ⟨trivial, hfound⟩
    | scope => exact ⟨trivial, hfound⟩
    | call => exact ⟨trivial, hfound⟩
    | code => exact ⟨trivial, hfound⟩
  finish := by
    intro scope found found' node _ hfound hstep
    cases hstep
    exact hfound

/-- No two components of a file have the same name. -/
theorem nodup_names_extract (language : Language) (relativePath source : String) (root : Node) :
    ((extract language relativePath source root).components.map (·.qualifiedName)).Nodup := by
  have hnames : (namesOf (.ofFile language relativePath source)
      (walk (.ofFile language relativePath source) root)).Nodup :=
    visitAll_induction (stepKeeps_nodup _) root.children (.ofFile _) .none trivial
      (List.nodup_singleton _)
  have hmap : (extract language relativePath source root).components.map (·.qualifiedName) =
      (walk (.ofFile language relativePath source) root).drafts.map (·.qualifiedName) ++
        [(Context.ofFile language relativePath source).moduleName] := by
    simp only [extract, assemble, List.map_append, List.map_map, List.map_singleton]
    congr 1
    conv_rhs => rw [← List.zipIdx_map_fst 0 (walk _ root).drafts, List.map_map]
    rfl
  rw [hmap]
  exact List.nodup_middle.mpr (by simpa [namesOf] using hnames)

end CodeAtlas.Extraction
