import CodeAtlas.Config
import Mathlib.Data.List.Induction

/-!
# Layers of configuration

A setting of a later layer replaces that of an earlier one by one of four rules. A plain value does
so unless it is the standard value; an optional value does so if it is there; a wish that is made in
one of the layers is made; and patterns are added to those that are there. By each of these rules a
layer on top of itself changes nothing, and it does not matter which of two neighbouring layers are
put together first. So a layer may be put on top again: what it says is said already.

The rule for plain values works for every notion of a standard value, and for the directory that
notion is coarser than equality: several texts stand for the standard directory.

## Main results

* `overlaid_assoc`, `unitedWith_assoc`: the rules for plain values and for patterns.
* `Config.layer_assoc`, `Config.layer_self`: the laws for whole configurations.
* `Config.layer_layer_self`: a layer that is put on top again.
-/

namespace CodeAtlas

/-! ### The rules -/

section Overlaid

variable {α : Type} (isStandard : α → Bool)

theorem overlaid_self (a : α) : overlaid isStandard a a = a :=
  ite_self a

theorem overlaid_assoc (a b c : α) :
    overlaid isStandard (overlaid isStandard a b) c =
      overlaid isStandard a (overlaid isStandard b c) := by
  by_cases hc : isStandard c = true
  · simp only [overlaid, if_pos hc]
  · simp only [overlaid, if_neg hc]

end Overlaid

section UnitedWith

variable {α : Type} [BEq α]

theorem unitedWith_append (base front back : List α) :
    unitedWith base (front ++ back) = unitedWith (unitedWith base front) back :=
  List.foldl_append

theorem unitedWith_singleton (base : List α) (a : α) :
    unitedWith base [a] = if base.contains a then base else base ++ [a] :=
  rfl

variable [LawfulBEq α]

theorem mem_unitedWith {base overlay : List α} {a : α} :
    a ∈ unitedWith base overlay ↔ a ∈ base ∨ a ∈ overlay := by
  induction overlay using List.reverseRecOn with
  | nil => simp [unitedWith]
  | append_singleton front last ih =>
    rw [unitedWith_append, unitedWith_singleton, List.mem_append, ← or_assoc, ← ih]
    split_ifs with hlast
    · -- The last item was there already.
      rw [List.contains_iff_mem] at hlast
      refine ⟨Or.inl, Or.rec id fun ha => ?_⟩
      rwa [List.mem_singleton.mp ha]
    · rw [List.mem_append]

/-- Items that are there already add nothing. -/
theorem unitedWith_of_subset {base overlay : List α} (h : ∀ a ∈ overlay, a ∈ base) :
    unitedWith base overlay = base := by
  induction overlay using List.reverseRecOn with
  | nil => rfl
  | append_singleton front last ih =>
    have hfront : unitedWith base front = base := ih fun a ha => h a (List.mem_append_left _ ha)
    have hlast : base.contains last = true :=
      List.contains_iff_mem.mpr (h last (List.mem_append_right _ (List.mem_singleton_self last)))
    rw [unitedWith_append, hfront, unitedWith_singleton, if_pos hlast]

theorem unitedWith_assoc (a b c : List α) :
    unitedWith (unitedWith a b) c = unitedWith a (unitedWith b c) := by
  induction c using List.reverseRecOn with
  | nil => rfl
  | append_singleton front last ih =>
    rw [unitedWith_append, unitedWith_append, ih, unitedWith_singleton (unitedWith b front)]
    split_ifs with hlast
    · refine unitedWith_of_subset fun item hitem => mem_unitedWith.mpr (Or.inr ?_)
      rw [List.mem_singleton.mp hitem]
      exact List.contains_iff_mem.mp hlast
    · exact (unitedWith_append a (unitedWith b front) [last]).symm

theorem unitedWith_self (a : List α) : unitedWith a a = a :=
  unitedWith_of_subset fun _ h => h

end UnitedWith

/-! ### Groups of settings -/

theorem StorageSettings.layer_assoc (a b c : StorageSettings) :
    (a.layer b).layer c = a.layer (b.layer c) := by
  simp only [layer, overlaid_assoc]

theorem StorageSettings.layer_self (a : StorageSettings) : a.layer a = a := by
  simp only [layer, overlaid_self]

theorem AnalysisSettings.layer_assoc (a b c : AnalysisSettings) :
    (a.layer b).layer c = a.layer (b.layer c) := by
  simp only [layer, overlaid_assoc, unitedWith_assoc, Bool.or_assoc]

theorem AnalysisSettings.layer_self (a : AnalysisSettings) : a.layer a = a := by
  simp only [layer, overlaid_self, unitedWith_self, Bool.or_self]

theorem FilterSettings.layer_assoc (a b c : FilterSettings) :
    (a.layer b).layer c = a.layer (b.layer c) := by
  simp only [layer, Option.or_assoc]

theorem FilterSettings.layer_self (a : FilterSettings) : a.layer a = a := by
  simp only [layer, Option.or_self]

theorem LoggingSettings.layer_assoc (a b c : LoggingSettings) :
    (a.layer b).layer c = a.layer (b.layer c) := by
  simp only [layer, overlaid_assoc]

theorem LoggingSettings.layer_self (a : LoggingSettings) : a.layer a = a := by
  simp only [layer, overlaid_self]

/-! ### Configurations -/

namespace Config

theorem layer_assoc (a b c : Config) : (a.layer b).layer c = a.layer (b.layer c) := by
  simp only [layer, StorageSettings.layer_assoc, AnalysisSettings.layer_assoc,
    FilterSettings.layer_assoc, LoggingSettings.layer_assoc]

theorem layer_self (a : Config) : a.layer a = a := by
  simp only [layer, StorageSettings.layer_self, AnalysisSettings.layer_self,
    FilterSettings.layer_self, LoggingSettings.layer_self]

/-- What lies below is said already by what was put on top of it. -/
theorem layer_layer_self (base overlay : Config) :
    base.layer (base.layer overlay) = base.layer overlay := by
  rw [← layer_assoc, layer_self]

end Config

end CodeAtlas
