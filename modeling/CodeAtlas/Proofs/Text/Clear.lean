import CodeAtlas.Digest.Fingerprint
import CodeAtlas.Language
import CodeAtlas.Symbol
import Mathlib.Data.List.Basic

/-!
# Text without zero characters

A zero character separates the name from the text when content is digested, so a name must not hold
one. Canonical symbol names never do, and the names made from a path do not if the path does not.

## Main results

* `Symbol.clear_normalize?`: canonical names are clear.
* `Language.clear_modulePath`, `Language.clear_symbolQualifier`: so are the names of a clear path.
-/

namespace CodeAtlas

/-- The text holds no zero character. -/
def Text.Clear (s : String) : Prop :=
  '\x00' ∉ s.toList

namespace Text

instance (s : String) : Decidable (Clear s) :=
  inferInstanceAs (Decidable (_ ∉ _))

@[simp] theorem clear_append {a b : String} : Clear (a ++ b) ↔ Clear a ∧ Clear b := by
  simp [Clear, not_or]

theorem clear_ofList {cs : List Char} : Clear (String.ofList cs) ↔ '\x00' ∉ cs := by
  rw [Clear, String.toList_ofList]

theorem clear_join {sep : String} (hsep : Clear sep) {parts : List String}
    (h : ∀ part ∈ parts, Clear part) : Clear (join sep parts) := by
  induction parts with
  | nil => simp [join, Clear]
  | cons part rest ih =>
    obtain ⟨hpart, hrest⟩ := List.forall_mem_cons.mp h
    cases rest with
    | nil => simpa [join] using hpart
    | cons next rest =>
      rw [join, String.intercalate_cons_cons, clear_append, clear_append]
      exact ⟨⟨hpart, hsep⟩, ih hrest⟩

theorem clear_replaceChar (old new : Char) {s : String} (hnew : new ≠ '\x00') (h : Clear s) :
    Clear (replaceChar old new s) := by
  simp only [Clear, replaceChar, String.toList_map, List.mem_map, not_exists, not_and]
  intro c hc
  split
  · exact hnew
  · rintro rfl
    exact h hc

/-! ### Fields of a text -/

/-- The characters of a field are characters of the text. -/
theorem mem_of_mem_splitChars {sep : Char → Bool} {cs field : List Char}
    (hfield : field ∈ splitChars sep cs) {c : Char} (hc : c ∈ field) : c ∈ cs := by
  fun_induction splitChars sep cs generalizing field with
  | case1 => simp_all
  | case2 d rest hd ih =>
    rcases List.mem_cons.mp hfield with rfl | hfield
    · exact absurd hc List.not_mem_nil
    · exact List.mem_cons_of_mem d (ih hfield hc)
  | case3 d rest hd hnil ih => simp_all
  | case4 d rest hd first fields hsplit ih =>
    rcases List.mem_cons.mp hfield with rfl | hfield
    · rcases List.mem_cons.mp hc with rfl | hc
      · exact List.mem_cons_self
      · exact List.mem_cons_of_mem d (ih (hsplit ▸ List.mem_cons_self) hc)
    · exact List.mem_cons_of_mem d (ih (hsplit ▸ List.mem_cons_of_mem first hfield) hc)

/-- A character that separates nothing stands in a field. -/
theorem exists_mem_splitChars (sep : Char → Bool) {cs : List Char} {c : Char} (hc : c ∈ cs)
    (hsep : sep c = false) : ∃ field ∈ splitChars sep cs, c ∈ field := by
  fun_induction splitChars sep cs with
  | case1 => exact absurd hc List.not_mem_nil
  | case2 d rest hd ih =>
    rcases List.mem_cons.mp hc with rfl | hc
    · simp [hsep] at hd
    · obtain ⟨field, hfield, hcf⟩ := ih hc
      exact ⟨field, List.mem_cons_of_mem _ hfield, hcf⟩
  | case3 d rest hd hnil ih =>
    rcases List.mem_cons.mp hc with rfl | hc
    · exact ⟨[c], by simp, by simp⟩
    · obtain ⟨field, hfield, _⟩ := ih hc
      exact absurd (hnil ▸ hfield) List.not_mem_nil
  | case4 d rest hd first fields hsplit ih =>
    rcases List.mem_cons.mp hc with rfl | hc
    · exact ⟨c :: first, List.mem_cons_self, List.mem_cons_self⟩
    · obtain ⟨field, hfield, hcf⟩ := ih hc
      rw [hsplit] at hfield
      rcases List.mem_cons.mp hfield with rfl | hfield
      · exact ⟨d :: field, List.mem_cons_self, List.mem_cons_of_mem d hcf⟩
      · exact ⟨field, List.mem_cons_of_mem _ hfield, hcf⟩

/-- The fields of a clear text are clear. -/
theorem clear_of_mem_split {sep : Char} {s field : String} (h : Clear s)
    (hfield : field ∈ split sep s) : Clear field := by
  obtain ⟨cs, hcs, rfl⟩ := List.mem_map.mp hfield
  exact clear_ofList.mpr fun hzero => h (mem_of_mem_splitChars hcs hzero)

/-- A text with clear fields is clear. -/
theorem clear_of_split {sep : Char} (hsep : sep ≠ '\x00') {s : String}
    (h : ∀ field ∈ split sep s, Clear field) : Clear s := by
  intro hzero
  obtain ⟨cs, hcs, hmem⟩ :=
    exists_mem_splitChars (· == sep) hzero (by simpa using fun h => hsep h.symm)
  exact clear_ofList.mp (h _ (List.mem_map_of_mem hcs)) hmem

/-- What stands before and after a cut is part of the text. -/
theorem cutFirst?_eq_some {sep : Char} {cs before after : List Char}
    (h : cutFirst? sep cs = some (before, after)) : cs = before ++ sep :: after := by
  induction cs generalizing before with
  | nil => simp [cutFirst?] at h
  | cons c rest ih =>
    rw [cutFirst?] at h
    split at h
    case isTrue hc =>
      obtain ⟨rfl, rfl⟩ := Prod.mk.inj (Option.some.inj h)
      simp [beq_iff_eq.mp hc]
    case isFalse =>
      obtain ⟨⟨front, back⟩, hcut, heq⟩ := Option.map_eq_some_iff.mp h
      obtain ⟨rfl, rfl⟩ := Prod.mk.inj heq
      rw [ih hcut, List.cons_append]

theorem cutLast?_eq_some {sep : Char} {cs before after : List Char}
    (h : cutLast? sep cs = some (before, after)) : cs = before ++ sep :: after := by
  obtain ⟨⟨back, front⟩, hcut, heq⟩ := Option.map_eq_some_iff.mp h
  obtain ⟨rfl, rfl⟩ := Prod.mk.inj heq
  have := congrArg List.reverse (cutFirst?_eq_some hcut)
  simpa using this

end Text

/-! ### Names -/

open Text (Clear clear_append clear_join clear_ofList clear_replaceChar clear_of_mem_split)

theorem Symbol.clear_qualify {outer inner : String} (houter : Clear outer) (hinner : Clear inner) :
    Clear (qualify outer inner) := by
  unfold qualify
  split
  · exact hinner
  · split
    · exact houter
    · exact clear_append.mpr ⟨clear_append.mpr ⟨houter, by decide +kernel⟩, hinner⟩

private theorem isNameChar_zero : Symbol.isNameChar '\x00' = false := by
  decide +kernel

/-- The canonical name of a symbol is clear, whatever its text holds. -/
theorem Symbol.clear_normalize? {raw name : String} (h : normalize? raw = some name) :
    Clear name := by
  unfold normalize? at h
  simp only at h
  split_ifs at h with hempty hchars hsuper
  obtain rfl := Option.some.inj h
  refine clear_join (by decide +kernel) fun part hpart => ?_
  obtain ⟨cs, hcs, rfl⟩ := List.mem_map.mp hpart
  refine clear_ofList.mpr fun hzero => ?_
  have hall : ((segments raw).all fun segment => segment.all isNameChar) = true := by
    simpa using hchars
  have := List.all_eq_true.mp (List.all_eq_true.mp hall cs hcs) _ hzero
  rw [isNameChar_zero] at this
  exact Bool.noConfusion this

namespace Language

theorem clear_withoutExtension {path : String} (h : Clear path) : Clear (withoutExtension path) := by
  unfold withoutExtension
  cases hcut : Text.cutLast? '/' path.toList with
  | none =>
    simp only
    split
    · rename_i before after hdot
      split
      · exact h
      · refine clear_ofList.mpr fun hzero => h ?_
        rw [Text.cutLast?_eq_some hdot]
        exact List.mem_append_left _ (by simpa using hzero)
    · exact h
  | some parts =>
    obtain ⟨folder, name⟩ := parts
    simp only
    split
    · rename_i before after hdot
      split
      · exact h
      · refine clear_ofList.mpr fun hzero => h ?_
        rw [Text.cutLast?_eq_some hcut, Text.cutLast?_eq_some hdot]
        rcases List.mem_append.mp hzero with hzero | hzero
        · rcases List.mem_append.mp hzero with hzero | hzero
          · exact List.mem_append_left _ hzero
          · exact absurd (List.mem_singleton.mp hzero) (by decide)
        · exact List.mem_append_right _ (List.mem_cons_of_mem _ (List.mem_append_left _ hzero))
    · exact h

theorem clear_of_mem_segments {path segment : String} (h : Clear path)
    (hsegment : segment ∈ segments path) : Clear segment :=
  clear_of_mem_split h (List.mem_of_mem_filter hsegment)

/-- A module is named by some of the segments of its path. -/
theorem moduleSegments_sublist (language : Language) (names : List String) :
    (moduleSegments language names).Sublist names := by
  have hlast {p : Prop} [Decidable p] (xs : List String) :
      (if p then xs.dropLast else xs).Sublist xs := by
    split
    · exact List.dropLast_sublist xs
    · exact List.Sublist.refl xs
  have hfirst {p : Prop} [Decidable p] (xs : List String) :
      (if p then xs.tail else xs).Sublist xs := by
    split
    · exact List.tail_sublist xs
    · exact List.Sublist.refl xs
  cases language with
  | python => exact hlast names
  | rust => exact (hlast _).trans (hfirst names)
  | _ => exact List.Sublist.refl names

/-- The module path of a clear path is clear. -/
theorem clear_modulePath {language : Language} {path : String} (h : Clear path) :
    Clear (language.modulePath path) := by
  refine clear_join (by decide +kernel) fun segment hsegment => ?_
  have hnormalized := clear_replaceChar '\\' '/' (by decide) h
  exact clear_of_mem_segments (clear_withoutExtension hnormalized)
    ((moduleSegments_sublist language _).subset hsegment)

/-- What the symbols of a clear path start with is clear. -/
theorem clear_symbolQualifier {language : Language} {path : String} (h : Clear path) :
    Clear (language.symbolQualifier path) := by
  have hnormalized := clear_replaceChar '\\' '/' (by decide) h
  have hpackage {package : String} (hp : packagePath? path = some package) : Clear package := by
    unfold packagePath? at hp
    split at hp
    · rename_i folder name hcut
      have hfolder : Clear (String.ofList folder) := clear_ofList.mpr fun hzero =>
        hnormalized (Text.cutLast?_eq_some hcut ▸ List.mem_append_left _ hzero)
      split at hp
      · simp at hp
      · obtain rfl := Option.some.inj hp
        exact clear_join (by decide +kernel) fun segment hsegment =>
          clear_of_mem_segments hfolder hsegment
    · simp at hp
  unfold symbolQualifier
  split
  · cases hp : packagePath? path with
    | none => exact clear_modulePath h
    | some package => exact hpackage hp
  · exact clear_modulePath h

end Language

end CodeAtlas
