import CodeAtlas.Classification
import CodeAtlas.Identity
import CodeAtlas.Text.Sorted
import Mathlib.Data.List.Induction
import Mathlib.Data.List.Nodup

/-!
# Lists with keys

Several tables keep, of the entries with one key, the first: components by identifier, buckets by
identifier, names by spelling. `Keyed.firsts` says this once. A look-up finds in the kept entries
what it finds in all of them, the kept keys are distinct, and no key is lost.

## Main results

* `Keyed.find?_firsts`: looking up a key in the kept entries.
* `Keyed.nodup_map_firsts`, `Keyed.exists_mem_firsts`: the kept keys are distinct, and all of them.
* `Keyed.firsts_eq_self`: nothing is dropped from a list of distinct keys.
* `Keyed.find?_eq_some`: among distinct keys each entry is found under its own.
* `Keyed.lasts`: the same with the last entry of each key.
-/

namespace CodeAtlas

namespace Keyed

variable {α β : Type} [BEq β] [LawfulBEq β] (key : α → β)

/-- The first entry of each key, in order. -/
def firsts (xs : List α) : List α :=
  xs.foldl (fun kept x => if kept.any (fun y => key y == key x) then kept else kept ++ [x]) []

omit [LawfulBEq β] in
theorem firsts_append_singleton (xs : List α) (x : α) :
    firsts key (xs ++ [x]) =
      if (firsts key xs).any (fun y => key y == key x) then firsts key xs
      else firsts key xs ++ [x] := by
  rw [firsts, List.foldl_append]
  rfl

omit [LawfulBEq β] in
theorem firsts_sublist (xs : List α) : (firsts key xs).Sublist xs := by
  induction xs using List.reverseRecOn with
  | nil => exact List.Sublist.refl _
  | append_singleton xs x ih =>
    rw [firsts_append_singleton]
    split
    · exact ih.trans (List.sublist_append_left xs [x])
    · exact ih.append (List.Sublist.refl _)

/-- The keys of the kept entries are distinct. -/
theorem nodup_map_firsts (xs : List α) : ((firsts key xs).map key).Nodup := by
  induction xs using List.reverseRecOn with
  | nil => exact List.nodup_nil
  | append_singleton xs x ih =>
    rw [firsts_append_singleton]
    split
    · exact ih
    · rename_i hany
      rw [List.map_append, List.map_singleton]
      refine List.nodup_append.mpr ⟨ih, List.nodup_singleton _, fun k hk k' hk' hkk' => ?_⟩
      obtain ⟨y, hy, rfl⟩ := List.mem_map.mp hk
      obtain rfl := List.mem_singleton.mp hk'
      exact hany (List.any_eq_true.mpr ⟨y, hy, beq_iff_eq.mpr hkk'⟩)

/-- Looking up a key in the kept entries finds what is found in all. -/
theorem find?_firsts (xs : List α) (k : β) :
    (firsts key xs).find? (fun x => key x == k) = xs.find? fun x => key x == k := by
  induction xs using List.reverseRecOn with
  | nil => rfl
  | append_singleton xs x ih =>
    rw [firsts_append_singleton, List.find?_append, ← ih]
    split
    · rename_i hany
      obtain ⟨y, hy, hyx⟩ := List.any_eq_true.mp hany
      by_cases hx : key x == k
      · -- An entry with this key is kept already.
        have hyk : (key y == k) = true := by
          rw [beq_iff_eq] at hx hyx ⊢
          exact hyx.trans hx
        have hsome : ((firsts key xs).find? fun x => key x == k).isSome = true :=
          List.find?_isSome.mpr ⟨y, hy, hyk⟩
        obtain ⟨z, hz⟩ := Option.isSome_iff_exists.mp hsome
        rw [hz, Option.some_or]
      · simp [hx]
    · rw [List.find?_append]

/-- Every key is kept. -/
theorem exists_mem_firsts {xs : List α} {x : α} (hx : x ∈ xs) :
    ∃ y ∈ firsts key xs, key y = key x := by
  have hsome : (xs.find? fun y => key y == key x).isSome = true :=
    List.find?_isSome.mpr ⟨x, hx, beq_self_eq_true _⟩
  rw [← find?_firsts] at hsome
  obtain ⟨y, hy, hyx⟩ := List.find?_isSome.mp hsome
  exact ⟨y, hy, beq_iff_eq.mp hyx⟩

/-- Nothing is dropped where the keys are distinct. -/
theorem firsts_eq_self {xs : List α} (h : (xs.map key).Nodup) : firsts key xs = xs := by
  induction xs using List.reverseRecOn with
  | nil => rfl
  | append_singleton xs x ih =>
    rw [List.map_append, List.map_singleton, List.nodup_append] at h
    rw [firsts_append_singleton, ih h.1, if_neg]
    intro hany
    obtain ⟨y, hy, hyx⟩ := List.any_eq_true.mp hany
    exact h.2.2 (key y) (List.mem_map_of_mem hy) (key x) (by simp) (beq_iff_eq.mp hyx)

/-- Where the keys are distinct, each entry is found under its own. -/
theorem find?_eq_some {xs : List α} (h : (xs.map key).Nodup) {x : α} (hx : x ∈ xs) :
    xs.find? (fun y => key y == key x) = some x := by
  have hsome : (xs.find? fun y => key y == key x).isSome = true :=
    List.find?_isSome.mpr ⟨x, hx, beq_self_eq_true _⟩
  obtain ⟨found, hfound⟩ := Option.isSome_iff_exists.mp hsome
  have hkey := List.find?_some hfound
  rw [hfound, List.inj_on_of_nodup_map h (List.mem_of_find?_eq_some hfound) hx (beq_iff_eq.mp hkey)]

theorem firsts_cons (x : α) (xs : List α) :
    firsts key (x :: xs) = x :: (firsts key xs).filter fun y => !(key y == key x) := by
  induction xs using List.reverseRecOn with
  | nil => rfl
  | append_singleton xs y ih =>
    rw [← List.cons_append, firsts_append_singleton, firsts_append_singleton, ih, List.any_cons]
    by_cases hyx : key x == key y
    · -- The new entry repeats the first one.
      have hxy : (!(key y == key x)) = false := by simpa using (beq_iff_eq.mp hyx).symm
      rw [if_pos (by rw [hyx]; rfl)]
      split
      · rfl
      · simp [hxy]
    · have hxy : (!(key y == key x)) = true := by simpa using fun h => hyx (beq_iff_eq.mpr h.symm)
      have hany : ((firsts key xs).filter fun z => !(key z == key x)).any (fun z => key z == key y) =
          (firsts key xs).any fun z => key z == key y := by
        rw [List.any_filter]
        congr 1
        funext z
        by_cases hz : key z = key y
        · simpa [hz] using hxy
        · simp [hz]
      rw [Bool.eq_false_iff.mpr hyx, Bool.false_or, hany]
      split
      · rfl
      · simp [hxy]

/-- Keeping the first entries and keeping some keys can be exchanged. -/
theorem filter_firsts {p : α → Bool} {xs : List α}
    (hp : ∀ x ∈ xs, ∀ y ∈ xs, key x = key y → p x = p y) :
    (firsts key xs).filter p = firsts key (xs.filter p) := by
  induction xs with
  | nil => rfl
  | cons x xs ih =>
    have hrest := ih fun y hy z hz =>
      hp y (List.mem_cons_of_mem _ hy) z (List.mem_cons_of_mem _ hz)
    rw [firsts_cons, List.filter_cons, List.filter_cons, List.filter_filter]
    by_cases hx : p x = true
    · rw [if_pos hx, if_pos hx, firsts_cons, ← hrest, List.filter_filter]
      congr 2
      funext y
      exact Bool.and_comm _ _
    · rw [if_neg hx, if_neg hx, ← hrest]
      refine List.filter_congr fun y hy => ?_
      by_cases hpy : p y = true
      · have hmem := List.mem_cons_of_mem x ((firsts_sublist key xs).subset hy)
        have hne : key y ≠ key x := fun h => hx (hp y hmem x List.mem_cons_self h ▸ hpy)
        simp [hpy, hne]
      · simp [hpy]

omit [LawfulBEq β] in
theorem firsts_map {γ : Type} (f : γ → α) (xs : List γ) :
    firsts key (xs.map f) = (firsts (fun x => key (f x)) xs).map f := by
  induction xs using List.reverseRecOn with
  | nil => rfl
  | append_singleton xs x ih =>
    rw [List.map_append, List.map_singleton, firsts_append_singleton, firsts_append_singleton, ih,
      List.any_map]
    simp only [Function.comp_def]
    split
    · rfl
    · rw [List.map_append, List.map_singleton]

omit [LawfulBEq β] in
/-- Only which keys are equal matters. -/
theorem firsts_congr {γ : Type} [BEq γ] {key' : α → γ}
    (h : ∀ x y, (key x == key y) = (key' x == key' y)) (xs : List α) :
    firsts key xs = firsts key' xs := by
  simp only [firsts, h]

/-- The last entry of each key, in order. -/
def lasts (xs : List α) : List α :=
  (firsts key xs.reverse).reverse

theorem lasts_append_singleton (xs : List α) (x : α) :
    lasts key (xs ++ [x]) = (lasts key xs).filter (fun y => !(key y == key x)) ++ [x] := by
  rw [lasts, List.reverse_append, List.reverse_singleton, List.singleton_append, firsts_cons,
    List.reverse_cons, List.filter_reverse.symm]
  rfl

omit [LawfulBEq β] in
theorem lasts_sublist (xs : List α) : (lasts key xs).Sublist xs := by
  have hsublist := (firsts_sublist key xs.reverse).reverse
  rwa [List.reverse_reverse] at hsublist

theorem exists_mem_lasts {xs : List α} {x : α} (hx : x ∈ xs) :
    ∃ y ∈ lasts key xs, key y = key x := by
  obtain ⟨y, hy, hyx⟩ := exists_mem_firsts key (List.mem_reverse.mpr hx)
  exact ⟨y, List.mem_reverse.mpr hy, hyx⟩

theorem lasts_eq_self {xs : List α} (h : (xs.map key).Nodup) : lasts key xs = xs := by
  have hreverse : (xs.reverse.map key).Nodup := by
    rw [List.map_reverse]
    exact List.nodup_reverse.mpr h
  rw [lasts, firsts_eq_self key hreverse, List.reverse_reverse]

theorem filter_lasts {p : α → Bool} (hp : ∀ x y, key x = key y → p x = p y) (xs : List α) :
    (lasts key xs).filter p = lasts key (xs.filter p) := by
  rw [lasts, List.filter_reverse, filter_firsts key fun x _ y _ => hp x y, List.filter_reverse, lasts]

omit [LawfulBEq β] in
theorem lasts_map {γ : Type} (f : γ → α) (xs : List γ) :
    lasts key (xs.map f) = (lasts (fun x => key (f x)) xs).map f := by
  rw [lasts, ← List.map_reverse, firsts_map, lasts, List.map_reverse]

end Keyed

/-- The first entry with a name, among pairs. -/
theorem lookup_eq_find? {α β : Type} [BEq α] [LawfulBEq α] (xs : List (α × β)) (k : α) :
    xs.lookup k = (xs.find? fun x => x.1 == k).map (·.2) := by
  induction xs with
  | nil => rfl
  | cons x xs ih =>
    obtain ⟨a, b⟩ := x
    by_cases h : a = k
    · subst h
      simp
    · have hne : (k == a) = false := by simpa using fun h' => h h'.symm
      have hne' : (a == k) = false := by simpa using h
      rw [List.lookup_cons, hne, List.find?_cons, hne', ih]

/-- What is looked up is an entry. -/
theorem mem_of_lookup_eq_some {α β : Type} [BEq α] [LawfulBEq α] {xs : List (α × β)} {k : α} {v : β}
    (h : xs.lookup k = some v) : (k, v) ∈ xs := by
  obtain ⟨before, after, rfl, -⟩ := List.lookup_eq_some_iff.mp h
  exact List.mem_append_right _ List.mem_cons_self

/-- A key whose entries all have one value is looked up as that value. -/
theorem lookup_eq_some_of_mem {α β : Type} [BEq α] [LawfulBEq α] {xs : List (α × β)} {k : α} {v : β}
    (hmem : (k, v) ∈ xs) (huniq : ∀ v', (k, v') ∈ xs → v' = v) : xs.lookup k = some v := by
  have hsome : (xs.find? fun x => x.1 == k).isSome = true :=
    List.find?_isSome.mpr ⟨(k, v), hmem, beq_self_eq_true k⟩
  obtain ⟨⟨k', v'⟩, hfound⟩ := Option.isSome_iff_exists.mp hsome
  have hkey := List.find?_some hfound
  obtain rfl : k' = k := beq_iff_eq.mp hkey
  rw [lookup_eq_find?, hfound, Option.map_some, huniq v' (List.mem_of_find?_eq_some hfound)]

/-! ### Buckets by identifier -/

namespace Buckets

/-- The bucket of an identifier is that of the last pair with it. -/
theorem find?_ofPairs (pairs : List (String × Bucket)) (id : String) :
    (ofPairs pairs).find? id = pairs.reverse.lookup id := by
  rw [find?, lookup_eq_find?, lookup_eq_find?]
  exact congrArg _ (Keyed.find?_firsts Prod.fst pairs.reverse id)

/-- An identifier whose pairs all have one bucket has that bucket. -/
theorem find?_ofPairs_of_mem {pairs : List (String × Bucket)} {id : String} {bucket : Bucket}
    (hmem : (id, bucket) ∈ pairs) (huniq : ∀ other, (id, other) ∈ pairs → other = bucket) :
    (ofPairs pairs).find? id = some bucket := by
  rw [find?_ofPairs]
  exact lookup_eq_some_of_mem (List.mem_reverse.mpr hmem) fun other hother =>
    huniq other (List.mem_reverse.mp hother)

end Buckets

/-! ### First occurrences -/

namespace Text

variable {α : Type} [BEq α] [LawfulBEq α]

theorem firstOccurrences_eq_firsts (xs : List α) : firstOccurrences xs = Keyed.firsts id xs := by
  unfold firstOccurrences Keyed.firsts
  congr 1
  funext kept x
  have hany : kept.contains x = kept.any fun y => id y == id x := by
    rw [List.contains_eq_any_beq]
    exact congrArg kept.any (funext fun y => BEq.comm)
  rw [hany]

theorem filter_firstOccurrences (p : α → Bool) (xs : List α) :
    (firstOccurrences xs).filter p = firstOccurrences (xs.filter p) := by
  rw [firstOccurrences_eq_firsts, firstOccurrences_eq_firsts]
  exact Keyed.filter_firsts id fun _ _ _ _ heq => congrArg p heq

theorem mem_firstOccurrences {xs : List α} {x : α} : x ∈ firstOccurrences xs ↔ x ∈ xs := by
  rw [firstOccurrences_eq_firsts]
  constructor
  · exact fun h => (Keyed.firsts_sublist id xs).subset h
  · intro h
    obtain ⟨y, hy, rfl⟩ := Keyed.exists_mem_firsts id h
    exact hy

theorem nodup_firstOccurrences (xs : List α) : (firstOccurrences xs).Nodup := by
  rw [firstOccurrences_eq_firsts]
  simpa using Keyed.nodup_map_firsts id xs

end Text

end CodeAtlas
