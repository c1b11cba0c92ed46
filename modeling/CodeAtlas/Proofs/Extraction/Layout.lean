import CodeAtlas.Proofs.Extraction.Steps
import CodeAtlas.Proofs.SyntaxTree.WellFormed
import CodeAtlas.Proofs.Text.Slices

/-!
# The layout of definitions in a text

When the syntax tree of a file is well formed, the definitions that the walk finds lie in the text
like the nodes of the tree: each of them lies in the definition around it, and those directly inside
of one definition follow each other. So among the definitions that cover a position each contains
the next, and exactly one of them, or the remainder of the file, has no definition directly inside
that covers the position too.

## Main results

* `Extraction.laid_walk`: the definitions found in a well-formed tree are laid out so.
* `Extraction.Laid.exists_owns`, `Extraction.Laid.owns_unique`: every position has one owner.
-/

namespace CodeAtlas.Extraction

open Node (IsBoundary WellFormed WellFormedRow wellFormedRow_le)

/-! ### Laid out definitions -/

/-- Definitions laid out in a text: their ranges end at boundaries, lie in the range of the
definition around them, and follow each other where that is the same one. -/
structure Laid (source : String) (drafts : List Draft) : Prop where
  ranges : ∀ d ∈ drafts, d.range.start ≤ d.range.stop ∧
    IsBoundary source d.range.start ∧ IsBoundary source d.range.stop
  nested : ∀ (i : Nat) (d : Draft) (j : Nat), drafts[i]? = some d → d.parent = some j →
    j < i ∧ ∃ e : Draft, drafts[j]? = some e ∧
      e.range.start ≤ d.range.start ∧ d.range.stop ≤ e.range.stop
  siblings : drafts.Pairwise fun d e => d.parent = e.parent → d.range.stop ≤ e.range.start

/-- Between two offsets there is room for definitions of an owner: its range reaches over them, and
the definitions it has end before. -/
structure Room (owner : Option Nat) (lower upper : Nat) (drafts : List Draft) : Prop where
  before : ∀ d ∈ drafts, d.parent = owner → d.range.stop ≤ lower
  around : ∀ j, owner = some j →
    ∃ e : Draft, drafts[j]? = some e ∧ e.range.start ≤ lower ∧ upper ≤ e.range.stop

/-- Definitions are added: those of the owner end before an offset, and the others belong to added
ones. -/
def Grown (owner : Option Nat) (upper : Nat) (drafts drafts' : List Draft) : Prop :=
  ∃ added, drafts' = drafts ++ added ∧ ∀ d ∈ added,
    (d.parent = owner ∧ d.range.stop ≤ upper) ∨ ∃ j, d.parent = some j ∧ drafts.length ≤ j

theorem laid_nil (source : String) : Laid source [] where
  ranges := by simp
  nested := by simp
  siblings := List.Pairwise.nil

/-- A definition in the room of its owner can be added. -/
theorem Laid.push {source : String} {drafts : List Draft} (h : Laid source drafts) {d : Draft}
    (hle : d.range.start ≤ d.range.stop) (hstart : IsBoundary source d.range.start)
    (hstop : IsBoundary source d.range.stop)
    (hroom : Room d.parent d.range.start d.range.stop drafts) : Laid source (drafts ++ [d]) where
  ranges := by
    intro e he
    rcases List.mem_append.mp he with he | he
    · exact h.ranges e he
    · obtain rfl := List.mem_singleton.mp he
      exact ⟨hle, hstart, hstop⟩
  nested := by
    intro i e j he hj
    by_cases hi : i < drafts.length
    · rw [List.getElem?_append_left hi] at he
      obtain ⟨hji, parent, hparent, hinside⟩ := h.nested i e j he hj
      exact ⟨hji, parent, by rwa [List.getElem?_append_left (by omega)], hinside⟩
    · obtain ⟨hi', rfl⟩ : i = drafts.length ∧ d = e := by
        rw [List.getElem?_append_right (by omega)] at he
        have hzero : i - drafts.length = 0 := by
          have := (List.getElem?_eq_some_iff.mp he).1
          simp at this
          omega
        rw [hzero] at he
        exact ⟨by omega, by simpa using he⟩
      obtain ⟨parent, hparent, hinside⟩ := hroom.around j hj
      have hlt := (List.getElem?_eq_some_iff.mp hparent).1
      exact ⟨by omega, parent, by rwa [List.getElem?_append_left hlt], hinside⟩
  siblings := by
    refine List.pairwise_append.mpr ⟨h.siblings, List.pairwise_singleton _ _, ?_⟩
    intro e he d' hd' hparent
    obtain rfl := List.mem_singleton.mp hd'
    exact hroom.before e he hparent

/-- No definition belongs to one that is not there. -/
theorem Laid.parent_lt {source : String} {drafts : List Draft} (h : Laid source drafts)
    {d : Draft} (hd : d ∈ drafts) {j : Nat} (hj : d.parent = some j) : j < drafts.length := by
  obtain ⟨i, hi⟩ := List.mem_iff_getElem?.mp hd
  have hlt := (List.getElem?_eq_some_iff.mp hi).1
  have := (h.nested i d j hi hj).1
  omega

theorem Room.mono {owner : Option Nat} {lower upper lower' upper' : Nat} {drafts : List Draft}
    (h : Room owner lower upper drafts) (hlower : lower ≤ lower') (hupper : upper' ≤ upper) :
    Room owner lower' upper' drafts where
  before := fun d hd hp => Nat.le_trans (h.before d hd hp) hlower
  around := fun j hj => by
    obtain ⟨e, he, hstart, hstop⟩ := h.around j hj
    exact ⟨e, he, Nat.le_trans hstart hlower, Nat.le_trans hupper hstop⟩

theorem Grown.refl (owner : Option Nat) (upper : Nat) (drafts : List Draft) :
    Grown owner upper drafts drafts :=
  ⟨[], by simp, by simp⟩

theorem Grown.trans {owner : Option Nat} {middle upper : Nat} {drafts drafts' drafts'' : List Draft}
    (h : Grown owner middle drafts drafts') (h' : Grown owner upper drafts' drafts'')
    (hle : middle ≤ upper) : Grown owner upper drafts drafts'' := by
  obtain ⟨first, rfl, hfirst⟩ := h
  obtain ⟨second, rfl, hsecond⟩ := h'
  refine ⟨first ++ second, List.append_assoc .., fun d hd => ?_⟩
  rcases List.mem_append.mp hd with hd | hd
  · rcases hfirst d hd with ⟨hp, hstop⟩ | hp
    · exact Or.inl ⟨hp, Nat.le_trans hstop hle⟩
    · exact Or.inr hp
  · rcases hsecond d hd with hp | ⟨j, hj, hlen⟩
    · exact Or.inl hp
    · rw [List.length_append] at hlen
      exact Or.inr ⟨j, hj, by omega⟩

/-- After definitions were added, the room begins where they end. -/
theorem Room.after {owner : Option Nat} {lower middle upper : Nat} {drafts drafts' : List Draft}
    (h : Room owner lower upper drafts) (hgrown : Grown owner middle drafts drafts')
    (hle : lower ≤ middle) : Room owner middle upper drafts' := by
  obtain ⟨added, rfl, hadded⟩ := hgrown
  refine ⟨fun d hd hp => ?_, fun j hj => ?_⟩
  · rcases List.mem_append.mp hd with hd | hd
    · exact Nat.le_trans (h.before d hd hp) hle
    · rcases hadded d hd with ⟨_, hstop⟩ | ⟨j, hj, hlen⟩
      · exact hstop
      · obtain ⟨e, he, _⟩ := h.around j (hp.symm.trans hj)
        have := (List.getElem?_eq_some_iff.mp he).1
        omega
  · obtain ⟨e, he, hstart, hstop⟩ := h.around j hj
    have hlt := (List.getElem?_eq_some_iff.mp he).1
    exact ⟨e, by rwa [List.getElem?_append_left hlt], by omega, hstop⟩

/-! ### The walk lays definitions out -/

mutual

private theorem visit_laid (ctx : Context) {source : String} : (node : Node) → (scope : Scope) →
    (found : Findings) → WellFormed source node → Laid source found.drafts →
    Room scope.owner node.range.start node.range.stop found.drafts →
    Laid source (visit ctx scope found node).drafts ∧
      Grown scope.owner node.range.stop found.drafts (visit ctx scope found node).drafts
  | .mk kind range isNamed field children, scope, found, .mk hle hstart hstop hinside, hlaid,
      hroom => by
    have hstep := stepped ctx scope found (.mk kind range isNamed field children)
    rw [visit]
    -- All cases but a new definition keep the owner and the drafts.
    have hsame (scope' : Scope) (found' : Findings) (howner : scope'.owner = scope.owner)
        (hdrafts : found'.drafts = found.drafts) :
        Laid source (visitAll ctx scope' found' children).drafts ∧
          Grown scope.owner range.stop found.drafts
            (visitAll ctx scope' found' children).drafts := by
      have := visitAll_laid ctx children scope' found' hinside (hdrafts ▸ hlaid)
        (by rw [howner, hdrafts]; exact hroom)
      rwa [howner, hdrafts] at this
    generalize step ctx scope found (.mk kind range isNamed field children) = result at hstep
    cases hstep with
    | redefinition => exact hsame _ _ rfl rfl
    | scope => exact hsame _ _ rfl rfl
    | call => exact hsame _ _ rfl rfl
    | code => exact hsame _ _ rfl rfl
    | imports => exact ⟨hlaid, Grown.refl _ _ _⟩
    | definition rule name _ _ _ _ =>
      let d := draftOf scope rule (.mk kind range isNamed field children) name
      have hpush : Laid source (found.drafts ++ [d]) := hlaid.push hle hstart hstop hroom
      have hbody : Room (some found.drafts.length) range.start range.stop (found.drafts ++ [d]) := by
        refine ⟨fun e he hp => ?_, fun j hj => ?_⟩
        · -- Nothing belongs to the new definition yet.
          rcases List.mem_append.mp he with he | he
          · exact absurd (hlaid.parent_lt he hp) (Nat.lt_irrefl _)
          · obtain rfl := List.mem_singleton.mp he
            obtain ⟨e, he, _⟩ := hroom.around _ hp
            exact absurd (List.getElem?_eq_some_iff.mp he).1 (Nat.lt_irrefl _)
        · obtain rfl := Option.some.inj hj
          exact ⟨d, by simp, Nat.le_refl _, Nat.le_refl _⟩
      obtain ⟨hlaid', added, hadded, hparents⟩ := visitAll_laid ctx children
        (bodyScope scope found.drafts.length d) { found with drafts := found.drafts ++ [d] }
        hinside hpush hbody
      refine ⟨hlaid', d :: added, ?_, ?_⟩
      · exact hadded.trans (by rw [List.append_assoc]; rfl)
      · refine List.forall_mem_cons.mpr ⟨Or.inl ⟨rfl, Nat.le_refl _⟩, fun e he => Or.inr ?_⟩
        rcases hparents e he with ⟨hp, _⟩ | ⟨j, hj, hlen⟩
        · exact ⟨_, hp, Nat.le_refl _⟩
        · simp only [List.length_append, List.length_singleton] at hlen
          exact ⟨j, hj, by omega⟩

private theorem visitAll_laid (ctx : Context) {source : String} : (nodes : List Node) →
    (scope : Scope) → (found : Findings) → {lower upper : Nat} →
    WellFormedRow source lower upper nodes → Laid source found.drafts →
    Room scope.owner lower upper found.drafts →
    Laid source (visitAll ctx scope found nodes).drafts ∧
      Grown scope.owner upper found.drafts (visitAll ctx scope found nodes).drafts
  | [], scope, found, lower, upper, _, hlaid, _ => by
    rw [visitAll]
    exact ⟨hlaid, Grown.refl _ _ _⟩
  | node :: rest, scope, found, lower, upper, .cons hstart hnode hrest, hlaid, hroom => by
    have hend : node.range.stop ≤ upper := wellFormedRow_le hrest
    have hnode_le : node.range.start ≤ node.range.stop := hnode.range_le
    rw [visitAll]
    split
    · obtain ⟨hlaid', hgrown⟩ :=
        visit_laid ctx node scope found hnode hlaid (hroom.mono hstart hend)
      obtain ⟨hlaid'', hgrown'⟩ := visitAll_laid ctx rest scope _ hrest hlaid'
        (hroom.after hgrown (Nat.le_trans hstart hnode_le))
      exact ⟨hlaid'', hgrown.trans hgrown' hend⟩
    · exact visitAll_laid ctx rest scope found hrest hlaid
        (hroom.mono (Nat.le_trans hstart hnode_le) (Nat.le_refl _))

end

/-- The definitions found in a well-formed tree are laid out in the text. -/
theorem laid_walk (ctx : Context) {source : String} {root : Node} (h : WellFormed source root) :
    Laid source (walk ctx root).drafts := by
  cases h with
  | mk hle hstart hstop hinside =>
    have hroom (lower upper : Nat) : Room none lower upper Findings.none.drafts :=
      ⟨fun d hd => absurd hd List.not_mem_nil, fun j hj => absurd hj (by simp)⟩
    exact (visitAll_laid ctx _ (.ofFile ctx) .none hinside (laid_nil source) (hroom _ _)).1

/-! ### The owner of a position -/

/-- The range of a definition, or of the whole text for the remainder. -/
def rangeOf? (length : Nat) (drafts : List Draft) : Option Nat → Option Span
  | none => some ⟨0, length⟩
  | some i => drafts[i]?.map Draft.range

/-- The position lies in the range of a definition or of the remainder. -/
def Covers (length : Nat) (drafts : List Draft) (owner : Option Nat) (p : Nat) : Prop :=
  ∃ range, rangeOf? length drafts owner = some range ∧ range.Contains p

/-- The position is covered, and by no definition directly inside. -/
def Owns (length : Nat) (drafts : List Draft) (owner : Option Nat) (p : Nat) : Prop :=
  Covers length drafts owner p ∧ ∀ d ∈ drafts, d.parent = owner → ¬ d.range.Contains p

/-- The definition of the first number comes before the second; the remainder comes before all. -/
def Before (owner : Option Nat) (i : Nat) : Prop :=
  ∀ j, owner = some j → j < i

theorem covers_some_iff {length : Nat} {drafts : List Draft} {i p : Nat} :
    Covers length drafts (some i) p ↔ ∃ d, drafts[i]? = some d ∧ d.range.Contains p := by
  simp [Covers, rangeOf?]

variable {source : String} {drafts : List Draft} {p : Nat}

/-- If one definition covers a position, the one around it does. -/
theorem Laid.covers_parent (h : Laid source drafts) {i : Nat} {d : Draft}
    (hi : drafts[i]? = some d) (hp : d.range.Contains p) :
    Covers source.utf8ByteSize drafts d.parent p ∧ Before d.parent i := by
  have hd := h.ranges d (List.mem_of_getElem? hi)
  cases hparent : d.parent with
  | none =>
    have := hd.2.2.le_utf8ByteSize
    exact ⟨⟨_, rfl, Nat.zero_le _, Nat.lt_of_lt_of_le hp.2 this⟩, by simp [Before]⟩
  | some j =>
    obtain ⟨hji, e, he, hstart, hstop⟩ := h.nested i d j hi hparent
    refine ⟨covers_some_iff.mpr ⟨e, he, ?_, ?_⟩, fun k hk => Option.some.inj hk ▸ hji⟩
    · exact Nat.le_trans hstart hp.1
    · exact Nat.lt_of_lt_of_le hp.2 hstop

/-- When an earlier and a later definition cover a position, so does a definition directly inside
of the earlier one, which is the later one or comes before it. -/
theorem Laid.exists_child (h : Laid source drafts) {i : Nat} {d : Draft}
    (hi : drafts[i]? = some d) (hp : d.range.Contains p) {owner : Option Nat}
    (hbefore : Before owner i) (hcovers : Covers source.utf8ByteSize drafts owner p) :
    ∃ k e, k ≤ i ∧ drafts[k]? = some e ∧ e.parent = owner ∧ e.range.Contains p := by
  induction i using Nat.strongRecOn generalizing d owner with
  | ind i ih =>
    obtain ⟨hparent, hparent_before⟩ := h.covers_parent hi hp
    by_cases heq : d.parent = owner
    · exact ⟨i, d, Nat.le_refl _, hi, heq, hp⟩
    by_cases hlater : ∃ q, d.parent = some q ∧ Before owner q
    · -- The definition around the later one is itself later than the owner.
      obtain ⟨q, hq, hbefore'⟩ := hlater
      rw [hq] at hparent
      obtain ⟨e, he, hep⟩ := covers_some_iff.mp hparent
      obtain ⟨k, f, hk, hrest⟩ := ih q (hparent_before q hq) he hep hbefore' hcovers
      exact ⟨k, f, Nat.le_trans hk (Nat.le_of_lt (hparent_before q hq)), hrest⟩
    · -- Otherwise the owner lies beside the later one, and both would cover the position.
      obtain ⟨j, hj⟩ : ∃ j, owner = some j := by
        cases owner with
        | some j => exact ⟨j, rfl⟩
        | none =>
          refine absurd ?_ hlater
          cases hq : d.parent with
          | none => exact absurd hq heq
          | some q => exact ⟨q, rfl, by simp [Before]⟩
      have hparent_before_owner : Before d.parent j := by
        intro q hq
        by_contra hge
        refine hlater ⟨q, hq, fun j' hj' => ?_⟩
        have hne : q ≠ j := fun hqj => heq (by rw [hq, hj, hqj])
        obtain rfl := Option.some.inj (hj.symm.trans hj')
        omega
      subst hj
      obtain ⟨o, ho, hop⟩ := covers_some_iff.mp hcovers
      have hji := hbefore j rfl
      obtain ⟨k, e, hk, he, hep, hecontains⟩ := ih j hji ho hop hparent_before_owner hparent
      have hki : k < i := by omega
      obtain ⟨hklen, rfl⟩ := List.getElem?_eq_some_iff.mp he
      obtain ⟨hilen, rfl⟩ := List.getElem?_eq_some_iff.mp hi
      have hapart := List.pairwise_iff_getElem.mp h.siblings k i hklen hilen hki hep
      have := hecontains.2
      have := hp.1
      omega

/-- No position has two owners. -/
theorem Laid.owns_unique (h : Laid source drafts) {owner owner' : Option Nat}
    (ho : Owns source.utf8ByteSize drafts owner p)
    (ho' : Owns source.utf8ByteSize drafts owner' p) : owner = owner' := by
  -- Whichever comes first would have a definition directly inside that covers the position.
  have hlast {first : Option Nat} {i : Nat} (hfirst : Owns source.utf8ByteSize drafts first p)
      (hi : Owns source.utf8ByteSize drafts (some i) p) : ¬ Before first i := by
    intro hbefore
    obtain ⟨d, hd, hp⟩ := covers_some_iff.mp hi.1
    obtain ⟨k, e, _, he, hparent, hcontains⟩ := h.exists_child hd hp hbefore hfirst.1
    exact hfirst.2 e (List.mem_of_getElem? he) hparent hcontains
  cases owner with
  | none =>
    cases owner' with
    | none => rfl
    | some j => exact absurd (by simp [Before]) (hlast ho ho')
  | some i =>
    cases owner' with
    | none => exact absurd (by simp [Before]) (hlast ho' ho)
    | some j =>
      have hij : ¬ i < j := fun hlt => hlast ho ho' fun k hk => Option.some.inj hk ▸ hlt
      have hji : ¬ j < i := fun hlt => hlast ho' ho fun k hk => Option.some.inj hk ▸ hlt
      exact congrArg some (Nat.le_antisymm (by omega) (by omega))

/-- A covered position is owned by what covers it or by a definition inside of that. -/
theorem Laid.exists_owns_of_covers (h : Laid source drafts) {owner : Option Nat}
    (hcovers : Covers source.utf8ByteSize drafts owner p) :
    ∃ owner, Owns source.utf8ByteSize drafts owner p := by
  -- Going inward uses up the definitions after the owner.
  generalize hn : drafts.length - (owner.map (· + 1)).getD 0 = n
  induction n using Nat.strongRecOn generalizing owner with
  | ind n ih =>
    by_cases hchild : ∃ d ∈ drafts, d.parent = owner ∧ d.range.Contains p
    · obtain ⟨d, hd, hparent, hp⟩ := hchild
      obtain ⟨i, hi⟩ := List.mem_iff_getElem?.mp hd
      have hlen := (List.getElem?_eq_some_iff.mp hi).1
      have hbefore := (h.covers_parent hi hp).2
      have hcovers' : Covers source.utf8ByteSize drafts (some i) p :=
        covers_some_iff.mpr ⟨d, hi, hp⟩
      refine ih _ ?_ hcovers' rfl
      subst hn hparent
      cases hparent : d.parent with
      | none => simp; omega
      | some j =>
        have := hbefore j hparent
        simp; omega
    · exact ⟨owner, hcovers, fun d hd hparent hp => hchild ⟨d, hd, hparent, hp⟩⟩

/-- Every position of the text has an owner. -/
theorem Laid.exists_owns (h : Laid source drafts) (hp : p < source.utf8ByteSize) :
    ∃ owner, Owns source.utf8ByteSize drafts owner p := by
  have hcovers : Covers source.utf8ByteSize drafts none p := ⟨_, rfl, Nat.zero_le _, hp⟩
  exact h.exists_owns_of_covers hcovers

end CodeAtlas.Extraction
