import CodeAtlas.Proofs.Json.Tokens

/-!
# JSON texts are read as what they spell

A relation between values and texts says which texts spell a value: tokens as they are written, with
any blanks between them. Both layouts spell the value they are made from, and a reader with enough
fuel reads the value that a text spells. So a value is read back from either layout.

## Main definitions

* `Spells`: the text spells the value.
* `Writable`: the value can be written, all its numbers being natural and all its strings texts.

## Main results

* `parse?_of_spells`: a text is read as the value it spells.
* `parse?_compact`, `parse?_pretty`: both layouts are read as the value they are made from.
-/

namespace CodeAtlas.Json

mutual

/-- The text spells the value, from its first to its last character. -/
inductive Spells : Json → List Char → Prop
  | null : Spells .null "null".toList
  | yes : Spells (.bool true) "true".toList
  | no : Spells (.bool false) "false".toList
  | number (n : Nat) : Spells (.nat n) (toString n).toList
  | string (s : String) : Spells (.string s) (quote s).toList
  | noItems : Spells (.array []) ['[', ']']
  | items {items : List Json} {cs : List Char} :
      SpellsItems items cs → Spells (.array items) ('[' :: cs)
  | noMembers : Spells (.object []) ['\x7b', '\x7d']
  | members {members : List (String × Json)} {cs : List Char} :
      SpellsMembers members cs → Spells (.object members) ('\x7b' :: cs)

/-- The text spells the items of an array and ends with its closing bracket. -/
inductive SpellsItems : List Json → List Char → Prop
  | last {value : Json} {pre cs post : List Char} : Blank pre → Spells value cs → Blank post →
      SpellsItems [value] (pre ++ (cs ++ (post ++ [']'])))
  | more {value : Json} {rest : List Json} {pre cs tail : List Char} :
      Blank pre → Spells value cs → SpellsItems rest tail →
      SpellsItems (value :: rest) (pre ++ (cs ++ ',' :: tail))

/-- The text spells the members of an object and ends with its closing brace. -/
inductive SpellsMembers : List (String × Json) → List Char → Prop
  | last {name : String} {value : Json} {pre gap cs post : List Char} :
      Blank pre → Blank gap → Spells value cs → Blank post →
      SpellsMembers [(name, value)]
        (pre ++ ((quote name).toList ++ ':' :: (gap ++ (cs ++ (post ++ ['\x7d'])))))
  | more {name : String} {value : Json} {rest : List (String × Json)}
      {pre gap cs tail : List Char} :
      Blank pre → Blank gap → Spells value cs → SpellsMembers rest tail →
      SpellsMembers ((name, value) :: rest)
        (pre ++ ((quote name).toList ++ ':' :: (gap ++ (cs ++ ',' :: tail))))

end

/-! ### Reading -/

/-- A digit is neither a blank nor an opening character of another value. -/
private theorem first_toString (n : Nat) :
    ∃ c cs, (toString n).toList = c :: cs ∧ c.isDigit = true := by
  have hlist : (toString n).toList = Nat.toDigits 10 n := Nat.toList_repr
  obtain ⟨c, cs, hcs⟩ := List.exists_cons_of_ne_nil (Nat.toDigits_ne_nil (n := n) (b := 10))
  have hmem : c ∈ Nat.toDigits 10 n := by rw [hcs]; exact List.mem_cons_self
  exact ⟨c, cs, hlist.trans hcs, Nat.isDigit_of_mem_toDigits (by omega) (by omega) hmem⟩

/-- The spelling of a value starts neither with a blank nor with a closing bracket. -/
private theorem Spells.exists_first {value : Json} {cs : List Char} (h : Spells value cs) :
    ∃ c tail, cs = c :: tail ∧ isSpace c = false ∧ c ≠ ']' := by
  cases h with
  | null => exact ⟨'n', _, rfl, by decide, by decide⟩
  | yes => exact ⟨'t', _, rfl, by decide, by decide⟩
  | no => exact ⟨'f', _, rfl, by decide, by decide⟩
  | number n =>
    obtain ⟨c, tail, htail, hdigit⟩ := first_toString n
    refine ⟨c, tail, htail, ?_, ?_⟩
    · rw [Bool.eq_false_iff]
      intro hspace
      simp only [isSpace, Bool.or_eq_true, beq_iff_eq] at hspace
      rcases hspace with ((rfl | rfl) | rfl) | rfl <;> exact absurd hdigit (by decide)
    · rintro rfl
      exact absurd hdigit (by decide)
  | string s => exact ⟨'"', _, toList_quote s, by decide, by decide⟩
  | noItems => exact ⟨'[', _, rfl, by decide, by decide⟩
  | items _ => exact ⟨'[', _, rfl, by decide, by decide⟩
  | noMembers => exact ⟨'\x7b', _, rfl, by decide, by decide⟩
  | members _ => exact ⟨'\x7b', _, rfl, by decide, by decide⟩

private theorem Spells.skipSpace {value : Json} {cs : List Char} (h : Spells value cs)
    (rest : List Char) : skipSpace (cs ++ rest) = cs ++ rest := by
  obtain ⟨c, tail, rfl, hspace, -⟩ := h.exists_first
  exact skipSpace_cons hspace _

private theorem readValue_congr {cs cs' : List Char} (h : skipSpace cs = skipSpace cs')
    (fuel : Nat) : readValue fuel cs = readValue fuel cs' := by
  cases fuel with
  | zero => rw [readValue, readValue]
  | succ fuel => rw [readValue, readValue, h]

private theorem readValue_blank {pre : List Char} (h : Blank pre) (fuel : Nat) (cs : List Char) :
    readValue fuel (pre ++ cs) = readValue fuel cs :=
  readValue_congr (skipSpace_append h) fuel

private theorem readItems_skipSpace (fuel : Nat) (cs : List Char) :
    readItems fuel (skipSpace cs) = readItems fuel cs := by
  cases fuel with
  | zero => rw [readItems, readItems]
  | succ fuel => rw [readItems, readItems, readValue_congr (skipSpace_skipSpace cs)]

private theorem readMembers_skipSpace (fuel : Nat) (cs : List Char) :
    readMembers fuel (skipSpace cs) = readMembers fuel cs := by
  cases fuel with
  | zero => rw [readMembers, readMembers]
  | succ fuel => rw [readMembers, readMembers, skipSpace_skipSpace]

private theorem skipSpace_comma (tail : List Char) : skipSpace (',' :: tail) = ',' :: tail :=
  skipSpace_cons (by decide) tail

private theorem readValue_string (fuel : Nat) (s : String) (rest : List Char) :
    readValue (fuel + 1) ((quote s).toList ++ rest) = some (.string s, rest) := by
  rw [toList_quote, List.append_assoc, List.cons_append, readValue, skipSpace_cons (by decide)]
  simp only [List.singleton_append, readUnits_quote, Option.map_some, ofUnits_map_char]

private theorem readValue_number (fuel n : Nat) {rest : List Char} (hrest : Ends rest) :
    readValue (fuel + 1) ((toString n).toList ++ rest) = some (.nat n, rest) := by
  have hskip := (Spells.number n).skipSpace rest
  have hread := readNumber_toString n hrest
  obtain ⟨c, tail, htail, hdigit⟩ := first_toString n
  rw [readValue, hskip]
  rw [htail, List.cons_append] at hread ⊢
  split
  case h_8 => exact hread
  all_goals
    rename_i heq
    first
      | rw [(List.cons.inj heq).1] at hdigit
        exact absurd hdigit (by decide)
      | exact absurd heq (by simp)

private theorem SpellsItems.not_closed {items : List Json} {cs : List Char}
    (h : SpellsItems items cs) (rest tail : List Char) : skipSpace (cs ++ rest) ≠ ']' :: tail := by
  have hvalue : ∀ {value : Json} {pre cs : List Char} (after : List Char), Blank pre →
      Spells value cs → Json.skipSpace (pre ++ (cs ++ after)) ≠ ']' :: tail := by
    intro value pre cs after hpre hvalue heq
    obtain ⟨c, cs, rfl, hspace, hne⟩ := hvalue.exists_first
    rw [skipSpace_append hpre, List.cons_append, skipSpace_cons hspace] at heq
    exact hne (List.cons.inj heq).1
  cases h with
  | last hpre hspells _ =>
    rw [List.append_assoc, List.append_assoc]
    exact hvalue _ hpre hspells
  | more hpre hspells _ =>
    rw [List.append_assoc, List.append_assoc]
    exact hvalue _ hpre hspells

private theorem SpellsMembers.not_closed {members : List (String × Json)} {cs : List Char}
    (h : SpellsMembers members cs) (rest tail : List Char) :
    skipSpace (cs ++ rest) ≠ '\x7d' :: tail := by
  have hname : ∀ {pre : List Char} (name : String) (after : List Char), Blank pre →
      Json.skipSpace (pre ++ ((quote name).toList ++ after)) ≠ '\x7d' :: tail := by
    intro pre name after hpre heq
    rw [skipSpace_append hpre, toList_quote, List.append_assoc, List.cons_append,
      skipSpace_cons (by decide)] at heq
    exact absurd (List.cons.inj heq).1 (by decide)
  cases h with
  | last hpre _ _ _ =>
    rw [List.append_assoc, List.append_assoc]
    exact hname _ _ hpre
  | more hpre _ _ _ =>
    rw [List.append_assoc, List.append_assoc]
    exact hname _ _ hpre

private theorem readValue_array (fuel : Nat) {cs : List Char}
    (h : ∀ tail, skipSpace cs ≠ ']' :: tail) :
    readValue (fuel + 1) ('[' :: cs) =
      (readItems fuel cs).map fun (items, rest) => (.array items, rest) := by
  rw [readValue, skipSpace_cons (by decide), ← readItems_skipSpace fuel cs]
  simp only

private theorem readValue_object (fuel : Nat) {cs : List Char}
    (h : ∀ tail, skipSpace cs ≠ '\x7d' :: tail) :
    readValue (fuel + 1) ('\x7b' :: cs) =
      (readMembers fuel cs).map fun (members, rest) => (.object members, rest) := by
  rw [readValue, skipSpace_cons (by decide), ← readMembers_skipSpace fuel cs]
  simp only

/-- What is read after the name of a member and its colon. -/
private def readNamed (fuel : Nat) (name : String) (cs : List Char) :
    Option (List (String × Json) × List Char) :=
  match readValue fuel cs with
  | none => none
  | some (value, rest) =>
    match skipSpace rest with
    | ',' :: rest =>
      (readMembers fuel rest).map fun (members, rest) => ((name, value) :: members, rest)
    | '\x7d' :: rest => some ([(name, value)], rest)
    | _ => none

private theorem readMembers_name (fuel : Nat) {pre : List Char} (hpre : Blank pre) (name : String)
    (cs : List Char) :
    readMembers (fuel + 1) (pre ++ ((quote name).toList ++ ':' :: cs)) =
      readNamed fuel name cs := by
  rw [readMembers, skipSpace_append hpre, toList_quote, List.append_assoc, List.cons_append,
    skipSpace_cons (by decide)]
  simp only [List.singleton_append, readUnits_quote, textOfUnits_map_char,
    skipSpace_cons (c := ':') (by decide), String.ofList_toList]
  rfl

/-- Readers with more fuel than characters read what is spelled. -/
private theorem read_of_spells (fuel : Nat) :
    (∀ {value : Json} {cs rest : List Char}, Spells value cs → cs.length < fuel → Ends rest →
      readValue fuel (cs ++ rest) = some (value, rest)) ∧
    (∀ {items : List Json} {cs rest : List Char}, SpellsItems items cs → cs.length < fuel →
      readItems fuel (cs ++ rest) = some (items, rest)) ∧
    (∀ {members : List (String × Json)} {cs rest : List Char}, SpellsMembers members cs →
      cs.length < fuel → readMembers fuel (cs ++ rest) = some (members, rest)) := by
  induction fuel with
  | zero => exact ⟨fun _ h => absurd h (by omega), fun _ h => absurd h (by omega),
      fun _ h => absurd h (by omega)⟩
  | succ fuel ih =>
    obtain ⟨ihValue, ihItems, ihMembers⟩ := ih
    refine ⟨?value, ?items, ?members⟩
    case value =>
      intro value cs rest hspells hlength hrest
      cases hspells with
      | null => rw [readValue]; rfl
      | yes => rw [readValue]; rfl
      | no => rw [readValue]; rfl
      | number n => exact readValue_number fuel n hrest
      | string s => exact readValue_string fuel s rest
      | noItems => rw [readValue]; rfl
      | noMembers => rw [readValue]; rfl
      | @items items cs hitems =>
        have hread : readItems fuel (cs ++ rest) = some (items, rest) :=
          ihItems hitems (by simpa using hlength)
        rw [List.cons_append, readValue_array fuel (hitems.not_closed rest), hread]
        rfl
      | @members members cs hmembers =>
        have hread : readMembers fuel (cs ++ rest) = some (members, rest) :=
          ihMembers hmembers (by simpa using hlength)
        rw [List.cons_append, readValue_object fuel (hmembers.not_closed rest), hread]
        rfl
    case items =>
      intro items cs rest hspells hlength
      cases hspells with
      | @last value pre cs post hpre hvalue hpost =>
        simp only [List.append_assoc, List.singleton_append, List.length_append,
          List.length_singleton] at hlength ⊢
        rw [readItems, readValue_blank hpre, ihValue hvalue (by omega)
          (ends_append hpost (ends_cons (by decide) _))]
        simp [skipSpace_append hpost, skipSpace_cons (c := ']') (by decide)]
      | @more value others pre cs tail hpre hvalue htail =>
        simp only [List.append_assoc, List.cons_append, List.length_append,
          List.length_cons] at hlength ⊢
        rw [readItems, readValue_blank hpre, ihValue hvalue (by omega) (ends_cons (by decide) _)]
        simp [skipSpace_comma, ihItems htail (by omega)]
    case members =>
      intro members cs rest hspells hlength
      cases hspells with
      | @last name value pre gap cs post hpre hgap hvalue hpost =>
        simp only [List.append_assoc, List.cons_append, List.length_append,
          List.length_cons] at hlength ⊢
        rw [readMembers_name fuel hpre, readNamed, readValue_blank hgap, ihValue hvalue (by omega)
          (ends_append hpost (ends_cons (by decide) _))]
        simp [skipSpace_append hpost, skipSpace_cons (c := '\x7d') (by decide)]
      | @more name value others pre gap cs tail hpre hgap hvalue htail =>
        simp only [List.append_assoc, List.cons_append, List.length_append,
          List.length_cons] at hlength ⊢
        rw [readMembers_name fuel hpre, readNamed, readValue_blank hgap, ihValue hvalue (by omega)
          (ends_cons (by decide) _)]
        simp [skipSpace_comma, ihMembers htail (by omega)]

/-- A text between blanks is read as the value it spells. -/
theorem parse?_of_spells {value : Json} {cs post : List Char} (h : Spells value cs)
    (hpost : Blank post) : parse? (String.ofList (cs ++ post)) = some value := by
  have hread : readValue ((String.ofList (cs ++ post)).length + 1) (cs ++ post) =
      some (value, post) := by
    refine (read_of_spells _).1 h ?_ ?_
    · rw [String.length_ofList, List.length_append]
      omega
    · rw [← List.append_nil post]
      exact ends_append hpost ends_nil
  have hblank : skipSpace post = [] := by
    rw [← List.append_nil post, skipSpace_append hpost]
    rfl
  rw [parse?, String.toList_ofList, hread]
  simp [hblank]

/-! ### Writing -/

mutual

/-- The value can be written so that it is read back: its numbers are natural, its strings are
texts. -/
def Writable : Json → Prop
  | .null | .bool _ | .string _ => True
  | .number literal => ∃ n : Nat, literal = toString n
  | .unpairedString => False
  | .array items => WritableItems items
  | .object members => WritableMembers members

/-- All items can be written. -/
def WritableItems : List Json → Prop
  | [] => True
  | item :: rest => Writable item ∧ WritableItems rest

/-- The values of all members can be written. -/
def WritableMembers : List (String × Json) → Prop
  | [] => True
  | (_, value) :: rest => Writable value ∧ WritableMembers rest

end

theorem writableItems_iff {items : List Json} :
    WritableItems items ↔ ∀ item ∈ items, Writable item := by
  induction items with
  | nil => simp [WritableItems]
  | cons item rest ih => simp [WritableItems, ih]

theorem writableMembers_iff {members : List (String × Json)} :
    WritableMembers members ↔ ∀ entry ∈ members, Writable entry.2 := by
  induction members with
  | nil => simp [WritableMembers]
  | cons entry rest ih =>
    obtain ⟨name, value⟩ := entry
    simp [WritableMembers, ih]

/-- Lines that spell items, joined by commas. -/
private theorem spellsItems_join {indent : String} (hindent : Blank indent.toList)
    {post : List Char} (hpost : Blank post) {items : List Json} {lines : List String}
    (h : List.Forall₂ (fun item line => Spells item line.toList) items lines) (hne : items ≠ []) :
    SpellsItems items
      ((Text.join "," (lines.map (indent ++ ·))).toList ++ (post ++ [']'])) := by
  induction h with
  | nil => exact absurd rfl hne
  | @cons item line items lines hfirst hrest ih =>
    cases hrest with
    | nil =>
      have hlast := SpellsItems.last hindent hfirst hpost
      simpa [Text.join] using hlast
    | @cons item' line' items' lines' hfirst' hrest' =>
      have hmore := SpellsItems.more hindent hfirst (ih (by simp))
      simpa [Text.join, String.intercalate_cons_cons] using hmore

/-- A line that spells a member: the quoted name, a colon, and the value after blanks. -/
private def SpellsMember (entry : String × Json) (line : String) : Prop :=
  ∃ gap cs, Blank gap ∧ Spells entry.2 cs ∧
    line.toList = (quote entry.1).toList ++ ':' :: (gap ++ cs)

/-- Lines that spell members, joined by commas. -/
private theorem spellsMembers_join {indent : String} (hindent : Blank indent.toList)
    {post : List Char} (hpost : Blank post) {members : List (String × Json)} {lines : List String}
    (h : List.Forall₂ SpellsMember members lines) (hne : members ≠ []) :
    SpellsMembers members
      ((Text.join "," (lines.map (indent ++ ·))).toList ++ (post ++ ['\x7d'])) := by
  induction h with
  | nil => exact absurd rfl hne
  | @cons entry line members lines hfirst hrest ih =>
    obtain ⟨name, value⟩ := entry
    obtain ⟨gap, cs, hgap, hvalue, hline⟩ := hfirst
    cases hrest with
    | nil =>
      have hlast : SpellsMembers [(name, value)] _ := .last hindent hgap hvalue hpost
      simpa [Text.join, hline] using hlast
    | @cons entry' line' members' lines' hfirst' hrest' =>
      have hmore : SpellsMembers ((name, value) :: _) _ :=
        .more hindent hgap hvalue (ih (by simp))
      simpa [Text.join, String.intercalate_cons_cons, hline] using hmore

/-- Spelled items between brackets, on one line or one to a line. -/
private theorem spells_array (indent post : String) (hindent : Blank indent.toList)
    (hpost : Blank post.toList) {items : List Json} {lines : List String}
    (h : List.Forall₂ (fun item line => Spells item line.toList) items lines) (hne : items ≠ []) :
    Spells (.array items)
      ("[" ++ Text.join "," (lines.map (indent ++ ·)) ++ post ++ "]").toList := by
  simpa using Spells.items (spellsItems_join hindent hpost h hne)

private theorem spells_object (indent post : String) (hindent : Blank indent.toList)
    (hpost : Blank post.toList) {members : List (String × Json)} {lines : List String}
    (h : List.Forall₂ SpellsMember members lines) (hne : members ≠ []) :
    Spells (.object members)
      ("\x7b" ++ Text.join "," (lines.map (indent ++ ·)) ++ post ++ "\x7d").toList := by
  simpa using Spells.members (spellsMembers_join hindent hpost h hne)

mutual

private theorem spells_compact : ∀ value : Json, Writable value → Spells value (compact value).toList
  | .null, _ => .null
  | .bool true, _ => .yes
  | .bool false, _ => .no
  | .number _, h => by
    obtain ⟨n, rfl⟩ := h
    exact .number n
  | .string s, _ => .string s
  | .unpairedString, h => h.elim
  | .array [], _ => .noItems
  | .array (item :: rest), h => by
    have hlines := spells_compactItems (item :: rest) h
    have harray := spells_array "" "" blank_nil blank_nil hlines (by simp)
    simpa [compact] using harray
  | .object [], _ => .noMembers
  | .object (entry :: rest), h => by
    have hlines := spells_compactMembers (entry :: rest) h
    have hobject := spells_object "" "" blank_nil blank_nil hlines (by simp)
    simpa [compact] using hobject

private theorem spells_compactItems : ∀ items : List Json, WritableItems items →
    List.Forall₂ (fun item line => Spells item line.toList) items (compactItems items)
  | [], _ => .nil
  | item :: rest, h => .cons (spells_compact item h.1) (spells_compactItems rest h.2)

private theorem spells_compactMembers : ∀ members : List (String × Json),
    WritableMembers members → List.Forall₂ SpellsMember members (compactMembers members)
  | [], _ => .nil
  | (name, value) :: rest, h => by
    refine .cons ⟨[], _, blank_nil, spells_compact value h.1, ?_⟩ (spells_compactMembers rest h.2)
    simp

end

/-- A line break and spaces. -/
private def indentation (depth : Nat) : String :=
  "\n" ++ String.ofList (List.replicate (2 * depth) ' ')

private theorem blank_indentation (depth : Nat) : Blank (indentation depth).toList := by
  intro c hc
  simp only [indentation, String.toList_append, String.toList_ofList, List.mem_append,
    List.mem_replicate] at hc
  rcases hc with hc | ⟨-, rfl⟩
  · rw [List.mem_singleton.mp hc]
    decide
  · decide

private theorem bracketed_of_ne_nil (opening closing : String) (depth : Nat) {lines : List String}
    (h : lines ≠ []) :
    bracketed opening closing depth lines =
      opening ++ Text.join "," (lines.map (indentation (depth + 1) ++ ·)) ++ indentation depth
        ++ closing := by
  have hne : lines.isEmpty = false := by simpa using h
  simp only [bracketed, hne, Bool.false_eq_true, ↓reduceIte]
  rfl

mutual

private theorem spells_prettyAt : ∀ (depth : Nat) (value : Json), Writable value →
    Spells value (prettyAt depth value).toList
  | _, .null, _ => .null
  | _, .bool true, _ => .yes
  | _, .bool false, _ => .no
  | _, .number _, h => by
    obtain ⟨n, rfl⟩ := h
    exact .number n
  | _, .string s, _ => .string s
  | _, .unpairedString, h => h.elim
  | _, .array [], _ => by
    simpa [prettyAt, prettyItems, bracketed] using Spells.noItems
  | depth, .array (item :: rest), h => by
    have hlines := spells_prettyItems (depth + 1) (item :: rest) h
    rw [prettyAt, bracketed_of_ne_nil _ _ _ (by simp [prettyItems])]
    exact spells_array _ _ (blank_indentation _) (blank_indentation _) hlines (by simp)
  | _, .object [], _ => by
    simpa [prettyAt, prettyMembers, bracketed] using Spells.noMembers
  | depth, .object (entry :: rest), h => by
    have hlines := spells_prettyMembers (depth + 1) (entry :: rest) h
    rw [prettyAt, bracketed_of_ne_nil _ _ _ (by simp [prettyMembers])]
    exact spells_object _ _ (blank_indentation _) (blank_indentation _) hlines (by simp)

private theorem spells_prettyItems : ∀ (depth : Nat) (items : List Json), WritableItems items →
    List.Forall₂ (fun item line => Spells item line.toList) items (prettyItems depth items)
  | _, [], _ => .nil
  | depth, item :: rest, h =>
    .cons (spells_prettyAt depth item h.1) (spells_prettyItems depth rest h.2)

private theorem spells_prettyMembers : ∀ (depth : Nat) (members : List (String × Json)),
    WritableMembers members → List.Forall₂ SpellsMember members (prettyMembers depth members)
  | _, [], _ => .nil
  | depth, (name, value) :: rest, h => by
    refine .cons ⟨[' '], _, ?_, spells_prettyAt depth value h.1, ?_⟩
      (spells_prettyMembers depth rest h.2)
    · simp [Blank, isSpace]
    · simp

end

/-- A value is read back from one line. -/
theorem parse?_compact {value : Json} (h : Writable value) : parse? value.compact = some value := by
  simpa using parse?_of_spells (spells_compact value h) blank_nil

/-- A value is read back from lines that end with a line break. -/
theorem parse?_pretty {value : Json} (h : Writable value) :
    parse? (value.pretty ++ "\n") = some value := by
  have hbreak : Blank ['\n'] := by simp [Blank, isSpace]
  have hparse := parse?_of_spells (spells_prettyAt 0 value h) hbreak
  have htext : String.ofList ((prettyAt 0 value).toList ++ ['\n']) = value.pretty ++ "\n" := by
    rw [String.ofList_append, String.ofList_toList]
    rfl
  rwa [htext] at hparse

end CodeAtlas.Json
