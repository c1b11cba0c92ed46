import CodeAtlas.Json.Parser
import CodeAtlas.Json.Printer
import Mathlib.Data.List.Basic

/-!
# Reading back the tokens of JSON

Strings and natural numbers as they are written are read as what they were, and what comes after
them is left over. A string ends at its closing quote. A number ends where no character follows that
could continue it.

## Main results

* `readUnits_quote`: reading a text in quotes.
* `readNumber_toString`, `asNat?_nat`: reading a natural number, and its value.
-/

namespace CodeAtlas.Json

/-! ### Blanks -/

/-- Nothing but blanks. -/
def Blank (cs : List Char) : Prop :=
  ∀ c ∈ cs, isSpace c = true

theorem blank_nil : Blank [] := by
  simp [Blank]

theorem skipSpace_append {pre cs : List Char} (h : Blank pre) :
    skipSpace (pre ++ cs) = skipSpace cs := by
  induction pre with
  | nil => rfl
  | cons c pre ih =>
    have hc : isSpace c = true := h c (by simp)
    rw [List.cons_append, skipSpace, List.dropWhile_cons, if_pos hc]
    exact ih fun d hd => h d (by simp [hd])

theorem skipSpace_cons {c : Char} (h : isSpace c = false) (cs : List Char) :
    skipSpace (c :: cs) = c :: cs := by
  rw [skipSpace, List.dropWhile_cons, h, if_neg Bool.false_ne_true]

theorem skipSpace_skipSpace (cs : List Char) : skipSpace (skipSpace cs) = skipSpace cs := by
  induction cs with
  | nil => rfl
  | cons c cs ih =>
    by_cases hc : isSpace c = true
    · have hskip : skipSpace (c :: cs) = skipSpace cs := by
        rw [skipSpace, List.dropWhile_cons, if_pos hc, skipSpace]
      rw [hskip, ih]
    · rw [skipSpace_cons (by simpa using hc), skipSpace_cons (by simpa using hc)]

/-! ### Strings -/

private theorem hexValue?_hexDigit : ∀ n < 16, hexValue? (Digest.Sha256.hexDigit n) = some n := by
  decide

/-- The characters written for one character of a text. -/
private def spelled (c : Char) : List Char :=
  (escape? c).getD [c]

private theorem readUnits_plain {c : Char} (hquote : c ≠ '"') (hslash : c ≠ '\\')
    (hcontrol : ¬ c.toNat < 0x20) (units : List StringUnit) (rest : List Char) :
    readUnits units (c :: rest) = readUnits (.char c :: units) rest := by
  rw [readUnits.eq_def]
  split
  · contradiction
  · simp_all
  · simp_all
  · simp_all
  · rename_i heq
    obtain ⟨rfl, rfl⟩ := List.cons.inj heq
    rw [if_neg (not_or.mpr ⟨hcontrol, hslash⟩)]

private theorem readUnits_control {c : Char} (hcontrol : c.toNat < 0x20) (units : List StringUnit)
    (rest : List Char) :
    readUnits units (['\\', 'u', '0', '0', Digest.Sha256.hexDigit (c.toNat / 16),
      Digest.Sha256.hexDigit (c.toNat % 16)] ++ rest) = readUnits (.char c :: units) rest := by
  have hzero : hexValue? '0' = some 0 := by decide
  have hhigh := hexValue?_hexDigit (c.toNat / 16) (by omega)
  have hlow := hexValue?_hexDigit (c.toNat % 16) (by omega)
  have hcode : ((0 * 16 + 0) * 16 + c.toNat / 16) * 16 + c.toNat % 16 = c.toNat := by omega
  have hunit : unitOfCode c.toNat = .char c := by
    rw [unitOfCode, if_neg (by omega), Char.ofNat_toNat]
  simp only [List.cons_append, List.nil_append, readUnits, hzero, hhigh, hlow]
  rw [hcode, hunit]

private theorem readUnits_spelled (c : Char) (units : List StringUnit) (rest : List Char) :
    readUnits units (spelled c ++ rest) = readUnits (.char c :: units) rest := by
  by_cases hshort : c = '"' ∨ c = '\\' ∨ c = '\n' ∨ c = '\r' ∨ c = '\t' ∨ c = '\x08' ∨ c = '\x0c'
  · rcases hshort with rfl | rfl | rfl | rfl | rfl | rfl | rfl <;> rfl
  · simp only [not_or] at hshort
    obtain ⟨hquote, hslash, hn, hr, ht, hb, hf⟩ := hshort
    by_cases hcontrol : c.toNat < 0x20
    · have hspelled : spelled c = ['\\', 'u', '0', '0', Digest.Sha256.hexDigit (c.toNat / 16),
          Digest.Sha256.hexDigit (c.toNat % 16)] := by
        simp [spelled, escape?, hquote, hslash, hn, hr, ht, hb, hf, hcontrol]
      rw [hspelled, readUnits_control hcontrol]
    · have hspelled : spelled c = [c] := by
        simp [spelled, escape?, hquote, hslash, hn, hr, ht, hb, hf, hcontrol]
      rw [hspelled, List.singleton_append, readUnits_plain hquote hslash hcontrol]

private theorem readUnits_flatMap_spelled (cs : List Char) (units : List StringUnit)
    (rest : List Char) :
    readUnits units (cs.flatMap spelled ++ '"' :: rest) =
      some (units.reverse ++ cs.map .char, rest) := by
  induction cs generalizing units with
  | nil => simp [readUnits]
  | cons c cs ih =>
    rw [List.flatMap_cons, List.append_assoc, readUnits_spelled, ih]
    simp

theorem toList_quote (s : String) :
    (quote s).toList = '"' :: (s.toList.flatMap fun c => (escape? c).getD [c]) ++ ['"'] := by
  simp [quote]

/-- After the opening quote, the units of a quoted text are its characters. -/
theorem readUnits_quote (s : String) (rest : List Char) :
    readUnits [] ((s.toList.flatMap fun c => (escape? c).getD [c]) ++ '"' :: rest) =
      some (s.toList.map .char, rest) :=
  readUnits_flatMap_spelled s.toList [] rest

theorem textOfUnits_map_char (cs : List Char) : textOfUnits (cs.map .char) = some cs := by
  induction cs with
  | nil => rfl
  | cons c cs ih => rw [List.map_cons, textOfUnits, ih, Option.map_some]

theorem ofUnits_map_char (s : String) : ofUnits (s.toList.map .char) = .string s := by
  simp only [ofUnits, textOfUnits_map_char, String.ofList_toList]

/-! ### Numbers -/

/-- No character follows that could belong to a number. -/
def Ends (rest : List Char) : Prop :=
  ∀ c ∈ rest.head?, c.isDigit = false ∧ c ≠ '.' ∧ c ≠ 'e' ∧ c ≠ 'E'

theorem ends_nil : Ends [] := by
  simp [Ends]

theorem ends_cons {c : Char}
    (h : c.isDigit = false ∧ c ≠ '.' ∧ c ≠ 'e' ∧ c ≠ 'E') (cs : List Char) : Ends (c :: cs) := by
  simpa [Ends] using h

theorem ends_append {pre rest : List Char} (hpre : Blank pre) (hrest : Ends rest) :
    Ends (pre ++ rest) := by
  cases pre with
  | nil => exact hrest
  | cons c pre =>
    have hc : isSpace c = true := hpre c (by simp)
    simp only [isSpace, Bool.or_eq_true, beq_iff_eq] at hc
    rcases hc with ((rfl | rfl) | rfl) | rfl <;> exact ends_cons (by decide) _

private theorem takeWhile_isDigit {digits rest : List Char} (hdigits : ∀ c ∈ digits, c.isDigit)
    (hrest : Ends rest) :
    (digits ++ rest).takeWhile Char.isDigit = digits ∧
      (digits ++ rest).dropWhile Char.isDigit = rest := by
  rw [List.takeWhile_append_of_pos hdigits, List.dropWhile_append_of_pos hdigits]
  cases rest with
  | nil => simp
  | cons c rest =>
    have hc := (hrest c (by simp)).1
    simp [hc]

private theorem readFraction_ends {rest : List Char} (h : Ends rest) :
    readFraction rest = some ([], rest) := by
  unfold readFraction
  split
  · exact absurd rfl (h '.' (by simp)).2.1
  · rfl

private theorem readExponent_ends {rest : List Char} (h : Ends rest) :
    readExponent rest = some ([], rest) := by
  cases rest with
  | nil => rfl
  | cons c rest =>
    have hc := (h c (by simp)).2.2
    rw [readExponent, if_neg (not_or.mpr hc)]

/-- The first digit of a positive number is not zero. -/
private theorem head_toDigits {n : Nat} (hn : 0 < n) {c : Char} {cs : List Char}
    (h : Nat.toDigits 10 n = c :: cs) : c ≠ '0' := by
  induction n using Nat.strongRecOn generalizing c cs with
  | ind n ih =>
    rw [Nat.toDigits_eq_if (by omega)] at h
    split at h
    · rename_i hlt
      have hdigit : ∀ m < 10, 0 < m → Nat.digitChar m ≠ '0' := by decide
      rw [← (List.cons.inj h).1]
      exact hdigit n hlt hn
    · obtain ⟨d, ds, hds⟩ : ∃ d ds, Nat.toDigits 10 (n / 10) = d :: ds :=
        List.exists_cons_of_ne_nil Nat.toDigits_ne_nil
      rw [hds, List.cons_append] at h
      rw [← (List.cons.inj h).1]
      exact ih (n / 10) (by omega) (by omega) hds

private theorem isDigit_toDigits (n : Nat) : ∀ c ∈ Nat.toDigits 10 n, c.isDigit := fun _ hc =>
  Nat.isDigit_of_mem_toDigits (by omega) (by omega) hc

private theorem readWhole_toDigits (n : Nat) {rest : List Char} (hrest : Ends rest) :
    readWhole (Nat.toDigits 10 n ++ rest) = some (Nat.toDigits 10 n, rest) := by
  rcases Nat.eq_zero_or_pos n with rfl | hn
  · rfl
  · obtain ⟨c, cs, hcs⟩ := List.exists_cons_of_ne_nil (Nat.toDigits_ne_nil (n := n) (b := 10))
    have hread : readWhole (Nat.toDigits 10 n ++ rest) = readDigits (Nat.toDigits 10 n ++ rest) := by
      unfold readWhole
      split
      · rename_i heq
        rw [hcs, List.cons_append] at heq
        exact absurd (List.cons.inj heq).1 (head_toDigits hn hcs)
      · rfl
    obtain ⟨htake, hdrop⟩ := takeWhile_isDigit (isDigit_toDigits n) hrest
    rw [hread, readDigits, htake, hdrop, hcs]
    rfl

private theorem readMagnitude_toDigits (n : Nat) {rest : List Char} (hrest : Ends rest) :
    readMagnitude (Nat.toDigits 10 n ++ rest) = some (Nat.toDigits 10 n, rest) := by
  have hhead : (rest.head?.map Char.isDigit).getD false = false := by
    cases rest with
    | nil => rfl
    | cons c rest => simpa using (hrest c (by simp)).1
  simp [readMagnitude, readWhole_toDigits n hrest, readFraction_ends hrest, readExponent_ends hrest,
    hhead]

/-- A natural number is read as it is written. -/
theorem readNumber_toString (n : Nat) {rest : List Char} (hrest : Ends rest) :
    readNumber ((toString n).toList ++ rest) = some (.nat n, rest) := by
  have hlist : (toString n).toList = Nat.toDigits 10 n := Nat.toList_repr
  rw [hlist]
  unfold readNumber
  split
  · rename_i heq
    obtain ⟨c, cs, hcs⟩ := List.exists_cons_of_ne_nil (Nat.toDigits_ne_nil (n := n) (b := 10))
    rw [hcs, List.cons_append] at heq
    have hdigit := isDigit_toDigits n c (by simp [hcs])
    rw [(List.cons.inj heq).1] at hdigit
    exact absurd hdigit (by decide)
  · have htext : String.ofList (Nat.toDigits 10 n) = toString n := by
      rw [← hlist, String.ofList_toList]
    simp only [readMagnitude_toDigits n hrest, Option.map_some, nat, htext]

theorem digitsValue_toDigits (n : Nat) : digitsValue (Nat.toDigits 10 n) = n := by
  induction n using Nat.strongRecOn with
  | ind n ih =>
    have hdigit : ∀ m < 10, (Nat.digitChar m).toNat - 48 = m := by decide
    rw [Nat.toDigits_eq_if (by omega)]
    split
    · rename_i hlt
      simpa [digitsValue] using hdigit n hlt
    · have hfront := ih (n / 10) (by omega)
      rw [digitsValue] at hfront ⊢
      rw [List.foldl_append, hfront, List.foldl_cons, List.foldl_nil,
        hdigit (n % 10) (by omega)]
      omega

/-- A natural number of 64 bits is read from what is written for it. -/
theorem asNat?_nat (n : Nat) : (nat n).asNat? = if n < wordCount then some n else none := by
  have hlist : (toString n).toList = Nat.toDigits 10 n := Nat.toList_repr
  have hall : (Nat.toDigits 10 n).all Char.isDigit = true :=
    List.all_eq_true.mpr (isDigit_toDigits n)
  have hne : (Nat.toDigits 10 n).isEmpty = false := by simp
  simp only [nat, asNat?, hlist, hall, hne, digitsValue_toDigits, Bool.not_false, Bool.and_self,
    ↓reduceIte]

end CodeAtlas.Json
