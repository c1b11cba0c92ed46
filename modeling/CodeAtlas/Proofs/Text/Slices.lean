import CodeAtlas.Extraction.Parsed
import CodeAtlas.Proofs.Span.Tiling
import CodeAtlas.SyntaxTree

/-!
# Cutting a text at byte offsets

Between two offsets that fall between characters a piece of text is always cut out, and the pieces
of spans that tile a text give the text when they are put together in order.

## Main results

* `Text.exists_sliceChars?`: the piece between two boundaries.
* `ParsedFile.exists_pieces_of_boundaries`: spans that end at boundaries cut out pieces.
* `ParsedFile.le_utf8ByteSize_of_pieces`: spans that cut out pieces are within the text.
* `ParsedFile.pieces_of_tiles`: the pieces of a tiling make up the text.
-/

namespace CodeAtlas

namespace Text

@[simp] theorem dropBytes?_zero (cs : List Char) : dropBytes? 0 cs = some cs := by
  cases cs <;> rfl

/-- Dropping bytes in two goes. -/
theorem dropBytes?_add {a : Nat} {cs rest : List Char} (h : dropBytes? a cs = some rest)
    (b : Nat) : dropBytes? (a + b) cs = dropBytes? b rest := by
  fun_induction dropBytes? a cs with
  | case1 cs =>
    obtain rfl := Option.some.inj h
    rw [Nat.zero_add]
  | case2 => simp at h
  | case3 n c cs hc ih =>
    have hadd : n + 1 + b = (n + b) + 1 := by omega
    rw [hadd, dropBytes?, if_pos (by omega), ← ih h]
    congr 1
    omega
  | case4 => simp at h

/-- What is dropped and what is left make up the text. -/
theorem exists_takeBytes? {a : Nat} {cs rest : List Char} (h : dropBytes? a cs = some rest) :
    ∃ piece, takeBytes? a cs = some piece ∧ cs = piece ++ rest := by
  fun_induction dropBytes? a cs with
  | case1 cs =>
    obtain rfl := Option.some.inj h
    exact ⟨[], by cases cs <;> rfl, rfl⟩
  | case2 => simp at h
  | case3 n c cs hc ih =>
    obtain ⟨piece, htake, rfl⟩ := ih h
    exact ⟨c :: piece, by rw [takeBytes?, if_pos hc, htake]; rfl, rfl⟩
  | case4 => simp at h

/-- Bytes that can be taken can be dropped. -/
theorem exists_dropBytes? {a : Nat} {cs piece : List Char} (h : takeBytes? a cs = some piece) :
    ∃ rest, dropBytes? a cs = some rest := by
  fun_induction takeBytes? a cs generalizing piece with
  | case1 cs => exact ⟨cs, dropBytes?_zero cs⟩
  | case2 => simp at h
  | case3 n c cs hc ih =>
    obtain ⟨rest, hrest, -⟩ := Option.map_eq_some_iff.mp h
    obtain ⟨dropped, hdropped⟩ := ih hrest
    exact ⟨dropped, by rw [dropBytes?, if_pos hc, hdropped]⟩
  | case4 => simp at h

/-- Between two boundaries a piece is cut out. -/
theorem exists_sliceChars? {cs left right : List Char} {a b : Nat} (hab : a ≤ b)
    (ha : dropBytes? a cs = some left) (hb : dropBytes? b cs = some right) :
    ∃ piece, sliceChars? cs a b = some piece ∧ left = piece ++ right := by
  have hrest : dropBytes? (b - a) left = some right := by
    rw [← dropBytes?_add ha, Nat.add_sub_cancel' hab, hb]
  obtain ⟨piece, htake, hleft⟩ := exists_takeBytes? hrest
  exact ⟨piece, by rw [sliceChars?, if_pos hab, ha, Option.bind_some, htake], hleft⟩

theorem byteLength_cons (c : Char) (cs : List Char) :
    byteLength (c :: cs) = c.utf8Size + byteLength cs := rfl

/-- The number of bytes of a text is that of its characters. -/
theorem utf8ByteSize_eq_byteLength (s : String) : s.utf8ByteSize = byteLength s.toList := by
  have hlist (cs : List Char) : (String.ofList cs).utf8ByteSize = byteLength cs := by
    induction cs with
    | nil => rfl
    | cons c cs ih =>
      rw [String.ofList_cons, String.utf8ByteSize_append, String.utf8ByteSize_singleton, ih,
        byteLength_cons]
  rw [← hlist, String.ofList_toList]

/-- What follows a text is left after its bytes. -/
theorem dropBytes?_append (xs ys : List Char) :
    dropBytes? (byteLength xs) (xs ++ ys) = some ys := by
  induction xs with
  | nil => exact dropBytes?_zero ys
  | cons c xs ih =>
    have hpos := c.utf8Size_pos
    obtain ⟨n, hn⟩ : ∃ n, byteLength (c :: xs) = n + 1 :=
      Nat.exists_eq_add_one.mpr (by rw [byteLength_cons]; omega)
    rw [hn, List.cons_append, dropBytes?, if_pos (by rw [← hn, byteLength_cons]; omega), ← hn,
      byteLength_cons, Nat.add_sub_cancel_left, ih]

/-- Nothing is left after all bytes. -/
theorem dropBytes?_byteLength (cs : List Char) : dropBytes? (byteLength cs) cs = some [] := by
  simpa using dropBytes?_append cs []

/-- A text is cut out of one in which it stands. -/
theorem slice?_append (front piece back : String) :
    slice? (front ++ piece ++ back) front.utf8ByteSize
      (front.utf8ByteSize + piece.utf8ByteSize) = some piece := by
  have hfront : dropBytes? front.utf8ByteSize (front ++ piece ++ back).toList =
      some (piece.toList ++ back.toList) := by
    rw [utf8ByteSize_eq_byteLength, String.toList_append, String.toList_append, List.append_assoc]
    exact dropBytes?_append _ _
  have hpiece : dropBytes? (front.utf8ByteSize + piece.utf8ByteSize)
      (front ++ piece ++ back).toList = some back.toList := by
    rw [dropBytes?_add hfront, utf8ByteSize_eq_byteLength]
    exact dropBytes?_append _ _
  obtain ⟨found, hfound, hcut⟩ := exists_sliceChars? (Nat.le_add_right _ _) hfront hpiece
  rw [slice?, hfound, Option.map_some, ← List.append_cancel_right hcut, String.ofList_toList]

/-- No more bytes can be dropped than there are. -/
theorem le_byteLength_of_dropBytes? {a : Nat} {cs rest : List Char}
    (h : dropBytes? a cs = some rest) : a ≤ byteLength cs := by
  fun_induction dropBytes? a cs with
  | case1 => exact Nat.zero_le _
  | case2 => simp at h
  | case3 n c cs hc ih =>
    have := ih h
    rw [byteLength_cons]
    omega
  | case4 => simp at h

/-- What is cut out is within the text. -/
theorem le_utf8ByteSize_of_slice? {s piece : String} {a b : Nat} (h : slice? s a b = some piece) :
    a ≤ b ∧ b ≤ s.utf8ByteSize := by
  obtain ⟨cs, hcs, -⟩ := Option.map_eq_some_iff.mp h
  unfold sliceChars? at hcs
  split at hcs
  · rename_i hab
    obtain ⟨left, hleft, htaken⟩ := Option.bind_eq_some_iff.mp hcs
    obtain ⟨rest, hrest⟩ := exists_dropBytes? htaken
    rw [← dropBytes?_add hleft, Nat.add_sub_cancel' hab] at hrest
    exact ⟨hab, utf8ByteSize_eq_byteLength s ▸ le_byteLength_of_dropBytes? hrest⟩
  · cases hcs

end Text

namespace Node

theorem IsBoundary.exists_dropBytes? {source : String} {offset : Nat}
    (h : IsBoundary source offset) : ∃ rest, Text.dropBytes? offset source.toList = some rest :=
  Option.isSome_iff_exists.mp h

theorem IsBoundary.zero (source : String) : IsBoundary source 0 := by
  rw [IsBoundary, Text.dropBytes?_zero, Option.isSome_some]

theorem IsBoundary.utf8ByteSize (source : String) : IsBoundary source source.utf8ByteSize := by
  rw [IsBoundary, Text.utf8ByteSize_eq_byteLength, Text.dropBytes?_byteLength, Option.isSome_some]

theorem IsBoundary.le_utf8ByteSize {source : String} {offset : Nat}
    (h : IsBoundary source offset) : offset ≤ source.utf8ByteSize := by
  obtain ⟨rest, hrest⟩ := h.exists_dropBytes?
  rw [Text.utf8ByteSize_eq_byteLength]
  exact Text.le_byteLength_of_dropBytes? hrest

end Node

namespace ParsedFile

open Node (IsBoundary)

/-- Spans that start and stop at boundaries, in order, cut out pieces. -/
theorem exists_pieces_of_boundaries {text : String} {spans : List Span}
    (h : ∀ span ∈ spans, span.start ≤ span.stop ∧
      IsBoundary text span.start ∧ IsBoundary text span.stop) :
    ∃ found, pieces text spans = .ok found := by
  induction spans with
  | nil => exact ⟨[], rfl⟩
  | cons span rest ih =>
    obtain ⟨⟨hle, hstart, hstop⟩, hrest⟩ := List.forall_mem_cons.mp h
    obtain ⟨left, hleft⟩ := hstart.exists_dropBytes?
    obtain ⟨right, hright⟩ := hstop.exists_dropBytes?
    obtain ⟨piece, hpiece, _⟩ := Text.exists_sliceChars? hle hleft hright
    obtain ⟨found, hfound⟩ := ih hrest
    refine ⟨String.ofList piece :: found, ?_⟩
    rw [pieces, Text.slice?, hpiece, hfound]
    rfl

/-- Spans that cut out pieces are within the text. -/
theorem le_utf8ByteSize_of_pieces {text : String} {spans : List Span} {found : List String}
    (h : pieces text spans = .ok found) :
    ∀ span ∈ spans, span.start ≤ span.stop ∧ span.stop ≤ text.utf8ByteSize := by
  induction spans generalizing found with
  | nil => exact fun _ hspan => absurd hspan List.not_mem_nil
  | cons span rest ih =>
    unfold pieces at h
    split at h
    · cases h
    · rename_i piece hpiece
      refine List.forall_mem_cons.mpr ⟨Text.le_utf8ByteSize_of_slice? hpiece, ?_⟩
      cases hrest : pieces text rest with
      | error other =>
        rw [hrest] at h
        cases h
      | ok others => exact ih hrest

/-- The pieces of spans that tile a part of a text are that part. -/
theorem pieces_of_tilesFrom {text : String} {lower upper : Nat} {spans : List Span}
    (htiles : Span.Tiles lower upper spans)
    (hbounds : ∀ span ∈ spans, IsBoundary text span.start ∧ IsBoundary text span.stop)
    {left right : List Char} (hleft : Text.dropBytes? lower text.toList = some left)
    (hright : Text.dropBytes? upper text.toList = some right) :
    ∃ found, pieces text spans = .ok found ∧ left = (String.join found).toList ++ right := by
  induction htiles generalizing left with
  | nil offset =>
    rw [hleft] at hright
    exact ⟨[], rfl, by simpa using hright⟩
  | @cons upper span rest hne htiles ih =>
    obtain ⟨⟨_, hstop⟩, hrest⟩ := List.forall_mem_cons.mp hbounds
    obtain ⟨middle, hmiddle⟩ := hstop.exists_dropBytes?
    obtain ⟨piece, hpiece, hsplit⟩ := Text.exists_sliceChars? (Nat.le_of_lt hne) hleft hmiddle
    obtain ⟨found, hfound, hjoin⟩ := ih hrest hmiddle hright
    refine ⟨String.ofList piece :: found, ?_, ?_⟩
    · rw [pieces, Text.slice?, hpiece, hfound]
      rfl
    · rw [hsplit, hjoin, String.join_cons, String.toList_append, String.toList_ofList,
        List.append_assoc]

/-- The pieces of spans that tile a text make up the text. -/
theorem pieces_of_tiles {text : String} {spans : List Span}
    (htiles : Span.Tiles 0 text.utf8ByteSize spans)
    (hbounds : ∀ span ∈ spans, IsBoundary text span.start ∧ IsBoundary text span.stop) :
    ∃ found, pieces text spans = .ok found ∧ String.join found = text := by
  have hend : Text.dropBytes? text.utf8ByteSize text.toList = some [] := by
    rw [Text.utf8ByteSize_eq_byteLength, Text.dropBytes?_byteLength]
  obtain ⟨found, hfound, hjoin⟩ :=
    pieces_of_tilesFrom htiles hbounds (Text.dropBytes?_zero _) hend
  refine ⟨found, hfound, String.toList_inj.mp ?_⟩
  rw [hjoin, List.append_nil]

end ParsedFile

end CodeAtlas
