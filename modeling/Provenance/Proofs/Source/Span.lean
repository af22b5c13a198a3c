import Provenance.Proofs.Source.Place
import Provenance.Proofs.Text.Bytes

/-!
The span shown for a place. It lies inside the text and holds one byte: the first one of the character
behind the place or, where the line ends there, the last one of the character in front. On an empty line
it holds nothing. One byte is a whole character if the character is ASCII, and a part of it otherwise.
-/

namespace Provenance.Source

variable {src before after front back : List Char} {c : Char} {l : Location} {s : Span}

/-- A character that is not part of a line end. -/
def isInner (c : Char) : Bool := c ≠ '\n' && c ≠ '\r'

/-- The character that is shown for a place between two parts of a text: the one behind the place or,
where the line ends there, the one in front of it, unless that ends a line as well. -/
def shown? (before after : List Char) : Option Char :=
  (after.head?.filter isInner).or (before.getLast?.filter isInner)

/-- A span of whole characters: nothing, or one character that is not part of a line end. -/
def Span.Whole (s : Span) (src : List Char) : Prop :=
  ∃ (front : List Char) (c? : Option Char) (back : List Char),
    src = front ++ c?.toList ++ back ∧ (∀ c ∈ c?, isInner c) ∧
    s.offset = byteLength front ∧ s.length = byteLength c?.toList

/-- A span that holds one byte of a character, or nothing if there is no character to show. -/
def Span.Touches (s : Span) (src : List Char) (c? : Option Char) : Prop :=
  ∃ front back, src = front ++ c?.toList ++ back ∧ byteLength front ≤ s.offset ∧
    s.offset + s.length ≤ byteLength (front ++ c?.toList) ∧ s.length = c?.toList.length

/-! ### Bytes of characters -/

theorem length_flatMap_utf8EncodeChar (a : List Char) :
    (a.flatMap String.utf8EncodeChar).length = byteLength a := by
  induction a with
  | nil => rfl
  | cons c a ih =>
    rw [List.flatMap_cons, List.length_append, String.length_utf8EncodeChar, ih, byteLength]

theorem byteLength_concat (a : List Char) (c : Char) :
    byteLength (a ++ [c]) = byteLength a + c.utf8Size := byteLength_append a [c]

/-- A byte belongs to a line end exactly if its character does. -/
theorem isLineEnd_of_mem {b : UInt8} (hb : b ∈ String.utf8EncodeChar c) :
    (!isLineEnd b) = isInner c := by
  have hbyte := Text.toNat_of_mem_utf8EncodeChar hb
  have hnewline : b = 10 ↔ c = '\n' := by
    rw [← UInt8.toNat_inj, ← Char.toNat_inj]
    change b.toNat = 10 ↔ c.toNat = 10
    omega
  have hreturn : b = 13 ↔ c = '\r' := by
    rw [← UInt8.toNat_inj, ← Char.toNat_inj]
    change b.toNat = 13 ↔ c.toNat = 13
    omega
  simp [isLineEnd, isInner, hnewline, hreturn]

/-- Each byte of a text belongs to the character that it is counted into. -/
theorem exists_byte (back : List Char) {i : Nat} (hlow : byteLength front ≤ i)
    (hhigh : i < byteLength front + c.utf8Size) :
    ∃ b ∈ String.utf8EncodeChar c,
      (String.ofList (front ++ c :: back)).toUTF8.toList[i]? = some b := by
  have hlt : i - byteLength front < (String.utf8EncodeChar c).length := by
    rw [String.length_utf8EncodeChar]
    omega
  refine ⟨_, List.getElem_mem hlt, ?_⟩
  rw [Text.toUTF8_toList, String.toList_ofList, List.flatMap_append, List.flatMap_cons,
    List.getElem?_append_right (by rwa [length_flatMap_utf8EncodeChar]),
    length_flatMap_utf8EncodeChar, List.getElem?_append_left hlt, List.getElem?_eq_getElem hlt]

theorem any_byte {i : Nat} (hlow : byteLength front ≤ i)
    (hhigh : i < byteLength front + c.utf8Size) :
    ((String.ofList (front ++ c :: back)).toUTF8.toList[i]?).any (!isLineEnd ·) = isInner c := by
  obtain ⟨b, hb, hget⟩ := exists_byte back hlow hhigh
  rw [hget, Option.any_some, isLineEnd_of_mem hb]

/-- The byte behind a place. -/
theorem any_byte_behind (before after : List Char) :
    ((String.ofList (before ++ after)).toUTF8.toList[byteLength before]?).any (!isLineEnd ·) =
      after.head?.any isInner := by
  cases after with
  | nil =>
    rw [List.append_nil, Text.toUTF8_toList, String.toList_ofList,
      List.getElem?_eq_none (length_flatMap_utf8EncodeChar before).le]
    rfl
  | cons c after =>
    rw [any_byte (le_refl _) (by have := c.utf8Size_pos; omega)]
    rfl

/-- The byte in front of a place. -/
theorem any_byte_before (before after : List Char) :
    (decide (0 < byteLength before) &&
      ((String.ofList (before ++ after)).toUTF8.toList[byteLength before - 1]?).any (!isLineEnd ·)) =
      before.getLast?.any isInner := by
  rcases List.eq_nil_or_concat before with rfl | ⟨front, c, rfl⟩
  · rfl
  · have hsize := c.utf8Size_pos
    have hpos : 0 < byteLength front + c.utf8Size := by omega
    rw [List.concat_eq_append, byteLength_concat, List.append_assoc, List.singleton_append,
      any_byte (by omega) (by omega), List.getLast?_concat, decide_eq_true hpos, Bool.true_and]
    rfl

/-! ### The span for a place -/

/-- The span for the place between two parts of a text. -/
theorem span_eq (h : byteIndex (before ++ after) l = byteLength before) :
    span (before ++ after) l =
      match after.head?.filter isInner, before.getLast?.filter isInner with
      | some _, _ => ⟨byteLength before, 1⟩
      | none, some _ => ⟨byteLength before - 1, 1⟩
      | none, none => ⟨byteLength before, 0⟩ := by
  simp only [span, h, any_byte_behind, any_byte_before]
  rw [← Option.isSome_filter, ← Option.isSome_filter]
  cases after.head?.filter isInner with
  | some c => rfl
  | none => cases before.getLast?.filter isInner <;> rfl

theorem isInner_of_mem_shown? (hc : c ∈ shown? before after) : isInner c := by
  rcases Option.or_eq_some_iff.1 hc with hc | ⟨-, hc⟩ <;> exact (Option.filter_eq_some_iff.1 hc).2

/-- The span for a place holds a byte of the character that is shown for the place. -/
theorem touches_span (h : byteIndex (before ++ after) l = byteLength before) :
    (span (before ++ after) l).Touches (before ++ after) (shown? before after) := by
  rw [span_eq h, shown?]
  cases hbehind : after.head?.filter isInner with
  | some c =>
    obtain ⟨back, rfl⟩ := List.head?_eq_some_iff.1 (Option.filter_eq_some_iff.1 hbehind).1
    have hsize := c.utf8Size_pos
    refine ⟨before, back, by simp, le_refl _, ?_, rfl⟩
    rw [Option.some_or, Option.toList_some, byteLength_concat]
    exact Nat.add_le_add_left hsize _
  | none =>
    cases hbefore : before.getLast?.filter isInner with
    | some c =>
      obtain ⟨front, rfl⟩ := List.getLast?_eq_some_iff.1 (Option.filter_eq_some_iff.1 hbefore).1
      have hsize := c.utf8Size_pos
      simp only [Option.none_or, byteLength_concat]
      refine ⟨front, after, rfl, ?_, ?_, rfl⟩
      · change byteLength front ≤ byteLength front + c.utf8Size - 1
        omega
      · rw [Option.toList_some, byteLength_concat]
        change byteLength front + c.utf8Size - 1 + 1 ≤ _
        omega
    | none => exact ⟨before, after, by simp, le_refl _, by simp, rfl⟩

/-- A character boundary among the bytes of a character is the one where the character starts. -/
theorem eq_of_boundary {c' : Char} {front' back' : List Char}
    (h : front ++ c :: back = front' ++ c' :: back') (hlow : byteLength front ≤ byteLength front')
    (hhigh : byteLength front' < byteLength front + c.utf8Size) : c = c' := by
  rcases List.append_eq_append_iff.1 h with ⟨m, rfl, hm⟩ | ⟨m, rfl, hm⟩
  · cases m with
    | nil => exact (List.cons.inj hm).1
    | cons d m =>
      obtain ⟨rfl, -⟩ := List.cons.inj hm
      rw [byteLength_append, byteLength] at hhigh
      omega
  · cases m with
    | nil => exact (List.cons.inj hm).1.symm
    | cons d m =>
      have hsize := d.utf8Size_pos
      rw [byteLength_append, byteLength] at hlow
      omega

/-- A span that holds a byte of a character is the whole of it exactly if it has no other. -/
theorem Span.Touches.whole_iff {c? : Option Char} (h : s.Touches src c?)
    (hinner : ∀ c ∈ c?, isInner c) : s.Whole src ↔ ∀ c ∈ c?, c.utf8Size = 1 := by
  obtain ⟨front, back, hsrc, hlow, hhigh, hlength⟩ := h
  cases c? with
  | none =>
    refine iff_of_true ⟨front, none, back, hsrc, hinner, ?_, hlength⟩ (by simp)
    rw [Option.toList_none, List.append_nil] at hhigh
    omega
  | some c =>
    rw [Option.toList_some, byteLength_concat] at hhigh
    replace hlength : s.length = 1 := hlength
    constructor
    · rintro ⟨front', c'?, back', hsrc', -, hoffset, hlength'⟩ _ ⟨⟩
      cases c'? with
      | none => exact absurd (hlength.symm.trans hlength') Nat.one_ne_zero
      | some c' =>
        rw [hsrc, Option.toList_some, Option.toList_some, List.append_assoc,
          List.append_assoc] at hsrc'
        obtain rfl := eq_of_boundary hsrc' (by omega) (by omega)
        exact hlength'.symm.trans hlength
    · intro hsize
      have hone := hsize c rfl
      exact ⟨front, some c, back, hsrc, hinner, by omega, by rw [hlength]; exact hone.symm⟩

/-- The span for a place lies inside the text and holds one byte of the character that is shown for
the place, or nothing where no character is shown. So it begins and ends on character boundaries, and
covers nothing or a character that is not part of a line end, exactly if the character shown has no
other byte. -/
theorem span_whole_iff (src : String) (l : Location) :
    ∃ before after, src.toList = before ++ after ∧
      byteIndex src.toList l = byteLength before ∧
      (span src.toList l).offset + (span src.toList l).length ≤ src.utf8ByteSize ∧
      (span src.toList l).Touches src.toList (shown? before after) ∧
      ((span src.toList l).Whole src.toList ↔ ∀ c ∈ shown? before after, c.utf8Size = 1) := by
  obtain ⟨before, ⟨after, hsrc⟩, hindex⟩ := exists_prefix_byteIndex src.toList l
  have htouches : (span src.toList l).Touches src.toList (shown? before after) := by
    rw [← hsrc]
    exact touches_span (by rw [hsrc, hindex])
  refine ⟨before, after, hsrc.symm, hindex, ?_, htouches,
    htouches.whole_iff fun c => isInner_of_mem_shown?⟩
  obtain ⟨front, back, hparts, -, hhigh, -⟩ := htouches
  have hsize : src.utf8ByteSize = byteLength (front ++ (shown? before after).toList) +
      byteLength back := by
    rw [utf8ByteSize_eq_byteLength, hparts, byteLength_append]
  omega

/-- Behind a quoted scalar, the span for a character of two bytes ends after the first of them. -/
theorem span_cutCharacter :
    span "a: \"b\" é".toList ⟨1, 8⟩ = ⟨7, 1⟩ ∧
      ¬(span "a: \"b\" é".toList ⟨1, 8⟩).Whole "a: \"b\" é".toList := by
  have hspan : span "a: \"b\" é".toList ⟨1, 8⟩ = ⟨7, 1⟩ := by cbv
  have htouches : (⟨7, 1⟩ : Span).Touches "a: \"b\" é".toList (some 'é') :=
    ⟨"a: \"b\" ".toList, [], by decide, by decide, by decide, rfl⟩
  refine ⟨hspan, ?_⟩
  rw [hspan, htouches.whole_iff (by simp [isInner])]
  intro hsize
  exact absurd (hsize 'é' rfl) (by decide)

end Provenance.Source
