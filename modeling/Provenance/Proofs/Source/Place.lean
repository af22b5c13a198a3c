import Mathlib
import Provenance.Source

/-!
Places and byte offsets. A text is made of whole lines and what stands behind the last newline, so the
place of an offset on a character boundary can be counted on the text before it, and leads back to that
offset. The one exception is the carriage return at the end of a line: a place behind it stands for the
offset before it. Any other place stands for some offset on a character boundary.
-/

namespace Provenance.Source

variable {a line rest : List Char} {c : Char} {l : Location}

/-! ### Bytes -/

theorem byteLength_eq_utf8Len (a : List Char) : byteLength a = String.utf8Len a := by
  induction a with
  | nil => rfl
  | cons c a ih => rw [byteLength, ih, String.utf8Len_cons, Nat.add_comm]

theorem byteLength_append (a b : List Char) :
    byteLength (a ++ b) = byteLength a + byteLength b := by
  simp only [byteLength_eq_utf8Len, String.utf8Len_append]

theorem utf8ByteSize_eq_byteLength (s : String) : s.utf8ByteSize = byteLength s.toList := by
  rw [byteLength_eq_utf8Len, String.utf8Len_toList]

/-! ### Lines -/

theorem lines_ne_nil (h : a ≠ []) : lines a ≠ [] := by
  cases a with
  | nil => exact absurd rfl h
  | cons c a =>
    rw [lines]
    split
    · simp
    · split <;> simp

/-- The lines of a text make up the text. -/
theorem flatten_lines (a : List Char) : (lines a).flatten = a := by
  induction a with
  | nil => rfl
  | cons c a ih =>
    rw [lines]
    split
    · rw [List.flatten_cons, ih, List.singleton_append]
    · cases ha : lines a with
      | nil =>
        rw [ha] at ih
        simp [← ih]
      | cons line ls =>
        rw [ha, List.flatten_cons] at ih
        simp [← ih]

/-- A text of whole lines: nothing stands behind its last newline. -/
def Ended (a : List Char) : Prop := a = [] ∨ a.getLast? = some '\n'

theorem Ended.tail (h : Ended (c :: a)) : Ended a := by
  rcases h with h | h
  · cases h
  · cases a with
    | nil => exact .inl rfl
    | cons d a => exact .inr (by simpa [List.getLast?_cons_cons] using h)

/-- A character that starts a text of whole lines is in the first of them. -/
theorem Ended.exists_line (h : Ended (c :: a)) (hc : c ≠ '\n') :
    ∃ line ls, lines a = line :: ls := by
  refine List.exists_cons_of_ne_nil (lines_ne_nil ?_)
  rintro rfl
  rcases h with h | h
  · cases h
  · exact hc (by simpa using h)

/-- Whole lines stay as they are in front of any text. -/
theorem lines_append (b : List Char) : ∀ {a : List Char}, Ended a →
    lines (a ++ b) = lines a ++ lines b
  | [], _ => rfl
  | c :: a, h => by
    rw [List.cons_append, lines, lines, lines_append b h.tail]
    split
    · rw [List.cons_append]
    · rename_i hc
      obtain ⟨line, ls, ha⟩ := h.exists_line hc
      simp [ha]

/-- There are as many whole lines as newlines. -/
theorem length_lines : ∀ {a : List Char}, Ended a → (lines a).length = a.count '\n'
  | [], _ => rfl
  | c :: a, h => by
    have ih := length_lines h.tail
    rw [lines, List.count_cons]
    split
    · rename_i hc
      simp [hc, ih]
    · rename_i hc
      obtain ⟨line, ls, ha⟩ := h.exists_line hc
      rw [ha] at ih ⊢
      simp [hc, ← ih]

theorem lines_of_not_mem : ∀ {line : List Char}, '\n' ∉ line → line ≠ [] → lines line = [line]
  | [c], h, _ => by
    have hc : c ≠ '\n' := by
      rintro rfl
      simp at h
    simp [lines, hc]
  | c :: d :: line, h, _ => by
    rw [List.mem_cons, not_or] at h
    rw [lines, if_neg (Ne.symm h.1), lines_of_not_mem h.2 (List.cons_ne_nil d line)]

theorem lines_append_newline (rest : List Char) : ∀ {line : List Char}, '\n' ∉ line →
    lines (line ++ '\n' :: rest) = (line ++ ['\n']) :: lines rest
  | [], _ => by simp [lines]
  | c :: line, h => by
    rw [List.mem_cons, not_or] at h
    rw [List.cons_append, lines, if_neg (Ne.symm h.1), lines_append_newline rest h.2]
    rfl

/-! ### Line ends -/

/-- A line without a carriage return at its end. -/
def withoutReturn (line : List Char) : List Char :=
  if line.getLast? = some '\r' then line.dropLast else line

theorem withoutEnd_concat (line : List Char) :
    withoutEnd (line ++ ['\n']) = withoutReturn line := by
  simp [withoutEnd, withoutReturn]

theorem withoutEnd_of_not_mem (h : '\n' ∉ line) : withoutEnd line = withoutReturn line := by
  have hlast : line.getLast? ≠ some '\n' := fun hlast => h (List.mem_of_getLast? hlast)
  simp [withoutEnd, withoutReturn, hlast]

theorem withoutEnd_prefix_line (line : List Char) : withoutEnd line <+: line := by
  have hdrop (line : List Char) (c : Char) :
      (if line.getLast? = some c then line.dropLast else line) <+: line := by
    split
    · exact List.dropLast_prefix line
    · exact List.prefix_rfl
  exact (hdrop _ '\r').trans (hdrop line '\n')

/-- The start of a line keeps its carriage return unless the line ends with it. -/
theorem take_withoutReturn (line more : List Char) :
    (withoutReturn (line ++ more)).take line.length =
      if more = [] then withoutReturn line else line := by
  split
  · rename_i hmore
    rw [hmore, List.append_nil, withoutReturn]
    split
    · exact List.take_of_length_le (by simp)
    · exact List.take_length
  · rename_i hmore
    rw [withoutReturn]
    split
    · rw [List.dropLast_append_of_ne_nil hmore, List.take_left]
    · exact List.take_left

theorem byteLength_withoutReturn (line : List Char) :
    byteLength (withoutReturn line) + (if line.getLast? = some '\r' then 1 else 0) =
      byteLength line := by
  rw [withoutReturn]
  split
  · rename_i hlast
    obtain ⟨front, rfl⟩ := List.getLast?_eq_some_iff.1 hlast
    rw [List.dropLast_concat, byteLength_append]
    rfl
  · rfl

/-! ### Offsets -/

/-- The offset of a place in a line counts the lines before it, and of its own line what stands before
the place, without a carriage return at the end. -/
theorem byteIndex_of_line (ha : Ended a) (hline : '\n' ∉ line)
    (hrest : rest = [] ∨ rest.head? = some '\n') (hl : l.line - 1 = a.count '\n') :
    byteIndex (a ++ (line ++ rest)) l =
      byteLength a + byteLength ((withoutReturn line).take (l.column - 1)) := by
  have htake (ls : List (List Char)) : (lines a ++ ls).take (l.line - 1) = lines a := by
    rw [hl, ← length_lines ha, List.take_left]
  have hget (ls : List (List Char)) : (lines a ++ ls)[l.line - 1]? = ls[0]? := by
    rw [hl, ← length_lines ha, List.getElem?_append_right (le_refl _), Nat.sub_self]
  rw [byteIndex, lines_append _ ha, htake, hget, flatten_lines]
  rcases hrest with rfl | hrest
  · rw [List.append_nil]
    by_cases hnil : line = []
    · subst hnil
      simp [lines, byteLength, withoutReturn]
    · simp [lines_of_not_mem hline hnil, withoutEnd_of_not_mem hline]
  · obtain ⟨back, rfl⟩ := List.head?_eq_some_iff.1 hrest
    simp [lines_append_newline back hline, withoutEnd_concat]

/-- The place behind some text: its line is counted by newlines, and its column by the characters since
the last of them. -/
def placeAfter (before : List Char) : Location :=
  ⟨1 + before.count '\n', 1 + (before.rtakeWhile (· ≠ '\n')).length⟩

/-- The text before a place consists of whole lines and the start of another one. -/
theorem exists_line_before (before : List Char) :
    ∃ a line, before = a ++ line ∧ Ended a ∧ '\n' ∉ line ∧
      (placeAfter before).line - 1 = a.count '\n' ∧
      (placeAfter before).column - 1 = line.length := by
  let a := before.rdropWhile (· ≠ '\n')
  let line := before.rtakeWhile (· ≠ '\n')
  have hbefore : a ++ line = before := List.rdropWhile_append_rtakeWhile
  have hline : '\n' ∉ line := fun h => by simpa using List.mem_rtakeWhile_imp h
  have hended : Ended a := by
    by_cases ha : a = []
    · exact .inl ha
    · have hlast : ¬decide (a.getLast ha ≠ '\n') = true := List.rdropWhile_last_not _ _ ha
      exact .inr (by simpa [List.getLast?_eq_getLast_of_ne_nil ha] using hlast)
  refine ⟨a, line, hbefore.symm, hended, hline, ?_, Nat.add_sub_cancel_left ..⟩
  rw [placeAfter, Nat.add_sub_cancel_left, ← hbefore, List.count_append,
    List.count_eq_zero_of_not_mem hline, Nat.add_zero]

/-- The text behind a place starts with what is left of the line. -/
theorem exists_line_after (after : List Char) :
    ∃ more rest, after = more ++ rest ∧ '\n' ∉ more ∧
      (rest = [] ∨ rest.head? = some '\n') ∧
      (more = [] ↔ after = [] ∨ after.head? = some '\n') := by
  induction after with
  | nil => exact ⟨[], [], by simp⟩
  | cons c after ih =>
    by_cases hc : c = '\n'
    · exact ⟨[], c :: after, by simp [hc]⟩
    · obtain ⟨more, rest, hafter, hmore, hrest, -⟩ := ih
      exact ⟨c :: more, rest, by simp [hafter], by simp [Ne.symm hc, hmore], hrest, by simp [hc]⟩

/-- The place behind some text leads back to its end, unless that is in the middle of a line end. -/
theorem byteIndex_placeAfter (before after : List Char) :
    byteIndex (before ++ after) (placeAfter before) =
      if before.getLast? = some '\r' ∧ (after = [] ∨ after.head? = some '\n') then
        byteLength before - 1
      else byteLength before := by
  obtain ⟨a, line, hbefore, ha, hline, hcount, hcolumn⟩ := exists_line_before before
  obtain ⟨more, rest, hafter, hmore, hrest, hend⟩ := exists_line_after after
  have hlast : before.getLast? = some '\r' ↔ line.getLast? = some '\r' := by
    by_cases hnil : line = []
    · rcases ha with ha | ha
      · simp [hbefore, hnil, ha]
      · simp [hbefore, hnil, ha]
    · rw [hbefore, List.getLast?_append_of_ne_nil a hnil]
  have hindex : byteIndex (before ++ after) (placeAfter before) =
      byteLength a + byteLength (if more = [] then withoutReturn line else line) := by
    have hsplit : before ++ after = a ++ (line ++ more ++ rest) := by
      rw [hbefore, hafter]
      simp only [List.append_assoc]
    have hnewline : '\n' ∉ line ++ more := by simp [hline, hmore]
    rw [hsplit, byteIndex_of_line ha hnewline hrest hcount, hcolumn, take_withoutReturn]
  have hbytes : byteLength before = byteLength a + byteLength line := by
    rw [hbefore, byteLength_append]
  have hreturn := byteLength_withoutReturn line
  simp only [hindex, hlast, ← hend]
  by_cases hmore : more = []
  · rw [if_pos hmore]
    by_cases hlast : line.getLast? = some '\r'
    · rw [if_pos ⟨hlast, hmore⟩]
      rw [if_pos hlast] at hreturn
      omega
    · rw [if_neg fun h => hlast h.1]
      rw [if_neg hlast] at hreturn
      omega
  · rw [if_neg hmore, if_neg fun h => hmore h.2, hbytes]

example : byteIndex "café: x".toList (placeAfter "café".toList) = 5 := by decide

example : byteIndex "one\r\ntwo".toList (placeAfter "one\r".toList) = 3 := by decide

/-- Every place stands for the end of some start of the text. -/
theorem exists_prefix_byteIndex (src : List Char) (l : Location) :
    ∃ front, front <+: src ∧ byteIndex src l = byteLength front := by
  rw [byteIndex]
  cases hline : (lines src)[l.line - 1]? with
  | none => exact ⟨src, List.prefix_rfl, rfl⟩
  | some line =>
    obtain ⟨hlt, hget⟩ := List.getElem?_eq_some_iff.1 hline
    obtain ⟨back, hback⟩ :=
      List.IsPrefix.trans ( List.take_prefix (l.column - 1) _) (withoutEnd_prefix_line line)
    refine ⟨_, ⟨back ++ ((lines src).drop (l.line - 1 + 1)).flatten, ?_⟩,
      (byteLength_append ..).symm⟩
    calc ((lines src).take (l.line - 1)).flatten ++ (withoutEnd line).take (l.column - 1) ++
          (back ++ ((lines src).drop (l.line - 1 + 1)).flatten)
      _ = ((lines src).take (l.line - 1)).flatten ++
          (line ++ ((lines src).drop (l.line - 1 + 1)).flatten) := by
        rw [List.append_assoc, ← List.append_assoc _ back, hback]
      _ = src := by
        rw [← List.flatten_cons, ← List.flatten_append, ← hget, ← List.drop_eq_getElem_cons hlt,
          List.take_append_drop, flatten_lines]

/-- The place of a character boundary leads back to it. Only where the boundary is behind a carriage
return, and in front of a newline or of the end of the text, it leads to the one before the carriage
return. Every other place, be it past the end of a line or past the last line, stands for a character
boundary as well. -/
theorem byteIndex_inverts_placeAfter (src : String) :
    (∀ p : src.Pos,
        let before := (src.sliceTo p).copy.toList
        let after := (src.sliceFrom p).copy.toList
        byteIndex src.toList (placeAfter before) =
          if before.getLast? = some '\r' ∧ (after = [] ∨ after.head? = some '\n') then
            p.offset.byteIdx - 1
          else p.offset.byteIdx) ∧
      ∀ l, ∃ p : src.Pos, byteIndex src.toList l = p.offset.byteIdx ∧
        p.offset.byteIdx ≤ src.utf8ByteSize := by
  constructor
  · intro p before after
    have hsrc : src.toList = before ++ after := by
      rw [← String.toList_append, ← p.splits.eq_append]
    have hoffset : p.offset.byteIdx = byteLength before := by
      rw [p.splits.offset_eq_rawEndPos, String.byteIdx_rawEndPos, utf8ByteSize_eq_byteLength]
    rw [hsrc, hoffset, byteIndex_placeAfter]
  · intro l
    obtain ⟨front, ⟨back, hsrc⟩, hindex⟩ := exists_prefix_byteIndex src.toList l
    have hvalid : (String.Pos.Raw.mk (byteIndex src.toList l)).IsValid src := by
      refine String.Pos.Raw.isValid_iff_exists_append.2 ⟨.ofList front, .ofList back, ?_, ?_⟩
      · rw [← String.ofList_append, hsrc, String.ofList_toList]
      · rw [hindex, byteLength_eq_utf8Len, String.Pos.Raw.ext_iff, String.byteIdx_rawEndPos,
          String.utf8ByteSize_ofList]
    exact ⟨⟨_, hvalid⟩, rfl, hvalid.le_rawEndPos⟩

end Provenance.Source
