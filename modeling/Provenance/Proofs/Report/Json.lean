import Provenance.Proofs.Delimited
import Provenance.Proofs.Report.Listing
import Provenance.Report.Json

/-!
The JSON document of printed actions, told apart. Each string in it ends at the first quote that no
escape begins, each list and each object at the line end that no comma stands before. So every part of
the document tells where it ends, a member that is left out is told from an empty one, and two lists of
entries have the same document only if they are the same, as it is with their listings.
-/

namespace Provenance

namespace Json

/-- The character that an escape of one character stands for. -/
def unescape : Char → Option Char
  | '\x22' => some '\x22'
  | '\\' => some '\\'
  | 'b' => some '\x08'
  | 'f' => some '\x0c'
  | 'n' => some '\n'
  | 'r' => some '\r'
  | 't' => some '\t'
  | _ => none

/-- The number that a hexadecimal digit stands for. -/
def digitValue (c : Char) : Nat := if c.isDigit then c.toNat - '0'.toNat else c.toNat - 'a'.toNat + 10

/-- Reads a character within a string, and gives what follows it. -/
def readChar : List Char → Option (Char × List Char)
  | [] => none
  | '\\' :: 'u' :: '0' :: '0' :: high :: low :: r =>
    some (Char.ofNat (16 * digitValue high + digitValue low), r)
  | '\\' :: c :: r => (unescape c).map (·, r)
  | c :: r => some (c, r)

theorem digitValue_digitChar : ∀ n < 16, digitValue (Nat.digitChar n) = n := by decide

theorem readChar_escape_append (c : Char) (s : List Char) :
    readChar (escape c ++ s) = some (c, s) := by
  unfold escape
  split
  · rfl
  · rfl
  · rfl
  · rfl
  · rfl
  · rfl
  · rfl
  · rename_i hslash _ _ _ _ _
    by_cases hc : c.toNat < 32
    · have hvalue : 16 * digitValue (Nat.digitChar (c.toNat / 16)) +
          digitValue (Nat.digitChar (c.toNat % 16)) = c.toNat := by
        rw [digitValue_digitChar _ (by omega), digitValue_digitChar _ (by omega), Nat.div_add_mod]
      rw [if_pos hc]
      simp only [hexByte, List.cons_append, List.nil_append, readChar, hvalue, Char.ofNat_toNat]
    · rw [if_neg hc, List.singleton_append, readChar]
      · exact fun _ _ _ h => absurd h hslash
      · exact fun _ _ h => absurd h hslash

theorem delimited_escape : Delimited escape := .of_read readChar_escape_append

/-- No character is written with a quote in front. -/
theorem head?_escape (c : Char) : ∃ b ∈ (escape c).head?, b ≠ '\x22' := by
  unfold escape
  split
  · exact ⟨_, rfl, by decide⟩
  · exact ⟨_, rfl, by decide⟩
  · exact ⟨_, rfl, by decide⟩
  · exact ⟨_, rfl, by decide⟩
  · exact ⟨_, rfl, by decide⟩
  · exact ⟨_, rfl, by decide⟩
  · exact ⟨_, rfl, by decide⟩
  · rename_i hquote _ _ _ _ _ _
    by_cases hc : c.toNat < 32
    · exact ⟨'\\', by rw [if_pos hc]; rfl, by decide⟩
    · exact ⟨c, by rw [if_neg hc]; rfl, hquote⟩

theorem delimited_text : Delimited text := by
  have hchars := (delimited_escape.flatMap_mark head?_escape).between ['\x22'] []
  have hquoted := hchars.comp fun _ _ => String.toList_inj.1
  intro s t u v h
  exact hquoted (by simpa [text] using h)

/-- Behind its first value, a list has a comma before each other value, and a line end before its
closing bracket. -/
theorem bracketed_cons_append {α : Type} (left right : Char) (level : Nat) (code : α → List Char)
    (x : α) (xs : List α) (s : List Char) :
    bracketed left right level ((x :: xs).map code) ++ s =
      left :: newline (level + 1) ++ (code x ++
        (xs.flatMap (fun y => ',' :: newline (level + 1) ++ code y) ++ ['\n'] ++
          (List.replicate (2 * level) ' ' ++ right :: s))) := by
  rw [List.map_cons, bracketed, Text.join_cons_eq_flatMap, List.flatMap_map]
  · simp [newline]
  · exact List.cons_ne_nil _ _

theorem bracketed_singleton (left right : Char) (level : Nat) (value : List Char) :
    bracketed left right level [value] =
      left :: newline (level + 1) ++ value ++ newline level ++ [right] := rfl

/-- Values between brackets are told from what follows, if each value is. -/
theorem delimited_bracketed {α : Type} {code : α → List Char} (h : Delimited code) (left : Char)
    {right : Char} (hright : right ≠ '\n') (level : Nat) :
    Delimited fun xs : List α => bracketed left right level (xs.map code) := by
  have hempty : ∀ x xs s t, bracketed left right level ((x :: xs).map code) ++ s ≠
      bracketed left right level (List.map code []) ++ t := by
    intro x xs s t heq
    rw [bracketed_cons_append] at heq
    exact hright (List.cons.inj (List.cons.inj heq).2).1.symm
  have hrest : Delimited fun xs : List α =>
      xs.flatMap (fun y => ',' :: newline (level + 1) ++ code y) ++ ['\n'] := by
    refine Delimited.flatMap_mark (fun x y s t heq => ?_) fun _ => ⟨',', rfl, by decide⟩
    exact h.between (',' :: newline (level + 1)) [] (by simpa using heq)
  intro xs ys s t heq
  cases xs with
  | nil =>
    cases ys with
    | nil => exact ⟨rfl, List.append_cancel_left heq⟩
    | cons y ys => exact absurd heq.symm (hempty y ys t s)
  | cons x xs =>
    cases ys with
    | nil => exact absurd heq (hempty x xs s t)
    | cons y ys =>
      simp only [bracketed_cons_append] at heq
      obtain ⟨rfl, hvalues⟩ := h (List.append_cancel_left heq)
      obtain ⟨rfl, hclosing⟩ := hrest hvalues
      exact ⟨rfl, (List.cons.inj (List.append_cancel_left hclosing)).2⟩

theorem delimited_texts (level : Nat) : Delimited (texts level) :=
  delimited_bracketed delimited_text '[' (by decide) level

/-- What a member of an entry's object holds. -/
inductive Value where
  | text (s : String)
  | texts (ss : List String)

/-- A value at a level. -/
def Value.code (level : Nat) : Value → List Char
  | text s => Json.text s
  | texts ss => Json.texts level ss

/-- The members of an entry, by name. -/
def namedValues (e : Entry) : List (String × Value) :=
  ("id", .text e.id) :: (e.owner.toList.map fun o => ("owner", .text o)) ++
    [("mnemonic", .text e.mnemonic), ("arguments", .texts e.arguments),
     ("inputs", .texts e.inputs), ("outputs", .texts e.outputs)]

theorem head?_text (s : String) : (text s).head? = some '\x22' := rfl

theorem head?_texts (level : Nat) (ss : List String) : (texts level ss).head? = some '[' := by
  cases ss <;> rfl

/-- A text starts with a quote, and a list of texts with a bracket. -/
theorem Value.delimited_code (level : Nat) : Delimited (Value.code level) := by
  have hkind : ∀ u ss s t, Json.text u ++ s ≠ Json.texts level ss ++ t := by
    intro u ss s t heq
    have hhead := congrArg List.head? heq
    rw [List.head?_append, List.head?_append, head?_text, head?_texts] at hhead
    cases hhead
  intro x y s t h
  cases x with
  | text u =>
    cases y with
    | text v =>
      obtain ⟨rfl, hrest⟩ := delimited_text h
      exact ⟨rfl, hrest⟩
    | texts ss => exact absurd h (hkind u ss s t)
  | texts ss =>
    cases y with
    | text v => exact absurd h.symm (hkind v ss t s)
    | texts ts =>
      obtain ⟨rfl, hrest⟩ := delimited_texts level h
      exact ⟨rfl, hrest⟩

/-- A member is told by its name and its value. -/
theorem delimited_member (level : Nat) :
    Delimited fun m : String × Value => member m.1 (m.2.code level) := by
  rintro ⟨name, x⟩ ⟨name', y⟩ s t h
  simp only [member, List.append_assoc] at h
  obtain ⟨rfl, hvalue⟩ := delimited_text h
  obtain ⟨rfl, hrest⟩ := Value.delimited_code level (List.cons.inj (List.cons.inj hvalue).2).2
  exact ⟨rfl, hrest⟩

theorem members_eq_map (level : Nat) (e : Entry) :
    members level e = (namedValues e).map fun m => member m.1 (m.2.code level) := by
  obtain ⟨id, owner, mnemonic, arguments, inputs, outputs⟩ := e
  cases owner <;> rfl

/-- An entry without an owner has one member less, so its members are those of no other entry. -/
theorem namedValues_injective : Function.Injective namedValues := by
  rintro ⟨id, owner, mnemonic, arguments, inputs, outputs⟩
    ⟨id', owner', mnemonic', arguments', inputs', outputs'⟩ h
  cases owner <;> cases owner' <;> simp_all [namedValues]

theorem delimited_object (level : Nat) : Delimited (object level) := by
  have hright : '\x7d' ≠ '\n' := by decide
  have hmembers := (delimited_bracketed (delimited_member (level + 1)) '\x7b' hright level).comp
    namedValues_injective
  intro e f s t h
  rw [object, object, members_eq_map, members_eq_map] at h
  exact hmembers h

/-- No two lists of entries have the same document. -/
theorem render_injective : Function.Injective render := by
  intro es fs h
  have hentries : Delimited fun es : List Entry => bracketed '[' ']' 1 (es.map (object 2)) :=
    delimited_bracketed (delimited_object 2) '[' (by decide) 1
  let before := '\x7b' :: newline 1 ++ text "actions" ++ [':', ' ']
  let after := newline 0 ++ ['\x7d']
  have hrender (es : List Entry) :
      render es = String.ofList (before ++ bracketed '[' ']' 1 (es.map (object 2)) ++ after) := by
    rw [render, bracketed_singleton, member]
    simp [before, after]
  rw [hrender, hrender] at h
  exact (hentries.between before after).injective (String.ofList_injective h)

/-- Two lists of entries have the same document exactly if they have the same listing, which is exactly
if they are the same. -/
theorem render_eq_iff_listing (es fs : List Entry) :
    (render es = render fs ↔ Listing.render es = Listing.render fs) ∧
      (render es = render fs ↔ es = fs) ∧ (Listing.render es = Listing.render fs ↔ es = fs) := by
  have hdocument : render es = render fs ↔ es = fs := render_injective.eq_iff
  have hlisting : Listing.render es = Listing.render fs ↔ es = fs := by
    refine ⟨fun h => ?_, congrArg Listing.render⟩
    have hread : Listing.read (Listing.render es) = some fs := Listing.read_eq_some_iff.2 h
    rw [Listing.read_eq_some_iff.2 rfl] at hread
    exact Option.some.inj hread
  exact ⟨hdocument.trans hlisting.symm, hdocument, hlisting⟩

end Json

end Provenance
