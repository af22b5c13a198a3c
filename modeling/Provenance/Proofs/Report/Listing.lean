import Provenance.Proofs.Text.Fields
import Provenance.Report.Listing

/-!
The listing of printed actions, read back. Since no quoted value holds a line end, the lines of a listing
are those that its entries have, one for each field and one on either side of them. A line gives back the
name and the value of its field, because no name holds a colon and no value an unescaped quote. So the
lines are read into the entries, from the last one on, and what is read is exactly the listings.
-/

namespace Provenance

namespace Listing

/-- The name of a field, and its value. -/
abbrev Field := String × String

/-- The line of a field, without its end. -/
def lineOf (f : Field) : List Char := ' ' :: ' ' :: f.1.toList ++ ':' :: ' ' :: quoted f.2

/-- The lines of an entry, without their ends. -/
def linesOf (e : Entry) : List (List Char) :=
  "action \x7b".toList :: (fieldsOf e).map lineOf ++ [['\x7d']]

/-- The character that an escape stands for. -/
def unescape : Char → Option Char
  | '\x22' => some '\x22'
  | '\\' => some '\\'
  | 'n' => some '\n'
  | 't' => some '\t'
  | _ => none

/-- Reads a text in quotes from behind the opening quote. The closing quote must end it. -/
def unquote : List Char → Option (List Char)
  | [] => none
  | ['\x22'] => some []
  | '\\' :: c :: r => (unescape c).bind fun d => (unquote r).map (d :: ·)
  | c :: r => if escape c = [c] then (unquote r).map (c :: ·) else none

/-- Reads a field from its line. -/
def readLine : List Char → Option Field
  | ' ' :: ' ' :: r =>
    match Text.cut ':' r with
    | some (name, ' ' :: '\x22' :: value) =>
      (unquote value).map fun v => (String.ofList name, String.ofList v)
    | _ => none
  | _ => none

/-- The values of the fields of one name. -/
def valuesOf (name : String) (fs : List Field) : List String :=
  (fs.filter (·.1 = name)).map Prod.snd

/-- The entry with some fields, which must stand in the order of the listing. -/
def entryOf? (fs : List Field) : Option Entry :=
  let e : Entry := {
    id := (valuesOf "id" fs).headD ""
    owner := (valuesOf "owner" fs).head?
    mnemonic := (valuesOf "mnemonic" fs).headD ""
    arguments := valuesOf "argument" fs
    inputs := valuesOf "input" fs
    outputs := valuesOf "output" fs }
  if fieldsOf e = fs then some e else none

/-- What was read of a listing, from its end: the entries, and before them the fields of a block whose
first line is still to come, if there is one. -/
structure Tail where
  begun : Option (List Field)
  entries : List Entry

/-- Reads one more line, in front of those that were read. -/
def Tail.readLine (t : Tail) (l : List Char) : Option Tail :=
  match t.begun with
  | none => if l = ['\x7d'] then some { t with begun := some [] } else none
  | some fs =>
    if l = "action \x7b".toList then (entryOf? fs).map fun e => ⟨none, e :: t.entries⟩
    else (Listing.readLine l).map fun f => { t with begun := some (f :: fs) }

/-- The lines that were read. -/
def Tail.lines (t : Tail) : List (List Char) :=
  (t.begun.elim [] fun fs => fs.map lineOf ++ [['\x7d']]) ++ t.entries.flatMap linesOf ++ [[]]

/-- Reads the lines of a text. Nothing may stand behind the last line end. -/
def readLines : List (List Char) → Option Tail
  | [] => none
  | [l] => if l = [] then some ⟨none, []⟩ else none
  | l :: m :: ls => (readLines (m :: ls)).bind (·.readLine l)

/-- Reads a listing. -/
def read (text : String) : Option (List Entry) :=
  match readLines (Text.fields '\n' text.toList) with
  | some ⟨none, es⟩ => some es
  | _ => none

theorem unescape_eq_some_iff {c d : Char} : unescape c = some d ↔ escape d = ['\\', c] := by
  constructor
  · intro h
    unfold unescape at h
    split at h <;> cases h <;> rfl
  · intro h
    unfold escape at h
    split at h <;> cases h <;> rfl

/-- A character is told from what follows it within quotes. -/
theorem unquote_escape_append (c : Char) (r : List Char) :
    unquote (escape c ++ r) = (unquote r).map (c :: ·) := by
  by_cases hplain : escape c = [c]
  · have hquote : c ≠ '\x22' := by
      rintro rfl
      cases hplain
    have hslash : c ≠ '\\' := by
      rintro rfl
      cases hplain
    rw [hplain, List.singleton_append, unquote, if_pos hplain]
    · exact fun h => absurd h hquote
    · exact fun _ _ h => absurd h hslash
  · unfold escape at hplain ⊢
    split at hplain
    · rfl
    · rfl
    · rfl
    · rfl
    · exact absurd rfl hplain

/-- What is in quotes is read back, and nothing else is read. -/
theorem unquote_eq_some_iff {s t : List Char} :
    unquote s = some t ↔ s = t.flatMap escape ++ ['\x22'] := by
  constructor
  · intro h
    fun_induction unquote s generalizing t with
    | case1 => cases h
    | case2 =>
      cases h
      rfl
    | case3 c r ih =>
      obtain ⟨d, hd, hr⟩ := Option.bind_eq_some_iff.1 h
      obtain ⟨u, hu, rfl⟩ := Option.map_eq_some_iff.1 hr
      rw [List.flatMap_cons, unescape_eq_some_iff.1 hd, List.append_assoc, ← ih hu]
      rfl
    | case4 c r _ _ hplain ih =>
      obtain ⟨u, hu, rfl⟩ := Option.map_eq_some_iff.1 h
      rw [List.flatMap_cons, hplain, List.append_assoc, ← ih hu]
      rfl
    | case5 => cases h
  · rintro rfl
    induction t with
    | nil => rfl
    | cons c t ih => rw [List.flatMap_cons, List.append_assoc, unquote_escape_append, ih, Option.map_some]

theorem readLine_eq_some_iff {l : List Char} {f : Field} :
    readLine l = some f ↔ ':' ∉ f.1.toList ∧ l = lineOf f := by
  constructor
  · intro h
    unfold readLine at h
    split at h
    · rename_i r
      split at h
      · rename_i name value hcut
        obtain ⟨v, hv, rfl⟩ := Option.map_eq_some_iff.1 h
        rw [String.toList_ofList]
        refine ⟨Text.not_mem_cut_fst hcut, ?_⟩
        rw [Text.eq_append_of_cut hcut, unquote_eq_some_iff.1 hv, lineOf, quoted]
        simp
      · cases h
    · cases h
  · rintro ⟨hname, rfl⟩
    have hvalue : unquote (f.2.toList.flatMap escape ++ ['\x22']) = some f.2.toList :=
      unquote_eq_some_iff.2 rfl
    simp [readLine, lineOf, quoted, Text.cut_append _ hname, hvalue]

theorem valuesOf_append (name : String) (fs gs : List Field) :
    valuesOf name (fs ++ gs) = valuesOf name fs ++ valuesOf name gs := by
  rw [valuesOf, List.filter_append, List.map_append, ← valuesOf, ← valuesOf]

theorem valuesOf_cons (name n v : String) (fs : List Field) :
    valuesOf name ((n, v) :: fs) = if n = name then v :: valuesOf name fs else valuesOf name fs := by
  by_cases hn : n = name <;> simp [valuesOf, hn]

theorem valuesOf_map (name n : String) (vs : List String) :
    valuesOf name (vs.map (n, ·)) = if n = name then vs else [] := by
  by_cases hn : n = name <;> simp [valuesOf, List.filter_map, Function.comp_def, hn]

/-- The entry of some fields is the one whose fields they are. -/
theorem entryOf?_eq_some_iff {fs : List Field} {e : Entry} : entryOf? fs = some e ↔ fs = fieldsOf e := by
  constructor
  · intro h
    rw [entryOf?] at h
    split at h
    · rename_i hfs
      cases h
      exact hfs.symm
    · cases h
  · rintro rfl
    obtain ⟨id, owner, mnemonic, arguments, inputs, outputs⟩ := e
    cases owner <;> simp [entryOf?, fieldsOf, valuesOf_append, valuesOf_cons, valuesOf_map]

/-- The names of fields. -/
def names : List String := ["id", "owner", "mnemonic", "argument", "input", "output"]

theorem name_mem_of_mem_fieldsOf {e : Entry} {f : Field} (hf : f ∈ fieldsOf e) : f.1 ∈ names := by
  simp only [fieldsOf, List.mem_append, List.mem_cons, List.mem_map, names] at hf ⊢
  grind

theorem colon_not_mem_of_mem_names : ∀ name ∈ names, ':' ∉ name.toList := by decide

theorem newline_not_mem_of_mem_names : ∀ name ∈ names, '\n' ∉ name.toList := by decide

/-- A line that was read is one of those that what was read has. -/
theorem Tail.lines_of_readLine {t u : Tail} {l : List Char} (h : t.readLine l = some u) :
    u.lines = l :: t.lines := by
  obtain ⟨begun, es⟩ := t
  cases begun with
  | none =>
    simp only [Tail.readLine] at h
    split at h
    · rename_i hl
      cases h
      rw [hl]
      rfl
    · cases h
  | some fs =>
    simp only [Tail.readLine] at h
    split at h
    · rename_i hl
      obtain ⟨e, he, rfl⟩ := Option.map_eq_some_iff.1 h
      rw [hl, entryOf?_eq_some_iff.1 he]
      simp [Tail.lines, linesOf]
    · obtain ⟨f, hf, rfl⟩ := Option.map_eq_some_iff.1 h
      rw [(readLine_eq_some_iff.1 hf).2]
      rfl

theorem lines_of_readLines {ls : List (List Char)} {t : Tail} (h : readLines ls = some t) :
    ls = t.lines := by
  induction ls using readLines.induct generalizing t with
  | case1 => cases h
  | case2 =>
    cases h
    rfl
  | case3 l hl =>
    rw [readLines, if_neg hl] at h
    cases h
  | case4 l m ls ih =>
    rw [readLines] at h
    obtain ⟨u, hu, hl⟩ := Option.bind_eq_some_iff.1 h
    rw [Tail.lines_of_readLine hl, ih hu]

theorem readLines_cons (l : List Char) {ls : List (List Char)} (hls : ls ≠ []) :
    readLines (l :: ls) = (readLines ls).bind (·.readLine l) := by
  obtain ⟨m, ls, rfl⟩ := List.exists_cons_of_ne_nil hls
  rw [readLines]

/-- The lines of fields are read in front of the end of their block. -/
theorem readLines_fields {es : List Entry} {ls : List (List Char)} (hls : readLines ls = some ⟨none, es⟩)
    (hne : ls ≠ []) : ∀ {fs : List Field}, (∀ f ∈ fs, ':' ∉ f.1.toList) →
    readLines (fs.map lineOf ++ ['\x7d'] :: ls) = some ⟨some fs, es⟩
  | [], _ => by
    rw [List.map_nil, List.nil_append, readLines_cons _ hne, hls]
    rfl
  | f :: fs, h => by
    obtain ⟨hf, hfs⟩ := List.forall_mem_cons.1 h
    have hline : readLine (lineOf f) = some f := readLine_eq_some_iff.2 ⟨hf, rfl⟩
    have hopening : lineOf f ≠ "action \x7b".toList := by simp [lineOf]
    rw [List.map_cons, List.cons_append, readLines_cons _ (by simp), readLines_fields hls hne hfs,
      Option.bind_some, Tail.readLine]
    simp only [if_neg hopening, hline, Option.map_some]

/-- The lines of entries are read back into the entries. -/
theorem readLines_entries (es : List Entry) :
    readLines (es.flatMap linesOf ++ [[]]) = some ⟨none, es⟩ := by
  induction es with
  | nil => rfl
  | cons e es ih =>
    have hblock : readLines ((fieldsOf e).map lineOf ++ ['\x7d'] :: (es.flatMap linesOf ++ [[]])) =
        some ⟨some (fieldsOf e), es⟩ :=
      readLines_fields ih (by simp) fun f hf =>
        colon_not_mem_of_mem_names f.1 (name_mem_of_mem_fieldsOf hf)
    have hlines : (e :: es).flatMap linesOf ++ [[]] = "action \x7b".toList ::
        ((fieldsOf e).map lineOf ++ ['\x7d'] :: (es.flatMap linesOf ++ [[]])) := by
      simp [linesOf]
    rw [hlines, readLines_cons _ (by simp), hblock, Option.bind_some, Tail.readLine]
    simp [entryOf?_eq_some_iff.2 rfl]

/-- No character is written as a line end. -/
theorem newline_not_mem_escape (c : Char) : '\n' ∉ escape c := by
  unfold escape
  split
  · decide
  · decide
  · decide
  · decide
  · rename_i hc _
    exact fun hmem => hc (List.mem_singleton.1 hmem).symm

theorem newline_not_mem_linesOf {e : Entry} {l : List Char} (hl : l ∈ linesOf e) : '\n' ∉ l := by
  simp only [linesOf, List.mem_append, List.mem_cons, List.mem_map, List.not_mem_nil, or_false] at hl
  rcases hl with (rfl | ⟨f, hf, rfl⟩) | rfl
  · decide
  · have hname := newline_not_mem_of_mem_names f.1 (name_mem_of_mem_fieldsOf hf)
    simp [lineOf, quoted, hname, newline_not_mem_escape]
  · decide

theorem line_eq (f : Field) : line f.1 f.2 = lineOf f ++ ['\n'] := rfl

/-- A block is its lines, each with its end. -/
theorem block_eq_flatMap (e : Entry) : block e = (linesOf e).flatMap (· ++ ['\n']) := by
  have hopening : "action \x7b\n".toList = "action \x7b".toList ++ ['\n'] := by decide
  have hclosing : "\x7d\n".toList = ['\x7d'] ++ ['\n'] := by decide
  unfold block linesOf
  rw [hopening, hclosing]
  generalize "action \x7b".toList = opening
  simp [line_eq, List.flatMap_map]

/-- The lines of a listing are those of its entries. -/
theorem fields_render (es : List Entry) :
    Text.fields '\n' (render es).toList = es.flatMap linesOf ++ [[]] := by
  have hlines : (render es).toList = (es.flatMap linesOf).flatMap (· ++ ['\n']) := by
    rw [render, String.toList_ofList, List.flatMap_assoc]
    exact List.flatMap_congr fun e _ => block_eq_flatMap e
  rw [hlines]
  refine Text.fields_flatMap_concat fun l hl => ?_
  obtain ⟨e, -, hle⟩ := List.mem_flatMap.1 hl
  exact newline_not_mem_linesOf hle

/-- Exactly the listings are read, and each is read into the entries that it lists. -/
theorem read_eq_some_iff {text : String} {es : List Entry} : read text = some es ↔ text = render es := by
  constructor
  · intro h
    rw [read] at h
    split at h
    · rename_i es' hread
      cases h
      have hfields : Text.fields '\n' text.toList = Text.fields '\n' (render es).toList := by
        rw [lines_of_readLines hread, fields_render]
        rfl
      rw [← String.toList_inj, ← Text.join_fields '\n' text.toList, hfields, Text.join_fields]
    · cases h
  · rintro rfl
    rw [read, fields_render, readLines_entries]

/-- A listing loses nothing, whatever its values hold: its lines are those of its entries, one for each
field, and it is read back into the entries, so that no two lists of entries have one listing. -/
theorem render_lossless :
    (∀ text es, read text = some es ↔ text = render es) ∧ Function.Injective render ∧
      ∀ es, Text.fields '\n' (render es).toList = es.flatMap linesOf ++ [[]] := by
  refine ⟨fun text es => read_eq_some_iff, fun es es' h => ?_, fields_render⟩
  have hread : read (render es) = some es' := read_eq_some_iff.2 h
  rw [read_eq_some_iff.2 rfl] at hread
  exact Option.some.inj hread

end Listing

end Provenance
