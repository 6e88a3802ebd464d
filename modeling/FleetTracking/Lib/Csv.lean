import Mathlib.Data.List.Basic

/-!
# Comma-Separated Values

Records of cells, as RFC 4180 has them: a line for each record, and quotes around a cell where it
needs them, with the quotes inside doubled. The reader takes LF and CRLF for the end of a line; a CR
that no LF follows belongs to its cell. Which characters make a cell need quotes is a parameter of
the writer.

## Main results

- `read_write`: what a reader sees of written records.
- `read_write_iff`: it sees the records, unless a CR at the end of a line is taken for its ending.
-/

namespace Csv

abbrev Text := List Char

abbrev Record := List Text

/-! ## Reading -/

/-- Where in a cell the reader is. -/
inductive Mode where
  -- Nothing of the cell has been read.
  | fresh
  | plain
  -- Between quotes.
  | quoted
  -- After a quote between quotes.
  | closed
  deriving DecidableEq

/-- A character of a cell, after the beginning of the cell. -/
def Mode.take : Mode → Char → Text → Option (Mode × Text)
  | .fresh, c, cell => if c = '"' then some (.quoted, cell) else some (.plain, cell ++ [c])
  | .plain, c, cell => if c = '"' then none else some (.plain, cell ++ [c])
  | .quoted, c, cell => if c = '"' then some (.closed, cell) else some (.quoted, cell ++ [c])
  | .closed, c, cell => if c = '"' then some (.quoted, cell ++ [c]) else none

/-- The text ends. -/
def atEnd : Mode → Text → Record → Option (List Record)
  | .quoted, _, _ => none
  -- The last line has an ending, or there is none.
  | .fresh, _, [] => some []
  | _, cell, record => some [record ++ [cell]]

/-- The rest of a text, after the beginning of a cell and the cells of its record before it. -/
def readFrom (mode : Mode) (cell : Text) (record : Record) : Text → Option (List Record)
  | [] => atEnd mode cell record
  | c :: rest =>
    if mode ≠ .quoted ∧ c = ',' then readFrom .fresh [] (record ++ [cell]) rest
    else if mode ≠ .quoted ∧ c = '\n' then
      (readFrom .fresh [] [] rest).map ((record ++ [cell]) :: ·)
    -- The LF will end the line.
    else if mode ≠ .quoted ∧ c = '\r' ∧ rest.head? = some '\n' then
      readFrom mode cell record rest
    else
      match mode.take c cell with
      | some (mode, cell) => readFrom mode cell record rest
      | none => none

/-- The records of a text, if it is well formed. -/
def read (text : Text) : Option (List Record) := readFrom .fresh [] [] text

/-! ## Writing -/

section Writing

variable (special : Char → Bool)

def writeCell (t : Text) : Text :=
  if t.any special then
    '"' :: t.flatMap (fun c => if c = '"' then ['"', '"'] else [c]) ++ ['"']
  else t

def writeRecord (record : Record) : Text := [','].intercalate (record.map (writeCell special))

def write (records : List Record) : Text :=
  ['\n'].intercalate (records.map (writeRecord special))

/-- Every character that means something to a reader outside quotes gets them. -/
structure Covers : Prop where
  comma : special ',' = true
  newline : special '\n' = true
  quote : special '"' = true

/-- The cell has a CR at its end, and no quotes. -/
def Swallowed (t : Text) : Prop := t.any special = false ∧ t.getLast? = some '\r'

instance (t : Text) : Decidable (Swallowed special t) :=
  inferInstanceAs (Decidable (_ ∧ _))

/-- What a reader sees of a cell at the end of a line. -/
def seenCell (t : Text) : Text := if Swallowed special t then t.dropLast else t

/-- What it sees of a record. -/
def seenRecord : Record → Record
  | [] => []
  | [t] => [seenCell special t]
  | t :: u :: record => t :: seenRecord (u :: record)

/-- What it sees of all records: the last one has no line ending. -/
def seen : List Record → List Record
  | [] => []
  | [record] => [record]
  | record :: next :: records => seenRecord special record :: seen (next :: records)

end Writing

/-! ## Cells -/

section Cells

variable {special : Char → Bool} {mode : Mode} {cell t rest : Text} {record : Record}

/-- A comma ends a cell. -/
theorem readFrom_comma (hmode : mode ≠ .quoted) :
    readFrom mode cell record (',' :: rest) = readFrom .fresh [] (record ++ [cell]) rest := by
  simp [readFrom, hmode]

/-- A LF ends a record. -/
theorem readFrom_newline (hmode : mode ≠ .quoted) : readFrom mode cell record ('\n' :: rest) =
    (readFrom .fresh [] [] rest).map ((record ++ [cell]) :: ·) := by
  simp [readFrom, hmode]

/-- A CR before a LF is passed over. -/
theorem readFrom_return (hmode : mode ≠ .quoted) (hrest : rest.head? = some '\n') :
    readFrom mode cell record ('\r' :: rest) = readFrom mode cell record rest := by
  simp [readFrom, hmode, hrest]

/-- A character that is nothing but itself. -/
theorem readFrom_char {c : Char} (hmode : mode = .fresh ∨ mode = .plain) (hcomma : c ≠ ',')
    (hnewline : c ≠ '\n') (hquote : c ≠ '"') (hrest : c = '\r' → rest.head? ≠ some '\n') :
    readFrom mode cell record (c :: rest) = readFrom .plain (cell ++ [c]) record rest := by
  have hreturn : ¬ (c = '\r' ∧ rest.head? = some '\n') := fun h => hrest h.1 h.2
  rcases hmode with rfl | rfl
  · simp [readFrom, Mode.take, hcomma, hnewline, hreturn, hquote]
  · simp [readFrom, Mode.take, hcomma, hnewline, hreturn, hquote]

/-- Text without quotes is what it is, as long as no CR at its end meets a LF. -/
theorem readFrom_plain (hmode : mode = .fresh ∨ mode = .plain) (hne : t ≠ []) (hcomma : ',' ∉ t)
    (hnewline : '\n' ∉ t) (hquote : '"' ∉ t)
    (hrest : t.getLast? = some '\r' → rest.head? ≠ some '\n') :
    readFrom mode cell record (t ++ rest) = readFrom .plain (cell ++ t) record rest := by
  induction t generalizing mode cell with
  | nil => exact absurd rfl hne
  | cons c t ih =>
    rw [List.mem_cons, not_or] at hcomma hnewline hquote
    have hchar : (c = '\r' → (t ++ rest).head? ≠ some '\n') →
        readFrom mode cell record (c :: (t ++ rest)) =
          readFrom .plain (cell ++ [c]) record (t ++ rest) :=
      readFrom_char hmode (Ne.symm hcomma.1) (Ne.symm hnewline.1) (Ne.symm hquote.1)
    cases t with
    -- only here the character may be a CR at the end
    | nil => exact hchar fun hc => hrest (by rw [hc]; rfl)
    | cons d t =>
      have hnext : ((d :: t) ++ rest).head? ≠ some '\n' := by
        intro hd
        cases Option.some.inj hd
        exact hnewline.2 List.mem_cons_self
      rw [List.cons_append, hchar fun _ => hnext, ih (Or.inr rfl) (List.cons_ne_nil d t) hcomma.2
        hnewline.2 hquote.2 fun hlast => hrest (by rw [List.getLast?_cons_cons]; exact hlast),
        List.append_assoc]
      rfl

/-- The text between quotes. -/
theorem readFrom_quoted (t : Text) : readFrom .quoted cell record
    (t.flatMap (fun c => if c = '"' then ['"', '"'] else [c]) ++ '"' :: rest) =
      readFrom .closed (cell ++ t) record rest := by
  induction t generalizing cell with
  | nil => simp [readFrom, Mode.take]
  | cons c t ih =>
    rw [List.flatMap_cons, List.append_assoc]
    have hstep := @ih (cell ++ [c])
    by_cases hc : c = '"'
    · subst hc
      simpa [readFrom, Mode.take] using hstep
    · simpa [readFrom, Mode.take, hc] using hstep

/-- Characters that get no quotes. -/
theorem Covers.not_mem (h : Covers special) (ht : t.any special = false) :
    ',' ∉ t ∧ '\n' ∉ t ∧ '"' ∉ t := by
  rw [List.any_eq_false] at ht
  exact ⟨fun hc => ht _ hc h.comma, fun hc => ht _ hc h.newline, fun hc => ht _ hc h.quote⟩

/-- A cell without quotes, from its beginning. -/
theorem readFrom_bare (h : Covers special) (ht : t.any special = false)
    (hrest : t.getLast? = some '\r' → rest.head? ≠ some '\n') (record : Record) :
    ∃ mode, mode ≠ .quoted ∧ (mode = .fresh → t = []) ∧
      readFrom .fresh [] record (t ++ rest) = readFrom mode t record rest := by
  obtain ⟨hcomma, hnewline, hquote⟩ := h.not_mem ht
  by_cases hne : t = []
  · subst hne
    exact ⟨.fresh, by decide, fun _ => rfl, rfl⟩
  · exact ⟨.plain, by decide, fun hmode => (by cases hmode),
      readFrom_plain (Or.inl rfl) hne hcomma hnewline hquote hrest⟩

/-- A written cell is read as it is, unless a CR at its end meets a LF. -/
theorem readFrom_cell (h : Covers special)
    (hrest : Swallowed special t → rest.head? ≠ some '\n') (record : Record) :
    ∃ mode, mode ≠ .quoted ∧ (mode = .fresh → t = []) ∧
      readFrom .fresh [] record (writeCell special t ++ rest) = readFrom mode t record rest := by
  unfold writeCell
  split
  case isTrue =>
    refine ⟨.closed, by decide, fun hmode => (by cases hmode), ?_⟩
    have hopen : ∀ text, readFrom .fresh [] record ('"' :: text) =
        readFrom .quoted [] record text := by
      intro text
      simp [readFrom, Mode.take]
    rw [List.cons_append, List.cons_append, hopen, List.append_assoc]
    exact readFrom_quoted t
  case isFalse hplain =>
    have hbare := Bool.not_eq_true _ ▸ hplain
    exact readFrom_bare h hbare (fun hlast => hrest ⟨hbare, hlast⟩) record

/-- A CR at the end of a cell without quotes is lost at the end of a line. -/
theorem readFrom_swallowed (h : Covers special) (ht : Swallowed special t)
    (hrest : rest.head? = some '\n') (record : Record) : ∃ mode, mode ≠ .quoted ∧
      readFrom .fresh [] record (writeCell special t ++ rest) =
        readFrom mode t.dropLast record rest := by
  obtain ⟨hbare, hlast⟩ := ht
  -- the cell up to the CR, which is then read before the LF
  obtain ⟨u, rfl⟩ := List.getLast?_eq_some_iff.mp hlast
  have hu : u.any special = false := by
    rw [List.any_append, Bool.or_eq_false_iff] at hbare
    exact hbare.1
  have hreturn : u.getLast? = some '\r' → ('\r' :: rest).head? ≠ some '\n' := by
    intro _ hhead
    cases Option.some.inj hhead
  obtain ⟨mode, hmode, -, hread⟩ := readFrom_bare h hu hreturn record
  refine ⟨mode, hmode, ?_⟩
  rw [writeCell, hbare, if_neg Bool.false_ne_true, List.append_assoc, List.dropLast_concat]
  exact hread.trans (readFrom_return hmode hrest)

end Cells

/-! ## Records -/

section Records

variable {special : Char → Bool} {rest : Text} {record cells : Record}

theorem writeRecord_cons (t u : Text) (cells : Record) : writeRecord special (t :: u :: cells) =
    writeCell special t ++ ',' :: writeRecord special (u :: cells) := by
  simp [writeRecord, List.intercalate_cons_cons]

/-- **A record with its line ending.** The induction is on its cells. -/
theorem readFrom_record (h : Covers special) (hne : cells ≠ []) :
    readFrom .fresh [] record (writeRecord special cells ++ '\n' :: rest) =
      (readFrom .fresh [] [] rest).map ((record ++ seenRecord special cells) :: ·) := by
  induction cells generalizing record with
  | nil => exact absurd rfl hne
  | cons t cells ih =>
    cases cells with
    | nil =>
      rw [writeRecord, List.map_singleton, List.intercalate_singleton, seenRecord, seenCell]
      split
      case isTrue ht =>
        -- the last cell stands before the newline, where a trailing carriage return is swallowed
        have hnewline : ('\n' :: rest).head? = some '\n' := rfl
        obtain ⟨mode, hmode, hread⟩ := readFrom_swallowed h ht hnewline record
        rw [hread, readFrom_newline hmode]
      case isFalse ht =>
        obtain ⟨mode, hmode, -, hread⟩ :=
          readFrom_cell h (fun hswallowed => absurd hswallowed ht) record
        rw [hread, readFrom_newline hmode]
    | cons u cells =>
      -- any other cell stands before a comma
      have hcomma : Swallowed special t →
          (',' :: (writeRecord special (u :: cells) ++ '\n' :: rest)).head? ≠ some '\n' := by
        intro _ hhead
        cases Option.some.inj hhead
      obtain ⟨mode, hmode, -, hread⟩ := readFrom_cell h hcomma record
      rw [writeRecord_cons, List.append_assoc, List.cons_append, hread, readFrom_comma hmode,
        ih (List.cons_ne_nil u cells), seenRecord, List.append_assoc]
      rfl

/-- **The last record.** One that is a single empty cell is not seen. -/
theorem readFrom_last (h : Covers special) (hne : cells ≠ []) (hseen : record ≠ [] ∨ cells ≠ [[]]) :
    readFrom .fresh [] record (writeRecord special cells) = some [record ++ cells] := by
  induction cells generalizing record with
  | nil => exact absurd rfl hne
  | cons t cells ih =>
    cases cells with
    | nil =>
      have hnil : Swallowed special t → ([] : Text).head? ≠ some '\n' := fun _ hhead =>
        nomatch hhead
      obtain ⟨mode, hmode, hfresh, hread⟩ := readFrom_cell h hnil record
      rw [List.append_nil] at hread
      rw [writeRecord, List.map_singleton, List.intercalate_singleton, hread, readFrom]
      cases mode with
      | quoted => exact absurd rfl hmode
      | plain => rfl
      | closed => rfl
      | fresh =>
        -- nothing was read of the cell: the line does not look like none if there is a cell before
        obtain rfl := hfresh rfl
        cases record with
        | nil => exact absurd hseen (by simp)
        | cons v record => rfl
    | cons u cells =>
      have hcomma : Swallowed special t →
          (',' :: writeRecord special (u :: cells)).head? ≠ some '\n' := by
        intro _ hhead
        cases Option.some.inj hhead
      obtain ⟨mode, hmode, -, hread⟩ := readFrom_cell h hcomma record
      rw [writeRecord_cons, hread, readFrom_comma hmode,
        ih (List.cons_ne_nil u cells) (Or.inl (by simp)), List.append_assoc]
      rfl

/-- **What a reader sees of written records.** -/
theorem read_write (h : Covers special) {records : List Record} (hne : ∀ r ∈ records, r ≠ [])
    (hlast : ∀ r ∈ records.getLast?, r ≠ [[]]) :
    read (write special records) = some (seen special records) := by
  unfold read
  induction records with
  | nil => rfl
  | cons r records ih =>
    have hr := hne r List.mem_cons_self
    cases records with
    | nil =>
      rw [write, List.map_singleton, List.intercalate_singleton,
        readFrom_last h hr (Or.inr (hlast r rfl))]
      rfl
    | cons next records =>
      have hrest := ih (fun s hs => hne s (List.mem_cons_of_mem r hs))
        (fun s hs => hlast s (by rw [List.getLast?_cons_cons]; exact hs))
      have hwrite : write special (r :: next :: records) =
          writeRecord special r ++ '\n' :: write special (next :: records) := by
        simp [write, List.intercalate_cons_cons]
      rw [hwrite, readFrom_record h hr, hrest]
      rfl

end Records

/-! ## When it is all there -/

section RoundTrip

variable {special : Char → Bool}

theorem seenCell_eq_self {t : Text} : seenCell special t = t ↔ ¬ Swallowed special t := by
  unfold seenCell
  split
  case isTrue ht =>
    have hne : t ≠ [] := by
      rintro rfl
      exact nomatch ht.2
    have hshort : t.dropLast ≠ t := by
      intro heq
      have hlength := congrArg List.length heq
      rw [List.length_dropLast] at hlength
      have hpos := List.length_pos_iff.mpr hne
      omega
    exact iff_of_false hshort (not_not_intro ht)
  case isFalse ht => exact iff_of_true rfl ht

theorem seenRecord_eq_self {record : Record} :
    seenRecord special record = record ↔ ∀ t ∈ record.getLast?, ¬ Swallowed special t := by
  induction record with
  | nil => simp [seenRecord]
  | cons t record ih =>
    cases record with
    | nil => simp [seenRecord, seenCell_eq_self]
    | cons u record =>
      rw [seenRecord, List.cons.injEq, List.getLast?_cons_cons]
      exact (and_iff_right rfl).trans ih

theorem seen_eq_self {records : List Record} : seen special records = records ↔
    ∀ r ∈ records.dropLast, ∀ t ∈ r.getLast?, ¬ Swallowed special t := by
  induction records with
  | nil => simp [seen]
  | cons r records ih =>
    cases records with
    | nil => simp [seen]
    | cons next records =>
      rw [seen, List.cons.injEq, ih, seenRecord_eq_self, List.dropLast_cons_cons,
        List.forall_mem_cons]

/-- **When a reader sees the records.** Exactly if no line but the last one ends with a cell that
has a CR at its end and no quotes. -/
theorem read_write_iff (h : Covers special) {records : List Record} (hne : ∀ r ∈ records, r ≠ [])
    (hlast : ∀ r ∈ records.getLast?, r ≠ [[]]) :
    read (write special records) = some records ↔
      ∀ r ∈ records.dropLast, ∀ t ∈ r.getLast?, ¬ Swallowed special t := by
  rw [read_write h hne hlast, Option.some_inj]
  exact seen_eq_self

end RoundTrip

end Csv
