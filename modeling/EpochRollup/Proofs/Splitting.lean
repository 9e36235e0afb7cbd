/-
This file proves that splitting a schema into statements loses and invents nothing. A schema made
of two parts has the statements of both, the statements have the lines of code of the schema in
their order, and statements that are joined again split into themselves.

Trimming a piece takes blanks from its two ends. These are whole lines without code, or the blanks
at the end of a line that stays, and a line is trimmed before it is read. So a trimmed piece has
the lines of code of the piece (`codeLines_trimBlank`), a piece is dropped only when it has none,
and a piece that was kept once is kept as it is when it is split again.
-/

import EpochRollup.Sql.Schema
import Mathlib.Data.List.DropRight

namespace EpochRollup

/-! ### Pieces -/

theorem pieces_eq_splitOn (separator : Char) (text : List Char) :
    pieces separator text = text.splitOn separator := by
  induction text with
  | nil => rfl
  | cons character rest inductionHypothesis =>
    obtain ⟨piece, more, split⟩ := List.exists_cons_of_ne_nil (List.splitOn_ne_nil separator rest)
    rw [pieces, inductionHypothesis, List.splitOn_cons_eq_if_modifyHead, split]
    simp only [beq_iff_eq, List.modifyHead_cons]

/-- The separator stands between the pieces and in none of them. -/
theorem not_mem_of_mem_splitOn {separator : Char} {text piece : List Char}
    (member : piece ∈ text.splitOn separator) : separator ∉ piece := by
  induction text generalizing piece with
  | nil =>
    rw [List.mem_singleton.mp member]
    exact List.not_mem_nil
  | cons character rest inductionHypothesis =>
    rw [List.splitOn_cons_eq_if_modifyHead] at member
    split at member
    case isTrue =>
      rcases List.mem_cons.mp member with rfl | member
      · exact List.not_mem_nil
      · exact inductionHypothesis member
    case isFalse other =>
      obtain ⟨first, more, split⟩ :=
        List.exists_cons_of_ne_nil (List.splitOn_ne_nil separator rest)
      rw [split] at member inductionHypothesis
      rcases List.mem_cons.mp member with rfl | member
      · rw [List.mem_cons, not_or]
        exact ⟨fun same => other (beq_iff_eq.mpr same.symm),
          inductionHypothesis List.mem_cons_self⟩
      · exact inductionHypothesis (List.mem_cons_of_mem _ member)

/-! ### Trimming -/

theorem trimBlank_eq_rdropWhile (text : List Char) :
    trimBlank text = (text.dropWhile isBlank).rdropWhile isBlank := rfl

theorem trimBlank_cons {character : Char} (blank : isBlank character = true) (text : List Char) :
    trimBlank (character :: text) = trimBlank text := by
  rw [trimBlank, List.dropWhile_cons_of_pos blank, trimBlank]

theorem trimBlank_concat {character : Char} (blank : isBlank character = true)
    (text : List Char) : trimBlank (text ++ [character]) = trimBlank text := by
  rw [trimBlank_eq_rdropWhile, trimBlank_eq_rdropWhile, List.dropWhile_append]
  split
  case isTrue nothing =>
    rw [List.isEmpty_iff.mp nothing, List.dropWhile_cons_of_pos blank, List.dropWhile_nil]
  case isFalse => exact List.rdropWhile_concat_pos isBlank _ _ blank

/-- Nothing but what was there is left. -/
theorem trimBlank_sublist (text : List Char) : (trimBlank text).Sublist text :=
  (List.rdropWhile_prefix isBlank (text.dropWhile isBlank)).sublist.trans
    (List.dropWhile_sublist isBlank)

/-- A trimmed text does not begin with a blank. -/
theorem isBlank_head?_trimBlank {text : List Char} {first : Char}
    (begins : first ∈ (trimBlank text).head?) : isBlank first = false := by
  obtain ⟨rest, split⟩ := List.rdropWhile_prefix isBlank (text.dropWhile isBlank)
  rw [← trimBlank_eq_rdropWhile] at split
  have found : (text.dropWhile isBlank).head? = some first := by
    rw [← split, List.head?_append, Option.mem_def.mp begins, Option.some_or]
  have kept := List.head?_dropWhile_not isBlank text
  rw [found] at kept
  exact kept

/-- A trimmed text does not end in a blank. -/
theorem isBlank_getLast?_trimBlank {text : List Char} {last : Char}
    (ends : last ∈ (trimBlank text).getLast?) : isBlank last = false := by
  obtain ⟨nonempty, rfl⟩ := List.mem_getLast?_eq_getLast ends
  exact Bool.eq_false_iff.mpr (List.rdropWhile_last_not isBlank _ nonempty)

/-- A text without blanks at its ends is trimmed. -/
theorem trimBlank_eq_self {text : List Char}
    (begins : ∀ first ∈ text.head?, isBlank first = false)
    (ends : ∀ last ∈ text.getLast?, isBlank last = false) : trimBlank text = text := by
  have front : text.dropWhile isBlank = text := by
    cases text with
    | nil => rfl
    | cons first rest =>
      exact List.dropWhile_cons_of_neg (Bool.eq_false_iff.mp (begins first rfl))
  rw [trimBlank_eq_rdropWhile, front, List.rdropWhile_eq_self_iff]
  intro nonempty
  exact Bool.eq_false_iff.mp (ends _ (List.getLast?_eq_some_getLast nonempty))

/-! ### Lines -/

/-- A line without the carriage return that belongs to its end. -/
def withoutReturn (line : List Char) : List Char :=
  if line.getLast? = some '\r' then line.dropLast else line

/-- The lines of a text. A newline ends a line, together with a carriage return that stands before
it, and what follows the last newline is a line when there is anything. -/
def textLines (text : List Char) : List (List Char) :=
  let ended := (text.splitOn '\n').dropLast
  let last := (text.splitOn '\n').getLast?
  ended.map withoutReturn ++ last.toList.filter (· ≠ [])

/-- A trimmed line is code when it is not empty and no remark. -/
def IsCode (line : List Char) : Prop := line ≠ [] ∧ ¬['-', '-'] <+: line

instance : DecidablePred IsCode := fun line =>
  inferInstanceAs (Decidable (line ≠ [] ∧ ¬['-', '-'] <+: line))

/-- The lines of code of a text, without the blanks at their ends. -/
def codeLines (text : List Char) : List (List Char) :=
  ((textLines text).map fun line => (line.dropWhile isBlank).rdropWhile isBlank).filter (IsCode ·)

theorem trimBlank_withoutReturn (line : List Char) :
    trimBlank (withoutReturn line) = trimBlank line := by
  unfold withoutReturn
  split
  case isTrue returned =>
    obtain ⟨start, rfl⟩ := List.getLast?_eq_some_iff.mp returned
    rw [List.dropLast_concat, trimBlank_concat (by decide)]
  case isFalse => rfl

/-- It makes no difference whether a last line without characters counts. -/
theorem filter_isCode_last (line : List Char) :
    ((List.filter (· ≠ []) [line]).map trimBlank).filter (IsCode ·) =
      [trimBlank line].filter (IsCode ·) := by
  cases line with
  | nil => rfl
  | cons => rfl

/-- How lines end makes no difference to the code: the carriage return is a blank at the end of
its line, and a line without characters is no code. -/
theorem codeLines_eq (text : List Char) :
    codeLines text = ((text.splitOn '\n').map trimBlank).filter (IsCode ·) := by
  have nonempty := List.splitOn_ne_nil '\n' text
  have trimmed : trimBlank ∘ withoutReturn = trimBlank := funext trimBlank_withoutReturn
  have ends := List.getLast?_eq_some_getLast nonempty
  calc codeLines text
      = ((textLines text).map trimBlank).filter (IsCode ·) := rfl
    _ = ((text.splitOn '\n').dropLast.map trimBlank).filter (IsCode ·) ++
          [trimBlank ((text.splitOn '\n').getLast nonempty)].filter (IsCode ·) := by
        rw [textLines, ends, List.map_append, List.map_map, trimmed, List.filter_append,
          Option.toList_some, filter_isCode_last]
    _ = ((text.splitOn '\n').map trimBlank).filter (IsCode ·) := by
        rw [← List.filter_append, ← List.map_singleton, ← List.map_append,
          List.dropLast_concat_getLast]

example : codeLines " a\r\n --b\n\r\nc--\r\n".toList = [['a'], ['c', '-', '-']] := by decide +kernel

theorem codeLines_append_newline (first second : List Char) :
    codeLines (first ++ '\n' :: second) = codeLines first ++ codeLines second := by
  rw [codeLines_eq, codeLines_eq, codeLines_eq, List.splitOn_append_cons_self, List.map_append,
    List.filter_append]

theorem codeLines_of_line {line : List Char} (single : '\n' ∉ line) :
    codeLines line = [trimBlank line].filter (IsCode ·) := by
  rw [codeLines_eq, List.splitOn_eq_singleton single, List.map_singleton]

/-- A text is one line, or a line in front of the newline that ends it and the rest. -/
@[elab_as_elim]
theorem line_induction {motive : List Char → Prop}
    (line : ∀ text, '\n' ∉ text → motive text)
    (lines : ∀ first rest, '\n' ∉ first → motive rest → motive (first ++ '\n' :: rest))
    (text : List Char) : motive text := by
  by_cases ended : '\n' ∈ text
  · obtain ⟨first, rest, split, single⟩ := List.eq_append_cons_of_mem ended
    have shorter : rest.length < text.length := by
      rw [split, List.length_append, List.length_cons]
      omega
    rw [split]
    exact lines first rest single (line_induction line lines rest)
  · exact line text ended
termination_by text.length

/-- A blank in front of a text is a line without characters or in front of the first line. -/
theorem codeLines_cons {character : Char} (blank : isBlank character = true)
    (text : List Char) : codeLines (character :: text) = codeLines text := by
  by_cases newline : character = '\n'
  · rw [newline]
    exact codeLines_append_newline [] text
  · -- any other blank joins the first line and is trimmed off it
    have single {first : List Char} (none : '\n' ∉ first) : '\n' ∉ character :: first := by
      rw [List.mem_cons, not_or]
      exact ⟨Ne.symm newline, none⟩
    have atFirst {first : List Char} (none : '\n' ∉ first) :
        codeLines (character :: first) = codeLines first := by
      rw [codeLines_of_line (single none), codeLines_of_line none, trimBlank_cons blank]
    induction text using line_induction with
    | line text none => exact atFirst none
    | lines first rest none =>
      rw [← List.cons_append, codeLines_append_newline, codeLines_append_newline, atFirst none]

/-- A blank behind a text is the end of its last line or behind it. -/
theorem codeLines_concat {character : Char} (blank : isBlank character = true)
    (text : List Char) : codeLines (text ++ [character]) = codeLines text := by
  by_cases newline : character = '\n'
  · rw [newline, codeLines_append_newline]
    exact List.append_nil _
  · -- the lines in front of the last one stay as they are, so the walk over them ends at a text of
    -- one line, and there the blank is trimmed off
    induction text using line_induction with
    | line text none =>
      have single : '\n' ∉ text ++ [character] := by
        rw [List.mem_append, List.mem_singleton, not_or]
        exact ⟨none, Ne.symm newline⟩
      rw [codeLines_of_line single, codeLines_of_line none, trimBlank_concat blank]
    | lines first rest none inductionHypothesis =>
      rw [List.append_assoc, List.cons_append, codeLines_append_newline,
        codeLines_append_newline, inductionHypothesis]

/-- Trimming a text takes no code from it. -/
theorem codeLines_trimBlank (text : List Char) : codeLines (trimBlank text) = codeLines text := by
  have front (text : List Char) : codeLines (text.dropWhile isBlank) = codeLines text := by
    induction text with
    | nil => rfl
    | cons first rest inductionHypothesis =>
      by_cases blank : isBlank first = true
      · rw [List.dropWhile_cons_of_pos blank, inductionHypothesis, codeLines_cons blank]
      · rw [List.dropWhile_cons_of_neg blank]
  have back (text : List Char) : codeLines (text.rdropWhile isBlank) = codeLines text := by
    induction text using List.reverseRecOn with
    | nil => rfl
    | append_singleton rest last inductionHypothesis =>
      by_cases blank : isBlank last = true
      · rw [List.rdropWhile_concat_pos isBlank _ _ blank, inductionHypothesis,
          codeLines_concat blank]
      · rw [List.rdropWhile_concat_neg isBlank _ _ blank]
  rw [trimBlank_eq_rdropWhile, back, front]

/-! ### Statements -/

theorem isStatementLine_iff (line : List Char) :
    isStatementLine line = true ↔ IsCode (trimBlank line) := by
  have mark : "--".toList = ['-', '-'] := rfl
  simp [isStatementLine, IsCode, mark, ← List.isPrefixOf_iff_prefix]

/-- Some line of a text is a line of a statement exactly when the text has code. -/
theorem any_isStatementLine_iff (text : List Char) :
    (pieces '\n' text).any isStatementLine = true ↔ codeLines text ≠ [] := by
  rw [codeLines_eq, pieces_eq_splitOn, List.any_eq_true]
  simp [isStatementLine_iff]

/-- The statement of a piece with code is the piece without the blanks at its ends. -/
theorem statementOfPiece?_of_code {piece : List Char} (code : codeLines piece ≠ []) :
    statementOfPiece? piece = some (String.ofList (trimBlank piece)) := by
  rw [← codeLines_trimBlank] at code
  exact if_pos ((any_isStatementLine_iff _).mpr code)

theorem statementOfPiece?_of_no_code {piece : List Char} (silent : codeLines piece = []) :
    statementOfPiece? piece = none := by
  rw [← codeLines_trimBlank] at silent
  exact if_neg fun code => (any_isStatementLine_iff _).mp code silent

/-- No code is lost with the blanks around a piece or with a piece that is dropped. -/
theorem codeLines_statementOfPiece? (piece : List Char) :
    (statementOfPiece? piece).toList.flatMap (fun statement => codeLines statement.toList) =
      codeLines piece := by
  by_cases silent : codeLines piece = []
  · rw [statementOfPiece?_of_no_code silent, silent]
    rfl
  · rw [statementOfPiece?_of_code silent, Option.toList_some, List.flatMap_singleton,
      String.toList_ofList, codeLines_trimBlank]

/-- What a statement of a schema is: a text with code that is not to be split again and has no
blanks at its ends. -/
structure IsSchemaStatement (statement : String) : Prop where
  /-- No separator is left. -/
  unseparated : ';' ∉ statement.toList
  /-- It does not begin with a blank. -/
  begins : ∀ first ∈ statement.toList.head?, isBlank first = false
  /-- It does not end in a blank. -/
  ends : ∀ last ∈ statement.toList.getLast?, isBlank last = false
  /-- It has code. -/
  code : codeLines statement.toList ≠ []

/-- A statement is the statement of its own text. -/
theorem IsSchemaStatement.statementOfPiece? {statement : String}
    (isStatement : IsSchemaStatement statement) :
    EpochRollup.statementOfPiece? statement.toList = some statement := by
  rw [statementOfPiece?_of_code isStatement.code,
    trimBlank_eq_self isStatement.begins isStatement.ends, String.ofList_toList]

theorem schemaStatements_eq (schema : String) :
    schemaStatements schema = (schema.toList.splitOn ';').filterMap statementOfPiece? := by
  rw [schemaStatements, pieces_eq_splitOn]

theorem isStatement_of_mem {schema statement : String}
    (member : statement ∈ schemaStatements schema) : IsSchemaStatement statement := by
  rw [schemaStatements_eq] at member
  obtain ⟨piece, isPiece, found⟩ := List.mem_filterMap.mp member
  by_cases silent : codeLines piece = []
  · rw [statementOfPiece?_of_no_code silent] at found
    cases found
  · rw [statementOfPiece?_of_code silent] at found
    obtain rfl := Option.some.inj found
    have text : (String.ofList (trimBlank piece)).toList = trimBlank piece := String.toList_ofList
    constructor
    case unseparated =>
      rw [text]
      exact fun mark => not_mem_of_mem_splitOn isPiece ((trimBlank_sublist piece).mem mark)
    case begins =>
      rw [text]
      exact fun _ => isBlank_head?_trimBlank
    case ends =>
      rw [text]
      exact fun _ => isBlank_getLast?_trimBlank
    case code => rwa [text, codeLines_trimBlank]

theorem schemaStatements_append (first second : String) :
    schemaStatements (first ++ ";" ++ second) =
      schemaStatements first ++ schemaStatements second := by
  have mark : ";".toList = [';'] := rfl
  rw [schemaStatements_eq, schemaStatements_eq, schemaStatements_eq, String.toList_append,
    String.toList_append, mark, List.append_assoc, List.singleton_append,
    List.splitOn_append_cons_self, List.filterMap_append]

theorem codeLines_schemaStatements (schema : String) :
    (schemaStatements schema).flatMap (fun statement => codeLines statement.toList) =
      (schema.toList.splitOn ';').flatMap codeLines := by
  rw [schemaStatements_eq, List.filterMap_eq_flatMap_toList, List.flatMap_assoc]
  exact congrArg (List.flatMap · _) (funext codeLines_statementOfPiece?)

/-- Statements that are joined split into themselves. -/
theorem schemaStatements_intercalate {statements : List String}
    (each : ∀ statement ∈ statements, IsSchemaStatement statement) :
    schemaStatements (";".intercalate statements) = statements := by
  -- no statements at all join to the empty text, and its only piece is dropped
  by_cases none : statements = []
  · rw [none]
    rfl
  · have mark : ";".toList = [';'] := rfl
    have unseparated : ∀ text ∈ statements.map String.toList, ';' ∉ text :=
      List.forall_mem_map.mpr fun statement member => (each statement member).unseparated
    have nonempty : statements.map String.toList ≠ [] := mt List.map_eq_nil_iff.mp none
    calc schemaStatements (";".intercalate statements)
        = (statements.map String.toList).filterMap statementOfPiece? := by
          rw [schemaStatements_eq, String.toList_intercalate, mark,
            List.splitOn_intercalate ';' unseparated nonempty]
      _ = statements.filterMap fun statement => statementOfPiece? statement.toList :=
          List.filterMap_map
      _ = statements.filterMap some :=
          List.filterMap_congr fun statement member => (each statement member).statementOfPiece?
      _ = statements := List.filterMap_some

/-- Splitting a schema into statements loses and invents nothing. -/
theorem schemaStatements_lossless :
    (∀ first second : String, schemaStatements (first ++ ";" ++ second) =
        schemaStatements first ++ schemaStatements second) ∧
      ∀ schema : String,
        (∀ statement ∈ schemaStatements schema, IsSchemaStatement statement) ∧
        (schemaStatements schema).flatMap (fun statement => codeLines statement.toList) =
          (schema.toList.splitOn ';').flatMap codeLines ∧
        schemaStatements (";".intercalate (schemaStatements schema)) =
          schemaStatements schema :=
  ⟨schemaStatements_append, fun schema =>
    ⟨fun _ => isStatement_of_mem, codeLines_schemaStatements schema,
      schemaStatements_intercalate fun _ => isStatement_of_mem⟩⟩

/-- A table behind a remark of its own, with carriage returns at the ends of the lines, between
pieces that hold no statement. -/
theorem schemaStatements_lossless_of_table :
    "-- a\r\nCREATE TABLE a (id INT)" ∈
        schemaStatements "-- header\r\n;\r\n-- a\r\nCREATE TABLE a (id INT);\r\n ;-- tail" ∧
      IsSchemaStatement "-- a\r\nCREATE TABLE a (id INT)" := by
  have member : "-- a\r\nCREATE TABLE a (id INT)" ∈
      schemaStatements "-- header\r\n;\r\n-- a\r\nCREATE TABLE a (id INT);\r\n ;-- tail" := by
    decide +kernel
  exact ⟨member, (schemaStatements_lossless.2 _).1 _ member⟩

end EpochRollup
