/-
This file proves that what is written in JSON is read back, on one line or with an item a line.
Documents with fractions are left out, and so are integers that no word holds; of a plain document
the reader gives exactly what was written (`Json.read?_write`).

The reader counts down fuel. A value takes no more fuel than it has characters, because every
value, item and field is at least one character and whatever is inside it comes after that one.
-/

import EpochRollup.Document.Json
import EpochRollup.Proofs.Numeral

namespace EpochRollup

/-! ### Readers -/

namespace TextReader

@[simp]
theorem peek_run (character : Char) (rest : List Char) :
    peek.run (character :: rest) = some (character, character :: rest) := rfl

@[simp]
theorem next_run (character : Char) (rest : List Char) :
    next.run (character :: rest) = some (character, rest) := rfl

/-- Characters of a class are taken up to the first that is not of it. -/
theorem takeWhile_run {belongs : Char → Bool} {taken rest : List Char}
    (all : ∀ character ∈ taken, belongs character = true)
    (stops : ∀ character ∈ rest.head?, belongs character = false) :
    (takeWhile belongs).run (taken ++ rest) = some (taken, rest) := by
  have none : rest.takeWhile belongs = [] ∧ rest.dropWhile belongs = rest := by
    cases rest with
    | nil => exact ⟨rfl, rfl⟩
    | cons character rest =>
      have outside : ¬belongs character = true := by simp [stops character rfl]
      exact ⟨List.takeWhile_cons_of_neg outside, List.dropWhile_cons_of_neg outside⟩
  have isTaken : (taken ++ rest).takeWhile belongs = taken := by
    rw [List.takeWhile_append_of_pos all, none.1, List.append_nil]
  have isLeft : (taken ++ rest).dropWhile belongs = rest := by
    rw [List.dropWhile_append_of_pos all, none.2]
  simp [takeWhile, isTaken, isLeft]

theorem expect_run (wanted : String) (rest : List Char) :
    (expect wanted).run (wanted.toList ++ rest) = some ((), rest) := by
  have isLeft : (wanted.toList ++ rest).drop wanted.length = rest := by
    rw [← String.length_toList, List.drop_left]
  simp [expect, isLeft]

theorem takeExactly_run (taken rest : List Char) :
    (takeExactly taken.length).run (taken ++ rest) = some (taken, rest) := by
  have enough : ¬(taken ++ rest).length < taken.length := by simp
  simp only [takeExactly, StateT.run_bind, StateT.run_get, Option.pure_def, Option.bind_eq_bind,
    Option.bind_some, if_neg enough]
  simp

section Quoted

variable {other : Char → TextReader Char} {isBarred : Char → Bool} {character : Char}
  {text rest : List Char}

theorem escaped_of_letter {letter : Char} (isLetter : letterEscape? letter = some character) :
    (escaped other).run (letter :: rest) = some (character, rest) := by
  simp [escaped, isLetter]

theorem escaped_of_other {letter : Char} (isOther : letterEscape? letter = none) :
    (escaped other).run (letter :: rest) = (other letter).run rest := by
  simp [escaped, isOther]

theorem quotedRest_closing (fuel : Nat) (found : List Char) :
    (quotedRest other isBarred (fuel + 1) found).run ('"' :: rest) =
      some (String.ofList found.reverse, rest) := by
  simp [quotedRest]

theorem quotedRest_escape (fuel : Nat) (found : List Char)
    (read : (escaped other).run text = some (character, rest)) :
    (quotedRest other isBarred (fuel + 1) found).run ('\\' :: text) =
      (quotedRest other isBarred fuel (character :: found)).run rest := by
  simp [quotedRest, read]

/-- A character stands for itself unless it is barred or has another meaning. -/
theorem quotedRest_plain (fuel : Nat) (found : List Char) (notQuote : character ≠ '"')
    (notBackslash : character ≠ '\\') (allowed : isBarred character = false) :
    (quotedRest other isBarred (fuel + 1) found).run (character :: rest) =
      (quotedRest other isBarred fuel (character :: found)).run rest := by
  simp only [quotedRest, StateT.run_bind, next_run, Option.bind_eq_bind, Option.bind_some, allowed]
  rfl

end Quoted

end TextReader

namespace Json

open TextReader

/-- No numeral goes on into a text. -/
def Ends (rest : List Char) : Prop :=
  ∀ character ∈ rest.head?, isNumeralCharacter character = false

/-! ### Integers -/

theorem isNumeralCharacter_of_isDigit {character : Char} (digit : character.isDigit = true) :
    isNumeralCharacter character = true := by
  simp [isNumeralCharacter, digit]

theorem isNumeralCharacter_of_mem {value : Int} {character : Char}
    (member : character ∈ (toString value).toList) : isNumeralCharacter character = true := by
  rcases Int.lt_or_le value 0 with negative | positive
  · rw [Numeral.toList_toString_of_neg negative, List.mem_cons] at member
    rcases member with rfl | digit
    · rfl
    · exact isNumeralCharacter_of_isDigit (Numeral.isDigit_of_mem digit)
  · rw [Numeral.toList_toString_of_nonneg positive] at member
    exact isNumeralCharacter_of_isDigit (Numeral.isDigit_of_mem member)

theorem numeral_run {value : Int} (whole : Numeral.IsWhole value) {rest : List Char}
    (ends : Ends rest) :
    numeral.run ((toString value).toList ++ rest) = some (.integer value, rest) := by
  obtain ⟨found, isFound, isInteger⟩ := Option.map_eq_some_iff.mp (Numeral.ofText?_toString whole)
  have taken := takeWhile_run (fun _ => @isNumeralCharacter_of_mem value _) ends
  simp only [numeral, StateT.run_bind, StateT.run_lift, StateT.run_pure, Option.pure_def,
    Option.bind_eq_bind, Option.bind_some, taken, isFound, isInteger]

/-! ### Strings -/

theorem hexNumber?_hexCharacter : ∀ code < 32,
    hexNumber? ['0', '0', hexCharacter (code / 16), hexCharacter (code % 16)] = some code := by
  decide

/-- A control character is read back from its number. -/
theorem unitCharacter_run {character : Char} (control : character < ' ') (rest : List Char) :
    unitCharacter.run ('0' :: '0' :: hexCharacter (character.toNat / 16) ::
      hexCharacter (character.toNat % 16) :: rest) = some (character, rest) := by
  have small : character.toNat < 32 := control
  have taken := takeExactly_run ['0', '0', hexCharacter (character.toNat / 16),
    hexCharacter (character.toNat % 16)] rest
  have unit : hexUnit.run ('0' :: '0' :: hexCharacter (character.toNat / 16) ::
      hexCharacter (character.toNat % 16) :: rest) = some (character.toNat, rest) := by
    simp only [List.length_cons, List.length_nil, List.cons_append, List.nil_append] at taken
    simp [hexUnit, taken, hexNumber?_hexCharacter _ small]
  have low : ¬(0xD800 ≤ character.toNat ∧ character.toNat < 0xDC00) := by omega
  have code : character.toNat < 0xD800 ∨
      (0xDFFF < character.toNat ∧ character.toNat < 0x110000) := by omega
  simp [unitCharacter, unit, low, characterOfCode?, code]

/-- A character inside a string is read back from its escape. -/
theorem stringRest_escape (fuel : Nat) (found : List Char) (character : Char) (rest : List Char) :
    (stringRest (fuel + 1) found).run ((escape character).toList ++ rest) =
      (stringRest fuel (character :: found)).run rest := by
  unfold stringRest escape
  split
  case h_8 notQuote notBackslash _ _ _ _ _ =>
    split
    · next control =>
      have read : (escaped otherEscape).run ('u' :: '0' :: '0' ::
          hexCharacter (character.toNat / 16) :: hexCharacter (character.toNat % 16) :: rest) =
          some (character, rest) :=
        (escaped_of_other rfl).trans (unitCharacter_run control rest)
      simpa using quotedRest_escape fuel found read
    · next visible =>
      simpa using quotedRest_plain fuel found notQuote notBackslash (decide_eq_false visible)
  all_goals simpa using quotedRest_escape fuel found (escaped_of_letter rfl)

/-- The rest of a string is read up to its quote. -/
theorem stringRest_run {text : List Char} {fuel : Nat} (enough : text.length < fuel)
    (found rest : List Char) :
    (stringRest fuel found).run (text.flatMap (fun character => (escape character).toList) ++
      '"' :: rest) = some (String.ofList (found.reverse ++ text), rest) := by
  induction text generalizing fuel found with
  | nil =>
    obtain ⟨fuel, rfl⟩ := Nat.exists_eq_succ_of_ne_zero (Nat.ne_of_gt enough)
    rw [List.append_nil]
    exact quotedRest_closing fuel found
  | cons character text inductionHypothesis =>
    obtain ⟨fuel, rfl⟩ := Nat.exists_eq_succ_of_ne_zero (Nat.ne_of_gt (Nat.zero_lt_of_lt enough))
    have less : text.length < fuel := Nat.lt_of_succ_lt_succ enough
    rw [List.flatMap_cons, List.append_assoc, stringRest_escape, inductionHypothesis less]
    simp

/-- A string has as many characters as its escapes, or fewer. -/
theorem length_le_escapes (text : List Char) :
    text.length ≤ (text.flatMap fun character => (escape character).toList).length := by
  induction text with
  | nil => exact Nat.le_refl 0
  | cons character text inductionHypothesis =>
    have some : 0 < (escape character).toList.length := by
      unfold escape
      split
      case h_8 => split <;> simp
      all_goals decide
    rw [List.flatMap_cons, List.length_append, List.length_cons]
    omega

theorem toList_quoted (text : String) :
    (quoted text).toList =
      '"' :: (text.toList.flatMap (fun character => (escape character).toList) ++ ['"']) := by
  simp [quoted, List.flatMap_map]

/-! ### Blanks -/

/-- Two styles differ in blanks only. -/
structure Style.Blank (style : Style) : Prop where
  lineBreak : ∀ level, ∀ character ∈ (style.lineBreak level).toList, isBlank character = true
  colon : ∃ blanks, style.colon.toList = ':' :: blanks ∧
    ∀ character ∈ blanks, isBlank character = true

theorem Style.compact_blank : Style.compact.Blank where
  lineBreak _ := by simp [compact]
  colon := ⟨[], rfl, by simp⟩

theorem Style.pretty_blank : Style.pretty.Blank where
  lineBreak level := by
    intro character member
    simp only [pretty, String.toList_append, String.toList_ofList, List.mem_append,
      List.mem_replicate] at member
    rcases member with newline | ⟨-, rfl⟩
    · rw [List.mem_singleton.mp newline]
      rfl
    · rfl
  colon := ⟨[' '], rfl, by simp [isBlank]⟩

theorem skipBlanks_cons (first : Char) (rest : List Char) (isOther : isBlank first = false) :
    skipBlanks.run (first :: rest) = some ((), first :: rest) := by
  simp [skipBlanks, takeWhile, isOther]

theorem ends_cons (first : Char) (rest : List Char)
    (isOther : isNumeralCharacter first = false) : Ends (first :: rest) := by
  intro character member
  rw [← Option.some.inj member]
  exact isOther

section Blanks

variable {blanks : List Char} (blank : ∀ character ∈ blanks, isBlank character = true)

include blank

theorem skipBlanks_append (rest : List Char) :
    skipBlanks.run (blanks ++ rest) = skipBlanks.run rest := by
  simp [skipBlanks, takeWhile, List.dropWhile_append_of_pos blank]

theorem value_append (fuel : Nat) (rest : List Char) :
    (value fuel).run (blanks ++ rest) = (value fuel).run rest := by
  cases fuel with
  | zero => rfl
  | succ fuel => rw [value, StateT.run_bind, StateT.run_bind, skipBlanks_append blank]

theorem items_append (fuel : Nat) (found : List Document) (rest : List Char) :
    (items fuel found).run (blanks ++ rest) = (items fuel found).run rest := by
  cases fuel with
  | zero => rfl
  | succ fuel => rw [items, StateT.run_bind, StateT.run_bind, value_append blank]

theorem fields_append (fuel : Nat) (found : List (String × Document)) (rest : List Char) :
    (fields fuel found).run (blanks ++ rest) = (fields fuel found).run rest := by
  cases fuel with
  | zero => rfl
  | succ fuel => rw [fields, StateT.run_bind, StateT.run_bind, skipBlanks_append blank]

/-- Neither blanks nor what closes a sequence go on with a numeral. -/
theorem ends_append {rest : List Char} (ends : Ends rest) : Ends (blanks ++ rest) := by
  cases blanks with
  | nil => exact ends
  | cons first more =>
    intro character member
    have isFirst : first = character := Option.some.inj member
    have isBlank := blank first List.mem_cons_self
    rw [← isFirst]
    unfold Json.isBlank at isBlank
    simp only [Bool.or_eq_true, decide_eq_true_eq] at isBlank
    rcases isBlank with ((rfl | rfl) | rfl) | rfl <;> rfl

end Blanks

/-! ### Sequences and tables -/

/-- Written items of a sequence from one of them on, up to what closes it. -/
def sequel (style : Style) (level : Nat) (closing : Char) : String → List String → List Char
  | item, [] => item.toList ++ ((style.lineBreak level).toList ++ [closing])
  | item, next :: rest =>
    item.toList ++ ',' :: ((style.lineBreak (level + 1)).toList ++
      sequel style level closing next rest)

theorem toList_intercalate (style : Style) (level : Nat) (closing : Char) (item : String)
    (rest : List String) :
    (",".intercalate ((item :: rest).map fun item => style.lineBreak (level + 1) ++ item)).toList ++
        ((style.lineBreak level).toList ++ [closing]) =
      (style.lineBreak (level + 1)).toList ++ sequel style level closing item rest := by
  induction rest generalizing item with
  | nil => simp [sequel]
  | cons next rest inductionHypothesis =>
    have later := inductionHypothesis next
    simp only [List.map_cons, String.toList_intercalate, List.intercalate_cons_cons,
      String.toList_append, List.append_assoc] at later ⊢
    rw [later]
    rfl

theorem toList_enclose (style : Style) (level : Nat) (opening closing : Char) (item : String)
    (rest : List String) :
    (enclose style level (String.singleton opening) (String.singleton closing)
      (item :: rest)).toList =
      opening :: ((style.lineBreak (level + 1)).toList ++
        sequel style level closing item rest) := by
  rw [enclose, if_neg (by simp), String.toList_append, String.toList_append, String.toList_append,
    List.append_assoc, List.append_assoc, ← toList_intercalate]
  simp

theorem toList_enclose_nil (style : Style) (level : Nat) (opening closing : Char) :
    (enclose style level (String.singleton opening) (String.singleton closing) []).toList =
      [opening, closing] := by
  simp [enclose]

/-- A document is read back at a level, in front of anything that does not go on with a numeral. -/
def ReadsBack (style : Style) (level : Nat) (document : Document) : Prop :=
  ∀ fuel rest, Ends rest → (write style level document).toList.length ≤ fuel →
    (value fuel).run ((write style level document).toList ++ rest) = some (document, rest)

/-- A text begins with neither a blank nor what closes the items around it. -/
def Opens (closing : Char) (text : List Char) : Prop :=
  ∃ first rest, text = first :: rest ∧ isBlank first = false ∧ first ≠ closing

/-- The items from one of them on begin as that item does. -/
theorem opens_sequel (style : Style) (level : Nat) {closing : Char} {item : String}
    (opens : Opens closing item.toList) (rest : List String) :
    Opens closing (sequel style level closing item rest) := by
  obtain ⟨first, more, split, isOther, notClosing⟩ := opens
  cases rest with
  | nil =>
    rw [sequel, split]
    exact ⟨first, _, rfl, isOther, notClosing⟩
  | cons next rest =>
    rw [sequel, split]
    exact ⟨first, _, rfl, isOther, notClosing⟩

/-- A loop reads an entry, and then either the entries after a comma, or nothing behind the mark
that closes them. -/
def ReadsEntry {Entry : Type} (loop : Nat → List Entry → TextReader (List Entry))
    (closing : Char) (entry : Entry) (text : List Char) : Prop :=
  ∀ fuel found rest more, Ends rest → text.length ≤ fuel →
    (skipBlanks.run rest = some ((), ',' :: more) →
        (loop (fuel + 1) found).run (text ++ rest) = (loop fuel (entry :: found)).run more) ∧
      (skipBlanks.run rest = some ((), closing :: more) →
        (loop (fuel + 1) found).run (text ++ rest) = some ((entry :: found).reverse, more))

/-- A field of a table as it is written. -/
def fieldText (style : Style) (level : Nat) (field : String × Document) : String :=
  quoted field.1 ++ style.colon ++ write style level field.2

section Sequences

variable {style : Style}

theorem readsEntry_items {level : Nat} {item : Document} (reads : ReadsBack style level item) :
    ReadsEntry items ']' item (write style level item).toList := by
  intro fuel found rest more ends enough
  have run := reads fuel rest ends enough
  constructor
  all_goals
    intro after
    simp only [items, StateT.run_bind, Option.bind_eq_bind, Option.bind_some, run, after, next_run]
  rfl

variable (blank : style.Blank)

include blank

theorem readsEntry_fields {level : Nat} {field : String × Document}
    (reads : ReadsBack style level field.2) :
    ReadsEntry fields '\x7d' field (fieldText style level field).toList := by
  intro fuel found rest more ends enough
  obtain ⟨blanks, colon, blankColon⟩ := blank.colon
  simp only [fieldText, String.toList_append, toList_quoted, colon, List.length_append,
    List.length_cons] at enough
  have short := length_le_escapes field.1.toList
  have name (after : List Char) := @stringRest_run field.1.toList fuel (by omega) [] after
  have run := reads fuel rest ends (by omega)
  rw [← value_append blankColon] at run
  have quote (after : List Char) : (expect "\"").run ('"' :: after) = some ((), after) :=
    expect_run "\"" after
  have mark (after : List Char) : (expect ":").run (':' :: after) = some ((), after) :=
    expect_run ":" after
  constructor
  all_goals
    intro after
    simp only [fieldText, String.toList_append, toList_quoted, colon, fields, List.append_assoc,
      List.cons_append, List.nil_append, StateT.run_bind, Option.bind_eq_bind, Option.bind_some,
      skipBlanks_cons '"' _ rfl, skipBlanks_cons ':' _ rfl, quote, name, mark, run, after,
      next_run, List.reverse_nil, String.ofList_toList]
  rfl

/-- A loop that reads each entry and passes over blanks reads them all. -/
theorem sequel_run {Entry : Type} {loop : Nat → List Entry → TextReader (List Entry)}
    {closing : Char} {text : Entry → String} (level : Nat)
    (passes : ∀ fuel found rest, (loop fuel found).run
      ((style.lineBreak (level + 1)).toList ++ rest) = (loop fuel found).run rest)
    (isBlank : Json.isBlank closing = false) (isOther : isNumeralCharacter closing = false)
    {first : Entry} {more : List Entry}
    (each : ∀ entry ∈ first :: more, ReadsEntry loop closing entry (text entry).toList)
    {fuel : Nat}
    (enough : (sequel style level closing (text first) (more.map text)).length ≤ fuel)
    (found : List Entry) (rest : List Char) :
    (loop fuel found).run (sequel style level closing (text first) (more.map text) ++ rest) =
      some (found.reverse ++ first :: more, rest) := by
  induction more generalizing first fuel found with
  | nil =>
    simp only [List.map_nil, sequel, List.length_append, List.length_singleton] at enough
    obtain ⟨fuel, rfl⟩ : ∃ less, fuel = less + 1 := ⟨fuel - 1, by omega⟩
    have closed : skipBlanks.run ((style.lineBreak level).toList ++ closing :: rest) =
        some ((), closing :: rest) := by
      rw [skipBlanks_append (blank.lineBreak level), skipBlanks_cons closing rest isBlank]
    have run := (each first List.mem_cons_self fuel found _ rest
      (ends_append (blank.lineBreak level) (ends_cons closing rest isOther)) (by omega)).2 closed
    rw [List.map_nil, sequel, List.append_assoc, List.append_assoc, List.singleton_append, run,
      List.reverse_cons]
  | cons next more inductionHypothesis =>
    have eachLater : ∀ entry ∈ next :: more, ReadsEntry loop closing entry (text entry).toList :=
      fun entry member => each entry (List.mem_cons_of_mem _ member)
    simp only [List.map_cons, sequel, List.length_append, List.length_cons] at enough
    obtain ⟨fuel, rfl⟩ : ∃ less, fuel = less + 1 := ⟨fuel - 1, by omega⟩
    have later := @inductionHypothesis next eachLater fuel (by omega) (first :: found)
    have run := (each first List.mem_cons_self fuel found _ ((style.lineBreak (level + 1)).toList ++
      (sequel style level closing (text next) (more.map text) ++ rest)) (ends_cons ',' _ rfl)
      (by omega)).1 (skipBlanks_cons ',' _ rfl)
    rw [List.map_cons, sequel, List.append_assoc, List.cons_append, List.append_assoc, run,
      passes, later, List.reverse_cons, List.append_assoc, List.singleton_append]

/-- In front of its entries, a sequence that has some is seen not to be closed at once. -/
theorem sequel_begins (level : Nat) {closing : Char} {item : String}
    (opens : Opens closing item.toList) (later : List String) (rest : List Char) :
    skipBlanks.run ((style.lineBreak (level + 1)).toList ++
        (sequel style level closing item later ++ rest)) =
      some ((), sequel style level closing item later ++ rest) ∧
    ∃ first, first ≠ closing ∧ peek.run (sequel style level closing item later ++ rest) =
      some (first, sequel style level closing item later ++ rest) := by
  obtain ⟨first, more, split, isOther, notClosing⟩ := opens_sequel style level opens later
  rw [split, List.cons_append]
  constructor
  · rw [skipBlanks_append (blank.lineBreak (level + 1)), skipBlanks_cons first _ isOther]
  · exact ⟨first, notClosing, peek_run first _⟩

end Sequences

/-! ### Documents -/

theorem writeItems_eq_map (style : Style) (level : Nat) (items : List Document) :
    writeItems style level items = items.map (write style level) := by
  induction items with
  | nil => rfl
  | cons item rest inductionHypothesis =>
    rw [writeItems, inductionHypothesis, List.map_cons]

theorem writeFields_eq_map (style : Style) (level : Nat) (fields : List (String × Document)) :
    writeFields style level fields = fields.map (fieldText style level) := by
  induction fields with
  | nil => rfl
  | cons field rest inductionHypothesis =>
    rw [writeFields, inductionHypothesis, List.map_cons, fieldText]

end Json

/-- A document with no number but integers of a word, and no kind of value that JSON does not
tell from others. -/
inductive Document.Plain : Document → Prop
  | null : Plain .null
  | boolean (value : Bool) : Plain (.boolean value)
  | integer {value : Int} (whole : Numeral.IsWhole value) : Plain (.integer value)
  | text (value : String) : Plain (.text value)
  | list {items : List Document} (each : ∀ item ∈ items, Plain item) : Plain (.list items)
  | table {fields : List (String × Document)} (each : ∀ field ∈ fields, Plain field.2) :
    Plain (.table fields)

namespace Json

open TextReader

variable {style : Style}

/-- Written integers begin with a character of a numeral. -/
theorem exists_numeralCharacter (value : Int) :
    ∃ first rest, (toString value).toList = first :: rest ∧ isNumeralCharacter first = true := by
  have some : (toString value).toList ≠ [] := by
    rcases Int.lt_or_le value 0 with negative | positive
    · rw [Numeral.toList_toString_of_neg negative]
      exact List.cons_ne_nil _ _
    · rw [Numeral.toList_toString_of_nonneg positive]
      exact Nat.toDigits_ne_nil
  obtain ⟨first, rest, split⟩ := List.exists_cons_of_ne_nil some
  have member : first ∈ (toString value).toList := by
    rw [split]
    exact List.mem_cons_self
  exact ⟨first, rest, split, isNumeralCharacter_of_mem member⟩

theorem isBlank_of_isNumeralCharacter {character : Char}
    (numeral : isNumeralCharacter character = true) : isBlank character = false := by
  apply Bool.eq_false_iff.mpr
  intro blank
  unfold isBlank at blank
  simp only [Bool.or_eq_true, decide_eq_true_eq] at blank
  rcases blank with ((rfl | rfl) | rfl) | rfl <;> exact absurd numeral (by decide)

/-- No plain document begins like the end of a sequence. -/
theorem opens {document : Document} (plain : document.Plain) (level : Nat) :
    Opens ']' (write style level document).toList := by
  cases plain with
  | null =>
    rw [write]
    exact ⟨'n', _, rfl, rfl, by decide⟩
  | boolean value =>
    rw [write]
    cases value with
    | false => exact ⟨'f', _, rfl, rfl, by decide⟩
    | true => exact ⟨'t', _, rfl, rfl, by decide⟩
  | @integer value whole =>
    obtain ⟨first, rest, split, isFirst⟩ := exists_numeralCharacter value
    rw [write, split]
    refine ⟨first, rest, rfl, isBlank_of_isNumeralCharacter isFirst, ?_⟩
    rintro rfl
    exact absurd isFirst (by decide)
  | text value =>
    rw [write, toList_quoted]
    exact ⟨'"', _, rfl, rfl, by decide⟩
  | @list items each =>
    rw [write, writeItems_eq_map]
    cases items with
    | nil => exact ⟨'[', _, toList_enclose_nil style level '[' ']', rfl, by decide⟩
    | cons first more => exact ⟨'[', _, toList_enclose style level '[' ']' _ _, rfl, by decide⟩
  | @table fields each =>
    rw [write, writeFields_eq_map]
    cases fields with
    | nil => exact ⟨'\x7b', _, toList_enclose_nil style level '\x7b' '\x7d', rfl, by decide⟩
    | cons first more =>
      exact ⟨'\x7b', _, toList_enclose style level '\x7b' '\x7d' _ _, rfl, by decide⟩

/-- What begins like a numeral is read as one. -/
theorem value_run_numeral (fuel : Nat) {first : Char} (rest : List Char)
    (isFirst : isNumeralCharacter first = true) :
    (value (fuel + 1)).run (first :: rest) = numeral.run (first :: rest) := by
  simp only [value, StateT.run_bind, Option.bind_eq_bind, Option.bind_some,
    skipBlanks_cons first rest (isBlank_of_isNumeralCharacter isFirst), peek_run]
  split <;> first | rfl | exact absurd isFirst (by decide)

theorem integer_readsBack {number : Int} (whole : Numeral.IsWhole number) (level : Nat) :
    ReadsBack style level (.integer number) := by
  intro fuel rest ends enough
  obtain ⟨first, more, split, isFirst⟩ := exists_numeralCharacter number
  have taken := numeral_run whole ends
  rw [write] at enough ⊢
  rw [split] at enough taken ⊢
  obtain ⟨fuel, rfl⟩ : ∃ less, fuel = less + 1 := ⟨fuel - 1, by simp at enough; omega⟩
  rw [List.cons_append, value_run_numeral fuel _ isFirst]
  exact taken

theorem text_readsBack (text : String) (level : Nat) : ReadsBack style level (.text text) := by
  intro fuel rest ends enough
  have short := length_le_escapes text.toList
  rw [write, toList_quoted] at enough ⊢
  simp only [List.length_cons, List.length_append, List.length_nil] at enough
  obtain ⟨fuel, rfl⟩ : ∃ less, fuel = less + 1 := ⟨fuel - 1, by omega⟩
  have read := @stringRest_run text.toList fuel (by omega) [] rest
  have quote (after : List Char) : (expect "\"").run ('"' :: after) = some ((), after) :=
    expect_run "\"" after
  simp only [value, List.cons_append, List.append_assoc, List.nil_append, StateT.run_bind,
    Option.bind_eq_bind, Option.bind_some, skipBlanks_cons '"' _ rfl, peek_run, quote, read]
  simp

theorem null_readsBack (level : Nat) : ReadsBack style level .null := by
  intro fuel rest ends enough
  have word : (expect "null").run ('n' :: 'u' :: 'l' :: 'l' :: rest) = some ((), rest) :=
    expect_run "null" rest
  rw [write] at enough ⊢
  obtain ⟨fuel, rfl⟩ : ∃ less, fuel = less + 1 := ⟨fuel - 1, by simp at enough; omega⟩
  show (value (fuel + 1)).run ('n' :: 'u' :: 'l' :: 'l' :: rest) = _
  simp only [value, StateT.run_bind, Option.bind_eq_bind, Option.bind_some,
    skipBlanks_cons 'n' _ rfl, peek_run, word]
  rfl

theorem boolean_readsBack (value : Bool) (level : Nat) :
    ReadsBack style level (.boolean value) := by
  intro fuel rest ends enough
  have no : (expect "false").run ('f' :: 'a' :: 'l' :: 's' :: 'e' :: rest) = some ((), rest) :=
    expect_run "false" rest
  have yes : (expect "true").run ('t' :: 'r' :: 'u' :: 'e' :: rest) = some ((), rest) :=
    expect_run "true" rest
  rw [write] at enough ⊢
  obtain ⟨fuel, rfl⟩ : ∃ less, fuel = less + 1 :=
    ⟨fuel - 1, by cases value <;> simp at enough <;> omega⟩
  cases value with
  | false =>
    show (Json.value (fuel + 1)).run ('f' :: 'a' :: 'l' :: 's' :: 'e' :: rest) = _
    simp only [Json.value, StateT.run_bind, Option.bind_eq_bind, Option.bind_some,
      skipBlanks_cons 'f' _ rfl, peek_run, no]
    rfl
  | true =>
    show (Json.value (fuel + 1)).run ('t' :: 'r' :: 'u' :: 'e' :: rest) = _
    simp only [Json.value, StateT.run_bind, Option.bind_eq_bind, Option.bind_some,
      skipBlanks_cons 't' _ rfl, peek_run, yes]
    rfl

section Sequences

variable (blank : style.Blank)

include blank

theorem list_readsBack {items : List Document} {level : Nat} (plain : ∀ item ∈ items, item.Plain)
    (each : ∀ item ∈ items, ReadsBack style (level + 1) item) :
    ReadsBack style level (.list items) := by
  intro fuel rest ends enough
  have bracket (after : List Char) : (expect "[").run ('[' :: after) = some ((), after) :=
    expect_run "[" after
  rw [write, writeItems_eq_map] at enough ⊢
  cases items with
  | nil =>
    have closed : (expect "]").run (']' :: rest) = some ((), rest) := expect_run "]" rest
    have written : (enclose style level "[" "]" []).toList = ['[', ']'] :=
      toList_enclose_nil style level '[' ']'
    rw [List.map_nil, written] at enough ⊢
    obtain ⟨fuel, rfl⟩ : ∃ less, fuel = less + 1 := ⟨fuel - 1, by simp at enough; omega⟩
    simp only [value, List.cons_append, List.nil_append, StateT.run_bind, Option.bind_eq_bind,
      Option.bind_some, skipBlanks_cons '[' _ rfl, skipBlanks_cons ']' _ rfl, peek_run, bracket,
      closed, if_true]
    rfl
  | cons first more =>
    have written : (enclose style level "[" "]" (write style (level + 1) first ::
        more.map (write style (level + 1)))).toList = _ :=
      toList_enclose style level '[' ']' _ _
    rw [List.map_cons, written] at enough ⊢
    simp only [List.length_cons, List.length_append] at enough
    obtain ⟨fuel, rfl⟩ : ∃ less, fuel = less + 1 := ⟨fuel - 1, by omega⟩
    have read := @sequel_run _ blank _ items ']' (write style (level + 1)) level
      (items_append (blank.lineBreak (level + 1))) rfl rfl _ _
      (fun item member => readsEntry_items (each item member)) fuel (by omega) [] rest
    obtain ⟨blanks, opening, notClosing, peeked⟩ := sequel_begins blank level
      (@opens style _ (plain first List.mem_cons_self) (level + 1))
      (more.map (write style (level + 1))) rest
    simp only [value, List.cons_append, List.append_assoc, StateT.run_bind, Option.bind_eq_bind,
      Option.bind_some, skipBlanks_cons '[' _ rfl, peek_run, bracket, blanks, peeked,
      if_neg notClosing, read]
    rfl

theorem table_readsBack {fields : List (String × Document)} {level : Nat}
    (each : ∀ field ∈ fields, ReadsBack style (level + 1) field.2) :
    ReadsBack style level (.table fields) := by
  intro fuel rest ends enough
  have brace (after : List Char) : (expect "\x7b").run ('\x7b' :: after) = some ((), after) :=
    expect_run "\x7b" after
  rw [write, writeFields_eq_map] at enough ⊢
  cases fields with
  | nil =>
    have closed : (expect "\x7d").run ('\x7d' :: rest) = some ((), rest) :=
      expect_run "\x7d" rest
    have written : (enclose style level "\x7b" "\x7d" []).toList = ['\x7b', '\x7d'] :=
      toList_enclose_nil style level '\x7b' '\x7d'
    rw [List.map_nil, written] at enough ⊢
    obtain ⟨fuel, rfl⟩ : ∃ less, fuel = less + 1 := ⟨fuel - 1, by simp at enough; omega⟩
    simp only [value, List.cons_append, List.nil_append, StateT.run_bind, Option.bind_eq_bind,
      Option.bind_some, skipBlanks_cons '\x7b' _ rfl, skipBlanks_cons '\x7d' _ rfl, peek_run,
      brace, closed, if_true]
    rfl
  | cons first more =>
    have written : (enclose style level "\x7b" "\x7d" (fieldText style (level + 1) first ::
        more.map (fieldText style (level + 1)))).toList = _ :=
      toList_enclose style level '\x7b' '\x7d' _ _
    rw [List.map_cons, written] at enough ⊢
    simp only [List.length_cons, List.length_append] at enough
    obtain ⟨fuel, rfl⟩ : ∃ less, fuel = less + 1 := ⟨fuel - 1, by omega⟩
    have read := @sequel_run _ blank _ fields '\x7d' (fieldText style (level + 1)) level
      (fields_append (blank.lineBreak (level + 1))) rfl rfl _ _
      (fun field member => readsEntry_fields blank (each field member)) fuel (by omega) [] rest
    have quote : Opens '\x7d' (fieldText style (level + 1) first).toList := by
      rw [fieldText, String.toList_append, String.toList_append, toList_quoted]
      exact ⟨'"', _, rfl, rfl, by decide⟩
    obtain ⟨blanks, opening, notClosing, peeked⟩ := sequel_begins blank level quote
      (more.map (fieldText style (level + 1))) rest
    simp only [value, List.cons_append, List.append_assoc, StateT.run_bind, Option.bind_eq_bind,
      Option.bind_some, skipBlanks_cons '\x7b' _ rfl, peek_run, brace, blanks, peeked,
      if_neg notClosing, read]
    rfl

/-- A plain document is read back, whatever its style and level. -/
theorem plain_readsBack {document : Document} (plain : document.Plain) (level : Nat) :
    ReadsBack style level document := by
  induction plain generalizing level with
  | null => exact null_readsBack level
  | boolean value => exact boolean_readsBack value level
  | integer whole => exact integer_readsBack whole level
  | text value => exact text_readsBack value level
  | list plain inductionHypothesis =>
    exact list_readsBack blank plain fun item member => inductionHypothesis item member (level + 1)
  | table plain inductionHypothesis =>
    exact table_readsBack blank fun field member => inductionHypothesis field member (level + 1)

/-- What is written of a plain document is the text of that document and of no other. -/
theorem read?_write {document : Document} (plain : document.Plain) :
    read? (write style 0 document) = some document := by
  have read := plain_readsBack blank plain 0 (2 * (write style 0 document).toList.length + 2) []
    nofun (by omega)
  rw [List.append_nil] at read
  simp only [read?, read, Option.bind_eq_bind, Option.bind_some, List.all_nil, if_true]
  rfl

end Sequences

end Json

end EpochRollup
