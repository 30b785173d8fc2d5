import ParenCall.OutputPhrase
import ParenCall.Proofs.EscapedTexts
import ParenCall.Token

/-!
# Faithful dumps

A dump can be read back, on one line as well as over several lines.  Both
layouts write a value as its name, a sign that tells words, quoted texts,
variants, records and lists apart, and then the parts of the value between
brackets.  They differ in what they write before the first part, between two
parts and after the last one.  All that matters is that the end of a part can
be seen and that going on cannot be mistaken for closing the bracket; quoted
texts, which may hold anything, are read back by themselves.

So values in which every name is a word of letters are told by their dumps, and
tokens and phrases are such values, whatever texts they carry.
-/

namespace ParenCall

namespace Dump

/-- The brackets around the parts of a value. -/
inductive Bracket
  | round
  | curly
  | square

/-- The end of the parts of a value. -/
def Bracket.closing : Bracket → Char
  | .round => ')'
  | .curly => '\x7d'
  | .square => ']'

/-- What shows, after the name of a value, that the value is no word. -/
inductive Mark
  | quote
  | bracket (bracket : Bracket)

def Mark.characters : Mark → List Char
  | .quote => ['"']
  | .bracket .round => ['(']
  | .bracket .curly => [' ', '\x7b']
  | .bracket .square => ['[']

/-- Whether any value ends before characters: they carry no name on and begin
with no mark. -/
structure Ends (rest : List Char) : Prop where
  noLetter : ∀ next ∈ rest.head?, next.isAlpha = false
  noMark : ∀ (mark : Mark) (following : List Char),
    rest ≠ mark.characters ++ following

theorem ends_nil : Ends [] where
  noLetter := by simp
  noMark := by rintro (- | (- | - | -)) <;> simp [Mark.characters]

theorem ends_cons {character : Char} {rest : List Char}
    (noLetter : character.isAlpha = false)
    (noMark : character ∉ ['"', '(', ' ', '[']) : Ends (character :: rest) where
  noLetter := by simpa using noLetter
  noMark := by
    rintro (- | (- | - | -)) <;> simp_all [Mark.characters]

/-- What is written around the parts of a value at a level: after the opening
bracket, between two parts and before the closing bracket.  A part ends before
the last two, and these can be told apart. -/
structure Layout where
  opens : Bracket → Nat → List Char
  divides : Nat → List Char
  closes : Bracket → Nat → List Char
  opens_head : ∀ bracket level,
    (opens bracket level).head? ≠ some bracket.closing
  ends_divides : ∀ level rest, Ends (divides level ++ rest)
  ends_closes : ∀ bracket level rest,
    Ends (closes bracket level ++ bracket.closing :: rest)
  divides_ne_closes : ∀ bracket level rest otherRest,
    divides level ++ rest ≠
      closes bracket level ++ bracket.closing :: otherRest

namespace Layout

variable {α : Type} (layout : Layout) {bracket : Bracket} {level : Nat}
  {writePart otherPart : α → List Char → List Char} {parts others : List α}
  {rest otherRest : List Char}

/-- Writes the parts after the first one. -/
def writeMore (level : Nat) (writePart : α → List Char → List Char) :
    List α → List Char → List Char
  | [], rest => rest
  | part :: parts, rest =>
      layout.divides level ++
        writePart part (writeMore level writePart parts rest)

/-- Writes the parts of a value and the bracket that closes them. -/
def writeParts (bracket : Bracket) (level : Nat)
    (writePart : α → List Char → List Char) :
    List α → List Char → List Char
  | [], rest => bracket.closing :: rest
  | part :: parts, rest =>
      layout.opens bracket level ++
        writePart part (layout.writeMore level writePart parts
          (layout.closes bracket level ++ bracket.closing :: rest))

/-- Whether each part can be read back where it ends. -/
def Decodes (writePart otherPart : α → List Char → List Char)
    (parts others : List α) : Prop :=
  ∀ part ∈ parts, ∀ other ∈ others, ∀ rest otherRest, Ends rest →
    Ends otherRest → writePart part rest = otherPart other otherRest →
      part = other ∧ rest = otherRest

theorem ends_writeMore (ends : Ends rest) :
    Ends (layout.writeMore level writePart parts rest) := by
  cases parts with
  | nil => exact ends
  | cons part parts => exact layout.ends_divides level _

variable {part other : α}

theorem Decodes.tail
    (decodes : Decodes writePart otherPart (part :: parts) (other :: others)) :
    Decodes writePart otherPart parts others :=
  fun next member following otherMember =>
    decodes next (by simp [member]) following (by simp [otherMember])

/-- A part ends before the parts after it, or before the closing bracket. -/
theorem Decodes.first
    (decodes : Decodes writePart otherPart (part :: parts) (other :: others))
    (same :
      writePart part (layout.writeMore level writePart parts
          (layout.closes bracket level ++ bracket.closing :: rest)) =
        otherPart other (layout.writeMore level otherPart others
          (layout.closes bracket level ++ bracket.closing :: otherRest))) :
    part = other ∧
      layout.writeMore level writePart parts
          (layout.closes bracket level ++ bracket.closing :: rest) =
        layout.writeMore level otherPart others
          (layout.closes bracket level ++ bracket.closing :: otherRest) := by
  have ends (following : List Char) :=
    layout.ends_closes bracket level following
  exact decodes part (by simp) other (by simp) _ _
    (layout.ends_writeMore (ends rest)) (layout.ends_writeMore (ends otherRest))
    same

theorem writeMore_inj (decodes : Decodes writePart otherPart parts others)
    (same : layout.writeMore level writePart parts
        (layout.closes bracket level ++ bracket.closing :: rest) =
      layout.writeMore level otherPart others
        (layout.closes bracket level ++ bracket.closing :: otherRest)) :
    parts = others ∧ rest = otherRest := by
  induction parts generalizing others with
  | nil =>
      cases others with
      | nil => exact ⟨rfl, (List.cons.inj (List.append_cancel_left same)).2⟩
      | cons other others =>
          exact absurd same.symm (layout.divides_ne_closes bracket level _ _)
  | cons part parts induction =>
      cases others with
      | nil => exact absurd same (layout.divides_ne_closes bracket level _ _)
      | cons other others =>
          obtain ⟨rfl, rests⟩ :=
            decodes.first layout (List.append_cancel_left same)
          obtain ⟨rfl, restEq⟩ := induction decodes.tail rests
          exact ⟨rfl, restEq⟩

theorem opens_append_ne (text : List Char)
    (head : text.head? ≠ some bracket.closing) (rest : List Char) :
    layout.opens bracket level ++ text ≠ bracket.closing :: rest := by
  intro same
  have heads := layout.opens_head bracket level
  cases opens : layout.opens bracket level with
  | nil =>
      rw [opens, List.nil_append] at same
      exact head (by simp [same])
  | cons first others =>
      rw [opens] at same heads
      exact heads (congrArg some (List.cons.inj same).1)

/-- The parts of a value can be read back if each of them can, and none of them
looks like the bracket that closes them. -/
theorem writeParts_inj (decodes : Decodes writePart otherPart parts others)
    (head : ∀ part ∈ parts, ∀ text,
      (writePart part text).head? ≠ some bracket.closing)
    (otherHead : ∀ other ∈ others, ∀ text,
      (otherPart other text).head? ≠ some bracket.closing)
    (same : layout.writeParts bracket level writePart parts rest =
      layout.writeParts bracket level otherPart others otherRest) :
    parts = others ∧ rest = otherRest := by
  cases parts with
  | nil =>
      cases others with
      | nil => exact ⟨rfl, (List.cons.inj same).2⟩
      | cons other others =>
          exact absurd same.symm (layout.opens_append_ne _
            (otherHead other (by simp) _) _)
  | cons part parts =>
      cases others with
      | nil =>
          exact absurd same (layout.opens_append_ne _
            (head part (by simp) _) _)
      | cons other others =>
          obtain ⟨rfl, rests⟩ :=
            decodes.first layout (List.append_cancel_left same)
          obtain ⟨rfl, restEq⟩ := layout.writeMore_inj decodes.tail rests
          exact ⟨rfl, restEq⟩

end Layout

/-- Writes a field, given how its value is written. -/
def writeField (write : Dump → List Char → List Char)
    (field : String × Dump) (rest : List Char) : List Char :=
  field.1.toList ++ ':' :: ' ' :: write field.2 rest

/-- Whether values are written in a layout. -/
structure Follows (layout : Layout) (escaped : Char → Bool)
    (write : Nat → Dump → List Char → List Char) : Prop where
  word : ∀ level name rest, write level (.word name) rest = name.toList ++ rest
  quoted : ∀ level text rest,
    write level (.quoted text) rest = writeQuoted escaped text rest
  variant : ∀ level name content rest,
    write level (.variant name content) rest =
      name.toList ++ '(' ::
        layout.writeParts .round level (write (level + 1)) [content] rest
  record : ∀ level name field fields rest,
    write level (.record name (field :: fields)) rest =
      name.toList ++ ' ' :: '\x7b' ::
        layout.writeParts .curly level (writeField (write (level + 1)))
          (field :: fields) rest
  list : ∀ level items rest,
    write level (.list items) rest =
      '[' :: layout.writeParts .square level (write (level + 1)) items rest

section Layouts

/-- Everything on one line, with blanks inside curly brackets. -/
def Layout.oneLine : Layout where
  opens bracket _ := if bracket matches .curly then [' '] else []
  divides _ := [',', ' ']
  closes bracket _ := if bracket matches .curly then [' '] else []
  opens_head := by
    rintro (- | - | -) <;> simp [Bracket.closing]
  ends_divides level rest := ends_cons (by decide) (by decide)
  ends_closes := by
    rintro (- | - | -) level rest
    · exact ends_cons (by decide) (by decide)
    · -- A blank opens a record only in front of a curly bracket.
      refine ⟨by simp, ?_⟩
      rintro (- | (- | - | -)) <;> simp [Mark.characters, Bracket.closing]
    · exact ends_cons (by decide) (by decide)
  divides_ne_closes := by
    rintro (- | - | -) <;> simp [Bracket.closing]

/-- Every part on lines of its own, with a comma after it. -/
def Layout.manyLines : Layout where
  opens _ level := '\n' :: indentation (level + 1)
  divides level := ',' :: '\n' :: indentation (level + 1)
  closes _ level := ',' :: '\n' :: indentation level
  opens_head := by
    rintro (- | - | -) <;> simp [Bracket.closing]
  ends_divides level rest := ends_cons (by decide) (by decide)
  ends_closes bracket level rest := ends_cons (by decide) (by decide)
  divides_ne_closes := by
    intro bracket level rest otherRest same
    -- A part is indented one level more than the bracket that closes it.
    have deeper : indentation (level + 1) =
        indentation level ++ [' ', ' ', ' ', ' '] := by
      simp [indentation, Nat.mul_add, List.replicate_add]
    rw [deeper] at same
    simp only [List.cons_append, List.append_assoc, List.cons.injEq, true_and,
      List.append_cancel_left_eq] at same
    cases bracket <;> simp [Bracket.closing] at same

theorem writeMoreItems_eq (escaped : Char → Bool) (level : Nat)
    (items : List Dump) (rest : List Char) :
    writeMoreItems escaped items rest =
      Layout.oneLine.writeMore level (writeCompact escaped) items rest := by
  induction items with
  | nil => rw [writeMoreItems, Layout.writeMore]
  | cons item items induction =>
      rw [writeMoreItems, Layout.writeMore, induction]
      rfl

theorem writeMoreFields_eq (escaped : Char → Bool) (level : Nat)
    (fields : List (String × Dump)) (rest : List Char) :
    writeMoreFields escaped fields rest =
      Layout.oneLine.writeMore level (writeField (writeCompact escaped))
        fields rest := by
  induction fields with
  | nil => rw [writeMoreFields, Layout.writeMore]
  | cons field fields induction =>
      rw [writeMoreFields, Layout.writeMore, induction, writeCompactField]
      rfl

/-- Values on one line are written in the layout for one line. -/
theorem follows_writeCompact (escaped : Char → Bool) :
    Follows .oneLine escaped (fun _ => writeCompact escaped) where
  word level name rest := by rw [writeCompact]
  quoted level text rest := by rw [writeCompact]
  variant level name content rest := by
    rw [writeCompact]
    rfl
  record level name field fields rest := by
    rw [writeCompact, writeCompactField, writeMoreFields_eq escaped level]
    rfl
  list level items rest := by
    cases items with
    | nil => rw [writeCompact]; rfl
    | cons item items =>
        rw [writeCompact, writeMoreItems_eq escaped level]
        rfl

/-- The lines of items end where the layout for many lines writes the end of
the part before them. -/
theorem writeItemLines_eq (escaped : Char → Bool) (level : Nat)
    (items : List Dump) (rest : List Char) :
    ',' :: '\n' ::
        writeItemLines escaped (level + 1) items (indentation level ++ rest) =
      Layout.manyLines.writeMore level (writeIndented escaped (level + 1)) items
        (',' :: '\n' :: (indentation level ++ rest)) := by
  induction items with
  | nil => rw [writeItemLines, Layout.writeMore]
  | cons item items induction =>
      rw [writeItemLines, Layout.writeMore, ← induction]
      rfl

theorem writeFieldLines_eq (escaped : Char → Bool) (level : Nat)
    (fields : List (String × Dump)) (rest : List Char) :
    ',' :: '\n' ::
        writeFieldLines escaped (level + 1) fields
          (indentation level ++ rest) =
      Layout.manyLines.writeMore level
        (writeField (writeIndented escaped (level + 1))) fields
        (',' :: '\n' :: (indentation level ++ rest)) := by
  induction fields with
  | nil => rw [writeFieldLines, Layout.writeMore]
  | cons field fields induction =>
      rw [writeFieldLines, Layout.writeMore, ← induction, writeIndentedField]
      rfl

/-- Values over several lines are written in the layout for many lines. -/
theorem follows_writeIndented (escaped : Char → Bool) :
    Follows .manyLines escaped (writeIndented escaped) where
  word level name rest := by rw [writeIndented]
  quoted level text rest := by rw [writeIndented]
  variant level name content rest := by
    rw [writeIndented]
    rfl
  record level name field fields rest := by
    rw [writeIndented, writeIndentedField, writeFieldLines_eq]
    rfl
  list level items rest := by
    cases items with
    | nil => rw [writeIndented]; rfl
    | cons item items =>
        rw [writeIndented, writeItemLines_eq]
        rfl

end Layouts

/-- Whether a name is a word of letters. -/
def IsLabel (name : String) : Prop :=
  name ≠ "" ∧ ∀ letter ∈ name.toList, letter.isAlpha

/-- The values in which every name and label is a word of letters and every
record has a field. -/
inductive WellNamed : Dump → Prop
  | word {name : String} (named : IsLabel name) : WellNamed (.word name)
  | quoted (text : String) : WellNamed (.quoted text)
  | variant {name : String} {content : Dump} (named : IsLabel name)
      (inner : WellNamed content) : WellNamed (.variant name content)
  | record {name : String} {field : String × Dump}
      {fields : List (String × Dump)} (named : IsLabel name)
      (labelled : ∀ part ∈ field :: fields, IsLabel part.1)
      (inner : ∀ part ∈ field :: fields, WellNamed part.2) :
      WellNamed (.record name (field :: fields))
  | list {items : List Dump} (inner : ∀ item ∈ items, WellNamed item) :
      WellNamed (.list items)

section Decoding

/-- The name of a value and the mark after it. -/
def heading : Dump → String × Option Mark
  | .word name => (name, none)
  | .quoted _ => ("", some .quote)
  | .variant name _ => (name, some (.bracket .round))
  | .record name _ => (name, some (.bracket .curly))
  | .list _ => ("", some (.bracket .square))

def markCharacters : Option Mark → List Char
  | none => []
  | some mark => mark.characters

variable {layout : Layout} {escaped otherEscaped : Char → Bool}
  {write otherWrite : Nat → Dump → List Char → List Char} {level : Nat}
  {rest otherRest : List Char}

theorem markCharacters_append_inj {mark other : Option Mark}
    (ends : mark = none → Ends rest) (otherEnds : other = none → Ends otherRest)
    (same : markCharacters mark ++ rest = markCharacters other ++ otherRest) :
    mark = other := by
  cases mark with
  | none =>
      cases other with
      | none => rfl
      | some other => exact absurd same ((ends rfl).noMark other _)
  | some mark =>
      cases other with
      | none => exact absurd same.symm ((otherEnds rfl).noMark mark _)
      | some other =>
          rcases mark with - | (- | - | -) <;>
            rcases other with - | (- | - | -) <;>
              simp_all [markCharacters, Mark.characters]

theorem IsLabel.head?_append_ne {name : String} (named : IsLabel name)
    (bracket : Bracket) (text : List Char) :
    (name.toList ++ text).head? ≠ some bracket.closing := by
  obtain ⟨nonempty, letters⟩ := named
  cases characters : name.toList with
  | nil => exact absurd (String.toList_eq_nil_iff.mp characters) nonempty
  | cons letter others =>
      have isAlpha : letter.isAlpha := letters letter (by simp [characters])
      rintro same
      cases same
      cases bracket <;> cases isAlpha

/-- No value begins with a closing bracket. -/
theorem Follows.head?_ne (follows : Follows layout escaped write)
    {dump : Dump} (wellNamed : WellNamed dump) (bracket : Bracket) :
    (write level dump rest).head? ≠ some bracket.closing := by
  cases wellNamed with
  | word named =>
      rw [follows.word]
      exact named.head?_append_ne bracket _
  | quoted text =>
      rw [follows.quoted]
      cases bracket <;> simp [writeQuoted, Bracket.closing]
  | variant named inner =>
      rw [follows.variant]
      exact named.head?_append_ne bracket _
  | record named labelled inner =>
      rw [follows.record]
      exact named.head?_append_ne bracket _
  | list inner =>
      rw [follows.list]
      cases bracket <;> simp [Bracket.closing]

theorem Follows.exists_following (follows : Follows layout escaped write)
    {dump : Dump} (wellNamed : WellNamed dump) (level : Nat)
    (rest : List Char) :
    ∃ following,
      write level dump rest =
          dump.heading.1.toList ++
            (markCharacters dump.heading.2 ++ following) ∧
        (dump.heading.2 = none → following = rest) := by
  cases wellNamed with
  | word named => exact ⟨rest, follows.word level _ rest, fun _ => rfl⟩
  | quoted text => exact ⟨_, follows.quoted level text rest, by simp [heading]⟩
  | variant named inner =>
      exact ⟨_, follows.variant level _ _ rest, by simp [heading]⟩
  | record named labelled inner =>
      exact ⟨_, follows.record level _ _ _ rest, by simp [heading]⟩
  | list inner => exact ⟨_, follows.list level _ rest, by simp [heading]⟩

theorem WellNamed.isAlpha_heading {dump : Dump} (wellNamed : WellNamed dump) :
    ∀ letter ∈ dump.heading.1.toList, letter.isAlpha := by
  cases wellNamed with
  | word named => exact named.2
  | variant named inner => exact named.2
  | record named labelled inner => exact named.2
  | quoted | list => simp [heading]

theorem isAlpha_head?_markCharacters {mark : Option Mark}
    (ends : mark = none → Ends rest) :
    ∀ next ∈ (markCharacters mark ++ rest).head?, next.isAlpha = false := by
  intro next isHead
  cases mark with
  | none => exact (ends rfl).noLetter next isHead
  | some mark =>
      rcases mark with - | (- | - | -) <;> cases isHead <;> rfl

/-- The name and the mark of a value can be read off what is written. -/
theorem heading_eq_of_write (follows : Follows layout escaped write)
    (otherFollows : Follows layout otherEscaped otherWrite)
    {first second : Dump} (wellNamed : WellNamed first)
    (otherNamed : WellNamed second) (ends : Ends rest)
    (otherEnds : Ends otherRest)
    (same : write level first rest = otherWrite level second otherRest) :
    first.heading = second.heading := by
  obtain ⟨following, written, wordEnds⟩ :=
    follows.exists_following wellNamed level rest
  obtain ⟨others, otherWritten, otherWordEnds⟩ :=
    otherFollows.exists_following otherNamed level otherRest
  have stops : first.heading.2 = none → Ends following :=
    fun isWord => wordEnds isWord ▸ ends
  have otherStops : second.heading.2 = none → Ends others :=
    fun isWord => otherWordEnds isWord ▸ otherEnds
  rw [written, otherWritten] at same
  obtain ⟨names, marks⟩ := run_append_inj wellNamed.isAlpha_heading
    otherNamed.isAlpha_heading (isAlpha_head?_markCharacters stops)
    (isAlpha_head?_markCharacters otherStops) same
  exact Prod.ext (String.toList_inj.mp names)
    (markCharacters_append_inj stops otherStops marks)

theorem writeField_inj {values others : Dump → List Char → List Char}
    {field other : String × Dump} (labelled : IsLabel field.1)
    (otherLabelled : IsLabel other.1)
    (decodes : values field.2 rest = others other.2 otherRest →
      field.2 = other.2 ∧ rest = otherRest)
    (same : writeField values field rest = writeField others other otherRest) :
    field = other ∧ rest = otherRest := by
  have colon (following : List Char) :
      ∀ next ∈ (':' :: following).head?, next.isAlpha = false := by
    simp
  obtain ⟨labels, following⟩ := run_append_inj labelled.2 otherLabelled.2
    (colon _) (colon _) same
  simp only [List.cons.injEq, true_and] at following
  obtain ⟨valueEq, restEq⟩ := decodes following
  exact ⟨Prod.ext (String.toList_inj.mp labels) valueEq, restEq⟩

/-- Values can be read back in every layout, each up to where it ends. -/
theorem WellNamed.eq_of_write (follows : Follows layout escaped write)
    (otherFollows : Follows layout otherEscaped otherWrite)
    {first second : Dump} (wellNamed : WellNamed first)
    (otherNamed : WellNamed second) (level : Nat) (ends : Ends rest)
    (otherEnds : Ends otherRest)
    (same : write level first rest = otherWrite level second otherRest) :
    first = second ∧ rest = otherRest := by
  induction wellNamed generalizing second level rest otherRest with
  | @word name named =>
      have headings := heading_eq_of_write follows otherFollows (.word named)
        otherNamed ends otherEnds same
      cases otherNamed with
      | word otherNamed =>
          cases headings
          rw [follows.word, otherFollows.word] at same
          exact ⟨rfl, List.append_cancel_left same⟩
      | _ => cases headings
  | quoted text =>
      have headings := heading_eq_of_write follows otherFollows (.quoted text)
        otherNamed ends otherEnds same
      cases otherNamed with
      | quoted other =>
          rw [follows.quoted, otherFollows.quoted] at same
          obtain ⟨rfl, restEq⟩ := writeQuoted_inj same
          exact ⟨rfl, restEq⟩
      | _ => cases headings
  | @variant name content named inner induction =>
      have headings := heading_eq_of_write follows otherFollows
        (.variant named inner) otherNamed ends otherEnds same
      cases otherNamed with
      | variant _ otherInner =>
          cases headings
          rw [follows.variant, otherFollows.variant] at same
          have parts := List.append_cancel_left same
          obtain ⟨contents, restEq⟩ := layout.writeParts_inj
            (by simpa [Layout.Decodes] using
              fun rest otherRest ends otherEnds =>
                induction otherInner (level + 1) ends otherEnds)
            (by simpa using fun text => follows.head?_ne inner .round)
            (by simpa using fun text => otherFollows.head?_ne otherInner .round)
            (List.cons.inj parts).2
          exact ⟨by rw [List.singleton_inj.mp contents], restEq⟩
      | _ => cases headings
  | @record name field fields named labelled inner induction =>
      have headings := heading_eq_of_write follows otherFollows
        (.record named labelled inner) otherNamed ends otherEnds same
      cases otherNamed with
      | record _ otherLabelled otherInner =>
          cases headings
          rw [follows.record, otherFollows.record] at same
          have parts := List.append_cancel_left same
          simp only [List.cons.injEq, true_and] at parts
          obtain ⟨fieldsEq, restEq⟩ := layout.writeParts_inj
            (fun part member other otherMember _ _ ends otherEnds =>
              writeField_inj (labelled part member)
                (otherLabelled other otherMember)
                (induction part member (otherInner other otherMember)
                  (level + 1) ends otherEnds))
            (fun part member _ =>
              (labelled part member).head?_append_ne .curly _)
            (fun other member _ =>
              (otherLabelled other member).head?_append_ne .curly _)
            parts
          exact ⟨by rw [fieldsEq], restEq⟩
      | _ => cases headings
  | @list items inner induction =>
      have headings := heading_eq_of_write follows otherFollows (.list inner)
        otherNamed ends otherEnds same
      cases otherNamed with
      | list otherInner =>
          rw [follows.list, otherFollows.list] at same
          obtain ⟨itemsEq, restEq⟩ := layout.writeParts_inj
            (fun item member other otherMember _ _ ends otherEnds =>
              induction item member (otherInner other otherMember) (level + 1)
                ends otherEnds)
            (fun item member _ => follows.head?_ne (inner item member) .square)
            (fun other member _ =>
              otherFollows.head?_ne (otherInner other member) .square)
            (List.cons.inj same).2
          exact ⟨by rw [itemsEq], restEq⟩
      | _ => cases headings

theorem WellNamed.eq_of_compact {first second : Dump}
    (wellNamed : WellNamed first) (otherNamed : WellNamed second)
    (same : first.compact escaped = second.compact otherEscaped) :
    first = second := by
  have written := String.ofList_injective same
  exact (wellNamed.eq_of_write (follows_writeCompact escaped)
    (follows_writeCompact otherEscaped) otherNamed 0 ends_nil ends_nil
    written).1

theorem WellNamed.eq_of_indented {first second : Dump}
    (wellNamed : WellNamed first) (otherNamed : WellNamed second)
    (same : first.indented escaped = second.indented otherEscaped) :
    first = second := by
  have written := String.ofList_injective same
  exact (wellNamed.eq_of_write (follows_writeIndented escaped)
    (follows_writeIndented otherEscaped) otherNamed 0 ends_nil ends_nil
    written).1

end Decoding

end Dump

open Dump

namespace Token

theorem isLabel_kind_name (token : Token) : IsLabel token.kind.name := by
  cases token <;> simp [kind, TokenKind.name, IsLabel]

theorem wellNamed_dump (token : Token) : token.dump.WellNamed := by
  have named := token.isLabel_kind_name
  cases token with
  | number text | string text | identifier text =>
      exact .variant named (.quoted text)
  | _ => exact .word named

theorem dump_injective : Function.Injective Token.dump := by
  intro first second same
  cases first <;> cases second <;>
    simp_all [Token.dump, Token.kind, TokenKind.name]

end Token

namespace Phrase

theorem wellNamed_nameDump (name : String) : (nameDump name).WellNamed := by
  refine .record (by simp [IsLabel]) (by simp [IsLabel]) ?_
  simpa using WellNamed.quoted name

theorem wellNamed_callDump (callee : String) {arguments : List Dump}
    (inner : ∀ argument ∈ arguments, argument.WellNamed) :
    (callDump callee arguments).WellNamed := by
  refine .record (by simp [IsLabel]) (by simp [IsLabel]) ?_
  simpa using ⟨wellNamed_nameDump callee, WellNamed.list inner⟩

mutual

theorem wellNamed_dump (phrase : Phrase) : phrase.dump.WellNamed := by
  cases phrase with
  | statement callee arguments | call callee arguments =>
      exact .variant (by simp [IsLabel])
        (wellNamed_callDump callee (wellNamed_dumps arguments))
  | name identifier =>
      exact .variant (by simp [IsLabel]) (wellNamed_nameDump identifier)
  | number text | string text =>
      exact .variant (by simp [IsLabel]) (.quoted text)
  | blank | newline | var | equals | semicolon =>
      exact .word (by simp [IsLabel])

theorem wellNamed_dumps (phrases : List Phrase) :
    ∀ dump ∈ dumps phrases, dump.WellNamed := by
  cases phrases with
  | nil => simp [dumps]
  | cons phrase phrases =>
      have first := wellNamed_dump phrase
      have rest := wellNamed_dumps phrases
      simpa [dumps, first] using rest

end

theorem callDump_inj {callee other : String} {arguments others : List Dump}
    (same : callDump callee arguments = callDump other others) :
    callee = other ∧ arguments = others := by
  simpa [callDump, nameDump] using same

mutual

theorem eq_of_dump_eq {first second : Phrase}
    (same : first.dump = second.dump) : first = second := by
  cases first with
  | statement callee arguments =>
      cases second with
      | statement other others =>
          simp only [dump, Dump.variant.injEq, true_and] at same
          obtain ⟨rfl, inner⟩ := callDump_inj same
          rw [eq_of_dumps_eq inner]
      | _ => simp [dump] at same
  | call callee arguments =>
      cases second with
      | call other others =>
          simp only [dump, Dump.variant.injEq, true_and] at same
          obtain ⟨rfl, inner⟩ := callDump_inj same
          rw [eq_of_dumps_eq inner]
      | _ => simp [dump] at same
  | _ => cases second <;> simp_all [dump, nameDump]

theorem eq_of_dumps_eq {first second : List Phrase}
    (same : dumps first = dumps second) : first = second := by
  cases first with
  | nil =>
      cases second with
      | nil => rfl
      | cons phrase phrases => simp [dumps] at same
  | cons phrase phrases =>
      cases second with
      | nil => simp [dumps] at same
      | cons other others =>
          simp only [dumps, List.cons.injEq] at same
          rw [eq_of_dump_eq same.1, eq_of_dumps_eq same.2]

end

end Phrase

theorem eq_of_tokensDump_eq {escaped otherEscaped : Char → Bool}
    {first second : List Token}
    (same : tokensDump escaped first = tokensDump otherEscaped second) :
    first = second := by
  have wellNamed (tokens : List Token) :
      (Dump.list (tokens.map Token.dump)).WellNamed := by
    refine .list ?_
    simpa using fun token _ => token.wellNamed_dump
  have dumps := (wellNamed first).eq_of_compact (wellNamed second) same
  exact List.map_injective_iff.mpr Token.dump_injective (Dump.list.inj dumps)

theorem eq_of_phrasesDump_eq {escaped otherEscaped : Char → Bool}
    {first second : List Phrase}
    (same : phrasesDump escaped first = phrasesDump otherEscaped second) :
    first = second := by
  have wellNamed (phrases : List Phrase) :
      (Dump.record "Program"
        [("body", .list (Phrase.dumps phrases))]).WellNamed := by
    refine .record (by simp [IsLabel]) (by simp [IsLabel]) ?_
    simpa using WellNamed.list (Phrase.wellNamed_dumps phrases)
  have dumps := (wellNamed first).eq_of_indented (wellNamed second) same
  simp only [Dump.record.injEq, List.cons.injEq, Prod.mk.injEq,
    Dump.list.injEq, true_and, and_true] at dumps
  exact Phrase.eq_of_dumps_eq dumps

/-- The dump of tokens tells the tokens, and the dump of an output program
tells the program, whatever texts they carry and whatever class of characters
is escaped. -/
theorem tokensDump_and_phrasesDump_injective (escaped : Char → Bool) :
    Function.Injective (tokensDump escaped) ∧
      Function.Injective (phrasesDump escaped) := by
  constructor
  · intro first second same
    exact eq_of_tokensDump_eq same
  · intro first second same
    exact eq_of_phrasesDump_eq same

-- A name that looks like the end of one token and the beginning of another.
example :
    tokensDump (fun _ => false) [.identifier "f\"), Identifier(\"g"] ≠
      tokensDump (fun _ => false) [.identifier "f", .identifier "g"] := by
  cbv

end ParenCall
