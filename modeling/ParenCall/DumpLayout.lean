import ParenCall.QuotedText

/-!
# Dumps of structured values

A dump shows a value as words, quoted texts, variants with one content,
records with labelled fields, and lists.  It is laid out on one line, or over
several lines with four blanks for each level and a comma after each part.
The class of characters that quoted texts escape is a parameter of both
layouts.

Each layout writes a value in front of the characters that follow it, so a
value is written once whatever it stands in.
-/

namespace ParenCall

/-- The structure that a dump shows. -/
inductive Dump
  | word (name : String)
  | quoted (text : String)
  | variant (name : String) (content : Dump)
  | record (name : String) (fields : List (String × Dump))
  | list (items : List Dump)

namespace Dump

mutual

/-- Writes a value on one line, and `rest` after it. -/
def writeCompact (escaped : Char → Bool) : Dump → List Char → List Char
  | .word name, rest => name.toList ++ rest
  | .quoted text, rest => writeQuoted escaped text rest
  | .variant name content, rest =>
      name.toList ++ '(' :: writeCompact escaped content (')' :: rest)
  | .record name [], rest => name.toList ++ rest
  | .record name (field :: fields), rest =>
      name.toList ++ ' ' :: '\x7b' :: ' ' ::
        writeCompactField escaped field
          (writeMoreFields escaped fields (' ' :: '\x7d' :: rest))
  | .list [], rest => '[' :: ']' :: rest
  | .list (item :: items), rest =>
      '[' :: writeCompact escaped item
        (writeMoreItems escaped items (']' :: rest))

/-- Writes the label and the value of a field on one line. -/
def writeCompactField (escaped : Char → Bool) :
    String × Dump → List Char → List Char
  | (label, value), rest =>
      label.toList ++ ':' :: ' ' :: writeCompact escaped value rest

/-- Writes the fields after the first one, each after a comma. -/
def writeMoreFields (escaped : Char → Bool) :
    List (String × Dump) → List Char → List Char
  | [], rest => rest
  | field :: fields, rest =>
      ',' :: ' ' :: writeCompactField escaped field
        (writeMoreFields escaped fields rest)

/-- Writes the items after the first one, each after a comma. -/
def writeMoreItems (escaped : Char → Bool) :
    List Dump → List Char → List Char
  | [], rest => rest
  | item :: items, rest =>
      ',' :: ' ' :: writeCompact escaped item
        (writeMoreItems escaped items rest)

end

/-- A value on one line. -/
def compact (escaped : Char → Bool) (dump : Dump) : String :=
  String.ofList (dump.writeCompact escaped [])

/-- The blanks before a line at the given level. -/
def indentation (level : Nat) : List Char :=
  List.replicate (4 * level) ' '

mutual

/-- Writes a value over several lines, and `rest` after it.  The first line
continues a line at the given level.  An empty list stays on its line. -/
def writeIndented (escaped : Char → Bool) (level : Nat) :
    Dump → List Char → List Char
  | .word name, rest => name.toList ++ rest
  | .quoted text, rest => writeQuoted escaped text rest
  | .variant name content, rest =>
      name.toList ++ '(' :: '\n' ::
        (indentation (level + 1) ++
          writeIndented escaped (level + 1) content
            (',' :: '\n' :: (indentation level ++ ')' :: rest)))
  | .record name [], rest => name.toList ++ rest
  | .record name (field :: fields), rest =>
      name.toList ++ ' ' :: '\x7b' :: '\n' ::
        (indentation (level + 1) ++
          writeIndentedField escaped (level + 1) field
            (',' :: '\n' ::
              writeFieldLines escaped (level + 1) fields
                (indentation level ++ '\x7d' :: rest)))
  | .list [], rest => '[' :: ']' :: rest
  | .list (item :: items), rest =>
      '[' :: '\n' ::
        (indentation (level + 1) ++
          writeIndented escaped (level + 1) item
            (',' :: '\n' ::
              writeItemLines escaped (level + 1) items
                (indentation level ++ ']' :: rest)))

/-- Writes the label and the value of a field over several lines. -/
def writeIndentedField (escaped : Char → Bool) (level : Nat) :
    String × Dump → List Char → List Char
  | (label, value), rest =>
      label.toList ++ ':' :: ' ' :: writeIndented escaped level value rest

/-- Writes fields on lines of their own, each with a comma after it. -/
def writeFieldLines (escaped : Char → Bool) (level : Nat) :
    List (String × Dump) → List Char → List Char
  | [], rest => rest
  | field :: fields, rest =>
      indentation level ++
        writeIndentedField escaped level field
          (',' :: '\n' :: writeFieldLines escaped level fields rest)

/-- Writes items on lines of their own, each with a comma after it. -/
def writeItemLines (escaped : Char → Bool) (level : Nat) :
    List Dump → List Char → List Char
  | [], rest => rest
  | item :: items, rest =>
      indentation level ++
        writeIndented escaped level item
          (',' :: '\n' :: writeItemLines escaped level items rest)

end

/-- A value over several lines, without a line feed at the end. -/
def indented (escaped : Char → Bool) (dump : Dump) : String :=
  String.ofList (dump.writeIndented escaped 0 [])

end Dump

end ParenCall
