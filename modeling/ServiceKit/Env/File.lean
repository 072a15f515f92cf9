import ServiceKit.Environment
import ServiceKit.Text.Blank
import ServiceKit.Text.Pieces

/-!
# Environment files

A file of lines `KEY=value`.  Empty lines and comments are skipped, a line may begin with `export`,
and values may stand in quotes; a quote or an escape that is open at the end of a line joins it with
the next one.  Reading stops at the first malformed line and keeps what came before it.  A file only
fills in: variables that are set already, to text, keep their values, and of several assignments to
one variable the first counts.
-/

namespace ServiceKit

/-- An environment file that substitutes no variables: its text is without the dollar sign, with
which a substitution begins. -/
structure EnvFile where
  text : String
  noSubstitution : '$' ∉ text.toList
  deriving DecidableEq, Repr

namespace EnvFile

/-- What a line of the file says. -/
inductive Line where
  /-- Nothing, or a comment. -/
  | blank
  | assignment (key : String) (value : List Char)
  | malformed
  deriving DecidableEq, Repr

/-- Where the reader of a value stands. -/
inductive Place where
  | bare
  | singleQuoted
  | doubleQuoted
  /-- Behind a backslash outside quotes. -/
  | escaped
  /-- Behind a backslash in double quotes. -/
  | escapedQuoted
  /-- Behind the value: only blanks and a comment may follow. -/
  | ended
  deriving DecidableEq, Repr

/-- The character that an escape stands for. -/
def unescape? (c : Char) : Option Char :=
  if c = '\\' ∨ c = '\'' ∨ c = '"' ∨ c = ' ' then some c
  else if c = 'n' then some '\n'
  else none

/-- Reads a value from a place on; `none` if it is malformed. -/
def readValue? : Place → List Char → Option (List Char)
  | .bare, [] => some []
  | .escaped, [] => some []
  | .ended, [] => some []
  | .singleQuoted, [] => none
  | .doubleQuoted, [] => none
  | .escapedQuoted, [] => none
  | .bare, c :: cs =>
    if c = '\'' then readValue? .singleQuoted cs
    else if c = '"' then readValue? .doubleQuoted cs
    else if c = '\\' then readValue? .escaped cs
    else if c = ' ' ∨ c = '\t' then readValue? .ended cs
    else (readValue? .bare cs).map (c :: ·)
  | .singleQuoted, c :: cs =>
    if c = '\'' then readValue? .bare cs else (readValue? .singleQuoted cs).map (c :: ·)
  | .doubleQuoted, c :: cs =>
    if c = '"' then readValue? .bare cs
    else if c = '\\' then readValue? .escapedQuoted cs
    else (readValue? .doubleQuoted cs).map (c :: ·)
  | .escaped, c :: cs => do return (← unescape? c) :: (← readValue? .bare cs)
  | .escapedQuoted, c :: cs => do return (← unescape? c) :: (← readValue? .doubleQuoted cs)
  | .ended, c :: cs =>
    if c = ' ' ∨ c = '\t' then readValue? .ended cs
    else if c = '#' then some []
    else none

/-- A character that can begin a key. -/
def beginsKey (c : Char) : Bool :=
  c.isAlpha || c == '_'

/-- A character that can continue a key. -/
def continuesKey (c : Char) : Bool :=
  c.isAlphanum || c == '_' || c == '.'

/-- The key that begins a text, and what follows it and the blanks behind it. -/
def readKey? : List Char → Option (List Char × List Char)
  | [] => none
  | c :: cs =>
    if beginsKey c then
      some ((c :: cs).takeWhile continuesKey, Text.trimStart ((c :: cs).dropWhile continuesKey))
    else none

/-- Reads the value behind the equals sign, which must come first. -/
def readAssignment (key : List Char) : List Char → Line
  | '=' :: rest =>
    let rest := Text.trimStart rest
    let value := if rest.head? = some '#' then some [] else readValue? .bare rest
    match value with
    | some value => .assignment (String.ofList key) value
    | none => .malformed
  | _ => .malformed

/-- Reads a line. -/
def Line.read (line : List Char) : Line :=
  let line := Text.trim line
  if line = [] ∨ line.head? = some '#' then .blank
  else
    match readKey? line with
    | none => .malformed
    | some (key, rest) =>
      if key = "export".toList ∧ rest.head? ≠ some '=' then
        match readKey? rest with
        | none => .malformed
        | some (key, rest) => readAssignment key rest
      else readAssignment key rest

/-- The text without a byte-order mark at its start. -/
def withoutMark : List Char → List Char
  | c :: cs => if c.toNat = 0xfeff then cs else c :: cs
  | [] => []

/-- What the characters of a line so far leave open. -/
inductive Opened where
  | nothing
  /-- A blank, right behind which a comment can begin. -/
  | blank
  | escape
  | singleQuote
  | singleQuoteEscape
  | doubleQuote
  | doubleQuoteEscape
  deriving DecidableEq, Repr

namespace Opened

/-- What a character outside quotes opens. -/
def bare (c : Char) : Opened :=
  if c = '\\' then escape
  else if c = '"' then doubleQuote
  else if c = '\'' then singleQuote
  else nothing

/-- What is open behind one more character. -/
def next (c : Char) : Opened → Opened
  | nothing => if Text.isBlank c && c ≠ '\n' && c ≠ '\r' then blank else bare c
  | blank => bare c
  | escape => nothing
  | singleQuote =>
    if c = '\\' then singleQuoteEscape else if c = '\'' then nothing else singleQuote
  | singleQuoteEscape => singleQuote
  | doubleQuote =>
    if c = '\\' then doubleQuoteEscape else if c = '"' then nothing else doubleQuote
  | doubleQuoteEscape => doubleQuote

end Opened

/-- The characters of a line up to a comment behind a blank, and what they leave open; `none` if a
comment ends the line. -/
def scan : Opened → List Char → List Char × Option Opened
  | opened, [] => ([], some opened)
  | opened, c :: cs =>
    if opened = .blank ∧ c = '#' then ([], none)
    else
      let (kept, last) := scan (opened.next c) cs
      (c :: kept, last)

/-- Joins lines while something is left open; `none` stands for an end of the file at which
something still is. -/
def joinLines (opened : Opened) (start : List Char) :
    List (List Char) → List (Option (List Char))
  | [] => if opened = .nothing then [] else [none]
  | line :: rest =>
    if (Text.trimStart (start ++ line)).head? = some '#' then
      some [] :: joinLines .nothing [] rest
    else
      match scan opened line with
      | (kept, none) => some (start ++ kept) :: joinLines .nothing [] rest
      | (_, some .nothing) => some (start ++ line) :: joinLines .nothing [] rest
      | (_, some opened) => joinLines opened (start ++ line) rest

/-- The lines of a text with their ends. -/
def endedLines : List (List Char) → List (List Char)
  | [] => []
  | [last] => if last = [] then [] else [last]
  | line :: rest => (line ++ ['\n']) :: endedLines rest

/-- Reads a joined line. -/
def Line.ofJoined : Option (List Char) → Line
  | some line => .read line
  | none => .malformed

/-- The lines of a text. -/
def lines (s : String) : List Line :=
  (joinLines .nothing [] (endedLines (Text.pieces '\n' (withoutMark s.toList)))).map Line.ofJoined

/-- The assignments of the lines before the first malformed one. -/
def assignments : List Line → List (String × List Char)
  | [] => []
  | .blank :: rest => assignments rest
  | .assignment key value :: rest => (key, value) :: assignments rest
  | .malformed :: _ => []

end EnvFile

namespace Variables

/-- Gives a variable a value unless it is set to text already.  A process cannot set a variable to a
value with the zero character: the attempt is a panic, which is `none`. -/
def fillIn? (vars : Variables) (entry : String × List Char) : Option Variables :=
  if vars.hasText entry.1 then some vars
  else if '\x00' ∈ entry.2 then none
  else some (vars.set entry.1 (Text.Utf8.encode entry.2))

/-- Fills in the variables that a file assigns, one assignment after another. -/
def withFile? (vars : Variables) (file : EnvFile) : Option Variables :=
  (EnvFile.assignments (EnvFile.lines file.text)).foldlM fillIn? vars

end Variables
end ServiceKit
