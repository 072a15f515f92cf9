import ServiceKit.Logging.Severity
import ServiceKit.Number.Numeral
import ServiceKit.Text.Pieces
import ServiceKit.Text.Quoted

/-!
# Log records

A record is a severity, the target it came from, a message, and named fields; it is written inside
spans.  A record is written as it is or in a text form, plain or with terminal colors.
-/

namespace ServiceKit
namespace Logging

/-- The value of a field. -/
inductive FieldValue where
  | text (value : String)
  | number (value : Nat)
  | flag (value : Bool)
  deriving DecidableEq, Repr

/-- The value as text. -/
def FieldValue.render : FieldValue → String
  | .text value => value
  | .number value => String.ofList (Numeral.digits value)
  | .flag value => if value then "true" else "false"

/-- What happened, without where and in which spans. -/
structure Event where
  severity : Severity
  message : String
  fields : List (String × FieldValue)
  deriving DecidableEq, Repr

/-- A named part of the program's run, with fields. -/
structure Span where
  name : String
  fields : List (String × FieldValue)
  deriving DecidableEq, Repr

/-- An event with its target and the spans it happened in, the outermost first. -/
structure Record where
  target : String
  event : Event
  spans : List Span
  deriving DecidableEq, Repr

/-- How the parts of a line are set off. -/
structure Style where
  /-- The severity. -/
  severity : Severity → String
  /-- Names of fields. -/
  italic : String → String
  /-- Names of spans and the braces around their fields. -/
  bold : String → String
  /-- Targets and punctuation. -/
  dimmed : String → String

namespace Style

/-- No decoration; severities are not padded. -/
def plain : Style :=
  ⟨Severity.name, id, id, id⟩

/-- A text in a terminal's graphic mode. -/
def inMode (mode text : String) : String :=
  "\x1b[" ++ mode ++ "m" ++ text ++ "\x1b[0m"

/-- The color of a severity. -/
def color : Severity → String
  | .error => "31"
  | .warn => "33"
  | .info => "32"
  | .debug => "34"
  | .trace => "35"

/-- Severities are padded to five characters and colored. -/
def coloredSeverity (severity : Severity) : String :=
  let name := severity.name
  inMode (color severity) (String.ofList (List.replicate (5 - name.length) ' ') ++ name)

/-- Terminal colors. -/
def colored : Style :=
  ⟨coloredSeverity, inMode "3", inMode "1", inMode "2"⟩

end Style

namespace Record

/-- The form of a character in the message of a line: characters that steer a terminal are shown. -/
def shownChar (c : Char) : List Char :=
  if c = '\x1b' then "\\x1b".toList
  else if c = '\x07' then "\\x07".toList
  else if c = '\x08' then "\\x08".toList
  else if c = '\x0c' then "\\x0c".toList
  else if c = '\x7f' then "\\x7f".toList
  else if 0x80 ≤ c.toNat ∧ c.toNat ≤ 0x9f then
    "\\u\x7b".toList ++ Text.Quoted.hexDigits c.toNat ++ ['\x7d']
  else [c]

/-- The form of a message in a line. -/
def shownMessage (message : String) : String :=
  String.ofList (message.toList.flatMap shownChar)

/-- A field in a line. -/
def fieldText (style : Style) (field : String × FieldValue) : String :=
  style.italic field.1 ++ style.dimmed "=" ++ field.2.render

/-- The fields of a span or event, separated by spaces. -/
def fieldsText (style : Style) (fields : List (String × FieldValue)) : String :=
  " ".intercalate (fields.map (fieldText style))

/-- A span in a line. -/
def spanText (style : Style) (span : Span) : String :=
  let fields :=
    if span.fields = [] then ""
    else style.bold "\x7b" ++ fieldsText style span.fields ++ style.bold "\x7d"
  style.bold span.name ++ fields ++ style.dimmed ":"

/-- The spans in a line, with a space behind them if there are any. -/
def spansText (style : Style) (spans : List Span) : String :=
  if spans = [] then "" else String.join (spans.map (spanText style)) ++ " "

/-- The line of a record, from its severity on. -/
def line (style : Style) (record : Record) : String :=
  style.severity record.event.severity ++ " " ++ spansText style record.spans ++
    style.dimmed record.target ++ style.dimmed ":" ++ " " ++ shownMessage record.event.message ++
    String.join (record.event.fields.map fun field => " " ++ fieldText style field)

end Record

/-- A line as it is written: a record for machines, or text. -/
inductive Line where
  | record (record : Record)
  | text (text : String)
  deriving DecidableEq, Repr

/-- The lines of a text. -/
def textLines (s : String) : List Line :=
  (Text.pieces '\n' s.toList).map fun cs => .text (String.ofList cs)

/-- The lines that a record takes. -/
def Record.lines (json colored : Bool) (record : Record) : List Line :=
  if json then [.record record]
  else textLines (record.line (if colored then .colored else .plain))

end Logging
end ServiceKit
