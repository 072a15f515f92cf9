import ServiceKit.Text.Visible

/-!
# Quoted text

A text between double quotes on one line.  A character that does not show is written by its code
point, the quote and the backslash after a backslash, and the usual controls by a letter.  No two
texts have the same quoted form, because `read?` gives the text back.
-/

namespace ServiceKit
namespace Text
namespace Quoted

/-- The lower-case hexadecimal digit of a number below sixteen. -/
def hexDigit (n : Nat) : Char :=
  if n < 10 then Char.ofNat (48 + n) else Char.ofNat (87 + n)

/-- The lower-case hexadecimal digits of a number, without leading zeros. -/
def hexDigits (n : Nat) : List Char :=
  if n < 16 then [hexDigit n] else hexDigits (n / 16) ++ [hexDigit (n % 16)]

/-- How a character stands inside the quotes. -/
def escape (c : Char) : List Char :=
  if c = '\x00' then ['\\', '0']
  else if c = '\t' then ['\\', 't']
  else if c = '\r' then ['\\', 'r']
  else if c = '\n' then ['\\', 'n']
  else if c = '"' then ['\\', '"']
  else if c = '\\' then ['\\', '\\']
  else if isVisible c then [c]
  else ['\\', 'u', '{'] ++ hexDigits c.toNat ++ ['}']

/-- The text between quotes. -/
def quote (cs : List Char) : List Char :=
  '"' :: cs.flatMap escape ++ ['"']

/-- The value of a lower-case hexadecimal digit. -/
def hexValue? (c : Char) : Option Nat :=
  if '0' ≤ c ∧ c ≤ '9' then some (c.toNat - 48)
  else if 'a' ≤ c ∧ c ≤ 'f' then some (c.toNat - 87)
  else none

/-- The number that hexadecimal digits denote. -/
def hexNumber? (ds : List Char) : Option Nat :=
  ds.foldl (fun n d => do return (← n) * 16 + (← hexValue? d)) (some 0)

/-- The character that begins a text inside quotes, and what follows it. -/
def readChar? : List Char → Option (Char × List Char)
  | '\\' :: '0' :: rest => some ('\x00', rest)
  | '\\' :: 't' :: rest => some ('\t', rest)
  | '\\' :: 'r' :: rest => some ('\r', rest)
  | '\\' :: 'n' :: rest => some ('\n', rest)
  | '\\' :: '"' :: rest => some ('"', rest)
  | '\\' :: '\\' :: rest => some ('\\', rest)
  | '\\' :: 'u' :: '{' :: rest =>
    match rest.dropWhile (· ≠ '}') with
    | [] => none
    | _ :: after => do return (Char.ofNat (← hexNumber? (rest.takeWhile (· ≠ '}'))), after)
  | c :: rest => if c = '\\' ∨ c = '"' then none else some (c, rest)
  | [] => none

/-- Reads characters until the closing quote; `fuel` bounds their number. -/
def readBody? : Nat → List Char → Option (List Char)
  | _, ['"'] => some []
  | 0, _ => none
  | fuel + 1, cs => do
    let (c, rest) ← readChar? cs
    return c :: (← readBody? fuel rest)

/-- Reads a quoted text back. -/
def read? : List Char → Option (List Char)
  | '"' :: rest => readBody? rest.length rest
  | _ => none

end Quoted

/-- A string between quotes. -/
def quoted (s : String) : String :=
  String.ofList (Quoted.quote s.toList)

end Text
end ServiceKit
