import RailSpec.Text.Digit
import RailSpec.Text.Printable

/-! Quoted texts: with escapes for the generated documents, and as messages show them. -/

namespace RailSpec.Text

/-- Writes a backslash before every quote and backslash. -/
def escaped : List Char → List Char
  | [] => []
  | c :: rest => if c = '"' || c = '\\' then '\\' :: c :: escaped rest else c :: escaped rest

/-- A text between double quotes, as the generated documents write it. -/
def doubleQuoted (text : String) : String :=
  String.ofList ('"' :: escaped text.toList ++ ['"'])

/-- One character of a text that a message shows between quotes of the kind `quote`. -/
def shownChar (quote c : Char) : List Char :=
  if c = quote || c = '\\' then ['\\', c]
  else if c = '\n' then ['\\', 'n']
  else if c = '\r' then ['\\', 'r']
  else if c = '\t' then ['\\', 't']
  else if isPrintable c then [c]
  else if c.toNat < 0x100 then '\\' :: 'x' :: hexDigits 2 c.toNat
  else if c.toNat < 0x10000 then '\\' :: 'u' :: hexDigits 4 c.toNat
  else '\\' :: 'U' :: hexDigits 8 c.toNat

/-- The quote a message puts around a text: single, unless the text has single quotes and no double
ones. -/
def shownQuote (text : List Char) : Char :=
  if text.contains '\x27' && !text.contains '"' then '"' else '\x27'

/-- A text as messages show it. -/
def shown (text : String) : String :=
  let quote := shownQuote text.toList
  String.ofList (quote :: text.toList.flatMap (shownChar quote) ++ [quote])

end RailSpec.Text
