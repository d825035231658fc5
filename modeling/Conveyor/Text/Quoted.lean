import Conveyor.Text.Hex
import Conveyor.Text.Unprintable

/-!
Text between double quotes as diagnostics show it: quotes and backslashes escaped, common controls
by letter, and every character that would not show on its own by its code point in braces.
-/

namespace Conveyor.Text

def quoteChar (c : Char) : List Char :=
  if c = '\x00' then ['\\', '0']
  else if c = '\t' then ['\\', 't']
  else if c = '\r' then ['\\', 'r']
  else if c = '\n' then ['\\', 'n']
  else if c = '"' then ['\\', '"']
  else if c = '\\' then ['\\', '\\']
  else if unprintable.contains c then ['\\', 'u', '\x7b'] ++ hexDigits c.toNat ++ ['\x7d']
  else [c]

def quote (s : String) : String := String.ofList ('"' :: s.toList.flatMap quoteChar ++ ['"'])

end Conveyor.Text
