import BoardDesign.Text.Hex
import BoardDesign.Text.Visible
/-!
A text between double quotes, for messages: quotes, backslashes and the usual controls after a
backslash, every other character that would not show as its number in hexadecimal.
-/

namespace BoardDesign.Text.Quoted

def char (c : Char) : List Char :=
  if c = '\x00' then ['\\', '0']
  else if c = '\t' then ['\\', 't']
  else if c = '\r' then ['\\', 'r']
  else if c = '\n' then ['\\', 'n']
  else if c = '\\' then ['\\', '\\']
  else if c = '"' then ['\\', '"']
  else if isVisible c then [c]
  else ['\\', 'u', '\x7b'] ++ Hex.ofNat c.toNat ++ ['\x7d']

/-- The text in quotes, as a message shows it. -/
def quote (s : String) : String :=
  String.ofList ('"' :: s.toList.flatMap char ++ ['"'])

end BoardDesign.Text.Quoted
