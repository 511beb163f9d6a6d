import ProjectCompiler.Text.Extender
import ProjectCompiler.Text.Shape

/-!
# Escaped — texts in messages

A message shows a foreign text between double quotes on one line: quotes and backslashes have a
backslash in front, line ends and tabs are named, and other characters that have no shape or would
change the one before them are given by number.
-/

namespace ProjectCompiler

namespace Escaped

def hexadecimal (n : Nat) : List Char :=
  Nat.toDigits 16 n

def escapeCharacter (c : Char) : List Char :=
  if c = '"' ∨ c = '\\' then ['\\', c]
  else if c = '\n' then ['\\', 'n']
  else if c = '\r' then ['\\', 'r']
  else if c = '\t' then ['\\', 't']
  else if c.toNat = 0 then ['\\', '0']
  else if Shape.isShapeless c ∨ Extender.isExtender c then
    ['\\', 'u', '\x7b'] ++ hexadecimal c.toNat ++ ['\x7d']
  else [c]

def quoted (text : String) : String :=
  "\"" ++ String.ofList (text.toList.flatMap escapeCharacter) ++ "\""

end Escaped

end ProjectCompiler
