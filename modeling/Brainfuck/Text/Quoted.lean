import Brainfuck.Text.GraphemeExtend
import Brainfuck.Text.Unprintable

/-!
# Quoted characters

A character between single quotes. Some characters have an escape of their own. One that could not
be seen by itself is written by its number.
-/

namespace Brainfuck.Text

/-- The number of a character in hexadecimal, with lower-case digits. -/
def hex (c : Char) : List Char := Nat.toDigits 16 c.toNat

/-- The character as it stands between the quotes. -/
def escaped (c : Char) : List Char :=
  if c = '\x00' then ['\\', '0']
  else if c = '\t' then ['\\', 't']
  else if c = '\r' then ['\\', 'r']
  else if c = '\n' then ['\\', 'n']
  else if c = '\'' || c = '\\' then ['\\', c]
  else if extendsGrapheme c || !isPrintable c then ['\\', 'u', '{'] ++ hex c ++ ['}']
  else [c]

def quoted (c : Char) : String := String.ofList (['\''] ++ escaped c ++ ['\''])

end Brainfuck.Text
