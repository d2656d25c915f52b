import LoxTokenizer.Text.Combining
import LoxTokenizer.Text.Unprintable

/-!
# Quoted texts and characters

A text between double quotes, or a character between single ones, in which everything that would
not show as itself is spelled out: the backslash and the quote in use get a backslash, five
controls have a letter or digit of their own, and other characters that have no printed form or
extend the one before them are written by code point, in lower-case hexadecimal. A character that is
none of these stands for itself.
-/

namespace LoxTokenizer.Text

/-- The code point of a character in lower-case hexadecimal, between braces. -/
def codePoint (c : Char) : List Char :=
  ['\\', 'u', '{'] ++ Nat.toDigits 16 c.toNat ++ ['}']

/-- The written form of a character inside the given quotes. -/
def escape (quote : Char) (c : Char) : List Char :=
  if c = '\x00' then ['\\', '0']
  else if c = '\t' then ['\\', 't']
  else if c = '\n' then ['\\', 'n']
  else if c = '\r' then ['\\', 'r']
  else if c = '\\' ∨ c = quote then ['\\', c]
  else if isUnprintable c || isCombining c then codePoint c
  else [c]

/-- A text between double quotes. -/
def quoteText (text : List Char) : List Char :=
  '"' :: text.flatMap (escape '"') ++ ['"']

/-- A character between single quotes. -/
def quoteChar (c : Char) : List Char :=
  '\'' :: escape '\'' c ++ ['\'']

/-- A string between double quotes. -/
def quoted (s : String) : String :=
  String.ofList (quoteText s.toList)

end LoxTokenizer.Text
