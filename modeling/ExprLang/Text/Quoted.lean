import ExprLang.Text.Extending
import ExprLang.Text.Ignorable
import ExprLang.Text.Unprintable

/-! # Quoted text

Messages show text from a source between quotes, so that every character in it can be seen. Tab, line
breaks, the null character, the backslash and the enclosing quote get a backslash. A character that
has no mark of its own, or that would change its neighbour's, is spelled as its code point.

The half-width sound marks of Katakana count as extending, but stand in a place of their own behind
their letter. So they are shown as they are.
-/

namespace ExprLang.Text

/-- The code point in lower-case hexadecimal, between braces. -/
def spellCodePoint (c : Char) : List Char :=
  ['\\', 'u', '\x7b'] ++ Nat.toDigits 16 c.toNat ++ ['\x7d']

/-- The half-width voiced and semi-voiced sound marks. -/
def isSoundMark (c : Char) : Bool := c = '\uff9e' || c = '\uff9f'

/-- A reader would not see the character, or not apart from the one before it. -/
def isHidden (c : Char) : Bool :=
  isUnprintable c || isIgnorable c || (isExtending c && !isSoundMark c)

/-- How a character stands in text enclosed by `quote`. -/
def quoteChar (quote c : Char) : List Char :=
  if c = '\x00' then ['\\', '0']
  else if c = '\t' then ['\\', 't']
  else if c = '\r' then ['\\', 'r']
  else if c = '\n' then ['\\', 'n']
  else if c = '\\' || c = quote then ['\\', c]
  else if isHidden c then spellCodePoint c
  else [c]

def quote (s : String) : String :=
  String.ofList ('\x22' :: s.toList.flatMap (quoteChar '\x22') ++ ['\x22'])

def quoteOne (c : Char) : String :=
  String.ofList ('\x27' :: quoteChar '\x27' c ++ ['\x27'])

example : quote "\u1160 \uff9e" = "\"\\u\x7b1160\x7d \uff9e\"" := by decide +kernel

end ExprLang.Text
