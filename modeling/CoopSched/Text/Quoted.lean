import CoopSched.Text.Extending
import CoopSched.Text.Ignorable
import CoopSched.Text.Unprintable

/-!
# Quoted text — any text on one line, between quotes

A quoted text can be read back without doubt: quotes and backslashes are escaped, and so is every
character that would not show as itself, because it leaves no mark or would join its neighbour.
-/

namespace CoopSched
namespace Text

/-- An escape by number, `\u{7}`: the digits are hexadecimal, in lower case, and as few as
    possible. -/
def escapeNumber (c : Char) : List Char :=
  '\\' :: 'u' :: '\x7b' :: Nat.toDigits 16 c.toNat ++ ['\x7d']

/-- Is the character a sound mark of halfwidth katakana? These two extend the letter before them,
    and have a place of their own all the same. -/
def isHalfwidthSoundMark (c : Char) : Bool := c == '\uff9e' || c == '\uff9f'

/-- Would the character not show as itself? -/
def isHidden (c : Char) : Bool :=
  isUnprintable c || isIgnorable c || (isExtending c && !isHalfwidthSoundMark c)

/-- A character as it stands in a quoted text. -/
def quoteChar (c : Char) : List Char :=
  if c = '\x00' then ['\\', '0']
  else if c = '\t' then ['\\', 't']
  else if c = '\r' then ['\\', 'r']
  else if c = '\n' then ['\\', 'n']
  else if c = '"' ∨ c = '\\' then ['\\', c]
  else if isHidden c then escapeNumber c
  else [c]

/-- A text in quotes. -/
def quoted (s : String) : String :=
  String.ofList ('"' :: s.toList.flatMap quoteChar ++ ['"'])

end Text
end CoopSched
