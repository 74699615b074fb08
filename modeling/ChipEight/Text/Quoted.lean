import ChipEight.Text.Hex
import ChipEight.Text.Printable

/-!
# ChipEight.Text.Quoted

A text between quotes, so that it can be shown in a message. Single quotes are used, unless the text
holds one and no double quote. Whatever cannot be shown is written as an escape.

* `Quoted.escape`: how one character is written.
* `Quoted.quote`: the whole text.
-/

namespace ChipEight
namespace Quoted

/-- The quote for a text. -/
def mark (s : List Char) : Char :=
  if s.contains '\'' && !s.contains '"' then '"' else '\''

/-- The escape of a character by its number: two, four or eight digits. -/
def numbered (n : Nat) : List Char :=
  if n < 0x100 then '\\' :: 'x' :: Hex.fill 2 (Hex.lower n)
  else if n < 0x10000 then '\\' :: 'u' :: Hex.fill 4 (Hex.lower n)
  else '\\' :: 'U' :: Hex.fill 8 (Hex.lower n)

/-- How one character is written between quotes of a kind. -/
def escape (quote : Char) (c : Char) : List Char :=
  if c = quote ∨ c = '\\' then ['\\', c]
  else if c = '\t' then ['\\', 't']
  else if c = '\n' then ['\\', 'n']
  else if c = '\r' then ['\\', 'r']
  else if Printable.isPrintable c then [c]
  else numbered c.toNat

/-- A text between quotes. -/
def quote (s : String) : String :=
  let q := mark s.toList
  String.ofList (q :: s.toList.flatMap (escape q) ++ [q])

end Quoted
end ChipEight
