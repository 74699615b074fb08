import ChipEight.Keypad
import ChipEight.Text.Integer
import ChipEight.Text.LowerCase

/-!
# ChipEight.Input.Keymap

Which host key stands for which key of the keypad. A keymap is written as sixteen integers with
commas between them, the codes of the keys 0 to F in order.

* `Keymap.parse`: reads a keymap. Where codes are characters, each is put into lower case. The
  number of codes is checked first; then the first code that is wrong decides.
* `Keymap.key?`: the key that a code stands for.
-/

namespace ChipEight

/-- The codes of the keys, in the order in which they were given. -/
structure Keymap where
  entries : List (Int × Key)
deriving DecidableEq, Repr

namespace Keymap

/-- Whether codes are host keys, or characters that count in lower case. -/
inductive Codes where
  | keys
  | characters
deriving DecidableEq, Repr

/-- Why a text is no keymap. -/
inductive Fault where
  | wrongCount
  | notInteger
  | duplicate
  | character (fault : LowerCase.Fault)
deriving DecidableEq, Repr

/-- What a text that is no keymap is reported as. -/
def Fault.message : Fault → String
  | .wrongCount => "Incorrect number of keys defined -- 16 required.  Use commas to split numbers"
  | .notInteger => "Defined keys are not all integer values"
  | .duplicate => "Duplicate keys defined"
  | .character _ => "A key is defined by a number without a character in lower case"

/-- The key that a code stands for. -/
def key? (m : Keymap) (code : Int) : Option Key := m.entries.lookup code

/-- The code that a field of a keymap gives. -/
def code (codes : Codes) (field : List Char) : Except Fault Int :=
  match Numeral.decimal.read? field with
  | none => .error .notInteger
  | some n =>
    match codes with
    | .keys => .ok n
    | .characters => (LowerCase.ofNumber n).mapError .character

/-- The keymap with one more code. -/
def extend (codes : Codes) (m : Keymap) (field : List Char × Key) : Except Fault Keymap :=
  match code codes field.1 with
  | .error f => .error f
  | .ok c =>
    if (m.key? c).isSome then .error .duplicate else .ok ⟨m.entries ++ [(c, field.2)]⟩

/-- The fields of a keymap. -/
def fields (text : String) : List (List Char) := Cut.pieces ',' text.toList

/-- Reads a keymap. -/
def parse (codes : Codes) (text : String) : Except Fault Keymap :=
  let fs := fields text
  if fs.length = 16 then (fs.zip (List.finRange 16)).foldlM (extend codes) ⟨[]⟩
  else .error .wrongCount

end Keymap
end ChipEight
