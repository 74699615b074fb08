import ChipEight.Text.LowerCase

/-!
# ChipEight.Input.Layout

Keyboard layouts by name. A layout is the text of a keymap: the codes of the keys 0 to F in order.
The codes are those of a window system and, for these keys, the characters of a terminal too.
-/

namespace ChipEight

/-- A named keymap. -/
structure Layout where
  name : String
  keymap : String
deriving DecidableEq, Repr

namespace Layout

/-- Keys `x 1 2 3 q w e a s d z c 4 r f v`. -/
def qwerty : Layout := ⟨"qwerty", "120,49,50,51,113,119,101,97,115,100,122,99,52,114,102,118"⟩

/-- Keys `x 1 2 3 q w f a r s z c 4 p t v`. -/
def colemak : Layout := ⟨"colemak", "120,49,50,51,113,119,102,97,114,115,122,99,52,112,116,118"⟩

/-- All layouts, the usual one first. -/
def all : List Layout := [qwerty, colemak]

/-- No layout has this name. -/
structure Unknown where
  name : String
deriving DecidableEq, Repr

/-- What an unknown layout is reported as. -/
def Unknown.message (f : Unknown) : String :=
  "Keyboard layout '" ++ f.name ++ "' is unknown.  Choose from: " ++
    ", ".intercalate (all.map (·.name))

/-- The layout with a name, in capital or small letters. -/
def named (name : String) : Except Unknown Layout :=
  match all.find? (·.name == LowerCase.ofText name) with
  | some layout => .ok layout
  | none => .error ⟨name⟩

end Layout
end ChipEight
