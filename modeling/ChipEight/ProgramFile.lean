import ChipEight.Text.Cut

/-!
# ChipEight.ProgramFile

The file that holds a program, found by its name. A name is a path: its parts stand between slashes,
an empty part or a dot stays where it is, and two dots go up.

* `ProgramFile.Fault`: why a name leads to no file.
* `ProgramFile.checkName`: refuses what no file is named.
* `ProgramFile.Place.enter`: one step along a path.
* `ProgramFile.elsewhere`: where a name leads that is not the name of a known file.
-/

namespace ChipEight
namespace ProgramFile

/-- Why a name leads to no file. -/
inductive Fault where
  /-- The name holds the character zero, which no name of a file does. -/
  | zeroInName
  /-- The name or a part of it is longer than names can be. -/
  | nameTooLong
  | missing
  /-- The name is that of a directory. -/
  | directory
deriving DecidableEq, Repr

/-- What a name that leads to no file is reported as. -/
def Fault.message (name : String) : Fault → String
  | .zeroInName => "No file has the character zero in its name"
  | .nameTooLong => "The name of the file is too long"
  | .missing => "There is no file " ++ name
  | .directory => name ++ " is a directory"

/-- Refuses a name with the character zero in it. -/
def checkName (name : String) : Except Fault Unit :=
  if name.toList.contains '\x00' then .error .zeroInName else .ok ()

/-- The most bytes in a name. -/
def longestName : Nat := 4095

/-- The most bytes in a part of a name. -/
def longestPart : Nat := 255

/-- A directory. -/
inductive Place where
  /-- The one that relative names begin in, or one above it. -/
  | working
  | root
  /-- One directly below the root. -/
  | below (name : String)
deriving DecidableEq, Repr

/-- The directories below the root that every system has. -/
def standard : List String :=
  ["bin", "boot", "dev", "etc", "home", "lib", "media", "mnt", "opt", "proc", "root", "run", "sbin",
    "srv", "sys", "tmp", "usr", "var"]

/-- The parts of a name. -/
def parts (name : String) : List String := (Cut.pieces '/' name.toList).map String.ofList

namespace Place

/-- The directory above. The root has none. -/
def parent : Place → Place
  | .working => .working
  | .root => .root
  | .below _ => .root

/-- One step along a path. -/
def enter (p : Place) (part : String) : Except Fault Place :=
  if part = "" ∨ part = "." then .ok p
  else if part = ".." then .ok p.parent
  else if longestPart < part.utf8ByteSize then .error .nameTooLong
  else if p = .root ∧ part ∈ standard then .ok (.below part)
  else .error .missing

/-- The directory in which a name begins. -/
def start (name : String) : Place := if (parts name).head? = some "" then .root else .working

end Place

/-- Where a name leads that is not the name of a known file: a directory at best. -/
def elsewhere (name : String) : Fault :=
  if name = "" then .missing
  else if longestName < name.utf8ByteSize then .nameTooLong
  else
    match (parts name).foldlM Place.enter (Place.start name) with
    | .ok _ => .directory
    | .error f => f

end ProgramFile
end ChipEight
