/-!
# ChipEight.Product

The name of the program and what it says about itself when it starts.
-/

namespace ChipEight
namespace Product

def name : String := "BISCUIT-8 Emulator"

def version : String := "1.0.0"

def year : String := "2022"

def holder : String := "Gregory Maynard-Hoare"

def terms : String := "GNU Affero General Public License v3.0"

/-- Name and version, before something else on the same line. -/
def intro : String := name ++ " V" ++ version ++ " -- "

/-- The line that is printed first. -/
def banner : String :=
  intro ++ "Copyright (C) " ++ year ++ " " ++ holder ++ ", licensed under " ++ terms

/-- The title while the program runs. -/
def title (framesPerSecond operationsPerSecond : Int) : String :=
  name ++ " - " ++ toString framesPerSecond ++ " FPS, " ++ toString operationsPerSecond ++ " OPS"

end Product
end ChipEight
