import Montage.Files

/-!
# Fonts

The files of the font families that a text may ask for.
-/
namespace Montage.Font

/-- The family of a text that names none. -/
def standardFamily : String := "Arial"

/-- The file of the standard family. -/
def standardFile : String := "/System/Library/Fonts/Arial.ttf"

/-- The families and their files. -/
def table : List (String × String) := [
  ("Arial", standardFile),
  ("Arial Black", "/System/Library/Fonts/Arial Black.ttf"),
  ("Arial Bold", "/System/Library/Fonts/Arial Bold.ttf"),
  ("Helvetica", "/System/Library/Fonts/Helvetica.ttc"),
  ("Times", "/System/Library/Fonts/Times.ttc"),
  ("Times New Roman", "/Library/Fonts/Times New Roman.ttf"),
  ("Courier", "/System/Library/Fonts/Courier.ttc"),
  ("Impact", "/System/Library/Fonts/Impact.ttf"),
  ("Comic Sans MS", "/Library/Fonts/Comic Sans MS.ttf"),
  ("Papyrus", "/System/Library/Fonts/Papyrus.ttc")]

/-- The file of a family; a family without one has the file of the standard family. -/
def pathFor (family : Option String) : String :=
  ((table.find? fun e => some e.1 == family).map (·.2)).getD standardFile

/-- The file of a family, if it is there. -/
def installed? (files : Files) (family : Option String) : Option String :=
  let path := pathFor family
  if files.isFile path then some path else none

end Montage.Font
