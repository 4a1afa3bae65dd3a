import Montage.Text.Digit
import Montage.Text.Quoted

/-!
# Faults

A computation on numbers, texts or files that has no result ends in a fault. A fault that no
stage expects ends a render job as an internal error whose message is the fault's text.
-/
namespace Montage

/-- Why a computation has no result. -/
inductive Fault where
  /-- a whole number is too large for a double -/
  | wholeTooLarge
  /-- an infinite double has no whole part -/
  | infiniteToWhole
  /-- what is not a number has no whole part -/
  | undefinedToWhole
  /-- a text does not write a whole number, or it has too many digits -/
  | notWhole (text : String)
  /-- a whole number has too many digits to be written -/
  | unwritable
  /-- a text does not write a decimal -/
  | notDecimal (text : String)
  /-- a ratio has more than two parts -/
  | tooManyParts
  /-- an operation does not take a value of this kind -/
  | wrongKind (message : String)
  /-- a value of this kind has no such member -/
  | noMember (kind member : String)
  /-- a directory cannot be made where a file is -/
  | fileExists (path : String)
  /-- the encoder's messages could not be read -/
  | unreadable (message : String)
  /-- the quotient of two whole numbers is too large for a double -/
  | quotientTooLarge
  /-- placeholders cannot be found without delimiters -/
  | noDelimiters
  /-- a job of that name is there already -/
  | alreadyRegistered (job : String)
deriving DecidableEq, Repr

/-- Why a text is not read as a whole number. -/
def Fault.unreadWhole (text : String) : String :=
  if Text.digitLimit < Text.leadingDigits text then
    "Exceeds the limit (" ++ toString Text.digitLimit ++
      " digits) for integer string conversion: value has " ++
      toString (Text.leadingDigits text) ++
      " digits; use sys.set_int_max_str_digits() to increase the limit"
  else "invalid literal for int() with base 10: " ++ Text.quote text

/-- The text of a fault. -/
def Fault.message : Fault → String
  | wholeTooLarge => "int too large to convert to float"
  | infiniteToWhole => "cannot convert float infinity to integer"
  | undefinedToWhole => "cannot convert float NaN to integer"
  | notWhole text => unreadWhole text
  | unwritable => "Exceeds the limit (" ++ toString Text.digitLimit ++
      " digits) for integer string conversion; use sys.set_int_max_str_digits() to increase the limit"
  | notDecimal text => "could not convert string to float: " ++ Text.quote text
  | tooManyParts => "too many values to unpack (expected 2)"
  | wrongKind message => message
  | noMember kind member => "'" ++ kind ++ "' object has no attribute '" ++ member ++ "'"
  | fileExists path => "[Errno 17] File exists: " ++ Text.quote path
  | unreadable message => if message.isEmpty then "RuntimeError" else message
  | quotientTooLarge => "integer division result too large for a float"
  | noDelimiters => "At least one delimiter pair is required"
  | alreadyRegistered job => "Job " ++ job ++ " is already registered"

end Montage
