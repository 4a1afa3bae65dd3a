import Montage.Decimal.Reader
import Montage.Number.Quotient

/-!
# Progress of the encoder

While it works, the encoder writes status lines. A line tells the time reached in the result
either as a clock (`time=00:01:02.50`) or as a count of microseconds (`out_time_us=62500000`);
of several times on a line the last one holds, and clocks go before counts.
-/
namespace Montage.Progress

/-- The digits, of any script, at the front of a text, and the rest. -/
def spanDigits : List Char → List Nat × List Char
  | [] => ([], [])
  | c :: rest =>
    match Text.digitValue? c with
    | some d => let (ds, r) := spanDigits rest; (d :: ds, r)
    | none => ([], c :: rest)

/-- The text after a word at the front. -/
def dropWord? (word : String) (cs : List Char) : Option (List Char) :=
  if word.toList.isPrefixOf cs then some (cs.drop word.length) else none

/-- Two digits. -/
def twoDigits? : List Char → Option (List Nat × List Char)
  | a :: b :: rest =>
    match Text.digitValue? a, Text.digitValue? b with
    | some x, some y => some ([x, y], rest)
    | _, _ => none
  | _ => none

/-- The whole number that some digits write, unless they are too many. -/
def whole (digits : List Nat) : Except Fault Nat :=
  if Text.digitLimit < digits.length then
    .error (.notWhole (String.ofList (digits.map fun d => Char.ofNat (48 + d))))
  else .ok (Decimal.ofDigits digits)

/-- A time on a clock: the digits of its hours, minutes, and seconds with their places. -/
structure ClockTime where
  hours : List Nat
  minutes : Nat
  seconds : Nat
  places : List Nat

/-- The digits after a point, if there are any. -/
def places : List Char → List Nat
  | '.' :: rest => (spanDigits rest).1
  | _ => []

/-- The clock at the front of a text. -/
def clockAt? (cs : List Char) : Option ClockTime := do
  let rest ← dropWord? "time=" cs
  let (hours, rest) := spanDigits (rest.dropWhile Text.isBlank)
  if hours.isEmpty then none
  let rest ← dropWord? ":" rest
  let (minutes, rest) ← twoDigits? rest
  let rest ← dropWord? ":" rest
  let (seconds, rest) ← twoDigits? rest
  return ⟨hours, Decimal.ofDigits minutes, Decimal.ofDigits seconds,
    places rest⟩

/-- The digits of the count of microseconds at the front of a text. -/
def microsecondsAt? (cs : List Char) : Option (List Nat) := do
  let rest ← dropWord? "out_time_us=" cs <|> dropWord? "out_time_ms=" cs
  let (digits, _) := spanDigits rest
  if digits.isEmpty then none
  return digits

/-- All suffixes of a text, the longest first. -/
def suffixes : List Char → List (List Char)
  | [] => [[]]
  | c :: rest => (c :: rest) :: suffixes rest

/-- What is found last in a text. -/
def last? {α : Type} (find : List Char → Option α) (cs : List Char) : Option α :=
  ((suffixes cs).filterMap find).getLast?

/-- The seconds that a clock shows. -/
def ClockTime.total (t : ClockTime) : Except Fault Float := do
  let hours ← whole t.hours
  let minutes ← Number.floatOfInt (hours * 3600 + t.minutes * 60)
  return minutes + Decimal.scaled (t.seconds * Nat.pow 10 t.places.length + Decimal.ofDigits t.places)
    (-t.places.length)

/-- The seconds of the result that are ready, as a status line tells them. -/
def time? (line : String) : Except Fault (Option Float) :=
  match last? clockAt? line.toList with
  | some t => t.total.map some
  | none =>
    match last? microsecondsAt? line.toList with
    | some digits => do return some (← Number.quotientInt (← whole digits) 1000000)
    | none => .ok none

/-- A double between 0 and 100. -/
def clamp (x : Float) : Float :=
  let y := if x < 100 then x else 100
  if 0 < y then y else 0

/-- How many percent of a duration the seconds are, at least 0 and at most 100. -/
def percent (seconds duration : Number) : Except Fault Float :=
  if duration.le (.int 0) then .ok 0
  else do
    let share ← seconds.quotient duration
    return clamp (share * 100)

/-- Whether a character ends a line. -/
def isLineEnd (c : Char) : Bool := c == '\r' || c == '\n'

/-- A text cut at each line end. -/
def cutLines : List Char → List (List Char)
  | [] => [[]]
  | c :: rest =>
    if isLineEnd c then [] :: cutLines rest
    else match cutLines rest with
      | [] => [[c]]
      | line :: lines => (c :: line) :: lines

/-- There is always a last line, be it empty. -/
theorem cutLines_ne_nil (cs : List Char) : cutLines cs ≠ [] := by
  cases cs with
  | nil => simp [cutLines]
  | cons c rest =>
    simp only [cutLines]
    split
    · simp
    · split <;> simp

/-- No line holds a line end. -/
theorem not_isLineEnd_of_mem_cutLines {cs line : List Char} {c : Char}
    (hl : line ∈ cutLines cs) (hc : c ∈ line) : isLineEnd c = false := by
  induction cs generalizing line c with
  | nil => simp [cutLines] at hl; simp [hl] at hc
  | cons d rest ih =>
    simp only [cutLines] at hl
    split at hl
    · rcases List.mem_cons.1 hl with rfl | hl
      · simp at hc
      · exact ih hl hc
    · next hd =>
      split at hl
      · next he => simp at hl; subst hl; simp at hc; simpa [hc] using hd
      · next l ls he =>
        rcases List.mem_cons.1 hl with rfl | hl
        · rcases List.mem_cons.1 hc with rfl | hc
          · simpa using hd
          · exact ih (he ▸ List.mem_cons_self) hc
        · exact ih (he ▸ List.mem_cons_of_mem _ hl) hc

/-- The finished lines of a text that are not empty, and what stands after the last line end. -/
def splitLines (buffer : String) : List String × String :=
  let lines := cutLines buffer.toList
  ((lines.dropLast.filter (!·.isEmpty)).map String.ofList, String.ofList (lines.getLast?.getD []))

end Montage.Progress
