import ProjectCompiler.Text.Digit

/-!
# Moment — dates and times of day

A moment is a day, a time of day, or both, and in the last case it may give its distance from
universal time. Only moments of the calendar exist: a month has its days, and February its leap
day. Seconds may be left out and are then zero; a fraction of a second keeps nine digits.

- `Moment.ofWord?` reads a moment;
- `Moment.text` writes it in one way: a `T` before the time, seconds always, a fraction without
  zeros at its end.
-/

namespace ProjectCompiler

structure Day where
  year : Nat
  month : Nat
  day : Nat
  deriving DecidableEq, Repr

structure Clock where
  hour : Nat
  minute : Nat
  second : Nat
  nanosecond : Nat
  deriving DecidableEq, Repr

/-- The distance from universal time. -/
inductive ZoneOffset
  | zulu
  | minutes (n : Int)
  deriving DecidableEq, Repr

inductive Moment
  | date (day : Day)
  | time (clock : Clock)
  | dateTime (day : Day) (clock : Clock) (offset : Option ZoneOffset)
  deriving DecidableEq, Repr

/-! ## The calendar -/

def Day.isLeapYear (year : Nat) : Bool :=
  year % 4 = 0 ∧ (year % 100 ≠ 0 ∨ year % 400 = 0)

def Day.daysInMonth (year month : Nat) : Nat :=
  if month = 2 then if isLeapYear year then 29 else 28
  else if month ∈ [4, 6, 9, 11] then 30
  else 31

def Day.Valid (day : Day) : Prop :=
  1 ≤ day.month ∧ day.month ≤ 12 ∧ 1 ≤ day.day ∧ day.day ≤ daysInMonth day.year day.month

/-- A minute may have a leap second. -/
def Clock.Valid (clock : Clock) : Prop :=
  clock.hour ≤ 23 ∧ clock.minute ≤ 59 ∧ clock.second ≤ 60

instance (day : Day) : Decidable day.Valid := by
  unfold Day.Valid; infer_instance

instance (clock : Clock) : Decidable clock.Valid := by
  unfold Clock.Valid; infer_instance

/-! ## Reading -/

namespace Moment

/-- A number of exactly so many digits. -/
def readDigits : Nat → List Char → Option (Nat × List Char) :=
  go 0
where
  go (n : Nat) : Nat → List Char → Option (Nat × List Char)
    | 0, rest => some (n, rest)
    | _ + 1, [] => none
    | count + 1, c :: rest => do
        let digit ← Digit.decimal? c
        go (10 * n + digit) count rest

/-- The rest of the input behind a character. -/
def expect (wanted : Char) : List Char → Option (List Char)
  | c :: rest => if c = wanted then some rest else none
  | [] => none

def readDay (input : List Char) : Option (Day × List Char) := do
  let (year, rest) ← readDigits 4 input
  let (month, rest) ← readDigits 2 (← expect '-' rest)
  let (day, rest) ← readDigits 2 (← expect '-' rest)
  let day : Day := { year, month, day }
  if day.Valid then return (day, rest) else none

/-- Nanoseconds from the digits of a fraction; digits after the ninth are dropped. -/
def nanoseconds (digits : List Nat) : Nat :=
  Digit.toNat 10 ((digits ++ List.replicate 9 0).take 9)

def readFraction : List Char → Option (Nat × List Char)
  | '.' :: rest =>
      match (rest.takeWhile Digit.isDecimal).filterMap Digit.decimal? with
      | [] => none
      | digits => some (nanoseconds digits, rest.dropWhile Digit.isDecimal)
  | rest => some (0, rest)

/-- Seconds with their fraction, if the input goes on with them. -/
def readSeconds : List Char → Option ((Nat × Nat) × List Char)
  | ':' :: rest => do
      let (second, rest) ← readDigits 2 rest
      let (nanosecond, rest) ← readFraction rest
      return ((second, nanosecond), rest)
  | rest => some ((0, 0), rest)

def readClock (input : List Char) : Option (Clock × List Char) := do
  let (hour, rest) ← readDigits 2 input
  let (minute, rest) ← readDigits 2 (← expect ':' rest)
  let ((second, nanosecond), rest) ← readSeconds rest
  let clock : Clock := { hour, minute, second, nanosecond }
  if clock.Valid then return (clock, rest) else none

/-- Hours and minutes after the sign of an offset. -/
def readDistance (input : List Char) : Option (Nat × List Char) := do
  let (hours, rest) ← readDigits 2 input
  let (minutes, rest) ← readDigits 2 (← expect ':' rest)
  if hours ≤ 23 ∧ minutes ≤ 59 then return (60 * hours + minutes, rest) else none

def readOffset : List Char → Option (Option ZoneOffset × List Char)
  | [] => some (none, [])
  | c :: rest =>
      if c = 'Z' ∨ c = 'z' then some (some .zulu, rest)
      else if c = '+' then do
        let (n, rest) ← readDistance rest
        return (some (.minutes n), rest)
      else if c = '-' then do
        let (n, rest) ← readDistance rest
        return (some (.minutes (-n)), rest)
      else none

/-- What follows a day: nothing, or a time of day and perhaps an offset. -/
def afterDay (day : Day) : List Char → Option Moment
  | [] => some (.date day)
  | c :: rest =>
      if c = 'T' ∨ c = 't' ∨ c = ' ' then do
        let (clock, rest) ← readClock rest
        let (offset, rest) ← readOffset rest
        if rest.isEmpty then return .dateTime day clock offset else none
      else none

/-- The moment that a word writes. -/
def ofWord? (word : List Char) : Option Moment :=
  match readDay word with
  | some (day, rest) => afterDay day rest
  -- A time of day alone has no offset.
  | none =>
      match readClock word with
      | some (clock, []) => some (.time clock)
      | _ => none

end Moment

/-! ## Writing -/

/-- Decimal digits, with zeros in front up to a width. -/
def Moment.padded (width n : Nat) : List Char :=
  let digits := Nat.toDigits 10 n
  List.replicate (width - digits.length) '0' ++ digits

def Day.text (day : Day) : List Char :=
  Moment.padded 4 day.year ++ ['-'] ++ Moment.padded 2 day.month ++ ['-'] ++
    Moment.padded 2 day.day

/-- The fraction of a second behind its point, nothing if it is zero. -/
def Clock.fractionText (nanosecond : Nat) : List Char :=
  if nanosecond = 0 then []
  else '.' :: ((Moment.padded 9 nanosecond).reverse.dropWhile (· = '0')).reverse

def Clock.text (clock : Clock) : List Char :=
  Moment.padded 2 clock.hour ++ [':'] ++ Moment.padded 2 clock.minute ++ [':'] ++
    Moment.padded 2 clock.second ++ fractionText clock.nanosecond

def ZoneOffset.text : ZoneOffset → List Char
  | zulu => ['Z']
  | minutes n =>
      [if n < 0 then '-' else '+'] ++ Moment.padded 2 (n.natAbs / 60) ++ [':'] ++
        Moment.padded 2 (n.natAbs % 60)

def Moment.text : Moment → String
  | date day => String.ofList day.text
  | time clock => String.ofList clock.text
  | dateTime day clock offset =>
      String.ofList (day.text ++ ['T'] ++ clock.text ++ (offset.map ZoneOffset.text).getD [])

end ProjectCompiler
