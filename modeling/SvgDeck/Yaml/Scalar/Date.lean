/-
Dates and times.

A date is written as year, month and day; a time of day may follow, and an offset from
universal time behind that.  `Timestamp.read?` reads the form and `Timestamp.shown`
checks that there is such a day and time and shows it.
-/
import SvgDeck.Text.Digit
import SvgDeck.Yaml.Cursor
import SvgDeck.Yaml.Fault

namespace SvgDeck.Yaml

structure TimeOfDay where
  hour : Nat
  minute : Nat
  second : Nat
  /-- The digits of the fraction of a second. -/
  fraction : Text
  /-- Minutes ahead of universal time, if the offset is known. -/
  offset : Option Int

/-- A date, and the time if there is one, as written. -/
structure Timestamp where
  year : Nat
  month : Nat
  day : Nat
  time : Option TimeOfDay

namespace Timestamp

/-! ### Reading -/

/-- Reads between `least` and `most` digits. -/
def digits? (least most : Nat) (t : Text) : Option (Nat × Text) :=
  let ds := (t.takeWhile CodePoint.isAsciiDigit).take most
  if ds.length < least then none else some (Text.digitsValue ds, t.drop ds.length)

def expect? (s : String) (t : Text) : Option Text :=
  match t with
  | [] => none
  | c :: t => if oneOf s c then some t else none

/-- Reads an offset that fills the text: `Z`, or a sign with hours and perhaps minutes. -/
def offset? (t : Text) : Option Int :=
  match t with
  | [] => none
  | c :: t =>
    if c = 'Z' then if t = [] then some 0 else none
    else if oneOf "+-" c then do
      let (hours, t) ← digits? 1 2 t
      let minutes ← if t = [] then some 0 else do
        let t ← expect? ":" t
        let (minutes, t) ← digits? 2 2 t
        if t = [] then some minutes else none
      let n : Int := 60 * hours + minutes
      some (if c = '-' then -n else n)
    else none

/-- Reads a time of day that fills the text. -/
def time? (t : Text) : Option TimeOfDay := do
  let (hour, t) ← digits? 1 2 t
  let t ← expect? ":" t
  let (minute, t) ← digits? 2 2 t
  let t ← expect? ":" t
  let (second, t) ← digits? 2 2 t
  let hasPoint := t.head?.any (oneOf ".")
  let behind := if hasPoint then t.drop 1 else t
  let fraction := if hasPoint then behind.takeWhile CodePoint.isAsciiDigit else []
  let t := behind.drop fraction.length
  if t = [] then some { hour, minute, second, fraction, offset := none }
  else
    let offset ← offset? (t.dropWhile isGap)
    some { hour, minute, second, fraction, offset := some offset }

/-- Reads a date, and a time of day behind a `T` or white space. -/
def read? (t : Text) : Option Timestamp := do
  let (year, t) ← digits? 4 4 t
  let t ← expect? "-" t
  let (month, t) ← digits? 1 2 t
  let t ← expect? "-" t
  let (day, t) ← digits? 1 2 t
  if t = [] then some { year, month, day, time := none }
  else
    let behind := if t.head?.any (oneOf "Tt") then t.drop 1 else t.dropWhile isGap
    if behind.length = t.length then none
    else
      let time ← time? behind
      some { year, month, day, time := some time }

/-- Whether a text without a tag is a date: a date alone has all its digits. -/
def isForm (t : Text) : Bool :=
  match read? t with
  | none => false
  | some d => d.time.isSome || t.length == 10

/-! ### Checking -/

def isLeapYear (year : Nat) : Bool := year % 4 = 0 && (year % 100 ≠ 0 || year % 400 = 0)

def daysInMonth (year month : Nat) : Nat :=
  if month = 2 then if isLeapYear year then 29 else 28
  else if month ∈ [4, 6, 9, 11] then 30
  else 31

/-- Microseconds: the first six digits of a fraction. -/
def microseconds (fraction : Text) : Nat :=
  let ds := fraction.take 6
  Text.digitsValue ds * Nat.pow 10 (6 - ds.length)

def checkDay (d : Timestamp) : Except DatePart Unit :=
  if d.year = 0 then .error (.year d.year)
  else if d.month = 0 ∨ 12 < d.month then .error .month
  else if d.day = 0 ∨ daysInMonth d.year d.month < d.day then .error .day
  else .ok ()

def checkTime (t : TimeOfDay) : Except DatePart Unit :=
  if 23 < t.hour then .error .hour
  else if 59 < t.minute then .error .minute
  else if 59 < t.second then .error .second
  else .ok ()

/-- An offset must be less than a day. -/
def checkOffset (offset : Option Int) : Except DatePart Unit :=
  match offset with
  | some n => if n.natAbs < 1440 then .ok () else .error (.offset n)
  | none => .ok ()

def numbers (ns : List Nat) : Text := Text.join ", " (ns.map Text.ofNat)

def zoneText (offset : Int) : Text :=
  ", tzinfo=datetime.timezone" ++
    if offset = 0 then Text.ofString ".utc" else "(" ++ spanText offset ++ ")"

/-- The date or time as messages show it; seconds and their fraction are left out if they are
zero. -/
def shown (d : Timestamp) : Except DatePart Text :=
  match d.time with
  | none => do
    checkDay d
    return "datetime.date(" ++ numbers [d.year, d.month, d.day] ++ ")"
  | some t => do
    checkOffset t.offset
    checkDay d
    checkTime t
    let parts := [d.year, d.month, d.day, t.hour, t.minute]
    let fraction := microseconds t.fraction
    let more := if fraction ≠ 0 then [t.second, fraction] else if t.second ≠ 0 then [t.second] else []
    let zone := (t.offset.map zoneText).getD []
    return "datetime.datetime(" ++ numbers (parts ++ more) ++ zone ++ ")"

end Timestamp

end SvgDeck.Yaml
