import ScriptGate.Lua.Library.Argument

/-!
# Functions on the clock

Dates are those of the Gregorian calendar, in universal time.
-/

namespace ScriptGate.Lua.Library.Clock

structure Date where
  year : Int
  month : Nat
  day : Nat
  hour : Nat
  minute : Nat
  second : Nat
  /-- Days since Sunday. -/
  weekday : Nat
  /-- Days since the first of January. -/
  yearDay : Nat

/-- Days from the first of January 1970 to a day, years counted from March. -/
def dayNumber (year : Int) (month day : Int) : Int :=
  let y := if month ≤ 2 then year - 1 else year
  let era := Int.fdiv y 400
  let yoe := y - era * 400
  let mp := Int.fmod (month + 9) 12
  let doy := (153 * mp + 2) / 5 + day - 1
  era * 146097 + (yoe * 365 + yoe / 4 - yoe / 100 + doy) - 719468

/-- The date of a number of seconds since the first of January 1970. -/
def ofSeconds (t : Int) : Date :=
  let days := Int.fdiv t 86400
  let rest := (t - days * 86400).toNat
  let z := days + 719468
  let era := Int.fdiv z 146097
  let doe := z - era * 146097
  let yoe := (doe - doe / 1460 + doe / 36524 - doe / 146096) / 365
  let doy := doe - (365 * yoe + yoe / 4 - yoe / 100)
  let mp := (5 * doy + 2) / 153
  let day := doy - (153 * mp + 2) / 5 + 1
  let month := if mp < 10 then mp + 3 else mp - 9
  let year := yoe + era * 400 + (if month ≤ 2 then 1 else 0)
  { year, month := month.toNat, day := day.toNat
    hour := rest / 3600, minute := rest % 3600 / 60, second := rest % 60
    weekday := (Int.fmod (days + 4) 7).toNat
    yearDay := (days - dayNumber year 1 1).toNat }

def digits (width n : Nat) : String :=
  let ds := Nat.toDigits 10 n
  String.ofList (List.replicate (width - ds.length) '0' ++ ds)

def dayNames : List String :=
  ["Sunday", "Monday", "Tuesday", "Wednesday", "Thursday", "Friday", "Saturday"]

def monthNames : List String := [
  "January", "February", "March", "April", "May", "June", "July", "August", "September", "October",
  "November", "December"]

def short (s : String) : String := String.ofList (s.toList.take 3)

def directive? (d : Date) (c : Char) : Option String :=
  let dayName := dayNames.getD d.weekday ""
  let monthName := monthNames.getD (d.month - 1) ""
  let time := digits 2 d.hour ++ ":" ++ digits 2 d.minute ++ ":" ++ digits 2 d.second
  let dayPadded := if d.day < 10 then " " ++ toString d.day else toString d.day
  match c with
  | 'a' => some (short dayName)
  | 'A' => some dayName
  | 'b' | 'h' => some (short monthName)
  | 'B' => some monthName
  | 'c' =>
    some (short dayName ++ " " ++ short monthName ++ " " ++ dayPadded ++ " " ++ time ++ " " ++
      toString d.year)
  | 'd' => some (digits 2 d.day)
  | 'D' | 'x' =>
    some (digits 2 d.month ++ "/" ++ digits 2 d.day ++ "/" ++ digits 2 (d.year.toNat % 100))
  | 'e' => some dayPadded
  | 'F' => some (toString d.year ++ "-" ++ digits 2 d.month ++ "-" ++ digits 2 d.day)
  | 'H' => some (digits 2 d.hour)
  | 'I' => some (digits 2 (if d.hour % 12 = 0 then 12 else d.hour % 12))
  | 'j' => some (digits 3 (d.yearDay + 1))
  | 'm' => some (digits 2 d.month)
  | 'M' => some (digits 2 d.minute)
  | 'n' => some "\n"
  | 'p' => some (if d.hour < 12 then "AM" else "PM")
  | 'R' => some (digits 2 d.hour ++ ":" ++ digits 2 d.minute)
  | 'S' => some (digits 2 d.second)
  | 't' => some "\t"
  | 'T' | 'X' => some time
  | 'u' => some (toString (if d.weekday = 0 then 7 else d.weekday))
  | 'w' => some (toString d.weekday)
  | 'y' => some (digits 2 (d.year.toNat % 100))
  | 'Y' => some (toString d.year)
  | 'z' => some "+0000"
  | 'Z' => some "UTC"
  | '%' => some "%"
  | _ => none

def format (d : Date) : List Char → Result (List Char)
  | [] => .ok []
  | ['%'] => .error "invalid conversion specifier '%'"
  | '%' :: c :: r =>
    match directive? d c with
    | some s => do return s.toList ++ (← format d r)
    | none => .error ("invalid conversion specifier '%" ++ String.singleton c ++ "'")
  | c :: r => do return c :: (← format d r)

def members (d : Date) : List (Value × Value) := [
  (.text "year", .int (Int64.ofInt d.year)), (.text "month", .ofNat d.month),
  (.text "day", .ofNat d.day), (.text "hour", .ofNat d.hour), (.text "min", .ofNat d.minute),
  (.text "sec", .ofNat d.second), (.text "yday", .ofNat (d.yearDay + 1)),
  (.text "wday", .ofNat (d.weekday + 1)), (.text "isdst", .bool false)]

/-- The seconds of the date in a table; members that are missing have no default but for the time of
day. -/
def ofMembers (get : String → Value) : Result Int := do
  let number (name : String) (default : Option Int) : Result Int :=
    match (get name).toInt?, default with
    | some i, _ => .ok i.toInt
    | none, some i => if (get name).isNil then .ok i
      else .error ("field '" ++ name ++ "' is not an integer")
    | none, none => .error ("field '" ++ name ++ "' missing in date table")
  let year ← number "year" none
  let month ← number "month" none
  let day ← number "day" none
  let hour ← number "hour" (some 12)
  let minute ← number "min" (some 0)
  let second ← number "sec" (some 0)
  let months := year * 12 + (month - 1)
  return dayNumber (Int.fdiv months 12) (Int.fmod months 12 + 1) 1 * 86400 + (day - 1) * 86400 +
    hour * 3600 + minute * 60 + second

end ScriptGate.Lua.Library.Clock
