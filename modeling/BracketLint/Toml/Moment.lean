import BracketLint.Toml.Error

/-! Dates, times, and both. Only whether they are well formed matters. -/

namespace BracketLint.Toml.Moment

/-- A part is not what was expected of it. -/
def refuse {α : Type} (what expected : String) : Except Malformed α :=
  .error (.moment what (some expected))

/-- A number as it is written, and what follows it. -/
def digits (what expected : String) (s : List Char) :
    Except Malformed (List Char × List Char) :=
  let front := s.takeWhile Char.isDigit
  if front.isEmpty then refuse what expected else .ok (front, s.drop front.length)

def sign (c : Char) (what expected : String) : List Char → Except Malformed (List Char)
  | [] => refuse what expected
  | d :: rest => if c = d then .ok rest else refuse what expected

def hasLength (n : Nat) (what expected : String) (s : List Char) : Except Malformed Unit :=
  if s.length = n then .ok () else refuse what expected

def number (s : List Char) : Nat := s.foldl (fun n c => 10 * n + (c.toNat - '0'.toNat)) 0

def isIn (low high : Nat) (what expected : String) (n : Nat) : Except Malformed Unit :=
  if low ≤ n ∧ n ≤ high then .ok () else refuse what expected

def isLeapYear (year : Nat) : Bool := year % 4 = 0 && (year % 100 ≠ 0 || year % 400 = 0)

def daysInMonth (year month : Nat) : Nat :=
  if month = 2 then if isLeapYear year then 29 else 28
  else if month = 4 ∨ month = 6 ∨ month = 9 ∨ month = 11 then 30
  else 31

/-- What follows a date. -/
def afterDate (s : List Char) : Except Malformed (List Char) := do
  let (year, s) ← digits "datetime" "year or hour" s
  let s ← sign '-' "datetime" "\x60-\x60 (YYYY-MM) or \x60:\x60 (HH:MM)" s
  let (month, s) ← digits "date" "month" s
  let s ← sign '-' "date" "\x60-\x60 (MM-DD)" s
  let (day, s) ← digits "date" "day" s
  hasLength 4 "date" "a four-digit year (YYYY)" year
  hasLength 2 "date" "a two-digit month (MM)" month
  hasLength 2 "date" "a two-digit day (DD)" day
  isIn 1 12 "date" "month between 01 and 12" (number month)
  let days := daysInMonth (number year) (number month)
  isIn 1 days "date" ("day between 01 and " ++ toString days) (number day)
  return s

/-- What follows the fraction of a second, if there is one. -/
def afterFraction : List Char → Except Malformed (List Char)
  | '.' :: rest => (·.2) <$> digits "time" "nanosecond" rest
  | s => .ok s

/-- The seconds may number sixty. -/
def isTime (hour minute second : List Char) : Except Malformed Unit := do
  hasLength 2 "time" "a two-digit hour (HH)" hour
  hasLength 2 "time" "a two-digit minute (MM)" minute
  hasLength 2 "time" "a two-digit second (SS)" second
  isIn 0 23 "time" "hour between 00 and 23" (number hour)
  isIn 0 59 "time" "minute between 00 and 59" (number minute)
  isIn 0 60 "time" "second between 00 and 60" (number second)

/-- What follows a time. Its seconds may be left out. -/
def afterTime (s : List Char) : Except Malformed (List Char) := do
  let (hour, s) ← digits "time" "hour" s
  let s ← sign ':' "time" "\x60:\x60 (HH:MM)" s
  let (minute, s) ← digits "time" "minute" s
  match s with
  | ':' :: rest =>
    let (second, rest) ← digits "time" "second" rest
    let rest ← afterFraction rest
    isTime hour minute second
    return rest
  | _ =>
    isTime hour minute ['0', '0']
    return s

/-- Nothing, or an offset from universal time of less than a day. -/
def offset (s : List Char) : Except Malformed (List Char) :=
  match s with
  | [] => .ok []
  | c :: rest =>
    if c = 'Z' ∨ c = 'z' then .ok rest
    else if c = '+' ∨ c = '-' then do
      let (hours, rest) ← digits "offset" "hour" rest
      let rest ← sign ':' "offset" "\x60:\x60 (HH:MM)" rest
      let (minutes, rest) ← digits "offset" "minute" rest
      hasLength 2 "offset" "a two-digit hour (HH)" hours
      hasLength 2 "offset" "a two-digit minute (MM)" minutes
      isIn 0 23 "offset" "hours between 00 and 23" (number hours)
      isIn 0 59 "offset" "minutes between 00 and 59" (number minutes)
      return rest
    else refuse "offset" "\x60Z\x60, +OFFSET, -OFFSET"

def nothing (s : List Char) : Except Malformed Unit :=
  if s.isEmpty then .ok () else .error (.moment "datetime" none)

/-- A time when a colon comes after the first digits, and else a date, after which a time may
come. -/
def check (s : List Char) : Except Malformed Unit := do
  let (_, rest) ← digits "datetime" "year or hour" s
  if rest.head? = some ':' then nothing (← afterTime s)
  else
    match ← afterDate s with
    | [] => return
    | c :: rest =>
      if c = 'T' ∨ c = 't' ∨ c = ' ' then nothing (← offset (← afterTime rest))
      else refuse "date-time" "\x60T\x60 between date and time"

end BracketLint.Toml.Moment
