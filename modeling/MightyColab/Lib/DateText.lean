import Mathlib.Data.List.Basic
import Mathlib.Tactic.Ring

/-!
# Numbers and times in texts

`int` of a text, and `datetime.strptime` with the format `%Y%m%dT%H%M%SZ`. A `\d` of its
pattern is any decimal digit of Unicode, so the digits are data.
-/

namespace MightyColab
namespace Lib
namespace DateText

/-- What is known of the characters. -/
structure Digits where
  /-- The value of a decimal digit. -/
  digit : Char -> Option Nat
  /-- What `int` skips at both ends. -/
  space : Char -> Bool

def asciiDigits : Digits where
  digit c := if c.isDigit then some (c.toNat - 48) else none
  space c := c = ' ' ∨ (9 ≤ c.toNat ∧ c.toNat ≤ 13)

variable (data : Digits)

/-!
## Integers
-/

/-- Digits with single underscores between them; `after` is set behind a digit. -/
def digitsOf (after : Bool) : List Char -> Option (List Nat)
  | [] => if after then some [] else none
  | c :: rest =>
      if c = '_' then if after then digitsOf false rest else none
      else
        match data.digit c with
        | none => none
        | some d => (digitsOf true rest).map (d :: ·)

/-- `sys.get_int_max_str_digits()`. -/
def maxStrDigits : Nat := 4300

def magnitude (text : List Char) : Option Nat :=
  match digitsOf data false text with
  | none => none
  | some digits =>
      if digits.length ≤ maxStrDigits then some (digits.foldl (fun n d => 10 * n + d) 0)
      else none

/-- `int(text)`; nothing where it raises `ValueError`. -/
def intOf (text : String) : Option Int :=
  let left := text.toList.dropWhile data.space
  match (left.reverse.dropWhile data.space).reverse with
  | '-' :: digits => (magnitude data digits).map fun n => -(n : Int)
  | '+' :: digits => (magnitude data digits).map fun n => (n : Int)
  | digits => (magnitude data digits).map fun n => (n : Int)

/-- `str(value)` is refused. -/
def TooLong (value : Int) : Prop := 10 ^ maxStrDigits ≤ value.natAbs

instance (value : Int) : Decidable (TooLong value) := inferInstanceAs (Decidable (_ ≤ _))

/-!
## The fields of a time
-/

/-- The ways to read a number at the beginning of a text, in the order in which a pattern
tries them, each with the text after it. -/
abbrev Reader := List Char -> List (Nat × List Char)

/-- `[first-last]` of two ASCII digits. -/
def between (first last : Char) : Reader
  | c :: rest => if first ≤ c ∧ c ≤ last then [(c.toNat - 48, rest)] else []
  | [] => []

/-- `\d`. -/
def anyDigit : Reader
  | c :: rest => (data.digit c).toList.map fun d => (d, rest)
  | [] => []

def letter (upper : Char) : Reader
  | c :: rest => if c = upper ∨ c = upper.toLower then [(0, rest)] else []
  | [] => []

def blank : Reader
  | c :: rest => if c = ' ' then [(0, rest)] else []
  | [] => []

def pair (tens ones : Reader) : Reader := fun text =>
  (tens text).flatMap fun (t, rest) => (ones rest).map fun (o, rest) => (10 * t + o, rest)

def either (first second : Reader) : Reader := fun text => first text ++ second text

/-- `%Y`. -/
def year : Reader :=
  pair (pair (pair (anyDigit data) (anyDigit data)) (anyDigit data)) (anyDigit data)

/-- `%m`. -/
def month : Reader :=
  either (pair (between '1' '1') (between '0' '2'))
    (either (pair (between '0' '0') (between '1' '9')) (between '1' '9'))

/-- `%d`. -/
def day : Reader :=
  either (pair (between '3' '3') (between '0' '1'))
    (either (pair (between '1' '2') (anyDigit data))
      (either (pair (between '0' '0') (between '1' '9'))
        (either (between '1' '9') (pair blank (between '1' '9')))))

/-- `%H`. -/
def hour : Reader :=
  either (pair (between '2' '2') (between '0' '3'))
    (either (pair (between '0' '1') (anyDigit data)) (anyDigit data))

/-- `%M`. -/
def minute : Reader := either (pair (between '0' '5') (anyDigit data)) (anyDigit data)

/-- `%S`. -/
def second : Reader := either (pair (between '6' '6') (between '0' '1')) (minute data)

def fields : List Reader -> List Char -> List (List Nat × List Char)
  | [], text => [([], text)]
  | reader :: readers, text =>
      (reader text).flatMap fun (value, rest) =>
        (fields readers rest).map fun (values, rest) => (value :: values, rest)

/-!
## Days
-/

def isLeap (year : Nat) : Bool := year % 4 = 0 && (year % 100 ≠ 0 || year % 400 = 0)

def daysInMonth (year month : Nat) : Nat :=
  if month = 2 then if isLeap year then 29 else 28
  else if month = 4 ∨ month = 6 ∨ month = 9 ∨ month = 11 then 30
  else 31

/-- `date.toordinal`: the first of January of the year 1 is day 1. -/
def toordinal (year month day : Nat) : Nat :=
  let before := year - 1
  365 * before + before / 4 - before / 100 + before / 400 +
    ((List.range' 1 (month - 1)).map (daysInMonth year)).sum + day

def timestamp (year month day hour minute second : Nat) : Int :=
  ((toordinal year month day : Int) - 719163) * 86400 + 3600 * hour + 60 * minute + second

/-- `datetime(year, ...)` of a time in UTC; nothing where it raises `ValueError`. -/
def datetime (year month day hour minute second : Nat) : Option Int :=
  if (1 ≤ year ∧ year ≤ 9999) ∧ (1 ≤ month ∧ month ≤ 12) ∧
      (1 ≤ day ∧ day ≤ daysInMonth year month) ∧ hour ≤ 23 ∧ minute ≤ 59 ∧ second ≤ 59 then
    some (timestamp year month day hour minute second)
  else none

/-- `datetime.strptime(text, "%Y%m%dT%H%M%SZ")` as a time in UTC; nothing where it raises
`ValueError`. -/
def strptime (text : String) : Option Int :=
  let found := fields [year data, month, day data, letter 'T', hour data, minute data,
    second data, letter 'Z'] text.toList
  match found.head? with
  | some ([y, m, d, _, h, mi, s, _], []) => datetime y m d h mi s
  | _ => none

theorem datetime_min {y m d h mi s : Nat} {time : Int} (htime : datetime y m d h mi s = some time) :
    -62135596800 ≤ time := by
  unfold datetime at htime
  split at htime
  · next hvalid =>
      cases htime
      have hordinal : 1 ≤ toordinal y m d :=
        Nat.le_trans hvalid.right.right.left.left (Nat.le_add_left d _)
      unfold timestamp
      omega
  · cases htime

theorem strptime_min {text : String} {time : Int} (htime : strptime data text = some time) :
    -62135596800 ≤ time := by
  unfold strptime at htime
  simp only at htime
  split at htime
  · exact datetime_min htime
  · cases htime

end DateText
end Lib
end MightyColab
