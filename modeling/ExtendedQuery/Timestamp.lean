import ExtendedQuery.Decimal.Basic
import ExtendedQuery.Text.Basic

/-!
# Timestamps

A timestamp is written as date and time of day with a point before the fraction of the second. The
fraction has at least one digit and no further zeros at its end.
-/

namespace ExtendedQuery

structure Timestamp where
  year : Int
  month : Nat
  day : Nat
  hour : Nat
  minute : Nat
  second : Nat
  nanosecond : Nat
  deriving DecidableEq, Repr

namespace Timestamp

def yearText (year : Int) : Text :=
  (if year < 0 then ['-'] else []) ++ Decimal.padded 4 year.natAbs

def fractionText (nanosecond : Nat) : Text :=
  match Decimal.padded 9 nanosecond with
  | [] => []
  | first :: later => first :: (later.reverse.dropWhile (· == '0')).reverse

def text (t : Timestamp) : Text :=
  let two := Decimal.padded 2
  yearText t.year ++ '-' :: two t.month ++ '-' :: two t.day ++ ' ' :: two t.hour ++ ':' ::
    two t.minute ++ ':' :: two t.second ++ '.' :: fractionText t.nanosecond

end Timestamp

structure UtcTimestamp where
  timestamp : Timestamp
  deriving DecidableEq, Repr

def UtcTimestamp.text (t : UtcTimestamp) : Text := t.timestamp.text ++ ['+', '0', '0']

end ExtendedQuery
