import ExtendedQuery.Count
import ExtendedQuery.Sql.Insert

/-!
# Lengths known beforehand

How long the native text of a statement will be, and how long the text of a grown insert, is calculated before
it is written. The digits of the placeholders are counted decade by decade: from one power of ten to the next
all numbers have the same width.
-/

namespace ExtendedQuery.Sql

/-- The digits of the numbers from `low` to `high`, all of the same width, added to a total. -/
def addWidths? (total low high width : Nat) : Option Nat := do
  let further ← Count.sub? high low
  let numbers ← Count.add? further 1
  let digits ← Count.mul? numbers width
  Count.add? total digits

/-- The digits of the numbers from `10 ^ exponent` to `n`, added to a total. The decade that has no power of ten
after it goes up to `n`. -/
def digitsFrom? (n exponent total : Nat) : Option Nat :=
  let low := Nat.pow 10 exponent
  if low ≤ n then
    match Count.mul? low 10 with
    | some next => do
      let last ← Count.sub? next 1
      let total ← addWidths? total low (min last n) (exponent + 1)
      digitsFrom? n (exponent + 1) total
    | none => addWidths? total low n (exponent + 1)
  else some total
termination_by n + 1 - Nat.pow 10 exponent
decreasing_by
  have longer : Nat.pow 10 exponent < Nat.pow 10 (exponent + 1) := Nat.pow_lt_pow_succ (by decide)
  omega

def digitsUpTo? (n : Nat) : Option Nat := digitsFrom? n 0 0

def placeholdersLength? (first last : Nat) : Option Nat :=
  if last < first then some 0
  else do
    let further ← Count.sub? last first
    let signs ← Count.add? further 1
    let upTo ← digitsUpTo? last
    let total ← Count.add? signs upTo
    let before ← Count.sub? first 1
    let below ← digitsUpTo? before
    Count.sub? total below

def Fragments.nativeLength? (fragments : Fragments) : Option Nat := do
  let written ← (fragments.parts.map Text.byteLength).foldlM Count.add? 0
  let placeholders ← placeholdersLength? 1 fragments.placeholderCount
  Count.add? written placeholders

/-- Length of `growText` for native text of the given length: each group is opened by two characters,
closed by one and has a comma between its placeholders. -/
def grownLength? (length arity rows : Nat) : Option Nat :=
  if rows ≤ 1 then some length
  else do
    let further ← Count.sub? rows 1
    let brackets ← Count.mul? further 3
    let enclosed ← Count.add? length brackets
    let commas ← Count.mul? further (arity - 1)
    let separated ← Count.add? enclosed commas
    let first ← Count.add? arity 1
    let last ← Count.mul? arity rows
    let placeholders ← placeholdersLength? first last
    Count.add? separated placeholders

end ExtendedQuery.Sql
