/-
Reading a duration from words such as `1m 30s` or `1.5h`: items of a number,
an optional decimal fraction and a unit. White space may stand between the
digits of a number and between items; a unit ends at white space, at the end,
or at the digit that starts the next item. A fraction must come out exact, in
nanoseconds for units up to a minute and in whole seconds for longer ones, and
no intermediate number may leave 64 bits.
-/
import Federate.Duration
import Federate.Text.Blank
namespace Federate.Duration.Phrase

/-- Why words name no duration. Positions count UTF-8 bytes. -/
inductive Flaw where
  | empty
  | numberExpected (index : Nat)
  | badCharacter (index : Nat)
  /-- A number without a unit; carries the whole part. -/
  | unitMissing (number : Nat)
  | unknownUnit (name : String)
  | unrepresentable
  deriving DecidableEq, Repr

/-- The wording of a flaw. -/
def Flaw.message : Flaw → String
  | .empty => "value was empty"
  | .numberExpected i => s!"expected number at {i}"
  | .badCharacter i => s!"invalid character at {i}"
  | .unitMissing n => s!"time unit needed, for example {n}sec or {n}ms"
  | .unknownUnit u =>
    "unknown time unit \"" ++ u ++ "\", supported units: ns, us/µs, ms, sec, min, hours, days, " ++
      "weeks, months, years (and few variations)"
  | .unrepresentable =>
    "number is too large or cannot be represented without a lack of precision " ++
      "(values below 1ns are not supported)"

/-- How a unit counts: in nanoseconds for the short ones, in seconds for the others. -/
structure Scale where
  /-- Nanoseconds of one unit when it is shorter than a second, else `none`. -/
  fine : Option Nat
  /-- Seconds of one unit. -/
  coarse : Nat
  /-- The grain of a fraction of the unit: nanoseconds, whole seconds, or none allowed. -/
  grain : Option Nat
  deriving DecidableEq, Repr

/-- The units and their spellings. -/
def scale? (name : String) : Option Scale :=
  if name ∈ ["nanos", "nsec", "ns"] then some ⟨some 1, 0, none⟩
  else if name ∈ ["usec", "us", "µs"] then some ⟨some 1000, 0, none⟩
  else if name ∈ ["millis", "msec", "ms"] then some ⟨some 1000000, 0, none⟩
  else if name ∈ ["seconds", "second", "secs", "sec", "s"] then some ⟨none, 1, some perSecond⟩
  else if name ∈ ["minutes", "minute", "min", "mins", "m"] then
    some ⟨none, 60, some (60 * perSecond)⟩
  else if name ∈ ["hours", "hour", "hr", "hrs", "h"] then some ⟨none, 3600, none⟩
  else if name ∈ ["days", "day", "d"] then some ⟨none, 86400, none⟩
  else if name ∈ ["weeks", "week", "wk", "wks", "w"] then some ⟨none, 604800, none⟩
  else if name ∈ ["months", "month", "M"] then some ⟨none, monthSeconds, none⟩
  else if name ∈ ["years", "year", "yr", "yrs", "y"] then some ⟨none, yearSeconds, none⟩
  else none

/-- A result that must stay within 64 bits. -/
def word (n : Nat) : Except Flaw Nat :=
  if n < 0x10000000000000000 then .ok n else .error .unrepresentable

/-- A quotient that must be exact. -/
def exactly (n d : Nat) : Except Flaw Nat :=
  if n % d = 0 then .ok (n / d) else .error .unrepresentable

/-- A decimal fraction as read: numerator over denominator, a power of ten. -/
structure Fraction where
  numerator : Nat
  denominator : Nat
  deriving DecidableEq, Repr

/-- The running total with `seconds` and `nanoseconds` added; the whole seconds stay in 64 bits. -/
def add (total : Duration) (seconds nanoseconds : Nat) : Except Flaw Duration := do
  let nanos ← word (total.subsecond + nanoseconds)
  let s ← word (seconds + if nanos > perSecond then nanos / perSecond else 0)
  let whole ← word (total.seconds + s)
  pure ⟨whole * perSecond + if nanos > perSecond then nanos % perSecond else nanos⟩

/-- The total with one item added: `n` units and a fraction of one. -/
def addItem (total : Duration) (n : Nat) (fraction : Option Fraction) (unit : List Char) :
    Except Flaw Duration := do
  if unit.isEmpty then throw (.unitMissing n)
  let some sc := scale? (String.ofList unit) | throw (.unknownUnit (String.ofList unit))
  let total ← match sc.fine with
    | some nanos => do add total 0 (← word (n * nanos))
    | none => do add total (← word (n * sc.coarse)) 0
  let some f := fraction | pure total
  match sc.fine, sc.grain with
  | some 1, _ => throw .unrepresentable
  | some nanos, _ => do add total 0 (← exactly (← word (f.numerator * nanos)) f.denominator)
  | none, some nanos => do add total 0 (← exactly (← word (f.numerator * nanos)) f.denominator)
  | none, none => do add total (← exactly (← word (f.numerator * sc.coarse)) f.denominator) 0

/-- Letters of unit names. -/
def isUnitLetter (c : Char) : Bool :=
  ('a' ≤ c && c ≤ 'z') || ('A' ≤ c && c ≤ 'Z') || c == 'µ'

/-- Where the reader stands. Positions count the bytes before it. -/
inductive Stage where
  /-- Before a number; the search began at the position. -/
  | beforeNumber (since : Nat) (first : Bool)
  | inNumber (n : Nat)
  /-- Past the point; errors are reported at `mark`. -/
  | inFraction (n : Nat) (f : Fraction) (mark : Nat)
  /-- In a unit, its letters reversed. -/
  | inUnit (n : Nat) (f : Option Fraction) (letters : List Char)
  deriving DecidableEq, Repr

/-- The value of a decimal digit. -/
def digit? (c : Char) : Option Nat :=
  if '0' ≤ c ∧ c ≤ '9' then some (c.toNat - '0'.toNat) else none

/-- The fraction with one more digit. -/
def Fraction.push (f : Fraction) (d : Nat) : Except Flaw Fraction := do
  let denominator ← word (f.denominator * 10)
  let numerator ← word (f.numerator * 10 + d)
  pure ⟨numerator, denominator⟩

/-- A fraction must have a digit; without one the error is at `mark`. -/
def Fraction.check (f : Fraction) (mark : Nat) : Except Flaw Fraction :=
  if f.denominator = 1 then .error (.badCharacter mark) else .ok f

/-- One character at position `at_`. -/
def step (total : Duration) (stage : Stage) (at_ : Nat) (c : Char) :
    Except Flaw (Duration × Stage) := do
  match stage with
  | .beforeNumber since first =>
    match digit? c with
    | some d => pure (total, .inNumber d)
    | none =>
      if Text.isBlank c then pure (total, .beforeNumber since first)
      else throw (.numberExpected since)
  | .inNumber n =>
    match digit? c with
    | some d => do pure (total, .inNumber (← word (n * 10 + d)))
    | none =>
      if Text.isBlank c then pure (total, .inNumber n)
      else if isUnitLetter c then pure (total, .inUnit n none [c])
      else if c = '.' then pure (total, .inFraction n ⟨0, 1⟩ at_)
      else throw (.badCharacter at_)
  | .inFraction n f mark =>
    match digit? c with
    | some d => do pure (total, .inFraction n (← f.push d) (at_ + 1))
    | none =>
      if Text.isBlank c then pure (total, .inFraction n f (at_ + c.utf8Size))
      else if isUnitLetter c then do pure (total, .inUnit n (some (← f.check mark)) [c])
      else throw (.badCharacter mark)
  | .inUnit n f letters =>
    match digit? c with
    | some d => do pure (← addItem total n f letters.reverse, .inNumber d)
    | none =>
      if Text.isBlank c then do
        pure (← addItem total n f letters.reverse, .beforeNumber (at_ + c.utf8Size) false)
      else if isUnitLetter c then pure (total, .inUnit n f (c :: letters))
      else throw (.badCharacter at_)

/-- The total at the end of the words. -/
def finish (total : Duration) : Stage → Except Flaw Duration
  | .beforeNumber _ first => if first then .error .empty else .ok total
  | .inNumber n => addItem total n none []
  | .inFraction n f mark => do addItem total n (some (← f.check mark)) []
  | .inUnit n f letters => addItem total n f letters.reverse

/-- The reader from a stage on. -/
def readFrom (total : Duration) (stage : Stage) (at_ : Nat) : List Char → Except Flaw Duration
  | [] => finish total stage
  | c :: rest => do
    let (total, stage) ← step total stage at_ c
    readFrom total stage (at_ + c.utf8Size) rest

/-- The duration that the words name. -/
def read (words : List Char) : Except Flaw Duration :=
  readFrom .zero (.beforeNumber 0 true) 0 words

end Federate.Duration.Phrase
