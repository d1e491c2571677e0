/-
Spans of waiting time, exact to the nanosecond, of at most `2 ^ 64 - 1` whole
seconds. `phrase` writes one in words, largest unit first; the module
`Duration.Phrase` reads such words.
-/
namespace Federate

/-- A waiting time in nanoseconds. -/
structure Duration where
  nanoseconds : Nat
  deriving DecidableEq, Repr, Inhabited

namespace Duration

/-- Nanoseconds in a second. -/
abbrev perSecond : Nat := 1000000000

def ofSeconds (n : Nat) : Duration := ⟨n * perSecond⟩
def ofMilliseconds (n : Nat) : Duration := ⟨n * 1000000⟩

def zero : Duration := ⟨0⟩

/-- Whole seconds. -/
def seconds (d : Duration) : Nat := d.nanoseconds / perSecond

/-- Nanoseconds past the last whole second. -/
def subsecond (d : Duration) : Nat := d.nanoseconds % perSecond

/-- The duration without what is past the last whole millisecond. -/
def wholeMilliseconds (d : Duration) : Duration := .ofMilliseconds (d.nanoseconds / 1000000)

def isZero (d : Duration) : Bool := d.nanoseconds == 0

/-- A month is a twelfth of a year, and a year 365.25 days. -/
abbrev monthSeconds : Nat := 2630016
@[inherit_doc monthSeconds] abbrev yearSeconds : Nat := 31557600

/-- A count of a unit that takes a plural, left out when it is zero. -/
def countOf (n : Nat) (unit : String) : List String :=
  if n = 0 then [] else [toString n ++ unit ++ if n > 1 then "s" else ""]

/-- A count of an abbreviated unit, left out when it is zero. -/
def amountOf (n : Nat) (unit : String) : List String :=
  if n = 0 then [] else [toString n ++ unit]

/-- The duration in words, such as `1m 30s`; `0s` for none. -/
def phrase (d : Duration) : String :=
  if d.nanoseconds = 0 then "0s"
  else
    let s := d.seconds
    let ofYear := s % yearSeconds
    let ofMonth := ofYear % monthSeconds
    let ofDay := ofMonth % 86400
    let n := d.subsecond
    String.intercalate " " <|
      countOf (s / yearSeconds) "year" ++ countOf (ofYear / monthSeconds) "month" ++
      countOf (ofMonth / 86400) "day" ++ amountOf (ofDay / 3600) "h" ++
      amountOf (ofDay % 3600 / 60) "m" ++ amountOf (ofDay % 60) "s" ++
      amountOf (n / 1000000) "ms" ++ amountOf (n / 1000 % 1000) "us" ++ amountOf (n % 1000) "ns"

end Duration

end Federate
