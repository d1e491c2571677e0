/-
Ordered sets as ascending lists, for any order given by a comparison.
-/
namespace Federate.Time

variable {α : Type}

/-- An ascending list with one more element at its place, unless an equal one stands there. -/
def place (cmp : α → α → Ordering) (a : α) : List α → List α
  | [] => [a]
  | b :: rest =>
    match cmp a b with
    | .lt => a :: b :: rest
    | .eq => b :: rest
    | .gt => b :: place cmp a rest

/-- The elements in ascending order, one of each. -/
def ordered (cmp : α → α → Ordering) (as : List α) : List α :=
  as.foldl (fun sorted a => place cmp a sorted) []

end Federate.Time
