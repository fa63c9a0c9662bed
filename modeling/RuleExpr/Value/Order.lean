import RuleExpr.Value.Equality

/-!
# Order of values

Numbers, text, date-times and sequences of the same sort can be compared; text goes by code points. The
first pair of items that do not match decides between two sequences, and no later item is looked at; if there
is no such pair, the shorter sequence comes first. Naive and aware date-times do not compare.
-/

namespace RuleExpr

def Comparison.ofTexts (s t : String) : Comparison :=
  if s < t then .less else if s = t then .equal else .greater

/-- Whether a relation holds between things that compare in a given way. -/
def Relation.holds : Relation → Comparison → Bool
  | .less, c => c == .less
  | .lessEqual, c => c == .less || c == .equal
  | .greater, c => c == .greater
  | .greaterEqual, c => c == .greater || c == .equal

namespace Value

def compareNumbers? (v w : Value) : Option Comparison :=
  match v.position?, w.position? with
  | some p, some q => some (p.compare q)
  | _, _ => none

/-- Compares two date-times: by their clock readings within one zone and among naive ones, by their instants across
zones. -/
def compareDates? (d e : DateTime) : Option Comparison :=
  if d.zone = e.zone then some (.ofInts d.clockReading e.clockReading)
  else if d.isAware && e.isAware then some (.ofInts d.position e.position)
  else none

mutual

/-- Compares two values, if they can be compared. Booleans count as one and zero. -/
def compare? : Value → Value → Option Comparison
  | .text s, .text t => some (.ofTexts s t)
  | .date d, .date e => compareDates? d e
  | .list xs, .list ys => compareItems? xs ys
  | .tuple xs, .tuple ys => compareItems? xs ys
  | x, y => compareNumbers? x y

/-- Compares two sequences by their first difference. -/
def compareItems? : List Value → List Value → Option Comparison
  | [], [] => some .equal
  | [], _ :: _ => some .less
  | _ :: _, [] => some .greater
  | x :: xs, y :: ys => if itemsMatch x y then compareItems? xs ys else compare? x y

end

end Value

end RuleExpr
