import RuleExpr.Interpreter

/-!
# Journal

What reading, compiling and evaluating report while an interpreter runs a source. A source that cannot be
read leaves no record.
-/

namespace RuleExpr

/-- How urgent a record is. -/
inductive Level where
  | debug
  | warning
deriving DecidableEq, Repr

/-- The events that are reported. -/
inductive Record where
  | lexemesLeftOver (count : Nat)
  | lexemesRead (count : Nat)
  | ruleCompiled (source : Option String)
  | ceilingExceeded (ceiling : Int)
deriving DecidableEq, Repr

namespace Record

/-- Only a passed ceiling is a warning. -/
def level : Record → Level
  | .ceilingExceeded _ => .warning
  | _ => .debug

/-- A number in records. -/
def number (n : Int) : String :=
  String.ofList (Numeral.ofInt n)

def message : Record → String
  | lexemesLeftOver n => s!"Ignoring {number n} trailing token(s) after the first expression"
  | lexemesRead n => s!"Read {number n} token(s) from rule source"
  | ruleCompiled source => s!"Compiled rule {String.ofList (Rule.sourceValue source).shown}"
  | ceilingExceeded limit => s!"Rule evaluation exceeded max ops ({number limit})"

end Record

namespace Journal

def ofReading (r : Tree.Reading) : List Record :=
  (if r.leftOver = 0 then [] else [.lexemesLeftOver r.leftOver]) ++ [.lexemesRead r.lexemes]

/-- The records of a rule that was compiled. -/
def ofRule (r : Rule) : List Record :=
  ofReading r.reading ++ [.ruleCompiled r.source]

def ofOutcome (o : Outcome) : List Record :=
  match o.1 with
  | .error (.ceilingExceeded limit) => [.ceilingExceeded limit]
  | _ => []

def ofRun (host : Host) (i : Interpreter) (source : Option String) (vars : List (Value × Value)) :
    List Record :=
  match i.compile source with
  | .error _ => []
  | .ok rule => ofRule rule ++ ofOutcome (rule.call host vars)

end Journal

end RuleExpr
