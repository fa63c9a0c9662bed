import RuleExpr.Fault

/-!
# Settings

A ceiling may be set by a named text from outside. A missing or blank text sets nothing; any other text has
to be a numeral of an integer that is not negative.
-/

namespace RuleExpr

/-- A named text from outside, which may be missing. -/
structure Setting where
  name : String
  text : Option String
deriving DecidableEq, Repr

namespace Setting

/-- The integer that is set, or the default. -/
def integer (s : Setting) (default : Option Int) : Except Fault (Option Int) :=
  match s.text with
  | none => .ok default
  | some raw =>
    match Text.trim raw.toList with
    | [] => .ok default
    | cs =>
      match Numeral.toInt cs with
      | .error _ => .error (.settingNotInteger s.name raw)
      | .ok n => if n < 0 then .error (Fault.settingNegative s.name n).reported else .ok (some n)

@[simp] theorem integer_of_missing (name : String) (default : Option Int) :
    integer ⟨name, none⟩ default = .ok default := rfl

/-- The ceiling that is set; there is none by default. -/
def ceiling (s : Setting) : Except Fault (Option Int) :=
  s.integer none

end Setting

end RuleExpr
