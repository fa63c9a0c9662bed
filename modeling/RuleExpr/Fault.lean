import RuleExpr.Value.Shown

/-!
# Faults

What can go wrong when rules are read, evaluated and written, each with its cause, and the wording of the
faults that this library reports in its own words. A passed ceiling is not among them: it ends an evaluation
from outside, and no function or form can bring it about.
-/

namespace RuleExpr

inductive Fault where
  /-- No token starts at the rest of the source. -/
  | invalidToken (rest : String)
  /-- A list stands inside too many lists. -/
  | tooDeep (limit : Int)
  | invalidDateTime (text : String)
  | undefinedName (name : Value)
  | conditionalOperands
  /-- A case distinction has fewer than three operands. -/
  | caseOperands
  | noArguments (function : Builtin)
  | notAllNumbers (function : Builtin)
  | notNumber (function : Builtin) (argument : Value)
  | notFinite (function : Builtin) (argument : Value)
  | notSequence (function : Builtin) (argument : Value)
  | notText (function : Builtin) (argument : Value)
  /-- The two values have no order; booleans never have one. -/
  | incomparable (relation : Relation) (left right : Value)
  /-- The sequence holds a boolean among others. -/
  | booleanElements (extreme : Extreme)
  | incomparableElements (extreme : Extreme)
  | settingNotInteger (name raw : String)
  | settingNegative (name : String) (value : Int)
  /-- A function or form of fixed arity got another number of arguments. -/
  | argumentCount
  | unusableName
  | unprintable
  | divisionByZero
  | overflow
  | malformedNumeral
  | tooManyDigits
  | noFrame
  /-- A host function or form reported a failure of its own. -/
  | host (reason : String)
deriving DecidableEq, Repr

namespace Fault

/-- The fault of a text that is no numeral. -/
def ofFlaw : Numeral.Flaw → Fault
  | .malformed => .malformedNumeral
  | .tooManyDigits => .tooManyDigits

/-- The fault of a decimal fraction whose digits do not suffice. Decimal arithmetic belongs to the host. -/
def imprecise : Fault := .host "InvalidOperation"

/-- The values that the wording of a fault shows. -/
def subjects : Fault → List Value
  | undefinedName v | notNumber _ v | notFinite _ v | notSequence _ v | notText _ v => [v]
  | incomparable _ v w => [v, w]
  | tooDeep n | settingNegative _ n => [.int n]
  | _ => []

/-- The fault that arises when this one is reported: wording that would show an integer beyond the digit
limit fails for that reason. -/
def reported (f : Fault) : Fault :=
  if Value.allWritable f.subjects then f else .tooManyDigits

theorem reported_of_subjects {f : Fault} (h : f.subjects = []) : f.reported = f := by
  simp [reported, h, Value.allWritable]

/-- A value in full, as wording shows it. -/
def inFull (v : Value) : String :=
  String.ofList v.shown

/-- The wording of a fault, if the library has one for it. -/
def message? : Fault → Option String
  | invalidToken rest => some s!"Invalid token at: {rest}"
  | tooDeep limit => some s!"Lists nested deeper than {inFull (.int limit)} levels"
  | invalidDateTime text => some s!"Invalid date-time literal: {inFull (.text text)}"
  | undefinedName name => some s!"Var '{String.ofList name.plain}' is undefined!"
  | conditionalOperands =>
    some "If requires a predicate, a then-clause and an optional else-clause"
  | caseOperands => some "Cond requires at least 3 args"
  | noArguments f => some s!"{f.name} requires at least 1 argument"
  | notAllNumbers f => some s!"All arguments to {f.name} must be numbers"
  | notNumber f v => some s!"Argument to {f.name} must be a number, got {inFull v}"
  | notFinite f v => some s!"Argument to {f.name} must be finite, got {inFull v}"
  | notSequence f v => some s!"Argument to {f.name} must be a sequence, got {inFull v}"
  | notText f v => some s!"Argument to {f.name} must be text, got {inFull v}"
  | incomparable r v w =>
    if v.isBool || w.isBool then
      some s!"Cannot compare {String.ofList v.joined} {r.name} {String.ofList w.joined}"
    else some s!"Cannot compare {inFull v} {r.name} {inFull w}"
  | booleanElements e => some s!"Cannot order booleans in {e.name}"
  | incomparableElements e => some s!"Cannot order the elements passed to {e.name}"
  | settingNotInteger name raw =>
    some s!"{name} must be an integer, got {inFull (.text raw)}"
  | settingNegative name value =>
    some s!"{name} must not be negative, got {inFull (.int value)}"
  | argumentCount | unusableName | unprintable | divisionByZero | overflow | malformedNumeral
  | tooManyDigits | noFrame | host _ => none

end Fault

/-! ## Results without a fault -/

theorem ok_bind {α β : Type} (a : α) (f : α → Except Fault β) : (Except.ok a >>= f) = f a := rfl

theorem eq_ok_of_toOption {α : Type} {e : Except Fault α} {a : α} (h : e.toOption = some a) : e = .ok a := by
  cases e with
  | error fault => cases h
  | ok b => exact congrArg Except.ok (Option.some.inj h)

theorem bind_eq_ok_iff {α β : Type} {e : Except Fault α} {f : α → Except Fault β} {b : β} :
    (e >>= f) = .ok b ↔ ∃ a, e = .ok a ∧ f a = .ok b := by
  cases e with
  | error fault =>
      refine iff_of_false nofun ?_
      rintro ⟨a, ⟨⟩, -⟩
  | ok a =>
      constructor
      · intro h
        exact ⟨a, rfl, h⟩
      · rintro ⟨a, ⟨⟩, h⟩
        exact h

theorem map_eq_ok_iff {α β : Type} {e : Except Fault α} {f : α → β} {b : β} :
    e.map f = .ok b ↔ ∃ a, e = .ok a ∧ f a = b := by
  cases e with
  | error fault =>
      refine iff_of_false nofun ?_
      rintro ⟨a, ⟨⟩, -⟩
  | ok a =>
      constructor
      · intro h
        exact ⟨a, rfl, Except.ok.inj h⟩
      · rintro ⟨a, ⟨⟩, rfl⟩
        rfl

theorem map_eq_error_iff {α β : Type} {e : Except Fault α} {f : α → β} {fault : Fault} :
    e.map f = .error fault ↔ e = .error fault := by
  cases e with
  | error other => exact ⟨fun h => congrArg Except.error (Except.error.inj h), fun h => congrArg (Except.map f) h⟩
  | ok a => exact iff_of_false nofun nofun

end RuleExpr
