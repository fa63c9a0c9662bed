import RuleExpr.Scope

/-!
# Forms

A form gets its operands unevaluated and says, step by step, what it wants done: which nodes to evaluate,
what to look up, which frames to enter and leave, and in the end which node stands for the form. A plan is
finite along every path, so a form always comes to an end if the evaluations that it asks for do. It ends itself with
every halt of these and never sees their count; forms and functions that do more are those of a free host
(`RuleExpr.Evaluation.Free`).
-/

namespace RuleExpr

/-- A note that a host function or form leaves of being called. -/
structure Call where
  name : String
  arguments : List Value
deriving DecidableEq, Repr

/-- What a form asks for. -/
inductive Plan where
  /-- The node that is evaluated in place of the form. -/
  | expand (node : Value)
  | fail (f : Fault)
  /-- Evaluates a node and goes on with its value. -/
  | evaluate (node : Value) (next : Value → Plan)
  /-- Evaluates a node and goes on with whether its value counts as true. -/
  | test (node : Value) (next : Bool → Plan)
  /-- Goes on with whether a name is bound. -/
  | ask (name : Value) (next : Bool → Plan)
  /-- Goes on with the value of a name, which has to be bound. -/
  | resolve (name : Value) (next : Value → Plan)
  | enter (frame : Frame) (next : Plan)
  | leave (next : Plan)
  | note (call : Call) (next : Plan)
  /-- Goes on with the notes left so far. -/
  | remember (next : List Call → Plan)

namespace Plan

/-- Chooses between two operands by the value of the first one. A missing third operand stands for nil. -/
def conditional : List Value → Plan
  | [condition, yes] => .test condition fun holds => .expand (if holds then yes else .reference "nil")
  | [condition, yes, no] => .test condition fun holds => .expand (if holds then yes else no)
  | _ => .fail .conditionalOperands

/-- Goes through tests and their results in pairs. A single operand at the end is the default, and without
one the default is nil. -/
def casesFrom : List Value → Plan
  | [] => .expand (.reference "nil")
  | [default] => .expand default
  | condition :: result :: rest =>
    .test condition fun holds => if holds then .expand result else casesFrom rest

/-- Chooses the result behind the first test that holds. -/
def cases (operands : List Value) : Plan :=
  if operands.length < 3 then .fail .caseOperands else casesFrom operands

/-- Chooses false at the first operand that fails, otherwise the last operand. -/
def conjunction : List Value → Plan
  | [] => .expand (.reference "true")
  | [last] => .test last fun holds => .expand (if holds then last else .reference "false")
  | operand :: rest =>
    .test operand fun holds => if holds then conjunction rest else .expand (.reference "false")

/-- Chooses the first operand that holds, otherwise false. -/
def disjunction : List Value → Plan
  | [] => .expand (.reference "false")
  | operand :: rest =>
    .test operand fun holds => if holds then .expand operand else disjunction rest

end Plan

/-- The functions of a host by name. What one does may depend on the notes left so far; it returns the notes that
it leaves and its outcome. -/
def HostFunctions : Type := List Call → String → List Value → List Call × Except Fault Value

/-- Functions that remember nothing. -/
instance : Coe (String → List Value → List Call × Except Fault Value) HostFunctions := ⟨fun call _ => call⟩

/-- What a host supplies: its functions and forms by name, and readings of the time and of chance by their
number. -/
structure Host where
  call : HostFunctions
  plan : String → List Value → Plan
  now : Nat → DateTime
  random : Nat → Binary64

def Host.planOf (host : Host) : Form → List Value → Plan
  | .conditional => Plan.conditional
  | .cases => Plan.cases
  | .conjunction => Plan.conjunction
  | .disjunction => Plan.disjunction
  | .host name => host.plan name

end RuleExpr
