import RuleExpr.Evaluation

/-!
# Evaluation with a free host

The forms of a `Host` act by plans, which end with any halt that they meet and never see the count, and its functions
look at notes and arguments alone. A free host is not bound in this way. What its functions and forms do is any
computation on the machine, and they may have nodes evaluated as often as they like, see how that ends and go on.
Evaluation is the same otherwise, and a host is a free one that makes little use of its freedom (`Host.eval_free`).
-/

namespace RuleExpr

/-- Ends with a halt. -/
def Eval.halt {α : Type} (h : Halt) : Eval α := fun m => (.error h, m)

/-- Goes on after a halt, with the machine that it left behind. -/
def Eval.rescue {α : Type} (x : Eval α) (handler : Halt → Eval α) : Eval α := fun m =>
  match x m with
  | (.ok a, m') => (.ok a, m')
  | (.error h, m') => handler h m'

/-- A host whose functions and forms do anything, given how nodes are evaluated. A form still returns the node that
is evaluated in its place. -/
structure FreeHost where
  function : String → List Value → (Value → Eval Value) → Eval Value
  form : String → List Value → (Value → Eval Value) → Eval Value
  now : Nat → DateTime
  random : Nat → Binary64

namespace FreeHost

def apply (host : FreeHost) (visit : Value → Eval Value) : Function → List Value → Eval Value
  | .builtin b, vs => Eval.ofExcept (b.apply vs)
  | .now, [] => return .date (← Eval.read host.now)
  | .random, [] => return .float (← Eval.read host.random)
  | .now, _ | .random, _ => Eval.fault .argumentCount
  | .host name, vs => host.function name vs visit

/-- The node that stands for a form. -/
def expand (host : FreeHost) (visit : Value → Eval Value) : Form → List Value → Eval Value
  | .conditional, operands => (Plan.conditional operands).run visit
  | .cases, operands => (Plan.cases operands).run visit
  | .conjunction, operands => (Plan.conjunction operands).run visit
  | .disjunction, operands => (Plan.disjunction operands).run visit
  | .host name, operands => host.form name operands visit

def evalCombination (host : FreeHost) (visit : Value → Eval Value) (head : Value) (tail : List Value) :
    Eval Value := do
  match ← visit head with
  | .form f => do
    let node ← host.expand visit f tail
    visit node
  | .function f => do
    let vs ← evalItems visit tail
    Eval.mark (← host.apply visit f vs)
  | v => do
    let _ ← evalItems visit tail
    return v

def evalNode (host : FreeHost) (visit : Value → Eval Value) : Value → Eval Value
  | .token .var name => Eval.ofScope (·.resolveValue name)
  | .token _ content => return content
  | .tuple [] | .list [] => return .nil
  | .tuple (head :: tail) | .list (head :: tail) => host.evalCombination visit head tail
  | v => return v

def eval (host : FreeHost) (ceiling : Option Int) : (fuel : Nat) → Value → Eval Value
  | 0, _ => fun m => (.error .outOfFuel, m)
  | fuel + 1, node => do
    countOperation ceiling
    host.evalNode (host.eval ceiling fuel) node

/-- Evaluates a node where a machine stands, with a fresh count. -/
def evaluateFrom (host : FreeHost) (ceiling : Option Int) (m : Machine) (node : Value) :
    Except Halt Value × Machine :=
  host.eval ceiling (fuelFor ceiling) node m.renewed

end FreeHost

/-- A host that keeps to plans, as a free one. -/
def Host.free (host : Host) : FreeHost where
  function name vs _ := applyFunction host (.host name) vs
  form name operands visit := (host.plan name operands).run visit
  now := host.now
  random := host.random

namespace Host
variable (host : Host) (visit : Value → Eval Value)

theorem apply_free (f : Function) (vs : List Value) : host.free.apply visit f vs = applyFunction host f vs := by
  cases f with
  | now => cases vs <;> rfl
  | random => cases vs <;> rfl
  | _ => rfl

theorem expand_free (f : Form) (operands : List Value) :
    host.free.expand visit f operands = (host.planOf f operands).run visit := by
  cases f <;> rfl

theorem evalCombination_free (head : Value) (tail : List Value) :
    host.free.evalCombination visit head tail = evalCombination host visit head tail := by
  refine congrArg (visit head >>= ·) (funext fun v => ?_)
  cases v with
  | form f => exact congrArg (· >>= visit) (host.expand_free visit f tail)
  | function f =>
      refine congrArg (evalItems visit tail >>= ·) (funext fun vs => ?_)
      exact congrArg (· >>= Eval.mark) (host.apply_free visit f vs)
  | _ => rfl

theorem evalNode_free (node : Value) : host.free.evalNode visit node = evalNode host visit node := by
  cases node with
  | token kind content => cases kind <;> rfl
  | tuple items =>
      cases items with
      | nil => rfl
      | cons head tail => exact host.evalCombination_free visit head tail
  | list items =>
      cases items with
      | nil => rfl
      | cons head tail => exact host.evalCombination_free visit head tail
  | _ => rfl

/-- Evaluation with a host is evaluation with the host as a free one. -/
theorem eval_free (ceiling : Option Int) (fuel : Nat) (node : Value) :
    host.free.eval ceiling fuel node = eval host ceiling fuel node := by
  induction fuel generalizing node with
  | zero => rfl
  | succ fuel ih =>
      have hvisit : host.free.eval ceiling fuel = eval host ceiling fuel := funext ih
      rw [FreeHost.eval, eval, hvisit, evalNode_free]

end Host

end RuleExpr
