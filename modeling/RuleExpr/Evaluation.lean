import RuleExpr.Builtin
import RuleExpr.Form

/-!
# Evaluation

A node is evaluated in a machine: the scope, the number of operations so far, the notes of the host's calls,
and numbers for readings and marks. Every evaluation of a node counts as one operation before anything else
happens, and stops the whole evaluation if the count passes the ceiling. A list is evaluated by evaluating its
head; a form then gets the other items as they are and the node that it chooses is evaluated, a function gets
their values, and any other head is the value itself.

Every NaN that a function makes gets a mark of its own. The value of a condition is used for its truth alone,
so the marks that were given on the way to it are free again, unless a frame may hold them.

Evaluation is defined by recursion on the fuel, which bounds how deep evaluations nest. Running out of fuel
is an outcome of its own, apart from all faults.
-/

namespace RuleExpr

/-- What evaluation changes. -/
structure Machine where
  scope : Scope
  operations : Nat
  /-- How often the time or chance was read. -/
  readings : Nat
  /-- The number of the next mark. -/
  marks : Nat
  /-- Frames that were entered hold no mark from this number on. -/
  kept : Nat
  calls : List Call
deriving DecidableEq, Repr

def Machine.start (scope : Scope) : Machine := ⟨scope, 0, 0, 0, 0, []⟩

/-- The machine with a fresh count and no notes. -/
def Machine.renewed (m : Machine) : Machine := { m with operations := 0, calls := [] }

@[simp] theorem Machine.renewed_start (scope : Scope) : (Machine.start scope).renewed = .start scope := rfl

/-- Why an evaluation has no value. -/
inductive Halt where
  | fault (f : Fault)
  /-- More operations were counted than the ceiling allows. -/
  | ceilingExceeded (ceiling : Int)
  | outOfFuel
deriving DecidableEq, Repr

/-- The halt at a ceiling. A ceiling that has no text cannot be named, which is a fault. -/
def Halt.atCeiling (ceiling : Int) : Halt :=
  if Numeral.isWritable ceiling then .ceilingExceeded ceiling else .fault .tooManyDigits

/-- The wording of a halt, if the library has one for it. -/
def Halt.message? : Halt → Option String
  | .fault f => f.message?
  | .ceilingExceeded ceiling => some s!"Exceeded max ops({Fault.inFull (.int ceiling)}) allowed!"
  | .outOfFuel => none

/-- A computation on a machine. What it did before it halted stays done. -/
def Eval (α : Type) : Type :=
  Machine → Except Halt α × Machine

namespace Eval

def pure {α : Type} (a : α) : Eval α := fun m => (.ok a, m)

def bind {α β : Type} (x : Eval α) (f : α → Eval β) : Eval β := fun m =>
  match x m with
  | (.ok a, m') => f a m'
  | (.error h, m') => (.error h, m')

instance : Monad Eval where
  pure := pure
  bind := bind

def fault {α : Type} (f : Fault) : Eval α := fun m => (.error (.fault f), m)

/-- An outcome that does not depend on the machine. -/
def ofExcept {α : Type} : Except Fault α → Eval α
  | .ok a => pure a
  | .error f => fault f

/-- An outcome that depends on the scope. -/
def ofScope {α : Type} (f : Scope → Except Fault α) : Eval α := fun m => ofExcept (f m.scope) m

def notes : Eval (List Call) := fun m => (.ok m.calls, m)

def update (f : Machine → Machine) : Eval Unit := fun m => (.ok (), f m)

def note (calls : List Call) : Eval Unit :=
  update fun m => { m with calls := m.calls ++ calls }

/-- Enters a frame. It may hold every mark given so far. -/
def enter (frame : Frame) : Eval Unit :=
  update fun m => { m with scope := m.scope.push frame, kept := m.marks }

def leave : Eval Unit := fun m =>
  match m.scope.pop with
  | .ok (_, scope) => (.ok (), { m with scope })
  | .error f => (.error (.fault f), m)

/-- Takes the next reading of a source. -/
def read {α : Type} (source : Nat → α) : Eval α := fun m =>
  (.ok (source m.readings), { m with readings := m.readings + 1 })

/-- Marks a NaN that has no mark; other values stay. -/
def mark : Value → Eval Value
  | .float (.nan none) => fun m =>
    (.ok (.float (.nan (some (.made m.marks)))), { m with marks := m.marks + 1 })
  | v => pure v

/-- The truth of the value of a computation. Nothing else of the value is left, so its marks are free again,
save those that a frame may hold. -/
def truth (x : Eval Value) : Eval Bool := fun m =>
  match x m with
  | (.ok v, m') => (.ok v.isTruthy, { m' with marks := Nat.max m.marks m'.kept })
  | (.error h, m') => (.error h, m')

@[simp] theorem pure_apply {α : Type} (a : α) (m : Machine) : (Pure.pure a : Eval α) m = (.ok a, m) := rfl

theorem bind_apply {α β : Type} (x : Eval α) (f : α → Eval β) (m : Machine) :
    (x >>= f) m = match x m with
      | (.ok a, m') => f a m'
      | (.error h, m') => (.error h, m') := rfl

@[simp] theorem fault_apply {α : Type} (f : Fault) (m : Machine) :
    (fault f : Eval α) m = (.error (.fault f), m) := rfl

end Eval

/-- Counts one operation. A missing ceiling is never passed. -/
def countOperation (ceiling : Option Int) : Eval Unit := fun m =>
  let m := { m with operations := m.operations + 1 }
  match ceiling with
  | none => (.ok (), m)
  | some limit =>
    if limit < m.operations then (.error (.atCeiling limit), m)
    else (.ok (), m)

/-- Evaluates nodes from left to right. -/
def evalItems (eval : Value → Eval Value) : List Value → Eval (List Value)
  | [] => return []
  | node :: nodes => do
    let v ← eval node
    let vs ← evalItems eval nodes
    return v :: vs

/-- Carries out a plan and returns the node that stands for the form. -/
def Plan.run (eval : Value → Eval Value) : Plan → Eval Value
  | .expand node => return node
  | .fail f => Eval.fault f
  | .evaluate node next => do
    let v ← eval node
    (next v).run eval
  | .test node next => do
    let holds ← Eval.truth (eval node)
    (next holds).run eval
  | .ask name next => do
    let bound ← Eval.ofScope (·.binds name)
    (next bound).run eval
  | .resolve name next => do
    let v ← Eval.ofScope (·.resolveValue name)
    (next v).run eval
  | .enter frame next => do
    Eval.enter frame
    next.run eval
  | .leave next => do
    Eval.leave
    next.run eval
  | .note call next => do
    Eval.note [call]
    next.run eval
  | .remember next => do
    let calls ← Eval.notes
    (next calls).run eval

def applyFunction (host : Host) : Function → List Value → Eval Value
  | .builtin b, vs => Eval.ofExcept (b.apply vs)
  | .now, [] => return .date (← Eval.read host.now)
  | .random, [] => return .float (← Eval.read host.random)
  | .now, _ | .random, _ => Eval.fault .argumentCount
  | .host name, vs => do
    let (calls, outcome) := host.call (← Eval.notes) name vs
    Eval.note calls
    Eval.ofExcept outcome

def evalCombination (host : Host) (eval : Value → Eval Value) (head : Value) (tail : List Value) :
    Eval Value := do
  match ← eval head with
  | .form f => do
    let node ← (host.planOf f tail).run eval
    eval node
  | .function f => do
    let vs ← evalItems eval tail
    Eval.mark (← applyFunction host f vs)
  | v => do
    let _ ← evalItems eval tail
    return v

/-- Evaluates a node, given how to evaluate other nodes. -/
def evalNode (host : Host) (eval : Value → Eval Value) : Value → Eval Value
  | .token .var name => Eval.ofScope (·.resolveValue name)
  | .token _ content => return content
  | .tuple [] | .list [] => return .nil
  | .tuple (head :: tail) | .list (head :: tail) => evalCombination host eval head tail
  | v => return v

/-- Evaluates a node, counting it as one operation. -/
def eval (host : Host) (ceiling : Option Int) : (fuel : Nat) → Value → Eval Value
  | 0, _ => fun m => (.error .outOfFuel, m)
  | fuel + 1, node => do
    countOperation ceiling
    evalNode host (eval host ceiling fuel) node

/-- How deep evaluations may nest without a ceiling. -/
def unboundedDepth : Nat := Nat.pow 2 32

/-- Enough fuel for a ceiling: evaluations nest no deeper than they are counted. -/
def fuelFor : Option Int → Nat
  | some limit => limit.toNat + 1
  | none => unboundedDepth

/-- Evaluates a node where a machine stands, with a fresh count. -/
def evaluateFrom (host : Host) (ceiling : Option Int) (m : Machine) (node : Value) :
    Except Halt Value × Machine :=
  eval host ceiling (fuelFor ceiling) node m.renewed

/-- Evaluates a node in a scope with a fresh count. -/
def evaluate (host : Host) (ceiling : Option Int) (scope : Scope) (node : Value) :
    Except Halt Value × Machine :=
  evaluateFrom host ceiling (.start scope) node

end RuleExpr
