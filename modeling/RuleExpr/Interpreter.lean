import RuleExpr.Evaluation
import RuleExpr.Registry
import RuleExpr.Tree

/-!
# Interpreters and rules

An interpreter holds bindings and a ceiling. It compiles a source into a rule, which can be called any
number of times. Each call starts a fresh count in a scope of a single frame: the interpreter's bindings
under those of the call. The sources of time and chance are shared by all calls, so a call goes on with the readings
that the calls before have left.
-/

namespace RuleExpr

/-- How an evaluation ended and what it left behind. -/
abbrev Outcome := Except Halt Value × Machine

/-- A machine before a call, where so many readings were taken. -/
def Machine.startAfter (readings : Nat) (scope : Scope) : Machine := { Machine.start scope with readings }

/-- The outcome of a call that failed before anything was evaluated. -/
def Outcome.failed (readings : Nat) (f : Fault) : Outcome :=
  (.error (.fault f), .startAfter readings ⟨[]⟩)

/-- Bindings and a ceiling that are fixed once. -/
structure Interpreter where
  bindings : Frame
  ceiling : Option Int
deriving DecidableEq, Repr

/-- A source that has been read, and the interpreter that will evaluate it. -/
structure Rule where
  interpreter : Interpreter
  source : Option String
  reading : Tree.Reading
deriving DecidableEq, Repr

namespace Interpreter

/-- The interpreter whose bindings are the registry under the given ones. -/
def new (vars : List (Value × Value)) (ceiling : Option Int) : Except Fault Interpreter :=
  (Frame.ofKeyed vars).map fun frame => ⟨Registry.defaults.overlay frame, ceiling⟩

def compile (i : Interpreter) (source : Option String) : Except Fault Rule :=
  (Tree.read source).map (⟨i, source, ·⟩)

end Interpreter

namespace Rule

def tree (r : Rule) : Value :=
  r.reading.tree

/-- The frame in which a call evaluates. -/
def frame (r : Rule) (vars : Frame) : Frame :=
  r.interpreter.bindings.overlay vars

/-- Calls a rule after so many readings. -/
def callAfter (host : Host) (readings : Nat) (r : Rule) (vars : List (Value × Value)) : Outcome :=
  match Frame.ofKeyed vars with
  | .error f => .failed readings f
  | .ok vars => evaluateFrom host r.interpreter.ceiling (.startAfter readings ⟨[r.frame vars]⟩) r.tree

def call (host : Host) (r : Rule) (vars : List (Value × Value)) : Outcome :=
  r.callAfter host 0 vars

/-- The source of a rule as a value; a missing one is nil. -/
def sourceValue (source : Option String) : Value :=
  (source.map Value.text).getD .nil

def shown (r : Rule) : String :=
  "<CompiledRule " ++ String.ofList (sourceValue r.source).shown ++ ">"

end Rule

/-- Compiles a source and calls the rule, after so many readings. -/
def Interpreter.runAfter (host : Host) (readings : Nat) (i : Interpreter) (source : Option String)
    (vars : List (Value × Value)) : Outcome :=
  match i.compile source with
  | .error f => .failed readings f
  | .ok rule => rule.callAfter host readings vars

def Interpreter.run (host : Host) (i : Interpreter) (source : Option String)
    (vars : List (Value × Value)) : Outcome :=
  i.runAfter host 0 source vars

end RuleExpr
