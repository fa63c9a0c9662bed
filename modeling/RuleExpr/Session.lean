import RuleExpr.Interpreter
import RuleExpr.Printing
import RuleExpr.Setting

/-!
# Sessions

A session keeps interpreters and rules under names and carries out commands on them. A command that fails
leaves them as they were. The sources of time and chance are shared, so the session keeps how often they were read, and
each call goes on from there. The setting is looked at only when an interpreter is built without a ceiling of
its own; a rule compiled or run without a named interpreter gets a new one.
-/

namespace RuleExpr

/-- The named interpreters and rules; the latest of a name counts. -/
structure Session where
  interpreters : List (String × Interpreter)
  rules : List (String × Rule)
  /-- How often the time or chance was read. -/
  readings : Nat
deriving DecidableEq, Repr

/-- What a session can be told to do. -/
inductive Command where
  /-- Builds an interpreter, with the ceiling of the setting if none is given. -/
  | build (id : String) (vars : List (Value × Value)) (ceiling : Option (Option Int))
  | lookup (interpreter name : String)
  | compile (id : String) (source : Option String) (interpreter : Option String)
  | call (rule : String) (vars : List (Value × Value))
  | run (source : Option String) (vars : List (Value × Value)) (interpreter : Option String)
  | print (rule : String)
deriving DecidableEq, Repr

/-- What a command answers. -/
inductive Answer where
  | built (i : Interpreter)
  | binding (v : Option Value)
  | compiled (r : Rule)
  | outcome (o : Outcome)
  | text (s : String)
  | fault (f : Fault)
  | unknown (id : String)
deriving Repr

namespace Session

/-- The session in which nothing has been named. -/
def start : Session := ⟨[], [], 0⟩

/-- The interpreter of a name, or a new one with the ceiling of the setting. -/
def interpreterFor (s : Session) (setting : Setting) :
    Option String → Except Answer Interpreter
  | some id =>
    match s.interpreters.lookup id with
    | some i => .ok i
    | none => .error (.unknown id)
  | none =>
    match setting.ceiling >>= Interpreter.new [] with
    | .ok i => .ok i
    | .error f => .error (.fault f)

/-- The session after a call, which may have read the sources. -/
def answering (s : Session) (o : Outcome) : Session × Answer :=
  ({ s with readings := o.2.readings }, .outcome o)

def step (host : Host) (setting : Setting) (s : Session) : Command → Session × Answer
  | .build id vars ceiling =>
    match (do Interpreter.new vars (← ceiling.elim setting.ceiling .ok)) with
    | .ok i => ({ s with interpreters := (id, i) :: s.interpreters }, .built i)
    | .error f => (s, .fault f)
  | .lookup interpreter name =>
    match s.interpreters.lookup interpreter with
    | some i => (s, .binding (i.bindings.lookup? name))
    | none => (s, .unknown interpreter)
  | .compile id source interpreter =>
    match s.interpreterFor setting interpreter with
    | .error answer => (s, answer)
    | .ok i =>
      match i.compile source with
      | .ok r => ({ s with rules := (id, r) :: s.rules }, .compiled r)
      | .error f => (s, .fault f)
  | .call rule vars =>
    match s.rules.lookup rule with
    | some r => s.answering (r.callAfter host s.readings vars)
    | none => (s, .unknown rule)
  | .run source vars interpreter =>
    match s.interpreterFor setting interpreter with
    | .error answer => (s, answer)
    | .ok i => s.answering (i.runAfter host s.readings source vars)
  | .print rule =>
    match s.rules.lookup rule with
    | some r =>
      match Printing.tree r.tree with
      | .ok text => (s, .text text)
      | .error f => (s, .fault f)
    | none => (s, .unknown rule)

/-- Carries out commands in turn, each under its own setting, and returns the answers. -/
def steps (host : Host) (s : Session) : List (Setting × Command) → Session × List Answer
  | [] => (s, [])
  | (setting, command) :: rest =>
    let (s', answer) := s.step host setting command
    let (s'', answers) := s'.steps host rest
    (s'', answer :: answers)

end Session

end RuleExpr
