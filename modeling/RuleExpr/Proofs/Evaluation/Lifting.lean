import RuleExpr.Evaluation.Free

/-!
# Relations that evaluation respects

Two evaluations of the same node differ only in how they count and how much fuel they have. A relation
between computations that holds between every step and itself, and that sequencing and the truth of a
value keep, therefore holds between the evaluations as soon as it holds between the counts and where the fuel
ends. `Congruence.freeEval` is this argument once for all such relations: functions and forms of a host, items, calls
and combinations need no further case analysis.

Which steps a host may take and after which halts it may go on is its conduct. A relation is proved for a conduct and
then holds for all free hosts that obey it. A host that keeps to plans obeys every conduct (`Host.free_obeys`).
-/
namespace RuleExpr

/-- The machine with so many more operations counted. -/
def Machine.countedBy (m : Machine) (n : Nat) : Machine := { m with operations := m.operations + n }

namespace Eval

/-- A computation that does the same whatever was counted before. -/
def Blind {α : Type} (x : Eval α) : Prop :=
  ∀ m n, x (m.countedBy n) = ((x m).1, (x m).2.countedBy n)

theorem Blind.bind {α β : Type} {x : Eval α} {f : α → Eval β} (h : Blind x) (hf : ∀ a, Blind (f a)) :
    Blind (x >>= f) := by
  intro m n
  rw [bind_apply, bind_apply, h]
  rcases x m with ⟨e | a, m'⟩
  · rfl
  · exact hf a m' n

theorem Blind.truth {x : Eval Value} (h : Blind x) : Blind (truth x) := by
  intro m n
  unfold Eval.truth
  rw [h]
  rcases x m with ⟨e | v, m'⟩ <;> rfl

/-- A step that neither counts nor depends on the count, keeps the notes and fails with faults only. -/
structure Quiet {α : Type} (x : Eval α) : Prop where
  operations (m : Machine) : (x m).2.operations = m.operations
  calls (m : Machine) : m.calls <+: (x m).2.calls
  halt (m : Machine) (h : Halt) : (x m).1 = .error h → ∃ f, h = .fault f
  blind : Blind x

theorem quiet_pure {α : Type} (a : α) : Quiet (Pure.pure a : Eval α) :=
  ⟨fun _ => rfl, fun _ => List.prefix_rfl, (fun _ _ h => by cases h), fun _ _ => rfl⟩

theorem quiet_fault {α : Type} (f : Fault) : Quiet (fault f : Eval α) := by
  refine ⟨fun _ => rfl, fun _ => List.prefix_rfl, ?_, fun _ _ => rfl⟩
  intro m h hh
  exact ⟨f, (Except.error.inj hh).symm⟩

theorem quiet_ofExcept {α : Type} : (e : Except Fault α) → Quiet (ofExcept e)
  | .ok a => quiet_pure a
  | .error f => quiet_fault f

theorem quiet_ofScope {α : Type} (f : Scope → Except Fault α) : Quiet (ofScope f) where
  operations m := (quiet_ofExcept (f m.scope)).operations m
  calls m := (quiet_ofExcept (f m.scope)).calls m
  halt m := (quiet_ofExcept (f m.scope)).halt m
  blind m := (quiet_ofExcept (f m.scope)).blind m

theorem quiet_enter (frame : Frame) : Quiet (enter frame) :=
  ⟨fun _ => rfl, fun _ => List.prefix_rfl, (fun _ _ h => by cases h), fun _ _ => rfl⟩

theorem quiet_notes : Quiet notes :=
  ⟨fun _ => rfl, fun _ => List.prefix_rfl, (fun _ _ h => by cases h), fun _ _ => rfl⟩

theorem quiet_note (calls : List Call) : Quiet (note calls) :=
  ⟨fun _ => rfl, fun _ => List.prefix_append _ _, (fun _ _ h => by cases h), fun _ _ => rfl⟩

theorem quiet_read {α : Type} (source : Nat → α) : Quiet (read source) :=
  ⟨fun _ => rfl, fun _ => List.prefix_rfl, (fun _ _ h => by cases h), fun _ _ => rfl⟩

theorem quiet_leave : Quiet leave := by
  refine ⟨?_, ?_, ?_, ?_⟩
  · intro m
    unfold leave
    split <;> rfl
  · intro m
    unfold leave
    split <;> exact List.prefix_rfl
  · intro m h hh
    unfold leave at hh
    split at hh
    · cases hh
    · next f _ => exact ⟨f, (Except.error.inj hh).symm⟩
  · intro m n
    rcases hpop : m.scope.pop with f | ⟨frame, scope⟩ <;> simp only [leave, Machine.countedBy, hpop]

theorem quiet_mark (v : Value) : Quiet (mark v) := by
  cases v with
  | float x =>
      rcases x with (_ | _) | _ | _
      · exact ⟨fun _ => rfl, fun _ => List.prefix_rfl, (fun _ _ h => by cases h), fun _ _ => rfl⟩
      all_goals exact quiet_pure _
  | _ => exact quiet_pure _

theorem Quiet.bind {α β : Type} {x : Eval α} {f : α → Eval β} (h : Quiet x) (hf : ∀ a, Quiet (f a)) :
    Quiet (x >>= f) := by
  refine ⟨fun m => ?_, fun m => ?_, fun m e he => ?_, h.blind.bind fun a => (hf a).blind⟩
  · have hops := h.operations m
    rw [bind_apply]
    rcases hxm : x m with ⟨e | a, m'⟩
    · rwa [hxm] at hops
    · rw [hxm] at hops
      exact ((hf a).operations m').trans hops
  · have hcalls := h.calls m
    rw [bind_apply]
    rcases hxm : x m with ⟨e | a, m'⟩
    · rwa [hxm] at hcalls
    · rw [hxm] at hcalls
      exact hcalls.trans ((hf a).calls m')
  · have hhalt := h.halt m
    rw [bind_apply] at he
    rcases hxm : x m with ⟨e' | a, m'⟩
    · rw [hxm] at he hhalt
      exact hhalt e (by simpa using he)
    · rw [hxm] at he
      exact (hf a).halt m' e he

theorem quiet_applyFunction (host : Host) (f : Function) (vs : List Value) : Quiet (applyFunction host f vs) := by
  cases f with
  | builtin b => exact quiet_ofExcept _
  | now =>
      cases vs with
      | nil => exact (quiet_read _).bind fun _ => quiet_pure _
      | cons => exact quiet_fault _
  | random =>
      cases vs with
      | nil => exact (quiet_read _).bind fun _ => quiet_pure _
      | cons => exact quiet_fault _
  | host name => exact quiet_notes.bind fun _ => (quiet_note _).bind fun _ => quiet_ofExcept _

theorem rescue_halt {α : Type} (x : Eval α) : rescue x halt = x := by
  funext m
  unfold rescue halt
  rcases x m with ⟨e | a, m'⟩ <;> rfl

end Eval

/-! ## Conduct -/

/-- What the functions and forms of a host may do: the steps that they may take, quiet ones in any case, and the halts
after which they may go on. Running out of fuel is no outcome of the language and never among these. -/
structure Conduct where
  step : {α : Type} → Eval α → Prop
  catches : Halt → Prop
  quiet {α : Type} {x : Eval α} : Eval.Quiet x → step x
  fueled : ¬ catches .outOfFuel

/-- Whether a computation is made of allowed steps and of evaluations, one after another, and passes on all halts after
which it may not go on. -/
inductive Conduct.Allows (c : Conduct) : {α : Type} → ((Value → Eval Value) → Eval α) → Prop
  | step {α : Type} {x : Eval α} : c.step x → Allows c fun _ => x
  | visit (node : Value) : Allows c fun visit => visit node
  | truth {body : (Value → Eval Value) → Eval Value} : Allows c body → Allows c fun visit => Eval.truth (body visit)
  | bind {α β : Type} {body : (Value → Eval Value) → Eval α} {next : α → (Value → Eval Value) → Eval β} :
      Allows c body → (∀ a, Allows c (next a)) → Allows c fun visit => body visit >>= fun a => next a visit
  | rescue {α : Type} {body : (Value → Eval Value) → Eval α} {handler : Halt → (Value → Eval Value) → Eval α} :
      Allows c body → (∀ h, c.catches h → Allows c (handler h)) →
      (∀ h, ¬ c.catches h → handler h = fun _ => Eval.halt h) →
      Allows c fun visit => Eval.rescue (body visit) fun h => handler h visit

/-- Whether all functions and forms of a host do only what is allowed. -/
structure FreeHost.Obeys (host : FreeHost) (c : Conduct) : Prop where
  function (name : String) (vs : List Value) : c.Allows (host.function name vs)
  form (name : String) (operands : List Value) : c.Allows (host.form name operands)

/-- A plan takes quiet steps and evaluates, and never goes on after a halt. -/
theorem Conduct.allows_plan (c : Conduct) (p : Plan) : c.Allows p.run := by
  have quiet {α : Type} {x : Eval α} (h : Eval.Quiet x) : c.Allows fun _ => x := .step (c.quiet h)
  induction p with
  | expand node => exact quiet (Eval.quiet_pure node)
  | fail f => exact quiet (Eval.quiet_fault f)
  | evaluate node next ih => exact .bind (.visit node) ih
  | test node next ih => exact .bind (.truth (.visit node)) ih
  | ask name next ih => exact .bind (quiet (Eval.quiet_ofScope _)) ih
  | resolve name next ih => exact .bind (quiet (Eval.quiet_ofScope _)) ih
  | enter frame next ih => exact .bind (quiet (Eval.quiet_enter frame)) fun _ => ih
  | leave next ih => exact .bind (quiet Eval.quiet_leave) fun _ => ih
  | note call next ih => exact .bind (quiet (Eval.quiet_note [call])) fun _ => ih
  | remember next ih => exact .bind (quiet Eval.quiet_notes) ih

theorem Host.free_obeys (host : Host) (c : Conduct) : host.free.Obeys c where
  function name vs := .step (c.quiet (Eval.quiet_applyFunction host (.host name) vs))
  form name operands := c.allows_plan (host.plan name operands)

/-- The conduct of plans: quiet steps only, and no halt is caught. -/
def Conduct.reserved : Conduct where
  step := Eval.Quiet
  catches _ := False
  quiet := id
  fueled := id

namespace Eval

/-- A relation between computations that the steps of a conduct, sequencing, truth and going on after a halt respect. -/
structure Congruence (c : Conduct) where
  rel {α : Type} : Eval α → Eval α → Prop
  step {α : Type} {x : Eval α} : c.step x → rel x x
  bind {α β : Type} {x y : Eval α} {f g : α → Eval β} :
    rel x y → (∀ a, rel (f a) (g a)) → rel (x >>= f) (y >>= g)
  truth {x y : Eval Value} : rel x y → rel (truth x) (truth y)
  rescue {α : Type} {x y : Eval α} {f g : Halt → Eval α} : rel x y → (∀ h, c.catches h → rel (f h) (g h)) →
    (∀ h, ¬ c.catches h → f h = halt h ∧ g h = halt h) → rel (rescue x f) (rescue y g)

namespace Congruence
variable {c : Conduct} (R : Congruence c) {visit visit' : Value → Eval Value}

theorem quiet {α : Type} {x : Eval α} (h : Quiet x) : R.rel x x := R.step (c.quiet h)

theorem evalItems (h : ∀ node, R.rel (visit node) (visit' node)) (nodes : List Value) :
    R.rel (evalItems visit nodes) (evalItems visit' nodes) := by
  induction nodes with
  | nil => exact R.quiet (quiet_pure [])
  | cons node nodes ih =>
      exact R.bind (h node) fun v => R.bind ih fun vs => R.quiet (quiet_pure (v :: vs))

/-- What is allowed is done alike, whatever it has evaluated on the way. -/
theorem body {α : Type} {body : (Value → Eval Value) → Eval α} (hbody : c.Allows body)
    (h : ∀ node, R.rel (visit node) (visit' node)) : R.rel (body visit) (body visit') := by
  induction hbody with
  | step hx => exact R.step hx
  | visit node => exact h node
  | truth _ ih => exact R.truth ih
  | bind _ _ ih ihnext => exact R.bind ih ihnext
  | rescue _ _ hpassed ih ihhandler =>
      refine R.rescue ih ihhandler fun e he => ?_
      rw [hpassed e he]
      exact ⟨rfl, rfl⟩

section
variable {host : FreeHost} (hhost : host.Obeys c) (h : ∀ node, R.rel (visit node) (visit' node))
include hhost h

theorem apply (f : Function) (vs : List Value) : R.rel (host.apply visit f vs) (host.apply visit' f vs) := by
  cases f with
  | builtin b => exact R.quiet (quiet_ofExcept _)
  | now =>
      cases vs with
      | nil => exact R.quiet ((quiet_read _).bind fun _ => quiet_pure _)
      | cons => exact R.quiet (quiet_fault _)
  | random =>
      cases vs with
      | nil => exact R.quiet ((quiet_read _).bind fun _ => quiet_pure _)
      | cons => exact R.quiet (quiet_fault _)
  | host name => exact R.body (hhost.function name vs) h

theorem expand (f : Form) (operands : List Value) :
    R.rel (host.expand visit f operands) (host.expand visit' f operands) := by
  cases f with
  | host name => exact R.body (hhost.form name operands) h
  | _ => exact R.body (c.allows_plan _) h

theorem evalCombination (head : Value) (tail : List Value) :
    R.rel (host.evalCombination visit head tail) (host.evalCombination visit' head tail) := by
  refine R.bind (h head) fun v => ?_
  have discard : R.rel (RuleExpr.evalItems visit tail >>= fun _ => Pure.pure v)
      (RuleExpr.evalItems visit' tail >>= fun _ => Pure.pure v) :=
    R.bind (R.evalItems h tail) fun _ => R.quiet (quiet_pure v)
  cases v with
  | form f => exact R.bind (R.expand hhost h f tail) h
  | function f =>
      exact R.bind (R.evalItems h tail) fun vs => R.bind (R.apply hhost h f vs) fun r => R.quiet (quiet_mark r)
  | _ => exact discard

theorem evalNode (node : Value) : R.rel (host.evalNode visit node) (host.evalNode visit' node) := by
  unfold FreeHost.evalNode
  split
  · exact R.quiet (quiet_ofScope _)
  · exact R.quiet (quiet_pure _)
  · exact R.quiet (quiet_pure _)
  · exact R.quiet (quiet_pure _)
  · exact R.evalCombination hhost h _ _
  · exact R.evalCombination hhost h _ _
  · exact R.quiet (quiet_pure _)

end

/-- The induction on fuel: the counts are related at every node, and so are the two ends of the fuel. -/
theorem freeEval {host : FreeHost} (hhost : host.Obeys c) {ceiling ceiling' : Option Int} {extra : Nat}
    (count : R.rel (countOperation ceiling) (countOperation ceiling'))
    (exhausted : ∀ node, R.rel (host.eval ceiling 0 node) (host.eval ceiling' extra node)) (fuel : Nat)
    (node : Value) : R.rel (host.eval ceiling fuel node) (host.eval ceiling' (extra + fuel) node) := by
  induction fuel generalizing node with
  | zero => exact exhausted node
  | succ fuel ih => exact R.bind count fun _ => R.evalNode hhost ih node

theorem eval (host : Host) {ceiling ceiling' : Option Int} {extra : Nat}
    (count : R.rel (countOperation ceiling) (countOperation ceiling'))
    (exhausted : ∀ node, R.rel (eval host ceiling 0 node) (eval host ceiling' extra node))
    (fuel : Nat) (node : Value) :
    R.rel (eval host ceiling fuel node) (eval host ceiling' (extra + fuel) node) := by
  rw [← host.eval_free, ← host.eval_free]
  refine R.freeEval (host.free_obeys c) count (fun node => ?_) fuel node
  rw [host.eval_free, host.eval_free]
  exact exhausted node

end Congruence

end Eval

end RuleExpr
