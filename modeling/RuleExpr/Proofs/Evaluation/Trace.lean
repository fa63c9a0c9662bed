import RuleExpr.Proofs.Evaluation.Ceiling

/-!
# Traces of evaluations

`trace` evaluates a node like `eval` and lists, beside the outcome, every evaluation that is begun, in this order.
Forgetting the list gives the evaluation, and the list is complete: it is as long as the operations that are counted
(`trace_follows`). This holds of all forms of a host.
-/
namespace RuleExpr
open Eval

/-- An evaluation of a node that is begun by the evaluation of another one, its parent, or from outside. -/
structure Visit where
  parent : Option Value
  node : Value
deriving DecidableEq, Repr

/-- A computation on a machine that also lists visits. -/
def Traced (α : Type) : Type :=
  Machine → (Except Halt α × Machine) × List Visit

namespace Traced

def pure {α : Type} (a : α) : Traced α := fun m => ((.ok a, m), [])

def bind {α β : Type} (t : Traced α) (f : α → Traced β) : Traced β := fun m =>
  match t m with
  | ((.ok a, m'), visits) => ((f a m').1, visits ++ (f a m').2)
  | ((.error h, m'), visits) => ((.error h, m'), visits)

instance : Monad Traced where
  pure := pure
  bind := bind

/-- A computation that lists nothing. -/
def ofEval {α : Type} (x : Eval α) : Traced α := fun m => (x m, [])

/-- Counts the operation of a visit and lists the visit. -/
def count (ceiling : Option Int) (visit : Visit) : Traced Unit := fun m => (countOperation ceiling m, [visit])

def truth (t : Traced Value) : Traced Bool := fun m => (Eval.truth (fun m => (t m).1) m, (t m).2)

theorem bind_apply {α β : Type} (t : Traced α) (f : α → Traced β) (m : Machine) :
    (t >>= f) m = match t m with
      | ((.ok a, m'), visits) => ((f a m').1, visits ++ (f a m').2)
      | ((.error h, m'), visits) => ((.error h, m'), visits) := rfl

theorem truth_apply (t : Traced Value) (m : Machine) :
    truth t m = match t m with
      | ((.ok v, m'), visits) => ((.ok v.isTruthy, { m' with marks := Nat.max m.marks m'.kept }), visits)
      | ((.error h, m'), visits) => ((.error h, m'), visits) := by
  unfold truth Eval.truth
  dsimp only
  rcases t m with ⟨⟨e | v, m'⟩, visits⟩
  · rfl
  · rfl

end Traced

def traceItems (visit : Value → Traced Value) : List Value → Traced (List Value)
  | [] => return []
  | node :: nodes => do
    let v ← visit node
    let vs ← traceItems visit nodes
    return v :: vs

def Plan.trace (visit : Value → Traced Value) : Plan → Traced Value
  | .expand node => return node
  | .fail f => Traced.ofEval (Eval.fault f)
  | .evaluate node next => do
    let v ← visit node
    (next v).trace visit
  | .test node next => do
    let holds ← Traced.truth (visit node)
    (next holds).trace visit
  | .ask name next => do
    let bound ← Traced.ofEval (Eval.ofScope (·.binds name))
    (next bound).trace visit
  | .resolve name next => do
    let v ← Traced.ofEval (Eval.ofScope (·.resolveValue name))
    (next v).trace visit
  | .enter frame next => do
    Traced.ofEval (Eval.enter frame)
    next.trace visit
  | .leave next => do
    Traced.ofEval Eval.leave
    next.trace visit
  | .note call next => do
    Traced.ofEval (Eval.note [call])
    next.trace visit
  | .remember next => do
    let calls ← Traced.ofEval Eval.notes
    (next calls).trace visit

def traceCombination (host : Host) (visit : Value → Traced Value) (head : Value) (tail : List Value) :
    Traced Value := do
  match ← visit head with
  | .form f => do
    let node ← (host.planOf f tail).trace visit
    visit node
  | .function f => do
    let vs ← traceItems visit tail
    Traced.ofEval (do Eval.mark (← applyFunction host f vs))
  | v => do
    let _ ← traceItems visit tail
    return v

def traceNode (host : Host) (visit : Value → Traced Value) : Value → Traced Value
  | .token .var name => Traced.ofEval (Eval.ofScope (·.resolveValue name))
  | .token _ content => return content
  | .tuple [] | .list [] => return .nil
  | .tuple (head :: tail) | .list (head :: tail) => traceCombination host visit head tail
  | v => return v

/-- Evaluates a node and lists this evaluation with all that are begun on the way. -/
def trace (host : Host) (ceiling : Option Int) : (fuel : Nat) → (parent : Option Value) → Value → Traced Value
  | 0, _, _ => Traced.ofEval fun m => (.error .outOfFuel, m)
  | fuel + 1, parent, node => do
    Traced.count ceiling ⟨parent, node⟩
    traceNode host (trace host ceiling fuel (some node)) node

/-! ## The list is complete and has no part in the evaluation -/

/-- The traced computation is the other one, and lists one visit for each operation that it counts. -/
structure Traced.Follows {α : Type} (t : Traced α) (x : Eval α) : Prop where
  outcome (m : Machine) : (t m).1 = x m
  operations (m : Machine) : (x m).2.operations = m.operations + (t m).2.length

namespace Traced
variable {α β : Type}

theorem follows_ofEval {x : Eval α} (h : Quiet x) : Follows (ofEval x) x :=
  ⟨fun _ => rfl, h.operations⟩

theorem follows_pure (a : α) : Follows (Pure.pure a : Traced α) (Pure.pure a) :=
  ⟨fun _ => rfl, fun _ => rfl⟩

theorem Follows.bind {t : Traced α} {x : Eval α} {f : α → Traced β} {g : α → Eval β} (h : Follows t x)
    (hf : ∀ a, Follows (f a) (g a)) : Follows (t >>= f) (x >>= g) := by
  constructor
  · intro m
    rw [bind_apply, Eval.bind_apply, ← h.outcome m]
    rcases t m with ⟨⟨e | a, m'⟩, visits⟩
    · rfl
    · exact (hf a).outcome m'
  · intro m
    have hops := h.operations m
    rw [bind_apply, Eval.bind_apply]
    rw [← h.outcome m] at hops ⊢
    rcases htm : t m with ⟨⟨e | a, m'⟩, visits⟩
    · rwa [htm] at hops
    · rw [htm] at hops
      have hrest := (hf a).operations m'
      rw [List.length_append, ← Nat.add_assoc, ← hops]
      exact hrest

theorem Follows.truth {t : Traced Value} {x : Eval Value} (h : Follows t x) :
    Follows (Traced.truth t) (Eval.truth x) := by
  have heq : (fun m => (t m).1) = x := funext h.outcome
  constructor
  · intro m
    rw [← heq]
    rfl
  · intro m
    rw [truth_operations]
    exact h.operations m

variable {visit : Value → Traced Value} {evaluate : Value → Eval Value}

theorem follows_traceItems (h : ∀ node, Follows (visit node) (evaluate node)) (nodes : List Value) :
    Follows (traceItems visit nodes) (evalItems evaluate nodes) := by
  induction nodes with
  | nil => exact follows_pure []
  | cons node nodes ih => exact (h node).bind fun v => ih.bind fun vs => follows_pure (v :: vs)

theorem follows_planTrace (h : ∀ node, Follows (visit node) (evaluate node)) (p : Plan) :
    Follows (p.trace visit) (p.run evaluate) := by
  induction p with
  | expand node => exact follows_pure node
  | fail f => exact follows_ofEval (quiet_fault f)
  | evaluate node next ih => exact (h node).bind ih
  | test node next ih => exact (h node).truth.bind ih
  | ask name next ih => exact (follows_ofEval (quiet_ofScope _)).bind ih
  | resolve name next ih => exact (follows_ofEval (quiet_ofScope _)).bind ih
  | enter frame next ih => exact (follows_ofEval (quiet_enter frame)).bind fun _ => ih
  | leave next ih => exact (follows_ofEval quiet_leave).bind fun _ => ih
  | note call next ih => exact (follows_ofEval (quiet_note [call])).bind fun _ => ih
  | remember next ih => exact (follows_ofEval quiet_notes).bind ih

theorem follows_traceCombination (host : Host) (h : ∀ node, Follows (visit node) (evaluate node)) (head : Value)
    (tail : List Value) :
    Follows (traceCombination host visit head tail) (evalCombination host evaluate head tail) := by
  refine (h head).bind fun v => ?_
  have discard : Follows (traceItems visit tail >>= fun _ => Pure.pure v)
      (evalItems evaluate tail >>= fun _ => Pure.pure v) :=
    (follows_traceItems h tail).bind fun _ => follows_pure v
  cases v with
  | form f => exact (follows_planTrace h _).bind h
  | function f =>
      refine (follows_traceItems h tail).bind fun vs => ?_
      exact follows_ofEval ((quiet_applyFunction host f vs).bind quiet_mark)
  | _ => exact discard

theorem follows_traceNode (host : Host) (h : ∀ node, Follows (visit node) (evaluate node)) (node : Value) :
    Follows (traceNode host visit node) (evalNode host evaluate node) := by
  cases node with
  | token kind content =>
      cases kind with
      | var => exact follows_ofEval (quiet_ofScope _)
      | _ => exact follows_pure content
  | tuple items | list items =>
      cases items with
      | nil => exact follows_pure Value.nil
      | cons head tail => exact follows_traceCombination host h head tail
  | _ => exact follows_pure _

/-- A visit is listed with its operation, whether the ceiling allows it or not. -/
theorem follows_count (ceiling : Option Int) (visit : Visit) :
    Follows (count ceiling visit) (countOperation ceiling) := by
  refine ⟨fun _ => rfl, fun m => ?_⟩
  rw [countOperation_machine]
  rfl

end Traced

/-- A trace is the evaluation of its node, with one visit in the list for each operation. -/
theorem trace_follows (host : Host) (ceiling : Option Int) (fuel : Nat) (parent : Option Value) (node : Value) :
    (trace host ceiling fuel parent node).Follows (eval host ceiling fuel node) := by
  induction fuel generalizing parent node with
  | zero => exact ⟨fun _ => rfl, fun _ => rfl⟩
  | succ fuel ih =>
      refine (Traced.follows_count ceiling ⟨parent, node⟩).bind fun _ => ?_
      exact Traced.follows_traceNode host (ih (some node)) node

end RuleExpr
