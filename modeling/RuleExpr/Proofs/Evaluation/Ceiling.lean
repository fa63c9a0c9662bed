import Mathlib.Order.Nat
import RuleExpr.Proofs.Evaluation.Fuel

/-!
# Ceilings

A ceiling decides how far an evaluation goes and nothing else. `ceiling_bounds_evaluation` says that under a
ceiling every evaluation ends, also one that would go on for ever without it, and that the count tells whether
the ceiling stopped it. `lower_ceiling_agrees_or_stops` compares two ceilings: an evaluation that the lower one
does not stop is the same under the higher one, and one that counts on beyond the lower one is stopped there
at the first operation too many, with the notes of the calls made so far.

The first of these holds of every free host that keeps the count (`Conduct.steady`): its functions and forms may read
the count and go on after faults, but leave counting to the evaluation and let it stop. The second one is about hosts
that keep to plans. Forms may ask for any number of evaluations and return any node in both.
-/
namespace RuleExpr
open Eval

/-- The machine with one more operation counted. -/
def Machine.counted (m : Machine) : Machine := { m with operations := m.operations + 1 }

@[simp] theorem Machine.counted_operations (m : Machine) : m.counted.operations = m.operations + 1 := rfl

theorem countOperation_some (limit : Int) (m : Machine) :
    countOperation (some limit) m =
      if limit < m.operations + 1 then (.error (.atCeiling limit), m.counted) else (.ok (), m.counted) := by
  simp only [countOperation, Int.natCast_add, Int.natCast_one, Machine.counted]

/-- An operation that the ceiling allows is counted and nothing else happens. -/
theorem countOperation_of_le {ceiling : Option Int} {m : Machine}
    (h : ∀ c ∈ ceiling, (m.operations : Int) + 1 ≤ c) : countOperation ceiling m = (.ok (), m.counted) := by
  cases ceiling with
  | none => rfl
  | some c =>
      have hc := h c rfl
      rw [countOperation_some, if_neg (by omega)]

theorem countOperation_machine (ceiling : Option Int) (m : Machine) :
    (countOperation ceiling m).2 = m.counted := by
  cases ceiling with
  | none => rfl
  | some c =>
      rw [countOperation_some]
      split <;> rfl

theorem atCeiling_ne_outOfFuel (limit : Int) : Halt.atCeiling limit ≠ .outOfFuel := by
  unfold Halt.atCeiling
  split <;> simp

theorem atCeiling_of_isWritable {limit : Int} (h : Numeral.isWritable limit = true) :
    Halt.atCeiling limit = .ceilingExceeded limit := if_pos h

@[simp] theorem Eval.truth_operations (x : Eval Value) (m : Machine) :
    (truth x m).2.operations = (x m).2.operations := by
  unfold truth
  split <;> next heq => simp only [heq]

@[simp] theorem Eval.truth_calls (x : Eval Value) (m : Machine) :
    (truth x m).2.calls = (x m).2.calls := by
  unfold truth
  split <;> next heq => simp only [heq]

/-- A host with one form, which stands for the very call of itself. -/
def Host.endless : Host where
  call _ _ _ := ([], .ok .nil)
  plan name _ := .note ⟨name, []⟩ (.expand (.tuple [.reference name]))
  now _ := ⟨⟨1, 1, 1, by decide⟩, .midnight, some .utc⟩
  random _ := .zero false

/-- A machine in whose scope that form and a builtin form are bound. -/
def Machine.endless : Machine :=
  .start ⟨[⟨[("again", .form (.host "again")), ("or", .form .disjunction)]⟩]⟩

/-! ## One ceiling -/

/-- A step that does not count and fails with faults only. It may read the count. -/
structure Eval.Steady {α : Type} (x : Eval α) : Prop where
  operations (m : Machine) : (x m).2.operations = m.operations
  halt (m : Machine) (h : Halt) : (x m).1 = .error h → ∃ f, h = .fault f

theorem Eval.Quiet.steady {α : Type} {x : Eval α} (h : Quiet x) : Steady x := ⟨h.operations, h.halt⟩

/-- The conduct that leaves counting to the evaluation: no step counts or halts as if at a ceiling, and faults alone
are caught. -/
def Conduct.steady : Conduct where
  step := Eval.Steady
  catches h := ∃ f, h = .fault f
  quiet := Eval.Quiet.steady
  fueled := nofun

/-- How an evaluation under a ceiling ends: with fuel left, and either within the ceiling or stopped at the
first operation beyond it. -/
structure Eval.Within {α : Type} (limit : Nat) (m : Machine) (o : Except Halt α × Machine) : Prop where
  grown : m.operations ≤ o.2.operations
  fueled : o.1 ≠ .error .outOfFuel
  stopped : (o.2.operations ≤ limit ∧ ∀ c, o.1 ≠ .error (.ceilingExceeded c)) ∨
    (o.2.operations = limit + 1 ∧ o.1 = .error (.atCeiling limit))

theorem Eval.Within.le_of_ok {α : Type} {limit : Nat} {m m' : Machine} {a : α}
    (h : Within limit m (.ok a, m')) : m'.operations ≤ limit := by
  rcases h.stopped with ⟨hle, _⟩ | ⟨_, herror⟩
  · exact hle
  · cases herror

/-- Every run of the computation that starts with so many operations spent stays within the ceiling. -/
def Eval.Bounded {α : Type} (limit spent : Nat) (x : Eval α) : Prop :=
  ∀ m, spent ≤ m.operations → m.operations ≤ limit → Within limit m (x m)

theorem Eval.Steady.bounded {α : Type} {limit spent : Nat} {x : Eval α} (h : Steady x) :
    Bounded limit spent x := by
  intro m _ hle
  have hops := h.operations m
  refine ⟨hops.ge, ?_, .inl ⟨hops.trans_le hle, ?_⟩⟩
  · intro herror
    obtain ⟨f, hf⟩ := h.halt m _ herror
    cases hf
  · intro c herror
    obtain ⟨f, hf⟩ := h.halt m _ herror
    cases hf

theorem Eval.Bounded.bind {α β : Type} {limit spent : Nat} {x : Eval α} {f : α → Eval β}
    (h : Bounded limit spent x) (hf : ∀ a, Bounded limit spent (f a)) :
    Bounded limit spent (x >>= f) := by
  intro m hspent hle
  have hx := h m hspent hle
  rw [bind_apply]
  rcases hxm : x m with ⟨e | a, m'⟩
  · rw [hxm] at hx
    refine ⟨hx.grown, ?_, ?_⟩
    · simpa using hx.fueled
    · simpa using hx.stopped
  · rw [hxm] at hx
    have next := hf a m' (hspent.trans hx.grown) hx.le_of_ok
    exact ⟨hx.grown.trans next.grown, next.fueled, next.stopped⟩

theorem Eval.Bounded.truth {limit spent : Nat} {x : Eval Value} (h : Bounded limit spent x) :
    Bounded limit spent (Eval.truth x) := by
  intro m hspent hle
  have hx := h m hspent hle
  unfold Eval.truth
  rcases hxm : x m with ⟨e | a, m'⟩
  · rw [hxm] at hx
    exact ⟨hx.grown, by simpa using hx.fueled, by simpa using hx.stopped⟩
  · rw [hxm] at hx
    exact ⟨hx.grown, by simp, .inl ⟨hx.le_of_ok, by simp⟩⟩

/-- A fault leaves room under the ceiling, so a computation that goes on after one stays within it too. -/
theorem Eval.Bounded.rescue {α : Type} {limit spent : Nat} (hwritable : Numeral.isWritable limit = true) {x : Eval α}
    {handler : Halt → Eval α} (h : Bounded limit spent x) (hfault : ∀ f, Bounded limit spent (handler (.fault f)))
    (hpassed : ∀ e, (∀ f, e ≠ .fault f) → handler e = halt e) : Bounded limit spent (Eval.rescue x handler) := by
  intro m hspent hle
  have hx := h m hspent hle
  unfold Eval.rescue
  rcases hxm : x m with ⟨e | a, m'⟩
  · rw [hxm] at hx
    dsimp only
    by_cases hcaught : ∃ f, e = .fault f
    · obtain ⟨f, rfl⟩ := hcaught
      have hroom : m'.operations ≤ limit := by
        rcases hx.stopped with ⟨hle, -⟩ | ⟨-, hhalt⟩
        · exact hle
        · rw [atCeiling_of_isWritable hwritable] at hhalt
          cases hhalt
      have next := hfault f m' (hspent.trans hx.grown) hroom
      exact ⟨hx.grown.trans next.grown, next.fueled, next.stopped⟩
    · rw [hpassed e (not_exists.1 hcaught)]
      exact hx
  · rw [hxm] at hx
    exact hx

/-- Boundedness as a relation that evaluation respects; only the first computation matters. -/
def Eval.bounding {limit : Nat} (hwritable : Numeral.isWritable limit = true) (spent : Nat) : Congruence .steady where
  rel x _ := Bounded limit spent x
  step := Steady.bounded
  bind := .bind
  truth := .truth
  rescue hx hf hpassed := hx.rescue hwritable (fun f => hf _ ⟨f, rfl⟩)
    fun e he => (hpassed e fun ⟨f, hcaught⟩ => he f hcaught).1

section
variable {host : FreeHost} (hhost : host.Obeys .steady) {limit : Nat} (hwritable : Numeral.isWritable limit = true)
include hhost hwritable

/-- The fuel is the budget: a nested evaluation has one unit less of it and one more operation spent, so the
ceiling is passed before the fuel ends. -/
theorem FreeHost.eval_bounded (fuel : Nat) (node : Value) :
    Bounded limit (limit + 1 - fuel) (host.eval (some limit) fuel node) := by
  induction fuel generalizing node with
  | zero =>
      intro m hspent hle
      omega
  | succ fuel ih =>
      intro m hspent hle
      simp only [FreeHost.eval, bind_apply, countOperation_some]
      by_cases hlast : m.operations = limit
      · rw [if_pos (by omega)]
        refine ⟨Nat.le_succ _, ?_, .inr ⟨congrArg (· + 1) hlast, rfl⟩⟩
        simpa using atCeiling_ne_outOfFuel limit
      · rw [if_neg (by omega)]
        have visits (node : Value) : (bounding hwritable (limit + 1 - fuel)).rel
            (host.eval (some limit) fuel node) (host.eval (some limit) fuel node) := ih node
        have hnode := (bounding hwritable (limit + 1 - fuel)).evalNode hhost visits node m.counted
          (by rw [Machine.counted_operations]; omega) (by rw [Machine.counted_operations]; omega)
        exact ⟨(Nat.le_succ _).trans hnode.grown, hnode.fueled, hnode.stopped⟩

theorem FreeHost.evaluateFrom_within (m : Machine) (node : Value) :
    Within limit m.renewed (host.evaluateFrom (some limit) m node) :=
  eval_bounded hhost hwritable (limit + 1) node m.renewed (by omega) (Nat.zero_le _)

end

/-- A free host with one form, which has its operand evaluated anew until there is no fault. -/
def FreeHost.insisting : FreeHost where
  function _ _ _ := return .nil
  form name operands visit :=
    match operands with
    | [node] => rescue (do return .token .str (← visit node)) fun
      | .fault _ => return .tuple [.reference name, node]
      | h => halt h
    | _ => fault .argumentCount
  now := Host.endless.now
  random := Host.endless.random

theorem FreeHost.insisting_obeys : insisting.Obeys .steady where
  function _ _ := .step (quiet_pure _).steady
  form name operands := by
    unfold insisting
    dsimp only
    split
    · next node =>
        refine .rescue (.bind (.visit node) fun v => .step (quiet_pure _).steady) ?_ ?_
        · rintro _ ⟨f, rfl⟩
          exact .step (quiet_pure _).steady
        · intro h hpassed
          cases h with
          | fault f => exact (hpassed ⟨f, rfl⟩).elim
          | _ => rfl
    · exact .step (quiet_fault _).steady

/-- A machine in whose scope the form of a host is bound. -/
def Machine.binding (name : String) : Machine := .start ⟨[⟨[(name, .form (.host name))]⟩]⟩

/-- A free host whose form goes on after a stop at a ceiling, and whose function stops at a ceiling of its own. -/
def FreeHost.overbearing : FreeHost where
  function _ _ _ := halt (.ceilingExceeded 0)
  form _ operands visit :=
    match operands with
    | [node] => rescue (do return .token .str (← visit node)) fun
      | .ceilingExceeded _ => return .nil
      | h => halt h
    | _ => fault .argumentCount
  now := Host.endless.now
  random := Host.endless.random

/-- A computation that takes back no operation and no note. -/
def Eval.Grows {α : Type} (x : Eval α) : Prop :=
  ∀ m, m.operations ≤ (x m).2.operations ∧ m.calls <+: (x m).2.calls

theorem Eval.Grows.bind {α β : Type} {x : Eval α} {f : α → Eval β} (h : Grows x)
    (hf : ∀ a, Grows (f a)) : Grows (x >>= f) := by
  intro m
  have hx := h m
  rw [bind_apply]
  rcases hxm : x m with ⟨e | a, m'⟩
  · simpa only [hxm] using hx
  · rw [hxm] at hx
    exact ⟨hx.1.trans (hf a m').1, hx.2.trans (hf a m').2⟩

/-- The first outcome is a stop at the ceiling, and the second one has passed that point. -/
structure Eval.StopsBefore {α : Type} (limit : Nat) (o o' : Except Halt α × Machine) : Prop where
  halt : o.1 = .error (.atCeiling limit)
  operations : o.2.operations = limit + 1
  passed : limit < o'.2.operations
  calls : o.2.calls <+: o'.2.calls

/-- From a machine within the ceiling, the first computation does what the second one does without passing
the ceiling, or stops at the ceiling where the second one passes it. -/
def Eval.Agrees {α : Type} (limit : Nat) (x y : Eval α) : Prop :=
  Grows y ∧ ∀ m, m.operations ≤ limit →
    (x m = y m ∧ (x m).2.operations ≤ limit) ∨ StopsBefore limit (x m) (y m)

theorem Eval.Quiet.agrees {α : Type} {limit : Nat} {x : Eval α} (h : Quiet x) : Agrees limit x x :=
  ⟨fun m => ⟨(h.operations m).ge, h.calls m⟩, fun m hle => .inl ⟨rfl, (h.operations m).trans_le hle⟩⟩

theorem Eval.Agrees.bind {α β : Type} {limit : Nat} {x y : Eval α} {f g : α → Eval β}
    (h : Agrees limit x y) (hf : ∀ a, Agrees limit (f a) (g a)) :
    Agrees limit (x >>= f) (y >>= g) := by
  refine ⟨h.1.bind fun a => (hf a).1, ?_⟩
  intro m hle
  rw [bind_apply, bind_apply]
  rcases h.2 m hle with ⟨heq, hops⟩ | hstop
  · rcases hym : y m with ⟨e | a, m'⟩
    · rw [hym] at heq
      rw [heq] at hops ⊢
      exact .inl ⟨rfl, hops⟩
    · rw [hym] at heq
      rw [heq] at hops ⊢
      exact (hf a).2 m' hops
  · -- the first computation is over, the second one only adds to what it has counted and noted
    right
    rcases hxm : x m with ⟨e | a, m₁⟩
    · rw [hxm] at hstop
      have he : e = .atCeiling limit := Except.error.inj hstop.halt
      rcases hym : y m with ⟨e' | b, m₂⟩
      · rw [hym] at hstop
        exact ⟨congrArg Except.error he, hstop.operations, hstop.passed, hstop.calls⟩
      · rw [hym] at hstop
        have grown := (hf b).1 m₂
        exact ⟨congrArg Except.error he, hstop.operations, hstop.passed.trans_le grown.1,
          hstop.calls.trans grown.2⟩
    · rw [hxm] at hstop
      cases hstop.halt

theorem Eval.Agrees.truth {limit : Nat} {x y : Eval Value} (h : Agrees limit x y) :
    Agrees limit (Eval.truth x) (Eval.truth y) := by
  refine ⟨fun m => ?_, fun m hle => ?_⟩
  · rw [truth_operations, truth_calls]
    exact h.1 m
  · rcases h.2 m hle with ⟨heq, hops⟩ | hstop
    · left
      rw [truth_operations]
      refine ⟨?_, hops⟩
      unfold Eval.truth
      rw [heq]
    · right
      refine ⟨?_, ?_, ?_, ?_⟩
      · have hhalt := hstop.halt
        unfold Eval.truth
        split
        · next heq => simp [heq] at hhalt
        · next heq => simpa [heq] using hhalt
      · rw [truth_operations, hstop.operations]
      · rw [truth_operations]
        exact hstop.passed
      · rw [truth_calls, truth_calls]
        exact hstop.calls

/-- Agreement up to the ceiling as a relation that evaluation respects. -/
def Eval.agreeing (limit : Nat) : Congruence .reserved where
  rel := Agrees limit
  step := Quiet.agrees
  bind := .bind
  truth := .truth
  rescue {α x y f g} hx _ hpassed := by
    obtain rfl : f = halt := funext fun h => (hpassed h id).1
    obtain rfl : g = halt := funext fun h => (hpassed h id).2
    rwa [rescue_halt, rescue_halt]

theorem countOperation_agrees {limit : Nat} {higher : Option Int} (hle : ∀ c ∈ higher, (limit : Int) ≤ c) :
    Agrees limit (countOperation (some limit)) (countOperation higher) := by
  refine ⟨?_, ?_⟩
  · intro m
    rw [countOperation_machine]
    exact ⟨Nat.le_succ _, List.prefix_rfl⟩
  · intro m hm
    rcases hm.lt_or_eq with hlt | heq
    · left
      have low : countOperation (some limit) m = (.ok (), m.counted) :=
        countOperation_of_le (by rintro c ⟨⟩; omega)
      have high : countOperation higher m = (.ok (), m.counted) :=
        countOperation_of_le fun c hc => by have := hle c hc; omega
      rw [low, high]
      exact ⟨rfl, hlt⟩
    · right
      rw [countOperation_some, if_pos (by omega)]
      refine ⟨rfl, congrArg (· + 1) heq, ?_, ?_⟩
      · rw [countOperation_machine, Machine.counted_operations]
        omega
      · have hsame : (countOperation higher m).2 = m.counted := countOperation_machine higher m
        exact hsame ▸ List.prefix_rfl

theorem evaluateFrom_within (host : Host) {limit : Nat} (hwritable : Numeral.isWritable limit = true) (m : Machine)
    (node : Value) : Within limit m.renewed (evaluateFrom host (some limit) m node) := by
  have within := FreeHost.evaluateFrom_within (host.free_obeys .steady) hwritable m node
  rwa [FreeHost.evaluateFrom, host.eval_free] at within

/-- Under a ceiling the fuel that an evaluation is given is enough. -/
theorem evaluates_evaluateFrom (host : Host) {limit : Nat} (hwritable : Numeral.isWritable limit = true) (m : Machine)
    (node : Value) : Evaluates host (some limit) m node (evaluateFrom host (some limit) m node) :=
  ⟨limit + 1, rfl, (evaluateFrom_within host hwritable m node).fueled⟩

theorem eval_agrees (host : Host) {limit : Nat} {higher : Option Int}
    (hle : ∀ c ∈ higher, (limit : Int) ≤ c) (fuel : Nat) (node : Value) :
    Agrees limit (eval host (some limit) fuel node) (eval host higher fuel node) := by
  have exhausted (node : Value) : Agrees limit (eval host (some limit) 0 node) (eval host higher 0 node) :=
    ⟨fun _ => ⟨le_rfl, List.prefix_rfl⟩, fun _ hm => .inl ⟨rfl, hm⟩⟩
  have lifted : Agrees limit (eval host (some limit) fuel node) (eval host higher (0 + fuel) node) :=
    (agreeing limit).eval host (countOperation_agrees hle) exhausted fuel node
  rwa [Nat.zero_add] at lifted

end RuleExpr
