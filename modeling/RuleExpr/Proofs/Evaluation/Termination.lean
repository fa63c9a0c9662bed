import Mathlib
import RuleExpr.Registry
import RuleExpr.Proofs.Evaluation.BuiltinForms
import RuleExpr.Proofs.Evaluation.Ceiling

/-!
# Rules end

Where all forms are builtin ones, every evaluation ends without a ceiling, after no more than `2 ^ size` operations
(`builtinForms_evaluation_ends`). A form goes on with one of its operands. That operand is smaller than the call but
may have been evaluated before. So evaluations nest no deeper than the node is large, while the count may double from
one level to the next.
-/
namespace RuleExpr
open Eval

mutual

/-- How many tokens, lists and other nodes a node is made of. -/
def Value.size : Value → Nat
  | .list items | .tuple items => 1 + sizeOfAll items
  | _ => 1

def Value.sizeOfAll : List Value → Nat
  | [] => 0
  | v :: vs => size v + sizeOfAll vs

end

namespace Value

theorem size_pos (v : Value) : 0 < v.size := by
  cases v <;> simp only [size] <;> omega

theorem size_le_of_mem {v : Value} {vs : List Value} (h : v ∈ vs) : v.size ≤ sizeOfAll vs := by
  induction vs with
  | nil => cases h
  | cons w vs ih =>
      rw [sizeOfAll]
      rcases List.mem_cons.1 h with rfl | h
      · omega
      · have := ih h
        omega

/-- The most operations that a node can take. -/
def bound (v : Value) : Nat := 2 ^ v.size - 1

theorem bound_add_one (v : Value) : v.bound + 1 = 2 ^ v.size := Nat.sub_add_cancel Nat.one_le_two_pow

theorem bound_pos (v : Value) : 0 < v.bound := by
  have := Nat.one_lt_two_pow v.size_pos.ne'
  have := v.bound_add_one
  omega

theorem bound_lt_of_mem {v : Value} {vs : List Value} (h : v ∈ vs) : v.bound < 2 ^ sizeOfAll vs := by
  rw [Nat.lt_iff_add_one_le, bound_add_one]
  exact Nat.pow_le_pow_right (by decide) (size_le_of_mem h)

theorem sum_bound_lt (vs : List Value) : (vs.map bound).sum < 2 ^ sizeOfAll vs := by
  induction vs with
  | nil => exact Nat.one_pos
  | cons v vs ih =>
      have hhere : v.bound ≤ v.bound * 2 ^ sizeOfAll vs := Nat.le_mul_of_pos_right _ (Nat.two_pow_pos _)
      rw [List.map_cons, List.sum_cons, sizeOfAll, Nat.pow_add, ← bound_add_one v, Nat.add_mul, Nat.one_mul]
      omega

/-- A head, all items and one item over again stay below the bound of the whole list. -/
theorem bound_combination (head : Value) (tail : List Value) :
    head.bound + ((tail.map bound).sum + 2 ^ sizeOfAll tail) + 1 < 2 ^ (1 + sizeOfAll (head :: tail)) := by
  have htail := sum_bound_lt tail
  have hhead := head.bound_pos
  have hboth : head.bound ≤ head.bound * 2 ^ sizeOfAll tail := Nat.le_mul_of_pos_right _ (Nat.two_pow_pos _)
  rw [sizeOfAll, Nat.pow_add, Nat.pow_add, ← head.bound_add_one, Nat.add_mul, Nat.one_mul]
  omega

end Value

/-! ## Endings -/

/-- Whether a machine holds builtin forms only, in its scope and in what the functions of the host remember. -/
structure Machine.BuiltinForms (host : Host) (m : Machine) : Prop where
  scope : m.scope.BuiltinForms
  calls : host.Remembers m.calls

/-- How a computation ends: with builtin forms only, after so many operations at the most, and with a result of some
class or a fault. -/
structure Eval.Ended {α : Type} (host : Host) (cost : Nat) (good : α → Prop) (m : Machine)
    (o : Except Halt α × Machine) : Prop where
  machine : o.2.BuiltinForms host
  operations : o.2.operations ≤ m.operations + cost
  outcome : (∃ a, o.1 = .ok a ∧ good a) ∨ ∃ f, o.1 = .error (.fault f)

/-- Every run of the computation from a machine with builtin forms only ends. -/
def Eval.Ends {α : Type} (host : Host) (cost : Nat) (good : α → Prop) (x : Eval α) : Prop :=
  ∀ m, m.BuiltinForms host → Ended host cost good m (x m)

section
variable {α β : Type} {host : Host} {cost : Nat} {good : α → Prop} {x : Eval α}

theorem Eval.Quiet.ends (h : Quiet x) (hscope : ∀ m, (x m).2.scope = m.scope) (hcalls : ∀ m, (x m).2.calls = m.calls)
    (hgood : ∀ m a, m.scope.BuiltinForms → (x m).1 = .ok a → good a) : Ends host cost good x := by
  intro m hm
  refine ⟨⟨?_, ?_⟩, ?_, ?_⟩
  · rw [hscope]
    exact hm.scope
  · rw [hcalls]
    exact hm.calls
  · rw [h.operations]
    exact Nat.le_add_right _ _
  · rcases hx : (x m).1 with e | a
    · obtain ⟨f, rfl⟩ := h.halt m e hx
      exact .inr ⟨f, rfl⟩
    · exact .inl ⟨a, rfl, hgood m a hm.scope hx⟩

theorem Eval.ends_fault (f : Fault) : Ends host cost good (fault f) :=
  (quiet_fault f).ends (fun _ => rfl) (fun _ => rfl) (fun _ _ _ h => by cases h)

theorem Eval.ends_pure {a : α} (h : good a) : Ends host cost good (Pure.pure a : Eval α) :=
  (quiet_pure a).ends (fun _ => rfl) (fun _ => rfl) (fun _ _ _ heq => Except.ok.inj heq ▸ h)

theorem Eval.ends_ofExcept {e : Except Fault α} (h : ∀ a, e = .ok a → good a) : Ends host cost good (ofExcept e) := by
  cases e with
  | error f => exact ends_fault f
  | ok a => exact ends_pure (h a rfl)

theorem Eval.ends_ofScope {f : Scope → Except Fault α} (h : ∀ s a, s.BuiltinForms → f s = .ok a → good a) :
    Ends host cost good (ofScope f) := by
  intro m hm
  exact ends_ofExcept (h m.scope · hm.scope) m hm

theorem Eval.Ends.mono {more : Nat} (h : Ends host cost good x) (hle : cost ≤ more) : Ends host more good x := by
  intro m hm
  have ended := h m hm
  exact ⟨ended.machine, ended.operations.trans (Nat.add_le_add_left hle _), ended.outcome⟩

theorem Eval.Ends.bind {rest : Nat} {good' : β → Prop} {f : α → Eval β} (h : Ends host cost good x)
    (hf : ∀ a, good a → Ends host rest good' (f a)) : Ends host (cost + rest) good' (x >>= f) := by
  intro m hm
  have first := h m hm
  rw [bind_apply]
  rcases hx : x m with ⟨e | a, m'⟩
  · rw [hx] at first
    refine ⟨first.machine, first.operations.trans (Nat.add_le_add_left (Nat.le_add_right _ _) _), ?_⟩
    rcases first.outcome with ⟨a, ha, -⟩ | ⟨f, hf⟩
    · cases ha
    · exact .inr ⟨f, by simpa using hf⟩
  · rw [hx] at first
    have ha : good a := by
      rcases first.outcome with ⟨b, hb, hgood⟩ | ⟨f, hf⟩
      · exact Except.ok.inj hb ▸ hgood
      · cases hf
    have last := hf a ha m' first.machine
    refine ⟨last.machine, last.operations.trans ?_, last.outcome⟩
    have := first.operations
    dsimp only at this
    omega

theorem Eval.Ends.truth {good : Value → Prop} {x : Eval Value} (h : Ends host cost good x) :
    Ends host cost (fun _ => True) (Eval.truth x) := by
  intro m hm
  have ended := h m hm
  unfold Eval.truth
  rcases hx : x m with ⟨e | v, m'⟩
  · rw [hx] at ended
    refine ⟨ended.machine, ended.operations, ?_⟩
    rcases ended.outcome with ⟨a, ha, -⟩ | ⟨f, hf⟩
    · cases ha
    · exact .inr ⟨f, by simpa using hf⟩
  · rw [hx] at ended
    exact ⟨⟨ended.machine.scope, ended.machine.calls⟩, ended.operations, .inl ⟨_, rfl, trivial⟩⟩

theorem Eval.ends_countOperation : Ends host 1 (fun _ => True) (countOperation none) :=
  fun _ hm => ⟨⟨hm.scope, hm.calls⟩, le_rfl, .inl ⟨(), rfl, trivial⟩⟩

end

/-- A host with one function, which remembers being called and returns its arguments as a list. -/
def Host.listing : Host :=
  { Host.endless with call := fun _ name vs => ([⟨name, vs⟩], .ok (.list vs)) }

theorem Host.listing_builtinForms : Host.listing.BuiltinForms := by
  intro calls name vs r _ hvs hr
  obtain rfl := Except.ok.inj hr
  exact Value.allBuiltinForms_iff.2 hvs

/-- A machine in whose scope that function is bound beside the defaults. -/
def Machine.listing : Machine :=
  .start (.ofFrames [Registry.defaults, ⟨[("pair", .function (.host "pair"))]⟩])

/-- A choice between two calls, of which the second one is made twice. -/
def Value.listing : Value :=
  .tuple [.reference "or", .tuple [.reference "and", .token .num (.int 1), .reference "nil"],
    .tuple [.reference "pair", .token .num (.int 2), .reference "if"]]

/-! ## Evaluation ends -/

section
variable {host : Host} {visit : Value → Eval Value} {head : Value} {tail : List Value}

theorem Eval.ends_evalItems {cost : Value → Nat} {good : Value → Prop} {nodes : List Value}
    (h : ∀ node ∈ nodes, Ends host (cost node) good (visit node)) :
    Ends host (nodes.map cost).sum (fun vs => ∀ v ∈ vs, good v) (evalItems visit nodes) := by
  induction nodes with
  | nil => exact ends_pure fun v hv => by cases hv
  | cons node nodes ih =>
      refine (h node List.mem_cons_self).bind fun v hv => ?_
      have rest := ih fun other hother => h other (List.mem_cons_of_mem _ hother)
      have all : Ends host ((nodes.map cost).sum + 0) (fun vs => ∀ v ∈ vs, good v)
          (evalItems visit nodes >>= fun vs => Pure.pure (v :: vs)) :=
        rest.bind fun vs hvs => ends_pure (List.forall_mem_cons.2 ⟨hv, hvs⟩)
      exact all

/-- A plan that only selects takes no more operations than its operands take, each evaluated once. -/
theorem Eval.ends_planRun {cost : Value → Nat} {good chosen : Value → Prop} {operands : List Value} {p : Plan}
    (hp : p.Selects chosen operands) (h : ∀ node ∈ operands, Ends host (cost node) good (visit node)) :
    Ends host (operands.map cost).sum chosen (p.run visit) := by
  induction hp with
  | expand hchosen => exact ends_pure hchosen
  | fail f => exact ends_fault f
  | test _ ih =>
      refine (h _ List.mem_cons_self).truth.bind fun holds _ => ?_
      exact ih holds fun node hnode => h node (List.mem_cons_of_mem _ hnode)
  | skip _ ih =>
      refine (ih fun node hnode => h node (List.mem_cons_of_mem _ hnode)).mono ?_
      exact Nat.le_add_left _ _

theorem Eval.ends_mark {v : Value} (hv : v.builtinForms = true) :
    Ends host 0 (fun r => r.builtinForms = true) (mark v) := by
  have h := quiet_mark v
  cases v with
  | float x =>
      rcases x with (_ | _) | _ | _
      · exact h.ends (fun _ => rfl) (fun _ => rfl) (fun _ _ _ heq => by cases heq; rfl)
      all_goals exact ends_pure hv
  | _ => exact ends_pure hv

theorem Eval.ends_applyFunction (hhost : host.BuiltinForms) (f : Function) {vs : List Value}
    (hvs : ∀ v ∈ vs, v.builtinForms = true) :
    Ends host 0 (fun r => r.builtinForms = true) (applyFunction host f vs) := by
  have reading {α : Type} (source : Nat → α) (made : α → Value) (hmade : ∀ a, (made a).builtinForms = true) :
      Ends host (0 + 0) (fun r => r.builtinForms = true) (Eval.read source >>= fun a => Pure.pure (made a)) := by
    have taken : Ends host 0 (fun _ => True) (Eval.read source) :=
      (quiet_read source).ends (fun _ => rfl) (fun _ => rfl) (fun _ _ _ _ => trivial)
    exact taken.bind fun a _ => ends_pure (hmade a)
  cases f with
  | builtin b => exact ends_ofExcept fun r hr => Builtin.apply_builtinForms hvs hr
  | now =>
      cases vs with
      | nil => exact reading host.now .date fun _ => rfl
      | cons => exact ends_fault _
  | random =>
      cases vs with
      | nil => exact reading host.random .float fun _ => rfl
      | cons => exact ends_fault _
  | host name =>
      -- the outcome depends on the notes left so far, so this is no sequence of independent steps
      intro m hm
      have left : ({ m with calls := m.calls ++ (host.call m.calls name vs).1 } : Machine).BuiltinForms host :=
        ⟨hm.scope, hm.calls.call name hvs⟩
      have last : Ends host 0 (fun r => r.builtinForms = true) (ofExcept (host.call m.calls name vs).2) :=
        ends_ofExcept fun r hr => hhost _ name vs r hm.calls hvs hr
      have ended := last _ left
      exact ⟨ended.machine, ended.operations, ended.outcome⟩

/-- A combination takes what its head takes, its items once each and one of them over again. -/
theorem Eval.ends_evalCombination (hhost : host.BuiltinForms) (hhead : head.builtinForms = true)
    (htail : ∀ v ∈ tail, v.builtinForms = true)
    (hvisit : ∀ node, node.size < 1 + Value.sizeOfAll (head :: tail) → node.builtinForms = true →
      Ends host node.bound (fun r => r.builtinForms = true) (visit node)) :
    Ends host (head.bound + ((tail.map Value.bound).sum + 2 ^ Value.sizeOfAll tail))
      (fun r => r.builtinForms = true) (evalCombination host visit head tail) := by
  have hsize := head.size_pos
  have hitem : ∀ node ∈ tail, Ends host node.bound (fun r => r.builtinForms = true) (visit node) := by
    intro node hnode
    have := Value.size_le_of_mem hnode
    exact hvisit node (by rw [Value.sizeOfAll]; omega) (htail node hnode)
  refine (hvisit head (by rw [Value.sizeOfAll]; omega) hhead).bind fun v hv => ?_
  have discard : Ends host ((tail.map Value.bound).sum + 2 ^ Value.sizeOfAll tail) (fun r => r.builtinForms = true)
      (evalItems visit tail >>= fun _ => Pure.pure v) :=
    (ends_evalItems hitem).bind fun _ _ => ends_pure hv
  cases v with
  | form f =>
      refine (ends_planRun (host.planOf_selects hv tail) hitem).bind fun node hnode => ?_
      rcases hnode with ⟨name, -, rfl⟩ | hnode
      · have hone : (Value.reference name).size = 1 := rfl
        have constant := hvisit (.reference name) (by rw [hone, Value.sizeOfAll]; omega) rfl
        exact constant.mono Nat.one_le_two_pow
      · exact (hitem node hnode).mono (Value.bound_lt_of_mem hnode).le
  | function f =>
      refine (ends_evalItems hitem).bind fun vs hvs => ?_
      have called := (ends_applyFunction hhost f hvs).bind fun r hr => ends_mark hr
      exact called.mono (Nat.zero_le _)
  | _ => exact discard

/-- One step: a node ends within its bound if all smaller nodes do. -/
theorem Eval.ends_evalNode (hhost : host.BuiltinForms) {node : Value} (hnode : node.builtinForms = true)
    (hvisit : ∀ smaller, smaller.size < node.size → smaller.builtinForms = true →
      Ends host smaller.bound (fun r => r.builtinForms = true) (visit smaller)) :
    Ends host (node.bound - 1) (fun r => r.builtinForms = true) (evalNode host visit node) := by
  have combination (head : Value) (tail : List Value) (hitems : Value.allBuiltinForms (head :: tail) = true)
      (hsize : node.size = 1 + Value.sizeOfAll (head :: tail)) :
      Ends host (node.bound - 1) (fun r => r.builtinForms = true) (evalCombination host visit head tail) := by
    rw [Value.allBuiltinForms_iff, List.forall_mem_cons] at hitems
    rw [hsize] at hvisit
    refine (ends_evalCombination hhost hitems.1 hitems.2 hvisit).mono ?_
    have hbound := Value.bound_combination head tail
    rw [← hsize, ← node.bound_add_one] at hbound
    omega
  unfold evalNode
  split
  · exact ends_ofScope fun _ _ hscope hr => Scope.builtinForms_of_resolveValue hscope hr
  · exact ends_pure hnode
  · exact ends_pure rfl
  · exact ends_pure rfl
  · exact combination _ _ hnode rfl
  · exact combination _ _ hnode rfl
  · exact ends_pure hnode

theorem Eval.ends_eval (hhost : host.BuiltinForms) {fuel : Nat} {node : Value} (hfuel : node.size ≤ fuel)
    (hnode : node.builtinForms = true) :
    Ends host node.bound (fun r => r.builtinForms = true) (eval host none fuel node) := by
  induction fuel generalizing node with
  | zero =>
      have := node.size_pos
      omega
  | succ fuel ih =>
      have hcount : 1 + (node.bound - 1) = node.bound := Nat.add_sub_cancel' node.bound_pos
      rw [← hcount]
      refine ends_countOperation.bind fun _ _ => ends_evalNode hhost hnode fun smaller hlt hsmaller => ?_
      exact ih (by omega) hsmaller

end

/-- Where all forms that occur are builtin ones, in the node, in the scope and in what functions return, every
evaluation ends without a ceiling, with a value or a fault, and counts at most `2 ^ size` operations. It nests no
deeper than the node is large, so it is the same with all fuel from there on. -/
theorem builtinForms_evaluation_ends (host : Host) (m : Machine) (node : Value) (hhost : host.BuiltinForms)
    (hscope : m.scope.BuiltinForms) (hnode : node.builtinForms = true) :
    ∃ r m', (∀ fuel, node.size ≤ fuel → eval host none fuel node m.renewed = (r, m')) ∧
      ((∃ v, r = .ok v) ∨ ∃ f, r = .error (.fault f)) ∧ m'.operations ≤ 2 ^ node.size := by
  have ended := ends_eval hhost le_rfl hnode m.renewed ⟨hscope, .start⟩
  rcases hrun : eval host none node.size node m.renewed with ⟨r, m'⟩
  rw [hrun] at ended
  have houtcome : (∃ v, r = .ok v) ∨ ∃ f, r = .error (.fault f) :=
    ended.outcome.imp_left fun ⟨v, hv, _⟩ => ⟨v, hv⟩
  have hfueled : r ≠ .error .outOfFuel := by
    rintro rfl
    rcases houtcome with ⟨v, hv⟩ | ⟨f, hf⟩
    · cases hv
    · cases hf
  refine ⟨r, m', fun fuel hfuel => ?_, houtcome, ?_⟩
  · rw [eval_of_le hfuel node m.renewed (by rwa [hrun]), hrun]
  · have hops : m'.operations ≤ 0 + node.bound := ended.operations
    have := node.bound_add_one
    omega

/-- Operands that are evaluated twice: the function of the host is called twice for one result. -/
theorem builtinForms_evaluation_ends_listing :
    Host.listing.BuiltinForms ∧ Machine.listing.scope.BuiltinForms ∧
    Value.listing.builtinForms = true ∧ Value.listing.size = 10 ∧
    ∃ m', evaluateFrom .listing none .listing .listing = (.ok (.list [.int 2, .form .conditional]), m') ∧
      m'.operations ≤ 2 ^ 10 ∧ m'.calls.length = 2 := by
  have hhost := Host.listing_builtinForms
  have hscope : Machine.listing.scope.BuiltinForms := Scope.builtinForms_of_all (by decide +kernel)
  have hnode : Value.listing.builtinForms = true := by decide +kernel
  have hsize : Value.listing.size = 10 := by decide +kernel
  obtain ⟨r, m', hrun, -, hops⟩ := builtinForms_evaluation_ends .listing .listing .listing hhost hscope hnode
  have hvalue : (eval .listing none 10 .listing Machine.listing.renewed).1.toOption =
      some (.list [.int 2, .form .conditional]) := by decide +kernel
  have hcalls : (eval .listing none 10 .listing Machine.listing.renewed).2.calls.length = 2 := by decide +kernel
  rw [hrun 10 hsize.le] at hvalue hcalls
  cases r with
  | error h => cases hvalue
  | ok v =>
      obtain rfl := Option.some.inj hvalue
      have hfuel : Value.listing.size ≤ unboundedDepth := by decide +kernel
      exact ⟨hhost, hscope, hnode, hsize, m', hrun _ hfuel, hsize ▸ hops, hcalls⟩

end RuleExpr
