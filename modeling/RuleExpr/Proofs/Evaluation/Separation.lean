import RuleExpr.Proofs.Evaluation.Merging
import RuleExpr.Proofs.Evaluation.Termination
import RuleExpr.Proofs.Evaluation.Trace

/-!
# Code and data

Nodes and values are of one type and any value can be evaluated, so no type keeps data from being evaluated as code.
Where all forms are builtin ones it never happens all the same: every node that is evaluated is a part of the given
one or the name of a constant (`only_parts_are_evaluated`), whatever values look like nodes. So an evaluation can look
up no other names than those in the given node and those of the constants, and nothing else that is bound matters
(`only_names_of_parts_matter`). Both follow from one induction, in which evaluation stays with code.
-/
namespace RuleExpr
open Eval

/-! ## Parts of a node -/

mutual

/-- A node and all nodes in it. What a token holds is no node. -/
def Value.parts : Value → List Value
  | .list items => .list items :: partsOfAll items
  | .tuple items => .tuple items :: partsOfAll items
  | v => [v]

def Value.partsOfAll : List Value → List Value
  | [] => []
  | v :: vs => parts v ++ partsOfAll vs

end

/-- The nodes that a node is made of. -/
def Value.items : Value → List Value
  | .list items | .tuple items => items
  | _ => []

/-- The name that a node looks up. -/
def Value.name? : Value → Option Value
  | .token .var name => some name
  | _ => none

/-- The names that occur in a node. -/
def Value.names (v : Value) : List Value := v.parts.filterMap name?

namespace Value

theorem parts_eq (v : Value) : v.parts = v :: partsOfAll v.items := by
  cases v <;> rfl

theorem self_mem_parts (v : Value) : v ∈ v.parts := by
  rw [parts_eq]
  exact List.mem_cons_self

theorem mem_partsOfAll {v : Value} {vs : List Value} : v ∈ partsOfAll vs ↔ ∃ w ∈ vs, v ∈ w.parts := by
  induction vs with
  | nil => simp [partsOfAll]
  | cons w vs ih => rw [partsOfAll, List.mem_append, ih, List.exists_mem_cons_iff]

/-- Parts by one step at a time. -/
theorem mem_parts_iff {v root : Value} : v ∈ root.parts ↔ v = root ∨ ∃ item ∈ root.items, v ∈ item.parts := by
  rw [parts_eq, List.mem_cons, mem_partsOfAll]

theorem size_lt_of_mem_items {v item : Value} (h : item ∈ v.items) : item.size < v.size := by
  cases v with
  | list items | tuple items =>
      have hle : item.size ≤ sizeOfAll items := size_le_of_mem h
      rw [size]
      omega
  | _ => cases h

theorem builtinForms_items {v item : Value} (hv : v.builtinForms = true) (h : item ∈ v.items) :
    item.builtinForms = true := by
  cases v with
  | list items | tuple items => exact allBuiltinForms_iff.1 hv item h
  | _ => cases h

/-- What is made of a part is a part. -/
theorem mem_parts_of_item {v item root : Value} (hv : v ∈ root.parts) (h : item ∈ v.items) : item ∈ root.parts := by
  rcases mem_parts_iff.1 hv with rfl | ⟨inner, hinner, hpart⟩
  · exact mem_parts_iff.2 (.inr ⟨item, h, self_mem_parts item⟩)
  · exact mem_parts_iff.2 (.inr ⟨inner, hinner, mem_parts_of_item hpart h⟩)
termination_by root.size
decreasing_by exact size_lt_of_mem_items hinner

theorem builtinForms_of_mem_parts {v root : Value} (hroot : root.builtinForms = true) (hv : v ∈ root.parts) :
    v.builtinForms = true := by
  rcases mem_parts_iff.1 hv with rfl | ⟨inner, hinner, hpart⟩
  · exact hroot
  · exact builtinForms_of_mem_parts (builtinForms_items hroot hinner) hpart
termination_by root.size
decreasing_by exact size_lt_of_mem_items hinner

end Value

/-! ## Code -/

/-- Whether a node is a part of a given one or the name of a constant. -/
def IsCode (root node : Value) : Prop := node ∈ root.parts ∨ IsConstant node

/-- Whether an evaluation is the given one, or is begun by a part of the given node and is of an item of that part or
of a constant. -/
def Visit.OfCode (root : Value) (visit : Visit) : Prop :=
  match visit.parent with
  | none => visit.node = root
  | some parent => parent ∈ root.parts ∧ parent.items ≠ [] ∧ (visit.node ∈ parent.items ∨ IsConstant visit.node)

theorem IsConstant.items_eq {node : Value} (h : IsConstant node) : node.items = [] := by
  obtain ⟨name, -, rfl⟩ := h
  rfl

theorem Visit.OfCode.isCode {root : Value} {visit : Visit} (h : visit.OfCode root) : IsCode root visit.node := by
  obtain ⟨parent | parent, node⟩ := visit
  · obtain rfl : node = root := h
    exact .inl node.self_mem_parts
  · obtain ⟨hparent, -, hitem | hconstant⟩ := h
    · exact .inl (Value.mem_parts_of_item hparent hitem)
    · exact .inr hconstant

namespace IsCode
variable {root node : Value}

theorem builtinForms (hroot : root.builtinForms = true) (h : IsCode root node) : node.builtinForms = true := by
  rcases h with hpart | ⟨name, -, rfl⟩
  · exact Value.builtinForms_of_mem_parts hroot hpart
  · rfl

/-- The name of a node is one of the names in the given one or the name of a constant. -/
theorem name_mem {name : Value} (h : IsCode root (.token .var name)) :
    name ∈ root.names ++ [.text "nil", .text "true", .text "false"] := by
  rcases h with hpart | ⟨text, htext, heq⟩
  · exact List.mem_append_left _ (List.mem_filterMap.2 ⟨_, hpart, rfl⟩)
  · obtain rfl : name = .text text := by cases heq; rfl
    have hconstant : Value.text text ∈ ["nil", "true", "false"].map Value.text := List.mem_map_of_mem htext
    exact List.mem_append_right _ hconstant

/-- What a node with items begins to evaluate. -/
theorem visit {other : Value} (h : IsCode root node) (hitems : node.items ≠ [])
    (hother : other ∈ node.items ∨ IsConstant other) : Visit.OfCode root ⟨some node, other⟩ := by
  rcases h with hpart | hconstant
  · exact ⟨hpart, hitems, hother⟩
  · exact absurd hconstant.items_eq hitems

end IsCode

/-! ## Staying with code -/

/-- How a computation runs from a machine: in the scope of the machine it begins evaluations of code only, and in
another scope it runs alike. -/
structure Traced.Ran {α : Type} (host : Host) (root : Value) (s' : Scope) (good : α → Prop) (t : Traced α)
    (m : Machine) : Prop where
  machine : (t m).1.2.BuiltinForms host
  scope : (t m).1.2.scope = m.scope
  visits : ∀ visit ∈ (t m).2, visit.OfCode root
  result : ∀ a, (t m).1.1 = .ok a → good a
  other : t { m with scope := s' } = (((t m).1.1, { (t m).1.2 with scope := s' }), (t m).2)

/-- Every run of the computation in the one scope stays with code and is alike in the other scope. -/
def Traced.Stays {α : Type} (host : Host) (root : Value) (s s' : Scope) (good : α → Prop) (t : Traced α) : Prop :=
  ∀ m, m.BuiltinForms host → m.scope = s → Ran host root s' good t m

namespace Traced
variable {α β : Type} {host : Host} {root : Value} {s s' : Scope} {good : α → Prop}

theorem stays_ofEval {x : Eval α} (hx : Scopeless x) (h : Ends host 0 good x) :
    Stays host root s s' good (ofEval x) := by
  intro m hm _
  have ended := h m hm
  refine ⟨ended.machine, ?_, nofun, ?_, ?_⟩
  · exact congrArg (·.2.scope) (hx m m.scope)
  · intro a ha
    rcases ended.outcome with ⟨b, hb, hgood⟩ | ⟨f, hf⟩
    · exact Except.ok.inj (hb.symm.trans ha) ▸ hgood
    · cases hf.symm.trans ha
  · exact congrArg (·, []) (hx m s')

theorem stays_pure {a : α} (h : good a) : Stays host root s s' good (Pure.pure a : Traced α) :=
  stays_ofEval (scopeless_pure a) (ends_pure h)

theorem stays_fault (f : Fault) : Stays host root s s' good (ofEval (fault f)) :=
  stays_ofEval (scopeless_ofExcept (.error f)) (ends_fault f)

theorem Stays.bind {good' : β → Prop} {t : Traced α} {f : α → Traced β} (h : Stays host root s s' good t)
    (hf : ∀ a, good a → Stays host root s s' good' (f a)) : Stays host root s s' good' (t >>= f) := by
  intro m hm hscope
  obtain ⟨machine, scope, visits, result, other⟩ := h m hm hscope
  rcases htm : t m with ⟨⟨e | a, m'⟩, listed⟩
  · simp only [htm] at machine scope visits other
    have hbind : (t >>= f) m = ((.error e, m'), listed) := by rw [bind_apply, htm]
    refine ⟨?_, ?_, ?_, ?_, ?_⟩
    · rwa [hbind]
    · rwa [hbind]
    · rwa [hbind]
    · rw [hbind]
      nofun
    · rw [hbind, bind_apply, other]
  · simp only [htm] at machine scope visits result other
    have hbind : (t >>= f) m = ((f a m').1, listed ++ (f a m').2) := by rw [bind_apply, htm]
    have next := hf a (result a rfl) m' machine (scope.trans hscope)
    refine ⟨?_, ?_, ?_, ?_, ?_⟩
    · rw [hbind]
      exact next.machine
    · rw [hbind]
      exact next.scope.trans scope
    · rw [hbind]
      exact List.forall_mem_append.2 ⟨visits, next.visits⟩
    · rw [hbind]
      exact next.result
    · rw [hbind, bind_apply, other]
      simp only [next.other]

theorem Stays.truth {good : Value → Prop} {t : Traced Value} (h : Stays host root s s' good t) :
    Stays host root s s' (fun _ => True) (Traced.truth t) := by
  intro m hm hscope
  obtain ⟨machine, scope, visits, -, other⟩ := h m hm hscope
  rcases htm : t m with ⟨⟨e | v, m'⟩, listed⟩
  · have htruth : Traced.truth t m = ((.error e, m'), listed) := by rw [truth_apply, htm]
    simp only [htm] at machine scope visits other
    refine ⟨?_, ?_, ?_, fun _ _ => trivial, ?_⟩
    · rwa [htruth]
    · rwa [htruth]
    · rwa [htruth]
    · rw [htruth, truth_apply, other]
  · have htruth : Traced.truth t m =
        ((.ok v.isTruthy, { m' with marks := Nat.max m.marks m'.kept }), listed) := by rw [truth_apply, htm]
    simp only [htm] at machine scope visits other
    refine ⟨?_, ?_, ?_, fun _ _ => trivial, ?_⟩
    · rw [htruth]
      exact ⟨machine.scope, machine.calls⟩
    · rwa [htruth]
    · rwa [htruth]
    · rw [htruth, truth_apply, other]

theorem stays_count (ceiling : Option Int) {visit : Visit} (h : visit.OfCode root) :
    Stays host root s s' (fun _ => True) (count ceiling visit) := by
  intro m hm _
  have hmachine : (count ceiling visit m).1.2 = m.counted := countOperation_machine ceiling m
  refine ⟨?_, ?_, ?_, fun _ _ => trivial, ?_⟩
  · rw [hmachine]
    exact ⟨hm.scope, hm.calls⟩
  · rw [hmachine]
    rfl
  · intro other hother
    rwa [List.mem_singleton.1 hother]
  · exact congrArg (·, [visit]) (scopeless_countOperation ceiling m s')

variable {visit : Value → Traced Value}

theorem stays_traceItems {good : Value → Prop} {nodes : List Value}
    (h : ∀ node ∈ nodes, Stays host root s s' good (visit node)) :
    Stays host root s s' (fun vs => ∀ v ∈ vs, good v) (traceItems visit nodes) := by
  induction nodes with
  | nil => exact stays_pure (List.forall_mem_nil _)
  | cons node nodes ih =>
      obtain ⟨hfirst, hlater⟩ := List.forall_mem_cons.1 h
      refine hfirst.bind fun v hv => (ih hlater).bind fun vs hvs => ?_
      exact stays_pure (List.forall_mem_cons.2 ⟨hv, hvs⟩)

/-- A plan that only selects evaluates operands. -/
theorem stays_planTrace {good chosen : Value → Prop} {operands : List Value} {p : Plan}
    (hp : p.Selects chosen operands) (h : ∀ node ∈ operands, Stays host root s s' good (visit node)) :
    Stays host root s s' chosen (p.trace visit) := by
  induction hp with
  | expand hchosen => exact stays_pure hchosen
  | fail f => exact stays_fault f
  | test _ ih =>
      refine (h _ List.mem_cons_self).truth.bind fun holds _ => ?_
      exact ih holds fun node hnode => h node (List.mem_cons_of_mem _ hnode)
  | skip _ ih => exact ih fun node hnode => h node (List.mem_cons_of_mem _ hnode)

/-- A name of which both scopes make the same. -/
theorem stays_name {name : Value} (h : s.resolveValue name = s'.resolveValue name) :
    Stays host root s s' (fun r => r.builtinForms = true) (ofEval (ofScope (·.resolveValue name))) := by
  rintro m hm rfl
  have hresolved : Ends host 0 (fun r => r.builtinForms = true) (ofExcept (m.scope.resolveValue name)) :=
    ends_ofExcept fun r hr => Scope.builtinForms_of_resolveValue hm.scope hr
  have ran : Ran host root s' _ (ofEval (ofExcept (m.scope.resolveValue name))) m :=
    stays_ofEval (scopeless_ofExcept _) hresolved m hm rfl
  refine ⟨ran.machine, ran.scope, ran.visits, ran.result, ?_⟩
  exact (congrArg (fun e => ofEval (ofExcept e) { m with scope := s' }) h.symm).trans ran.other

theorem stays_traceCombination (hhost : host.BuiltinForms) {head : Value} {tail : List Value}
    (h : ∀ node, node ∈ head :: tail ∨ IsConstant node →
      Stays host root s s' (fun r => r.builtinForms = true) (visit node)) :
    Stays host root s s' (fun r => r.builtinForms = true) (traceCombination host visit head tail) := by
  have hitem : ∀ node ∈ tail, Stays host root s s' (fun r => r.builtinForms = true) (visit node) :=
    fun node hnode => h node (.inl (List.mem_cons_of_mem head hnode))
  refine (h head (.inl List.mem_cons_self)).bind fun v hv => ?_
  have discard : Stays host root s s' (fun r => r.builtinForms = true)
      (traceItems visit tail >>= fun _ => Pure.pure v) :=
    (stays_traceItems hitem).bind fun _ _ => stays_pure hv
  cases v with
  | form f =>
      refine (stays_planTrace (host.planOf_selects hv tail) hitem).bind fun node hnode => ?_
      rcases hnode with hconstant | hmem
      · exact h node (.inr hconstant)
      · exact hitem node hmem
  | function f =>
      refine (stays_traceItems hitem).bind fun vs hvs => ?_
      refine stays_ofEval ((scopeless_applyFunction host f vs).bind scopeless_mark) ?_
      exact (ends_applyFunction hhost f hvs).bind fun r hr => ends_mark hr
  | _ => exact discard

/-- One step: a node with items begins evaluations of items and constants, and any other node begins none. -/
theorem stays_traceNode (hhost : host.BuiltinForms) {node : Value} (hnode : node.builtinForms = true)
    (hname : ∀ name, node = .token .var name → s.resolveValue name = s'.resolveValue name)
    (h : node.items ≠ [] → ∀ other, other ∈ node.items ∨ IsConstant other →
      Stays host root s s' (fun r => r.builtinForms = true) (visit other)) :
    Stays host root s s' (fun r => r.builtinForms = true) (traceNode host visit node) := by
  unfold traceNode
  split
  · exact stays_name (hname _ rfl)
  · exact stays_pure hnode
  · exact stays_pure rfl
  · exact stays_pure rfl
  · exact stays_traceCombination hhost (h (List.cons_ne_nil _ _))
  · exact stays_traceCombination hhost (h (List.cons_ne_nil _ _))
  · exact stays_pure hnode

/-- The step over and over, for a node from which all names are resolved alike in both scopes. -/
theorem stays_trace (hhost : host.BuiltinForms) (hroot : root.builtinForms = true)
    (hnames : ∀ name ∈ root.names ++ [.text "nil", .text "true", .text "false"],
      s.resolveValue name = s'.resolveValue name)
    (ceiling : Option Int) (fuel : Nat) {parent : Option Value} {node : Value} (h : Visit.OfCode root ⟨parent, node⟩) :
    Stays host root s s' (fun r => r.builtinForms = true) (trace host ceiling fuel parent node) := by
  induction fuel generalizing parent node with
  | zero => exact fun m hm _ => ⟨hm, rfl, nofun, nofun, rfl⟩
  | succ fuel ih =>
      have code : IsCode root node := h.isCode
      refine (stays_count ceiling h).bind fun _ _ => ?_
      refine stays_traceNode hhost (code.builtinForms hroot) ?_ fun hitems other hother => ?_
      · rintro name rfl
        exact hnames name code.name_mem
      · exact ih (code.visit hitems hother)

end Traced

/-! ## Data is separate from it -/

/-- A value that looks like a node. -/
def Value.planted : Value := .tuple [.reference "missing"]

/-- A call with a computed head. One of its operands is a function's result and is evaluated twice. -/
def Value.fetching : Value :=
  .tuple [.tuple [.reference "if", .token .num (.int 1), .reference "or"], .reference "nil",
    .tuple [.reference "pair", .reference "data"]]

/-- A machine in whose scope that value is bound. -/
def Machine.planted : Machine :=
  .start (.ofFrames [Registry.defaults, ⟨[("pair", .function (.host "pair")), ("data", .planted)]⟩])

/-- Other frames, in which the name inside of that value is bound as well. -/
def Scope.planted : Scope :=
  .ofFrames [⟨[("missing", .text "bound"), ("or", .form .conjunction), ("true", .bool true), ("false", .bool false)]⟩,
    ⟨[("data", .planted), ("nil", .nil), ("if", .form .conditional), ("or", .form .disjunction),
      ("pair", .function (.host "pair"))]⟩]

theorem Machine.planted_builtinForms : Machine.planted.scope.BuiltinForms :=
  Scope.builtinForms_of_all (by decide +kernel)

/-- Data is never evaluated as code. Every evaluation that is begun, one for each operation that is counted, is of a
part of the given node or of the name of a constant. But for the given one, it is begun by a part that is a list or
tuple, and the node is an item of that part or a constant. So a name begins no evaluation of the value that it is
bound to, and a call none of what the function returns. -/
theorem only_parts_are_evaluated (host : Host) (ceiling : Option Int) (fuel : Nat) (m : Machine) (node : Value)
    (hhost : host.BuiltinForms) (hscope : m.scope.BuiltinForms) (hnode : node.builtinForms = true) :
    ∃ visits, trace host ceiling fuel none node m.renewed = (eval host ceiling fuel node m.renewed, visits) ∧
      visits.length = (eval host ceiling fuel node m.renewed).2.operations ∧
      ∀ visit ∈ visits, (visit.node ∈ node.parts ∨ IsConstant visit.node) ∧ visit.OfCode node := by
  have hnames : ∀ name ∈ node.names ++ [.text "nil", .text "true", .text "false"],
      m.scope.resolveValue name = m.scope.resolveValue name := fun _ _ => rfl
  have hgiven : Visit.OfCode node ⟨none, node⟩ := rfl
  have ran := Traced.stays_trace hhost hnode hnames ceiling fuel hgiven m.renewed ⟨hscope, .start⟩ rfl
  have follows := trace_follows host ceiling fuel none node
  refine ⟨(trace host ceiling fuel none node m.renewed).2, ?_, ?_, fun visit hvisit => ?_⟩
  · rw [← follows.outcome]
  · rw [follows.operations]
    exact (Nat.zero_add _).symm
  · have code := ran.visits visit hvisit
    exact ⟨code.isCode, code⟩

/-- The result holds a value that looks like a node and that was bound, passed and returned without being evaluated. -/
theorem only_parts_are_evaluated_planted :
    Host.listing.BuiltinForms ∧ Machine.planted.scope.BuiltinForms ∧ Value.fetching.builtinForms = true ∧
    ∃ visits, trace .listing none 5 none .fetching Machine.planted.renewed =
        (eval .listing none 5 .fetching Machine.planted.renewed, visits) ∧
      visits.length = 12 ∧
      (∀ visit ∈ visits, (visit.node ∈ Value.fetching.parts ∨ IsConstant visit.node) ∧ visit.OfCode .fetching) ∧
      (eval .listing none 5 .fetching Machine.planted.renewed).1 = .ok (.list [.planted]) ∧
      ∀ visit ∈ visits, visit.node ≠ .planted ∧ visit.node ≠ .list [.planted] := by
  have hhost := Host.listing_builtinForms
  have hscope := Machine.planted_builtinForms
  have hnode : Value.fetching.builtinForms = true := by decide +kernel
  obtain ⟨visits, htrace, hlength, hvisits⟩ :=
    only_parts_are_evaluated .listing none 5 .planted .fetching hhost hscope hnode
  have hops : (eval .listing none 5 .fetching Machine.planted.renewed).2.operations = 12 := by decide +kernel
  have hvalue : (eval .listing none 5 .fetching Machine.planted.renewed).1 = .ok (.list [.planted]) := by
    decide +kernel
  have hparts : ∀ part ∈ Value.fetching.parts, part ≠ .planted ∧ part ≠ .list [.planted] := by decide +kernel
  refine ⟨hhost, hscope, hnode, visits, htrace, hlength.trans hops, hvisits, hvalue, fun visit hvisit => ?_⟩
  rcases (hvisits visit hvisit).1 with hpart | ⟨name, -, heq⟩
  · exact hparts _ hpart
  · rw [heq]
    exact ⟨nofun, nofun⟩

/-- Only the names in a node and those of the constants matter. In two scopes that resolve these names alike, an
evaluation has the same result, the same number of operations and the same notes of calls, whatever other names are
bound to. -/
theorem only_names_of_parts_matter (host : Host) (m : Machine) (s : Scope) (node : Value)
    (hhost : host.BuiltinForms) (hscope : m.scope.BuiltinForms) (hnode : node.builtinForms = true)
    (hnames : ∀ name ∈ node.names ++ [.text "nil", .text "true", .text "false"],
      m.scope.resolveValue name = s.resolveValue name) (ceiling : Option Int) (fuel : Nat) :
    Outcome.SameRun (eval host ceiling fuel node m.renewed)
      (eval host ceiling fuel node { m.renewed with scope := s }) := by
  have hgiven : Visit.OfCode node ⟨none, node⟩ := rfl
  have ran := Traced.stays_trace hhost hnode hnames ceiling fuel hgiven m.renewed ⟨hscope, .start⟩ rfl
  have follows := trace_follows host ceiling fuel none node
  rw [← follows.outcome, ← follows.outcome, ran.other]
  exact ⟨rfl, rfl, rfl⟩

/-- Frames that differ in their shape and in what a returned value would be if it were evaluated. -/
theorem only_names_of_parts_matter_planted :
    Host.listing.BuiltinForms ∧ Machine.planted.scope.BuiltinForms ∧ Value.fetching.builtinForms = true ∧
    (∀ name ∈ Value.fetching.names ++ [.text "nil", .text "true", .text "false"],
      Machine.planted.scope.resolveValue name = Scope.planted.resolveValue name) ∧
    Outcome.SameRun (eval .listing none 5 .fetching Machine.planted.renewed)
      (eval .listing none 5 .fetching { Machine.planted.renewed with scope := .planted }) ∧
    (eval .listing none 5 .fetching Machine.planted.renewed).1 = .ok (.list [.planted]) ∧
    (eval .listing none 5 .planted Machine.planted.renewed).1 ≠
      (eval .listing none 5 .planted { Machine.planted.renewed with scope := .planted }).1 := by
  have hhost := Host.listing_builtinForms
  have hscope := Machine.planted_builtinForms
  have hnode : Value.fetching.builtinForms = true := by decide +kernel
  have hnames : ∀ name ∈ Value.fetching.names ++ [.text "nil", .text "true", .text "false"],
      Machine.planted.scope.resolveValue name = Scope.planted.resolveValue name := by decide +kernel
  have same := only_names_of_parts_matter .listing .planted .planted .fetching hhost hscope hnode hnames none 5
  exact ⟨hhost, hscope, hnode, hnames, same, by decide +kernel, by decide +kernel⟩

end RuleExpr
