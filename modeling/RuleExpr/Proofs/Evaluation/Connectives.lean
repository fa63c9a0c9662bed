import RuleExpr.Proofs.Evaluation.Constants
import RuleExpr.Proofs.Evaluation.Purity

/-!
# Conjunction, disjunction and negation

A logical form tests its operands and then evaluates the one that it chooses once more. In a pure environment the
second evaluation has the outcome of the first one, so that the forms are functions of the outcomes of their operands
(`Scope.ConjoinsTo`, `Scope.DisjoinsTo`): the first operand that decides or fails counts, and nothing behind it.
Therefore a negated conjunction is the disjunction of the negated operands (`logical_forms_obey_de_morgan`), with the
same values and the same faults.
-/
namespace RuleExpr
open Eval

/-- The call of what a name stands for. -/
def Value.calling (name : String) (operands : List Value) : Value := .tuple (.reference name :: operands)

/-- Without a ceiling the evaluation of the node in the scope ends with this value or fault. -/
def Scope.Yields (host : Host) (s : Scope) (node : Value) (r : Except Fault Value) : Prop :=
  ∃ m', Evaluates host none (.start s) node (r.mapError .fault, m')

/-- Whether all nodes have values, all of the same truth. -/
def Scope.YieldAll (host : Host) (s : Scope) (holds : Bool) (nodes : List Value) : Prop :=
  ∀ node ∈ nodes, ∃ v, s.Yields host node (.ok v) ∧ v.isTruthy = holds

/-- What a conjunction comes to by the outcomes of its operands. -/
inductive Scope.ConjoinsTo (host : Host) (s : Scope) : List Value → Except Fault Value → Prop
  | nil : ConjoinsTo host s [] (.ok (.bool true))
  | last {front : List Value} {operand v : Value} : s.YieldAll host true front → s.Yields host operand (.ok v) →
      v.isTruthy = true → ConjoinsTo host s (front ++ [operand]) (.ok v)
  | stops {front : List Value} {operand v : Value} (rest : List Value) : s.YieldAll host true front →
      s.Yields host operand (.ok v) → v.isTruthy = false →
      ConjoinsTo host s (front ++ operand :: rest) (.ok (.bool false))
  | fails {front : List Value} {operand : Value} {f : Fault} (rest : List Value) : s.YieldAll host true front →
      s.Yields host operand (.error f) → ConjoinsTo host s (front ++ operand :: rest) (.error f)

/-- What a disjunction comes to by the outcomes of its operands. -/
inductive Scope.DisjoinsTo (host : Host) (s : Scope) : List Value → Except Fault Value → Prop
  | noneHolds {operands : List Value} : s.YieldAll host false operands →
      DisjoinsTo host s operands (.ok (.bool false))
  | stops {front : List Value} {operand v : Value} (rest : List Value) : s.YieldAll host false front →
      s.Yields host operand (.ok v) → v.isTruthy = true → DisjoinsTo host s (front ++ operand :: rest) (.ok v)
  | fails {front : List Value} {operand : Value} {f : Fault} (rest : List Value) : s.YieldAll host false front →
      s.Yields host operand (.error f) → DisjoinsTo host s (front ++ operand :: rest) (.error f)

section
variable {host : Host} {s : Scope} {node operand v : Value} {r r' : Except Fault Value} {holds : Bool}
  {front rest operands : List Value}

/-! ## Outcomes -/

theorem mapError_ne_outOfFuel (r : Except Fault Value) : r.mapError Halt.fault ≠ .error .outOfFuel := by
  cases r <;> nofun

theorem Scope.yields_of_eval (fuel : Nat) (h : (eval host none fuel node (.start s)).1 = r.mapError .fault) :
    s.Yields host node r := by
  refine ⟨(eval host none fuel node (.start s)).2, fuel, ?_, mapError_ne_outOfFuel r⟩
  rw [Machine.renewed_start, ← h]

theorem mapError_injective (h : r.mapError Halt.fault = r'.mapError Halt.fault) : r = r' := by
  match r, r', h with
  | .ok _, .ok _, h => exact congrArg Except.ok (Except.ok.inj h)
  | .error _, .error _, h => exact congrArg Except.error (Halt.fault.inj (Except.error.inj h))

theorem Scope.Yields.unique (h : s.Yields host node r) (h' : s.Yields host node r') : r = r' := by
  obtain ⟨m, hm⟩ := h
  obtain ⟨m', hm'⟩ := h'
  exact mapError_injective (congrArg Prod.fst (hm.unique hm'))

theorem Scope.IsPure.exists_yields (hs : s.IsPure) (hnode : node.isPure = true) : ∃ r, s.Yields host node r := by
  rcases (harmless_eval host hs le_rfl hnode (.start s) rfl).outcome with ⟨v, hv, -⟩ | ⟨f, hf⟩
  · exact ⟨.ok v, Scope.yields_of_eval _ hv⟩
  · exact ⟨.error f, Scope.yields_of_eval _ hf⟩

/-- Pure nodes that so much fuel is enough for. -/
def Value.PureWithin (fuel : Nat) (node : Value) : Prop := node.isPure = true ∧ node.size ≤ fuel

variable {fuel : Nat} (n : Nat)

/-- A node has its outcome wherever only operations have been counted. -/
theorem Scope.Yields.again (hs : s.IsPure) (hnode : node.PureWithin fuel) (h : s.Yields host node r) :
    ∃ m', eval host none fuel node ((Machine.start s).countedBy n) = (r.mapError .fault, m') := by
  rw [blind_eval]
  rcases (harmless_eval host hs hnode.2 hnode.1 (.start s) rfl).outcome with ⟨v, hv, -⟩ | ⟨f, hf⟩
  · rw [hv, h.unique (Scope.yields_of_eval (r := .ok v) _ hv)]
    exact ⟨_, rfl⟩
  · rw [hf, h.unique (Scope.yields_of_eval (r := .error f) _ hf)]
    exact ⟨_, rfl⟩

theorem Scope.Yields.tests (hs : s.IsPure) (hnode : node.PureWithin fuel) (h : s.Yields host node (.ok v)) :
    ∃ n', truth (eval host none fuel node) ((Machine.start s).countedBy n) =
      (.ok v.isTruthy, (Machine.start s).countedBy n') := by
  obtain ⟨m', hrun⟩ := h.again n hs hnode
  obtain ⟨k, htruth⟩ := truth_of_harmless (harmless_eval host hs hnode.2 hnode.1) (Nat.le_refl 0) hrun
  exact ⟨n + k, by rw [htruth, Machine.countedBy_countedBy]⟩

theorem Scope.Yields.testFails (hs : s.IsPure) (hnode : node.PureWithin fuel) {f : Fault}
    (h : s.Yields host node (.error f)) : ∃ m', truth (eval host none fuel node)
      ((Machine.start s).countedBy n) = (.error (.fault f), m') := by
  obtain ⟨m', hrun⟩ := h.again n hs hnode
  exact ⟨m', by rw [truth, hrun]; rfl⟩

/-- Operands of one truth are tested in turn, and only operations are counted. -/
theorem Scope.YieldAll.testsTo (hs : s.IsPure) (hnodes : ∀ a ∈ front, a.PureWithin fuel)
    (h : s.YieldAll host holds front) :
    ∃ n', TestsTo (fun node => truth (eval host none fuel node)) holds front
      ((Machine.start s).countedBy n) ((Machine.start s).countedBy n') := by
  induction front generalizing n with
  | nil => exact ⟨n, .nil _⟩
  | cons a front ih =>
      obtain ⟨hnode, hnodes⟩ := List.forall_mem_cons.1 hnodes
      obtain ⟨⟨v, hv, rfl⟩, hothers⟩ := List.forall_mem_cons.1 h
      obtain ⟨k, htest⟩ := hv.tests n hs hnode
      obtain ⟨n', htests⟩ := ih k hnodes hothers
      exact ⟨n', .cons htest htests⟩

/-- All operands are of one truth, or there is a first one that is not or fails. -/
theorem Scope.yieldAll_or_first (holds : Bool) (h : ∀ a ∈ operands, ∃ r, s.Yields host a r) :
    s.YieldAll host holds operands ∨ ∃ front operand rest r, operands = front ++ operand :: rest ∧
      s.YieldAll host holds front ∧ s.Yields host operand r ∧ ∀ v, r = .ok v → v.isTruthy = !holds := by
  induction operands with
  | nil => exact .inl (List.forall_mem_nil _)
  | cons a operands ih =>
      obtain ⟨⟨r, hr⟩, hothers⟩ := List.forall_mem_cons.1 h
      by_cases hhere : ∃ v, r = .ok v ∧ v.isTruthy = holds
      · obtain ⟨v, rfl, hv⟩ := hhere
        rcases ih hothers with hall | ⟨front, operand, rest, r, rfl, hfront, hr', hdecides⟩
        · exact .inl (List.forall_mem_cons.2 ⟨⟨v, hr, hv⟩, hall⟩)
        · exact .inr ⟨a :: front, operand, rest, r, rfl, List.forall_mem_cons.2 ⟨⟨v, hr, hv⟩, hfront⟩, hr', hdecides⟩
      · refine .inr ⟨[], a, operands, r, rfl, List.forall_mem_nil _, hr, fun v hv => ?_⟩
        exact Bool.eq_not_of_ne fun heq => hhere ⟨v, hv, heq⟩

theorem Scope.exists_conjoinsTo (h : ∀ a ∈ operands, ∃ r, s.Yields host a r) :
    ∃ r, s.ConjoinsTo host operands r := by
  rcases yieldAll_or_first true h with hall | ⟨front, operand, rest, r, rfl, hfront, hr, hdecides⟩
  · rcases List.eq_nil_or_concat operands with rfl | ⟨front, operand, rfl⟩
    · exact ⟨_, .nil⟩
    · rw [List.concat_eq_append] at hall ⊢
      obtain ⟨hfront, hlast⟩ := List.forall_mem_append.1 hall
      obtain ⟨v, hv, htruthy⟩ := hlast operand (List.mem_singleton_self operand)
      exact ⟨_, .last hfront hv htruthy⟩
  · cases r with
    | ok v => exact ⟨_, .stops rest hfront hr (hdecides v rfl)⟩
    | error f => exact ⟨_, .fails rest hfront hr⟩

theorem Scope.exists_disjoinsTo (h : ∀ a ∈ operands, ∃ r, s.Yields host a r) :
    ∃ r, s.DisjoinsTo host operands r := by
  rcases yieldAll_or_first false h with hall | ⟨front, operand, rest, r, rfl, hfront, hr, hdecides⟩
  · exact ⟨_, .noneHolds hall⟩
  · cases r with
    | ok v => exact ⟨_, .stops rest hfront hr (hdecides v rfl)⟩
    | error f => exact ⟨_, .fails rest hfront hr⟩

end

/-! ## Calls -/

section
variable {host : Host} {s : Scope} {operand v : Value} {r : Except Fault Value} {front rest operands : List Value}
  {fuel : Nat} {m m' : Machine} {n : Nat}

theorem Scope.IsPure.eval_registered (hs : s.IsPure) {name : String} {v : Value}
    (h : Registry.defaults.lookup? name = some v) : eval host none (fuel + 1) (.reference name)
      ((Machine.start s).countedBy n) = (.ok v, (Machine.start s).countedBy (n + 1)) := by
  have hlookup : ((Machine.start s).countedBy n).scope.lookup? name = some v := hs.registry name v h
  rw [eval_reference (fun _ hnone => by cases hnone), Scope.resolve, hlookup]
  rfl

/-- The outcome of a form with this plan, where nothing but operations has been counted. -/
def Plan.comesTo (host : Host) (s : Scope) (fuel n : Nat) (p : Plan) : Except Halt Value :=
  ((p.run (eval host none fuel) >>= eval host none fuel) ((Machine.start s).countedBy n)).1

theorem Scope.yields_formCall (hs : s.IsPure) {name : String} {f : Form}
    (hform : Registry.defaults.lookup? name = some (.form f))
    (h : (host.planOf f operands).comesTo host s (fuel + 1) 2 = r.mapError .fault) :
    s.Yields host (.calling name operands) r := by
  refine yields_of_eval (fuel + 2) ?_
  rw [Value.calling, eval_formCall (hs.eval_registered (n := 1) hform)]
  exact h

theorem Form.FallsBack.comesTo (hs : s.IsPure) {f : Form} {name : String} {constant : Value} {n' : Nat}
    (h : f.FallsBack (fun node => truth (eval host none (fuel + 1) node)) operands name constant
      ((Machine.start s).countedBy n) ((Machine.start s).countedBy n')) :
    (host.planOf f operands).comesTo host s (fuel + 1) n = .ok constant := by
  rw [Plan.comesTo, bind_apply, h.run host]
  exact congrArg Prod.fst (hs.eval_registered h.default)

theorem Plan.run_conjunction_error {visit : Value → Eval Value} {h : Halt}
    (htest : truth (visit operand) m = (.error h, m')) (rest : List Value) :
    (conjunction (operand :: rest)).run visit m = (.error h, m') := by
  cases rest with
  | nil => simp only [conjunction, run, bind_apply, htest]
  | cons => simp only [conjunction.eq_3 _ _ (List.cons_ne_nil _ _), run, bind_apply, htest]

section
variable (hs : s.IsPure) (hnodes : ∀ a ∈ operands, a.PureWithin (fuel + 1))
include hs hnodes

theorem Scope.ConjoinsTo.comesTo (h : s.ConjoinsTo host operands r) :
    (Plan.conjunction operands).comesTo host s (fuel + 1) n = r.mapError .fault := by
  cases h with
  | nil => exact Form.FallsBack.comesTo hs (.noOperand _)
  | @last front operand v hfront hv htruthy =>
      obtain ⟨hnodes, hnode⟩ := List.forall_mem_append.1 hnodes
      rw [List.forall_mem_singleton] at hnode
      obtain ⟨k, htests⟩ := hfront.testsTo n hs hnodes
      obtain ⟨k', htest⟩ := hv.tests k hs hnode
      rw [htruthy] at htest
      have hrun : (Plan.conjunction [operand]).run (eval host none (fuel + 1)) ((Machine.start s).countedBy k) =
          (.ok operand, (Machine.start s).countedBy k') := Plan.run_test_of htest
      rw [Plan.comesTo, bind_apply, Plan.run_conjunction_front htests (List.cons_ne_nil _ _), hrun]
      obtain ⟨m', hlast⟩ := hv.again k' hs hnode
      exact congrArg Prod.fst hlast
  | @stops front operand v rest hfront hv hfalsy =>
      obtain ⟨hnodes, hlater⟩ := List.forall_mem_append.1 hnodes
      obtain ⟨k, htests⟩ := hfront.testsTo n hs hnodes
      obtain ⟨k', htest⟩ := hv.tests k hs (List.forall_mem_cons.1 hlater).1
      rw [hfalsy] at htest
      exact Form.FallsBack.comesTo hs (.conjunction htests htest)
  | @fails front operand f rest hfront hf =>
      obtain ⟨hnodes, hlater⟩ := List.forall_mem_append.1 hnodes
      obtain ⟨k, htests⟩ := hfront.testsTo n hs hnodes
      obtain ⟨m', htest⟩ := hf.testFails k hs (List.forall_mem_cons.1 hlater).1
      rw [Plan.comesTo, bind_apply, Plan.run_conjunction_front htests (List.cons_ne_nil _ _),
        Plan.run_conjunction_error htest]
      rfl

theorem Scope.DisjoinsTo.comesTo (h : s.DisjoinsTo host operands r) :
    (Plan.disjunction operands).comesTo host s (fuel + 1) n = r.mapError .fault := by
  cases h with
  | noneHolds hall =>
      obtain ⟨k, htests⟩ := hall.testsTo n hs hnodes
      exact Form.FallsBack.comesTo hs (.disjunction htests)
  | @stops front operand v rest hfront hv htruthy =>
      obtain ⟨hnodes, hlater⟩ := List.forall_mem_append.1 hnodes
      have hnode := (List.forall_mem_cons.1 hlater).1
      obtain ⟨k, htests⟩ := hfront.testsTo n hs hnodes
      obtain ⟨k', htest⟩ := hv.tests k hs hnode
      rw [htruthy] at htest
      have hrun : (Plan.disjunction (operand :: rest)).run (eval host none (fuel + 1))
          ((Machine.start s).countedBy k) = (.ok operand, (Machine.start s).countedBy k') := Plan.run_test_of htest
      rw [Plan.comesTo, bind_apply, Plan.run_disjunction_front htests, hrun]
      obtain ⟨m', hlast⟩ := hv.again k' hs hnode
      exact congrArg Prod.fst hlast
  | @fails front operand f rest hfront hf =>
      obtain ⟨hnodes, hlater⟩ := List.forall_mem_append.1 hnodes
      obtain ⟨k, htests⟩ := hfront.testsTo n hs hnodes
      obtain ⟨m', htest⟩ := hf.testFails k hs (List.forall_mem_cons.1 hlater).1
      rw [Plan.comesTo, bind_apply, Plan.run_disjunction_front htests]
      simp only [Plan.disjunction, Plan.run, bind_apply, htest]
      rfl

end

theorem Value.pureWithin_of_mem (hpure : ∀ a ∈ operands, a.isPure = true) :
    ∀ a ∈ operands, a.PureWithin (sizeOfAll operands + 1) :=
  fun a ha => ⟨hpure a ha, Nat.le_succ_of_le (size_le_of_mem ha)⟩

theorem Scope.ConjoinsTo.yields (hs : s.IsPure) (hpure : ∀ a ∈ operands, a.isPure = true)
    (h : s.ConjoinsTo host operands r) : s.Yields host (.calling "and" operands) r := by
  have hform : Registry.defaults.lookup? "and" = some (.form .conjunction) := by decide +kernel
  exact yields_formCall hs hform (h.comesTo hs (Value.pureWithin_of_mem hpure))

theorem Scope.DisjoinsTo.yields (hs : s.IsPure) (hpure : ∀ a ∈ operands, a.isPure = true)
    (h : s.DisjoinsTo host operands r) : s.Yields host (.calling "or" operands) r := by
  have hform : Registry.defaults.lookup? "or" = some (.form .disjunction) := by decide +kernel
  exact yields_formCall hs hform (h.comesTo hs (Value.pureWithin_of_mem hpure))

/-! ## Negation -/

/-- The negation of an outcome. -/
def negation (r : Except Fault Value) : Except Fault Value := r.map fun v => .bool !v.isTruthy

/-- A negated operand is evaluated once, and its faults are those of the negation. -/
theorem Scope.Yields.negated (hs : s.IsPure) (h : s.Yields host operand r) :
    s.Yields host (.calling "not" [operand]) (negation r) := by
  have hname : Registry.defaults.lookup? "not" = some (.function (.builtin .not)) := by decide +kernel
  obtain ⟨m', hm'⟩ := h
  obtain ⟨enough, henough⟩ := hm'.eventually
  have hrun : eval host none (enough + 1) operand ((Machine.start s).countedBy 2) =
      (r.mapError .fault, m'.countedBy 2) := by
    have hstart := henough (enough + 1) (Nat.le_succ enough)
    rw [Machine.renewed_start] at hstart
    rw [blind_eval, hstart]
  have hhead : eval host none (enough + 1) (.reference "not") ((Machine.start s).countedBy 1) =
      (.ok (.function (.builtin .not)), (Machine.start s).countedBy 2) := hs.eval_registered hname
  refine yields_of_eval (enough + 2) ?_
  have hcount : countOperation none (.start s) = (.ok (), (Machine.start s).countedBy 1) := rfl
  rw [Value.calling, eval, bind_apply, hcount]
  simp only [evalNode, evalCombination, bind_apply, hhead, evalItems, hrun]
  cases r <;> rfl

theorem Scope.YieldAll.negated (hs : s.IsPure) {holds : Bool} (h : s.YieldAll host holds operands) :
    s.YieldAll host (!holds) (operands.map fun a => .calling "not" [a]) := by
  rintro node hnode
  obtain ⟨a, ha, rfl⟩ := List.mem_map.1 hnode
  obtain ⟨v, hv, rfl⟩ := h a ha
  exact ⟨_, hv.negated hs, Value.isTruthy_bool _⟩

/-- What a conjunction comes to, negated, is what the disjunction of the negated operands comes to. -/
theorem Scope.ConjoinsTo.negated (hs : s.IsPure) (h : s.ConjoinsTo host operands r) :
    s.DisjoinsTo host (operands.map fun a => .calling "not" [a]) (negation r) := by
  cases h with
  | nil => exact .noneHolds (List.forall_mem_nil _)
  | @last front operand v hfront hv htruthy =>
      have hall : s.YieldAll host true (front ++ [operand]) :=
        List.forall_mem_append.2 ⟨hfront, List.forall_mem_singleton.2 ⟨v, hv, htruthy⟩⟩
      have hfalse : negation (.ok v) = .ok (.bool false) := by rw [negation, Except.map, htruthy]; rfl
      rw [hfalse]
      exact .noneHolds (hall.negated hs)
  | @stops front operand v rest hfront hv hfalsy =>
      have htrue : negation (.ok v) = .ok (.bool true) := by rw [negation, Except.map, hfalsy]; rfl
      have hoperand := hv.negated hs
      rw [htrue] at hoperand
      rw [List.map_append, List.map_cons]
      exact .stops _ (hfront.negated hs) hoperand rfl
  | @fails front operand f rest hfront hf =>
      rw [List.map_append, List.map_cons]
      exact .fails _ (hfront.negated hs) (hf.negated hs)

theorem Value.isPure_not (h : operand.isPure = true) : (calling "not" [operand]).isPure = true := by
  refine allPure_iff.2 (List.forall_mem_cons.2 ⟨by decide +kernel, ?_⟩)
  rwa [List.forall_mem_singleton]

end

/-- Logical forms over pure operands, in a scope that shows the registry and pure data, without a ceiling. Each operand
has a value or a fault, and so has each form: a conjunction and a disjunction what their operands decide, and a negated
conjunction the same as the disjunction of the negated operands. -/
theorem logical_forms_obey_de_morgan (host : Host) (s : Scope) (operands : List Value) (hs : s.IsPure)
    (hpure : ∀ a ∈ operands, a.isPure = true) :
    (∀ a ∈ operands, ∃ r, s.Yields host a r) ∧
      (∃ r, s.Yields host (.calling "and" operands) r) ∧
      (∀ r, s.Yields host (.calling "and" operands) r ↔ s.ConjoinsTo host operands r) ∧
      (∃ r, s.Yields host (.calling "or" operands) r) ∧
      (∀ r, s.Yields host (.calling "or" operands) r ↔ s.DisjoinsTo host operands r) ∧
      (∃ r, s.Yields host (.calling "not" [.calling "and" operands]) r) ∧
      ∀ r, s.Yields host (.calling "not" [.calling "and" operands]) r ↔
        s.Yields host (.calling "or" (operands.map fun a => .calling "not" [a])) r := by
  have hoperands : ∀ a ∈ operands, ∃ r, s.Yields host a r := fun a ha => hs.exists_yields (hpure a ha)
  obtain ⟨conjoined, hconjoined⟩ := Scope.exists_conjoinsTo hoperands
  obtain ⟨disjoined, hdisjoined⟩ := Scope.exists_disjoinsTo hoperands
  have hand := hconjoined.yields hs hpure
  have hor := hdisjoined.yields hs hpure
  have hnegated : ∀ a ∈ operands.map fun a => Value.calling "not" [a], a.isPure = true := by
    intro node hnode
    obtain ⟨a, ha, rfl⟩ := List.mem_map.1 hnode
    exact Value.isPure_not (hpure a ha)
  have hnot := hand.negated hs
  have hdual := (hconjoined.negated hs).yields hs hnegated
  refine ⟨hoperands, ⟨_, hand⟩, fun r => ⟨fun h => ?_, (·.yields hs hpure)⟩, ⟨_, hor⟩,
    fun r => ⟨fun h => ?_, (·.yields hs hpure)⟩, ⟨_, hnot⟩, fun r => ⟨fun h => ?_, fun h => ?_⟩⟩
  · rwa [h.unique hand]
  · rwa [h.unique hor]
  · rwa [h.unique hnot]
  · rwa [h.unique hdual]

/-- The second operand decides, so that the name behind it need not be bound. -/
theorem logical_forms_obey_de_morgan_unbound :
    let s : Scope := .ofFrames [Registry.defaults, ⟨[("data", .list [.nil, .int 3])]⟩]
    let operands : List Value := [.reference "data", .calling "first" [.reference "data"], .reference "missing"]
    s.IsPure ∧ (∀ a ∈ operands, a.isPure = true) ∧
      s.Yields .listing (.calling "and" operands) (.ok (.bool false)) ∧
      s.Yields .listing (.calling "or" (operands.map fun a => .calling "not" [a])) (.ok (.bool true)) := by
  intro s operands
  have hs : s.IsPure := Scope.isPure_ofFrames (by decide +kernel)
  have hpure : ∀ a ∈ operands, a.isPure = true := Value.allPure_iff.1 (by decide +kernel)
  have hand : s.Yields .listing (.calling "and" operands) (.ok (.bool false)) :=
    Scope.yields_of_eval 8 (by decide +kernel)
  have hnot : s.Yields .listing (.calling "not" [.calling "and" operands]) (.ok (.bool true)) := hand.negated hs
  exact ⟨hs, hpure, hand, ((logical_forms_obey_de_morgan .listing s operands hs hpure).2.2.2.2.2.2 _).1 hnot⟩

end RuleExpr
