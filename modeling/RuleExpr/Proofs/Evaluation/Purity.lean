import RuleExpr.Proofs.Evaluation.Settling
import RuleExpr.Proofs.Evaluation.Termination
import RuleExpr.Proofs.Scope.Merge

/-!
# Pure environments

Where the registry is not shadowed and all other names stand for data, a node that mentions neither the time nor chance
reaches nothing that could tell one evaluation from another. Its evaluation ends and changes nothing but counts
(`harmless_eval`), whatever the host supplies: no function or form of the host can be reached. Even the marks that it
gives are free again once only its truth counts (`truth_of_harmless`). So it may be evaluated any number of times.
-/
namespace RuleExpr
open Eval

mutual

/-- Whether a value holds nothing of a host and neither source of time and chance, and no node in it names one of the
two. -/
def Value.isPure : Value → Bool
  | .list items | .tuple items => allPure items
  | .token .var (.text name) => name != "rand" && name != "now"
  | .token _ content => isPure content
  | .function (.builtin _) => true
  | .function _ | .form (.host _) => false
  | _ => true

def Value.allPure : List Value → Bool
  | [] => true
  | v :: vs => isPure v && allPure vs

end

/-- Whether the bindings of the registry are visible and all others are of pure data. -/
structure Scope.IsPure (s : Scope) : Prop where
  registry (name : String) (v : Value) : Registry.defaults.lookup? name = some v → s.lookup? name = some v
  data (name : String) (v : Value) : s.lookup? name = some v →
    Registry.defaults.lookup? name = some v ∨ v.isPure = true

theorem Value.allPure_iff {vs : List Value} : allPure vs = true ↔ ∀ v ∈ vs, v.isPure = true := by
  induction vs with
  | nil => simp [allPure]
  | cons v vs ih => rw [allPure, Bool.and_eq_true, ih, List.forall_mem_cons]

theorem Value.pure_closed : Closed (·.isPure = true) where
  plain {v} h := by
    cases v with
    | list | tuple | token | function | form => cases h
    | _ => rfl
  list_iff := allPure_iff
  tuple_iff := allPure_iff

theorem Registry.isPure_defaults {name : String} {v : Value} (h : defaults.lookup? name = some v)
    (hrandom : name ≠ "rand") (hnow : name ≠ "now") : v.isPure = true := by
  have hall : (defaults.bindings.all fun b => b.2.isPure || b.1 == "rand" || b.1 == "now") = true := by decide +kernel
  obtain ⟨b, hb, rfl⟩ := Option.map_eq_some_iff.1 h
  have hname : b.1 = name := by simpa using List.find?_some hb
  have hpure := List.all_eq_true.1 hall b (List.mem_of_find?_eq_some hb)
  rw [hname] at hpure
  simpa [hrandom, hnow] using hpure

namespace Scope.IsPure
variable {s : Scope} (hs : s.IsPure)
include hs

theorem isPure_of_lookup? {name : String} {v : Value} (h : s.lookup? name = some v) (hrandom : name ≠ "rand")
    (hnow : name ≠ "now") : v.isPure = true :=
  (hs.data name v h).elim (Registry.isPure_defaults · hrandom hnow) id

theorem isPure_of_resolveValue {name v : Value} (hname : (Value.token .var name).isPure = true)
    (h : s.resolveValue name = .ok v) : v.isPure = true := by
  unfold resolveValue at h
  split at h
  · next text =>
      have hnames : text ≠ "rand" ∧ text ≠ "now" := by simpa [Value.isPure] using hname
      unfold resolve at h
      split at h
      · next found =>
          obtain rfl := Except.ok.inj h
          exact hs.isPure_of_lookup? found hnames.1 hnames.2
      · cases h
  · split at h <;> cases h

end Scope.IsPure

/-- Pure data under new names, in a frame on top of the registry. -/
theorem Scope.isPure_ofFrames {frame : Frame}
    (h : (frame.bindings.all fun b => b.2.isPure && (Registry.defaults.lookup? b.1).isNone) = true) :
    (Scope.ofFrames [Registry.defaults, frame]).IsPure := by
  have hlookup (name : String) : (Scope.ofFrames [Registry.defaults, frame]).lookup? name =
      (frame.lookup? name).or (Registry.defaults.lookup? name) := by
    simp only [ofFrames, List.reverse_cons, List.reverse_nil, List.nil_append, List.cons_append, lookup?_cons,
      lookup?_empty, Option.or_none]
  have hframe {name : String} {v : Value} (hv : frame.lookup? name = some v) :
      v.isPure = true ∧ Registry.defaults.lookup? name = none := by
    obtain ⟨b, hb, rfl⟩ := Option.map_eq_some_iff.1 hv
    have hname : b.1 = name := by simpa using List.find?_some hb
    have hdata := List.all_eq_true.1 h b (List.mem_of_find?_eq_some hb)
    rwa [Bool.and_eq_true, Option.isNone_iff_eq_none, hname] at hdata
  constructor
  · intro name v hv
    rw [hlookup]
    cases hother : frame.lookup? name with
    | none => exact hv
    | some w => rw [(hframe hother).2] at hv; cases hv
  · intro name v hv
    rw [hlookup] at hv
    cases hother : frame.lookup? name with
    | none =>
        rw [hother] at hv
        exact .inl hv
    | some w =>
        rw [hother] at hv
        obtain rfl := Option.some.inj hv
        exact .inr (hframe hother).1

/-! ## Harmless computations -/

/-- How a computation ends that changes nothing but counts: with a result of some class or a fault. -/
structure Eval.HarmlessEnd {α : Type} (good : α → Prop) (m : Machine) (o : Except Halt α × Machine) : Prop where
  machine : ∃ operations marks, o.2 = { m with operations := m.operations + operations, marks := m.marks + marks }
  outcome : (∃ a, o.1 = .ok a ∧ good a) ∨ ∃ f, o.1 = .error (.fault f)

/-- Every run of the computation in the scope changes nothing but counts. -/
def Eval.Harmless {α : Type} (s : Scope) (good : α → Prop) (x : Eval α) : Prop :=
  ∀ m, m.scope = s → HarmlessEnd good m (x m)

section
variable {α β : Type} {s : Scope} {good : α → Prop} {x : Eval α}

theorem Eval.harmless_pure {a : α} (h : good a) : Harmless s good (Pure.pure a : Eval α) :=
  fun _ _ => ⟨⟨0, 0, rfl⟩, .inl ⟨a, rfl, h⟩⟩

theorem Eval.harmless_fault (f : Fault) : Harmless s good (fault f) :=
  fun _ _ => ⟨⟨0, 0, rfl⟩, .inr ⟨f, rfl⟩⟩

theorem Eval.harmless_ofExcept {e : Except Fault α} (h : ∀ a, e = .ok a → good a) : Harmless s good (ofExcept e) := by
  cases e with
  | error f => exact harmless_fault f
  | ok a => exact harmless_pure (h a rfl)

theorem Eval.harmless_ofScope {f : Scope → Except Fault α} (h : ∀ a, f s = .ok a → good a) :
    Harmless s good (ofScope f) := by
  rintro m rfl
  exact harmless_ofExcept h m rfl

theorem Eval.Harmless.bind {good' : β → Prop} {f : α → Eval β} (h : Harmless s good x)
    (hf : ∀ a, good a → Harmless s good' (f a)) : Harmless s good' (x >>= f) := by
  intro m hm
  obtain ⟨⟨n, k, hmachine⟩, houtcome⟩ := h m hm
  rw [bind_apply]
  rcases hx : x m with ⟨e | a, m'⟩
  · rw [hx] at hmachine houtcome
    refine ⟨⟨n, k, hmachine⟩, ?_⟩
    rcases houtcome with ⟨a, ha, -⟩ | ⟨fault, hfault⟩
    · cases ha
    · exact .inr ⟨fault, by simpa using hfault⟩
  · rw [hx] at hmachine houtcome
    have ha : good a := by
      rcases houtcome with ⟨b, hb, hgood⟩ | ⟨fault, hfault⟩
      · exact Except.ok.inj hb ▸ hgood
      · cases hfault
    replace hmachine : m' = { m with operations := m.operations + n, marks := m.marks + k } := hmachine
    have hscope : m'.scope = s := by
      rw [hmachine]
      exact hm
    obtain ⟨⟨n', k', hlast⟩, hend⟩ := hf a ha m' hscope
    refine ⟨⟨n + n', k + k', ?_⟩, hend⟩
    rw [hlast, hmachine]
    simp only [Nat.add_assoc]

/-- Testing keeps the marks where no frame may hold more of them than were given. -/
theorem Eval.truth_of_harmless {good : Value → Prop} {x : Eval Value} {m m' : Machine} {v : Value}
    (h : Harmless m.scope good x) (hkept : m.kept ≤ m.marks) (hx : x m = (.ok v, m')) :
    ∃ n, Eval.truth x m = (.ok v.isTruthy, m.countedBy n) := by
  obtain ⟨⟨n, k, hmachine⟩, -⟩ := h m rfl
  rw [hx] at hmachine
  obtain rfl : m' = _ := hmachine
  have hmarks : Nat.max m.marks m.kept = m.marks := Nat.max_eq_left hkept
  refine ⟨n, ?_⟩
  rw [Eval.truth, hx]
  simp only [hmarks]
  rfl

theorem Eval.Harmless.truth {good : Value → Prop} {x : Eval Value} (h : Harmless s good x) :
    Harmless s (fun _ => True) (Eval.truth x) := by
  intro m hm
  obtain ⟨⟨n, k, hmachine⟩, houtcome⟩ := h m hm
  unfold Eval.truth
  rcases hx : x m with ⟨e | v, m'⟩
  · rw [hx] at hmachine houtcome
    refine ⟨⟨n, k, hmachine⟩, ?_⟩
    rcases houtcome with ⟨a, ha, -⟩ | ⟨fault, hfault⟩
    · cases ha
    · exact .inr ⟨fault, by simpa using hfault⟩
  · rw [hx] at hmachine
    obtain rfl : m' = _ := hmachine
    refine ⟨⟨n, Nat.max m.marks m.kept - m.marks, ?_⟩, .inl ⟨_, rfl, trivial⟩⟩
    rw [Nat.add_sub_cancel' (Nat.le_max_left _ _)]

theorem Eval.harmless_countOperation : Harmless s (fun _ => True) (countOperation none) :=
  fun _ _ => ⟨⟨1, 0, rfl⟩, .inl ⟨(), rfl, trivial⟩⟩

end

/-! ## Evaluation in a pure scope -/

section
variable {host : Host} {s : Scope} {visit : Value → Eval Value} {head : Value} {tail : List Value}

theorem Eval.harmless_evalItems {good : Value → Prop} {nodes : List Value}
    (h : ∀ node ∈ nodes, Harmless s good (visit node)) :
    Harmless s (fun vs => ∀ v ∈ vs, good v) (evalItems visit nodes) := by
  induction nodes with
  | nil => exact harmless_pure (List.forall_mem_nil _)
  | cons node nodes ih =>
      obtain ⟨hnode, hnodes⟩ := List.forall_mem_cons.1 h
      refine hnode.bind fun v hv => (ih hnodes).bind fun vs hvs => harmless_pure ?_
      exact List.forall_mem_cons.2 ⟨hv, hvs⟩

theorem Eval.harmless_planRun {good chosen : Value → Prop} {operands : List Value} {p : Plan}
    (hp : p.Selects chosen operands) (h : ∀ node ∈ operands, Harmless s good (visit node)) :
    Harmless s chosen (p.run visit) := by
  induction hp with
  | expand hchosen => exact harmless_pure hchosen
  | fail f => exact harmless_fault f
  | test _ ih =>
      obtain ⟨hnode, hnodes⟩ := List.forall_mem_cons.1 h
      exact hnode.truth.bind fun holds _ => ih holds hnodes
  | skip _ ih => exact ih (List.forall_mem_cons.1 h).2

theorem Eval.harmless_mark {v : Value} (hv : v.isPure = true) : Harmless s (·.isPure = true) (mark v) := by
  cases v with
  | float x =>
      rcases x with (_ | _) | _ | _
      · exact fun _ _ => ⟨⟨0, 1, rfl⟩, .inl ⟨_, rfl, rfl⟩⟩
      all_goals exact harmless_pure hv
  | _ => exact harmless_pure hv

theorem Eval.harmless_evalCombination (hhead : head.isPure = true) (htail : ∀ v ∈ tail, v.isPure = true)
    (hvisit : ∀ node, node.size < 1 + Value.sizeOfAll (head :: tail) → node.isPure = true →
      Harmless s (·.isPure = true) (visit node)) :
    Harmless s (·.isPure = true) (evalCombination host visit head tail) := by
  have hsize := head.size_pos
  have hitem : ∀ node ∈ tail, Harmless s (·.isPure = true) (visit node) := by
    intro node hnode
    have hle := Value.size_le_of_mem hnode
    exact hvisit node (by rw [Value.sizeOfAll]; omega) (htail node hnode)
  refine (hvisit head (by rw [Value.sizeOfAll]; omega) hhead).bind fun v hv => ?_
  have discard : Harmless s (·.isPure = true) (evalItems visit tail >>= fun _ => Pure.pure v) :=
    (harmless_evalItems hitem).bind fun _ _ => harmless_pure hv
  cases v with
  | form f =>
      have hbuiltin : (Value.form f).builtinForms = true := by
        cases f with
        | host name => cases hv
        | _ => rfl
      refine (harmless_planRun (host.planOf_selects hbuiltin tail) hitem).bind fun node hnode => ?_
      rcases hnode with ⟨name, hname, rfl⟩ | hnode
      · have hone : (Value.reference name).size = 1 := rfl
        refine hvisit (.reference name) (by rw [hone, Value.sizeOfAll]; omega) ?_
        simp only [List.mem_cons, List.not_mem_nil, or_false] at hname
        rcases hname with rfl | rfl | rfl <;> decide +kernel
      · exact hitem node hnode
  | function f =>
      cases f with
      | builtin b =>
          refine (harmless_evalItems hitem).bind fun vs hvs => ?_
          refine Harmless.bind (harmless_ofExcept fun r hr => ?_) fun r hr => harmless_mark hr
          exact Builtin.apply_closed Value.pure_closed hvs hr
      | _ => cases hv
  | _ => exact discard

theorem Eval.harmless_evalNode (hs : s.IsPure) {node : Value} (hnode : node.isPure = true)
    (hvisit : ∀ smaller, smaller.size < node.size → smaller.isPure = true →
      Harmless s (·.isPure = true) (visit smaller)) :
    Harmless s (·.isPure = true) (evalNode host visit node) := by
  unfold evalNode
  split
  · exact harmless_ofScope fun v hv => hs.isPure_of_resolveValue hnode hv
  · next kind content hvar =>
      refine harmless_pure ?_
      cases kind with
      | var => exact (hvar rfl).elim
      | _ => exact hnode
  · exact harmless_pure rfl
  · exact harmless_pure rfl
  · next head tail =>
      obtain ⟨hhead, htail⟩ := List.forall_mem_cons.1 (Value.allPure_iff.1 hnode)
      exact harmless_evalCombination hhead htail hvisit
  · next head tail =>
      obtain ⟨hhead, htail⟩ := List.forall_mem_cons.1 (Value.allPure_iff.1 hnode)
      exact harmless_evalCombination hhead htail hvisit
  · exact harmless_pure hnode

/-- A pure node in a pure scope: fuel for the size of the node is enough. -/
theorem Eval.harmless_eval (host : Host) (hs : s.IsPure) {fuel : Nat} {node : Value} (hfuel : node.size ≤ fuel)
    (hnode : node.isPure = true) : Harmless s (·.isPure = true) (eval host none fuel node) := by
  induction fuel generalizing node with
  | zero =>
      have hsize := node.size_pos
      omega
  | succ fuel ih =>
      refine harmless_countOperation.bind fun _ _ => harmless_evalNode hs hnode fun smaller hlt hsmaller => ?_
      exact ih (by omega) hsmaller

end

end RuleExpr
