import RuleExpr.Proofs.Evaluation.BuiltinForms
import RuleExpr.Proofs.Evaluation.Ceiling
import RuleExpr.Proofs.Scope.Merge

/-!
# Evaluation in merged frames

An evaluation cannot tell a stack of frames from the one frame that they merge into, as long as forms leave only
frames that they have entered (`merged_frame_agrees`). Two such evaluations stand in machines that are the same up to
the frames at the bottom, and every step keeps them so. There is one exception: a name that cannot be a key is missing
where there are no frames at all, and cannot even be looked for in an empty one. Both evaluations end at such a name, in
the same place and with different faults.
-/
namespace RuleExpr
open Eval

/-- Whether a plan leaves no more frames than it has entered and those beforehand, which are so many. -/
inductive Plan.LeavesOwn : Nat → Plan → Prop
  | expand {n : Nat} (node : Value) : LeavesOwn n (.expand node)
  | fail {n : Nat} (f : Fault) : LeavesOwn n (.fail f)
  | evaluate {n : Nat} {next : Value → Plan} (node : Value) : (∀ v, LeavesOwn n (next v)) →
      LeavesOwn n (.evaluate node next)
  | test {n : Nat} {next : Bool → Plan} (node : Value) : (∀ holds, LeavesOwn n (next holds)) →
      LeavesOwn n (.test node next)
  | ask {n : Nat} {next : Bool → Plan} (name : Value) : (∀ bound, LeavesOwn n (next bound)) →
      LeavesOwn n (.ask name next)
  | resolve {n : Nat} {next : Value → Plan} (name : Value) : (∀ v, LeavesOwn n (next v)) →
      LeavesOwn n (.resolve name next)
  | enter {n : Nat} {next : Plan} (frame : Frame) : LeavesOwn (n + 1) next → LeavesOwn n (.enter frame next)
  | leave {n : Nat} {next : Plan} : LeavesOwn n next → LeavesOwn (n + 1) (.leave next)
  | note {n : Nat} {next : Plan} (call : Call) : LeavesOwn n next → LeavesOwn n (.note call next)
  | remember {n : Nat} {next : List Call → Plan} : (∀ calls, LeavesOwn n (next calls)) → LeavesOwn n (.remember next)

theorem Plan.Selects.leavesOwn {chosen : Value → Prop} {operands : List Value} {p : Plan}
    (h : p.Selects chosen operands) : p.LeavesOwn 0 := by
  induction h with
  | expand _ => exact .expand _
  | fail f => exact .fail f
  | test _ ih => exact .test _ ih
  | skip _ ih => exact ih

/-- Whether the forms of a host leave only frames that they have entered. -/
def Host.LeavesOwn (host : Host) : Prop :=
  ∀ name operands, (host.plan name operands).LeavesOwn 0

theorem Host.LeavesOwn.planOf {host : Host} (h : host.LeavesOwn) (f : Form) (operands : List Value) :
    (host.planOf f operands).LeavesOwn 0 := by
  cases f with
  | host name => exact h name operands
  | _ => exact (host.planOf_selects rfl operands).leavesOwn

/-! ## What is met on the way -/

/-- Whether all values in a frame are in a class. -/
def Frame.Holds (good : Value → Prop) (f : Frame) : Prop := ∀ b ∈ f.bindings, good b.2

/-- Whether a plan evaluates and enters only what is in one class, as long as it gets only values in that class, and
asks only of names in another class whether they are bound. -/
def Plan.Keeps (good asked : Value → Prop) : Plan → Prop
  | .expand node => good node
  | .fail _ => True
  | .evaluate node next => good node ∧ ∀ v, good v → (next v).Keeps good asked
  | .test node next => good node ∧ ∀ holds, (next holds).Keeps good asked
  | .ask name next => asked name ∧ ∀ bound, (next bound).Keeps good asked
  | .resolve name next => good (.token .var name) ∧ ∀ v, good v → (next v).Keeps good asked
  | .enter frame next => frame.Holds good ∧ next.Keeps good asked
  | .leave next | .note _ next => next.Keeps good asked
  | .remember next => ∀ calls, (next calls).Keeps good asked

/-- Whether the functions and forms of a host keep to a class of values. -/
structure Host.Keeps (good asked : Value → Prop) (host : Host) : Prop where
  call {calls : List Call} {name : String} {vs : List Value} {r : Value} : (∀ v ∈ vs, good v) →
    (host.call calls name vs).2 = .ok r → good r
  plan {operands : List Value} : (∀ node ∈ operands, good node) → ∀ name, (host.plan name operands).Keeps good asked

/-- Classes that hold, with a node, what its evaluation passes on, and hold all references to text. -/
structure Value.Passed (good : Value → Prop) : Prop extends Value.Closed good where
  content {kind : Kind} {v : Value} : kind ≠ .var → good (.token kind v) → good v
  reference (name : String) : good (.reference name)

theorem Value.passed_true : Passed fun _ => True where
  plain _ := trivial
  list_iff := ⟨fun _ _ _ => trivial, fun _ => trivial⟩
  tuple_iff := ⟨fun _ _ _ => trivial, fun _ => trivial⟩
  content _ _ := trivial
  reference _ := trivial

/-- Every plan keeps to the class of all values. -/
theorem Plan.keeps_true (p : Plan) : p.Keeps (fun _ => True) fun _ => True := by
  induction p with
  | expand node => exact trivial
  | fail f => exact trivial
  | evaluate node next ih => exact ⟨trivial, fun v _ => ih v⟩
  | test node next ih => exact ⟨trivial, ih⟩
  | ask name next ih => exact ⟨trivial, ih⟩
  | resolve name next ih => exact ⟨trivial, fun v _ => ih v⟩
  | enter frame next ih => exact ⟨fun _ _ => trivial, ih⟩
  | leave next ih => exact ih
  | note call next ih => exact ih
  | remember next ih => exact ih

theorem Host.keeps_true (host : Host) : host.Keeps (fun _ => True) fun _ => True :=
  ⟨fun _ _ => trivial, fun _ _ => Plan.keeps_true _⟩

section
variable {good asked : Value → Prop}

theorem Plan.Selects.keeps {chosen : Value → Prop} {operands : List Value} {p : Plan} (h : p.Selects chosen operands)
    (hchosen : ∀ node, chosen node → good node) (hoperands : ∀ node ∈ operands, good node) :
    p.Keeps good asked := by
  induction h with
  | expand hnode => exact hchosen _ hnode
  | fail f => exact trivial
  | test _ ih =>
      rw [List.forall_mem_cons] at hoperands
      exact ⟨hoperands.1, fun holds => ih holds hoperands.2⟩
  | skip _ ih => exact ih (List.forall_mem_cons.1 hoperands).2

theorem Host.Keeps.planOf {host : Host} (hgood : Value.Passed good) (h : host.Keeps good asked) (f : Form)
    {operands : List Value} (hoperands : ∀ node ∈ operands, good node) :
    (host.planOf f operands).Keeps good asked := by
  have chosen : ∀ node, IsConstant node ∨ node ∈ operands → good node := by
    rintro _ (⟨name, -, rfl⟩ | hnode)
    · exact hgood.reference name
    · exact hoperands _ hnode
  cases f with
  | host name => exact h.plan hoperands name
  | _ => exact (host.planOf_selects rfl operands).keeps chosen hoperands

end

mutual

/-- Whether all names in a node can be keys. -/
def Value.hasKeyNames : Value → Bool
  | .token .var name => Scope.isKey name
  | .token _ content => hasKeyNames content
  | .list items | .tuple items => allKeyNames items
  | _ => true

def Value.allKeyNames : List Value → Bool
  | [] => true
  | v :: vs => hasKeyNames v && allKeyNames vs

end

theorem Value.allKeyNames_iff {vs : List Value} : allKeyNames vs = true ↔ ∀ v ∈ vs, v.hasKeyNames = true := by
  induction vs with
  | nil => simp [allKeyNames]
  | cons v vs ih => rw [allKeyNames, Bool.and_eq_true, ih, List.forall_mem_cons]

theorem Value.passed_hasKeyNames : Passed (·.hasKeyNames = true) where
  plain {v} h := by
    cases v with
    | list | tuple | token | function | form => cases h
    | _ => rfl
  list_iff := allKeyNames_iff
  tuple_iff := allKeyNames_iff
  content {kind v} hkind h := by
    cases kind with
    | var => exact (hkind rfl).elim
    | _ => exact h
  reference _ := rfl

/-! ## Machines over different frames -/

/-- The two machines are the same, but for the frames below some that both have entered, at least so many and with
values in a class. -/
inductive Machine.Beside (good : Value → Prop) (base base' : List Frame) (depth : Nat) : Machine → Machine → Prop
  | intro (m : Machine) (entered : List Frame) : depth ≤ entered.length → (∀ f ∈ entered, f.Holds good) →
      Beside good base base' depth { m with scope := ⟨entered ++ base⟩ } { m with scope := ⟨entered ++ base'⟩ }

theorem Machine.Beside.weaken {good : Value → Prop} {base base' : List Frame} {depth less : Nat} {m m' : Machine}
    (h : Beside good base base' depth m m') (hle : less ≤ depth) : Beside good base base' less m m' := by
  obtain ⟨m, entered, hlength, hentered⟩ := h
  exact .intro m entered (Nat.le_trans hle hlength) hentered

/-- How outcomes are alike: in machines side by side, and with the same result or both at a name that cannot be a key,
which is missing where there are no frames. -/
inductive Eval.Alike {α : Type} (good : Value → Prop) (base base' : List Frame) (depth : Nat) (post : α → Prop) :
    Except Halt α × Machine → Except Halt α × Machine → Prop
  | ok {m m' : Machine} {a : α} : post a → m.Beside good base base' depth m' →
      Alike good base base' depth post (.ok a, m) (.ok a, m')
  | halt {m m' : Machine} (h : Halt) : m.Beside good base base' 0 m' →
      Alike good base base' depth post (.error h, m) (.error h, m')
  | unusable {m m' : Machine} (name : Value) : base = [] → good (.token .var name) → Scope.isKey name = false →
      m.Beside good base base' 0 m' →
      Alike good base base' depth post (.error (.fault (Fault.undefinedName name).reported), m)
        (.error (.fault .unusableName), m')

/-- From machines side by side both computations come to the same result, in a class, and are side by side again. -/
def Eval.Carries {α : Type} (good : Value → Prop) (base base' : List Frame) (depth depth' : Nat) (post : α → Prop)
    (x y : Eval α) : Prop :=
  ∀ m m', m.Beside good base base' depth m' → Alike good base base' depth' post (x m) (y m')

/-- A step that neither reads nor changes the scope. -/
def Eval.Scopeless {α : Type} (x : Eval α) : Prop :=
  ∀ m scope, x { m with scope } = ((x m).1, { (x m).2 with scope })

section
variable {α β : Type} {good : Value → Prop} {base base' : List Frame} {depth depth' depth'' : Nat} {post : α → Prop}

theorem Eval.Carries.weaken {less : Nat} {x y : Eval α} (h : Carries good base base' depth depth' post x y)
    (hle : less ≤ depth') : Carries good base base' depth less post x y := by
  intro m m' hm
  have alike := h m m' hm
  generalize x m = o, y m' = o' at alike ⊢
  cases alike with
  | ok ha hbeside => exact .ok ha (hbeside.weaken hle)
  | halt h hbeside => exact .halt h hbeside
  | unusable name hbase hname hkey hbeside => exact .unusable name hbase hname hkey hbeside

theorem Eval.Carries.bind {x y : Eval α} {f g : α → Eval β} {post' : β → Prop}
    (h : Carries good base base' depth depth' post x y)
    (hf : ∀ a, post a → Carries good base base' depth' depth'' post' (f a) (g a)) :
    Carries good base base' depth depth'' post' (x >>= f) (y >>= g) := by
  intro m m' hm
  have alike := h m m' hm
  rw [bind_apply, bind_apply]
  generalize x m = o, y m' = o' at alike ⊢
  cases alike with
  | ok ha hbeside => exact hf _ ha _ _ hbeside
  | halt h hbeside => exact .halt h hbeside
  | unusable name hbase hname hkey hbeside => exact .unusable name hbase hname hkey hbeside

theorem Eval.Carries.truth {good' : Value → Prop} {x y : Eval Value}
    (h : Carries good base base' depth depth' good' x y) :
    Carries good base base' depth depth' (fun _ => True) (Eval.truth x) (Eval.truth y) := by
  rintro _ _ ⟨m, entered, hlength, hentered⟩
  have alike := h _ _ (.intro m entered hlength hentered)
  unfold Eval.truth
  generalize x { m with scope := ⟨entered ++ base⟩ } = o, y { m with scope := ⟨entered ++ base'⟩ } = o' at alike ⊢
  cases alike with
  | ok _ hbeside =>
      obtain ⟨left, entered, hlength, hentered⟩ := hbeside
      exact .ok trivial (.intro { left with marks := Nat.max m.marks left.kept } entered hlength hentered)
  | halt h hbeside => exact .halt h hbeside
  | unusable name hbase hname hkey hbeside => exact .unusable name hbase hname hkey hbeside

theorem Eval.Scopeless.carries {x : Eval α} (h : Scopeless x) (hpost : ∀ m a, (x m).1 = .ok a → post a) :
    Carries good base base' depth depth post x x := by
  rintro _ _ ⟨m, entered, hlength, hentered⟩
  rw [h m ⟨entered ++ base⟩, h m ⟨entered ++ base'⟩]
  cases hx : (x m).1 with
  | ok a => exact .ok (hpost m a hx) (.intro (x m).2 entered hlength hentered)
  | error halt => exact .halt halt (.intro (x m).2 entered (Nat.zero_le _) hentered)

theorem Eval.Scopeless.bind {x : Eval α} {f : α → Eval β} (h : Scopeless x) (hf : ∀ a, Scopeless (f a)) :
    Scopeless (x >>= f) := by
  intro m scope
  rw [bind_apply, bind_apply, h m scope]
  rcases x m with ⟨e | a, m'⟩
  · rfl
  · exact hf a m' scope

theorem Eval.scopeless_pure (a : α) : Scopeless (Pure.pure a : Eval α) := fun _ _ => rfl

theorem Eval.scopeless_ofExcept (e : Except Fault α) : Scopeless (ofExcept e) := by
  cases e <;> exact fun _ _ => rfl

theorem Eval.scopeless_countOperation (ceiling : Option Int) : Scopeless (countOperation ceiling) := by
  intro m scope
  cases ceiling with
  | none => rfl
  | some limit =>
      simp only [countOperation]
      split <;> rfl

theorem Eval.scopeless_mark (v : Value) : Scopeless (mark v) := by
  cases v with
  | float x => rcases x with (_ | _) | _ | _ <;> exact fun _ _ => rfl
  | _ => exact fun _ _ => rfl

theorem Eval.scopeless_applyFunction (host : Host) (f : Function) (vs : List Value) :
    Scopeless (applyFunction host f vs) := by
  cases f with
  | builtin b => exact scopeless_ofExcept _
  | now => cases vs <;> exact fun _ _ => rfl
  | random => cases vs <;> exact fun _ _ => rfl
  | host name =>
      intro m scope
      exact scopeless_ofExcept (host.call m.calls name vs).2
        { m with calls := m.calls ++ (host.call m.calls name vs).1 } scope

theorem Eval.carries_pure {a : α} (h : post a) :
    Carries good base base' depth depth post (Pure.pure a : Eval α) (Pure.pure a) :=
  (scopeless_pure a).carries fun _ _ hb => Except.ok.inj hb ▸ h

theorem Eval.carries_ofExcept {e : Except Fault α} (h : ∀ a, e = .ok a → post a) :
    Carries good base base' depth depth post (ofExcept e) (ofExcept e) := by
  refine (scopeless_ofExcept e).carries fun m a ha => ?_
  cases e with
  | ok b => exact h a (congrArg Except.ok (Except.ok.inj ha))
  | error f => cases ha

theorem Eval.carries_fault (f : Fault) :
    Carries good base base' depth depth post (fault f : Eval α) (fault f) :=
  carries_ofExcept (e := .error f) fun _ ha => by cases ha

theorem Eval.carries_notes : Carries good base base' depth depth (fun _ => True) notes notes :=
  Scopeless.carries (fun _ _ => rfl) fun _ _ _ => trivial

theorem Eval.carries_note (calls : List Call) :
    Carries good base base' depth depth (fun _ => True) (note calls) (note calls) :=
  Scopeless.carries (fun _ _ => rfl) fun _ _ _ => trivial

theorem Eval.carries_enter {frame : Frame} (h : frame.Holds good) :
    Carries good base base' depth (depth + 1) (fun _ => True) (enter frame) (enter frame) := by
  rintro _ _ ⟨m, entered, hlength, hentered⟩
  exact .ok trivial (.intro { m with kept := m.marks } (frame :: entered) (Nat.succ_le_succ hlength)
    (List.forall_mem_cons.2 ⟨h, hentered⟩))

theorem Eval.carries_leave : Carries good base base' (depth + 1) depth (fun _ => True) leave leave := by
  rintro _ _ ⟨m, entered, hlength, hentered⟩
  cases entered with
  | nil => cases hlength
  | cons frame entered =>
      exact .ok trivial (.intro m entered (Nat.le_of_succ_le_succ hlength) (List.forall_mem_cons.1 hentered).2)

/-- What depends on the scope, where only a name that cannot be a key tells the frames at the bottom apart. -/
theorem Eval.carries_ofScope {f : Scope → Except Fault α}
    (hpost : ∀ entered a, (∀ frame ∈ entered, frame.Holds good) → f ⟨entered ++ base⟩ = .ok a → post a)
    (h : ∀ entered, f ⟨entered ++ base⟩ = f ⟨entered ++ base'⟩ ∨
      base = [] ∧ ∃ name, good (.token .var name) ∧ Scope.isKey name = false ∧
        f ⟨entered ++ base⟩ = .error (Fault.undefinedName name).reported ∧
        f ⟨entered ++ base'⟩ = .error .unusableName) :
    Carries good base base' depth depth post (ofScope f) (ofScope f) := by
  rintro _ _ ⟨m, entered, hlength, hentered⟩
  unfold ofScope
  rcases h entered with heq | ⟨hbase, name, hname, hkey, hmissing, hunusable⟩
  · have same : Carries good base base' depth depth post (ofExcept (f ⟨entered ++ base⟩))
        (ofExcept (f ⟨entered ++ base⟩)) := carries_ofExcept fun a => hpost entered a hentered
    rw [← heq]
    exact same _ _ (.intro m entered hlength hentered)
  · rw [hmissing, hunusable]
    exact .unusable name hbase hname hkey (.intro m entered (Nat.zero_le _) hentered)

end

/-! ## Names -/

/-- Whether two stacks of frames show the same bindings, of values in a class. The second one is never without any
frame. -/
structure SameBindings (good : Value → Prop) (base base' : List Frame) : Prop where
  lookup (name : String) : Scope.lookup? ⟨base⟩ name = Scope.lookup? ⟨base'⟩ name
  nonempty : base' ≠ []
  holds (name : String) (v : Value) : Scope.lookup? ⟨base⟩ name = some v → good v

theorem sameBindings_merge {good : Value → Prop} {frames : List Frame}
    (h : ∀ name v, Scope.lookup? ⟨frames.reverse⟩ name = some v → good v) :
    SameBindings good frames.reverse [Frame.merge frames] := by
  refine ⟨fun name => ?_, List.cons_ne_nil _ _, h⟩
  rw [Scope.lookup?_cons, Scope.lookup?_empty, Option.or_none, Frame.lookup?_merge, Scope.ofFrames]

theorem Scope.resolveValue_of_binds {s : Scope} {name : Value} (htext : ∀ text, name ≠ .text text) :
    s.resolveValue name = (s.binds name).bind fun _ => .error (Fault.undefinedName name).reported := by
  rw [Scope.resolveValue.eq_2 _ _ htext]
  cases s.binds name <;> rfl

theorem Scope.exists_lookup?_of_resolveValue {s : Scope} {name v : Value} (h : s.resolveValue name = .ok v) :
    ∃ text, s.lookup? text = some v := by
  unfold resolveValue at h
  split at h
  · next text =>
      unfold resolve at h
      split at h
      · next found =>
          obtain rfl := Except.ok.inj h
          exact ⟨text, found⟩
      · cases h
  · split at h <;> cases h

namespace SameBindings
variable {good asked : Value → Prop} {base base' : List Frame}

theorem lookup?_entered (h : SameBindings good base base') (entered : List Frame) (name : String) :
    Scope.lookup? ⟨entered ++ base⟩ name = Scope.lookup? ⟨entered ++ base'⟩ name := by
  rw [Scope.lookup?_append, Scope.lookup?_append, h.lookup]

theorem contains_entered (h : SameBindings good base base') (entered : List Frame) (name : String) :
    Scope.contains ⟨entered ++ base⟩ name = Scope.contains ⟨entered ++ base'⟩ name := by
  rw [Scope.contains_eq, Scope.contains_eq, h.lookup?_entered]

theorem good_of_lookup? (h : SameBindings good base base') {entered : List Frame}
    (hentered : ∀ frame ∈ entered, frame.Holds good) {name : String} {v : Value}
    (hv : Scope.lookup? ⟨entered ++ base⟩ name = some v) : good v := by
  induction entered with
  | nil => exact h.holds name v hv
  | cons frame entered ih =>
      rw [List.forall_mem_cons] at hentered
      rw [List.cons_append, Scope.lookup?_cons, Option.or_eq_some_iff] at hv
      rcases hv with hframe | ⟨-, hrest⟩
      · obtain ⟨b, hb, rfl⟩ := Option.map_eq_some_iff.1 hframe
        exact hentered.1 b (List.mem_of_find?_eq_some hb)
      · exact ih hentered.2 hrest

/-- A name that can be a key is bound in both stacks or in none, and so is any name if neither stack is empty. -/
theorem binds (h : SameBindings good base base') (entered : List Frame) {name : Value}
    (hname : base = [] → Scope.isKey name = true) :
    Scope.binds ⟨entered ++ base⟩ name = Scope.binds ⟨entered ++ base'⟩ name := by
  by_cases htext : ∃ text, name = .text text
  · obtain ⟨text, rfl⟩ := htext
    rw [Scope.binds, Scope.binds, h.contains_entered]
  · have hother : ∀ text, name = .text text → False := fun text heq => htext ⟨text, heq⟩
    have hbelow : (entered ++ base').isEmpty = false := by
      simpa using fun _ => h.nonempty
    rw [Scope.binds.eq_2 _ _ hother, Scope.binds.eq_2 _ _ hother, hbelow, Bool.or_false]
    by_cases hbase : base = []
    · simp [hname hbase]
    · simp [hbase]

theorem resolveValue (h : SameBindings good base base') (entered : List Frame) (name : Value) :
    Scope.resolveValue ⟨entered ++ base⟩ name = Scope.resolveValue ⟨entered ++ base'⟩ name ∨
      base = [] ∧ Scope.isKey name = false ∧
        Scope.resolveValue ⟨entered ++ base⟩ name = .error (Fault.undefinedName name).reported ∧
        Scope.resolveValue ⟨entered ++ base'⟩ name = .error .unusableName := by
  by_cases htext : ∃ text, name = .text text
  · obtain ⟨text, rfl⟩ := htext
    left
    rw [Scope.resolveValue_text, Scope.resolveValue_text, Scope.resolve, Scope.resolve, h.lookup?_entered]
  · have hother : ∀ text, name ≠ .text text := fun text heq => htext ⟨text, heq⟩
    rw [Scope.resolveValue_of_binds hother, Scope.resolveValue_of_binds hother]
    by_cases hname : base = [] → Scope.isKey name = true
    · rw [h.binds entered hname]
      exact .inl rfl
    · -- Without frames at the bottom there is none at all if none was entered, and otherwise both refuse the name.
      obtain ⟨hbase, hkey⟩ := Classical.not_imp.1 hname
      have hbelow : (entered ++ base').isEmpty = false := by
        simpa using fun _ => h.nonempty
      have hrefused : Scope.binds ⟨entered ++ base'⟩ name = .error .unusableName := by
        rw [Scope.binds.eq_2 _ _ hother, hbelow, Bool.or_false, if_neg hkey]
      rw [hrefused, Scope.binds.eq_2 _ _ hother]
      by_cases hnone : (entered ++ base).isEmpty = true
      · right
        rw [hnone, Bool.or_true, if_pos rfl]
        exact ⟨hbase, Bool.eq_false_iff.2 hkey, rfl, rfl⟩
      · left
        rw [Bool.eq_false_iff.2 hnone, Bool.or_false, if_neg hkey]

theorem carries_resolve (h : SameBindings good base base') {name : Value} (hname : good (.token .var name))
    (depth : Nat) :
    Carries good base base' depth depth good (ofScope (·.resolveValue name)) (ofScope (·.resolveValue name)) := by
  refine carries_ofScope (fun entered v hentered hv => ?_) fun entered => ?_
  · obtain ⟨text, hlookup⟩ := Scope.exists_lookup?_of_resolveValue hv
    exact h.good_of_lookup? hentered hlookup
  · exact (h.resolveValue entered name).imp_right fun hends => ⟨hends.1, name, hname, hends.2⟩

end SameBindings

/-! ## Evaluation -/

section
variable {good asked : Value → Prop} {base base' : List Frame} {visit visit' : Value → Eval Value}
variable (hvisit : ∀ depth node, good node →
  Carries good base base' depth depth good (visit node) (visit' node))
include hvisit

theorem Eval.carries_evalItems (depth : Nat) {nodes : List Value} (hnodes : ∀ node ∈ nodes, good node) :
    Carries good base base' depth depth (fun vs => ∀ v ∈ vs, good v) (evalItems visit nodes)
      (evalItems visit' nodes) := by
  induction nodes with
  | nil => exact carries_pure fun _ h => (List.not_mem_nil h).elim
  | cons node nodes ih =>
      rw [List.forall_mem_cons] at hnodes
      exact (hvisit depth node hnodes.1).bind fun v hv => (ih hnodes.2).bind fun vs hvs =>
        carries_pure (List.forall_mem_cons.2 ⟨hv, hvs⟩)

/-- A plan comes back to where it began or stays above. -/
theorem Eval.carries_planRun (h : SameBindings good base base')
    (hasked : base = [] → ∀ name, asked name → Scope.isKey name = true) {own : Nat} {p : Plan} (hp : p.LeavesOwn own)
    (hkeeps : p.Keeps good asked) (depth : Nat) :
    Carries good base base' (depth + own) depth good (p.run visit) (p.run visit') := by
  induction hp with
  | expand node =>
      have hnode : good node := hkeeps
      exact (carries_pure hnode).weaken (Nat.le_add_right _ _)
  | fail f => exact (carries_fault f).weaken (Nat.le_add_right _ _)
  | evaluate node _ ih => exact (hvisit _ node hkeeps.1).bind fun v hv => ih v (hkeeps.2 v hv)
  | test node _ ih => exact (hvisit _ node hkeeps.1).truth.bind fun holds _ => ih holds (hkeeps.2 holds)
  | ask name _ ih =>
      have step : ∀ entered, Scope.binds ⟨entered ++ base⟩ name = Scope.binds ⟨entered ++ base'⟩ name :=
        fun entered => h.binds entered fun hbase => hasked hbase name hkeeps.1
      exact (carries_ofScope (fun _ _ _ _ => trivial) fun entered => .inl (step entered)).bind fun bound _ =>
        ih bound (hkeeps.2 bound)
  | resolve name _ ih => exact (h.carries_resolve hkeeps.1 _).bind fun v hv => ih v (hkeeps.2 v hv)
  | enter frame _ ih => exact (carries_enter hkeeps.1).bind fun _ _ => ih hkeeps.2
  | leave _ ih => exact carries_leave.bind fun _ _ => ih hkeeps
  | note call _ ih => exact (carries_note [call]).bind fun _ _ => ih hkeeps
  | remember _ ih => exact carries_notes.bind fun calls _ => ih calls (hkeeps calls)

omit hvisit in
theorem Eval.carries_applyFunction {host : Host} (hgood : Value.Passed good) (hhost : host.Keeps good asked)
    (depth : Nat) (f : Function) {vs : List Value} (hvs : ∀ v ∈ vs, good v) :
    Carries good base base' depth depth good (applyFunction host f vs) (applyFunction host f vs) := by
  cases f with
  | builtin b => exact carries_ofExcept fun r => Builtin.apply_closed hgood.toClosed hvs
  | now | random =>
      refine (scopeless_applyFunction host _ vs).carries fun m v hv => ?_
      cases vs with
      | nil => exact Except.ok.inj hv ▸ hgood.plain rfl
      | cons => cases hv
  | host name =>
      exact carries_notes.bind fun calls _ => (carries_note (host.call calls name vs).1).bind fun _ _ =>
        carries_ofExcept fun r => hhost.call hvs

omit hvisit in
theorem Eval.carries_mark (hgood : Value.Passed good) (depth : Nat) {v : Value} (hv : good v) :
    Carries good base base' depth depth good (mark v) (mark v) := by
  refine (scopeless_mark v).carries fun m r hr => ?_
  cases v with
  | float x =>
      rcases x with (_ | _) | _ | _ <;> exact Except.ok.inj hr ▸ hgood.plain rfl
  | _ => exact Except.ok.inj hr ▸ hv

theorem Eval.carries_evalCombination {host : Host} (hhost : host.LeavesOwn) (hgood : Value.Passed good)
    (hkeeps : host.Keeps good asked) (hasked : base = [] → ∀ name, asked name → Scope.isKey name = true)
    (h : SameBindings good base base') (depth : Nat) {head : Value} {tail : List Value} (hhead : good head)
    (htail : ∀ node ∈ tail, good node) :
    Carries good base base' depth depth good (evalCombination host visit head tail)
      (evalCombination host visit' head tail) := by
  refine (hvisit depth head hhead).bind fun v hv => ?_
  have discard : Carries good base base' depth depth good (evalItems visit tail >>= fun _ => Pure.pure v)
      (evalItems visit' tail >>= fun _ => Pure.pure v) :=
    (carries_evalItems hvisit depth htail).bind fun _ _ => carries_pure hv
  cases v with
  | form f =>
      have hplan := carries_planRun hvisit h hasked (hhost.planOf f tail) (hkeeps.planOf hgood f htail) depth
      exact hplan.bind fun node hnode => hvisit depth node hnode
  | function f =>
      refine (carries_evalItems hvisit depth htail).bind fun vs hvs => ?_
      exact (carries_applyFunction hgood hkeeps depth f hvs).bind fun r hr => carries_mark hgood depth hr
  | _ => exact discard

theorem Eval.carries_evalNode {host : Host} (hhost : host.LeavesOwn) (hgood : Value.Passed good)
    (hkeeps : host.Keeps good asked) (hasked : base = [] → ∀ name, asked name → Scope.isKey name = true)
    (h : SameBindings good base base') (depth : Nat) {node : Value} (hnode : good node) :
    Carries good base base' depth depth good (evalNode host visit node) (evalNode host visit' node) := by
  unfold evalNode
  split
  · exact h.carries_resolve hnode depth
  · next hkind => exact carries_pure (hgood.content hkind hnode)
  · exact carries_pure (hgood.plain rfl)
  · exact carries_pure (hgood.plain rfl)
  · obtain ⟨hhead, htail⟩ := List.forall_mem_cons.1 (hgood.tuple_iff.1 hnode)
    exact carries_evalCombination hvisit hhost hgood hkeeps hasked h depth hhead htail
  · obtain ⟨hhead, htail⟩ := List.forall_mem_cons.1 (hgood.list_iff.1 hnode)
    exact carries_evalCombination hvisit hhost hgood hkeeps hasked h depth hhead htail
  · exact carries_pure hnode

end

theorem Eval.carries_eval {good asked : Value → Prop} {base base' : List Frame} {host : Host} (hhost : host.LeavesOwn)
    (hgood : Value.Passed good) (hkeeps : host.Keeps good asked)
    (hasked : base = [] → ∀ name, asked name → Scope.isKey name = true) (h : SameBindings good base base')
    (ceiling : Option Int) (fuel depth : Nat) (node : Value) (hnode : good node) :
    Carries good base base' depth depth good (eval host ceiling fuel node) (eval host ceiling fuel node) := by
  induction fuel generalizing depth node with
  | zero =>
      have stop : Scopeless (eval host ceiling 0 node) := fun _ _ => rfl
      exact stop.carries fun _ _ hv => by cases hv
  | succ fuel ih =>
      have step : Carries good base base' depth depth (fun _ => True) (countOperation ceiling)
          (countOperation ceiling) := (scopeless_countOperation ceiling).carries fun _ _ _ => trivial
      exact step.bind fun _ _ =>
        carries_evalNode ih hhost hgood hkeeps hasked h depth hnode

/-! ## Runs -/

/-- Whether two evaluations end alike: with the same value or halt, the same count and the same notes. -/
structure Outcome.SameRun (o o' : Outcome) : Prop where
  result : o.1 = o'.1
  operations : o.2.operations = o'.2.operations
  calls : o.2.calls = o'.2.calls

/-- Whether two evaluations end in the same place, with the same count and the same notes, at a name: the first one
misses it, the second one cannot look for it. -/
structure Outcome.EndAtUnusable (name : Value) (o o' : Outcome) : Prop where
  missing : o.1 = .error (.fault (Fault.undefinedName name).reported)
  unusable : o'.1 = .error (.fault .unusableName)
  operations : o.2.operations = o'.2.operations
  calls : o.2.calls = o'.2.calls

theorem Outcome.sameRun_of_alike {good : Value → Prop} {base base' : List Frame} {depth : Nat} {post : Value → Prop}
    {o o' : Outcome} (h : Alike good base base' depth post o o') :
    o.SameRun o' ∨
      base = [] ∧ ∃ name, good (.token .var name) ∧ Scope.isKey name = false ∧ o.EndAtUnusable name o' := by
  cases h with
  | ok _ hbeside =>
      obtain ⟨m, entered, -, -⟩ := hbeside
      exact .inl ⟨rfl, rfl, rfl⟩
  | halt h hbeside =>
      obtain ⟨m, entered, -, -⟩ := hbeside
      exact .inl ⟨rfl, rfl, rfl⟩
  | unusable name hbase hname hkey hbeside =>
      obtain ⟨m, entered, -, -⟩ := hbeside
      exact .inr ⟨hbase, name, hname, hkey, rfl, rfl, rfl, rfl⟩

section
variable {host : Host} (hhost : host.LeavesOwn)
include hhost

theorem Eval.sameRun_merge {frames : List Frame} (hframes : frames ≠ []) (ceiling : Option Int) (fuel : Nat)
    (node : Value) : Outcome.SameRun (eval host ceiling fuel node (.start (.ofFrames frames)))
      (eval host ceiling fuel node (.start (.ofFrames [Frame.merge frames]))) := by
  have hbase : frames.reverse ≠ [] := List.reverse_ne_nil_iff.2 hframes
  have beside : Machine.Beside (fun _ => True) frames.reverse [Frame.merge frames] 0 (.start (.ofFrames frames))
      (.start (.ofFrames [Frame.merge frames])) := .intro (.start (.ofFrames frames)) [] le_rfl nofun
  have alike := carries_eval hhost Value.passed_true host.keeps_true (fun hnil => (hbase hnil).elim)
    (sameBindings_merge fun _ _ _ => trivial) ceiling fuel 0 node trivial _ _ beside
  exact (Outcome.sameRun_of_alike alike).resolve_right fun hends => hbase hends.1

/-- Where there are no frames, a name that cannot be a key may make a difference, if one can be met at all. -/
theorem Eval.sameRun_merge_nil {good : Value → Prop} (hgood : Value.Passed good)
    (hkeeps : host.Keeps good (Scope.isKey · = true)) (ceiling : Option Int) (fuel : Nat) {node : Value}
    (hnode : good node) :
    Outcome.SameRun (eval host ceiling fuel node (.start (.ofFrames [])))
        (eval host ceiling fuel node (.start (.ofFrames [Frame.merge []]))) ∨
      ∃ name, good (.token .var name) ∧ Scope.isKey name = false ∧
        Outcome.EndAtUnusable name (eval host ceiling fuel node (.start (.ofFrames [])))
          (eval host ceiling fuel node (.start (.ofFrames [Frame.merge []]))) := by
  have beside : Machine.Beside good [] [Frame.merge []] 0 (.start (.ofFrames []))
      (.start (.ofFrames [Frame.merge []])) := .intro (.start (.ofFrames [])) [] le_rfl nofun
  have empty : ∀ name v, Scope.lookup? ⟨[].reverse⟩ name = some v → good v := by
    intro name v hv
    rw [List.reverse_nil, Scope.lookup?_empty] at hv
    cases hv
  have bindings : SameBindings good [] [Frame.merge []] := sameBindings_merge empty
  have alike := carries_eval hhost hgood hkeeps (fun _ _ => id) bindings ceiling fuel 0 node hnode _ _ beside
  exact (Outcome.sameRun_of_alike alike).imp_right And.right

end

/-- A plan that binds a name to the value of one node for the evaluation of another one. -/
def Plan.letting : List Value → Plan
  | [.token _ (.text name), node, body] =>
    .evaluate node fun v => .enter ⟨[(name, v)]⟩ (.evaluate body fun r => .leave (.expand (.token .str r)))
  | _ => .fail .argumentCount

theorem Plan.letting_leavesOwn (operands : List Value) : (letting operands).LeavesOwn 0 := by
  unfold letting
  split
  · exact .evaluate _ fun v => .enter _ (.evaluate _ fun r => .leave (.expand _))
  · exact .fail _

theorem Plan.letting_keeps {operands : List Value} (h : ∀ node ∈ operands, node.hasKeyNames = true) :
    (letting operands).Keeps (·.hasKeyNames = true) (Scope.isKey · = true) := by
  unfold letting
  split
  · next name node body =>
      have hnode : node.hasKeyNames = true := h node (by simp)
      have hbody : body.hasKeyNames = true := h body (by simp)
      exact ⟨hnode, fun v hv => ⟨List.forall_mem_singleton.2 hv, hbody, fun r hr => hr⟩⟩
  · exact trivial

/-- A host with this form. -/
def Host.letting : Host := { Host.endless with plan := fun _ => Plan.letting }

theorem Host.letting_keeps : Host.letting.Keeps (·.hasKeyNames = true) (Scope.isKey · = true) where
  call _ h := by
    obtain rfl := Except.ok.inj h
    rfl
  plan h _ := Plan.letting_keeps h

/-- A frame in which that form is bound. -/
def Frame.letting : Frame := ⟨[("let", .form (.host "let")), ("a", .int 1), ("b", .int 2)]⟩

/-- A call of that form which binds a name anew and then evaluates another name. -/
def Value.letting : Value := .tuple [.reference "let", .reference "b", .reference "a", .reference "b"]

end RuleExpr
