import RuleExpr.Proofs.Scope.Merge
import RuleExpr.Proofs.Setting.Grammar
import RuleExpr.Session

/-!
# Sessions and their history

A session keeps what was built and compiled, and how often the time and chance were read. What a call answers can be
told from the history of commands alone: the latest compilation of the rule fixes the tree, and the interpreter that
was built for it before fixes the bindings and the ceiling (`calls_are_independent`). Other calls and later settings
have no part in it, also if an evaluation broke off in between. They only move on the readings, which all calls share.

The outcome of a call holds its whole machine, so the count, the notes and any frames left behind are part of it.
-/
namespace RuleExpr

/-- The commands so far, the latest first, each with the setting under which it was carried out. -/
abbrev History := List (Setting × Command)

/-- What is fixed when an interpreter is built. -/
structure Configuration where
  vars : List (Value × Value)
  ceiling : Option Int

/-- The ceiling that a setting leaves to an interpreter. -/
inductive Setting.Fixes (s : Setting) : Option Int → Prop
  | unset : s.IsUnset → Fixes s none
  | denoted {i : Int} : 0 ≤ i → s.Denotes i → Fixes s (some i)

/-- Whether an interpreter is built with this configuration. A ceiling that is given counts, and otherwise the one of
the setting at this time. -/
structure Configuration.IsBuilt (c : Configuration) (setting : Setting) (vars : List (Value × Value))
    (given : Option (Option Int)) : Prop where
  keeps : c.vars = vars
  keys : ∀ p ∈ vars, p.1.isWritable = true
  obeys : ∀ ceiling ∈ given, c.ceiling = ceiling
  reads : given = none → setting.Fixes c.ceiling

/-- The name for which a command builds an interpreter. -/
def Command.builds : Command → Option String
  | .build id _ _ => some id
  | _ => none

/-- The name for which a command compiles a rule. -/
def Command.compiles : Command → Option String
  | .compile id _ _ => some id
  | _ => none

/-- The latest interpreter of a name that could be built has this configuration. -/
inductive History.Built (id : String) : History → Configuration → Prop
  | here {setting : Setting} {vars : List (Value × Value)} {given : Option (Option Int)} {c : Configuration}
      {past : History} : c.IsBuilt setting vars given → Built id ((setting, .build id vars given) :: past) c
  | failed {setting : Setting} {vars : List (Value × Value)} {given : Option (Option Int)} {c : Configuration}
      {past : History} : (∀ c', ¬ Configuration.IsBuilt c' setting vars given) → Built id past c →
      Built id ((setting, .build id vars given) :: past) c
  | later {setting : Setting} {command : Command} {c : Configuration} {past : History} : command.builds ≠ some id →
      Built id past c → Built id ((setting, command) :: past) c

/-- The configuration of a named interpreter or of a new one. -/
def History.Provides (past : History) (setting : Setting) : Option String → Configuration → Prop
  | some id, c => past.Built id c
  | none, c => c.IsBuilt setting [] none

/-- The latest rule of a name that could be compiled has this tree, and its interpreter had this configuration. -/
inductive History.Compiled (id : String) : History → Configuration → Value → Prop
  | here {setting : Setting} {source interpreter : Option String} {c : Configuration} {reading : Tree.Reading}
      {past : History} : past.Provides setting interpreter c → Tree.read source = .ok reading →
      Compiled id ((setting, .compile id source interpreter) :: past) c reading.tree
  | failed {setting : Setting} {source interpreter : Option String} {c : Configuration} {tree : Value}
      {past : History} : (∀ c' reading, past.Provides setting interpreter c' → Tree.read source ≠ .ok reading) →
      Compiled id past c tree → Compiled id ((setting, .compile id source interpreter) :: past) c tree
  | later {setting : Setting} {command : Command} {c : Configuration} {tree : Value} {past : History} :
      command.compiles ≠ some id → Compiled id past c tree → Compiled id ((setting, command) :: past) c tree

/-- Whether a command may give a meaning to a name. -/
def Command.defines (command : Command) : Bool := command.builds.isSome || command.compiles.isSome

/-- Whether a frame shows the bindings of a call, under them those that were fixed, and under these the registry. -/
def Frame.ShowsCall (frame : Frame) (c : Configuration) (vars : List (Value × Value)) : Prop :=
  ∀ name, frame.lookup? name =
    (lastOf vars name).or ((lastOf c.vars name).or (Registry.defaults.lookup? name))

/-- Whether an outcome is that of a tree evaluated on its own: in one frame with the bindings of the call, under the
ceiling that was fixed, with nothing counted and noted before and so many readings taken. A key without a text refuses
the call. -/
inductive Outcome.IsCall (host : Host) (readings : Nat) (c : Configuration) (tree : Value)
    (vars : List (Value × Value)) : Outcome → Prop
  | evaluated {frame : Frame} : (∀ p ∈ vars, p.1.isWritable = true) → frame.ShowsCall c vars →
      IsCall host readings c tree vars (eval host c.ceiling (fuelFor c.ceiling) tree
        { scope := ⟨[frame]⟩, operations := 0, readings, marks := 0, kept := 0, calls := [] })
  | refused : (∃ p ∈ vars, p.1.isWritable = false) →
      IsCall host readings c tree vars (.error (.fault .tooManyDigits), .startAfter readings ⟨[]⟩)

/-! ## Building -/

theorem Setting.fixes_iff {s : Setting} {ceiling : Option Int} : s.ceiling = .ok ceiling ↔ s.Fixes ceiling := by
  rw [Setting.ceiling, integer_eq_ok_iff]
  constructor
  · rintro (⟨hunset, rfl⟩ | ⟨i, hi, hdenotes, rfl⟩)
    · exact .unset hunset
    · exact .denoted hi hdenotes
  · rintro (hunset | ⟨hi, hdenotes⟩)
    · exact .inl ⟨hunset, rfl⟩
    · exact .inr ⟨_, hi, hdenotes, rfl⟩

/-- Pairs make a frame if their keys have texts, and otherwise there is one fault. -/
theorem Frame.ofKeyed_cases (pairs : List (Value × Value)) :
    (∃ f, ofKeyed pairs = .ok f ∧ ∀ p ∈ pairs, p.1.isWritable = true) ∨
      ofKeyed pairs = .error .tooManyDigits ∧ ∃ p ∈ pairs, p.1.isWritable = false := by
  have bindings : (∃ bs, bindingsOfPairs pairs = .ok bs ∧ ∀ p ∈ pairs, p.1.isWritable = true) ∨
      bindingsOfPairs pairs = .error .tooManyDigits ∧ ∃ p ∈ pairs, p.1.isWritable = false := by
    induction pairs with
    | nil => exact .inl ⟨[], rfl, nofun⟩
    | cons p pairs ih =>
        simp only [List.forall_mem_cons, List.exists_mem_cons_iff]
        cases hkey : p.1.isWritable with
        | false =>
            have hname : nameOfKey p.1 = .error .tooManyDigits := if_neg (by simp [hkey])
            right
            rw [bindingsOfPairs, hname]
            exact ⟨rfl, .inl rfl⟩
        | true =>
            have hname : nameOfKey p.1 = .ok (String.ofList p.1.plain) := if_pos hkey
            rw [bindingsOfPairs, hname]
            rcases ih with ⟨bs, hbs, hkeys⟩ | ⟨herror, hkeys⟩
            · rw [hbs]
              exact .inl ⟨_, rfl, rfl, hkeys⟩
            · rw [herror]
              exact .inr ⟨rfl, .inr hkeys⟩
  rcases bindings with ⟨bs, hbs, hkeys⟩ | ⟨herror, hkeys⟩
  · exact .inl ⟨ofPairs bs, by rw [ofKeyed, hbs]; rfl, hkeys⟩
  · exact .inr ⟨by rw [ofKeyed, herror]; rfl, hkeys⟩

/-- Whether an interpreter has this configuration. -/
structure Interpreter.Has (i : Interpreter) (c : Configuration) : Prop where
  ceiling : i.ceiling = c.ceiling
  bindings (name : String) :
    i.bindings.lookup? name = (Frame.lastOf c.vars name).or (Registry.defaults.lookup? name)

section
variable {setting : Setting} {vars : List (Value × Value)} {given : Option (Option Int)} {i : Interpreter}

theorem Configuration.IsBuilt.ceiling_eq {c : Configuration} (h : c.IsBuilt setting vars given) :
    given.elim setting.ceiling .ok = .ok c.ceiling := by
  cases given with
  | some ceiling => exact congrArg Except.ok (h.obeys ceiling rfl).symm
  | none => exact Setting.fixes_iff.2 (h.reads rfl)

theorem Configuration.IsBuilt.unique {c c' : Configuration} (h : c.IsBuilt setting vars given)
    (h' : c'.IsBuilt setting vars given) : c = c' := by
  obtain ⟨cvars, ceiling⟩ := c
  obtain ⟨cvars', ceiling'⟩ := c'
  obtain rfl : cvars = cvars' := h.keeps.trans h'.keeps.symm
  obtain rfl : ceiling = ceiling' := Except.ok.inj (h.ceiling_eq.symm.trans h'.ceiling_eq)
  rfl

/-- An interpreter that is built has a configuration with which it is built. -/
theorem Interpreter.exists_isBuilt (given : Option (Option Int))
    (h : (do new vars (← given.elim setting.ceiling .ok)) = .ok i) :
    ∃ c : Configuration, c.IsBuilt setting vars given ∧ i.Has c := by
  obtain ⟨ceiling, hceiling, hnew⟩ := bind_eq_ok_iff.1 h
  obtain ⟨frame, hframe, rfl⟩ := map_eq_ok_iff.1 hnew
  refine ⟨⟨vars, ceiling⟩, ⟨rfl, ?_, ?_, ?_⟩, rfl, fun name => ?_⟩
  · rcases Frame.ofKeyed_cases vars with ⟨-, -, hkeys⟩ | ⟨herror, -⟩
    · exact hkeys
    · rw [herror] at hframe
      cases hframe
  · rintro other ⟨⟩
    exact (Except.ok.inj hceiling).symm
  · rintro rfl
    exact Setting.fixes_iff.1 hceiling
  · rw [Frame.lookup?_overlay, Frame.lookup?_ofKeyed hframe]

theorem Interpreter.not_isBuilt (given : Option (Option Int)) {f : Fault}
    (h : (do new vars (← given.elim setting.ceiling .ok)) = .error f) (c : Configuration) :
    ¬ c.IsBuilt setting vars given := by
  intro hbuilt
  rw [hbuilt.ceiling_eq] at h
  rcases Frame.ofKeyed_cases vars with ⟨frame, hframe, -⟩ | ⟨-, p, hp, hkey⟩
  · have hnew : new vars c.ceiling = .error f := h
    rw [new, hframe] at hnew
    cases hnew
  · rw [hbuilt.keys p hp] at hkey
    cases hkey

end

/-- A call of a rule is the evaluation of its tree on its own. -/
theorem Rule.isCall_callAfter (host : Host) (readings : Nat) {r : Rule} {c : Configuration}
    (h : r.interpreter.Has c) (vars : List (Value × Value)) :
    Outcome.IsCall host readings c r.tree vars (r.callAfter host readings vars) := by
  unfold callAfter
  rcases Frame.ofKeyed_cases vars with ⟨frame, hframe, hkeys⟩ | ⟨herror, hkeys⟩
  · have shows : (r.frame frame).ShowsCall c vars := by
      intro name
      rw [Rule.frame, Frame.lookup?_overlay, Frame.lookup?_ofKeyed hframe, h.bindings]
    rw [hframe, h.ceiling]
    exact .evaluated hkeys shows
  · rw [herror]
    exact .refused hkeys

/-! ## A session records its history -/

/-- Whether the latest entries of a table are for what the names mean. -/
structure Session.Tells {α β : Type} (entries : List (String × α)) (means : String → β → Prop)
    (isFor : α → β → Prop) : Prop where
  found {id : String} {a : α} : entries.lookup id = some a → ∃ b, means id b ∧ isFor a b
  missing {id : String} : entries.lookup id = none → ∀ b, ¬ means id b

/-- Whether a session keeps what its history says. -/
structure Session.Records (s : Session) (past : History) : Prop where
  interpreters : Tells s.interpreters past.Built Interpreter.Has
  rules : Tells s.rules (fun id (p : Configuration × Value) => past.Compiled id p.1 p.2)
    fun r p => r.tree = p.2 ∧ r.interpreter.Has p.1

namespace History
variable {past : History} {setting : Setting} {command : Command} {id : String} {c c' : Configuration}
variable {tree tree' : Value}

theorem built_cons_iff (h : command.builds ≠ some id) : Built id ((setting, command) :: past) c ↔ past.Built id c := by
  constructor
  · intro hbuilt
    cases hbuilt with
    | here => exact (h rfl).elim
    | failed => exact (h rfl).elim
    | later _ hpast => exact hpast
  · exact .later h

/-- Where nothing could be built, all names stay. -/
theorem built_cons_of_failed {other : String} {vars : List (Value × Value)} {given : Option (Option Int)}
    (hnone : ∀ c', ¬ Configuration.IsBuilt c' setting vars given) :
    Built id ((setting, .build other vars given) :: past) c ↔ past.Built id c := by
  by_cases hid : other = id
  · subst hid
    constructor
    · intro hbuilt
      cases hbuilt with
      | here hbuilt => exact (hnone _ hbuilt).elim
      | failed _ hpast => exact hpast
      | later _ hpast => exact hpast
    · exact .failed hnone
  · exact built_cons_iff (by simpa [Command.builds] using hid)

theorem compiled_cons_iff (h : command.compiles ≠ some id) :
    Compiled id ((setting, command) :: past) c tree ↔ past.Compiled id c tree := by
  constructor
  · intro hcompiled
    cases hcompiled with
    | here => exact (h rfl).elim
    | failed => exact (h rfl).elim
    | later _ hpast => exact hpast
  · exact .later h

/-- Where nothing could be compiled, all names stay. -/
theorem compiled_cons_of_failed {other : String} {source interpreter : Option String}
    (hnone : ∀ c' reading, past.Provides setting interpreter c' → Tree.read source ≠ .ok reading) :
    Compiled id ((setting, .compile other source interpreter) :: past) c tree ↔ past.Compiled id c tree := by
  by_cases hid : other = id
  · subst hid
    constructor
    · intro hcompiled
      cases hcompiled with
      | here hprovides hread => exact (hnone _ _ hprovides hread).elim
      | failed _ hpast => exact hpast
      | later _ hpast => exact hpast
    · exact .failed hnone
  · exact compiled_cons_iff (by simpa [Command.compiles] using hid)

theorem Built.unique (h : past.Built id c) (h' : past.Built id c') : c = c' := by
  induction h with
  | here hbuilt =>
      cases h' with
      | here hbuilt' => exact hbuilt.unique hbuilt'
      | failed hnone => exact (hnone _ hbuilt).elim
      | later hother => exact (hother rfl).elim
  | failed hnone _ ih =>
      cases h' with
      | here hbuilt' => exact (hnone _ hbuilt').elim
      | failed _ hpast => exact ih hpast
      | later hother => exact (hother rfl).elim
  | later hother _ ih => exact ih ((built_cons_iff hother).1 h')

theorem Provides.unique {interpreter : Option String} (h : past.Provides setting interpreter c)
    (h' : past.Provides setting interpreter c') : c = c' := by
  cases interpreter with
  | some id => exact Built.unique h h'
  | none => exact Configuration.IsBuilt.unique h h'

theorem Compiled.unique (h : past.Compiled id c tree) (h' : past.Compiled id c' tree') : c = c' ∧ tree = tree' := by
  induction h with
  | here hprovides hread =>
      cases h' with
      | here hprovides' hread' =>
          rw [Except.ok.inj (hread.symm.trans hread')]
          exact ⟨hprovides.unique hprovides', rfl⟩
      | failed hnone => exact (hnone _ _ hprovides hread).elim
      | later hother => exact (hother rfl).elim
  | failed hnone _ ih =>
      cases h' with
      | here hprovides' hread' => exact (hnone _ _ hprovides' hread').elim
      | failed _ hpast => exact ih hpast
      | later hother => exact (hother rfl).elim
  | later hother _ ih => exact ih ((compiled_cons_iff hother).1 h')

/-! ## What a history does not depend on -/

variable {past' : History} {entry : Setting × Command}

theorem Built.of_tail (h : past.Built id c → past'.Built id c) (hbuilt : Built id (entry :: past) c) :
    Built id (entry :: past') c := by
  cases hbuilt with
  | here hbuilt => exact .here hbuilt
  | failed hnone hpast => exact .failed hnone (h hpast)
  | later hother hpast => exact .later hother (h hpast)

theorem Compiled.of_tail (hprovides : ∀ setting interpreter c,
      past.Provides setting interpreter c ↔ past'.Provides setting interpreter c)
    (h : past.Compiled id c tree → past'.Compiled id c tree) (hcompiled : Compiled id (entry :: past) c tree) :
    Compiled id (entry :: past') c tree := by
  cases hcompiled with
  | here hinterpreter hread => exact .here ((hprovides _ _ _).1 hinterpreter) hread
  | failed hnone hpast =>
      exact .failed (fun c' reading hinterpreter => hnone c' reading ((hprovides _ _ _).2 hinterpreter)) (h hpast)
  | later hother hpast => exact .later hother (h hpast)

theorem built_filter_iff (past : History) : Built id (past.filter (·.2.defines)) c ↔ past.Built id c := by
  induction past with
  | nil => exact Iff.rfl
  | cons entry past ih =>
      by_cases hdefines : entry.2.defines = true
      · rw [List.filter_cons_of_pos (by simpa using hdefines)]
        exact ⟨.of_tail ih.1, .of_tail ih.2⟩
      · have hbuilds : entry.2.builds ≠ some id := by
          intro hbuilds
          simp [Command.defines, hbuilds] at hdefines
        rw [List.filter_cons_of_neg (by simpa using hdefines), built_cons_iff hbuilds, ih]

theorem provides_filter_iff (past : History) (interpreter : Option String) :
    Provides (past.filter (·.2.defines)) setting interpreter c ↔ past.Provides setting interpreter c := by
  cases interpreter with
  | some id => exact built_filter_iff past
  | none => exact Iff.rfl

theorem compiled_filter_iff (past : History) :
    Compiled id (past.filter (·.2.defines)) c tree ↔ past.Compiled id c tree := by
  induction past with
  | nil => exact Iff.rfl
  | cons entry past ih =>
      by_cases hdefines : entry.2.defines = true
      · rw [List.filter_cons_of_pos (by simpa using hdefines)]
        exact ⟨.of_tail (fun _ interpreter _ => provides_filter_iff past interpreter) ih.1,
          .of_tail (fun _ interpreter _ => (provides_filter_iff past interpreter).symm) ih.2⟩
      · have hcompiles : entry.2.compiles ≠ some id := by
          intro hcompiles
          simp [Command.defines, hcompiles] at hdefines
        rw [List.filter_cons_of_neg (by simpa using hdefines), compiled_cons_iff hcompiles, ih]

end History

namespace Session
variable {s : Session} {past : History}

namespace Tells
variable {α β : Type} {entries : List (String × α)} {means means' : String → β → Prop} {isFor : α → β → Prop}

theorem nil (h : ∀ id b, ¬ means id b) : Tells [] means isFor where
  found ha := by cases ha
  missing _ := h _

theorem congr (h : Tells entries means isFor) (hmeans : ∀ id b, means' id b ↔ means id b) :
    Tells entries means' isFor where
  found ha := by
    obtain ⟨b, hb, hfor⟩ := h.found ha
    exact ⟨b, (hmeans _ b).2 hb, hfor⟩
  missing ha b hb := h.missing ha b ((hmeans _ b).1 hb)

/-- A new entry may give a name another meaning. -/
theorem cons (h : Tells entries means isFor) {name : String} {a : α} {b : β} (hb : means' name b) (hfor : isFor a b)
    (hmeans : ∀ id, name ≠ id → ∀ b, means' id b ↔ means id b) : Tells ((name, a) :: entries) means' isFor where
  found {id a'} ha := by
    by_cases hid : name = id
    · subst hid
      rw [List.lookup_cons_self] at ha
      obtain rfl := Option.some.inj ha
      exact ⟨b, hb, hfor⟩
    · rw [List.lookup_cons, beq_false_of_ne (Ne.symm hid)] at ha
      obtain ⟨b', hb', hfor'⟩ := h.found ha
      exact ⟨b', (hmeans id hid b').2 hb', hfor'⟩
  missing {id} ha b' hb' := by
    by_cases hid : name = id
    · subst hid
      rw [List.lookup_cons_self] at ha
      cases ha
    · rw [List.lookup_cons, beq_false_of_ne (Ne.symm hid)] at ha
      exact h.missing ha b' ((hmeans id hid b').1 hb')

end Tells

theorem records_start : Records start [] where
  interpreters := .nil fun _ _ h => by cases h
  rules := .nil fun _ _ h => by cases h

theorem Records.interpreterFor_ok (h : s.Records past) {setting : Setting} {interpreter : Option String}
    {i : Interpreter} (hi : s.interpreterFor setting interpreter = .ok i) :
    ∃ c, past.Provides setting interpreter c ∧ i.Has c := by
  cases interpreter with
  | some id =>
      rw [interpreterFor] at hi
      split at hi
      · next hlookup =>
          obtain rfl := Except.ok.inj hi
          exact h.interpreters.found hlookup
      · cases hi
  | none =>
      rw [interpreterFor] at hi
      split at hi
      · next hnew =>
          obtain rfl := Except.ok.inj hi
          exact Interpreter.exists_isBuilt none hnew
      · cases hi

theorem Records.interpreterFor_error (h : s.Records past) {setting : Setting} {interpreter : Option String}
    {answer : Answer} (hi : s.interpreterFor setting interpreter = .error answer) (c : Configuration) :
    ¬ past.Provides setting interpreter c := by
  cases interpreter with
  | some id =>
      rw [interpreterFor] at hi
      split at hi
      · cases hi
      · next hlookup => exact h.interpreters.missing hlookup c
  | none =>
      rw [interpreterFor] at hi
      split at hi
      · cases hi
      · next hnew => exact Interpreter.not_isBuilt none hnew c

/-- A command that neither builds nor compiles leaves what is recorded. -/
theorem Records.cons_of_keeps (h : s.Records past) {s' : Session} {setting : Setting} {command : Command}
    (hinterpreters : s'.interpreters = s.interpreters) (hrules : s'.rules = s.rules)
    (hbuilds : command.builds = none) (hcompiles : command.compiles = none) :
    s'.Records ((setting, command) :: past) where
  interpreters := hinterpreters ▸ h.interpreters.congr fun _ _ => History.built_cons_iff (by simp [hbuilds])
  rules := hrules ▸ h.rules.congr fun _ _ => History.compiled_cons_iff (by simp [hcompiles])

theorem Records.build (h : s.Records past) (host : Host) (setting : Setting) (other : String)
    (vars : List (Value × Value)) (given : Option (Option Int)) :
    (s.step host setting (.build other vars given)).1.Records ((setting, .build other vars given) :: past) := by
  have hrules (id : String) (p : Configuration × Value) :
      History.Compiled id ((setting, .build other vars given) :: past) p.1 p.2 ↔ past.Compiled id p.1 p.2 :=
    History.compiled_cons_iff (by simp [Command.compiles])
  rw [step]
  cases hnew : (do Interpreter.new vars (← given.elim setting.ceiling .ok)) with
  | error f =>
      have hnone := Interpreter.not_isBuilt given hnew
      exact ⟨h.interpreters.congr fun _ _ => History.built_cons_of_failed hnone, h.rules.congr hrules⟩
  | ok i =>
      obtain ⟨c, hbuilt, hhas⟩ := Interpreter.exists_isBuilt given hnew
      refine ⟨h.interpreters.cons (.here hbuilt) hhas fun id hid c => ?_, h.rules.congr hrules⟩
      exact History.built_cons_iff (by simpa [Command.builds] using hid)

theorem Records.compile (h : s.Records past) (host : Host) (setting : Setting) (other : String)
    (source interpreter : Option String) : (s.step host setting (.compile other source interpreter)).1.Records
      ((setting, .compile other source interpreter) :: past) := by
  have hinterpreters (id : String) (c : Configuration) :
      History.Built id ((setting, .compile other source interpreter) :: past) c ↔ past.Built id c :=
    History.built_cons_iff (by simp [Command.builds])
  rw [step]
  cases hinterpreter : s.interpreterFor setting interpreter with
  | error answer =>
      have hnone := h.interpreterFor_error hinterpreter
      exact ⟨h.interpreters.congr hinterpreters, h.rules.congr fun _ _ =>
        History.compiled_cons_of_failed fun c _ hprovides => (hnone c hprovides).elim⟩
  | ok i =>
      obtain ⟨c, hprovides, hhas⟩ := h.interpreterFor_ok hinterpreter
      cases hread : Tree.read source with
      | error f =>
          simp only [Interpreter.compile, hread, Except.map]
          refine ⟨h.interpreters.congr hinterpreters, h.rules.congr fun _ _ =>
            History.compiled_cons_of_failed fun c reading _ hok => ?_⟩
          rw [hread] at hok
          cases hok
      | ok reading =>
          simp only [Interpreter.compile, hread, Except.map]
          refine ⟨h.interpreters.congr hinterpreters,
            h.rules.cons (b := (c, reading.tree)) (.here hprovides hread) ⟨rfl, hhas⟩ fun id hid p => ?_⟩
          exact History.compiled_cons_iff (by simpa [Command.compiles] using hid)

/-- One step: a command adds to a session what it adds to the history. -/
theorem Records.step (h : s.Records past) (host : Host) (setting : Setting) (command : Command) :
    (s.step host setting command).1.Records ((setting, command) :: past) := by
  cases command with
  | build other vars ceiling => exact h.build host setting other vars ceiling
  | compile other source interpreter => exact h.compile host setting other source interpreter
  | lookup interpreter name =>
      rw [Session.step]
      split <;> exact h.cons_of_keeps rfl rfl rfl rfl
  | call rule vars =>
      rw [Session.step]
      split <;> exact h.cons_of_keeps rfl rfl rfl rfl
  | run source vars interpreter =>
      rw [Session.step]
      split <;> exact h.cons_of_keeps rfl rfl rfl rfl
  | print rule =>
      rw [Session.step]
      split
      · split <;> exact h.cons_of_keeps rfl rfl rfl rfl
      · exact h.cons_of_keeps rfl rfl rfl rfl

/-- A run adds the commands one after the other. -/
theorem Records.steps (h : s.Records past) (host : Host) (commands : List (Setting × Command)) :
    (s.steps host commands).1.Records (commands.reverse ++ past) := by
  induction commands generalizing s past with
  | nil => exact h
  | cons entry commands ih =>
      obtain ⟨setting, command⟩ := entry
      rw [List.reverse_cons, List.append_assoc, List.singleton_append]
      exact ih (h.step host setting command)

/-- An answer is that of a step from the session that was left before. -/
theorem getElem?_steps (host : Host) (s : Session) (before after : List (Setting × Command)) (setting : Setting)
    (command : Command) : (s.steps host (before ++ (setting, command) :: after)).2[before.length]? =
      some ((s.steps host before).1.step host setting command).2 := by
  induction before generalizing s with
  | nil => rfl
  | cons entry before ih => exact ih (s.step host entry.1 entry.2).1

/-- A command that calls nothing reads nothing. -/
theorem readings_step (s : Session) (host : Host) (setting : Setting) (command : Command)
    (h : ∀ o, (s.step host setting command).2 ≠ .outcome o) :
    (s.step host setting command).1.readings = s.readings := by
  cases command with
  | build | lookup =>
      rw [step]
      split <;> rfl
  | compile =>
      rw [step]
      split
      · rfl
      · split <;> rfl
  | print =>
      rw [step]
      split
      · split <;> rfl
      · rfl
  | call =>
      rw [step] at h ⊢
      split
      · next hlookup =>
          rw [hlookup] at h
          exact (h _ rfl).elim
      · rfl
  | run =>
      rw [step] at h ⊢
      split
      · rfl
      · next hinterpreter =>
          rw [hinterpreter] at h
          exact (h _ rfl).elim

theorem Records.call (h : s.Records past) (host : Host) (setting : Setting) {rule : String} {c : Configuration}
    {tree : Value} (hcompiled : past.Compiled rule c tree) (vars : List (Value × Value)) :
    ∃ o, s.step host setting (.call rule vars) = s.answering o ∧ o.IsCall host s.readings c tree vars := by
  rw [Session.step]
  cases hlookup : s.rules.lookup rule with
  | none => exact (h.rules.missing hlookup (c, tree) hcompiled).elim
  | some r =>
      obtain ⟨⟨c', tree'⟩, hcompiled', htree, hhas⟩ := h.rules.found hlookup
      obtain ⟨rfl, rfl⟩ := hcompiled.unique (htree ▸ hcompiled')
      exact ⟨_, rfl, Rule.isCall_callAfter host s.readings hhas vars⟩

theorem Records.run (h : s.Records past) (host : Host) (setting : Setting) {interpreter : Option String}
    {c : Configuration} (hprovides : past.Provides setting interpreter c) {source : Option String}
    {reading : Tree.Reading} (hread : Tree.read source = .ok reading) (vars : List (Value × Value)) :
    ∃ o, s.step host setting (.run source vars interpreter) = s.answering o ∧
      o.IsCall host s.readings c reading.tree vars := by
  rw [Session.step]
  cases hinterpreter : s.interpreterFor setting interpreter with
  | error answer => exact (h.interpreterFor_error hinterpreter c hprovides).elim
  | ok i =>
      obtain ⟨c', hprovides', hhas⟩ := h.interpreterFor_ok hinterpreter
      obtain rfl := hprovides.unique hprovides'
      have hcompile : i.compile source = .ok ⟨i, source, reading⟩ := by
        rw [Interpreter.compile, hread]
        rfl
      refine ⟨_, rfl, ?_⟩
      rw [Interpreter.runAfter, hcompile]
      exact Rule.isCall_callAfter (r := ⟨i, source, reading⟩) host s.readings hhas vars

end Session

/-- Calls do not influence each other. After any commands, a call answers with the evaluation of its tree on its own,
under the bindings and the ceiling that were fixed when the interpreter of the rule was built, and so does a source
that is compiled and called at once. Only the readings of time and chance go on from one call to the next. All commands
before could be left out that build no interpreter and compile no rule: the rule stands for the same tree and
configuration. -/
theorem calls_are_independent (host : Host) (before after : List (Setting × Command)) (setting : Setting) :
    let session := (Session.start.steps host before).1
    let answer (command : Command) :=
      (Session.start.steps host (before ++ (setting, command) :: after)).2[before.length]?
    let readingsAfter (command : Command) := (session.step host setting command).1.readings
    (∀ rule vars c tree, History.Compiled rule before.reverse c tree →
      ∃ o : Outcome, answer (.call rule vars) = some (.outcome o) ∧ o.IsCall host session.readings c tree vars ∧
        readingsAfter (.call rule vars) = o.2.readings) ∧
    (∀ rule vars, (∀ c tree, ¬ History.Compiled rule before.reverse c tree) →
      answer (.call rule vars) = some (.unknown rule)) ∧
    (∀ source vars interpreter c reading, History.Provides before.reverse setting interpreter c →
      Tree.read source = .ok reading →
      ∃ o : Outcome, answer (.run source vars interpreter) = some (.outcome o) ∧
        o.IsCall host session.readings c reading.tree vars ∧
        readingsAfter (.run source vars interpreter) = o.2.readings) ∧
    (∀ command, (∀ o, answer command ≠ some (.outcome o)) → readingsAfter command = session.readings) ∧
    (∀ rule c tree c' tree', History.Compiled rule before.reverse c tree →
      History.Compiled rule before.reverse c' tree' → c = c' ∧ tree = tree') ∧
    ∀ rule c tree, History.Compiled rule (before.filter (·.2.defines)).reverse c tree ↔
      History.Compiled rule before.reverse c tree := by
  intro session answer readingsAfter
  have records := Session.records_start.steps host before
  rw [List.append_nil] at records
  have hanswer (command : Command) : answer command = some (session.step host setting command).2 :=
    Session.getElem?_steps host .start before after setting command
  refine ⟨fun rule vars c tree hcompiled => ?_, fun rule vars hnone => ?_,
    fun source vars interpreter c reading hprovides hread => ?_, fun command hother => ?_,
    fun rule c tree c' tree' h h' => h.unique h', fun rule c tree => ?_⟩
  · obtain ⟨o, hstep, hcall⟩ := records.call host setting hcompiled vars
    exact ⟨o, by rw [hanswer, hstep]; rfl, hcall, congrArg (·.1.readings) hstep⟩
  · rw [hanswer, Session.step]
    cases hlookup : session.rules.lookup rule with
    | none => rfl
    | some r =>
        obtain ⟨p, hcompiled, -⟩ := records.rules.found hlookup
        exact (hnone p.1 p.2 hcompiled).elim
  · obtain ⟨o, hstep, hcall⟩ := records.run host setting hprovides hread vars
    exact ⟨o, by rw [hanswer, hstep]; rfl, hcall, congrArg (·.1.readings) hstep⟩
  · exact session.readings_step host setting command fun o ho => hother o (by rw [hanswer, ho])
  · rw [← List.filter_reverse]
    exact History.compiled_filter_iff before.reverse

/-- A host of which the first reading of chance is zero and all others are infinite. -/
def Host.drawing : Host where
  call _ _ _ := ([], .ok .nil)
  plan _ _ := .fail .argumentCount
  now _ := ⟨⟨2000, 1, 1, by decide⟩, .midnight, some .utc⟩
  random readings := if readings = 0 then .zero false else .infinite false

/-- An interpreter with the ceiling of its setting, a rule, and a call under another setting, which fails after it has
taken a reading. -/
def Session.drawing : List (Setting × Command) :=
  [(⟨"MAX_OPS", some " 9"⟩, .build "i" [(.text "a", .int 1)] none),
    (⟨"MAX_OPS", none⟩, .compile "r" (some "(array (rand) a b)") (some "i")),
    (⟨"MAX_OPS", some "1"⟩, .call "r" [])]

/-- The outcome that is answered, if it is one. -/
def Answer.outcome? : Answer → Option Outcome
  | .outcome o => some o
  | _ => none

/-- A call behind these commands takes the next reading, has the bindings of both, and counts anew under the ceiling
that was fixed. -/
theorem calls_are_independent_drawing :
    let c : Configuration := ⟨[(.text "a", .int 1)], some 9⟩
    let vars : List (Value × Value) := [(.text "b", .int 2)]
    ∃ tree o, History.Compiled "r" Session.drawing.reverse c tree ∧
      (Session.start.steps .drawing (Session.drawing ++ [(⟨"MAX_OPS", some "1"⟩, .call "r" vars)])).2[3]? =
        some (.outcome o) ∧
      o.IsCall .drawing 1 c tree vars ∧ o.1 = .ok (.list [.float (.infinite false), .int 1, .int 2]) ∧
      o.2.operations = 6 := by
  intro c vars
  have hdenotes : Setting.Denotes ⟨"MAX_OPS", some " 9"⟩ 9 := (Setting.denotes_iff rfl).2 (by decide +kernel)
  have hbuilt : c.IsBuilt ⟨"MAX_OPS", some " 9"⟩ [(.text "a", .int 1)] none :=
    ⟨rfl, by decide, nofun, fun _ => .denoted (by decide) hdenotes⟩
  obtain ⟨reading, hread⟩ : ∃ reading, Tree.read (some "(array (rand) a b)") = .ok reading := by
    have hok : (Tree.read (some "(array (rand) a b)")).toOption.isSome = true := by decide +kernel
    cases hread : Tree.read (some "(array (rand) a b)") with
    | ok reading => exact ⟨reading, rfl⟩
    | error f =>
        rw [hread] at hok
        cases hok
  have hcompiled : History.Compiled "r" Session.drawing.reverse c reading.tree :=
    .later (by decide) (.here (.here hbuilt) hread)
  have hreadings : (Session.start.steps .drawing Session.drawing).1.readings = 1 := by decide +kernel
  have hresult : ((Session.start.steps .drawing (Session.drawing ++
      [(⟨"MAX_OPS", some "1"⟩, .call "r" vars)])).2[3]?.bind Answer.outcome?).map
        (fun o => (o.1.toOption, o.2.operations)) =
      some (some (.list [.float (.infinite false), .int 1, .int 2]), 6) := by decide +kernel
  obtain ⟨o, hanswer, hcall, -⟩ := (calls_are_independent .drawing Session.drawing [] ⟨"MAX_OPS", some "1"⟩).1
    "r" vars c reading.tree hcompiled
  rw [hreadings] at hcall
  replace hanswer : (Session.start.steps .drawing (Session.drawing ++
      [(⟨"MAX_OPS", some "1"⟩, .call "r" vars)])).2[3]? = some (.outcome o) := hanswer
  rw [hanswer, Option.bind_some, Answer.outcome?, Option.map_some] at hresult
  obtain ⟨hvalue, hoperations⟩ := Prod.mk.inj (Option.some.inj hresult)
  refine ⟨reading.tree, o, hcompiled, hanswer, hcall, ?_, hoperations⟩
  cases hr : o.1 with
  | ok v =>
      rw [hr] at hvalue
      exact congrArg Except.ok (Option.some.inj hvalue)
  | error e =>
      rw [hr] at hvalue
      cases hvalue

end RuleExpr
