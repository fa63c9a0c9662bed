import RuleExpr.Fault

/-!
# Frames and scopes

A frame binds names to values. A scope is a stack of frames in which the innermost frame that binds a name
decides, also when it binds the name to nil. `Frame.lookup?_bind` and `Frame.lookup?_overlay` say all that a
frame shows about its bindings.
-/

namespace RuleExpr

/-- Bindings of names. The first binding of a name counts, and the operations below keep only that one. -/
structure Frame where
  bindings : List (String × Value)
deriving DecidableEq, Repr

namespace Frame

def empty : Frame := ⟨[]⟩

def lookup? (f : Frame) (name : String) : Option Value :=
  (f.bindings.find? (·.1 == name)).map (·.2)

def binds (f : Frame) (name : String) : Bool :=
  (f.lookup? name).isSome

/-- The frame with one name bound anew. -/
def bind (f : Frame) (name : String) (v : Value) : Frame :=
  ⟨(name, v) :: f.bindings.filter (·.1 != name)⟩

/-- The frame with the bindings of another one in front of its own. -/
def overlay (f upper : Frame) : Frame :=
  ⟨upper.bindings ++ f.bindings.filter fun b => !upper.binds b.1⟩

/-- The frame of pairs of which a later one replaces an earlier one of the same name. -/
def ofPairs (pairs : List (String × Value)) : Frame :=
  pairs.foldl (fun f b => f.bind b.1 b.2) empty

def size (f : Frame) : Nat :=
  f.bindings.length

/-- The bindings in the order of their names. -/
def sorted (f : Frame) : List (String × Value) :=
  f.bindings.mergeSort fun a b => !(b.1 < a.1)

@[simp] theorem lookup?_empty (name : String) : empty.lookup? name = none := rfl

theorem find?_filter_ne (bs : List (String × Value)) (name other : String) (h : other ≠ name) :
    (bs.filter (·.1 != name)).find? (·.1 == other) = bs.find? (·.1 == other) := by
  induction bs with
  | nil => rfl
  | cons b bs ih =>
    by_cases hb : b.1 = name
    · have : ¬ b.1 = other := fun e => h (e.symm.trans hb)
      simp [hb, ih, Ne.symm h]
    · simp only [List.filter_cons, bne_iff_ne, ne_eq, hb, not_false_eq_true, ↓reduceIte,
        List.find?_cons, ih]

@[simp] theorem lookup?_bind (f : Frame) (name other : String) (v : Value) :
    (f.bind name v).lookup? other = if other = name then some v else f.lookup? other := by
  by_cases h : other = name
  · simp [lookup?, bind, h]
  · simp only [lookup?, bind, List.find?_cons, h, ↓reduceIte]
    have : (name == other) = false := by simpa using Ne.symm h
    simp only [this, find?_filter_ne _ _ _ h]

theorem find?_filter_not_binds (bs : List (String × Value)) (upper : Frame) (name : String)
    (h : upper.binds name = false) :
    (bs.filter fun b => !upper.binds b.1).find? (·.1 == name) = bs.find? (·.1 == name) := by
  induction bs with
  | nil => rfl
  | cons b bs ih =>
    by_cases hb : b.1 = name
    · simp [hb, h]
    · by_cases hu : upper.binds b.1 = true <;> simp [hb, hu, ih]

@[simp] theorem lookup?_overlay (f upper : Frame) (name : String) :
    (f.overlay upper).lookup? name = (upper.lookup? name).or (f.lookup? name) := by
  cases h : upper.bindings.find? (·.1 == name) with
  | some b => simp [lookup?, overlay, List.find?_append, h]
  | none =>
    have hb : upper.binds name = false := by simp [binds, lookup?, h]
    simp [lookup?, overlay, List.find?_append, h, find?_filter_not_binds _ _ _ hb]

end Frame

/-- A stack of frames, the innermost first. -/
structure Scope where
  frames : List Frame
deriving DecidableEq, Repr

namespace Scope

/-- The scope of frames listed from the outermost to the innermost. -/
def ofFrames (frames : List Frame) : Scope :=
  ⟨frames.reverse⟩

def depth (s : Scope) : Nat :=
  s.frames.length

/-- The scope with a new innermost frame. -/
def push (s : Scope) (f : Frame) : Scope :=
  ⟨f :: s.frames⟩

/-- The innermost frame and the scope without it. -/
def pop (s : Scope) : Except Fault (Frame × Scope) :=
  match s.frames with
  | [] => .error .noFrame
  | f :: frames => .ok (f, ⟨frames⟩)

/-- The innermost frame that binds a name. -/
def find? (s : Scope) (name : String) : Option Frame :=
  s.frames.find? (·.binds name)

def contains (s : Scope) (name : String) : Bool :=
  (s.find? name).isSome

/-- The value of a name in the innermost frame that binds it. -/
def lookup? (s : Scope) (name : String) : Option Value :=
  (s.find? name).bind (·.lookup? name)

def resolve (s : Scope) (name : String) : Except Fault Value :=
  match s.lookup? name with
  | some v => .ok v
  | none => .error (.undefinedName (.text name))

@[simp] theorem depth_push (s : Scope) (f : Frame) : (s.push f).depth = s.depth + 1 := rfl

@[simp] theorem pop_push (s : Scope) (f : Frame) : (s.push f).pop = .ok (f, s) := rfl

@[simp] theorem find?_push (s : Scope) (f : Frame) (name : String) :
    (s.push f).find? name = if f.binds name then some f else s.find? name := by
  simp only [find?, push, List.find?_cons]
  cases f.binds name <;> rfl

mutual

/-- Whether a value can serve as a key. Lists cannot, nor can what holds one. -/
def isKey : Value → Bool
  | .list _ => false
  | .tuple items => allKeys items
  | .token _ content => isKey content
  | _ => true

def allKeys : List Value → Bool
  | [] => true
  | v :: vs => isKey v && allKeys vs

end

/-- Whether a name is bound, for names that are any value. Only text is ever bound. -/
def binds (s : Scope) : Value → Except Fault Bool
  | .text name => .ok (s.contains name)
  | v => if isKey v || s.frames.isEmpty then .ok false else .error .unusableName

/-- The value of a name, for names that are any value. -/
def resolveValue (s : Scope) : Value → Except Fault Value
  | .text name => s.resolve name
  | v =>
    match s.binds v with
    | .ok _ => .error (Fault.undefinedName v).reported
    | .error f => .error f

@[simp] theorem resolveValue_text (s : Scope) (name : String) :
    s.resolveValue (.text name) = s.resolve name := rfl

/-- A frame by its names. -/
def frameShown (f : Frame) : String :=
  "\x7b" ++ ", ".intercalate (f.sorted.map (·.1)) ++ "\x7d"

/-- A scope by the names in its frames, the outermost frame first. -/
def shown (s : Scope) : String :=
  "<Environment frames: " ++ " <- ".intercalate (s.frames.reverse.map frameShown) ++ ">"

end Scope

/-- The name that a key stands for: its plain text. -/
def nameOfKey (key : Value) : Except Fault String :=
  if key.isWritable then .ok (String.ofList key.plain) else .error .tooManyDigits

/-- Pairs of keys and values as bindings. -/
def bindingsOfPairs : List (Value × Value) → Except Fault (List (String × Value))
  | [] => .ok []
  | (key, v) :: rest => do
    let name ← nameOfKey key
    let others ← bindingsOfPairs rest
    return (name, v) :: others

/-- The frame of pairs of keys and values. -/
def Frame.ofKeyed (pairs : List (Value × Value)) : Except Fault Frame :=
  (bindingsOfPairs pairs).map Frame.ofPairs

end RuleExpr
