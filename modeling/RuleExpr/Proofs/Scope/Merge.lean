import RuleExpr.Interpreter

/-!
# Merged frames

A stack of frames shows the same bindings as the one frame in which later frames replace the bindings of earlier
ones (`lookup?_merge`). The frame in which a rule is called is merged in this way from three frames: the registry,
the bindings of the interpreter and those of the call.
-/
namespace RuleExpr

namespace Scope

theorem lookup?_empty (name : String) : lookup? ⟨[]⟩ name = none := rfl

theorem lookup?_cons (f : Frame) (frames : List Frame) (name : String) :
    lookup? ⟨f :: frames⟩ name = (f.lookup? name).or (lookup? ⟨frames⟩ name) := by
  have hfind : find? ⟨f :: frames⟩ name = if f.binds name then some f else find? ⟨frames⟩ name :=
    find?_push ⟨frames⟩ f name
  unfold lookup?
  rw [hfind]
  cases h : f.lookup? name with
  | none => simp [Frame.binds, h]
  | some v => simp [Frame.binds, h]

theorem lookup?_append (upper lower : List Frame) (name : String) :
    lookup? ⟨upper ++ lower⟩ name = (lookup? ⟨upper⟩ name).or (lookup? ⟨lower⟩ name) := by
  induction upper with
  | nil => rw [lookup?_empty, List.nil_append, Option.none_or]
  | cons f frames ih => rw [List.cons_append, lookup?_cons, lookup?_cons, ih, Option.or_assoc]

theorem contains_eq (s : Scope) (name : String) : s.contains name = (s.lookup? name).isSome := by
  unfold contains lookup?
  cases h : s.find? name with
  | none => rfl
  | some f =>
      have hfound : s.frames.find? (·.binds name) = some f := h
      have hbinds := List.find?_some hfound
      exact hbinds.symm

end Scope

namespace Frame

/-- The frames, listed from the outermost to the innermost, as one frame. -/
def merge (frames : List Frame) : Frame :=
  frames.foldl overlay empty

theorem lookup?_foldl_overlay (f : Frame) (frames : List Frame) (name : String) :
    (frames.foldl overlay f).lookup? name = ((Scope.ofFrames frames).lookup? name).or (f.lookup? name) := by
  induction frames generalizing f with
  | nil => exact Option.none_or.symm
  | cons g frames ih =>
      have hstack : (Scope.ofFrames (g :: frames)).lookup? name =
          ((Scope.ofFrames frames).lookup? name).or (g.lookup? name) := by
        rw [Scope.ofFrames, List.reverse_cons, Scope.lookup?_append, Scope.lookup?_cons, Scope.lookup?_empty,
          Option.or_none, Scope.ofFrames]
      rw [List.foldl_cons, ih, lookup?_overlay, hstack, Option.or_assoc]

theorem lookup?_merge (frames : List Frame) (name : String) :
    (merge frames).lookup? name = (Scope.ofFrames frames).lookup? name := by
  rw [merge, lookup?_foldl_overlay, lookup?_empty, Option.or_none]

theorem empty_overlay (f : Frame) : empty.overlay f = f :=
  congrArg Frame.mk (List.append_nil f.bindings)

/-- The value of the last pair of which the key has the name as its text. -/
def lastOf (pairs : List (Value × Value)) (name : String) : Option Value :=
  (pairs.reverse.find? fun p => (nameOfKey p.1).toOption == some name).map (·.2)

theorem lastOf_cons (p : Value × Value) (pairs : List (Value × Value)) (name : String) :
    lastOf (p :: pairs) name =
      (lastOf pairs name).or (if (nameOfKey p.1).toOption = some name then some p.2 else none) := by
  rw [lastOf, List.reverse_cons, List.find?_append, Option.map_or, lastOf, List.find?_singleton]
  by_cases h : (nameOfKey p.1).toOption = some name
  · simp [h]
  · simp [h]

theorem lookup?_foldl_bind {pairs : List (Value × Value)} {bindings : List (String × Value)}
    (h : bindingsOfPairs pairs = .ok bindings) (f : Frame) (name : String) :
    (bindings.foldl (fun f b => f.bind b.1 b.2) f).lookup? name = (lastOf pairs name).or (f.lookup? name) := by
  induction pairs generalizing bindings f with
  | nil =>
      obtain rfl := Except.ok.inj h
      exact Option.none_or.symm
  | cons p pairs ih =>
      obtain ⟨key, hkey, hpair⟩ := bind_eq_ok_iff.1 h
      obtain ⟨rest, hrest, hbindings⟩ := bind_eq_ok_iff.1 hpair
      obtain rfl := Except.ok.inj hbindings
      have hcond : (name = key) = ((nameOfKey p.1).toOption = some name) := by
        rw [hkey]
        exact propext ⟨fun h => h ▸ rfl, fun h => (Option.some.inj h).symm⟩
      rw [List.foldl_cons, ih hrest, lookup?_bind, lastOf_cons, Option.or_assoc]
      simp only [hcond]
      split <;> rfl

/-- Of the pairs of which the key has the same text, the last one counts. -/
theorem lookup?_ofKeyed {pairs : List (Value × Value)} {f : Frame} (h : ofKeyed pairs = .ok f) (name : String) :
    f.lookup? name = lastOf pairs name := by
  obtain ⟨bindings, hpairs, rfl⟩ := map_eq_ok_iff.1 h
  rw [ofPairs, lookup?_foldl_bind hpairs, lookup?_empty, Option.or_none]

end Frame

/-- A rule is called in the registry, the bindings of its interpreter and those of the call, merged in this order. -/
theorem Rule.frame_eq_merge {vars : List (Value × Value)} {ceiling : Option Int} {i : Interpreter}
    {source : Option String} {r : Rule} (hi : Interpreter.new vars ceiling = .ok i) (hr : i.compile source = .ok r) :
    r.interpreter.ceiling = ceiling ∧ ∃ inst, Frame.ofKeyed vars = .ok inst ∧
      ∀ call, r.frame call = Frame.merge [Registry.defaults, inst, call] := by
  obtain ⟨inst, hinst, rfl⟩ := map_eq_ok_iff.1 hi
  obtain ⟨reading, -, rfl⟩ := map_eq_ok_iff.1 hr
  refine ⟨rfl, inst, hinst, fun call => ?_⟩
  rw [Frame.merge, List.foldl_cons, Frame.empty_overlay]
  rfl

end RuleExpr
