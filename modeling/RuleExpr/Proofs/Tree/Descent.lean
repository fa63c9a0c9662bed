import RuleExpr.Proofs.Tree.Gather

/-!
# Reading lists by descent

A list can be read without a stack: a list among its items is read by the same rule, one list deeper, and the items
behind it are read on where it ended. `ofLexemes_eq_descend` says that the reader with its stack of open lists does
the same for all lexemes, also where parentheses are missing or left over, with the same tree, the same lexemes left
and the same fault. The fault is always that of the first lexeme that cannot be read.
-/
namespace RuleExpr.Tree
open Lexeme

/-- What is left of lexemes that are read from the front. -/
abbrev Rest (ls : List Lexeme) := { rest : List Lexeme // rest.length ≤ ls.length }

mutual

/-- Reads a list whose parenthesis was taken, inside of so many open lists. -/
def descendList (limit : Int) (opened : Nat) (ls : List Lexeme) : Except Fault (Value × Rest ls) :=
  if limit ≤ opened then .error (.tooDeep limit)
  else do
    let (items, rest) ← descendItems limit (opened + 1) ls
    return (.tuple items, rest)
termination_by (ls.length, 1)

/-- Reads the items that are still to come in the innermost of so many open lists, and its end. -/
def descendItems (limit : Int) (opened : Nat) : (ls : List Lexeme) → Except Fault (List Value × Rest ls)
  | [] => .ok ([], ⟨[], Nat.le_refl _⟩)
  | l :: ls =>
    match l.kind with
    | .closeList => .ok ([], ⟨ls, Nat.le_succ _⟩)
    | .openList => do
      let (list, ⟨rest, hlist⟩) ← descendList limit opened ls
      let (items, ⟨rest, hrest⟩) ← descendItems limit opened rest
      return (list :: items, ⟨rest, Nat.le_succ_of_le (hrest.trans hlist)⟩)
    | _ => do
      let leaf ← l.leaf
      let (items, ⟨rest, hrest⟩) ← descendItems limit opened ls
      return (leaf :: items, ⟨rest, Nat.le_succ_of_le hrest⟩)
termination_by ls => (ls.length, 0)

end

/-- Reads one expression off the front of a list of lexemes by descent. -/
def descend (limit : Int) : List Lexeme → Except Fault (Value × List Lexeme)
  | [] => .ok (.tuple [], [])
  | l :: ls =>
    match l.kind with
    | .openList => (descendList limit 0 ls).map fun (list, rest) => (list, rest)
    | .closeList => .ok (.tuple [], ls)
    | _ => l.leaf.map fun leaf => (.tuple [leaf], ls)

variable {limit : Int} {opened : Nat} {items : List Value} {outer : List (List Value)} {l : Lexeme}
  {ls : List Lexeme}

theorem descend_of_open (h : l.kind = .openList) :
    descend limit (l :: ls) = (descendList limit 0 ls).map fun (list, rest) => (list, rest.1) := by
  rw [descend, h]

theorem descend_of_close (h : l.kind = .closeList) : descend limit (l :: ls) = .ok (.tuple [], ls) := by
  rw [descend, h]

theorem descend_of_leaf (hopen : l.kind ≠ .openList) (hclose : l.kind ≠ .closeList) :
    descend limit (l :: ls) = l.leaf.map fun leaf => (.tuple [leaf], ls) := by
  rw [descend]
  split
  · next h => exact (hopen h).elim
  · next h => exact (hclose h).elim
  · rfl

theorem descendItems_of_close (h : l.kind = .closeList) :
    descendItems limit opened (l :: ls) = .ok ([], ⟨ls, Nat.le_succ _⟩) := by
  rw [descendItems, h]

theorem descendItems_of_open (h : l.kind = .openList) : descendItems limit opened (l :: ls) = (do
    let (list, ⟨rest, hlist⟩) ← descendList limit opened ls
    let (items, ⟨rest, hrest⟩) ← descendItems limit opened rest
    return (list :: items, ⟨rest, Nat.le_succ_of_le (hrest.trans hlist)⟩)) := by
  rw [descendItems, h]

theorem descendItems_of_leaf (hopen : l.kind ≠ .openList) (hclose : l.kind ≠ .closeList) :
    descendItems limit opened (l :: ls) = (do
      let leaf ← l.leaf
      let (items, ⟨rest, hrest⟩) ← descendItems limit opened ls
      return (leaf :: items, ⟨rest, Nat.le_succ_of_le hrest⟩)) := by
  rw [descendItems]
  split
  · next h => exact (hclose h).elim
  · next h => exact (hopen h).elim
  · rfl

/-! ## The stack of waiting lists -/

/-- Goes on behind a list that has come to its end, in the list that waits for it. -/
def resume (limit : Int) (list : List Value) (rest : List Lexeme) :
    (outer : List (List Value)) → Except Fault (Value × List Lexeme)
  | [] => .ok (.tuple list, rest)
  | enclosing :: outer => gather limit (.tuple list :: enclosing) outer rest

theorem gather_nil : gather limit items outer [] = resume limit items.reverse [] outer := by
  cases outer with
  | nil => rfl
  | cons enclosing outer => rw [resume, gather, gather, closeAll]

theorem gather_of_close (h : l.kind = .closeList) :
    gather limit items outer (l :: ls) = resume limit items.reverse ls outer := by
  cases outer with
  | nil => exact gather_of_close_last h
  | cons enclosing outer => exact gather_of_close_inner h enclosing

/-- A state of the reader is a descent into the innermost list, for whose end the enclosing lists wait. -/
theorem gather_eq_descendItems (limit : Int) (items : List Value) (outer : List (List Value)) (ls : List Lexeme) :
    gather limit items outer ls = (do
      let (more, rest) ← descendItems limit (outer.length + 1) ls
      resume limit (items.reverse ++ more) rest outer) := by
  match ls with
  | [] =>
      rw [gather_nil, descendItems]
      exact (congrArg (resume limit · [] outer) (List.append_nil _)).symm
  | l :: ls =>
      by_cases hopen : l.kind = .openList
      · rw [gather_of_open hopen, descendItems_of_open hopen, descendList]
        by_cases hroom : limit ≤ outer.length + 1
        · rw [if_pos hroom, if_pos (by exact_mod_cast hroom)]
          rfl
        · rw [if_neg hroom, if_neg (by exact_mod_cast hroom), gather_eq_descendItems limit [] (items :: outer) ls,
            List.length_cons]
          cases descendItems limit (outer.length + 1 + 1) ls with
          | error f => rfl
          | ok r =>
              obtain ⟨list, rest, hlist⟩ := r
              have hnext := gather_eq_descendItems limit (.tuple list :: items) outer rest
              simp only [bind, Except.bind, pure, Except.pure, resume, List.reverse_nil, List.nil_append] at hnext ⊢
              rw [hnext]
              cases descendItems limit (outer.length + 1) rest with
              | error f => rfl
              | ok r => simp only [List.reverse_cons, List.append_assoc, List.singleton_append]
      · by_cases hclose : l.kind = .closeList
        · rw [gather_of_close hclose, descendItems_of_close hclose]
          exact (congrArg (resume limit · ls outer) (List.append_nil _)).symm
        · rw [gather_of_leaf hopen hclose, descendItems_of_leaf hopen hclose]
          cases l.leaf with
          | error f => rfl
          | ok leaf =>
              have hnext := gather_eq_descendItems limit (leaf :: items) outer ls
              simp only [bind, Except.bind, pure, Except.pure] at hnext ⊢
              rw [hnext]
              cases descendItems limit (outer.length + 1) ls with
              | error f => rfl
              | ok r => simp only [List.reverse_cons, List.append_assoc, List.singleton_append]
termination_by ls.length

/-! ## The first fault -/

/-- Whether a lexeme can be the cause of a fault: as a list beyond the limit or as a leaf without a value. -/
def IsCause (limit : Int) (f : Fault) (l : Lexeme) : Prop :=
  (l.kind = .openList ∧ f = .tooDeep limit) ∨
    (l.kind ≠ .openList ∧ l.kind ≠ .closeList ∧ l.leaf = .error f)

theorem gather_eq_error {f : Fault} (h : gather limit items outer ls = .error f) :
    ∃ before l after, ls = before ++ l :: after ∧ IsCause limit f l ∧
      ∃ r, gather limit items outer before = .ok r := by
  fun_induction gather limit items outer ls with
  | case1 => cases h
  | case2 items outer l ls hopen hroom =>
      obtain rfl := Except.error.inj h
      exact ⟨[], l, ls, rfl, .inl ⟨hopen, rfl⟩, _, rfl⟩
  | case3 items outer l ls hopen hroom ih =>
      obtain ⟨before, cause, after, rfl, hcause, r, hr⟩ := ih h
      refine ⟨l :: before, cause, after, rfl, hcause, r, ?_⟩
      rw [gather_of_open hopen, if_neg hroom, hr]
  | case4 => cases h
  | case5 items l ls hclose enclosing outer ih =>
      obtain ⟨before, cause, after, rfl, hcause, r, hr⟩ := ih h
      refine ⟨l :: before, cause, after, rfl, hcause, r, ?_⟩
      rw [gather_of_close hclose, resume, hr]
  | case6 items outer l ls fault hleaf hopen hclose =>
      obtain rfl := Except.error.inj h
      exact ⟨[], l, ls, rfl, .inr ⟨hopen, hclose, hleaf⟩, _, rfl⟩
  | case7 items outer l ls leaf hleaf hopen hclose ih =>
      obtain ⟨before, cause, after, rfl, hcause, r, hr⟩ := ih h
      refine ⟨l :: before, cause, after, rfl, hcause, r, ?_⟩
      rw [gather_of_leaf hopen hclose, hleaf]
      exact hr

/-- Reading with a stack of open lists is reading by descent, and what fails is the first lexeme that cannot be
read. -/
theorem ofLexemes_eq_descend {limit : Int} (hlimit : 1 ≤ limit) (ls : List Lexeme) :
    ofLexemes limit ls = descend limit ls ∧
      ∀ f, ofLexemes limit ls = .error f → ∃ before l after, ls = before ++ l :: after ∧ IsCause limit f l ∧
        ∃ r, ofLexemes limit before = .ok r := by
  cases ls with
  | nil =>
      refine ⟨rfl, fun f hf => ?_⟩
      cases hf
  | cons l ls =>
      by_cases hopen : l.kind = .openList
      · rw [ofLexemes_of_open hopen, descend_of_open hopen]
        constructor
        · rw [gather_eq_descendItems, descendList, if_neg (by omega)]
          cases descendItems limit (0 + 1) ls with
          | error f => rfl
          | ok r => rfl
        · intro f hf
          obtain ⟨before, cause, after, rfl, hcause, r, hr⟩ := gather_eq_error hf
          refine ⟨l :: before, cause, after, rfl, hcause, r, ?_⟩
          rw [ofLexemes_of_open hopen, hr]
      · by_cases hclose : l.kind = .closeList
        · rw [ofLexemes_of_close hclose, descend_of_close hclose]
          refine ⟨rfl, fun f hf => ?_⟩
          cases hf
        · rw [ofLexemes_of_leaf hopen hclose, descend_of_leaf hopen hclose]
          refine ⟨rfl, fun f hf => ⟨[], l, ls, rfl, .inr ⟨hopen, hclose, ?_⟩, _, rfl⟩⟩
          cases hleaf : l.leaf with
          | error fault =>
              rw [hleaf] at hf
              exact congrArg Except.error (Except.error.inj hf)
          | ok leaf =>
              rw [hleaf] at hf
              cases hf

/-- Here a list is too deep and a date is none; the date comes first. -/
theorem ofLexemes_eq_descend_crossed :
    let ls : List Lexeme := [⟨.openList, "("⟩, ⟨.num, "1"⟩, ⟨.date, "soon"⟩, ⟨.openList, "("⟩]
    (1 : Int) ≤ 1 ∧ descend 1 ls = .error (.invalidDateTime "soon") ∧
      descend 1 (ls.take 2) = .ok (.tuple [.token .num (.int 1)], []) := by
  intro ls
  have hlimit : (1 : Int) ≤ 1 := by decide
  refine ⟨hlimit, ?_, ?_⟩
  · rw [← (ofLexemes_eq_descend hlimit ls).1]
    rfl
  · rw [← (ofLexemes_eq_descend hlimit (ls.take 2)).1]
    rfl

end RuleExpr.Tree
