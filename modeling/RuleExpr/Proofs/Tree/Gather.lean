import RuleExpr.Proofs.Lexeme.Cutting
import RuleExpr.Tree

/-!
# Reading lists

A state of the reader is the items of the innermost open list, in reverse, and the enclosing lists. What is read on
from a state extends it (`gather_extends`), and two different items at one place are never extended by one tree
(`Extends.injective`). Trees that were read nest no deeper than the limit (`gather_parsed`), so they may be read
again.
-/
namespace RuleExpr.Tree
open Lexeme

/-- Trees that nest lists at most so deep and whose leaves are those of lexemes. -/
inductive Parsed : Nat → Value → Prop
  | leaf {depth : Nat} {l : Lexeme} {v : Value} : HasShape l.kind l.text.toList → l.kind ≠ .openList →
      l.kind ≠ .closeList → l.leaf = .ok v → Parsed depth v
  | list {depth : Nat} {items : List Value} : (∀ v ∈ items, Parsed depth v) → Parsed (depth + 1) (.tuple items)

/-- Enclosing lists in which as many more lists may be opened as the innermost list leaves room for. -/
def OuterParsed : Nat → List (List Value) → Prop
  | _, [] => True
  | room, items :: outer => (∀ v ∈ items, Parsed (room + 1) v) ∧ OuterParsed (room + 1) outer

/-- Whether a tree goes on from a state of the reader: the items of every open list are its first ones. -/
def Extends (items : List Value) : List (List Value) → Value → Prop
  | [], tree => ∃ more, tree = .tuple (items.reverse ++ more)
  | enclosing :: outer, tree => ∃ more, Extends (.tuple (items.reverse ++ more) :: enclosing) outer tree

variable {items : List Value} {outer : List (List Value)} {tree : Value} {l : Lexeme} {ls : List Lexeme} {limit : Int}

/-! ## By kind -/

theorem gather_of_leaf (hopen : l.kind ≠ .openList) (hclose : l.kind ≠ .closeList) :
    gather limit items outer (l :: ls) = (do let leaf ← l.leaf; gather limit (leaf :: items) outer ls) := by
  obtain ⟨kind, text⟩ := l
  cases kind with
  | openList => exact (hopen rfl).elim
  | closeList => exact (hclose rfl).elim
  | fn | var | num | date | blank | str =>
      simp only [gather]
      cases Lexeme.leaf _ <;> rfl

theorem gather_of_open (h : l.kind = .openList) : gather limit items outer (l :: ls) =
    if limit ≤ outer.length + 1 then .error (.tooDeep limit) else gather limit [] (items :: outer) ls := by
  simp only [gather, h]

theorem gather_of_close_last (h : l.kind = .closeList) :
    gather limit items [] (l :: ls) = .ok (.tuple items.reverse, ls) := by
  simp only [gather, h]

theorem gather_of_close_inner (h : l.kind = .closeList) (enclosing : List Value) :
    gather limit items (enclosing :: outer) (l :: ls) = gather limit (.tuple items.reverse :: enclosing) outer ls := by
  simp only [gather, h]

theorem ofLexemes_of_open (h : l.kind = .openList) : ofLexemes limit (l :: ls) = gather limit [] [] ls := by
  rw [ofLexemes, h]

theorem ofLexemes_of_close (h : l.kind = .closeList) : ofLexemes limit (l :: ls) = .ok (.tuple [], ls) := by
  rw [ofLexemes, h]

theorem ofLexemes_of_leaf (hopen : l.kind ≠ .openList) (hclose : l.kind ≠ .closeList) :
    ofLexemes limit (l :: ls) = l.leaf.map fun leaf => (.tuple [leaf], ls) := by
  rw [ofLexemes]
  split
  · next h => exact (hopen h).elim
  · next h => exact (hclose h).elim
  · cases l.leaf <;> rfl

/-! ## One lexeme -/

/-- By how much a lexeme changes the number of open lists. -/
def rise (l : Lexeme) : Int :=
  match l.kind with
  | .openList => 1
  | .closeList => -1
  | _ => 0

theorem rise_of_open (h : l.kind = .openList) : rise l = 1 := by
  rw [rise, h]

theorem rise_of_close (h : l.kind = .closeList) : rise l = -1 := by
  rw [rise, h]

theorem rise_of_leaf (hopen : l.kind ≠ .openList) (hclose : l.kind ≠ .closeList) : rise l = 0 := by
  rw [rise]
  split
  · next h => exact (hopen h).elim
  · next h => exact (hclose h).elim
  · rfl

theorem neg_one_le_rise (l : Lexeme) : -1 ≤ rise l := by
  rw [rise]
  split <;> decide

/-- What a lexeme does to a state of the reader, whatever stands behind it: reading fails, the outermost list ends, or
the state is another one. -/
inductive Step (limit : Int) (items : List Value) (outer : List (List Value)) (l : Lexeme) : Prop
  | fails (f : Fault) : (∀ ls, gather limit items outer (l :: ls) = .error f) → Step limit items outer l
  | ends : outer = [] → rise l = -1 →
      (∀ ls, gather limit items outer (l :: ls) = .ok (.tuple items.reverse, ls)) → Step limit items outer l
  | leads (items' : List Value) (outer' : List (List Value)) : (outer'.length : Int) = outer.length + rise l →
      (∀ ls, gather limit items outer (l :: ls) = gather limit items' outer' ls) → Step limit items outer l

theorem gather_step (limit : Int) (items : List Value) (outer : List (List Value)) (l : Lexeme) :
    Step limit items outer l := by
  by_cases hopen : l.kind = .openList
  · by_cases hroom : limit ≤ outer.length + 1
    · refine .fails (.tooDeep limit) fun ls => ?_
      rw [gather_of_open hopen, if_pos hroom]
    · refine .leads [] (items :: outer) ?_ fun ls => ?_
      · rw [rise_of_open hopen, List.length_cons, Nat.cast_succ]
      · rw [gather_of_open hopen, if_neg hroom]
  · by_cases hclose : l.kind = .closeList
    · cases outer with
      | nil => exact .ends rfl (rise_of_close hclose) fun _ => gather_of_close_last hclose
      | cons enclosing outer =>
          refine .leads (.tuple items.reverse :: enclosing) outer ?_ fun _ => gather_of_close_inner hclose enclosing
          rw [rise_of_close hclose, List.length_cons]
          omega
    · cases hleaf : l.leaf with
      | error f =>
          refine .fails f fun ls => ?_
          rw [gather_of_leaf hopen hclose, hleaf]
          rfl
      | ok leaf =>
          refine .leads (leaf :: items) outer ?_ fun ls => ?_
          · rw [rise_of_leaf hopen hclose, Int.add_zero]
          · rw [gather_of_leaf hopen hclose, hleaf]
            rfl

/-! ## What is read on -/

theorem closeAll_extends : Extends items outer (closeAll items outer) := by
  induction outer generalizing items with
  | nil => exact ⟨[], by rw [List.append_nil]; rfl⟩
  | cons enclosing outer ih => exact ⟨[], by rw [List.append_nil]; exact ih⟩

theorem Extends.drop (vs : List Value) (h : Extends (vs ++ items) outer tree) : Extends items outer tree := by
  cases outer with
  | nil =>
      obtain ⟨more, rfl⟩ := h
      exact ⟨vs.reverse ++ more, by rw [List.reverse_append, List.append_assoc]⟩
  | cons enclosing outer =>
      obtain ⟨more, h⟩ := h
      rw [List.reverse_append, List.append_assoc] at h
      exact ⟨vs.reverse ++ more, h⟩

/-- The next item of a state is determined by the tree. -/
theorem Extends.injective {v w : Value} (hv : Extends (v :: items) outer tree)
    (hw : Extends (w :: items) outer tree) : v = w := by
  have next {v w : Value} {items more more' : List Value}
      (h : (v :: items).reverse ++ more = (w :: items).reverse ++ more') : v = w := by
    rw [List.reverse_cons, List.reverse_cons, List.append_assoc, List.append_assoc] at h
    exact (List.cons.inj (List.append_cancel_left h)).1
  induction outer generalizing items v w with
  | nil =>
      obtain ⟨more, rfl⟩ := hv
      obtain ⟨more', heq⟩ := hw
      exact next (Value.tuple.inj heq)
  | cons enclosing outer ih =>
      obtain ⟨more, hv⟩ := hv
      obtain ⟨more', hw⟩ := hw
      exact next (Value.tuple.inj (ih hv hw))

/-- What is read on from a state extends it. -/
theorem gather_extends {limit : Int} {ls rest : List Lexeme}
    (h : gather limit items outer ls = .ok (tree, rest)) : Extends items outer tree := by
  fun_induction gather limit items outer ls with
  | case1 items outer =>
      obtain ⟨rfl, -⟩ := Prod.mk.inj (Except.ok.inj h)
      exact closeAll_extends
  | case2 => cases h
  | case3 items outer l ls hkind hroom ih =>
      obtain ⟨more, h⟩ := ih h
      exact h.drop [_]
  | case4 items l ls hkind =>
      obtain ⟨rfl, -⟩ := Prod.mk.inj (Except.ok.inj h)
      exact ⟨[], by rw [List.append_nil]⟩
  | case5 items l ls hkind enclosing outer ih => exact ⟨[], by rw [List.append_nil]; exact ih h⟩
  | case6 => cases h
  | case7 items outer l ls leaf hleaf _ _ ih => exact (ih h).drop [_]

/-! ## Depth -/

theorem Parsed.close {room : Nat} (hitems : ∀ v ∈ items, Parsed room v) :
    Parsed (room + 1) (.tuple items.reverse) :=
  .list fun v hv => hitems v (List.mem_reverse.1 hv)

theorem OuterParsed.close {room : Nat} {enclosing : List Value} (hitems : ∀ v ∈ items, Parsed room v)
    (houter : OuterParsed room (enclosing :: outer)) :
    ∀ v ∈ Value.tuple items.reverse :: enclosing, Parsed (room + 1) v := by
  rw [List.forall_mem_cons]
  exact ⟨Parsed.close hitems, houter.1⟩

theorem closeAll_parsed {room : Nat} (hitems : ∀ v ∈ items, Parsed room v) (houter : OuterParsed room outer) :
    Parsed (room + outer.length + 1) (closeAll items outer) := by
  induction outer generalizing room items with
  | nil => exact Parsed.close hitems
  | cons enclosing outer ih =>
      have hdepth : room + (enclosing :: outer).length + 1 = room + 1 + outer.length + 1 := by
        rw [List.length_cons]
        omega
      rw [hdepth]
      exact ih (houter.close hitems) houter.2

/-- The depth of a tree that was read is within the limit. -/
theorem gather_parsed {limit room : Nat} {ls rest : List Lexeme} (hshape : ∀ l ∈ ls, HasShape l.kind l.text.toList)
    (hroom : room + outer.length + 1 = limit) (hitems : ∀ v ∈ items, Parsed room v)
    (houter : OuterParsed room outer) (h : gather limit items outer ls = .ok (tree, rest)) :
    Parsed limit tree := by
  generalize hlimit : (limit : Int) = bound at h
  fun_induction gather bound items outer ls generalizing room with
  | case1 items outer =>
      obtain ⟨rfl, -⟩ := Prod.mk.inj (Except.ok.inj h)
      rw [← hroom]
      exact closeAll_parsed hitems houter
  | case2 => cases h
  | case3 items outer l ls hkind hopen ih =>
      have hlater := (List.forall_mem_cons.1 hshape).2
      obtain ⟨inner, rfl⟩ : ∃ inner, room = inner + 1 := ⟨room - 1, by omega⟩
      exact ih hlater (by rw [List.length_cons]; omega) (by simp) ⟨hitems, houter⟩ h
  | case4 items l ls hkind =>
      obtain ⟨rfl, -⟩ := Prod.mk.inj (Except.ok.inj h)
      rw [← hroom]
      exact Parsed.close hitems
  | case5 items l ls hkind enclosing outer ih =>
      have hlater := (List.forall_mem_cons.1 hshape).2
      rw [List.length_cons] at hroom
      exact ih hlater (by omega) (houter.close hitems) houter.2 h
  | case6 => cases h
  | case7 items outer l ls leaf hleaf hopen hclose ih =>
      obtain ⟨hfirst, hlater⟩ := List.forall_mem_cons.1 hshape
      have hall : ∀ v ∈ leaf :: items, Parsed room v := by
        rw [List.forall_mem_cons]
        exact ⟨.leaf hfirst hopen hclose hleaf, hitems⟩
      exact ih hlater hroom hall houter h

end RuleExpr.Tree
