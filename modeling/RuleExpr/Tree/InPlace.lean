import RuleExpr.Tree

/-!
# Reading in place

Lexemes may be kept in one place, from which one expression after the other is read. A position goes over them while
an expression is read, and they are taken away up to that position only when it is complete; where reading fails they
stay as they are.
-/

namespace RuleExpr.Tree

/-- Reads on inside an open list from a position on, up to its end, and returns the outermost list and the position
behind it. -/
def gatherAt (limit : Int) (ls : Array Lexeme) (items : List Value) (outer : List (List Value)) (position : Nat) :
    Except Fault (Value × Nat) :=
  if h : position < ls.size then
    match ls[position].kind with
    | .openList =>
      if limit ≤ outer.length + 1 then .error (.tooDeep limit)
      else gatherAt limit ls [] (items :: outer) (position + 1)
    | .closeList =>
      match outer with
      | [] => .ok (.tuple items.reverse, position + 1)
      | enclosing :: outer => gatherAt limit ls (.tuple items.reverse :: enclosing) outer (position + 1)
    | _ =>
      match ls[position].leaf with
      | .error f => .error f
      | .ok leaf => gatherAt limit ls (leaf :: items) outer (position + 1)
  else .ok (closeAll items outer, position)
termination_by ls.size - position

/-- The first expression of the lexemes and the position behind it. -/
def locate (limit : Int) : List Lexeme → Except Fault (Value × Nat)
  | [] => .ok (.tuple [], 0)
  | l :: ls =>
    match l.kind with
    | .openList => gatherAt limit (l :: ls).toArray [] [] 1
    | .closeList => .ok (.tuple [], 1)
    | _ => l.leaf.map fun leaf => (.tuple [leaf], 1)

/-- Reads the first expression of the lexemes and then takes its lexemes away. -/
def take (limit : Int) : ExceptT Fault (StateM (List Lexeme)) Value := do
  let ls ← get
  match locate limit ls with
  | .error f => throw f
  | .ok (tree, position) =>
    set (ls.drop position)
    return tree

/-- The result of reading from the lexemes, and the lexemes that it leaves. -/
def takeFrom (limit : Int) (ls : List Lexeme) : Except Fault Value × List Lexeme :=
  (take limit).run.run ls

end RuleExpr.Tree
