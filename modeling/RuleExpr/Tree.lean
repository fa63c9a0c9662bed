import RuleExpr.Lexeme
import RuleExpr.Binary64.Decimal

/-!
# Trees

Lexemes become trees: leaves get their values, and what stands between parentheses becomes a tuple. Closing
parentheses may be missing at the end, and one that closes nothing reads as the empty tuple. Lists nest at
most as deep as a limit allows.
-/

namespace RuleExpr

/-- The value of a number literal: a binary64 number if it has a point, otherwise an integer. -/
def Lexeme.number (cs : List Char) : Except Fault Value :=
  if cs.contains '.' then
    match Binary64.ofText? cs with
    | some x => .ok (.float x)
    | none => .error .malformedNumeral
  else
    match Numeral.toInt cs with
    | .ok n => .ok (.int n)
    | .error flaw => .error (.ofFlaw flaw)

def Lexeme.dateTime (text : String) : Except Fault Value :=
  match DateTime.ofLiteral? text.toList with
  | some d => .ok (.date d)
  | none => .error (.invalidDateTime text)

/-- The value that the raw text of a lexeme stands for. -/
def Lexeme.content (l : Lexeme) : Except Fault Value :=
  match l.kind with
  | .num => number l.text.toList
  | .date => dateTime l.text
  | _ => .ok (.text l.text)

def Lexeme.leaf (l : Lexeme) : Except Fault Value :=
  l.content.map (.token l.kind)

namespace Tree

/-- The deepest nesting that rules may have. -/
def depthLimit : Int := 128

/-- Closes all open lists. The items of each list are held in reverse; `outer` holds the enclosing lists
from the inside out. -/
def closeAll (items : List Value) : (outer : List (List Value)) → Value
  | [] => .tuple items.reverse
  | enclosing :: outer => closeAll (.tuple items.reverse :: enclosing) outer

/-- Reads on inside an open list, up to its end, and returns the outermost list and what follows it. -/
def gather (limit : Int) (items : List Value) (outer : List (List Value)) :
    List Lexeme → Except Fault (Value × List Lexeme)
  | [] => .ok (closeAll items outer, [])
  | l :: rest =>
    match l.kind with
    | .openList =>
      if limit ≤ outer.length + 1 then .error (.tooDeep limit)
      else gather limit [] (items :: outer) rest
    | .closeList =>
      match outer with
      | [] => .ok (.tuple items.reverse, rest)
      | enclosing :: outer => gather limit (.tuple items.reverse :: enclosing) outer rest
    | _ =>
      match l.leaf with
      | .error f => .error f
      | .ok leaf => gather limit (leaf :: items) outer rest

/-- Reads one expression off the front of a list of lexemes and returns its tree and the lexemes behind it.
A leaf outside of any list is read as a list of itself. -/
def ofLexemes (limit : Int) : List Lexeme → Except Fault (Value × List Lexeme)
  | [] => .ok (.tuple [], [])
  | l :: rest =>
    match l.kind with
    | .openList => gather limit [] [] rest
    | .closeList => .ok (.tuple [], rest)
    | _ =>
      match l.leaf with
      | .error f => .error f
      | .ok leaf => .ok (.tuple [leaf], rest)

@[simp] theorem ofLexemes_nil (limit : Int) : ofLexemes limit [] = .ok (.tuple [], []) := rfl

theorem gather_length_le {limit : Int} {items : List Value} {outer : List (List Value)}
    {ls rest : List Lexeme} {tree : Value} (h : gather limit items outer ls = .ok (tree, rest)) :
    rest.length ≤ ls.length := by
  fun_induction gather limit items outer ls with
  | case1 => simp_all
  | case2 => simp at h
  | case3 _ _ _ _ _ _ ih => exact Nat.le_succ_of_le (ih h)
  | case4 => simp_all
  | case5 _ _ _ _ _ _ ih => exact Nat.le_succ_of_le (ih h)
  | case6 => simp at h
  | case7 _ _ _ _ _ _ _ _ ih => exact Nat.le_succ_of_le (ih h)

/-- Reading takes at least one lexeme off a list that has one. -/
theorem ofLexemes_length_lt {limit : Int} {l : Lexeme} {ls rest : List Lexeme} {tree : Value}
    (h : ofLexemes limit (l :: ls) = .ok (tree, rest)) : rest.length < (l :: ls).length := by
  simp only [ofLexemes] at h
  split at h
  · exact Nat.lt_succ_of_le (gather_length_le h)
  · simp_all
  · split at h <;> simp_all

/-- A tree read from a source, the number of lexemes of the source, and how many of them were left over. -/
structure Reading where
  tree : Value
  lexemes : Nat
  leftOver : Nat
deriving DecidableEq, Repr

/-- Reads the first expression of a source. -/
def read (source : Option String) : Except Fault Reading := do
  let lexemes ← Lexeme.ofSource source
  let (tree, rest) ← ofLexemes depthLimit lexemes
  return ⟨tree, lexemes.length, rest.length⟩

end Tree

end RuleExpr
