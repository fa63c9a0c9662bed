import RuleExpr.Tree
import RuleExpr.Value.Equality

/-!
# Rules as text

Tokens and trees are written as rule text. A text is put between double quotes, or between apostrophes if
it holds a double quote; nothing in it is escaped, because reading keeps escapes as they stand.
-/

namespace RuleExpr.Printing

/-- The plain text of a value, if its integers have one. -/
def plainText (v : Value) : Except Fault String :=
  if v.isWritable then .ok (String.ofList v.plain) else .error .tooManyDigits

/-- Whether a double quote occurs in a value: as a character of a text or as an item of a sequence. -/
def holdsQuote : Value → Except Fault Bool
  | .text s => .ok (s.toList.contains '"')
  | .list items | .tuple items => .ok (items.any (Value.itemsMatch (.text "\"")))
  | _ => .error .unprintable

/-- The content of a text token between quotes. -/
def quotedContent (content : Value) : Except Fault String := do
  let inside ← holdsQuote content
  let text ← plainText content
  return if inside then "'" ++ text ++ "'" else "\"" ++ text ++ "\""

/-- The content of a date-time token: a date-time in ISO form, anything else in its plain form. -/
def dateContent : Value → Except Fault String
  | .date d => .ok (String.ofList (d.toText 'T'))
  | v => plainText v

def token (kind : Kind) (content : Value) : Except Fault String :=
  match kind with
  | .openList => .ok "("
  | .closeList => .ok ")"
  | .str => quotedContent content
  | .date => (dateContent content).map fun text => "#dt\x7b" ++ text ++ "\x7d"
  | _ => plainText content

/-- What stands between two neighbouring tokens: nothing inside a parenthesis, otherwise a space. -/
def gap (before after : Kind) : String :=
  if before = .openList ∨ after = .closeList then "" else " "

/-- Further tokens as rule text, behind a token of the given kind. -/
def tokensAfter (before : Kind) : List (Kind × Value) → Except Fault String
  | [] => .ok ""
  | (kind, content) :: rest => do
    let first ← token kind content
    let others ← tokensAfter kind rest
    return gap before kind ++ first ++ others

def tokens : List (Kind × Value) → Except Fault String
  | [] => .ok ""
  | (kind, content) :: rest => do
    let first ← token kind content
    let others ← tokensAfter kind rest
    return first ++ others

@[simp] theorem tokens_nil : tokens [] = .ok "" := rfl

mutual

def tree : Value → Except Fault String
  | .token kind content => token kind content
  | .list items | .tuple items => do
    let texts ← trees items
    return "(" ++ " ".intercalate texts ++ ")"
  | .text s => if s = "" then .ok "()" else .error .unprintable
  | _ => .error .unprintable

def trees : List Value → Except Fault (List String)
  | [] => .ok []
  | v :: vs => do
    let text ← tree v
    let texts ← trees vs
    return text :: texts

end

/-- Raw lexemes as tokens. -/
def ofLexemes (ls : List Lexeme) : List (Kind × Value) :=
  ls.map fun l => (l.kind, .text l.text)

end RuleExpr.Printing
