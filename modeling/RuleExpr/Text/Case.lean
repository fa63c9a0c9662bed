import RuleExpr.Text.CaseTable

/-!
# Capital and small letters

Full case mapping of text. It goes character by character, save that a capital sigma ending a word
becomes the final small sigma.
-/

namespace RuleExpr.Text

/-- The image of a code point under one-to-one mappings; a code point outside them stays. -/
def mapCase (runs : List CaseRun) (c : Char) : Char :=
  match runs.findSome? (·.image? c.toNat) with
  | some n => Char.ofNat n
  | none => c

/-- The capital form of a character, which may have several characters. -/
def capital (c : Char) : List Char :=
  match longCapitals.lookup c.toNat with
  | some ns => ns.map Char.ofNat
  | none => [mapCase capitalRuns c]

def toCapitals (cs : List Char) : List Char :=
  cs.flatMap capital

@[simp] theorem toCapitals_nil : toCapitals [] = [] := rfl

@[simp] theorem toCapitals_append (cs ds : List Char) :
    toCapitals (cs ++ ds) = toCapitals cs ++ toCapitals ds := by
  simp [toCapitals]

/-- Whether the first character that is not skipped is a letter with case. -/
def meetsCased (cs : List Char) : Bool :=
  match cs.dropWhile fun c => inRanges caseIgnorableRanges c.toNat with
  | c :: _ => inRanges casedRanges c.toNat
  | [] => false

/-- The small form of a capital sigma between the text `before`, nearest character first, and `after`. -/
def smallSigma (before after : List Char) : Char :=
  if meetsCased before && !meetsCased after then 'ς' else 'σ'

/-- The small form of a character between the text `before`, nearest character first, and `after`. The
capital I with a dot above keeps its dot. -/
def small (before : List Char) (c : Char) (after : List Char) : List Char :=
  if c = 'Σ' then [smallSigma before after]
  else if c = 'İ' then ['i', '\u0307']
  else [mapCase smallRuns c]

/-- The small form of a text that stands behind `before`, nearest character first. -/
def toSmallsAfter (before : List Char) : List Char → List Char
  | [] => []
  | c :: cs => small before c cs ++ toSmallsAfter (c :: before) cs

def toSmalls (cs : List Char) : List Char :=
  toSmallsAfter [] cs

@[simp] theorem toSmalls_nil : toSmalls [] = [] := rfl

end RuleExpr.Text
