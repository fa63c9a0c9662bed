import RuleExpr.Fault

/-!
# Lexemes

A rule's source is cut into lexemes by a list of patterns. At each position the first pattern that matches
wins, whatever the others would match, so their order matters. White space is consumed and not kept, and
the delimiters of text and date-times are dropped; a backslash in a text and the character behind it are
kept as they stand.

`cut?_eq_some` says that a cut takes a non-empty front of the source and keeps the rest, so cutting ends and
no character is lost.
-/

namespace RuleExpr

/-- A kind and the raw text that a leaf is made from. -/
structure Lexeme where
  kind : Kind
  text : String
deriving DecidableEq, Repr

namespace Lexeme

/-- A front of the source, the text that is kept of it, and what follows it. -/
structure Cut where
  front : List Char
  kept : List Char
  rest : List Char
deriving DecidableEq, Repr

/-- A cut whose front is kept whole. -/
def Cut.whole (front rest : List Char) : Cut := ⟨front, front, rest⟩

def isNameChar (c : Char) : Bool :=
  c.isAlpha || "_><+!=*/%-".toList.contains c

/-- A single given character. -/
def cutChar (wanted : Char) : List Char → Option Cut
  | c :: cs => if c = wanted then some (.whole [c] cs) else none
  | [] => none

/-- The word `fn`, unless a name goes on behind it. -/
def cutFn : List Char → Option Cut
  | 'f' :: 'n' :: cs =>
    if (cs.head?.map isNameChar).getD false then none else some (.whole ['f', 'n'] cs)
  | _ => none

/-- A non-empty run of characters of a class. -/
def cutRun (holds : Char → Bool) (cs : List Char) : Option Cut :=
  if (cs.takeWhile holds).isEmpty then none
  else some (.whole (cs.takeWhile holds) (cs.dropWhile holds))

/-- Whether the text starts with a minus and a digit. -/
def startsNegative : List Char → Bool
  | '-' :: c :: _ => Numeral.isAsciiDigit c
  | _ => false

/-- A run of name characters, unless it starts as a negative number. -/
def cutName (cs : List Char) : Option Cut :=
  if startsNegative cs then none else cutRun isNameChar cs

/-- Digits, and a point with digits. -/
def cutMagnitude (cs : List Char) : Option Cut :=
  (Numeral.splitDigits? cs).map fun (digits, rest) =>
    let (fractional, rest) := Numeral.leadingFractionPart rest
    .whole (digits ++ fractional) rest

def cutNumber : List Char → Option Cut
  | '-' :: cs => (cutMagnitude cs).map fun cut => .whole ('-' :: cut.front) cut.rest
  | cs => cutMagnitude cs

def isBrace (c : Char) : Bool :=
  c = '\x7b' || c = '\x7d'

/-- A non-empty text without braces between `#dt` and braces; the text is kept. -/
def cutDate : List Char → Option Cut
  | '#' :: 'd' :: 't' :: '\x7b' :: cs =>
    let body := cs.takeWhile (!isBrace ·)
    match cs.dropWhile (!isBrace ·) with
    | '\x7d' :: rest =>
      if body.isEmpty then none
      else some ⟨'#' :: 'd' :: 't' :: '\x7b' :: body ++ ['\x7d'], body, rest⟩
    | _ => none
  | _ => none

/-- The text up to a quote that no backslash precedes, and what follows the quote. -/
def splitAtQuote? (quote : Char) : List Char → Option (List Char × List Char)
  | [] => none
  | '\\' :: c :: cs =>
    (splitAtQuote? quote cs).map fun (body, rest) => ('\\' :: c :: body, rest)
  | c :: cs =>
    if c = quote then some ([], cs)
    else if c = '\\' then none
    else (splitAtQuote? quote cs).map fun (body, rest) => (c :: body, rest)

/-- A text between quotes, which are dropped. -/
def cutQuoted (quote : Char) : List Char → Option Cut
  | c :: cs =>
    if c = quote then
      (splitAtQuote? quote cs).map fun (body, rest) => ⟨quote :: body ++ [quote], body, rest⟩
    else none
  | [] => none

/-- A way to cut a lexeme of some kind off the front of a source. -/
structure Pattern where
  kind : Kind
  cut? : List Char → Option Cut

/-- The patterns in the order in which they are tried. -/
def patterns : List Pattern := [
  ⟨.openList, cutChar '('⟩,
  ⟨.closeList, cutChar ')'⟩,
  ⟨.fn, cutFn⟩,
  ⟨.var, cutName⟩,
  ⟨.num, cutNumber⟩,
  ⟨.date, cutDate⟩,
  ⟨.blank, cutRun Text.isBlank⟩,
  ⟨.str, cutQuoted '"'⟩,
  ⟨.str, cutQuoted '\''⟩]

/-- The cut of the first pattern that matches, with the kind of the pattern. -/
def cut? (cs : List Char) : Option (Kind × Cut) :=
  patterns.findSome? fun p => (p.cut? cs).map (p.kind, ·)

/-- A cut takes a non-empty front and keeps the rest. -/
def Cut.Of (cut : Cut) (cs : List Char) : Prop :=
  cut.front ++ cut.rest = cs ∧ cut.front ≠ []

theorem Cut.Of.rest_length_lt {cut : Cut} {cs : List Char} (h : cut.Of cs) :
    cut.rest.length < cs.length := by
  obtain ⟨rfl, hne⟩ := h
  have := List.length_pos_iff.2 hne
  simp only [List.length_append]
  omega

theorem cutChar_of {wanted : Char} {cs : List Char} {cut : Cut} (h : cutChar wanted cs = some cut) :
    cut.Of cs := by
  unfold cutChar at h
  split at h
  · split at h
    · obtain rfl := Option.some.inj h
      exact ⟨rfl, by simp [Cut.whole]⟩
    · simp at h
  · simp at h

theorem cutFn_of {cs : List Char} {cut : Cut} (h : cutFn cs = some cut) : cut.Of cs := by
  unfold cutFn at h
  split at h
  · split at h
    · simp at h
    · obtain rfl := Option.some.inj h
      exact ⟨rfl, by simp [Cut.whole]⟩
  · simp at h

theorem cutRun_of {holds : Char → Bool} {cs : List Char} {cut : Cut} (h : cutRun holds cs = some cut) :
    cut.Of cs := by
  unfold cutRun at h
  split at h
  · simp at h
  · next hne =>
    obtain rfl := Option.some.inj h
    exact ⟨List.takeWhile_append_dropWhile, by simpa [Cut.whole] using hne⟩

theorem cutName_of {cs : List Char} {cut : Cut} (h : cutName cs = some cut) : cut.Of cs := by
  unfold cutName at h
  split at h
  · simp at h
  · exact cutRun_of h

theorem cutMagnitude_of {cs : List Char} {cut : Cut} (h : cutMagnitude cs = some cut) : cut.Of cs := by
  obtain ⟨⟨digits, rest⟩, hsplit, rfl⟩ := Option.map_eq_some_iff.1 h
  obtain ⟨rfl, hne⟩ := Numeral.splitDigits?_eq_some hsplit
  exact ⟨by simp [Cut.whole, Numeral.leadingFractionPart_append], by simp [Cut.whole, hne]⟩

theorem cutNumber_of {cs : List Char} {cut : Cut} (h : cutNumber cs = some cut) : cut.Of cs := by
  unfold cutNumber at h
  split at h
  · obtain ⟨inner, hinner, rfl⟩ := Option.map_eq_some_iff.1 h
    exact ⟨by simp [Cut.whole, (cutMagnitude_of hinner).1], by simp [Cut.whole]⟩
  · exact cutMagnitude_of h

theorem cutDate_of {cs : List Char} {cut : Cut} (h : cutDate cs = some cut) : cut.Of cs := by
  unfold cutDate at h
  split at h
  · next cs =>
    dsimp only at h
    split at h
    · next rest hrest =>
      split at h
      · simp at h
      · obtain rfl := Option.some.inj h
        have := List.takeWhile_append_dropWhile (p := (!isBrace ·)) (l := cs)
        rw [hrest] at this
        exact ⟨by simp [this], by simp⟩
    · simp at h
  · simp at h

theorem splitAtQuote?_eq_some {quote : Char} {cs body rest : List Char}
    (h : splitAtQuote? quote cs = some (body, rest)) : body ++ quote :: rest = cs := by
  fun_induction splitAtQuote? quote cs generalizing body rest with
  | case1 => simp at h
  | case2 c cs ih =>
    obtain ⟨⟨b, r⟩, hinner, heq⟩ := Option.map_eq_some_iff.1 h
    obtain ⟨rfl, rfl⟩ := Prod.mk.inj heq
    simp [ih hinner]
  | case3 cs => simp_all
  | case4 => simp at h
  | case5 c cs _ _ _ ih =>
    obtain ⟨⟨b, r⟩, hinner, heq⟩ := Option.map_eq_some_iff.1 h
    obtain ⟨rfl, rfl⟩ := Prod.mk.inj heq
    simp [ih hinner]

theorem cutQuoted_of {quote : Char} {cs : List Char} {cut : Cut} (h : cutQuoted quote cs = some cut) :
    cut.Of cs := by
  unfold cutQuoted at h
  split at h
  · split at h
    · next heq =>
      subst heq
      obtain ⟨⟨body, rest⟩, hsplit, rfl⟩ := Option.map_eq_some_iff.1 h
      exact ⟨by simp [splitAtQuote?_eq_some hsplit], by simp⟩
    · simp at h
  · simp at h

/-- A cut takes a non-empty front of the source and keeps the rest. -/
theorem cut?_eq_some {cs : List Char} {kind : Kind} {cut : Cut} (h : cut? cs = some (kind, cut)) :
    cut.Of cs := by
  obtain ⟨p, hp, hcut⟩ := List.exists_of_findSome?_eq_some h
  obtain ⟨c, hc, heq⟩ := Option.map_eq_some_iff.1 hcut
  obtain ⟨rfl, rfl⟩ := Prod.mk.inj heq
  simp only [patterns, List.mem_cons, List.not_mem_nil, or_false] at hp
  rcases hp with rfl | rfl | rfl | rfl | rfl | rfl | rfl | rfl | rfl
  · exact cutChar_of hc
  · exact cutChar_of hc
  · exact cutFn_of hc
  · exact cutName_of hc
  · exact cutNumber_of hc
  · exact cutDate_of hc
  · exact cutRun_of hc
  · exact cutQuoted_of hc
  · exact cutQuoted_of hc

/-- The lexeme of a cut; white space gives none. -/
def ofCut? (kind : Kind) (cut : Cut) : Option Lexeme :=
  if kind = .blank then none else some ⟨kind, String.ofList cut.kept⟩

/-- Cuts a source into lexemes. It fails at the first position where no pattern matches. -/
def split (cs : List Char) : Except Fault (List Lexeme) :=
  if cs = [] then .ok []
  else
    match h : cut? cs with
    | none => .error (.invalidToken (String.ofList cs))
    | some (kind, cut) =>
      have := (cut?_eq_some h).rest_length_lt
      match split cut.rest with
      | .error f => .error f
      | .ok lexemes => .ok ((ofCut? kind cut).toList ++ lexemes)
termination_by cs.length

@[simp] theorem split_nil : split [] = .ok [] := by
  rw [split]
  simp

/-- The lexemes of a source, which may be missing. -/
def ofSource : Option String → Except Fault (List Lexeme)
  | none => .ok []
  | some source => split source.toList

end Lexeme

end RuleExpr
