import RuleExpr.Proofs.Lexeme.Rules
import RuleExpr.Proofs.Lexeme.Cutting

/-!
# Coverings of sources

A source has lexemes if it is made up of pieces, each of them the match of the first rule that matches what is left of
the source there (`split_eq_ok_iff`). The lexemes keep what the pieces capture, in their order and without white space.
-/
namespace RuleExpr.Lexeme
open Numeral Text

/-- A front of what is left of a source, matched by a rule of a kind. -/
structure Piece where
  kind : Kind
  front : List Char
  captured : Option (List Char)

/-- What is captured, or else the whole piece. -/
def Piece.kept (p : Piece) : List Char := p.captured.getD p.front

/-- White space gives no lexeme. -/
def Piece.lexeme? (p : Piece) : Option Lexeme :=
  if p.kind = .blank then none else some ⟨p.kind, String.ofList p.kept⟩

/-- The text that the pieces make up. -/
def joined (ps : List Piece) : List Char := (ps.map (·.front)).flatten

/-- The match of the first rule that matches the text; the rule has the kind. -/
def IsFirstMatch (kind : Kind) (m : Match) (cs : List Char) : Prop :=
  ∃ before rule after, rules = before ++ rule :: after ∧ (∀ r ∈ before, r.regex.match? cs = none) ∧
    rule.kind = kind ∧ rule.regex.match? cs = some m

/-- Each piece is not empty and is the match of the first rule that matches what is left. -/
def FollowsRules (ps : List Piece) : Prop :=
  ∀ p after, p :: after <:+ ps →
    p.front ≠ [] ∧ IsFirstMatch p.kind ⟨p.front, p.captured, joined after⟩ (joined (p :: after))

variable {kind : Kind} {cs : List Char} {cut : Cut} {p : Piece} {ps : List Piece} {ls : List Lexeme}

/-! ## Pieces -/

theorem cut?_eq_some_iff : cut? cs = some (kind, cut) ↔ ∃ m, IsFirstMatch kind m cs ∧ m.cut = cut := by
  have hrules : cut? cs = rules.findSome? fun rule => (rule.regex.match? cs).map fun m => (rule.kind, m.cut) := by
    rw [cut?, patterns_eq_rules, List.findSome?_map]
    simp only [Rule.pattern, Function.comp_def, Option.map_map]
  rw [hrules, List.findSome?_eq_some_iff]
  constructor
  · rintro ⟨before, rule, after, hsplit, hmatch, hbefore⟩
    obtain ⟨m, hm, heq⟩ := Option.map_eq_some_iff.1 hmatch
    obtain ⟨hkind, hcut⟩ := Prod.mk.inj heq
    exact ⟨m, ⟨before, rule, after, hsplit, fun r hr => Option.map_eq_none_iff.1 (hbefore r hr), hkind, hm⟩, hcut⟩
  · rintro ⟨m, ⟨before, rule, after, hsplit, hbefore, hkind, hm⟩, hcut⟩
    refine ⟨before, rule, after, hsplit, ?_, fun r hr => Option.map_eq_none_iff.2 (hbefore r hr)⟩
    rw [hm, Option.map_some, hkind, hcut]

theorem followsRules_nil : FollowsRules [] := by
  intro p after h
  cases List.suffix_nil.1 h

theorem followsRules_cons_iff : FollowsRules (p :: ps) ↔
    (p.front ≠ [] ∧ IsFirstMatch p.kind ⟨p.front, p.captured, joined ps⟩ (joined (p :: ps))) ∧ FollowsRules ps := by
  constructor
  · intro h
    refine ⟨h p ps (List.suffix_refl _), fun q after hsuffix => ?_⟩
    exact h q after (hsuffix.trans (List.suffix_cons p ps))
  · rintro ⟨hfirst, hlater⟩ q after hsuffix
    rcases List.suffix_cons_iff.1 hsuffix with heq | hsuffix
    · obtain ⟨rfl, rfl⟩ := List.cons.inj heq
      exact hfirst
    · exact hlater q after hsuffix

theorem joined_cons : joined (p :: ps) = p.front ++ joined ps := by
  rw [joined, List.map_cons, List.flatten_cons]
  rfl

/-- A source is cut into the lexemes of pieces that follow the rules and make it up. -/
theorem split_eq_ok_iff : split cs = .ok ls ↔
    ∃ ps, joined ps = cs ∧ FollowsRules ps ∧ ls = ps.filterMap Piece.lexeme? := by
  constructor
  · intro h
    fun_induction split cs generalizing ls with
    | case1 =>
        obtain rfl := Except.ok.inj h
        exact ⟨[], rfl, followsRules_nil, rfl⟩
    | case2 => cases h
    | case3 => cases h
    | case4 cs _ kind cut hcut _ lexemes hrest ih =>
        obtain rfl := Except.ok.inj h
        obtain ⟨ps, hjoined, hfollows, rfl⟩ := ih hrest
        obtain ⟨hwhole, hne⟩ := cut?_eq_some hcut
        obtain ⟨m, hmatch, rfl⟩ := cut?_eq_some_iff.1 hcut
        have hcovered : joined (⟨kind, m.front, m.captured⟩ :: ps) = cs := by
          rw [joined_cons, hjoined]
          exact hwhole
        refine ⟨⟨kind, m.front, m.captured⟩ :: ps, hcovered, followsRules_cons_iff.2 ⟨⟨hne, ?_⟩, hfollows⟩, ?_⟩
        · rw [hcovered, hjoined]
          exact hmatch
        · rw [List.filterMap_cons, ofCut?, Piece.lexeme?]
          split <;> rfl
  · rintro ⟨ps, rfl, hfollows, rfl⟩
    induction ps with
    | nil => exact split_nil
    | cons p ps ih =>
        obtain ⟨⟨-, hmatch⟩, hlater⟩ := followsRules_cons_iff.1 hfollows
        rw [split_of_cut? (cut?_eq_some_iff.2 ⟨_, hmatch, rfl⟩)]
        have hrest : split (joined ps) = .ok (ps.filterMap Piece.lexeme?) := ih hlater
        rw [Match.cut, hrest, List.filterMap_cons, ofCut?, Piece.lexeme?]
        split <;> rfl

/-- Sources have the lexemes of pieces that make them up, each matched by the first rule that matches there. Every
piece goes as far as its kind says. -/
theorem ofSource_eq_ok_iff_followsRules (source : String) :
    ((∃ ls, ofSource (some source) = .ok ls) ∨ ∃ rest, ofSource (some source) = .error (.invalidToken rest)) ∧
      (∀ ls, ofSource (some source) = .ok ls ↔
        ∃ ps, joined ps = source.toList ∧ FollowsRules ps ∧ ls = ps.filterMap Piece.lexeme?) ∧
      (∀ ps, FollowsRules ps → ∀ p after, p :: after <:+ ps → HasExtent p.kind ⟨p.front, p.kept, joined after⟩) ∧
      ∀ ls, ofSource (some source) = .ok ls → ∀ l ∈ ls, l.kind ≠ .blank ∧ (l.kind = .var → l.text ≠ "fn") := by
  refine ⟨?_, fun ls => split_eq_ok_iff, fun ps hfollows p after hsuffix => ?_, fun ls h l hl => ?_⟩
  · cases h : ofSource (some source) with
    | ok ls => exact .inl ⟨ls, rfl⟩
    | error f =>
        obtain ⟨rest, rfl⟩ := ofSource_eq_error h
        exact .inr ⟨rest, rfl⟩
  · obtain ⟨-, hmatch⟩ := hfollows p after hsuffix
    exact cut?_extent (cut?_eq_some_iff.2 ⟨_, hmatch, rfl⟩)
  · have hshape := hasShape_of_ofSource h l hl
    obtain ⟨kind, text⟩ := l
    refine ⟨?_, ?_⟩
    · rintro rfl
      exact hshape
    · rintro rfl rfl
      exact hshape.2.2 rfl

end RuleExpr.Lexeme
