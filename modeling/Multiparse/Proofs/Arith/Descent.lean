import Multiparse.Grammar.Lemmas
import Multiparse.Proofs.Arith.Report

/-!
# How far the parsers of arithmetic get

Each parser of the grammar has at most one reading. Where it hits, it has read a phrase of its
level; where it misses, no phrase begins. Either way a reader who goes on from there by what can
come next gets stuck at some lexeme, and the diagnostic lies there and wishes for what could have
come (`Settles`).
-/

namespace Multiparse.Arith

open Diagnostic Outlook Multiparse.Parser

variable {α : Type} {semantics : Semantics α} {total : Nat} {input : Residual Lexeme}

/-- The input is the rest of `total` lexemes. -/
def Spans (total : Nat) (input : Residual Lexeme) : Prop :=
  input.offset + input.tokens.length = total

theorem Spans.position_eq (spans : Spans total input) :
    input.position = place total input.offset := by
  unfold Spans at spans
  unfold Residual.position Residual.isEmpty place
  cases tokens : input.tokens with
  | nil =>
    rw [tokens, List.length_nil] at spans
    rw [if_pos List.isEmpty_nil, if_neg (by omega)]
  | cons head rest =>
    rw [tokens, List.length_cons] at spans
    rw [if_neg (by simp), if_pos (by omega)]

theorem Spans.offset_le (spans : Spans total input) : input.offset ≤ total := by
  unfold Spans at spans
  omega

theorem Spans.advance {read rest : List Lexeme} (spans : Spans total input)
    (tokens : input.tokens = read ++ rest) : Spans total ⟨rest, input.offset + read.length⟩ := by
  unfold Spans at spans ⊢
  rw [tokens, List.length_append] at spans
  simp only
  omega

theorem Spans.tail {head : Lexeme} {rest : List Lexeme} {offset : Nat}
    (spans : Spans total ⟨head :: rest, offset⟩) : Spans total ⟨rest, offset + 1⟩ := by
  unfold Spans at spans ⊢
  rw [← spans, List.length_cons]
  simp only
  omega

/-! ## Single lexemes -/

section Leaves

variable (call : Nonterminal → Parser (Except Fault) Lexeme α)

theorem lexeme_hits {kind : Kind} {head : Lexeme} (is : head.shape.kind = kind)
    (rest : List Lexeme) (offset : Nat) :
    Hits ((lexeme kind : Phrase α Lexeme).interpret call) ⟨head :: rest, offset⟩ head
      ⟨rest, offset + 1⟩ none := by
  have accepted : decide (Token.kind head = kind) = true := decide_eq_true is
  unfold Hits
  simp only [lexeme, Grammar.token, Grammar.interpret_satisfy, Parser.satisfy, Parser.ofFunction,
    Residual.peek?, List.head?_cons, accepted, ↓reduceIte, Residual.advance]
  rfl

theorem lexeme_misses {kind : Kind} (spans : Spans total input)
    (other : ∀ head, input.tokens.head? = some head → head.shape.kind ≠ kind) :
    ∃ error, Misses ((lexeme kind : Phrase α Lexeme).interpret call) input error ∧
      Reports total error input.offset [kind] := by
  cases tokens : input.tokens with
  | nil =>
    refine ⟨some (.exhausted kind.display), ⟨rfl, ?_⟩, Reports.leaf ?_ rfl⟩
    · simp only [lexeme, Grammar.token, Grammar.interpret_satisfy, Parser.satisfy,
        Parser.ofFunction, Residual.peek?, tokens, List.head?_nil]
      rfl
    · rw [← spans.position_eq, Residual.position, Residual.isEmpty, tokens]
      rfl
  | cons head rest =>
    have refused : decide (Token.kind head = kind) = false :=
      decide_eq_false (other head (by rw [tokens]; rfl))
    refine ⟨some (.mismatch kind.display head.shape.describe input.offset), ⟨rfl, ?_⟩,
      Reports.leaf ?_ rfl⟩
    · simp only [lexeme, Grammar.token, Grammar.interpret_satisfy, Parser.satisfy,
        Parser.ofFunction, Residual.peek?, tokens, List.head?_cons, refused, Bool.false_eq_true,
        ↓reduceIte]
      rfl
    · rw [← spans.position_eq, Residual.position, Residual.isEmpty, tokens]
      rfl

/-- The parser reads one of the signs of some kinds, and says so where there is none. -/
structure Signs (p : Parser (Except Fault) Lexeme Op) (total : Nat) (sign? : Kind → Option Op)
    (kinds : List Kind) : Prop where
  hits : ∀ {head : Lexeme} {rest : List Lexeme} {offset : Nat} {op : Op},
    Spans total ⟨head :: rest, offset⟩ → sign? head.shape.kind = some op →
      ∃ error, Hits p ⟨head :: rest, offset⟩ op ⟨rest, offset + 1⟩ error ∧
        Reports total error (offset + 1) []
  misses : ∀ {input : Residual Lexeme}, Spans total input →
    (∀ head, input.tokens.head? = some head → sign? head.shape.kind = none) →
      ∃ error, Misses p input error ∧ Reports total error input.offset kinds

/-- A choice between two signs reads the one that stands there. -/
theorem signs_firstOf {first second : Kind} {op op' : Op} {sign? : Kind → Option Op}
    (decides : ∀ kind, sign? kind =
      if kind = first then some op else if kind = second then some op' else none) :
    Signs ((Grammar.firstOf [operator first op, operator second op'] : Phrase α Op).interpret call)
      total sign? [first, second] where
  hits := by
    intro head rest offset read spans signs
    have fits : offset + (rest.length + 1) = total := spans
    rw [decides] at signs
    rw [Grammar.interpret_firstOf]
    by_cases isFirst : head.shape.kind = first
    · rw [if_pos isFirst] at signs
      cases signs
      have hits := (lexeme_hits call isFirst rest offset).map fun _ => op
      exact ⟨none, hits.firstOfFrom _ none, .missing ..⟩
    · rw [if_neg isFirst] at signs
      obtain ⟨error, misses, reports⟩ := lexeme_misses call spans fun found standing =>
        Option.some.inj standing ▸ isFirst
      by_cases isSecond : head.shape.kind = second
      · rw [if_pos isSecond] at signs
        cases signs
        have hits := (lexeme_hits call isSecond rest offset).map fun _ => op'
        refine ⟨error, ?_, reports.past (Nat.lt_succ_self offset) (by omega)⟩
        have skipped := (misses.map fun _ => op).firstOfFrom
          [(operator second op').interpret call] none
        have taken := hits.firstOfFrom [] error
        rw [farthest_none_right] at taken
        exact skipped.trans taken
      · rw [if_neg isSecond] at signs
        cases signs
  misses := by
    intro input spans other
    have different : ∀ head, input.tokens.head? = some head →
        head.shape.kind ≠ first ∧ head.shape.kind ≠ second := by
      intro head standing
      have none := other head standing
      rw [decides] at none
      split at none
      · cases none
      · split at none
        · cases none
        · exact ⟨by assumption, by assumption⟩
    obtain ⟨error, misses, reports⟩ :=
      lexeme_misses call spans fun head standing => (different head standing).1
    obtain ⟨error', misses', reports'⟩ :=
      lexeme_misses call spans fun head standing => (different head standing).2
    have present := farthest_isSome_right error misses'.1
    refine ⟨farthest error error', ⟨present, ?_⟩, reports.merge reports'⟩
    rw [Grammar.interpret_firstOf]
    calc firstOfFrom input [(operator first op).interpret call,
          (operator second op').interpret call] none
        = firstOfFrom input [(operator second op').interpret call] error :=
          (misses.map fun _ => op).firstOfFrom _ none
      _ = firstOfFrom input [] (farthest error error') :=
          (misses'.map fun _ => op').firstOfFrom _ error
      _ = _ := firstOfFrom_nil present

theorem additive_signs :
    Signs (additive.interpret call) total Kind.additive? [.plus, .minus] :=
  signs_firstOf call fun kind => by cases kind <;> rfl

theorem multiplicative_signs :
    Signs (multiplicative.interpret call) total Kind.multiplicative? [.star, .slash] :=
  signs_firstOf call fun kind => by cases kind <;> rfl

end Leaves

/-! ## Where a reader stops -/

/-- From an outlook on, a reader of the level passes the tried lexemes, gets stuck behind them with
another outlook, and the diagnostic reports that. -/
structure Stops (level : Level) (total : Nat) (outlook : Outlook) (input : Residual Lexeme)
    (tried : List Lexeme) (final : Outlook) (error : Option Diagnostic) : Prop where
  stuck : ∃ blocked, input.tokens = tried ++ blocked ∧
    ∀ head, blocked.head? = some head → head.shape.kind ∉ final.wanted level
  passes : pass level outlook tried = some final
  reports : Reports total error (input.offset + tried.length) (final.wanted level)

/-- On the input the parser reads a phrase of the level or finds none, and its diagnostic reports
where a reader stops. Behind a phrase the reader is either stuck at once or cannot finish another
one. -/
inductive Settles (semantics : Semantics α) (level : Level) (total : Nat)
    (p : Parser (Except Fault) Lexeme α) (input : Residual Lexeme) : Prop where
  | hit {read rest tried : List Lexeme} {tree : Tree} {value : α} {final : Outlook}
      {error : Option Diagnostic} (tokens : input.tokens = read ++ rest)
      (forms : Forms level read tree) (image : tree.image? semantics = some value)
      (hits : Hits p input value ⟨rest, input.offset + read.length⟩ error)
      (stops : Stops level total (.operator 0) ⟨rest, input.offset + read.length⟩ tried final error)
      (apart : final = .operator 0 → tried = [])
  | miss {tried : List Lexeme} {final : Outlook} {error : Option Diagnostic}
      (misses : Misses p input error)
      (stops : Stops level total (.operand 0) input tried final error)
      (unfinished : final ≠ .operator 0)

/-- The parser settles on every rest of the input with fewer than `bound` lexemes. -/
def SettlesBelow (semantics : Semantics α) (level : Level) (total bound : Nat)
    (p : Parser (Except Fault) Lexeme α) : Prop :=
  ∀ input, Spans total input → input.remaining < bound → semantics.Accepts input.tokens →
    Settles semantics level total p input

namespace Stops

variable {level outer : Level} {outlook outlook' final : Outlook} {tried read rest : List Lexeme}
  {error error' : Option Diagnostic}

theorem length_le (stops : Stops level total outlook input tried final error)
    (spans : Spans total input) : input.offset + tried.length ≤ total := by
  obtain ⟨blocked, tokens, -⟩ := stops.stuck
  unfold Spans at spans
  rw [tokens, List.length_append] at spans
  omega

/-- A reader who cannot pass the first lexeme is stuck there. -/
theorem at_once {head : Lexeme} {offset : Nat}
    (stops : Stops level total outlook ⟨head :: rest, offset⟩ tried final error)
    (refused : head.shape.kind ∉ outlook.wanted level) :
    Reports total error offset (outlook.wanted level) := by
  cases tried with
  | nil =>
    obtain rfl : outlook = final := Option.some.inj stops.passes
    exact stops.reports
  | cons first tried =>
    obtain ⟨blocked, tokens, -⟩ := stops.stuck
    obtain ⟨rfl, -⟩ := List.cons_eq_cons.mp tokens
    have passes := stops.passes
    rw [pass_cons_eq_none refused] at passes
    cases passes

/-- A reader who can pass the first lexeme gets somewhere. -/
theorem tried_ne_nil {head : Lexeme} {offset : Nat}
    (stops : Stops level total outlook ⟨head :: rest, offset⟩ tried final error)
    (comes : head.shape.kind ∈ outlook.wanted level) : tried ≠ [] := by
  rintro rfl
  obtain rfl : outlook = final := Option.some.inj stops.passes
  obtain ⟨blocked, tokens, stuck⟩ := stops.stuck
  obtain rfl : head :: rest = blocked := tokens
  exact stuck head rfl comes

/-- Behind a factor nothing belongs to the factor any more. -/
theorem behind_factor (silent : Reports total error input.offset []) :
    Stops .factor total (.operator 0) input [] (.operator 0) error where
  stuck := ⟨input.tokens, rfl, fun _ _ => List.not_mem_nil⟩
  passes := rfl
  reports := silent

/-- A diagnostic that wishes for nothing further on can be added. -/
theorem add_left (stops : Stops level total outlook input tried final error)
    (silent : Reports total error' (input.offset + tried.length) []) :
    Stops level total outlook input tried final (farthest error' error) where
  stuck := stops.stuck
  passes := stops.passes
  reports := silent.merge stops.reports

theorem add_right (stops : Stops level total outlook input tried final error)
    (silent : Reports total error' (input.offset + tried.length) []) :
    Stops level total outlook input tried final (farthest error error') where
  stuck := stops.stuck
  passes := stops.passes
  reports := by
    have merged := stops.reports.merge silent
    rwa [List.append_nil] at merged

/-- A reader who first passes some lexemes stops at the same place. -/
theorem prepend
    (stops : Stops level total outlook' ⟨rest, input.offset + read.length⟩ tried final error)
    (tokens : input.tokens = read ++ rest) (passes : pass level outlook read = some outlook') :
    Stops level total outlook input (read ++ tried) final error where
  stuck := by
    obtain ⟨blocked, tail, stuck⟩ := stops.stuck
    exact ⟨blocked, by rw [tokens, List.append_assoc, ← tail], stuck⟩
  passes := by rw [pass_append, passes, Option.bind_some, stops.passes]
  reports := by
    rw [List.length_append, ← Nat.add_assoc]
    exact stops.reports

/-- Inside a phrase the level does not matter. -/
theorem outward (stops : Stops level total outlook input tried final error)
    (operators : level.operators ⊆ outer.operators) (inside : final ≠ .operator 0) :
    Stops outer total outlook input tried final error where
  stuck := by
    have same : final.wanted outer = final.wanted level := wanted_eq_of_ne inside
    rw [same]
    exact stops.stuck
  passes := pass_of_subset operators stops.passes
  reports := by
    have same : final.wanted outer = final.wanted level := wanted_eq_of_ne inside
    rw [same]
    exact stops.reports

/-- A reader who waits for some more kinds, none of which stands there, stops where the other one
does, and wishes for these kinds as well if it got nowhere. -/
theorem join {kinds : List Kind} (change : Outlook → Outlook)
    (stops : Stops level total (.operator 0) input tried final error)
    (apart : final = .operator 0 → tried = []) (spans : Spans total input)
    (wishes : (change (.operator 0)).wanted outer = level.operators ++ kinds)
    (absent : ∀ head, input.tokens.head? = some head → head.shape.kind ∉ kinds)
    (reports : Reports total error' input.offset kinds)
    (carries : ∀ error, final ≠ .operator 0 →
      Stops level total (.operator 0) input tried final error →
        Stops outer total (change (.operator 0)) input tried (change final) error) :
    Stops outer total (change (.operator 0)) input tried (change final)
      (farthest error error') := by
  cases tried with
  | nil =>
    obtain rfl : Outlook.operator 0 = final := Option.some.inj stops.passes
    refine ⟨⟨input.tokens, rfl, ?_⟩, rfl, ?_⟩
    · intro head standing joins
      rw [wishes, List.mem_append] at joins
      obtain ⟨blocked, tokens, stuck⟩ := stops.stuck
      rcases joins with operator | added
      · rw [tokens, List.nil_append] at standing
        exact stuck head standing operator
      · exact absent head standing added
    · rw [wishes]
      exact stops.reports.merge reports
  | cons head tried =>
    have inside : final ≠ .operator 0 := fun outside => List.cons_ne_nil _ _ (apart outside)
    have silent := reports.past (by simp) (stops.length_le spans)
    exact carries _ inside (stops.add_right silent)

end Stops

end Multiparse.Arith
