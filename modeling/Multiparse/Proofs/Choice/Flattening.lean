import Multiparse.Proofs.Choice.Branches
import Multiparse.Proofs.Wording

/-!
# Choices within choices

A branch that is a choice itself, under the same policy, may be replaced by its branches
(`nested_choices_flatten`). The branches are tried in the same order; only the diagnostics are
merged in another grouping. That does not change where the farthest one lies, and it does not change
the words either if all diagnostics wish for something, since merging is associative then.
-/

namespace Multiparse

open Diagnostic

variable {m : Type → Type} [Monad m] {τ α : Type} {exact : Prop}

namespace Outcome

variable {earlier earlier' : Option Diagnostic} {outcome : Outcome τ α}
  {firsts inners lasts : List (Outcome τ α)}

/-! ## Diagnostics merged in another grouping -/

theorem wishful_mergedInto (first : Wishful earlier)
    (wishes : ∀ outcome ∈ inners, Wishful outcome.error) : Wishful (mergedInto earlier inners) := by
  induction inners generalizing earlier with
  | nil => exact first
  | cons outcome inners ih =>
    obtain ⟨here, wishes⟩ := List.forall_mem_cons.mp wishes
    exact ih (first.farthest here) wishes

theorem farthest_mergedInto {error : Option Diagnostic} (first : Wishful earlier)
    (second : Wishful error) (wishes : ∀ outcome ∈ inners, Wishful outcome.error) :
    farthest earlier (mergedInto error inners) = mergedInto (farthest earlier error) inners := by
  induction inners generalizing error with
  | nil => rfl
  | cons outcome inners ih =>
    obtain ⟨here, wishes⟩ := List.forall_mem_cons.mp wishes
    rw [mergedInto_cons, ih (second.farthest here) wishes, farthest_assoc first second here,
      mergedInto_cons]

/-- Diagnostics may be merged among themselves before they are merged with an earlier one. -/
theorem regrouped (first : exact → Wishful earlier)
    (wishes : exact → ∀ outcome ∈ inners, Wishful outcome.error) :
    Diagnostic.Alike exact (farthest earlier (mergedInto none inners))
      (mergedInto earlier inners) := by
  constructor
  · apply eq_of_forall_ge_iff
    intro bound
    rw [depth_farthest, max_le_iff, depth_mergedInto_le_iff, depth_mergedInto_le_iff, depth_none]
    exact and_congr_right fun _ => and_iff_right bot_le
  · intro asked
    rw [farthest_mergedInto (first asked) wishful_none (wishes asked), farthest_none_right]

theorem mergedInto_alike (alike : Diagnostic.Alike exact earlier earlier')
    (outcomes : List (Outcome τ α)) :
    Diagnostic.Alike exact (mergedInto earlier outcomes) (mergedInto earlier' outcomes) := by
  induction outcomes generalizing earlier earlier' with
  | nil => exact alike
  | cons outcome outcomes ih => exact ih (alike.farthest (.refl _))

/-! ## Choices behind diagnostics that are alike -/

theorem Alike.refl (formed : outcome.WellFormed) : outcome.Alike exact outcome :=
  ⟨rfl, rfl, .refl _, formed⟩

theorem WellFormed.withEarlier (formed : outcome.WellFormed) (earlier : Option Diagnostic) :
    (outcome.withEarlier earlier).WellFormed :=
  ⟨formed.barren, fun failed => farthest_isSome_right _ (formed.reason failed)⟩

theorem firstAfter_alike (formed : ∀ outcome ∈ lasts, outcome.WellFormed)
    (alike : Diagnostic.Alike exact earlier earlier') :
    (firstAfter earlier lasts).Alike exact (firstAfter earlier' lasts) := by
  induction lasts generalizing earlier earlier' with
  | nil => exact .conclude false alike
  | cons outcome lasts ih =>
    obtain ⟨here, formed⟩ := List.forall_mem_cons.mp formed
    rw [firstAfter, firstAfter]
    split
    · exact ⟨rfl, rfl, alike.farthest (.refl _), here.withEarlier _⟩
    · exact ih formed (alike.farthest (.refl _))

/-! ## Flattening -/

theorem chosen_exhaustive_flatten (filled : inners ≠ [])
    (formed : ∀ outcome ∈ inners, outcome.WellFormed)
    (first : exact → ∀ outcome ∈ firsts, Wishful outcome.error)
    (wishes : exact → ∀ outcome ∈ inners, Wishful outcome.error) :
    (chosen .exhaustive (firsts ++ chosen .exhaustive inners :: lasts)).Alike exact
      (chosen .exhaustive (firsts ++ (inners ++ lasts))) := by
  have flags : (firsts ++ chosen .exhaustive inners :: lasts).any success =
      (firsts ++ (inners ++ lasts)).any success := by
    rw [List.any_append, List.any_cons, chosen_exhaustive_success, List.any_append,
      List.any_append]
  have readings : (firsts ++ chosen .exhaustive inners :: lasts).flatMap counted =
      (firsts ++ (inners ++ lasts)).flatMap counted := by
    rw [List.flatMap_append, List.flatMap_cons, chosen_exhaustive_counted, List.flatMap_append,
      List.flatMap_append]
  rw [chosen, flags, readings]
  apply Alike.conclude
  rw [mergedInto_append, mergedInto_cons, chosen_exhaustive_error filled formed, mergedInto_append,
    mergedInto_append]
  apply mergedInto_alike
  exact regrouped (fun asked => wishful_mergedInto wishful_none (first asked)) wishes

theorem firstAfter_flatten (filled : inners ≠ [])
    (formed : ∀ outcome ∈ inners ++ lasts, outcome.WellFormed)
    (first : exact → Wishful earlier) (wishes : exact → ∀ outcome ∈ inners, Wishful outcome.error) :
    (firstAfter earlier (chosen .ordered inners :: lasts)).Alike exact
      (firstAfter earlier (inners ++ lasts)) := by
  obtain ⟨formedInners, formedLasts⟩ := List.forall_mem_append.mp formed
  obtain fail | ⟨failed, winner, others, rfl, fail, succeeded⟩ := failed_or_first inners
  · obtain ⟨fails, explained⟩ := chosen_of_failed_error filled formedInners fail .ordered
    rw [firstAfter, if_neg (by simp [fails]), explained, firstAfter_append fail]
    exact firstAfter_alike formedLasts (regrouped first wishes)
  · -- The inner choice merges the diagnostic of its winner first, and then with what is earlier.
    have among : ∀ outcome ∈ failed ++ [winner], outcome ∈ failed ++ winner :: others := by
      rw [List.append_cons failed winner others]
      exact fun outcome member => List.mem_append_left _ member
    have won : (winner.withEarlier (mergedInto none failed)).success = true := succeeded
    rw [chosen_ordered_of_first fail succeeded, firstAfter, if_pos won, List.append_assoc,
      List.cons_append, firstAfter_of_first fail succeeded]
    have errors : Diagnostic.Alike exact (farthest earlier (mergedInto none (failed ++ [winner])))
        (mergedInto earlier (failed ++ [winner])) :=
      regrouped first fun asked outcome member => wishes asked outcome (among outcome member)
    rw [mergedInto_append, mergedInto_append] at errors
    exact ⟨rfl, rfl, errors,
      ((formedInners winner (among winner (by simp))).withEarlier _).withEarlier _⟩

theorem chosen_ordered_flatten (filled : inners ≠ [])
    (formed : ∀ outcome ∈ firsts ++ (inners ++ lasts), outcome.WellFormed)
    (first : exact → ∀ outcome ∈ firsts, Wishful outcome.error)
    (wishes : exact → ∀ outcome ∈ inners, Wishful outcome.error) :
    (chosen .ordered (firsts ++ chosen .ordered inners :: lasts)).Alike exact
      (chosen .ordered (firsts ++ (inners ++ lasts))) := by
  obtain ⟨formedFirsts, formedOthers⟩ := List.forall_mem_append.mp formed
  obtain fail | ⟨failed, winner, others, rfl, fail, succeeded⟩ := failed_or_first firsts
  · change (firstAfter none (firsts ++ chosen .ordered inners :: lasts)).Alike exact
      (firstAfter none (firsts ++ (inners ++ lasts)))
    rw [firstAfter_append fail, firstAfter_append fail]
    have before := fun asked => wishful_mergedInto wishful_none (first asked)
    exact firstAfter_flatten filled formedOthers before wishes
  · rw [List.append_assoc, List.append_assoc, List.cons_append, List.cons_append,
      chosen_ordered_of_first fail succeeded, chosen_ordered_of_first fail succeeded]
    exact .refl ((formedFirsts winner (by simp)).withEarlier _)

/-- A choice as a branch of a choice may be replaced by its branches. -/
theorem chosen_flatten (filled : inners ≠ [])
    (formed : ∀ outcome ∈ firsts ++ (inners ++ lasts), outcome.WellFormed)
    (first : exact → ∀ outcome ∈ firsts, Wishful outcome.error)
    (wishes : exact → ∀ outcome ∈ inners, Wishful outcome.error) (policy : Policy) :
    (chosen policy (firsts ++ chosen policy inners :: lasts)).Alike exact
      (chosen policy (firsts ++ (inners ++ lasts))) := by
  cases policy with
  | exhaustive =>
    refine chosen_exhaustive_flatten filled (fun outcome member => formed outcome ?_) first wishes
    exact List.mem_append_right _ (List.mem_append_left _ member)
  | ordered => exact chosen_ordered_flatten filled formed first wishes

end Outcome

/-- **Nested choices flatten.** Let the branches return on an input, and let a failure among their
outcomes have no readings and give a reason. A choice some of whose branches are put together to a
choice of their own, under the same policy, succeeds exactly if the plain choice between all
branches does, with the same readings in the same order, and what is wrong lies at the same place.
The diagnostics are the same altogether, wishes and their order included, if all diagnostics that
the branches return wish for something. -/
theorem nested_choices_flatten {N : Names} [LawfulMonad m] [Aborts m] [Defers m]
    [Observes N.Tracer m] [Token τ] {call : (rule : N.Rule) → Parser m τ (N.Result rule)}
    (policy : Policy) {ps qs rs : List (Grammar N τ α)} (filled : qs ≠ []) {input : Residual τ}
    {firsts inners lasts : List (Outcome τ α)}
    (returnsFirst : Parser.Return input (ps.map fun p => p.interpret call) firsts)
    (returnsInner : Parser.Return input (qs.map fun q => q.interpret call) inners)
    (returnsLast : Parser.Return input (rs.map fun r => r.interpret call) lasts)
    (formed : ∀ outcome ∈ firsts ++ inners ++ lasts, outcome.WellFormed) :
    ∃ nested flat,
      (Grammar.choiceOf policy (ps ++ [Grammar.choiceOf policy qs] ++ rs)).interpret call input =
        pure nested ∧
      (Grammar.choiceOf policy (ps ++ qs ++ rs)).interpret call input = pure flat ∧
      nested.SameFindings flat ∧
      ((∀ outcome ∈ firsts ++ inners ++ lasts, Wishful outcome.error) →
        nested.error = flat.error) := by
  have inner := Parser.choice_of_return returnsInner policy
  have nested := Parser.choice_of_return
    (List.rel_append returnsFirst (.cons inner returnsLast)) policy
  have flat := Parser.choice_of_return
    (List.rel_append returnsFirst (List.rel_append returnsInner returnsLast)) policy
  have filled' : inners ≠ [] :=
    Parser.ne_nil_of_forall₂ returnsInner (mt List.map_eq_nil_iff.mp filled)
  have alike : (Outcome.chosen policy (firsts ++ Outcome.chosen policy inners :: lasts)).Alike
      (∀ outcome ∈ firsts ++ inners ++ lasts, Wishful outcome.error)
      (Outcome.chosen policy (firsts ++ (inners ++ lasts))) := by
    rw [List.append_assoc] at formed
    apply Outcome.chosen_flatten filled' formed
    · intro wishes outcome member
      exact wishes outcome (by simp [member])
    · intro wishes outcome member
      exact wishes outcome (by simp [member])
  refine ⟨_, _, ?_, ?_, alike.sameFindings, alike.error.same⟩
  · rw [Grammar.interpret_choiceOf, List.append_assoc, List.map_append, List.singleton_append,
      List.map_cons, Grammar.interpret_choiceOf]
    exact nested
  · rw [Grammar.interpret_choiceOf, List.append_assoc, List.map_append, List.map_append]
    exact flat

section Articles

/-- Looks for one of these words. -/
def articles (lexemes : List String) : List (Grammar towerNames Word Word) :=
  lexemes.map .literal

/-- What is found of a rose with its own article. -/
def article : Outcome Word Word := .ofReadings [⟨Word.ofLexeme "a", aRose.advance⟩] none

/-- What is found of a rose with an article that it does not have. -/
def noArticle (wish : String) : Outcome Word Word := .failure (.mismatch wish "'a'" 0)

theorem article_wellFormed : article.WellFormed :=
  (Outcome.ofReadings_sound none (List.cons_ne_nil _ _)).toWellFormed

theorem noArticle_wellFormed (wish : String) : (noArticle wish).WellFormed :=
  (Outcome.failure_sound _).toWellFormed

theorem noArticle_wishful (wish : String) : Wishful (noArticle wish).error := by
  simp [Wishful, noArticle, Outcome.failure, mismatch]

/-- Four articles are tried until the third one is there. It does not matter that the second and the
third are a choice of their own: the first two are missed in either case. -/
theorem nested_choices_flatten_articles :
    ∃ (call : (rule : Unit) → Parser (Except Fault) Word Nat)
        (firsts inners lasts : List (Outcome Word Word)),
      Parser.Return aRose ((articles ["the"]).map fun p => p.interpret call) firsts ∧
      Parser.Return aRose ((articles ["an", "a"]).map fun q => q.interpret call) inners ∧
      Parser.Return aRose ((articles ["some"]).map fun r => r.interpret call) lasts ∧
      (∀ outcome ∈ firsts ++ inners ++ lasts, outcome.WellFormed) ∧
      (∀ outcome ∈ firsts ++ inners ++ lasts, Wishful outcome.error) ∧
      ∃ nested flat,
        (Grammar.firstOf (articles ["the"] ++ [.firstOf (articles ["an", "a"])] ++
          articles ["some"])).interpret call aRose = .ok nested ∧
        (Grammar.firstOf (articles ["the"] ++ articles ["an", "a"] ++ articles ["some"])).interpret
          call aRose = .ok flat ∧
        nested.SameFindings flat ∧ nested.error = flat.error ∧
        flat.values = [Word.ofLexeme "a"] ∧
        flat.error.map expected = some ["'the'", "'an'"] := by
  let call : (rule : Unit) → Parser (Except Fault) Word Nat := fun _ => .fail "no rule"
  have firsts : Parser.Return aRose ((articles ["the"]).map fun p => p.interpret call)
      [noArticle "'the'"] := .cons rfl .nil
  have inners : Parser.Return aRose ((articles ["an", "a"]).map fun q => q.interpret call)
      [noArticle "'an'", article] := .cons rfl (.cons rfl .nil)
  have lasts : Parser.Return aRose ((articles ["some"]).map fun r => r.interpret call)
      [noArticle "'some'"] := .cons rfl .nil
  have formed : ∀ outcome ∈ [noArticle "'the'"] ++ [noArticle "'an'", article] ++
      [noArticle "'some'"], outcome.WellFormed := by
    simp [article_wellFormed, noArticle_wellFormed]
  have wishes : ∀ outcome ∈ [noArticle "'the'"] ++ [noArticle "'an'", article] ++
      [noArticle "'some'"], Wishful outcome.error := by
    have silent : Wishful article.error := wishful_none
    simp [silent, noArticle_wishful]
  obtain ⟨nested, flat, nestedRan, flatRan, same, worded⟩ := nested_choices_flatten .ordered
    (List.cons_ne_nil _ _) firsts inners lasts formed
  refine ⟨call, _, _, _, firsts, inners, lasts, formed, wishes, nested, flat, nestedRan, flatRan,
    same, worded wishes, ?_, ?_⟩
  · cases flatRan
    rfl
  · cases flatRan
    rfl

end Articles

end Multiparse
