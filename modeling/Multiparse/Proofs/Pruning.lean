import Multiparse.Grammar.Lemmas
import Multiparse.Proofs.Inclusion
import Multiparse.Proofs.WellFormed

/-!
# Single choices only prune

Some forms of grammars keep a single choice where others keep all of them: an ordered choice, the
first reading, the greatest number of items. A full version of a grammar has the other form in the
place of each of them, in all its parts (`Grammar.FullVersion`). Whatever a grammar reads, its full
version reads too (`readings_subset_of_fullVersion`).
-/

namespace Multiparse

/-- Where a part finds less, so does the whole of this form. Custom parts are left out. -/
def Form.Prunable : Form → Prop
  | custom | gather | recover | lookAhead | notAhead | withDepth => False
  | _ => True

/-- The form does not decide for a single choice. -/
def Form.Undecided : Form → Prop
  | choice policy | chainRight policy => policy = .exhaustive
  | repeated extent => extent ≠ .greedy
  | first => False
  | _ => True

variable {N : Names} {τ α β : Type}

/-- The second grammar is the first one with every single choice replaced by all choices. What it is
put together from is the same otherwise, where the rules listed beside a continuation do not count.
A custom part is kept as it is; it has to leave an end of its input and to be well-formed. Skipping
as many items as can be is the one form whose counterpart is not put together in the same way. -/
inductive Grammar.FullVersion : {α : Type} → Grammar N τ α → Grammar N τ α → Prop where
  | satisfy (accepts : τ → Bool) (expected : String) :
      FullVersion (.satisfy accepts expected) (.satisfy accepts expected)
  | succeed {α : Type} (value : α) : FullVersion (.succeed value) (.succeed value)
  | fail {α : Type} (message : String) : FullVersion (.fail message : Grammar N τ α) (.fail message)
  | endOfInput : FullVersion .endOfInput .endOfInput
  | custom {α : Type} {run : Residual τ → Outcome τ α}
      (follows : ∀ input, (run input).Meets .following input) :
      FullVersion (.custom run) (.custom run)
  | map {α β : Type} (f : α → β) {p q : Grammar N τ α} (part : FullVersion p q) :
      FullVersion (.map f p) (.map f q)
  | sequence {α : Type} {count : Nat} {ps qs : Fin count → Grammar N τ α}
      (parts : ∀ i, FullVersion (ps i) (qs i)) : FullVersion (.sequence ps) (.sequence qs)
  | bind {α β : Type} {p q : Grammar N τ α} {held held' : List N.Rule}
      {next next' : α → Grammar N τ β} (part : FullVersion p q)
      (continues : ∀ value, FullVersion (next value) (next' value)) :
      FullVersion (.bind p held next) (.bind q held' next')
  | bindAll {α : Type} {p q : Grammar N τ α} {held held' : List N.Rule} {count : Nat}
      {nexts nexts' : Fin count → α → Grammar N τ α} (part : FullVersion p q)
      (continues : ∀ i value, FullVersion (nexts i value) (nexts' i value)) :
      FullVersion (.bindAll p held nexts) (.bindAll q held' nexts')
  | choice {α : Type} (policy : Policy) {count : Nat} {ps qs : Fin count → Grammar N τ α}
      (parts : ∀ i, FullVersion (ps i) (qs i)) :
      FullVersion (.choice policy ps) (.choice .exhaustive qs)
  | first {α : Type} {p q : Grammar N τ α} (part : FullVersion p q) : FullVersion (.first p) q
  | repeated {α : Type} (extent : Extent) {p q : Grammar N τ α} (part : FullVersion p q) :
      FullVersion (.repeated extent p) (.repeated extent.unpruned q)
  | chainRight {α : Type} (policy : Policy) {p q : Grammar N τ α} {op op' : Grammar N τ (α → α → α)}
      (part : FullVersion p q) (operator : FullVersion op op') :
      FullVersion (.chainRight policy p op) (.chainRight .exhaustive q op')
  | skipMany {α : Type} {p q : Grammar N τ α} (part : FullVersion p q) :
      FullVersion (skipManyGreedy p) (skipMany q)
  | reportAs {α : Type} (message : String) {p q : Grammar N τ α} (part : FullVersion p q) :
      FullVersion (.reportAs message p) (.reportAs message q)
  | named {α : Type} (name : String) {p q : Grammar N τ α} (part : FullVersion p q) :
      FullVersion (.named name p) (.named name q)
  | traced {α : Type} (tracer : N.Tracer) (name : String) {p q : Grammar N τ α}
      (part : FullVersion p q) : FullVersion (.traced tracer name p) (.traced tracer name q)
  | deferred {α : Type} (cell : Nat) {p q : Grammar N τ α} (part : FullVersion p q) :
      FullVersion (.deferred cell p) (.deferred cell q)
  | rule (r : N.Rule) : FullVersion (.rule r) (.rule r)

/-- A rule without a pattern stays without one, and the others have full versions of theirs. -/
def Rules.FullVersion (rules full : Rules N τ) : Prop :=
  ∀ rule, (∃ fault, rules rule = .error fault ∧ full rule = .error fault) ∨
    ∃ pattern pattern', rules rule = .ok pattern ∧ full rule = .ok pattern' ∧
      pattern.FullVersion pattern'

namespace Grammar

/-! ## Full versions -/

section Counterparts

variable {p q : Grammar N τ α} {r s : Grammar N τ β}

theorem pair_fullVersion (left : p.FullVersion q) (right : r.FullVersion s) :
    (pair p r).FullVersion (pair q s) :=
  .bind left fun _ => .map _ right

theorem keepRight_fullVersion (left : p.FullVersion q) (right : r.FullVersion s) :
    (keepRight p r).FullVersion (keepRight q s) :=
  .map _ (pair_fullVersion left right)

theorem choiceOf_fullVersion (policy : Policy) {ps qs : List (Grammar N τ α)}
    (parts : List.Forall₂ FullVersion ps qs) :
    (choiceOf policy ps).FullVersion (choiceOf .exhaustive qs) := by
  obtain ⟨same, each⟩ := List.forall₂_iff_get.mp parts
  have indexed : ∀ (count : Nat) (size : qs.length = count), choiceOf .exhaustive qs =
      choice .exhaustive fun i : Fin count => qs.get (i.cast size.symm) := by
    intro count size
    subst size
    rfl
  rw [indexed ps.length same.symm]
  exact .choice policy fun i => each i i.isLt (same ▸ i.isLt)

theorem either_fullVersion (policy : Policy) (left : p.FullVersion q) (right : r.FullVersion s) :
    (either policy p r).FullVersion (either .exhaustive q s) :=
  choiceOf_fullVersion policy (.cons (.map _ left) (.cons (.map _ right) .nil))

theorem optional_fullVersion (policy : Policy) (part : p.FullVersion q) :
    (optional policy p).FullVersion (optional .exhaustive q) :=
  choiceOf_fullVersion policy (.cons (.map _ part) (.cons (.succeed none) .nil))

theorem manyUnder_fullVersion (policy : Policy) (part : p.FullVersion q) :
    (manyUnder policy p).FullVersion (manyUnder .exhaustive q) := by
  cases policy with
  | exhaustive => exact .repeated .longestFirst part
  | ordered => exact .repeated .greedy part

theorem oneAnd_fullVersion (extent : Extent) (part : p.FullVersion q) :
    (oneAnd extent p).FullVersion (oneAnd extent.unpruned q) :=
  .map _ (pair_fullVersion part (.repeated extent part))

theorem listOf_fullVersion (policy : Policy) (part : p.FullVersion q)
    (separators : r.FullVersion s) : (listOf policy p r).FullVersion (listOf .exhaustive q s) :=
  .map _ (pair_fullVersion part (manyUnder_fullVersion policy
    (keepRight_fullVersion separators part)))

theorem separatedBy_fullVersion (policy : Policy) (part : p.FullVersion q)
    (separators : r.FullVersion s) :
    (separatedBy policy p r).FullVersion (separatedBy .exhaustive q s) :=
  .map _ (optional_fullVersion policy (listOf_fullVersion policy part separators))

theorem foldLeft_fullVersion (policy : Policy) (f : α → β → α) (part : p.FullVersion q)
    (others : r.FullVersion s) :
    (foldLeft policy f p r).FullVersion (foldLeft .exhaustive f q s) :=
  .map _ (pair_fullVersion part (manyUnder_fullVersion policy others))

variable {op op' : Grammar N τ (α → α → α)}

theorem chainLeft_fullVersion (policy : Policy) (part : p.FullVersion q)
    (operator : op.FullVersion op') :
    (chainLeft policy p op).FullVersion (chainLeft .exhaustive q op') :=
  foldLeft_fullVersion policy _ part (pair_fullVersion operator part)

theorem chainLeftOr_fullVersion (policy : Policy) (default : α) (part : p.FullVersion q)
    (operator : op.FullVersion op') :
    (chainLeftOr policy default p op).FullVersion (chainLeftOr .exhaustive default q op') :=
  choiceOf_fullVersion policy
    (.cons (chainLeft_fullVersion policy part operator) (.cons (.succeed default) .nil))

theorem chainRightOr_fullVersion (policy : Policy) (default : α) (part : p.FullVersion q)
    (operator : op.FullVersion op') :
    (chainRightOr policy default p op).FullVersion (chainRightOr .exhaustive default q op') :=
  choiceOf_fullVersion policy
    (.cons (.chainRight policy part operator) (.cons (.succeed default) .nil))

theorem skip_fullVersion (policy : Policy) (part : p.FullVersion q) :
    (skip policy p).FullVersion (skip .exhaustive q) :=
  .map _ (optional_fullVersion policy part)

theorem skipSome_fullVersion (part : p.FullVersion q) :
    (skipSomeGreedy p).FullVersion (skipSome q) :=
  keepRight_fullVersion part (.skipMany part)

theorem trim_fullVersion (policy : Policy) (part : p.FullVersion q)
    (cuttings : r.FullVersion s) : (trim policy p r).FullVersion (trim .exhaustive q s) :=
  have around := manyUnder_fullVersion policy cuttings
  .map _ (pair_fullVersion around (pair_fullVersion part around))

end Counterparts

/-- Nothing is decided in a full version. -/
theorem FullVersion.undecided {g full : Grammar N τ α} (version : g.FullVersion full) :
    full.BuiltFrom Form.Undecided := by
  induction version with
  | satisfy | succeed | fail | endOfInput | custom | rule => trivial
  | sequence parts ih => exact ⟨trivial, ih⟩
  | choice policy parts ih => exact ⟨rfl, ih⟩
  | bind part continues ih ihNext => exact ⟨trivial, ih, ihNext⟩
  | bindAll part continues ih ihNexts => exact ⟨trivial, ih, ihNexts⟩
  | first part ih => exact ih
  | repeated extent part ih =>
    refine ⟨?_, ih⟩
    cases extent <;> simp [Form.Undecided, Extent.unpruned]
  | chainRight policy part operator ih ihOp => exact ⟨rfl, ih, ihOp⟩
  | skipMany part ih =>
    refine ⟨trivial, rfl, Fin.forall_fin_two.mpr ⟨?_, trivial⟩⟩
    exact ⟨trivial, trivial, trivial, ih, fun _ => ⟨trivial, nofun, ih⟩⟩
  | map _ part ih | reportAs _ part ih | named _ part ih | traced _ _ part ih
  | deferred _ part ih => exact ⟨trivial, ih⟩

theorem FullVersion.customs {g full : Grammar N τ α} (version : g.FullVersion full) :
    full.Customs fun run => ∀ input, (run input).Meets .following input := by
  induction version with
  | satisfy | succeed | fail | endOfInput | rule => trivial
  | custom follows => exact follows
  | sequence parts ih | choice policy parts ih => exact ih
  | bind part continues ih ihNext => exact ⟨ih, ihNext⟩
  | bindAll part continues ih ihNexts => exact ⟨ih, ihNexts⟩
  | chainRight policy part operator ih ihOp => exact ⟨ih, ihOp⟩
  | skipMany part ih => exact Fin.forall_fin_two.mpr ⟨⟨ih, fun _ => ih⟩, trivial⟩
  | first part ih | repeated extent part ih | map _ part ih | reportAs _ part ih
  | named _ part ih | traced _ _ part ih | deferred _ part ih => exact ih

/-- Every grammar that is put together from prunable forms has a full version. -/
theorem exists_fullVersion {g : Grammar N τ α} (built : g.BuiltFrom Form.Prunable) :
    ∃ full, g.FullVersion full := by
  induction g with
  | satisfy accepts expected => exact ⟨_, .satisfy accepts expected⟩
  | succeed value => exact ⟨_, .succeed value⟩
  | fail message => exact ⟨_, .fail message⟩
  | endOfInput => exact ⟨_, .endOfInput⟩
  | map f p ih =>
    obtain ⟨q, part⟩ := ih built.2
    exact ⟨_, .map f part⟩
  | sequence ps ih =>
    choose qs parts using fun i => ih i (built.2 i)
    exact ⟨_, .sequence parts⟩
  | bind p held next ih ihNext =>
    obtain ⟨q, part⟩ := ih built.2.1
    choose next' continues using fun value => ihNext value (built.2.2 value)
    exact ⟨.bind q held next', .bind part continues⟩
  | bindAll p held nexts ih ihNexts =>
    obtain ⟨q, part⟩ := ih built.2.1
    choose nexts' continues using fun i value => ihNexts i value (built.2.2 i value)
    exact ⟨.bindAll q held nexts', .bindAll part continues⟩
  | choice policy ps ih =>
    choose qs parts using fun i => ih i (built.2 i)
    exact ⟨_, .choice policy parts⟩
  | first p ih =>
    obtain ⟨q, part⟩ := ih built.2
    exact ⟨_, .first part⟩
  | repeated extent p ih =>
    obtain ⟨q, part⟩ := ih built.2
    exact ⟨_, .repeated extent part⟩
  | chainRight policy p op ih ihOp =>
    obtain ⟨q, part⟩ := ih built.2.1
    obtain ⟨op', operator⟩ := ihOp built.2.2
    exact ⟨_, .chainRight policy part operator⟩
  | reportAs message p ih =>
    obtain ⟨q, part⟩ := ih built.2
    exact ⟨_, .reportAs message part⟩
  | named name p ih =>
    obtain ⟨q, part⟩ := ih built.2
    exact ⟨_, .named name part⟩
  | traced tracer name p ih =>
    obtain ⟨q, part⟩ := ih built.2
    exact ⟨_, .traced tracer name part⟩
  | deferred cell p ih =>
    obtain ⟨q, part⟩ := ih built.2
    exact ⟨_, .deferred cell part⟩
  | rule r => exact ⟨_, .rule r⟩
  | custom run => exact built.elim
  | gather p ih | recover message default p ih | lookAhead p ih | notAhead p ih
  | withDepth tracer p ih => exact built.1.elim

/-! ## Runs -/

section Runs

variable [Observes N.Tracer Run] [Token τ]
  {call call' : (rule : N.Rule) → Parser Run τ (N.Result rule)}

/-- Skipping as many items as can be stops where skipping any number of them may stop. -/
theorem skipMany_prunes {p q : Grammar N τ α}
    (part : (p.interpret call).Prunes (q.interpret call'))
    (follows : (q.interpret call').Meets .following) :
    ((skipManyGreedy p).interpret call).Prunes ((skipMany q).interpret call') := by
  intro input outcome full gives gives'
  simp only [skipManyGreedy, skipMany, skip, optional, nothing, manyGreedy, oneAnd,
    interpret_map, interpret_succeed, interpret_repeated, interpret_choiceOf, interpret_pair,
    List.map_cons, List.map_nil] at gives gives'
  obtain ⟨chosen, chooses, rfl⟩ := Parser.gives_map gives
  obtain ⟨_, branch, taken⟩ := Run.gives_bind chooses
  obtain ⟨items, repeats, rfl⟩ := Parser.gives_map branch
  obtain ⟨succeeded, reached⟩ := Parser.greedy_found repeats
  simp only [Outcome.map_success, succeeded] at taken
  obtain rfl := Run.gives_pure taken
  obtain ⟨all, chooses', rfl⟩ := Parser.gives_map gives'
  obtain ⟨success, here, _, branch', kept⟩ := Parser.orNothing_covers chooses'
  obtain ⟨_, conses, rfl⟩ := Parser.gives_map branch'
  obtain ⟨pairs, runs, rfl⟩ := Parser.gives_map conses
  refine ⟨fun reading member => ?_, fun _ => success, fun failed => ?_⟩
  · obtain ⟨_, among, rfl⟩ := List.mem_map.mp member
    obtain ⟨item, present, rfl⟩ := List.mem_map.mp among
    change (⟨(), item.rest⟩ : Reading τ Unit) ∈ _
    -- Either nothing was skipped, or a first item was, which the other form asks for.
    rcases Relation.ReflTransGen.cases_head (reached item present) with
      none | ⟨middle, progresses, later⟩
    · rw [← none]
      exact List.mem_map_of_mem here
    · obtain ⟨succeeded', found, member', same⟩ :=
        Parser.itemAndMany_covers part follows runs progresses later
      rw [← same]
      exact List.mem_map_of_mem
        (kept succeeded' (List.mem_map_of_mem (List.mem_map_of_mem member')))
  · exact absurd (succeeded.symm.trans failed) Bool.noConfusion

theorem interpret_prunes (called : ∀ rule, (call rule).Prunes (call' rule))
    (follows : ∀ rule, (call' rule).Meets .following) {g full : Grammar N τ α}
    (version : g.FullVersion full) : (g.interpret call).Prunes (full.interpret call') := by
  induction version with
  | satisfy accepts expected =>
    exact Parser.ofFunction_prunes (Parser.satisfy_meets accepts expected)
  | succeed value => exact Parser.ofFunction_prunes (Parser.succeed_meets value)
  | fail message => exact Parser.ofFunction_prunes (Parser.fail_meets message)
  | endOfInput => exact Parser.ofFunction_prunes Parser.endOfInput_meets
  | custom keeps => exact Parser.ofFunction_prunes fun input => .pure (keeps input)
  | map f part ih => exact Parser.map_prunes ih f
  | sequence parts ih => exact Parser.sequence_prunes (forall₂_ofFn ih)
  | bind part continues ih ihNext => exact Parser.bind_prunes ih ihNext
  | bindAll part continues ih ihNexts =>
    exact Parser.bindAll_prunes ih (forall₂_ofFn ihNexts)
  | choice policy parts ih => exact Parser.choice_prunes policy (forall₂_ofFn ih)
  | first part ih => exact Parser.first_prunes ih
  | repeated extent part ih => exact Parser.repeated_prunes ih extent
  | chainRight policy part operator ih ihOp => exact Parser.chainRight_prunes policy ih ihOp
  | skipMany part ih => exact skipMany_prunes ih (interpret_meets follows _ part.customs)
  | reportAs message part ih => exact Parser.onFailure_prunes ih
  | named name part ih => exact Parser.onFailure_prunes ih
  | traced tracer name part ih =>
    exact fun input outcome full gives gives' =>
      ih input outcome full (Parser.gives_traced gives) (Parser.gives_traced gives')
  | deferred cell part ih =>
    exact fun input outcome full gives gives' =>
      ih input outcome full (Parser.gives_deferred gives) (Parser.gives_deferred gives')
  | rule r => exact called r

end Runs

end Grammar

namespace Rules

variable {rules full : Rules N τ}

theorem FullVersion.of_ok (version : rules.FullVersion full) {rule : N.Rule}
    {pattern' : Grammar N τ (N.Result rule)} (stands : full rule = .ok pattern') :
    ∃ pattern : Grammar N τ (N.Result rule), pattern.FullVersion pattern' := by
  rcases version rule with ⟨fault, -, missing⟩ | ⟨pattern, full', -, found, part⟩
  · rw [missing] at stands
    cases stands
  · obtain rfl := Except.ok.inj (stands.symm.trans found)
    exact ⟨pattern, part⟩

theorem FullVersion.undecided (version : rules.FullVersion full) :
    full.BuiltFrom Form.Undecided := by
  intro rule pattern stands
  obtain ⟨_, part⟩ := version.of_ok stands
  exact part.undecided

theorem FullVersion.customs (version : rules.FullVersion full) :
    full.Customs fun run => ∀ input, (run input).Meets .following input := by
  intro rule pattern stands
  obtain ⟨_, part⟩ := version.of_ok stands
  exact part.customs

theorem exists_fullVersion (built : rules.BuiltFrom Form.Prunable) :
    ∃ full, rules.FullVersion full := by
  have each : ∀ rule, ∃ found : Except Fault (Grammar N τ (N.Result rule)),
      (∃ fault, rules rule = .error fault ∧ found = .error fault) ∨
        ∃ pattern full, rules rule = .ok pattern ∧ found = .ok full ∧
          pattern.FullVersion full := by
    intro rule
    cases stands : rules rule with
    | error fault => exact ⟨.error fault, .inl ⟨fault, rfl, rfl⟩⟩
    | ok pattern =>
      obtain ⟨full, version⟩ := Grammar.exists_fullVersion (built rule pattern stands)
      exact ⟨.ok full, .inr ⟨pattern, full, rfl, rfl, version⟩⟩
  choose full version using each
  exact ⟨full, version⟩

variable [Observes N.Tracer Run] [Token τ]

/-- The calls of the two sides need not be under the same limit. -/
theorem call_prunes (version : rules.FullVersion full) (limit limit' : Nat) (rule : N.Rule) :
    Parser.Prunes (rules.call limit rule) (full.call limit' rule) := by
  induction limit generalizing limit' rule with
  | zero => exact fun input => .abort
  | succ limit ih =>
    intro input
    cases limit' with
    | zero => exact .abort_right
    | succ limit' =>
      rw [Rules.call, Rules.call]
      rcases version rule with ⟨fault, missing, -⟩ | ⟨pattern, pattern', found, found', part⟩
      · rw [missing]
        exact .abort
      · rw [found, found']
        exact Grammar.interpret_prunes (ih limit') (call_meets version.customs limit') part input

end Rules

section Grammars

variable [Observes N.Tracer Run] [Token τ]

/-- **A single choice only prunes.** First, take any grammar and any rules that are put together
without custom parts, defaults for failures, gathering, looking ahead and the depth of a tracer.
They have full versions. Second, in a full version no form decides for a single choice; and if a run
of a grammar under its rules and a run of its full version under theirs both return on an input, the
second one has all readings of the first. -/
theorem readings_subset_of_fullVersion :
    (∀ (rules : Rules N τ) (g : Grammar N τ α),
      rules.BuiltFrom Form.Prunable → g.BuiltFrom Form.Prunable →
        (∃ fullRules, rules.FullVersion fullRules) ∧ ∃ full, g.FullVersion full) ∧
    (∀ (rules fullRules : Rules N τ) (g full : Grammar N τ α),
      rules.FullVersion fullRules → g.FullVersion full →
        fullRules.BuiltFrom Form.Undecided ∧ full.BuiltFrom Form.Undecided ∧
        ∀ limit limit' input before outcome after before' outcome' after',
          Run.Ends (g.run rules limit input) before outcome after →
          Run.Ends (full.run fullRules limit' input) before' outcome' after' →
            outcome.readings ⊆ outcome'.readings) := by
  refine ⟨fun rules g rulesBuilt built => ?_, fun rules fullRules g full rulesVersion version => ?_⟩
  · exact ⟨Rules.exists_fullVersion rulesBuilt, Grammar.exists_fullVersion built⟩
  · refine ⟨rulesVersion.undecided, version.undecided, ?_⟩
    intro limit limit' input before outcome after before' outcome' after' returned returned'
    have prunes := Grammar.interpret_prunes (Rules.call_prunes rulesVersion limit limit')
      (Rules.call_meets rulesVersion.customs limit') version
    exact (prunes input outcome outcome' ⟨before, after, returned⟩
      ⟨before', after', returned'⟩).readings

end Grammars

section Towers

open Grammar

/-- Towers with commas between them. -/
def towers (policy : Policy) : Grammar towerNames Word (List Nat) :=
  separatedBy policy (rule (N := towerNames) ()) (literal ",")

/-- The rule of towers that may stop before they are as high as can be. -/
def fullTowerRules : Rules towerNames Word := fun _ => .ok (anyOf [storey, succeed 0])

theorem literal_fullVersion (lexeme : String) :
    (literal lexeme : Grammar towerNames Word Word).FullVersion (literal lexeme) :=
  .satisfy _ _

theorem storey_fullVersion : storey.FullVersion storey :=
  .map _ (.map _ (pair_fullVersion (literal_fullVersion "(")
    (pair_fullVersion (.rule (N := towerNames) ()) (literal_fullVersion ")"))))

theorem towerRules_fullVersion : towerRules.FullVersion fullTowerRules :=
  fun _ => .inr ⟨_, _, rfl, rfl,
    choiceOf_fullVersion .ordered (.cons storey_fullVersion (.cons (.succeed 0) .nil))⟩

/-- Of `( ) , (` there is a single reading as towers as high as can be, and it is one of four. -/
theorem readings_subset_of_fullVersion_towers :
    ∃ outcome after outcome' after',
      Run.Ends ((towers .ordered).run towerRules 3
        (.start (["(", ")", ",", "("].map Word.ofLexeme))) .initial outcome after ∧
      Run.Ends ((towers .exhaustive).run fullTowerRules 3
        (.start (["(", ")", ",", "("].map Word.ofLexeme))) .initial outcome' after' ∧
      outcome.readings = [⟨[1, 0], ⟨["("].map Word.ofLexeme, 3⟩⟩] ∧
      outcome'.readings.length = 4 ∧ outcome.readings ⊆ outcome'.readings := by
  obtain ⟨outcome, after, outcome', after', returned, returned', only, four⟩ :
      ∃ outcome after outcome' after',
        Run.Ends ((towers .ordered).run towerRules 3
          (.start (["(", ")", ",", "("].map Word.ofLexeme))) .initial outcome after ∧
        Run.Ends ((towers .exhaustive).run fullTowerRules 3
          (.start (["(", ")", ",", "("].map Word.ofLexeme))) .initial outcome' after' ∧
        outcome.readings = [⟨[1, 0], ⟨["("].map Word.ofLexeme, 3⟩⟩] ∧
        outcome'.readings.length = 4 := ⟨_, _, _, _, rfl, rfl, rfl, rfl⟩
  have version : (towers .ordered).FullVersion (towers .exhaustive) :=
    separatedBy_fullVersion .ordered (.rule (N := towerNames) ()) (literal_fullVersion ",")
  obtain ⟨-, -, subset⟩ := (readings_subset_of_fullVersion (N := towerNames)).2 towerRules
    fullTowerRules (towers .ordered) (towers .exhaustive) towerRules_fullVersion version
  exact ⟨outcome, after, outcome', after', returned, returned', only, four,
    subset 3 3 _ .initial outcome after .initial outcome' after' returned returned'⟩

end Towers

end Multiparse
