import Multiparse.Proofs.Sequencing

/-!
# Sequences of any length

A sequence of any length does what its members do in pairs, folded from the left, and continuations
behind a parser may be bound one at a time; this holds of all that a run does and not only of its
outcome. Triples, quadruples and quintuples nest their pairs the other way, so they are compared
with sequences by their findings (`sequences_agree`).
-/

namespace Multiparse

open Diagnostic

variable {m : Type → Type} [Monad m] [LawfulMonad m] {τ α β γ : Type}

/-! ## Barren failures -/

namespace Outcome

variable {outcome : Outcome τ α}

/-- Takes the readings away from a failure. -/
def cleared (outcome : Outcome τ α) : Outcome τ α :=
  if outcome.success then outcome else outcome.toFailure

theorem toFailure_eq (failed : outcome.success = false) (barren : outcome.readings = []) :
    outcome.toFailure = outcome := by
  obtain ⟨success, readings, error⟩ := outcome
  obtain rfl : success = false := failed
  obtain rfl : readings = [] := barren
  rfl

theorem cleared_eq (barren : outcome.success = false → outcome.readings = []) :
    outcome.cleared = outcome := by
  cases succeeded : outcome.success with
  | true => rw [cleared, if_pos succeeded]
  | false => rw [cleared, if_neg (by simp [succeeded]), toFailure_eq succeeded (barren succeeded)]

theorem cleared_barren (failed : outcome.cleared.success = false) :
    outcome.cleared.readings = [] := by
  rw [cleared] at failed ⊢
  split at failed
  next succeeded => exact absurd failed (by simp [succeeded])
  next unsuccessful => rw [if_neg unsuccessful, toFailure]

end Outcome

namespace Parser

variable {p : Parser m τ α}

/-- No failure of the parser has readings: nothing changes when they are taken away. -/
def Barren (p : Parser m τ α) : Prop := ∀ input, Outcome.cleared <$> p input = p input

/-- Behind such a parser only outcomes without readings on failure have to be looked at. -/
theorem Barren.bind_eq {B : Type} (barren : p.Barren) {next next' : Outcome τ α → m B}
    (same : ∀ outcome, (outcome.success = false → outcome.readings = []) →
      next outcome = next' outcome)
    (input : Residual τ) : p input >>= next = p input >>= next' := by
  rw [← barren input, map_eq_pure_bind, bind_assoc, bind_assoc]
  apply bind_congr
  intro outcome
  rw [pure_bind, pure_bind]
  exact same _ Outcome.cleared_barren

theorem Computes.barren {run : Residual τ → Outcome τ α} (computes : p.Computes run)
    (barren : ∀ input, (run input).success = false → (run input).readings = []) : p.Barren := by
  intro input
  rw [computes input, map_pure, Outcome.cleared_eq (barren input)]

theorem bind_barren (p : Parser m τ α) (next : α → Parser m τ β) : (bind p next).Barren := by
  intro input
  rw [bind, map_eq_pure_bind, bind_assoc]
  apply bind_congr
  intro first
  split
  · exact pure_bind _ _
  · rw [bind_assoc]
    apply bind_congr
    intro layer
    have sound := Layer.conclude_sound layer.readings layer.error
    rw [pure_bind, Outcome.cleared_eq sound.barren]

/-! ## Continuations one at a time -/

theorem bindAll_nil (p : Parser m τ α) : bindAll p [] = p := by
  funext input
  rw [bindAll]
  refine Eq.trans ?_ (bind_pure (p input))
  apply bind_congr
  intro first
  obtain ⟨success, readings, error⟩ := first
  cases success <;> rfl

theorem bindAll_cons (barren : p.Barren) (next : α → Parser m τ α)
    (nexts : List (α → Parser m τ α)) :
    bindAll p (next :: nexts) = bindAll (bind p next) nexts := by
  funext input
  rw [bindAll, bindAll, bind, bind_assoc]
  apply barren.bind_eq
  intro first barren
  cases succeeded : first.success with
  | false => simp [succeeded, Outcome.toFailure_eq succeeded (barren succeeded)]
  | true =>
    simp only [Bool.not_true, Bool.false_eq_true, ↓reduceIte, List.map_cons, Layer.through,
      bind_assoc, pure_bind]
    apply bind_congr
    intro layer
    obtain ⟨readings, error⟩ := layer
    cases readings <;> rfl

/-- Binding continuations one after another is binding all of them. -/
theorem foldl_bind (barren : p.Barren) (nexts : List (α → Parser m τ α)) :
    nexts.foldl bind p = bindAll p nexts := by
  induction nexts generalizing p with
  | nil => rw [List.foldl_nil, bindAll_nil]
  | cons next nexts ih => rw [List.foldl_cons, ih (bind_barren p next), bindAll_cons barren]

/-! ## Values changed on the way -/

theorem map_map (f : α → β) (g : β → γ) (p : Parser m τ α) :
    map g (map f p) = map (fun value => g (f value)) p := by
  funext input
  simp only [map, bind_assoc, pure_bind, Outcome.map_map]

end Parser

/-- The values of a layer may be changed where they are read or where they are collected. -/
theorem Layer.advance_map (f : β → γ) (stage : Reading τ α → m (Outcome τ β))
    (readings : List (Reading τ α)) (error : Option Diagnostic) :
    advance (fun reading => stage reading >>= fun outcome => pure (outcome.map f)) readings error =
      advance stage readings error >>= fun layer =>
        pure ⟨layer.readings.map (Reading.map f), layer.error⟩ := by
  induction readings generalizing error with
  | nil => simp only [advance, pure_bind, List.map_nil]
  | cons reading others ih =>
    simp only [advance, bind_assoc, pure_bind, ih, Outcome.map_error, Outcome.map_readings,
      List.map_append]

namespace Parser

theorem map_bind (f : β → γ) (p : Parser m τ α) (next : α → Parser m τ β) :
    map f (bind p next) = bind p fun value => map f (next value) := by
  funext input
  rw [map, bind, bind, bind_assoc]
  apply bind_congr
  intro first
  split
  · exact pure_bind _ _
  · simp only [map, Layer.advance_map, bind_assoc, pure_bind]
    apply bind_congr
    intro layer
    exact congrArg pure (Outcome.map_conclude f layer.readings layer.error)

/-- Reads one more value behind those that were read before. -/
def more (p : Parser m τ α) (before : List α) : Parser m τ (List α) :=
  map (fun value => before ++ [value]) p

/-- A sequence starts with no value and reads one more value at a time. -/
theorem sequence_eq_bindAll (ps : List (Parser m τ α)) :
    sequence ps = bindAll (succeed []) (ps.map more) := by
  funext input
  simp only [sequence, bindAll, succeed, ofFunction, pure_bind, Outcome.ofReadings, List.map_map]
  rfl

end Parser

/-! ## Sequences of grammars -/

section Grammars

variable {N : Names} [Aborts m] [Defers m] [Observes N.Tracer m] [Token τ]
  {call : (rule : N.Rule) → Parser m τ (N.Result rule)}

/-- A pair with one more value behind those that were read before. -/
theorem interpret_pair_more (before : Grammar N τ (List α)) (p : Grammar N τ α) :
    ((before.pair p).map fun values => values.1 ++ [values.2]).interpret call =
      Parser.bind (before.interpret call) (p.interpret call).more := by
  rw [Grammar.interpret_map, Grammar.interpret_pair, Parser.map_bind]
  simp only [Parser.map_map]
  rfl

/-- Pairs folded from the left read one more value at a time. -/
theorem interpret_foldl_pair (ps : List (Grammar N τ α)) (before : Grammar N τ (List α)) :
    (ps.foldl (fun before p => (before.pair p).map fun values => values.1 ++ [values.2])
        before).interpret call =
      (ps.map fun p => (p.interpret call).more).foldl Parser.bind (before.interpret call) := by
  induction ps generalizing before with
  | nil => rfl
  | cons p ps ih => rw [List.foldl_cons, ih, interpret_pair_more, List.map_cons, List.foldl_cons]

omit [LawfulMonad m] in
theorem interpret_foldl_bind (p : Grammar N τ α) (held : List N.Rule)
    (nexts : List (α → Grammar N τ α)) :
    (nexts.foldl (fun before next => before.bind held next) p).interpret call =
      (nexts.map fun next value => (next value).interpret call).foldl Parser.bind
        (p.interpret call) := by
  induction nexts generalizing p with
  | nil => rfl
  | cons next nexts ih =>
    rw [List.foldl_cons, ih, Grammar.interpret_bind, List.map_cons, List.foldl_cons]

end Grammars

/-! ## Findings of a sequence -/

namespace Outcome

theorem map_ofReadings (f : α → β) (readings : List (Reading τ α)) (error : Option Diagnostic) :
    (ofReadings readings error).map f = ofReadings (readings.map (Reading.map f)) error :=
  rfl

theorem map_self (outcome : Outcome τ α) : (outcome.map fun value => value) = outcome := by
  obtain ⟨success, readings, error⟩ := outcome
  exact congrArg (Outcome.mk success · error) (List.map_id readings)

/-- What functions find in sequence, with the list of their values. -/
def listed : List (Residual τ → Outcome τ α) → Residual τ → Outcome τ (List α)
  | [], input => .ofReadings [⟨[], input⟩] none
  | run :: runs, input =>
    (run input).andThen fun head => (listed runs head.rest).map (head.value :: ·)

theorem listed_sound {runs : List (Residual τ → Outcome τ α)}
    (sounds : ∀ run ∈ runs, ∀ input, (run input).Sound) (input : Residual τ) :
    (listed runs input).Sound := by
  cases runs with
  | nil => exact ofReadings_sound none (List.cons_ne_nil _ _)
  | cons run runs => exact (sounds run List.mem_cons_self input).andThen _

theorem SameFindings.symm {outcome outcome' : Outcome τ α} (same : outcome.SameFindings outcome') :
    outcome'.SameFindings outcome :=
  ⟨same.success.symm, same.readings.symm, same.place.symm⟩

theorem SameFindings.trans {first second third : Outcome τ α} (same : first.SameFindings second)
    (same' : second.SameFindings third) : first.SameFindings third :=
  ⟨same.success.trans same'.success, same.readings.trans same'.readings,
    same.place.trans same'.place⟩

theorem SameFindings.ofEq {outcome outcome' : Outcome τ α} (same : outcome = outcome') :
    outcome.SameFindings outcome' := by
  subst same
  exact ⟨rfl, rfl, rfl⟩

/-- Reads one more value behind each reading. -/
def more (before : Outcome τ (List α)) (run : Residual τ → Outcome τ α) : Outcome τ (List α) :=
  before.andThen fun reading => (run reading.rest).map fun value => reading.value ++ [value]

/-- Values that are collected from the left are those of a sequence. -/
theorem Sound.foldl_more {runs : List (Residual τ → Outcome τ α)} {before : Outcome τ (List α)}
    (sound : before.Sound) (sounds : ∀ run ∈ runs, ∀ input, (run input).Sound) :
    (runs.foldl more before).SameFindings
      (before.andThen fun reading => (listed runs reading.rest).map (reading.value ++ ·)) := by
  induction runs generalizing before with
  | nil =>
    apply SameFindings.ofEq
    have nothing : ∀ reading : Reading τ (List α),
        (listed [] reading.rest).map (reading.value ++ ·) =
          (ofReadings [reading] none : Outcome τ (List α)) := by
      intro reading
      rw [listed, map_ofReadings, List.map_singleton, Reading.map, List.append_nil]
    rw [List.foldl_nil, funext nothing, sound.andThen_self]
  | cons run runs ih =>
    have later : ∀ other ∈ runs, ∀ input, (other input).Sound :=
      fun other member => sounds other (List.mem_cons_of_mem _ member)
    have here := sounds run List.mem_cons_self
    have step : (before.more run).Sound := sound.andThen _
    rw [List.foldl_cons]
    apply (ih step later).trans
    have reassociated := sound.andThen_assoc
      (fun reading => (here reading.rest).map fun value => reading.value ++ [value])
      (fun reading => (listed_sound later reading.rest).map (reading.value ++ ·))
    apply reassociated.trans
    apply SameFindings.ofEq
    apply andThen_congr
    intro reading _
    rw [listed, map_andThen, andThen_map]
    apply andThen_congr
    intro head _
    simp [map_map, Reading.map]

end Outcome

/-! ## Findings of parsers -/

namespace Parser

/-- On every input both parsers return, and they find the same. -/
def FindsSame (p q : Parser m τ α) : Prop :=
  ∀ input, ∃ left right, p input = pure left ∧ q input = pure right ∧ left.SameFindings right

variable {p : Parser m τ α} {ps : List (Parser m τ α)} {runs : List (Residual τ → Outcome τ α)}

theorem Sound.map (sound : p.Sound) (f : α → β) : (Parser.map f p).Sound := by
  obtain ⟨run, ran, sounds⟩ := sound
  exact ⟨_, ran.map f, fun input => (sounds input).map f⟩

theorem Sound.barren (sound : p.Sound) : p.Barren := by
  obtain ⟨run, ran, sounds⟩ := sound
  exact ran.barren fun input => (sounds input).barren

theorem foldl_more_computes (computes : List.Forall₂ Computes ps runs)
    {before : Parser m τ (List α)} {start : Residual τ → Outcome τ (List α)}
    (starts : before.Computes start) :
    ((ps.map more).foldl bind before).Computes fun input =>
      runs.foldl Outcome.more (start input) := by
  induction computes generalizing before start with
  | nil => exact starts
  | cons first others ih =>
    -- Left to the type of the whole fold, this step would be compared with every form of it.
    have next := starts.bind fun values => first.map (values ++ [·])
    exact ih next

theorem succeed_barren (value : α) : (succeed value : Parser m τ α).Barren :=
  (ofFunction_computes _).barren fun _ failed => Bool.noConfusion failed

/-- Up to the words of the diagnostic a sequence returns what is found in sequence. -/
theorem sequence_finds (computes : List.Forall₂ Computes ps runs)
    (sounds : ∀ run ∈ runs, ∀ input, (run input).Sound) :
    ∃ found, (sequence ps).Computes found ∧
      ∀ input, (found input).SameFindings (Outcome.listed runs input) := by
  have starts : (succeed [] : Parser m τ (List α)).Computes fun input =>
      .ofReadings [⟨[], input⟩] none := ofFunction_computes _
  have ran := foldl_more_computes computes starts
  rw [foldl_bind (succeed_barren []), ← sequence_eq_bindAll] at ran
  refine ⟨_, ran, fun input => ?_⟩
  have seeded : (Outcome.ofReadings [⟨([] : List α), input⟩] none).Sound :=
    Outcome.ofReadings_sound none (List.cons_ne_nil _ _)
  apply (seeded.foldl_more sounds).trans
  apply Outcome.SameFindings.ofEq
  rw [Outcome.andThen_single ((Outcome.listed_sound sounds input).map _)]
  exact Outcome.map_self _

end Parser

/-! ## Tuples -/

section Tuples

variable {N : Names} [Aborts m] [Defers m] [Observes N.Tracer m] [Token τ]
  {call : (rule : N.Rule) → Parser m τ (N.Result rule)} {p : Grammar N τ α} {q : Grammar N τ β}
  {values : β → List α} {ps : List (Grammar N τ α)}

/-- Up to the form of its values, a grammar returns what sound members find in sequence. -/
def Lists (call : (rule : N.Rule) → Parser m τ (N.Result rule)) (q : Grammar N τ β)
    (values : β → List α) (ps : List (Grammar N τ α)) : Prop :=
  ∃ runs, List.Forall₂ Parser.Computes (ps.map fun p => p.interpret call) runs ∧
    (∀ run ∈ runs, ∀ input, (run input).Sound) ∧
    ((q.map values).interpret call).Computes (Outcome.listed runs)

theorem lists_single (sound : (p.interpret call).Sound) :
    Lists call p (fun value => [value]) [p] := by
  obtain ⟨run, computes, sounds⟩ := sound
  refine ⟨[run], .cons computes .nil, by simpa using sounds, fun input => ?_⟩
  have alone : Outcome.listed [run] input = (run input).map fun value => [value] := by
    rw [← ((sounds input).map fun value => [value]).andThen_self, Outcome.andThen_map]
    rfl
  rw [alone]
  exact computes.map (fun value => [value]) input

theorem Lists.pair (lists : Lists call q values ps) (sound : (p.interpret call).Sound) :
    Lists call (p.pair q) (fun pair => pair.1 :: values pair.2) (p :: ps) := by
  obtain ⟨runs, members, memberSounds, listed⟩ := lists
  obtain ⟨run, computes, sounds⟩ := sound
  refine ⟨run :: runs, .cons computes members, List.forall_mem_cons.mpr ⟨sounds, memberSounds⟩, ?_⟩
  have nested : ((p.pair q).map fun pair => pair.1 :: values pair.2).interpret call =
      Parser.bind (p.interpret call) fun head =>
        Parser.map (head :: ·) ((q.map values).interpret call) := by
    rw [Grammar.interpret_map, Grammar.interpret_pair, Parser.map_bind, Grammar.interpret_map]
    simp only [Parser.map_map]
  rw [nested]
  have followed := computes.bind fun head => listed.map (head :: ·)
  exact followed

theorem Lists.findsSame (lists : Lists call q values ps) :
    ((q.map values).interpret call).FindsSame ((Grammar.sequenceOf ps).interpret call) := by
  obtain ⟨runs, members, memberSounds, listed⟩ := lists
  obtain ⟨found, ran, same⟩ := Parser.sequence_finds members memberSounds
  rw [Grammar.interpret_sequenceOf]
  exact fun input => ⟨_, _, listed input, ran input, (same input).symm⟩

end Tuples

/-- **Sequences of any length agree with pairs.** A sequence is run like its members in pairs,
folded from the left behind nothing, with each second value appended. Continuations that follow one
another are run like binds that are nested to the left, if the parser in front has no readings where
it fails. In both cases nothing tells the runs apart. Three, four or five parsers that compute and
are sound return the same readings in the same order as a tuple and as a sequence, and their
diagnostics lie at the same place. -/
theorem sequences_agree {N : Names} {m : Type → Type} [Monad m] [LawfulMonad m] [Aborts m]
    [Defers m] [Observes N.Tracer m] [Token τ]
    (call : (rule : N.Rule) → Parser m τ (N.Result rule)) :
    (∀ ps : List (Grammar N τ α),
      (Grammar.sequenceOf ps).interpret call =
        (ps.foldl (fun before p => .map (fun values => values.1 ++ [values.2]) (.pair before p))
          (.succeed []) : Grammar N τ (List α)).interpret call) ∧
    (∀ (p : Grammar N τ α) (held : List N.Rule) (nexts : List (α → Grammar N τ α)),
      (p.interpret call).Barren →
        (p.bindEach held nexts).interpret call =
          (nexts.foldl (fun before next => before.bind held next) p).interpret call) ∧
    ∀ p q r : Grammar N τ α, (p.interpret call).Sound → (q.interpret call).Sound →
      (r.interpret call).Sound →
        (((p.triple q r).map fun values =>
          [values.1, values.2.1, values.2.2]).interpret call).FindsSame
            ((Grammar.sequenceOf [p, q, r]).interpret call) ∧
        ∀ s : Grammar N τ α, (s.interpret call).Sound →
          (((p.quadruple q r s).map fun values =>
            [values.1, values.2.1, values.2.2.1, values.2.2.2]).interpret call).FindsSame
              ((Grammar.sequenceOf [p, q, r, s]).interpret call) ∧
          ∀ t : Grammar N τ α, (t.interpret call).Sound →
            (((p.quintuple q r s t).map fun values =>
              [values.1, values.2.1, values.2.2.1, values.2.2.2.1, values.2.2.2.2]).interpret
                call).FindsSame ((Grammar.sequenceOf [p, q, r, s, t]).interpret call) := by
  refine ⟨fun ps => ?folds, fun p held nexts barren => ?binds, ?tuples⟩
  case folds =>
    rw [Grammar.interpret_sequenceOf, interpret_foldl_pair, Parser.sequence_eq_bindAll,
      ← Parser.foldl_bind (Parser.succeed_barren []), List.map_map]
    rfl
  case binds =>
    rw [Grammar.interpret_bindEach, interpret_foldl_bind, Parser.foldl_bind barren]
  case tuples =>
    intro p q r soundP soundQ soundR
    have triple := ((lists_single soundR).pair soundQ).pair soundP
    refine ⟨triple.findsSame, fun s soundS => ?_⟩
    have quadruple := (((lists_single soundS).pair soundR).pair soundQ).pair soundP
    refine ⟨quadruple.findsSame, fun t soundT => ?_⟩
    have quintuple := ((((lists_single soundT).pair soundS).pair soundR).pair soundQ).pair soundP
    exact quintuple.findsSame

section Glimpses

theorem another_sound (call : (rule : Unit) → Parser (Except Fault) Word Nat) (seen : Nat) :
    ((another seen).interpret call).Sound := by
  have sound : (Parser.ofFunction glimpse : Parser (Except Fault) Word Nat).Sound :=
    ⟨glimpse, Parser.ofFunction_computes glimpse, glimpse_sound⟩
  exact sound.map (seen + ·)

/-- Three glimpses at four words see the same words in sequence, in pairs, one after another and as
a triple. -/
theorem sequences_agree_glimpse :
    ∃ call : (rule : Unit) → Parser (Except Fault) Word Nat,
      (∃ outcome,
        (Grammar.sequenceOf [another 0, another 0, another 0]).interpret call fourWords =
          .ok outcome ∧
        ([another 0, another 0, another 0].foldl
          (fun before p => .map (fun values => values.1 ++ [values.2]) (.pair before p))
          (.succeed []) : Grammar towerNames Word (List Nat)).interpret call fourWords =
            .ok outcome ∧
        outcome.values = [[1, 1, 1], [1, 1, 2], [1, 2, 1], [2, 1, 1]]) ∧
      ((another 0).interpret call).Barren ∧
      (∃ outcome,
        ((another 0).bindEach [] [another, another]).interpret call fourWords = .ok outcome ∧
        (((another 0).bind [] another).bind [] another).interpret call fourWords = .ok outcome ∧
        outcome.values = [3, 4, 4, 4]) ∧
      ((another 0).interpret call).Sound ∧
      ∃ left right,
        (((another 0).triple (another 0) (another 0)).map fun values =>
          [values.1, values.2.1, values.2.2]).interpret call fourWords = .ok left ∧
        (Grammar.sequenceOf [another 0, another 0, another 0]).interpret call fourWords =
          .ok right ∧
        left.SameFindings right ∧ left.values = [[1, 1, 1], [1, 1, 2], [1, 2, 1], [2, 1, 1]] := by
  let call : (rule : Unit) → Parser (Except Fault) Word Nat := fun _ => .fail "no rule"
  have sound := another_sound call 0
  obtain ⟨folds, binds, tuples⟩ := sequences_agree (N := towerNames) (α := Nat) call
  obtain ⟨triple, -⟩ := tuples _ _ _ sound sound sound
  obtain ⟨left, right, leftRan, rightRan, same⟩ := triple fourWords
  have values : left.values = [[1, 1, 1], [1, 1, 2], [1, 2, 1], [2, 1, 1]] := by
    cases leftRan
    rfl
  refine ⟨call, ⟨_, rfl, ?_, rfl⟩, sound.barren, ⟨_, ?_, rfl, rfl⟩, sound, left, right, leftRan,
    rightRan, same, values⟩
  · rw [← folds]
    rfl
  · rw [binds _ _ _ sound.barren]
    rfl

end Glimpses

end Multiparse
