import Multiparse.Proofs.Repetition.Levels

/-!
# One queue or a layer at a time

The levels of a repetition may be searched in two ways. One keeps all readings in a queue and
continues them one after another, so the queue grows while it is worked off; the other replaces a
whole layer by the next one. Both are loops that end, they find the same readings in the same order
and merge the same diagnostics in the same order, and this is what the extents of a repetition
return (`extents_agree`).
-/

namespace Multiparse

open Diagnostic

variable {m : Type → Type} [Monad m] {τ α : Type}

namespace Repetition

/-- Repeats the body of a loop until it is done; a loop that is not done after so many turns has no
final state. -/
def loop {σ : Type} (body : σ → m (ForInStep σ)) : Nat → σ → m (Option σ)
  | 0, _ => pure none
  | turns + 1, state => do
    match ← body state with
    | .done final => pure (some final)
    | .yield next => loop body turns next

/-- A search that keeps all of its readings in one queue. -/
structure Queue (τ α : Type) where
  readings : List (Reading τ (List α))
  /-- How many of the readings were continued. -/
  continued : Nat
  error : Option Diagnostic

namespace Queue

/-- The queue before any item was read. -/
def seed (input : Residual τ) : Queue τ α := ⟨[⟨[], input⟩], 0, none⟩

/-- Reads one more item from the next reading in the queue and puts what it finds at the end. -/
def turn (p : Parser m τ α) (queue : Queue τ α) : m (ForInStep (Queue τ α)) :=
  match queue.readings[queue.continued]? with
  | none => pure (.done queue)
  | some items => do
    let outcome ← p items.rest
    let found := (progressing items.rest outcome).map fun value => items.value ++ [value]
    pure (.yield ⟨queue.readings ++ found.readings, queue.continued + 1,
      farthest queue.error outcome.error⟩)

end Queue

/-- Reads one more item from each reading of the layer, unless none of them goes on. -/
def deepen (p : Parser m τ α) (layer : Layer τ (List α)) : m (ForInStep (Layer τ (List α))) := do
  let next ← round p layer
  pure (if next.readings.isEmpty then .done ⟨layer.readings, next.error⟩ else .yield next)

variable [LawfulMonad m] {p : Parser m τ α} {run : Residual τ → Outcome τ α} {input : Residual τ}

/-! ## Working off a queue -/

namespace Queue

/-- What is waiting in the queue is continued in turn. -/
theorem loop_waiting (computes : p.Computes run) (before waiting later : List (Reading τ (List α)))
    (error : Option Diagnostic) (turns : Nat) :
    loop (turn p) (waiting.length + turns) ⟨before ++ waiting ++ later, before.length, error⟩ =
      loop (turn p) turns
        ⟨before ++ waiting ++ (later ++ waiting.flatMap (onward run)), (before ++ waiting).length,
          (waiting.map fun items => (run items.rest).error).foldl farthest error⟩ := by
  -- A turn moves one reading from the waiting to the continued ones; what it finds has to wait
  -- behind the later ones, so it does not get into the way of the induction.
  induction waiting generalizing before later error with
  | nil => simp
  | cons items others ih =>
    have next : (before ++ items :: others ++ later)[before.length]? = some items := by simp
    have turned : turn p ⟨before ++ items :: others ++ later, before.length, error⟩ =
        pure (.yield ⟨before ++ items :: others ++ later ++ onward run items, before.length + 1,
          farthest error (run items.rest).error⟩) := by
      rw [turn, next]
      dsimp only
      rw [computes items.rest, pure_bind]
      rfl
    have continued := ih (before ++ [items]) (later ++ onward run items)
      (farthest error (run items.rest).error)
    rw [List.length_cons, Nat.add_right_comm, loop, turned, pure_bind]
    simpa using continued

/-- The queue finds one level after another. -/
theorem loop_below (computes : p.Computes run) (count turns : Nat) :
    loop (turn p) ((below run input count).length + turns) (seed input) =
      loop (turn p) turns
        ⟨below run input (count + 1), (below run input count).length,
          met run (below run input count)⟩ := by
  induction count generalizing turns with
  | zero =>
    rw [show (below run input 0).length + turns = turns from Nat.zero_add turns]
    rfl
  | succ count ih =>
    have worked := loop_waiting computes (below run input count) (level run input count) []
      (met run (below run input count)) turns
    rw [List.append_nil, List.nil_append, ← met_append] at worked
    calc
      _ = loop (turn p) ((below run input count).length +
            ((level run input count).length + turns)) (seed input) := by
        rw [below_succ, List.length_append, Nat.add_assoc]
      _ = loop (turn p) ((level run input count).length + turns)
            ⟨below run input count ++ level run input count, (below run input count).length,
              met run (below run input count)⟩ := by
        rw [ih, below_succ]
      _ = _ := by
        rw [worked]
        simp only [below_succ, level]

/-- Behind the last level nothing is waiting any more. -/
theorem loop_ends (computes : p.Computes run) {last : Nat}
    (dry : level run input (last + 1) = []) :
    loop (turn p) ((below run input (last + 1)).length + 1) (seed input) =
      pure (some ⟨below run input (last + 1), (below run input (last + 1)).length,
        met run (below run input (last + 1))⟩) := by
  rw [loop_below computes, below_succ (last + 1), dry, List.append_nil, loop, turn,
    List.getElem?_eq_none le_rfl, pure_bind]

end Queue

/-! ## A layer at a time -/

theorem deepen_ends (computes : p.Computes run) {last : Nat}
    (exact : ∀ count, level run input count ≠ [] ↔ count ≤ last) (turns : Nat) {count : Nat}
    (early : count ≤ last) (enough : last < count + turns) :
    loop (deepen p) turns ⟨level run input count, met run (below run input count)⟩ =
      pure (some ⟨level run input last, met run (below run input (last + 1))⟩) := by
  induction turns generalizing count with
  | zero => omega
  | succ turns ih =>
    rw [loop, deepen, round_pure computes, pure_bind, pure_bind]
    rcases Nat.eq_or_lt_of_le early with rfl | earlier
    · simp [dry_behind_last exact]
    · have filled : level run input (count + 1) ≠ [] := (exact _).mpr earlier
      simp only [List.isEmpty_iff, filled, ↓reduceIte]
      exact ih earlier (by omega)

end Repetition

open Repetition

/-- **All extents of a repetition are made of the same levels.** Let the items be read by a parser
that computes, from a rest of some tokens, and let it lead to such rests only. There is a last level
with a reading. Shortest first, the readings are those of all levels up to it, fewest items first;
longest first they are the same in reverse; the greedy ones are those of the last level. All three
have the farthest of the diagnostics that are met behind the readings of all levels. Exactly `count`
items are those of the level `count`, with the diagnostics met behind the levels before it; if there
are none this is a failure for that reason. A queue that is worked off and layers that are replaced
one by the next find the same. -/
theorem extents_agree [LawfulMonad m] {tokens : List τ} {p : Parser m τ α}
    {run : Residual τ → Outcome τ α} (computes : p.Computes run)
    (within : Within (.start tokens) run) {input : Residual τ}
    (inside : (Residual.start tokens).LeadsTo input) :
    ∃ last, (∀ count, level run input count ≠ [] ↔ count ≤ last) ∧
      Parser.repeated .shortestFirst p input =
        pure (.ofReadings (below run input (last + 1)) (met run (below run input (last + 1)))) ∧
      Parser.repeated .longestFirst p input =
        pure (.ofReadings (below run input (last + 1)).reverse
          (met run (below run input (last + 1)))) ∧
      Parser.repeated .greedy p input =
        pure (.ofReadings (level run input last) (met run (below run input (last + 1)))) ∧
      (∀ count, Parser.repeated (.exactly count) p input =
        pure (if level run input count = [] then
          .failure ((met run (below run input count)).getD .noAlternative)
        else .ofReadings (level run input count) (met run (below run input count)))) ∧
      loop (Queue.turn p) ((below run input (last + 1)).length + 1) (Queue.seed input) =
        pure (some ⟨below run input (last + 1), (below run input (last + 1)).length,
          met run (below run input (last + 1))⟩) ∧
      loop (deepen p) (last + 1) (seed input) =
        pure (some ⟨level run input last, met run (below run input (last + 1))⟩) := by
  obtain ⟨last, shallow, exact⟩ := exists_last within inside
  have returns := repeated_pure computes shallow exact
  have workedOff := Queue.loop_ends computes (dry_behind_last exact)
  have deepened := deepen_ends computes exact (last + 1) (Nat.zero_le last) (by omega)
  exact ⟨last, exact, returns .shortestFirst, returns .longestFirst, returns .greedy,
    fun count => returns (.exactly count), workedOff, deepened⟩

/-- Two strides. -/
def strides : List Unit := [(), ()]

/-- One stride or two, or none, or back to the start. -/
def stroll (rest : Residual Unit) : Outcome Unit Nat :=
  .ofReadings [⟨1, rest.advance⟩, ⟨2, rest.advanceBy 2⟩, ⟨0, rest⟩, ⟨9, .start strides⟩]
    (some ((Diagnostic.ofMessage "stroll").moveTo rest.position))

theorem stroll_within : Within (.start strides) stroll := by
  intro rest inside reading member
  simp only [stroll, Outcome.ofReadings, List.mem_cons, List.not_mem_nil, or_false] at member
  rcases member with rfl | rfl | rfl | rfl
  · exact inside.trans (.advance rest)
  · exact inside.trans ⟨2, rfl⟩
  · exact inside
  · exact .refl _

/-- Two strides are taken one by one, or together, and no walk has more than two items. -/
theorem extents_agree_stroll :
    Within (.start strides) stroll ∧ (Residual.start strides).LeadsTo (.start strides) ∧
      Parser.repeated .shortestFirst (.ofFunction stroll) (.start strides) =
        (.ok (.ofReadings [⟨[], .start strides⟩, ⟨[1], ⟨[()], 1⟩⟩, ⟨[2], ⟨[], 2⟩⟩,
          ⟨[1, 1], ⟨[], 2⟩⟩, ⟨[1, 2], ⟨[], 2⟩⟩]
            (some ((Diagnostic.ofMessage "stroll").moveTo .eof))) : Except Fault _) ∧
      Parser.repeated .greedy (.ofFunction stroll) (.start strides) =
        (.ok (.ofReadings [⟨[1, 1], ⟨[], 2⟩⟩, ⟨[1, 2], ⟨[], 2⟩⟩]
          (some ((Diagnostic.ofMessage "stroll").moveTo .eof))) : Except Fault _) := by
  have computes : (Parser.ofFunction stroll : Parser (Except Fault) Unit Nat).Computes stroll :=
    Parser.ofFunction_computes stroll
  obtain ⟨last, exact, shortest, -, greedy, -⟩ :=
    extents_agree computes stroll_within (.refl (.start strides))
  have two : level stroll (.start strides) 2 ≠ [] := List.cons_ne_nil _ _
  have three : level stroll (.start strides) 3 = [] := rfl
  obtain rfl : last = 2 := by
    have atLeast := (exact 2).mp two
    have fewer := mt (exact 3).mpr (not_not_intro three)
    omega
  exact ⟨stroll_within, .refl _, shortest, greedy⟩

end Multiparse
