import Multiparse.Parser.Ahead
import Multiparse.Parser.Gather
import Multiparse.Parser.Repeat
import Multiparse.Parser.Report

/-!
# Moving along the input

The same tokens can stand behind more of others. Then every offset grows by as many, and nothing
else changes: what parsers compare and merge is the same in both places.
-/

namespace Multiparse

variable {τ α β : Type} (count : Nat)

/-- The position when so many more tokens stand in front. -/
def Position.shift : Position → Position
  | unknown => unknown
  | token offset => token (offset + count)
  | eof => eof

/-- The same diagnostic when so many more tokens stand in front. -/
def Diagnostic.shift (diagnostic : Diagnostic) : Diagnostic :=
  diagnostic.moveTo (diagnostic.position.shift count)

/-- The same tokens with so many more in front of them. -/
def Residual.shift (residual : Residual τ) : Residual τ :=
  ⟨residual.tokens, residual.offset + count⟩

/-- The same reading when so many more tokens stand in front. -/
def Reading.shift (reading : Reading τ α) : Reading τ α :=
  ⟨reading.value, reading.rest.shift count⟩

/-- The same outcome when so many more tokens stand in front. -/
def Outcome.shift (outcome : Outcome τ α) : Outcome τ α :=
  ⟨outcome.success, outcome.readings.map (Reading.shift count),
    outcome.error.map (Diagnostic.shift count)⟩

/-- The same layer when so many more tokens stand in front. -/
def Layer.shift (layer : Layer τ α) : Layer τ α :=
  ⟨layer.readings.map (Reading.shift count), layer.error.map (Diagnostic.shift count)⟩

/-! ## Diagnostics -/

theorem Position.compareDepth_shift (left right : Position) :
    (left.shift count).compareDepth (right.shift count) = left.compareDepth right := by
  cases left <;> cases right <;>
    simp [shift, compareDepth, compare, compareOfLessAndEq]

namespace Diagnostic

theorem absorb_shift (kept other : Diagnostic) :
    (kept.shift count).absorb (other.shift count) = (kept.absorb other).shift count := by
  rw [absorb, absorb]
  change (if kept.expected.isEmpty || other.expected.isEmpty then _ else _) = _
  by_cases silent : (kept.expected.isEmpty || other.expected.isEmpty) = true
  · simp only [silent, ↓reduceIte]
  · simp only [silent]
    rfl

theorem deeper_shift (first second : Diagnostic) :
    (first.shift count).deeper (second.shift count) = (first.deeper second).shift count := by
  have order : (first.shift count).position.compareDepth (second.shift count).position =
      first.position.compareDepth second.position := Position.compareDepth_shift count _ _
  rw [deeper, deeper, order]
  cases first.position.compareDepth second.position with
  | lt => rfl
  | gt => rfl
  | eq => exact absorb_shift count first second

theorem farthest_shift (first second : Option Diagnostic) :
    farthest (first.map (shift count)) (second.map (shift count)) =
      (farthest first second).map (shift count) := by
  cases first with
  | none => rfl
  | some first =>
    cases second with
    | none => rfl
    | some second => exact congrArg some (deeper_shift count first second)

theorem getD_noAlternative_shift (error : Option Diagnostic) :
    (error.map (shift count)).getD noAlternative = (error.getD noAlternative).shift count := by
  cases error <;> rfl

theorem rephrase_shift (message : String) (error : Option Diagnostic) :
    rephrase message (error.map (shift count)) = (rephrase message error).shift count := by
  cases error with
  | none => rfl
  | some reason =>
    rw [Option.map_some, rephrase, rephrase]
    split <;> rfl

theorem wantedAs_shift (name : String) (position : Position) (error : Option Diagnostic) :
    wantedAs name (position.shift count) (error.map (shift count)) =
      (wantedAs name position error).shift count := by
  cases error <;> rfl

end Diagnostic

/-! ## Residual input -/

namespace Residual

@[simp] theorem shift_remaining (residual : Residual τ) :
    (residual.shift count).remaining = residual.remaining := rfl

theorem position_shift (residual : Residual τ) :
    (residual.shift count).position = residual.position.shift count := by
  rw [position, position]
  change (if residual.isEmpty then _ else _) = _
  split <;> rfl

theorem advance_shift (residual : Residual τ) :
    (residual.shift count).advance = residual.advance.shift count := by
  obtain ⟨tokens, offset⟩ := residual
  cases tokens with
  | nil => rfl
  | cons token tokens => exact congrArg (mk tokens) (Nat.add_right_comm offset count 1)

theorem sameAs_shift (left right : Residual τ) :
    (left.shift count).sameAs (right.shift count) = left.sameAs right := by
  have offsets : (left.offset + count == right.offset + count) = (left.offset == right.offset) := by
    rw [Bool.eq_iff_iff, beq_iff_eq, beq_iff_eq, Nat.add_right_cancel_iff]
  exact congrArg (· || (left.isEmpty && right.isEmpty)) offsets

end Residual

theorem Parser.unexpectedMatch_shift [Token τ] (input : Residual τ) :
    unexpectedMatch (input.shift count) = (unexpectedMatch input).shift count := by
  obtain ⟨tokens, offset⟩ := input
  cases tokens <;> rfl

/-! ## Outcomes -/

namespace Reading

theorem map_shift (f : α → β) (readings : List (Reading τ α)) :
    (readings.map (shift count)).map (map f) = (readings.map (map f)).map (shift count) := by
  rw [List.map_map, List.map_map]
  rfl

theorem addToGroup_shift (reading : Reading τ α) (groups : List (Reading τ (List α))) :
    (reading.shift count).addToGroup (groups.map (shift count)) =
      (reading.addToGroup groups).map (shift count) := by
  induction groups with
  | nil => rfl
  | cons group groups ih =>
    rw [List.map_cons, addToGroup, addToGroup]
    change (if (group.rest.shift count).sameAs (reading.rest.shift count) then _ else _) = _
    rw [Residual.sameAs_shift, ih]
    split <;> rfl

theorem group_shift (readings : List (Reading τ α)) :
    group (readings.map (shift count)) = (group readings).map (shift count) := by
  have grown : ∀ groups : List (Reading τ (List α)),
      (readings.map (shift count)).foldl (fun groups reading => reading.addToGroup groups)
        (groups.map (shift count)) =
      (readings.foldl (fun groups reading => reading.addToGroup groups) groups).map
        (shift count) := by
    induction readings with
    | nil => exact fun groups => rfl
    | cons reading readings ih =>
      intro groups
      rw [List.map_cons, List.foldl_cons, addToGroup_shift, ih, List.foldl_cons]
  exact grown []

end Reading

namespace Outcome

@[simp] theorem shift_success (outcome : Outcome τ α) :
    (outcome.shift count).success = outcome.success := rfl

theorem map_shift (f : α → β) (outcome : Outcome τ α) :
    (outcome.shift count).map f = (outcome.map f).shift count := by
  simp only [Outcome.map, shift, Reading.map_shift]

theorem values_shift (outcome : Outcome τ α) : (outcome.shift count).values = outcome.values := by
  simp only [values, shift, List.map_map]
  rfl

theorem withEarlier_shift (earlier : Option Diagnostic) (outcome : Outcome τ α) :
    (outcome.shift count).withEarlier (earlier.map (Diagnostic.shift count)) =
      (outcome.withEarlier earlier).shift count := by
  simp only [withEarlier, shift, Diagnostic.farthest_shift]

theorem conclude_shift (success : Bool) (readings : List (Reading τ α))
    (error : Option Diagnostic) :
    conclude success (readings.map (Reading.shift count)) (error.map (Diagnostic.shift count)) =
      (conclude success readings error).shift count := by
  cases success with
  | true => rfl
  | false =>
    simp only [conclude, Bool.false_eq_true, ↓reduceIte, Diagnostic.getD_noAlternative_shift]
    rfl

theorem shift_zero (outcome : Outcome τ α) : outcome.shift 0 = outcome := by
  have readings : Reading.shift 0 = (id : Reading τ α → Reading τ α) := rfl
  have errors : Diagnostic.shift 0 = id := by
    funext ⟨position, message, expected, found⟩
    cases position <;> rfl
  rw [shift, readings, errors, List.map_id, Option.map_id]
  rfl

end Outcome

theorem Layer.isEmpty_shift (layer : Layer τ α) :
    (layer.shift count).readings.isEmpty = layer.readings.isEmpty :=
  List.isEmpty_map

theorem Layer.conclude_shift (layer : Layer τ α) :
    (layer.shift count).conclude = layer.conclude.shift count := by
  rw [Layer.conclude, Layer.conclude, ← Outcome.conclude_shift, Layer.isEmpty_shift]
  rfl

theorem Repetition.progressing_shift (input : Residual τ) (outcome : Outcome τ α) :
    progressing (input.shift count) (outcome.shift count) =
      (progressing input outcome).shift count := by
  have kept : (outcome.readings.map (Reading.shift count)).filter
      (fun reading => decide (input.offset + count < reading.rest.offset)) =
      (outcome.readings.filter fun reading => decide (input.offset < reading.rest.offset)).map
        (Reading.shift count) := by
    rw [List.filter_map]
    congr 1
    apply List.filter_congr
    intro reading _
    simp [Reading.shift, Residual.shift]
  exact congrArg (fun readings => Outcome.mk outcome.success readings _) kept

end Multiparse
