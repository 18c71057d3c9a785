import Mathlib.Data.List.Induction
import Multiparse.Proofs.Session.Change

/-!
# How long cells live

After each operation the cells are freed that have lost their last holder, and then those that only
they held, until every living cell is held. What is held is never freed, since whatever an operation
makes is held by a slot or owns what a slot holds (`Session.sound_after`).
-/

namespace Multiparse

variable {τ ρ : Type}

/-- The cells that the pattern of a cell owns, also when the cell has been freed. -/
def Cell.owned (cell : Cell τ ρ) : List Nat :=
  match cell.pattern with
  | some pattern => pattern.holds
  | none => []

theorem Cell.mem_holds {cell : Cell τ ρ} {number : Nat} :
    number ∈ cell.holds ↔ cell.freed = false ∧ number ∈ cell.owned := by
  obtain ⟨name, pattern, freed⟩ := cell
  cases freed <;> cases pattern <;> simp [holds, owned]

namespace Session

variable {session later : Session τ ρ} {number : Nat}

/-- A cell is there and has not been freed. -/
def Living (session : Session τ ρ) (number : Nat) : Prop :=
  ∃ cell, session.cells[number]? = some cell ∧ cell.freed = false

/-- The pattern of the first cell owns the second one. -/
def Owns (session : Session τ ρ) (owner number : Nat) : Prop :=
  ∃ cell, session.cells[owner]? = some cell ∧ number ∈ cell.owned

/-- Held is what a slot holds and what the pattern of a living cell owns. -/
theorem mem_heldCells : number ∈ session.heldCells ↔
    number ∈ session.handles ∨ ∃ owner, session.Living owner ∧ session.Owns owner number := by
  unfold heldCells
  rw [List.mem_append, List.mem_flatMap]
  apply or_congr_right
  constructor
  · intro ⟨cell, among, held⟩
    obtain ⟨owner, there⟩ := List.mem_iff_getElem?.mp among
    obtain ⟨living, owned⟩ := Cell.mem_holds.mp held
    exact ⟨owner, ⟨cell, there, living⟩, cell, there, owned⟩
  · intro ⟨owner, ⟨cell, there, living⟩, cell', there', owned⟩
    obtain rfl := Option.some.inj (there.symm.trans there')
    exact ⟨cell, List.mem_of_getElem? there, Cell.mem_holds.mpr ⟨living, owned⟩⟩

/-- What is held lives; rule slots hold rules; and a cell that is no rule owns older cells only. -/
structure Loose (isRule : Nat → Prop) (session : Session τ ρ) : Prop where
  living : ∀ number ∈ session.heldCells, session.Living number
  rules : ∀ number ∈ session.rules.items, isRule number
  older : ∀ owner, ¬ isRule owner → ∀ number, session.Owns owner number → number < owner

/-- Besides, what lives is held. -/
structure Sound (isRule : Nat → Prop) (session : Session τ ρ) : Prop
    extends Loose isRule session where
  held : ∀ number, session.Living number → number ∈ session.heldCells

/-! ## Sweeping -/

theorem getElem?_sweptCells : session.sweptCells[number]? =
    session.cells[number]?.map fun cell =>
      { cell with freed := cell.freed || !session.heldCells.contains number } := by
  unfold sweptCells
  simp only [List.getElem?_mapIdx, getD_marks]
  cases found : session.cells[number]? with
  | none => rfl
  | some cell =>
    obtain ⟨inside, -⟩ := List.getElem?_eq_some_iff.mp found
    simp [inside]

theorem living_swept : ({ session with cells := session.sweptCells } : Session τ ρ).Living number ↔
    session.Living number ∧ number ∈ session.heldCells := by
  unfold Living
  simp only [getElem?_sweptCells]
  cases session.cells[number]? with
  | none => simp
  | some cell => simp

theorem owns_swept {owner : Nat} :
    ({ session with cells := session.sweptCells } : Session τ ρ).Owns owner number ↔
      session.Owns owner number := by
  unfold Owns
  simp only [getElem?_sweptCells]
  cases session.cells[owner]? with
  | none => simp
  | some cell => simp [Cell.owned]

/-- Cells that are freed and not replaced leave fewer that live, unless nothing was freed. -/
theorem living_mapIdx_le (change : Nat → Cell τ ρ → Cell τ ρ)
    (frees : ∀ number cell, (change number cell).freed = false → cell.freed = false)
    (cells : List (Cell τ ρ)) :
    living (cells.mapIdx change) ≤ living cells ∧
      (living (cells.mapIdx change) = living cells →
        ∀ number cell, cells[number]? = some cell → cell.freed = false →
          (change number cell).freed = false) := by
  induction cells generalizing change with
  | nil => exact ⟨Nat.le_refl 0, fun _ => by simp⟩
  | cons cell cells ih =>
    obtain ⟨fewer, same⟩ := ih (fun number => change (number + 1)) fun number => frees (number + 1)
    have first : (if !(change 0 cell).freed then 1 else 0) ≤ if !cell.freed then 1 else 0 := by
      cases freed : (change 0 cell).freed with
      | true => exact Nat.zero_le _
      | false => simp only [frees 0 cell freed, Nat.le_refl]
    unfold living at fewer same ⊢
    rw [List.mapIdx_cons, List.countP_cons, List.countP_cons]
    refine ⟨Nat.add_le_add fewer first, fun equal number other found alive => ?_⟩
    cases number with
    | zero =>
      obtain rfl := Option.some.inj found
      cases freed : (change 0 cell).freed with
      | false => rfl
      | true =>
        simp only [freed, alive, Bool.not_true, Bool.not_false, ↓reduceIte] at equal
        exact absurd equal (by simp; omega)
    | succ number => exact same (by omega) number other found alive

theorem loose_swept {isRule : Nat → Prop} (loose : session.Loose isRule) :
    ({ session with cells := session.sweptCells } : Session τ ρ).Loose isRule where
  living number member := by
    have before : number ∈ session.heldCells := by
      rw [mem_heldCells] at member ⊢
      rcases member with handled | ⟨owner, living, owns⟩
      · exact .inl handled
      · exact .inr ⟨owner, (living_swept.mp living).1, owns_swept.mp owns⟩
    exact living_swept.mpr ⟨loose.living number before, before⟩
  rules := loose.rules
  older owner other number owns := loose.older owner other number (owns_swept.mp owns)

/-- As many rounds as cells live are enough to free all that nothing holds. -/
theorem sweep_sound {isRule : Nat → Prop} (loose : session.Loose isRule) {rounds : Nat}
    (enough : living session.cells ≤ rounds) : (session.sweep rounds).Sound isRule := by
  induction rounds generalizing session with
  | zero =>
    refine { loose with held := fun number ⟨cell, found, alive⟩ => ?_ }
    have none := List.countP_eq_zero.mp (Nat.le_zero.mp enough) cell (List.mem_of_getElem? found)
    simp [alive] at none
  | succ rounds ih =>
    obtain ⟨fewer, same⟩ := living_mapIdx_le (fun number cell =>
      { cell with freed := cell.freed ||
        !(marks session.cells.length session.heldCells).getD number false })
      (fun _ cell => by cases cell.freed <;> simp) session.cells
    unfold sweep
    dsimp only
    split
    next settled =>
      refine { loose with held := fun number ⟨cell, found, alive⟩ => ?_ }
      have marked := same settled number cell found alive
      simp only [alive, Bool.false_or, Bool.not_eq_false', getD_marks, Bool.and_eq_true] at marked
      simpa using marked.2
    next unsettled =>
      apply ih (loose_swept loose)
      have less := Nat.lt_of_le_of_ne fewer unsettled
      exact Nat.le_of_lt_succ (Nat.lt_of_lt_of_le less enough)

theorem settle_sound {isRule : Nat → Prop} (loose : session.Loose isRule) :
    session.settle.Sound isRule :=
  sweep_sound loose List.countP_le_length

/-! ## Operations -/

/-- A later session is loose if what its slots hold lives, and if cells that were not owned before
are held by a slot. -/
theorem loose_of {isRule isRule' : Nat → Prop} (sound : session.Sound isRule)
    (still : ∀ number, isRule number → isRule' number)
    (lives : ∀ number, session.Living number → later.Living number)
    (handled : ∀ number ∈ later.handles, later.Living number)
    (rules : ∀ number ∈ later.rules.items, isRule' number)
    (owns : ∀ owner number, later.Owns owner number →
      (session.Owns owner number ∧ (later.Living owner → session.Living owner)) ∨
        (number ∈ session.handles ∧ (isRule' owner ∨ number < owner))) :
    later.Loose isRule' where
  living number member := by
    rcases mem_heldCells.mp member with handle | ⟨owner, living, owned⟩
    · exact handled number handle
    · apply lives
      apply sound.living
      rw [mem_heldCells]
      rcases owns owner number owned with ⟨before, lived⟩ | ⟨handle, -⟩
      · exact .inr ⟨owner, lived living, before⟩
      · exact .inl handle
  rules := rules
  older owner other number owned := by
    rcases owns owner number owned with ⟨before, -⟩ | ⟨-, rule | older⟩
    · exact sound.older owner (mt (still owner) other) number before
    · exact absurd rule other
    · exact older

theorem living_append {cell : Cell τ ρ} (grown : later.cells = session.cells ++ [cell])
    (alive : cell.freed = false) :
    later.Living number ↔ session.Living number ∨ number = session.cells.length := by
  unfold Living
  rw [grown]
  rcases Nat.lt_trichotomy number session.cells.length with inside | rfl | outside
  · rw [List.getElem?_append_left inside]
    simp [Nat.ne_of_lt inside]
  · simp [alive]
  · rw [List.getElem?_eq_none (by simp; omega), List.getElem?_eq_none (by omega)]
    simp [Nat.ne_of_gt outside]

theorem owns_append {cell : Cell τ ρ} (grown : later.cells = session.cells ++ [cell])
    {owner : Nat} (owns : later.Owns owner number) :
    (session.Owns owner number ∧ (later.Living owner → session.Living owner)) ∨
      (owner = session.cells.length ∧ number ∈ cell.owned) := by
  obtain ⟨found, there, owned⟩ := owns
  unfold Living Owns
  rw [grown] at there ⊢
  rcases Nat.lt_or_ge owner session.cells.length with inside | outside
  · rw [List.getElem?_append_left inside] at there ⊢
    exact .inl ⟨⟨found, there, owned⟩, fun living => living⟩
  · rw [List.getElem?_append_right outside] at there
    rw [List.getElem?_singleton] at there
    split at there
    next last =>
      obtain rfl := Option.some.inj there
      exact .inr ⟨Nat.le_antisymm (Nat.le_of_sub_eq_zero last) outside, owned⟩
    next => cases there

/-- A cell that gets a pattern lives as long as before. -/
theorem living_onCell {defined : Nat} {pattern : Pattern τ ρ} :
    (session.onCell defined fun cell => { cell with pattern := some pattern }).Living number ↔
      session.Living number := by
  unfold Living onCell
  rw [List.getElem?_modify]
  cases session.cells[number]? with
  | none => simp
  | some cell => by_cases same : defined = number <;> simp [same]

theorem owns_onCell {defined owner : Nat} {pattern : Pattern τ ρ}
    (owns : (session.onCell defined fun cell => { cell with pattern := some pattern }).Owns owner
      number) :
    session.Owns owner number ∨ (owner = defined ∧ number ∈ pattern.holds) := by
  obtain ⟨found, there, owned⟩ := owns
  unfold onCell at there
  rw [List.getElem?_modify] at there
  obtain ⟨cell, before, rfl⟩ := Option.map_eq_some_iff.mp there
  split at owned
  next same => exact .inr ⟨same.symm, owned⟩
  next => exact .inl ⟨cell, before, owned⟩

/-- What an operation makes is held by a slot or owns what a slot holds. -/
theorem loose_of_change {isRule isRule' : Nat → Prop} {operation : Operation τ ρ}
    (sound : session.Sound isRule) (change : session.Change operation later)
    (still : ∀ number, isRule number → isRule' number)
    (declared : ∀ slot name, operation = .declare slot name → isRule' session.cells.length) :
    later.Loose isRule' := by
  have handled : ∀ number ∈ session.handles, session.Living number := fun number member =>
    sound.living number (mem_heldCells.mpr (.inl member))
  cases change with
  | handles rules parsers tracers machine rulesKept parsersKept =>
    apply loose_of sound still
    · exact fun number living => living
    · intro number member
      apply handled
      rcases List.mem_append.mp member with rule | parser
      · exact List.mem_append_left _ (rulesKept number rule)
      · obtain ⟨ref, present, holds⟩ := List.mem_filterMap.mp parser
        exact parsersKept ref present number holds
    · exact fun number member => still number (sound.rules number (rulesKept number member))
    · exact fun owner number owns => .inl ⟨owns, fun living => living⟩
  | declare slot name declares =>
    have living : ∀ number,
        ({ session with
          cells := session.cells ++ [.fresh name]
          rules := session.rules.put slot session.cells.length } : Session τ ρ).Living number ↔
        session.Living number ∨ number = session.cells.length := fun _ => living_append rfl rfl
    apply loose_of sound still
    · exact fun number lives => (living number).mpr (.inl lives)
    · intro number member
      rw [living]
      rcases List.mem_append.mp member with rule | parser
      · rcases Slots.mem_items_put rule with new | old
        · exact .inr new
        · exact .inl (handled number (List.mem_append_left _ old))
      · exact .inl (handled number (List.mem_append_right _ parser))
    · intro number member
      rcases Slots.mem_items_put member with rfl | old
      · exact declared slot name declares
      · exact still number (sound.rules number old)
    · intro owner number owns
      rcases owns_append rfl owns with before | ⟨-, nothing⟩
      · exact .inl before
      · exact absurd nothing List.not_mem_nil
  | store slot pattern owned =>
    have living : ∀ number,
        ({ session with
          cells := session.cells ++ [.filled pattern]
          parsers := session.parsers.put slot (.owning session.cells.length) } :
          Session τ ρ).Living number ↔
        session.Living number ∨ number = session.cells.length := fun _ => living_append rfl rfl
    apply loose_of sound still
    · exact fun number lives => (living number).mpr (.inl lives)
    · intro number member
      rw [living]
      rcases List.mem_append.mp member with rule | parser
      · exact .inl (handled number (List.mem_append_left _ rule))
      · obtain ⟨ref, present, holds⟩ := List.mem_filterMap.mp parser
        rcases Slots.mem_items_put present with rfl | old
        · exact .inr (Option.some.inj holds).symm
        · exact .inl (handled number (handled_of_parsers old holds))
    · exact fun number member => still number (sound.rules number member)
    · intro owner number owns
      rcases owns_append rfl owns with before | ⟨rfl, held⟩
      · exact .inl before
      · obtain ⟨cell, found, -⟩ := handled number (owned number held)
        obtain ⟨older, -⟩ := List.getElem?_eq_some_iff.mp found
        exact .inr ⟨owned number held, .inr older⟩
  | define defined cell pattern handle found undefined owned =>
    apply loose_of sound still
    · exact fun number lives => living_onCell.mpr lives
    · exact fun number member => living_onCell.mpr (handled number member)
    · exact fun number member => still number (sound.rules number member)
    · intro owner number owns
      rcases owns_onCell owns with before | ⟨rfl, held⟩
      · exact .inl ⟨before, living_onCell.mp⟩
      · exact .inr ⟨owned number held, .inl (still owner (sound.rules owner handle))⟩

/-! ## Whole sessions -/

theorem initial_sound {isRule : Nat → Prop} : (initial : Session τ ρ).Sound isRule where
  living number member := absurd member List.not_mem_nil
  rules number member := absurd member List.not_mem_nil
  older owner other number owns := by
    obtain ⟨cell, found, -⟩ := owns
    cases found
  held number living := by
    obtain ⟨cell, found, -⟩ := living
    cases found

section History

variable [Token τ]

/-- The session after operations one after another; a fault ends its own operation only. -/
def after (session : Session τ ρ) (operations : List (Operation τ ρ)) : Session τ ρ :=
  operations.foldl (fun session operation => (session.operate operation).2) session

theorem after_append (session : Session τ ρ) (operations more : List (Operation τ ρ)) :
    session.after (operations ++ more) = (session.after operations).after more :=
  List.foldl_append

/-- One of the operations makes a rule, and this is its cell. -/
def Declares (operations : List (Operation τ ρ)) (number : Nat) : Prop :=
  ∃ earlier slot name others, operations = earlier ++ .declare slot name :: others ∧
    number = ((initial : Session τ ρ).after earlier).cells.length

/-- A rule is a rule whatever is done afterwards. -/
theorem Declares.append {operations : List (Operation τ ρ)} (declares : Declares operations number)
    (operation : Operation τ ρ) : Declares (operations ++ [operation]) number := by
  obtain ⟨earlier, slot, name, others, rfl, made⟩ := declares
  exact ⟨earlier, slot, name, others ++ [operation], by simp, made⟩

theorem operate_sound {isRule isRule' : Nat → Prop} (sound : session.Sound isRule)
    (operation : Operation τ ρ) (still : ∀ number, isRule number → isRule' number)
    (declared : ∀ slot name, operation = .declare slot name → isRule' session.cells.length) :
    (session.operate operation).2.Sound isRule' :=
  settle_sound (loose_of_change sound (session.perform_change operation) still declared)

/-- After any operations, exactly the cells that are held have not been freed. -/
theorem sound_after (operations : List (Operation τ ρ)) :
    ((initial : Session τ ρ).after operations).Sound (Declares operations) := by
  induction operations using List.reverseRecOn with
  | nil => exact initial_sound
  | append_singleton operations operation ih =>
    rw [after_append]
    apply operate_sound ih operation
    · exact fun number declares => declares.append operation
    · rintro slot name rfl
      exact ⟨operations, slot, name, [], rfl, rfl⟩

end History

/-! ## What lasts -/

end Session

/-- What can become of a cell: it may get a pattern if it has none, and it may be freed. -/
structure Cell.Becomes (cell cell' : Cell τ ρ) : Prop where
  name : cell'.name = cell.name
  pattern : ∀ pattern, cell.pattern = some pattern → cell'.pattern = some pattern
  freed : cell.freed = true → cell'.freed = true

namespace Cell.Becomes

variable {cell cell' cell'' : Cell τ ρ}

theorem refl (cell : Cell τ ρ) : cell.Becomes cell := ⟨rfl, fun _ has => has, fun freed => freed⟩

theorem trans (first : cell.Becomes cell') (second : cell'.Becomes cell'') :
    cell.Becomes cell'' where
  name := second.name.trans first.name
  pattern pattern has := second.pattern pattern (first.pattern pattern has)
  freed freed := second.freed (first.freed freed)

end Cell.Becomes

namespace Session

variable {session later : Session τ ρ}

/-- All cells are still there, whatever has become of them. -/
def Extends (session later : Session τ ρ) : Prop :=
  ∀ (number : Nat) (cell : Cell τ ρ), session.cells[number]? = some cell →
    ∃ cell', later.cells[number]? = some cell' ∧ cell.Becomes cell'

theorem Extends.refl (session : Session τ ρ) : session.Extends session :=
  fun _ cell found => ⟨cell, found, .refl cell⟩

theorem Extends.trans {final : Session τ ρ} (first : session.Extends later)
    (second : later.Extends final) : session.Extends final := by
  intro number cell found
  obtain ⟨cell', found', becomes⟩ := first number cell found
  obtain ⟨cell'', found'', becomes'⟩ := second number cell' found'
  exact ⟨cell'', found'', becomes.trans becomes'⟩

theorem Extends.ofAppend {cells : List (Cell τ ρ)} (grown : later.cells = session.cells ++ cells) :
    session.Extends later := by
  intro number cell found
  obtain ⟨inside, -⟩ := List.getElem?_eq_some_iff.mp found
  rw [grown, List.getElem?_append_left inside]
  exact ⟨cell, found, .refl cell⟩

theorem Change.extends {operation : Operation τ ρ} (change : session.Change operation later) :
    session.Extends later := by
  cases change with
  | handles rules parsers tracers machine rulesKept parsersKept =>
    exact fun number cell found => ⟨cell, found, .refl cell⟩
  | declare slot name declares => exact .ofAppend rfl
  | store slot pattern owns => exact .ofAppend rfl
  | define defined cell pattern handle found undefined owns =>
    intro number other there
    unfold onCell
    rw [List.getElem?_modify, there]
    refine ⟨_, rfl, ?_⟩
    split
    next same =>
      -- It is the cell that had no pattern.
      subst same
      obtain rfl := Option.some.inj (found.symm.trans there)
      refine ⟨rfl, fun had has => ?_, fun freed => freed⟩
      rw [undefined] at has
      cases has
    next => exact .refl other

theorem sweep_extends (session : Session τ ρ) (rounds : Nat) :
    session.Extends (session.sweep rounds) := by
  induction rounds generalizing session with
  | zero => exact .refl session
  | succ rounds ih =>
    unfold sweep
    dsimp only
    split
    · exact .refl session
    · refine Extends.trans ?_ (ih _)
      intro number cell found
      rw [getElem?_sweptCells, found]
      exact ⟨_, rfl, rfl, fun _ has => has, fun freed => by simp [freed]⟩

theorem operate_extends [Token τ] (session : Session τ ρ) (operation : Operation τ ρ) :
    session.Extends (session.operate operation).2 :=
  (session.perform_change operation).extends.trans (sweep_extends _ _)

theorem after_extends [Token τ] (session : Session τ ρ) (operations : List (Operation τ ρ)) :
    session.Extends (session.after operations) := by
  induction operations generalizing session with
  | nil => exact .refl session
  | cons operation operations ih => exact (session.operate_extends operation).trans (ih _)

end Session

end Multiparse
