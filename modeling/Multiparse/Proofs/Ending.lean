import Multiparse.Machine

/-!
# Runs that return

A run on a machine returns a result and leaves a machine behind, or stops with a fault. Of a run in
steps each step returns, and the next one goes on from the machine that was left behind
(`Run.ends_bind`).
-/

namespace Multiparse.Run

variable {A B : Type} {before after : Machine}

/-- From a machine the run returns a result and leaves another machine behind. -/
def Ends (run : Run A) (before : Machine) (result : A) (after : Machine) : Prop :=
  run.run.run before = (.ok result, after)

theorem ends_pure {value result : A} :
    (pure value : Run A).Ends before result after ↔ value = result ∧ before = after := by
  unfold Ends
  constructor
  · intro ended
    cases ended
    exact ⟨rfl, rfl⟩
  · rintro ⟨rfl, rfl⟩
    rfl

/-- A run in two steps, as a function of the machine. -/
theorem run_bind (run : Run A) (next : A → Run B) (before : Machine) :
    (run >>= next).run.run before =
      match run.run.run before with
      | (.ok value, middle) => (next value).run.run middle
      | (.error fault, middle) => (.error fault, middle) := by
  simp only [bind, ExceptT.bind, ExceptT.mk, ExceptT.run, StateT.run, StateT.bind]
  obtain ⟨result, middle⟩ := run before
  cases result <;> rfl

theorem ends_bind {run : Run A} {next : A → Run B} {result : B} :
    (run >>= next).Ends before result after ↔
      ∃ value middle, run.Ends before value middle ∧ (next value).Ends middle result after := by
  unfold Ends
  rw [run_bind]
  constructor
  · intro ended
    split at ended
    next value middle first => exact ⟨value, middle, first, ended⟩
    next => cases ended
  · rintro ⟨value, middle, first, ended⟩
    rw [first]
    exact ended

theorem ends_map {f : A → B} {run : Run A} {result : B} :
    (f <$> run).Ends before result after ↔
      ∃ value, run.Ends before value after ∧ f value = result := by
  rw [map_eq_pure_bind, ends_bind]
  constructor
  · rintro ⟨value, middle, ended, last⟩
    obtain ⟨rfl, rfl⟩ := ends_pure.mp last
    exact ⟨value, ended, rfl⟩
  · rintro ⟨value, ended, rfl⟩
    exact ⟨value, after, ended, ends_pure.mpr ⟨rfl, rfl⟩⟩

theorem not_ends_abort {fault : Fault} {result : A} :
    ¬ (Aborts.abort fault : Run A).Ends before result after := by
  intro ended
  cases ended

/-! ## What a run ensures -/

/-- Whatever the run returns has the property. -/
def Ensures (run : Run A) (property : A → Prop) : Prop :=
  ∀ before result after, run.Ends before result after → property result

namespace Ensures

variable {run : Run A} {property : A → Prop}

theorem mono {weaker : A → Prop} (ensures : run.Ensures property)
    (implies : ∀ result, property result → weaker result) : run.Ensures weaker :=
  fun before result after ended => implies result (ensures before result after ended)

theorem pure {value : A} (holds : property value) : (pure value : Run A).Ensures property := by
  intro before result after ended
  obtain ⟨rfl, -⟩ := ends_pure.mp ended
  exact holds

theorem bind {next : A → Run B} {property' : B → Prop} (first : run.Ensures property)
    (continues : ∀ value, property value → (next value).Ensures property') :
    (run >>= next).Ensures property' := by
  intro before result after ended
  obtain ⟨value, middle, firstEnds, nextEnds⟩ := ends_bind.mp ended
  exact continues value (first _ _ _ firstEnds) _ _ _ nextEnds

theorem abort {fault : Fault} : (Aborts.abort fault : Run A).Ensures property :=
  fun _ _ _ ended => absurd ended not_ends_abort

end Ensures

end Multiparse.Run
