import Multiparse.Proofs.Depth

/-!
# Merging diagnostics

Diagnostics at one position share their wishes: the merged list has the wishes of both and lists
each only once. On diagnostics that all wish for something, merging is associative
(`Diagnostic.farthest_assoc`).
-/

namespace Multiparse.Diagnostic

/-! ## Lists of wishes -/

theorem mem_addExpected {listed wishes : List String} {wish : String} :
    wish ∈ addExpected listed wishes ↔ wish ∈ listed ∨ wish ∈ wishes := by
  induction wishes generalizing listed with
  | nil => simp [addExpected]
  | cons next wishes ih =>
    rw [addExpected, ih]
    by_cases known : next ∈ listed
    · simp only [List.contains_iff_mem, known, ↓reduceIte, List.mem_cons]
      grind
    · simp only [List.contains_iff_mem, known, ↓reduceIte, List.mem_append, List.mem_cons,
        List.not_mem_nil, or_false, or_assoc]

theorem nodup_addExpected {listed : List String} (nodup : listed.Nodup) (wishes : List String) :
    (addExpected listed wishes).Nodup := by
  induction wishes generalizing listed with
  | nil => exact nodup
  | cons next wishes ih =>
    rw [addExpected]
    apply ih
    by_cases known : next ∈ listed
    · simpa only [List.contains_iff_mem, known, ↓reduceIte] using nodup
    · simp only [List.contains_iff_mem, known, ↓reduceIte]
      refine List.nodup_append.mpr ⟨nodup, by simp, ?_⟩
      intro wish listed other only same
      rw [same, List.mem_singleton.mp only] at listed
      exact known listed

theorem addExpected_ne_nil {listed : List String} (nonempty : listed ≠ [])
    (wishes : List String) : addExpected listed wishes ≠ [] := by
  obtain ⟨wish, member⟩ := List.exists_mem_of_ne_nil listed nonempty
  exact List.ne_nil_of_mem (mem_addExpected.mpr (.inl member))

theorem addExpected_append (listed wishes others : List String) :
    addExpected listed (wishes ++ others) = addExpected (addExpected listed wishes) others := by
  induction wishes generalizing listed with
  | nil => rfl
  | cons next wishes ih =>
    rw [List.cons_append, addExpected, ih]
    rfl

theorem addExpected_assoc (first second third : List String) :
    addExpected first (addExpected second third) =
      addExpected (addExpected first second) third := by
  induction third generalizing second with
  | nil => rfl
  | cons wish third ih =>
    rw [addExpected, ih, addExpected]
    congr 1
    by_cases known : wish ∈ second
    · have kept : wish ∈ addExpected first second := mem_addExpected.mpr (.inr known)
      simp only [List.contains_iff_mem, known, kept, ↓reduceIte]
    · simp only [List.contains_iff_mem, known, ↓reduceIte]
      rw [addExpected_append, addExpected, addExpected]
      simp only [List.contains_iff_mem]

/-! ## Merging -/

theorem absorb_of_ne_nil {kept other : Diagnostic} (keptWishes : kept.expected ≠ [])
    (otherWishes : other.expected ≠ []) :
    kept.absorb other = { kept with expected := addExpected kept.expected other.expected } := by
  simp [absorb, keptWishes, otherWishes]

theorem absorb_of_nil {kept other : Diagnostic} (silent : other.expected = []) :
    kept.absorb other = kept := by
  simp [absorb, silent]

theorem absorb_of_silent {kept : Diagnostic} (silent : kept.expected = []) (other : Diagnostic) :
    kept.absorb other = kept := by
  simp [absorb, silent]

/-- Absorbing keeps the message. -/
@[simp] theorem absorb_message (kept other : Diagnostic) :
    (kept.absorb other).message = kept.message := by
  unfold absorb
  split <;> rfl

theorem deeper_of_lt {first second : Diagnostic} (deep : first.position < second.position) :
    first.deeper second = second := by
  rw [deeper, Position.compareDepth_eq_lt_iff.mpr deep]

theorem deeper_of_gt {first second : Diagnostic} (deep : second.position < first.position) :
    first.deeper second = first := by
  rw [deeper, Position.compareDepth_eq_gt_iff.mpr deep]

theorem deeper_of_eq {first second : Diagnostic} (same : first.position = second.position) :
    first.deeper second = first.absorb second := by
  rw [deeper, Position.compareDepth_eq_iff.mpr same]

/-- The diagnostic wishes for something, if there is one. -/
def Wishful (error : Option Diagnostic) : Prop := ∀ d, error = some d → d.expected ≠ []

theorem wishful_none : Wishful none := by
  intro d missing
  cases missing

theorem deeper_expected_ne_nil {first second : Diagnostic} (firstWishes : first.expected ≠ [])
    (secondWishes : second.expected ≠ []) : (first.deeper second).expected ≠ [] := by
  rcases deeper_cases first second with ⟨-, kept⟩ | ⟨-, kept⟩ | ⟨-, kept⟩
  · rwa [kept]
  · rwa [kept]
  · rw [kept, absorb_of_ne_nil firstWishes secondWishes]
    exact addExpected_ne_nil firstWishes _

theorem deeper_assoc {first second third : Diagnostic} (firstWishes : first.expected ≠ [])
    (secondWishes : second.expected ≠ []) (thirdWishes : third.expected ≠ []) :
    first.deeper (second.deeper third) = (first.deeper second).deeper third := by
  rcases lt_trichotomy second.position third.position with lower | same | higher
  · rw [deeper_of_lt lower]
    rcases deeper_cases first second with ⟨deep, kept⟩ | ⟨deep, kept⟩ | ⟨same, kept⟩
    · rw [kept, deeper_of_lt (deep.trans lower), deeper_of_lt lower]
    · rw [kept]
    · rw [kept, deeper_of_lt (same.trans_lt lower), deeper_of_lt]
      rwa [absorb_position, same]
  · rw [deeper_of_eq same]
    rcases lt_trichotomy first.position second.position with below | level | above
    · rw [deeper_of_lt below, deeper_of_lt (by rwa [absorb_position]), deeper_of_eq same]
    · rw [deeper_of_eq level, deeper_of_eq (by rwa [absorb_position]),
        deeper_of_eq (by rw [absorb_position, level, same]),
        absorb_of_ne_nil secondWishes thirdWishes, absorb_of_ne_nil firstWishes secondWishes,
        absorb_of_ne_nil firstWishes (addExpected_ne_nil secondWishes _),
        absorb_of_ne_nil (addExpected_ne_nil firstWishes _) thirdWishes, addExpected_assoc]
    · rw [deeper_of_gt above, deeper_of_gt (by rwa [absorb_position]),
        deeper_of_gt (same ▸ above)]
  · have above : third.position < (first.deeper second).position := by
      rw [deeper_position]
      exact higher.trans_le (le_max_right _ _)
    rw [deeper_of_gt higher, deeper_of_gt above]

/-- Merging wishful diagnostics is associative. -/
theorem farthest_assoc {first second third : Option Diagnostic} (firstWishes : Wishful first)
    (secondWishes : Wishful second) (thirdWishes : Wishful third) :
    farthest first (farthest second third) = farthest (farthest first second) third := by
  cases first with
  | none => simp
  | some first =>
    cases second with
    | none => simp
    | some second =>
      cases third with
      | none => simp
      | some third =>
        simp only [farthest, Option.some.injEq]
        exact deeper_assoc (firstWishes _ rfl) (secondWishes _ rfl) (thirdWishes _ rfl)

/-- What a diagnostic wishes for at a position. -/
def wishesAt (position : Position) : Option Diagnostic → List String
  | none => []
  | some d => if d.position = position then d.expected else []

theorem wishesAt_of_ne {d : Diagnostic} {position : Position} (elsewhere : d.position ≠ position) :
    wishesAt position (some d) = [] := if_neg elsewhere

/-- Up to a position no wish for that position is lost by merging, and none is added. -/
theorem mem_wishesAt_farthest {first second : Option Diagnostic} {position : Position}
    (firstReach : depth first ≤ position) (secondReach : depth second ≤ position)
    (firstWishes : Wishful first) (secondWishes : Wishful second) {wish : String} :
    wish ∈ wishesAt position (farthest first second) ↔
      wish ∈ wishesAt position first ∨ wish ∈ wishesAt position second := by
  cases first with
  | none => simp [wishesAt]
  | some first =>
    cases second with
    | none => simp [wishesAt]
    | some second =>
      rw [depth_some, WithBot.coe_le_coe] at firstReach secondReach
      rw [farthest]
      rcases deeper_cases first second with ⟨deep, kept⟩ | ⟨deep, kept⟩ | ⟨same, kept⟩
      · rw [kept, wishesAt_of_ne (deep.trans_le secondReach).ne]
        simp
      · rw [kept, wishesAt_of_ne (deep.trans_le firstReach).ne]
        simp
      · rw [kept, absorb_of_ne_nil (firstWishes _ rfl) (secondWishes _ rfl)]
        by_cases there : first.position = position
        · simp only [wishesAt, there, same ▸ there, ↓reduceIte, mem_addExpected]
        · have elsewhere : second.position ≠ position := same ▸ there
          simp only [wishesAt, there, elsewhere, ↓reduceIte, List.not_mem_nil, or_self]

theorem Wishful.farthest {first second : Option Diagnostic} (firstWishes : Wishful first)
    (secondWishes : Wishful second) : Wishful (farthest first second) := by
  cases first with
  | none => exact secondWishes
  | some first =>
    cases second with
    | none => exact firstWishes
    | some second =>
      rintro d ⟨⟩
      exact deeper_expected_ne_nil (firstWishes _ rfl) (secondWishes _ rfl)

/-- The diagnostic lists each of its wishes once. -/
def Distinct (error : Option Diagnostic) : Prop := ∀ d, error = some d → d.expected.Nodup

theorem Distinct.farthest {first second : Option Diagnostic} (firstDistinct : Distinct first)
    (secondDistinct : Distinct second) : Distinct (farthest first second) := by
  cases first with
  | none => exact secondDistinct
  | some first =>
    cases second with
    | none => exact firstDistinct
    | some second =>
      rintro d ⟨⟩
      rcases deeper_cases first second with ⟨-, kept⟩ | ⟨-, kept⟩ | ⟨-, kept⟩
      · rw [kept]
        exact secondDistinct _ rfl
      · rw [kept]
        exact firstDistinct _ rfl
      · rw [kept, absorb]
        split
        · exact firstDistinct _ rfl
        · exact nodup_addExpected (firstDistinct _ rfl) _

theorem farthest_isSome_right (first : Option Diagnostic) {second : Option Diagnostic}
    (present : second.isSome) : (farthest first second).isSome := by
  obtain ⟨error, rfl⟩ := Option.isSome_iff_exists.mp present
  cases first <;> rfl

end Multiparse.Diagnostic
