import Mathlib.Data.List.Induction
import Multiparse.Proofs.Farthest

/-!
# The first of the deepest diagnostics

Merging a list of diagnostics one after another selects the first of those that lie deepest; what
the later ones at its place wish for is added to its wishes in order and each once, unless it has no
wishes of its own (`farthest_selects`). Diagnostics that lie elsewhere leave no trace.
-/

namespace Multiparse.Diagnostic

/-- The wishes that are not listed, in order and each once. -/
def unlisted (listed wishes : List String) : List String :=
  (wishes.filter fun wish => !listed.contains wish).eraseDups

/-- The diagnostic is the first of the deepest ones in a list, and these come after it. -/
def Foremost (errors : List (Option Diagnostic)) (first : Diagnostic)
    (later : List (Option Diagnostic)) : Prop :=
  ∃ before, errors = before ++ some first :: later ∧
    (∀ error ∈ before, depth error < first.position) ∧ ∀ error ∈ later, depth error ≤ first.position

/-- What a diagnostic wishes for with the wishes of later ones at its place. -/
def wishesWith (first : Diagnostic) (later : List (Option Diagnostic)) : List String :=
  if first.expected = [] then []
  else first.expected ++ unlisted first.expected (later.flatMap (wishesAt first.position))

/-- A diagnostic with the wishes of later ones at its place. -/
def joined (first : Diagnostic) (later : List (Option Diagnostic)) : Diagnostic :=
  { first with expected := first.wishesWith later }

variable {errors before later : List (Option Diagnostic)} {error : Option Diagnostic}
  {first : Diagnostic}

/-! ## Adding wishes -/

theorem unlisted_cons_of_mem {listed : List String} {wish : String} (known : wish ∈ listed)
    (wishes : List String) : unlisted listed (wish :: wishes) = unlisted listed wishes := by
  simp [unlisted, known]

theorem unlisted_cons_of_not_mem {listed : List String} {wish : String} (new : wish ∉ listed)
    (wishes : List String) :
    unlisted listed (wish :: wishes) = wish :: unlisted (listed ++ [wish]) wishes := by
  simp only [unlisted, List.filter_cons, List.contains_eq_mem, new, decide_false, Bool.not_false,
    ↓reduceIte, List.eraseDups_cons, List.filter_filter, List.mem_append, List.mem_singleton,
    Bool.decide_or, Bool.not_or]
  congr 3
  funext other
  rw [Bool.and_comm]
  rfl

theorem unlisted_self (listed : List String) : unlisted listed listed = [] := by
  have nothing : (listed.filter fun wish => !listed.contains wish) = [] := by simp
  rw [unlisted, nothing, List.eraseDups_nil]

/-- Wishes that are added one at a time come behind those that are listed. -/
theorem addExpected_eq (listed wishes : List String) :
    addExpected listed wishes = listed ++ unlisted listed wishes := by
  induction wishes generalizing listed with
  | nil => exact (List.append_nil listed).symm
  | cons wish wishes ih =>
    rw [addExpected, ih]
    by_cases known : wish ∈ listed
    · rw [if_pos (List.contains_iff_mem.mpr known), unlisted_cons_of_mem known]
    · rw [if_neg (mt List.contains_iff_mem.mp known), unlisted_cons_of_not_mem known,
        List.append_assoc, List.singleton_append]

theorem wishesWith_of_silent (silent : first.expected = []) (later : List (Option Diagnostic)) :
    first.wishesWith later = [] := if_pos silent

theorem wishesWith_eq_addExpected (wishes : first.expected ≠ [])
    (later : List (Option Diagnostic)) :
    first.wishesWith later =
      addExpected first.expected (later.flatMap (wishesAt first.position)) := by
  rw [wishesWith, if_neg wishes, addExpected_eq]

theorem joined_of_silent (silent : first.expected = []) (later : List (Option Diagnostic)) :
    first.joined later = first := by
  rw [joined, wishesWith_of_silent silent, ← silent]

/-- Later diagnostics that wish for nothing at the place add nothing. -/
theorem joined_eq_self (quiet : ∀ error ∈ later, wishesAt first.position error = []) :
    first.joined later = first := by
  by_cases silent : first.expected = []
  · exact joined_of_silent silent later
  · rw [joined, wishesWith_eq_addExpected silent, List.flatMap_eq_nil_iff.mpr quiet]
    rfl

theorem joined_of_quiet (quiet : wishesAt first.position error = []) :
    first.joined (later ++ [error]) = first.joined later := by
  simp only [joined, wishesWith, List.flatMap_append, List.flatMap_singleton, quiet,
    List.append_nil]

/-! ## Merging one more diagnostic -/

theorem farthest_of_depth_lt (shallow : depth error < first.position) :
    farthest error (some first) = some first := by
  cases error with
  | none => rfl
  | some error => rw [farthest, deeper_of_lt (WithBot.coe_lt_coe.mp shallow)]

/-- A diagnostic that wishes for nothing is selected as it is or leaves no trace. -/
theorem farthest_of_silent (silent : first.expected = []) (error : Option Diagnostic) :
    farthest error (some first) = error ∨ farthest error (some first) = some first := by
  cases error with
  | none => exact .inr rfl
  | some own =>
    rw [farthest, deeper]
    split
    · exact .inr rfl
    · exact .inl rfl
    · exact .inl (congrArg some (absorb_of_nil silent))

theorem joined_absorb {error : Diagnostic} (level : error.position = first.position) :
    (first.joined later).absorb error = first.joined (later ++ [some error]) := by
  by_cases quiet : error.expected = []
  · rw [absorb_of_nil quiet, joined_of_quiet]
    simp [wishesAt, quiet]
  · by_cases silent : first.expected = []
    · rw [joined_of_silent silent, joined_of_silent silent, absorb_of_silent silent]
    · have listed := addExpected_ne_nil silent (later.flatMap (wishesAt first.position))
      rw [joined, wishesWith_eq_addExpected silent, absorb_of_ne_nil listed quiet,
        ← addExpected_append, joined, wishesWith_eq_addExpected silent, List.flatMap_append,
        List.flatMap_singleton, wishesAt, if_pos level]

/-- A later diagnostic that lies no deeper adds its wishes for the place, and nothing else. -/
theorem farthest_joined (later : List (Option Diagnostic))
    (bounded : depth error ≤ first.position) :
    farthest (some (first.joined later)) error = some (first.joined (later ++ [error])) := by
  cases error with
  | none => rw [farthest_none_right, joined_of_quiet rfl]
  | some error =>
    rw [farthest]
    rcases (WithBot.coe_le_coe.mp bounded).lt_or_eq with shallow | level
    · have kept : (first.joined later).deeper error = first.joined later := deeper_of_gt shallow
      rw [kept, joined_of_quiet (wishesAt_of_ne shallow.ne)]
    · have merged : (first.joined later).deeper error = (first.joined later).absorb error :=
        deeper_of_eq level.symm
      rw [merged, joined_absorb level]

/-! ## Merging a list -/

namespace Foremost

theorem depth_le (foremost : Foremost errors first later) (member : error ∈ errors) :
    depth error ≤ first.position := by
  obtain ⟨before, split, shallow, bounded⟩ := foremost
  rw [split] at member
  rcases List.mem_append.mp member with early | behind
  · exact (shallow error early).le
  · rcases List.mem_cons.mp behind with itself | late
    · rw [itself, depth_some]
    · exact bounded error late

theorem mem (foremost : Foremost errors first later) : some first ∈ errors := by
  obtain ⟨before, split, -, -⟩ := foremost
  rw [split]
  exact List.mem_append_right _ List.mem_cons_self

theorem head (bounded : ∀ error ∈ errors, depth error ≤ first.position) :
    Foremost (some first :: errors) first errors :=
  ⟨[], rfl, fun _ member => absurd member List.not_mem_nil, bounded⟩

theorem cons (foremost : Foremost errors first later) (shallow : depth error < first.position) :
    Foremost (error :: errors) first later := by
  obtain ⟨before, split, others, bounded⟩ := foremost
  exact ⟨error :: before, congrArg (error :: ·) split,
    List.forall_mem_cons.mpr ⟨shallow, others⟩, bounded⟩

/-- The first of the deepest stands in front, or it lies deeper than what stands there. -/
theorem of_cons (foremost : Foremost (error :: errors) first later) :
    error = some first ∧ errors = later ∨
      depth error < first.position ∧ Foremost errors first later := by
  obtain ⟨before, split, shallow, bounded⟩ := foremost
  cases before with
  | nil => exact .inl (List.cons.inj split)
  | cons other before =>
    obtain ⟨rfl, rest⟩ := List.cons.inj split
    obtain ⟨here, shallow⟩ := List.forall_mem_cons.mp shallow
    exact .inr ⟨here, before, rest, shallow, bounded⟩

end Foremost

/-- Among diagnostics that are not all missing, one is the first of the deepest. -/
theorem exists_foremost (errors : List (Option Diagnostic)) :
    (∀ error ∈ errors, error = none) ∨ ∃ first later, Foremost errors first later := by
  induction errors with
  | nil => exact .inl fun _ member => absurd member List.not_mem_nil
  | cons error errors ih =>
    cases error with
    | none =>
      rcases ih with missing | ⟨first, later, foremost⟩
      · exact .inl (List.forall_mem_cons.mpr ⟨rfl, missing⟩)
      · exact .inr ⟨first, later, foremost.cons (WithBot.bot_lt_coe _)⟩
    | some error =>
      right
      rcases ih with missing | ⟨first, later, foremost⟩
      · refine ⟨error, errors, .head fun other member => ?_⟩
        rw [missing other member]
        exact bot_le
      · rcases lt_or_ge error.position first.position with shallow | deep
        · exact ⟨first, later, foremost.cons (WithBot.coe_lt_coe.mpr shallow)⟩
        · refine ⟨error, errors, .head fun other member => ?_⟩
          exact (foremost.depth_le member).trans (WithBot.coe_le_coe.mpr deep)

theorem depth_foldl_lt {bound : WithBot Position} (start : depth error < bound)
    (shallow : ∀ other ∈ before, depth other < bound) :
    depth (before.foldl farthest error) < bound := by
  induction before generalizing error with
  | nil => exact start
  | cons other before ih =>
    obtain ⟨here, shallow⟩ := List.forall_mem_cons.mp shallow
    apply ih _ shallow
    rw [depth_farthest]
    exact max_lt start here

theorem foldl_of_bounded (first : Diagnostic)
    (bounded : ∀ error ∈ later, depth error ≤ first.position) :
    later.foldl farthest (some first) = some (first.joined later) := by
  induction later using List.reverseRecOn with
  | nil => rw [List.foldl_nil, joined_eq_self fun _ member => absurd member List.not_mem_nil]
  | append_singleton later error ih =>
    obtain ⟨earlier, here⟩ := List.forall_mem_append.mp bounded
    rw [List.foldl_append, ih earlier, List.foldl_cons, List.foldl_nil,
      farthest_joined later (here error List.mem_cons_self)]

theorem Foremost.foldl_farthest (foremost : Foremost errors first later) :
    errors.foldl farthest none = some (first.joined later) := by
  obtain ⟨before, split, shallow, bounded⟩ := foremost
  have below : depth (before.foldl farthest none) < first.position :=
    depth_foldl_lt (WithBot.bot_lt_coe _) shallow
  rw [split, List.foldl_append, List.foldl_cons, farthest_of_depth_lt below,
    foldl_of_bounded first bounded]

theorem farthest_self (error : Option Diagnostic) : farthest error error = error := by
  cases error with
  | none => rfl
  | some error =>
    rw [farthest, deeper_of_eq rfl]
    by_cases silent : error.expected = []
    · rw [absorb_of_nil silent]
    · rw [absorb_of_ne_nil silent silent, addExpected_eq, unlisted_self, List.append_nil]

/-- **Merging selects the first of the deepest diagnostics and collects its wishes.** If a list has
no diagnostic but missing ones, merging it from nothing gives none. Otherwise one of them is the
first of the deepest, and merging gives that one, with its position, its message and what was found;
if it has wishes, those of later ones at its place come behind them in order, each once and only if
it is not there yet. A diagnostic merged with itself stays as it is, and merging diagnostics that
all wish for something is associative. -/
theorem farthest_selects :
    (∀ errors : List (Option Diagnostic), (∀ error ∈ errors, error = none) →
      errors.foldl farthest none = none) ∧
    (∀ errors : List (Option Diagnostic), (∃ error ∈ errors, error ≠ none) →
      ∃ first later, Foremost errors first later) ∧
    (∀ errors first later, Foremost errors first later →
      errors.foldl farthest none =
        some { first with
          expected :=
            if first.expected = [] then []
            else first.expected ++
              unlisted first.expected (later.flatMap (wishesAt first.position)) }) ∧
    (∀ error, farthest error error = error) ∧
    ∀ first second third, Wishful first → Wishful second → Wishful third →
      farthest first (farthest second third) = farthest (farthest first second) third := by
  refine ⟨fun errors missing => ?nothing, fun errors present => ?chosen, ?merged, farthest_self,
    fun _ _ _ => farthest_assoc⟩
  case nothing =>
    induction errors with
    | nil => rfl
    | cons error errors ih =>
      obtain ⟨here, missing⟩ := List.forall_mem_cons.mp missing
      rw [List.foldl_cons, here, farthest_none_left, ih missing]
  case chosen =>
    obtain ⟨error, member, given⟩ := present
    rcases exists_foremost errors with missing | foremost
    · exact absurd (missing error member) given
    · exact foremost
  case merged =>
    intro errors first later foremost
    exact foremost.foldl_farthest

section Closing

/-- A number was missed, and further on the end came where a number or a parenthesis was wanted. -/
def missed : List (Option Diagnostic) :=
  [some (.mismatch "NUM" "'+'" 2), none, some (.exhausted "NUM"),
    some ((ofMessage "nothing there").moveTo .eof), some (.exhausted "')'"),
    some (.exhausted "NUM"), some (.mismatch "end of input" "'*'" 7)]

theorem missed_foremost : Foremost missed (.exhausted "NUM") (missed.drop 3) := by
  refine ⟨missed.take 2, rfl, ?_, ?_⟩
  · simp [missed, Diagnostic.mismatch, Diagnostic.exhausted, WithBot.bot_lt_coe]
  · simp [missed, Diagnostic.mismatch, Diagnostic.exhausted, ofMessage, moveTo, le_of_lt]

/-- The first one at the end is kept and takes over the wish for a parenthesis. -/
theorem farthest_selects_closing :
    ([none, none] : List (Option Diagnostic)).foldl farthest none = none ∧
      (∃ first later, Foremost missed first later) ∧
      missed.foldl farthest none =
        some { Diagnostic.exhausted "NUM" with expected := ["NUM", "')'"] } ∧
      farthest (some (.exhausted "NUM")) (some (.exhausted "NUM")) = some (.exhausted "NUM") ∧
      farthest (some (.exhausted "NUM")) (farthest none (some (.exhausted "')'"))) =
        farthest (farthest (some (.exhausted "NUM")) none) (some (.exhausted "')'")) := by
  have wishful : ∀ wish, Wishful (some (Diagnostic.exhausted wish)) := by
    intro wish d present
    obtain rfl := Option.some.inj present
    exact List.cons_ne_nil _ _
  obtain ⟨nothing, chosen, merged, same, grouped⟩ := farthest_selects
  have present : ∃ error ∈ missed, error ≠ none :=
    ⟨some (.exhausted "NUM"), by simp [missed], Option.some_ne_none _⟩
  refine ⟨nothing _ (by simp), chosen missed present, ?_, same _,
    grouped _ _ _ (wishful _) wishful_none (wishful _)⟩
  rw [merged _ _ _ missed_foremost]
  decide

end Closing

end Multiparse.Diagnostic
