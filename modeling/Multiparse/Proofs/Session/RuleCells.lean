import Mathlib.Data.Fintype.Basic
import Mathlib.Data.Fintype.Card
import Mathlib.Data.Fintype.EquivFin
import Mathlib.Logic.Relation
import Multiparse.Grammar.Derived
import Multiparse.Proofs.Ending
import Multiparse.Proofs.Session.Lifetime
import Multiparse.Word

/-!
# The cells of rules in whole sessions

Whatever is done in a session, a rule keeps the pattern that it was given first; a weak reference to
it runs that pattern as long as something holds the rule, and is a fault after that; and where
patterns refer to rules weakly, nothing but a slot keeps a rule alive, however the rules refer to
each other (`Session.rule_cells_last`).
-/

namespace Multiparse.Session

variable {τ ρ : Type} {session : Session τ ρ} {number : Nat}

/-! ## References -/

/-- Exactly the cells that are held have not been freed. -/
theorem freed_iff_held {isRule : Nat → Prop} (sound : session.Sound isRule) {cell : Cell τ ρ}
    (found : session.cells[number]? = some cell) :
    cell.freed = false ↔ number ∈ session.heldCells := by
  constructor
  · exact fun alive => sound.held number ⟨cell, found, alive⟩
  · intro held
    obtain ⟨other, there, alive⟩ := sound.living number held
    obtain rfl := Option.some.inj (found.symm.trans there)
    exact alive

/-- A weak reference to a cell means its pattern if the cell is held. -/
theorem lookUp_weak {isRule : Nat → Prop} (sound : session.Sound isRule) {cell : Cell τ ρ}
    (found : session.cells[number]? = some cell) :
    session.lookUp (.weak number) =
      if number ∈ session.heldCells then
        match cell.pattern with
        | some pattern => .ok pattern.grammar
        | none => .error (.undefined cell.name)
      else .error (.dropped cell.name) := by
  have freed := freed_iff_held sound found
  unfold lookUp Cell.lookUp
  simp only [CellRef.cell, found]
  cases state : cell.freed with
  | false =>
    rw [if_pos (freed.mp state)]
    cases cell.pattern <;> rfl
  | true =>
    rw [if_neg fun held => by simp [freed.mpr held] at state]

/-- A reference to a cell that is held means the cell's pattern. -/
theorem lookUp_of_pattern {isRule : Nat → Prop} (sound : session.Sound isRule) {ref : CellRef}
    {cell : Cell τ ρ} (found : session.cells[ref.cell]? = some cell) {pattern : Pattern τ ρ}
    (has : cell.pattern = some pattern) (held : ref.cell ∈ session.heldCells) :
    session.lookUp ref = .ok pattern.grammar := by
  cases ref with
  | weak number =>
    refine (lookUp_weak sound found).trans ?_
    rw [if_pos held, has]
  | owning number =>
    unfold lookUp Cell.lookUp
    simp only [found, has]

/-- A reference that cannot be run is a fault, which is written to the journal. -/
theorem run_call_of_error [Token τ] {rules : Rules (cellNames ρ) τ} {ref : CellRef} {fault : Fault}
    (fails : rules ref = .error fault) (limit : Nat) (input : Residual τ) (before : Machine) :
    (rules.call (m := Run) (limit + 1) ref input).run.run before =
      (.error fault, before.note (.faulted fault)) := by
  rw [Rules.call, fails]
  rfl

/-- Running a stored weak reference is running the reference. -/
theorem operate_parse_weak [Token τ] {slot : String}
    (stored : session.parsers.get? slot = some (.weak number)) (tokens : List τ) :
    (session.operate (.parse slot tokens)).1 =
      ((session.lookUp.call (m := Run) callLimit (.weak number) (.start tokens)).run
        session.machine).1.map .outcome := by
  have known : (session.cellRef? (.stored slot)).isNone = false := by
    rw [cellRef?, stored]
    rfl
  have stands : (session.cellRef? (.stored slot)).getD (.weak session.cells.length) =
      .weak number := by
    rw [cellRef?, stored]
    rfl
  have built : session.build (.rule (N := slotNames ρ) (.stored slot)) =
      .ok (.ofGrammar (.rule (N := cellNames ρ) (.weak number))) := by
    have mentions : (.rule (N := slotNames ρ) (.stored slot) : Script τ ρ).references =
        [.stored slot] := rfl
    unfold build
    simp only [mentions, List.find?_cons, known, List.find?_nil]
    exact congrArg (fun ref : CellRef => Except.ok (Pattern.ofGrammar (τ := τ)
      (.rule (N := cellNames ρ) ref))) stands
  have performs : session.perform (.parse slot tokens) =
      session.answerWith (.ofGrammar (.rule (N := cellNames ρ) (.weak number))) tokens
        .outcome := by
    rw [perform, withBuilt, built]
  unfold operate
  rw [performs]
  rfl

/-! ## Second patterns -/

/-- When exactly the held cells live, there is nothing to free. -/
theorem settle_eq {isRule : Nat → Prop} (sound : session.Sound isRule) :
    session.settle = session := by
  have same : session.sweptCells = session.cells := by
    apply List.ext_getElem?
    intro number
    rw [getElem?_sweptCells]
    cases found : session.cells[number]? with
    | none => rfl
    | some cell =>
      obtain ⟨name, pattern, freed⟩ := cell
      cases freed with
      | true => rfl
      | false =>
        have held := sound.held number ⟨_, found, rfl⟩
        simp [held]
  unfold settle
  cases session.cells.length with
  | zero => rfl
  | succ rounds => simp [sweep, same]

/-- A rule that has no pattern is given one. -/
theorem operate_define [Token τ] {slot : String} {script : Script τ ρ} {built : Pattern τ ρ}
    {cell : Cell τ ρ} (held : session.rules.get? slot = some number)
    (found : session.cells[number]? = some cell) (undefined : cell.pattern = none)
    (builds : session.build script = .ok built) :
    (session.operate (.define slot script)).1 = .ok .done ∧
      ∃ cell', (session.operate (.define slot script)).2.cells[number]? = some cell' ∧
        cell'.pattern = some built := by
  have performs : session.perform (.define slot script) =
      (.ok .done, session.onCell number fun cell => { cell with pattern := some built }) := by
    simp [perform, withRule, held, withBuilt, builds, define, found, Cell.isDefined, undefined]
  have there : (session.onCell number fun cell => { cell with pattern := some built }).cells[number]?
      = some { cell with pattern := some built } := by
    simp [onCell, found]
  obtain ⟨cell', found', becomes⟩ := sweep_extends _ _ number _ there
  unfold operate
  rw [performs]
  exact ⟨rfl, cell', found', becomes.pattern built rfl⟩

/-- A rule that has a pattern cannot be given another one; nothing but the journal changes. -/
theorem operate_define_again [Token τ] {isRule : Nat → Prop} (sound : session.Sound isRule)
    {slot : String} {script : Script τ ρ} {pattern built : Pattern τ ρ} {cell : Cell τ ρ}
    (held : session.rules.get? slot = some number) (found : session.cells[number]? = some cell)
    (has : cell.pattern = some pattern) (builds : session.build script = .ok built) :
    session.operate (.define slot script) = session.stop (.redefined cell.name) := by
  have stops : session.perform (.define slot script) = session.stop (.redefined cell.name) := by
    simp [perform, withRule, held, withBuilt, builds, define, found, Cell.isDefined, has]
  have unchanged : (session.stop (.redefined cell.name)).2.Sound isRule :=
    { living := sound.living, rules := sound.rules, older := sound.older, held := sound.held }
  unfold operate
  rw [stops]
  exact Prod.ext rfl (settle_eq unchanged)

/-! ## Ownership without cycles -/

/-- What a slot leads to lives. -/
theorem living_of_reaches {isRule : Nat → Prop} (loose : session.Loose isRule) {root : Nat}
    (handle : root ∈ session.handles) (reaches : Relation.ReflTransGen session.Owns root number) :
    session.Living number := by
  induction reaches with
  | refl => exact loose.living root (mem_heldCells.mpr (.inl handle))
  | tail _ owns ih => exact loose.living _ (mem_heldCells.mpr (.inr ⟨_, ih, owns⟩))

/-- Ownership that passes no rule leads to older cells. -/
theorem lt_or_exists_rule {isRule : Nat → Prop} (loose : session.Loose isRule) {owner : Nat}
    (reaches : Relation.TransGen session.Owns owner number) :
    number < owner ∨ ∃ rule, isRule rule ∧ Relation.ReflTransGen session.Owns owner rule ∧
      Relation.TransGen session.Owns rule number := by
  induction reaches with
  | single owns =>
    by_cases among : isRule owner
    · exact .inr ⟨owner, among, .refl, .single owns⟩
    · exact .inl (loose.older owner among _ owns)
  | @tail middle last reaches owns ih =>
    rcases ih with older | ⟨rule, among, leads, later⟩
    · by_cases among : isRule middle
      · exact .inr ⟨middle, among, reaches.to_reflTransGen, .single owns⟩
      · exact .inl ((loose.older middle among _ owns).trans older)
    · exact .inr ⟨rule, among, leads, later.tail owns⟩

/-- No rule's pattern owns a rule, not even through other cells. -/
def RefersWeakly (isRule : Nat → Prop) (session : Session τ ρ) : Prop :=
  ∀ rule other, isRule rule → Relation.TransGen session.Owns rule other → ¬ isRule other

/-- Where rules are referred to weakly, ownership has no cycles. -/
theorem owns_acyclic {isRule : Nat → Prop} (loose : session.Loose isRule)
    (weakly : session.RefersWeakly isRule) : ¬ Relation.TransGen session.Owns number number := by
  intro cycle
  rcases lt_or_exists_rule loose cycle with below | ⟨rule, among, leads, later⟩
  · exact Nat.lt_irrefl number below
  · exact weakly rule rule among (later.trans_left leads) among

/-- Where rules are referred to weakly, every cell that lives is reached from a slot. -/
theorem exists_handle_of_living {isRule : Nat → Prop} (sound : session.Sound isRule)
    (weakly : session.RefersWeakly isRule) (living : session.Living number) :
    ∃ root ∈ session.handles, Relation.ReflTransGen session.Owns root number := by
  -- The induction goes back along ownership, which has no cycles among finitely many cells.
  let Before (owner cell : Fin session.cells.length) : Prop :=
    Relation.TransGen session.Owns owner cell
  have transitive : IsTrans _ Before := ⟨fun _ _ _ first second => first.trans second⟩
  have irreflexive : Std.Irrefl Before := ⟨fun _ => owns_acyclic sound.toLoose weakly⟩
  have founded : WellFounded Before := Finite.wellFounded_of_trans_of_irrefl Before
  have inside : ∀ {cell}, session.Living cell → cell < session.cells.length := by
    intro cell ⟨_, found, _⟩
    exact (List.getElem?_eq_some_iff.mp found).1
  have reached : ∀ cell : Fin session.cells.length, session.Living cell →
      ∃ root ∈ session.handles, Relation.ReflTransGen session.Owns root cell := by
    intro cell
    induction cell using founded.induction with
    | _ cell ih =>
      intro living
      rcases mem_heldCells.mp (sound.held cell living) with handle | ⟨owner, lives, owns⟩
      · exact ⟨cell, handle, .refl⟩
      · obtain ⟨root, handle, leads⟩ := ih ⟨owner, inside lives⟩ (.single owns) lives
        exact ⟨root, handle, leads.tail owns⟩
  exact reached ⟨number, inside living⟩ living

/-- Where rules are referred to weakly, a rule is reached from a rule slot only if that slot holds
it. -/
theorem rule_of_reaches {isRule : Nat → Prop} (loose : session.Loose isRule)
    (weakly : session.RefersWeakly isRule) (rule : isRule number) {root : Nat}
    (held : root ∈ session.rules.items)
    (reaches : Relation.ReflTransGen session.Owns root number) :
    number ∈ session.rules.items := by
  rcases Relation.reflTransGen_iff_eq_or_transGen.mp reaches with rfl | leads
  · exact held
  · exact absurd rule (weakly root number (loose.rules root held) leads)

/-! ## Whole sessions -/

section Histories

variable [Token τ]

/-- **The cells of rules last as long as they are held.** Take the session after any operations, some
of which may have stopped with a fault.

First, a rule without a pattern can be given one. A cell that has a pattern keeps it and its name
whatever is done next, and once freed it stays freed; while it is held, all references to it mean
this pattern; and giving the rule another pattern, through whatever slot, is a fault that changes
nothing but the journal.

Second, running a weak reference, stored in a slot or anywhere in a grammar, runs the pattern if the
cell is held and has one. If it is held without one, the run stops as undefined, and if nothing
holds it, as dropped. The cells that have not been freed are those that are held: by a slot, or by
the pattern of another cell that has not been freed.

Third, if the patterns of rules own no rules, the cells that have not been freed are those that are
reached by ownership from a slot, whatever refers to what weakly. So a rule lives only while a rule
slot or a stored parser keeps it, and when no slot holds anything all cells have been freed. -/
theorem rule_cells_last (operations : List (Operation τ ρ)) (session : Session τ ρ)
    (reached : initial.after operations = session) :
    (∀ number cell slot script built, session.cells[number]? = some cell → cell.pattern = none →
      session.rules.get? slot = some number → session.build script = .ok built →
        (session.operate (.define slot script)).1 = .ok .done ∧
          ∃ cell', (session.operate (.define slot script)).2.cells[number]? = some cell' ∧
            cell'.pattern = some built) ∧
    (∀ number cell pattern, session.cells[number]? = some cell → cell.pattern = some pattern →
      (∀ more, ∃ cell', (session.after more).cells[number]? = some cell' ∧
        cell'.name = cell.name ∧ cell'.pattern = some pattern ∧
        (cell.freed = true → cell'.freed = true) ∧
        ∀ ref : CellRef, ref.cell = number → number ∈ (session.after more).heldCells →
          (session.after more).lookUp ref = .ok pattern.grammar) ∧
      ∀ slot script built, session.rules.get? slot = some number →
        session.build script = .ok built →
          session.operate (.define slot script) = session.stop (.redefined cell.name)) ∧
    (∀ number cell, session.cells[number]? = some cell →
      (cell.freed = false ↔ number ∈ session.heldCells) ∧
      (∀ (limit : Nat) (input : Residual τ) (before : Machine),
        (∀ pattern, number ∈ session.heldCells → cell.pattern = some pattern →
          session.lookUp.call (m := Run) (limit + 1) (.weak number) input =
            pattern.grammar.run session.lookUp limit input) ∧
        (number ∈ session.heldCells → cell.pattern = none →
          (session.lookUp.call (m := Run) (limit + 1) (.weak number) input).run.run before =
            (.error (.undefined cell.name), before.note (.faulted (.undefined cell.name)))) ∧
        (number ∉ session.heldCells →
          (session.lookUp.call (m := Run) (limit + 1) (.weak number) input).run.run before =
            (.error (.dropped cell.name), before.note (.faulted (.dropped cell.name))))) ∧
      ∀ slot tokens, session.parsers.get? slot = some (.weak number) →
        (session.operate (.parse slot tokens)).1 =
          ((session.lookUp.call (m := Run) callLimit (.weak number) (.start tokens)).run
            session.machine).1.map .outcome) ∧
    (session.RefersWeakly (Declares operations) →
      (∀ number, session.Living number ↔
        ∃ root ∈ session.handles, Relation.ReflTransGen session.Owns root number) ∧
      (∀ number, Declares operations number → session.Living number →
        number ∈ session.rules.items ∨ ∃ ref ∈ session.parsers.items, ∃ root,
          ref.held? = some root ∧ Relation.ReflTransGen session.Owns root number) ∧
      (session.handles = [] → ∀ number, ¬ session.Living number)) := by
  subst reached
  have sound := sound_after operations
  have soundLater : ∀ more, (((initial : Session τ ρ).after operations).after more).Sound
      (Declares (operations ++ more)) := by
    intro more
    rw [← after_append]
    exact sound_after (operations ++ more)
  refine ⟨?_, ?_, ?_, ?_⟩
  · intro number cell slot script built found undefined held builds
    exact operate_define held found undefined builds
  · intro number cell pattern found has
    refine ⟨fun more => ?_, fun slot script built held builds =>
      operate_define_again sound held found has builds⟩
    obtain ⟨cell', found', becomes⟩ := after_extends _ more number cell found
    refine ⟨cell', found', becomes.name, becomes.pattern pattern has, becomes.freed, ?_⟩
    intro ref same held
    subst same
    exact lookUp_of_pattern (soundLater more) found' (becomes.pattern pattern has) held
  · intro number cell found
    have means := lookUp_weak sound found
    refine ⟨freed_iff_held sound found, fun limit input before => ⟨?_, ?_, ?_⟩, ?_⟩
    · intro pattern held has
      rw [if_pos held, has] at means
      rw [Rules.call, means]
      rfl
    · intro held undefined
      apply run_call_of_error
      rw [means, if_pos held, undefined]
    · intro unheld
      apply run_call_of_error
      rw [means, if_neg unheld]
    · intro slot tokens stored
      exact operate_parse_weak stored tokens
  · intro weakly
    have reaches : ∀ number, ((initial : Session τ ρ).after operations).Living number →
        ∃ root ∈ ((initial : Session τ ρ).after operations).handles,
          Relation.ReflTransGen ((initial : Session τ ρ).after operations).Owns root number :=
      fun _ => exists_handle_of_living sound weakly
    refine ⟨fun number => ⟨reaches number, ?_⟩, ?_, ?_⟩
    · intro ⟨root, handle, leads⟩
      exact living_of_reaches sound.toLoose handle leads
    · intro number declared living
      obtain ⟨root, handle, leads⟩ := reaches number living
      rcases List.mem_append.mp handle with rule | parser
      · exact .inl (rule_of_reaches sound.toLoose weakly declared rule leads)
      · obtain ⟨ref, present, owned⟩ := List.mem_filterMap.mp parser
        exact .inr ⟨ref, present, root, owned, leads⟩
    · intro nothing number living
      obtain ⟨root, handle, -⟩ := reaches number living
      rw [nothing] at handle
      cases handle

end Histories

section Recursion

open Grammar

/-- Parentheses around what the inner rule reads; the value is how many pairs there are. -/
def outerScript : Script Word Nat :=
  map (· + 1) (between (literal "(") (rule (N := slotNames Nat) (.weak "inner")) (literal ")"))

/-- What the outer rule reads, or nothing. -/
def innerScript : Script Word Nat :=
  firstOf [rule (N := slotNames Nat) (.weak "outer"), succeed 0]

/-- Two rules are made that refer to each other, and then both are let go. -/
def recursion : List (Operation Word Nat) :=
  [.declare "outer" "outer", .declare "inner" "inner", .define "outer" outerScript,
    .define "inner" innerScript, .refer "outer" "entry", .release "inner", .release "outer"]

theorem recursion_refersWeakly :
    ((initial : Session Word Nat).after recursion).RefersWeakly (Declares recursion) := by
  have nothing : ((initial : Session Word Nat).after recursion).cells.map Cell.owned = [[], []] :=
    rfl
  have owns : ∀ owner number, ¬ ((initial : Session Word Nat).after recursion).Owns owner number := by
    intro owner number ⟨cell, found, owned⟩
    have among : cell.owned ∈ [[], []] := nothing ▸ List.mem_map_of_mem (List.mem_of_getElem? found)
    have empty : cell.owned = [] := by simpa using among
    rw [empty] at owned
    cases owned
  intro rule other declared leads
  obtain ⟨next, step, -⟩ := Relation.TransGen.head'_iff.mp leads
  exact absurd step (owns rule next)

/-- Though the rules refer to each other, both are freed, and a parser that refers to one of them
cannot be run any more. -/
theorem rule_cells_last_recursion :
    ((initial : Session Word Nat).after recursion).RefersWeakly (Declares recursion) ∧
      (∀ number, ¬ ((initial : Session Word Nat).after recursion).Living number) ∧
      (((initial : Session Word Nat).after recursion).operate
        (.parse "entry" (["(", ")"].map Word.ofLexeme))).1 = .error (.dropped "outer") := by
  obtain ⟨-, -, running, owning⟩ :=
    rule_cells_last recursion ((initial : Session Word Nat).after recursion) rfl
  obtain ⟨-, -, freed⟩ := owning recursion_refersWeakly
  have dead := freed rfl
  obtain ⟨cell, found, name⟩ : ∃ cell,
      ((initial : Session Word Nat).after recursion).cells[0]? = some cell ∧ cell.name = "outer" :=
    ⟨_, rfl, rfl⟩
  obtain ⟨lives, calls, parses⟩ := running 0 cell found
  have unheld : 0 ∉ ((initial : Session Word Nat).after recursion).heldCells :=
    fun held => dead 0 ⟨cell, found, lives.mpr held⟩
  refine ⟨recursion_refersWeakly, dead, ?_⟩
  rw [parses "entry" _ rfl]
  have stopped := (calls (callLimit - 1) (.start (["(", ")"].map Word.ofLexeme))
    ((initial : Session Word Nat).after recursion).machine).2.2 unheld
  rw [name] at stopped
  exact congrArg (fun ended => ended.1.map Answer.outcome) stopped

end Recursion

end Multiparse.Session
