import Multiparse.Session.Operation

/-!
# What an operation can change

Slots hold handles, and a handle can be copied, moved or let go. Besides that an operation may make
a rule, store a parser or give a rule its pattern; a pattern that is built owns only what a slot
holds meanwhile. There is nothing else that it can do to the cells and the slots
(`Session.perform_change`).
-/

namespace Multiparse

/-! ## Slots -/

namespace Slots

universe u

variable {A : Type u} {slots : Slots A} {slot : String} {item other : A}

theorem mem_items_of_get? (found : slots.get? slot = some item) : item ∈ slots.items := by
  induction slots with
  | nil => cases found
  | cons held others ih =>
    unfold get? at found
    split at found
    · obtain rfl := Option.some.inj found
      exact List.mem_cons_self
    · exact List.mem_cons_of_mem _ (ih found)

theorem mem_items_of_erase (member : other ∈ (slots.erase slot).items) : other ∈ slots.items := by
  obtain ⟨held, present, rfl⟩ := List.mem_map.mp member
  exact List.mem_map_of_mem (List.mem_filter.mp present).1

theorem mem_items_put (member : other ∈ (slots.put slot item).items) :
    other = item ∨ other ∈ slots.items := by
  rcases List.mem_cons.mp member with same | among
  · exact .inl same
  · exact .inr (mem_items_of_erase among)

end Slots

/-! ## Patterns that are built -/

variable {N M : Names} {τ ρ α : Type}

/-- What a resolved grammar refers to comes from something that the grammar refers to. -/
theorem Grammar.mem_references_resolve {rules : (rule : N.Rule) → Grammar M τ (N.Result rule)}
    {tracers : N.Tracer → M.Tracer} {g : Grammar N τ α} {found : M.Rule}
    (member : found ∈ (g.resolve rules tracers).references) :
    ∃ rule ∈ g.references, found ∈ (rules rule).references := by
  induction g with
  | satisfy | succeed | fail | endOfInput | custom => exact absurd member List.not_mem_nil
  | map _ p ih | first p ih | repeated _ p ih | gather p ih | reportAs _ p ih | recover _ _ p ih
  | named _ p ih | lookAhead p ih | notAhead p ih | traced _ _ p ih | withDepth _ p ih
  | deferred _ p ih => exact ih member
  | sequence ps ih | choice _ ps ih =>
    obtain ⟨part, among, inside⟩ := List.mem_flatten.mp member
    obtain ⟨i, rfl⟩ := List.mem_ofFn.mp among
    obtain ⟨rule, mentioned, there⟩ := ih i inside
    exact ⟨rule, List.mem_flatten.mpr ⟨_, List.mem_ofFn.mpr ⟨i, rfl⟩, mentioned⟩, there⟩
  | bind p held next ih _ | bindAll p held nexts ih _ =>
    rcases List.mem_append.mp member with first | later
    · obtain ⟨rule, mentioned, there⟩ := ih first
      exact ⟨rule, List.mem_append_left _ mentioned, there⟩
    · obtain ⟨rule, mentioned, there⟩ := List.mem_flatMap.mp later
      exact ⟨rule, List.mem_append_right _ mentioned, there⟩
  | chainRight _ p op ih ihOp =>
    rcases List.mem_append.mp member with operand | operator
    · obtain ⟨rule, mentioned, there⟩ := ih operand
      exact ⟨rule, List.mem_append_left _ mentioned, there⟩
    · obtain ⟨rule, mentioned, there⟩ := ihOp operator
      exact ⟨rule, List.mem_append_right _ mentioned, there⟩
  | rule r => exact ⟨r, List.mem_singleton_self r, member⟩

namespace Session

variable {session : Session τ ρ}

/-- The cells that slots hold. -/
def handles (session : Session τ ρ) : List Nat :=
  session.rules.items ++ session.parsers.items.filterMap CellRef.held?

theorem mem_handles_of_rule {slot : String} {number : Nat}
    (held : session.rules.get? slot = some number) : number ∈ session.handles :=
  List.mem_append_left _ (Slots.mem_items_of_get? held)

/-- What a slot reference owns, a slot holds. -/
theorem mem_handles_of_cellRef? {ref : SlotRef} {found : CellRef} {number : Nat}
    (stands : session.cellRef? ref = some found) (owned : found.held? = some number) :
    number ∈ session.handles := by
  cases ref with
  | weak slot =>
    obtain ⟨cell, -, rfl⟩ := Option.map_eq_some_iff.mp stands
    cases owned
  | owning slot =>
    obtain ⟨cell, held, rfl⟩ := Option.map_eq_some_iff.mp stands
    obtain rfl := Option.some.inj owned
    exact mem_handles_of_rule held
  | stored slot =>
    have present : found ∈ session.parsers.items := Slots.mem_items_of_get? stands
    exact List.mem_append_right _ (List.mem_filterMap.mpr ⟨found, present, owned⟩)

/-- A pattern that is built owns only what a slot holds. -/
theorem mem_handles_of_build {script : Script τ ρ} {pattern : Pattern τ ρ}
    (built : session.build script = .ok pattern) {number : Nat} (owned : number ∈ pattern.holds) :
    number ∈ session.handles := by
  unfold build at built
  split at built
  · cases built
  next complete =>
    obtain rfl := Except.ok.inj built
    rw [Pattern.holds_eq, List.mem_eraseDups, List.mem_filterMap] at owned
    obtain ⟨found, mentioned, held⟩ := owned
    obtain ⟨ref, among, there⟩ := Grammar.mem_references_resolve mentioned
    obtain rfl := List.mem_singleton.mp there
    have known := List.find?_eq_none.mp complete ref among
    cases stands : session.cellRef? ref with
    | none => simp [stands] at known
    | some found =>
      rw [stands, Option.getD_some] at held
      exact mem_handles_of_cellRef? stands held

/-! ## Changes -/

/-- What an operation can make of a session's cells and slots. -/
inductive Change (session : Session τ ρ) (operation : Operation τ ρ) : Session τ ρ → Prop where
  /-- Handles are copied, moved or let go. -/
  | handles (rules : Slots Nat) (parsers : Slots CellRef) (tracers : Slots Nat) (machine : Machine)
      (rulesKept : ∀ number ∈ rules.items, number ∈ session.rules.items)
      (parsersKept : ∀ ref ∈ parsers.items, ∀ number, ref.held? = some number →
        number ∈ session.handles) :
      Change session operation ⟨session.cells, rules, parsers, tracers, machine⟩
  /-- A rule is made. -/
  | declare (slot name : String) (declares : operation = .declare slot name) :
      Change session operation
        { session with
          cells := session.cells ++ [.fresh name]
          rules := session.rules.put slot session.cells.length }
  /-- A parser is stored. -/
  | store (slot : String) (pattern : Pattern τ ρ)
      (owns : ∀ number ∈ pattern.holds, number ∈ session.handles) :
      Change session operation
        { session with
          cells := session.cells ++ [.filled pattern]
          parsers := session.parsers.put slot (.owning session.cells.length) }
  /-- A rule that has no pattern is given one. -/
  | define (number : Nat) (cell : Cell τ ρ) (pattern : Pattern τ ρ)
      (handle : number ∈ session.rules.items) (found : session.cells[number]? = some cell)
      (undefined : cell.pattern = none)
      (owns : ∀ number ∈ pattern.holds, number ∈ session.handles) :
      Change session operation
        (session.onCell number fun cell => { cell with pattern := some pattern })

section Performing

variable {operation : Operation τ ρ}

theorem handled_of_parsers {ref : CellRef} (present : ref ∈ session.parsers.items) {number : Nat}
    (owned : ref.held? = some number) : number ∈ session.handles :=
  List.mem_append_right _ (List.mem_filterMap.mpr ⟨ref, present, owned⟩)

/-- Cells and slots stay as they are. -/
theorem Change.idle (tracers : Slots Nat) (machine : Machine) :
    session.Change operation { session with tracers, machine } :=
  .handles session.rules session.parsers tracers machine (fun _ member => member)
    fun _ present _ owned => handled_of_parsers present owned

theorem stop_change (fault : Fault) : session.Change operation (session.stop fault).2 :=
  .idle session.tracers _

theorem withRule_change {slot : String}
    {next : Nat → Except Fault (Answer τ ρ) × Session τ ρ}
    (continues : ∀ number, session.rules.get? slot = some number →
      session.Change operation (next number).2) :
    session.Change operation (session.withRule slot next).2 := by
  unfold withRule
  split
  next number held => exact continues number held
  next => exact stop_change _

theorem withCell_change {slot : String}
    {next : Cell τ ρ → Except Fault (Answer τ ρ) × Session τ ρ}
    (continues : ∀ cell, session.Change operation (next cell).2) :
    session.Change operation (session.withCell slot next).2 := by
  apply withRule_change
  intro number held
  split
  next cell found => exact continues cell
  next => exact stop_change _

theorem withTracer_change {slot : String}
    {next : Nat → Except Fault (Answer τ ρ) × Session τ ρ}
    (continues : ∀ number, session.Change operation (next number).2) :
    session.Change operation (session.withTracer slot next).2 := by
  unfold withTracer
  split
  next number held => exact continues number
  next => exact stop_change _

theorem withBuilt_change {script : Script τ ρ}
    {next : Pattern τ ρ → Except Fault (Answer τ ρ) × Session τ ρ}
    (continues : ∀ pattern, (∀ number ∈ pattern.holds, number ∈ session.handles) →
      session.Change operation (next pattern).2) :
    session.Change operation (session.withBuilt script next).2 := by
  unfold withBuilt
  split
  next pattern built => exact continues pattern fun _ owned => mem_handles_of_build built owned
  next fault failed => exact stop_change fault

theorem define_change {number : Nat} {pattern : Pattern τ ρ}
    (handle : number ∈ session.rules.items)
    (owns : ∀ number ∈ pattern.holds, number ∈ session.handles) :
    session.Change operation (session.define number pattern).2 := by
  unfold define
  split
  next => exact stop_change _
  next cell found =>
    split
    next => exact stop_change _
    next undefined =>
      exact .define number cell pattern handle found (by simpa [Cell.isDefined] using undefined) owns

/-- A slot for parsers gets a reference whose cell, if it owns one, a slot holds already. -/
theorem put_parser_change {rules : Slots Nat} {slot : String} {ref : CellRef}
    (rulesKept : ∀ number ∈ rules.items, number ∈ session.rules.items)
    (owns : ∀ number, ref.held? = some number → number ∈ session.handles) :
    session.Change operation { session with rules, parsers := session.parsers.put slot ref } := by
  apply Change.handles
  · exact rulesKept
  · intro other present number owned
    rcases Slots.mem_items_put present with rfl | among
    · exact owns number owned
    · exact handled_of_parsers among owned

/-- Whatever is done in a session is one of the changes. -/
theorem perform_change [Token τ] (session : Session τ ρ) (operation : Operation τ ρ) :
    session.Change operation (session.perform operation).2 := by
  cases operation with
  | declare slot name => exact .declare slot name rfl
  | share source target =>
    apply withRule_change
    intro number held
    apply Change.handles
    · intro other member
      rcases Slots.mem_items_put member with rfl | among
      · exact Slots.mem_items_of_get? held
      · exact among
    · exact fun _ present _ owned => handled_of_parsers present owned
  | define slot script =>
    apply withRule_change
    intro number held
    apply withBuilt_change
    intro pattern owns
    exact define_change (Slots.mem_items_of_get? held) owns
  | isDefined slot | ruleName slot | ruleText slot =>
    apply withCell_change
    intro cell
    exact .idle session.tracers session.machine
  | release slot =>
    exact .handles _ session.parsers _ _ (fun _ => Slots.mem_items_of_erase)
      fun _ present _ owned => handled_of_parsers present owned
  | refer rule slot =>
    apply withRule_change
    intro number held
    exact put_parser_change (fun _ member => member) fun _ owned => nomatch owned
  | adopt rule slot =>
    apply withRule_change
    intro number held
    apply put_parser_change (fun _ => Slots.mem_items_of_erase)
    intro other owned
    obtain rfl := Option.some.inj owned
    exact mem_handles_of_rule held
  | store slot script =>
    apply withBuilt_change
    intro pattern owns
    exact .store slot pattern owns
  | discard slot =>
    exact .handles session.rules _ _ _ (fun _ member => member)
      fun _ present _ owned => handled_of_parsers (Slots.mem_items_of_erase present) owned
  | parse slot tokens | parseWhole slot tokens | parseRule slot tokens
  | parseScript script tokens =>
    apply withBuilt_change
    intro pattern owns
    exact .idle session.tracers _
  | countBuilt => exact .idle session.tracers session.machine
  | newTracer slot enabled => exact .idle _ _
  | shareTracer source target | switchTracer slot enabled | tracerState slot =>
    apply withTracer_change
    intro number
    exact .idle _ _

end Performing

end Session

end Multiparse
