import Multiparse.Machine
import Multiparse.Session.Cell
import Multiparse.Session.Slots

/-!
# Sessions

A session builds a grammar piece by piece. Named slots hold handles to rules and stored parsers,
both of which live in cells.

The person who writes a session knows slots only. A script is a grammar over slot names; it becomes
a pattern over cells when it is built. A parser that is used by another one is referred to and not
copied, so the size of a pattern is the size of its script.
-/

namespace Multiparse

/-- How a script refers to a slot. -/
inductive SlotRef where
  /-- The rule in a slot, without keeping it alive. -/
  | weak (slot : String)
  /-- The rule in a slot, keeping it alive. -/
  | owning (slot : String)
  /-- The parser stored in a slot. -/
  | stored (slot : String)
  deriving DecidableEq

/-- The name of the slot. -/
def SlotRef.slot : SlotRef → String
  | weak slot => slot
  | owning slot => slot
  | stored slot => slot

/-- The names a script may use: slots. -/
abbrev slotNames (ρ : Type) : Names := ⟨SlotRef, fun _ => ρ, String⟩

/-- A grammar as it is written in a session. -/
abbrev Script (τ ρ : Type) : Type 1 := Grammar (slotNames ρ) τ ρ

/-- The structural text of a tracer. -/
def Tracer.inspect (tracer : Tracer) : String :=
  Inspect.record "Tracer"
    [("enabled", Inspect.truth tracer.enabled), ("depth", toString tracer.depth)]

/-- Everything a session holds. -/
structure Session (τ ρ : Type) : Type 1 where
  /-- All cells ever made, by number. -/
  cells : List (Cell τ ρ)
  /-- Rule handles. -/
  rules : Slots Nat
  /-- Stored parsers. -/
  parsers : Slots CellRef
  /-- Tracer handles. -/
  tracers : Slots Nat
  machine : Machine

namespace Session

variable {τ ρ : Type}

/-- A session in which nothing has happened. -/
def initial : Session τ ρ := ⟨[], [], [], [], .initial⟩

/-- The most runs of cells that may be in progress at once. -/
def callLimit : Nat := 1000000

/-- What each reference means now. -/
def lookUp (session : Session τ ρ) : Rules (cellNames ρ) τ := fun ref =>
  match session.cells[ref.cell]? with
  | some cell => cell.lookUp ref
  | none => .error (.unknown (toString ref.cell))

/-- Changes the machine. -/
def onMachine (change : Machine → Machine) (session : Session τ ρ) : Session τ ρ :=
  { session with machine := change session.machine }

/-- Changes a cell. -/
def onCell (number : Nat) (change : Cell τ ρ → Cell τ ρ) (session : Session τ ρ) : Session τ ρ :=
  { session with cells := session.cells.modify number change }

/-! ## Which cells live -/

/-- The cells that something holds: a handle, a stored parser, or the pattern of a cell that has
not been freed. -/
def heldCells (session : Session τ ρ) : List Nat :=
  session.rules.items ++ session.parsers.items.filterMap CellRef.held? ++
    session.cells.flatMap Cell.holds

/-- For each number below `count`, whether it is listed. -/
def marks (count : Nat) (numbers : List Nat) : Array Bool :=
  numbers.foldl (fun marks number => marks.setIfInBounds number true) (.replicate count false)

/-- Marking keeps what is marked and adds what is listed. -/
theorem getD_foldl_setIfInBounds (numbers : List Nat) (start : Array Bool) (number : Nat) :
    (numbers.foldl (fun marks number => marks.setIfInBounds number true) start).getD number false
      = (start.getD number false || (decide (number < start.size) && numbers.contains number)) := by
  induction numbers generalizing start with
  | nil => simp
  | cons first others ih =>
    rw [List.foldl_cons, ih]
    by_cases same : first = number
    · subst same
      by_cases inside : first < start.size <;> simp [Array.getD, inside]
    · simp [Array.getElem?_setIfInBounds_ne same, Ne.symm same]

/-- A number is marked when it is below the bound and listed. -/
theorem getD_marks (count : Nat) (numbers : List Nat) (number : Nat) :
    (marks count numbers).getD number false
      = (decide (number < count) && numbers.contains number) := by
  have unmarked : (Array.replicate count false).getD number false = false := by
    by_cases inside : number < count <;> simp [inside]
  rw [marks, getD_foldl_setIfInBounds, unmarked, Array.size_replicate, Bool.false_or]

/-- The cells with those freed that nothing holds. -/
def sweptCells (session : Session τ ρ) : List (Cell τ ρ) :=
  let held := marks session.cells.length session.heldCells
  session.cells.mapIdx fun number cell =>
    { cell with freed := cell.freed || !held.getD number false }

/-- How many cells have not been freed. -/
def living (cells : List (Cell τ ρ)) : Nat := cells.countP fun cell => !cell.freed

/-- Frees every cell that nothing holds, until there is none or `rounds` are over. -/
def sweep (session : Session τ ρ) : Nat → Session τ ρ
  | 0 => session
  | rounds + 1 =>
    let cells := session.sweptCells
    if living cells = living session.cells then session else sweep { session with cells } rounds

/-- Frees every cell that has lost its last holder. A freed cell lets go of what its pattern held,
so one round may give rise to another, but to no more than there are cells. -/
def settle (session : Session τ ρ) : Session τ ρ := session.sweep session.cells.length

/-! ## Scripts -/

/-- The cell that a slot reference stands for now, if the slot holds anything. -/
def cellRef? (session : Session τ ρ) : SlotRef → Option CellRef
  | .weak slot => (session.rules.get? slot).map .weak
  | .owning slot => (session.rules.get? slot).map .owning
  | .stored slot => session.parsers.get? slot

/-- Builds a script. Slots are looked up once, when it is built, and all that it refers to must hold
something. -/
def build (session : Session τ ρ) (script : Script τ ρ) : Except Fault (Pattern τ ρ) :=
  match script.references.find? fun ref => (session.cellRef? ref).isNone with
  | some ref => .error (.unknown ref.slot)
  | none =>
    .ok (.ofGrammar (script.resolve (M := cellNames ρ)
      (fun ref =>
        .rule (N := cellNames ρ) ((session.cellRef? ref).getD (.weak session.cells.length)))
      fun slot => (session.tracers.get? slot).getD session.machine.tracers.length))

/-- Runs a pattern on a token sequence. -/
def run [Token τ] (session : Session τ ρ) (pattern : Pattern τ ρ) (tokens : List τ) :
    Except Fault (Outcome τ ρ) × Session τ ρ :=
  let (result, machine) :=
    (pattern.grammar.run (m := Run) session.lookUp callLimit (Residual.start tokens)).run
      session.machine
  (result, { session with machine })

end Session

end Multiparse
