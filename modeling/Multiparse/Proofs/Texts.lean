import Multiparse.Proofs.Contract

/-!
# Whose words a diagnostic has

The message of a diagnostic is never made up on the way. It is one of the texts with which the
parsers of single tokens, of what must not follow and of empty choices complain, or a text that the
grammar itself holds ready for a failure, or its own rules do (`Grammar.run_worded`).
-/

namespace Multiparse

variable {τ α β : Type}

/-- The texts of failures for which a grammar holds no text ready. -/
inductive StockText [Token τ] : String → Prop where
  | mismatch : StockText "unexpected token"
  | exhausted : StockText "unexpected end of input"
  | noAlternative : StockText "no alternative matched"
  | unexpectedMatch : StockText "unexpected match"
  | unexpected (token : τ) : StockText ("unexpected " ++ Token.describe token)

variable {N : Names}

/-- All texts that the grammar holds ready for failures have the property. -/
def Grammar.Texts (said : String → Prop) {α : Type} : Grammar N τ α → Prop
  | satisfy _ _ => True
  | succeed _ => True
  | fail message => said message
  | endOfInput => True
  | custom run => ∀ input, ∀ reason ∈ (run input).error, said reason.message
  | map _ p => p.Texts said
  | sequence ps => ∀ i, (ps i).Texts said
  | bind p _ next => p.Texts said ∧ ∀ value, (next value).Texts said
  | bindAll p _ nexts => p.Texts said ∧ ∀ i value, (nexts i value).Texts said
  | choice _ ps => ∀ i, (ps i).Texts said
  | first p => p.Texts said
  | repeated _ p => p.Texts said
  | chainRight _ p op => p.Texts said ∧ op.Texts said
  | gather p => p.Texts said
  | reportAs message p => said message ∧ p.Texts said
  | recover message _ p => said message ∧ p.Texts said
  | named _ p => p.Texts said
  | lookAhead p => p.Texts said
  | notAhead _ => True
  | traced _ _ p => p.Texts said
  | withDepth _ p => p.Texts said
  | deferred _ p => p.Texts said
  | rule _ => True

/-- All texts that the patterns hold ready for failures have the property. -/
def Rules.Texts (said : String → Prop) (rules : Rules N τ) : Prop :=
  ∀ rule pattern, rules rule = .ok pattern → pattern.Texts said

/-! ## What diagnostics say -/

variable {said : String → Prop}

/-- The diagnostic, if there is one, has an allowed text. -/
def Diagnostic.Worded (said : String → Prop) (error : Option Diagnostic) : Prop :=
  ∀ reason ∈ error, said reason.message

/-- Whatever the parser returns has an allowed text. -/
def Parser.Worded (said : String → Prop) (p : Parser Run τ α) : Prop :=
  ∀ input, (p input).Ensures fun outcome => Diagnostic.Worded said outcome.error

namespace Diagnostic.Worded

variable {error error' : Option Diagnostic}

theorem none : Worded said none := fun _ missing => nomatch missing

theorem ofSome {reason : Diagnostic} (text : said reason.message) : Worded said (some reason) := by
  intro other same
  obtain rfl := Option.some.inj same
  exact text

/-- Of two diagnostics one speaks. -/
theorem farthest (worded : Worded said error) (worded' : Worded said error') :
    Worded said (farthest error error') := by
  cases error with
  | none => exact worded'
  | some first =>
    cases error' with
    | none => exact worded
    | some second =>
      apply ofSome
      unfold deeper
      split
      · exact worded' second rfl
      · exact worded first rfl
      · unfold absorb
        split <;> exact worded first rfl

theorem rephrase {message : String} (text : said message) (worded : Worded said error) :
    Worded said (some (rephrase message error)) := by
  apply ofSome
  cases error with
  | none => exact text
  | some reason =>
    by_cases empty : message.isEmpty = true
    · rw [Diagnostic.rephrase, if_pos empty]
      exact worded reason rfl
    · rw [Diagnostic.rephrase, if_neg empty]
      exact text

section Stock

variable [Token τ] (stock : ∀ text, StockText (τ := τ) text → said text)
include stock

theorem conclude (worded : Worded said error) (success : Bool) (readings : List (Reading τ α)) :
    Worded said (Outcome.conclude success readings error).error := by
  cases success with
  | true => exact worded
  | false =>
    apply ofSome
    cases error with
    | none => exact stock _ .noAlternative
    | some reason => exact worded reason rfl

theorem wantedAs (worded : Worded said error) (name : String) (position : Position) :
    Worded said (some (wantedAs name position error)) := by
  apply ofSome
  cases error with
  | none => exact stock _ .noAlternative
  | some reason => exact worded reason rfl

end Stock

end Diagnostic.Worded

/-! ## Sequences -/

theorem Layer.advance_worded {stage : Reading τ α → Run (Outcome τ β)}
    (stages : ∀ reading, (stage reading).Ensures fun outcome =>
      Diagnostic.Worded said outcome.error)
    (readings : List (Reading τ α)) {error : Option Diagnostic}
    (worded : Diagnostic.Worded said error) :
    (Layer.advance stage readings error).Ensures fun layer =>
      Diagnostic.Worded said layer.error := by
  induction readings generalizing error with
  | nil => exact .pure worded
  | cons reading others ih =>
    refine .bind (stages reading) fun outcome found => ?_
    refine .bind (ih (worded.farthest found)) fun layer later => ?_
    exact .pure later

section Parsers

variable [Token τ] (stock : ∀ text, StockText (τ := τ) text → said text)
include stock

theorem Layer.through_worded {stages : List (Reading τ α → Run (Outcome τ α))}
    (each : ∀ stage ∈ stages, ∀ reading, (stage reading).Ensures fun outcome =>
      Diagnostic.Worded said outcome.error)
    {layer : Layer τ α} (worded : Diagnostic.Worded said layer.error) :
    (Layer.through stages layer).Ensures fun outcome => Diagnostic.Worded said outcome.error := by
  induction stages generalizing layer with
  | nil => exact .pure worded
  | cons stage others ih =>
    refine .bind (advance_worded (each stage List.mem_cons_self) _ worded) fun next found => ?_
    split
    · exact .pure (found.conclude stock false _)
    · exact ih (fun stage member => each stage (List.mem_cons_of_mem _ member)) found

namespace Parser

variable {p : Parser Run τ α}

omit [Token τ] stock in
theorem map_worded (part : p.Worded said) (f : α → β) : (map f p).Worded said :=
  fun input => .bind (part input) fun _ found => .pure found

theorem bind_worded {next : α → Parser Run τ β} (part : p.Worded said)
    (continues : ∀ value, (next value).Worded said) : (bind p next).Worded said := by
  intro input
  refine .bind (part input) fun first found => ?_
  split
  · exact .pure found
  · refine .bind (Layer.advance_worded (fun reading => continues _ reading.rest) _ found)
      fun layer later => ?_
    exact .pure (later.conclude stock _ _)

theorem bindAll_worded {nexts : List (α → Parser Run τ α)} (part : p.Worded said)
    (continues : ∀ next ∈ nexts, ∀ value, (next value).Worded said) :
    (bindAll p nexts).Worded said := by
  intro input
  refine .bind (part input) fun first found => ?_
  split
  · exact .pure found
  · apply Layer.through_worded stock ?_ found
    intro stage member reading
    obtain ⟨next, present, rfl⟩ := List.mem_map.mp member
    exact continues next present reading.value reading.rest

theorem sequence_worded {ps : List (Parser Run τ α)} (parts : ∀ p ∈ ps, p.Worded said) :
    (sequence ps).Worded said := by
  intro input
  apply Layer.through_worded stock ?_ .none
  intro stage member reading
  obtain ⟨p, present, rfl⟩ := List.mem_map.mp member
  exact map_worded (parts p present) _ reading.rest

/-! ## Choices -/

theorem anyOfFrom_worded {ps : List (Parser Run τ α)} (parts : ∀ p ∈ ps, p.Worded said)
    (input : Residual τ) (success : Bool) (readings : List (Reading τ α))
    {error : Option Diagnostic} (worded : Diagnostic.Worded said error) :
    (anyOfFrom input ps success readings error).Ensures fun outcome =>
      Diagnostic.Worded said outcome.error := by
  induction ps generalizing success readings error with
  | nil => exact .pure (worded.conclude stock success readings)
  | cons p others ih =>
    have later := fun p member => parts p (List.mem_cons_of_mem _ member)
    refine .bind (parts p List.mem_cons_self input) fun outcome found => ?_
    split
    · exact ih later true _ (worded.farthest found)
    · exact ih later success readings (worded.farthest found)

theorem firstOfFrom_worded {ps : List (Parser Run τ α)} (parts : ∀ p ∈ ps, p.Worded said)
    (input : Residual τ) {error : Option Diagnostic} (worded : Diagnostic.Worded said error) :
    (firstOfFrom input ps error).Ensures fun outcome => Diagnostic.Worded said outcome.error := by
  induction ps generalizing error with
  | nil => exact .pure (worded.conclude stock false [])
  | cons p others ih =>
    refine .bind (parts p List.mem_cons_self input) fun outcome found => ?_
    split
    · exact .pure (worded.farthest found)
    · exact ih (fun p member => parts p (List.mem_cons_of_mem _ member)) (worded.farthest found)

theorem choice_worded (policy : Policy) {ps : List (Parser Run τ α)}
    (parts : ∀ p ∈ ps, p.Worded said) : (choice policy ps).Worded said := by
  intro input
  cases policy with
  | exhaustive => exact anyOfFrom_worded stock parts input false [] .none
  | ordered => exact firstOfFrom_worded stock parts input .none

/-! ## Repetitions -/

omit [Token τ] stock in
theorem round_worded (part : p.Worded said) {layer : Layer τ (List α)}
    (worded : Diagnostic.Worded said layer.error) :
    (Repetition.round p layer).Ensures fun next => Diagnostic.Worded said next.error := by
  refine Layer.advance_worded (fun reading => ?_) _ worded
  exact .bind (part reading.rest) fun _ found => .pure found

omit [Token τ] stock in
theorem layers_worded (part : p.Worded said) (rounds : Nat) {layer : Layer τ (List α)}
    (worded : Diagnostic.Worded said layer.error) :
    (Repetition.layers p rounds layer).Ensures fun explored =>
      Diagnostic.Worded said explored.2 := by
  induction rounds generalizing layer with
  | zero => exact .pure worded
  | succ rounds ih =>
    refine .bind (round_worded part worded) fun next found => ?_
    split
    · exact .pure found
    · exact .bind (ih found) fun _ deeper => .pure deeper

theorem exactly_worded (part : p.Worded said) (count : Nat) {layer : Layer τ (List α)}
    (worded : Diagnostic.Worded said layer.error) :
    (Repetition.exactly p count layer).Ensures fun outcome =>
      Diagnostic.Worded said outcome.error := by
  induction count generalizing layer with
  | zero => exact .pure worded
  | succ count ih =>
    refine .bind (round_worded part worded) fun next found => ?_
    split
    · exact .pure (found.conclude stock false _)
    · exact ih found

theorem repeated_worded (part : p.Worded said) (extent : Extent) : (repeated extent p).Worded said := by
  intro input
  cases extent with
  | exactly count => exact exactly_worded stock part count .none
  | shortestFirst | longestFirst | greedy =>
    exact .bind (layers_worded part _ .none) fun _ found => .pure found

/-! ## Chains -/

theorem chainRight_worded (policy : Policy) {op : Parser Run τ (α → α → α)} (part : p.Worded said)
    (operators : op.Worded said) : (chainRight policy p op).Worded said := by
  intro input
  generalize measured : input.remaining = remaining
  induction remaining using Nat.strongRecOn generalizing input with
  | ind remaining ih =>
    subst measured
    rw [chainRight]
    apply bind_worded stock part
    intro left
    apply choice_worded stock policy
    intro branch member
    rcases List.mem_pair.mp member with rfl | rfl
    · apply bind_worded stock operators
      intro apply rest
      dsimp only
      split
      next shorter => exact .bind (ih _ shorter rest rfl) fun _ found => .pure found
      next => exact .abort
    · exact fun rest => .pure .none

/-! ## Parsers that complain, and parsers that change an outcome -/

theorem satisfy_worded (accepts : τ → Bool) (expected : String) :
    (satisfy accepts expected : Parser Run τ τ).Worded said := by
  intro input
  refine .pure ?_
  dsimp only
  split
  · exact .ofSome (stock _ .exhausted)
  · split
    · exact .none
    · exact .ofSome (stock _ .mismatch)

theorem endOfInput_worded : (endOfInput : Parser Run τ Unit).Worded said := by
  intro input
  refine .pure ?_
  dsimp only
  split
  · exact .none
  · exact .ofSome (stock _ .mismatch)

omit [Token τ] stock in
/-- On success the diagnostic stays, and on failure something else is returned. -/
theorem onFailure_worded (part : p.Worded said)
    (instead : Residual τ → Option Diagnostic → Outcome τ α)
    (worded : ∀ input error, Diagnostic.Worded said error →
      Diagnostic.Worded said (instead input error).error) :
    Worded said fun input => p input >>= fun outcome =>
      if outcome.success then pure outcome else pure (instead input outcome.error) := by
  intro input
  refine .bind (part input) fun outcome found => ?_
  split
  · exact .pure found
  · exact .pure (worded input outcome.error found)

omit [Token τ] stock in
/-- The readings are changed on success, and the diagnostic stays in any case. -/
theorem onSuccess_worded (part : p.Worded said)
    (readings : Residual τ → Outcome τ α → List (Reading τ β)) :
    Worded said fun input => p input >>= fun outcome =>
      if !outcome.success then pure outcome.toFailure
      else pure (.ofReadings (readings input outcome) outcome.error) := by
  intro input
  refine .bind (part input) fun outcome found => ?_
  split
  · exact .pure found
  · exact .pure found

theorem notAhead_worded (p : Parser Run τ α) : (notAhead p).Worded said := by
  intro input
  refine act_ensures _ fun outcome => ?_
  split
  · refine .pure (.ofSome ?_)
    unfold unexpectedMatch
    split
    · exact stock _ .unexpectedMatch
    · exact stock _ (.unexpected _)
  · exact .pure .none

end Parser

/-! ## Grammars -/

variable [Observes N.Tracer Run]

theorem Grammar.interpret_worded {call : (rule : N.Rule) → Parser Run τ (N.Result rule)}
    (called : ∀ rule, (call rule).Worded said) (g : Grammar N τ α) (texts : g.Texts said) :
    (g.interpret call).Worded said := by
  induction g with
  | satisfy accepts expected => exact Parser.satisfy_worded stock accepts expected
  | succeed value => exact fun input => .pure .none
  | fail message => exact fun input => .pure (.ofSome texts)
  | endOfInput => exact Parser.endOfInput_worded stock
  | custom run => exact fun input => .pure (texts input)
  | map f p ih => exact Parser.map_worded (ih texts) f
  | sequence ps ih =>
    apply Parser.sequence_worded stock
    intro p member
    obtain ⟨i, rfl⟩ := List.mem_ofFn.mp member
    exact ih i (texts i)
  | bind p held next ih ihNext =>
    exact Parser.bind_worded stock (ih texts.1) fun value => ihNext value (texts.2 value)
  | bindAll p held nexts ih ihNexts =>
    apply Parser.bindAll_worded stock (ih texts.1)
    intro next member value
    obtain ⟨i, rfl⟩ := List.mem_ofFn.mp member
    exact ihNexts i value (texts.2 i value)
  | choice policy ps ih =>
    apply Parser.choice_worded stock policy
    intro p member
    obtain ⟨i, rfl⟩ := List.mem_ofFn.mp member
    exact ih i (texts i)
  | first p ih => exact fun input => .bind (ih texts input) fun _ found => .pure found
  | repeated extent p ih => exact Parser.repeated_worded stock (ih texts) extent
  | chainRight policy p op ih ihOp =>
    exact Parser.chainRight_worded stock policy (ih texts.1) (ihOp texts.2)
  | gather p ih =>
    exact Parser.onSuccess_worded (ih texts) fun _ outcome => Reading.group outcome.readings
  | reportAs message p ih =>
    exact Parser.onFailure_worded (ih texts.2)
      (fun _ error => .failure (Diagnostic.rephrase message error))
      fun _ _ found => found.rephrase texts.1
  | recover message default p ih =>
    exact Parser.onFailure_worded (ih texts.2)
      (fun input error => .ofReadings [⟨default, input⟩]
        (some (Diagnostic.rephrase message error))) fun _ _ found => found.rephrase texts.1
  | named name p ih =>
    exact Parser.onFailure_worded (ih texts)
      (fun input error => .failure (Diagnostic.wantedAs name input.position error))
      fun input _ found => found.wantedAs stock name input.position
  | lookAhead p ih =>
    exact Parser.onSuccess_worded (ih texts) fun input outcome => [⟨outcome.values, input⟩]
  | notAhead p ih => exact Parser.notAhead_worded stock _
  | traced tracer name p ih =>
    intro input
    refine Parser.act_ensures _ fun depth => ?_
    refine .bind (ih texts input) fun outcome found => ?_
    exact Parser.act_ensures _ fun _ => .pure found
  | withDepth tracer p ih =>
    intro input
    refine .bind (ih texts input) fun outcome found => ?_
    exact Parser.act_ensures _ fun _ => .pure found
  | deferred cell p ih => exact fun input => Parser.act_ensures _ fun _ => ih texts input
  | rule r => exact called r

theorem Rules.call_worded {rules : Rules N τ} (texts : rules.Texts said) (limit : Nat)
    (rule : N.Rule) : Parser.Worded said (rules.call limit rule) := by
  induction limit generalizing rule with
  | zero => exact fun input => .abort
  | succ limit ih =>
    intro input
    rw [Rules.call]
    cases found : rules rule with
    | error fault => exact .abort
    | ok pattern =>
      exact Grammar.interpret_worded stock ih pattern (texts rule pattern found) input

/-- A grammar complains in its own words, in those of its rules, or in stock texts. -/
theorem Grammar.run_worded {rules : Rules N τ} (rulesTexts : rules.Texts said) (limit : Nat)
    {g : Grammar N τ α} (texts : g.Texts said) : Parser.Worded said (g.run rules limit) :=
  Grammar.interpret_worded stock (Rules.call_worded stock rulesTexts limit) g texts

end Parsers

end Multiparse
