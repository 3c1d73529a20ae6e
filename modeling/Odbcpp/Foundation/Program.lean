import Mathlib.Tactic

/-!
# Programs with exceptions over mutable state

A `Program` ends with a value or an exception, and an exception keeps the state reached so far.
`Triple before program normal abrupt` says that from every state in `before` the program returns a
value and a state in `normal`, or throws and stops in a state in `abrupt`.
-/

namespace Odbcpp.Foundation

/-- A computation over `σ` that may throw `ε`; the state survives a throw. -/
abbrev Program (ε σ α : Type) := ExceptT ε (StateM σ) α

variable {ε σ α β : Type}

namespace Program

/-- How a program ends, and where. -/
def outcome (program : Program ε σ α) (start : σ) : Except ε α × σ :=
  StateT.run (m := Id) program.run start

@[simp] theorem outcome_pure (value : α) (start : σ) :
    outcome (pure value : Program ε σ α) start = (.ok value, start) := rfl

@[simp] theorem outcome_throw (failure : ε) (start : σ) :
    outcome (throw failure : Program ε σ α) start = (.error failure, start) := rfl

@[simp] theorem outcome_get (start : σ) :
    outcome (get : Program ε σ σ) start = (.ok start, start) := rfl

@[simp] theorem outcome_modify (change : σ → σ) (start : σ) :
    outcome (modify change : Program ε σ PUnit) start = (.ok ⟨⟩, change start) := rfl

theorem outcome_bind (first : Program ε σ α) (second : α → Program ε σ β) (start : σ) :
    outcome (first >>= second) start =
      match outcome first start with
      | (.ok value, next) => outcome (second value) next
      | (.error failure, next) => (.error failure, next) := by
  simp only [outcome, ExceptT.run_bind, StateT.run_bind]
  rcases StateT.run (m := Id) (ExceptT.run first) start with ⟨result, next⟩
  cases result <;> rfl

theorem outcome_tryCatch (body : Program ε σ α) (handler : ε → Program ε σ α) (start : σ) :
    outcome (tryCatch body handler) start =
      match outcome body start with
      | (.ok value, next) => (.ok value, next)
      | (.error failure, next) => outcome (handler failure) next := by
  have unfolded : outcome (tryCatch body handler) start =
      StateT.run (m := Id) (StateT.bind body.run fun result =>
        match result with
        | .ok value => pure (.ok value)
        | .error failure => (handler failure).run) start := rfl
  rw [unfolded]
  simp only [outcome, StateT.run, StateT.bind]
  rcases body.run start with ⟨result, next⟩
  cases result <;> rfl

def onPart {τ : Type} (part : σ → τ) (replace : τ → σ → σ) (program : Program ε τ α) :
    Program ε σ α :=
  ExceptT.mk fun state =>
    ((program.outcome (part state)).1, replace (program.outcome (part state)).2 state)

@[simp] theorem outcome_onPart {τ : Type} (part : σ → τ) (replace : τ → σ → σ)
    (program : Program ε τ α) (start : σ) : outcome (onPart part replace program) start =
      ((program.outcome (part start)).1, replace (program.outcome (part start)).2 start) := rfl

def ofExcept : Except ε α → Program ε σ α
  | .ok value => pure value
  | .error failure => throw failure

def onlyIf (condition : Bool) (program : Program ε σ Unit) : Program ε σ Unit :=
  if condition then program else pure ()

/-- From `before`, the program returns in `normal` or throws in `abrupt`. -/
def Triple (before : σ → Prop) (program : Program ε σ α) (normal : α → σ → Prop)
    (abrupt : ε → σ → Prop) : Prop :=
  ∀ start, before start →
    match program.outcome start with
    | (.ok value, final) => normal value final
    | (.error failure, final) => abrupt failure final

namespace Triple

variable {before : σ → Prop} {abrupt : ε → σ → Prop}

variable {program body : Program ε σ α} {τ : Type} {normal weaker : α → σ → Prop}
  {handler : ε → Program ε σ α} {stronger : σ → Prop}

theorem pure (value : α) (holds : ∀ state, before state → normal value state) :
    Triple before (Pure.pure value : Program ε σ α) normal abrupt :=
  fun state start => holds state start

theorem throw (failure : ε) (holds : ∀ state, before state → abrupt failure state) :
    Triple before (MonadExcept.throw failure : Program ε σ α) normal abrupt :=
  fun state start => holds state start

theorem get {normal : σ → σ → Prop} (holds : ∀ state, before state → normal state state) :
    Triple before (MonadState.get : Program ε σ σ) normal abrupt :=
  fun state start => holds state start

theorem read : Triple before (MonadState.get : Program ε σ σ)
    (fun value state => value = state ∧ before state) abrupt :=
  fun _ start => ⟨rfl, start⟩

theorem update {normal : PUnit → σ → Prop} (change : σ → σ)
    (holds : ∀ state, before state → normal ⟨⟩ (change state)) :
    Triple before (modify change : Program ε σ PUnit) normal abrupt :=
  fun state start => holds state start

theorem bind {first : Program ε σ α} {second : α → Program ε σ β} {middle : α → σ → Prop}
    {normal : β → σ → Prop} (head : Triple before first middle abrupt)
    (tail : ∀ value, Triple (middle value) (second value) normal abrupt) :
    Triple before (first >>= second) normal abrupt := by
  intro start holds
  have reached := head start holds
  rw [outcome_bind]
  rcases ends : first.outcome start with ⟨result, next⟩
  rw [ends] at reached
  cases result with
  | ok value => exact tail value next reached
  | error failure => exact reached

/-- A handler takes over in whatever state the body threw. -/
theorem tryCatch {thrown : ε → σ → Prop} (tries : Triple before body normal thrown)
    (handles : ∀ failure, Triple (thrown failure) (handler failure) normal abrupt) :
    Triple before (MonadExcept.tryCatch body handler) normal abrupt := by
  intro start holds
  have reached := tries start holds
  rw [outcome_tryCatch]
  rcases ends : body.outcome start with ⟨result, next⟩
  rw [ends] at reached
  cases result with
  | ok value => exact reached
  | error failure => exact handles failure next reached

theorem tryCatch_never (tries : Triple before body normal fun _ _ => False) :
    Triple before (MonadExcept.tryCatch body handler) normal abrupt :=
  tryCatch tries fun _ _ never => never.elim

theorem consequence {abruptWeaker : ε → σ → Prop} (holds : Triple before program normal abrupt)
    (assume : ∀ state, stronger state → before state)
    (conclude : ∀ value state, normal value state → weaker value state)
    (concludeAbrupt : ∀ failure state, abrupt failure state → abruptWeaker failure state) :
    Triple stronger program weaker abruptWeaker := by
  intro start strong
  have reached := holds start (assume start strong)
  rcases ends : program.outcome start with ⟨result, next⟩
  rw [ends] at reached
  cases result with
  | ok value => exact conclude value next reached
  | error failure => exact concludeAbrupt failure next reached

theorem assuming (holds : Triple before program normal abrupt)
    (assume : ∀ state, stronger state → before state) : Triple stronger program normal abrupt :=
  holds.consequence assume (fun _ _ => id) (fun _ _ => id)

theorem knowing {fact : Prop} (implied : ∀ state, before state → fact)
    (body : fact → Triple before program normal abrupt) : Triple before program normal abrupt :=
  fun start holds => body (implied start holds) start holds

theorem concluding (holds : Triple before program normal abrupt)
    (conclude : ∀ value state, normal value state → weaker value state) :
    Triple before program weaker abrupt :=
  holds.consequence (fun _ assumed => assumed) conclude (fun _ _ => id)

theorem and {beforeToo : σ → Prop} {normalToo : α → σ → Prop} {abruptToo : ε → σ → Prop}
    (left : Triple before program normal abrupt)
    (right : Triple beforeToo program normalToo abruptToo) :
    Triple (fun state => before state ∧ beforeToo state) program
      (fun value state => normal value state ∧ normalToo value state)
      (fun failure state => abrupt failure state ∧ abruptToo failure state) := by
  intro start holds
  have reached := left start holds.1
  have reachedToo := right start holds.2
  rcases ends : program.outcome start with ⟨result, next⟩
  rw [ends] at reached reachedToo
  cases result with
  | ok value | error failure => exact ⟨reached, reachedToo⟩

theorem ofExcept {computation}
    (succeeds : ∀ value, computation = .ok value → ∀ state, before state → normal value state)
    (fails : ∀ failure, computation = .error failure → ∀ state, before state → abrupt failure state) :
    Triple before (Program.ofExcept computation) normal abrupt := by
  cases computation with
  | ok value => exact Triple.pure value (succeeds value rfl)
  | error failure => exact Triple.throw failure (fails failure rfl)

theorem onPart {part : σ → τ} {replace : τ → σ → σ} {program : Program ε τ α}
    (holds : ∀ state, before state →
      Triple (· = part state) program (fun value left => normal value (replace left state))
      (fun failure left => abrupt failure (replace left state))) :
    Triple before (Program.onPart part replace program) normal abrupt := by
  intro state start
  have reached := holds state start (part state) rfl
  rw [outcome_onPart]
  rcases ends : program.outcome (part state) with ⟨result, left⟩
  rw [ends] at reached
  cases result with
  | ok value | error failure => exact reached

theorem onlyIf {condition program}
    (keeps : Triple before program (fun _ => before) abrupt) :
    Triple before (Program.onlyIf condition program) (fun _ => before) abrupt := by
  cases condition with
  | false => exact Triple.pure () fun _ => id
  | true => exact keeps

end Triple

end Program

end Odbcpp.Foundation
