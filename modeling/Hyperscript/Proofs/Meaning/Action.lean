/-! Big-step actions. An action relates a start state to every way in which it can
end: normally with a value or abruptly with a signal, and in which state. It may be
nondeterministic, and a start from which it never ends is related to nothing. -/
namespace Hyperscript.Meaning

inductive Completion (κ α : Type) where
  | normal (value : α)
  | abrupt (signal : κ)

def Action (σ κ α : Type) : Type := σ → Completion κ α → σ → Prop

namespace Action

variable {σ κ α β γ : Type}

theorem ext {first second : Action σ κ α}
    (same : ∀ start completion final,
      first start completion final ↔ second start completion final) : first = second :=
  funext fun start => funext fun completion => funext fun final =>
    propext (same start completion final)

protected def pure (value : α) : Action σ κ α :=
  fun start completion final => completion = .normal value ∧ final = start

/-- The second action runs after the first ends normally; an abrupt end of the first
is the end of both. -/
protected def bind (first : Action σ κ α) (next : α → Action σ κ β) : Action σ κ β :=
  fun start completion final =>
    (∃ value middle, first start (.normal value) middle ∧ next value middle completion final) ∨
      ∃ signal, completion = .abrupt signal ∧ first start (.abrupt signal) final

instance : Monad (Action σ κ) where
  pure := Action.pure
  bind := Action.bind

theorem pure_iff {value : α} {start final : σ} {completion : Completion κ α} :
    (pure value : Action σ κ α) start completion final ↔
      completion = .normal value ∧ final = start := Iff.rfl

theorem bind_iff {first : Action σ κ α} {next : α → Action σ κ β} {start final : σ}
    {completion : Completion κ β} :
    (first >>= next) start completion final ↔
      (∃ value middle, first start (.normal value) middle ∧ next value middle completion final) ∨
        ∃ signal, completion = .abrupt signal ∧ first start (.abrupt signal) final := Iff.rfl

/-- What follows need only be alike where the first action leads. -/
theorem bind_congr_iff {first : Action σ κ α} {next next' : α → Action σ κ β} {start final : σ}
    {completion : Completion κ β}
    (same : ∀ value middle, first start (.normal value) middle →
      (next value middle completion final ↔ next' value middle completion final)) :
    (first >>= next) start completion final ↔ (first >>= next') start completion final :=
  or_congr_left <| exists_congr fun value => exists_congr fun middle =>
    and_congr_right fun ran => same value middle ran

instance : LawfulMonad (Action σ κ) := LawfulMonad.mk' (Action σ κ)
  (fun action => by
    apply ext
    intro start completion final
    show Action.bind action Action.pure start completion final ↔ _
    simp only [Action.bind, Action.pure]
    constructor
    · rintro (⟨value, middle, ran, rfl, rfl⟩ | ⟨signal, rfl, ran⟩) <;> exact ran
    · intro ran
      cases completion with
      | normal value => exact .inl ⟨value, final, ran, rfl, rfl⟩
      | abrupt signal => exact .inr ⟨signal, rfl, ran⟩)
  (fun value next => by
    apply ext
    intro start completion final
    simp only [bind_iff, pure_iff]
    constructor
    · rintro (⟨other, middle, ⟨same, rfl⟩, ran⟩ | ⟨signal, rfl, same, rfl⟩)
      · cases same; exact ran
      · cases same
    · intro ran
      exact .inl ⟨value, start, ⟨rfl, rfl⟩, ran⟩)
  (fun first second third => by
    apply ext
    intro start completion final
    simp only [bind_iff]
    constructor
    · rintro (⟨value, middle, (⟨earlier, before, ran, next⟩ | ⟨signal, same, ran⟩), last⟩ |
        ⟨signal, rfl, (⟨earlier, before, ran, next⟩ | ⟨other, same, ran⟩)⟩)
      · exact .inl ⟨earlier, before, ran, .inl ⟨value, middle, next, last⟩⟩
      · cases same
      · exact .inl ⟨earlier, before, ran, .inr ⟨signal, rfl, next⟩⟩
      · cases same; exact .inr ⟨signal, rfl, ran⟩
    · rintro (⟨earlier, before, ran, (⟨value, middle, next, last⟩ | ⟨signal, rfl, next⟩)⟩ |
        ⟨signal, rfl, ran⟩)
      · exact .inl ⟨value, middle, .inl ⟨earlier, before, ran, next⟩, last⟩
      · exact .inr ⟨signal, rfl, .inl ⟨earlier, before, ran, next⟩⟩
      · exact .inr ⟨signal, rfl, .inr ⟨signal, rfl, ran⟩⟩)

/-- A change of the state that always ends normally. -/
def modify (change : σ → σ) : Action σ κ Unit :=
  fun start completion final => completion = .normal () ∧ final = change start

theorem modify_bind_iff {change : σ → σ} {next : Unit → Action σ κ β} {start final : σ}
    {completion : Completion κ β} :
    (modify change >>= next) start completion final ↔ next () (change start) completion final := by
  constructor
  · rintro (⟨_, _, ⟨_, rfl⟩, ran⟩ | ⟨_, _, ⟨⟩, _⟩)
    exact ran
  · intro ran
    exact .inl ⟨(), _, ⟨rfl, rfl⟩, ran⟩

/-- A look at the state. -/
def read (look : σ → α) : Action σ κ α :=
  fun start completion final => completion = .normal (look start) ∧ final = start

theorem read_bind_iff {look : σ → α} {next : α → Action σ κ β} {start final : σ}
    {completion : Completion κ β} :
    (read look >>= next) start completion final ↔ next (look start) start completion final := by
  constructor
  · rintro (⟨value, middle, ⟨⟨⟩, rfl⟩, ran⟩ | ⟨signal, rfl, ⟨⟩, rfl⟩)
    exact ran
  · intro ran
    exact .inl ⟨look start, start, ⟨rfl, rfl⟩, ran⟩

def raise (signal : κ) : Action σ κ α :=
  fun start completion final => completion = .abrupt signal ∧ final = start

/-- Run an action and then, however it ended, settle the state with a view to the one
at the start. -/
def settling (settle : σ → σ → σ) (action : Action σ κ α) : Action σ κ α :=
  fun start completion final => ∃ last, action start completion last ∧ final = settle start last

/-- An action that always ends abruptly. -/
def NeverNormal (action : Action σ κ α) : Prop :=
  ∀ start value final, ¬ action start (.normal value) final

/-- Nothing that follows an action which always ends abruptly matters. -/
theorem NeverNormal.bind_eq {action : Action σ κ α} (abrupt : action.NeverNormal)
    (next other : α → Action σ κ β) : action >>= next = action >>= other := by
  apply ext
  intro start completion final
  simp only [bind_iff]
  constructor <;>
    · rintro (⟨value, middle, ran, _⟩ | stopped)
      · exact absurd ran (abrupt start value middle)
      · exact .inr stopped

/-- Steps one after the other, each told where the last one left off, until one says
that there is nothing to go on with or ends abruptly. -/
inductive Loop (step : γ → Action σ κ (Option γ)) : γ → Action σ κ Unit where
  | finish {place start final} : step place start (.normal none) final →
      Loop step place start (.normal ()) final
  | stop {place start signal final} : step place start (.abrupt signal) final →
      Loop step place start (.abrupt signal) final
  | next {place start following middle completion final} :
      step place start (.normal (some following)) middle →
      Loop step following middle completion final → Loop step place start completion final

/-- A loop is its first step and then, unless that was the last, the loop from where
the step left off. -/
theorem loop_eq (step : γ → Action σ κ (Option γ)) (place : γ) :
    Loop step place = (do
      match ← step place with
      | some following => Loop step following
      | none => pure ()) := by
  apply ext
  intro start completion final
  constructor
  · intro ran
    cases ran with
    | finish last => exact .inl ⟨none, final, last, rfl, rfl⟩
    | stop last => exact .inr ⟨_, rfl, last⟩
    | next first rest => exact .inl ⟨some _, _, first, rest⟩
  · rintro (⟨following, middle, first, rest⟩ | ⟨signal, rfl, stopped⟩)
    · cases following with
      | none =>
        obtain ⟨rfl, rfl⟩ := rest
        exact .finish first
      | some following => exact .next first rest
    · exact .stop stopped

/-- However the action ends, the property survives. -/
def Preserves (property : σ → Prop) (action : Action σ κ α) : Prop :=
  ∀ start completion final, action start completion final → property start → property final

variable {property : σ → Prop}

theorem Preserves.bind {first : Action σ κ α} {next : α → Action σ κ β}
    (before : first.Preserves property) (after : ∀ value, (next value).Preserves property) :
    (first >>= next).Preserves property := by
  rintro start completion final (⟨value, middle, ran, rest⟩ | ⟨signal, rfl, ran⟩) holds
  · exact after value _ _ _ rest (before _ _ _ ran holds)
  · exact before _ _ _ ran holds

theorem Preserves.loop {step : γ → Action σ κ (Option γ)}
    (each : ∀ place, (step place).Preserves property) (place : γ) :
    (Loop step place).Preserves property := by
  intro start completion final ran holds
  induction ran with
  | finish last | stop last => exact each _ _ _ _ last holds
  | next first _ ih => exact ih (each _ _ _ _ first holds)

theorem Preserves.settling {settle : σ → σ → σ} {action : Action σ κ α}
    (inner : action.Preserves property)
    (settled : ∀ start last, property last → property (settle start last)) :
    (action.settling settle).Preserves property := by
  rintro start completion final ⟨last, ran, rfl⟩ holds
  exact settled start last (inner _ _ _ ran holds)

end Action
end Hyperscript.Meaning
