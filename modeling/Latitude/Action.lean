import Latitude.Error
import Latitude.Event

/-!
# Actions

An action works on a state, gives a value or an error, and reports events on the way.
A failed action keeps the state it has reached and the events it has reported.

A loop runs one round after another. It needs no bound on their number, only a size of
the state that every round which asks for another makes smaller. `loop_eq` is the
equation of the loop; the lemmas on `NeverGrows`, `Consumes` and `Advances` say how a
round comes by that property.
-/

namespace Latitude

/-- What running an action has come to. -/
structure Step (σ α : Type) where
  result : Except ReadError α
  state : σ
  events : List Event

def Step.after (earlier : List Event) (step : Step σ α) : Step σ α :=
  { step with events := earlier ++ step.events }

@[ext] structure Action (σ α : Type) where
  run : σ → Step σ α

inductive Round (β α : Type)
  | again (next : β)
  | done (value : α)

namespace Action

variable {σ α β γ : Type}

instance : Monad (Action σ) where
  pure a := ⟨fun s => ⟨.ok a, s, []⟩⟩
  bind m f := ⟨fun s =>
    let step := m.run s
    match step.result with
    | .ok a => ((f a).run step.state).after step.events
    | .error e => ⟨.error e, step.state, step.events⟩⟩

def fail (e : ReadError) : Action σ α := ⟨fun s => ⟨.error e, s, []⟩⟩

def emit (event : Event) : Action σ Unit := ⟨fun s => ⟨.ok (), s, [event]⟩⟩

def view (f : σ → α) : Action σ α := ⟨fun s => ⟨.ok (f s), s, []⟩⟩

def ofExcept : Except ReadError α → Action σ α
  | .ok a => pure a
  | .error e => fail e

-- ---------------------------------------------------------------------------
-- Running
-- ---------------------------------------------------------------------------

@[simp] theorem after_nil (step : Step σ α) : step.after [] = step := rfl

@[simp] theorem after_after (a b : List Event) (step : Step σ α) :
    (step.after b).after a = step.after (a ++ b) := by
  simp [Step.after]

@[simp] theorem result_after (a : List Event) (step : Step σ α) :
    (step.after a).result = step.result := rfl

@[simp] theorem state_after (a : List Event) (step : Step σ α) :
    (step.after a).state = step.state := rfl

@[simp] theorem events_after (a : List Event) (step : Step σ α) :
    (step.after a).events = a ++ step.events := rfl

theorem run_pure (a : α) (s : σ) : (pure a : Action σ α).run s = ⟨.ok a, s, []⟩ := rfl

theorem run_bind (m : Action σ α) (f : α → Action σ β) (s : σ) :
    (m >>= f).run s = match (m.run s).result with
      | .ok a => ((f a).run (m.run s).state).after (m.run s).events
      | .error e => ⟨.error e, (m.run s).state, (m.run s).events⟩ := rfl

theorem run_bind_ok {m : Action σ α} {f : α → Action σ β} {s : σ} {a : α}
    (h : (m.run s).result = .ok a) :
    (m >>= f).run s = ((f a).run (m.run s).state).after (m.run s).events := by
  rw [run_bind, h]

theorem run_bind_error {m : Action σ α} {f : α → Action σ β} {s : σ} {e : ReadError}
    (h : (m.run s).result = .error e) :
    (m >>= f).run s = ⟨.error e, (m.run s).state, (m.run s).events⟩ := by
  rw [run_bind, h]

protected theorem bind_assoc (m : Action σ α) (f : α → Action σ β) (g : β → Action σ γ) :
    m >>= f >>= g = m >>= fun a => f a >>= g := by
  refine Action.ext (funext fun s => ?_)
  cases h : (m.run s).result with
  | error e => simp [run_bind, h]
  | ok a =>
    rw [run_bind_ok h, run_bind, run_bind_ok h, run_bind]
    cases result : ((f a).run (m.run s).state).result with
    | ok b => simp [result]
    | error e => simp [result, Step.after]

-- ---------------------------------------------------------------------------
-- Size of the state
-- ---------------------------------------------------------------------------

def NeverGrows (size : σ → Nat) (m : Action σ α) : Prop :=
  ∀ s, size (m.run s).state ≤ size s

structure Consumes (size : σ → Nat) (m : Action σ α) : Prop where
  neverGrows : NeverGrows size m
  lt : ∀ s a, (m.run s).result = .ok a → size (m.run s).state < size s

def Advances (size : σ → Nat) (m : Action σ (Round β α)) : Prop :=
  ∀ s b, (m.run s).result = .ok (.again b) → size (m.run s).state < size s

variable {size : σ → Nat}

theorem NeverGrows.pure (a : α) : NeverGrows size (Pure.pure a : Action σ α) :=
  fun _ => Nat.le_refl _

theorem NeverGrows.fail (e : ReadError) : NeverGrows size (Action.fail e : Action σ α) :=
  fun _ => Nat.le_refl _

theorem NeverGrows.emit (event : Event) : NeverGrows size (Action.emit event : Action σ Unit) :=
  fun _ => Nat.le_refl _

theorem NeverGrows.view (f : σ → α) : NeverGrows size (Action.view f) :=
  fun _ => Nat.le_refl _

theorem NeverGrows.ofExcept (r : Except ReadError α) :
    NeverGrows size (Action.ofExcept r : Action σ α) := by
  cases r
  · exact .fail _
  · exact .pure _

theorem NeverGrows.bind {m : Action σ α} {f : α → Action σ β} (hm : NeverGrows size m)
    (hf : ∀ a, NeverGrows size (f a)) : NeverGrows size (m >>= f) := by
  intro s
  cases h : (m.run s).result with
  | ok a => rw [run_bind_ok h]; exact Nat.le_trans (hf a _) (hm s)
  | error e => rw [run_bind_error h]; exact hm s

theorem Consumes.bind {m : Action σ α} {f : α → Action σ β} (hm : Consumes size m)
    (hf : ∀ a, NeverGrows size (f a)) : Consumes size (m >>= f) where
  neverGrows := hm.neverGrows.bind hf
  lt s b hb := by
    cases h : (m.run s).result with
    | ok a => rw [run_bind_ok h]; exact Nat.lt_of_le_of_lt (hf a _) (hm.lt s a h)
    | error e => rw [run_bind_error h] at hb; cases hb

theorem NeverGrows.bind_consumes {m : Action σ α} {f : α → Action σ β}
    (hm : NeverGrows size m) (hf : ∀ a, Consumes size (f a)) : Consumes size (m >>= f) where
  neverGrows := hm.bind fun a => (hf a).neverGrows
  lt s b hb := by
    cases h : (m.run s).result with
    | ok a =>
      rw [run_bind_ok h] at hb ⊢
      exact Nat.lt_of_lt_of_le ((hf a).lt _ b hb) (hm s)
    | error e => rw [run_bind_error h] at hb; cases hb

theorem Consumes.fail (e : ReadError) : Consumes size (Action.fail e : Action σ α) where
  neverGrows := .fail e
  lt _ _ hb := nomatch hb

theorem Consumes.advances {m : Action σ (Round β α)} (hm : Consumes size m) :
    Advances size m :=
  fun s b hb => hm.lt s (.again b) hb

theorem Advances.done (a : α) : Advances size (Pure.pure (.done a) : Action σ (Round β α)) :=
  fun _ _ hb => nomatch hb

theorem result_bind_done_ne_again (m : Action σ α) (s : σ) (b : β) :
    ((m >>= fun a => pure (Round.done a)).run s).result ≠ .ok (.again b) := by
  cases h : (m.run s).result with
  | ok a => rw [run_bind_ok h]; exact fun h => nomatch h
  | error e => rw [run_bind_error h]; exact fun h => nomatch h

theorem NeverGrows.bind_advances {m : Action σ α} {f : α → Action σ (Round β γ)}
    (hm : NeverGrows size m) (hf : ∀ a, Advances size (f a)) : Advances size (m >>= f) := by
  intro s b hb
  cases h : (m.run s).result with
  | ok a =>
    rw [run_bind_ok h] at hb ⊢
    exact Nat.lt_of_lt_of_le (hf a _ b hb) (hm s)
  | error e => rw [run_bind_error h] at hb; cases hb

-- ---------------------------------------------------------------------------
-- Loops
-- ---------------------------------------------------------------------------

/-- The rounds of a loop from `b` on; `seen` holds the events so far, the latest first. -/
def loopFrom (size : σ → Nat) (body : β → Action σ (Round β α))
    (advances : ∀ b, Advances size (body b)) (b : β) (s : σ) (seen : List Event) : Step σ α :=
  match _h : (body b).run s with
  | ⟨.ok (.again next), s', events⟩ =>
    loopFrom size body advances next s' (events.reverseAux seen)
  | ⟨.ok (.done a), s', events⟩ => ⟨.ok a, s', (events.reverseAux seen).reverse⟩
  | ⟨.error e, s', events⟩ => ⟨.error e, s', (events.reverseAux seen).reverse⟩
termination_by size s
decreasing_by
  have lt := advances b s next (by rw [_h])
  rwa [_h] at lt

/-- Runs rounds, starting with `body b`, until one is done or fails. -/
def loop (size : σ → Nat) (body : β → Action σ (Round β α))
    (advances : ∀ b, Advances size (body b)) (b : β) : Action σ α :=
  ⟨fun s => loopFrom size body advances b s []⟩

variable {body : β → Action σ (Round β α)} {advances : ∀ b, Advances size (body b)}

theorem loopFrom_eq_after (b : β) (s : σ) (seen : List Event) :
    loopFrom size body advances b s seen =
      (loopFrom size body advances b s []).after seen.reverse := by
  rw [loopFrom]
  conv => rhs; rw [loopFrom]
  split
  · rename_i next s' events h
    have lt : size s' < size s := by
      have lt := advances b s next (by rw [h])
      rwa [h] at lt
    rw [loopFrom_eq_after next s', loopFrom_eq_after next s' (events.reverseAux [])]
    simp
  · simp [Step.after]
  · simp [Step.after]
termination_by size s

/-- A loop is its first round and, if that asks for another, the loop from there. -/
theorem loop_eq (b : β) :
    loop size body advances b = body b >>= fun
      | .again next => loop size body advances next
      | .done a => pure a := by
  refine Action.ext (funext fun s => ?_)
  change loopFrom size body advances b s [] = _
  rw [loopFrom, run_bind]
  split <;> rename_i h
  · rw [h, loopFrom_eq_after]; simp [loop]
  · rw [h]; simp [run_pure, Step.after]
  · rw [h]; simp

theorem NeverGrows.loop (hb : ∀ b, NeverGrows size (body b)) (b : β) :
    NeverGrows size (Action.loop size body advances b) := by
  intro s
  rw [loop_eq]
  cases h : ((body b).run s).result with
  | error e => rw [run_bind_error h]; exact hb b s
  | ok r =>
    rw [run_bind_ok h]
    cases r with
    | done a => exact hb b s
    | again next =>
      have lt := advances b s next h
      exact Nat.le_trans (NeverGrows.loop hb next ((body b).run s).state) (hb b s)
termination_by s => size s

end Action

end Latitude
