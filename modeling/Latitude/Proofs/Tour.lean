import Latitude.Disassembly

/-!
# Tours

A tour is all that comes of asking a walk for block after block until it gives none: the
blocks with the cursor behind each, the way it ended, and the walk as it is then. A
reading of a file is the header and the tour behind it.

`collect_run`: collecting the blocks of a walk gives its tour. `advance_tour_last`: a tour
cannot be continued.
-/

namespace Latitude

/-- A block that a walk has given, the cursor behind it, and the events it came with. -/
structure Delivery where
  block : Block
  cursor : Cursor
  events : List Event

structure Tour where
  deliveries : List Delivery
  outcome : Except ReadError Unit
  /-- The walk after the call that gave no block. -/
  last : Disassembly
  /-- The events of that call. -/
  events : List Event

namespace Tour

def blocks (tour : Tour) : List Block := tour.deliveries.map Delivery.block

def allEvents (tour : Tour) : List Event :=
  tour.deliveries.flatMap Delivery.events ++ tour.events

def cons (d : Delivery) (tour : Tour) : Tour := { tour with deliveries := d :: tour.deliveries }

@[simp] theorem deliveries_cons (d : Delivery) (tour : Tour) :
    (tour.cons d).deliveries = d :: tour.deliveries := rfl

@[simp] theorem blocks_cons (d : Delivery) (tour : Tour) :
    (tour.cons d).blocks = d.block :: tour.blocks := rfl

@[simp] theorem outcome_cons (d : Delivery) (tour : Tour) :
    (tour.cons d).outcome = tour.outcome := rfl

@[simp] theorem last_cons (d : Delivery) (tour : Tour) : (tour.cons d).last = tour.last := rfl

@[simp] theorem allEvents_cons (d : Delivery) (tour : Tour) :
    (tour.cons d).allEvents = d.events ++ tour.allEvents := by
  simp [allEvents, cons]

end Tour

namespace Disassembly

def tour (walk : Disassembly) : Tour :=
  match _h : walk.advance with
  | ⟨.ok (some block), next, events⟩ => next.tour.cons ⟨block, next.cursor, events⟩
  | ⟨.ok none, next, events⟩ => ⟨[], .ok (), next, events⟩
  | ⟨.error e, next, events⟩ => ⟨[], .error e, next, events⟩
termination_by walk.remaining
decreasing_by
  have given : walk.advance.result = .ok (some block) := by rw [_h]
  have lt := remaining_advance_lt given
  rwa [_h] at lt

def moved (walk : Disassembly) (c : Cursor) : Disassembly :=
  { walk with cursor := c, nextIndex := walk.nextIndex + 1 }

def ended (walk : Disassembly) (c : Cursor) : Disassembly :=
  { walk with cursor := c, finished := true }

def readBlock (walk : Disassembly) : Step Cursor (Option Block) :=
  (Reader.block walk.nextIndex walk.policy.boundary).run walk.cursor

variable {walk : Disassembly} {block : Block} {c : Cursor} {events : List Event} {e : ReadError}

theorem advance_of_finished (h : walk.finished = true) : walk.advance = ⟨.ok none, walk, []⟩ := by
  simp [advance, h]

theorem advance_of_block (h : walk.finished = false)
    (read : walk.readBlock = ⟨.ok (some block), c, events⟩) :
    walk.advance = ⟨.ok (some block), walk.moved c, events⟩ := by
  simp only [readBlock] at read
  simp [advance, h, read, moved]

theorem advance_of_end (h : walk.finished = false) (read : walk.readBlock = ⟨.ok none, c, events⟩) :
    walk.advance = ⟨.ok none, walk.ended c, events⟩ := by
  simp only [readBlock] at read
  simp [advance, h, read, ended]

theorem advance_of_error (h : walk.finished = false)
    (read : walk.readBlock = ⟨.error e, c, events⟩) :
    walk.advance = ⟨.error e, walk.ended c, events⟩ := by
  simp only [readBlock] at read
  simp [advance, h, read, ended]

theorem tour_of_block (h : walk.finished = false)
    (read : walk.readBlock = ⟨.ok (some block), c, events⟩) :
    walk.tour = (walk.moved c).tour.cons ⟨block, c, events⟩ := by
  have step := advance_of_block h read
  rw [tour]
  split <;> simp_all [moved]

theorem tour_of_end (h : walk.finished = false) (read : walk.readBlock = ⟨.ok none, c, events⟩) :
    walk.tour = ⟨[], .ok (), walk.ended c, events⟩ := by
  have step := advance_of_end h read
  rw [tour]
  split <;> simp_all

theorem tour_of_error (h : walk.finished = false)
    (read : walk.readBlock = ⟨.error e, c, events⟩) :
    walk.tour = ⟨[], .error e, walk.ended c, events⟩ := by
  have step := advance_of_error h read
  rw [tour]
  split <;> simp_all

theorem tour_of_finished (h : walk.finished = true) : walk.tour = ⟨[], .ok (), walk, []⟩ := by
  have step := advance_of_finished h
  rw [tour]
  split <;> simp_all

/-- What holds of the tour of a walk that gives no block, and passes from the walk behind a
block to the one ahead of it, holds of the tour of every walk that is not over. -/
theorem tour_induction {P : Disassembly → Tour → Prop}
    (ends : ∀ walk c events, walk.finished = false → walk.readBlock = ⟨.ok none, c, events⟩ →
      P walk ⟨[], .ok (), walk.ended c, events⟩)
    (fails : ∀ walk c events e, walk.finished = false → walk.readBlock = ⟨.error e, c, events⟩ →
      P walk ⟨[], .error e, walk.ended c, events⟩)
    (gives : ∀ walk c events block, walk.finished = false →
      walk.readBlock = ⟨.ok (some block), c, events⟩ → P (walk.moved c) (walk.moved c).tour →
      P walk ((walk.moved c).tour.cons ⟨block, c, events⟩))
    (walk : Disassembly) (h : walk.finished = false) : P walk walk.tour := by
  match read : walk.readBlock with
  | ⟨.ok none, c, events⟩ =>
    rw [tour_of_end h read]
    exact ends walk c events h read
  | ⟨.error e, c, events⟩ =>
    rw [tour_of_error h read]
    exact fails walk c events e h read
  | ⟨.ok (some block), c, events⟩ =>
    have step := advance_of_block h read
    have lt : (walk.moved c).remaining < walk.remaining := by
      have lt := remaining_advance_lt (congrArg Step.result step)
      rwa [step] at lt
    rw [tour_of_block h read]
    exact gives walk c events block h read (tour_induction ends fails gives (walk.moved c) h)
termination_by walk.remaining

theorem finished_tour_last (walk : Disassembly) : walk.tour.last.finished = true := by
  cases h : walk.finished with
  | true => rw [tour_of_finished h]; exact h
  | false =>
    refine tour_induction (P := fun _ tour => tour.last.finished = true) ?_ ?_ ?_ walk h
    · intros; rfl
    · intros; rfl
    · intro _ _ _ _ _ _ ih; exact ih

theorem advance_tour_last (walk : Disassembly) :
    walk.tour.last.advance = ⟨.ok none, walk.tour.last, []⟩ :=
  advance_of_finished (finished_tour_last walk)

-- ---------------------------------------------------------------------------
-- Collecting
-- ---------------------------------------------------------------------------

theorem collectRound_of_block {next : Disassembly}
    (h : walk.advance = ⟨.ok (some block), next, events⟩) (seen : List Block) :
    (collectRound seen).run walk = ⟨.ok (.again (block :: seen)), next, events⟩ := by
  simp [collectRound, nextBlock, Action.run_bind, Action.run_pure, h, Step.after]

theorem collectRound_of_end {next : Disassembly} (h : walk.advance = ⟨.ok none, next, events⟩)
    (seen : List Block) :
    (collectRound seen).run walk = ⟨.ok (.done seen.reverse), next, events⟩ := by
  simp [collectRound, nextBlock, Action.run_bind, Action.run_pure, h, Step.after]

theorem collectRound_of_error {next : Disassembly} (h : walk.advance = ⟨.error e, next, events⟩)
    (seen : List Block) : (collectRound seen).run walk = ⟨.error e, next, events⟩ := by
  simp [collectRound, nextBlock, Action.run_bind, h]

theorem collectLoop_run (h : walk.finished = false) (seen : List Block) :
    (Action.loop remaining collectRound collectRound_advances seen).run walk =
      ⟨walk.tour.outcome.map fun _ => seen.reverse ++ walk.tour.blocks, walk.tour.last,
        walk.tour.allEvents⟩ := by
  refine tour_induction (P := fun walk tour => ∀ seen,
    (Action.loop remaining collectRound collectRound_advances seen).run walk =
      ⟨tour.outcome.map fun _ => seen.reverse ++ tour.blocks, tour.last, tour.allEvents⟩)
    ?_ ?_ ?_ walk h seen
  · intro walk c events h read seen
    have round := collectRound_of_end (advance_of_end h read) seen
    rw [Action.loop_eq, Action.run_bind, round]
    simp [Action.run_pure, Step.after, Tour.blocks, Tour.allEvents, Except.map]
  · intro walk c events e h read seen
    have round := collectRound_of_error (advance_of_error h read) seen
    rw [Action.loop_eq, Action.run_bind, round]
    simp [Tour.allEvents, Except.map]
  · intro walk c events block h read ih seen
    have round := collectRound_of_block (advance_of_block h read) seen
    rw [Action.loop_eq, Action.run_bind, round]
    simp [ih, Step.after]

theorem collect_run (walk : Disassembly) :
    collect.run walk = ⟨walk.tour.outcome.map fun _ => walk.tour.blocks, walk.tour.last,
      walk.tour.allEvents⟩ := by
  cases h : walk.finished with
  | false => exact collectLoop_run h []
  | true =>
    have round := collectRound_of_end (advance_of_finished h) []
    rw [collect, Action.loop_eq, Action.run_bind, round, tour_of_finished h]
    simp [Action.run_pure, Step.after, Tour.blocks, Tour.allEvents, Except.map]

end Disassembly

-- ---------------------------------------------------------------------------
-- Whole files
-- ---------------------------------------------------------------------------

theorem Disassembly.eq_of_start {policy : Policy} {source : Source} {walk : Disassembly}
    {c : Cursor} {events : List Event} (h : start policy source = ⟨.ok walk, c, events⟩) :
    walk = { policy, header := walk.header, cursor := c } := by
  simp only [start, Step.mk.injEq] at h
  obtain ⟨result, rfl, -⟩ := h
  cases accepted : ((acceptedHeader policy).run { source }).result with
  | error e => simp [accepted, Except.map] at result
  | ok header =>
    simp only [accepted, Except.map, Except.ok.injEq] at result
    subst result
    rfl

/-- What reading a file comes to: the header or why there is none, the blocks behind it,
how it ended, and where. -/
structure Reading where
  opening : Step Cursor Header
  deliveries : List Delivery
  outcome : Except ReadError Unit
  cursor : Cursor
  /-- The events of the call that gave no block. -/
  events : List Event

namespace Reading

def ofSource (policy : Policy) (source : Source) : Reading :=
  let opened := Disassembly.start policy source
  let opening := { opened with result := opened.result.map Disassembly.header }
  match opened.result with
  | .ok walk => ⟨opening, walk.tour.deliveries, walk.tour.outcome, walk.tour.last.cursor,
      walk.tour.events⟩
  | .error e => ⟨opening, [], .error e, opened.state, []⟩

def blocks (reading : Reading) : List Block := reading.deliveries.map Delivery.block

def allEvents (reading : Reading) : List Event :=
  reading.opening.events ++ reading.deliveries.flatMap Delivery.events ++ reading.events

def position (reading : Reading) : Nat := reading.cursor.position

theorem ofSource_of_start {policy : Policy} {source : Source} {walk : Disassembly} {c : Cursor}
    {events : List Event} (h : Disassembly.start policy source = ⟨.ok walk, c, events⟩) :
    ofSource policy source =
      ⟨⟨.ok walk.header, c, events⟩, walk.tour.deliveries, walk.tour.outcome,
        walk.tour.last.cursor, walk.tour.events⟩ := by
  simp [ofSource, h, Except.map]

theorem ofSource_of_start_error {policy : Policy} {source : Source} {e : ReadError} {c : Cursor}
    {events : List Event} (h : Disassembly.start policy source = ⟨.error e, c, events⟩) :
    ofSource policy source = ⟨⟨.error e, c, events⟩, [], .error e, c, []⟩ := by
  simp [ofSource, h, Except.map]

end Reading

end Latitude
