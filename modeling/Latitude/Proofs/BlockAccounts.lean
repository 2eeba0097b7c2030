import Latitude.Proofs.Boundary
import Latitude.Proofs.Notices

/-!
# How far blocks are read

On any source, the bytes that a reader takes settle what it comes to (`accounts_law`): if it
succeeds, it takes them wherever they stand, and if it fails, they are too few or wrong for it
by themselves. So a block that is given is spelled in the bytes that were taken for it, and of
one that is not given the taken bytes hold the instructions that were decoded and then no other.

Nothing here depends on how long the source is.
-/

namespace Latitude

-- ---------------------------------------------------------------------------
-- What readers take
-- ---------------------------------------------------------------------------

namespace Reader

/-- A reader that succeeds would do so on the bytes that it takes wherever they stand, and one
that fails would fail on them alone. -/
theorem accounts_law : Law fun _ m c => ∃ w, c.Took w (m.run c).state ∧
    (∀ a, (m.run c).result = .ok a → Takes m c.position w (.ok a) (m.run c).events) ∧
    ∀ e, (m.run c).result = .error e →
      ∃ e', (m.run (.over w c.position)).result = .error e' where
  pure a c := ⟨[], .refl c, by rintro _ ⟨⟩; exact .pure a _, nofun⟩
  fail e c _ := ⟨[], .refl c, nofun, fun _ _ => ⟨e, rfl⟩⟩
  emit event c := ⟨[], .refl c, by rintro _ ⟨⟩; exact .emit event _, nofun⟩
  position c := ⟨[], .refl c, by rintro _ ⟨⟩; exact .position _, nofun⟩
  byte c := by
    cases taken : (byte.run c).result with
    | ok b =>
      refine ⟨[b], Cursor.took_byte taken, ?_, nofun⟩
      rintro _ ⟨⟩
      rw [events_byte]
      exact .byte b _
    | error e => exact ⟨[], Cursor.took_nothing taken, nofun, fun _ _ => ⟨_, rfl⟩⟩
  bind := by
    intro α β m f c hm hf
    obtain ⟨v, first, succeeds, fails⟩ := hm
    cases given : (m.run c).result with
    | error e =>
      rw [Action.run_bind_error given]
      obtain ⟨e', failed⟩ := fails e given
      exact ⟨v, first, nofun, fun _ _ => ⟨e', by rw [Action.run_bind_error failed]⟩⟩
    | ok a =>
      have takes := succeeds a given
      obtain ⟨w, second, succeeds', fails'⟩ := hf a given
      rw [first.position] at succeeds' fails'
      rw [Action.run_bind_ok given]
      refine ⟨v ++ w, first.trans second, fun b h => takes.bind (succeeds' b h), fun e h => ?_⟩
      obtain ⟨e', failed⟩ := fails' e h
      have run := takes w
      exact ⟨e', by rw [Action.run_bind_ok (by rw [run]), run]; exact failed⟩

section
variable {α : Type} {m : Reader α} {c c' : Cursor} {events : List Event}

theorem Plain.accounts_ok (hm : Plain m) {a : α} (run : m.run c = ⟨.ok a, c', events⟩) :
    ∃ w, c.Took w c' ∧ Takes m c.position w (.ok a) events := by
  obtain ⟨w, took, succeeds, -⟩ := hm.law accounts_law c
  rw [run] at took succeeds
  exact ⟨w, took, succeeds a rfl⟩

theorem Plain.accounts_error (hm : Plain m) {e : ReadError}
    (run : m.run c = ⟨.error e, c', events⟩) :
    ∃ w, c.Took w c' ∧ ∃ e', (m.run (.over w c.position)).result = .error e' := by
  obtain ⟨w, took, -, fails⟩ := hm.law accounts_law c
  rw [run] at took fails
  exact ⟨w, took, fails e rfl⟩

theorem Takes.eq_of_takes {p : Nat} {v w rest : List UInt8} {result result' : Except ReadError α}
    {events' : List Event} (hv : Takes m p v result events) (hw : Takes m p w result' events')
    (same : v = w ++ rest) : v = w ∧ result = result' ∧ events = events' := by
  obtain ⟨rfl, -, rfl⟩ := hv.unique hw (show v ++ [] = w ++ rest by rw [List.append_nil, same])
  have run := hv []
  rw [hw []] at run
  exact ⟨rfl, rfl, (congrArg Step.events run).symm⟩

end

-- ---------------------------------------------------------------------------
-- Instructions
-- ---------------------------------------------------------------------------

variable {c c' : Cursor} {events : List Event} {e : ReadError}

/-- The bytes do not start with an instruction. -/
def CutOff (cut : List UInt8) : Prop := ∀ i : SpelledInstruction, ¬ i.bytes <+: cut

theorem cutOff_nil : CutOff [] := by
  intro i starts
  cases List.prefix_nil.1 starts

theorem instruction_accounts_ok {i : Instruction}
    (run : instruction.run c = ⟨.ok i, c', events⟩) :
    ∃ s : SpelledInstruction, c.Took s.bytes c' ∧ i = s.instruction ∧
      events = s.events c.position := by
  obtain ⟨w, took, takes⟩ := instruction_plain.accounts_ok run
  obtain ⟨s, rest, split⟩ := spelled_instruction (congrArg Step.result (takes []))
  rw [List.append_nil] at split
  obtain ⟨rfl, given, told⟩ := takes.eq_of_takes (takes_instruction s c.position) split
  cases given
  exact ⟨s, took, rfl, told⟩

theorem instruction_accounts_error (run : instruction.run c = ⟨.error e, c', events⟩) :
    ∃ cut, c.Took cut c' ∧ CutOff cut ∧ told events = [] := by
  obtain ⟨cut, took, e', failed⟩ := instruction_plain.accounts_error run
  refine ⟨cut, took, ?_, ?_⟩
  · rintro s ⟨rest, rfl⟩
    rw [takes_instruction s c.position rest] at failed
    cases failed
  · have quiet := instruction_failsQuietly c e (by rw [run])
    rwa [run] at quiet

-- ---------------------------------------------------------------------------
-- Blocks
-- ---------------------------------------------------------------------------

theorem instructionsUpTo_accounts_ok {stop : Nat} {is : List Instruction}
    (run : (instructionsUpTo stop).run c = ⟨.ok is, c', events⟩) :
    ∃ ss : List SpelledInstruction, c.Took (ss.flatMap SpelledInstruction.bytes) c' ∧
      is = ss.map SpelledInstruction.instruction ∧
      events = eventsAlong SpelledInstruction.bytes SpelledInstruction.events ss c.position := by
  obtain ⟨w, took, takes⟩ := (instructionsUpTo_plain stop).accounts_ok run
  obtain ⟨ss, rest, covers, split⟩ := spelled_blockLoop (congrArg Step.result (takes []))
  rw [List.append_nil] at split
  obtain ⟨rfl, given, told⟩ := takes.eq_of_takes (takes_blockLoop ss [] covers) split
  cases given
  exact ⟨ss, took, rfl, told⟩

section
variable {stop : Nat}

-- What a round comes to, by what comes of the next instruction.

theorem blockRound_of_instruction {i : Instruction} (before : c.position < stop)
    (read : instruction.run c = ⟨.ok i, c', events⟩) (seen : List Instruction) :
    (blockRound stop seen).run c = ⟨.ok (.again (i :: seen)), c', events⟩ := by
  have placed : position.run c = ⟨.ok c.position, c, []⟩ := rfl
  simp [blockRound, Action.run_bind, placed, before, read, Action.run_pure, Step.after]

theorem blockRound_of_error (before : c.position < stop)
    (read : instruction.run c = ⟨.error e, c', events⟩) (seen : List Instruction) :
    (blockRound stop seen).run c = ⟨.error e, c', events⟩ := by
  have placed : position.run c = ⟨.ok c.position, c, []⟩ := rfl
  simp [blockRound, Action.run_bind, placed, before, read, Step.after]

theorem blockRound_of_reached (reached : ¬ c.position < stop) (seen : List Instruction) :
    (blockRound stop seen).run c = ⟨.ok (.done seen.reverse), c, []⟩ := by
  have placed : position.run c = ⟨.ok c.position, c, []⟩ := rfl
  simp [blockRound, Action.run_bind, placed, reached, Action.run_pure, Step.after]

end

/-- By the bytes that are left: the next instruction cannot be read, or the loop fails behind
it. -/
theorem blockLoop_accounts_error {stop : Nat} {seen : List Instruction} {c c' : Cursor}
    {events : List Event}
    (run : (Action.loop Cursor.remaining (blockRound stop) (blockRound_advances stop) seen).run c =
      ⟨.error e, c', events⟩) :
    ∃ (ss : List SpelledInstruction) (cut : List UInt8) (notices : List Event),
      c.Took (ss.flatMap SpelledInstruction.bytes ++ cut) c' ∧ CutOff cut ∧ told notices = [] ∧
      events = eventsAlong SpelledInstruction.bytes SpelledInstruction.events ss c.position ++
        notices := by
  rw [Action.loop_eq, Action.run_bind] at run
  by_cases before : c.position < stop
  · match read : instruction.run c with
    | ⟨.error e', c₁, first⟩ =>
      rw [blockRound_of_error before read] at run
      cases run
      obtain ⟨cut, took, cutOff, quiet⟩ := instruction_accounts_error read
      exact ⟨[], cut, first, took, cutOff, quiet, rfl⟩
    | ⟨.ok i, c₁, first⟩ =>
      have round := blockRound_of_instruction before read seen
      have lt : c₁.remaining < c.remaining := by
        have lt := blockRound_advances stop seen c (i :: seen) (by rw [round])
        rwa [round] at lt
      rw [round] at run
      obtain ⟨s, took, -, rfl⟩ := instruction_accounts_ok read
      match later : (Action.loop Cursor.remaining (blockRound stop) (blockRound_advances stop)
          (i :: seen)).run c₁ with
      | ⟨result, c₂, others⟩ =>
        simp only [later] at run
        cases run
        obtain ⟨ss, cut, notices, took', cutOff, quiet, rfl⟩ := blockLoop_accounts_error later
        refine ⟨s :: ss, cut, notices, ?_, cutOff, quiet, ?_⟩
        · rw [List.flatMap_cons, List.append_assoc]
          exact took.trans took'
        · rw [took.position, eventsAlong, List.append_assoc]
  · rw [blockRound_of_reached before] at run
    cases run
termination_by c.remaining

theorem length_accounts_ok {n : UInt64}
    (run : (unsigned lengthWidth).run c = ⟨.ok n, c', events⟩) :
    ∃ w, w.length = lengthWidth ∧ c.Took w c' ∧ n.toNat = Encoding.ofLittleEndian w ∧
      events = [] := by
  obtain ⟨w, took, takes⟩ := (unsigned_plain _).accounts_ok run
  obtain ⟨v, rest, width, split⟩ :=
    spelled_unsigned (by decide) (congrArg Step.result (takes []))
  rw [List.append_nil] at split
  have narrow : v.length ≤ 8 := Nat.le_of_eq width
  have spelled := takes_unsigned narrow c.position
  rw [width] at spelled
  obtain ⟨rfl, given, told⟩ := takes.eq_of_takes spelled split
  cases given
  exact ⟨w, width, took,
    UInt64.toNat_ofNat_of_lt' (Encoding.ofLittleEndian_lt_of_le narrow), told⟩

theorem length_accounts_error (run : (unsigned lengthWidth).run c = ⟨.error e, c', events⟩) :
    ∃ w, c.Took w c' ∧ w.length < lengthWidth ∧ told events = [] := by
  obtain ⟨w, took, e', failed⟩ := (unsigned_plain _).accounts_error run
  refine ⟨w, took, Nat.lt_of_not_le fun long => ?_, ?_⟩
  · have width : (w.take lengthWidth).length = lengthWidth := by
      rw [List.length_take]
      exact Nat.min_eq_left long
    have takes := takes_unsigned (w := w.take lengthWidth) (Nat.le_of_eq width) c.position
      (w.drop lengthWidth)
    rw [width, List.take_append_drop] at takes
    rw [takes] at failed
    cases failed
  · have quiet := unsigned_quiet lengthWidth c
    rwa [run] at quiet

section
variable {index : Nat} {boundary : Boundary} {b : Block} {c₁ c₂ : Cursor}

theorem measuredBlock_of_error (read : (unsigned lengthWidth).run c = ⟨.error e, c₁, events⟩) :
    (measuredBlock index).run c = ⟨.error e, c₁, events⟩ := by
  have placed (c : Cursor) : position.run c = ⟨.ok c.position, c, []⟩ := rfl
  simp [measuredBlock, Action.run_bind, placed, read, Step.after]

theorem measuredBlock_of_length {n : UInt64} {result : Except ReadError (List Instruction)}
    (read : (unsigned lengthWidth).run c = ⟨.ok n, c₁, []⟩)
    (others : (instructionsUpTo (min (c₁.position + n.toNat) maxOffset)).run c₁ =
      ⟨result, c₂, events⟩) :
    (measuredBlock index).run c =
      ⟨result.map fun is =>
          ⟨index, c.position, n.toNat, c₂.position - c₁.position, is⟩, c₂,
        .blockStarted index c.position n.toNat :: events⟩ := by
  have placed (c : Cursor) : position.run c = ⟨.ok c.position, c, []⟩ := rfl
  cases result <;>
    simp [measuredBlock, Action.run_bind, Action.run_pure, Action.emit, placed, read, others,
      Step.after, Except.map]

theorem measuredBlock_accounts_ok (run : (measuredBlock index).run c = ⟨.ok b, c', events⟩) :
    ∃ s : SpelledBlock, c.Took s.bytes c' ∧ b = s.block index c.position ∧
      events = .blockStarted index c.position s.declared ::
        eventsAlong SpelledInstruction.bytes SpelledInstruction.events s.instructions
          (c.position + lengthWidth) := by
  match read : (unsigned lengthWidth).run c with
  | ⟨.error e, c₁, first⟩ =>
    rw [measuredBlock_of_error read] at run
    cases run
  | ⟨.ok n, c₁, first⟩ =>
    obtain ⟨w, width, took, value, rfl⟩ := length_accounts_ok read
    match others : (instructionsUpTo (min (c₁.position + n.toNat) maxOffset)).run c₁ with
    | ⟨.error e, c₂, more⟩ =>
      rw [measuredBlock_of_length read others] at run
      cases run
    | ⟨.ok is, c₂, more⟩ =>
      rw [measuredBlock_of_length read others] at run
      cases run
      obtain ⟨ss, took', rfl, rfl⟩ := instructionsUpTo_accounts_ok others
      refine ⟨⟨w, width, ss⟩, took.trans took', ?_, ?_⟩
      · have consumed : c'.position - c₁.position =
            (ss.flatMap SpelledInstruction.bytes).length := by
          rw [took'.position, Nat.add_sub_cancel_left]
        rw [value, consumed]
        rfl
      · rw [value, took.position, width]
        rfl

/-- What has come of a block that is not there or cannot be given: its length is not there in
full and nothing is told of it, or the length and some instructions are, and these are what is
told. -/
inductive BreaksOff (index : Nat) (c c' : Cursor) (events : List Event) : Prop
  | length (w : List UInt8) : c.Took w c' → w.length < lengthWidth → told events = [] →
      BreaksOff index c c' events
  | body (s : SpelledBlock) (cut : List UInt8) : c.Took (s.bytes ++ cut) c' → CutOff cut →
      told events = s.log index c.position → BreaksOff index c c' events

theorem measuredBlock_accounts_error
    (run : (measuredBlock index).run c = ⟨.error e, c', events⟩) :
    BreaksOff index c c' events := by
  match read : (unsigned lengthWidth).run c with
  | ⟨.error e, c₁, first⟩ =>
    rw [measuredBlock_of_error read] at run
    cases run
    obtain ⟨w, took, short, quiet⟩ := length_accounts_error read
    exact .length w took short quiet
  | ⟨.ok n, c₁, first⟩ =>
    obtain ⟨w, width, took, value, rfl⟩ := length_accounts_ok read
    match others : (instructionsUpTo (min (c₁.position + n.toNat) maxOffset)).run c₁ with
    | ⟨.ok is, c₂, more⟩ =>
      rw [measuredBlock_of_length read others] at run
      cases run
    | ⟨.error e, c₂, more⟩ =>
      rw [measuredBlock_of_length read others] at run
      cases run
      obtain ⟨ss, cut, notices, took', cutOff, quiet, rfl⟩ := blockLoop_accounts_error others
      refine .body ⟨w, width, ss⟩ cut ?_ cutOff ?_
      · have taken := took.trans took'
        rwa [← List.append_assoc] at taken
      · have told := SpelledBlock.told_started ⟨w, width, ss⟩ index c.position notices
        rw [quiet, List.append_nil] at told
        rw [value, took.position, width]
        exact told

theorem presentBlock_of_fitting (measured : (measuredBlock index).run c = ⟨.ok b, c', events⟩)
    (fits : b.overrun = 0) : (presentBlock index boundary).run c = ⟨.ok b, c', events⟩ := by
  simp [presentBlock_eq, Action.run_bind, measured, settle, fits, Action.run_pure, Step.after]

theorem presentBlock_of_overrun (measured : (measuredBlock index).run c = ⟨.ok b, c', events⟩)
    (overran : b.overrun ≠ 0) :
    (presentBlock index .lax).run c =
        ⟨.ok b, c', events ++ [.blockOverran b.index b.declared b.consumed]⟩ ∧
      (presentBlock index .strict).run c =
        ⟨.error (.blockOverrun b.index b.declared b.consumed), c', events⟩ := by
  simp [presentBlock_eq, Action.run_bind, measured, settle, overran, Action.run_pure, Action.emit,
    Action.fail, Step.after]

theorem presentBlock_accounts_ok
    (run : (presentBlock index boundary).run c = ⟨.ok b, c', events⟩) :
    ∃ s : SpelledBlock, c.Took s.bytes c' ∧ b = s.block index c.position ∧
      events = s.events index c.position ∧ (0 < b.overrun → boundary = .lax) := by
  match measured : (measuredBlock index).run c with
  | ⟨.error e, c₁, first⟩ =>
    rw [presentBlock_eq, Action.run_bind_error (by rw [measured])] at run
    cases run
  | ⟨.ok b₁, c₁, first⟩ =>
    obtain ⟨s, took, rfl, rfl⟩ := measuredBlock_accounts_ok measured
    by_cases fits : (s.block index c.position).overrun = 0
    · rw [presentBlock_of_fitting measured fits] at run
      cases run
      refine ⟨s, took, rfl, ?_, fun overran => absurd fits (Nat.ne_of_gt overran)⟩
      rw [SpelledBlock.events, if_pos fits, List.append_nil]
    · cases boundary with
      | lax =>
        rw [(presentBlock_of_overrun measured fits).1] at run
        cases run
        refine ⟨s, took, rfl, ?_, fun _ => rfl⟩
        rw [SpelledBlock.events, if_neg fits]
        rfl
      | strict =>
        rw [(presentBlock_of_overrun measured fits).2] at run
        cases run

/-- A block that its boundary does not let pass has been told of like one that breaks off
behind its last instruction. -/
theorem presentBlock_accounts_error
    (run : (presentBlock index boundary).run c = ⟨.error e, c', events⟩) :
    BreaksOff index c c' events := by
  match measured : (measuredBlock index).run c with
  | ⟨.error e₁, c₁, first⟩ =>
    rw [presentBlock_eq, Action.run_bind_error (by rw [measured]), measured] at run
    cases run
    exact measuredBlock_accounts_error measured
  | ⟨.ok b, c₁, first⟩ =>
    by_cases fits : b.overrun = 0
    · rw [presentBlock_of_fitting measured fits] at run
      cases run
    · cases boundary with
      | lax =>
        rw [(presentBlock_of_overrun measured fits).1] at run
        cases run
      | strict =>
        rw [(presentBlock_of_overrun measured fits).2] at run
        cases run
        obtain ⟨s, took, rfl, rfl⟩ := measuredBlock_accounts_ok measured
        refine .body s [] (by rwa [List.append_nil]) cutOff_nil ?_
        have told := s.told_started index c.position []
        rwa [List.append_nil, told_nil, List.append_nil] at told

theorem foundBlock_run (index : Nat) (boundary : Boundary) (c : Cursor) :
    (foundBlock index boundary).run c =
      { (presentBlock index boundary).run c with
        result := ((presentBlock index boundary).run c).result.map some } := by
  rw [foundBlock, Action.run_bind]
  cases ((presentBlock index boundary).run c).result with
  | ok b => simp [Action.run_pure, Step.after, Except.map]
  | error e => rfl

theorem block_looks (index : Nat) (boundary : Boundary) (c : Cursor) :
    ∃ c₁, c.Took [] c₁ ∧
      ((∃ result, (∀ b, result ≠ .ok (some b)) ∧
        (block index boundary).run c = ⟨result, c₁, []⟩) ∨
      (block index boundary).run c =
        { (presentBlock index boundary).run c₁ with
          result := ((presentBlock index boundary).run c₁).result.map some }) := by
  have looked : c.Took [] (isExhausted.run c).state := c.took_atEnd
  rcases isExhausted_cases c with ⟨c₁, run⟩ | ⟨c₁, run⟩ | ⟨e, c₁, run⟩ <;> rw [run] at looked
  · exact ⟨c₁, looked, .inl ⟨.ok none, nofun, block_of_end run index boundary⟩⟩
  · exact ⟨c₁, looked, .inr (by rw [block_of_more run, foundBlock_run])⟩
  · exact ⟨c₁, looked, .inl ⟨.error e, nofun, block_of_error run index boundary⟩⟩

theorem block_accounts_some (run : (block index boundary).run c = ⟨.ok (some b), c', events⟩) :
    ∃ s : SpelledBlock, c.Took s.bytes c' ∧ b = s.block index c.position ∧
      events = s.events index c.position ∧ (0 < b.overrun → boundary = .lax) := by
  obtain ⟨c₁, looked, ⟨result, without, other⟩ | present⟩ := block_looks index boundary c
  · rw [other] at run
    cases run
    exact absurd rfl (without b)
  · have position : c₁.position = c.position := looked.position
    match read : (presentBlock index boundary).run c₁ with
    | ⟨.error e, c₂, more⟩ =>
      rw [present, read] at run
      cases run
    | ⟨.ok b₁, c₂, more⟩ =>
      rw [present, read] at run
      cases run
      obtain ⟨s, took, given, told, boundary⟩ := presentBlock_accounts_ok read
      rw [position] at given told
      exact ⟨s, looked.trans took, given, told, boundary⟩

theorem block_accounts_other {result : Except ReadError (Option Block)}
    (run : (block index boundary).run c = ⟨result, c', events⟩)
    (without : ∀ b, result ≠ .ok (some b)) : BreaksOff index c c' events := by
  obtain ⟨c₁, looked, ⟨result, -, other⟩ | present⟩ := block_looks index boundary c
  · rw [other] at run
    cases run
    exact .length [] looked (by decide) rfl
  · match read : (presentBlock index boundary).run c₁ with
    | ⟨.ok b, c₂, more⟩ =>
      rw [present, read] at run
      cases run
      exact absurd rfl (without b)
    | ⟨.error e, c₂, more⟩ =>
      rw [present, read] at run
      cases run
      cases presentBlock_accounts_error read with
      | length w took short quiet => exact .length w (looked.trans took) short quiet
      | body s cut took cutOff told =>
        have position : c₁.position = c.position := looked.position
        rw [position] at told
        exact .body s cut (looked.trans took) cutOff told

end

end Reader

end Latitude
