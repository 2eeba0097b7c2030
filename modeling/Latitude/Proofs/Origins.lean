import Latitude.Proofs.Calls
import Latitude.Proofs.IntegerLaws
import Latitude.Proofs.Reports

/-!
# Where errors come from

Some errors can only come up while a file is opened, some only among its blocks, and some
not at all: a word of four or eight bytes is never too wide, and arguments that were read by
a signature fit it. `ReadError.origin` sorts the errors, and `errors_by_origin` says that
every reader, every walk and every listing keeps to it, on every source.

`Meets` says of a reader what holds of the values it gives and of the errors it fails with,
at whatever cursor it is run. Sequencing and loops pass it on.
-/

namespace Latitude

/-- At which point of reading a file an error can come up. -/
inductive Origin
  | anywhere
  /-- Only while a file is opened. -/
  | opening
  /-- Only while a block is read. -/
  | blocks
  | nowhere
  deriving DecidableEq

namespace ReadError

def origin : ReadError → Origin
  | .endOfStream _ | .invalidUtf8 _ | .io _ => .anywhere
  | .versionMismatch .. | .unknownHeaderTag .. | .unknownNature .. | .headerTypeMismatch _ =>
    .opening
  | .unknownOpcode .. | .unknownRegister .. | .blockOverrun .. => .blocks
  | .integerOverflow .. | .instruction _ => .nowhere

def InOpening (e : ReadError) : Prop := e.origin = .anywhere ∨ e.origin = .opening

def InHeader (e : ReadError) : Prop :=
  e.InOpening ∧ ∀ expected found, e ≠ .versionMismatch expected found

/-- A block may be refused so; where blocks may overrun, not because it does. -/
def InBlock (boundary : Boundary) (e : ReadError) : Prop :=
  (e.origin = .anywhere ∨ e.origin = .blocks) ∧
    ∀ index declared consumed, e = .blockOverrun index declared consumed → boundary = .strict

variable {e : ReadError} {boundary : Boundary}

theorem InHeader.of_anywhere (h : e.origin = .anywhere) : e.InHeader := by
  refine ⟨.inl h, ?_⟩
  rintro _ _ rfl
  cases h

theorem InBlock.of_anywhere (h : e.origin = .anywhere) : e.InBlock boundary := by
  refine ⟨.inl h, ?_⟩
  rintro _ _ _ rfl
  cases h

theorem InBlock.of_lax (h : e.InBlock .lax) : e.InBlock boundary :=
  ⟨h.1, fun index declared consumed same => nomatch h.2 index declared consumed same⟩

end ReadError

namespace Reader

variable {α β γ : Type} {m : Reader α} {f : α → Reader β} {Q : α → Prop} {R : β → Prop}
  {E F : ReadError → Prop}

-- ---------------------------------------------------------------------------
-- Values and errors
-- ---------------------------------------------------------------------------

/-- Wherever the reader is run, its value satisfies `Q` or its error `E`. -/
structure Meets (m : Reader α) (Q : α → Prop) (E : ReadError → Prop) : Prop where
  ok : ∀ {c a}, (m.run c).result = .ok a → Q a
  error : ∀ {c e}, (m.run c).result = .error e → E e

namespace Meets

theorem mono (h : Meets m Q E) (errors : ∀ {e}, E e → F e) : Meets m Q F :=
  ⟨h.ok, fun failed => errors (h.error failed)⟩

theorem pure {a : α} (h : Q a) : Meets (Pure.pure a : Reader α) Q E where
  ok := by rintro _ _ ⟨⟩; exact h
  error := nofun

theorem fail {e : ReadError} (h : E e) : Meets (Action.fail e : Reader α) Q E where
  ok := nofun
  error := by rintro _ _ ⟨⟩; exact h

theorem emit (event : Event) : Meets (Action.emit event : Reader Unit) (fun _ => True) E where
  ok _ := trivial
  error := nofun

theorem position : Meets Reader.position (fun _ => True) E where
  ok _ := trivial
  error := nofun

theorem bind (hm : Meets m Q E) (hf : ∀ a, Q a → Meets (f a) R E) : Meets (m >>= f) R E where
  ok := by
    intro c b h
    obtain ⟨a, first, second⟩ := result_bind_ok h
    exact (hf a (hm.ok first)).ok second
  error := by
    intro c e h
    cases first : (m.run c).result with
    | error e' =>
      rw [Action.run_bind_error first] at h
      cases h
      exact hm.error first
    | ok a =>
      rw [Action.run_bind_ok first] at h
      exact (hf a (hm.ok first)).error h

theorem error_of_loop {size : Cursor → Nat} {body : γ → Reader (Round γ α)}
    {advances : ∀ b, Action.Advances size (body b)}
    (hbody : ∀ b, Meets (body b) (fun _ => True) E) (b : γ) {c : Cursor} {e : ReadError}
    (h : ((Action.loop size body advances b).run c).result = .error e) : E e := by
  rw [Action.loop_eq] at h
  cases first : ((body b).run c).result with
  | error e' =>
    rw [Action.run_bind_error first] at h
    cases h
    exact (hbody b).error first
  | ok round =>
    rw [Action.run_bind_ok first] at h
    cases round with
    | done a => cases h
    | again next =>
      have lt := advances b c next first
      exact error_of_loop hbody next h
termination_by size c

theorem loop {size : Cursor → Nat} {body : γ → Reader (Round γ α)}
    {advances : ∀ b, Action.Advances size (body b)}
    (hbody : ∀ b, Meets (body b) (fun _ => True) E) (b : γ) :
    Meets (Action.loop size body advances b) (fun _ => True) E where
  ok _ := trivial
  error := error_of_loop hbody b

end Meets

-- ---------------------------------------------------------------------------
-- Integers and strings
-- ---------------------------------------------------------------------------

theorem byte_meets : Meets byte (fun _ => True) (·.origin = .anywhere) where
  ok _ := trivial
  error := by
    intro c e h
    simp only [byte, Cursor.takeByte] at h
    split at h
    · cases h
    · cases h; rfl
    · cases h
      split <;> rfl

theorem isExhausted_meets : Meets isExhausted (fun _ => True) (·.origin = .anywhere) where
  ok _ := trivial
  error := by
    intro c e h
    simp only [isExhausted, Cursor.atEnd] at h
    split at h <;> cases h
    rfl

theorem word_meets {width : Nat} (narrow : width ≤ 8) :
    Meets (word width) (·.toNat < 256 ^ width) (·.origin = .anywhere) := by
  induction width with
  | zero => exact .pure (by decide)
  | succ width ih =>
    refine byte_meets.bind fun low _ => (ih (by omega)).bind fun high below => .pure ?_
    have small : high.toNat < 256 ^ 7 :=
      Nat.lt_of_lt_of_le below (Nat.pow_le_pow_right (by decide) (by omega))
    have sum := or_shiftLeft_eq_ofNat low small
    have first := low.toNat_lt
    rw [UInt64.ofNat_toNat] at sum
    rw [sum, UInt64.toNat_ofNat_of_lt' (by simp only [UInt64.size]; omega), Nat.pow_succ]
    omega

theorem unsigned_meets {width : Nat} (narrow : width ≤ 8) :
    Meets (unsigned width) (·.toNat < 256 ^ width) (·.origin = .anywhere) := by
  refine Meets.position.bind fun offset _ => ?_
  rw [if_neg (Nat.not_lt.2 narrow)]
  exact word_meets narrow

/-- Four bytes are too few for a magnitude that is refused. -/
theorem integer_meets : Meets (signed integerWidth) (fun _ => True) (·.origin = .anywhere) := by
  refine Meets.position.bind fun offset _ => byte_meets.bind fun sign _ =>
    (unsigned_meets (by decide)).bind fun magnitude below => ?_
  have small : magnitude.toNat < magnitudeLimit := Nat.lt_trans below (by decide)
  rw [if_pos small]
  exact .pure trivial

theorem stringRound_meets (seen : List UInt8) :
    Meets (stringRound seen) (fun _ => True) (·.origin = .anywhere) := by
  refine byte_meets.bind fun first _ => ?_
  split
  · refine Meets.position.bind fun offset _ => byte_meets.bind fun second _ => ?_
    split
    · exact .pure trivial
    · split
      · exact .pure trivial
      · exact (Meets.emit _).bind fun _ _ => .pure trivial
  · exact .pure trivial

theorem string_meets : Meets string (fun _ => True) (·.origin = .anywhere) := by
  have bytes : Meets stringBytes (fun _ => True) (·.origin = .anywhere) :=
    .loop stringRound_meets []
  refine Meets.position.bind fun offset _ => bytes.bind fun data _ => ?_
  split
  · exact .pure trivial
  · exact .fail rfl

-- ---------------------------------------------------------------------------
-- Headers
-- ---------------------------------------------------------------------------

theorem headerValue_meets : Meets headerValue (fun _ => True) ReadError.InHeader := by
  refine Meets.position.bind fun offset _ =>
    (byte_meets.mono .of_anywhere).bind fun nature _ => ?_
  split
  · exact (integer_meets.mono .of_anywhere).bind fun _ _ => .pure trivial
  · exact (string_meets.mono .of_anywhere).bind fun _ _ => .pure trivial
  · exact .fail ⟨.inr rfl, nofun⟩

theorem headerRound_meets (header : Header) :
    Meets (headerRound header) (fun _ => True) ReadError.InHeader := by
  refine Meets.position.bind fun offset _ => (byte_meets.mono .of_anywhere).bind fun tag _ => ?_
  split
  · exact (byte_meets.mono .of_anywhere).bind fun _ _ => .pure trivial
  · refine headerValue_meets.bind fun value _ => ?_
    split
    · exact .fail ⟨.inr rfl, nofun⟩
    · exact .fail ⟨.inr rfl, nofun⟩
    · exact .pure trivial

theorem header_meets : Meets header (fun _ => True) ReadError.InHeader :=
  (integer_meets.mono .of_anywhere).bind fun _ _ =>
    (Meets.loop headerRound_meets _).bind fun _ _ => (Meets.emit _).bind fun _ _ => .pure trivial

-- ---------------------------------------------------------------------------
-- Instructions and blocks
-- ---------------------------------------------------------------------------

theorem opcode_meets : Meets opcode (fun _ => True) (ReadError.InBlock .lax) := by
  refine Meets.position.bind fun offset _ => (byte_meets.mono .of_anywhere).bind fun code _ => ?_
  split
  · exact .pure trivial
  · exact .fail ⟨.inr rfl, nofun⟩

theorem register_meets : Meets register (fun _ => True) (ReadError.InBlock .lax) := by
  refine Meets.position.bind fun offset _ => (byte_meets.mono .of_anywhere).bind fun code _ => ?_
  split
  · exact .pure trivial
  · exact .fail ⟨.inr rfl, nofun⟩

theorem arg_meets (kind : ArgKind) : Meets (arg kind) (·.kind = kind) (ReadError.InBlock .lax) := by
  cases kind with
  | integer => exact (integer_meets.mono .of_anywhere).bind fun _ _ => .pure rfl
  | string => exact (string_meets.mono .of_anywhere).bind fun _ _ => .pure rfl
  | register => exact register_meets.bind fun _ _ => .pure rfl
  | method =>
    have number : Meets method (fun _ => True) (ReadError.InBlock .lax) :=
      ((unsigned_meets (by decide)).mono .of_anywhere).bind fun _ _ => .pure trivial
    exact number.bind fun _ _ => .pure rfl

theorem args_meets (kinds : List ArgKind) :
    Meets (args kinds) (fun found => found.map Arg.kind = kinds) (ReadError.InBlock .lax) := by
  induction kinds with
  | nil => exact .pure rfl
  | cons kind kinds ih =>
    refine (arg_meets kind).bind fun first same => ih.bind fun rest others => .pure ?_
    rw [List.map_cons, same, others]

theorem build_of_args {op : Opcode} {found : List Arg}
    (kinds : found.map Arg.kind = op.signature) :
    Instruction.build op found = .ok ⟨op, found, kinds⟩ :=
  Instruction.build_self ⟨op, found, kinds⟩

theorem instruction_meets : Meets instruction (fun _ => True) (ReadError.InBlock .lax) := by
  refine Meets.position.bind fun offset _ => opcode_meets.bind fun code _ =>
    (args_meets _).bind fun found kinds => (Meets.emit _).bind fun _ _ => ?_
  rw [build_of_args kinds]
  exact .pure trivial

theorem instructionsUpTo_meets (stop : Nat) :
    Meets (instructionsUpTo stop) (fun _ => True) (ReadError.InBlock .lax) := by
  refine .loop (fun seen => Meets.position.bind fun offset _ => ?_) []
  split
  · exact instruction_meets.bind fun _ _ => .pure trivial
  · exact .pure trivial

theorem settle_meets (boundary : Boundary) (block : Block) :
    Meets (settle boundary block) (fun _ => True) (ReadError.InBlock boundary) := by
  unfold settle
  split
  · exact .pure trivial
  · cases boundary with
    | lax => exact .emit _
    | strict => exact .fail ⟨.inr rfl, fun _ _ _ _ => rfl⟩

theorem presentBlock_meets (index : Nat) (boundary : Boundary) :
    Meets (presentBlock index boundary) (fun _ => True) (ReadError.InBlock boundary) :=
  Meets.position.bind fun _ _ =>
    ((unsigned_meets (by decide)).mono .of_anywhere).bind fun _ _ =>
    Meets.position.bind fun _ _ => (Meets.emit _).bind fun _ _ =>
    ((instructionsUpTo_meets _).mono .of_lax).bind fun _ _ => Meets.position.bind fun _ _ =>
    (settle_meets _ _).bind fun _ _ => .pure trivial

theorem block_meets (index : Nat) (boundary : Boundary) :
    Meets (block index boundary) (fun _ => True) (ReadError.InBlock boundary) := by
  refine (isExhausted_meets.mono .of_anywhere).bind fun exhausted _ => ?_
  split
  · exact .pure trivial
  · exact (presentBlock_meets index boundary).bind fun _ _ => .pure trivial

end Reader

-- ---------------------------------------------------------------------------
-- Walks
-- ---------------------------------------------------------------------------

namespace Disassembly

theorem acceptedHeader_meets (policy : Policy) :
    Reader.Meets (acceptedHeader policy) (fun _ => True) ReadError.InOpening := by
  refine (Reader.header_meets.mono And.left).bind fun header _ => ?_
  split
  · exact .pure trivial
  · exact .fail (.inr rfl)

theorem inOpening_of_start {policy : Policy} {source : Source} {e : ReadError}
    (h : (start policy source).result = .error e) : e.InOpening := by
  simp only [start] at h
  cases read : ((acceptedHeader policy).run { source }).result with
  | error e' =>
    rw [read] at h
    cases h
    exact (acceptedHeader_meets policy).error read
  | ok header =>
    rw [read] at h
    cases h

variable {walk : Disassembly}

theorem inBlock_of_readBlock {e : ReadError} (h : walk.readBlock.result = .error e) :
    e.InBlock walk.policy.boundary :=
  (Reader.block_meets walk.nextIndex walk.policy.boundary).error h

theorem advance_inBlock (walk : Disassembly) :
    (∀ e, walk.advance.result = .error e → e.InBlock walk.policy.boundary) ∧
      walk.advance.state.policy = walk.policy := by
  cases stopped : walk.finished with
  | true =>
    rw [advance_of_finished stopped]
    exact ⟨nofun, rfl⟩
  | false =>
    match read : walk.readBlock with
    | ⟨.ok none, c, events⟩ =>
      rw [advance_of_end stopped read]
      exact ⟨nofun, rfl⟩
    | ⟨.ok (some b), c, events⟩ =>
      rw [advance_of_block stopped read]
      exact ⟨nofun, rfl⟩
    | ⟨.error e, c, events⟩ =>
      rw [advance_of_error stopped read]
      refine ⟨?_, rfl⟩
      rintro _ ⟨⟩
      exact inBlock_of_readBlock (by rw [read])

theorem inBlock_of_nextBlocks {n : Nat} {e : ReadError}
    (h : e ∈ (walk.yield (List.replicate n .nextBlock)).errors) :
    e.InBlock walk.policy.boundary := by
  induction n generalizing walk with
  | zero => cases h
  | succ n ih =>
    obtain ⟨failing, same⟩ := walk.advance_inBlock
    rcases step : walk.advance with ⟨result, next, events⟩
    rw [step] at failing same
    rw [List.replicate_succ, yield_cons, ask_nextBlock step] at h
    rcases List.mem_append.1 h with here | later
    · match result with
      | .ok none => cases here
      | .ok (some b) => cases here
      | .error e' =>
        obtain rfl := List.mem_singleton.1 here
        exact failing e rfl
    · exact same ▸ ih later

theorem inBlock_of_yield {calls : List Call} {e : ReadError}
    (h : e ∈ (walk.yield calls).errors) : e.InBlock walk.policy.boundary := by
  obtain ⟨n, same⟩ := walk.exists_nextBlocks calls
  exact inBlock_of_nextBlocks (same ▸ h)

theorem inBlock_of_tour (unfinished : walk.finished = false) {e : ReadError}
    (h : walk.tour.outcome = .error e) : e.InBlock walk.policy.boundary := by
  have failed : e ∈ walk.tour.yield.errors := by simp [Tour.yield, h]
  rw [← yield_tour unfinished] at failed
  exact inBlock_of_nextBlocks failed

end Disassembly

-- ---------------------------------------------------------------------------
-- Listings
-- ---------------------------------------------------------------------------

theorem Sink.anywhere_of_writeBytes {data : List UInt8} {sink : Sink} {e : ReadError}
    (h : (Sink.writeBytes data sink).result = .error e) : e.origin = .anywhere := by
  fun_induction Sink.writeBytes data sink with
  | case1 => cases h
  | case2 => cases h
  | case3 => cases h; rfl
  | case4 _ _ _ _ _ ih => exact ih h

namespace Report

variable {e : ReadError} {text : String} {cursor : Cursor} {sink : Sink} {events : List Event}

theorem error_of_writing {andThen : Sink → Report Summary}
    (h : (writing text cursor sink events andThen).result = .error e) :
    e.origin = .anywhere ∨ ∃ next, (andThen next).result = .error e := by
  rcases Sink.write_cases text sink with ⟨next, run⟩ | ⟨e', next, run⟩
  · simp only [writing, run] at h
    exact .inr ⟨next, h⟩
  · simp only [writing, run, Except.error.injEq] at h
    subst h
    exact .inl (Sink.anywhere_of_writeBytes (congrArg Step.result run))

theorem error_of_listing {outcome : Except ReadError Unit} {ds : List Delivery} {total : Summary}
    (h : (listing (ending outcome cursor events) ds total sink).result = .error e) :
    e.origin = .anywhere ∨ outcome = .error e := by
  induction ds generalizing total sink with
  | nil =>
    cases outcome with
    | error e' =>
      simp only [listing, ending, Except.error.injEq] at h
      exact .inr (congrArg Except.error h)
    | ok =>
      simp only [listing, ending, Sink.flush] at h
      split at h <;> cases h
      exact .inl rfl
  | cons d ds ih =>
    rcases error_of_writing h with own | ⟨next, later⟩
    · exact .inl own
    · exact ih later

end Report

theorem disassemble_error_cases {source : Source} {file : String} {policy : Policy} {sink : Sink}
    {e : ReadError} (h : (disassemble source file policy sink).result = .error e) :
    ((Disassembly.start policy source).result = .error e ∧ e.InOpening ∧
      (disassemble source file policy sink).sink = sink) ∨ e.InBlock policy.boundary := by
  rw [disassemble_eq_report] at h ⊢
  match started : Disassembly.start policy source with
  | ⟨.error e', c, events⟩ =>
    rw [Reading.ofSource_of_start_error started] at h ⊢
    cases h
    exact .inl ⟨rfl, Disassembly.inOpening_of_start (by rw [started]), rfl⟩
  | ⟨.ok walk, c, events⟩ =>
    have fresh := Disassembly.eq_of_start started
    have same : walk.policy = policy := by rw [fresh]
    rw [Reading.ofSource_of_start started] at h
    refine .inr ?_
    rcases Report.error_of_writing h with own | ⟨next, later⟩
    · exact .of_anywhere own
    · rcases Report.error_of_listing later with own | failed
      · exact .of_anywhere own
      · exact same ▸ Disassembly.inBlock_of_tour (by rw [fresh]) failed

/-- Where errors come from, on every source. A header is refused for what it holds, an
instruction for what it holds, and a block for an instruction or, where blocks may not overrun,
for its length. A file that is opened is refused as a header is, or for its version; whatever
calls are made on the walk behind it fail as blocks do. A listing fails in one of these ways or
because of its sink; what only the opening can meet it meets with nothing written yet. So no
integer is too wide, and no arguments misfit: the arguments read by a signature make an
instruction, and the number of a method loses nothing when it is cut to its size. -/
theorem errors_by_origin :
    (∀ c e, (Reader.header.run c).result = .error e → e.InHeader) ∧
    (∀ c e, (Reader.instruction.run c).result = .error e → e.InBlock .lax) ∧
    (∀ index boundary c e, ((Reader.block index boundary).run c).result = .error e →
      e.InBlock boundary) ∧
    (∀ policy source e, (Disassembly.start policy source).result = .error e → e.InOpening) ∧
    (∀ (walk : Disassembly) calls e, e ∈ (walk.yield calls).errors →
      e.InBlock walk.policy.boundary) ∧
    (∀ source file policy sink e, (disassemble source file policy sink).result = .error e →
      e.origin ≠ .nowhere ∧
      (∀ index declared consumed, e = .blockOverrun index declared consumed →
        policy.boundary = .strict) ∧
      (e.origin = .opening → (Disassembly.start policy source).result = .error e ∧
        (disassemble source file policy sink).sink = sink)) ∧
    (∀ c (op : Opcode) found, ((Reader.args op.signature).run c).result = .ok found →
      ∃ i, Instruction.build op found = .ok i) ∧
    ∀ c n, ((Reader.unsigned Reader.methodWidth).run c).result = .ok n →
      n.toUInt32.toNat = n.toNat := by
  refine ⟨fun _ _ => Reader.header_meets.error, fun _ _ => Reader.instruction_meets.error,
    fun index boundary _ _ => (Reader.block_meets index boundary).error,
    fun _ _ _ => Disassembly.inOpening_of_start, fun _ _ _ => Disassembly.inBlock_of_yield,
    ?_, ?_, ?_⟩
  · intro source file policy sink e failed
    rcases disassemble_error_cases failed with ⟨started, opening, kept⟩ | ⟨among, overrun⟩
    · refine ⟨?_, ?_, fun _ => ⟨started, kept⟩⟩
      · rcases opening with own | own <;> simp [own]
      · rintro _ _ _ rfl
        rcases opening with own | own <;> cases own
    · refine ⟨?_, overrun, ?_⟩
      · rcases among with own | own <;> simp [own]
      · intro opening
        rcases among with own | own <;> simp [own] at opening
  · intro c op found read
    exact ⟨_, Reader.build_of_args ((Reader.args_meets op.signature).ok read)⟩
  · intro c n read
    have narrow : Reader.methodWidth ≤ 8 := by decide
    have below := (Reader.unsigned_meets narrow).ok read
    rw [UInt64.toNat_toUInt32]
    exact Nat.mod_eq_of_lt below

end Latitude
