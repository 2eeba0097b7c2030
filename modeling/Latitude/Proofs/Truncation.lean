import Latitude.Proofs.Language

/-!
# Files that are cut off

Reading a front of a file goes as reading the file does, for as long as there are bytes.
An error that was met within the front is met again. Otherwise the blocks are those that
end within the front, and the reading ends well only where the header or a block does; at
every other length it runs out of bytes.

A trail is the course of a walk over bytes alone, with what each of its steps would have
made of fewer bytes. `Trail.cut` turns the trail of a file into that of its front.
-/

namespace Latitude

def Block.stop (block : Block) : Nat := block.offset + Reader.lengthWidth + block.consumed

/-- How a reading ends that is cut off at `k`, if the header or a block ends at each of `ends`. -/
def cutOutcome (ends : List Nat) (k : Nat) : Except ReadError Unit :=
  if k ∈ ends then .ok () else .error (.endOfStream k)

/-- The reading stopped within the first `k` bytes, with an error that more bytes would not
have mended. -/
def StopsWithin (k : Nat) (outcome : Except ReadError Unit) (stop : Nat) : Prop :=
  ∃ e, outcome = .error e ∧ e.isTruncation = false ∧ stop ≤ k

namespace Reader

variable {α : Type} {m : Reader α} {p : Nat} {v t w : List UInt8}

theorem RunsOutWithin.short (within : RunsOutWithin m p w) (split : w = v ++ t) (more : t ≠ []) :
    Short m p v := by
  rintro x y rfl
  exact within x (y ++ t) (by simpa using split) (by simp [more])

theorem Short.front (short : Short m p (v ++ t)) : Short m p v := by
  rintro x y rfl
  exact short x (y ++ t) (by simp)

theorem Short.runsOut (short : Short m p v) : RunsOut m p v :=
  short v [] (by simp)

theorem presentBlock_runsOut_nil (index : Nat) (boundary : Boundary) (p : Nat) :
    RunsOut (presentBlock index boundary) p [] :=
  (Takes.position p).bind_runsOut (unsigned_runsOut (by decide) (by decide) p).bind

theorem Takes.stop_eq {index : Nat} {boundary : Boundary} {b : Block} {events : List Event}
    (takes : Takes (presentBlock index boundary) p w (.ok b) events)
    (low : p + w.length < maxOffset) : b.stop = p + w.length := by
  have read := takes []
  rw [List.append_nil] at read
  obtain ⟨s, rest, fits, rfl⟩ := spelled_presentBlock low (congrArg Step.result read)
  have short : p + s.bytes.length < maxOffset := by
    rw [List.length_append] at low
    omega
  have same : s.bytes ++ rest ++ [] = s.bytes ++ rest := List.append_nil _
  obtain ⟨given, -, whole⟩ := takes.unique (takes_presentBlock fits index short) same
  cases given
  rw [whole, SpelledBlock.bytes, List.length_append, s.width, ← Nat.add_assoc]
  rfl

end Reader

open Reader (Takes RunsOut RunsOutWithin Short Verdict presentBlock)

/-- From index `index` and position `p` on, `data` holds `blocks`; the walk through it has the
given outcome at `stop`. -/
inductive Trail (boundary : Boundary) : (index p : Nat) → (data : List UInt8) →
    (blocks : List Block) → (outcome : Except ReadError Unit) → (stop : Nat) → Prop
  | done (index p : Nat) : Trail boundary index p [] [] (.ok ()) p
  | short {index p : Nat} {data : List UInt8} : data ≠ [] →
      Short (presentBlock index boundary) p data →
      Trail boundary index p data [] (.error (.endOfStream (p + data.length))) (p + data.length)
  | refused {index p : Nat} {w : List UInt8} {e : ReadError} {events : List Event}
      (rest : List UInt8) : w ≠ [] →
      Takes (presentBlock index boundary) p w (.error e) events → e.isTruncation = false →
      RunsOutWithin (presentBlock index boundary) p w →
      Trail boundary index p (w ++ rest) [] (.error e) (p + w.length)
  | block {index p : Nat} {w rest : List UInt8} {b : Block} {events : List Event}
      {blocks : List Block} {outcome : Except ReadError Unit} {stop : Nat} : w ≠ [] →
      Takes (presentBlock index boundary) p w (.ok b) events → b.stop = p + w.length →
      RunsOutWithin (presentBlock index boundary) p w →
      Trail boundary (index + 1) (p + w.length) rest blocks outcome stop →
      Trail boundary index p (w ++ rest) (b :: blocks) outcome stop

namespace Trail

variable {boundary : Boundary} {index p stop : Nat} {data v t : List UInt8} {blocks : List Block}
  {outcome : Except ReadError Unit}

theorem exists_of_low (boundary : Boundary) (index p : Nat) (data : List UInt8)
    (low : p + data.length < Reader.maxOffset) :
    ∃ blocks outcome stop, Trail boundary index p data blocks outcome stop := by
  cases data with
  | nil => exact ⟨_, _, _, .done index p⟩
  | cons b data =>
    cases (Reader.presentBlock_plain index boundary).verdict p (b :: data) with
    | short hs => exact ⟨_, _, _, .short (by simp) hs⟩
    | settled w rest result events split takes final within =>
      have nonempty : w ≠ [] := by
        rintro rfl
        obtain ⟨_, out⟩ := Reader.presentBlock_runsOut_nil index boundary p
        rw [show Cursor.over [] p = .over ([] ++ []) p from rfl, takes []] at out
        cases out
      have length : (b :: data).length = w.length + rest.length := by simp [split]
      have lt : rest.length < (b :: data).length := by
        have positive := List.length_pos_iff.2 nonempty
        omega
      rw [split]
      cases result with
      | error e => exact ⟨_, _, _, .refused rest nonempty takes (final e rfl) within⟩
      | ok found =>
        obtain ⟨blocks, outcome, stop, later⟩ :=
          exists_of_low boundary (index + 1) (p + w.length) rest (by omega)
        exact ⟨_, _, _, .block nonempty takes (takes.stop_eq (by omega)) within later⟩
termination_by data.length

theorem tour_eq (h : Trail boundary index p data blocks outcome stop) {walk : Disassembly}
    (unfinished : walk.finished = false) (cursor : walk.cursor = .over data p)
    (next : walk.nextIndex = index) (same : walk.policy.boundary = boundary) :
    walk.tour.blocks = blocks ∧ walk.tour.outcome = outcome ∧
      walk.tour.last.cursor.position = stop := by
  induction h generalizing walk with
  | done index p =>
    rw [Disassembly.tour_of_end unfinished (Disassembly.readBlock_over_nil cursor)]
    exact ⟨rfl, rfl, rfl⟩
  | short nonempty hs =>
    subst next same
    obtain ⟨events, run⟩ := hs.runsOut
    rw [Disassembly.tour_of_error unfinished (Disassembly.readBlock_over cursor nonempty run)]
    exact ⟨rfl, rfl, rfl⟩
  | refused rest nonempty takes =>
    subst next same
    have read := Disassembly.readBlock_over cursor (by simp [nonempty]) (takes rest)
    rw [Disassembly.tour_of_error unfinished read]
    exact ⟨rfl, rfl, rfl⟩
  | @block index p w rest b events _ _ _ nonempty takes _ _ _ ih =>
    subst next same
    have read := Disassembly.readBlock_over cursor (by simp [nonempty]) (takes rest)
    obtain ⟨hb, ho, hp⟩ :=
      @ih (walk.moved (.over rest (p + w.length))) unfinished rfl rfl rfl
    rw [Disassembly.tour_of_block unfinished read]
    simp [hb, ho, hp]

theorem le_stop (h : Trail boundary index p data blocks outcome stop) :
    p ≤ stop ∧ ∀ b ∈ blocks, p ≤ b.stop := by
  induction h with
  | done => simp
  | short => simp
  | refused => simp
  | block _ _ ends _ _ ih =>
    refine ⟨by omega, List.forall_mem_cons.2 ⟨by omega, fun b mem => ?_⟩⟩
    exact Nat.le_trans (Nat.le_add_right ..) (ih.2 b mem)

theorem of_short {ends : List Nat} (hs : Short (presentBlock index boundary) p v)
    (later : ∀ n ∈ ends, p + v.length < n) :
    Trail boundary index p v [] (cutOutcome (p :: ends) (p + v.length)) (p + v.length) := by
  have past : p + v.length ∉ ends := fun mem => Nat.lt_irrefl _ (later _ mem)
  cases v with
  | nil => simpa [cutOutcome] using @done boundary index p
  | cons b v =>
    have elsewhere : p + (b :: v).length ∉ p :: ends :=
      List.not_mem_cons_of_ne_of_not_mem (by simp) past
    rw [cutOutcome, if_neg elsewhere]
    exact .short (by simp) hs

theorem kept (h : Trail boundary index p data blocks outcome stop) (split : data = v ++ t)
    (met : StopsWithin (p + v.length) outcome stop) :
    Trail boundary index p v blocks outcome stop := by
  obtain ⟨e, failed, final, within⟩ := met
  induction h generalizing v with
  | done => cases failed
  | short => cases failed; cases final
  | refused rest nonempty takes nontruncation runsOut =>
    rcases Reader.front_cases split with ⟨u, rfl, hu, -⟩ | ⟨u, rfl, -⟩
    · have positive := List.length_pos_iff.2 hu
      simp only [List.length_append] at within
      omega
    · exact .refused u nonempty takes nontruncation runsOut
  | block nonempty takes ends runsOut later ih =>
    rcases Reader.front_cases split with ⟨u, rfl, hu, -⟩ | ⟨u, rfl, next⟩
    · have positive := List.length_pos_iff.2 hu
      have le := later.le_stop.1
      simp only [List.length_append] at le
      omega
    · rw [List.length_append, ← Nat.add_assoc] at within
      exact .block nonempty takes ends runsOut (ih next failed within)

theorem cut (h : Trail boundary index p data blocks outcome stop) (split : data = v ++ t)
    (unmet : ¬ StopsWithin (p + v.length) outcome stop) :
    Trail boundary index p v (blocks.filter (·.stop ≤ p + v.length))
      (cutOutcome (p :: blocks.map Block.stop) (p + v.length)) (p + v.length) := by
  induction h generalizing v with
  | done index p =>
    obtain ⟨rfl, -⟩ := List.append_eq_nil_iff.1 split.symm
    simpa [cutOutcome] using @done boundary index p
  | short _ hs =>
    subst split
    exact of_short hs.front (by simp)
  | refused rest nonempty takes nontruncation runsOut =>
    rcases Reader.front_cases split with ⟨u, hw, hu, -⟩ | ⟨u, rfl, -⟩
    · exact of_short (runsOut.short hw hu) (by simp)
    · exact absurd ⟨_, rfl, nontruncation, by simp⟩ unmet
  | @block index p w rest b events blocks _ _ nonempty takes ends runsOut later ih =>
    rcases Reader.front_cases split with ⟨u, hw, hu, -⟩ | ⟨u, rfl, next⟩
    · -- The first block is cut off, and the others come behind it.
      have positive := List.length_pos_iff.2 hu
      have length : w.length = v.length + u.length := by simp [hw]
      have past : ∀ c ∈ b :: blocks, p + v.length < c.stop := by
        refine List.forall_mem_cons.2 ⟨by omega, fun c mem => ?_⟩
        have le := later.le_stop.2 c mem
        omega
      have none : (b :: blocks).filter (·.stop ≤ p + v.length) = [] :=
        List.filter_eq_nil_iff.2 fun c mem => by simpa using past c mem
      rw [none]
      exact of_short (runsOut.short hw hu) (by simpa using past)
    · -- The first block stays; its end is the start of what is left.
      have positive := List.length_pos_iff.2 nonempty
      have length : p + (w ++ u).length = p + w.length + u.length := by
        rw [List.length_append, Nat.add_assoc]
      rw [length] at unmet ⊢
      have stays : (b :: blocks).filter (·.stop ≤ p + w.length + u.length) =
          b :: blocks.filter (·.stop ≤ p + w.length + u.length) :=
        List.filter_cons_of_pos (by simp [ends])
      have outcome : cutOutcome (p :: (b :: blocks).map Block.stop) (p + w.length + u.length) =
          cutOutcome ((p + w.length) :: blocks.map Block.stop) (p + w.length + u.length) := by
        have past : p + w.length + u.length ≠ p := by omega
        simp [cutOutcome, ends, past]
      rw [stays, outcome]
      exact .block nonempty takes ends runsOut (ih next unmet)

end Trail

-- ---------------------------------------------------------------------------
-- Files
-- ---------------------------------------------------------------------------

namespace Reading

def ends (reading : Reading) : List Nat :=
  match reading.opening.result with
  | .ok _ => reading.opening.state.position :: reading.blocks.map Block.stop
  | .error _ => []

structure Goes (reading : Reading) (ends : List Nat) (blocks : List Block)
    (outcome : Except ReadError Unit) (stop : Nat) : Prop where
  ends_eq : reading.ends = ends
  blocks_eq : reading.blocks = blocks
  outcome_eq : reading.outcome = outcome
  position_eq : reading.position = stop

open Disassembly (acceptedHeader)

variable {policy : Policy} {w rest : List UInt8} {header : Header} {events : List Event}
  {e : ReadError}

theorem goes_of_runsOut (h : RunsOut (acceptedHeader policy) 0 w) :
    (ofSource policy (.ofBytes w)).Goes [] [] (.error (.endOfStream w.length)) w.length := by
  obtain ⟨events, run⟩ := h
  rw [Nat.zero_add] at run
  rw [ofSource_of_start_error (Disassembly.start_of_run run)]
  exact ⟨rfl, rfl, rfl, rfl⟩

theorem goes_of_refused (takes : Takes (acceptedHeader policy) 0 w (.error e) events)
    (rest : List UInt8) :
    (ofSource policy (.ofBytes (w ++ rest))).Goes [] [] (.error e) w.length := by
  rw [ofSource_of_start_error (Disassembly.start_of_takes takes rest)]
  exact ⟨rfl, rfl, rfl, rfl⟩

theorem goes_of_trail {blocks : List Block} {outcome : Except ReadError Unit} {stop : Nat}
    (takes : Takes (acceptedHeader policy) 0 w (.ok header) events)
    (trail : Trail policy.boundary 0 w.length rest blocks outcome stop) :
    (ofSource policy (.ofBytes (w ++ rest))).Goes (w.length :: blocks.map Block.stop) blocks
      outcome stop := by
  rw [ofSource_of_start (Disassembly.start_of_takes takes rest)]
  obtain ⟨rfl, rfl, rfl⟩ := @Trail.tour_eq _ _ _ _ _ _ _ trail
    { policy, header, cursor := .over rest w.length } rfl rfl rfl rfl
  exact ⟨rfl, rfl, rfl, rfl⟩

theorem beyond_of_runsOut {v t : List UInt8} (low : (v ++ t).length < Reader.maxOffset)
    (h : RunsOut (acceptedHeader policy) 0 v) :
    ∃ ends blocks outcome stop,
      (ofSource policy (.ofBytes (v ++ t))).Goes ends blocks outcome stop ∧
      (∀ n ∈ ends, v.length < n) ∧ (∀ b ∈ blocks, v.length < b.stop) ∧
      ¬ StopsWithin v.length outcome stop := by
  cases (Disassembly.acceptedHeader_plain policy).verdict 0 (v ++ t) with
  | short hs =>
    refine ⟨_, _, _, _, goes_of_runsOut hs.runsOut, by simp, by simp, ?_⟩
    rintro ⟨e, ⟨⟩, final, -⟩
    cases final
  | settled w rest result events split takes final runsOut =>
    have longer : v.length < w.length := by
      rcases Reader.front_cases split.symm with ⟨u, rfl, hu, -⟩ | ⟨u, rfl, -⟩
      · simpa using List.length_pos_iff.2 hu
      · obtain ⟨_, out⟩ := h
        rw [takes u] at out
        cases out
    rw [split] at low ⊢
    cases result with
    | error e =>
      refine ⟨_, _, _, _, goes_of_refused takes rest, by simp, by simp, ?_⟩
      rintro ⟨-, -, -, within⟩
      omega
    | ok header =>
      obtain ⟨blocks, outcome, stop, trail⟩ :=
        Trail.exists_of_low policy.boundary 0 w.length rest (by simpa using low)
      have later : ∀ b ∈ blocks, v.length < b.stop := fun b mem =>
        Nat.lt_of_lt_of_le longer (trail.le_stop.2 b mem)
      refine ⟨_, _, _, _, goes_of_trail takes trail, by simpa [longer] using later, later, ?_⟩
      rintro ⟨-, -, -, within⟩
      have le := trail.le_stop.1
      omega

end Reading

/-- Reading the first `k` bytes of a file. An error that the whole file met within them is met
again. Otherwise the blocks are those that end within them; the reading ends well where the
header or a block does, and elsewhere runs out of bytes at `k`. -/
theorem reading_take (policy : Policy) {data : List UInt8}
    (short : data.length < Reader.maxOffset) {k : Nat} (within : k ≤ data.length) :
    let whole := Reading.ofSource policy (.ofBytes data)
    let front := Reading.ofSource policy (.ofBytes (data.take k))
    (StopsWithin k whole.outcome whole.position →
      front.blocks = whole.blocks ∧ front.outcome = whole.outcome ∧
        front.position = whole.position) ∧
    (¬ StopsWithin k whole.outcome whole.position →
      front.blocks = whole.blocks.filter (·.stop ≤ k) ∧
        front.outcome = cutOutcome whole.ends k ∧ front.position = k) := by
  obtain ⟨v, t, rfl, rfl⟩ : ∃ v t, data = v ++ t ∧ v.length = k :=
    ⟨data.take k, data.drop k, by simp, by simp [within]⟩
  rw [List.take_left]
  intro whole front
  cases (Disassembly.acceptedHeader_plain policy).verdict 0 v with
  | short hs =>
    obtain ⟨ends, blocks, outcome, stop, goes, later, past, unmet⟩ :=
      Reading.beyond_of_runsOut short hs.runsOut
    obtain ⟨-, hb, ho, hp⟩ := Reading.goes_of_runsOut hs.runsOut
    have none : blocks.filter (·.stop ≤ v.length) = [] :=
      List.filter_eq_nil_iff.2 fun b mem => by simpa using past b mem
    have elsewhere : v.length ∉ ends := fun mem => Nat.lt_irrefl _ (later _ mem)
    simp only [whole, front]
    rw [goes.ends_eq, goes.blocks_eq, goes.outcome_eq, goes.position_eq, hb, ho, hp, none,
      cutOutcome, if_neg elsewhere]
    exact ⟨fun met => absurd met unmet, fun _ => ⟨rfl, rfl, rfl⟩⟩
  | settled w u result events split takes final _ =>
    subst split
    simp only [whole, front, List.append_assoc]
    cases result with
    | error e =>
      obtain ⟨he, hb, ho, hp⟩ := Reading.goes_of_refused takes (u ++ t)
      obtain ⟨-, hb', ho', hp'⟩ := Reading.goes_of_refused takes u
      rw [he, hb, ho, hp, hb', ho', hp']
      have met : StopsWithin (w ++ u).length (.error e) w.length :=
        ⟨e, rfl, final e rfl, by simp⟩
      exact ⟨fun _ => ⟨rfl, rfl, rfl⟩, fun unmet => absurd met unmet⟩
    | ok header =>
      obtain ⟨blocks, outcome, stop, trail⟩ :=
        Trail.exists_of_low policy.boundary 0 w.length (u ++ t) (by simpa using short)
      obtain ⟨he, hb, ho, hp⟩ := Reading.goes_of_trail takes trail
      rw [he, hb, ho, hp, List.length_append]
      constructor
      · intro met
        obtain ⟨-, hb', ho', hp'⟩ := Reading.goes_of_trail takes (trail.kept rfl met)
        exact ⟨hb', ho', hp'⟩
      · intro unmet
        obtain ⟨-, hb', ho', hp'⟩ := Reading.goes_of_trail takes (trail.cut rfl unmet)
        exact ⟨hb', ho', hp'⟩

/-- Two blocks, and a cut within the length of the second. -/
theorem reading_take_within_length :
    let data : List UInt8 :=
      [0, 0xE8, 0x03, 0, 0, 0x2E, 0, 2, 0, 0, 0, 0, 0, 0, 0, 0x04, 0x01,
        2, 0, 0, 0, 0, 0, 0, 0, 0x04, 0x01]
    let front := Reading.ofSource {} (.ofBytes (data.take 20))
    data.length < Reader.maxOffset ∧ 20 ≤ data.length ∧
      front.blocks.map Block.stop = [17] ∧ front.outcome = .error (.endOfStream 20) ∧
      front.position = 20 := by
  intro data front
  let block : SpelledBlock :=
    ⟨[2, 0, 0, 0, 0, 0, 0, 0], rfl, [⟨.getl, [.register .ptr], rfl⟩]⟩
  let file : SpelledFile := ⟨⟨⟨0, [0xE8, 0x03, 0, 0], rfl⟩, [], 0⟩, [block, block]⟩
  have fits : file.Fits {} := ⟨by decide, by simp [file, block, SpelledBlock.Fits]; decide⟩
  have read := Reading.ofSource_spelled fits (by decide)
  have spelled : data = file.bytes := rfl
  have cut := (@reading_take {} data (by decide) 20 (by decide)).2
  rw [spelled, read] at cut
  obtain ⟨hb, ho, hp⟩ := cut (by rintro ⟨e, ⟨⟩, -⟩)
  exact ⟨by decide, by decide, (congrArg _ hb).trans (by decide), ho.trans (if_neg (by decide)), hp⟩

end Latitude
