import Latitude.Proofs.PlainReaders

/-!
# Readers take bytes off the front

On a source that is nothing but bytes, a plain reader looks at no byte that it does not
take. `Plain.verdict`: either some front of the bytes settles what the reader comes to,
whatever follows, and it runs out of every shorter front; or it runs out of the bytes and
of every front of them. Running out is an end of the stream at the last byte.
-/

namespace Latitude

def Cursor.over (data : List UInt8) (position : Nat) : Cursor := ⟨.ofBytes data, position⟩

namespace Reader

variable {α β : Type} {m : Reader α} {f : α → Reader β} {p : Nat} {v w data : List UInt8}

-- ---------------------------------------------------------------------------
-- Taking bytes
-- ---------------------------------------------------------------------------

/-- At position `p` the reader takes the bytes `w` and no more, whatever follows them. -/
def Takes (m : Reader α) (p : Nat) (w : List UInt8) (result : Except ReadError α)
    (events : List Event) : Prop :=
  ∀ rest, m.run (.over (w ++ rest) p) = ⟨result, .over rest (p + w.length), events⟩

theorem Takes.pure (a : α) (p : Nat) : Takes (Pure.pure a) p [] (.ok a) [] :=
  fun _ => rfl

theorem Takes.fail (e : ReadError) (p : Nat) :
    Takes (Action.fail e : Reader α) p [] (.error e) [] :=
  fun _ => rfl

theorem Takes.emit (event : Event) (p : Nat) : Takes (Action.emit event) p [] (.ok ()) [event] :=
  fun _ => rfl

theorem Takes.position (p : Nat) : Takes Reader.position p [] (.ok p) [] :=
  fun _ => rfl

theorem Takes.byte (b : UInt8) (p : Nat) : Takes Reader.byte p [b] (.ok b) [] :=
  fun _ => rfl

theorem Takes.bind {a : α} {result : Except ReadError β} {events more : List Event}
    (hm : Takes m p v (.ok a) events) (hf : Takes (f a) (p + v.length) w result more) :
    Takes (m >>= f) p (v ++ w) result (events ++ more) := by
  intro rest
  have first := hm (w ++ rest)
  rw [List.append_assoc, Action.run_bind_ok (by rw [first]), first, hf rest]
  simp [Step.after, Nat.add_assoc]

theorem Takes.bind_error {e : ReadError} {events : List Event}
    (hm : Takes m p w (.error e) events) : Takes (m >>= f) p w (.error e) events := by
  intro rest
  have first := hm rest
  rw [Action.run_bind_error (by rw [first]), first]

theorem Takes.bind_nil {a : α} {result : Except ReadError β} {events : List Event}
    (hm : Takes m p [] (.ok a) []) (hf : Takes (f a) p w result events) :
    Takes (m >>= f) p w result events :=
  hm.bind hf

theorem Takes.bind_byte {g : UInt8 → Reader β} {b : UInt8} {result : Except ReadError β}
    {events : List Event} (hg : Takes (g b) (p + 1) w result events) :
    Takes (Reader.byte >>= g) p (b :: w) result events :=
  (Takes.byte b p).bind hg

theorem Takes.bind_position {g : Nat → Reader β} {result : Except ReadError β}
    {events : List Event} (hg : Takes (g p) p w result events) :
    Takes (Reader.position >>= g) p w result events :=
  (Takes.position p).bind_nil hg

theorem Takes.bind_emit {event : Event} {g : Unit → Reader β} {result : Except ReadError β}
    {events : List Event} (hg : Takes (g ()) p w result events) :
    Takes (Action.emit event >>= g) p w result (event :: events) :=
  (Takes.emit event p).bind hg

theorem Takes.bind_tail {a : α} {result : Except ReadError β} {events more : List Event}
    (hm : Takes m p w (.ok a) events) (hf : Takes (f a) (p + w.length) [] result more) :
    Takes (m >>= f) p w result (events ++ more) := by
  have takes := hm.bind hf
  rwa [List.append_nil] at takes

theorem Takes.bind_done {a : α} {result : Except ReadError β} {events : List Event}
    (hm : Takes m p w (.ok a) events) (hf : Takes (f a) (p + w.length) [] result []) :
    Takes (m >>= f) p w result events := by
  have takes := hm.bind_tail hf
  rwa [List.append_nil] at takes

section
variable {γ : Type} {size : Cursor → Nat} {body : γ → Reader (Round γ α)}
  {advances : ∀ c, Action.Advances size (body c)} {c next : γ}

theorem Takes.loop_again {result : Except ReadError α} {events more : List Event}
    (first : Takes (body c) p v (.ok (.again next)) events)
    (others : Takes (Action.loop size body advances next) (p + v.length) w result more) :
    Takes (Action.loop size body advances c) p (v ++ w) result (events ++ more) := by
  rw [Action.loop_eq]
  exact first.bind others

theorem Takes.loop_done {a : α} {events : List Event}
    (last : Takes (body c) p w (.ok (.done a)) events) :
    Takes (Action.loop size body advances c) p w (.ok a) events := by
  rw [Action.loop_eq]
  exact last.bind_done (.pure a _)

end

/-- What is taken off the front of given bytes is settled by those bytes. -/
theorem Takes.unique {result result' : Except ReadError α} {events events' : List Event}
    {rest rest' : List UInt8} (hv : Takes m p v result events)
    (hw : Takes m p w result' events') (same : v ++ rest = w ++ rest') :
    result = result' ∧ rest = rest' ∧ v = w := by
  have run := hv rest
  rw [same, hw rest'] at run
  simp only [Step.mk.injEq, Cursor.over, Cursor.mk.injEq, Source.ofBytes, List.cons.injEq,
    Segment.bytes.injEq] at run
  obtain ⟨rfl, ⟨⟨rfl, -⟩, -⟩, -⟩ := run
  exact ⟨rfl, rfl, List.append_cancel_right same⟩

-- ---------------------------------------------------------------------------
-- Running out of bytes
-- ---------------------------------------------------------------------------

/-- At position `p` the bytes are too few for the reader; it has taken them all. -/
def RunsOut (m : Reader α) (p : Nat) (data : List UInt8) : Prop :=
  ∃ events, m.run (.over data p) =
    ⟨.error (.endOfStream (p + data.length)), ⟨[], p + data.length⟩, events⟩

theorem RunsOut.bind (hm : RunsOut m p data) : RunsOut (m >>= f) p data := by
  obtain ⟨events, run⟩ := hm
  exact ⟨events, by rw [Action.run_bind_error (by rw [run]), run]⟩

theorem Takes.bind_runsOut {a : α} {events : List Event} (hm : Takes m p v (.ok a) events)
    (hf : RunsOut (f a) (p + v.length) data) : RunsOut (m >>= f) p (v ++ data) := by
  obtain ⟨more, run⟩ := hf
  have first := hm data
  refine ⟨events ++ more, ?_⟩
  rw [Action.run_bind_ok (by rw [first]), first, run]
  simp [Step.after, Nat.add_assoc]

def RunsOutWithin (m : Reader α) (p : Nat) (w : List UInt8) : Prop :=
  ∀ v t, w = v ++ t → t ≠ [] → RunsOut m p v

theorem RunsOutWithin.nil : RunsOutWithin m p [] := by
  intro v t h ht
  exact absurd (List.append_eq_nil_iff.1 h.symm).2 ht

def Short (m : Reader α) (p : Nat) (data : List UInt8) : Prop :=
  ∀ v t, data = v ++ t → RunsOut m p v

theorem RunsOutWithin.bind (hm : RunsOutWithin m p w) : RunsOutWithin (m >>= f) p w :=
  fun v t h ht => (hm v t h ht).bind

theorem Short.bind (hm : Short m p data) : Short (m >>= f) p data :=
  fun v t h => (hm v t h).bind

theorem front_cases {v t w x : List UInt8} (h : w ++ x = v ++ t) :
    (∃ u, w = v ++ u ∧ u ≠ [] ∧ t = u ++ x) ∨ ∃ u, v = w ++ u ∧ x = u ++ t := by
  rcases List.append_eq_append_iff.1 h with ⟨u, hv, hx⟩ | ⟨u, hw, ht⟩
  · exact .inr ⟨u, hv, hx⟩
  · cases u with
    | nil => exact .inr ⟨[], by simpa using hw.symm, by simpa using ht.symm⟩
    | cons b u => exact .inl ⟨b :: u, hw, by simp, ht⟩

theorem Takes.bind_runsOutWithin {a : α} {events : List Event}
    (hm : Takes m p v (.ok a) events) (hv : RunsOutWithin m p v)
    (hw : RunsOutWithin (f a) (p + v.length) w) : RunsOutWithin (m >>= f) p (v ++ w) := by
  intro x t h ht
  rcases front_cases h with ⟨u, hx, hu, -⟩ | ⟨u, rfl, hx⟩
  · exact (hv x u hx hu).bind
  · exact hm.bind_runsOut (hw u t hx ht)

theorem Takes.bind_short {a : α} {events : List Event} (hm : Takes m p v (.ok a) events)
    (hv : RunsOutWithin m p v) (hf : Short (f a) (p + v.length) data) :
    Short (m >>= f) p (v ++ data) := by
  intro x t h
  rcases front_cases h with ⟨u, hx, hu, -⟩ | ⟨u, rfl, hx⟩
  · exact (hv x u hx hu).bind
  · exact hm.bind_runsOut (hf u t hx)

-- ---------------------------------------------------------------------------
-- One of the two
-- ---------------------------------------------------------------------------

def Final (result : Except ReadError α) : Prop := ∀ e, result = .error e → e.isTruncation = false

/-- What the bytes at position `p` mean for the reader. -/
inductive Verdict (m : Reader α) (p : Nat) (data : List UInt8) : Prop
  | settled (w rest : List UInt8) (result : Except ReadError α) (events : List Event) :
      data = w ++ rest → Takes m p w result events → Final result → RunsOutWithin m p w →
      Verdict m p data
  | short : Short m p data → Verdict m p data

theorem Verdict.of_nil {result : Except ReadError α} {events : List Event}
    (hm : Takes m p [] result events) (final : Final result) : Verdict m p data :=
  .settled [] data result events rfl hm final .nil

theorem verdict_byte (p : Nat) (data : List UInt8) : Verdict byte p data := by
  cases data with
  | nil =>
    refine .short fun v t h => ?_
    obtain ⟨rfl, -⟩ := List.append_eq_nil_iff.1 h.symm
    exact ⟨[], rfl⟩
  | cons b data =>
    refine .settled [b] data (.ok b) [] rfl (.byte b p) (fun _ h => nomatch h) ?_
    intro v t h ht
    cases v with
    | nil => exact ⟨[], rfl⟩
    | cons _ v => simp_all

theorem verdict_law : Law fun _ m c => ∀ p data, c = .over data p → Verdict m p data where
  pure a _ p _ _ := .of_nil (.pure a p) fun _ h => nomatch h
  fail e _ he p _ _ := .of_nil (.fail e p) fun _ h => by cases h; exact he
  emit event _ p _ _ := .of_nil (.emit event p) fun _ h => nomatch h
  position _ p _ _ := .of_nil (.position p) fun _ h => nomatch h
  byte _ p data _ := verdict_byte p data
  bind := by
    rintro α β m f _ hm hf p data rfl
    cases hm p data rfl with
    | short hs => exact .short hs.bind
    | settled w rest result events split takes final within =>
      subst split
      have run := takes rest
      cases result with
      | error e =>
        refine .settled w rest (.error e) events rfl takes.bind_error ?_ within.bind
        exact fun _ h => final _ (by cases h; rfl)
      | ok a =>
        have next := hf a (by rw [run]) (p + w.length) rest (by rw [run])
        cases next with
        | short hs => exact .short (takes.bind_short within hs)
        | settled w' rest' result' events' split' takes' final' within' =>
          subst split'
          exact .settled (w ++ w') rest' result' _ (List.append_assoc ..).symm
            (takes.bind takes') final' (takes.bind_runsOutWithin within within')

theorem Plain.verdict (hm : Plain m) (p : Nat) (data : List UInt8) : Verdict m p data :=
  hm.law verdict_law (.over data p) p data rfl

end Reader

end Latitude
