import Latitude.Proofs.PlainReaders
import Latitude.Proofs.Tour

/-!
# Where a reading stands

What is kept whenever a byte is taken, and whenever the source is asked whether it is at
an end, is kept by every reading. So the bytes taken and the bytes left always add up to
the bytes of the source, and a reading that ends well has taken them all, unless the source
reported an end ahead of its last byte.
-/

namespace Latitude

-- ---------------------------------------------------------------------------
-- What reading keeps
-- ---------------------------------------------------------------------------

/-- A property of cursors that looking at the source does not change. -/
structure Cursor.Kept (P : Cursor → Prop) : Prop where
  takeByte : ∀ {c}, P c → P c.takeByte.state
  atEnd : ∀ {c}, P c → P c.atEnd.state

namespace Reader

variable {P : Cursor → Prop}

theorem kept_law (kept : Cursor.Kept P) : Law fun _ m c => P c → P (m.run c).state where
  pure _ _ h := h
  fail _ _ _ h := h
  emit _ _ h := h
  position _ h := h
  byte _ h := kept.takeByte h
  bind := by
    intro α β m f c hm hf h
    cases first : (m.run c).result with
    | error e => rw [Action.run_bind_error first]; exact hm h
    | ok a => rw [Action.run_bind_ok first]; exact hf a first (hm h)

theorem Plain.keeps {α : Type} {m : Reader α} (hm : Plain m) (kept : Cursor.Kept P) {c : Cursor}
    (h : P c) : P (m.run c).state :=
  hm.law (kept_law kept) c h

theorem block_keeps (kept : Cursor.Kept P) (index : Nat) (boundary : Boundary) {c : Cursor}
    (h : P c) : P ((block index boundary).run c).state := by
  have still : P (isExhausted.run c).state := kept.atEnd h
  rcases isExhausted_cases c with ⟨c', looked⟩ | ⟨c', looked⟩ | ⟨e, c', looked⟩ <;>
    rw [looked] at still
  · rw [block_of_end looked]
    exact still
  · rw [block_of_more looked]
    exact (foundBlock_plain index boundary).keeps kept still
  · rw [block_of_error looked]
    exact still

end Reader

namespace Disassembly

variable {P : Cursor → Prop} {walk : Disassembly}

theorem readBlock_keeps (kept : Cursor.Kept P) {result : Except ReadError (Option Block)}
    {c : Cursor} {events : List Event} (read : walk.readBlock = ⟨result, c, events⟩)
    (h : P walk.cursor) : P c := by
  have keeps := Reader.block_keeps kept walk.nextIndex walk.policy.boundary h
  unfold readBlock at read
  rwa [read] at keeps

theorem tour_keeps (kept : Cursor.Kept P) (unfinished : walk.finished = false)
    (h : P walk.cursor) : P walk.tour.last.cursor := by
  refine tour_induction (P := fun walk tour => P walk.cursor → P tour.last.cursor)
    ?_ ?_ ?_ walk unfinished h
  · intro walk c events _ read h
    exact readBlock_keeps kept read h
  · intro walk c events e _ read h
    exact readBlock_keeps kept read h
  · intro walk c events block _ read ih h
    exact ih (readBlock_keeps kept read h)

theorem start_keeps (kept : Cursor.Kept P) {policy : Policy} {source : Source}
    {result : Except ReadError Disassembly} {c : Cursor} {events : List Event}
    (started : start policy source = ⟨result, c, events⟩) (h : P { source }) : P c := by
  have keeps := (acceptedHeader_plain policy).keeps kept h
  have state : ((acceptedHeader policy).run { source }).state = c := congrArg Step.state started
  rwa [state] at keeps

end Disassembly

theorem Reading.keeps {P : Cursor → Prop} (kept : Cursor.Kept P) (policy : Policy)
    {source : Source} (h : P { source }) : P (ofSource policy source).cursor := by
  match started : Disassembly.start policy source with
  | ⟨.error e, c, events⟩ =>
    rw [ofSource_of_start_error started]
    exact Disassembly.start_keeps kept started h
  | ⟨.ok walk, c, events⟩ =>
    have fresh := Disassembly.eq_of_start started
    have opened : P walk.cursor := by
      rw [fresh]
      exact Disassembly.start_keeps kept started h
    rw [ofSource_of_start started]
    exact Disassembly.tour_keeps kept (by rw [fresh]) opened

-- ---------------------------------------------------------------------------
-- Position
-- ---------------------------------------------------------------------------

/-- The offset at which the cursor will have taken all bytes. -/
def Cursor.reach (c : Cursor) : Nat := c.position + c.remaining

theorem Cursor.reach_takeByte (c : Cursor) : c.takeByte.state.reach = c.reach := by
  cases taken : c.takeByte.result with
  | ok b =>
    have less := remaining_takeByte taken
    have moved : c.takeByte.state.position = c.position + 1 := by
      unfold takeByte at taken ⊢
      split at taken <;> simp_all
    simp only [reach]
    omega
  | error e =>
    have same := remaining_takeByte_of_error taken
    have stayed : c.takeByte.state.position = c.position := by
      unfold takeByte at taken ⊢
      split at taken <;> simp_all
    simp only [reach]
    omega

theorem Cursor.reach_atEnd (c : Cursor) : c.atEnd.state.reach = c.reach := by
  have same := remaining_atEnd c
  have stayed : c.atEnd.state.position = c.position := by
    unfold atEnd
    split <;> rfl
  simp only [reach]
  omega

theorem Cursor.reach_kept (n : Nat) : Kept (·.reach = n) where
  takeByte h := (reach_takeByte _).trans h
  atEnd h := (reach_atEnd _).trans h

theorem Cursor.reach_of_source (source : Source) :
    ({ source } : Cursor).reach = source.bytes.length := by
  simp [reach, remaining, Source.remaining_eq_length]

theorem Reader.Plain.reach_eq {α : Type} {m : Reader α} (hm : Plain m) (c : Cursor) :
    (m.run c).state.reach = c.reach :=
  hm.keeps (Cursor.reach_kept c.reach) rfl

theorem Reading.reach_eq (policy : Policy) (source : Source) :
    (ofSource policy source).cursor.reach = source.bytes.length :=
  Reading.keeps (Cursor.reach_kept _) policy (Cursor.reach_of_source source)

-- ---------------------------------------------------------------------------
-- Sources without an end of their own
-- ---------------------------------------------------------------------------

theorem Source.mem_request {segment : Segment} {source : Source} (h : segment ∈ source.request.2) :
    segment ∈ source := by
  fun_induction request source with
  | case1 => exact h
  | case2 rest ih => exact List.mem_cons_of_mem _ (ih h)
  | case3 => exact h
  | case4 rest => exact List.mem_cons_of_mem _ h
  | case5 fault rest _ ih => exact List.mem_cons_of_mem _ (ih h)
  | case6 fault rest _ => exact List.mem_cons_of_mem _ h

theorem Source.request_endless {source rest : Source} (endless : Segment.endOfFile ∉ source)
    (h : source.request = (.endOfFile, rest)) : rest = [] := by
  fun_induction request source with
  | case1 => simpa using h.symm
  | case4 => simp at endless
  | _ => simp_all

theorem Cursor.endless_kept : Kept (Segment.endOfFile ∉ ·.source) where
  takeByte := by
    intro c endless h
    refine endless (Source.mem_request ?_)
    unfold takeByte at h
    split at h <;> rename_i shown
    · obtain ⟨data, tail, rfl⟩ := Source.request_eq_byte shown
      rw [shown]
      simpa [Source.dropByte] using h
    all_goals
      rw [shown]
      exact h
  atEnd := by
    intro c endless h
    refine endless (Source.mem_request ?_)
    unfold atEnd at h
    split at h <;> rename_i shown <;> rw [shown] <;> exact h

theorem Reader.request_of_block_none {index : Nat} {boundary : Boundary} {c c' : Cursor}
    {events : List Event} (h : (block index boundary).run c = ⟨.ok none, c', events⟩) :
    c.source.request = (.endOfFile, c'.source) := by
  rcases isExhausted_cases c with ⟨c'', looked⟩ | ⟨c'', looked⟩ | ⟨e, c'', looked⟩
  · rw [block_of_end looked] at h
    cases h
    simp only [isExhausted, Cursor.atEnd] at looked
    split at looked <;> cases looked
    assumption
  · rw [block_of_more looked] at h
    obtain ⟨found, -, ⟨⟩⟩ := result_bind_ok (congrArg Step.result h)
  · rw [block_of_error looked] at h
    cases h

theorem Disassembly.source_tour_last {walk : Disassembly} (unfinished : walk.finished = false)
    (endless : Segment.endOfFile ∉ walk.cursor.source) (ended : walk.tour.outcome = .ok ()) :
    walk.tour.last.cursor.source = [] := by
  refine tour_induction (P := fun walk tour => Segment.endOfFile ∉ walk.cursor.source →
    tour.outcome = .ok () → tour.last.cursor.source = []) ?_ ?_ ?_ walk unfinished endless ended
  · intro walk c events _ read endless _
    exact Source.request_endless endless (Reader.request_of_block_none read)
  · intro walk c events e _ _ _ ended
    cases ended
  · intro walk c events block _ read ih endless ended
    exact ih (readBlock_keeps Cursor.endless_kept read endless) ended

/-- A reading that ends well has taken all bytes of a source that reports no end ahead of
them. -/
theorem Reading.position_eq_length {policy : Policy} {source : Source}
    (endless : Segment.endOfFile ∉ source) (ended : (ofSource policy source).outcome = .ok ()) :
    (ofSource policy source).position = source.bytes.length := by
  have reach := reach_eq policy source
  have nothing : (ofSource policy source).cursor.source = [] := by
    match started : Disassembly.start policy source with
    | ⟨.error e, c, events⟩ =>
      rw [ofSource_of_start_error started] at ended
      cases ended
    | ⟨.ok walk, c, events⟩ =>
      have fresh := Disassembly.eq_of_start started
      have left : Segment.endOfFile ∉ walk.cursor.source := by
        rw [fresh]
        exact Disassembly.start_keeps Cursor.endless_kept started endless
      rw [ofSource_of_start started] at ended ⊢
      exact Disassembly.source_tour_last (by rw [fresh]) left ended
  rw [Cursor.reach, Cursor.remaining, nothing] at reach
  exact reach

end Latitude
