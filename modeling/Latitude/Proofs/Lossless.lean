import Latitude.Listing

/-!
# Listings that lose nothing

Two lists of blocks with the same listing have the same indices and instructions. Words, the
parts of a line without blanks, commas, quotes and line ends, end where the next such
character stands. String arguments are the exception: a backslash is not escaped, so that
`"a\"` can be a whole string or the front of a longer one. What tells the two apart is the
text behind it. A quote that opens a string stands behind a blank, one inside a string
behind a backslash, so a text cannot be both what follows a string and the rest of one.
-/

namespace Latitude

namespace Text

variable {s t : List Char} {u v r r' : List Char}

-- ---------------------------------------------------------------------------
-- Words
-- ---------------------------------------------------------------------------

def inWord (c : Char) : Bool := c != ' ' && c != ',' && c != '\n' && c != '"'

def IsWord (cs : List Char) : Prop := ∀ c ∈ cs, inWord c = true

instance (cs : List Char) : Decidable (IsWord cs) :=
  decidable_of_iff (cs.all inWord = true) List.all_eq_true

def Breaks (cs : List Char) : Prop := ∀ c ∈ cs.head?, inWord c = false

theorem breaks_newline (r : List Char) : Breaks ('\n' :: r) := by
  simp [Breaks, inWord]

theorem takeWhile_word (word : IsWord u) (stop : Breaks r) : (u ++ r).takeWhile inWord = u := by
  rw [List.takeWhile_append_of_pos word]
  cases r with
  | nil => simp
  | cons c r => simp [stop c rfl]

theorem word_append_inj (hu : IsWord u) (hv : IsWord v) (hr : Breaks r) (hr' : Breaks r')
    (h : u ++ r = v ++ r') : u = v ∧ r = r' := by
  have same : u = v := by rw [← takeWhile_word hu hr, h, takeWhile_word hv hr']
  subst same
  exact ⟨rfl, List.append_cancel_left h⟩

theorem isWord_digits (n : Nat) : IsWord (Nat.toDigits 10 n) := by
  intro c hc
  have digit := Nat.isDigit_of_mem_toDigits (by decide) (by decide) hc
  simp only [inWord, Bool.and_eq_true, bne_iff_ne]
  refine ⟨⟨⟨?_, ?_⟩, ?_⟩, ?_⟩ <;> rintro rfl <;> exact absurd digit (by decide)

theorem toDigits_inj {m n : Nat} (h : Nat.toDigits 10 m = Nat.toDigits 10 n) : m = n := by
  have back := congrArg (Nat.ofDigitChars 10 · 0) h
  simpa using back

-- ---------------------------------------------------------------------------
-- Quoted strings
-- ---------------------------------------------------------------------------

/-- Every string in the text is closed, and stands behind a blank. -/
inductive Closed : List Char → Prop
  | nil : Closed []
  | plain {c : Char} {t : List Char} : c ≠ '"' → Closed t → Closed (c :: t)
  | quoted {s t : List Char} : Closed t → Closed (' ' :: '"' :: (escapeQuotes s ++ '"' :: t))

theorem escapeQuotes_plain {c : Char} (h : c ≠ '"') (s : List Char) :
    escapeQuotes (c :: s) = c :: escapeQuotes s := by
  simp [escapeQuotes, h]

theorem Closed.word (word : IsWord u) (h : Closed t) : Closed (u ++ t) := by
  induction u with
  | nil => exact h
  | cons c u ih =>
    refine .plain ?_ (ih fun d hd => word d (.tail _ hd))
    rintro rfl
    exact absurd (word '"' (.head _)) (by decide)

theorem not_closed_quote (t : List Char) : ¬ Closed ('"' :: t) := by
  rintro (_ | h)
  exact h rfl

theorem eq_of_quote_cons (h : '"' :: t = escapeQuotes s ++ '"' :: r) : s = [] ∧ t = r := by
  cases s with
  | nil => exact ⟨rfl, (List.cons.inj h).2⟩
  | cons c s =>
    by_cases quote : c = '"'
    · subst quote
      cases h
    · rw [escapeQuotes_plain quote] at h
      exact absurd (List.cons.inj h).1.symm quote

theorem Closed.ne_rest (ht : Closed t) (s : List Char) (hr : Closed r) :
    t ≠ escapeQuotes s ++ '"' :: r := by
  intro h
  induction size : t.length using Nat.strongRecOn generalizing s t r with
  | ind n ih =>
  subst size
  cases s with
  | nil =>
    subst h
    exact not_closed_quote _ ht
  | cons c s =>
    by_cases quote : c = '"'
    · subst quote
      cases ht with
      | nil => cases h
      | quoted => cases h
      | plain _ ht =>
        obtain ⟨rfl, rfl⟩ := List.cons.inj h
        exact not_closed_quote _ ht
    · rw [escapeQuotes_plain quote] at h
      cases ht with
      | nil => cases h
      | plain _ ht =>
        obtain ⟨rfl, rest⟩ := List.cons.inj h
        exact ih _ (by simp) ht s hr rest rfl
      | @quoted inner behind hb =>
        -- Here a string ends, and `inner` is both a string and what comes behind it.
        obtain ⟨-, rfl⟩ := eq_of_quote_cons (List.cons.inj h).2
        exact ih _ (by simp only [List.length_cons]; omega) hr inner hb rfl rfl

theorem quoted_append_inj (hr : Closed r) (hr' : Closed r')
    (h : escapeQuotes s ++ '"' :: r = escapeQuotes t ++ '"' :: r') : s = t ∧ r = r' := by
  induction s generalizing t with
  | nil =>
    obtain ⟨rfl, rfl⟩ := eq_of_quote_cons h
    exact ⟨rfl, rfl⟩
  | cons c s ih =>
    cases t with
    | nil =>
      obtain ⟨⟨⟩, -⟩ := eq_of_quote_cons h.symm
    | cons d t =>
      by_cases hc : c = '"' <;> by_cases hd : d = '"'
      · subst hc hd
        obtain ⟨rfl, rfl⟩ := ih (List.cons.inj (List.cons.inj h).2).2
        exact ⟨rfl, rfl⟩
      · -- One string goes on with a quote, the other one ends behind a backslash.
        subst hc
        rw [escapeQuotes_plain hd] at h
        obtain ⟨-, rfl⟩ := eq_of_quote_cons (List.cons.inj h).2
        exact absurd rfl (hr'.ne_rest s hr)
      · subst hd
        rw [escapeQuotes_plain hc] at h
        obtain ⟨-, rfl⟩ := eq_of_quote_cons (List.cons.inj h).2.symm
        exact absurd rfl (hr.ne_rest t hr')
      · rw [escapeQuotes_plain hc, escapeQuotes_plain hd] at h
        obtain ⟨rfl, rest⟩ := List.cons.inj h
        obtain ⟨rfl, rfl⟩ := ih rest
        exact ⟨rfl, rfl⟩

end Text

open Text (IsWord Breaks Closed)

-- ---------------------------------------------------------------------------
-- Names and numbers
-- ---------------------------------------------------------------------------

theorem Opcode.isWord_mnemonic (op : Opcode) : IsWord op.mnemonic.toList := by
  cases op <;> decide

theorem Opcode.mnemonic_inj {a b : Opcode} (h : a.mnemonic = b.mnemonic) : a = b := by
  have found (op : Opcode) : all.find? (·.mnemonic == op.mnemonic) = some op := by
    cases op <;> rfl
  have same := found a
  rw [h, found b] at same
  exact (Option.some.inj same).symm

theorem Register.isWord_name (r : Register) : IsWord r.name.toList := by
  cases r <;> decide

theorem Register.name_inj {a b : Register} (h : a.name = b.name) : a = b := by
  have found (r : Register) : all.find? (·.name == r.name) = some r := by
    cases r <;> rfl
  have same := found a
  rw [h, found b] at same
  exact (Option.some.inj same).symm

namespace Block

theorem toList_label (n : Nat) :
    (label n).toList = '<' :: '<' :: (Nat.toDigits 10 n ++ ['>', '>']) := by
  simp [label]

theorem isWord_label (n : Nat) : IsWord (label n).toList := by
  intro c hc
  simp only [toList_label, List.mem_cons, List.mem_append, List.not_mem_nil, or_false] at hc
  rcases hc with rfl | rfl | digit | rfl | rfl
  case inr.inr.inl => exact Text.isWord_digits n c digit
  all_goals decide

theorem label_inj {m n : Nat} (h : (label m).toList = (label n).toList) : m = n := by
  simp only [toList_label, List.cons.injEq, true_and, List.append_left_inj] at h
  exact Text.toDigits_inj h

end Block

theorem toList_int (n : Int) :
    (toString n).toList =
      if 0 ≤ n then Nat.toDigits 10 n.toNat else '-' :: Nat.toDigits 10 (-n).toNat := by
  rw [Int.toString_eq_repr, Int.repr_eq_if]
  split <;> simp

theorem isWord_int (n : Int) : IsWord (toString n).toList := by
  rw [toList_int]
  split
  · exact Text.isWord_digits _
  · exact List.forall_mem_cons.2 ⟨by decide, Text.isWord_digits _⟩

theorem int_inj {m n : Int} (h : (toString m).toList = (toString n).toList) : m = n := by
  have minus (k : Nat) (cs : List Char) : Nat.toDigits 10 k ≠ '-' :: cs := by
    intro h
    have digit := Nat.isDigit_of_mem_toDigits (by decide) (by decide) (h ▸ List.mem_cons_self)
    exact absurd digit (by decide)
  rw [toList_int, toList_int] at h
  split at h <;> split at h
  · have same := Text.toDigits_inj h
    omega
  · exact absurd h (minus _ _)
  · exact absurd h.symm (minus _ _)
  · have same := Text.toDigits_inj (List.cons.inj h).2
    omega

-- ---------------------------------------------------------------------------
-- Arguments
-- ---------------------------------------------------------------------------

namespace Arg

variable {a b : Arg} {as bs : List Arg} {r r' : List Char}

theorem toList_listing_string (s : String) :
    (listing (.string s)).toList = '"' :: (Text.escapeQuotes s.toList ++ ['"']) := by
  simp [listing, Text.quote]

theorem isWord_listing (h : a.kind ≠ .string) : IsWord a.listing.toList := by
  cases a with
  | integer n => exact isWord_int n
  | string => exact absurd rfl h
  | register r => exact r.isWord_name
  | method m => exact Block.isWord_label m.index.toNat

theorem closed_listing (a : Arg) (h : Closed r) : Closed (' ' :: (a.listing.toList ++ r)) := by
  by_cases string : a.kind = .string
  · cases a with
    | string s =>
      rw [toList_listing_string]
      simpa using Closed.quoted (s := s.toList) h
    | _ => cases string
  · exact .plain (by decide) (h.word (isWord_listing string))

theorem listing_append_inj (kind : a.kind = b.kind) (hr : Closed r) (hr' : Closed r')
    (stop : Breaks r) (stop' : Breaks r')
    (h : a.listing.toList ++ r = b.listing.toList ++ r') : a = b ∧ r = r' := by
  by_cases string : a.kind = .string
  · cases a <;> cases b <;> simp [Arg.kind] at kind string
    rename_i s t
    simp only [toList_listing_string, List.cons_append, List.append_assoc, List.nil_append,
      List.cons.injEq, true_and] at h
    obtain ⟨same, rest⟩ := Text.quoted_append_inj hr hr' h
    exact ⟨congrArg Arg.string (String.toList_inj.1 same), rest⟩
  · obtain ⟨same, rest⟩ := Text.word_append_inj (isWord_listing string)
      (isWord_listing (kind ▸ string)) stop stop' h
    refine ⟨?_, rest⟩
    cases a <;> cases b <;> simp [Arg.kind] at kind string
    · exact congrArg Arg.integer (int_inj same)
    · exact congrArg Arg.register (Register.name_inj (String.toList_inj.1 same))
    · have index := UInt32.toNat_inj.1 (Block.label_inj same)
      exact congrArg (fun index => Arg.method ⟨index⟩) index

def tailChars (args : List Arg) : List Char := args.flatMap fun a => ',' :: ' ' :: a.listing.toList

theorem toList_intercalate (a : Arg) (args : List Arg) :
    (", ".intercalate ((a :: args).map listing)).toList = a.listing.toList ++ tailChars args := by
  induction args generalizing a with
  | nil => simp [tailChars]
  | cons b args ih =>
    have rest := ih b
    simp only [List.map_cons, String.intercalate_cons_cons, String.toList_append] at rest ⊢
    simp [rest, tailChars]

theorem closed_tailChars (as : List Arg) (h : Closed r) : Closed (tailChars as ++ r) := by
  induction as with
  | nil => exact h
  | cons a as ih =>
    have rest := a.closed_listing ih
    simpa [tailChars] using Closed.plain (c := ',') (by decide) rest

theorem breaks_tailChars (as : List Arg) (h : Breaks r) : Breaks (tailChars as ++ r) := by
  cases as with
  | nil => exact h
  | cons a as => simp [tailChars, Breaks, Text.inWord]

theorem tailChars_append_inj (kinds : as.map Arg.kind = bs.map Arg.kind) (hr : Closed r)
    (hr' : Closed r') (stop : Breaks r) (stop' : Breaks r')
    (h : tailChars as ++ r = tailChars bs ++ r') : as = bs ∧ r = r' := by
  induction as generalizing bs with
  | nil =>
    obtain rfl : bs = [] := by simpa using kinds.symm
    exact ⟨rfl, h⟩
  | cons a as ih =>
    cases bs with
    | nil => cases kinds
    | cons b bs =>
      obtain ⟨kind, later⟩ := List.cons.inj kinds
      simp only [tailChars, List.flatMap_cons, List.cons_append, List.append_assoc,
        List.cons.injEq, true_and] at h
      obtain ⟨rfl, rest⟩ := listing_append_inj kind (closed_tailChars as hr)
        (closed_tailChars bs hr') (breaks_tailChars as stop) (breaks_tailChars bs stop') h
      obtain ⟨rfl, rfl⟩ := ih later rest
      exact ⟨rfl, rfl⟩

end Arg

-- ---------------------------------------------------------------------------
-- Lines and blocks
-- ---------------------------------------------------------------------------

namespace Instruction

variable {i j : Instruction} {is js : List Instruction} {r r' : List Char}

def argChars (i : Instruction) : List Char :=
  match i.args with
  | [] => []
  | a :: args => ' ' :: (a.listing.toList ++ Arg.tailChars args)

theorem toList_listing (i : Instruction) :
    i.listing.toList = i.opcode.mnemonic.toList ++ i.argChars := by
  obtain ⟨opcode, args, fits⟩ := i
  cases args with
  | nil => simp [listing, argChars]
  | cons a args =>
    simp only [listing, argChars, String.toList_append, Arg.toList_intercalate]
    simp

theorem closed_argChars (i : Instruction) (h : Closed r) : Closed (i.argChars ++ r) := by
  unfold argChars
  split
  · exact h
  · rename_i a args _
    have rest := a.closed_listing (Arg.closed_tailChars args h)
    simpa using rest

theorem breaks_argChars (i : Instruction) (h : Breaks r) : Breaks (i.argChars ++ r) := by
  unfold argChars
  split
  · exact h
  · simp [Breaks, Text.inWord]

def lineChars (i : Instruction) : List Char := ' ' :: ' ' :: (i.listing.toList ++ ['\n'])

theorem closed_lineChars (i : Instruction) (h : Closed r) : Closed (i.lineChars ++ r) := by
  have line : Closed (i.argChars ++ '\n' :: r) := i.closed_argChars (.plain (by decide) h)
  have indented := Closed.plain (c := ' ') (by decide)
    (.plain (c := ' ') (by decide) (line.word i.opcode.isWord_mnemonic))
  simpa [lineChars, toList_listing] using indented

theorem argChars_append_inj (opcode : i.opcode = j.opcode) (hr : Closed r) (hr' : Closed r')
    (stop : Breaks r) (stop' : Breaks r') (h : i.argChars ++ r = j.argChars ++ r') :
    i = j ∧ r = r' := by
  obtain ⟨op, as, fits⟩ := i
  obtain ⟨_, bs, fits'⟩ := j
  obtain rfl : op = _ := opcode
  have kinds : as.map Arg.kind = bs.map Arg.kind := fits.trans fits'.symm
  cases as with
  | nil =>
    obtain rfl : bs = [] := by simpa using kinds.symm
    exact ⟨rfl, h⟩
  | cons a as =>
    cases bs with
    | nil => cases kinds
    | cons b bs =>
      obtain ⟨kind, later⟩ := List.cons.inj kinds
      simp only [argChars, List.cons_append, List.append_assoc, List.cons.injEq, true_and] at h
      obtain ⟨rfl, rest⟩ := Arg.listing_append_inj kind (Arg.closed_tailChars as hr)
        (Arg.closed_tailChars bs hr') (Arg.breaks_tailChars as stop)
        (Arg.breaks_tailChars bs stop') h
      obtain ⟨rfl, rfl⟩ := Arg.tailChars_append_inj later hr hr' stop stop' rest
      exact ⟨rfl, rfl⟩

theorem lineChars_append_inj (hr : Closed r) (hr' : Closed r')
    (h : i.lineChars ++ r = j.lineChars ++ r') : i = j ∧ r = r' := by
  simp only [lineChars, toList_listing, List.cons_append, List.append_assoc, List.nil_append,
    List.cons.injEq, true_and] at h
  obtain ⟨mnemonic, rest⟩ := Text.word_append_inj i.opcode.isWord_mnemonic
    j.opcode.isWord_mnemonic (i.breaks_argChars (Text.breaks_newline r))
    (j.breaks_argChars (Text.breaks_newline r')) h
  have opcode := Opcode.mnemonic_inj (String.toList_inj.1 mnemonic)
  obtain ⟨rfl, behind⟩ := argChars_append_inj opcode (hr.plain (by decide))
    (hr'.plain (by decide)) (Text.breaks_newline r) (Text.breaks_newline r') rest
  exact ⟨rfl, (List.cons.inj behind).2⟩

theorem closed_lines (is : List Instruction) (h : Closed r) :
    Closed (is.flatMap lineChars ++ r) := by
  induction is with
  | nil => exact h
  | cons i is ih => simpa using i.closed_lineChars ih

/-- The lines of a block end where no blank follows. -/
theorem lines_append_inj (hr : Closed r) (hr' : Closed r') (stop : r.head? ≠ some ' ')
    (stop' : r'.head? ≠ some ' ') (h : is.flatMap lineChars ++ r = js.flatMap lineChars ++ r') :
    is = js ∧ r = r' := by
  induction is generalizing js with
  | nil =>
    cases js with
    | nil => exact ⟨rfl, h⟩
    | cons j js =>
      obtain rfl : r = _ := h
      exact absurd rfl stop
  | cons i is ih =>
    cases js with
    | nil =>
      obtain rfl : _ = r' := h
      exact absurd rfl stop'
    | cons j js =>
      simp only [List.flatMap_cons, List.append_assoc] at h
      obtain ⟨rfl, rest⟩ := lineChars_append_inj (closed_lines is hr) (closed_lines js hr') h
      obtain ⟨rfl, rfl⟩ := ih rest
      exact ⟨rfl, rfl⟩

end Instruction

namespace Block

theorem toList_listing (b : Block) :
    b.listing.toList =
      (label b.index).toList ++ '\n' :: b.instructions.flatMap Instruction.lineChars := by
  have line : Instruction.lineChars = fun i => ' ' :: ' ' :: (i.listing.toList ++ ['\n']) := rfl
  simp [listing, String.toList_join, List.flatMap_map, line]

theorem closed_listings (bs : List Block) : Closed (bs.flatMap (·.listing.toList)) := by
  induction bs with
  | nil => exact .nil
  | cons b bs ih =>
    have lines := Instruction.closed_lines b.instructions ih
    have block := (Closed.plain (c := '\n') (by decide) lines).word (isWord_label b.index)
    simpa [toList_listing] using block

theorem head?_listings (bs : List Block) : (bs.flatMap (·.listing.toList)).head? ≠ some ' ' := by
  cases bs with
  | nil => simp
  | cons b bs => simp [toList_listing, toList_label]

theorem listings_inj {as bs : List Block}
    (h : as.flatMap (·.listing.toList) = bs.flatMap (·.listing.toList)) :
    as.map (fun b => (b.index, b.instructions)) = bs.map fun b => (b.index, b.instructions) := by
  induction as generalizing bs with
  | nil =>
    cases bs with
    | nil => rfl
    | cons b bs => simp [toList_listing, toList_label] at h
  | cons a as ih =>
    cases bs with
    | nil => simp [toList_listing, toList_label] at h
    | cons b bs =>
      simp only [List.flatMap_cons] at h
      rw [toList_listing, toList_listing, List.append_assoc, List.append_assoc] at h
      obtain ⟨label, behind⟩ := Text.word_append_inj (isWord_label _) (isWord_label _)
        (Text.breaks_newline _) (Text.breaks_newline _) h
      have lines := (List.cons.inj behind).2
      obtain ⟨instructions, rest⟩ := Instruction.lines_append_inj (closed_listings as)
        (closed_listings bs) (head?_listings as) (head?_listings bs) lines
      simp [label_inj label, instructions, ih rest]

end Block

/-- A listing of blocks shows their indices and instructions, and nothing else of them: the
listings of two lists are the same exactly when the lists have, block by block, the same
indices and the same instructions. -/
theorem block_listings_eq_iff (as bs : List Block) :
    String.join (as.map Block.listing) = String.join (bs.map Block.listing) ↔
      as.map (fun b => (b.index, b.instructions)) = bs.map fun b => (b.index, b.instructions) := by
  constructor
  · intro h
    have chars := congrArg String.toList h
    simp only [String.toList_join, List.flatMap_map] at chars
    exact Block.listings_inj chars
  · intro h
    let shown (content : Nat × List Instruction) : String :=
      Block.label content.1 ++ "\n" ++
        String.join (content.2.map fun i => "  " ++ i.listing ++ "\n")
    have lines := congrArg (fun contents => String.join (contents.map shown)) h
    simp only [List.map_map] at lines
    exact lines

end Latitude
