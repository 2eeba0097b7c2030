import Latitude.Program.Basic

/-!
# What command lines say

A command line that is accepted is a list of items and, if the word `--` is in it, the files
behind that. An item is a file, an option, or an option and its value; it takes one word or two.
What the options come to can be told from the items: the files, whether blocks are to be strict,
which version is expected, and how much is logged.

`readWords_words`: reading the words of a line follows its items one by one.
`exists_commandLine`: no other words are accepted.
-/

namespace Latitude

-- ---------------------------------------------------------------------------
-- Words
-- ---------------------------------------------------------------------------

namespace Word

variable {text : String}

theorem eq_of_ofText_plain {name : String} (h : ofText text = .plain name) : name = text := by
  unfold ofText at h
  split at h
  · cases h
  · cases h
  · cases h
  · cases h
    rfl

theorem eq_of_ofText_endOfOptions (h : ofText text = .endOfOptions) : text = "--" := by
  unfold ofText at h
  split at h
  · rename_i spelled
    rw [← @String.ofList_toList text, spelled]
  · cases h
  · cases h
  · cases h

theorem eq_of_ofText_short {letters : List Char} (h : ofText text = .short letters) :
    text = String.ofList ('-' :: letters) ∧ letters ≠ [] := by
  unfold ofText at h
  split at h
  · cases h
  · cases h
  · rename_i spelled
    cases h
    rw [← spelled, String.ofList_toList]
    exact ⟨rfl, List.cons_ne_nil _ _⟩
  · cases h

theorem eq_of_ofText_long {name : String} {value : Option String}
    (h : ofText text = .long name value) :
    text = "--" ++ name ++ (value.map ("=" ++ ·)).getD "" := by
  unfold ofText at h
  split at h
  · cases h
  · rename_i body _ spelled
    cases h
    have split := @List.takeWhile_append_dropWhile _ (· != '=') body
    rw [← @String.ofList_toList text, spelled]
    have first := @List.head?_dropWhile_not _ (· != '=') body
    apply String.toList_injective
    cases behind : body.dropWhile (· != '=') with
    | nil =>
      rw [behind, List.append_nil] at split
      simp [split]
    | cons c value =>
      rw [behind] at split first
      have sign : c = '=' := by simpa using first
      rw [sign] at split
      simp [split]
  · cases h
  · cases h

theorem ofText_expectVersion (text : String) :
    ofText ("--expect-version=" ++ text) = .long "expect-version" (some text) := by
  have spelled : ("--expect-version=" ++ text).toList =
      '-' :: '-' :: ("expect-version".toList ++ '=' :: text.toList) := by
    simp
  simp [ofText, spelled]

theorem ofText_letters (letter : Char) (letters : List Char) (other : letter ≠ '-') :
    ofText (String.ofList ('-' :: letter :: letters)) = .short (letter :: letters) := by
  simp [ofText, other]

end Word

-- ---------------------------------------------------------------------------
-- Items
-- ---------------------------------------------------------------------------

/-- What a word of a command line says, or an option together with the word behind it. -/
inductive Item
  | file (name : String) (plain : Word.ofText name = .plain name)
  | strictBlocks
  | version (text : String) (n : Int) (reads : Text.readInt64? text = some n)
      (apart : text.toList.head? ≠ some '-')
  | joinedVersion (text : String) (n : Int) (reads : Text.readInt64? text = some n)
  | verbose
  /-- One letter, and so many more of them in the same word. -/
  | verboseLetters (more : Nat)

namespace Item

def words : Item → List String
  | .file name _ => [name]
  | .strictBlocks => ["--strict-blocks"]
  | .version text .. => ["--expect-version", text]
  | .joinedVersion text .. => ["--expect-version=" ++ text]
  | .verbose => ["--verbose"]
  | .verboseLetters more => [String.ofList ('-' :: List.replicate (more + 1) 'v')]

def file? : Item → Option String
  | .file name _ => some name
  | _ => none

def isStrict : Item → Bool
  | .strictBlocks => true
  | _ => false

def version? : Item → Option Int
  | .version _ n .. | .joinedVersion _ n _ => some n
  | _ => none

def isVerbosity : Item → Bool
  | .verbose | .verboseLetters _ => true
  | _ => false

end Item

namespace Options

theorem bind_ok {α β : Type} {x : Except Stop α} {f : α → Except Stop β} {b : β} :
    x >>= f = .ok b ↔ ∃ a, x = .ok a ∧ f a = .ok b := by
  cases x <;> simp [bind, Except.bind]

def follow (options : Options) : Item → Except Stop Options
  | .file name _ => options.setFile name
  | .strictBlocks => options.setStrictBlocks
  | .version text .. | .joinedVersion text .. => options.setExpectedVersion text
  | .verbose => .ok options.raiseVerbosity
  | .verboseLetters more => .ok { options with verbosity := options.verbosity + (more + 1) }

theorem readLetters_verbose (options : Options) (count : Nat) :
    options.readLetters (List.replicate count 'v') =
      .ok { options with verbosity := options.verbosity + count } := by
  induction count generalizing options with
  | zero => rfl
  | succ count ih =>
    rw [List.replicate_succ, readLetters, ih]
    simp [raiseVerbosity, Nat.add_assoc, Nat.add_comm 1]

theorem readWords_item (options : Options) (item : Item) (rest : List String) :
    options.readWords (item.words ++ rest) =
      options.follow item >>= fun next => next.readWords rest := by
  rw [readWords.eq_def]
  cases item with
  | file name plain =>
    simp only [Item.words, List.cons_append, List.nil_append, plain]
    rfl
  | strictBlocks =>
    have word : Word.ofText "--strict-blocks" = .long "strict-blocks" none := by decide
    simp only [Item.words, List.cons_append, List.nil_append, word]
    rfl
  | version text n reads apart =>
    have word : Word.ofText "--expect-version" = .long "expect-version" none := by decide
    simp only [Item.words, List.cons_append, List.nil_append, word, if_neg apart]
    rfl
  | joinedVersion text n reads =>
    simp only [Item.words, List.cons_append, List.nil_append, Word.ofText_expectVersion]
    rfl
  | verbose =>
    have word : Word.ofText "--verbose" = .long "verbose" none := by decide
    simp only [Item.words, List.cons_append, List.nil_append, word]
    rfl
  | verboseLetters more =>
    have word := Word.ofText_letters 'v' (List.replicate more 'v') (by decide)
    have letters := options.readLetters_verbose (more + 1)
    rw [List.replicate_succ] at letters
    simp only [Item.words, List.cons_append, List.nil_append, List.replicate_succ, word, letters]
    rfl

theorem all_verbose_of_readLetters {options next : Options} {letters : List Char}
    (h : options.readLetters letters = .ok next) :
    letters = List.replicate letters.length 'v' := by
  fun_induction readLetters options letters with
  | case1 => rfl
  | case2 options letters ih => rw [List.length_cons, List.replicate_succ, ← ih h]
  | case3 | case4 | case5 => cases h

theorem reads_of_setExpectedVersion {options next : Options} {text : String}
    (h : options.setExpectedVersion text = .ok next) : ∃ n, Text.readInt64? text = some n := by
  unfold setExpectedVersion at h
  split at h
  · exact ⟨_, by assumption⟩
  · cases h

end Options

-- ---------------------------------------------------------------------------
-- Lines
-- ---------------------------------------------------------------------------

structure CommandLine where
  items : List Item
  /-- The files behind the end of the options, if that is marked. -/
  behind : Option (List String) := none

namespace CommandLine

def words (line : CommandLine) : List String :=
  line.items.flatMap Item.words ++ (line.behind.map ("--" :: ·)).getD []

def files (line : CommandLine) : List String :=
  line.items.filterMap Item.file? ++ line.behind.getD []

/-- The version is the one that is given, or else 1000. -/
def policy (line : CommandLine) : Policy where
  expectedVersion := (line.items.findSome? Item.version?).getD 1000
  boundary := if line.items.any Item.isStrict then .strict else .lax

def read (line : CommandLine) (options : Options) : Except Stop Options :=
  line.items.foldlM Options.follow options >>= fun next => next.readFiles (line.behind.getD [])

def cons (item : Item) (line : CommandLine) : CommandLine :=
  { line with items := item :: line.items }

theorem words_cons (item : Item) (line : CommandLine) :
    (line.cons item).words = item.words ++ line.words := by
  simp [words, cons]

theorem read_cons (item : Item) (line : CommandLine) (options : Options) :
    (line.cons item).read options = options.follow item >>= line.read := by
  simp only [read, cons, List.foldlM_cons, bind_assoc]
  rfl

theorem readWords_words (line : CommandLine) (options : Options) :
    options.readWords line.words = line.read options := by
  obtain ⟨items, behind⟩ := line
  induction items generalizing options with
  | nil =>
    cases behind with
    | none => rfl
    | some files =>
      have word : Word.ofText "--" = .endOfOptions := by decide
      rw [Options.readWords.eq_def]
      simp only [words, List.flatMap_nil, List.nil_append, Option.map_some, Option.getD_some, word]
      rfl
  | cons item items ih =>
    have line : (⟨item :: items, behind⟩ : CommandLine) = cons item ⟨items, behind⟩ := rfl
    rw [line, words_cons, read_cons, Options.readWords_item]
    exact congrArg _ (funext ih)

/-- Every word of a line that is accepted is part of an item, or marks the end of the options,
or is behind that. -/
theorem exists_commandLine {options next : Options} {words : List String}
    (h : options.readWords words = .ok next) : ∃ line : CommandLine, line.words = words := by
  -- An item ahead of a line.
  have put (item : Item) {rest : List String} (found : ∃ line : CommandLine, line.words = rest) :
      ∃ line : CommandLine, line.words = item.words ++ rest := by
    obtain ⟨line, rfl⟩ := found
    exact ⟨line.cons item, words_cons item line⟩
  fun_induction Options.readWords options words with
  | case1 => exact ⟨⟨[], none⟩, rfl⟩
  | case2 options word rest file plain ih =>
    obtain rfl := Word.eq_of_ofText_plain plain
    obtain ⟨o, -, h⟩ := Options.bind_ok.1 h
    exact put (.file file plain) (ih o h)
  | case3 options word rest letters short ih =>
    obtain ⟨rfl, nonempty⟩ := Word.eq_of_ofText_short short
    obtain ⟨o, given, h⟩ := Options.bind_ok.1 h
    obtain ⟨more, count⟩ := Nat.exists_eq_succ_of_ne_zero (mt List.length_eq_zero_iff.1 nonempty)
    rw [Options.all_verbose_of_readLetters given, count]
    exact put (.verboseLetters more) (ih o h)
  | case4 options word rest ends =>
    obtain rfl := Word.eq_of_ofText_endOfOptions ends
    exact ⟨⟨[], some rest⟩, rfl⟩
  | case7 options word rest long ih =>
    obtain rfl := Word.eq_of_ofText_long long
    exact put .verbose (ih h)
  | case8 options word rest long ih =>
    obtain rfl := Word.eq_of_ofText_long long
    obtain ⟨o, -, h⟩ := Options.bind_ok.1 h
    exact put .strictBlocks (ih o h)
  | case9 options word rest text long ih =>
    obtain rfl := Word.eq_of_ofText_long long
    obtain ⟨o, given, h⟩ := Options.bind_ok.1 h
    obtain ⟨n, reads⟩ := Options.reads_of_setExpectedVersion given
    exact put (.joinedVersion text n reads) (ih o h)
  | case12 options word long text rest apart ih =>
    obtain rfl := Word.eq_of_ofText_long long
    obtain ⟨o, given, h⟩ := Options.bind_ok.1 h
    obtain ⟨n, reads⟩ := Options.reads_of_setExpectedVersion given
    exact put (.version text n reads apart) (ih o h)
  | case5 | case6 | case10 | case11 | case13 => cases h

end CommandLine

-- ---------------------------------------------------------------------------
-- What lines come to
-- ---------------------------------------------------------------------------

namespace Options

variable {options next : Options} {item : Item}

theorem of_setFile {file : String} (h : options.setFile file = .ok next) :
    next = { options with file := some file } ∧ options.file = none := by
  unfold setFile at h
  split at h
  · cases h
  · rename_i free
    cases h
    exact ⟨rfl, by simp_all⟩

theorem of_follow (h : options.follow item = .ok next) :
    next.file.toList = options.file.toList ++ item.file?.toList ∧
    next.strictBlocks = (options.strictBlocks || item.isStrict) ∧
    next.expectedVersion = options.expectedVersion.or item.version? := by
  cases item with
  | file name plain =>
    obtain ⟨rfl, free⟩ := of_setFile h
    simp [free, Item.file?, Item.isStrict, Item.version?]
  | strictBlocks =>
    simp only [follow, setStrictBlocks] at h
    split at h
    · cases h
    · cases h
      simp [Item.file?, Item.isStrict, Item.version?]
  | version text n reads | joinedVersion text n reads =>
    simp only [follow, setExpectedVersion, reads] at h
    split at h
    · rename_i free given
      cases h
      cases given
      simp [free, Item.file?, Item.isStrict, Item.version?]
    · cases h
  | verbose | verboseLetters =>
    cases h
    simp [Item.file?, Item.isStrict, Item.version?, raiseVerbosity]

theorem of_readFiles {files : List String} (h : options.readFiles files = .ok next) :
    next.file.toList = options.file.toList ++ files ∧
    next.strictBlocks = options.strictBlocks ∧ next.expectedVersion = options.expectedVersion := by
  induction files generalizing options with
  | nil =>
    cases h
    simp
  | cons file files ih =>
    obtain ⟨o, given, h⟩ := bind_ok.1 h
    obtain ⟨rfl, free⟩ := of_setFile given
    simpa [free] using ih h

theorem of_foldlM_follow {items : List Item} (h : items.foldlM follow options = .ok next) :
    next.file.toList = options.file.toList ++ items.filterMap Item.file? ∧
    next.strictBlocks = (options.strictBlocks || items.any Item.isStrict) ∧
    next.expectedVersion = options.expectedVersion.or (items.findSome? Item.version?) := by
  induction items generalizing options with
  | nil =>
    cases h
    simp
  | cons item items ih =>
    rw [List.foldlM_cons] at h
    obtain ⟨o, given, h⟩ := bind_ok.1 h
    obtain ⟨file, strict, version⟩ := of_follow given
    obtain ⟨file', strict', version'⟩ := ih h
    refine ⟨?_, ?_, ?_⟩
    · rw [file', file, List.append_assoc]
      cases named : item.file? <;> simp [named]
    · rw [strict', strict, List.any_cons, Bool.or_assoc]
    · rw [version', version, Option.or_assoc]
      cases given : item.version? <;> simp [given]

def OnlyMisuse {α : Type} (x : Except Stop α) : Prop := ∀ stop, x = .error stop → stop = .misuse

theorem OnlyMisuse.bind {α β : Type} {x : Except Stop α} {f : α → Except Stop β}
    (hx : OnlyMisuse x) (hf : ∀ a, OnlyMisuse (f a)) : OnlyMisuse (x >>= f) := by
  cases x with
  | ok a => exact hf a
  | error stop =>
    rintro _ ⟨⟩
    exact hx stop rfl

theorem setFile_onlyMisuse (options : Options) (file : String) :
    OnlyMisuse (options.setFile file) := by
  unfold setFile
  split <;> rintro _ ⟨⟩
  rfl

theorem follow_onlyMisuse (options : Options) (item : Item) :
    OnlyMisuse (options.follow item) := by
  cases item with
  | file name plain => exact setFile_onlyMisuse options name
  | strictBlocks =>
    simp only [follow, setStrictBlocks]
    split <;> rintro _ ⟨⟩
    rfl
  | version | joinedVersion =>
    simp only [follow, setExpectedVersion]
    split <;> rintro _ ⟨⟩
    rfl
  | verbose | verboseLetters => exact nofun

theorem readFiles_onlyMisuse (options : Options) (files : List String) :
    OnlyMisuse (options.readFiles files) := by
  induction files generalizing options with
  | nil => exact nofun
  | cons file files ih => exact (setFile_onlyMisuse options file).bind ih

theorem foldlM_follow_onlyMisuse (options : Options) (items : List Item) :
    OnlyMisuse (items.foldlM follow options) := by
  induction items generalizing options with
  | nil => exact nofun
  | cons item items ih =>
    rw [List.foldlM_cons]
    exact (follow_onlyMisuse options item).bind ih

-- ---------------------------------------------------------------------------
-- Verbosity
-- ---------------------------------------------------------------------------

def quiet (options : Options) : Options := { options with verbosity := 0 }

theorem quiet_setFile (options : Options) (file : String) :
    options.quiet.setFile file = (options.setFile file).map quiet := by
  unfold setFile
  split <;> rename_i h
  · rw [if_pos (show options.file.isSome || file.isEmpty from h)]
    rfl
  · rw [if_neg (show ¬ (options.file.isSome || file.isEmpty) from h)]
    rfl

theorem quiet_follow (options : Options) (item : Item) (h : item.isVerbosity = false) :
    options.quiet.follow item = (options.follow item).map quiet := by
  obtain ⟨file, strict, version, verbosity⟩ := options
  cases item with
  | file name plain => exact quiet_setFile _ name
  | strictBlocks => cases strict <;> rfl
  | version text n reads | joinedVersion text n reads =>
    cases version <;> simp only [follow, setExpectedVersion, quiet, reads] <;> rfl
  | verbose | verboseLetters => cases h

theorem quiet_of_verbosity {item : Item} (h : item.isVerbosity = true) (options : Options) :
    ∃ next, options.follow item = .ok next ∧ next.quiet = options.quiet := by
  cases item with
  | verbose | verboseLetters => exact ⟨_, rfl, rfl⟩
  | file | strictBlocks | version | joinedVersion => cases h

theorem quiet_readFiles (options : Options) (files : List String) :
    options.quiet.readFiles files = (options.readFiles files).map quiet := by
  induction files generalizing options with
  | nil => rfl
  | cons file files ih =>
    rw [readFiles, readFiles, quiet_setFile]
    cases options.setFile file with
    | error stop => rfl
    | ok next => exact ih next

theorem quiet_foldlM_follow (options : Options) (items : List Item) :
    (items.filter (!·.isVerbosity)).foldlM follow options.quiet =
      (items.foldlM follow options).map quiet := by
  induction items generalizing options with
  | nil => rfl
  | cons item items ih =>
    rw [List.foldlM_cons]
    cases verbosity : item.isVerbosity with
    | true =>
      obtain ⟨next, given, same⟩ := quiet_of_verbosity verbosity options
      rw [List.filter_cons_of_neg (by simp [verbosity]), given, ← same]
      exact ih next
    | false =>
      rw [List.filter_cons_of_pos (by simp [verbosity]), List.foldlM_cons,
        quiet_follow options item verbosity]
      cases options.follow item with
      | error stop => rfl
      | ok next => exact ih next

end Options

namespace CommandLine

theorem of_read {line : CommandLine} {options : Options} (h : line.read {} = .ok options) :
    options.file.toList = line.files ∧ options.policy = line.policy := by
  obtain ⟨o, given, h⟩ := Options.bind_ok.1 h
  obtain ⟨file, strict, version⟩ := Options.of_foldlM_follow given
  obtain ⟨file', strict', version'⟩ := Options.of_readFiles h
  refine ⟨?_, ?_⟩
  · rw [file', file]
    rfl
  · rw [Options.policy, strict', strict, version', version]
    simp [policy, Header.currentVersion]

theorem read_onlyMisuse (line : CommandLine) (options : Options) :
    Options.OnlyMisuse (line.read options) :=
  (Options.foldlM_follow_onlyMisuse options line.items).bind fun next =>
    next.readFiles_onlyMisuse _

/-- The items of a line that do not ask for more log. -/
def essential (line : CommandLine) : CommandLine :=
  { line with items := line.items.filter (!·.isVerbosity) }

theorem read_essential (line : CommandLine) (options : Options) :
    line.essential.read options.quiet = (line.read options).map Options.quiet := by
  unfold read essential
  rw [Options.quiet_foldlM_follow]
  cases line.items.foldlM Options.follow options with
  | error stop => rfl
  | ok next => exact next.quiet_readFiles _

theorem of_strictBlocks {line : CommandLine} {pre post : List Item}
    (split : line.items = pre ++ post) :
    let stricter : CommandLine := { line with items := pre ++ .strictBlocks :: post }
    stricter.files = line.files ∧ stricter.policy = ⟨line.policy.expectedVersion, .strict⟩ := by
  have noFile : Item.strictBlocks.file? = none := rfl
  have noVersion : Item.strictBlocks.version? = none := rfl
  have strict : Item.strictBlocks.isStrict = true := rfl
  simp [files, policy, split, noFile, noVersion, strict]

end CommandLine

end Latitude
