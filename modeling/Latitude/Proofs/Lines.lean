import Mathlib.Algebra.Ring.Nat
import Latitude.Proofs.Concatenation
import Latitude.Proofs.Log
import Latitude.Proofs.Lossless
import Latitude.Proofs.Refusals

/-!
# Lines of a listing

A listing is meant to have a line for each thing that it lists: the name of the file, the version,
the names that the header gives, every block and every instruction. It is put together from such
lines (`Reading.text_eq_ofLines`), but a line break in the name of the file, in a name of the
header or in a string is written as it is, and ends a line of its own. Counting line breaks tells
when that happens: the lines have as many as those texts (`Reading.newlinesIn_lines`), so the
listing has the lines it is meant to have if and only if no such text holds a line break. A string
with one can write a label, or what looks like an instruction.
-/

namespace Latitude

-- ---------------------------------------------------------------------------
-- Line breaks
-- ---------------------------------------------------------------------------

namespace Text

def newlines (s : String) : Nat := s.toList.count '\n'

@[simp] theorem newlines_append (s t : String) : newlines (s ++ t) = newlines s + newlines t := by
  simp [newlines]

theorem newlines_eq_zero_iff {s : String} : newlines s = 0 ↔ '\n' ∉ s.toList :=
  List.count_eq_zero

theorem newlines_of_isWord {s : String} (word : IsWord s.toList) : newlines s = 0 := by
  rw [newlines_eq_zero_iff]
  intro mem
  cases word '\n' mem

theorem newlines_quote (s : String) : newlines (quote s) = newlines s := by
  have escaped (cs : List Char) : (escapeQuotes cs).count '\n' = cs.count '\n' := by
    induction cs with
    | nil => rfl
    | cons c cs ih =>
      by_cases h : c = '"'
      · subst h
        simpa [escapeQuotes] using ih
      · simpa [escapeQuotes_plain h, List.count_cons] using ih
  simp [newlines, quote, escaped]

def newlinesIn (ss : List String) : Nat := (ss.map newlines).sum

@[simp] theorem newlinesIn_nil : newlinesIn [] = 0 := rfl

@[simp] theorem newlinesIn_cons (s : String) (ss : List String) :
    newlinesIn (s :: ss) = newlines s + newlinesIn ss := by
  simp [newlinesIn]

@[simp] theorem newlinesIn_append (ss ts : List String) :
    newlinesIn (ss ++ ts) = newlinesIn ss + newlinesIn ts := by
  simp [newlinesIn]

theorem newlinesIn_flatMap_congr {α : Type} {f g : α → List String}
    (h : ∀ a, newlinesIn (f a) = newlinesIn (g a)) (items : List α) :
    newlinesIn (items.flatMap f) = newlinesIn (items.flatMap g) := by
  induction items with
  | nil => rfl
  | cons a items ih => simp [h a, ih]

theorem newlinesIn_eq_zero_iff {ss : List String} :
    newlinesIn ss = 0 ↔ ∀ s ∈ ss, '\n' ∉ s.toList := by
  induction ss with
  | nil => simp
  | cons s ss ih => simp [newlines_eq_zero_iff, ih]

theorem newlines_intercalate {separator : String} (unbroken : newlines separator = 0)
    (ss : List String) : newlines (separator.intercalate ss) = newlinesIn ss := by
  match ss with
  | [] => simp [newlines]
  | [s] => simp
  | s :: t :: ss =>
    have others := newlines_intercalate unbroken (t :: ss)
    simp [String.intercalate_cons_cons, unbroken, others]

-- ---------------------------------------------------------------------------
-- Texts by their lines
-- ---------------------------------------------------------------------------

def ofLines (lines : List String) : String := String.join (lines.map (· ++ "\n"))

theorem ofLines_cons (line : String) (lines : List String) :
    ofLines (line :: lines) = line ++ "\n" ++ ofLines lines := by
  simp [ofLines]

theorem ofLines_append (ls ms : List String) : ofLines (ls ++ ms) = ofLines ls ++ ofLines ms := by
  simp [ofLines]

theorem newlines_ofLines (lines : List String) :
    newlines (ofLines lines) = lines.length + newlinesIn lines := by
  induction lines with
  | nil => rfl
  | cons line lines ih =>
    have ending : newlines "\n" = 1 := rfl
    rw [ofLines_cons, newlines_append, newlines_append, ending, ih, List.length_cons,
      newlinesIn_cons]
    omega

/-- The text is just these lines, and a line break ends each of them. -/
structure HasLines (text : String) (lines : List String) : Prop where
  eq_ofLines : text = ofLines lines
  unbroken : ∀ line ∈ lines, '\n' ∉ line.toList

theorem HasLines.length_eq {text : String} {lines : List String} (h : HasLines text lines) :
    lines.length = newlines text := by
  rw [h.eq_ofLines, newlines_ofLines, newlinesIn_eq_zero_iff.2 h.unbroken]
  rfl

theorem hasLines_ofLines_iff {lines : List String} :
    HasLines (ofLines lines) lines ↔ newlinesIn lines = 0 := by
  rw [newlinesIn_eq_zero_iff]
  exact ⟨HasLines.unbroken, fun unbroken => ⟨rfl, unbroken⟩⟩

end Text

open Text (newlines newlinesIn ofLines HasLines)

-- ---------------------------------------------------------------------------
-- Instructions and blocks
-- ---------------------------------------------------------------------------

/-- The strings that are listed as they are, but for their double quotes. -/
def Arg.strings : Arg → List String
  | .string s => [s]
  | _ => []

theorem Arg.newlines_listing (a : Arg) : newlines a.listing = newlinesIn a.strings := by
  by_cases string : a.kind = .string
  · cases a with
    | string s => simpa [Arg.listing, Arg.strings] using Text.newlines_quote s
    | _ => cases string
  · rw [Text.newlines_of_isWord (isWord_listing string)]
    cases a with
    | string s => exact absurd rfl string
    | _ => rfl

def Instruction.strings (i : Instruction) : List String := i.args.flatMap Arg.strings

theorem Instruction.newlines_listing (i : Instruction) :
    newlines i.listing = newlinesIn i.strings := by
  have args : newlinesIn (i.args.map Arg.listing) = newlinesIn i.strings := by
    rw [List.map_eq_flatMap]
    exact Text.newlinesIn_flatMap_congr (fun a => by simp [a.newlines_listing]) i.args
  have mnemonic := Text.newlines_of_isWord i.opcode.isWord_mnemonic
  have blank : newlines " " = 0 := rfl
  rw [listing]
  split
  · rename_i none
    simp [mnemonic, strings, none]
  · rw [← args, Text.newlines_append, Text.newlines_append, Text.newlines_intercalate rfl,
      mnemonic, blank, Nat.zero_add]

namespace Block

def lines (b : Block) : List String :=
  label b.index :: b.instructions.map fun i => "  " ++ i.listing

def strings (b : Block) : List String := b.instructions.flatMap Instruction.strings

theorem listing_eq_ofLines (b : Block) : b.listing = ofLines b.lines := by
  simp [listing, lines, ofLines, Function.comp_def]

theorem newlinesIn_lines (b : Block) : newlinesIn b.lines = newlinesIn b.strings := by
  have indent : newlines "  " = 0 := rfl
  rw [lines, Text.newlinesIn_cons, Text.newlines_of_isWord (isWord_label b.index), Nat.zero_add,
    List.map_eq_flatMap]
  exact Text.newlinesIn_flatMap_congr (fun i => by simp [i.newlines_listing, indent])
    b.instructions

end Block

namespace Header

/-- The name that gets a line of its own, if there is one that is not empty. -/
def shown (name : Option String) : List String := (name.filter (!·.isEmpty)).toList

def lines (file : String) (h : Header) : List String :=
  ("File: " ++ file) :: ("Version: " ++ toString h.version) ::
    ((shown h.moduleName).map ("Module: " ++ ·) ++ (shown h.packageName).map ("Package: " ++ ·))

def texts (file : String) (h : Header) : List String :=
  file :: (shown h.moduleName ++ shown h.packageName)

theorem nameLine_eq_ofLines (title : String) (name : Option String) :
    nameLine title name = ofLines ((shown name).map (title ++ ": " ++ ·)) := by
  cases name with
  | none => rfl
  | some name =>
    by_cases empty : name.isEmpty <;> simp [nameLine, shown, empty, ofLines, Option.filter]

theorem listing_eq_ofLines (file : String) (h : Header) :
    h.listing file = ofLines (h.lines file) := by
  have moduleName := nameLine_eq_ofLines "Module" h.moduleName
  have packageName := nameLine_eq_ofLines "Package" h.packageName
  rw [lines, Text.ofLines_cons, Text.ofLines_cons, Text.ofLines_append, listing, moduleName,
    packageName]
  refine String.toList_inj.1 ?_
  simp

theorem newlinesIn_lines (file : String) (h : Header) :
    newlinesIn (h.lines file) = newlinesIn (h.texts file) := by
  have titled (title : String) (unbroken : newlines title = 0) (names : List String) :
      newlinesIn (names.map (title ++ ·)) = newlinesIn names := by
    induction names with
    | nil => rfl
    | cons name names ih => simp [unbroken, ih]
  have first : newlines ("File: " ++ file) = newlines file := by
    rw [Text.newlines_append]
    exact Nat.zero_add _
  have second : newlines ("Version: " ++ toString h.version) = 0 := by
    rw [Text.newlines_append, Text.newlines_of_isWord (isWord_int h.version)]
    rfl
  rw [lines, texts, Text.newlinesIn_cons, Text.newlinesIn_cons, Text.newlinesIn_cons,
    Text.newlinesIn_append, Text.newlinesIn_append, first, second, titled "Module: " rfl,
    titled "Package: " rfl, Nat.zero_add]

end Header

-- ---------------------------------------------------------------------------
-- Files
-- ---------------------------------------------------------------------------

namespace Reading

variable {reading : Reading} {h : Header}

/-- The lines that a listing is meant to have: those of the header and of the blocks. -/
def lines (reading : Reading) (file : String) (h : Header) : List String :=
  h.lines file ++ reading.blocks.flatMap Block.lines

def texts (reading : Reading) (file : String) (h : Header) : List String :=
  h.texts file ++ reading.blocks.flatMap Block.strings

theorem text_eq_ofLines (opened : reading.opening.result = .ok h) (file : String) :
    reading.text file = ofLines (reading.lines file h) := by
  have blocks (bs : List Block) :
      String.join (bs.map Block.listing) = ofLines (bs.flatMap Block.lines) := by
    induction bs with
    | nil => rfl
    | cons b bs ih => simp [Text.ofLines_append, b.listing_eq_ofLines, ih]
  rw [text, opened, lines, Text.ofLines_append, ← h.listing_eq_ofLines, ← blocks]

theorem newlinesIn_lines (reading : Reading) (file : String) (h : Header) :
    newlinesIn (reading.lines file h) = newlinesIn (reading.texts file h) := by
  rw [lines, texts, Text.newlinesIn_append, Text.newlinesIn_append, h.newlinesIn_lines,
    Text.newlinesIn_flatMap_congr Block.newlinesIn_lines]

theorem length_lines (reading : Reading) (file : String) (h : Header) :
    (reading.lines file h).length =
      2 + (Header.shown h.moduleName).length + (Header.shown h.packageName).length +
        reading.summary.blocks + reading.summary.instructions := by
  have blocks (bs : List Block) : (bs.flatMap Block.lines).length =
      bs.length + (bs.map (·.instructions.length)).sum := by
    induction bs with
    | nil => rfl
    | cons b bs ih =>
      simp only [List.flatMap_cons, List.length_append, List.length_cons, List.length_map,
        List.map_cons, List.sum_cons, Block.lines, ih]
      omega
  simp only [lines, List.length_append, blocks, Header.lines, List.length_cons, List.length_map,
    summary]
  omega

theorem opened_of_ended {policy : Policy} {source : Source}
    (ended : (ofSource policy source).outcome = .ok ()) :
    ∃ h, (ofSource policy source).opening.result = .ok h := by
  match started : Disassembly.start policy source with
  | ⟨.error e, c, events⟩ =>
    rw [ofSource_of_start_error started] at ended
    cases ended
  | ⟨.ok walk, c, events⟩ =>
    rw [ofSource_of_start started]
    exact ⟨walk.header, rfl⟩

theorem map_index_blocks (policy : Policy) (source : Source) :
    (ofSource policy source).blocks.map Block.index =
      List.range (ofSource policy source).blocks.length := by
  have numbered (bs : List SpelledBlock) (index offset : Nat) :
      (SpelledBlock.blocksFrom bs index offset).map Block.index =
        List.range' index bs.length := by
    induction bs generalizing index offset with
    | nil => rfl
    | cons b bs ih => exact congrArg (index :: ·) (ih (index + 1) _)
  match read : Reader.header.run { source } with
  | ⟨.error e, c, events⟩ =>
    rw [ofSource_of_start_error (Disassembly.start_of_header_error read policy)]
    rfl
  | ⟨.ok h, c, events⟩ =>
    obtain ⟨-, -, bs, c', -, blocks, -, -⟩ := accounts read policy
    rw [blocks, numbered, SpelledBlock.length_blocksFrom, List.range_eq_range']

end Reading

/-- The listing of a file that was read to its end is put together from a line for the name of the
file, one for the version, one for each name that the header shows, and for each block a label
with its number and a line for each of its instructions. It has one line break for each of these
lines and one more for each that stands in the name of the file, in a name of the header or in a
string argument. So these are its lines if and only if no such text has a line break. -/
theorem listing_lines_iff_unbroken {source : Source} {file : String} {policy : Policy}
    {sink : Sink} {total : Summary}
    (ok : (disassemble source file policy sink).result = .ok total) :
    let reading := Reading.ofSource policy source
    let text := reading.text file
    (disassemble source file policy sink).sink.output = sink.output ++ Text.encodeUtf8 text ∧
    ∃ h, reading.opening.result = .ok h ∧
      reading.blocks.map Block.index = List.range total.blocks ∧
      (reading.lines file h).length =
        2 + (Header.shown h.moduleName).length + (Header.shown h.packageName).length +
          total.blocks + total.instructions ∧
      text = ofLines (reading.lines file h) ∧
      newlines text = (reading.lines file h).length + newlinesIn (reading.texts file h) ∧
      (HasLines text (reading.lines file h) ↔
        ∀ s ∈ reading.texts file h, '\n' ∉ s.toList) := by
  intro reading text
  obtain ⟨ended, rfl, output⟩ := disassemble_ok ok
  obtain ⟨h, opened⟩ := Reading.opened_of_ended ended
  have assembled : text = ofLines (reading.lines file h) := Reading.text_eq_ofLines opened file
  refine ⟨output, h, opened, Reading.map_index_blocks policy source,
    Reading.length_lines reading file h, assembled, ?_, ?_⟩
  · rw [assembled, Text.newlines_ofLines, Reading.newlinesIn_lines]
  · rw [assembled, Text.hasLines_ofLines_iff, Reading.newlinesIn_lines,
      Text.newlinesIn_eq_zero_iff]

/-- A header with a name, and a string with a quote and a backslash in it. -/
theorem listing_lines_iff_unbroken_quoted :
    let data : List UInt8 :=
      [0, 0xE8, 0x03, 0, 0, 0x4D, 0x24, 0x6D, 0, 0, 0x2E, 0,
        6, 0, 0, 0, 0, 0, 0, 0, 0x15, 0x5C, 0x22, 0, 0, 0x11]
    let text := "File: f\nVersion: 1000\nModule: m\n<<0>>\n  str \"\\\\\"\"\n  ret\n"
    let lines :=
      ["File: f", "Version: 1000", "Module: m", "<<0>>", "  str \"\\\\\"\"", "  ret"]
    let report := disassemble (.ofBytes data) "f" {} {}
    report.result = .ok ⟨1, 2, 26⟩ ∧ report.sink.output = Text.encodeUtf8 text ∧
      HasLines text lines := by
  intro data text lines report
  let file : SpelledFile :=
    { header :=
        { version := ⟨0, [0xE8, 0x03, 0, 0], rfl⟩
          fields := [⟨.moduleName, [.plain 0x6D (by decide)], "m", by decide⟩]
          last := 0 }
      blocks := [⟨[6, 0, 0, 0, 0, 0, 0, 0], rfl,
        [⟨.str, [.string ⟨[.plain 0x5C (by decide), .plain 0x22 (by decide)], "\\\"", by decide⟩],
            rfl⟩,
          ⟨.ret, [], rfl⟩]⟩] }
  have fits : file.Fits {} := ⟨by decide, by simp [file, SpelledBlock.Fits]; decide⟩
  have bytes : file.bytes = data := by decide
  have reading := Reading.ofSource_spelled fits (by rw [bytes]; decide)
  rw [bytes] at reading
  have listed : report = _ :=
    disassemble_of_neverFails (.ofBytes data) "f" {} Sink.neverFails_default
  have ok : report.result = .ok ⟨1, 2, 26⟩ := by
    rw [listed, reading]
    rfl
  have shown : (Reading.ofSource {} (.ofBytes data)).text "f" = text := by
    rw [reading]
    decide
  have meant : (Reading.ofSource {} (.ofBytes data)).lines "f" file.header.header = lines := by
    rw [reading]
    decide
  have unbroken : ∀ s ∈ (Reading.ofSource {} (.ofBytes data)).texts "f" file.header.header,
      '\n' ∉ s.toList := by
    rw [reading]
    decide
  obtain ⟨output, h, opened, -, -, -, -, iff⟩ := listing_lines_iff_unbroken ok
  rw [reading] at opened
  cases opened
  rw [shown] at output iff
  rw [meant] at iff
  exact ⟨ok, output, iff.2 unbroken⟩

/-- A string that ends its line and writes a label on one of its own: there are six lines where
the header, the block and its instruction would have four. -/
theorem listing_lines_of_broken_string :
    let data : List UInt8 :=
      [0, 0xE8, 0x03, 0, 0, 0x2E, 0, 10, 0, 0, 0, 0, 0, 0, 0,
        0x15, 0x0A, 0x3C, 0x3C, 0x31, 0x3E, 0x3E, 0x0A, 0, 0]
    let text := "File: f\nVersion: 1000\n<<0>>\n  str \"\n<<1>>\n\"\n"
    let report := disassemble (.ofBytes data) "f" {} {}
    (Reading.ofSource {} (.ofBytes data)).opening.result = .ok { version := 1000 } ∧
      report.result = .ok ⟨1, 1, 25⟩ ∧ report.sink.output = Text.encodeUtf8 text ∧
      HasLines text ["File: f", "Version: 1000", "<<0>>", "  str \"", "<<1>>", "\""] ∧
      ¬ ∃ lines, HasLines text lines ∧ lines.length = 2 + 0 + 0 + 1 + 1 := by
  intro data text report
  let file : SpelledFile :=
    { header := { version := ⟨0, [0xE8, 0x03, 0, 0], rfl⟩, fields := [], last := 0 }
      blocks := [⟨[10, 0, 0, 0, 0, 0, 0, 0], rfl,
        [⟨.str, [.string ⟨[.plain 0x0A (by decide), .plain 0x3C (by decide),
          .plain 0x3C (by decide), .plain 0x31 (by decide), .plain 0x3E (by decide),
          .plain 0x3E (by decide), .plain 0x0A (by decide)], "\n<<1>>\n", by decide⟩], rfl⟩]⟩] }
  have fits : file.Fits {} := ⟨by decide, by simp [file, SpelledBlock.Fits]; decide⟩
  have bytes : file.bytes = data := by decide
  have reading := Reading.ofSource_spelled fits (by rw [bytes]; decide)
  rw [bytes] at reading
  have listed : report = _ :=
    disassemble_of_neverFails (.ofBytes data) "f" {} Sink.neverFails_default
  have shown : (Reading.ofSource {} (.ofBytes data)).text "f" = text := by
    rw [reading]
    decide
  refine ⟨by rw [reading]; rfl, by rw [listed, reading]; rfl, ?_, ⟨by decide, by decide⟩, ?_⟩
  · rw [listed, Reading.output_filled, shown]
    rfl
  · rintro ⟨lines, has, length⟩
    rw [has.length_eq] at length
    exact absurd length (by decide)

end Latitude
