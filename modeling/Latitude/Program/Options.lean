import Latitude.Policy
import Latitude.Event
import Latitude.Text.Decimal

/-!
# Options

The words of a command line, read from left to right. Options may stand anywhere up to
the word `--`, after which every word is a file. Asking for help or for the version
takes effect at once; so does a mistake.
-/

namespace Latitude

structure Options where
  file : Option String := none
  strictBlocks : Bool := false
  expectedVersion : Option Int := none
  /-- How often more log was asked for. -/
  verbosity : Nat := 0
  deriving DecidableEq

/-- Why no file is going to be listed. -/
inductive Stop
  | help | version | misuse
  deriving DecidableEq

/-- A word of a command line by its looks. -/
inductive Word
  | plain (text : String)
  | long (name : String) (value : Option String)
  | short (letters : List Char)
  | endOfOptions
  deriving DecidableEq

namespace Word

/-- A lone hyphen is a plain word. -/
def ofText (text : String) : Word :=
  match text.toList with
  | ['-', '-'] => .endOfOptions
  | '-' :: '-' :: body =>
    let name := body.takeWhile (· != '=')
    let value := match body.dropWhile (· != '=') with
      | [] => none
      | _ :: value => some (String.ofList value)
    .long (String.ofList name) value
  | '-' :: letter :: letters => .short (letter :: letters)
  | _ => .plain text

end Word

namespace Options

def policy (options : Options) : Policy where
  expectedVersion := options.expectedVersion.getD Header.currentVersion
  boundary := if options.strictBlocks then .strict else .lax

def logLevel (options : Options) : Level :=
  match options.verbosity with
  | 0 => .warn
  | 1 => .info
  | 2 => .debug
  | _ => .trace

def setFile (options : Options) (file : String) : Except Stop Options :=
  if options.file.isSome || file.isEmpty then .error .misuse
  else .ok { options with file := some file }

def setStrictBlocks (options : Options) : Except Stop Options :=
  if options.strictBlocks then .error .misuse else .ok { options with strictBlocks := true }

def setExpectedVersion (options : Options) (text : String) : Except Stop Options :=
  match options.expectedVersion, Text.readInt64? text with
  | none, some version => .ok { options with expectedVersion := some version }
  | _, _ => .error .misuse

def raiseVerbosity (options : Options) : Options :=
  { options with verbosity := options.verbosity + 1 }

/-- The letters after one hyphen, each an option without a value. -/
def readLetters (options : Options) : List Char → Except Stop Options
  | [] => .ok options
  | 'v' :: letters => options.raiseVerbosity.readLetters letters
  | 'h' :: _ => .error .help
  | 'V' :: _ => .error .version
  | _ => .error .misuse

def readFiles (options : Options) : List String → Except Stop Options
  | [] => .ok options
  | file :: rest => do (← options.setFile file).readFiles rest

/-- Reads the words of a command line into the options. A version in a word of its own
must not look like an option. -/
def readWords (options : Options) : List String → Except Stop Options
  | [] => .ok options
  | word :: rest =>
    match Word.ofText word with
    | .plain file => do (← options.setFile file).readWords rest
    | .short letters => do (← options.readLetters letters).readWords rest
    | .endOfOptions => options.readFiles rest
    | .long "help" none => .error .help
    | .long "version" none => .error .version
    | .long "verbose" none => options.raiseVerbosity.readWords rest
    | .long "strict-blocks" none => do (← options.setStrictBlocks).readWords rest
    | .long "expect-version" (some text) => do
      (← options.setExpectedVersion text).readWords rest
    | .long "expect-version" none =>
      match rest with
      | [] => .error .misuse
      | text :: rest =>
        if text.toList.head? = some '-' then .error .misuse
        else do (← options.setExpectedVersion text).readWords rest
    | .long _ _ => .error .misuse

def ofWords (words : List String) : Except Stop Options := readWords {} words

end Options

end Latitude
