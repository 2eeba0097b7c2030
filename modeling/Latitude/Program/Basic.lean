import Latitude.Program.Directory
import Latitude.Program.LogFilter
import Latitude.Program.Options
import Latitude.Run

/-!
# The program

What the program prints and how it exits, given the words of its command line, the text
of a log filter and a way to open files. The log and the message of an error go to
standard error, the listing to standard output.

How the words are read and which events the log shows is up to an interface; `run` is
the program with the interface of `Options` and `LogFilter`.
-/

namespace Latitude

structure Exit where
  status : UInt32
  stdout : List UInt8 := []
  stderr : String := ""
  deriving DecidableEq

namespace Program

def usage : String := "Usage: latbc-dis [OPTIONS] [FILE]"

def versionText : String := "latbc-dis 0.1.0\n"

def helpText : String :=
  "Disassemble compiled Latitude bytecode\n" ++
  "\n" ++
  usage ++ "\n" ++
  "\n" ++
  "Arguments:\n" ++
  "  [FILE]  Compiled bytecode file\n" ++
  "\n" ++
  "Options:\n" ++
  "      --strict-blocks       " ++
    "Reject blocks whose last instruction runs past the declared length\n" ++
  "      --expect-version <N>  Header version the file must carry [default: 1000]\n" ++
  "  -v, --verbose...          Increase log verbosity (-v, -vv, -vvv)\n" ++
  "  -h, --help                Print help\n" ++
  "  -V, --version             Print version\n"

def errorLine (task path reason : String) : String :=
  "error: failed to " ++ task ++ " `" ++ path ++ "`: " ++ reason ++ "\n"

/-- The message of an error and, once more, what the system reported beneath it. -/
def fullReason (e : ReadError) : String :=
  match e.underlying? with
  | none => e.message
  | some reason => e.message ++ ": " ++ reason

def listFile (shows : Event → Bool) (policy : Policy) (path : String) (source : Source) : Exit :=
  let report := disassemble source path policy {}
  match report.result with
  | .ok summary =>
    { status := 0
      stdout := report.sink.output
      stderr := Event.log shows (report.events ++ [.completed summary]) }
  | .error e =>
    { status := 1
      stdout := report.sink.output
      stderr := Event.log shows report.events ++ errorLine "disassemble" path (fullReason e) }

/-- How a program reads its words, and which events it then shows, given the text of a
filter. -/
structure Interface where
  read : List String → Except Stop Options
  shows : Options → Option String → Event → Bool

/-- Runs the program. How a mistake in the command line is worded is not part of what it
promises. -/
def Interface.run (interface : Interface) (words : List String) (filterText : Option String)
    (openFile : String → Opened) : Exit :=
  match interface.read words with
  | .error .help => { status := 0, stdout := Text.encodeUtf8 helpText }
  | .error .version => { status := 0, stdout := Text.encodeUtf8 versionText }
  | .error .misuse => { status := 2, stderr := usage ++ "\n" }
  | .ok options =>
    match options.file with
    | none => { status := 0, stderr := usage ++ "\n" }
    | some path =>
      match openFile path with
      | .failed reason => { status := 1, stderr := errorLine "open" path reason }
      | .source source =>
        listFile (interface.shows options filterText) options.policy path source

/-- The filter in force: the one whose text is given, if it is a filter, or else the one
that the options ask for. -/
def logFilter (options : Options) (text : Option String) : LogFilter :=
  (text.bind LogFilter.ofText?).getD (.ofLevel options.logLevel)

def interface : Interface where
  read := Options.ofWords
  shows options filterText := (logFilter options filterText).shows

def run (words : List String) (filterText : Option String) (openFile : String → Opened) : Exit :=
  interface.run words filterText openFile

end Program

end Latitude
