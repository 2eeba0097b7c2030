import Latitude.Event
import Latitude.Text.Alphanumeric
import Latitude.Text.Decimal

/-!
# Log filters

Which events the log shows. A filter is a list of directives, each a threshold for some
of the events: those whose target begins with a text, those with a field of some name,
or those inside a span, of which this program has none. The most specific directive for
an event decides about it, the later one of two alike. An event that no directive is for
is not shown.

As text, a filter is its directives between commas. A directive is a level, or a target,
brackets or both, which `=` and a level may follow; without a level it shows everything.
Brackets hold the name of a span, a field in braces, or both. A level is a word in any
case, or a number from 0, off, to 5, trace. A text with any other directive is no filter.
-/

namespace Latitude

structure Directive where
  /-- What the targets begin with that the directive is for. -/
  target : String := ""
  /-- A field that the events must have. -/
  field : Option String := none
  /-- Whether the directive is for events inside a span only. -/
  inSpan : Bool := false
  /-- The least severe level shown, if any is. -/
  threshold : Option Level := some .trace
  deriving DecidableEq

namespace Directive

/-- Every event has its message as a field, beside the fields of its line. -/
def isFor (directive : Directive) (event : Event) : Bool :=
  !directive.inSpan &&
    directive.target.toList.isPrefixOf event.target.toList &&
    directive.field.all fun name => name == "message" || event.fields.any (·.1 == name)

/-- Whether the first directive is the more specific one: by the length of its target,
then by asking for a field, then by the order of the fields' names. -/
def outranks (a b : Directive) : Bool :=
  if a.target.length = b.target.length then
    match a.field, b.field with
    | some f, some g => g < f
    | some _, none => true
    | none, _ => false
  else b.target.length < a.target.length

-- ---------------------------------------------------------------------------
-- Directives as text
-- ---------------------------------------------------------------------------

def threshold? (word : String) : Option (Option Level) :=
  match Text.natOfChars? word.toList with
  | some 0 => some none
  | some 1 => some (some .error)
  | some 2 => some (some .warn)
  | some 3 => some (some .info)
  | some 4 => some (some .debug)
  | some 5 => some (some .trace)
  | some _ => none
  | none =>
    match word.toLower with
    | "off" => some none
    | "error" => some (some .error)
    | "warn" => some (some .warn)
    | "info" => some (some .info)
    | "debug" => some (some .debug)
    | "trace" => some (some .trace)
    | _ => none

def startsTarget (c : Char) : Bool :=
  c == '-' || c == ':' || c == '_' || Text.isAlphanumeric c

/-- A directive with what stands between brackets, and the text after them. A field that
is compared with a value is one of a span. -/
def brackets? (target : String) (inner : List Char) : Option (Directive × List Char) :=
  let stops (c : Char) : Bool := c == ']' || c == '\x7b'
  let name := inner.takeWhile (!stops ·)
  match inner.dropWhile (!stops ·) with
  | ']' :: after => some ({ target, inSpan := true }, after)
  | _ :: braced =>
    let field := braced.takeWhile (· != '\x7d')
    match braced.dropWhile (· != '\x7d') with
    | _ :: ']' :: after =>
      if field.isEmpty then none
      else if name.isEmpty && !field.contains '=' then
        some ({ target, field := some (String.ofList field) }, after)
      else some ({ target, inSpan := true }, after)
    | _ => none
  | [] => none

def withLevel? (directive : Directive) (word : List Char) : Option Directive :=
  if word.isEmpty then some directive
  else (threshold? (String.ofList word)).map fun threshold => { directive with threshold }

/-- A directive from its text. White space around it is no part of a target or of brackets
when they are told apart. But it stays with a target that stands alone, no level goes with
it, and in front of brackets it leaves them without effect. -/
def ofText? (text : String) : Option Directive :=
  let whole := text.toList
  let body := Text.trim whole
  let target := body.takeWhile fun c => c != '=' && c != '['
  match body.dropWhile fun c => c != '=' && c != '[' with
  | [] =>
    if target.head?.any startsTarget then
      match threshold? text with
      | some threshold => some { threshold }
      | none => some { target := text }
    else none
  | '=' :: word =>
    if target.head?.any startsTarget && whole == body then
      withLevel? { target := String.ofList target } word
    else none
  | _ :: inner =>
    if target.head?.all startsTarget then do
      let (directive, after) ← brackets? (String.ofList target) inner
      match after with
      | [] =>
        let led := whole.head?.any Text.isBlank
        some { directive with inSpan := directive.inSpan || led }
      | '=' :: word => if whole == body then directive.withLevel? word else none
      | _ => none
    else none

end Directive

abbrev LogFilter := List Directive

namespace LogFilter

def ofLevel (level : Level) : LogFilter := [{ threshold := some level }]

/-- A filter from its text. A text without directives shows errors only. -/
def ofText? (text : String) : Option LogFilter := do
  let words := (text.splitOn ",").filter (!·.isEmpty)
  if words.isEmpty then some (ofLevel .error) else words.mapM Directive.ofText?

def decisive (filter : LogFilter) (event : Event) : Option Directive :=
  filter.foldl (fun best directive =>
    if directive.isFor event && best.all (fun b => !b.outranks directive)
    then some directive else best) none

def shows (filter : LogFilter) (event : Event) : Bool :=
  match filter.decisive event with
  | some { threshold := some threshold, .. } => event.level.shownAt threshold
  | _ => false

end LogFilter

end Latitude
