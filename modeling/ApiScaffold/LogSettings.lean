import ApiScaffold.Text.LetterCase
import ApiScaffold.Text.Split

/-!
# Log settings

How messages are shown, and which: `LogSettings.ofEnvironment` reads the settings, and
`LogSettings.rules` gives the rules by which messages are chosen.
-/

namespace ApiScaffold

inductive LogFormat where
  | json
  | pretty
  | compact
  deriving DecidableEq

namespace LogFormat

def name : LogFormat → String
  | json => "json"
  | pretty => "pretty"
  | compact => "compact"

def all : List LogFormat := [json, pretty, compact]

def ofName? (name : String) : Option LogFormat := all.find? (·.name == name)

/-- The format with a name in any case; compact if there is none. -/
def ofText (text : String) : LogFormat := (ofName? (Text.toLower text)).getD compact

end LogFormat

/-- The most that is shown. -/
inductive LogLevel where
  | off
  | error
  | warn
  | info
  | debug
  | trace
  deriving DecidableEq

namespace LogLevel

def name : LogLevel → String
  | off => "off"
  | error => "error"
  | warn => "warn"
  | info => "info"
  | debug => "debug"
  | trace => "trace"

def all : List LogLevel := [off, error, warn, info, debug, trace]

/-- A level by its number, or by its name in any case. -/
def ofText? (text : String) : Option LogLevel :=
  let digits := (Text.afterStart? "+" text).getD text
  if digits ≠ "" && digits.toList.all Char.isDigit then
    all[Nat.ofDigitChars 10 digits.toList 0]?
  else all.find? (·.name == Text.toLowerAscii text)

end LogLevel

/-- Messages from one source, or from all, are shown up to a level. -/
structure LogRule where
  /-- The start of the source's path. -/
  source : Option String
  /-- The name of the activity that the message comes from. -/
  activity : Option String
  level : LogLevel

namespace LogRule

/-- A level behind an equals sign; all is shown if it is left out. -/
def level? : List Char → Option LogLevel
  | [] | ['='] => some .trace
  | '=' :: r => LogLevel.ofText? (String.ofList r)
  | _ => none

/-- An activity in brackets and a level. -/
def ofActivity? (source : Option String) (s : List Char) : Option LogRule := do
  let activity := s.takeWhile fun c => c != ']' && c != '\x7b'
  match s.drop activity.length with
  | ']' :: r => return ⟨source, some (String.ofList activity), ← level? r⟩
  | _ => none

/-- A level, a source, or a source and its level. -/
def ofText? (text : String) : Option LogRule := do
  let s := text.toList
  match ← s.head? with
  | '[' => ofActivity? none s.tail
  | c =>
    if !(Text.isAlphanumeric c || ['-', ':', '_'].contains c) then none
    let source := s.takeWhile fun c => c != '=' && c != '['
    match s.drop source.length with
    | [] =>
      match LogLevel.ofText? text with
      | some level => return ⟨none, none, level⟩
      | none => return ⟨some text, none, .trace⟩
    | '[' :: r => ofActivity? (some (String.ofList source)) r
    | r => return ⟨some (String.ofList source), none, ← level? r⟩

def text (r : LogRule) : String :=
  let subject := r.source.getD "" ++ ((r.activity.map fun a => "[" ++ a ++ "]").getD "")
  if r.source.isNone && r.activity.isNone then r.level.name else subject ++ "=" ++ r.level.name

/-- A rule takes the place of one for the same messages. -/
def add (rules : List LogRule) (r : LogRule) : List LogRule :=
  if rules.any fun q => q.source == r.source && q.activity == r.activity then
    rules.map fun q => if q.source == r.source && q.activity == r.activity then r else q
  else rules ++ [r]

end LogRule

structure LogSettings where
  /-- The name of a level, whether there is one or not. -/
  level : String
  format : LogFormat
  /-- More rules, with commas between them. -/
  filter : Option String
  /-- Whether file and line are shown. -/
  location : Bool

namespace LogSettings

/-- The settings in variables. -/
def ofEnvironment (lookUp : String → Option String) : LogSettings where
  level := (lookUp "SPECGEN_LOG_LEVEL").getD "info"
  format := .ofText ((lookUp "SPECGEN_LOG_FORMAT").getD "compact")
  filter := lookUp "SPECGEN_LOG_TARGET_FILTER"
  location := (lookUp "SPECGEN_LOG_INCLUDE_LOCATION").any ["true", "1"].contains

/-- The level that is named, from errors on. -/
def logLevel (s : LogSettings) : LogLevel :=
  let known : List LogLevel := [.error, .warn, .info, .debug, .trace]
  (known.find? (·.name == Text.toLower s.level)).getD .info

/-- Rules with commas between them, if all can be read; without any, errors are shown. -/
def rulesOf? (text : String) : Option (List LogRule) :=
  if text.isEmpty then some [⟨none, none, .error⟩]
  else ((Text.splitAt ',' text).mapM LogRule.ofText?).map fun rules => rules.foldl LogRule.add []

/-- The rules in `override`, or the level; and those of the filter that can be read. -/
def rules (s : LogSettings) (override : Option String) : List LogRule :=
  let start := (override.bind rulesOf?).getD [⟨none, none, s.logLevel⟩]
  let filters := (Text.splitAt ',' (s.filter.getD "")).map Text.trim
  (filters.filterMap LogRule.ofText?).foldl LogRule.add start

end LogSettings
end ApiScaffold
