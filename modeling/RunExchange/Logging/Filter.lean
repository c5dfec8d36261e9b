import RunExchange.Logging.Event
/-!
# Logging.Filter -- which events a text lets pass

The text of a level is handed to a reader of filters, which knows more texts than
the names of the severities.  A program takes its reader as a parameter: all that
it relies on is that the name of a severity lets pass what is at least as severe
(`FilterReader.read_name`).

`FilterReader.directives` is the reader in use.  A filter is a list of directives
between commas; a directive is a level, or a target that may be followed by `=`
and a level.  A level is the name of a severity in any case, `off`, or a number.
Of the directives whose target begins the target of an event, the longest and
then the last one decides.  Directives on spans and their fields are not read,
since there are no spans.
-/

namespace RunExchange

set_option autoImplicit false

/-- A reader of filters; a text that it refuses has no filter. -/
structure FilterReader where
  read : String → Option (Event → Bool)
  read_name : ∀ severity : Severity, read severity.name = some (Event.passes severity)

/-- The least severe events that pass, if any do. -/
abbrev Threshold := Option Severity

/-- The threshold that a word in any case names. -/
def Threshold.ofText? (text : String) : Option Threshold :=
  match foldCase text with
  | "off" | "0" => some none
  | "1" => some (some .error)
  | "2" => some (some .warn)
  | "3" => some (some .info)
  | "4" => some (some .debug)
  | "5" => some (some .trace)
  | word => (Severity.ofName? word).map some

/-- A threshold for the events whose target begins with some characters. -/
structure Directive where
  target : List Char
  threshold : Threshold
deriving DecidableEq

namespace Directive

/-- Whether some characters can name a target. -/
def isTarget (chars : List Char) : Bool :=
  !chars.isEmpty && chars.all fun c => c.isAlphanum || c == '_' || c == ':' || c == '-'

/-- The directive of some characters.  A target without a level lets all its events
pass. -/
def ofChars? (chars : List Char) : Option Directive :=
  match chars.splitOn '=' with
  | [word] =>
      match Threshold.ofText? (String.ofList word) with
      | some threshold => some ⟨[], threshold⟩
      | none => if isTarget word then some ⟨word, some .trace⟩ else none
  | [target, level] =>
      if !isTarget target then none
      else if level.isEmpty then some ⟨target, some .trace⟩
      else (Threshold.ofText? (String.ofList level)).map (⟨target, ·⟩)
  | _ => none

/-- The directives of a text; one without any lets errors pass. -/
def ofText? (text : String) : Option (List Directive) := do
  match ← ((text.toList.splitOn ',').filter (!·.isEmpty)).mapM ofChars? with
  | [] => some [⟨[], some .error⟩]
  | directives => some directives

/-- The directive that decides on a target. -/
def deciding (directives : List Directive) (target : String) : Option Directive :=
  directives.foldl
    (fun best directive =>
      if directive.target.isPrefixOf target.toList &&
          best.all (·.target.length ≤ directive.target.length) then
        some directive
      else best)
    none

/-- Whether directives let an event pass. -/
def passes (directives : List Directive) (event : Event) : Bool :=
  (deciding directives event.origin.target).any fun directive =>
    directive.threshold.any (Event.passes · event)

theorem ofText?_name (severity : Severity) :
    ofText? severity.name = some [⟨[], some severity⟩] := by
  cases severity <;> decide

-- A target may stand alone, but not with a word that is no level.
example : ofText? "host=off,host" = some [⟨"host".toList, none⟩, ⟨"host".toList, some .trace⟩] ∧
    ofText? "host=loud" = none := by decide

end Directive

/-- The reader of directives. -/
def FilterReader.directives : FilterReader where
  read text := (Directive.ofText? text).map Directive.passes
  read_name := by
    intro severity
    rw [Directive.ofText?_name]
    rfl

end RunExchange
