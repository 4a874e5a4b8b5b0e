import Tablica.CommandLine.Options
import Tablica.Text.Styled

/-!
# Usage

What a user of the command line is told about it: how it is used, which flags there are,
which version it is, and why a command line is refused.

* `Usage.help`, `Usage.version` — what is shown when asked for;
* `UsageFault.shown` — why a command line is refused, and how it would be right.
-/

namespace Tablica

namespace Usage

open StyledText (plain styled)

/-! ## Styles -/

def alarm : Style := ⟨"\x1b[1m\x1b[31m"⟩
def heading : Style := ⟨"\x1b[1m\x1b[4m"⟩
def literal : Style := ⟨"\x1b[1m"⟩
def right : Style := ⟨"\x1b[32m"⟩
def wrong : Style := ⟨"\x1b[33m"⟩

/-! ## How it is used -/

def programName : String := "pdc"
def versionNumber : String := "0.11.0"

/-- What a program is called in the description of a command line. -/
def fileLabel : String := "FILE"

def fileName : String := s!"<{fileLabel}>"

/-- A flag in full, with a name for its value. -/
def flagName (flag : Flag) : String :=
  let value := if flag = .rangeSymbol then " <SYMBOL>" else ""
  s!"--{flag.spelling}{value}"

/-- A flag as it is listed, with a name for its value. -/
def flagText (flag : Flag) : StyledText :=
  styled literal s!"--{flag.spelling}"
    ++ if flag = .rangeSymbol then plain " <SYMBOL>" else []

/-- How a command line looks, given what follows the name of this program. -/
def lineOf (rest : StyledText) : StyledText :=
  styled heading "Usage:" ++ plain " " ++ styled literal programName ++ rest

/-- Flags one after the other. -/
def flagsText (flags : List Flag) : StyledText :=
  flags.flatMap fun flag => plain " " ++ flagText flag

/-- How a command line looks: with the given flags, or with any if none are given. -/
def line (flags : Option (List Flag)) : StyledText :=
  let middle := match flags with
    | some flags => flagsText flags.eraseDups
    | none => plain " [OPTIONS]"
  lineOf (middle ++ plain s!" {fileName}")

/-- All that a run can be described by, as alternatives. -/
def choice : String :=
  let alternatives := fileLabel :: (Flag.all.filter Flag.configures).map flagName
  "<" ++ "|".intercalate alternatives ++ ">"

/-- How a command line looks that goes on with one of the alternatives, behind the given flag unless
that is an alternative itself. -/
def lineOfChoice (flag : Flag) : StyledText :=
  lineOf ((if flag.configures then [] else flagsText [flag]) ++ plain s!" {choice}")

/-- A line of the list of flags. -/
def flagEntry (letter : Option Char) (flag : Flag) (explanation : String) : StyledText :=
  let start : StyledText := match letter with
    | some letter => styled literal s!"-{letter}" ++ plain ", "
    | none => plain "    "
  let gap := (flagName .rangeSymbol).length + 2 - (flagName flag).length
  plain "  " ++ start ++ flagText flag ++ plain ("".pushn ' ' gap ++ explanation ++ "\n")

/-- What is shown to those who ask for help. -/
def help : StyledText :=
  plain "Runs a pseudocode program\n\n" ++ line none ++ plain "\n\n"
    ++ styled heading "Arguments:" ++ plain s!"\n  {fileName}  The program to run\n\n"
    ++ styled heading "Options:" ++ plain "\n"
    ++ flagEntry none .rangeSymbol "Symbol between the bounds of a `dla` loop"
    ++ flagEntry (some 'v') .verbose ""
    ++ flagEntry (some 'h') .help "Print help"
    ++ flagEntry (some 'V') .version "Print version"

/-- What is shown to those who ask for the version. -/
def version : StyledText :=
  plain s!"pseudo-interpreter {versionNumber}\n"

end Usage

/-! ## Why a command line is refused -/

namespace UsageFault

open StyledText (plain styled)
open Usage (right wrong literal)

/-- What is wrong. -/
def message : UsageFault → StyledText
  | missingFile _ =>
    plain "the following required arguments were not provided:\n  "
      ++ styled right Usage.fileName
  | emptyFile => missingValue Usage.fileName
  | missingSymbol => missingValue (Usage.flagName .rangeSymbol)
  | repeated flag =>
    plain "the argument '" ++ styled wrong (Usage.flagName flag)
      ++ plain "' cannot be used multiple times"
  | uncalledValue value flag _ =>
    plain "unexpected value '" ++ styled wrong value ++ plain "' for '"
      ++ styled literal (Usage.flagName flag) ++ plain "' found; no more were expected"
  | surplus argument => unexpected argument
  | unknownLetter letter => unexpected s!"-{letter}"
  | unknownFlag spelling _ _ _ => unexpected s!"--{spelling}"
where
  missingValue (place : String) : StyledText :=
    plain "a value is required for '" ++ styled wrong place
      ++ plain "' but none was supplied"
  unexpected (argument : String) : StyledText :=
    plain "unexpected argument '" ++ styled wrong argument ++ plain "' found"

/-- What may have been meant. -/
def tip : UsageFault → StyledText
  | unknownLetter letter => asValue s!"-{letter}"
  | unknownFlag _ (some similar) _ _ =>
    opening ++ plain "a similar argument exists: '" ++ styled right s!"--{similar.spelling}"
      ++ plain "'"
  | unknownFlag spelling none _ _ => asValue s!"--{spelling}"
  | _ => []
where
  opening : StyledText := plain "\n\n  " ++ styled right "tip:" ++ plain " "
  asValue (argument : String) : StyledText :=
    opening ++ plain "to pass '" ++ styled wrong argument ++ plain "' as a value, use '"
      ++ styled right s!"-- {argument}" ++ plain "'"

/-- How the command line would be right. -/
def usage : UsageFault → StyledText
  | emptyFile | missingSymbol => []
  | missingFile used => blankLine ++ Usage.line (some used)
  | uncalledValue _ flag isFirst =>
    blankLine ++ if isFirst then Usage.line (some [flag]) else Usage.lineOfChoice flag
  | unknownFlag _ _ used hasFile =>
    blankLine ++ Usage.line (if used = [] && !hasFile then none else some used)
  | _ => blankLine ++ Usage.line none
where
  blankLine : StyledText := plain "\n\n"

/-- All that a user is told about a refusal. -/
def shown (fault : UsageFault) : StyledText :=
  styled Usage.alarm "error:" ++ plain " " ++ fault.message ++ fault.tip ++ fault.usage
    ++ plain "\n\nFor more information, try '" ++ styled literal "--help" ++ plain "'.\n"

end UsageFault

end Tablica
