import DomainColoring.CommandLine.Arguments

/-!
# Texts about the use of the program
-/

namespace DomainColoring.CommandLine

/-- The name and the version of the program. -/
def versionText : String := "complex-graph 0.1.0"

/-- How the program is called. -/
def usageText : String :=
  String.intercalate "\n" [
    "Domain-coloring plots of complex-valued functions",
    "",
    "Usage: complex-graph [OPTIONS] <COMMAND>",
    "",
    "Commands:",
    "  func           Draw a complex-valued function",
    "  pows           Draw a series of power functions z^p",
    "  exps           Draw exp z over a series of shrinking areas",
    "  examples       Draw the basic elementary functions",
    "  config-schema  Print the JSON schema of the settings file",
    "  help           Print this message",
    "",
    "Options:",
    "      --config <CONFIG>    Settings file; the options below override it",
    "  -W, --width <WIDTH>      Width of each plot panel in pixels",
    "  -H, --height <HEIGHT>    Height of each plot panel in pixels",
    "  -q, --quality <QUALITY>  Samples per axis when drawing the image panel",
    "      --z-order <Z_ORDER>  Which part of the source point wins when samples collide",
    "      --threads <THREADS>  Number of workers",
    "      --json               Print a JSON summary instead of reports",
    "  -h, --help               Print help",
    "  -V, --version            Print version"]

/-- What is said about refused arguments. -/
def UsageError.message : UsageError → String
  | helpAsked => usageText
  | versionAsked => versionText
  | nothingGiven => usageText
  | missingCommand => "error: a command is required"
  | unknownCommand => "error: unrecognized command"
  | unknownArgument => "error: unexpected argument"
  | missingArgument => "error: a required argument was not provided"
  | repeatedOption => "error: an option cannot be used multiple times"
  | valueForFlag => "error: unexpected value for a flag"
  | missingValue => "error: a value is required for an option"
  | unknownChoice => "error: invalid value: not one of the possible values"
  | malformedValue => "error: invalid value"

/-- Whether refused arguments only ask for a text, which is no failure. -/
def UsageError.isRequest : UsageError → Bool
  | helpAsked => true
  | versionAsked => true
  | _ => false

end DomainColoring.CommandLine
