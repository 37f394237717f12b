import SdkConformance.Command.Arguments

/-!
# Help

The texts that explain the program and its commands, and the line with its version.
-/

namespace SdkConformance.Command

/-- The name of the program with its version. -/
def versionLine : String := "sdkscope 0.1.0"

/-- The lines of help. -/
def HelpTopic.lines : HelpTopic → List String
  | .program => [
    "Command line front end for sdkscope",
    "",
    "Usage: sdkscope [OPTIONS] <COMMAND>",
    "",
    "Commands:",
    "  check     Validate the methods of a declaration manifest against every applicable SDK",
    "  methods   List the method table of a class in one SDK's reference archive",
    "  versions  List configured SDK versions, optionally restricted to a range",
    "  help      Print this message or the help of the given subcommand(s)",
    "",
    "Options:",
    "      --json     Emit output as JSON instead of human-readable text",
    "  -v, --verbose  Enable verbose (debug-level) logging output",
    "  -h, --help     Print help",
    "  -V, --version  Print version"]
  | .verb .check => [
    "Validate the methods of a declaration manifest against every applicable SDK",
    "",
    "Usage: sdkscope check [OPTIONS] --sdks <FILE> <MANIFEST>",
    "",
    "Arguments:",
    "  <MANIFEST>  JSON manifest of declared methods",
    "",
    "Options:",
    "      --json         Emit output as JSON instead of human-readable text",
    "      --sdks <FILE>  Properties file mapping SDK versions to reference archives",
    "  -v, --verbose      Enable verbose (debug-level) logging output",
    "  -h, --help         Print help"]
  | .verb .methods => [
    "List the method table of a class in one SDK's reference archive",
    "",
    "Usage: sdkscope methods [OPTIONS] --sdks <FILE> --sdk <N> <CLASS>",
    "",
    "Arguments:",
    "  <CLASS>  Fully qualified class name, e.g. android.view.View",
    "",
    "Options:",
    "      --json         Emit output as JSON instead of human-readable text",
    "      --sdks <FILE>  Properties file mapping SDK versions to reference archives",
    "      --sdk <N>      SDK version to read from",
    "  -v, --verbose      Enable verbose (debug-level) logging output",
    "  -h, --help         Print help"]
  | .verb .versions => [
    "List configured SDK versions, optionally restricted to a range",
    "",
    "Usage: sdkscope versions [OPTIONS] --sdks <FILE>",
    "",
    "Options:",
    "      --json         Emit output as JSON instead of human-readable text",
    "      --sdks <FILE>  Properties file mapping SDK versions to reference archives",
    "      --min <N>      Lowest version to include",
    "  -v, --verbose      Enable verbose (debug-level) logging output",
    "      --max <N>      Highest version to include",
    "  -h, --help         Print help"]
  | .help => [
    "Print this message or the help of the given subcommand(s)",
    "",
    "Usage: sdkscope help [COMMAND]...",
    "",
    "Arguments:",
    "  [COMMAND]...  Print help for the subcommand(s)"]

end SdkConformance.Command
