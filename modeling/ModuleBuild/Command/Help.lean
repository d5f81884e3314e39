import ModuleBuild.Command.Basic

/-!
# Help

The texts that describe the program and its commands to users.

## Main definitions

* `programVersion` — the version that the program reports.
* `CommandTopic.help` — the text on a topic.
-/

namespace ModuleBuild

/-- The name that users call the program by. -/
def programName : String := "viper-transform"

/-- The version that the program reports. -/
def programVersion : String := "0.1.0"

namespace CommandTopic

/-- The name of a command. -/
def name : CommandTopic → String
  | program => ""
  | transform => "transform"
  | check => "check"
  | bundle => "bundle"
  | helpers => "helpers"

/-- What a topic is for. -/
def summary : CommandTopic → String
  | program => "Compile bundler modules and chunks with deduplicated helpers"
  | transform => "Compile one module the way the input plugin would"
  | check => "Verify the compiler configuration of a module and print its helper strategy"
  | bundle => "Bundle entry modules into one chunk"
  | helpers => "Print the helper definitions as a standalone file"

/-- What stands behind the name of the program. -/
def usage : CommandTopic → String
  | program => "<COMMAND>"
  | transform => "transform [OPTIONS] <INPUT>"
  | check => "check [OPTIONS] <INPUT>"
  | bundle => "bundle [OPTIONS] <ENTRY>..."
  | helpers => "helpers [OPTIONS]"

/-- The commands, operands and options of a topic. -/
def details : CommandTopic → List String
  | program => [
    "Commands:",
    "  transform  Compile one module the way the input plugin would",
    "  check      Verify the compiler configuration of a module and print its helper strategy",
    "  bundle     Bundle entry modules into one chunk",
    "  helpers    Print the helper definitions as a standalone file",
    "  help       Print this message or the help of the given subcommand(s)",
    "",
    "Options:",
    "  -h, --help     Print help",
    "  -V, --version  Print version"]
  | transform => [
    "Arguments:",
    "  <INPUT>  Module to compile",
    "",
    "Options:",
    "  -o, --output <OUTPUT>    Output file (defaults to stdout)",
    "      --options <OPTIONS>  Plugin options as a JSON file",
    "      --map                Write the source map next to the output",
    "  -h, --help               Print help"]
  | check => [
    "Arguments:",
    "  <INPUT>  Module whose configuration is checked",
    "",
    "Options:",
    "      --options <OPTIONS>  Plugin options as a JSON file",
    "  -h, --help               Print help"]
  | bundle => [
    "Arguments:",
    "  <ENTRY>...  Entry point file(s)",
    "",
    "Options:",
    "  -o, --output <OUTPUT>",
    "          Output file (defaults to stdout)",
    "      --format <FORMAT>",
    "          Output format (es, cjs, amd, iife, umd, system) [default: es]",
    "      --name <NAME>",
    "          Global name for iife and umd bundles",
    "      --options <OPTIONS>",
    "          Input plugin options as a JSON file",
    "      --output-options <OUTPUT_OPTIONS>",
    "          Also compile the finished chunk, with these output plugin options",
    "  -h, --help",
    "          Print help"]
  | helpers => [
    "Options:",
    "      --whitelist <WHITELIST>      Only these helpers (and their dependencies)",
    "      --output-type <OUTPUT_TYPE>  Shape of the generated file [default: module] " ++
      "[possible values: module, global, var]",
    "  -h, --help                       Print help"]

/-- The text on a topic. -/
def help (topic : CommandTopic) : String :=
  "\n".intercalate <|
    [topic.summary, "", "Usage: " ++ programName ++ " " ++ topic.usage, ""] ++ topic.details

end CommandTopic

end ModuleBuild
