import Rehost.CommandLine.Arguments

/-! What the command line says about itself. -/
namespace Rehost.CommandLine

def programName : Text := "nodeify"

def usage : Text :=
  "usage: nodeify [-h] [-o OUTPUT] [--config CONFIG] [--origin ORIGIN]\n" ++
  "               [--write-artifacts DIR] [--report FILE] [--dry-run] [--profile]\n" ++
  "               [--verbose] [--log-file LOG_FILE] [--debug-log FILE]\n" ++
  "               [input]\n"

def help : Text :=
  usage ++ "\n" ++
  "Convert the browser headless script into a Node.js module\n" ++
  "\n" ++
  "positional arguments:\n" ++
  "  input                 headless script to convert (default: scripts/headless-\n" ++
  "                        min.js)\n" ++
  "\n" ++
  "options:\n" ++
  "  -h, --help            show this help message and exit\n" ++
  "  -o OUTPUT, --out OUTPUT, --output OUTPUT\n" ++
  "                        output module path\n" ++
  "  --config CONFIG       YAML file providing defaults for these options\n" ++
  "  --origin ORIGIN       Origin header sent by the WebSocket client\n" ++
  "  --write-artifacts DIR\n" ++
  "                        write per-pass artifacts to DIR\n" ++
  "  --report FILE         write a JSON run report to FILE\n" ++
  "  --dry-run             run every pass without writing the output module\n" ++
  "  --profile             print pass timings to stderr\n" ++
  "  --verbose             enable verbose colourised logging\n" ++
  "  --log-file LOG_FILE   log file path; pass an empty string to disable file\n" ++
  "                        logging\n" ++
  "  --debug-log FILE      trace per-pass metadata to FILE\n"

def complaint (e : Misuse) : Text := usage ++ programName ++ ": error: " ++ e.message ++ "\n"

namespace Stop

def report : Stop → Nat × Text × Text
  | help => (0, CommandLine.help, "")
  | misuse e => (2, "", complaint e)

end Stop
end Rehost.CommandLine
