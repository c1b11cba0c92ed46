import CodeAtlas.Command.Analysis
import CodeAtlas.Command.Inspection
import CodeAtlas.Command.Settings
import CodeAtlas.CommandLine.Parser

/-!
# The program

What the program does for a command line: the world after it, the exit code, and what is printed. A
command line with a fault ends with code 2, a command that fails with code 1.
-/

namespace CodeAtlas

/-- Run a command under the configuration that applies. -/
def Command.run (parser : SyntaxParser) (globals : GlobalOptions) (command : Command) :
    Action Unit := do
  let config ← loadConfig globals
  match command with
  | .generate options => generateGraph parser globals options config
  | .update options => updateGraph parser globals options config
  | .stats options => showStats globals options config
  | .deps options => listDependencies globals options config
  | .configShow json => showConfig globals json config
  | .configInit userWide force => writeConfig globals userWide force

/-- A summary of the commands. -/
def usageText : String :=
  Text.join "\n"
    ["Usage: depgraph [OPTIONS] <COMMAND>",
      "",
      "Commands:",
      "  generate  Build the dependency graph from scratch",
      "  update    Update the stored graph with the changes since it was built",
      "  stats     Show summary statistics of the stored graph",
      "  deps      List the dependencies or dependents of a component",
      "  config    View and manage configuration",
      ""]

/-- The version of the program or of one of its commands. -/
def versionText (path : List CommandName) : String :=
  Text.join "-" (path.map CommandName.word) ++ " " ++ programVersion ++ "\n"

/-- Run the program with arguments and an environment. -/
def runProgram (parser : SyntaxParser) (environment : String → Option String)
    (args : List String) (world : World) : Outcome × World :=
  match CommandLine.parse environment args with
  | .run globals command => (Command.run parser globals command).outcome world
  | .version path => (⟨0, versionText path, ""⟩, world)
  | .help => (⟨0, usageText, ""⟩, world)
  | .faulty error => (⟨2, "", "error: " ++ error.message ++ "\n\n" ++ usageText⟩, world)

end CodeAtlas
