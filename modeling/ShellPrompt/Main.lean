import ShellPrompt.CommandLine.Executable
import ShellPrompt.CommandLine.Program

/-!
The program on a computer: it looks around, hands what it finds to `program` and writes what comes
of it. No other program is started here, so git counts as missing.
-/

namespace ShellPrompt

open CommandLine

/-- What a file holds, nothing if it cannot be read. -/
def readText? (place : String) : IO (Option String) := do
  let .ok text ← (IO.FS.readFile place).toBaseIO | return none
  return some text

/-- What stands at a place, if anything does. -/
def entryAt? (place : String) : IO (Option FileEntry) := do
  if ← ((← IO.currentDir) / place).isDir then return some .directory
  return (← readText? place).map fun text => .file text false

/-- What stands on the way to a path and at its end. -/
def lookAt (here : List String) (path : Path) : IO (List (List String × FileEntry)) := do
  let start := if path.isAbsolute then [] else here
  let ways := (List.range (path.names.length + 1)).map path.names.take
  ways.filterMapM fun names => do
    let entry ← entryAt? (path.root.text ++ Text.join "/" names)
    return entry.map (normalizeNames (start ++ names), ·)

/-- What stands in a directory. -/
def lookInto (here : List String) (directory : Path) : IO (List (List String × FileEntry)) := do
  let .ok items ← ((← IO.currentDir) / directory.text).readDir.toBaseIO | return []
  let entries ← items.toList.mapM fun item =>
    lookAt here (directory.append (.ofString item.fileName))
  return entries.flatten

/-- The files that a configuration is read from. -/
def configurationFiles (current home : Path) (arguments : List String) : IO FileTree := do
  let named := (Invocation.ofArguments arguments).toOption
  let file := (named.bind Invocation.configFile).getD (Config.defaultFile home)
  let directory := (named.bind Invocation.configDirectory).getD (Config.defaultDirectory home)
  let here := current.names
  let entries := (← lookAt here file) ++ (← lookAt here directory) ++ (← lookInto here directory)
  return ⟨entries, here⟩

/-- The environment of the running process: pairs of a name and a value. -/
def environment : IO (Dictionary String String) := do
  let text := (← readText? "/proc/self/environ").getD ""
  let pairs := (Text.fields '\x00' text).filterMap fun entry =>
    match Text.fieldRuns '=' entry.toList with
    | name :: value :: more =>
      some (String.ofList name, Text.join "=" ((value :: more).map String.ofList))
    | _ => none
  return .ofPairs pairs

/-- What the program finds around it. -/
def lookAround (arguments : List String) : IO Surroundings := do
  let current := Path.ofString (← IO.currentDir).toString
  let environ ← environment
  let home := ((environ.get? "HOME").map Path.ofString).getD current
  return {
    files := ← configurationFiles current home arguments
    configHome := home
    currentDir := current
    homeDir := home
    environ
    git := fun _ _ => .notStarted "git is not available"
    hostName := Text.trim ((← readText? "/proc/sys/kernel/hostname").getD "")
    login := (environ.get? "LNAME").or (environ.get? "USERNAME")
    executable := [(← IO.appPath).toString] }

/-- How the program is used. -/
def usage : String :=
  "usage: promptline [--config FILE] [--config-dir DIR] [--verbose] [--version] [--help]\n" ++
  "                  run --shell SHELL [--jobs JOBS] [--status STATUS]\n" ++
  "                      [--template TEMPLATE] [--no-color]\n" ++
  "       promptline [--config FILE] [--config-dir DIR] [--verbose] init SHELL [TEMPLATE]"

/-- Writes what comes of the program, and yields its exit status. -/
def report : Outcome → IO UInt32
  | .written output => do
    IO.print output
    return 0
  | .refused .version => do
    IO.print versionLine
    return 0
  | .refused .help => do
    IO.println usage
    return 0
  | .refused .misuse => do
    IO.eprintln usage
    return 2
  | .failed failure => do
    if let some message := failure.message? then IO.eprintln ("error: " ++ message)
    return failure.exitStatus.toUInt32

end ShellPrompt

/-- Runs the program on the arguments of the command line. -/
def main (arguments : List String) : IO UInt32 := do
  let around ← ShellPrompt.lookAround arguments
  ShellPrompt.report (ShellPrompt.CommandLine.program around arguments).1
