import StageTree.Tools.Session

/-!
# The command line

`stagetree [FILE ...]` serves the pipeline tools on standard input and output, one JSON-RPC
message a line, until the input ends. The workspace holds the files named on the command line,
read when the server starts, at their places below the directory the server runs in (the one
`PWD` names); a file that cannot be read is left out, with a note on standard error. The
settings come from the environment. No fetch reaches a hosted repository: each fails with the
reason `network unavailable`.
-/

namespace StageTree.Main

/-- The settings of the process's environment. -/
def readSettings : IO Settings := do
  return Settings.ofEnvironment (← Environment.readWith fun n => IO.getEnv n)

/-- The volume holding the named files at their places below the working directory. -/
def loadFiles (cwd : String) (paths : List String) : IO Files.Volume := do
  let start := (Files.Volume.mk []).makeDirs (Files.Path.parse cwd).parts
  paths.foldlM (fun v p => do
    let place := ((Files.Path.parse cwd).join (Files.Path.parse p)).parts
    try
      let bytes ← IO.FS.readBinFile p
      return v.put place (.file bytes)
    catch e =>
      IO.eprintln ("not read: " ++ p ++ ": " ++ toString e)
      return v) start

/-- Answers the lines of standard input until it ends. -/
partial def serve (stdin stdout : IO.FS.Stream) (w : Workspace) : IO Unit := do
  let line ← stdin.getLine
  if line.isEmpty then return
  let (reply, w) := Tools.answerLine w line
  if let some r := reply then
    stdout.putStrLn r.compact
    stdout.flush
  serve stdin stdout w

end StageTree.Main

open StageTree in
/-- Serves the tools over the files named as arguments. -/
def main (args : List String) : IO UInt32 := do
  let cwd := (← IO.getEnv "PWD").getD "/"
  let settings ← Main.readSettings
  let volume ← Main.loadFiles cwd args
  let w : Workspace :=
    { volume := volume
      cwd := cwd
      cache := Store.Cache.empty settings.cacheSize
      settings := settings
      network := fun _ => .failed "network unavailable" }
  Main.serve (← IO.getStdin) (← IO.getStdout) w
  return 0
