import SchemaRename.Cli.Response
import SchemaRename.FileTree.Difference

/-!
# The Program

The tool at a terminal.

What a request names is read into a tree, the request is answered on that
tree, and what has changed is written back. Everything that decides anything
is in the other modules; here files become values and values become files.

## Main definitions

* `loadPath`: A path and everything below it, read into a tree.
* `perform`: One step on real files.
* `runProgram`: The program.
-/

namespace SchemaRename

/-- The location that an absolute path names, if it has no links in it. -/
def locationOf (absolute : String) : Location :=
  (Path.mk absolute).steps

/-- Reads an entry and, if it is a folder, everything below it. Links are kept
    with the place they lead to, which is read too. -/
partial def loadEntry (t : FileTree) (l : Location) : IO FileTree := do
  if (t.get? l).isSome && !l.isEmpty && t.get? l != some .folder then return t
  let here := (← IO.currentDir) / l.path.text
  match ← here.symlinkMetadata.toBaseIO with
  | .error _ => return t
  | .ok metadata =>
    match metadata.type with
    | .dir =>
      let mut t := if l.isEmpty then t else t.insert l .folder
      for entry in ← here.readDir do
        t ← loadEntry t (l ++ [entry.fileName])
      return t
    | .symlink =>
      match ← (IO.FS.realPath here).toBaseIO with
      | .error _ => return t.insert l (.link "")
      | .ok real =>
        let target := locationOf real.toString
        loadEntry (t.insert l (.link target.path.text)) target
    | _ =>
      let bytes ← IO.FS.readBinFile here
      return t.insert l (.file (.ofBytes bytes.toList))

/-- Reads what lies on the way along some names, without what is below it, and
    gives the place where the way ends. -/
partial def loadWay (t : FileTree) (here : Location) : List String → IO (FileTree × Location)
  | [] => return (t, here)
  | "." :: names => loadWay t here names
  | ".." :: names => loadWay t here.dropLast names
  | name :: names => do
    let l := here ++ [name]
    let place := (← IO.currentDir) / l.path.text
    match ← place.symlinkMetadata.toBaseIO with
    | .error _ => return (t, l)
    | .ok metadata =>
      match metadata.type with
      | .dir => loadWay (if (t.get? l).isSome then t else t.insert l .folder) l names
      | .symlink =>
        match ← (IO.FS.realPath place).toBaseIO with
        | .error _ => return (t.insert l (.link ""), l)
        | .ok real =>
          let target := locationOf real.toString
          let (t, target) ← loadWay (t.insert l (.link target.path.text)) [] target
          loadWay t target names
      | _ => return (t, l)

/-- A path and everything below it, read into a tree. -/
def loadPath (t : FileTree) (p : Path) : IO FileTree := do
  let start := if p.isAbsolute then [] else t.workingFolder
  let (t, l) ← loadWay t start p.steps
  loadEntry t l

/-- The paths that a command names. -/
def Cli.Command.paths (home : String) : Cli.Command → List Path
  | .run config options =>
    [⟨Path.expandHome home config⟩, ⟨Path.expandHome home options.inputFolder⟩]
  | .rules config _ | .catalog config _ => [⟨Path.expandHome home config⟩]

/-- The configuration that a command names. -/
def Cli.Command.configPath : Cli.Command → String
  | .run config _ | .rules config _ | .catalog config _ => config

/-- Reads everything a command needs. -/
def loadFor (home : String) (command : Cli.Command) : IO FileTree := do
  let workingFolder := locationOf (← IO.FS.realPath (← IO.currentDir)).toString
  let (t, _) ← loadWay { workingFolder } [] workingFolder
  let t ← (command.paths home).foldlM loadPath t
  match RenameMap.load t home command.configPath with
  | .error _ => return t
  | .ok m => (m.overlayFolder? home).toList.foldlM loadPath t

/-- One step on real files. -/
def perform (edit : Edit) : IO Unit := do
  let place (l : Location) := l.path.text
  match edit with
  | .removeFile l => IO.FS.removeFile (place l)
  | .removeFolder l => IO.FS.removeDir (place l)
  | .createFolder l => IO.FS.createDirAll (place l)
  | .writeFile l (.text s) => IO.FS.writeFile (place l) s
  | .writeFile l (.bytes b) => IO.FS.writeBinFile (place l) ⟨b.toArray⟩

/-- Prints what the program has to say. -/
def printOutput (elapsedMs : Nat) : Cli.Output → IO Unit
  | .nothing e => IO.eprintln e.message
  | .text s => IO.print s
  | .answer result => IO.println (Cli.envelope (some elapsedMs) result).indented

/-- The program: reads, answers, writes back and prints. -/
def runProgram (args : List String) : IO UInt32 := do
  let began ← IO.monoMsNow
  let home := (← IO.getEnv "HOME").getD "~"
  let before ← match Cli.parseArguments args with
    | .ok (.command command) => loadFor home command
    | _ => pure {}
  let (code, output, after) := Cli.respond home args before
  (before.edits after).forM perform
  printOutput ((← IO.monoMsNow) - began) output
  return code.toUInt32

end SchemaRename

/-- The program at a terminal. -/
def main (args : List String) : IO UInt32 :=
  SchemaRename.runProgram args
