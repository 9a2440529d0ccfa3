import ThreeAddress.CommandLine.Run

/-!
# The program

Runs the command line on the files of the machine.
-/

namespace ThreeAddress

/-- The failure that an error of the machine stands for. The system has one code for a directory
where a file is needed and one for the opposite; they come with either sign. -/
def FileError.ofMachine : IO.Error → FileError
  | .noFileOrDirectory .. => .notFound
  | .inappropriateType _ code _ =>
    if code = 21 ∨ code = -21 then .isADirectory else .notADirectory
  | error => .refused (toString error)

instance : FileSystem IO where
  stat path := do
    try
      let metadata ← ((← IO.currentDir) / path).metadata
      return .ok (if metadata.type == .dir then .directory else .file)
    catch error => return .error (.ofMachine error)
  read path := do
    try
      match String.fromUTF8? (← IO.FS.readBinFile path) with
      | some text => return .ok text
      | none => return .error .invalidData
    catch error => return .error (.ofMachine error)
  write path text := do
    try
      IO.FS.writeFile path text
      return .ok ()
    catch error => return .error (.ofMachine error)

end ThreeAddress

/-- Runs the command line and prints its outcome. -/
def main (arguments : List String) : IO UInt32 := do
  let outcome ← ThreeAddress.CommandLine.run .plain arguments
  IO.print outcome.stdout
  IO.eprint outcome.stderr
  return outcome.exitStatus.toUInt32
