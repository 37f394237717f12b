import SdkConformance.Command.Run

/-!
# The program

Looks at the files that the arguments lead to, hands them to `Command.run`, prints what it answers.
-/

namespace SdkConformance

/-- What the system says of a file that cannot be read. -/
def faultOf (code : UInt32) (text : String) : FileFault :=
  let number := if code < 0x80000000 then code else 0 - code
  if number = 2 then .notFound
  else if number = 20 then .notDirectory
  else if number = 36 then .nameTooLong
  else .other s!"{text} (os error {number})"

/-- What a path leads to. -/
def lookAt (path : String) : IO (Except FileFault FileNode) := do
  try
    let octets ← IO.FS.readBinFile path
    return .ok (.file octets.data.toList)
  catch
    | .noFileOrDirectory _ code text => return .error (faultOf code text)
    | .inappropriateType _ code text =>
      if code = 21 then return .ok .directory else return .error (faultOf code text)
    | .permissionDenied _ code text => return .error (faultOf code text)
    | .invalidArgument _ code text => return .error (faultOf code text)
    | e => return .error (.other (toString e))

/-- What is known of files, and of no other path. -/
def knownFiles (known : List (String × Except FileFault FileNode)) : Files := fun path =>
  match known.find? (·.1 == path) with
  | some (_, found) => found
  | none => .error .notFound

/-- Looks at the files that arguments lead to. -/
def gatherFiles (arguments : List String) : IO Files := do
  match Command.Arguments.parse arguments with
  | .error _ => return knownFiles []
  | .ok i =>
    let named ← i.request.namedPaths.mapM fun path => return (path, ← lookAt path)
    let archives ← (i.request.archivePaths (knownFiles named)).mapM fun path =>
      return (path, ← lookAt path)
    return knownFiles (named ++ archives)

end SdkConformance

/-- Runs the program. -/
def main (arguments : List String) : IO UInt32 := do
  let outcome := SdkConformance.Command.run (← SdkConformance.gatherFiles arguments) arguments
  IO.print outcome.stdout
  if let some report := outcome.error then
    IO.eprintln report
  if outcome.exit = 2 then
    IO.eprintln "error: the arguments cannot be understood; try --help"
  return UInt32.ofNat outcome.exit
