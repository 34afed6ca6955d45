import CoverageAccess.CommandLine.Run
/-!
# The program

The command line on the file system and the environment of the process.
-/

namespace CoverageAccess

/-- The failure that an error of the system stands for. The number 20 says that a file stands where
a directory should, the number 36 that a name is too long. -/
def failureOf : IO.Error → Files.Failure
  | .inappropriateType _ number _ =>
    if number = 20 then .underFile else .directory
  | .invalidArgument _ number _ =>
    if number = 36 then .longName else .absent
  | _ => .absent

def readFile : Files.Reader IO := fun path => do
  try
    let content ← IO.FS.readBinFile path
    return .ok content.toList
  catch e => return .error (failureOf e)

/-- The variables to which the command line listens, as far as they are there. -/
def environment : IO CommandLine.Environment := do
  let names := ["WCS_CONFIG", "WCS_LOG_LEVEL", "WCS_LOG_JSON"]
  let found ← names.mapM fun name => do return (← IO.getEnv name).map fun value => (name, value)
  return found.filterMap id

end CoverageAccess

def main (arguments : List String) : IO UInt32 := do
  let outcome ← CoverageAccess.CommandLine.run CoverageAccess.readFile
    (← CoverageAccess.environment) arguments
  IO.print outcome.output
  return UInt32.ofNat outcome.status
