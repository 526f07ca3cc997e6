import DocOutline.Program

set_option autoImplicit false

/-! The executable: reads the files that a run may look at, runs the program on them, and writes
what it reports. -/

namespace DocOutline

/-- What stands at a path of the file system. A path that goes on after a file cannot be opened,
    and the error names it; a directory can be opened and not be read. -/
def probe (path : Path) : IO (Except Absence Entry) := do
  try
    return .ok (.file (← IO.FS.readBinFile path))
  catch
    | .inappropriateType (some _) _ _ => return .error .notDirectory
    | .inappropriateType none _ _ => return .ok .directory
    | .permissionDenied .. => return .ok .lockedFile
    | _ => return .error .notFound

end DocOutline

open DocOutline

def main (args : List String) : IO UInt32 := do
  let spec ← IO.getEnv "RUST_LOG"
  let entries ← (pathsOf args).mapM fun path => return (path, ← probe path)
  let files : Files := fun path => (entries.lookup path).getD (.error .notFound)
  let report := runProgram files (spec.map String.toList) args
  for record in report.log do
    IO.eprintln record.line
  for line in report.errorLine do
    IO.eprintln line
  if report.exitCode = 2 then
    IO.eprint usageText
  IO.print (String.ofList report.stdout)
  return report.exitCode.toUInt32
