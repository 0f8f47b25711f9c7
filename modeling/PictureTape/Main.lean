/-
**The command line.**

The program writes the picture of four boxes into the working directory and shows what the
environment variable `RUST_LOG` admits of its journal on the standard error output.  It ends with
`0`, also when the file cannot be written.
-/

import PictureTape.Generator

set_option autoImplicit false
set_option relaxedAutoImplicit false

namespace PictureTape

/-- Writes a file. -/
def writeFile (path : String) (bytes : Bytes) : IO (Except FileFailure Unit) := do
  try
    IO.FS.writeBinFile path ⟨bytes.toArray⟩
    return .ok ()
  catch
    | .noFileOrDirectory _ _ _ => return .error .notFound
    | .inappropriateType _ _ _ => return .error .isDirectory
    | e => return .error (.other (toString e))

end PictureTape

open PictureTape in
/-- Writes the picture and shows the journal. -/
def main : IO UInt32 := do
  let spec ← IO.getEnv "RUST_LOG"
  let outcome ←
    match Generator.request with
    | some (path, bytes) => writeFile path bytes
    | none => pure (.ok ())
  IO.eprint (Generator.shown spec (Generator.journalFor outcome))
  return 0
