import Attest.CommandLine.Reading
import Attest.Program

/-!
# The command line

Reads the arguments, supplies a run with the file and the random blocks that its command needs,
and shows what it leaves behind.
-/

namespace Attest.Main

/-- Some random blocks, taken from the machine. -/
def randomBlocks (count : Nat) : IO Entropy :=
  (List.range count).mapM fun _ => do
    let bytes ← IO.getRandomBytes 32
    pure (Octets.ofNat 32 (Bytes.toNat bytes.data.toList))

/-- Why a file cannot be read. An error that names no path has come from reading an open file. -/
def fileError : IO.Error → Files.Error
  | .noFileOrDirectory .. => .missing
  | .permissionDenied .. => .forbidden
  | .inappropriateType (some _) .. => .notDirectory
  | .inappropriateType none .. => .directory
  | .invalidArgument (some _) .. => .tooLong
  | error => .other (toString error)

/-- The bytes of a file, or why it cannot be read. -/
def readFile (path : String) : IO (Except Files.Error Bytes) := do
  try
    let bytes ← IO.FS.readBinFile path
    pure (.ok bytes.data.toList)
  catch error => pure (.error (fileError error))

/-- What a command needs of the machine. A key takes one block when it is made and one when it is
erased, and one block in about `2 ^ 127` is no secret, so a few blocks more are enough. All work is
done in one thread. -/
def supplies : Command → IO Program.Supplies
  | .generate count => do
    let entropy ← randomBlocks (2 * count.toNat + 8)
    pure ⟨.ok [], entropy, 1⟩
  | .verifyBatch input _ => do
    let file ← readFile input
    pure ⟨file, [], 1⟩
  | _ => pure ⟨.ok [], [], 1⟩

end Attest.Main

open Attest in
/-- Runs the program on its arguments. -/
def main (arguments : List String) : IO UInt32 := do
  match CommandLine.read arguments with
  | .error error =>
    if error.exitCode = 0 then IO.println error.message else IO.eprintln error.message
    pure error.exitCode
  | .ok command =>
    let supplied ← Attest.Main.supplies command
    let transcript := Program.run supplied command
    IO.print transcript.output
    IO.eprint transcript.diagnostics
    pure transcript.exitCode
