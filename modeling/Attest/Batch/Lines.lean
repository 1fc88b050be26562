import Attest.Bytes

/-!
# Lines of a file

A line ends in a line feed, or where the file ends. One carriage return right before the line
feed belongs to the line end; at the end of the file, without a line feed, it belongs to the line.
-/

namespace Attest.Batch

/-- A finished line, given from its last byte to its first, without the carriage return of its
line end. -/
def finishLine : Bytes → Bytes
  | [] => []
  | byte :: reversed => if byte = 0x0d then reversed.reverse else (byte :: reversed).reverse

/-- The lines of a file, where part of the first line has been taken already, its last byte
first. -/
def linesFrom (taken : Bytes) : Bytes → List Bytes
  | [] => if taken = [] then [] else [taken.reverse]
  | byte :: rest =>
    if byte = 0x0a then finishLine taken :: linesFrom [] rest else linesFrom (byte :: taken) rest

/-- The lines of a file. -/
def lines (file : Bytes) : List Bytes := linesFrom [] file

end Attest.Batch
