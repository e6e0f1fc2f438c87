import RadarProfile.Fault
import RadarProfile.Line.Basic
import RadarProfile.Text.Utf8

set_option autoImplicit false

/-! # Reading lines from a stream

A stream answers each read with some bytes or with a fault. Lines end at newlines, and the
bytes are cut there before they are decoded. An interrupted read is made again. Any other
fault is handed on in its place; the line that was being read is lost and gets no number,
and reading goes on with what the stream answers next. At the end of the stream a last
line without a newline counts if it has any byte. -/

namespace RadarProfile

/-- The answer of a stream to one read. -/
inductive Chunk where
  | bytes (bytes : List UInt8)
  | failed (fault : Fault)
deriving DecidableEq

/-- What a reader yields at a time: a line, or the fault that stands in its place. -/
abbrev Item := Except Fault Line

namespace Reader

def newline : UInt8 := 0x0A

/-- The line that a row of bytes without newline makes. -/
def lineOf (number : Nat) (bytes : List UInt8) : Line :=
  Line.ofRaw number (Utf8.decode bytes)

def linesAfter (number : Nat) : List (List UInt8) → List Item
  | [] => []
  | bytes :: rest => .ok (lineOf (number + 1) bytes) :: linesAfter (number + 1) rest

/-- Reads on after `number` lines, with the bytes of an unfinished line at hand. -/
def readFrom (number : Nat) (unfinished : List UInt8) : List Chunk → List Item
  | [] => if unfinished.isEmpty then [] else [.ok (lineOf (number + 1) unfinished)]
  | .bytes bytes :: rest =>
    let pieces := (unfinished ++ bytes).splitOnP (· == newline)
    -- no newline has come yet after the last piece
    linesAfter number pieces.dropLast ++
      readFrom (number + pieces.dropLast.length) (pieces.getLast?.getD []) rest
  | .failed fault :: rest =>
    if fault.isRetried then readFrom number unfinished rest
    -- the bytes of the unfinished line are lost
    else .error fault :: readFrom number [] rest

def read (chunks : List Chunk) : List Item := readFrom 0 [] chunks

/-- The items that a consumer sees who gives up at the `patience`-th fault. -/
def untilFaults : Nat → List Item → List Item
  | 0, _ => []
  | _ + 1, [] => []
  | patience + 1, .ok line :: rest => .ok line :: untilFaults (patience + 1) rest
  | patience + 1, .error fault :: rest => .error fault :: untilFaults patience rest

end Reader

/-- Where lines come from: a stream with an end, or one that fails at every read, as an
opened directory does. -/
inductive ByteStream where
  | ofChunks (chunks : List Chunk)
  | stuck (fault : Fault)
deriving DecidableEq

namespace ByteStream

def ofBytes (bytes : List UInt8) : ByteStream := ofChunks [.bytes bytes]

/-- The items of the stream up to and with the `patience`-th fault. -/
def items (patience : Nat) : ByteStream → List Item
  | ofChunks chunks => Reader.untilFaults patience (Reader.read chunks)
  | stuck fault => List.replicate patience (.error fault)

end ByteStream

end RadarProfile
