/-!
Where the shell writes to: a record of the bytes written, with a limit on them and a limit on the
flushes. A write that goes over the limit leaves what fits.
-/

namespace LetLang

inductive ShellFault where
  | notText
  | writerFull
  | flushFailed
  deriving DecidableEq, Repr

def ShellFault.message : ShellFault → String
  | notText => "stream did not contain valid UTF-8"
  | writerFull => "writer is full"
  | flushFailed => "flush failed"

/-- `room` is the number of bytes and `flushes` the number of flushes still possible; none means
no limit. -/
structure Sink where
  written : Array UInt8 := #[]
  room : Option Nat := none
  flushes : Option Nat := none
  deriving DecidableEq, Repr

namespace Sink

/-- Writes as many of the bytes as there is room for; it is a fault if not all fit. -/
def writeBytes (s : Sink) (bytes : List UInt8) : Except ShellFault Unit × Sink :=
  match s.room with
  | none => (.ok (), { s with written := s.written ++ bytes })
  | some n =>
    (if bytes.length ≤ n then .ok () else .error .writerFull,
     { s with written := s.written ++ bytes.take n, room := some (n - bytes.length) })

def write (s : Sink) (text : String) : Except ShellFault Unit × Sink :=
  s.writeBytes text.toUTF8.toList

def writeEach (s : Sink) : List String → Except ShellFault Unit × Sink
  | [] => (.ok (), s)
  | text :: texts =>
    match s.write text with
    | (.ok (), s) => s.writeEach texts
    | (.error fault, s) => (.error fault, s)

def flush (s : Sink) : Except ShellFault Unit × Sink :=
  match s.flushes with
  | none => (.ok (), s)
  | some 0 => (.error .flushFailed, s)
  | some (n + 1) => (.ok (), { s with flushes := some n })

end Sink

end LetLang
