/-!
# Where output goes

Output is written in pieces, one after the other. A sink takes a limited number of bytes, or any
number. The piece that goes beyond the limit is taken as far as it fits, the write fails, and no
later piece is written.

The output that a sink delivers is therefore always the beginning of what was to be written, and it
is all of it if no write failed and the sink could be flushed.
-/

namespace TestSelection

/-- Why a write fails. -/
inductive WriteFailure where
  | full
  | noSpace
deriving DecidableEq, Repr, Inhabited

/-- The wording of a failed write. -/
def WriteFailure.message : WriteFailure → String
  | .full => "failed to write whole buffer"
  | .noSpace => "No space left on device (os error 28)"

/-- What is behind a sink. -/
inductive Device where
  /-- Takes every byte. -/
  | endless
  /-- Takes a number of bytes and then fails. -/
  | limited (bytes : Nat)
  /-- Takes nothing, but this shows only when the buffer in front of it is full or flushed. -/
  | broken
deriving DecidableEq, Repr

/-- The bytes that fit into the buffer in front of a device. -/
def bufferSize : Nat := 8192

/-- A device, and the bytes that were taken so far, last first. -/
structure Sink where
  device : Device
  backwards : List UInt8

namespace Sink

/-- A sink that has not taken anything. -/
def ofDevice (device : Device) : Sink := ⟨device, []⟩

/-- The bytes that were taken. -/
def taken (s : Sink) : List UInt8 := s.backwards.reverse

/-- The number of bytes that fit, if there is a limit. -/
def limit? (s : Sink) : Option Nat :=
  match s.device with
  | .endless => none
  | .limited n => some n
  | .broken => some bufferSize

/-- How a write beyond the limit fails. -/
def failure (s : Sink) : WriteFailure :=
  match s.device with
  | .broken => .noSpace
  | _ => .full

/-- Take bytes, as far as they fit. -/
def put (s : Sink) (bytes : List UInt8) : Sink × Except WriteFailure Unit :=
  match s.limit? with
  | none => ({ s with backwards := bytes.reverse ++ s.backwards }, .ok ())
  | some limit =>
    let room := limit - s.backwards.length
    let taken := { s with backwards := (bytes.take room).reverse ++ s.backwards }
    (taken, if bytes.length ≤ room then .ok () else .error s.failure)

/-- Write pieces up to the first that does not fit. -/
def write (s : Sink) : List String → Sink × Except WriteFailure Unit
  | [] => (s, .ok ())
  | piece :: rest =>
    match s.put piece.toUTF8.toList with
    | (s, .ok ()) => write s rest
    | (s, .error e) => (s, .error e)

/-- Hand over what is in the buffer. -/
def flush (s : Sink) : Except WriteFailure Unit :=
  match s.device with
  | .broken => if s.backwards.isEmpty then .ok () else .error .noSpace
  | _ => .ok ()

/-- The bytes that arrived behind the sink. -/
def delivered (s : Sink) : List UInt8 :=
  match s.device with
  | .broken => []
  | _ => s.taken

end Sink

end TestSelection
