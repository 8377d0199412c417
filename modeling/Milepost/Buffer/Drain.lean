import Milepost.Buffer
import Milepost.Failure.Io

/-!
# Draining a source

A source of bytes yields chunks and faults. Draining it collects all chunks up to the end of
input, which is an empty chunk or the end of what the source yields. An interruption is passed
over; any other fault ends the draining.

* `drainFrom_chunk`: a chunk is added to what was collected.
* `drainFrom_interrupted`: an interruption changes nothing.
-/

namespace Milepost

/-- What a source yields when it is read once. -/
inductive SourceEvent
  /-- Some bytes; none at all are the end of input. -/
  | chunk (data : ByteArray)
  | fault (error : IoError)

namespace Buffer

/-- The bytes of a source from `collected` on, or the fault that ended the draining. -/
def drainFrom (collected : ByteArray) : List SourceEvent → Except IoError ByteArray
  | [] => .ok collected
  | .chunk data :: rest =>
    if data.size = 0 then .ok collected else drainFrom (collected ++ data) rest
  | .fault error :: rest =>
    if error.kind = .interrupted then drainFrom collected rest else .error error

/-- A buffer with everything the source yields. -/
def drain (source : List SourceEvent) : Except Failure Buffer :=
  match drainFrom .empty source with
  | .ok bytes => .ok ⟨bytes⟩
  | .error error => .error (Failure.ofIo error)

theorem drainFrom_chunk {collected data : ByteArray} (rest : List SourceEvent)
    (h : data.size ≠ 0) :
    drainFrom collected (.chunk data :: rest) = drainFrom (collected ++ data) rest := by
  simp [drainFrom, h]

theorem drainFrom_interrupted {collected : ByteArray} {error : IoError}
    (rest : List SourceEvent) (h : error.kind = .interrupted) :
    drainFrom collected (.fault error :: rest) = drainFrom collected rest := by
  simp [drainFrom, h]

end Buffer

end Milepost
