import CallCenter.Foundation.Text
import Mathlib.Algebra.GroupWithZero.Nat

/-!
# The packet buffer of a connection

`esl_buffer.c`.  The memory is modelled whole, with the bytes that were read and those behind the bytes
in use, since the search for a packet looks at them.
-/

namespace CallCenter.Model

open CallCenter.Foundation (Text)

/-- What the C code must not do: read or write outside its memory, fail an assertion, or ask for
memory of a negative length. -/
inductive EslFault where
  | overread
  | overwrite
  | assertion
  | negativeLength
  deriving DecidableEq, Repr

/-- `esl_buffer`.  `datalen` is the length of `data`, which is null where it is empty; `head` counts
from its start. -/
structure EslBuffer where
  data : Text
  head : Nat := 0
  used : Nat := 0
  actuallyUsed : Nat := 0
  maxLen : Nat
  blocksize : Nat
  loops : Int := 0
  deriving DecidableEq, Repr

/-- `esl_buffer_create`. -/
def eslBufferCreate (blocksize startLen maxLen : Nat) : EslBuffer where
  data := List.replicate startLen '\x00'
  maxLen := maxLen
  blocksize := blocksize

namespace EslBuffer

/-- `esl_buffer_len`. -/
def len (buffer : EslBuffer) : Nat := buffer.data.length

/-- `esl_buffer_inuse`. -/
def inuse (buffer : EslBuffer) : Nat := buffer.used

/-- `esl_buffer_freespace`, with the difference of two `size_t`. -/
def freespace (buffer : EslBuffer) : Nat :=
  if buffer.maxLen ≠ 0 then (buffer.maxLen + 2 ^ 64 - buffer.used) % 2 ^ 64 else 1000000

/-- The `reading` that `seek`, `toss` and `read` work out. -/
def reading (datalen : Nat) (buffer : EslBuffer) : Nat :=
  if buffer.used < 1 then 0 else if datalen ≤ buffer.used then datalen else buffer.used

/-- `esl_buffer_seek`: a position in all that the memory holds, not one from the head on. -/
def seek (datalen : Nat) (buffer : EslBuffer) : Nat × EslBuffer :=
  if buffer.used < 1 then (0, buffer)
  else
    let reading := buffer.reading datalen
    (reading, { buffer with used := buffer.actuallyUsed - reading, head := reading })

/-- `esl_buffer_toss`. -/
def toss (datalen : Nat) (buffer : EslBuffer) : Nat × EslBuffer :=
  let reading := buffer.reading datalen
  (buffer.used - reading, { buffer with used := buffer.used - reading, head := buffer.head + reading })

/-- `esl_buffer_set_loops`. -/
def setLoops (loops : Int) (buffer : EslBuffer) : EslBuffer := { buffer with loops }

/-- `esl_buffer_read`, with the bytes it copies. -/
def read (datalen : Nat) (buffer : EslBuffer) : Text × EslBuffer :=
  let reading := buffer.reading datalen
  ((buffer.data.drop buffer.head).take reading,
    { buffer with used := buffer.used - reading, head := buffer.head + reading })

/-- `esl_buffer_read_loop`: what it returns, the bytes it copies, and the buffer. -/
def readLoop (datalen : Nat) (buffer : EslBuffer) : Nat × Text × EslBuffer :=
  let (first, rest) := buffer.read datalen
  if first.length < datalen then
    if rest.loops = 0 then (first.length, first, rest)
    else
      let (second, again) := { rest with head := 0, used := rest.actuallyUsed }.read (datalen - first.length)
      (second.length, first ++ second, { again with loops := again.loops - 1 })
  else (first.length, first, rest)

/-- What follows a line end, where a blank line is behind it: `pe <= e && *pe == '\n'` with `e` that far
on, and a carriage return passed over. -/
def blankBehind (left : Nat) : Text → Except EslFault (Option Nat)
  | [] => .error .overread
  | '\r' :: rest =>
    if left = 0 then .ok none
    else
      match rest with
      | [] => .error .overread
      | c :: _ => .ok (if c = '\n' then some 2 else none)
  | c :: _ => .ok (if c = '\n' then some 1 else none)

/-- The loop of `esl_buffer_read_packet` from `p` on, with the memory there and `e - p`: how long the
packet is, from the start on. -/
def packetFrom (p : Nat) : Text → (left : Nat) → Except EslFault (Option Nat)
  | [], _ => .error .overread
  | c :: rest, left =>
    match left with
    | 0 => .ok none
    | left + 1 =>
      if c = '\x00' then .ok none
      else if c = '\n' then do
        match ← blankBehind left rest with
        | some behind => pure (some (p + 1 + behind))
        | none => packetFrom (p + 1) rest left
      else packetFrom (p + 1) rest left

/-- `esl_buffer_read_packet`. -/
def readPacket (maxlen : Nat) (buffer : EslBuffer) : Except EslFault (Text × EslBuffer) := do
  match ← packetFrom 0 (buffer.data.drop buffer.head) buffer.used with
  | some datalen => pure (buffer.read (if datalen > maxlen then maxlen else datalen))
  | none => pure (buffer.read 0)

/-- The bytes in use moved to the start of the memory. -/
def compact (buffer : EslBuffer) : EslBuffer :=
  { buffer with
    data := (buffer.data.drop buffer.head).take buffer.used ++ buffer.data.drop buffer.used
    head := 0
    actuallyUsed := buffer.used }

/-- The memory made larger by `realloc`; `fresh` is what the new part of it happens to hold. -/
def grow (fresh : Nat → Char) (datalen : Nat) (buffer : EslBuffer) : EslBuffer :=
  let newSize := max (buffer.len + datalen) (buffer.len + buffer.blocksize)
  { buffer with
    data := buffer.data ++ (List.range (newSize - buffer.len)).map fresh
    head := 0 }

/-- `memcpy(buffer->head + buffer->used, data, datalen)`. -/
def store (data : Text) (buffer : EslBuffer) : Except EslFault EslBuffer :=
  let at_ := buffer.head + buffer.used
  if buffer.len < at_ + data.length then .error .overwrite
  else
    .ok { buffer with
      data := buffer.data.take at_ ++ data ++ buffer.data.drop (at_ + data.length)
      used := buffer.used + data.length
      actuallyUsed := buffer.actuallyUsed + data.length }

/-- `esl_buffer_write`; memory is granted whenever it is asked for. -/
def write (fresh : Nat → Char) (data : Text) (buffer : EslBuffer) : Except EslFault (Nat × EslBuffer) :=
  if buffer.data = [] then .error .assertion
  else if data = [] then .ok (buffer.used, buffer)
  else
    let actualFreespace := buffer.len - buffer.actuallyUsed
    let buffer :=
      if actualFreespace < data.length ∧ (buffer.maxLen = 0 ∨ buffer.used + data.length ≤ buffer.maxLen) then
        buffer.compact
      else buffer
    let buffer := if buffer.len - buffer.used < data.length then buffer.grow fresh data.length else buffer
    if buffer.len - buffer.used < data.length then .ok (0, buffer)
    else (buffer.store data).map fun stored => (stored.used, stored)

/-- `esl_buffer_zero`. -/
def zero (buffer : EslBuffer) : Except EslFault EslBuffer :=
  if buffer.data = [] then .error .assertion
  else .ok { buffer with used := 0, actuallyUsed := 0, head := 0 }

/-- `esl_buffer_zwrite`. -/
def zwrite (fresh : Nat → Char) (data : Text) (buffer : EslBuffer) : Except EslFault (Nat × EslBuffer) := do
  let (w, written) ← buffer.write fresh data
  if w = 0 then
    let emptied ← written.zero
    emptied.write fresh data
  else pure (w, written)

end EslBuffer

end CallCenter.Model
