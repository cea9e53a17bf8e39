import CliMetadata.Bytes.Basic

/-!
A cursor over a block of bytes, and the readers that move it. A reader answers with a value or an
error and leaves the cursor where it stopped, also after an error. The elementary readers here move
it only when they succeed.
-/

set_option autoImplicit false

namespace CliMetadata

structure Cursor where
  data : ByteArray
  pos : Nat := 0

namespace Cursor

def remaining (c : Cursor) : Nat := c.data.size - c.pos

def hasMore (c : Cursor) : Bool := c.pos < c.data.size

def peek? (c : Cursor) : Option UInt8 :=
  if h : c.pos < c.data.size then some c.data[c.pos] else none

def move (c : Cursor) (step : Nat) : Cursor := { c with pos := c.pos + step }

end Cursor

abbrev Reader := EStateM Error Cursor

namespace Reader

def runOn {α : Type} (reader : Reader α) (data : ByteArray) : Except Error α :=
  match reader.run { data } with
  | .ok value _ => .ok value
  | .error e _ => .error e

def pos : Reader Nat := fun c => .ok c.pos c

def remaining : Reader Nat := fun c => .ok c.remaining c

def hasMore : Reader Bool := fun c => .ok c.hasMore c

def seek (pos : Nat) : Reader Unit := fun c =>
  if pos ≤ c.data.size then .ok () { c with pos } else .error .outOfBounds c

def advanceBy (step : Nat) : Reader Unit := fun c =>
  if step ≤ c.remaining then .ok () (c.move step) else .error .outOfBounds c

def next? : Reader (Option UInt8) := fun c => .ok c.peek? c

def peek : Reader UInt8 := fun c =>
  match c.peek? with
  | some b => .ok b c
  | none => .error .outOfBounds c

def consumeIf (expected : UInt8) : Reader Bool := fun c =>
  if c.peek? = some expected then .ok true (c.move 1) else .ok false c

def byte : Reader UInt8 := fun c =>
  match c.peek? with
  | some b => .ok b (c.move 1)
  | none => .error .outOfBounds c

def number (width : Nat) : Reader Nat := fun c =>
  match Bytes.readAt c.data c.pos width with
  | .ok (value, next) => .ok value { c with pos := next }
  | .error e => .error e c

def bytes (length : Nat) : Reader ByteArray := fun c =>
  if length ≤ c.remaining then .ok (c.data.extract c.pos (c.pos + length)) (c.move length)
  else .error .outOfBounds c

def malformed {α : Type} (defect : Defect) : Reader α := throw (.malformed defect)

end Reader

end CliMetadata
