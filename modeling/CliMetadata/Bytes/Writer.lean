import CliMetadata.Error

set_option autoImplicit false

namespace CliMetadata

abbrev Writer := EStateM Error (List UInt8)

namespace Writer

def byte (b : UInt8) : Writer Unit := fun buffer => .ok () (buffer ++ [b])

def bytes : List UInt8 → Writer Unit
  | [] => return
  | b :: rest => do
    byte b
    bytes rest

def each {α : Type} (write : α → Writer Unit) : List α → Writer Unit
  | [] => return
  | value :: rest => do
    write value
    each write rest

def malformed (defect : Defect) : Writer Unit := throw (.malformed defect)

/-- The writer, but that the buffer is cut back to the length that it had where the writer fails. -/
def restoring (writer : Writer Unit) : Writer Unit := fun buffer =>
  match writer buffer with
  | .ok _ written => .ok () written
  | .error e begun => .error e (begun.take buffer.length)

def written (writer : Writer Unit) : Except Error (List UInt8) :=
  match writer.run [] with
  | .ok _ buffer => .ok buffer
  | .error e _ => .error e

end Writer

end CliMetadata
