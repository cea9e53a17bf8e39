import CliMetadata.Proofs.Storage.Root

set_option autoImplicit false

namespace CliMetadata

def headersFrom : (position : Nat) → List (String × List UInt8) → List StreamHeader
  | _, [] => []
  | position, (name, content) :: rest =>
    { offset := position, size := content.length, name } ::
      headersFrom (position + content.length) rest

def rootFrom (position : Nat) (streams : List (String × List UInt8)) : StorageRoot where
  signature := StorageRoot.magic
  majorVersion := 1
  minorVersion := 1
  reserved := 0
  versionLength := 4
  version := "v1"
  flags := 0
  streams := headersFrom position streams

def padded (bytes : List UInt8) : List UInt8 :=
  bytes ++ List.replicate ((4 - bytes.length % 4) % 4) 0

/-- Metadata with the given streams, each filled up to a multiple of four bytes. -/
def image (streams : List (String × List UInt8)) : ByteArray :=
  let filled := streams.map fun stream => (stream.1, padded stream.2)
  -- The headers take the same room wherever the streams begin.
  let start := (rootFrom 0 filled).written.length
  ⟨((rootFrom start filled).written ++ filled.flatMap (·.2)).toArray⟩

def masked (tables : List Table) : Nat := tables.foldl (fun mask t => mask ||| 1 <<< t.number) 0

def stringHeap (texts : List String) : List UInt8 :=
  0 :: texts.flatMap fun text => text.toByteArray.data.toList ++ [0]

/-- The stream of tables, given in ascending order with the bytes of their rows. All indices into
heaps and tables are short. -/
def tableStream (tables : List (Table × List (List UInt8))) (sorted : List Table := []) :
    List UInt8 :=
  [0, 0, 0, 0, 2, 0, 0, 1] ++ Bytes.written 8 (masked (tables.map (·.1))) ++
    Bytes.written 8 (masked sorted) ++ tables.flatMap (fun t => Bytes.written 4 t.2.length) ++
    tables.flatMap (·.2.flatten)

end CliMetadata
