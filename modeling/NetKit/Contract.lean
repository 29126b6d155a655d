/-!
The memory layout of the value types that cross the library's boundary.
-/
namespace NetKit

/-- How a value is owned. -/
inductive Shape where
  | trivial
  | sharedHandle
  | cursor
deriving DecidableEq, Repr

def Shape.text : Shape → String
  | .trivial => "trivial"
  | .sharedHandle => "shared-handle"
  | .cursor => "cursor"

/-- A field's size and alignment in octets. -/
structure Layout where
  size : Nat
  align : Nat
deriving DecidableEq, Repr

namespace Layout

def word : Layout := ⟨8, 8⟩
def half : Layout := ⟨4, 4⟩
def octetArray (n : Nat) : Layout := ⟨n, 1⟩

def roundUp (n align : Nat) : Nat := (n + align - 1) / align * align

/-- A record's fields follow one another, each at the next multiple of its alignment, and the whole
is filled up to the widest alignment. -/
def record (fields : List Layout) : Layout :=
  let align := fields.foldl (fun a f => max a f.align) 1
  ⟨roundUp (fields.foldl (fun n f => roundUp n f.align + f.size) 0) align, align⟩

end Layout

structure Contract where
  name : String
  shape : Shape
  layout : Layout
deriving DecidableEq, Repr

namespace Contract
open Layout

def text (c : Contract) : String :=
  s!"{c.name} [{c.shape.text}] size={c.layout.size} align={c.layout.align}"

def ofHandle (name : String) : Contract := ⟨name, .sharedHandle, record [word]⟩

def ofCursor (name : String) : Contract := ⟨name, .cursor, record [word, word]⟩

/-- Every value type, in the order of the report. -/
def all : List Contract := [
  ofHandle "ByteArray",
  ⟨"ByteArrayView<'static>", .trivial, record [word, word]⟩,
  ⟨"DeadlineTimer", .trivial, record [word, half, half]⟩,
  ⟨"Ipv6AddrBytes", .trivial, record [octetArray 16]⟩,
  ofHandle "HostAddress",
  ⟨"HeaderPair", .trivial, record [word, word, word, word]⟩,
  ofHandle "HttpHeaders",
  ofHandle "NetworkCookie",
  ofHandle "NetworkDatagram",
  ofHandle "NetworkAddressEntry",
  ofHandle "NetworkInterface",
  ⟨"SocketDescriptor", .trivial, record [word]⟩,
  ofHandle "SslCertificate",
  ofHandle "SslKey",
  ofHandle "AlternativeNames",
  ofCursor "AltNamesIter < 'static >",
  ofCursor "AltNamesKeys < 'static >",
  ofCursor "AltNamesValues < 'static >"]

end Contract
end NetKit
