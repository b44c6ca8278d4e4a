import Scaffold.Fault
import Scaffold.Text.Line

/-! File contents: a text where the bytes are well-formed UTF-8, the bytes themselves where
they are not. -/

namespace Scaffold

inductive Content where
  | text (t : Text)
  | raw (bytes : List UInt8)
  deriving DecidableEq, Repr

namespace Content

def ofBytes (bytes : ByteArray) : Content :=
  match String.fromUTF8? bytes with
  | some s => .text s.toList
  | none => .raw bytes.toList

def decode : Content → Except Fault Text
  | .text t => .ok t
  | .raw _ => .error .undecodable

/-- Decoding that reads every line ending as a line feed. -/
def decodeLines (content : Content) : Except Fault Text :=
  content.decode.map Text.unixLines

end Content
end Scaffold
