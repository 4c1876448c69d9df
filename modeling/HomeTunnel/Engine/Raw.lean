import HomeTunnel.Lib.GoJson
import HomeTunnel.Lib.Utf8
import HomeTunnel.Native.Protocol

/-! # Raw values in worker frames

How the Go side of the engine decodes the numbers and the raw documents of a frame.
-/

namespace HomeTunnel.Engine

open JsonText GoJson
open Remote (Bytes)

def decodeUint64 : Decoder Nat
  | .null, old => some old
  | .num text, _ =>
    match Decimal.readNat text with
    | some n => if n < 2 ^ 64 then some n else none
    | none => none
  | _, _ => none

/-- A raw message keeps the document, also `null`. -/
def decodeRaw : Decoder (Option Doc) := fun doc _ => some (some doc)

/-- The bytes of a raw message. -/
def rawBytes : Option Doc → Bytes
  | none => []
  | some doc => Utf8.encode doc.render

end HomeTunnel.Engine
