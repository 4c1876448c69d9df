import HomeTunnel.Lib.GoJson
import HomeTunnel.Lib.Utf8
import HomeTunnel.Files.Transfer

/-! # Frames of the worker

`PeerIdentity::json` writes a frame without white space and with text in UTF-8.
-/

namespace HomeTunnel.Remote.Worker

open JsonText

/-- Control characters, quotes and backslashes are escaped, everything else stands as it is. -/
def writeChar (c : Char) : Piece :=
  if c.toNat < 32 ∨ c = '"' ∨ c = '\\' then GoJson.quoteChar c else .plain c

def writeString (s : String) : List Piece := s.toList.map writeChar

mutual

def writeDoc : Json → Doc
  | .null => .null
  | .bool b => .bool b
  | .int n => .num (Decimal.intText n)
  | .real text => .num text.toList
  | .str s => .str (writeString s)
  | .arr items => .arr (writeItems items)
  | .obj members => .obj (writeMembers members)

def writeItems : List Json → List Doc
  | [] => []
  | item :: items => writeDoc item :: writeItems items

def writeMembers : List (String × Json) → List (List Piece × Doc)
  | [] => []
  | (name, value) :: members => (writeString name, writeDoc value) :: writeMembers members

end

def json (value : Json) : Bytes := Utf8.encode (writeDoc value).render

end HomeTunnel.Remote.Worker
