import HomeTunnel.Lib.JsonText
import HomeTunnel.Lib.Rfc3339

/-! # Typed JSON

How `encoding/json` writes typed values as documents and reads documents into typed
targets: a target keeps its old value under `null`, members are matched to fields by
name (exactly, or else up to case), and a member that no field takes is an error only
if the reader is strict.
-/

namespace HomeTunnel.GoJson

open JsonText

def hexDigit (n : Nat) : Char := Char.ofNat (if n < 10 then 48 + n else 87 + n)

def hexPiece (n : Nat) : Piece :=
  .hex (hexDigit (n / 4096)) (hexDigit (n / 256 % 16)) (hexDigit (n / 16 % 16)) (hexDigit (n % 16))

/-- Characters that are escaped to be safe inside HTML. -/
def htmlUnsafe (c : Char) : Bool :=
  c == '<' || c == '>' || c == '&' || c == Char.ofNat 0x2028 || c == Char.ofNat 0x2029

def quoteChar (c : Char) : Piece :=
  if c = '"' ∨ c = '\\' then .short c
  else if c = '\x08' then .short 'b'
  else if c = '\x0c' then .short 'f'
  else if c = '\n' then .short 'n'
  else if c = '\r' then .short 'r'
  else if c = '\t' then .short 't'
  else if c.toNat < 32 ∨ htmlUnsafe c then hexPiece c.toNat
  else .plain c

def quote (s : String) : List Piece := s.toList.map quoteChar

/-! ## Raw documents

A raw value is written as it stands, but for white space and the HTML escapes.
-/

def htmlPiece : Piece → Piece
  | .plain c => if htmlUnsafe c then hexPiece c.toNat else .plain c
  | piece => piece

mutual

def html : Doc → Doc
  | .str pieces => .str (pieces.map htmlPiece)
  | .arr items => .arr (htmlItems items)
  | .obj members => .obj (htmlMembers members)
  | doc => doc

def htmlItems : List Doc → List Doc
  | [] => []
  | item :: items => html item :: htmlItems items

def htmlMembers : List (List Piece × Doc) → List (List Piece × Doc)
  | [] => []
  | (name, value) :: members => (name.map htmlPiece, html value) :: htmlMembers members

end

/-- Reading a document into a target of which the old value is given. -/
abbrev Decoder (α : Type) := Doc → α → Option α

def decodeString : Decoder String
  | .null, old => some old
  | .str pieces, _ => some (string pieces)
  | _, _ => none

def encodeString (s : String) : Doc := .str (quote s)

def decodeBool : Decoder Bool
  | .null, old => some old
  | .bool b, _ => some b
  | _, _ => none

/-- Only an integer literal in range is an `int64`. -/
def decodeInt64 : Decoder Int
  | .null, old => some old
  | .num text, _ =>
    match integerLiteral? text with
    | some n => if -2 ^ 63 ≤ n ∧ n < 2 ^ 63 then some n else none
    | none => none
  | _, _ => none

/-- The text of a time is taken as it stands between the quotes, escapes unread. -/
def decodeTime : Decoder Rfc3339.Time
  | .null, old => some old
  | .str pieces, _ => Rfc3339.read (textOf pieces)
  | _, _ => none

section Containers

variable {α : Type}

def decodeItems (element : Decoder α) (zero : α) : List Doc → Option (List α)
  | [] => some []
  | item :: items =>
    match element item zero, decodeItems element zero items with
    | some value, some values => some (value :: values)
    | _, _ => none

def decodeSlice (element : Decoder α) (zero : α) : Decoder (List α)
  | .null, _ => some []
  | .arr items, _ => decodeItems element zero items
  | _, _ => none

/-- A pointer is made nil by `null` and otherwise read through. -/
def decodePointer (element : Decoder α) (zero : α) : Decoder (Option α)
  | .null, _ => some none
  | doc, old => (element doc (old.getD zero)).map some

end Containers

/-- A field of a record: its name and how a document is read into it. -/
structure RecordField (σ : Type) where
  name : String
  decode : Decoder σ

/-- The field that a decoder fills, from how it is got and set. -/
def field {σ α : Type} (name : String) (decode : Decoder α) (get : σ → α) (set : σ → α → σ) :
    RecordField σ :=
  ⟨name, fun doc s => (decode doc (get s)).map (set s)⟩

/-- The case folding under which names are compared: that of ASCII, and the two further
letters that fold to an ASCII one. -/
def foldChar (c : Char) : Char :=
  if c = Char.ofNat 0x212a then 'k' else if c = Char.ofNat 0x17f then 's' else c.toLower

def foldName (name : String) : List Char := name.toList.map foldChar

section Records

variable {σ : Type}

def findField (fields : List (RecordField σ)) (name : String) : Option (RecordField σ) :=
  match fields.find? fun f => f.name = name with
  | some f => some f
  | none => fields.find? fun f => foldName f.name = foldName name

def decodeMembers (fields : List (RecordField σ)) (strict : Bool) : List (List Piece × Doc) → σ → Option σ
  | [], s => some s
  | (name, value) :: members, s =>
    match findField fields (string name) with
    | some f =>
      match f.decode value s with
      | some s => decodeMembers fields strict members s
      | none => none
    | none => if strict then none else decodeMembers fields strict members s

def decodeStruct (fields : List (RecordField σ)) (strict : Bool) : Decoder σ
  | .null, old => some old
  | .obj members, old => decodeMembers fields strict members old
  | _, _ => none

/-- A member of a record as it is written, or nothing where the field is omitted. -/
abbrev Slot := Option (List Piece × Doc)

def member (name : String) (doc : Doc) : Slot := some (quote name, doc)

def encodeStruct (slots : List Slot) : Doc := .obj slots.reduceOption

end Records

end HomeTunnel.GoJson
