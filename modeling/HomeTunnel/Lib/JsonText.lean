import HomeTunnel.Lib.Decimal
import HomeTunnel.Lib.Json

/-! # JSON texts

The concrete syntax of a JSON document, its text and its reader. A document keeps
the spelling of its strings and numbers, so that writing a document that was read
gives the text back up to white space; `Doc.value` is what it stands for.
-/

namespace HomeTunnel.JsonText

/-- One element of a string literal: a character, a one-letter escape, or `\uXXXX`. -/
inductive Piece
  | plain (c : Char)
  | short (letter : Char)
  | hex (a b c d : Char)
deriving DecidableEq, Repr

def shortEscapes : List (Char × Char) :=
  [('"', '"'), ('\\', '\\'), ('/', '/'), ('b', '\x08'), ('f', '\x0c'), ('n', '\n'), ('r', '\r'),
    ('t', '\t')]

def hexValue (c : Char) : Option Nat :=
  if '0' ≤ c ∧ c ≤ '9' then some (c.toNat - 48)
  else if 'a' ≤ c ∧ c ≤ 'f' then some (c.toNat - 87)
  else if 'A' ≤ c ∧ c ≤ 'F' then some (c.toNat - 55)
  else none

def Piece.valid : Piece → Bool
  | .plain c => c != '"' && c != '\\' && 32 ≤ c.toNat
  | .short letter => (shortEscapes.lookup letter).isSome
  | .hex a b c d => [a, b, c, d].all fun h => (hexValue h).isSome

def Piece.text : Piece → List Char
  | .plain c => [c]
  | .short letter => ['\\', letter]
  | .hex a b c d => ['\\', 'u', a, b, c, d]

/-- The code unit of a `\uXXXX`. -/
def unit (a b c d : Char) : Nat :=
  [a, b, c, d].foldl (fun n h => n * 16 + (hexValue h).getD 0) 0

def replacement : Char := '�'

def highSurrogate (n : Nat) : Bool := 0xd800 ≤ n && n < 0xdc00

def lowSurrogate (n : Nat) : Bool := 0xdc00 ≤ n && n < 0xe000

/-- A lone surrogate reads as the replacement character. -/
def unitChar (n : Nat) : Char :=
  if highSurrogate n || lowSurrogate n then replacement else Char.ofNat n

def pairChar (high low : Nat) : Char :=
  Char.ofNat (0x10000 + (high - 0xd800) * 0x400 + (low - 0xdc00))

def unquote : List Piece → List Char
  | [] => []
  | .plain c :: rest => c :: unquote rest
  | .short letter :: rest => (shortEscapes.lookup letter).getD replacement :: unquote rest
  | .hex a b c d :: .hex e f g h :: rest =>
    if highSurrogate (unit a b c d) && lowSurrogate (unit e f g h) then
      pairChar (unit a b c d) (unit e f g h) :: unquote rest
    else unitChar (unit a b c d) :: unquote (.hex e f g h :: rest)
  | .hex a b c d :: rest => unitChar (unit a b c d) :: unquote rest

def string (pieces : List Piece) : String := String.ofList (unquote pieces)

/-- The elements up to the closing quote, and what follows it. -/
def lexString : List Char → Option (List Piece × List Char)
  | [] => none
  | '"' :: rest => some ([], rest)
  | '\\' :: 'u' :: a :: b :: c :: d :: rest =>
    if (Piece.hex a b c d).valid then
      (lexString rest).map fun r => (.hex a b c d :: r.1, r.2)
    else none
  | '\\' :: letter :: rest =>
    if (Piece.short letter).valid then
      (lexString rest).map fun r => (.short letter :: r.1, r.2)
    else none
  | c :: rest =>
    if (Piece.plain c).valid then (lexString rest).map fun r => (.plain c :: r.1, r.2) else none

def isNumberChar (c : Char) : Bool :=
  Decimal.isDigit c || c == '-' || c == '+' || c == '.' || c == 'e' || c == 'E'

/-- Digits without a leading zero, except for zero itself. -/
def integerDigits (digits : List Char) : Bool :=
  match digits with
  | [] => false
  | '0' :: rest => rest.isEmpty
  | digits => digits.all Decimal.isDigit

def exponentDigits : List Char → Bool
  | '+' :: digits => !digits.isEmpty && digits.all Decimal.isDigit
  | '-' :: digits => !digits.isEmpty && digits.all Decimal.isDigit
  | digits => !digits.isEmpty && digits.all Decimal.isDigit

/-- A number literal: sign, integer part, fraction and exponent. -/
structure NumberParts where
  negative : Bool
  whole : List Char
  fraction : Option (List Char)
  exponent : Option (List Char)
deriving DecidableEq, Repr

def splitNumber (text : List Char) : NumberParts :=
  let negative := text.head? == some '-'
  let body := if negative then text.tail else text
  let mantissa := body.takeWhile fun c => c != 'e' && c != 'E'
  let exponent := body.dropWhile fun c => c != 'e' && c != 'E'
  let fraction := mantissa.dropWhile (· != '.')
  { negative := negative
    whole := mantissa.takeWhile (· != '.')
    fraction := if fraction.isEmpty then none else some fraction.tail
    exponent := if exponent.isEmpty then none else some exponent.tail }

def NumberParts.valid (p : NumberParts) : Bool :=
  integerDigits p.whole &&
  (match p.fraction with
    | none => true
    | some digits => !digits.isEmpty && digits.all Decimal.isDigit) &&
  (match p.exponent with
    | none => true
    | some digits => exponentDigits digits)

def isNumber (text : List Char) : Bool := text.all isNumberChar && (splitNumber text).valid

def lexNumber (text : List Char) : Option (List Char × List Char) :=
  let token := text.takeWhile isNumberChar
  if isNumber token then some (token, text.dropWhile isNumberChar) else none

inductive Doc
  | null
  | bool (b : Bool)
  | num (text : List Char)
  | str (pieces : List Piece)
  | arr (items : List Doc)
  | obj (members : List (List Piece × Doc))
deriving Repr, Inhabited

def isSpace (c : Char) : Bool := c == ' ' || c == '\t' || c == '\n' || c == '\r'

def skip (text : List Char) : List Char := text.dropWhile isSpace

mutual

/-- Every level of nesting and every member takes one unit of fuel. -/
def parseValue : Nat → List Char → Option (Doc × List Char)
  | 0, _ => none
  | fuel + 1, text =>
    match skip text with
    | '\x7b' :: rest =>
      match skip rest with
      | '\x7d' :: rest => some (.obj [], rest)
      | rest => (parseMembers fuel rest).map fun r => (.obj r.1, r.2)
    | '[' :: rest =>
      match skip rest with
      | ']' :: rest => some (.arr [], rest)
      | rest => (parseItems fuel rest).map fun r => (.arr r.1, r.2)
    | '"' :: rest => (lexString rest).map fun r => (.str r.1, r.2)
    | 't' :: 'r' :: 'u' :: 'e' :: rest => some (.bool true, rest)
    | 'f' :: 'a' :: 'l' :: 's' :: 'e' :: rest => some (.bool false, rest)
    | 'n' :: 'u' :: 'l' :: 'l' :: rest => some (.null, rest)
    | text => (lexNumber text).map fun r => (.num r.1, r.2)

def parseItems : Nat → List Char → Option (List Doc × List Char)
  | 0, _ => none
  | fuel + 1, text =>
    match parseValue fuel text with
    | none => none
    | some (item, rest) =>
      match skip rest with
      | ',' :: rest => (parseItems fuel rest).map fun r => (item :: r.1, r.2)
      | ']' :: rest => some ([item], rest)
      | _ => none

def parseMembers : Nat → List Char → Option (List (List Piece × Doc) × List Char)
  | 0, _ => none
  | fuel + 1, text =>
    match skip text with
    | '"' :: rest =>
      match lexString rest with
      | none => none
      | some (name, rest) =>
        match skip rest with
        | ':' :: rest =>
          match parseValue fuel rest with
          | none => none
          | some (value, rest) =>
            match skip rest with
            | ',' :: rest =>
              (parseMembers fuel rest).map fun r => ((name, value) :: r.1, r.2)
            | '\x7d' :: rest => some ([(name, value)], rest)
            | _ => none
        | _ => none
    | _ => none

end

def parse (text : List Char) : Option Doc :=
  match parseValue (text.length + 1) text with
  | some (doc, rest) => if skip rest = [] then some doc else none
  | none => none

def textOf (pieces : List Piece) : List Char := pieces.flatMap Piece.text

mutual

/-- The text without white space. -/
def Doc.render : Doc → List Char
  | .null => ['n', 'u', 'l', 'l']
  | .bool true => ['t', 'r', 'u', 'e']
  | .bool false => ['f', 'a', 'l', 's', 'e']
  | .num text => text
  | .str pieces => '"' :: (textOf pieces ++ ['"'])
  | .arr items => '[' :: (renderItems items ++ [']'])
  | .obj members => '\x7b' :: (renderMembers members ++ ['\x7d'])

def renderItems : List Doc → List Char
  | [] => []
  | [item] => item.render
  | item :: item' :: items => item.render ++ ',' :: renderItems (item' :: items)

def renderMembers : List (List Piece × Doc) → List Char
  | [] => []
  | [(name, value)] => '"' :: (textOf name ++ '"' :: ':' :: value.render)
  | (name, value) :: member :: members =>
    '"' :: (textOf name ++ '"' :: ':' :: (value.render ++ ',' :: renderMembers (member :: members)))

end

/-- An integer literal has no fraction and no exponent. -/
def integerLiteral? (text : List Char) : Option Int :=
  let parts := splitNumber text
  if parts.fraction.isNone && parts.exponent.isNone then
    some (if parts.negative then -(Decimal.readDigits parts.whole : Int)
      else Decimal.readDigits parts.whole)
  else none

mutual

/-- What the document stands for, members in the order of the text. -/
def Doc.value : Doc → Json
  | .null => .null
  | .bool b => .bool b
  | .num text =>
    match integerLiteral? text with
    | some n => .int n
    | none => .real (String.ofList text)
  | .str pieces => .str (string pieces)
  | .arr items => .arr (valueItems items)
  | .obj members => .obj (valueMembers members)

def valueItems : List Doc → List Json
  | [] => []
  | item :: items => item.value :: valueItems items

def valueMembers : List (List Piece × Doc) → List (String × Json)
  | [] => []
  | (name, value) :: members => (string name, value.value) :: valueMembers members

end

end HomeTunnel.JsonText
