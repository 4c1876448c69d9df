import HomeTunnel.Lib.Calendar
import HomeTunnel.Lib.Decimal

/-! # Times in RFC 3339 notation

A time is a civil date and time of day with its offset from UTC. It is written with
the fraction of the second cut after its last digit that is not zero, and `Z` for
the offset zero.
-/

namespace HomeTunnel.Rfc3339

open Decimal Calendar

structure Civil where
  year : Nat
  month : Nat
  day : Nat
  hour : Nat
  minute : Nat
  second : Nat
  nanos : Nat
  /-- Minutes east of UTC. -/
  offset : Int
deriving DecidableEq, Repr

/-- The date exists and every other field is in its range. -/
def Civil.valid (c : Civil) : Bool :=
  c.year ≤ 9999 && 1 ≤ c.month && c.month ≤ 12 && 1 ≤ c.day && (c.day : Int) ≤ lastDay c.year c.month &&
  c.hour ≤ 23 && c.minute ≤ 59 && c.second ≤ 59 && c.nanos < 1000000000 &&
  -1440 < c.offset && c.offset < 1440

structure Time where
  civil : Civil
  valid : civil.valid = true
deriving DecidableEq

/-- Nanoseconds since 1970-01-01T00:00:00Z. -/
def Civil.instant (c : Civil) : Int :=
  (sysDays c.year c.month c.day * 86400 + c.hour * 3600 + c.minute * 60 + c.second - c.offset * 60) *
    1000000000 + c.nanos

def Time.instant (t : Time) : Int := t.civil.instant

def take2 : List Char → Option (Nat × List Char)
  | a :: b :: rest => if isDigit a && isDigit b then some (readDigits [a, b], rest) else none
  | _ => none

def take4 : List Char → Option (Nat × List Char)
  | a :: b :: c :: d :: rest =>
    if [a, b, c, d].all isDigit then some (readDigits [a, b, c, d], rest) else none
  | _ => none

def expect (c : Char) : List Char → Option (List Char)
  | d :: rest => if d = c then some rest else none
  | [] => none

/-- Digits beyond the ninth are dropped. -/
def nanosOf (digits : List Char) : Nat := readDigits (digits.take 9) * 10 ^ (9 - digits.length)

def takeFraction : List Char → Nat × List Char
  | '.' :: rest =>
    let digits := rest.takeWhile isDigit
    if digits.isEmpty then (0, '.' :: rest) else (nanosOf digits, rest.dropWhile isDigit)
  | text => (0, text)

def readOffset : List Char → Option Int
  | ['Z'] => some 0
  | sign :: rest => do
      let (hours, rest) ← take2 rest
      let rest ← expect ':' rest
      let (minutes, rest) ← take2 rest
      if rest ≠ [] ∨ hours > 23 ∨ minutes > 59 then none
      else if sign = '+' then some (hours * 60 + minutes : Nat)
      else if sign = '-' then some (-(hours * 60 + minutes : Nat))
      else none
  | [] => none

def read (text : List Char) : Option Time := do
  let (year, text) ← take4 text
  let text ← expect '-' text
  let (month, text) ← take2 text
  let text ← expect '-' text
  let (day, text) ← take2 text
  let text ← expect 'T' text
  let (hour, text) ← take2 text
  let text ← expect ':' text
  let (minute, text) ← take2 text
  let text ← expect ':' text
  let (second, text) ← take2 text
  let (nanos, text) := takeFraction text
  let offset ← readOffset text
  let civil : Civil := ⟨year, month, day, hour, minute, second, nanos, offset⟩
  if h : civil.valid = true then some ⟨civil, h⟩ else none

end HomeTunnel.Rfc3339
