import HomeTunnel.Lib.GoJson
import HomeTunnel.Lib.Utf8

/-! # Strict decoding

`strictDecode` visits a document token by token before it decodes it: depth, number of
members and items, repeated names and lossy numbers are refused.
-/

namespace HomeTunnel.Host

open JsonText GoJson

abbrev Bytes := List UInt8

def maxSafeInteger : Int := 9007199254740991

/-- The literal is below `2 ^ 53` after rounding to a double: `|x| < 2 ^ 53 - 1 / 2`. -/
def realAllowed (text : String) : Bool :=
  let parts := splitNumber text.toList
  let fraction := parts.fraction.getD []
  let mantissa := Decimal.readDigits (parts.whole ++ fraction)
  let exponent : Int :=
    match parts.exponent with
    | none => 0
    | some ('-' :: digits) => -(Decimal.readDigits digits : Int)
    | some ('+' :: digits) => Decimal.readDigits digits
    | some digits => Decimal.readDigits digits
  let scale := exponent - fraction.length
  if 0 ≤ scale then 2 * mantissa * 10 ^ scale.toNat < 2 ^ 54 - 1
  else 2 * mantissa < (2 ^ 54 - 1) * 10 ^ (-scale).toNat

mutual

/-- What `visit` refuses, the depth apart. -/
def withinLimits : Json → Bool
  | .obj members =>
    members.length ≤ 128 && (members.map Prod.fst).Nodup && membersWithinLimits members
  | .arr items => items.length ≤ 4096 && itemsWithinLimits items
  | .int n => -maxSafeInteger ≤ n && n ≤ maxSafeInteger
  | .real text => realAllowed text
  | .null | .bool _ | .str _ => true

def itemsWithinLimits : List Json → Bool
  | [] => true
  | item :: items => withinLimits item && itemsWithinLimits items

def membersWithinLimits : List (String × Json) → Bool
  | [] => true
  | (_, value) :: members => withinLimits value && membersWithinLimits members

end

mutual

def visit (depth : Nat) : Json → Bool
  | .obj members =>
    depth ≤ 20 && members.length ≤ 128 && (members.map Prod.fst).Nodup &&
      visitMembers (depth + 1) members
  | .arr items => depth ≤ 20 && items.length ≤ 4096 && visitItems (depth + 1) items
  | .int n => depth ≤ 20 && -maxSafeInteger ≤ n && n ≤ maxSafeInteger
  | .real text => depth ≤ 20 && realAllowed text
  | .null | .bool _ | .str _ => depth ≤ 20

def visitItems (depth : Nat) : List Json → Bool
  | [] => true
  | item :: items => visit depth item && visitItems depth items

def visitMembers (depth : Nat) : List (String × Json) → Bool
  | [] => true
  | (_, value) :: members => visit depth value && visitMembers depth members

end

def byteLimit : Nat := 262144

/-- `strictDecode(data, target, …)`; whether unknown fields are rejected is part of the
target's decoder. -/
def strictDecode {σ : Type} (data : Bytes) (target : Decoder σ) (old : σ) : Option σ :=
  if data.length > byteLimit then none
  else
    match Utf8.decode data with
    | none => none
    | some text =>
      match parse text with
      | none => none
      | some doc => if visit 0 doc.value then target doc old else none

mutual

theorem visit_iff (depth : Nat) (value : Json) :
    visit depth value ↔ withinLimits value ∧ depth + value.height ≤ 20 := by
  cases value with
  | obj members =>
    simp only [visit, withinLimits, Json.height, Bool.and_eq_true, decide_eq_true_eq]
    by_cases hdepth : depth ≤ 20
    · rw [visitMembers_iff (depth + 1) members (by omega)]
      constructor
      · rintro ⟨⟨⟨_, hlength⟩, hnames⟩, hmembers, hheight⟩
        exact ⟨⟨⟨hlength, hnames⟩, hmembers⟩, by omega⟩
      · rintro ⟨⟨⟨hlength, hnames⟩, hmembers⟩, hheight⟩
        exact ⟨⟨⟨hdepth, hlength⟩, hnames⟩, hmembers, by omega⟩
    · constructor
      · rintro ⟨⟨⟨h, _⟩, _⟩, _⟩
        exact absurd h hdepth
      · rintro ⟨_, h⟩
        omega
  | arr items =>
    simp only [visit, withinLimits, Json.height, Bool.and_eq_true, decide_eq_true_eq]
    by_cases hdepth : depth ≤ 20
    · rw [visitItems_iff (depth + 1) items (by omega)]
      constructor
      · rintro ⟨⟨_, hlength⟩, hitems, hheight⟩
        exact ⟨⟨hlength, hitems⟩, by omega⟩
      · rintro ⟨⟨hlength, hitems⟩, hheight⟩
        exact ⟨⟨hdepth, hlength⟩, hitems, by omega⟩
    · constructor
      · rintro ⟨⟨h, _⟩, _⟩
        exact absurd h hdepth
      · rintro ⟨_, h⟩
        omega
  | int n =>
    simp only [visit, withinLimits, Json.height, Bool.and_eq_true, decide_eq_true_eq]
    omega
  | real text =>
    simp only [visit, withinLimits, Json.height, Bool.and_eq_true, decide_eq_true_eq, Nat.add_zero]
    exact and_comm
  | _ => simp [visit, withinLimits, Json.height]

theorem visitItems_iff (depth : Nat) (items : List Json) (hdepth : depth ≤ 21) :
    visitItems depth items ↔ itemsWithinLimits items ∧ depth + Json.heightItems items ≤ 21 := by
  cases items with
  | nil => simpa [visitItems, itemsWithinLimits, Json.heightItems] using hdepth
  | cons item items =>
    rw [visitItems, itemsWithinLimits, Json.heightItems, Bool.and_eq_true, Bool.and_eq_true,
      visit_iff depth item, visitItems_iff depth items hdepth]
    constructor
    · rintro ⟨⟨hitem, hheight⟩, hitems, hrest⟩
      exact ⟨⟨hitem, hitems⟩, by omega⟩
    · rintro ⟨⟨hitem, hitems⟩, hheight⟩
      exact ⟨⟨hitem, by omega⟩, hitems, by omega⟩

theorem visitMembers_iff (depth : Nat) (members : List (String × Json)) (hdepth : depth ≤ 21) :
    visitMembers depth members ↔ membersWithinLimits members ∧ depth + Json.heightMembers members ≤ 21 := by
  match members with
  | [] => simpa [visitMembers, membersWithinLimits, Json.heightMembers] using hdepth
  | (name, value) :: members =>
    rw [visitMembers, membersWithinLimits, Json.heightMembers, Bool.and_eq_true, Bool.and_eq_true,
      visit_iff depth value, visitMembers_iff depth members hdepth]
    constructor
    · rintro ⟨⟨hvalue, hheight⟩, hmembers, hrest⟩
      exact ⟨⟨hvalue, hmembers⟩, by omega⟩
    · rintro ⟨⟨hvalue, hmembers⟩, hheight⟩
      exact ⟨⟨hvalue, by omega⟩, hmembers, by omega⟩

end

theorem strictDecode_eq_some {σ : Type} {data : Bytes} {target : Decoder σ} {old result : σ}
    (h : strictDecode data target old = some result) :
    data.length ≤ byteLimit ∧ ∃ text doc, Utf8.encode text = data ∧ parse text = some doc ∧
      visit 0 doc.value ∧ target doc old = some result := by
  unfold strictDecode at h
  split at h
  · simp at h
  rename_i hsize
  split at h
  · simp at h
  rename_i text htext
  split at h
  · simp at h
  rename_i doc hdoc
  split at h
  · rename_i hvisit
    exact ⟨by omega, text, doc, Utf8.decode_eq_some_iff.mp htext, hdoc, hvisit, h⟩
  · simp at h

end HomeTunnel.Host
