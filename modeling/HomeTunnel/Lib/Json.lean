import Mathlib

/-! # JSON values

A JSON document as a tree. Object members stand in the order in which they are
listed; a reader that keeps objects in a map lists them by ascending name.
Numbers are split the way typed readers split them: an integer literal, or the
text of anything with a fraction or an exponent.
-/

namespace HomeTunnel

inductive Json
  | null
  | bool (b : Bool)
  | int (n : Int)
  | real (text : String)
  | str (s : String)
  | arr (items : List Json)
  | obj (members : List (String × Json))
deriving Repr, Inhabited

namespace Json

mutual

def decEq : (a b : Json) → Decidable (a = b)
  | null, null => isTrue rfl
  | bool a, bool b => decidable_of_iff (a = b) (by simp)
  | int a, int b => decidable_of_iff (a = b) (by simp)
  | real a, real b => decidable_of_iff (a = b) (by simp)
  | str a, str b => decidable_of_iff (a = b) (by simp)
  | arr a, arr b => @decidable_of_iff _ (a = b) (by simp) (decEqItems a b)
  | obj a, obj b => @decidable_of_iff _ (a = b) (by simp) (decEqMembers a b)
  | null, bool _ | null, int _ | null, real _ | null, str _ | null, arr _ | null, obj _
  | bool _, null | bool _, int _ | bool _, real _ | bool _, str _ | bool _, arr _ | bool _, obj _
  | int _, null | int _, bool _ | int _, real _ | int _, str _ | int _, arr _ | int _, obj _
  | real _, null | real _, bool _ | real _, int _ | real _, str _ | real _, arr _ | real _, obj _
  | str _, null | str _, bool _ | str _, int _ | str _, real _ | str _, arr _ | str _, obj _
  | arr _, null | arr _, bool _ | arr _, int _ | arr _, real _ | arr _, str _ | arr _, obj _
  | obj _, null | obj _, bool _ | obj _, int _ | obj _, real _ | obj _, str _ | obj _, arr _ =>
    isFalse (by simp)

def decEqItems : (a b : List Json) → Decidable (a = b)
  | [], [] => isTrue rfl
  | a :: as, b :: bs =>
    @decidable_of_iff _ (a = b ∧ as = bs) (by simp)
      (@instDecidableAnd _ _ (decEq a b) (decEqItems as bs))
  | [], _ :: _ | _ :: _, [] => isFalse (by simp)

def decEqMembers : (a b : List (String × Json)) → Decidable (a = b)
  | [], [] => isTrue rfl
  | (m, a) :: as, (n, b) :: bs =>
    @decidable_of_iff _ (m = n ∧ a = b ∧ as = bs) (by simp [and_assoc])
      (@instDecidableAnd _ _ (instDecidableEqString m n)
        (@instDecidableAnd _ _ (decEq a b) (decEqMembers as bs)))
  | [], _ :: _ | _ :: _, [] => isFalse (by simp)

end

instance : DecidableEq Json := decEq

def members? : Json → Option (List (String × Json))
  | obj members => some members
  | _ => none

def items? : Json → Option (List Json)
  | arr items => some items
  | _ => none

def str? : Json → Option String
  | str s => some s
  | _ => none

/-- The member of that name, and `null` where there is none. -/
def get (value : Json) (name : String) : Json :=
  match value with
  | obj members => (members.lookup name).getD null
  | _ => null

def isMember (value : Json) (name : String) : Bool :=
  match value with
  | obj members => (members.lookup name).isSome
  | _ => false

mutual

/-- Levels of nesting below the outermost value. -/
def height : Json → Nat
  | .obj members => heightMembers members
  | .arr items => heightItems items
  | _ => 0

def heightItems : List Json → Nat
  | [] => 0
  | item :: items => max (item.height + 1) (heightItems items)

def heightMembers : List (String × Json) → Nat
  | [] => 0
  | (_, value) :: members => max (value.height + 1) (heightMembers members)

end

def insertMember (member : String × Json) : List (String × Json) → List (String × Json)
  | [] => [member]
  | other :: members =>
    if member.1 < other.1 then member :: other :: members
    else other :: insertMember member members

mutual

/-- The same value with the members of every object in ascending order of name. -/
def sorted : Json → Json
  | arr items => arr (sortedItems items)
  | obj members => obj (sortedMembers members)
  | value => value

def sortedItems : List Json → List Json
  | [] => []
  | item :: items => item.sorted :: sortedItems items

def sortedMembers : List (String × Json) → List (String × Json)
  | [] => []
  | (name, value) :: members => insertMember (name, value.sorted) (sortedMembers members)

end

mutual

/-- No object has two members of one name. -/
def distinct : Json → Bool
  | arr items => distinctItems items
  | obj members => (members.map Prod.fst).Nodup && distinctMembers members
  | _ => true

def distinctItems : List Json → Bool
  | [] => true
  | item :: items => item.distinct && distinctItems items

def distinctMembers : List (String × Json) → Bool
  | [] => true
  | (_, value) :: members => value.distinct && distinctMembers members

end

end Json

end HomeTunnel
