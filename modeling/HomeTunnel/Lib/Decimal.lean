import Mathlib

/-! # Decimal notation

The decimal text of integers, without leading zeros and with a sign only for
negative numbers, and the reader that inverts it.
-/

namespace HomeTunnel.Decimal

def digitChar (d : Nat) : Char := Char.ofNat (48 + d)

def isDigit (c : Char) : Bool := 48 ≤ c.toNat && c.toNat ≤ 57

def digitValue (c : Char) : Nat := c.toNat - 48

/-- Least significant digit first; `n + 1` is enough fuel. -/
def digitsLoop : Nat → Nat → List Nat
  | 0, _ => []
  | fuel + 1, n => if n < 10 then [n] else n % 10 :: digitsLoop fuel (n / 10)

def natText (n : Nat) : List Char := (digitsLoop (n + 1) n).reverse.map digitChar

def intText (n : Int) : List Char :=
  if n < 0 then '-' :: natText n.natAbs else natText n.natAbs

def readDigits (text : List Char) : Nat := text.foldl (fun n c => n * 10 + digitValue c) 0

/-- One or more digits. -/
def readNat (text : List Char) : Option Nat :=
  if text ≠ [] ∧ text.all isDigit then some (readDigits text) else none

def readInt : List Char → Option Int
  | '-' :: rest => (readNat rest).map fun n : Nat => -(n : Int)
  | text => (readNat text).map fun n : Nat => (n : Int)

theorem toNat_digitChar {d : Nat} (h : d < 10) : (digitChar d).toNat = 48 + d := by
  interval_cases d <;> rfl

theorem isDigit_digitChar {d : Nat} (h : d < 10) : isDigit (digitChar d) := by
  simp [isDigit, toNat_digitChar h]
  omega

theorem digitValue_digitChar {d : Nat} (h : d < 10) : digitValue (digitChar d) = d := by
  simp [digitValue, toNat_digitChar h]

theorem digitsLoop_lt {fuel n d : Nat} (h : d ∈ digitsLoop fuel n) : d < 10 := by
  induction fuel generalizing n with
  | zero => simp [digitsLoop] at h
  | succ fuel ih =>
    unfold digitsLoop at h
    split at h
    · rename_i hn
      rw [List.mem_singleton.mp h]
      exact hn
    · rcases List.mem_cons.mp h with rfl | h
      · omega
      · exact ih h

theorem foldr_digitsLoop {fuel n : Nat} (h : n < fuel) :
    (digitsLoop fuel n).foldr (fun d acc => acc * 10 + d) 0 = n := by
  induction fuel generalizing n with
  | zero => omega
  | succ fuel ih =>
    unfold digitsLoop
    split
    · simp
    · rw [List.foldr_cons, ih (by omega)]
      omega

theorem digitsLoop_ne_nil (fuel n : Nat) : digitsLoop (fuel + 1) n ≠ [] := by
  unfold digitsLoop
  split <;> simp

theorem natText_ne_nil (n : Nat) : natText n ≠ [] := by
  simp [natText, digitsLoop_ne_nil]

theorem natText_isDigit {n : Nat} {c : Char} (h : c ∈ natText n) : isDigit c := by
  obtain ⟨d, hd, rfl⟩ := List.mem_map.mp h
  exact isDigit_digitChar (digitsLoop_lt (List.mem_reverse.mp hd))

theorem readDigits_natText (n : Nat) : readDigits (natText n) = n := by
  have hvalues : ∀ acc, ∀ ds : List Nat, (∀ d ∈ ds, d < 10) →
      (ds.map digitChar).foldl (fun n c => n * 10 + digitValue c) acc =
        ds.foldl (fun n d => n * 10 + d) acc := by
    intro acc ds hds
    induction ds generalizing acc with
    | nil => rfl
    | cons d ds ih =>
      rw [List.map_cons, List.foldl_cons, List.foldl_cons,
        digitValue_digitChar (hds d List.mem_cons_self)]
      exact ih _ fun x hx => hds x (List.mem_cons_of_mem d hx)
  unfold readDigits natText
  rw [hvalues 0 _ fun d hd => digitsLoop_lt (List.mem_reverse.mp hd), List.foldl_reverse]
  exact foldr_digitsLoop (Nat.lt_succ_self n)

theorem readNat_natText (n : Nat) : readNat (natText n) = some n := by
  unfold readNat
  rw [if_pos ⟨natText_ne_nil n, List.all_eq_true.mpr fun c hc => natText_isDigit hc⟩,
    readDigits_natText]

theorem intText_isDigit_or_minus {n : Int} {c : Char} (h : c ∈ intText n) :
    c = '-' ∨ isDigit c := by
  unfold intText at h
  split at h
  · rcases List.mem_cons.mp h with rfl | h
    · exact Or.inl rfl
    · exact Or.inr (natText_isDigit h)
  · exact Or.inr (natText_isDigit h)

theorem readInt_intText (n : Int) : readInt (intText n) = some n := by
  unfold intText
  split
  · rename_i hneg
    rw [readInt, readNat_natText, Option.map_some]
    congr 1
    omega
  · rename_i hpos
    have hminus : ∀ rest, natText n.natAbs ≠ '-' :: rest := by
      intro rest heq
      have hd := natText_isDigit (n := n.natAbs) (c := '-') (by simp [heq])
      simp [isDigit] at hd
    unfold readInt
    split
    · rename_i rest heq
      exact absurd heq (hminus rest)
    · rw [readNat_natText, Option.map_some]
      congr 1
      omega

theorem intText_injective {m n : Int} (h : intText m = intText n) : m = n := by
  have hm := readInt_intText m
  rw [h, readInt_intText] at hm
  exact (Option.some.inj hm).symm

end HomeTunnel.Decimal
