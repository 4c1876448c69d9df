import HomeTunnel.Lib.Decimal
import HomeTunnel.Lib.ReplayWindow

/-! # Sequence numbers of peer messages

Every signed peer message carries a number of 64 bits. The receivers remember the numbers
they took within 32 of the highest one: the service in a map, the two native ends in an
ordered set that they shorten from the front.
-/

namespace HomeTunnel.Remote.Peers

open ReplayWindow

def sequenceRank : UInt64 ↪ ℕ := ⟨UInt64.toNat, fun _ _ h => UInt64.toNat_inj.mp h⟩

@[simp] theorem sequenceRank_apply (n : UInt64) : sequenceRank n = n.toNat := rfl

theorem far_iff {highest number : UInt64} :
    Far sequenceRank 32 highest number ↔ number.toNat + 32 ≤ highest.toNat := Iff.rfl

/-- The number lies behind the window of 32. -/
def behind (highest number : UInt64) : Bool := number < highest && highest - number ≥ 32

theorem behind_iff (highest number : UInt64) :
    behind highest number = true ↔ Far sequenceRank 32 highest number := by
  have hspan : (32 : UInt64).toNat = 32 := rfl
  unfold behind
  rw [far_iff, Bool.and_eq_true, decide_eq_true_eq, decide_eq_true_eq, ge_iff_le,
    UInt64.lt_iff_toNat_lt, UInt64.le_iff_toNat_le, hspan]
  by_cases hle : number ≤ highest
  · rw [UInt64.toNat_sub_of_le highest number hle]
    omega
  · rw [UInt64.le_iff_toNat_le] at hle
    omega

theorem higher_eq_max (highest number : UInt64) :
    higher sequenceRank highest number = max highest number := by
  unfold higher
  simp only [sequenceRank_apply, ← UInt64.lt_iff_toNat_lt]
  show _ = if highest ≤ number then number else highest
  by_cases hle : highest ≤ number
  · rw [if_pos hle]
    by_cases hlt : highest < number
    · rw [if_pos hlt]
    · rw [if_neg hlt]
      rw [UInt64.lt_iff_toNat_lt] at hlt
      rw [UInt64.le_iff_toNat_le] at hle
      exact UInt64.toNat_inj.mp (by omega)
  · rw [if_neg hle, if_neg fun hlt => hle (UInt64.le_of_lt hlt)]

/-- A canonical decimal number of 64 bits: the reader takes the whole text and the writer gives
it back. -/
def sequenceNumber (text : String) : Option UInt64 :=
  match Decimal.readNat text.toList with
  | some n =>
    if n < 2 ^ 64 ∧ Decimal.natText n = text.toList then some (UInt64.ofNat n) else none
  | none => none

/-- The ordered set of the numbers taken, and the highest of them. -/
structure Sequences where
  numbers : List UInt64
  highest : UInt64
  ordered : numbers.Pairwise (· < ·)
  inside : ∀ n ∈ numbers, n ≤ highest ∧ behind highest n = false

namespace Sequences

def empty : Sequences := ⟨[], 0, List.Pairwise.nil, by simp⟩

/-- `insert` of an ordered set. -/
def insertOrdered (number : UInt64) : List UInt64 → List UInt64
  | [] => [number]
  | n :: numbers =>
    if number < n then number :: n :: numbers
    else if number = n then n :: numbers
    else n :: insertOrdered number numbers

variable {number m : UInt64} {numbers : List UInt64}

theorem mem_insertOrdered : m ∈ insertOrdered number numbers ↔ m = number ∨ m ∈ numbers := by
  induction numbers with
  | nil => simp [insertOrdered]
  | cons n numbers ih =>
    unfold insertOrdered
    split
    · simp
    · split
      · rename_i heq
        simp [heq]
      · simp only [List.mem_cons, ih]
        tauto

theorem insertOrdered_pairwise (h : numbers.Pairwise (· < ·)) :
    (insertOrdered number numbers).Pairwise (· < ·) := by
  induction numbers with
  | nil => simp [insertOrdered]
  | cons n numbers ih =>
    obtain ⟨hhead, htail⟩ := List.pairwise_cons.mp h
    unfold insertOrdered
    split
    · rename_i hlt
      refine List.pairwise_cons.mpr ⟨?_, h⟩
      intro m hm
      rcases List.mem_cons.mp hm with rfl | hm
      · exact hlt
      · exact UInt64.lt_trans hlt (hhead m hm)
    · rename_i hge
      split
      · exact h
      · rename_i hne
        refine List.pairwise_cons.mpr ⟨?_, ih htail⟩
        intro m hm
        rcases mem_insertOrdered.mp hm with rfl | hm
        · exact UInt64.lt_of_le_of_ne (UInt64.not_lt.mp hge) fun heq => hne heq.symm
        · exact hhead m hm

theorem behind_of_lt {highest n : UInt64} (hlt : n < m) (h : behind highest m = true) :
    behind highest n = true := by
  rw [behind_iff, far_iff] at h ⊢
  have hlt' := UInt64.lt_iff_toNat_lt.mp hlt
  omega

/-- Erasing from the front of an ordered set erases all that lies behind the window. -/
theorem mem_dropWhile_behind {highest : UInt64} (h : numbers.Pairwise (· < ·)) :
    m ∈ numbers.dropWhile (behind highest) ↔ m ∈ numbers ∧ behind highest m = false := by
  induction numbers with
  | nil => simp
  | cons n numbers ih =>
    obtain ⟨hhead, htail⟩ := List.pairwise_cons.mp h
    by_cases hn : behind highest n = true
    · rw [List.dropWhile_cons_of_pos hn, ih htail, List.mem_cons]
      constructor
      · rintro ⟨hmem, hin⟩
        exact ⟨Or.inr hmem, hin⟩
      · rintro ⟨rfl | hmem, hin⟩
        · rw [hin] at hn
          exact absurd hn (by decide)
        · exact ⟨hmem, hin⟩
    · rw [List.dropWhile_cons_of_neg hn]
      constructor
      · intro hmem
        refine ⟨hmem, ?_⟩
        rcases List.mem_cons.mp hmem with rfl | hm
        · exact Bool.eq_false_iff.mpr hn
        · exact Bool.eq_false_iff.mpr fun hb => hn (behind_of_lt (hhead m hm) hb)
      · exact fun hmem => hmem.1

theorem le_max (highest number m : UInt64) (h : m = number ∨ m ≤ highest) :
    m ≤ max highest number := by
  rw [← higher_eq_max, UInt64.le_iff_toNat_le]
  have hrank : (higher sequenceRank highest number).toNat = max highest.toNat number.toNat :=
    @rank_higher UInt64 sequenceRank highest number
  rw [hrank]
  rcases h with rfl | h
  · omega
  · have h' := UInt64.le_iff_toNat_le.mp h
    omega

def insert (s : Sequences) (number : UInt64) : Sequences where
  numbers := (insertOrdered number s.numbers).dropWhile (behind (max s.highest number))
  highest := max s.highest number
  ordered := (insertOrdered_pairwise s.ordered).sublist (List.dropWhile_sublist _)
  inside := by
    intro n hn
    obtain ⟨hmem, hin⟩ := (mem_dropWhile_behind (insertOrdered_pairwise s.ordered)).mp hn
    refine ⟨le_max _ _ _ ?_, hin⟩
    rcases mem_insertOrdered.mp hmem with rfl | hmem
    · exact Or.inl rfl
    · exact Or.inr (s.inside n hmem).1

/-- The set as a window. -/
def window (s : Sequences) : Window sequenceRank 32 where
  seen := s.numbers.toFinset
  highest := s.highest
  inside := by
    intro n hn
    obtain ⟨hle, hin⟩ := s.inside n (List.mem_toFinset.mp hn)
    refine ⟨UInt64.le_iff_toNat_le.mp hle, ?_⟩
    rw [← behind_iff, hin]
    decide

theorem window_insert (s : Sequences) (number : UInt64) :
    (s.insert number).window = s.window.take number := by
  have hhighest : max s.highest number = higher sequenceRank s.highest number :=
    (higher_eq_max _ _).symm
  refine Window.ext_fields ?_ hhighest
  ext m
  rw [Window.mem_take]
  show m ∈ ((insertOrdered number s.numbers).dropWhile _).toFinset ↔
    (m = number ∨ m ∈ s.numbers.toFinset) ∧ ¬ Far sequenceRank 32 (higher sequenceRank s.highest number) m
  rw [List.mem_toFinset, List.mem_toFinset,
    mem_dropWhile_behind (insertOrdered_pairwise s.ordered), mem_insertOrdered, ← hhighest,
    ← behind_iff, Bool.not_eq_true]

theorem window_admits {s : Sequences} :
    s.window.Admits number ↔ number ∉ s.numbers ∧ behind s.highest number = false := by
  unfold Window.Admits window
  rw [List.mem_toFinset, ← behind_iff, Bool.not_eq_true]

end Sequences

end HomeTunnel.Remote.Peers
