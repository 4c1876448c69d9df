import HomeTunnel.Lib.Brackets
import HomeTunnel.Files.Message

/-! # Nesting of what the JSON reader is given

The reader ends the process when a document nests deeper than the stack limit it
was configured with. `strict_json` counts brackets before it hands a text over;
the file channel's `parse` does not.
-/

namespace HomeTunnel.Remote

open Brackets (OpenAt Scan scan shallow)

/-- At no position of the text are more than `limit` arrays and objects open. -/
def NestsWithin (limit : Nat) (text : Bytes) : Prop :=
  ∀ start rest count, text = start ++ rest → OpenAt start count → count ≤ limit

namespace Auth

def strictJsonStackLimit : Nat := 32

/-- The checks after which `strict_json` hands the text to the reader. -/
def strictJsonHands (text : Bytes) (byteLimit : Nat) : Prop :=
  ¬ (text.isEmpty ∨ byteLimit > 262144 ∨ text.length > byteLimit ∨ ¬ validUtf8 text ∨
    ¬ nestingAllowed text)

instance (text : Bytes) (byteLimit : Nat) : Decidable (strictJsonHands text byteLimit) :=
  inferInstanceAs (Decidable (¬ _))

/-- The reader is asked about the texts handed over, and about no other. -/
theorem strictJson_eq (P : Primitives) (text : Bytes) (byteLimit : Nat) :
    strictJson P text byteLimit =
      if strictJsonHands text byteLimit then
        match P.readJson text with
        | some (.obj members) =>
          if validateJsonTree (.obj members) then some (.obj members) else none
        | _ => none
      else none := by
  by_cases h : strictJsonHands text byteLimit
  · rw [if_pos h, strictJson]
    exact if_neg h
  · rw [if_neg h, strictJson, if_pos (not_not.mp h)]

/-- The pre-scan counts what is open, whatever kinds the brackets are. -/
structure Nesting.Counts (n : Nesting) (s : Scan) : Prop where
  depth : n.depth = s.stack.length
  quoted : n.quoted = s.quoted
  escaped : n.escaped = s.escaped

variable {c : UInt8} {n m : Nesting}

theorem opens_iff : Brackets.opens c = true ↔ c = 123 ∨ c = 91 := by
  simp [Brackets.opens, or_comm]

theorem closes_iff : Brackets.closes c = true ↔ c = 125 ∨ c = 93 := by
  simp [Brackets.closes, or_comm]

/-- It stops at a closing bracket with nothing to close, as the reader does; at one of the
wrong kind the reader stops alone. -/
theorem Nesting.Counts.next {s t : Scan} (h : n.Counts s) (hn : n.scan c = some m)
    (hs : s.next c = some t) : m.Counts t := by
  obtain ⟨depth, quoted, escaped⟩ := n
  obtain ⟨stack, squoted, sescaped⟩ := s
  obtain ⟨hdepth, hquoted, hescaped⟩ := h
  dsimp only at hdepth hquoted hescaped
  subst hdepth hquoted hescaped
  cases quoted with
  | true =>
    simp only [Nesting.scan, Scan.next, if_true] at hn hs
    cases escaped with
    | true =>
      cases hn
      cases hs
      exact ⟨rfl, rfl, rfl⟩
    | false =>
      simp only [Bool.false_eq_true, if_false] at hn hs
      split at hn
      · next hslash =>
        rw [if_pos (show c = Brackets.backslash from hslash)] at hs
        cases hn
        cases hs
        exact ⟨rfl, rfl, rfl⟩
      · next hslash =>
        rw [if_neg (show c ≠ Brackets.backslash from hslash)] at hs
        split at hn
        · next hquote =>
          rw [if_pos (show c = Brackets.quote from hquote)] at hs
          cases hn
          cases hs
          exact ⟨rfl, rfl, rfl⟩
        · next hquote =>
          rw [if_neg (show c ≠ Brackets.quote from hquote)] at hs
          cases hn
          cases hs
          exact ⟨rfl, rfl, rfl⟩
  | false =>
    simp only [Nesting.scan, Scan.next, Bool.false_eq_true, if_false] at hn hs
    by_cases hquote : c = 34
    · rw [if_pos hquote] at hn
      rw [if_pos (show c = Brackets.quote from hquote)] at hs
      cases hn
      cases hs
      exact ⟨rfl, rfl, rfl⟩
    · rw [if_neg hquote] at hn
      rw [if_neg (show c ≠ Brackets.quote from hquote)] at hs
      by_cases hopens : Brackets.opens c = true
      · rw [if_pos (opens_iff.mp hopens)] at hn
        rw [if_pos hopens] at hs
        split at hn
        · cases hn
        · cases hn
          cases hs
          exact ⟨rfl, rfl, rfl⟩
      · rw [if_neg fun h => hopens (opens_iff.mpr h)] at hn
        rw [if_neg hopens] at hs
        by_cases hcloses : Brackets.closes c = true
        · rw [if_pos (closes_iff.mp hcloses)] at hn
          rw [if_pos hcloses] at hs
          cases stack with
          | nil => cases hs
          | cons o rest =>
            by_cases hpairs : Brackets.pairs o c = true
            · simp only [if_pos hpairs] at hs
              cases hn
              cases hs
              exact ⟨rfl, rfl, rfl⟩
            · simp only [if_neg hpairs] at hs
              cases hs
        · rw [if_neg fun h => hcloses (closes_iff.mpr h)] at hn
          rw [if_neg hcloses] at hs
          cases hn
          cases hs
          exact ⟨rfl, rfl, rfl⟩

theorem Nesting.scan_depth (h : n.depth ≤ 20) (hn : n.scan c = some m) : m.depth ≤ 20 := by
  unfold Nesting.scan at hn
  repeat' split at hn
  all_goals
    cases hn
    try first | exact h | (dsimp only; omega)

/-- Along a text the pre-scan accepts, the reader has no more open than the pre-scan allows. -/
theorem Nesting.Counts.bounded {s t : Scan} {start rest : Bytes} (h : n.Counts s)
    (hdepth : n.depth ≤ 20) (hn : (start ++ rest).foldlM Nesting.scan n = some m)
    (hs : start.foldlM Scan.next s = some t) : t.stack.length ≤ 20 := by
  induction start generalizing n s with
  | nil =>
    cases hs
    rw [← h.depth]
    exact hdepth
  | cons c start ih =>
    rw [List.cons_append, List.foldlM_cons] at hn
    rw [List.foldlM_cons] at hs
    obtain ⟨n', hn', hn⟩ := Option.bind_eq_some_iff.mp hn
    obtain ⟨s', hs', hs⟩ := Option.bind_eq_some_iff.mp hs
    exact ih (h.next hn' hs') (Nesting.scan_depth hdepth hn') hn hs

theorem nestsWithin_of_nestingAllowed {text : Bytes} (h : nestingAllowed text = true) :
    NestsWithin 20 text := by
  rintro start rest count rfl hopen
  obtain ⟨t, ht, rfl⟩ := Brackets.openAt_iff_scan.mp hopen
  unfold nestingAllowed at h
  split at h
  · cases h
  · next m hm =>
    exact Nesting.Counts.bounded (n := {}) (s := {}) ⟨rfl, rfl, rfl⟩ (Nat.zero_le _) hm ht

theorem nestsWithin_of_hands {text : Bytes} {byteLimit : Nat}
    (h : strictJsonHands text byteLimit) : NestsWithin strictJsonStackLimit text := by
  unfold strictJsonHands at h
  push Not at h
  intro start rest count htext hopen
  have hcount := nestsWithin_of_nestingAllowed h.2.2.2.2 start rest count htext hopen
  exact hcount.trans (by decide)

end Auth

namespace Files

def parseStackLimit : Nat := 16

/-- The checks after which `parse` hands the bytes to the reader. -/
def parseHands (bytes : Bytes) : Prop :=
  ¬ (bytes.isEmpty ∨ bytes.length > 17384 ∨ ¬ validUtf8 bytes)

instance (bytes : Bytes) : Decidable (parseHands bytes) :=
  inferInstanceAs (Decidable (¬ _))

theorem parse_eq (L : JsonLibrary) (bytes : Bytes) :
    parse L bytes =
      if parseHands bytes then
        match L.read bytes with
        | some (.obj members) => some (.obj members)
        | _ => none
      else none := by
  by_cases h : parseHands bytes
  · rw [if_pos h, parse]
    exact if_neg h
  · rw [if_neg h, parse, if_pos (not_not.mp h)]

end Files

/-- `strict_json` never gives its reader a text that nests past the reader's limit. `parse`
does not when a scan of the brackets outside strings stays within its limit, and only then. -/
theorem readers_nest_within (text : Bytes) (byteLimit : Nat) :
    (Auth.strictJsonHands text byteLimit → NestsWithin Auth.strictJsonStackLimit text) ∧
      (Files.parseHands text →
        (NestsWithin Files.parseStackLimit text ↔ shallow Files.parseStackLimit text = true)) :=
  ⟨Auth.nestsWithin_of_hands, fun _ => Brackets.shallow_iff.symm⟩

/-- Seventeen opening brackets are a payload `parse` hands over. -/
theorem parse_hands_over_deep_text :
    Files.parseHands (List.replicate 17 91) ∧
      ¬ NestsWithin Files.parseStackLimit (List.replicate 17 91) := by
  refine ⟨by decide, fun h => ?_⟩
  have hopen : OpenAt (List.replicate 17 91) 17 :=
    Brackets.openAt_iff_scan.mpr ⟨⟨List.replicate 17 91, false, false⟩, by decide, rfl⟩
  have hle : 17 ≤ Files.parseStackLimit := h _ [] 17 (List.append_nil _).symm hopen
  exact absurd hle (by decide)

end HomeTunnel.Remote
