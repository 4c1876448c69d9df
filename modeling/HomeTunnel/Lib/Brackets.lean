import Mathlib

/-! # Open brackets in a text with strings

How many arrays and objects are open at a position of a JSON text, also of one
that goes wrong later: brackets count outside strings, a closing bracket closes
the innermost one of its kind, and nothing is read past one that does not.
`Reads` says it token by token; `Scan` decides it byte by byte.
-/

namespace HomeTunnel.Brackets

abbrev Bytes := List UInt8

def quote : UInt8 := 34

def backslash : UInt8 := 92

def opens (c : UInt8) : Bool := c == 91 || c == 123

def closes (c : UInt8) : Bool := c == 93 || c == 125

/-- The bracket `c` closes what `o` opened. -/
def pairs (o c : UInt8) : Bool := (o == 91 && c == 93) || (o == 123 && c == 125)

/-- A byte that stands for nothing but itself. -/
def plain (c : UInt8) : Bool := c != quote && !opens c && !closes c

/-- What stands between the quotes of a string: bytes, and pairs that a backslash begins. -/
inductive Body : Bytes → Prop
  | nil : Body []
  | byte {body : Bytes} (h : Body body) {c : UInt8} (hquote : c ≠ quote) (hslash : c ≠ backslash) :
      Body (body ++ [c])
  | escape {body : Bytes} (h : Body body) (c : UInt8) : Body (body ++ [backslash, c])

/-- The text has been read up to the end of a token, with these brackets open. -/
inductive Reads : Bytes → List UInt8 → Prop
  | nil : Reads [] []
  | plain {text : Bytes} {stack : List UInt8} (h : Reads text stack) {c : UInt8}
      (hc : plain c = true) : Reads (text ++ [c]) stack
  | opening {text : Bytes} {stack : List UInt8} (h : Reads text stack) {c : UInt8}
      (hc : opens c = true) : Reads (text ++ [c]) (c :: stack)
  | closing {text : Bytes} {o : UInt8} {stack : List UInt8} (h : Reads text (o :: stack))
      {c : UInt8} (hc : pairs o c = true) : Reads (text ++ [c]) stack
  | string {text : Bytes} {stack : List UInt8} (h : Reads text stack) {body : Bytes}
      (hbody : Body body) : Reads (text ++ (quote :: body ++ [quote])) stack

/-- The beginning of a string that has not ended. -/
inductive Unfinished : Bytes → Prop
  | body {body : Bytes} (h : Body body) : Unfinished (quote :: body)
  | escape {body : Bytes} (h : Body body) : Unfinished (quote :: body ++ [backslash])

/-- After this much text so many brackets are open, inside a string or outside. -/
def OpenAt (text : Bytes) (count : Nat) : Prop :=
  ∃ stack, stack.length = count ∧
    (Reads text stack ∨ ∃ read rest, text = read ++ rest ∧ Reads read stack ∧ Unfinished rest)

structure Scan where
  stack : List UInt8 := []
  quoted : Bool := false
  escaped : Bool := false
deriving DecidableEq, Repr

def Scan.next (s : Scan) (c : UInt8) : Option Scan :=
  if s.quoted then
    if s.escaped then some { s with escaped := false }
    else if c = backslash then some { s with escaped := true }
    else if c = quote then some { s with quoted := false }
    else some s
  else if c = quote then some { s with quoted := true }
  else if opens c then some { s with stack := c :: s.stack }
  else if closes c then
    match s.stack with
    | o :: rest => if pairs o c then some { s with stack := rest } else none
    | [] => none
  else some s

def scan (text : Bytes) : Option Scan := text.foldlM Scan.next {}

/-- Nowhere on the way are more than `limit` brackets open. -/
def shallowFrom (limit : Nat) : Scan → Bytes → Bool
  | s, [] => decide (s.stack.length ≤ limit)
  | s, c :: rest => decide (s.stack.length ≤ limit) &&
      match s.next c with
      | none => true
      | some t => shallowFrom limit t rest

def shallow (limit : Nat) (text : Bytes) : Bool := shallowFrom limit {} text

theorem scan_append (a b : Bytes) : scan (a ++ b) = (scan a).bind fun s => b.foldlM Scan.next s := by
  simp only [scan, List.foldlM_append]
  rfl

variable {text : Bytes} {s : Scan} {stack : List UInt8} {c : UInt8}

theorem scan_snoc (h : scan text = some s) (c : UInt8) : scan (text ++ [c]) = s.next c := by
  rw [scan_append, h]
  simp

/-- What the scan's state says about the tokens read so far. -/
def Scan.Describes (s : Scan) (text : Bytes) : Prop :=
  if s.quoted then
    ∃ read body, Reads read s.stack ∧ Body body ∧
      text = read ++ (quote :: body ++ if s.escaped then [backslash] else [])
  else s.escaped = false ∧ Reads text s.stack

theorem describes_inside {escaped : Bool} {t : Scan}
    (h : Scan.Describes ⟨stack, true, escaped⟩ text)
    (hnext : Scan.next ⟨stack, true, escaped⟩ c = some t) : t.Describes (text ++ [c]) := by
  obtain ⟨read, body, hread, hbody, rfl⟩ := h
  cases escaped with
  | true =>
    cases hnext
    exact ⟨read, body ++ [backslash, c], hread, .escape hbody c, by simp⟩
  | false =>
    by_cases hslash : c = backslash
    · subst hslash
      cases hnext
      exact ⟨read, body, hread, hbody, by simp⟩
    · by_cases hquote : c = quote
      · subst hquote
        cases hnext
        refine ⟨rfl, ?_⟩
        simpa using Reads.string hread hbody
      · simp only [Scan.next, if_true, Bool.false_eq_true, if_false, if_neg hslash,
          if_neg hquote] at hnext
        cases hnext
        exact ⟨read, body ++ [c], hread, .byte hbody hquote hslash, by simp⟩

theorem describes_outside {t : Scan} (h : Reads text stack)
    (hnext : Scan.next ⟨stack, false, false⟩ c = some t) : t.Describes (text ++ [c]) := by
  by_cases hquote : c = quote
  · subst hquote
    cases hnext
    exact ⟨text, [], h, .nil, by simp⟩
  · simp only [Scan.next, Bool.false_eq_true, if_false, if_neg hquote] at hnext
    split at hnext
    · next hopens =>
      cases hnext
      exact ⟨rfl, .opening h hopens⟩
    · next hopens =>
      split at hnext
      · split at hnext
        · next o rest =>
          split at hnext
          · next hpairs =>
            cases hnext
            exact ⟨rfl, .closing h hpairs⟩
          · cases hnext
        · cases hnext
      · next hcloses =>
        cases hnext
        refine ⟨rfl, .plain h ?_⟩
        simp [plain, hquote, hopens, hcloses]

theorem describes_scan (h : scan text = some s) : s.Describes text := by
  induction text using List.reverseRecOn generalizing s with
  | nil =>
    cases h
    exact ⟨rfl, .nil⟩
  | append_singleton text c ih =>
    rw [scan_append, Option.bind_eq_some_iff] at h
    obtain ⟨before, hbefore, hnext⟩ := h
    have hnext' : before.next c = some s := by simpa using hnext
    have hdescribes := ih hbefore
    obtain ⟨stack, quoted, escaped⟩ := before
    cases quoted with
    | true => exact describes_inside hdescribes hnext'
    | false =>
      obtain ⟨hescaped, hreads⟩ := hdescribes
      cases hescaped
      exact describes_outside hreads hnext'

theorem next_plain (h : s.quoted = false) (hc : plain c = true) : s.next c = some s := by
  simp only [plain, Bool.and_eq_true, bne_iff_ne, ne_eq, Bool.not_eq_true'] at hc
  simp [Scan.next, h, hc.1.1, hc.1.2, hc.2]

theorem quote_of_opens (h : opens c = true) : c ≠ quote := by
  rintro rfl
  cases h

/-- A string token leaves the scan where it was. -/
theorem scan_body {body : Bytes} (hbody : Body body) (h : scan text = some ⟨stack, true, false⟩) :
    scan (text ++ body) = some ⟨stack, true, false⟩ := by
  induction hbody with
  | nil => simpa using h
  | byte _ hquote hslash ih =>
    rw [← List.append_assoc, scan_snoc ih]
    simp [Scan.next, hquote, hslash]
  | escape _ c ih =>
    rw [← List.append_assoc, List.append_cons, scan_snoc (scan_snoc ih backslash)]
    rfl

theorem scan_reads (h : Reads text stack) : scan text = some ⟨stack, false, false⟩ := by
  induction h with
  | nil => rfl
  | plain _ hc ih => rw [scan_snoc ih, next_plain rfl hc]
  | @opening text stack _ c hc ih =>
    rw [scan_snoc ih]
    simp [Scan.next, hc, quote_of_opens hc]
  | @closing text o stack _ c hc ih =>
    rw [scan_snoc ih]
    have hkind : c ≠ quote ∧ opens c = false ∧ closes c = true := by
      simp only [pairs, Bool.or_eq_true, Bool.and_eq_true, beq_iff_eq] at hc
      rcases hc with ⟨-, rfl⟩ | ⟨-, rfl⟩ <;> decide
    simp [Scan.next, hkind, hc]
  | @string text stack _ body hbody ih =>
    have hstart : scan (text ++ [quote]) = some ⟨stack, true, false⟩ := by
      rw [scan_snoc ih]
      rfl
    have hsplit : text ++ (quote :: body ++ [quote]) = text ++ [quote] ++ body ++ [quote] := by simp
    rw [hsplit, scan_snoc (scan_body hbody hstart)]
    rfl

theorem openAt_iff_scan {count : Nat} :
    OpenAt text count ↔ ∃ s, scan text = some s ∧ s.stack.length = count := by
  constructor
  · rintro ⟨stack, hlength, hreads | ⟨read, rest, rfl, hreads, hrest⟩⟩
    · exact ⟨_, scan_reads hreads, hlength⟩
    · have hstart : scan (read ++ [quote]) = some ⟨stack, true, false⟩ := by
        rw [scan_snoc (scan_reads hreads)]
        rfl
      cases hrest with
      | body hbody =>
        refine ⟨⟨stack, true, false⟩, ?_, hlength⟩
        rw [List.append_cons]
        exact scan_body hbody hstart
      | escape hbody =>
        refine ⟨⟨stack, true, true⟩, ?_, hlength⟩
        rw [List.cons_append, List.append_cons, ← List.append_assoc,
          scan_snoc (scan_body hbody hstart)]
        rfl
  · rintro ⟨⟨stack, quoted, escaped⟩, hscan, hlength⟩
    have hdescribes := describes_scan hscan
    cases quoted with
    | false => exact ⟨stack, hlength, .inl hdescribes.2⟩
    | true =>
      obtain ⟨read, body, hread, hbody, rfl⟩ := hdescribes
      refine ⟨stack, hlength, .inr ⟨read, _, rfl, hread, ?_⟩⟩
      cases escaped with
      | false => simpa using Unfinished.body hbody
      | true => exact .escape hbody

theorem shallowFrom_iff {limit : Nat} :
    shallowFrom limit s text = true ↔
      ∀ start rest t, text = start ++ rest → start.foldlM Scan.next s = some t →
        t.stack.length ≤ limit := by
  induction text generalizing s with
  | nil =>
    simp only [shallowFrom, decide_eq_true_eq]
    constructor
    · rintro hs start rest t htext ht
      obtain ⟨rfl, rfl⟩ := List.append_eq_nil_iff.mp htext.symm
      cases ht
      exact hs
    · intro h
      exact h [] [] s rfl rfl
  | cons c text ih =>
    simp only [shallowFrom, Bool.and_eq_true, decide_eq_true_eq]
    constructor
    · rintro ⟨hs, hrest⟩ start rest t htext ht
      cases start with
      | nil =>
        cases ht
        exact hs
      | cons d start =>
        obtain ⟨rfl, rfl⟩ := List.cons.inj htext
        rw [List.foldlM_cons] at ht
        obtain ⟨u, hu, ht⟩ := Option.bind_eq_some_iff.mp ht
        rw [hu] at hrest
        exact ih.mp hrest start rest t rfl ht
    · intro h
      refine ⟨h [] (c :: text) s rfl rfl, ?_⟩
      split
      · rfl
      · next u hu =>
        refine ih.mpr fun start rest t htext ht => h (c :: start) rest t (by rw [htext]; rfl) ?_
        rw [List.foldlM_cons, hu]
        exact ht

/-- The scan finds out whether too many brackets are open somewhere. -/
theorem shallow_iff {limit : Nat} :
    shallow limit text = true ↔
      ∀ start rest count, text = start ++ rest → OpenAt start count → count ≤ limit := by
  unfold shallow
  rw [shallowFrom_iff]
  constructor
  · intro h start rest count htext hopen
    obtain ⟨t, ht, rfl⟩ := openAt_iff_scan.mp hopen
    exact h start rest t htext ht
  · intro h start rest t htext ht
    exact h start rest _ htext (openAt_iff_scan.mpr ⟨t, ht, rfl⟩)

end HomeTunnel.Brackets
