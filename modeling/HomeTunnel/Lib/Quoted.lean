import Mathlib

/-! # Lines with quoted strings

A text is read line by line; in a line, fixed text alternates with quoted strings, in which
a backslash escapes a quote or a backslash. A quoted string ends at the first quote that is
not escaped and never goes beyond its line. Writing escapes, and reading gives back what
was written.
-/

namespace HomeTunnel.Quoted

/-- A line: the text up to the first quoted string, then each quoted string with the text
behind it. -/
structure Line where
  lead : List Char
  quoted : List (List Char × List Char)
deriving DecidableEq, Repr

def Line.blank : Line := ⟨[], []⟩

def escapeChar (c : Char) : List Char := if c = '\\' ∨ c = '"' then ['\\', c] else [c]

def escape (value : List Char) : List Char := value.flatMap escapeChar

def quote (value : List Char) : List Char := '"' :: (escape value ++ ['"'])

def Line.write (line : Line) : List Char :=
  line.lead ++ line.quoted.flatMap fun part => quote part.1 ++ part.2

/-- Lines as they stand in a text, each with its line end. -/
def write (lines : List Line) : List Char := lines.flatMap fun line => line.write ++ ['\n']

mutual

/-- The rest of a line outside a quoted string. -/
def readText : List Char → Option Line
  | [] => some .blank
  | c :: rest =>
    if c = '"' then
      (readBasic rest).map fun read => ⟨[], (read.1, read.2.lead) :: read.2.quoted⟩
    else (readText rest).map fun line => { line with lead := c :: line.lead }

/-- The rest of a line inside a quoted string. -/
def readBasic : List Char → Option (List Char × Line)
  | [] => none
  | c :: rest =>
    if c = '"' then (readText rest).map fun line => ([], line)
    else if c = '\\' then
      match rest with
      | [] => none
      | d :: rest =>
        if d = '\\' ∨ d = '"' then (readBasic rest).map fun read => (d :: read.1, read.2)
        else none
    else (readBasic rest).map fun read => (c :: read.1, read.2)

end

def read (text : List Char) : Option (List Line) := (text.splitOn '\n').mapM readText

/-- The fixed text has no quotes, and there are no line ends. -/
structure Line.Clean (line : Line) : Prop where
  lead_quote : '"' ∉ line.lead
  lead_end : '\n' ∉ line.lead
  value_end : ∀ part ∈ line.quoted, '\n' ∉ part.1
  text_quote : ∀ part ∈ line.quoted, '"' ∉ part.2
  text_end : ∀ part ∈ line.quoted, '\n' ∉ part.2

theorem readBasic_quote (rest : List Char) :
    readBasic ('"' :: rest) = (readText rest).map fun line => ([], line) := by
  rw [readBasic.eq_def]
  rfl

theorem readBasic_escaped {d : Char} (h : d = '\\' ∨ d = '"') (rest : List Char) :
    readBasic ('\\' :: d :: rest) = (readBasic rest).map fun read => (d :: read.1, read.2) := by
  rw [readBasic.eq_def]
  dsimp only
  rw [if_neg (by decide), if_pos rfl, if_pos h]

theorem readBasic_plain {c : Char} (h : ¬ (c = '\\' ∨ c = '"')) (rest : List Char) :
    readBasic (c :: rest) = (readBasic rest).map fun read => (c :: read.1, read.2) := by
  obtain ⟨hback, hquote⟩ := not_or.mp h
  rw [readBasic.eq_def]
  dsimp only
  rw [if_neg hquote, if_neg hback]

theorem readText_append {lead : List Char} (h : '"' ∉ lead) (rest : List Char) :
    readText (lead ++ rest) = (readText rest).map fun line =>
      { line with lead := lead ++ line.lead } := by
  induction lead with
  | nil => simp
  | cons c lead ih =>
    obtain ⟨hc, hlead⟩ := not_or.mp (mt List.mem_cons.mpr h)
    rw [List.cons_append, readText, if_neg (Ne.symm hc), ih hlead, Option.map_map]
    rfl

theorem readBasic_escape (value rest : List Char) :
    readBasic (escape value ++ rest) = (readBasic rest).map fun read =>
      (value ++ read.1, read.2) := by
  induction value with
  | nil => simp [escape]
  | cons c value ih =>
    have hcons : escape (c :: value) ++ rest = escapeChar c ++ (escape value ++ rest) := by
      simp [escape]
    rw [hcons]
    by_cases hc : c = '\\' ∨ c = '"'
    · rw [escapeChar, if_pos hc, List.cons_append, List.cons_append, readBasic_escaped hc,
        List.nil_append, ih, Option.map_map]
      rfl
    · rw [escapeChar, if_neg hc, List.cons_append, readBasic_plain hc, List.nil_append, ih,
        Option.map_map]
      rfl

theorem readText_quoted {quoted : List (List Char × List Char)}
    (h : ∀ part ∈ quoted, '"' ∉ part.2) :
    readText (quoted.flatMap fun part => quote part.1 ++ part.2) = some ⟨[], quoted⟩ := by
  induction quoted with
  | nil => rfl
  | cons part quoted ih =>
    obtain ⟨hpart, hquoted⟩ := List.forall_mem_cons.mp h
    have htext := readText_append hpart (quoted.flatMap fun part => quote part.1 ++ part.2)
    rw [ih hquoted] at htext
    have hclose : readBasic ('"' :: (part.2 ++ quoted.flatMap fun part =>
        quote part.1 ++ part.2)) = some ([], ⟨part.2, quoted⟩) := by
      rw [readBasic_quote, htext]
      simp
    have hsplit : ((part :: quoted).flatMap fun part => quote part.1 ++ part.2) =
        '"' :: (escape part.1 ++ '"' :: (part.2 ++ quoted.flatMap fun part =>
          quote part.1 ++ part.2)) := by
      simp [quote]
    rw [hsplit, readText, if_pos rfl, readBasic_escape, hclose]
    simp

theorem readText_write {line : Line} (h : line.Clean) : readText line.write = some line := by
  rw [Line.write, readText_append h.lead_quote, readText_quoted h.text_quote]
  simp

theorem mem_escape {c : Char} {value : List Char} (h : c ∈ escape value) :
    c = '\\' ∨ c ∈ value := by
  obtain ⟨d, hd, hc⟩ := List.mem_flatMap.mp h
  unfold escapeChar at hc
  split at hc
  · rcases List.mem_cons.mp hc with hc | hc
    · exact .inl hc
    · exact .inr (List.mem_singleton.mp hc ▸ hd)
  · exact .inr (List.mem_singleton.mp hc ▸ hd)

theorem Line.Clean.write_end {line : Line} (h : line.Clean) : '\n' ∉ line.write := by
  intro hmem
  rcases List.mem_append.mp hmem with hlead | hquoted
  · exact h.lead_end hlead
  · obtain ⟨part, hpart, hmem⟩ := List.mem_flatMap.mp hquoted
    rcases List.mem_append.mp hmem with hvalue | htext
    · have hescaped : '\n' ∈ escape part.1 := by
        simpa [quote] using hvalue
      rcases mem_escape hescaped with heq | hin
      · exact absurd heq (by decide)
      · exact h.value_end part hpart hin
    · exact h.text_end part hpart htext

/-- Every line is read back, and the text ends behind the last one. -/
theorem read_write {lines : List Line} (h : ∀ line ∈ lines, line.Clean) :
    read (write lines) = some (lines ++ [.blank]) := by
  induction lines with
  | nil => rfl
  | cons line lines ih =>
    obtain ⟨hline, hlines⟩ := List.forall_mem_cons.mp h
    have hrest := ih hlines
    have hsplit : (write (line :: lines)).splitOn '\n' =
        line.write :: (write lines).splitOn '\n' := by
      have happend : write (line :: lines) = line.write ++ '\n' :: write lines := by
        simp [write]
      rw [happend]
      refine List.splitOnP_append_cons_of_forall_mem ?_ _ (by simp) _
      intro c hc
      simpa using fun heq : c = '\n' => hline.write_end (heq ▸ hc)
    rw [read] at hrest
    rw [read, hsplit, List.mapM_cons, readText_write hline, hrest]
    rfl

end HomeTunnel.Quoted
