import Mathlib

/-! # Audio blocks

`AudioBlocks` puts chunks of samples together to blocks of one length. The consumer may refuse
a block; its answer may depend on all it was given.
-/

namespace HomeTunnel.Remote

def AudioBlocks.channels : Nat := 2
def AudioBlocks.samples : Nat := 960

structure AudioBlocks (Sample : Type) [Zero Sample] where
  block : List Sample := List.replicate AudioBlocks.samples 0
  used : Nat := 0
  -- what the consumer was given, the last block last
  delivered : List (List Sample) := []

namespace AudioBlocks

variable {Sample : Type} [Zero Sample]

def reset (s : AudioBlocks Sample) : AudioBlocks Sample :=
  { s with used := 0, block := List.replicate samples 0 }

/-- Room for the chunk in the block. -/
def count (s : AudioBlocks Sample) (pcm : List Sample) : Nat := min pcm.length (samples - s.used)

def copy (s : AudioBlocks Sample) (pcm : List Sample) : AudioBlocks Sample :=
  { s with
    block := s.block.take s.used ++ pcm.take (s.count pcm) ++ s.block.drop (s.used + s.count pcm)
    used := s.used + s.count pcm }

def deliver (s : AudioBlocks Sample) : AudioBlocks Sample :=
  { s with delivered := s.delivered ++ [s.block] }

variable (accepts : List (List Sample) → Bool)

/-- Each turn takes a sample, so the length of the chunk is enough fuel. -/
def appendLoop : Nat → AudioBlocks Sample → List Sample → AudioBlocks Sample × Bool
  | 0, s, _ => (s, true)
  | fuel + 1, s, pcm =>
    if pcm.isEmpty then (s, true)
    else
      let rest := pcm.drop (s.count pcm)
      let s := s.copy pcm
      if s.used = samples then
        let s := s.deliver
        if accepts s.delivered then appendLoop fuel { s with used := 0 } rest
        else (s.reset, false)
      else appendLoop fuel s rest

def accepted (pcm : List Sample) : Bool :=
  !(pcm.length % channels != 0 || pcm.length > 48000 * channels)

def append (s : AudioBlocks Sample) (pcm : List Sample) : AudioBlocks Sample × Bool :=
  if accepted pcm then s.appendLoop accepts pcm.length pcm else (s, false)

/-- All chunks are of a size that `append` accepts. -/
def Sized (chunks : List (List Sample)) : Prop := ∀ pcm ∈ chunks, accepted pcm

def run (s : AudioBlocks Sample) (chunks : List (List Sample)) : AudioBlocks Sample :=
  chunks.foldl (fun s pcm => (s.append accepts pcm).1) s

/-- The part of a block that waits. -/
def kept (s : AudioBlocks Sample) : List Sample := s.block.take s.used

structure Inv (s : AudioBlocks Sample) : Prop where
  length : s.block.length = samples
  used : s.used < samples

/-- What the consumer is given and what waits comes from what waited and the input, and is all of
it if nothing is refused. -/
structure Blocked (s : AudioBlocks Sample) (input : List Sample) (t : AudioBlocks Sample) : Prop where
  inv : t.Inv
  blocks : ∃ later, t.delivered = s.delivered ++ later ∧ (∀ block ∈ later, block.length = samples) ∧
    (later.flatten ++ t.kept).Sublist (s.kept ++ input) ∧
    ((∀ given, accepts given) → later.flatten ++ t.kept = s.kept ++ input)

variable {accepts} {s t u : AudioBlocks Sample}

theorem Blocked.nil (h : s.Inv) : s.Blocked accepts [] s :=
  ⟨h, [], by simp, nofun, by simp, by simp⟩

theorem Blocked.trans {a b : List Sample} (h : s.Blocked accepts a t) (h' : t.Blocked accepts b u) :
    s.Blocked accepts (a ++ b) u := by
  obtain ⟨first, hfirst, hlength, hsub, hwhole⟩ := h.blocks
  obtain ⟨later, hlater, hlength', hsub', hwhole'⟩ := h'.blocks
  refine ⟨h'.inv, first ++ later, by rw [hlater, hfirst, List.append_assoc],
    List.forall_mem_append.mpr ⟨hlength, hlength'⟩, ?_, fun hall => ?_⟩
  all_goals rw [List.flatten_append, List.append_assoc, ← List.append_assoc s.kept]
  · refine (hsub'.append_left _).trans ?_
    rw [← List.append_assoc]
    exact hsub.append_right _
  · rw [hwhole' hall, ← List.append_assoc, hwhole hall]

theorem copy_spec (h : s.Inv) (pcm : List Sample) :
    (s.copy pcm).block.length = samples ∧ (s.copy pcm).used ≤ samples ∧
      (s.copy pcm).kept = s.kept ++ pcm.take (s.count pcm) := by
  have hused := h.used
  have hcount : s.count pcm ≤ pcm.length ∧ s.used + s.count pcm ≤ samples := by
    unfold count
    omega
  have hlength : (s.block.take s.used ++ pcm.take (s.count pcm)).length = s.used + s.count pcm := by
    rw [List.length_append, List.length_take, List.length_take, h.length]
    omega
  refine ⟨?_, hcount.2, List.take_left' hlength⟩
  rw [copy, List.length_append, hlength, List.length_drop, h.length]
  omega

theorem appendLoop_blocked (h : s.Inv) {fuel : Nat} {pcm : List Sample} (hfuel : pcm.length ≤ fuel) :
    s.Blocked accepts pcm (s.appendLoop accepts fuel pcm).1 := by
  induction fuel generalizing s pcm with
  | zero =>
    obtain rfl := List.eq_nil_of_length_eq_zero (Nat.le_zero.mp hfuel)
    exact .nil h
  | succ fuel ih =>
    rw [appendLoop]
    split
    · next hempty => exact List.isEmpty_iff.mp hempty ▸ .nil h
    · next hne =>
      have hpos : 0 < pcm.length := List.length_pos_of_ne_nil (by simpa using hne)
      have hused := h.used
      obtain ⟨hlength, hle, hkept⟩ := copy_spec h pcm
      have hrest : (pcm.drop (s.count pcm)).length ≤ fuel := by
        rw [List.length_drop, count]
        omega
      have hturn : ∀ t, s.Blocked accepts (pcm.take (s.count pcm)) t →
          s.Blocked accepts pcm (t.appendLoop accepts fuel (pcm.drop (s.count pcm))).1 :=
        fun t ht => by simpa only [List.take_append_drop] using ht.trans (ih ht.inv hrest)
      dsimp only
      split
      · next hfull =>
        have hblock : [(s.copy pcm).block].flatten ++ [] = s.kept ++ pcm.take (s.count pcm) := by
          rw [← hkept, kept, hfull, List.take_of_length_le hlength.le]
          simp
        have hlater : ∀ block ∈ [(s.copy pcm).block], block.length = samples := by simpa using hlength
        split
        · exact hturn _ ⟨⟨hlength, Nat.succ_pos _⟩, _, rfl, hlater, hblock ▸ .refl _, fun _ => hblock⟩
        · next hrefused =>
          refine ⟨⟨List.length_replicate, Nat.succ_pos _⟩, _, rfl, hlater, ?_, fun h => absurd (h _) hrefused⟩
          exact hblock ▸ (List.take_sublist _ _).append_left _
      · next hroom =>
        exact hturn _ ⟨⟨hlength, lt_of_le_of_ne hle hroom⟩, [], by simp [copy], nofun,
          hkept ▸ .refl _, fun _ => hkept⟩

theorem appendLoop_refused {fuel : Nat} {pcm : List Sample}
    (h : (s.appendLoop accepts fuel pcm).2 = false) : (s.appendLoop accepts fuel pcm).1.kept = [] := by
  induction fuel generalizing s pcm with
  | zero => cases h
  | succ fuel ih =>
    rw [appendLoop] at h ⊢
    split at h
    · cases h
    · next hne =>
      rw [if_neg hne]
      dsimp only at h ⊢
      split at h
      · next hfull =>
        rw [if_pos hfull]
        split at h
        · next haccepts => rw [if_pos haccepts]; exact ih h
        · next hrefused => rw [if_neg hrefused]; rfl
      · next hroom =>
        rw [if_neg hroom]
        exact ih h

theorem run_blocked (h : s.Inv) {chunks : List (List Sample)} (hsizes : Sized chunks) :
    s.Blocked accepts chunks.flatten (s.run accepts chunks) := by
  induction chunks generalizing s with
  | nil => exact .nil h
  | cons pcm chunks ih =>
    obtain ⟨hpcm, hsizes⟩ := List.forall_mem_cons.mp hsizes
    have hfirst : s.Blocked accepts pcm (s.append accepts pcm).1 := by
      rw [append, if_pos hpcm]
      exact appendLoop_blocked h le_rfl
    exact hfirst.trans (ih hfirst.inv hsizes)

omit [Zero Sample] in
theorem blocks_unique {blocks blocks' : List (List Sample)} {rest rest' : List Sample}
    (h : ∀ block ∈ blocks, block.length = samples) (h' : ∀ block ∈ blocks', block.length = samples)
    (hrest : rest.length < samples) (hrest' : rest'.length < samples)
    (heq : blocks.flatten ++ rest = blocks'.flatten ++ rest') : blocks = blocks' := by
  have hmap := List.map_eq_replicate_iff.mpr h
  have hmap' := List.map_eq_replicate_iff.mpr h'
  have hlength := congrArg List.length heq
  simp only [List.length_append, List.length_flatten, hmap, hmap', List.sum_replicate,
    smul_eq_mul] at hlength
  have hcount : blocks.length = blocks'.length := by
    unfold samples at hlength hrest hrest'
    omega
  refine List.eq_iff_flatten_eq.mpr ⟨(List.append_inj heq ?_).1, by rw [hmap, hmap', hcount]⟩
  rw [List.length_flatten, List.length_flatten, hmap, hmap', hcount]

theorem inv_init : ({} : AudioBlocks Sample).Inv := ⟨List.length_replicate, Nat.succ_pos _⟩

theorem run_whole {chunks : List (List Sample)} (hsizes : Sized chunks) :
    let s := run (fun _ => true) {} chunks
    (∀ block ∈ s.delivered, block.length = samples) ∧
      s.delivered.flatten ++ s.kept = chunks.flatten ∧ s.kept.length < samples := by
  intro s
  have h : Blocked (fun _ => true) {} chunks.flatten s := run_blocked inv_init hsizes
  obtain ⟨later, hdelivered, hlength, -, hwhole⟩ := h.blocks
  obtain rfl : s.delivered = later := hdelivered
  exact ⟨hlength, hwhole fun _ => rfl, (List.length_take_le _ _).trans_lt h.inv.used⟩

/-- A consumer that refuses nothing is given all samples in blocks of one length, which depend on
the samples alone, and what waits is less than a block. After a refusal no sample from before it
is given. -/
theorem blocks_keep_samples :
    (∀ chunks : List (List Sample), Sized chunks →
      let s := run (fun _ => true) {} chunks
      (∀ block ∈ s.delivered, block.length = samples) ∧
        s.delivered.flatten ++ s.kept = chunks.flatten ∧ s.kept.length < samples) ∧
    (∀ chunks chunks' : List (List Sample), Sized chunks → Sized chunks' →
      chunks.flatten = chunks'.flatten →
      (run (fun _ => true) {} chunks).delivered = (run (fun _ => true) {} chunks').delivered) ∧
    ∀ accepts (chunks : List (List Sample)) pcm after, Sized (chunks ++ pcm :: after) →
      let refused := (run accepts {} chunks).append accepts pcm
      refused.2 = false → ∃ later, (refused.1.run accepts after).delivered =
        refused.1.delivered ++ later ∧ later.flatten.Sublist after.flatten := by
  refine ⟨fun _ => run_whole, fun chunks chunks' hsizes hsizes' heq => ?_, ?_⟩
  · obtain ⟨hlength, hflatten, hkept⟩ := run_whole hsizes
    obtain ⟨hlength', hflatten', hkept'⟩ := run_whole hsizes'
    exact blocks_unique hlength hlength' hkept hkept' (by rw [hflatten, hflatten', heq])
  · intro accepts chunks pcm after hsizes refused hrefused
    obtain ⟨hchunks, hpcm, hafter⟩ := by simpa [Sized, or_imp, forall_and] using hsizes
    have hloop : refused = (run accepts {} chunks).appendLoop accepts pcm.length pcm := if_pos hpcm
    have hblocked : Blocked accepts _ pcm refused.1 :=
      hloop ▸ appendLoop_blocked (run_blocked inv_init hchunks).inv le_rfl
    have hkept : refused.1.kept = [] := hloop ▸ appendLoop_refused (hloop ▸ hrefused)
    obtain ⟨later, hdelivered, -, hsub, -⟩ := (run_blocked hblocked.inv hafter).blocks
    rw [hkept] at hsub
    exact ⟨later, hdelivered, (List.sublist_append_left _ _).trans hsub⟩

theorem run_filter_accepted (chunks : List (List Sample)) :
    s.run accepts (chunks.filter accepted) = s.run accepts chunks := by
  unfold run
  rw [List.foldl_filter]
  congr
  funext s pcm
  unfold append
  split <;> rfl

/-- Whatever the sizes of the chunks and the answers of the consumer, blocks are of one length,
less than one waits, and no sample is made up, doubled or moved before another. -/
theorem blocks_come_from_chunks (accepts : List (List Sample) → Bool)
    (chunks : List (List Sample)) :
    let s := run accepts {} chunks
    (∀ block ∈ s.delivered, block.length = samples) ∧ s.kept.length < samples ∧
      (s.delivered.flatten ++ s.kept).Sublist chunks.flatten := by
  intro s
  have hsizes : Sized (chunks.filter accepted) := fun _ h => (List.mem_filter.mp h).2
  have h : Blocked accepts {} _ s := run_filter_accepted chunks ▸ run_blocked inv_init hsizes
  obtain ⟨later, hdelivered, hlength, hsub, -⟩ := h.blocks
  obtain rfl : s.delivered = later := hdelivered
  exact ⟨hlength, (List.length_take_le _ _).trans_lt h.inv.used,
    hsub.trans List.filter_sublist.flatten⟩

end AudioBlocks

end HomeTunnel.Remote
