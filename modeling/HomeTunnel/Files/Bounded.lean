import HomeTunnel.Files.Calls
import HomeTunnel.Lib.Runs

/-! # The limits hold in every run

The bounds of `Limits` along every run, together with what the trace tells about
the checks themselves: no subtraction wraps around, and no message meets a full
queue while the sending loop walks over the items.
-/

namespace HomeTunnel.Remote.Files

open Transfer Trace

variable {cb : Callbacks} {op : FileOp} {sending : Bool} {s t : Transfer}

/-- The sending loop of the call in progress has begun. -/
def InLoop (trace : List FileEvent) : Prop := Since (· = .sending) FileEvent.isCall trace

/-- A subtraction that does not wrap around, and a full queue met outside the loop only. -/
def FileEvent.checked (event : FileEvent) (past : List FileEvent) : Prop :=
  (∀ a b, event = .subtracted a b → b ≤ a) ∧ (event = .overflowed → ¬ InLoop past)

theorem FileEvent.checked_of_allowed {event : FileEvent} (h : event.allowed sending)
    {past : List FileEvent} (hpast : sending = false → ¬ InLoop past) : event.checked past := by
  constructor
  · rintro a b rfl
    exact h
  · rintro rfl
    exact hpast h

theorem FileEvent.ne_sending_of_allowed {event : FileEvent} (h : event.allowed sending) :
    event ≠ .sending := by
  rintro rfl
  exact h

theorem Moves.checked (h : Moves cb op sending s t) (hs : Each FileEvent.checked s.trace)
    (hloop : sending = false → ¬ InLoop s.trace) : Each FileEvent.checked t.trace := by
  obtain ⟨events, htrace, hallowed⟩ := h.grows
  rw [htrace]
  clear htrace
  induction events with
  | nil => exact hs
  | cons e events ih =>
    have hrest : ∀ x ∈ events, x.allowed sending :=
      fun x hx => hallowed x (List.mem_cons_of_mem e hx)
    refine ⟨FileEvent.checked_of_allowed (hallowed e List.mem_cons_self) ?_, ih hrest⟩
    intro hsending hin
    exact hloop hsending
      (hin.of_append fun x hx => FileEvent.ne_sending_of_allowed (hrest x hx))

theorem Call.checked (h : Call cb op s t) (hs : Each FileEvent.checked s.trace)
    (hloop : ¬ InLoop s.trace) : Each FileEvent.checked t.trace := by
  rcases h with hmoves | ⟨mid, hmoves, hsending⟩
  · exact hmoves.checked hs fun _ => hloop
  · have hmid := hmoves.checked hs fun _ => hloop
    have hnow : Each FileEvent.checked (mid.note .sending).trace := ⟨by simp [FileEvent.checked], hmid⟩
    exact hsending.checked hnow (by simp)

theorem step_checked (op : FileOp) (hs : Sound s) (h : Each FileEvent.checked s.trace) :
    Each FileEvent.checked (step cb s op).trace := by
  have hcalled : Each FileEvent.checked (s.note (.called op)).trace :=
    ⟨by simp [FileEvent.checked], h⟩
  have hloop : ¬ InLoop (s.note (.called op)).trace := by
    intro hin
    exact (hin.of_cons (by simp)).1 trivial
  have hcall : Call cb op (s.note (.called op)) (perform cb (s.note (.called op)) op).2 :=
    perform_call op (hs.note rfl fun _ => rfl)
  exact ⟨by simp [FileEvent.checked], hcall.checked hcalled hloop⟩

theorem run_checked (cb : Callbacks) (ops : List FileOp) :
    Sound (run cb ops) ∧ Each FileEvent.checked (run cb ops).trace := by
  refine (Runs.always_of_step (q := fun s => Sound s ∧ Each FileEvent.checked s.trace)
    (fun _ op hs => ?_) ?_).last
  · exact ⟨step_sound op hs.1, step_checked op hs.1 hs.2⟩
  · exact ⟨sound_empty, trivial⟩

/-- The limits of an endpoint after any sequence of operations, peer messages
included, whatever the callbacks answer. -/
theorem run_within_limits (cb : Callbacks) (ops : List FileOp) :
    (run cb ops).items.length ≤ Protocol.batchFiles ∧
      ((run cb ops).items.map (·.size)).sum ≤ Protocol.batchFileBytes ∧
      (∀ item ∈ (run cb ops).items, item.size ≤ Protocol.fileBytes) ∧
      (run cb ops).active ≤ maxActive ∧
      (run cb ops).queue.length ≤ maxQueue ∧
      ((run cb ops).items.map (·.id)).Nodup ∧
      (run cb ops).seen.length ≤ maxSeen ∧
      (∀ a b, .subtracted a b ∈ (run cb ops).trace → b ≤ a) ∧
      ∀ later earlier, (run cb ops).trace = later ++ .overflowed :: earlier →
        ¬ Since (· = .sending) FileEvent.isCall earlier := by
  obtain ⟨⟨hlimits, -⟩, hchecked⟩ := run_checked cb ops
  rw [each_iff] at hchecked
  refine ⟨hlimits.count, hlimits.sum, hlimits.sizes, hlimits.active, hlimits.queue, hlimits.ids,
    hlimits.seen, ?_, ?_⟩
  · intro a b hmem
    obtain ⟨later, earlier, heq⟩ := List.append_of_mem hmem
    exact (hchecked later _ earlier heq).1 a b rfl
  · intro later earlier heq
    exact (hchecked later _ earlier heq).2 rfl

end HomeTunnel.Remote.Files
