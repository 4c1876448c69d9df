import HomeTunnel.Native.SessionGate

/-! # What `releaseInputs` does

`releaseInputs` touches two sets and one flag of the gate, and extends the
trace by one release attempt for each pressed key and button. Everything later
proofs need about the two loops is said once, in `releaseInputs_spec`.
-/

namespace HomeTunnel.Remote

namespace Session

@[simp] theorem mark_gate (s : Session) (e : GateEvent) : (s.mark e).gate = s.gate := rfl

@[simp] theorem mark_trace (s : Session) (e : GateEvent) : (s.mark e).trace = e :: s.trace := rfl

@[simp] theorem modify_gate (s : Session) (f : SessionGate → SessionGate) :
    (s.modify f).gate = f s.gate := rfl

@[simp] theorem modify_trace (s : Session) (f : SessionGate → SessionGate) :
    (s.modify f).trace = s.trace := rfl

variable (sink : InputSink)

/-- The key and button releases, the only sink calls of `releaseInputs`. -/
def isReleaseAttempt : GateEvent → Bool
  | .sink (.key _ false false) _ => true
  | .sink (.button _ false) _ => true
  | _ => false

/-- `t` is `s` after the release attempts `calls`: the pressed sets may have
shrunk and nothing else of the gate has changed. -/
structure Releases (s t : Session) (calls : List GateEvent) : Prop where
  trace : t.trace = calls ++ s.trace
  gate : t.gate =
    { s.gate with pressedKeys := t.gate.pressedKeys, pressedButtons := t.gate.pressedButtons }
  attempts : ∀ e ∈ calls, isReleaseAttempt e
  keys : ∀ u ∈ t.gate.pressedKeys, u ∈ s.gate.pressedKeys
  buttons : ∀ b ∈ t.gate.pressedButtons, b ∈ s.gate.pressedButtons

theorem Releases.refl (s : Session) : Releases s s [] :=
  ⟨rfl, rfl, by simp, fun _ h => h, fun _ h => h⟩

theorem Releases.trans {s t u : Session} {calls more : List GateEvent}
    (hst : Releases s t calls) (htu : Releases t u more) : Releases s u (more ++ calls) where
  trace := by rw [htu.trace, hst.trace, List.append_assoc]
  gate := by rw [htu.gate, hst.gate]
  attempts e he := by
    rcases List.mem_append.mp he with he | he
    · exact htu.attempts e he
    · exact hst.attempts e he
  keys v hv := hst.keys v (htu.keys v hv)
  buttons v hv := hst.buttons v (htu.buttons v hv)

theorem releaseKey_releases (s : Session) (usage : UInt16) :
    ∃ ok, Releases s (releaseKey sink s usage) [.sink (.key usage false false) ok] := by
  refine ⟨sink s.trace (.key usage false false), ?_⟩
  unfold releaseKey
  by_cases hok : sink s.trace (.key usage false false) = true
  · simp only [invoke, hok, if_true]
    exact ⟨rfl, rfl, by simp [isReleaseAttempt], by simp, fun _ h => h⟩
  · simp only [invoke, hok]
    exact ⟨rfl, rfl, by simp [isReleaseAttempt], fun _ h => h, fun _ h => h⟩

theorem releaseButton_releases (s : Session) (button : UInt8) :
    ∃ ok, Releases s (releaseButton sink s button) [.sink (.button button false) ok] := by
  refine ⟨sink s.trace (.button button false), ?_⟩
  unfold releaseButton
  by_cases hok : sink s.trace (.button button false) = true
  · simp only [invoke, hok, if_true]
    exact ⟨rfl, rfl, by simp [isReleaseAttempt], fun _ h => h, by simp⟩
  · simp only [invoke, hok]
    exact ⟨rfl, rfl, by simp [isReleaseAttempt], fun _ h => h, fun _ h => h⟩

/-- A loop that makes one release call for each element. -/
theorem foldl_releases {α : Type} {release : Session → α → Session} {call : α → SinkCall}
    (hrelease : ∀ s x, ∃ ok, Releases s (release s x) [.sink (call x) ok])
    (xs : List α) (s : Session) :
    ∃ calls, Releases s (xs.foldl release s) calls ∧
      ∀ x ∈ xs, ∃ ok, GateEvent.sink (call x) ok ∈ calls := by
  induction xs generalizing s with
  | nil => exact ⟨[], .refl s, by simp⟩
  | cons x xs ih =>
    obtain ⟨ok, hx⟩ := hrelease s x
    obtain ⟨calls, hxs, hall⟩ := ih (release s x)
    refine ⟨calls ++ [GateEvent.sink (call x) ok], hx.trans hxs, ?_⟩
    intro y hy
    rcases List.mem_cons.mp hy with rfl | hy
    · exact ⟨ok, by simp⟩
    · obtain ⟨ok', hok'⟩ := hall y hy
      exact ⟨ok', List.mem_append_left _ hok'⟩

theorem releaseKey_pressedButtons (s : Session) (usage : UInt16) :
    (releaseKey sink s usage).gate.pressedButtons = s.gate.pressedButtons := by
  unfold releaseKey
  dsimp only
  split <;> rfl

theorem foldl_releaseKey_pressedButtons (usages : List UInt16) (s : Session) :
    (usages.foldl (releaseKey sink) s).gate.pressedButtons = s.gate.pressedButtons := by
  induction usages generalizing s with
  | nil => rfl
  | cons u usages ih => rw [List.foldl_cons, ih, releaseKey_pressedButtons]

/-- One attempt for each pressed key and button; nothing but the two sets, which
can only shrink, and `inputEnabled` changes. -/
theorem releaseInputs_spec (s : Session) :
    ∃ keys buttons calls, releaseInputs sink s =
        ⟨{ s.gate with pressedKeys := keys, pressedButtons := buttons, inputEnabled := false },
          calls ++ .released :: s.trace⟩ ∧
      (∀ e ∈ calls, isReleaseAttempt e) ∧
      (∀ u ∈ s.gate.pressedKeys, ∃ ok, GateEvent.sink (.key u false false) ok ∈ calls) ∧
      (∀ b ∈ s.gate.pressedButtons, ∃ ok, GateEvent.sink (.button b false) ok ∈ calls) ∧
      (∀ u ∈ keys, u ∈ s.gate.pressedKeys) ∧ ∀ b ∈ buttons, b ∈ s.gate.pressedButtons := by
  obtain ⟨calls₁, h₁, hk⟩ :=
    foldl_releases (releaseKey_releases sink) s.gate.pressedKeys.toList (s.mark .released)
  generalize hs₁ : s.gate.pressedKeys.toList.foldl (releaseKey sink) (s.mark .released) = s₁ at h₁
  obtain ⟨calls₂, h₂, hb⟩ :=
    foldl_releases (releaseButton_releases sink) s₁.gate.pressedButtons.toList s₁
  have h := h₁.trans h₂
  generalize hs₂ : s₁.gate.pressedButtons.toList.foldl (releaseButton sink) s₁ = s₂ at h
  have heq : releaseInputs sink s =
      ⟨{ s₂.gate with inputEnabled := false }, s₂.trace⟩ := by
    simp only [releaseInputs, mark_gate, hs₁, hs₂, modify]
  have hsame : s₁.gate.pressedButtons = s.gate.pressedButtons := by
    rw [← hs₁, foldl_releaseKey_pressedButtons, mark_gate]
  refine ⟨s₂.gate.pressedKeys, s₂.gate.pressedButtons, calls₂ ++ calls₁, ?_, h.attempts, ?_, ?_,
    h.keys, h.buttons⟩
  · rw [heq, h.gate, h.trace]
    rfl
  · intro u hu
    obtain ⟨ok, hok⟩ := hk u (by simpa using hu)
    exact ⟨ok, List.mem_append_right _ hok⟩
  · intro b hb'
    obtain ⟨ok, hok⟩ := hb b (by simpa [hsame] using hb')
    exact ⟨ok, List.mem_append_left _ hok⟩

/-- The keys whose release failed. -/
def keptKeys (s : Session) : Std.ExtTreeSet UInt16 := (releaseInputs sink s).gate.pressedKeys

/-- The buttons whose release failed. -/
def keptButtons (s : Session) : Std.ExtTreeSet UInt8 :=
  (releaseInputs sink s).gate.pressedButtons

@[simp] theorem releaseInputs_gate (s : Session) : (releaseInputs sink s).gate =
    { s.gate with
      pressedKeys := keptKeys sink s
      pressedButtons := keptButtons sink s
      inputEnabled := false } := by
  unfold keptKeys keptButtons
  obtain ⟨keys, buttons, calls, heq, -⟩ := releaseInputs_spec sink s
  rw [heq]

end Session

end HomeTunnel.Remote
