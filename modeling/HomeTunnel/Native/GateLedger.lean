import HomeTunnel.Native.GateFrames

/-! # The press ledger

Every operation of the gate is a sequence of `Move`s, and the two pressed sets
change only together with a successful sink call. `Outcome` adds what a whole
operation can do: either no sink call failed, or all pressed inputs were given
up on the way and input stays disabled.
-/

namespace HomeTunnel.Remote

open Session

/-- The sink calls that the pressed sets record. -/
def SinkCall.isPress : SinkCall → Bool
  | .key .. | .button .. => true
  | _ => false

/-- The atomic effects of the operations. None of them enables input, and a press
needs input enabled; with `lossy = false` no sink call fails. -/
inductive Move (lossy : Bool) (s : Session) : Session → Prop
  | update (f : SessionGate → SessionGate)
      (hkeys : (f s.gate).pressedKeys = s.gate.pressedKeys)
      (hbuttons : (f s.gate).pressedButtons = s.gate.pressedButtons)
      (hinput : (f s.gate).inputEnabled → s.gate.inputEnabled) : Move lossy s (s.modify f)
  | event (e : GateEvent) (he : ∀ call ok, e ≠ .sink call ok) : Move lossy s (s.mark e)
  | other (call : SinkCall) (hcall : ¬ call.isPress) : Move lossy s (s.mark (.sink call true))
  | failed (call : SinkCall) (hlossy : lossy) : Move lossy s (s.mark (.sink call false))
  | key (usage : UInt16) (down isRepeat : Bool) (hdown : down → s.gate.inputEnabled) :
      Move lossy s
        ((s.mark (.sink (.key usage down isRepeat) true)).modify (·.noteKey usage down))
  | button (button : UInt8) (down : Bool) (hdown : down → s.gate.inputEnabled) :
      Move lossy s ((s.mark (.sink (.button button down) true)).modify (·.noteButton button down))

abbrev Moves (lossy : Bool) : Session → Session → Prop := Relation.ReflTransGen (Move lossy)

theorem Move.toLossy {lossy : Bool} {s t : Session} (h : Move lossy s t) : Move true s t := by
  cases h with
  | update f hkeys hbuttons hinput => exact .update f hkeys hbuttons hinput
  | event e he => exact .event e he
  | other call hcall => exact .other call hcall
  | failed call hlossy => exact .failed call rfl
  | key usage down isRepeat hdown => exact .key usage down isRepeat hdown
  | button button down hdown => exact .button button down hdown

theorem Moves.toLossy {lossy : Bool} {s t : Session} (h : Moves lossy s t) : Moves true s t :=
  Relation.ReflTransGen.mono (fun _ _ => Move.toLossy) _ _ h

/-- The state that a successful sink call leaves a key in. -/
def keyState (usage : UInt16) : GateEvent → Option Bool
  | .sink (.key u down _) true => if u = usage then some down else none
  | _ => none

/-- The state that a successful sink call leaves a button in. -/
def buttonState (button : UInt8) : GateEvent → Option Bool
  | .sink (.button b down) true => if b = button then some down else none
  | _ => none

/-- The pressed sets are the keys and buttons whose last successful sink event is
a press. -/
structure Ledger (s : Session) : Prop where
  keys : ∀ u, u ∈ s.gate.pressedKeys ↔ s.trace.findSome? (keyState u) = some true
  buttons : ∀ b, b ∈ s.gate.pressedButtons ↔ s.trace.findSome? (buttonState b) = some true

theorem Ledger.quiet {s t : Session} (h : Ledger s) {e : GateEvent}
    (hkeys : t.gate.pressedKeys = s.gate.pressedKeys)
    (hbuttons : t.gate.pressedButtons = s.gate.pressedButtons)
    (htrace : t.trace = e :: s.trace) (hk : ∀ u, keyState u e = none)
    (hb : ∀ b, buttonState b e = none) : Ledger t where
  keys u := by simp [hkeys, htrace, hk, h.keys]
  buttons b := by simp [hbuttons, htrace, hb, h.buttons]

theorem Ledger.move {lossy : Bool} {s t : Session} (h : Ledger s) (hm : Move lossy s t) :
    Ledger t := by
  cases hm with
  | update f hkeys hbuttons hinput => exact ⟨by simp [hkeys, h.keys], by simp [hbuttons, h.buttons]⟩
  | event e he =>
    have hk : ∀ u, keyState u e = none := by cases e <;> simp_all [keyState]
    have hb : ∀ b, buttonState b e = none := by cases e <;> simp_all [buttonState]
    exact h.quiet rfl rfl rfl hk hb
  | other call hcall =>
    have hk : ∀ u, keyState u (.sink call true) = none := by
      cases call <;> simp_all [keyState, SinkCall.isPress]
    have hb : ∀ b, buttonState b (.sink call true) = none := by
      cases call <;> simp_all [buttonState, SinkCall.isPress]
    exact h.quiet rfl rfl rfl hk hb
  | failed call hlossy => exact h.quiet rfl rfl rfl (by simp [keyState]) (by simp [buttonState])
  | key usage down isRepeat hdown =>
    refine ⟨fun u => ?_, h.buttons⟩
    by_cases hu : usage = u
    · cases down <;> simp [SessionGate.noteKey, keyState, hu]
    · cases down <;> simp [SessionGate.noteKey, keyState, hu, h.keys]
  | button button down hdown =>
    refine ⟨h.keys, fun b => ?_⟩
    by_cases hb : button = b
    · cases down <;> simp [SessionGate.noteButton, buttonState, hb]
    · cases down <;> simp [SessionGate.noteButton, buttonState, hb, h.buttons]

theorem Ledger.moves {lossy : Bool} {s t : Session} (h : Ledger s) (hm : Moves lossy s t) :
    Ledger t := by
  induction hm with
  | refl => exact h
  | tail _ hstep ih => exact ih.move hstep

/-- A release of the key was attempted in `events`. -/
def KeyAttempted (usage : UInt16) (events : List GateEvent) : Prop :=
  ∃ isRepeat ok, GateEvent.sink (.key usage false isRepeat) ok ∈ events

/-- A release of the button was attempted in `events`. -/
def ButtonAttempted (button : UInt8) (events : List GateEvent) : Prop :=
  ∃ ok, GateEvent.sink (.button button false) ok ∈ events

variable {events : List GateEvent} {op : GateOp} {now : UInt64}
  {body : Session → GateResult × Session} {r : GateResult}

theorem KeyAttempted.mono {usage : UInt16} {more : List GateEvent} (h : KeyAttempted usage events)
    (hsub : events ⊆ more) : KeyAttempted usage more := by
  obtain ⟨isRepeat, ok, hmem⟩ := h
  exact ⟨isRepeat, ok, hsub hmem⟩

theorem ButtonAttempted.mono {button : UInt8} {more : List GateEvent}
    (h : ButtonAttempted button events) (hsub : events ⊆ more) : ButtonAttempted button more := by
  obtain ⟨ok, hmem⟩ := h
  exact ⟨ok, hsub hmem⟩

/-- The events between two sessions of one run. -/
def newEvents (before after : Session) : List GateEvent :=
  after.trace.take (after.trace.length - before.trace.length)

theorem newEvents_eq {before after : Session} (h : after.trace = events ++ before.trace) :
    newEvents before after = events := by
  simp [newEvents, h]

/-- What moves from `s` to `t` do to the trace and the pressed sets. -/
structure Effect (lossy : Bool) (s t : Session) : Prop where
  trace : t.trace = newEvents s t ++ s.trace
  clean : lossy = false → ∀ call, GateEvent.sink call false ∉ newEvents s t
  input : t.gate.inputEnabled → s.gate.inputEnabled
  keys : ∀ u ∈ s.gate.pressedKeys, u ∈ t.gate.pressedKeys ∨ KeyAttempted u (newEvents s t)
  buttons : ∀ b ∈ s.gate.pressedButtons,
    b ∈ t.gate.pressedButtons ∨ ButtonAttempted b (newEvents s t)
  noPress : s.gate.inputEnabled = false →
    (∀ u ∈ t.gate.pressedKeys, u ∈ s.gate.pressedKeys) ∧
    ∀ b ∈ t.gate.pressedButtons, b ∈ s.gate.pressedButtons

variable {lossy : Bool} {s t u : Session}

theorem Effect.refl (s : Session) : Effect lossy s s where
  trace := by simp [newEvents]
  clean := by simp [newEvents]
  input := id
  keys := fun _ h => Or.inl h
  buttons := fun _ h => Or.inl h
  noPress := fun _ => ⟨fun _ h => h, fun _ h => h⟩

theorem newEvents_trans (hst : t.trace = newEvents s t ++ s.trace)
    (htu : u.trace = newEvents t u ++ t.trace) :
    newEvents s u = newEvents t u ++ newEvents s t := by
  refine newEvents_eq ?_
  rw [htu]
  conv_lhs => rw [hst]
  rw [List.append_assoc]

theorem Effect.trans (hst : Effect lossy s t) (htu : Effect lossy t u) : Effect lossy s u := by
  have hnew := newEvents_trans hst.trace htu.trace
  have hleft : newEvents t u ⊆ newEvents s u := by simp [hnew]
  have hright : newEvents s t ⊆ newEvents s u := by simp [hnew]
  refine ⟨?_, ?_, fun h => hst.input (htu.input h), ?_, ?_, ?_⟩
  · rw [hnew, List.append_assoc, ← hst.trace, ← htu.trace]
  · intro hl call hmem
    rcases List.mem_append.mp (hnew ▸ hmem) with h | h
    · exact htu.clean hl call h
    · exact hst.clean hl call h
  · intro k hk
    rcases hst.keys k hk with h | h
    · exact (htu.keys k h).imp id (·.mono hleft)
    · exact Or.inr (h.mono hright)
  · intro b hb
    rcases hst.buttons b hb with h | h
    · exact (htu.buttons b h).imp id (·.mono hleft)
    · exact Or.inr (h.mono hright)
  · intro hs
    have ht : t.gate.inputEnabled = false := by
      cases h : t.gate.inputEnabled with
      | false => rfl
      | true => simp [hst.input h] at hs
    obtain ⟨hk₁, hb₁⟩ := hst.noPress hs
    obtain ⟨hk₂, hb₂⟩ := htu.noPress ht
    exact ⟨fun k hk => hk₁ k (hk₂ k hk), fun b hb => hb₁ b (hb₂ b hb)⟩

theorem Effect.mark (e : GateEvent) (he : lossy = false → ∀ call, e ≠ .sink call false) :
    Effect lossy s (s.mark e) := by
  have hnew : newEvents s (s.mark e) = [e] := newEvents_eq (by simp)
  refine ⟨by simp [hnew], ?_, id, fun _ h => Or.inl h, fun _ h => Or.inl h,
    fun _ => ⟨fun _ h => h, fun _ h => h⟩⟩
  intro hl call hmem
  rw [hnew, List.mem_singleton] at hmem
  exact he hl call hmem.symm

theorem Move.effect (h : Move lossy s t) : Effect lossy s t := by
  cases h with
  | update f hkeys hbuttons hinput =>
    have hnew : newEvents s (s.modify f) = [] := newEvents_eq (by simp)
    exact ⟨by simp [hnew], by simp [hnew], hinput, fun _ h => Or.inl (by simpa [hkeys] using h),
      fun _ h => Or.inl (by simpa [hbuttons] using h), by simp [hkeys, hbuttons]⟩
  | event e he => exact .mark e fun _ call => he call false
  | other call hcall => exact .mark _ (by simp)
  | failed call hlossy => exact .mark _ (by simp [hlossy])
  | key usage down isRepeat hdown =>
    have hnew : newEvents s ((s.mark (.sink (.key usage down isRepeat) true)).modify
        (·.noteKey usage down)) = [.sink (.key usage down isRepeat) true] :=
      newEvents_eq (by simp)
    refine ⟨by simp [hnew], by simp [hnew], id, fun k hk => ?_, fun _ h => Or.inl h,
      fun hs => ⟨?_, fun _ h => h⟩⟩
    · rw [hnew]
      cases down with
      | true => exact Or.inl (by simp [SessionGate.noteKey, hk])
      | false =>
        by_cases hu : k = usage
        · exact Or.inr ⟨isRepeat, true, by simp [hu]⟩
        · exact Or.inl (by simp [SessionGate.noteKey, hk, Ne.symm hu])
    · cases down with
      | true => simp [hs] at hdown
      | false => simp [SessionGate.noteKey]
  | button button down hdown =>
    have hnew : newEvents s ((s.mark (.sink (.button button down) true)).modify
        (·.noteButton button down)) = [.sink (.button button down) true] :=
      newEvents_eq (by simp)
    refine ⟨by simp [hnew], by simp [hnew], id, fun _ h => Or.inl h, fun b hb => ?_,
      fun hs => ⟨fun _ h => h, ?_⟩⟩
    · rw [hnew]
      cases down with
      | true => exact Or.inl (by simp [SessionGate.noteButton, hb])
      | false =>
        by_cases hu : b = button
        · exact Or.inr ⟨true, by simp [hu]⟩
        · exact Or.inl (by simp [SessionGate.noteButton, hb, Ne.symm hu])
    · cases down with
      | true => simp [hs] at hdown
      | false => simp [SessionGate.noteButton]

theorem Moves.effect (h : Moves lossy s t) : Effect lossy s t := by
  induction h with
  | refl => exact .refl s
  | tail _ hstep ih => exact ih.trans hstep.effect

section Operations

variable (sink : InputSink)

theorem releaseKey_moves (s : Session) (usage : UInt16) :
    Moves true s (releaseKey sink s usage) := by
  unfold releaseKey
  by_cases hok : sink s.trace (.key usage false false) = true
  · simp only [invoke, hok, if_true]
    exact .single (.key usage false false (by simp))
  · simp only [invoke, hok]
    exact .single (.failed _ rfl)

theorem releaseButton_moves (s : Session) (button : UInt8) :
    Moves true s (releaseButton sink s button) := by
  unfold releaseButton
  by_cases hok : sink s.trace (.button button false) = true
  · simp only [invoke, hok, if_true]
    exact .single (.button button false (by simp))
  · simp only [invoke, hok]
    exact .single (.failed _ rfl)

theorem foldl_moves {α : Type} {f : Session → α → Session}
    (hf : ∀ s a, Moves true s (f s a)) (xs : List α) (s : Session) :
    Moves true s (xs.foldl f s) := by
  induction xs generalizing s with
  | nil => exact .refl
  | cons x xs ih => exact (hf s x).trans (ih (f s x))

theorem releaseInputs_moves (s : Session) : Moves true s (releaseInputs sink s) := by
  have hmark : Moves true s (s.mark .released) := .single (.event .released (by simp))
  have hkeys := foldl_moves (releaseKey_moves sink) s.gate.pressedKeys.toList (s.mark .released)
  simp only [releaseInputs, mark_gate]
  generalize s.gate.pressedKeys.toList.foldl (releaseKey sink) (s.mark .released) = s₁ at hkeys ⊢
  have hbuttons := foldl_moves (releaseButton_moves sink) s₁.gate.pressedButtons.toList s₁
  exact ((hmark.trans hkeys).trans hbuttons).tail (.update _ rfl rfl (by simp))

/-- All pressed inputs were given up somewhere between `s` and `t`. -/
def GaveUp (s t : Session) : Prop :=
  ∃ mid, Moves true s mid ∧ Moves true (releaseInputs sink mid) t

/-- What an operation that enables nothing can do: no sink call fails, or all
pressed inputs are given up. -/
def Outcome (s t : Session) : Prop := Moves false s t ∨ GaveUp sink s t

variable {sink}

theorem GaveUp.moves (h : GaveUp sink s t) : Moves true s t := by
  obtain ⟨mid, hs, ht⟩ := h
  exact hs.trans ((releaseInputs_moves sink mid).trans ht)

theorem GaveUp.then (h : GaveUp sink s t) (htu : Moves true t u) : GaveUp sink s u := by
  obtain ⟨mid, hs, ht⟩ := h
  exact ⟨mid, hs, ht.trans htu⟩

theorem GaveUp.after (hst : Moves true s t) (h : GaveUp sink t u) : GaveUp sink s u := by
  obtain ⟨mid, hs, ht⟩ := h
  exact ⟨mid, hst.trans hs, ht⟩

theorem gaveUp_releaseInputs (s : Session) : GaveUp sink s (releaseInputs sink s) :=
  ⟨s, .refl, .refl⟩

theorem gaveUp_pause (s : Session) : GaveUp sink s (pause sink s) :=
  (gaveUp_releaseInputs s).then (.single (.update _ rfl rfl id))

theorem gaveUp_close (s : Session) : GaveUp sink s (close sink s) :=
  (gaveUp_pause s).then (.single (.update _ rfl rfl id))

theorem Outcome.refl (s : Session) : Outcome sink s s := Or.inl .refl

theorem Outcome.moves (h : Outcome sink s t) : Moves true s t :=
  h.elim Moves.toLossy GaveUp.moves

theorem Outcome.trans (hst : Outcome sink s t) (htu : Outcome sink t u) : Outcome sink s u := by
  rcases hst with hst | hst
  · exact htu.imp hst.trans (GaveUp.after hst.toLossy)
  · exact Or.inr (hst.then htu.moves)

theorem Outcome.update {f : SessionGate → SessionGate}
    (hkeys : (f s.gate).pressedKeys = s.gate.pressedKeys)
    (hbuttons : (f s.gate).pressedButtons = s.gate.pressedButtons)
    (hinput : (f s.gate).inputEnabled → s.gate.inputEnabled) : Outcome sink s (s.modify f) :=
  Or.inl (.single (.update f hkeys hbuttons hinput))

theorem Outcome.mark {e : GateEvent} (he : ∀ call ok, e ≠ .sink call ok) :
    Outcome sink s (s.mark e) :=
  Or.inl (.single (.event e he))

/-- After giving up: every pressed input has had its release attempted, nothing
new is pressed, and input is disabled. -/
structure InputEnded (s t : Session) : Prop where
  disabled : t.gate.inputEnabled = false
  keys : ∀ u, u ∈ s.gate.pressedKeys ∨ u ∈ t.gate.pressedKeys → KeyAttempted u (newEvents s t)
  buttons : ∀ b, b ∈ s.gate.pressedButtons ∨ b ∈ t.gate.pressedButtons →
    ButtonAttempted b (newEvents s t)

theorem GaveUp.inputEnded (h : GaveUp sink s t) : InputEnded s t := by
  obtain ⟨mid, hs, ht⟩ := h
  have hbefore := hs.effect
  have hafter := ht.effect
  have hrel := (releaseInputs_moves sink mid).effect
  obtain ⟨keys, buttons, calls, heq, -, hk, hb, hksub, hbsub⟩ := releaseInputs_spec sink mid
  have hnew : newEvents mid (releaseInputs sink mid) = calls ++ [.released] :=
    newEvents_eq (by simp [heq])
  have hmid : newEvents mid (releaseInputs sink mid) ⊆ newEvents s t := by
    rw [newEvents_trans hbefore.trace (hrel.trans hafter).trace,
      newEvents_trans hrel.trace hafter.trace]
    simp
  have hfirst : newEvents s mid ⊆ newEvents s t := by
    rw [newEvents_trans hbefore.trace (hrel.trans hafter).trace]
    simp
  have hkmid : ∀ v ∈ mid.gate.pressedKeys, KeyAttempted v (newEvents s t) := by
    intro v hv
    obtain ⟨ok, hok⟩ := hk v hv
    exact ⟨false, ok, hmid (by simp [hnew, hok])⟩
  have hbmid : ∀ b ∈ mid.gate.pressedButtons, ButtonAttempted b (newEvents s t) := by
    intro b hb'
    obtain ⟨ok, hok⟩ := hb b hb'
    exact ⟨ok, hmid (by simp [hnew, hok])⟩
  obtain ⟨hkt, hbt⟩ := hafter.noPress rfl
  refine ⟨?_, ?_, ?_⟩
  · cases hi : t.gate.inputEnabled with
    | false => rfl
    | true =>
      have hr := hafter.input hi
      simp at hr
  · rintro v (hv | hv)
    · exact (hbefore.keys v hv).elim (hkmid v) (·.mono hfirst)
    · exact hkmid v (hksub v (by simpa [heq] using hkt v hv))
  · rintro b (hb' | hb')
    · exact (hbefore.buttons b hb').elim (hbmid b) (·.mono hfirst)
    · exact hbmid b (hbsub b (by simpa [heq] using hbt b hb'))

/-- `Outcome` for what an operation returns. -/
def Yields (sink : InputSink) (s : Session) (outcome : GateResult × Session) : Prop :=
  Outcome sink s outcome.2

theorem Yields.refuse (r : GateResult) : Yields sink s (r, s) := Outcome.refl s

theorem Yields.update (r : GateResult) {f : SessionGate → SessionGate}
    (hkeys : (f s.gate).pressedKeys = s.gate.pressedKeys)
    (hbuttons : (f s.gate).pressedButtons = s.gate.pressedButtons)
    (hinput : (f s.gate).inputEnabled → s.gate.inputEnabled) : Yields sink s (r, s.modify f) :=
  Outcome.update hkeys hbuttons hinput

variable {outcome : GateResult × Session}

theorem Outcome.andThen (h : Outcome sink s t) (ho : Yields sink t outcome) :
    Yields sink s outcome :=
  Outcome.trans h ho

theorem tick_outcome (now : UInt64) (s : Session) : Yields sink s (tick sink now s) := by
  unfold tick
  split
  · split
    · exact Or.inr (gaveUp_releaseInputs s)
    · exact .refuse _
  split
  · exact Or.inr (gaveUp_close s)
  have hnow : Outcome sink s (s.modify fun g => { g with lastNow := now }) := .update rfl rfl id
  dsimp only
  split
  · exact hnow.trans (Or.inr (gaveUp_releaseInputs _))
  split
  · exact hnow.trans (Or.inr (gaveUp_releaseInputs _))
  · exact hnow

theorem renewBody_outcome (lease : VerifiedLease) (wall : Int) (now : UInt64) (s : Session) :
    Yields sink s (renewBody sink lease wall now s) := by
  unfold renewBody
  split
  · exact .refuse _
  split
  · exact .refuse _
  have hgave : Outcome sink s (releaseInputs sink s) := Or.inr (gaveUp_releaseInputs s)
  dsimp only
  split
  · exact hgave.andThen (.update _ rfl rfl id)
  · exact .update _ rfl rfl id

theorem selectedPairBody_outcome (epoch : UInt32) (pair : SelectedPair) (s : Session) :
    Yields sink s (selectedPairBody sink epoch pair s) := by
  unfold selectedPairBody
  split
  · exact .refuse _
  have hrevision : Outcome sink s (s.modify fun g => { g with pairRevision := pair.revision }) :=
    .update rfl rfl id
  have hgave := hrevision.trans (Or.inr (gaveUp_pause _))
  dsimp only
  split
  · exact hgave
  · exact hgave.andThen (.update _ rfl rfl id)

theorem reconnectBody_outcome (epoch : UInt32) (s : Session) :
    Yields sink s (reconnectBody sink epoch s) := by
  unfold reconnectBody
  split
  · exact .refuse _
  · exact Outcome.andThen (Or.inr (gaveUp_pause s)) (.update _ rfl rfl id)

/-- `giveUp` after a sink call, whether or not the call itself failed. -/
theorem giveUp_outcome (h : Moves true s t) : Yields sink s (giveUp sink t) :=
  Or.inr (.after h (gaveUp_releaseInputs t))

/-- What the gate notes of a frame, once the pressed sets are noted. -/
theorem Noted.move {g p h : SessionGate} {trace : List GateEvent} (hn : Noted g p h)
    (hinput : g.inputEnabled → p.inputEnabled) : Move lossy ⟨p, trace⟩ ⟨h, trace⟩ := by
  refine .update (fun _ => h) ?_ ?_ fun hi => hinput ?_
  · rw [hn.rest]
  · rw [hn.rest]
  · rwa [hn.rest] at hi

theorem Asks.moves {permission : UInt64} (h : Asks permission s t) :
    Moves false s t ∧ t.gate.inputEnabled = s.gate.inputEnabled := by
  cases h with
  | reserved hg => exact ⟨.single (hg.move id), by rw [hg.rest]⟩
  | pointer hp => exact ⟨.single (.other _ (by simp [SinkCall.isPress])), rfl⟩

/-- A successful sink call is noted in the pressed sets. -/
theorem move_note (hinput : s.gate.inputEnabled) (call : SinkCall) :
    Move false s ⟨s.gate.note call, .sink call true :: s.trace⟩ := by
  cases call with
  | key usage down isRepeat => exact .key usage down isRepeat fun _ => hinput
  | button button down => exact .button button down fun _ => hinput
  | _ => exact .other _ (by simp [SinkCall.isPress])

theorem FrameOutcome.yields {op : GateOp} {frame : Frame} (h : FrameOutcome sink op frame s outcome)
    (hinput : s.gate.inputEnabled) : Yields sink s outcome := by
  cases h with
  | noted r hr hg => exact Or.inl (.single (hg.move id))
  | failed hmid hcall hepoch =>
    exact giveUp_outcome (hmid.moves.1.toLossy.trans (.single (.failed _ rfl)))
  | taken hmid hcall hg hd =>
    obtain ⟨hmoves, hsame⟩ := hmid.moves
    refine Or.inl ((hmoves.tail (move_note (hsame ▸ hinput) _)).tail (hg.move fun hi => ?_))
    unfold SessionGate.note
    split <;> exact hi

/-- `t` has input enabled from a state of the release's making in which nothing
is pressed. -/
def Resumed (sink : InputSink) (s t : Session) : Prop :=
  ∃ mid, GaveUp sink s mid ∧ t.trace = mid.trace ∧
    mid.gate.pressedKeys = ∅ ∧ mid.gate.pressedButtons = ∅ ∧
    t.gate.pressedKeys = ∅ ∧ t.gate.pressedButtons = ∅

theorem inputReleasesPending_eq_false {g : SessionGate} (h : ¬ g.inputReleasesPending) :
    g.pressedKeys = ∅ ∧ g.pressedButtons = ∅ := by
  simpa [SessionGate.inputReleasesPending] using h

theorem Resumed.after (hst : Moves true s t) (h : Resumed sink t u) : Resumed sink s u := by
  obtain ⟨mid, hgave, hrest⟩ := h
  exact ⟨mid, .after hst hgave, hrest⟩

/-- What a body can do: enable input, which is a `synchronize_input` that succeeds,
or something that `Outcome` covers. -/
def BodyOutcome (sink : InputSink) (synchronizing : Bool) (s : Session)
    (outcome : GateResult × Session) : Prop :=
  if synchronizing ∧ outcome.1 = .ok then Resumed sink s outcome.2 else Yields sink s outcome

theorem Yields.bodyOutcome (h : Yields sink s outcome) : BodyOutcome sink false s outcome := by
  simpa [BodyOutcome] using h

theorem accept_bodyOutcome (op : GateOp) {channel : Channel} {type : UInt8} {bytes : Bytes}
    (s : Session) : BodyOutcome sink false s
      (acceptFrame op.permission channel type bytes s (acceptBody sink op s)) := by
  refine Yields.bodyOutcome ?_
  obtain ⟨r, -, heq⟩ | ⟨hallowed, -, frame, -, heq⟩ :=
    acceptFrame_cases op.permission channel type bytes s (acceptBody sink op s)
  · rw [heq]
    exact .refuse r
  · rw [heq]
    simp only [SessionGate.inputAllowed, Bool.and_eq_true] at hallowed
    exact (acceptBody_outcome sink op s frame).yields hallowed.2

theorem synchronizeInputBody_outcome (epoch inputEpoch layout : UInt32) (now : UInt64)
    (displaySlot : UInt16) (s : Session) :
    BodyOutcome sink true s
      (synchronizeInputBody sink epoch inputEpoch layout now displaySlot s) := by
  unfold synchronizeInputBody
  split
  · exact Yields.refuse _
  dsimp only
  split
  · exact Or.inr (gaveUp_releaseInputs s)
  · rename_i hpending
    obtain ⟨hkeys, hbuttons⟩ := inputReleasesPending_eq_false hpending
    exact ⟨_, gaveUp_releaseInputs s, rfl, hkeys, hbuttons, hkeys, hbuttons⟩

theorem Ledger.resumed (h : Ledger s) (hr : Resumed sink s t) : Ledger t := by
  obtain ⟨mid, hgave, htrace, hk, hb, hkt, hbt⟩ := hr
  have hmid := h.moves hgave.moves
  exact ⟨by simpa [htrace, hkt, hk] using hmid.keys, by simpa [htrace, hbt, hb] using hmid.buttons⟩

end Operations

def GateOp.isSynchronize : GateOp → Bool
  | .synchronizeInput .. => true
  | _ => false

/-- The operations that open with `tick`. -/
def GateOp.ticksAt? : GateOp → Option UInt64
  | .authorize .. => none
  | op => op.clock?

variable (sink : InputSink)

/-- A ticking operation is `afterTick` of a body, and what the body can do. -/
theorem perform_ticking (hop : op.ticksAt? = some now) :
    ∃ body : Session → GateResult × Session,
      (∀ s, perform sink op s =
        (some (afterTick sink now body s).1, (afterTick sink now body s).2)) ∧
      ∀ s, BodyOutcome sink op.isSynchronize s (body s) := by
  cases op <;> simp only [GateOp.ticksAt?, GateOp.clock?, Option.some.injEq, reduceCtorEq] at hop
    <;> subst hop
  case renew lease wall now =>
    exact ⟨_, fun _ => rfl, fun s => (renewBody_outcome lease wall now s).bodyOutcome⟩
  case tick now =>
    refine ⟨fun s => (.ok, s), fun s => ?_, fun s => (Yields.refuse _).bodyOutcome⟩
    simp only [perform, afterTick]
    split <;> simp_all
  case peerAuthenticated epoch now =>
    refine ⟨peerAuthenticatedBody epoch, fun _ => rfl, fun s => Yields.bodyOutcome ?_⟩
    unfold peerAuthenticatedBody
    split
    · exact .refuse _
    · exact .update _ rfl rfl id
  case selectedPair epoch pair now =>
    exact ⟨_, fun _ => rfl, fun s => (selectedPairBody_outcome epoch pair s).bodyOutcome⟩
  case firstFrame epoch now =>
    refine ⟨firstFrameBody epoch, fun _ => rfl, fun s => Yields.bodyOutcome ?_⟩
    unfold firstFrameBody
    split
    · exact .refuse _
    · exact .update _ rfl rfl id
  case synchronizeInput epoch inputEpoch layout now displaySlot =>
    exact ⟨_, fun _ => rfl, synchronizeInputBody_outcome epoch inputEpoch layout now displaySlot⟩
  case heartbeat epoch inputEpoch version now =>
    refine ⟨heartbeatBody epoch inputEpoch version now, fun _ => rfl, fun s => Yields.bodyOutcome ?_⟩
    unfold heartbeatBody
    split
    · exact .refuse _
    · exact .update _ rfl rfl id
  case acceptKey bytes now => exact ⟨_, fun _ => rfl, accept_bodyOutcome (.acceptKey bytes now)⟩
  case acceptButton bytes now => exact ⟨_, fun _ => rfl, accept_bodyOutcome (.acceptButton bytes now)⟩
  case acceptPointer bytes now => exact ⟨_, fun _ => rfl, accept_bodyOutcome (.acceptPointer bytes now)⟩
  case acceptWheel bytes now => exact ⟨_, fun _ => rfl, accept_bodyOutcome (.acceptWheel bytes now)⟩
  case acceptText bytes now => exact ⟨_, fun _ => rfl, accept_bodyOutcome (.acceptText bytes now)⟩
  case reconnect epoch now =>
    exact ⟨_, fun _ => rfl, fun s => (reconnectBody_outcome epoch s).bodyOutcome⟩

theorem afterTick_bodyOutcome {synchronizing : Bool}
    (hbody : ∀ s, BodyOutcome sink synchronizing s (body s)) (s : Session) :
    BodyOutcome sink synchronizing s (afterTick sink now body s) := by
  have htick : Yields sink s (tick sink now s) := tick_outcome now s
  unfold afterTick
  split
  · rename_i s' heq
    rw [heq] at htick
    have hb := hbody s'
    unfold BodyOutcome at hb ⊢
    split <;> rename_i hsync
    · rw [if_pos hsync] at hb
      exact hb.after (Outcome.moves htick)
    · rw [if_neg hsync] at hb
      exact Outcome.andThen htick hb
  · rename_i result s' hresult heq
    rw [heq] at htick
    unfold BodyOutcome
    rw [if_neg fun h => hresult h.2]
    exact htick

/-- The result that `op` returns from `s`. -/
def stepResult (s : Session) (op : GateOp) : Option GateResult :=
  (perform sink op (s.mark (.called op))).1

theorem authorize_outcome (lease : VerifiedLease) (wall : Int) (now : UInt64) (s : Session) :
    Yields sink s (authorize lease wall now s) := by
  unfold authorize
  split
  · exact .refuse _
  split
  · exact .refuse _
  · exact .update _ rfl rfl id

theorem perform_outcome (op : GateOp) (s : Session) :
    if op.isSynchronize ∧ (perform sink op s).1 = some .ok then
      Resumed sink s (perform sink op s).2
    else Outcome sink s (perform sink op s).2 := by
  cases hop : op.ticksAt? with
  | some now =>
    obtain ⟨body, heq, hbody⟩ := perform_ticking sink hop
    have h : BodyOutcome sink op.isSynchronize s (afterTick sink now body s) :=
      afterTick_bodyOutcome sink hbody s
    simpa [heq, BodyOutcome, Yields] using h
  | none =>
    cases op <;> simp only [GateOp.ticksAt?, GateOp.clock?, reduceCtorEq] at hop
    case authorize lease wall now => exact authorize_outcome sink lease wall now s
    case pause => exact Or.inr (gaveUp_pause s)
    case releaseControl => exact Or.inr (gaveUp_releaseInputs s)
    case close => exact Or.inr (gaveUp_close s)

/-- Without a successful `synchronize_input`, a step is an `Outcome`. -/
theorem step_outcome (hop : ¬ (op.isSynchronize ∧ stepResult sink s op = some .ok)) :
    Outcome sink s (step sink s op) := by
  unfold stepResult at hop
  have hperform := perform_outcome sink op (s.mark (.called op))
  rw [if_neg hop] at hperform
  exact ((Outcome.mark (by simp)).trans hperform).trans (.mark (by simp))

/-- A successful `synchronize_input` starts with nothing pressed. -/
theorem step_resumed (hop : op.isSynchronize) (hok : stepResult sink s op = some .ok) :
    Resumed sink s (perform sink op (s.mark (.called op))).2 := by
  have hperform := perform_outcome sink op (s.mark (.called op))
  rw [if_pos ⟨hop, hok⟩] at hperform
  exact hperform.after (.single (.event _ (by simp)))

theorem step_ledger (h : Ledger s) (op : GateOp) : Ledger (step sink s op) := by
  by_cases hop : op.isSynchronize ∧ stepResult sink s op = some .ok
  · have hr := h.resumed (step_resumed sink hop.1 hop.2)
    exact hr.move (show Move true _ _ from .event (.returned op _) (by simp))
  · exact h.moves (step_outcome sink hop).moves

theorem run_ledger (ops : List GateOp) (h : Ledger s) : Ledger (ops.foldl (step sink) s) := by
  induction ops generalizing s with
  | nil => exact h
  | cons op ops ih => exact ih (step_ledger sink h op)

/-- The watchdog is due at `now`. -/
structure WatchdogDue (s : Session) (now : UInt64) : Prop where
  isOpen : s.gate.closed = false
  monotone : s.gate.lastNow ≤ now
  beforeDeadline : now < s.gate.deadline
  enabled : s.gate.inputEnabled
  silent : now - s.gate.heartbeatAt ≥ watchdogMs

/-- The transitions that end input authority. A `synchronize_input` that succeeds
may find input ended by the watchdog, but goes on to enable it again. -/
inductive EndsInput (s : Session) : GateOp → Prop
  | watchdog {op : GateOp} {now : UInt64} (hop : op.ticksAt? = some now) (hdue : WatchdogDue s now)
      (hsync : ¬ (op.isSynchronize ∧ stepResult sink s op = some .ok)) : EndsInput s op
  | expiry {op : GateOp} {now : UInt64} (hop : op.ticksAt? = some now)
      (hopen : s.gate.closed = false)
      (hexpired : now < s.gate.lastNow ∨ now ≥ s.gate.deadline) : EndsInput s op
  | close : EndsInput s .close
  | pause : EndsInput s .pause
  | releaseControl : EndsInput s .releaseControl
  | selectedPair {epoch : UInt32} {pair : SelectedPair} {now : UInt64}
      (hnewer : stepResult sink s (.selectedPair epoch pair now) = some .ok ∨
        stepResult sink s (.selectedPair epoch pair now) = some .path) :
      EndsInput s (.selectedPair epoch pair now)
  | reconnect {epoch : UInt32} {now : UInt64}
      (hok : stepResult sink s (.reconnect epoch now) = some .ok) :
      EndsInput s (.reconnect epoch now)
  | renew {lease : VerifiedLease} {wall : Int} {now : UInt64}
      (hok : stepResult sink s (.renew lease wall now) = some .ok)
      (hchanged : lease.permissions ≠ s.gate.permissions) : EndsInput s (.renew lease wall now)
  | refused {op : GateOp} {call : SinkCall}
      (hcall : .sink call false ∈ newEvents s (step sink s op))
      (hsync : ¬ (op.isSynchronize ∧ stepResult sink s op = some .ok)) : EndsInput s op

theorem WatchdogDue.mark (h : WatchdogDue s now) (e : GateEvent) : WatchdogDue (s.mark e) now :=
  ⟨h.isOpen, h.monotone, h.beforeDeadline, h.enabled, h.silent⟩

theorem step_gaveUp
    (h : GaveUp sink (s.mark (.called op)) (perform sink op (s.mark (.called op))).2) :
    GaveUp sink s (step sink s op) :=
  (GaveUp.after (.single (.event _ (by simp))) h).then (.single (.event _ (by simp)))

theorem tick_watchdog (h : WatchdogDue s now) :
    ∃ s', tick sink now s = (.ok, s') ∧ GaveUp sink s s' := by
  obtain ⟨hopen, hmono, hbefore, henabled, hsilent⟩ := h
  have hlate : ¬ (now < s.gate.lastNow ∨ now ≥ s.gate.deadline) := by
    rintro (hlt | hge)
    · exact UInt64.not_lt.mpr hmono hlt
    · exact UInt64.not_le.mpr hbefore hge
  refine ⟨releaseInputs sink (s.modify fun g => { g with lastNow := now }), ?_,
    .after (.single (.update _ rfl rfl id)) (gaveUp_releaseInputs _)⟩
  unfold tick
  rw [if_neg (by simp [hopen]), if_neg hlate]
  dsimp only
  rw [if_pos ⟨henabled, hsilent⟩]

theorem tick_expiry (hopen : s.gate.closed = false)
    (h : now < s.gate.lastNow ∨ now ≥ s.gate.deadline) :
    tick sink now s = (.expired, close sink s) := by
  unfold tick
  rw [if_neg (by simp [hopen]), if_pos h]

theorem tick_permissions (now : UInt64) (s : Session) :
    (tick sink now s).2.gate.permissions = s.gate.permissions := by
  unfold tick
  dsimp only
  split
  · split <;> simp
  split
  · simp [close, pause]
  split
  · simp
  split <;> simp

theorem tick_result (now : UInt64) (s : Session) :
    (tick sink now s).1 = .ok ∨ (tick sink now s).1 = .closed ∨ (tick sink now s).1 = .expired := by
  unfold tick
  dsimp only
  split
  · exact Or.inr (Or.inl rfl)
  split
  · exact Or.inr (Or.inr rfl)
  split
  · exact Or.inl rfl
  split <;> exact Or.inl rfl

/-- A result that `tick` does not give comes from the body. -/
theorem afterTick_result (h : (afterTick sink now body s).1 = r) (hclosed : r ≠ .closed)
    (hexpired : r ≠ .expired) :
    ∃ s', tick sink now s = (.ok, s') ∧ afterTick sink now body s = body s' ∧ (body s').1 = r := by
  have htick := tick_result sink now s
  unfold afterTick at h ⊢
  split at h
  · rename_i s' heq
    exact ⟨s', heq, rfl, h⟩
  · rename_i result s' hne heq
    rw [heq] at htick
    rcases htick with hr | hr | hr
    · exact absurd hr hne
    · exact absurd (h.symm.trans hr) hclosed
    · exact absurd (h.symm.trans hr) hexpired

theorem selectedPairBody_gaveUp {epoch : UInt32} {pair : SelectedPair}
    (h : (selectedPairBody sink epoch pair s).1 ≠ .replay) :
    GaveUp sink s (selectedPairBody sink epoch pair s).2 := by
  unfold selectedPairBody at h ⊢
  split at h
  · simp at h
  rename_i hnewer
  have hgave : GaveUp sink s (pause sink (s.modify fun g => { g with pairRevision := pair.revision })) :=
    .after (.single (.update _ rfl rfl id)) (gaveUp_pause _)
  rw [if_neg hnewer]
  dsimp only
  split
  · exact hgave
  · dsimp only
    exact hgave.then (.single (.update _ rfl rfl id))

theorem reconnectBody_gaveUp {epoch : UInt32} (h : (reconnectBody sink epoch s).1 = .ok) :
    GaveUp sink s (reconnectBody sink epoch s).2 := by
  unfold reconnectBody at h ⊢
  split at h
  · simp at h
  rename_i hnewer
  rw [if_neg hnewer]
  dsimp only
  exact (gaveUp_pause s).then (.single (.update _ rfl rfl id))

theorem renewBody_gaveUp {lease : VerifiedLease} {wall : Int}
    (h : (renewBody sink lease wall now s).1 = .ok)
    (hchanged : lease.permissions ≠ s.gate.permissions) :
    GaveUp sink s (renewBody sink lease wall now s).2 := by
  unfold renewBody at h ⊢
  split at h
  · simp at h
  rename_i hnewer
  rw [if_neg hnewer]
  split at h
  · simp at h
  dsimp only
  rw [if_pos hchanged]
  exact (gaveUp_releaseInputs s).then (.single (.update _ rfl rfl id))

/-- A body that gives up whenever it returns `r` makes the whole call give up. -/
theorem afterTick_gaveUp (h : some (afterTick sink now body s).1 = some r) (hclosed : r ≠ .closed)
    (hexpired : r ≠ .expired)
    (hbody : ∀ s', s'.gate.permissions = s.gate.permissions → (body s').1 = r →
      GaveUp sink s' (body s').2) :
    GaveUp sink s (afterTick sink now body s).2 := by
  obtain ⟨s', htick, heq, hr⟩ := afterTick_result sink (Option.some.inj h) hclosed hexpired
  have hperm := tick_permissions sink now s
  have hmoves : Outcome sink s (tick sink now s).2 := tick_outcome now s
  rw [htick] at hperm hmoves
  rw [heq]
  exact .after hmoves.moves (hbody s' hperm hr)

/-- A call whose `tick` gave up has given up, unless it goes on to enable input. -/
theorem perform_gaveUp_of_tick {s' : Session} (hop : op.ticksAt? = some now)
    (htick : tick sink now s = (r, s')) (hgave : GaveUp sink s s')
    (hsync : r = .ok → ¬ (op.isSynchronize ∧ (perform sink op s).1 = some .ok)) :
    GaveUp sink s (perform sink op s).2 := by
  obtain ⟨body, heq, hbody⟩ := perform_ticking sink hop
  rw [heq] at hsync ⊢
  unfold afterTick at hsync ⊢
  rw [htick] at hsync ⊢
  cases r with
  | ok =>
    have hb := hbody s'
    unfold BodyOutcome at hb
    rw [if_neg (by simpa using hsync rfl)] at hb
    exact hgave.then (Outcome.moves hb)
  | _ => exact hgave

theorem EndsInput.gaveUp (h : EndsInput sink s op) : GaveUp sink s (step sink s op) := by
  cases h with
  | watchdog hop hdue hsync =>
    obtain ⟨s', htick, hgave⟩ := tick_watchdog sink (hdue.mark (.called op))
    exact step_gaveUp sink (perform_gaveUp_of_tick sink hop htick hgave fun _ => hsync)
  | expiry hop hopen hexpired =>
    have htick := tick_expiry sink (s := s.mark (.called op)) hopen hexpired
    exact step_gaveUp sink
      (perform_gaveUp_of_tick sink hop htick (gaveUp_close _) fun hok => by simp at hok)
  | close => exact step_gaveUp sink (gaveUp_close _)
  | pause => exact step_gaveUp sink (gaveUp_pause _)
  | releaseControl => exact step_gaveUp sink (gaveUp_releaseInputs _)
  | selectedPair hnewer =>
    refine step_gaveUp sink ?_
    rcases hnewer with hr | hr
    · exact afterTick_gaveUp sink hr (by simp) (by simp)
        fun s' _ hs' => selectedPairBody_gaveUp sink (by simp [hs'])
    · exact afterTick_gaveUp sink hr (by simp) (by simp)
        fun s' _ hs' => selectedPairBody_gaveUp sink (by simp [hs'])
  | reconnect hok =>
    refine step_gaveUp sink (afterTick_gaveUp sink hok (by simp) (by simp) ?_)
    exact fun s' _ hs' => reconnectBody_gaveUp sink hs'
  | renew hok hchanged =>
    refine step_gaveUp sink (afterTick_gaveUp sink hok (by simp) (by simp) ?_)
    exact fun s' hperm hs' => renewBody_gaveUp sink hs' (by simpa [hperm] using hchanged)
  | refused hcall hsync =>
    rcases step_outcome sink hsync with hclean | hgave
    · exact absurd hcall (hclean.effect.clean rfl _)
    · exact hgave

/-- The pressed sets are the operating system's state as the sink calls left it,
`synchronize_input` enables input only with nothing pressed, and every end of
input authority attempts a release for all that is pressed and disables input.
The last clause is the state in which a `tick` leaves an operation that finds the
watchdog due, whatever the operation does next. -/
theorem run_press_ledger (ops : List GateOp) :
    Ledger (run sink ops) ∧
    (∀ op, op.isSynchronize → stepResult sink (run sink ops) op = some .ok →
      (step sink (run sink ops) op).gate.pressedKeys = ∅ ∧
      (step sink (run sink ops) op).gate.pressedButtons = ∅) ∧
    (∀ op, EndsInput sink (run sink ops) op →
      InputEnded (run sink ops) (step sink (run sink ops) op)) ∧
    ∀ op now, op.ticksAt? = some now → WatchdogDue (run sink ops) now →
      InputEnded (run sink ops) (tick sink now ((run sink ops).mark (.called op))).2 := by
  refine ⟨run_ledger sink ops ⟨by simp, by simp⟩, ?_, ?_, ?_⟩
  · intro op hop hok
    obtain ⟨mid, -, -, -, -, hkeys, hbuttons⟩ := step_resumed sink hop hok
    exact ⟨hkeys, hbuttons⟩
  · exact fun op hends => (EndsInput.gaveUp sink hends).inputEnded
  · intro op now _ hdue
    obtain ⟨s', htick, hgave⟩ := tick_watchdog sink (hdue.mark (.called op))
    rw [htick]
    exact (GaveUp.after (.single (.event _ (by simp))) hgave).inputEnded

end HomeTunnel.Remote
