import HomeTunnel.Lib.Runs
import HomeTunnel.Peers.Identity
import HomeTunnel.Peers.Service

/-! # Numbers are accepted once

Each of the three receivers of signed peer messages keeps a replay window: whatever else
happens to it in between, no number is accepted twice, and what it remembers stays within
32 numbers of the highest one.
-/

namespace HomeTunnel.Remote.Peers

open Auth ReplayWindow

/-- A call on the host's identity. -/
inductive HostCall
  | peerSignal (envelope : Json) (now : Int)
  | expectAnswer (payload : Json)
  | signedAnswer (envelope : Json) (now : Int)
  | hello (body : Json)

/-- A call on the controller's identity. -/
inductive ControllerCall
  | peerSignal (envelope : Json) (now : Int)
  | expectOffer (payload : Json)
  | signedOffer (envelope : Json) (now : Int)
  | hello (body : Json)

/-- A call that fails leaves the state as it was. -/
def kept {ε σ : Type} (s : σ) : Except ε σ → σ
  | .ok t => t
  | .error _ => s

section Calls

variable (P : Primitives)

def PeerIdentity.step (s : PeerIdentity) : HostCall → PeerIdentity
  | .peerSignal envelope now => (s.peerSignal P envelope now).2
  | .expectAnswer payload => s.expectAnswer payload
  | .signedAnswer envelope now => kept s (s.signedAnswer P envelope now)
  | .hello body => kept s (s.hello P body)

/-- The number that a call accepts. -/
def PeerIdentity.accepted (s : PeerIdentity) : HostCall → Option UInt64
  | .peerSignal envelope now => (s.peerSignal P envelope now).1.toOption.map Accepted.number
  | _ => none

def ControllerIdentity.step (s : ControllerIdentity) : ControllerCall → ControllerIdentity
  | .peerSignal envelope now => kept s ((s.peerSignal P envelope now).map Prod.snd)
  | .expectOffer payload => s.expectOffer payload
  | .signedOffer envelope now => kept s (s.signedOffer P envelope now)
  | .hello body => kept s (s.hello P body)

def ControllerIdentity.accepted (s : ControllerIdentity) : ControllerCall → Option UInt64
  | .peerSignal envelope now => (s.peerSignal P envelope now).toOption.map fun a => a.1.number
  | _ => none

end Calls

variable {P : Primitives}

variable {s t : PeerIdentity} {envelope : Json} {now : Int}

theorem PeerIdentity.signal_ok {proof : Jws} {n : UInt64}
    (h : s.signal P envelope now = .ok (proof, n, t)) :
    s.sequences.window.Admits n ∧ t = { s with sequences := s.sequences.insert n } := by
  unfold PeerIdentity.signal at h
  split at h
  · cases h
  split at h
  · cases h
  split at h
  · cases h
  rename_i hwindow
  cases h
  rw [not_or, not_or, Bool.not_eq_true] at hwindow
  exact ⟨Sequences.window_admits.mpr ⟨hwindow.1, hwindow.2.1⟩, rfl⟩

/-- A message changes the window only by one number, and is accepted only with it. -/
theorem PeerIdentity.peerSignal_takes (s : PeerIdentity) (envelope : Json) (now : Int) :
    ((s.peerSignal P envelope now).1.toOption = none ∧
        (s.peerSignal P envelope now).2.sequences = s.sequences) ∨
      ∃ n, s.sequences.window.Admits n ∧
        (s.peerSignal P envelope now).2.sequences = s.sequences.insert n ∧
        ∀ a, (s.peerSignal P envelope now).1.toOption = some a → a.number = n := by
  unfold PeerIdentity.peerSignal
  cases hsignal : s.signal P envelope now with
  | error e => exact Or.inl ⟨rfl, rfl⟩
  | ok result =>
    obtain ⟨proof, n, t⟩ := result
    obtain ⟨hadmits, rfl⟩ := PeerIdentity.signal_ok hsignal
    refine Or.inr ⟨n, hadmits, ?_⟩
    dsimp only
    split
    · split
      · exact ⟨rfl, nofun⟩
      · refine ⟨rfl, fun a ha => ?_⟩
        cases ha
        rfl
    · split
      · exact ⟨rfl, nofun⟩
      · refine ⟨rfl, fun a ha => ?_⟩
        cases ha
        rfl
    · exact ⟨rfl, nofun⟩

theorem PeerIdentity.signedAnswer_sequences (h : s.signedAnswer P envelope now = .ok t) :
    t.sequences = s.sequences := by
  unfold PeerIdentity.signedAnswer at h
  split at h
  · cases h
  split at h
  · cases h
  split at h
  · split at h
    · cases h
    · cases h
      rfl
  · cases h

theorem PeerIdentity.hello_sequences {body : Json} (h : s.hello P body = .ok t) :
    t.sequences = s.sequences := by
  unfold PeerIdentity.hello at h
  split at h
  · cases h
  split at h
  · cases h
    rfl
  · cases h

theorem kept_sequences {σ : Type} (sequences : σ → Sequences) {s : σ} {result : Except Error σ}
    (h : ∀ t, result = .ok t → sequences t = sequences s) :
    sequences (kept s result) = sequences s := by
  cases result with
  | ok t => exact h t rfl
  | error e => rfl

theorem PeerIdentity.receiver :
    Receiver (fun s : PeerIdentity => s.sequences.window) (PeerIdentity.step P)
      (PeerIdentity.accepted P) := by
  apply Receiver.of_steps
  intro s call
  cases call with
  | peerSignal envelope now =>
    dsimp only [PeerIdentity.step, PeerIdentity.accepted]
    rcases PeerIdentity.peerSignal_takes s envelope now with
      ⟨hnone, hsame⟩ | ⟨n, hadmits, hinsert, honly⟩
    · rw [hnone, hsame]
      exact Or.inl ⟨rfl, rfl⟩
    · rw [hinsert, Sequences.window_insert]
      refine Or.inr ⟨n, hadmits, rfl, fun k hk => ?_⟩
      obtain ⟨a, ha, rfl⟩ := Option.map_eq_some_iff.mp hk
      exact honly a ha
  | expectAnswer payload => exact Or.inl ⟨rfl, rfl⟩
  | signedAnswer envelope now =>
    refine Or.inl ⟨rfl, congrArg Sequences.window ?_⟩
    exact kept_sequences PeerIdentity.sequences fun t ht => signedAnswer_sequences ht
  | hello body =>
    refine Or.inl ⟨rfl, congrArg Sequences.window ?_⟩
    exact kept_sequences PeerIdentity.sequences fun t ht => hello_sequences ht

/-- The controller remembers a number exactly when it accepts it. -/
theorem ControllerIdentity.peerSignal_ok {s t : ControllerIdentity} {a : Accepted}
    (h : s.peerSignal P envelope now = .ok (a, t)) :
    s.sequences.window.Admits a.number ∧ t.sequences = s.sequences.insert a.number := by
  unfold ControllerIdentity.peerSignal at h
  split at h
  · cases h
  split at h
  · cases h
  dsimp only at h
  split at h
  · split at h
    · cases h
    · rename_i hgood
      cases h
      rw [not_or, not_or, not_or, not_or] at hgood
      obtain ⟨-, -, hnew, hnear, -⟩ := hgood
      exact ⟨Sequences.window_admits.mpr ⟨hnew, Bool.not_eq_true _ ▸ hnear⟩, rfl⟩
  · cases h

theorem ControllerIdentity.signedOffer_sequences {s t : ControllerIdentity}
    (h : s.signedOffer P envelope now = .ok t) : t.sequences = s.sequences := by
  unfold ControllerIdentity.signedOffer at h
  split at h
  · cases h
  split at h
  · cases h
  split at h
  · split at h
    · cases h
    · cases h
      rfl
  · cases h

theorem ControllerIdentity.hello_sequences {s t : ControllerIdentity} {body : Json}
    (h : s.hello P body = .ok t) : t.sequences = s.sequences := by
  unfold ControllerIdentity.hello at h
  split at h
  · cases h
  split at h
  · cases h
    rfl
  · cases h

theorem ControllerIdentity.expectOffer_sequences (s : ControllerIdentity) (payload : Json) :
    (s.expectOffer payload).sequences = s.sequences := by
  unfold ControllerIdentity.expectOffer
  split <;> rfl

theorem ControllerIdentity.receiver :
    Receiver (fun s : ControllerIdentity => s.sequences.window) (ControllerIdentity.step P)
      (ControllerIdentity.accepted P) := by
  apply Receiver.of_steps
  intro s call
  cases call with
  | peerSignal envelope now =>
    dsimp only [ControllerIdentity.step, ControllerIdentity.accepted]
    cases hsignal : s.peerSignal P envelope now with
    | error e => exact Or.inl ⟨rfl, rfl⟩
    | ok result =>
      obtain ⟨hadmits, hinsert⟩ := ControllerIdentity.peerSignal_ok hsignal
      refine Or.inr ⟨result.1.number, hadmits, ?_, ?_⟩
      · show result.2.sequences.window = _
        rw [hinsert, Sequences.window_insert]
      · intro k hk
        exact (Option.some.inj hk).symm
  | expectOffer payload =>
    exact Or.inl ⟨rfl, congrArg Sequences.window (expectOffer_sequences s payload)⟩
  | signedOffer envelope now =>
    refine Or.inl ⟨rfl, congrArg Sequences.window ?_⟩
    exact kept_sequences ControllerIdentity.sequences fun t ht => signedOffer_sequences ht
  | hello body =>
    refine Or.inl ⟨rfl, congrArg Sequences.window ?_⟩
    exact kept_sequences ControllerIdentity.sequences fun t ht => hello_sequences ht

/-- An ordered set holds no more numbers than its window. -/
theorem Sequences.length_le (s : Sequences) : s.numbers.length ≤ 32 := by
  have hnodup : s.numbers.Nodup := s.ordered.imp UInt64.ne_of_lt
  rw [← List.toFinset_card_of_nodup hnodup]
  exact s.window.card_le_span

end HomeTunnel.Remote.Peers

namespace HomeTunnel.Host.Peers

open ReplayWindow
open Remote.Peers (sequenceRank behind_iff)

/-- The number that a section of the service admits. -/
def State.admitted (C : Curve) (s : State) : Action → Option UInt64
  | .admitArrived now =>
    match s.loop with
    | .verifying m => (s.letIn C m now).map Prod.fst
    | _ => none
  | .admitQueued now =>
    match s.flush with
    | .verifying m => (s.letIn C m now).map Prod.fst
    | _ => none
  | _ => none

theorem Running.letIn_takes {r t : Running} {current : Bool} {m : Message} {seq : UInt64}
    (h : r.letIn current m seq = some t) : r.peers.Admits seq ∧ t.peers = r.peers.take seq := by
  unfold Running.letIn at h
  split at h
  · cases h
  · rename_i hgood
    cases h
    simp only [Bool.or_eq_true, decide_eq_true_eq, not_or, behind_iff] at hgood
    exact ⟨⟨hgood.1.1.2, hgood.1.2⟩, rfl⟩

theorem State.letIn_takes {C : Curve} {s : State} {m : Message} {now : Int} {seq : UInt64}
    {r : Running} (h : s.letIn C m now = some (seq, r)) :
    s.running.peers.Admits seq ∧ r.peers = s.running.peers.take seq := by
  unfold State.letIn at h
  split at h
  · cases h
  · obtain ⟨t, ht, heq⟩ := Option.map_eq_some_iff.mp h
    cases heq
    exact Running.letIn_takes ht

@[simp] theorem State.arrive_peers (s : State) (m : Message) :
    (s.arrive m).running.peers = s.running.peers := by
  unfold State.arrive
  dsimp only
  split
  · rfl
  · split
    · split <;> rfl
    · rfl

@[simp] theorem State.nextQueued_peers (s : State) :
    s.nextQueued.running.peers = s.running.peers := by
  unfold State.nextQueued
  split
  · rfl
  · split <;> rfl

@[simp] theorem State.startSession_peers (s : State) :
    s.startSession.running.peers = s.running.peers := by
  unfold State.startSession
  split <;> rfl

/-- The only sections that touch the window are those that letIn a number. -/
theorem State.receiver (C : Curve) :
    Receiver (fun s : State => s.running.peers) (State.step C) (State.admitted C) := by
  apply Receiver.of_steps
  intro s action
  cases action with
  | arrive m | start | next | signalArrived ok | signalQueued ok =>
    refine Or.inl ⟨rfl, ?_⟩
    unfold State.step
    dsimp only
    split <;> simp [State.signal]
  | admitArrived now =>
    cases hat : s.loop with
    | verifying m =>
      cases hletIn : s.letIn C m now with
      | none => exact Or.inl (by simp [State.admitted, State.step, hat, hletIn, State.refuseArrived])
      | some result =>
        obtain ⟨hadmits, htake⟩ := State.letIn_takes hletIn
        refine Or.inr ⟨result.1, hadmits, ?_, ?_⟩
        · simpa [State.step, hat, hletIn] using htake
        · simp [State.admitted, hat, hletIn]
    | _ => exact Or.inl (by simp [State.admitted, State.step, hat])
  | enterQueued =>
    refine Or.inl ⟨rfl, ?_⟩
    unfold State.step
    dsimp only
    split
    · split <;> rfl
    · rfl
  | admitQueued now =>
    cases hat : s.flush with
    | verifying m =>
      cases hletIn : s.letIn C m now with
      | none => exact Or.inl (by simp [State.admitted, State.step, hat, hletIn, State.refuseQueued])
      | some result =>
        obtain ⟨hadmits, htake⟩ := State.letIn_takes hletIn
        refine Or.inr ⟨result.1, hadmits, ?_, ?_⟩
        · simpa [State.step, hat, hletIn] using htake
        · simp [State.admitted, hat, hletIn]
    | _ => exact Or.inl (by simp [State.admitted, State.step, hat])
  | stop released => exact Or.inl ⟨rfl, rfl⟩

/-- Not more than 32 numbers are remembered, none above the highest one. -/
def Running.Bounded (r : Running) : Prop :=
  r.peers.seen.card ≤ 32 ∧ ∀ n ∈ r.peers.seen, n ≤ r.peers.highest

theorem Running.bounded (r : Running) : r.Bounded :=
  ⟨r.peers.card_le_span, fun n hn => UInt64.le_iff_toNat_le.mpr (r.peers.inside n hn).1⟩

end HomeTunnel.Host.Peers

namespace HomeTunnel.Remote.Peers

open Auth ReplayWindow Runs
open Host.Peers (State Action)

def Sequences.Bounded (s : Sequences) : Prop :=
  s.numbers.length ≤ 32 ∧ ∀ n ∈ s.numbers, n ≤ s.highest

theorem Sequences.bounded (s : Sequences) : s.Bounded :=
  ⟨s.length_le, fun n hn => (s.inside n hn).1⟩

/-- Over any run of calls, from any state, each receiver accepts a number at most once, and its
window stays bounded. -/
theorem peer_numbers_accepted_once (P : Primitives) (C : Curve) :
    (∀ (s : PeerIdentity) (calls : List HostCall),
      (acceptedOver (PeerIdentity.step P) (PeerIdentity.accepted P) s calls).Nodup ∧
      Always (PeerIdentity.step P) (fun t => t.sequences.Bounded) s calls) ∧
    (∀ (s : ControllerIdentity) (calls : List ControllerCall),
      (acceptedOver (ControllerIdentity.step P) (ControllerIdentity.accepted P) s calls).Nodup ∧
      Always (ControllerIdentity.step P) (fun t => t.sequences.Bounded) s calls) ∧
    ∀ (s : State) (actions : List Action),
      (acceptedOver (State.step C) (State.admitted C) s actions).Nodup ∧
      Always (State.step C) (fun t => t.running.Bounded) s actions := by
  refine ⟨fun s calls => ⟨PeerIdentity.receiver.nodup calls s, ?_⟩,
    fun s calls => ⟨ControllerIdentity.receiver.nodup calls s, ?_⟩,
    fun s actions => ⟨(State.receiver C).nodup actions s, ?_⟩⟩
  · exact always_of_all (fun t => t.sequences.bounded) s calls
  · exact always_of_all (fun t => t.sequences.bounded) s calls
  · exact always_of_all (fun t => t.running.bounded) s actions

end HomeTunnel.Remote.Peers
