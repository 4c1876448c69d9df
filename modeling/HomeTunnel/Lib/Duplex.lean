import HomeTunnel.Lib.Runs

/-! # Two parties joined by two channels

A party is a state machine that puts messages into an outbox, which only grows. Each
outbox is delivered to the other party in order, one message at a time and none twice,
at any moment; what has not been delivered is in flight.
-/

namespace HomeTunnel.Duplex

variable {σ τ ι κ μ ν ε α : Type*}

/-- States `σ` with local operations `ι`, messages `μ` to the other party and `ν` from it. A
delivery is accompanied by an `ε`, such as the time at which it happens. -/
structure Party (σ ι μ ν ε : Type*) where
  outbox : σ → List μ
  act : σ → ι → σ
  hear : σ → ν → ε → σ
  act_grows : ∀ s op, outbox s <+: outbox (act s op)
  hear_grows : ∀ s message e, outbox s <+: outbox (hear s message e)

/-- The two states, and how many messages of each outbox have been delivered. -/
structure Link (σ τ : Type*) where
  left : σ
  right : τ
  heardRight : Nat := 0
  heardLeft : Nat := 0

inductive Move (ι κ ε : Type*)
  | left (op : ι)
  | right (op : κ)
  | toRight (e : ε)
  | toLeft (e : ε)
deriving DecidableEq

section Steps

variable (L : Party σ ι μ ν ε) (R : Party τ κ ν μ ε)

/-- What the left party has sent and the right one has not heard. -/
def Link.rightward (link : Link σ τ) : List μ := (L.outbox link.left).drop link.heardRight

def Link.leftward (link : Link σ τ) : List ν := (R.outbox link.right).drop link.heardLeft

def Link.step (link : Link σ τ) : Move ι κ ε → Link σ τ
  | .left op => { link with left := L.act link.left op }
  | .right op => { link with right := R.act link.right op }
  | .toRight e =>
    match link.rightward L with
    | [] => link
    | message :: _ =>
      { link with right := R.hear link.right message e, heardRight := link.heardRight + 1 }
  | .toLeft e =>
    match link.leftward R with
    | [] => link
    | message :: _ =>
      { link with left := L.hear link.left message e, heardLeft := link.heardLeft + 1 }

def Link.run (link : Link σ τ) (moves : List (Move ι κ ε)) : Link σ τ :=
  moves.foldl (Link.step L R) link

variable {L R} {link : Link σ τ}

theorem Link.run_append (moves later : List (Move ι κ ε)) :
    link.run L R (moves ++ later) = (link.run L R moves).run L R later :=
  List.foldl_append

theorem Link.toRight_empty (h : link.rightward L = []) (e : ε) :
    link.step L R (.toRight e) = link := by rw [Link.step, h]

theorem Link.toRight_deliver {message : μ} {rest : List μ} (h : link.rightward L = message :: rest)
    (e : ε) : link.step L R (.toRight e) =
      { link with right := R.hear link.right message e, heardRight := link.heardRight + 1 } := by
  rw [Link.step, h]

theorem Link.toLeft_empty (h : link.leftward R = []) (e : ε) :
    link.step L R (.toLeft e) = link := by rw [Link.step, h]

theorem Link.toLeft_deliver {message : ν} {rest : List ν} (h : link.leftward R = message :: rest)
    (e : ε) : link.step L R (.toLeft e) =
      { link with left := L.hear link.left message e, heardLeft := link.heardLeft + 1 } := by
  rw [Link.step, h]

theorem drop_delivered {sent rest : List α} {message : α} {heard : Nat}
    (h : sent.drop heard = message :: rest) :
    sent.drop (heard + 1) = rest ∧ heard + 1 ≤ sent.length := by
  refine ⟨?_, ?_⟩
  · rw [← List.tail_drop, h, List.tail_cons]
  · by_contra hlt
    rw [List.drop_eq_nil_of_le (by omega)] at h
    cases h

theorem drop_grown {before sent new : List α} {heard : Nat} (h : heard ≤ before.length)
    (hsent : sent = before ++ new) : sent.drop heard = before.drop heard ++ new := by
  rw [hsent]
  exact List.drop_append_of_le_length h

/-- No more is delivered than was sent. -/
structure Link.Bounded (L : Party σ ι μ ν ε) (R : Party τ κ ν μ ε) (link : Link σ τ) : Prop where
  right : link.heardRight ≤ (L.outbox link.left).length
  left : link.heardLeft ≤ (R.outbox link.right).length

theorem Link.Bounded.step (h : link.Bounded L R) (move : Move ι κ ε) :
    (link.step L R move).Bounded L R := by
  cases move with
  | left op => exact ⟨h.right.trans (L.act_grows link.left op).length_le, h.left⟩
  | right op => exact ⟨h.right, h.left.trans (R.act_grows link.right op).length_le⟩
  | toRight e =>
    cases hflight : link.rightward L with
    | nil =>
      rw [Link.toRight_empty hflight]
      exact h
    | cons message rest =>
      rw [Link.toRight_deliver hflight]
      exact ⟨(drop_delivered hflight).2,
        h.left.trans (R.hear_grows link.right message e).length_le⟩
  | toLeft e =>
    cases hflight : link.leftward R with
    | nil =>
      rw [Link.toLeft_empty hflight]
      exact h
    | cons message rest =>
      rw [Link.toLeft_deliver hflight]
      exact ⟨h.right.trans (L.hear_grows link.left message e).length_le,
        (drop_delivered hflight).2⟩

end Steps

end HomeTunnel.Duplex
