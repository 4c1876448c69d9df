import Mathlib

/-! # Pieces of a sequence

A piece is a block of values with the offset it belongs to. Pieces that follow
one another without gap or overlap tile an interval, and then each piece is the
part of their concatenation at its own offset.
-/

namespace HomeTunnel.Pieces

variable {α : Type*} {start stop : Nat} {pieces : List (Nat × List α)} {piece : Nat × List α}

/-- In increasing order, without gap or overlap, from `start` to `stop`. -/
def Tiles : Nat → List (Nat × List α) → Nat → Prop
  | start, [], stop => start = stop
  | start, piece :: rest, stop => piece.1 = start ∧ Tiles (start + piece.2.length) rest stop

def content (pieces : List (Nat × List α)) : List α := pieces.flatMap (·.2)

@[simp] theorem content_nil : content ([] : List (Nat × List α)) = [] := rfl

@[simp] theorem content_cons (rest : List (Nat × List α)) :
    content (piece :: rest) = piece.2 ++ content rest := rfl

@[simp] theorem content_append (rest : List (Nat × List α)) :
    content (pieces ++ rest) = content pieces ++ content rest := List.flatMap_append

theorem Tiles.snoc (h : Tiles start pieces stop) (values : List α) :
    Tiles start (pieces ++ [(stop, values)]) (stop + values.length) := by
  induction pieces generalizing start with
  | nil =>
    have : start = stop := h
    subst this
    exact ⟨rfl, rfl⟩
  | cons piece rest ih => exact ⟨h.1, ih h.2⟩

theorem Tiles.length_content (h : Tiles start pieces stop) :
    start + (content pieces).length = stop := by
  induction pieces generalizing start with
  | nil => exact h
  | cons piece rest ih =>
    have := ih h.2
    rw [content_cons, List.length_append]
    omega

end HomeTunnel.Pieces
