import HomeTunnel.Engine.Delivery

/-! # The latest progress

A value that is written into an item while the dispatcher is past its copy is lost. Where that
does not happen, the last progress received of a file is the last one taken in.
-/

namespace HomeTunnel.Engine.Mailbox

variable {Key Body : Type} [DecidableEq Key] {s : Mailbox Key Body}

/-- The dispatcher sends no copy that its item has outgrown, and no progress is written into an
item whose copy has been sent. -/
def Timely (s : Mailbox Key Body) (action : Action Key Body) : Prop :=
  match action, s.dispatcher with
  | .send, .offering id copy => ∀ item ∈ s.queue, item.id = id → item.entry = copy
  | .enqueue e, .removing id => ∀ key ∈ e.progress, s.pending key ≠ some id
  | _, _ => True

instance [DecidableEq Body] : DecidableRel (@Timely Key Body _) :=
  fun s action => by
    unfold Timely
    split <;> infer_instance

/-- The last event that concerns the file, if it is progress. -/
def Latest (s : Mailbox Key Body) (key : Key) (x : Entry Key Body) : Prop :=
  (s.accepted.filter (concerns key)).getLast? = some x ∧ x.2.progress = some key

instance [DecidableEq Body] (s : Mailbox Key Body) (key : Key) (x : Entry Key Body) :
    Decidable (s.Latest key x) :=
  inferInstanceAs (Decidable (_ ∧ _))

/-- What the consumer received last of the file's progress. -/
def received (s : Mailbox Key Body) (key : Key) : Option (Entry Key Body) :=
  (s.delivered.filter fun x => decide (x.2.progress = some key)).getLast?

/-- While the engine lives and nothing waits, the latest progress has been received. -/
def UpToDate (s : Mailbox Key Body) : Prop :=
  s.alive = true → s.queue = [] → ∀ key x, s.Latest key x → s.received key = some x

/-- The latest progress waits or was received last. -/
structure Held (s : Mailbox Key Body) : Prop where
  inv : Inv s
  latest : s.alive = true → ∀ key x, s.Latest key x →
    (∃ item ∈ s.queue, s.held ≠ some item.id ∧ item.entry = x) ∨ s.received key = some x

theorem Held.upToDate (h : Held s) : s.UpToDate := by
  intro halive hempty key x hx
  rcases h.latest halive key x hx with ⟨item, hitem, _⟩ | hreceived
  · rw [hempty] at hitem
    cases hitem
  · exact hreceived

theorem received_append (s : Mailbox Key Body) (key : Key) (x : Entry Key Body) :
    { s with delivered := s.delivered ++ [x] }.received key =
      if x.2.progress = some key then some x else s.received key := by
  unfold received
  rw [List.filter_append, List.filter_singleton]
  split <;> simp_all

theorem latest_append {accepted : List (Entry Key Body)} {key : Key} {x y : Entry Key Body}
    (h : ((accepted ++ [y]).filter (concerns key)).getLast? = some x) :
    x = y ∨ concerns key y = false ∧ (accepted.filter (concerns key)).getLast? = some x := by
  rw [List.filter_append, List.filter_singleton] at h
  cases hy : concerns key y <;> simp_all

/-- What a call of `enqueueEvent` takes in waits, and what does not concern its file goes on
waiting. -/
theorem Kept.enqueue_waits (h : Kept s) (e : Event Key Body)
    (halive : (s.enqueueEvent e).alive = true) :
    (s.enqueueEvent e).accepted = s.accepted ∧ (s.enqueueEvent e).queue = s.queue ∨
      (s.enqueueEvent e).accepted = s.accepted ++ [(s.next, e)] ∧
      (∃ item ∈ (s.enqueueEvent e).queue, item.entry = (s.next, e) ∧
        (item.id = s.next ∨ ∃ key ∈ e.progress, s.pending key = some item.id)) ∧
      ∀ item ∈ s.queue, (∀ key ∈ item.entry.2.progress, concerns key (s.next, e) = false) →
        item ∈ (s.enqueueEvent e).queue := by
  have hnew : ∀ {queue : List (Item Key Body)}, (⟨s.next, s.next, e⟩ : Item Key Body) ∈
      queue ++ [⟨s.next, s.next, e⟩] := List.mem_append_right _ (List.mem_singleton_self _)
  unfold enqueueEvent at halive ⊢
  cases he : e.progress with
  | some key =>
    dsimp only
    cases hp : s.pending key with
    | some id =>
      obtain ⟨before, old, after, hqueue, rfl, hold⟩ := h.pending_eq_some hp
      have hmem : old ∈ s.queue := by rw [hqueue]; simp
      refine .inr ⟨rfl, ⟨_, List.mem_map.mpr ⟨old, hmem, if_pos rfl⟩, rfl, .inr ⟨key, rfl, hp⟩⟩, ?_⟩
      intro item hitem hother
      refine List.mem_map.mpr ⟨item, hitem, if_neg fun hid => ?_⟩
      have := hother key (by rw [h.eq_of_id hqueue hitem hid]; exact hold)
      simp [concerns, he] at this
    | none =>
      dsimp only
      split
      · exact .inl ⟨rfl, rfl⟩
      · exact .inr ⟨rfl, ⟨_, hnew, rfl, .inl rfl⟩, fun _ hi _ => List.mem_append_left _ hi⟩
  | none =>
    rw [he] at halive
    dsimp only at halive ⊢
    split at halive
    · cases halive
    · next hroom =>
      rw [if_neg hroom]
      obtain ⟨heq, _⟩ | ⟨key, before, old, after, hterminal, hqueue, hold, heq⟩ :=
        h.settle_cases e
      · rw [heq]
        exact .inr ⟨rfl, ⟨_, hnew, rfl, .inl rfl⟩, fun _ hi _ => List.mem_append_left _ hi⟩
      · rw [heq]
        refine .inr ⟨rfl, ⟨_, hnew, rfl, .inl rfl⟩, fun item hi hother => ?_⟩
        refine List.mem_append_left _ ?_
        rw [hqueue] at hi
        rcases List.mem_append.mp hi with hi | hi
        · exact List.mem_append_left _ hi
        · rcases List.mem_cons.mp hi with rfl | hi
          · have := hother key hold
            simp [concerns, hterminal] at this
          · exact List.mem_append_right _ hi

theorem Kept.alive_of_enqueue (h : Kept s) {e : Event Key Body}
    (halive : (s.enqueueEvent e).alive = true) : s.alive = true := by
  unfold enqueueEvent at halive
  split at halive
  · split at halive
    · exact halive
    · split at halive <;> exact halive
  · dsimp only at halive
    split at halive
    · cases halive
    · obtain ⟨heq, _⟩ | ⟨_, _, _, _, _, _, _, heq⟩ := h.settle_cases e <;> rw [heq] at halive <;>
        exact halive

theorem Held.enqueue (h : Held s) {e : Event Key Body} (ht : s.Timely (.enqueue e)) :
    Held (s.enqueueEvent e) := by
  obtain ⟨_, _, hdelivered, hdispatcher, _⟩ := h.inv.kept.enqueue e
  have hheld : (s.enqueueEvent e).held = s.held := by rw [held, hdispatcher, held]
  refine ⟨h.inv.enqueue e, fun halive' key x hx => ?_⟩
  have halive : s.alive = true := h.inv.kept.alive_of_enqueue halive'
  have hold : s.Latest key x → (∀ item ∈ s.queue, item.entry = x →
      item ∈ (s.enqueueEvent e).queue) →
      (∃ item ∈ (s.enqueueEvent e).queue, (s.enqueueEvent e).held ≠ some item.id ∧
        item.entry = x) ∨ (s.enqueueEvent e).received key = some x := by
    intro hlatest hstays
    rw [hheld, received, hdelivered]
    rcases h.latest halive key x hlatest with ⟨item, hitem, hfree, rfl⟩ | hreceived
    · exact .inl ⟨item, hstays item hitem rfl, hfree, rfl⟩
    · exact .inr hreceived
  rcases h.inv.kept.enqueue_waits e halive' with ⟨haccepted, hqueue⟩ | ⟨haccepted, hnew, hstays⟩
  · rw [Latest, haccepted] at hx
    exact hold hx fun item hi _ => by rwa [hqueue]
  · obtain ⟨hlast, hprogress⟩ := hx
    rw [haccepted] at hlast
    rcases latest_append hlast with rfl | ⟨hother, hlast⟩
    · obtain ⟨item, hitem, hentry, hid⟩ := hnew
      refine .inl ⟨item, hitem, fun heq => ?_, hentry⟩
      rw [hheld] at heq
      unfold held at heq
      split at heq
      · next id hd =>
        cases heq
        rcases hid with hid | ⟨key', hkey', hp⟩
        · exact absurd (h.inv.holds _ (.inl hd)) (by omega)
        · unfold Timely at ht
          rw [hd] at ht
          exact ht key' hkey' hp
      · cases heq
    · refine hold ⟨hlast, hprogress⟩ fun item hi hentry => hstays item hi fun key' hkey' => ?_
      rw [hentry, hprogress] at hkey'
      cases hkey'
      exact hother

theorem Held.send (h : Held s) {id : Nat} {copy : Entry Key Body}
    (hd : s.dispatcher = .offering id copy)
    (ht : ∀ item ∈ s.queue, item.id = id → item.entry = copy)
    (hinv : Inv { s with delivered := s.delivered ++ [copy], dispatcher := .removing id }) :
    Held { s with delivered := s.delivered ++ [copy], dispatcher := .removing id } := by
  refine ⟨hinv, fun halive key x hx => ?_⟩
  have hreceived : Mailbox.received { s with
      delivered := s.delivered ++ [copy], dispatcher := .removing id } key =
      if copy.2.progress = some key then some copy else s.received key :=
    received_append s key copy
  rw [hreceived]
  rcases h.latest halive key x hx with ⟨item, hitem, _, rfl⟩ | hlast
  · by_cases hid : item.id = id
    · rw [← ht item hitem hid, if_pos hx.2]
      exact .inr rfl
    · exact .inl ⟨item, hitem, fun heq => hid (Option.some.inj heq).symm, rfl⟩
  · refine .inr ?_
    split
    · next hcopy =>
      have hconcerns : concerns key copy = true := decide_eq_true (.inl hcopy)
      have hview := h.inv.copy id copy hd
      obtain ⟨front, hfront⟩ := List.getLast?_eq_some_iff.mp hx.1
      have hcopymem : copy ∈ front ++ [x] := by
        rw [← hfront, List.mem_filter]
        exact ⟨hview.known copy (by simp), hconcerns⟩
      have hxmem : x ∈ s.delivered.filter (concerns key) := by
        have := List.mem_of_getLast? hlast
        rw [List.mem_filter] at this ⊢
        exact ⟨this.1, decide_eq_true (.inl hx.2)⟩
      have hless : x.1 < copy.1 := by
        have := hview.ordered key
        rw [List.filter_append, List.filter_append, List.append_assoc, List.pairwise_append] at this
        exact this.2.2 x hxmem copy (by simp [hconcerns])
      have hsorted := h.inv.kept.sorted.filter (concerns key)
      rw [hfront, List.pairwise_append] at hsorted
      rcases List.mem_append.mp hcopymem with hc | hc
      · have := hsorted.2.2 copy hc x (List.mem_singleton_self _)
        omega
      · rw [List.mem_singleton.mp hc]
    · exact hlast

theorem Held.turn (h : Held s) {s' : Mailbox Key Body} (hinv : Inv s') (halive : s'.alive = s.alive)
    (haccepted : s'.accepted = s.accepted) (hdelivered : s'.delivered = s.delivered)
    (hqueue : ∀ item ∈ s.queue, s.held ≠ some item.id →
      item ∈ s'.queue ∧ s'.held ≠ some item.id) : Held s' := by
  refine ⟨hinv, fun ha key x hx => ?_⟩
  rw [Latest, haccepted] at hx
  rw [received, hdelivered]
  rcases h.latest (halive ▸ ha) key x hx with ⟨item, hitem, hfree, hentry⟩ | hreceived
  · exact .inl ⟨item, (hqueue item hitem hfree).1, (hqueue item hitem hfree).2, hentry⟩
  · exact .inr hreceived

theorem Held.step (h : Held s) {action : Action Key Body} (ht : s.Timely action) :
    Held (s.step action) := by
  have hinv := h.inv.step action
  unfold Mailbox.step at hinv ⊢
  split
  · exact h
  · next halive =>
    rw [if_neg halive] at hinv
    split
    · exact h.enqueue ht
    · next hd =>
      rw [hd] at hinv
      dsimp only at hinv
      split <;> exact h.turn (by simp_all) rfl rfl rfl fun item hi _ => ⟨hi, by simp [held]⟩
    · next hd =>
      rw [hd] at hinv
      dsimp only at hinv
      split
      · exact h.turn (by simp_all) rfl rfl rfl fun item hi _ => ⟨hi, by simp [held]⟩
      · exact h
    · next id copy hd =>
      rw [hd] at hinv
      dsimp only at hinv
      split
      · exact h.turn (by simp_all) rfl rfl rfl fun item hi _ => ⟨hi, by simp [held]⟩
      · exact h
    · next id copy hd =>
      rw [hd] at hinv
      unfold Timely at ht
      rw [hd] at ht
      exact h.send hd ht hinv
    · next id hd =>
      rw [hd] at hinv
      obtain ⟨haccepted, hdelivered, hlives⟩ := removeEventLocked_frame s id
      refine h.turn hinv hlives haccepted hdelivered fun item hi hfree => ⟨?_, by simp [held]⟩
      dsimp only
      rw [removeEventLocked_queue, List.mem_filter]
      rw [held, hd] at hfree
      exact ⟨hi, decide_eq_true fun hid => hfree (congrArg some hid.symm)⟩
    · exact h

end HomeTunnel.Engine.Mailbox
