import HomeTunnel.Files.Transfer

/-! # The tables of an endpoint

How the small operations on the item map, the queue and the remembered ids
change the fields of the state, and what closing leaves behind.
-/

namespace HomeTunnel.Remote.Files.Transfer

variable {s : Transfer} {item other : Item} {id : String} {event : FileEvent}

@[simp] theorem note_items : (s.note event).items = s.items := rfl
@[simp] theorem note_queue : (s.note event).queue = s.queue := rfl
@[simp] theorem note_seen : (s.note event).seen = s.seen := rfl
@[simp] theorem note_incomingEnabled : (s.note event).incomingEnabled = s.incomingEnabled := rfl
@[simp] theorem note_outgoingEnabled : (s.note event).outgoingEnabled = s.outgoingEnabled := rfl
@[simp] theorem note_closed : (s.note event).closed = s.closed := rfl
@[simp] theorem note_trace : (s.note event).trace = event :: s.trace := rfl
@[simp] theorem put_trace : (s.put item).trace = s.trace := rfl

@[simp] theorem erase_eq : s.erase id =
    { s with items := s.items.filter (·.id ≠ id), trace := .erased id :: s.trace } := rfl

@[simp] theorem remember_items : (s.remember id).items = s.items := rfl
@[simp] theorem remember_queue : (s.remember id).queue = s.queue := rfl
@[simp] theorem remember_incomingEnabled :
    (s.remember id).incomingEnabled = s.incomingEnabled := rfl
@[simp] theorem remember_trace : (s.remember id).trace = s.trace := rfl

/-- The abort of an item's destination, as events. -/
def aborts (item : Item) : List FileEvent := item.destination.toList.map .aborted

@[simp] theorem abort_eq : s.abort item = { s with trace := aborts item ++ s.trace } := by
  unfold abort aborts
  cases item.destination <;> rfl

theorem mem_of_find (h : s.find id = some item) : item ∈ s.items := List.mem_of_find?_eq_some h

theorem id_of_find (h : s.find id = some item) : item.id = id := by
  simpa using List.find?_some h

theorem find_eq_none : s.find id = none ↔ ∀ item ∈ s.items, item.id ≠ id := by
  simp [find]

theorem find_of_mem (hids : (s.items.map (·.id)).Nodup) (h : item ∈ s.items) :
    s.find item.id = some item := by
  unfold find
  generalize s.items = items at hids h
  induction items with
  | nil => cases h
  | cons first rest ih =>
    rw [List.map_cons, List.nodup_cons] at hids
    rcases List.mem_cons.mp h with rfl | h
    · simp
    · have hne : first.id ≠ item.id := by
        intro heq
        exact hids.1 (heq ▸ List.mem_map_of_mem h)
      rw [List.find?_cons_of_neg (by simpa using hne)]
      exact ih hids.2 h

theorem eq_of_mem (hids : (s.items.map (·.id)).Nodup) (h : item ∈ s.items)
    (hfind : s.find id = some other) (hid : item.id = id) : item = other := by
  subst hid
  exact Option.some.inj ((find_of_mem hids h).symm.trans hfind)

theorem put_items :
    (s.put item).items = s.items.map fun other => if other.id = item.id then item else other := rfl

theorem mem_put (h : other ∈ (s.put item).items) :
    other = item ∨ (other ∈ s.items ∧ other.id ≠ item.id) := by
  rw [put_items, List.mem_map] at h
  obtain ⟨old, hold, rfl⟩ := h
  by_cases heq : old.id = item.id
  · simp [heq]
  · simp [heq, hold]

theorem mem_put_self (h : s.find item.id = some other) : item ∈ (s.put item).items := by
  rw [put_items, List.mem_map]
  exact ⟨other, mem_of_find h, by simp [id_of_find h]⟩

theorem mem_put_of_ne (h : other ∈ s.items) (hne : other.id ≠ item.id) :
    other ∈ (s.put item).items := by
  rw [put_items, List.mem_map]
  exact ⟨other, h, by simp [hne]⟩

@[simp] theorem put_ids : (s.put item).items.map (·.id) = s.items.map (·.id) := by
  rw [put_items, List.map_map]
  apply List.map_congr_left
  intro old _
  by_cases h : old.id = item.id <;> simp [h]

theorem put_split (hids : (s.items.map (·.id)).Nodup) (h : s.find item.id = some other) :
    ∃ before after, s.items = before ++ other :: after ∧
      (s.put item).items = before ++ item :: after := by
  obtain ⟨before, after, hsplit⟩ := List.append_of_mem (mem_of_find h)
  have hid := id_of_find h
  rw [hsplit, List.map_append, List.map_cons, List.nodup_append, List.nodup_cons] at hids
  obtain ⟨-, ⟨hafter, -⟩, hbefore⟩ := hids
  have hkeep : ∀ l : List Item, (∀ old ∈ l, old.id ≠ item.id) →
      (l.map fun old => if old.id = item.id then item else old) = l := by
    intro l hl
    conv_rhs => rw [← List.map_id l]
    exact List.map_congr_left fun old hold => by simp [hl old hold]
  have hneBefore : ∀ old ∈ before, old.id ≠ item.id := by
    intro old hold heq
    exact hbefore old.id (List.mem_map_of_mem hold) other.id List.mem_cons_self (heq.trans hid.symm)
  have hneAfter : ∀ old ∈ after, old.id ≠ item.id := by
    intro old hold heq
    exact hafter (by rw [hid, ← heq]; exact List.mem_map_of_mem hold)
  refine ⟨before, after, hsplit, ?_⟩
  rw [put_items, hsplit, List.map_append, List.map_cons, hkeep before hneBefore,
    hkeep after hneAfter, if_pos hid]

theorem put_put (h : other.id = item.id) : (s.put item).put other = s.put other := by
  have hitems : ((s.put item).put other).items = (s.put other).items := by
    rw [put_items, put_items, put_items, List.map_map]
    apply List.map_congr_left
    intro old _
    by_cases heq : old.id = item.id <;> simp [heq, h]
  simpa [put] using hitems

theorem find_put (h : s.find item.id = some other) : (s.put item).find item.id = some item := by
  unfold find at h ⊢
  rw [put_items]
  generalize s.items = items at h
  induction items with
  | nil => simp at h
  | cons first rest ih =>
    by_cases heq : first.id = item.id
    · simp [heq]
    · rw [List.find?_cons_of_neg (by simpa using heq)] at h
      rw [List.map_cons, if_neg heq, List.find?_cons_of_neg (by simpa using heq)]
      exact ih h

theorem insert_eq (h : s.find item.id = none) :
    s.insert item =
      { s with items := s.items.orderedInsert (fun a b => a.id ≤ b.id) item }.note
        (.inserted item.id item.outgoing) := by
  simp [insert, h]

theorem insert_items_perm (h : s.find item.id = none) :
    (s.insert item).items.Perm (item :: s.items) := by
  rw [insert_eq h]
  exact List.perm_orderedInsert _ _ _

@[simp] theorem discard_eq : s.discard item =
    { s.remember item.id with
      items := s.items.filter (·.id ≠ item.id)
      queue := s.queue.filter (·.id ≠ item.id)
      trace := aborts item ++ .erased item.id :: s.trace } := by
  simp [discard, remember, remembered]

/-- The notice of a transfer that went through. -/
def completeNotice (item : Item) : Notice :=
  { event := "complete", id := item.id, name := item.name, size := item.size,
    offset := item.offset, outgoing := item.outgoing, error := "", mayBeSaved := false }

@[simp] theorem retire_eq : s.retire item =
    { s.remember item.id with
      items := s.items.filter (·.id ≠ item.id)
      trace := aborts item ++ .erased item.id :: .notice (completeNotice item) :: s.trace } := by
  simp [retire, emit, completeNotice, remember, remembered]

theorem length_remember_seen (h : s.seen.length ≤ maxSeen) :
    (s.remember id).seen.length ≤ maxSeen := by
  unfold remember
  dsimp only
  by_cases hseen : s.remembered id
  · rw [if_pos hseen, if_neg (by omega)]
    exact h
  · rw [if_neg hseen]
    by_cases hlong : (s.seen ++ [id]).length > maxSeen
    · rw [if_pos hlong, List.length_tail, List.length_append]
      simpa using h
    · rw [if_neg hlong]
      omega

@[simp] theorem setEnabled_items {outgoing value : Bool} :
    (s.setEnabled outgoing value).items = s.items := by cases outgoing <;> rfl

@[simp] theorem setEnabled_queue {outgoing value : Bool} :
    (s.setEnabled outgoing value).queue = s.queue := by cases outgoing <;> rfl

@[simp] theorem setEnabled_seen {outgoing value : Bool} :
    (s.setEnabled outgoing value).seen = s.seen := by cases outgoing <;> rfl

@[simp] theorem setEnabled_trace {outgoing value : Bool} :
    (s.setEnabled outgoing value).trace = .enabled outgoing value :: s.trace := by
  cases outgoing <;> rfl

/-- Only an acknowledgement of an incoming item changes anything. -/
theorem clearPending_cases (message : FileMessage) :
    s.clearPending message = s ∨
      ∃ item, s.find message.id = some item ∧ ¬ item.outgoing ∧
        message.type = Protocol.fileAck ∧
        s.clearPending message = s.put { item with pendingAck := false } := by
  unfold clearPending
  by_cases hack : message.type = Protocol.fileAck
  · rw [if_pos hack]
    cases hfind : s.find message.id with
    | none => exact .inl rfl
    | some item =>
      by_cases hout : item.outgoing
      · exact .inl (by simp [hout])
      · exact .inr ⟨item, rfl, hout, hack, by simp [hout]⟩
  · rw [if_neg hack]
    exact .inl rfl

/-- What clearing the map leaves in the trace. -/
def closing : List Item → List FileEvent
  | [] => []
  | item :: rest => closing rest ++ (aborts item ++ [.erased item.id])

theorem clearItems_eq (items : List Item) (s : Transfer) :
    clearItems items s =
      { s with
        items := s.items.filter fun item => item.id ∉ items.map (·.id)
        trace := closing items ++ s.trace } := by
  induction items generalizing s with
  | nil => simp [clearItems, closing]
  | cons item rest ih =>
    rw [clearItems, ih]
    simp only [abort_eq, erase_eq, List.filter_filter, closing]
    have hfilter : ∀ l : List Item,
        l.filter (fun a => decide (a.id ∉ rest.map (·.id)) && decide (a.id ≠ item.id)) =
          l.filter (fun a => decide (a.id ∉ (item :: rest).map (·.id))) := by
      intro l
      apply List.filter_congr
      intro a _
      simp only [List.map_cons, List.mem_cons, not_or, Bool.decide_and, ne_eq]
      exact Bool.and_comm _ _
    rw [hfilter]
    simp

/-- A closed endpoint has empty tables, and the clearing is in its trace. -/
@[simp] theorem close_eq :
    s.close =
      { items := [], queue := [], seen := [], incomingEnabled := false, outgoingEnabled := false,
        closed := true, trace := closing s.items ++ s.trace } := by
  simp only [close, clearItems_eq, Transfer.mk.injEq, and_true]
  rw [List.filter_eq_nil_iff]
  intro item hitem
  have : item.id ∈ s.items.map (·.id) := List.mem_map_of_mem hitem
  simpa using this

theorem mem_closing {items : List Item} (h : event ∈ closing items) :
    ∃ item ∈ items, event = .erased item.id ∨ ∃ d, item.destination = some d ∧ event = .aborted d := by
  induction items with
  | nil => cases h
  | cons item rest ih =>
    simp only [closing, List.mem_append, List.mem_singleton] at h
    rcases h with h | h | h
    · obtain ⟨other, hother, hevent⟩ := ih h
      exact ⟨other, List.mem_cons_of_mem _ hother, hevent⟩
    · simp only [aborts, List.mem_map, Option.mem_toList] at h
      obtain ⟨d, hd, rfl⟩ := h
      exact ⟨item, List.mem_cons_self, .inr ⟨d, hd, rfl⟩⟩
    · exact ⟨item, List.mem_cons_self, .inl h⟩

theorem aborted_mem_closing {items : List Item} {d : Nat} (h : item ∈ items)
    (hd : item.destination = some d) : .aborted d ∈ closing items := by
  induction items with
  | nil => cases h
  | cons first rest ih =>
    simp only [closing, List.mem_append]
    rcases List.mem_cons.mp h with rfl | h
    · right; left
      simp [aborts, hd]
    · exact .inl (ih h)

theorem closing_append (items rest : List Item) :
    closing (items ++ rest) = closing rest ++ closing items := by
  induction items with
  | nil => simp [closing]
  | cons item items ih => simp [closing, ih]

/-- Closing forgets an update that keeps the item's id and destination. -/
theorem close_put (hids : (s.items.map (·.id)).Nodup) (h : s.find item.id = some other)
    (hd : item.destination = other.destination) : (s.put item).close = s.close := by
  obtain ⟨before, after, hold, hnew⟩ := put_split hids h
  have hclosing : closing (s.put item).items = closing s.items := by
    rw [hold, hnew]
    simp [closing_append, closing, aborts, hd, id_of_find h]
  rw [close_eq, close_eq, hclosing]
  rfl

end HomeTunnel.Remote.Files.Transfer
