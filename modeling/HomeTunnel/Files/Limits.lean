import HomeTunnel.Files.Moves

/-! # The limits of an endpoint

`Limits` collects the bounds on the tables and `Handles` the bookkeeping of
destinations and drawn ids. Each move keeps both.
-/

namespace HomeTunnel.Remote.Files

open Transfer

/-- The bounds that the code checks in four places. -/
structure Limits (s : Transfer) : Prop where
  ids : (s.items.map (·.id)).Nodup
  count : s.items.length ≤ Protocol.batchFiles
  sizes : ∀ item ∈ s.items, item.size ≤ Protocol.fileBytes
  sum : (s.items.map (·.size)).sum ≤ Protocol.batchFileBytes
  active : s.active ≤ maxActive
  queue : s.queue.length ≤ maxQueue
  seen : s.seen.length ≤ maxSeen
  offsets : ∀ item ∈ s.items, item.offset ≤ item.size ∧ item.awaitingOffset ≤ item.size

/-- Every destination of an item was attached to it, handles are dated by the
trace, and an outgoing item enters the table once for each drawn id. -/
structure Handles (s : Transfer) : Prop where
  attached : ∀ item ∈ s.items, ∀ d, item.destination = some d → .attached item.id d ∈ s.trace
  dated : ∀ e ∈ s.trace, ∀ d, e.destination? = some d → d < s.trace.length
  drawn : ∀ id, s.trace.countP (·.entersOut id) ≤ s.trace.countP (·.draws id)

structure Sound (s : Transfer) : Prop where
  limits : Limits s
  handles : Handles s

variable {cb : Callbacks} {op : FileOp} {sending : Bool} {s t : Transfer} {item old : Item}

theorem Limits.sublist (h : Limits s) (hsub : t.items.Sublist s.items)
    (hqueue : t.queue.length ≤ maxQueue) (hseen : t.seen.length ≤ maxSeen) : Limits t := by
  refine ⟨?_, ?_, ?_, ?_, ?_, hqueue, hseen, ?_⟩
  · exact h.ids.sublist (hsub.map _)
  · exact hsub.length_le.trans h.count
  · exact fun item hitem => h.sizes item (hsub.subset hitem)
  · exact (hsub.map (·.size)).sum_le_sum (fun _ _ => Nat.zero_le _) |>.trans h.sum
  · exact hsub.countP_le.trans h.active
  · exact fun item hitem => h.offsets item (hsub.subset hitem)

theorem Limits.of_items (h : Limits s) (hitems : t.items = s.items)
    (hqueue : t.queue.length ≤ maxQueue) (hseen : t.seen.length ≤ maxSeen) : Limits t :=
  h.sublist (hitems ▸ .refl _) hqueue hseen

theorem Limits.note (h : Limits s) (event : FileEvent) : Limits (s.note event) :=
  h.of_items rfl h.queue h.seen

theorem limits_of_empty (hitems : t.items = []) (hqueue : t.queue = []) (hseen : t.seen = []) :
    Limits t := by
  constructor <;> simp [hitems, hqueue, hseen, active]

theorem Limits.discard (h : Limits s) (item : Item) : Limits (s.discard item) := by
  rw [discard_eq]
  exact h.sublist List.filter_sublist ((List.length_filter_le _ _).trans h.queue)
    (length_remember_seen h.seen)

theorem Limits.retire (h : Limits s) (item : Item) : Limits (s.retire item) := by
  rw [retire_eq]
  exact h.sublist List.filter_sublist h.queue (length_remember_seen h.seen)

/-- An update that keeps the size, moves within it and starts only where there is a place. -/
theorem Limits.put (h : Limits s) (hold : s.find item.id = some old) (hsize : item.size = old.size)
    (hoffset : item.offset ≤ item.size) (hawaiting : item.awaitingOffset ≤ item.size)
    (hrunning : item.running → old.running ∨ s.active < maxActive) : Limits (s.put item) := by
  obtain ⟨before, after, hitems, hput⟩ := put_split h.ids hold
  refine ⟨?_, ?_, ?_, ?_, ?_, h.queue, h.seen, ?_⟩
  · rw [put_ids]; exact h.ids
  · have := h.count
    rw [hitems] at this
    rw [hput]
    simpa using this
  · intro other hother
    rcases mem_put hother with rfl | ⟨hother, -⟩
    · rw [hsize]; exact h.sizes old (mem_of_find hold)
    · exact h.sizes other hother
  · have := h.sum
    rw [hitems] at this
    rw [hput]
    simpa [hsize] using this
  · have := h.active
    rw [Transfer.active, hitems, List.countP_append, List.countP_cons] at this hrunning
    rw [Transfer.active, hput, List.countP_append, List.countP_cons]
    by_cases hnew : item.running
    · rcases hrunning hnew with hrun | hlt
      · simpa [hnew, hrun] using this
      · simp only [hnew, if_true]
        omega
    · simp only [hnew]
      simp only [Bool.false_eq_true, if_false]
      omega
  · intro other hother
    rcases mem_put hother with rfl | ⟨hother, -⟩
    · exact ⟨hoffset, hawaiting⟩
    · exact h.offsets other hother

theorem Limits.touch (h : Limits s) (hold : s.find item.id = some old)
    (hrunning : item.running → old.running ∨ s.active < maxActive)
    (hsize : item.size = old.size := by rfl) (hoffset : item.offset = old.offset := by rfl)
    (hawaiting : item.awaitingOffset = old.awaitingOffset := by rfl) : Limits (s.put item) := by
  obtain ⟨hle, hle'⟩ := h.offsets old (mem_of_find hold)
  exact h.put hold hsize (by rwa [hoffset, hsize]) (by rwa [hawaiting, hsize]) hrunning

theorem Limits.insert (h : Limits s) (hfits : Fits s item) (hoffset : item.offset = 0)
    (hawaiting : item.awaitingOffset = 0) (hrunning : ¬ item.running) :
    Limits (s.insert item) := by
  have hperm := insert_items_perm hfits.fresh
  have hmem : ∀ other, other ∈ (s.insert item).items ↔ other = item ∨ other ∈ s.items := by
    intro other
    rw [hperm.mem_iff, List.mem_cons]
  refine ⟨?_, ?_, ?_, ?_, ?_, ?_, ?_, ?_⟩
  · rw [(hperm.map _).nodup_iff, List.map_cons, List.nodup_cons]
    refine ⟨?_, h.ids⟩
    rw [List.mem_map]
    rintro ⟨other, hother, heq⟩
    exact find_eq_none.mp hfits.fresh other hother heq
  · rw [hperm.length_eq, List.length_cons]
    exact hfits.count
  · intro other hother
    rcases (hmem other).mp hother with rfl | hother
    · exact hfits.size
    · exact h.sizes other hother
  · rw [(hperm.map _).sum_eq, List.map_cons, List.sum_cons, Nat.add_comm]
    exact hfits.sum
  · rw [Transfer.active, hperm.countP_eq, List.countP_cons, if_neg hrunning]
    exact h.active
  · rw [insert_eq hfits.fresh]; exact h.queue
  · rw [insert_eq hfits.fresh]; exact h.seen
  · intro other hother
    rcases (hmem other).mp hother with rfl | hother
    · simp [hoffset, hawaiting]
    · exact h.offsets other hother

theorem Limits.clearPending (h : Limits s) (message : FileMessage) :
    Limits (s.clearPending message) := by
  rcases clearPending_cases (s := s) message with heq | ⟨item, hfind, -, -, heq⟩
  · rw [heq]; exact h
  · rw [heq]
    rw [← id_of_find hfind] at hfind
    exact h.touch hfind .inl

theorem Move.limits (h : Move cb op sending s t) (hs : Limits s) : Limits t := by
  cases h with
  | mark event => exact hs.note event
  | subtract a b => exact hs.note _
  | close events | overflow => exact limits_of_empty (by simp) (by simp) (by simp)
  | enable outgoing value =>
    apply hs.of_items setEnabled_items
    · rw [setEnabled_queue]; exact hs.queue
    · rw [setEnabled_seen]; exact hs.seen
  | drop keep =>
    exact hs.of_items rfl ((List.length_filter_le _ _).trans hs.queue) hs.seen
  | discard item events =>
    apply Limits.discard
    exact hs.of_items rfl hs.queue hs.seen
  | queue message hroom =>
    refine hs.of_items rfl ?_ hs.seen
    rw [note_queue, List.length_append, List.length_singleton]
    exact hroom
  | pop message rest hqueue =>
    apply Limits.clearPending
    refine hs.of_items rfl ?_ hs.seen
    have := hs.queue
    rw [hqueue, List.length_cons] at this
    exact Nat.le_of_succ_le this
  | insertOut item uuid source path now hitem hname hdrawn hopened hfits =>
    refine hs.insert hfits ?_ ?_ ?_ <;> rw [hitem] <;> simp [sourceItem]
  | insertIn item now hin hop hitem hunseen hfits =>
    refine hs.insert hfits ?_ ?_ ?_ <;> rw [hitem] <;> simp [offeredItem]
  | offered item hitem | accepted item now hitem | sealed item digest finished hitem =>
    exact hs.touch hitem .inl
  | start item good hitem hout haccepted hnew hactive =>
    apply Limits.note
    exact hs.touch hitem fun _ => .inr hactive
  | sentChunk item bytes source now hitem hout haccepted hrunning hidle hsource hread hbytes hsize =>
    obtain ⟨hoffset, -⟩ := hs.offsets item (mem_of_find hitem)
    have hlast : item.offset + bytes.length ≤ item.size := by omega
    apply Limits.note
    exact Limits.put (hs.note _) hitem rfl hoffset hlast .inl
  | acked item now last hitem =>
    obtain ⟨-, hawaiting⟩ := hs.offsets item (mem_of_find hitem)
    exact hs.put hitem rfl hawaiting hawaiting .inl
  | completing item source now hitem =>
    exact Limits.touch ((hs.note _).note _) hitem .inl
  | finishOut item => exact hs.retire item
  | attach item d path now good hop hitem hin hnew hactive =>
    exact Limits.touch ((hs.note _).note _) hitem fun _ => .inr hactive
  | written item d bytes now last hop hitem hin hd hack hsize =>
    obtain ⟨-, hawaiting⟩ := hs.offsets item (mem_of_find hitem)
    exact Limits.put (((hs.note _).note _).note _) hitem rfl hsize hawaiting .inl
  | commit item d digest ok hop hitem =>
    apply Limits.note
    exact Limits.touch ((hs.note _).note _) hitem .inl
  | finishIn item name hitem => exact hs.retire _

/-- The event names destinations of these items only, and lets no outgoing item in. -/
structure FileEvent.Uses (items : List Item) (event : FileEvent) : Prop where
  used : ∀ d, event.destination? = some d → ∃ item ∈ items, item.destination = some d
  drawn : ∀ id, ¬ event.entersOut id

theorem FileEvent.Uses.nothing {items : List Item} {event : FileEvent}
    (hnone : event.destination? = none := by rfl)
    (hdrawn : ∀ id, event.entersOut id = false := by exact fun _ => rfl) : event.Uses items :=
  ⟨by simp [hnone], by simp [hdrawn]⟩

theorem FileEvent.Uses.of_quiet {items : List Item} {event : FileEvent} (h : event.quiet) :
    event.Uses items := by
  cases event <;> first | exact .nothing | cases h

/-- The trace grows by events that use destinations of live items only. -/
theorem Handles.grow (h : Handles s) (events : List FileEvent)
    (htrace : t.trace = events ++ s.trace)
    (hitems : ∀ item ∈ t.items, ∀ d, item.destination = some d →
      ∃ old ∈ s.items, old.id = item.id ∧ old.destination = some d)
    (hevents : ∀ e ∈ events, e.Uses s.items) : Handles t := by
  refine ⟨?_, ?_, ?_⟩
  · intro item hitem d hd
    obtain ⟨old, hold, hid, hdest⟩ := hitems item hitem d hd
    rw [htrace, ← hid]
    exact List.mem_append_right _ (h.attached old hold d hdest)
  · intro e he d hd
    have hlive : d < s.trace.length := by
      rcases List.mem_append.mp (htrace ▸ he) with he | he
      · obtain ⟨old, hold, hdest⟩ := (hevents e he).used d hd
        exact h.dated _ (h.attached old hold d hdest) d rfl
      · exact h.dated e he d hd
    rw [htrace, List.length_append]
    omega
  · intro id
    have hzero : events.countP (·.entersOut id) = 0 := by
      rw [List.countP_eq_zero]
      exact fun e he => (hevents e he).drawn id
    rw [htrace, List.countP_append, List.countP_append, hzero]
    have := h.drawn id
    omega

theorem Handles.note {event : FileEvent} (h : Handles s) (huses : event.Uses s.items) :
    Handles (s.note event) := by
  refine h.grow [event] rfl (fun item hitem d hd => ⟨item, hitem, rfl, hd⟩) ?_
  simpa using huses

theorem Handles.quiet {event : FileEvent} (h : Handles s) (hquiet : event.quiet) :
    Handles (s.note event) := h.note (.of_quiet hquiet)

theorem Handles.put (h : Handles s) (hold : s.find item.id = some old)
    (hd : item.destination = old.destination) : Handles (s.put item) := by
  refine h.grow (t := s.put item) [] rfl ?_ (by simp)
  intro other hother d hdest
  rcases mem_put hother with rfl | ⟨hother, -⟩
  · exact ⟨old, mem_of_find hold, id_of_find hold, hd ▸ hdest⟩
  · exact ⟨other, hother, rfl, hdest⟩

theorem Handles.leave (h : Handles s) (events : List FileEvent)
    (hevents : ∀ e ∈ events, e.Uses s.items) {keep : Item → Bool}
    (hitems : t.items = s.items.filter keep)
    (htrace : t.trace = aborts item ++ .erased item.id :: (events ++ s.trace)) : Handles t := by
  refine h.grow (aborts item ++ .erased item.id :: events) (by simp [htrace]) ?_ ?_
  · intro other hother d hd
    rw [hitems] at hother
    exact ⟨other, List.mem_of_mem_filter hother, rfl, hd⟩
  · intro e he
    rcases List.mem_append.mp he with he | he
    · obtain ⟨_, rfl⟩ := mem_aborts he
      exact .nothing
    · rcases List.mem_cons.mp he with rfl | he
      · exact .nothing
      · exact hevents e he

theorem Handles.retire (h : Handles s) (item : Item) : Handles (s.retire item) := by
  rw [retire_eq]
  refine h.leave [.notice (completeNotice item)] (fun e he => ?_) rfl rfl
  rw [List.mem_singleton.mp he]
  exact .nothing

theorem Handles.close (h : Handles s) (events : List FileEvent)
    (hevents : ∀ e ∈ events, e.Uses s.items) :
    Handles { s with trace := events ++ s.trace }.close := by
  refine h.grow (closing s.items ++ events) (by simp) (by simp) fun e he => ?_
  rcases List.mem_append.mp he with he | he
  · obtain ⟨_, _, rfl | ⟨_, _, rfl⟩⟩ := mem_closing he <;> exact .nothing
  · exact hevents e he

theorem Handles.insert (h : Handles s) (hnew : s.find item.id = none)
    (hd : item.destination = none)
    (hdrawn : item.outgoing →
      s.trace.countP (·.entersOut item.id) < s.trace.countP (·.draws item.id)) :
    Handles (s.insert item) := by
  have hperm := insert_items_perm hnew
  have htrace : (s.insert item).trace = .inserted item.id item.outgoing :: s.trace := by
    rw [insert_eq hnew]; rfl
  refine ⟨?_, ?_, ?_⟩
  · intro other hother d hdest
    rw [hperm.mem_iff, List.mem_cons] at hother
    rcases hother with rfl | hother
    · rw [hd] at hdest
      cases hdest
    · rw [htrace]
      exact List.mem_cons_of_mem _ (h.attached other hother d hdest)
  · intro e he d hdest
    rw [htrace, List.mem_cons] at he
    rw [htrace, List.length_cons]
    rcases he with rfl | he
    · cases hdest
    · exact Nat.lt_succ_of_lt (h.dated e he d hdest)
  · intro id
    rw [htrace, List.countP_cons, List.countP_cons]
    have hle := h.drawn id
    have hdraws : (FileEvent.inserted item.id item.outgoing).draws id = false := rfl
    rw [hdraws]
    by_cases henters : (FileEvent.inserted item.id item.outgoing).entersOut id
    · rw [if_pos henters]
      simp only [FileEvent.entersOut, Bool.and_eq_true, beq_iff_eq] at henters
      obtain ⟨hout, rfl⟩ := henters
      exact hdrawn hout
    · rw [if_neg henters]
      simpa using hle

theorem Handles.clearPending (h : Handles s) (message : FileMessage) :
    Handles (s.clearPending message) := by
  rcases clearPending_cases (s := s) message with heq | ⟨item, hfind, -, -, heq⟩
  · rw [heq]; exact h
  · rw [heq]
    rw [← id_of_find hfind] at hfind
    exact h.put hfind rfl

theorem Move.handles (h : Move cb op sending s t) (hs : Handles s) : Handles t := by
  cases h with
  | mark event hquiet => exact hs.quiet hquiet
  | subtract a b => exact hs.note .nothing
  | close events hevents hwrote =>
    refine hs.close events fun e he => ?_
    rcases hevents e he with hquiet | ⟨d, o, b, ok, rfl⟩ | ⟨type, payload, rfl⟩
    · exact .of_quiet hquiet
    · refine ⟨fun d' hd' => ?_, by simp [FileEvent.entersOut]⟩
      cases hd'
      exact hwrote d o b ok he
    · exact .nothing
  | overflow => exact hs.close [.overflowed] (by simpa using .nothing)
  | enable outgoing value =>
    refine hs.grow [.enabled outgoing value] setEnabled_trace ?_ (by simpa using .nothing)
    rw [setEnabled_items]
    exact fun item hitem d hd => ⟨item, hitem, rfl, hd⟩
  | drop keep => exact ⟨hs.attached, hs.dated, hs.drawn⟩
  | discard item events hitem hevents =>
    rw [discard_eq]
    refine hs.leave events (fun e he => ?_) rfl rfl
    rcases hevents e he with hquiet | ⟨d, o, b, ok, hdest, rfl⟩
    · exact .of_quiet hquiet
    · refine ⟨fun d' hd' => ?_, by simp [FileEvent.entersOut]⟩
      cases hd'
      exact ⟨item, mem_of_find hitem, hdest⟩
  | queue message => exact Handles.note ⟨hs.attached, hs.dated, hs.drawn⟩ .nothing
  | pop message rest =>
    apply Handles.clearPending
    exact Handles.note ⟨hs.attached, hs.dated, hs.drawn⟩ .nothing
  | insertOut item uuid source path now hitem hname hdrawn hopened hfits =>
    exact hs.insert hfits.fresh (by rw [hitem]; rfl) fun _ => hdrawn
  | insertIn item now hin hop hitem hunseen hfits =>
    exact hs.insert hfits.fresh (by rw [hitem]; rfl) fun hout => by rw [hitem] at hout; cases hout
  | offered item hitem | accepted item now hitem | acked item now last hitem
    | sealed item digest finished hitem => exact hs.put hitem rfl
  | start item good hitem =>
    exact Handles.quiet (hs.put hitem rfl) rfl
  | sentChunk item bytes source now hitem =>
    exact Handles.note (Handles.put (hs.quiet rfl) hitem rfl) .nothing
  | completing item source now hitem =>
    exact Handles.put ((hs.quiet rfl).quiet rfl) hitem rfl
  | finishOut item => exact hs.retire item
  | attach item d path now good hop hitem hin hnew hactive hd hfresh =>
    refine ⟨?_, ?_, ?_⟩
    · intro other hother d' hd'
      rcases mem_put hother with rfl | ⟨hother, -⟩
      · cases hd'
        simp [Item.attachTo]
      · simpa using .inr (hs.attached other hother d' hd')
    · intro e he d' hd'
      simp only [put_trace, note_trace, List.mem_cons] at he
      simp only [put_trace, note_trace, List.length_cons]
      rcases he with rfl | rfl | he
      · cases hd'
      · cases hd'
        omega
      · have := hs.dated e he d' hd'
        omega
    · intro id
      have := hs.drawn id
      simpa [FileEvent.entersOut, FileEvent.draws, List.countP_cons] using this
  | written item d bytes now last hop hitem hin hd =>
    have hwrote : Handles (s.note (.wrote d item.offset bytes true)) := by
      refine hs.note ⟨fun d' hd' => ?_, by simp [FileEvent.entersOut]⟩
      cases hd'
      exact ⟨item, mem_of_find hitem, hd⟩
    exact Handles.put ((hwrote.quiet rfl).quiet rfl) hitem rfl
  | commit item d digest ok hop hitem hin hallowed hd =>
    refine Handles.note (Handles.put ((hs.quiet rfl).quiet rfl) hitem rfl)
      ⟨fun d' hd' => ?_, by simp [FileEvent.entersOut]⟩
    cases hd'
    exact ⟨_, mem_put_self hitem, hd⟩
  | finishIn item name => exact hs.retire _

theorem Move.sound (h : Move cb op sending s t) (hs : Sound s) : Sound t :=
  ⟨h.limits hs.limits, h.handles hs.handles⟩

theorem Moves.sound (h : Moves cb op sending s t) (hs : Sound s) : Sound t :=
  h.keeps (fun _ _ hs hmove => hmove.sound hs) hs

end HomeTunnel.Remote.Files
