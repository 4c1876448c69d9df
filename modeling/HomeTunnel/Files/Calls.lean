import HomeTunnel.Files.Limits

/-! # Operations as moves

Each operation of the endpoint, from a sound state, is a sequence of moves.
Inside the sending loop the queue has room, so nothing there overflows; that is
the one place where `sending` is true.
-/

namespace HomeTunnel.Remote.Files

open Transfer Relation Trace

variable {cb : Callbacks} {op : FileOp} {sending : Bool} {s t : Transfer} {item : Item}

theorem Move.single (h : Move cb op sending s t) : Moves cb op sending s t := ReflTransGen.single h

/-- Either the sending loop has not begun or the queue has room. -/
def Roomy (sending : Bool) (s : Transfer) : Prop := sending = false ∨ s.queue.length < maxQueue

theorem live_closed (h : s.closed = true) : s.live cb = (false, s) := by simp [live, h]

theorem live_open (cb : Callbacks) (h : s.closed = false) :
    s.live cb = (true, s.note (.current true)) ∨
      s.live cb = (false, (s.note (.current false)).close) := by
  unfold live
  rw [if_neg (by simp [h])]
  dsimp only
  cases hcurrent : cb.current s.trace
  · right; simp
  · left; simp

theorem close_moves (event : FileEvent) (hquiet : event.quiet) :
    Moves cb op sending s (s.note event).close := by
  refine (Move.close [event] ?_ ?_).single
  · intro e he
    rw [List.mem_singleton.mp he]
    exact .inl hquiet
  · intro d o b ok he
    rw [← List.mem_singleton.mp he] at hquiet
    cases hquiet

theorem mark_moves (event : FileEvent) (hquiet : event.quiet) :
    Moves cb op sending s (s.note event) := (Move.mark event hquiet).single

theorem emit_moves {state : String} (hstate : state ≠ "complete") (error : String) (saved : Bool) :
    Moves cb op sending s (s.emit item state error saved) := by
  apply mark_moves
  simpa [FileEvent.quiet] using hstate

/-- The test passes and is recorded, or the operation ends with it. -/
@[elab_as_elim]
theorem live_elim {motive : Bool × Transfer → Prop} (cb : Callbacks) (op : FileOp)
    (sending : Bool) (s : Transfer)
    (gone : ∀ t, Moves cb op sending s t → t.queue.length ≤ s.queue.length → motive (false, t))
    (live : s.closed = false → motive (true, s.note (.current true))) : motive (s.live cb) := by
  cases hclosed : s.closed with
  | true =>
    rw [live_closed hclosed]
    exact gone s .refl le_rfl
  | false =>
    rcases live_open cb hclosed with hlive | hlive
    · rw [hlive]
      exact live hclosed
    · rw [hlive]
      exact gone _ (close_moves _ rfl) (by simp)

theorem guarded {c : Prop} [Decidable c] {answer : Bool} {rest : Bool × Transfer}
    (h : ¬ c → Moves cb op sending s rest.2) :
    Moves cb op sending s (if c then (answer, s) else rest).2 := by
  split
  · exact .refl
  · next hc => exact h hc

/-! ## Queueing and cancelling -/

theorem enqueue_full (message : FileMessage) (h : s.queue.length ≥ maxQueue) :
    s.enqueue message = (false, (s.note .overflowed).close) := if_pos h

theorem enqueue_room (message : FileMessage) (h : ¬ s.queue.length ≥ maxQueue) :
    s.enqueue message =
      (true, { s with queue := s.queue ++ [message] }.note (.queued message)) := if_neg h

theorem enqueue_moves {message : FileMessage} (hwhy : Queueable s message)
    (hroom : Roomy sending s) : Moves cb op sending s (s.enqueue message).2 := by
  by_cases hfull : s.queue.length ≥ maxQueue
  · rw [enqueue_full message hfull]
    rcases hroom with hsending | hroom
    · exact (Move.overflow hsending).single
    · omega
  · rw [enqueue_room message hfull]
    exact (Move.queue message (by omega) hwhy).single

theorem abort_moves : Moves cb op sending s (s.abort item) := by
  unfold abort
  cases item.destination with
  | none => exact .refl
  | some d => exact mark_moves (.aborted d) rfl

theorem Roomy.discard {events : List FileEvent} (h : Roomy sending s) :
    Roomy sending ({ s with trace := events ++ s.trace }.discard item) := by
  rcases h with h | h
  · exact .inl h
  · right
    rw [discard_eq]
    exact (List.length_filter_le _ _).trans_lt h

/-- A cancellation, after events about the cancelled item itself. -/
theorem cancel_after (hitem : s.find item.id = some item) (events : List FileEvent)
    (hevents : ∀ e ∈ events, e.quiet ∨
      ∃ d o b ok, item.destination = some d ∧ e = .wrote d o b ok)
    (notify : Bool) (error : String) (saved : Bool) (hroom : Roomy sending s) :
    Moves cb op sending s
      ({ s with trace := events ++ s.trace }.cancel item.id notify error saved).2 := by
  have hfind : { s with trace := events ++ s.trace }.find item.id = some item := hitem
  unfold cancel
  rw [hfind]
  dsimp only
  refine .trans (Move.discard item events hitem hevents).single ?_
  generalize hu : { s with trace := events ++ s.trace }.discard item = u
  have hroomy : Roomy sending u := hu ▸ hroom.discard
  refine .trans ?_ (.trans (mark_moves _ ?_) abort_moves)
  · split
    · exact enqueue_moves trivial hroomy
    · exact .refl
  · by_cases herror : error = "RD_FILE_CANCELLED" <;> simp [FileEvent.quiet, herror]

theorem cancel_moves (id : String) (notify : Bool) (error : String) (saved : Bool)
    (hroom : Roomy sending s) : Moves cb op sending s (s.cancel id notify error saved).2 := by
  cases hfind : s.find id with
  | none => rw [cancel, hfind]
  | some item =>
    have hid := id_of_find hfind
    rw [← hid] at hfind ⊢
    exact cancel_after hfind [] (by simp) notify error saved hroom

theorem cancelAll_moves (notify : Bool) (error : String) (ids : List String) (s : Transfer) :
    Moves cb op false s (cancelAll notify error ids s) := by
  induction ids generalizing s with
  | nil => exact .refl
  | cons id rest ih => exact .trans (cancel_moves id notify error false (.inl rfl)) (ih _)

theorem enableDirection_moves (outgoing value : Bool) :
    Moves cb op false s (s.enableDirection outgoing value) := by
  unfold enableDirection
  refine .trans (Move.enable outgoing value).single ?_
  dsimp only
  cases value with
  | true => exact .refl
  | false =>
    refine .trans (Move.drop fun message => ¬ dropsMessage outgoing message).single ?_
    exact cancelAll_moves _ _ _ _

theorem enable_moves (permission : String) (value : Bool) :
    Moves cb op false s (s.enable cb permission value).2 := by
  unfold enable
  refine live_elim cb op false s (fun _ hmoves _ => hmoves) fun _ => ?_
  refine .trans (mark_moves (.current true) rfl) ?_
  dsimp only
  split
  · exact enableDirection_moves _ _
  · split
    · exact enableDirection_moves _ _
    · exact .refl

theorem sub64_of_le {a b : Nat} (hle : b ≤ a) (ha : a < 2 ^ 64) : sub64 a b = a - b := by
  unfold sub64
  omega

theorem add64_of_lt {a b : Nat} (h : a + b < 2 ^ 64) : add64 a b = a + b := Nat.mod_eq_of_lt h

theorem batchFileBytes_lt : Protocol.batchFileBytes < 2 ^ 64 := by decide

theorem total_eq (hs : Limits s) : s.total = (s.items.map (·.size)).sum := by
  have hfold : ∀ (items : List Item) (size : Nat),
      size + (items.map (·.size)).sum < 2 ^ 64 →
        items.foldl (fun size item => add64 size item.size) size =
          size + (items.map (·.size)).sum := by
    intro items
    induction items with
    | nil => simp
    | cons item rest ih =>
      intro size hlt
      rw [List.map_cons, List.sum_cons] at hlt ⊢
      rw [List.foldl_cons, add64_of_lt (by omega), ih _ (by omega)]
      omega
  have hlt := hs.sum.trans_lt batchFileBytes_lt
  rw [total, hfold s.items 0 (by omega), Nat.zero_add]

/-- An item that the opening loop made. -/
structure Prepared (s : Transfer) (item : Item) : Prop where
  made : ∃ uuid source path now, item = sourceItem uuid item.name item.size source now ∧
    .opened source path (some item.size) ∈ s.trace
  name : fileNameAllowed item.name
  size : item.size ≤ Protocol.fileBytes

theorem Prepared.mono (h : Prepared s item) (hsub : ∀ e ∈ s.trace, e ∈ t.trace) :
    Prepared t item := by
  obtain ⟨⟨uuid, source, path, now, hitem, hopened⟩, hname, hsize⟩ := h
  exact ⟨⟨uuid, source, path, now, hitem, hsub _ hopened⟩, hname, hsize⟩

/-- What the opening loop leaves for the inserting one, from the state `s` on. -/
structure Ready (s t : Transfer) (added : List Item) : Prop where
  items : t.items = s.items
  trace : ∀ e ∈ s.trace, e ∈ t.trace
  prepared : ∀ item ∈ added, Prepared t item
  enters : ∀ id, t.trace.countP (·.entersOut id) = s.trace.countP (·.entersOut id)
  draws : ∀ id, t.trace.countP (·.draws id) =
    s.trace.countP (·.draws id) + added.countP (·.id == id)

theorem Ready.refl (s : Transfer) : Ready s s [] := by
  constructor <;> simp

theorem Ready.cons {u : Transfer} {added : List Item} (h : Ready u t added)
    (hone : Ready s u [item]) : Ready s t (item :: added) := by
  refine ⟨h.items.trans hone.items, fun e he => h.trace e (hone.trace e he), ?_, ?_, ?_⟩
  · intro other hother
    rcases List.mem_cons.mp hother with rfl | hother
    · exact (hone.prepared other List.mem_cons_self).mono h.trace
    · exact h.prepared other hother
  · exact fun id => (h.enters id).trans (hone.enters id)
  · intro id
    rw [h.draws id, hone.draws id, Nat.add_assoc, ← List.countP_append, List.singleton_append]

theorem prepare_spec (now : UInt64) (paths : List String) (batch : Nat) (prepared : List Item)
    (s : Transfer) (hbatch : batch ≤ Protocol.batchFileBytes) :
    Moves cb op sending s (prepare cb now paths batch prepared s).2 ∧
      ∀ all, (prepare cb now paths batch prepared s).1 = some all →
        ∃ added, all = prepared ++ added ∧ added.length = paths.length ∧
          batch + (added.map (·.size)).sum ≤ Protocol.batchFileBytes ∧
          Ready s (prepare cb now paths batch prepared s).2 added := by
  induction paths generalizing batch prepared s with
  | nil =>
    refine ⟨.refl, ?_⟩
    rintro all hall
    cases hall
    exact ⟨[], by simp, rfl, by simpa using hbatch, Ready.refl s⟩
  | cons path rest ih =>
    unfold prepare
    dsimp only
    generalize hanswer : cb.openSource s.trace path = answer
    generalize hopened :
      FileEvent.opened s.trace.length path (answer.toOption.map (·.2.toNat)) = opened
    have hquiet : opened.quiet := hopened ▸ rfl
    have hstart : Moves cb op sending s (s.note opened) := mark_moves opened hquiet
    refine live_elim cb op sending (s.note opened)
      (fun t hmoves _ => ⟨.trans hstart hmoves, by simp⟩) fun _ => ?_
    dsimp only
    have hlived := hstart.trans (mark_moves (.current true) rfl)
    generalize hu : (s.note opened).note (.current true) = u at hlived
    cases answer with
    | error error => exact ⟨hlived.trans (mark_moves _ rfl), by simp⟩
    | ok answer =>
      obtain ⟨name, bytes⟩ := answer
      dsimp only
      by_cases hname : ¬ fileNameAllowed name ∨ bytes.toNat > Protocol.fileBytes
      · rw [if_pos hname]
        exact ⟨hlived.trans (mark_moves _ rfl), by simp⟩
      rw [if_neg hname]
      push Not at hname
      have hsub := hlived.trans (Move.subtract Protocol.batchFileBytes batch hbatch).single
      simp only [subtract, sub64_of_le hbatch batchFileBytes_lt]
      by_cases hsize : bytes.toNat > Protocol.batchFileBytes - batch
      · rw [if_pos hsize]
        exact ⟨hsub.trans (mark_moves _ rfl), by simp⟩
      rw [if_neg hsize]
      generalize hdrawn : Option.map _ (cb.newId _) = drawn
      have hdraw := hsub.trans (mark_moves (.generated drawn) rfl)
      cases drawn with
      | none => exact ⟨hdraw.trans (mark_moves _ rfl), by simp⟩
      | some uuid =>
        dsimp only
        split
        · exact ⟨hdraw.trans (mark_moves _ rfl), by simp⟩
        have hsum : batch + bytes.toNat ≤ Protocol.batchFileBytes := by omega
        rw [add64_of_lt (hsum.trans_lt batchFileBytes_lt)]
        obtain ⟨hrest, hall⟩ := ih (batch + bytes.toNat)
          (prepared ++ [sourceItem uuid name bytes.toNat s.trace.length now])
          ((u.note (.subtracted Protocol.batchFileBytes batch)).note (.generated (some uuid)))
          hsum
        refine ⟨hdraw.trans hrest, ?_⟩
        intro all hsome
        obtain ⟨added, rfl, hlength, hbound, hready⟩ := hall all hsome
        refine ⟨sourceItem uuid name bytes.toNat s.trace.length now :: added, by simp,
          by simp [hlength], ?_, hready.cons ?_⟩
        · simp only [List.map_cons, List.sum_cons, sourceItem]
          omega
        · subst hu hopened
          refine ⟨rfl, ?_, ?_, ?_, ?_⟩
          · intro e he
            simp [he]
          · intro item hitem
            rw [List.mem_singleton.mp hitem]
            exact ⟨⟨uuid, s.trace.length, path, now, rfl, by simp [sourceItem, Except.toOption]⟩,
              hname.1, hname.2⟩
          · intro id
            simp [FileEvent.entersOut]
          · intro id
            simp [List.countP_cons, FileEvent.draws, sourceItem]

/-- The tables have room for the prepared items, each with a draw of its own. -/
structure Pending (s : Transfer) (added : List Item) : Prop where
  prepared : ∀ item ∈ added, Prepared s item
  count : s.items.length + added.length ≤ Protocol.batchFiles
  sum : (s.items.map (·.size)).sum + (added.map (·.size)).sum ≤ Protocol.batchFileBytes
  drawn : ∀ id, s.trace.countP (·.entersOut id) + added.countP (·.id == id) ≤
    s.trace.countP (·.draws id)

theorem Pending.emit {added : List Item} (h : Pending s added) (item : Item)
    (state error : String) (saved : Bool) :
    Pending (s.emit item state error saved) added := by
  refine ⟨?_, h.count, h.sum, ?_⟩
  · exact fun other hother => (h.prepared other hother).mono fun e he => List.mem_cons_of_mem _ he
  · intro id
    simpa [Transfer.emit, FileEvent.entersOut, FileEvent.draws] using h.drawn id

theorem Pending.insert {rest : List Item} (h : Pending s (item :: rest)) :
    Moves cb op sending s (s.insert item) ∧ Pending (s.insert item) rest := by
  obtain ⟨hprepared, hcount, hsum, hdrawn⟩ := h
  have hrest : ∀ other ∈ rest, Prepared s other :=
    fun other hother => hprepared other (List.mem_cons_of_mem _ hother)
  simp only [List.length_cons, List.map_cons, List.sum_cons, List.countP_cons] at hcount hsum hdrawn
  cases hfind : s.find item.id with
  | some other =>
    have hsame : s.insert item = s := by simp [Transfer.insert, hfind]
    rw [hsame]
    refine ⟨.refl, hrest, by omega, by omega, fun id => ?_⟩
    have := hdrawn id
    omega
  | none =>
    have hperm := insert_items_perm hfind
    have htrace : (s.insert item).trace = .inserted item.id item.outgoing :: s.trace := by
      rw [insert_eq hfind]; rfl
    obtain ⟨⟨uuid, source, path, now, hmade, hopened⟩, hname, hsize⟩ :=
      hprepared item List.mem_cons_self
    constructor
    · refine (Move.insertOut item uuid source path now hmade hname ?_ hopened ?_).single
      · have := hdrawn item.id
        simp only [beq_self_eq_true, if_true] at this
        omega
      · exact ⟨hfind, by omega, hsize, by omega⟩
    · refine ⟨?_, ?_, ?_, ?_⟩
      · intro other hother
        apply (hrest other hother).mono
        intro e he
        rw [htrace]
        exact List.mem_cons_of_mem _ he
      · rw [hperm.length_eq, List.length_cons]
        omega
      · rw [(hperm.map _).sum_eq, List.map_cons, List.sum_cons]
        omega
      · intro id
        have := hdrawn id
        have hout : item.outgoing = true := by rw [hmade]; rfl
        rw [htrace, List.countP_cons, List.countP_cons]
        simp only [FileEvent.entersOut, FileEvent.draws, hout, Bool.true_and] at this ⊢
        simp only [Bool.false_eq_true, if_false]
        omega

theorem addPrepared_moves (prepared : List Item) (s : Transfer) (h : Pending s prepared) :
    Moves cb op sending s (addPrepared prepared s) := by
  induction prepared generalizing s with
  | nil => exact .refl
  | cons item rest ih =>
    unfold addPrepared
    obtain ⟨hmoves, hrest⟩ : Moves cb op sending _ _ ∧ Pending _ rest :=
      (h.emit item "offer" "" false).insert
    exact .trans (emit_moves (by decide) "" false) (.trans hmoves (ih _ hrest))

theorem approve_moves (id path : String) (now : UInt64) (hs : Sound s)
    (hop : op = .approveDestination id path now) :
    Moves cb op false s (s.approve cb id path now).2 := by
  unfold approve
  refine live_elim cb op false s (fun _ hmoves _ => hmoves) fun _ => ?_
  have hcurrent : Moves cb op false s (s.note (.current true)) := mark_moves _ rfl
  have hu := hcurrent.sound hs
  refine .trans hcurrent ?_
  generalize s.note (.current true) = u at hu
  refine guarded fun _ => ?_
  cases hfind : u.find id with
  | none => exact .refl
  | some item =>
    have hid := id_of_find hfind
    subst hid
    refine guarded fun hguard => ?_
    push Not at hguard
    obtain ⟨hin, hnew, -, hactive⟩ := hguard
    dsimp only
    generalize cb.createDestination u.trace path item.size = answer
    generalize hv : u.note (.created u.trace.length path answer.toBool) = v
    have hcreated : Moves cb op false u v := hv ▸ mark_moves _ rfl
    refine .trans hcreated ?_
    refine live_elim cb op false v (fun _ hmoves _ => hmoves) fun _ => ?_
    refine .trans (mark_moves (.current true) rfl) ?_
    cases answer with
    | error error => exact cancel_moves _ _ _ _ (.inl rfl)
    | ok answer =>
      simp only [newHash]
      -- the handle is the length of the trace before the destination was made
      have hfresh : ∀ e ∈ (v.note (.current true)).trace, ∀ d, e.destination? = some d →
          d < u.trace.length := by
        intro e he d hd
        simp only [← hv, note_trace, List.mem_cons] at he
        rcases he with rfl | rfl | he
        · cases hd
        · cases hd
        · exact hu.handles.dated e he d hd
      have hdated : u.trace.length < (v.note (.current true)).trace.length := by
        simp only [← hv, note_trace, List.length_cons]
        omega
      have hfind : (v.note (.current true)).find item.id = some item := hv ▸ hfind
      have hactive : (v.note (.current true)).active < maxActive := hv ▸ hactive
      generalize v.note (.current true) = w at hfresh hdated hfind hactive
      generalize cb.hash (w.note (.attached item.id u.trace.length)).trace .init = good
      refine .trans (Move.attach item u.trace.length path now good hop hfind (by simpa using hin)
        (by simpa using hnew) hactive hdated hfresh).single ?_
      exact enqueue_moves ⟨_, mem_put_self hfind, rfl, hin, rfl, rfl⟩ (.inl rfl)

theorem update_cases (cb : Callbacks) (hash : Hash) (bytes : Bytes) (s : Transfer) :
    (∃ other u, hash.update cb bytes s = (false, other, u) ∧
      (u = s ∨ u = s.note (.hashed .update false))) ∨
      ((hash.good ∧ ¬ hash.finished) ∧
        hash.update cb bytes s = (true, hash.fed bytes, s.note (.hashed .update true))) := by
  unfold Hash.update
  by_cases hbad : ¬ hash.good ∨ hash.finished
  · rw [if_pos hbad]
    exact .inl ⟨hash, s, rfl, .inl rfl⟩
  · rw [if_neg hbad]
    push Not at hbad
    dsimp only
    cases hok : cb.hash s.trace .update with
    | false => exact .inl ⟨_, _, rfl, .inr rfl⟩
    | true =>
      refine .inr ⟨by simpa using hbad, ?_⟩
      simp [Hash.fed, hbad.1]

theorem finish_cases (cb : Callbacks) (hash : Hash) (s : Transfer) :
    (∃ finished u, hash.finish cb s = ("", hash.marked finished, u) ∧
      (hash.finished → finished) ∧ (u = s ∨ u = s.note (.hashed .final false))) ∨
      ((hash.good ∧ ¬ hash.finished) ∧
        hash.finish cb s =
          (hex (cb.sha256 hash.data), hash.marked true, s.note (.hashed .final true))) := by
  unfold Hash.finish
  by_cases hbad : ¬ hash.good ∨ hash.finished
  · rw [if_pos hbad]
    exact .inl ⟨hash.finished, s, rfl, id, .inl rfl⟩
  · rw [if_neg hbad]
    push Not at hbad
    dsimp only
    cases hok : cb.hash s.trace .final with
    | false => exact .inl ⟨true, _, by simp [Hash.marked], by simp, .inr rfl⟩
    | true => exact .inr ⟨by simpa using hbad, by simp [Hash.marked]⟩

theorem receiveOffer_moves (id name : String) (size : Nat) (now : UInt64) (hs : Sound s)
    (hop : Delivers cb op (.offer id name size)) :
    Moves cb op sending s (s.receiveOffer id name size now).2 := by
  unfold receiveOffer
  refine guarded fun _ => guarded fun hallowed => guarded fun hknown => guarded fun hcount => ?_
  push Not at hallowed hknown hcount
  have hsum : s.total ≤ Protocol.batchFileBytes := total_eq hs.limits ▸ hs.limits.sum
  simp only [subtract, sub64_of_le hsum batchFileBytes_lt]
  have hroom : ¬ size > Protocol.batchFileBytes - s.total →
      (s.items.map (·.size)).sum + size ≤ Protocol.batchFileBytes := by
    have := total_eq hs.limits
    omega
  have hfresh : s.find id = none := by simpa using hknown.1
  refine .trans (Move.subtract _ _ hsum).single ?_
  split
  · exact .refl
  rename_i hleft
  have hfile : size ≤ Protocol.fileBytes := by
    obtain ⟨type, payload, now', -, hdecode⟩ := hop
    exact decode_offer_size hdecode
  have hfits : Fits (s.note (.subtracted Protocol.batchFileBytes s.total))
      (offeredItem id name size now) := ⟨hfresh, hcount, hfile, hroom hleft⟩
  refine .trans ?_ (emit_moves (by decide) "" false)
  have hallowed : (s.note (.subtracted Protocol.batchFileBytes s.total)).incomingEnabled := hallowed
  exact (Move.insertIn (offeredItem id name size now) now hallowed hop rfl hknown.2 hfits).single

/-- Storing an item with its progress, after the move that stores it. -/
theorem progress_moves (now : UInt64)
    (hmove : ∀ last, Moves cb op sending t (s.put { item with lastProgress := last })) :
    Moves cb op sending t (s.progress item now) := by
  unfold progress
  split
  · exact (hmove now).trans (emit_moves (by decide) "" false)
  · exact hmove item.lastProgress

theorem ackOffset_queueable {old : Item} {now : UInt64} (hold : s.find item.id = some old)
    (hin : ¬ item.outgoing) (hack : item.pendingAck) :
    Queueable (s.progress item now) (.ackOffset item.id item.offset) := by
  unfold progress
  split
  · exact ⟨_, mem_put_self hold, rfl, hin, hack, rfl⟩
  · exact ⟨_, mem_put_self hold, rfl, hin, hack, rfl⟩

theorem writeChunk_moves (d offset : Nat) (bytes : Bytes) (now : UInt64) (hs : Sound s)
    (hopen : s.closed = false) (hitem : s.find item.id = some item)
    (hd : item.destination = some d) (hop : Delivers cb op (.chunk item.id offset bytes)) :
    Moves cb op false s (s.writeChunk cb item d offset bytes now).2 := by
  unfold writeChunk
  refine guarded fun hguard => ?_
  push Not at hguard
  obtain ⟨hin, -, hack, rfl⟩ := hguard
  have hle := (hs.limits.offsets item (mem_of_find hitem)).1
  have hword : item.size < 2 ^ 64 :=
    (hs.limits.sizes item (mem_of_find hitem)).trans_lt (by decide)
  simp only [subtract, sub64_of_le hle hword]
  refine .trans (Move.subtract _ _ hle).single ?_
  have hitem : (s.note (.subtracted item.size item.offset)).find item.id = some item := hitem
  have hopen : (s.note (.subtracted item.size item.offset)).closed = false := hopen
  generalize s.note (.subtracted item.size item.offset) = u at hitem hopen
  split
  · exact .refl
  rename_i hleft
  split
  · exact cancel_moves _ _ _ _ (.inl rfl)
  generalize cb.write u.trace d item.offset bytes = ok
  -- from here on the write is in the trace, so the item moves on or is given up
  cases ok with
  | false =>
    refine cancel_after hitem [.wrote d item.offset bytes false] ?_ _ _ _ (.inl rfl)
    simp [hd]
  | true =>
    simp only [not_true_eq_false, if_false]
    have hwopen : (u.note (.wrote d item.offset bytes true)).closed = false := hopen
    rcases live_open cb hwopen with hlive | hlive
    swap
    · rw [hlive]
      refine (Move.close [.current false, .wrote d item.offset bytes true] ?_ ?_).single
      · simp [FileEvent.quiet]
      · intro d' o b ok he
        have : d' = d := by simp at he; exact he.1
        exact ⟨item, mem_of_find hitem, this ▸ hd⟩
    rw [hlive, show item.hash.getD {} = item.digesting from rfl]
    dsimp only
    rcases update_cases cb item.digesting bytes
      ((u.note (.wrote d item.offset bytes true)).note (.current true)) with
      ⟨other, v, heq, rfl | rfl⟩ | ⟨hgood, heq⟩
    · rw [heq]
      simp only [Bool.false_eq_true, not_false_eq_true, if_true]
      refine cancel_after hitem [.current true, .wrote d item.offset bytes true] ?_ _ _ _
        (.inl rfl)
      simp [hd, FileEvent.quiet]
    · rw [heq]
      simp only [Bool.false_eq_true, not_false_eq_true, if_true]
      refine cancel_after hitem
        [.hashed .update false, .current true, .wrote d item.offset bytes true] ?_ _ _ _
        (.inl rfl)
      simp [hd, FileEvent.quiet]
    · rw [heq]
      simp only [not_true_eq_false, if_false]
      have hend : item.offset + bytes.length ≤ item.size := by omega
      rw [add64_of_lt (hend.trans_lt hword)]
      refine .trans ?_ (enqueue_moves ?_ (.inl rfl))
      · exact progress_moves now fun last =>
          (Move.written item d bytes now last hop hitem hin hd hack hend hgood).single
      · exact ackOffset_queueable hitem hin rfl

theorem receiveChunk_moves (id : String) (offset : Nat) (bytes : Bytes) (now : UInt64)
    (hs : Sound s) (hopen : s.closed = false) (hop : Delivers cb op (.chunk id offset bytes)) :
    Moves cb op false s (s.receiveChunk cb id offset bytes now).2 := by
  unfold receiveChunk
  refine guarded fun _ => guarded fun _ => ?_
  cases hfind : s.find id with
  | none => exact .refl
  | some item =>
    have hid := id_of_find hfind
    subst hid
    dsimp only
    cases hd : item.destination with
    | none => exact .refl
    | some d => exact writeChunk_moves d offset bytes now hs hopen hfind hd hop

theorem receiveAccept_moves (now : UInt64) (hitem : s.find item.id = some item)
    (hop : Delivers cb op (.accept item.id)) :
    Moves cb op sending s (s.receiveAccept item now).2 := by
  unfold receiveAccept
  refine guarded fun hguard => ?_
  push Not at hguard
  obtain ⟨hout, hoffered, hnew⟩ := hguard
  exact (Move.accepted item now hitem hout hoffered hnew hop).single

theorem receiveAckOffset_moves (offset : Nat) (now : UInt64) (hitem : s.find item.id = some item)
    (hop : Delivers cb op (.ackOffset item.id offset)) :
    Moves cb op sending s (s.receiveAckOffset item offset now).2 := by
  unfold receiveAckOffset
  refine guarded fun hguard => guarded fun hack => ?_
  push Not at hguard hack
  obtain ⟨hawaiting, rfl⟩ := hack
  exact progress_moves now fun last =>
    (Move.acked item now last hitem hguard.1 hguard.2 hawaiting hop).single

theorem receiveAckDigest_moves (sha256 : String) (hitem : s.find item.id = some item)
    (hop : Delivers cb op (.ackDigest item.id sha256)) :
    Moves cb op sending s (s.receiveAckDigest item sha256).2 := by
  unfold receiveAckDigest
  refine guarded fun hguard => guarded fun hack => ?_
  push Not at hguard hack
  obtain ⟨hcompleting, rfl⟩ := hack
  exact (Move.finishOut item hitem hguard.1 hguard.2 hcompleting hop).single

theorem acknowledge_moves (d : Nat) (name digest : String)
    (hitem : s.find item.id = some item) (hin : ¬ item.outgoing)
    (hattached : .attached item.id d ∈ s.trace)
    (hcommitted : Since (· = .committed d true) FileEvent.isCall s.trace) :
    Moves cb op false s (s.acknowledge cb item name digest).2 := by
  unfold acknowledge
  refine live_elim cb op false s (fun _ hmoves _ => hmoves) fun _ => ?_
  refine .trans (mark_moves (.current true) rfl) (.trans ?_ (enqueue_moves ?_ (.inl rfl)))
  · split
    · exact (Move.finishIn (s := s.note (.current true)) item item.name hitem hin).single
    · exact (Move.finishIn (s := s.note (.current true)) item name hitem hin).single
  · refine ⟨d, ?_, ?_⟩
    · simp [hattached]
    · rw [retire_eq]
      apply Since.append
      · refine ((hcommitted.cons ?_).cons ?_).cons ?_ <;> exact id
      · intro e he
        obtain ⟨_, rfl⟩ := mem_aborts he
        exact id

theorem publish_moves (d : Nat) (digest : String) (hs : Sound s)
    (hallowed : s.incomingEnabled) (hitem : s.find item.id = some item)
    (hd : item.destination = some d) (hin : ¬ item.outgoing) (hack : ¬ item.pendingAck)
    (hsize : item.offset = item.size) (hgood : item.digesting.good ∧ ¬ item.digesting.finished)
    (hdigest : hex (cb.sha256 item.digesting.data) = digest)
    (hop : Delivers cb op (.complete item.id item.size digest)) :
    Moves cb op false s
      (((s.note (.hashed .final true)).put (item.sealHash true)).publish cb (item.sealHash true) d
        digest).2 := by
  unfold publish
  refine live_elim cb op false _ (fun t hmoves _ => ?_) fun _ => ?_
  · refine .trans (mark_moves (.hashed .final true) rfl) (.trans ?_ hmoves)
    exact (Move.sealed (s := s.note (.hashed .final true)) item item.digest true hitem (.inl rfl)
      fun _ => rfl).single
  dsimp only
  have hput : (((s.note (.hashed .final true)).put (item.sealHash true)).note (.current true)).put
        (item.sealHash true).markCompleting =
      ((s.note (.hashed .final true)).note (.current true)).put
        (item.sealHash true).markCompleting :=
    put_put (s := (s.note (.hashed .final true)).note (.current true)) rfl
  rw [hput]
  have hattached := hs.handles.attached item (mem_of_find hitem) d hd
  generalize cb.commit _ d = actual
  cases actual with
  | none =>
    refine .trans ?_ (cancel_moves _ _ _ _ (.inl rfl))
    exact (Move.commit item d digest false hop hitem hin hallowed hd hack hsize hgood
      hdigest).single
  | some name =>
    refine .trans (Move.commit item d digest true hop hitem hin hallowed hd hack hsize hgood
      hdigest).single ?_
    refine acknowledge_moves d name digest ?_ hin ?_ (Since.now rfl)
    · exact find_put (s := (s.note (.hashed .final true)).note (.current true)) hitem
    · exact List.mem_cons_of_mem _ (List.mem_cons_of_mem _ (List.mem_cons_of_mem _ hattached))

theorem checkComplete_moves (d size : Nat) (sha256 : String) (hs : Sound s)
    (hallowed : s.incomingEnabled)
    (hitem : s.find item.id = some item) (hd : item.destination = some d)
    (hop : Delivers cb op (.complete item.id size sha256)) :
    Moves cb op false s (s.checkComplete cb item d size sha256).2 := by
  unfold checkComplete
  refine guarded fun hguard => ?_
  push Not at hguard
  obtain ⟨hin, hack, rfl, hsize⟩ := hguard
  rw [show item.hash.getD {} = item.digesting from rfl]
  have hseal : ∀ {u : Transfer} (finished : Bool), u.find item.id = some item →
      (item.digesting.finished → finished) → Moves cb op false u
        ((u.put (item.sealHash finished)).cancel item.id true "RD_FILE_HASH_MISMATCH").2 := by
    intro u finished hfind hfinished
    refine .trans ?_ (cancel_moves _ _ _ _ (.inl rfl))
    exact (Move.sealed item item.digest finished hfind (.inl rfl) hfinished).single
  rcases finish_cases cb item.digesting s with
    ⟨finished, u, heq, hfinished, rfl | rfl⟩ | ⟨hgood, heq⟩
  · rw [heq]
    exact hseal finished hitem hfinished
  · rw [heq]
    exact .trans (mark_moves (.hashed .final false) rfl) (hseal finished hitem hfinished)
  · rw [heq]
    dsimp only
    split
    · exact .trans (mark_moves (.hashed .final true) rfl) (hseal true hitem fun _ => rfl)
    rename_i hmatch
    push Not at hmatch
    obtain ⟨-, rfl⟩ := hmatch
    exact publish_moves d _ hs hallowed hitem hd hin hack hsize hgood rfl hop

theorem receiveKnown_moves (id : String) (fromSender : Bool) (now : UInt64)
    (handle : Item → Bool × Transfer)
    (h : ∀ item, s.find id = some item → s.permits fromSender →
      Moves cb op false s (handle item).2) :
    Moves cb op false s (s.receiveKnown id fromSender now handle).2 := by
  unfold receiveKnown
  refine guarded fun _ => guarded fun hallowed => ?_
  push Not at hallowed
  cases hfind : s.find id with
  | none => exact .refl
  | some item =>
    dsimp only
    split
    · exact cancel_moves _ _ _ _ (.inl rfl)
    · exact h item hfind hallowed

theorem handle_moves (message : FileMessage) (now : UInt64) (hs : Sound s)
    (hopen : s.closed = false) (hop : Delivers cb op message) :
    Moves cb op false s (s.handle cb message now).2 := by
  have hself : ∀ {id item}, s.find id = some item → s.find item.id = some item := by
    intro id item hfind
    rw [id_of_find hfind]
    exact hfind
  cases message with
  | chunk id offset bytes => exact receiveChunk_moves id offset bytes now hs hopen hop
  | offer id name size => exact receiveOffer_moves id name size now hs hop
  | cancel id => exact cancel_moves _ _ _ _ (.inl rfl)
  | accept id =>
    refine receiveKnown_moves id false now _ fun item hfind _ => ?_
    rw [← id_of_find hfind] at hop
    exact receiveAccept_moves now (hself hfind) hop
  | complete id size sha256 =>
    refine receiveKnown_moves id true now _ fun item hfind hallowed => ?_
    rw [← id_of_find hfind] at hop
    unfold receiveComplete
    cases hd : item.destination with
    | none => exact .refl
    | some d =>
      exact checkComplete_moves d size sha256 hs hallowed (hself hfind) hd hop
  | ackOffset id offset =>
    refine receiveKnown_moves id false now _ fun item hfind _ => ?_
    rw [← id_of_find hfind] at hop
    exact receiveAckOffset_moves offset now (hself hfind) hop
  | ackDigest id sha256 =>
    refine receiveKnown_moves id false now _ fun item hfind _ => ?_
    rw [← id_of_find hfind] at hop
    exact receiveAckDigest_moves sha256 (hself hfind) hop

theorem receive_moves (type : UInt8) (payload : Bytes) (now : UInt64) (hs : Sound s)
    (hop : op = .receive type payload now) :
    Moves cb op false s (s.receive cb type payload now).2 := by
  unfold receive
  refine live_elim cb op false s (fun _ hmoves _ => hmoves) fun hopen => ?_
  have hcurrent : Moves cb op false s (s.note (.current true)) := mark_moves _ rfl
  refine .trans hcurrent ?_
  dsimp only
  cases hdecode : decodeMessage cb.json type payload with
  | none => exact .refl
  | some message =>
    exact handle_moves message now (hcurrent.sound hs) hopen ⟨type, payload, now, hop, hdecode⟩

theorem offerLoop_moves (ids : List String) (s : Transfer) :
    Moves cb op false s (offerLoop ids s).2 := by
  induction ids generalizing s with
  | nil => exact .refl
  | cons id rest ih =>
    unfold offerLoop
    cases hfind : s.find id with
    | none => exact ih s
    | some item =>
      dsimp only
      split
      swap
      · exact ih s
      rename_i hguard
      have hid := id_of_find hfind
      subst hid
      have hwhy : Queueable s (.offer item.id item.name item.size) :=
        ⟨item, mem_of_find hfind, rfl, hguard.1, hguard.2, rfl, rfl⟩
      by_cases hfull : s.queue.length ≥ maxQueue
      · rw [enqueue_full _ hfull]
        exact (Move.overflow rfl).single
      · rw [enqueue_room _ hfull]
        refine .trans (Move.queue _ (by omega) hwhy).single (.trans ?_ (ih _))
        exact (Move.offered item (by exact hfind) hguard.1).single

theorem sendQueue_moves (burst : Nat) (s : Transfer) :
    Moves cb op false s (sendQueue cb burst s).2 := by
  induction burst generalizing s with
  | zero => exact .refl
  | succ burst ih =>
    unfold sendQueue
    cases hqueue : s.queue with
    | nil => exact .refl
    | cons message rest =>
      dsimp only [askRoom]
      generalize cb.room s.trace = ok
      refine .trans (mark_moves (.room ok) rfl) ?_
      have hqueue : (s.note (.room ok)).queue = message :: rest := hqueue
      generalize s.note (.room ok) = u at hqueue
      cases ok with
      | false => exact .refl
      | true =>
        dsimp only
        refine live_elim cb op false u (fun _ hmoves _ => hmoves) fun _ => ?_
        refine .trans (mark_moves (.current true) rfl) ?_
        have hqueue : (u.note (.current true)).queue = message :: rest := hqueue
        generalize u.note (.current true) = v at hqueue
        dsimp only [sendFrame]
        generalize cb.send _ _ _ = ok
        cases ok with
        | false =>
          have hevents : ∀ e ∈ [FileEvent.sent message.type (message.payload cb.json) false],
              e.quiet ∨ (∃ d o b ok, e = .wrote d o b ok) ∨
                ∃ type payload, e = .sent type payload false := by simp
          exact (Move.close _ hevents (by simp)).single
        | true => exact .trans (Move.pop message rest hqueue).single (ih _)

/-- Inside the sending loop: moves, and at most one message more in the queue. -/
def Sends (cb : Callbacks) (op : FileOp) (s t : Transfer) : Prop :=
  Moves cb op true s t ∧ t.queue.length ≤ s.queue.length + 1

theorem Sends.after {u : Transfer} (h : Sends cb op t u) (hmoves : Moves cb op true s t)
    (hqueue : t.queue = s.queue) : Sends cb op s u :=
  ⟨hmoves.trans h.1, hqueue ▸ h.2⟩

theorem Sends.refl (s : Transfer) : Sends cb op s s := ⟨.refl, Nat.le_succ _⟩

theorem length_enqueue_le (s : Transfer) (message : FileMessage) :
    (s.enqueue message).2.queue.length ≤ s.queue.length + 1 := by
  by_cases hfull : s.queue.length ≥ maxQueue
  · rw [enqueue_full message hfull]
    simp
  · rw [enqueue_room message hfull]
    simp

theorem cancel_sends (id : String) (notify : Bool) (error : String) (saved : Bool)
    (hroom : s.queue.length < maxQueue) : Sends cb op s (s.cancel id notify error saved).2 := by
  refine ⟨cancel_moves id notify error saved (.inr hroom), ?_⟩
  unfold cancel
  cases s.find id with
  | none => exact Nat.le_succ _
  | some item =>
    have hdiscard : (s.discard item).queue.length ≤ s.queue.length := by
      rw [discard_eq]
      exact List.length_filter_le _ _
    dsimp only
    rw [abort_eq, emit, note_queue]
    split
    · exact (length_enqueue_le _ _).trans (Nat.succ_le_succ hdiscard)
    · exact hdiscard.trans (Nat.le_succ _)

/-- An item of the sender that the loop serves. -/
structure Served (s : Transfer) (item : Item) : Prop where
  limits : Limits s
  room : s.queue.length < maxQueue
  found : s.find item.id = some item
  out : item.outgoing
  accepted : item.accepted
  running : item.running
  idle : ¬ item.awaiting ∧ ¬ item.completing

theorem Served.note (h : Served s item) (event : FileEvent) : Served (s.note event) item :=
  ⟨h.limits.note event, h.room, h.found, h.out, h.accepted, h.running, h.idle⟩

theorem sendBytes_sends (bytes : Bytes) (now : UInt64) (hs : Served s item)
    (hsize : item.offset < item.size)
    (hread : .read (item.source.getD 0) item.offset (some bytes) ∈ s.trace)
    (hbytes : bytes.length = min Protocol.fileChunkBytes (item.size - item.offset)) :
    Sends cb op s (s.sendBytes cb item bytes now).2 := by
  unfold sendBytes
  refine live_elim cb op true s (fun _ hmoves hle => ⟨hmoves, hle.trans (Nat.le_succ _)⟩)
    fun _ => ?_
  rw [show item.hash.getD {} = item.digesting from rfl]
  refine Sends.after ?_ (mark_moves (.current true) rfl) rfl
  have hread := List.mem_cons_of_mem (FileEvent.current true) hread
  have hs := hs.note (.current true)
  rw [← note_trace] at hread
  generalize s.note (.current true) = u at hs hread
  dsimp only
  rcases update_cases cb item.digesting bytes u with ⟨other, v, heq, rfl | rfl⟩ | ⟨hgood, heq⟩
  · rw [heq]
    exact cancel_sends _ _ _ _ hs.room
  · rw [heq]
    refine Sends.after ?_ (mark_moves (.hashed .update false) rfl) rfl
    exact cancel_sends _ _ _ _ (by exact hs.room)
  rw [heq]
  simp only [not_true_eq_false, if_false, sendFrame]
  have hword : item.size < 2 ^ 64 :=
    (hs.limits.sizes item (mem_of_find hs.found)).trans_lt (by decide)
  rw [add64_of_lt (by omega)]
  generalize cb.send _ _ _ = ok
  cases ok with
  | true =>
    refine ⟨?_, Nat.le_succ _⟩
    exact (Move.sentChunk item bytes _ now hs.found hs.out hs.accepted hs.running hs.idle rfl hread
      hbytes hsize hgood).single
  | false =>
    refine ⟨?_, by simp⟩
    generalize hframe : FileEvent.sent Protocol.fileChunk
      (chunkPayload item.uuid item.offset bytes) false = frame
    have hclose : Moves cb op true u ((u.note (.hashed .update true)).note frame).close := by
      refine (Move.close [frame, .hashed .update true] ?_ ?_).single
      · simp [← hframe, FileEvent.quiet]
      · simp [← hframe]
    have hput : (((u.note (.hashed .update true)).note frame).put
        (item.waitFor (item.digesting.fed bytes) (item.offset + bytes.length) now)).close =
          ((u.note (.hashed .update true)).note frame).close :=
      close_put hs.limits.ids hs.found rfl
    rw [← hput] at hclose
    exact hclose

theorem length_of_read {trace : List FileEvent} {source offset count : Nat} {bytes : Bytes}
    (h : (cb.read trace source offset count).map (·.toList) = some bytes) :
    bytes.length = count := by
  obtain ⟨read, -, rfl⟩ := Option.map_eq_some_iff.mp h
  simp

theorem sendChunk_sends (now : UInt64) (hs : Served s item) (hsize : item.offset < item.size) :
    Sends cb op s (s.sendChunk cb item now).2 := by
  have hword : item.size < 2 ^ 64 :=
    (hs.limits.sizes item (mem_of_find hs.found)).trans_lt (by decide)
  unfold sendChunk
  dsimp only [subtract]
  generalize hanswer : Option.map _ (cb.read _ _ _ _) = answer
  have hlength : ∀ bytes, answer = some bytes →
      bytes.length = min Protocol.fileChunkBytes (item.size - item.offset) := by
    intro bytes heq
    rw [← sub64_of_le hsize.le hword]
    exact length_of_read (hanswer.trans heq)
  refine Sends.after ?_ (Move.subtract _ _ hsize.le).single rfl
  refine Sends.after ?_ (mark_moves (.read (item.source.getD 0) item.offset answer) rfl) rfl
  have hs := (hs.note (.subtracted item.size item.offset)).note
    (.read (item.source.getD 0) item.offset answer)
  cases answer with
  | none => exact cancel_sends _ _ _ _ hs.room
  | some bytes =>
    exact sendBytes_sends bytes now hs hsize List.mem_cons_self (hlength bytes rfl)

theorem sendComplete_sends (now : UInt64) (hs : Served s item) (hsize : ¬ item.offset < item.size) :
    Sends cb op s (s.sendComplete cb item now).2 := by
  unfold sendComplete
  dsimp only
  generalize hunchanged : cb.unchanged s.trace (item.source.getD 0) = ok
  cases ok with
  | false =>
    refine Sends.after ?_ (mark_moves (.unchanged (item.source.getD 0) false) rfl) rfl
    exact cancel_sends _ _ _ _ hs.room
  | true =>
    simp only [not_true_eq_false, if_false]
    rw [show item.hash.getD {} = item.digesting from rfl]
    have hunch : Moves cb op true s (s.note (.unchanged (item.source.getD 0) true)) :=
      mark_moves _ rfl
    have hfail : ∀ {u : Transfer} (digest : String) (finished : Bool), Served u item →
        (item.digesting.finished → finished) →
          Sends cb op u ((u.put { item.sealHash finished with digest := digest }).cancel item.id
            true "RD_FILE_HASH_FAILED").2 := by
      intro u digest finished hu hfinished
      refine Sends.after (cancel_sends _ _ _ _ hu.room) ?_ rfl
      exact (Move.sealed item digest finished hu.found (.inr ⟨hu.out, hu.idle.2⟩) hfinished).single
    have hserved := hs.note (.unchanged (item.source.getD 0) true)
    rcases finish_cases cb item.digesting (s.note (.unchanged (item.source.getD 0) true)) with
      ⟨finished, u, heq, hfinished, rfl | rfl⟩ | ⟨hgood, heq⟩
    · rw [heq]
      exact (hfail "" finished hserved hfinished).after hunch rfl
    · rw [heq]
      exact (hfail "" finished (hserved.note _) hfinished).after
        (hunch.trans (mark_moves (.hashed .final false) rfl)) rfl
    rw [heq]
    dsimp only
    split
    · exact (hfail _ true (hserved.note _) fun _ => rfl).after
        (hunch.trans (mark_moves (.hashed .final true) rfl)) rfl
    rw [put_put (by rfl)]
    have hmove : Move cb op true s _ := .completing item _ now hs.found hs.out hs.accepted
      hs.running hs.idle rfl (by omega) hunchanged hgood
    refine Sends.after ⟨?_, length_enqueue_le _ _⟩ hmove.single rfl
    refine enqueue_moves ⟨_, mem_put_self hs.found, rfl, hs.out, rfl, rfl, rfl⟩ (.inr ?_)
    exact hs.room

theorem startRunning_spec (hs : Limits s)
    (hroom : s.queue.length < maxQueue) (hitem : s.find item.id = some item)
    (hout : item.outgoing) (haccepted : item.accepted)
    (hidle : ¬ item.awaiting ∧ ¬ item.completing)
    (hactive : ¬ (¬ item.running ∧ s.active ≥ maxActive)) :
    Moves cb op true s (s.startRunning cb item).2 ∧
      (s.startRunning cb item).2.queue = s.queue ∧
      Served (s.startRunning cb item).2 (s.startRunning cb item).1 := by
  unfold startRunning
  by_cases hrunning : item.running
  · rw [if_pos hrunning]
    exact ⟨.refl, rfl, hs, hroom, hitem, hout, haccepted, hrunning, hidle⟩
  · rw [if_neg hrunning]
    have hmove : Moves cb op true s _ :=
      (Move.start item (cb.hash s.trace .init) hitem hout haccepted hrunning
        (by by_contra h; exact hactive ⟨hrunning, by omega⟩) hidle).single
    refine ⟨hmove, rfl, ?_, hroom, find_put hitem, hout, haccepted, rfl, hidle⟩
    exact hmove.keeps (fun _ _ h hm => hm.limits h) hs

theorem sendItem_sends (id : String) (now : UInt64) (hs : Limits s)
    (hroom : s.queue.length < maxQueue) : Sends cb op s (s.sendItem cb id now).2 := by
  unfold sendItem
  cases hfind : s.find id with
  | none => exact Sends.refl s
  | some item =>
    have hid := id_of_find hfind
    subst hid
    dsimp only [askRoom]
    split
    · exact Sends.refl s
    rename_i hguard
    push Not at hguard
    obtain ⟨hout, haccepted, hawaiting, hcompleting⟩ := hguard
    generalize cb.room s.trace = ok
    refine Sends.after ?_ (mark_moves (.room ok) rfl) rfl
    have hs := hs.note (.room ok)
    have hfind : (s.note (.room ok)).find item.id = some item := hfind
    have hroom : (s.note (.room ok)).queue.length < maxQueue := hroom
    generalize s.note (.room ok) = u at hs hfind hroom
    cases ok with
    | false => exact Sends.refl u
    | true =>
      dsimp only
      split
      · exact Sends.refl u
      rename_i hactive
      obtain ⟨hmoves, hqueue, hserved⟩ : Moves cb op true _ _ ∧ _ ∧ Served _ _ :=
        startRunning_spec hs hroom hfind hout haccepted ⟨hawaiting, hcompleting⟩ hactive
      refine Sends.after ?_ hmoves hqueue
      generalize u.startRunning cb item = started at hserved
      obtain ⟨next, v⟩ := started
      dsimp only at hserved ⊢
      refine live_elim cb op true v (fun _ hmoves hle => ⟨hmoves, hle.trans (Nat.le_succ _)⟩)
        fun _ => ?_
      refine Sends.after ?_ (mark_moves (.current true) rfl) rfl
      dsimp only
      split
      · rename_i hsize
        exact sendChunk_sends now (hserved.note _) hsize
      · rename_i hsize
        exact sendComplete_sends now (hserved.note _) hsize

/-- The loop finds room for a message of each item it serves. -/
theorem sendLoop_moves (now : UInt64) (ids : List String) (s : Transfer) (hs : Limits s)
    (hroom : s.queue.length + ids.length ≤ maxQueue) :
    Moves cb op true s (sendLoop cb now ids s) := by
  induction ids generalizing s with
  | nil => exact .refl
  | cons id rest ih =>
    rw [List.length_cons] at hroom
    obtain ⟨hmoves, hqueue⟩ : Sends cb op s (s.sendItem cb id now).2 :=
      sendItem_sends id now hs (by omega)
    have hlimits := hmoves.keeps (fun _ _ h hm => hm.limits h) hs
    unfold sendLoop
    generalize s.sendItem cb id now = result at hmoves hqueue hlimits
    obtain ⟨continues, t⟩ := result
    cases continues with
    | false => exact hmoves
    | true => exact hmoves.trans (ih t hlimits (by dsimp only at hqueue; omega))

theorem tick_call (now : UInt64) (hs : Sound s) : Call cb op s (s.tick cb now) := by
  unfold tick
  refine live_elim cb op false s (fun _ hmoves _ => .inl hmoves) fun _ => ?_
  have hcurrent : Moves cb op false s (s.note (.current true)) := mark_moves _ rfl
  dsimp only
  have hexpired := hcurrent.trans (cancelAll_moves true "RD_FILE_TIMEOUT"
    (((s.note (.current true)).items.filter (now ≥ ·.deadline)).map (·.id)) _)
  generalize cancelAll true "RD_FILE_TIMEOUT" _ _ = u at hexpired
  have hoffered := hexpired.trans (offerLoop_moves (u.items.map (·.id)) u)
  generalize offerLoop (u.items.map (·.id)) u = result at hoffered
  obtain ⟨continues, v⟩ := result
  cases continues with
  | false => exact .inl hoffered
  | true =>
    dsimp only at hoffered ⊢
    have hsent := hoffered.trans (sendQueue_moves sendBurst v)
    generalize sendQueue cb sendBurst v = result at hsent
    obtain ⟨continues, w⟩ := result
    cases continues with
    | false => exact .inl hsent
    | true =>
      dsimp only at hsent ⊢
      by_cases hqueue : w.queue ≠ []
      · rw [if_pos hqueue]
        exact .inl hsent
      rw [if_neg hqueue]
      push Not at hqueue
      refine live_elim cb op false w (fun _ hmoves _ => .inl (hsent.trans hmoves)) fun _ => ?_
      have hmid : Moves cb op false s (w.note (.current true)) :=
        hsent.trans (mark_moves _ rfl)
      refine .inr ⟨_, hmid, ?_⟩
      have hlimits := (hmid.sound hs).limits
      apply sendLoop_moves now _ _ (hlimits.note .sending)
      have hcount := hlimits.count
      have hbound : Protocol.batchFiles ≤ maxQueue := by decide
      rw [List.length_map]
      simp only [note_queue, hqueue, List.length_nil, note_items] at hcount ⊢
      omega

theorem offerSources_call (paths : List String) (now : UInt64) (hs : Sound s) :
    Call cb op s (s.offerSources cb paths now).2 := by
  unfold offerSources
  refine live_elim cb op false s (fun _ hmoves _ => .inl hmoves) fun _ => ?_
  have hcurrent : Moves cb op false s (s.note (.current true)) := mark_moves _ rfl
  have hu := hcurrent.sound hs
  generalize s.note (.current true) = u at hcurrent hu
  dsimp only
  split
  · exact .inl hcurrent
  split
  · exact .inl (hcurrent.trans (mark_moves _ rfl))
  rename_i hpaths
  push Not at hpaths
  have htotal := total_eq hu.limits
  have hsum : u.total ≤ Protocol.batchFileBytes := htotal ▸ hu.limits.sum
  obtain ⟨hprepare, hall⟩ : Moves cb op false u _ ∧ _ :=
    prepare_spec now paths u.total [] u hsum
  have hprepared := hcurrent.trans hprepare
  generalize prepare cb now paths u.total [] u = result at hprepared hprepare hall
  obtain ⟨prepared, v⟩ := result
  cases prepared with
  | none => exact .inl hprepared
  | some prepared =>
    obtain ⟨added, hadded, hlength, hbound, hready⟩ := hall prepared rfl
    rw [List.nil_append] at hadded
    subst hadded
    dsimp only at hprepared hready ⊢
    have hpending : Pending v prepared := by
      refine ⟨hready.prepared, ?_, ?_, ?_⟩
      · rw [hready.items, hlength]
        omega
      · rw [hready.items, ← htotal]
        exact hbound
      · intro id
        have := hu.handles.drawn id
        rw [hready.enters id, hready.draws id]
        omega
    have hinserted : Moves cb op false s (addPrepared prepared v) :=
      hprepared.trans (addPrepared_moves prepared v hpending)
    have htick : Call cb op (addPrepared prepared v) _ := tick_call now (hinserted.sound hs)
    rcases htick with hmoves | ⟨mid, hmoves, hsending⟩
    · exact .inl (hinserted.trans hmoves)
    · exact .inr ⟨mid, hinserted.trans hmoves, hsending⟩

theorem perform_call (op : FileOp) (hs : Sound s) : Call cb op s (perform cb s op).2 := by
  cases op with
  | enable permission value now => exact .inl (enable_moves permission value)
  | offerSources paths now => exact offerSources_call paths now hs
  | approveDestination id path now => exact .inl (approve_moves id path now hs rfl)
  | cancel id now notify => exact .inl (cancel_moves id notify _ _ (.inl rfl))
  | receive type payload now => exact .inl (receive_moves type payload now hs rfl)
  | tick now => exact tick_call now hs
  | close => exact .inl (Move.close [] (by simp) (by simp)).single

theorem Sound.note (h : Sound s) {event : FileEvent} (hnone : event.destination? = none)
    (henters : ∀ id, event.entersOut id = false) : Sound (s.note event) :=
  ⟨h.limits.note event, h.handles.note (.nothing hnone henters)⟩

theorem Call.sound (h : Call cb op s t) (hs : Sound s) : Sound t := by
  rcases h with hmoves | ⟨mid, hmoves, hsending⟩
  · exact hmoves.sound hs
  · exact hsending.sound ((hmoves.sound hs).note rfl fun _ => rfl)

theorem step_sound (op : FileOp) (hs : Sound s) : Sound (step cb s op) := by
  have hcalled : Sound (s.note (.called op)) := hs.note rfl fun _ => rfl
  exact ((perform_call op hcalled).sound hcalled).note rfl fun _ => rfl

theorem sound_empty : Sound {} := by
  refine ⟨limits_of_empty rfl rfl rfl, ?_, ?_, ?_⟩ <;> simp

end HomeTunnel.Remote.Files
