import HomeTunnel.Files.Calls
import HomeTunnel.Lib.Pieces
import HomeTunnel.Lib.Runs

/-! # The receiving side

What an endpoint does for an incoming file, against any peer: `Receiving` ties
each live destination to the approval of its offer and to the bytes written so
far, and says of every commit and every final acknowledgement in the trace that
it was right at its moment.
-/

namespace HomeTunnel.Remote.Files

open Transfer Trace Pieces

variable {cb : Callbacks} {op : FileOp} {sending : Bool} {s t : Transfer} {item old : Item}
  {id : String} {d size : Nat} {trace : List FileEvent}

/-- The call in progress at that moment. -/
def During (op : FileOp) (trace : List FileEvent) : Prop :=
  Since (· = .called op) FileEvent.isCall trace

/-- The message that the call in progress delivers. -/
def Hearing (cb : Callbacks) (message : FileMessage) (trace : List FileEvent) : Prop :=
  ∃ op, During op trace ∧ Delivers cb op message

/-- The peer's offer of that id and size is in the table since it was made. -/
def Offered (cb : Callbacks) (id : String) (size : Nat) (trace : List FileEvent) : Prop :=
  SinceWhere
    (fun event past => event = .inserted id false ∧ ∃ name, Hearing cb (.offer id name size) past)
    (· = .erased id) trace

/-- A local approval gave the destination to that very offer, which is still in the table. -/
def Approved (cb : Callbacks) (id : String) (d size : Nat) (trace : List FileEvent) : Prop :=
  SinceWhere
    (fun event past => event = .attached id d ∧
      (∃ path now, During (.approveDestination id path now) past) ∧ Offered cb id size past)
    (· = .erased id) trace

/-- The direction is enabled, and was not disabled since. -/
def Permitted (trace : List FileEvent) : Prop :=
  Since (· = .enabled false true) (· = .enabled false false) trace

/-- A successful write to that destination. -/
def FileEvent.wroteTo (d : Nat) : FileEvent → Option (Nat × Bytes)
  | .wrote destination offset bytes true => if destination = d then some (offset, bytes) else none
  | _ => none

/-- The successful writes to a destination, oldest first. -/
def writes (d : Nat) (trace : List FileEvent) : List (Nat × Bytes) :=
  (trace.filterMap (·.wroteTo d)).reverse

variable {events : List FileEvent} {event : FileEvent} {message : FileMessage}

theorem writes_append (h : ∀ e ∈ events, e.wroteTo d = none) :
    writes d (events ++ trace) = writes d trace := by
  unfold writes
  rw [List.filterMap_append, List.filterMap_eq_nil_iff.mpr h, List.nil_append]

theorem writes_cons_wrote {offset : Nat} {bytes : Bytes} :
    writes d (.wrote d offset bytes true :: trace) = writes d trace ++ [(offset, bytes)] := by
  simp [writes, FileEvent.wroteTo]

/-- The state of a destination that an item still has. -/
structure Filling (cb : Callbacks) (trace : List FileEvent) (item : Item) (d : Nat) : Prop where
  incoming : ¬ item.outgoing
  approved : Approved cb item.id d item.size trace
  tiles : Tiles 0 (writes d trace) item.offset
  hashed : content (writes d trace) = item.digesting.data
  heard : ∀ piece ∈ writes d trace, ∃ past, past <:+ trace ∧
    Hearing cb (.chunk item.id piece.1 piece.2) past
  uncommitted : ¬ item.digesting.finished → ∀ ok, .committed d ok ∉ trace

/-- A commit, as its past shows it. -/
def CommitRight (cb : Callbacks) (d : Nat) (past : List FileEvent) : Prop :=
  (∀ ok, .committed d ok ∉ past) ∧
    ∃ id size digest, Approved cb id d size past ∧ Permitted past ∧
      Tiles 0 (writes d past) size ∧ hex (cb.sha256 (content (writes d past))) = digest ∧
      Hearing cb (.complete id size digest) past ∧
      ∀ piece ∈ writes d past, ∃ earlier, earlier <:+ past ∧
        Hearing cb (.chunk id piece.1 piece.2) earlier

/-- A final acknowledgement, as its past shows it. -/
def FinalAckRight (id : String) (past : List FileEvent) : Prop :=
  ∃ d, .attached id d ∈ past ∧ Since (· = .committed d true) FileEvent.isCall past

def FileEvent.right (cb : Callbacks) (event : FileEvent) (past : List FileEvent) : Prop :=
  (∀ d ok, event = .committed d ok → CommitRight cb d past) ∧
    (∀ id digest, event = .queued (.ackDigest id digest) → FinalAckRight id past) ∧
    ∀ id d, event = .attached id d → ∀ other, .attached other d ∉ past

/-- What becomes of an attached destination. -/
def Settled (s : Transfer) : Prop :=
  ∀ later id d earlier, s.trace = later ++ .attached id d :: earlier →
    (∃ item ∈ s.items, item.id = id ∧ item.destination = some d) ∨
      .committed d true ∈ later ∨ .aborted d ∈ later

/-- What the invariant asks of one item. -/
structure ItemGood (cb : Callbacks) (trace : List FileEvent) (item : Item) : Prop where
  offered : ¬ item.outgoing → Offered cb item.id item.size trace
  unused : ¬ item.outgoing → ¬ item.accepted → item.offset = 0 ∧ item.destination = none
  filling : ∀ d, item.destination = some d → Filling cb trace item d

structure Receiving (cb : Callbacks) (s : Transfer) : Prop where
  items : ∀ item ∈ s.items, ItemGood cb s.trace item
  permitted : s.incomingEnabled → Permitted s.trace
  right : Each (FileEvent.right cb) s.trace
  settled : Settled s

/-- The events that the invariant says nothing about. -/
def FileEvent.calm : FileEvent → Bool
  | .attached .. | .committed .. | .enabled .. | .queued (.ackDigest ..) => false
  | _ => true

theorem FileEvent.right_of_calm (h : event.calm) (past : List FileEvent) : event.right cb past := by
  refine ⟨?_, ?_, ?_⟩
  · rintro d ok rfl
    cases h
  · rintro id digest rfl
    cases h
  · rintro id d rfl
    cases h

theorem FileEvent.calm_of_quiet (h : event.quiet) :
    event.calm ∧ (∀ id, event ≠ .erased id) ∧ ∀ d, event.wroteTo d = none := by
  refine ⟨?_, ?_, ?_⟩
  · cases event <;> first | rfl | cases h
  · rintro id rfl
    cases h
  · intro d
    cases event <;> first | rfl | cases h

/-- The same item, as far as its destination is concerned. -/
structure Item.Continues (item old : Item) : Prop where
  id : item.id = old.id
  size : item.size = old.size
  outgoing : item.outgoing = old.outgoing
  accepted : old.accepted → item.accepted
  destination : item.destination = old.destination
  offset : ¬ item.outgoing → item.offset = old.offset
  hashed : item.destination.isSome → item.digesting.data = old.digesting.data ∧
    (old.digesting.finished → item.digesting.finished)

theorem Item.Continues.rfl : Item.Continues item item :=
  ⟨Eq.refl _, Eq.refl _, Eq.refl _, fun h => h, Eq.refl _, fun _ => Eq.refl _,
    fun _ => ⟨Eq.refl _, fun h => h⟩⟩

theorem Offered.append (h : Offered cb id size trace) (hkept : .erased id ∉ events) :
    Offered cb id size (events ++ trace) :=
  SinceWhere.append h fun _ he heq => hkept (heq ▸ he)

theorem Approved.append (h : Approved cb id d size trace) (hkept : .erased id ∉ events) :
    Approved cb id d size (events ++ trace) :=
  SinceWhere.append h fun _ he heq => hkept (heq ▸ he)

theorem Filling.append (h : Filling cb trace old d) (hsame : item.Continues old)
    (hd : item.destination = some d) (hkept : .erased item.id ∉ events)
    (hwrote : ∀ e ∈ events, e.wroteTo d = none)
    (hcommit : ¬ item.digesting.finished → ∀ ok, .committed d ok ∉ events) :
    Filling cb (events ++ trace) item d := by
  obtain ⟨hdata, hfinished⟩ := hsame.hashed (by rw [hd]; rfl)
  have hin : ¬ item.outgoing := by rw [hsame.outgoing]; exact h.incoming
  have hoffset := hsame.offset hin
  refine ⟨hin, ?_, ?_, ?_, ?_, ?_⟩
  · rw [hsame.id, hsame.size]
    exact h.approved.append (hsame.id ▸ hkept)
  · rw [writes_append hwrote, hoffset]; exact h.tiles
  · rw [writes_append hwrote, hdata]; exact h.hashed
  · rw [writes_append hwrote, hsame.id]
    intro piece hpiece
    obtain ⟨past, hsuffix, hheard⟩ := h.heard piece hpiece
    exact ⟨past, hsuffix.trans (List.suffix_append _ _), hheard⟩
  · intro hopen ok hmem
    rcases List.mem_append.mp hmem with hmem | hmem
    · exact hcommit hopen ok hmem
    · exact h.uncommitted (fun hf => hopen (hfinished hf)) ok hmem

/-- An item that goes on while nothing happens to it. -/
theorem ItemGood.append (h : ItemGood cb trace old) (events : List FileEvent)
    (hsame : item.Continues old) (hkept : .erased item.id ∉ events)
    (hfree : ∀ d, item.destination = some d →
      (∀ e ∈ events, e.wroteTo d = none) ∧
        (¬ item.digesting.finished → ∀ ok, .committed d ok ∉ events)) :
    ItemGood cb (events ++ trace) item := by
  refine ⟨?_, ?_, ?_⟩
  · intro hin
    rw [hsame.id, hsame.size]
    exact (h.offered (hsame.outgoing ▸ hin)).append (hsame.id ▸ hkept)
  · intro hin hnew
    rw [hsame.offset hin, hsame.destination]
    exact h.unused (hsame.outgoing ▸ hin) fun hold => hnew (hsame.accepted hold)
  · intro d hd
    exact (h.filling d (hsame.destination ▸ hd)).append hsame hd hkept (hfree d hd).1 (hfree d hd).2

/-- A move that attaches nothing: the destinations of items that left were aborted. -/
theorem Receiving.step (h : Receiving cb s) (events : List FileEvent)
    (htrace : t.trace = events ++ s.trace) (hattach : ∀ id d, .attached id d ∉ events)
    (hright : Each (FileEvent.right cb) t.trace)
    (hitems : ∀ item ∈ t.items, ItemGood cb t.trace item)
    (hpermitted : t.incomingEnabled → Permitted t.trace)
    (hleft : ∀ old ∈ s.items, ∀ d, old.destination = some d →
      (∃ item ∈ t.items, item.id = old.id ∧ item.destination = some d) ∨ .aborted d ∈ events) :
    Receiving cb t := by
  refine ⟨hitems, hpermitted, hright, ?_⟩
  intro later id d earlier heq
  rw [htrace] at heq
  obtain ⟨mid, rfl, hold⟩ := split_old heq (hattach id d)
  rcases h.settled mid id d earlier hold with ⟨old, hmem, hid, hd⟩ | hcommitted | haborted
  · rcases hleft old hmem d hd with ⟨item, hitem, hsame, hdest⟩ | haborted
    · exact .inl ⟨item, hitem, hsame.trans hid, hdest⟩
    · exact .inr (.inr (List.mem_append_left _ haborted))
  · exact .inr (.inl (List.mem_append_right _ hcommitted))
  · exact .inr (.inr (List.mem_append_right _ haborted))

theorem Receiving.calm (h : Receiving cb s) (events : List FileEvent)
    (htrace : t.trace = events ++ s.trace) (hcalm : ∀ e ∈ events, e.calm)
    (hitems : ∀ item ∈ t.items, ItemGood cb t.trace item)
    (hallowed : t.incomingEnabled → s.incomingEnabled)
    (hleft : ∀ old ∈ s.items, ∀ d, old.destination = some d →
      (∃ item ∈ t.items, item.id = old.id ∧ item.destination = some d) ∨ .aborted d ∈ events) :
    Receiving cb t := by
  refine h.step events htrace ?_ ?_ hitems ?_ hleft
  · intro id d hmem
    cases hcalm _ hmem
  · rw [htrace]
    exact h.right.append fun e he past => FileEvent.right_of_calm (hcalm e he) past
  · intro hin
    rw [htrace]
    refine Since.append (h.permitted (hallowed hin)) ?_
    rintro e he rfl
    cases hcalm _ he

/-- A destination belongs to one id. -/
theorem attached_unique {other : String} (h : Each (FileEvent.right cb) trace)
    (hone : .attached id d ∈ trace) (htwo : .attached other d ∈ trace) : id = other := by
  induction trace with
  | nil => cases hone
  | cons event past ih =>
    rcases List.mem_cons.mp hone with rfl | hold
    · rcases List.mem_cons.mp htwo with heq | hold
      · cases heq
        rfl
      · exact absurd hold (h.1.2.2 id d rfl other)
    · rcases List.mem_cons.mp htwo with rfl | hboth
      · exact absurd hold (h.1.2.2 other d rfl id)
      · exact ih h.2 hold hboth

theorem Receiving.no_destination (h : Receiving cb s) (hitem : item ∈ s.items)
    (hout : item.outgoing) : item.destination = none := by
  cases hd : item.destination with
  | none => rfl
  | some d => exact absurd hout ((h.items item hitem).filling d hd).incoming

theorem Receiving.note (h : Receiving cb s) (hcalm : event.calm := by rfl)
    (hkept : ∀ id, event ≠ .erased id := by simp)
    (hwrote : ∀ d, event.wroteTo d = none := by exact fun _ => rfl) :
    Receiving cb (s.note event) := by
  refine h.calm [event] rfl ?_ ?_ id ?_
  · simpa using hcalm
  · intro item hitem
    apply (h.items item hitem).append [event] .rfl
    · simpa using (hkept item.id).symm
    · refine fun d _ => ⟨by simpa using hwrote d, fun _ ok hmem => ?_⟩
      rw [← List.mem_singleton.mp hmem] at hcalm
      cases hcalm
  · exact fun old hold d hd => .inl ⟨old, hold, rfl, hd⟩

theorem Receiving.quiet (h : Receiving cb s) (hquiet : event.quiet) : Receiving cb (s.note event) :=
  have ⟨hcalm, hkept, hwrote⟩ := FileEvent.calm_of_quiet hquiet
  h.note hcalm hkept hwrote

theorem Receiving.congr (h : Receiving cb s) (hitems : t.items = s.items)
    (htrace : t.trace = s.trace) (hallowed : t.incomingEnabled = s.incomingEnabled) :
    Receiving cb t := by
  refine h.calm [] htrace (by simp) ?_ (by rw [hallowed]; exact id) ?_
  · intro item hitem
    rw [htrace]
    exact h.items item (hitems ▸ hitem)
  · exact fun old hold d hd => .inl ⟨old, hitems ▸ hold, rfl, hd⟩

theorem put_destination {other : Item} (hids : (s.items.map (·.id)).Nodup)
    (hold : s.find item.id = some old) (hsame : item.destination = old.destination)
    (hother : other ∈ s.items) (hd : other.destination = some d) :
    ∃ next ∈ (s.put item).items, next.id = other.id ∧ next.destination = some d := by
  by_cases heq : other.id = item.id
  · obtain rfl := eq_of_mem hids hother hold heq
    exact ⟨item, mem_put_self hold, heq.symm, hsame.trans hd⟩
  · exact ⟨other, mem_put_of_ne hother heq, rfl, hd⟩

theorem Receiving.put (h : Receiving cb s) (hids : (s.items.map (·.id)).Nodup)
    (hold : s.find item.id = some old) (hsame : item.Continues old) : Receiving cb (s.put item) := by
  refine h.calm (t := s.put item) [] rfl (by simp) ?_ id ?_
  · intro other hother
    rcases mem_put hother with rfl | ⟨hother, -⟩
    · exact (h.items old (mem_of_find hold)).append [] hsame (by simp) (by simp)
    · exact h.items other hother
  · exact fun other hother d hd => .inl (put_destination hids hold hsame.destination hother hd)

theorem Receiving.putOut (h : Receiving cb s) (hids : (s.items.map (·.id)).Nodup)
    (hold : s.find item.id = some old) (hout : old.outgoing) (hsize : item.size = old.size)
    (hsame : item.outgoing = old.outgoing) (haccepted : old.accepted → item.accepted)
    (hd : item.destination = old.destination) : Receiving cb (s.put item) := by
  refine h.put hids hold ⟨(id_of_find hold).symm, hsize, hsame, haccepted, hd, ?_, ?_⟩
  · rw [hsame]
    exact fun hin => absurd hout hin
  · rw [hd, h.no_destination (mem_of_find hold) hout]
    exact fun hsome => nomatch hsome

theorem Receiving.eq_of_destination {other : Item} (h : Receiving cb s) (hs : Sound s)
    (hitem : item ∈ s.items) (hother : other ∈ s.items) (hd : item.destination = some d)
    (hd' : other.destination = some d) : item = other :=
  eq_of_mem hs.limits.ids hitem (find_of_mem hs.limits.ids hother) (attached_unique h.right
    (hs.handles.attached item hitem d hd) (hs.handles.attached other hother d hd'))

theorem Receiving.leave (h : Receiving cb s) (hs : Sound s) (hitem : s.find item.id = some item)
    (extra : List FileEvent)
    (hextra : ∀ e ∈ extra, (e.calm ∧ (∀ id, e ≠ .erased id) ∧ ∀ d, e.wroteTo d = none) ∨
      ∃ d o b ok, item.destination = some d ∧ e = .wrote d o b ok)
    (hitems : t.items = s.items.filter (·.id ≠ item.id))
    (htrace : t.trace = aborts item ++ .erased item.id :: (extra ++ s.trace))
    (hallowed : t.incomingEnabled = s.incomingEnabled) : Receiving cb t := by
  have hevents : ∀ e ∈ aborts item ++ .erased item.id :: extra,
      (e.calm ∧ (∀ id, e = .erased id → id = item.id)) ∧
        ∀ d, item.destination ≠ some d → e.wroteTo d = none := by
    intro e he
    rcases List.mem_append.mp he with he | he
    · obtain ⟨_, rfl⟩ := mem_aborts he
      exact ⟨⟨rfl, by simp⟩, fun _ _ => rfl⟩
    · rcases List.mem_cons.mp he with rfl | he
      · exact ⟨⟨rfl, by simp⟩, fun _ _ => rfl⟩
      · rcases hextra e he with ⟨hcalm, hkept, hwrote⟩ | ⟨d, o, b, ok, hd, rfl⟩
        · exact ⟨⟨hcalm, fun id heq => absurd heq (hkept id)⟩, fun d _ => hwrote d⟩
        · refine ⟨⟨rfl, by simp⟩, fun d' hne => ?_⟩
          have : d ≠ d' := fun heq => hne (heq ▸ hd)
          cases ok <;> simp [FileEvent.wroteTo, this]
  have happend : t.trace = (aborts item ++ .erased item.id :: extra) ++ s.trace := by
    rw [htrace]; simp
  refine h.calm _ happend (fun e he => (hevents e he).1.1) ?_ (by rw [hallowed]; exact id) ?_
  · intro other hother
    rw [hitems, List.mem_filter] at hother
    obtain ⟨hother, hne⟩ := hother
    have hne : other.id ≠ item.id := by simpa using hne
    rw [happend]
    apply (h.items other hother).append _ .rfl
    · exact fun hmem => hne ((hevents _ hmem).1.2 _ rfl)
    · refine fun d hd => ⟨fun e he => (hevents e he).2 d fun hsame => ?_, fun _ ok hmem => ?_⟩
      · rw [h.eq_of_destination hs hother (mem_of_find hitem) hd hsame] at hne
        exact hne rfl
      · cases (hevents _ hmem).1.1
  · intro old hold d hd
    by_cases heq : old.id = item.id
    · right
      rw [eq_of_mem hs.limits.ids hold hitem heq] at hd
      simp [aborts, hd]
    · left
      refine ⟨old, ?_, rfl, hd⟩
      rw [hitems, List.mem_filter]
      exact ⟨hold, by simpa using heq⟩

theorem Receiving.close (h : Receiving cb s) (extra : List FileEvent)
    (hextra : ∀ e ∈ extra, e.calm) : Receiving cb { s with trace := extra ++ s.trace }.close := by
  refine h.calm (closing s.items ++ extra) (by simp) ?_ (by simp) (by simp) ?_
  · intro e he
    rcases List.mem_append.mp he with he | he
    · obtain ⟨_, _, rfl | ⟨_, _, rfl⟩⟩ := mem_closing he <;> rfl
    · exact hextra e he
  · intro old hold d hd
    exact .inr (List.mem_append_left _ (aborted_mem_closing hold hd))

theorem Receiving.insert (h : Receiving cb s) (hnew : s.find item.id = none)
    (hunused : item.offset = 0 ∧ item.destination = none)
    (hoffered : ¬ item.outgoing → ∃ name, Hearing cb (.offer item.id name item.size) s.trace) :
    Receiving cb (s.insert item) := by
  have hperm := insert_items_perm hnew
  have htrace : (s.insert item).trace = [.inserted item.id item.outgoing] ++ s.trace := by
    rw [insert_eq hnew]; rfl
  refine h.calm _ htrace (by simp [FileEvent.calm]) ?_ (by rw [insert_eq hnew]; exact id) ?_
  · intro other hother
    rw [htrace]
    rw [hperm.mem_iff, List.mem_cons] at hother
    rcases hother with rfl | hother
    · refine ⟨fun hin => ?_, fun _ _ => hunused, fun d hd => ?_⟩
      · refine SinceWhere.now ⟨?_, hoffered hin⟩
        simpa using hin
      · rw [hunused.2] at hd
        cases hd
    · apply (h.items other hother).append _ .rfl
      · simp
      · simp [FileEvent.wroteTo]
  · intro old hold d hd
    exact .inl ⟨old, hperm.mem_iff.mpr (List.mem_cons_of_mem _ hold), rfl, hd⟩

theorem Receiving.enable (h : Receiving cb s) (outgoing value : Bool) :
    Receiving cb (s.setEnabled outgoing value) := by
  refine h.step [.enabled outgoing value] setEnabled_trace (by simp) ?_ ?_ ?_ ?_
  · rw [setEnabled_trace]
    exact ⟨by simp [FileEvent.right], h.right⟩
  · intro item hitem
    rw [setEnabled_items] at hitem
    rw [setEnabled_trace]
    apply (h.items item hitem).append [.enabled outgoing value] .rfl
    · simp
    · simp [FileEvent.wroteTo]
  · intro hin
    rw [setEnabled_trace]
    cases outgoing with
    | true => exact (h.permitted hin).cons (by simp)
    | false =>
      have : value = true := hin
      rw [this]
      exact Since.now rfl
  · rw [setEnabled_items]
    exact fun old hold d hd => .inl ⟨old, hold, rfl, hd⟩

theorem Receiving.queue (h : Receiving cb s) (hwhy : Queueable s message) :
    Receiving cb ({ s with queue := s.queue ++ [message] }.note (.queued message)) := by
  refine h.step [.queued message] rfl (by simp) ⟨?_, h.right⟩ ?_ ?_ ?_
  · refine ⟨by simp, ?_, by simp⟩
    intro id digest heq
    rw [FileEvent.queued.injEq] at heq
    subst heq
    exact hwhy
  · intro item hitem
    apply (h.items item hitem).append [.queued message] .rfl
    · simp
    · simp [FileEvent.wroteTo]
  · exact fun hin => (h.permitted hin).cons (by simp)
  · exact fun old hold d hd => .inl ⟨old, hold, rfl, hd⟩

/-- A destination whose number is new has no history. -/
theorem writes_eq_nil (hfresh : ∀ e ∈ trace, ∀ d', e.destination? = some d' → d' < d) :
    writes d trace = [] := by
  unfold writes
  rw [List.reverse_eq_nil_iff, List.filterMap_eq_nil_iff]
  intro e he
  cases e with
  | wrote destination offset bytes ok =>
    have hlt : destination < d := hfresh _ he destination rfl
    cases ok <;> simp [FileEvent.wroteTo]
    omega
  | _ => rfl

theorem Receiving.attach (h : Receiving cb s) {path : String} {now : UInt64} (hash : Hash)
    (hhash : hash.data = []) (hduring : During (.approveDestination item.id path now) s.trace)
    (hitem : s.find item.id = some item) (hids : (s.items.map (·.id)).Nodup)
    (hin : ¬ item.outgoing) (hnew : ¬ item.accepted)
    (hfresh : ∀ e ∈ s.trace, ∀ d', e.destination? = some d' → d' < d) :
    Receiving cb ((s.note (.attached item.id d)).put (item.attachTo d hash now)) := by
  have hgood := h.items item (mem_of_find hitem)
  obtain ⟨hoffset, hnone⟩ := hgood.unused hin hnew
  have hoffered := hgood.offered hin
  have hunused : ∀ ok, .committed d ok ∉ s.trace :=
    fun ok hmem => absurd (hfresh _ hmem d rfl) (Nat.lt_irrefl d)
  have hunwritten : writes d (.attached item.id d :: s.trace) = [] := by
    rw [← List.singleton_append, writes_append (by simp [FileEvent.wroteTo])]
    exact writes_eq_nil hfresh
  have hitems : ∀ other ∈ ((s.note (.attached item.id d)).put (item.attachTo d hash now)).items,
      ItemGood cb (.attached item.id d :: s.trace) other := by
    intro other hother
    rcases mem_put hother with rfl | ⟨hother, hne⟩
    · refine ⟨fun _ => SinceWhere.cons hoffered (by simp), by simp [Item.attachTo], ?_⟩
      rintro d' hd'
      cases hd'
      refine ⟨hin, SinceWhere.now ⟨rfl, ⟨path, now, hduring⟩, hoffered⟩, ?_, ?_, ?_, ?_⟩
      · rw [hunwritten]
        exact hoffset.symm
      · rw [hunwritten]
        exact hhash.symm
      · rw [hunwritten]
        simp
      · simpa using fun _ => hunused
    · apply (h.items other hother).append [.attached item.id d] .rfl
      · simp
      · simp [FileEvent.wroteTo]
  refine ⟨hitems, ?_, ⟨⟨by simp, by simp, ?_⟩, h.right⟩, ?_⟩
  · exact fun hallowed => (h.permitted hallowed).cons (by simp)
  · rintro id d' heq other hmem
    cases heq
    exact absurd (hfresh _ hmem d rfl) (Nat.lt_irrefl d)
  · rintro later id d' earlier heq
    have hself : item.attachTo d hash now ∈
        ((s.note (.attached item.id d)).put (item.attachTo d hash now)).items :=
      mem_put_self hitem
    cases later with
    | nil =>
      simp only [put_trace, note_trace, List.nil_append, List.cons.injEq,
        FileEvent.attached.injEq] at heq
      obtain ⟨⟨rfl, rfl⟩, -⟩ := heq
      exact .inl ⟨_, hself, rfl, rfl⟩
    | cons first later =>
      simp only [put_trace, note_trace, List.cons_append, List.cons.injEq] at heq
      rcases h.settled later id d' earlier heq.2 with ⟨old, hold, hid, hd⟩ | hcommitted | haborted
      · left
        refine ⟨old, mem_put_of_ne hold ?_, hid, hd⟩
        intro hsame
        rw [eq_of_mem hids hold hitem hsame, hnone] at hd
        cases hd
      · exact .inr (.inl (List.mem_cons_of_mem _ hcommitted))
      · exact .inr (.inr (List.mem_cons_of_mem _ haborted))

/-- A chunk was written, and the item knows it. -/
theorem Receiving.written {bytes : Bytes} (h : Receiving cb s) (hs : Sound s) (now last : UInt64)
    (hheard : Hearing cb (.chunk item.id item.offset bytes) s.trace)
    (hitem : s.find item.id = some item) (hd : item.destination = some d)
    (hopen : ¬ item.digesting.finished) :
    Receiving cb ((s.note (.wrote d item.offset bytes true)).put (item.filled bytes now last)) := by
  have hgood := h.items item (mem_of_find hitem)
  have hfill := hgood.filling d hd
  have hwrites : writes d (.wrote d item.offset bytes true :: s.trace) =
      writes d s.trace ++ [(item.offset, bytes)] := writes_cons_wrote
  refine h.calm [.wrote d item.offset bytes true] rfl (by simp [FileEvent.calm]) ?_ id ?_
  · intro other hother
    show ItemGood cb (.wrote d item.offset bytes true :: s.trace) other
    rcases mem_put hother with rfl | ⟨hother, hne⟩
    · refine ⟨?_, ?_, ?_⟩
      · exact fun _ => SinceWhere.cons (hgood.offered hfill.incoming) (by simp)
      · intro _ hnew
        obtain ⟨-, hnone⟩ := hgood.unused hfill.incoming hnew
        rw [hnone] at hd
        cases hd
      · intro d' hd'
        have hdest : d = d' := Option.some.inj (hd.symm.trans hd')
        subst hdest
        refine ⟨hfill.incoming, SinceWhere.cons hfill.approved (by simp), ?_, ?_, ?_, ?_⟩
        · rw [hwrites]
          exact hfill.tiles.snoc bytes
        · rw [hwrites, content_append, hfill.hashed]
          simp [Item.filled, Item.digesting, Hash.fed]
        · rw [hwrites]
          intro piece hpiece
          rcases List.mem_append.mp hpiece with hpiece | hpiece
          · obtain ⟨past, hsuffix, hpast⟩ := hfill.heard piece hpiece
            exact ⟨past, hsuffix.trans (List.suffix_cons _ _), hpast⟩
          · rw [List.mem_singleton.mp hpiece]
            exact ⟨s.trace, List.suffix_cons _ _, hheard⟩
        · simpa using fun _ => hfill.uncommitted hopen
    · apply (h.items other hother).append [.wrote d item.offset bytes true] .rfl
      · simp
      · intro d' hd'
        have hne : d ≠ d' := by
          rintro rfl
          rw [h.eq_of_destination hs hother (mem_of_find hitem) hd' hd] at hne
          exact hne rfl
        simp [FileEvent.wroteTo, hne]
  · exact fun old hold d hd => .inl (put_destination hs.limits.ids hitem rfl hold hd)

theorem Hearing.cons (h : Hearing cb message trace) (hcall : ¬ event.isCall) :
    Hearing cb message (event :: trace) := by
  obtain ⟨op, hduring, hdelivers⟩ := h
  exact ⟨op, Since.cons hduring hcall, hdelivers⟩

theorem Receiving.commitRight {digest : String} (h : Receiving cb s)
    (hheard : Hearing cb (.complete item.id item.size digest) s.trace) (hitem : item ∈ s.items)
    (hallowed : s.incomingEnabled) (hd : item.destination = some d)
    (hsize : item.offset = item.size) (hopen : ¬ item.digesting.finished)
    (hdigest : hex (cb.sha256 item.digesting.data) = digest) : CommitRight cb d s.trace := by
  have hfill := (h.items item hitem).filling d hd
  refine ⟨hfill.uncommitted hopen, item.id, item.size, digest, hfill.approved,
    h.permitted hallowed, ?_, ?_, hheard, hfill.heard⟩
  · rw [← hsize]; exact hfill.tiles
  · rw [hfill.hashed]; exact hdigest

/-- A commit that is right, of an item whose digest is finished. -/
theorem Receiving.commit (h : Receiving cb s) (hs : Sound s) (ok : Bool) (hitem : item ∈ s.items)
    (hd : item.destination = some d) (hfinished : item.digesting.finished)
    (hright : CommitRight cb d s.trace) : Receiving cb (s.note (.committed d ok)) := by
  refine h.step [.committed d ok] rfl (by simp) ⟨⟨?_, by simp, by simp⟩, h.right⟩ ?_ ?_ ?_
  · rintro d' ok' heq
    cases heq
    exact hright
  · intro other hother
    refine (h.items other hother).append [.committed d ok] .rfl (by simp) fun d' hd' =>
      ⟨by simp [FileEvent.wroteTo], fun hopen ok' hmem => hopen ?_⟩
    cases List.mem_singleton.mp hmem
    rwa [h.eq_of_destination hs hother hitem hd' hd]
  · exact fun hallowed => (h.permitted hallowed).cons (by simp)
  · exact fun old hold d' hd' => .inl ⟨old, hold, rfl, hd'⟩

theorem During.hearing (h : During op trace) (hop : Delivers cb op message) :
    Hearing cb message trace := ⟨op, h, hop⟩

theorem Move.receiving (h : Move cb op sending s t) (hs : Sound s) (hduring : During op s.trace)
    (hr : Receiving cb s) : Receiving cb t := by
  have hids := hs.limits.ids
  have hsame : ∀ {item next : Item}, next.id = item.id → next.size = item.size →
      next.outgoing = item.outgoing → (item.accepted → next.accepted) →
      next.destination = item.destination → next.offset = item.offset →
      next.digesting = item.digesting → next.Continues item :=
    fun h₁ h₂ h₃ h₄ h₅ h₆ h₇ => ⟨h₁, h₂, h₃, h₄, h₅, fun _ => h₆, fun _ => by simp [h₇]⟩
  cases h with
  | mark event hquiet => exact hr.quiet hquiet
  | subtract a b => exact hr.note
  | close events hevents =>
    apply hr.close
    intro e he
    rcases hevents e he with hquiet | ⟨_, _, _, _, rfl⟩ | ⟨_, _, rfl⟩
    · exact (FileEvent.calm_of_quiet hquiet).1
    · rfl
    · rfl
  | overflow => exact hr.close [.overflowed] (by simp [FileEvent.calm])
  | enable outgoing value => exact hr.enable outgoing value
  | drop keep => exact hr.congr rfl rfl rfl
  | discard item events hitem hevents =>
    refine hr.leave (t := { s with trace := events ++ s.trace }.discard item) hs hitem events ?_
      (by simp) (by simp) (by simp)
    intro e he
    rcases hevents e he with hquiet | hwrote
    · exact .inl (FileEvent.calm_of_quiet hquiet)
    · exact .inr hwrote
  | queue message hroom hwhy => exact hr.queue hwhy
  | pop message rest =>
    have hsent : Receiving cb ({ s with queue := rest }.note
        (.sent message.type (message.payload cb.json) true)) :=
      Receiving.note (hr.congr rfl rfl rfl)
    rcases clearPending_cases message with heq | ⟨item, hfind, -, -, heq⟩
    · rw [heq]; exact hsent
    · rw [heq]
      rw [← id_of_find hfind] at hfind
      exact hsent.put hids hfind (hsame rfl rfl rfl id rfl rfl rfl)
  | insertOut item uuid source path now hitem hname hdrawn hopened hfits =>
    apply hr.insert hfits.fresh
    · rw [hitem]
      exact ⟨rfl, rfl⟩
    · rw [hitem]
      exact fun hin => absurd rfl hin
  | insertIn item now hin hop hitem hunseen hfits =>
    apply hr.insert hfits.fresh
    · rw [hitem]
      exact ⟨rfl, rfl⟩
    · exact fun _ => ⟨item.name, hduring.hearing hop⟩
  | offered item hitem => exact hr.put hids hitem (hsame rfl rfl rfl id rfl rfl rfl)
  | accepted item now hitem => exact hr.put hids hitem (hsame rfl rfl rfl (fun _ => rfl) rfl rfl rfl)
  | start item good hitem hout =>
    exact Receiving.quiet (hr.putOut hids hitem hout rfl rfl id rfl) rfl
  | sentChunk item bytes source now hitem hout =>
    exact Receiving.note (Receiving.putOut (hr.quiet rfl) hids hitem hout rfl rfl id rfl)
  | acked item now last hitem hout => exact hr.putOut hids hitem hout rfl rfl id rfl
  | completing item source now hitem hout =>
    exact Receiving.putOut ((hr.quiet rfl).quiet rfl) hids hitem hout rfl rfl id rfl
  | finishOut item hitem hout =>
    exact hr.leave hs hitem [.notice (completeNotice item)]
      (by simp [FileEvent.calm, FileEvent.wroteTo]) (by simp) (by simp) (by simp)
  | attach item d path now good hop hitem hin hnew hactive hd hfresh =>
    rw [hop] at hduring
    have hattached : Receiving cb ((s.note (.attached item.id d)).put
        (item.attachTo d { good := good } now)) :=
      hr.attach _ rfl hduring hitem hids hin hnew hfresh
    have hquiet : (FileEvent.hashed .init good).quiet := rfl
    exact hattached.quiet hquiet
  | written item d bytes now last hop hitem hin hd hack hsize hgood =>
    have hwritten : Receiving cb ((s.note (.wrote d item.offset bytes true)).put
        (item.filled bytes now last)) :=
      hr.written hs now last (hduring.hearing hop) hitem hd hgood.2
    have hcurrent : (FileEvent.current true).quiet := rfl
    have hhashed : (FileEvent.hashed .update true).quiet := rfl
    exact (hwritten.quiet hcurrent).quiet hhashed
  | sealed item digest finished hitem hdigest hfinished =>
    exact hr.put hids hitem ⟨rfl, rfl, rfl, id, rfl, fun _ => rfl, fun _ => ⟨rfl, hfinished⟩⟩
  | commit item d digest ok hop hitem hin hallowed hd hack hsize hgood hdigest =>
    have hquiet : Receiving cb ((s.note (.hashed .final true)).note (.current true)) :=
      (hr.quiet rfl).quiet rfl
    have hright := hquiet.commitRight (((hduring.hearing hop).cons id).cons id)
      (mem_of_find hitem) hallowed hd hsize hgood.2 hdigest
    have hsound : Sound (((s.note (.hashed .final true)).note (.current true)).put
        (item.sealHash true).markCompleting) :=
      ⟨Limits.touch ((hs.limits.note _).note _) hitem .inl,
        Handles.put ((hs.handles.quiet rfl).quiet rfl) hitem rfl⟩
    have hput : Receiving cb (((s.note (.hashed .final true)).note (.current true)).put
        (item.sealHash true).markCompleting) := hquiet.put hids hitem
      ⟨rfl, rfl, rfl, id, rfl, fun _ => rfl, fun _ => ⟨rfl, fun _ => rfl⟩⟩
    exact hput.commit hsound ok (mem_put_self hitem) hd rfl hright
  | finishIn item name hitem =>
    exact hr.leave hs hitem [.notice (completeNotice { item with name := name })]
      (by simp [FileEvent.calm, FileEvent.wroteTo]) (by simp) (by rw [retire_eq]; rfl) (by simp)

/-- The state of a call in progress. -/
structure Underway (cb : Callbacks) (op : FileOp) (s : Transfer) : Prop where
  sound : Sound s
  during : During op s.trace
  receiving : Receiving cb s

theorem Move.underway (h : Move cb op sending s t) (hs : Underway cb op s) : Underway cb op t := by
  refine ⟨h.sound hs.sound, ?_, h.receiving hs.sound hs.during hs.receiving⟩
  obtain ⟨events, htrace, hallowed⟩ := h.grows
  rw [htrace]
  exact Since.append hs.during fun e he => FileEvent.not_isCall_of_allowed (hallowed e he)

theorem Call.underway (h : Call cb op s t) (hs : Underway cb op s) : Underway cb op t := by
  rcases h with hmoves | ⟨mid, hmoves, hsending⟩
  · exact hmoves.keeps (fun _ _ hs hm => hm.underway hs) hs
  · have hmid := hmoves.keeps (fun _ _ hs hm => hm.underway hs) hs
    apply hsending.keeps (fun _ _ hs hm => hm.underway hs)
    refine ⟨hmid.sound.note rfl fun _ => rfl, ?_, ?_⟩
    · exact Since.cons hmid.during id
    · exact hmid.receiving.note

theorem step_receiving (op : FileOp) (hs : Sound s) (hr : Receiving cb s) :
    Receiving cb (step cb s op) := by
  have hcalled : Underway cb op (s.note (.called op)) :=
    ⟨hs.note rfl fun _ => rfl, Since.now rfl, hr.note⟩
  have hend := (perform_call op hcalled.sound).underway hcalled
  exact hend.receiving.note

theorem run_receiving (cb : Callbacks) (ops : List FileOp) : Receiving cb (run cb ops) := by
  refine (Runs.always_of_step (q := fun s => Sound s ∧ Receiving cb s) (fun _ op hs => ?_) ?_).last.2
  · exact ⟨step_sound op hs.1, step_receiving op hs.1 hs.2⟩
  · exact ⟨sound_empty, by simp, by simp, trivial, by simp [Settled]⟩

/-- A file endpoint as a receiver, against any peer and any storage. Every commit
has its own destination, follows a local approval of the very offer, happens
while the direction is permitted, and what was written tiles the offered size
and hashes to the digest of the message that is being handled. The final
acknowledgement comes after a successful commit, and a destination that is no
longer at an item was committed or aborted. -/
theorem run_receiver_safe (cb : Callbacks) (ops : List FileOp) :
    (∀ later d ok earlier, (run cb ops).trace = later ++ .committed d ok :: earlier →
        (∀ ok, .committed d ok ∉ earlier) ∧
          ∃ id size digest, Approved cb id d size earlier ∧ Permitted earlier ∧
            Tiles 0 (writes d earlier) size ∧
            hex (cb.sha256 (content (writes d earlier))) = digest ∧
            Hearing cb (.complete id size digest) earlier) ∧
      (∀ later id digest earlier,
        (run cb ops).trace = later ++ .queued (.ackDigest id digest) :: earlier →
          ∃ d, .attached id d ∈ earlier ∧ Since (· = .committed d true) FileEvent.isCall earlier) ∧
      ∀ later id d earlier, (run cb ops).trace = later ++ .attached id d :: earlier →
        (∃ item ∈ (run cb ops).items, item.id = id ∧ item.destination = some d) ∨
          .committed d true ∈ later ∨ .aborted d ∈ later := by
  have hr := run_receiving cb ops
  have hright := each_iff.mp hr.right
  refine ⟨?_, ?_, hr.settled⟩
  · intro later d ok earlier heq
    obtain ⟨hnew, id, size, digest, happroved, hpermitted, htiles, hdigest, hheard, -⟩ :=
      (hright later _ earlier heq).1 d ok rfl
    exact ⟨hnew, id, size, digest, happroved, hpermitted, htiles, hdigest, hheard⟩
  · intro later id digest earlier heq
    exact (hright later _ earlier heq).2.1 id digest rfl

/-- At any time what was written for an item follows on without a gap, is what its digest was
fed with and came in chunks of that very file, for a destination that no other item has; what
is committed came in such chunks altogether. -/
theorem written_bytes_were_sent (cb : Callbacks) (ops : List FileOp) :
    (∀ item ∈ (run cb ops).items, ∀ d, item.destination = some d →
        Filling cb (run cb ops).trace item d ∧
          ∀ other ∈ (run cb ops).items, other.destination = some d → item = other) ∧
      Each (fun event past => ∀ d ok, event = .committed d ok → CommitRight cb d past)
        (run cb ops).trace := by
  have hr := run_receiving cb ops
  have hs : Sound (run cb ops) :=
    (Runs.always_of_step (fun _ op h => step_sound op h) sound_empty).last
  refine ⟨fun item hitem d hd => ⟨(hr.items item hitem).filling d hd, fun other hother hd' => ?_⟩,
    each_iff.mpr fun later event past heq => (each_iff.mp hr.right later event past heq).1⟩
  exact hr.eq_of_destination hs hitem hother hd hd'

end HomeTunnel.Remote.Files
