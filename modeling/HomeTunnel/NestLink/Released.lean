import HomeTunnel.NestLink.Browser

/-! # Input needs a live grant and is released

What the log of a worker says: whatever was injected or captured was permitted when its
command was taken, whatever is pressed is recorded as held, and an iteration that finds
something wrong ends with nothing held.
-/

namespace HomeTunnel.NestLink.Browser

/-- A successful `Allow`. -/
structure Allowance where
  id : String
  epoch : Nat
  remaining : Nat
  now : Nat
deriving DecidableEq, Repr

def lastTaken : List Event → Option (Nat × Nat)
  | [] => none
  | .taken now epoch :: _ => some (now, epoch)
  | _ :: before => lastTaken before

def lastAllowed : List Event → Option Allowance
  | [] => none
  | .allowed id epoch remaining now :: _ => some ⟨id, epoch, remaining, now⟩
  | _ :: before => lastAllowed before

/-- When the latest command was taken, the latest successful `Allow` was for `id`, its seconds
had not passed and `EPOCH` was the one of that `Allow`. -/
def Permitted (before : List Event) (id : String) : Prop :=
  ∃ now epoch a, lastTaken before = some (now, epoch) ∧ lastAllowed before = some a ∧
    a.id = id ∧ now < a.now + a.remaining * 1000 ∧ epoch = a.epoch

/-- The id under which an event injects input or captures a frame. -/
def Event.actor : Event → Option String
  | .injected id _ | .captured id => some id
  | _ => none

/-- Every injection and every capture was permitted. -/
def Lawful : List Event → Prop
  | [] => True
  | event :: before => (∀ id, event.actor = some id → Permitted before id) ∧ Lawful before

variable {log : List Event} {event : Event}

theorem Lawful.permitted {later before : List Event} {id : String} (h : Lawful log)
    (hlog : log = later ++ event :: before) (hactor : event.actor = some id) :
    Permitted before id := by
  subst hlog
  induction later with
  | nil => exact h.1 id hactor
  | cons _ _ ih => exact ih h.2

/-- The control that an event presses or lets go. -/
def Event.touches : Event → Option (Control × Bool)
  | .injected _ (.down control true) => some (control, true)
  | .injected _ (.up control) | .released control => some (control, false)
  | _ => none

/-- The control was pressed and not let go since. -/
def pressed (control : Control) : List Event → Bool
  | [] => false
  | event :: before =>
    match event.touches with
    | some (touched, down) => if touched = control then down else pressed control before
    | none => pressed control before

def Event.isFinding : Event → Bool
  | .notLive | .late | .failed | .stopped => true
  | _ => false

theorem pressed_cons_of_none {control : Control} (h : event.touches = none) :
    pressed control (event :: log) = pressed control log := by
  rw [pressed, h]

theorem pressed_cons_of_some {control touched : Control} {down : Bool}
    (h : event.touches = some (touched, down)) :
    pressed control (event :: log) =
      if touched = control then down else pressed control log := by
  rw [pressed, h]

/-- What is let go is not pressed, and nothing else changes. -/
theorem pressed_released (control : Control) (controls : List Control) (log : List Event) :
    pressed control ((controls.map Event.released).reverse ++ log) =
      if control ∈ controls then false else pressed control log := by
  induction controls generalizing log with
  | nil => simp
  | cons first rest ih =>
    rw [List.map_cons, List.reverse_cons, List.append_assoc, List.singleton_append, ih,
      pressed_cons_of_some (show Event.touches (.released first) = some (first, false) from rfl)]
    by_cases hrest : control ∈ rest
    · simp [hrest]
    · by_cases hfirst : first = control
      · simp [hfirst]
      · simp [hrest, hfirst, Ne.symm hfirst]

/-- An event that no reader of the log looks at. -/
structure Event.Plain (event : Event) : Prop where
  actor : event.actor = none
  touches : event.touches = none
  allowed : ∀ log, lastAllowed (event :: log) = lastAllowed log

theorem plain_of_finding (h : event.isFinding) : event.Plain := by
  cases event with
  | notLive | late | failed | stopped => exact ⟨rfl, rfl, fun _ => rfl⟩
  | taken | allowed | injected | captured | released => cases h

theorem plain_taken (now epoch : Nat) : (Event.taken now epoch).Plain :=
  ⟨rfl, rfl, fun _ => rfl⟩

/-- Letting go grants nothing and is always lawful. -/
theorem released_lawful (controls : List Control) (log : List Event) :
    lastAllowed ((controls.map Event.released).reverse ++ log) = lastAllowed log ∧
      (Lawful log → Lawful ((controls.map Event.released).reverse ++ log)) := by
  induction controls generalizing log with
  | nil => exact ⟨rfl, id⟩
  | cons first rest ih =>
    rw [List.map_cons, List.reverse_cons, List.append_assoc]
    obtain ⟨hallowed, hlawful⟩ := ih (.released first :: log)
    exact ⟨hallowed, fun h => hlawful ⟨nofun, h⟩⟩

namespace Worker

variable {lib : Library} {w w' w'' : Worker} {turn : Turn}

structure Inv (w : Worker) : Prop where
  account : w.world.account.Inv
  -- `EPOCH` starts at one
  started : 0 < w.world.account.epoch
  idle : w.state.epoch = 0 → w.state.keys = [] ∧ w.state.buttons = []
  granted : w.state.epoch ≠ 0 → w.state.epoch ≤ w.world.account.epoch ∧
    ∃ a, lastAllowed w.log = some a ∧ a.id = w.state.id ∧ a.epoch = w.state.epoch ∧
      w.state.deadline = a.now + a.remaining * 1000
  held : ∀ control, pressed control w.log → control ∈ w.state.held
  keys : ∀ entry ∈ w.state.keys, key entry.1 = some entry.2
  buttons : ∀ entry ∈ w.state.buttons, mouseButton entry.1 = some entry.2
  lawful : Lawful w.log

/-- Time has passed. -/
structure Later (w w' : Worker) : Prop where
  state : w'.state = w.state
  log : w'.log = w.log
  inv : w.world.account.Inv → w'.world.account.Inv
  now : w.now ≤ w'.now
  epoch : w.world.account.epoch ≤ w'.world.account.epoch

theorem Later.refl (w : Worker) : Later w w := ⟨rfl, rfl, id, Nat.le_refl _, Nat.le_refl _⟩

theorem Later.trans (h : Later w w') (h' : Later w' w'') : Later w w'' :=
  ⟨h'.state.trans h.state, h'.log.trans h.log, h'.inv ∘ h.inv, h.now.trans h'.now,
    h.epoch.trans h'.epoch⟩

theorem later_changes (checks : Checks) (world : World) (changes : List Change) :
    (world.account.Inv → (changes.foldl (World.change checks) world).account.Inv) ∧
      world.account.now ≤ (changes.foldl (World.change checks) world).account.now ∧
      world.account.epoch ≤ (changes.foldl (World.change checks) world).account.epoch := by
  induction changes generalizing world with
  | nil => exact ⟨id, Nat.le_refl _, Nat.le_refl _⟩
  | cons change rest ih =>
    obtain ⟨hinv, hnow, hepoch⟩ := ih (world.change checks change)
    cases change with
    | account action =>
      have hstep := (Account.effect_step checks world.account action).counters.1.1
      exact ⟨fun h => hinv (h.step action),
        (Account.now_step checks world.account action).trans hnow, hstep.trans hepoch⟩
    | share stopped => exact ⟨hinv, hnow, hepoch⟩

theorem later_pass (lib : Library) (w : Worker) : Later w (w.pass lib) := by
  unfold pass
  split
  · exact Later.refl w
  · next changes rest _ =>
    obtain ⟨hinv, hnow, hepoch⟩ := later_changes lib.checks w.world changes
    exact ⟨rfl, rfl, hinv, hnow, hepoch⟩

/-- A worker whose grant is live is within the time and the epoch of the grant; all that
`live` leaves behind otherwise is the note. -/
theorem live_spec (lib : Library) (w : Worker) : ∃ v, Later w v ∧
    (w.live lib = (false, v.note .notLive) ∨ w.live lib = (true, v) ∧ w.state.epoch ≠ 0 ∧
      w.now < w.state.deadline ∧ w.world.account.epoch ≤ w.state.epoch) := by
  unfold live
  split
  · exact ⟨w, Later.refl w, .inl rfl⟩
  · next hgrant =>
    have hclock := later_pass lib w
    have hasked := hclock.trans (later_pass lib _)
    have hcounted := hasked.trans (later_pass lib _)
    have hoption := hcounted.trans (later_pass lib _)
    dsimp only
    split
    · exact ⟨_, hclock, .inl rfl⟩
    · next htime =>
      split
      · exact ⟨_, hasked, .inl rfl⟩
      · split
        · exact ⟨_, hcounted, .inl rfl⟩
        · next hepoch =>
          refine ⟨_, hoption, ?_⟩
          rw [hclock.state] at htime
          rw [hcounted.state, not_not] at hepoch
          have hnow := hclock.now
          have hup := hcounted.epoch
          cases hstop : ((((w.pass lib).pass lib).pass lib).pass lib).world.stopService with
          | true => exact .inl rfl
          | false => exact .inr ⟨rfl, hgrant, by omega, by omega⟩

/-- What the invariant reads is the same, but for the account that has moved on. -/
theorem Inv.same (h : w.Inv) (hid : w'.state.id = w.state.id)
    (hgrant : w'.state.epoch = w.state.epoch) (hdeadline : w'.state.deadline = w.state.deadline)
    (hkeys : w'.state.keys = w.state.keys) (hbuttons : w'.state.buttons = w.state.buttons)
    (hlog : w'.log = w.log) (haccount : w'.world.account.Inv)
    (hepoch : w.world.account.epoch ≤ w'.world.account.epoch) : w'.Inv := by
  refine ⟨haccount, h.started.trans_le hepoch, ?_, ?_, ?_, ?_, ?_, hlog ▸ h.lawful⟩
  · rw [hgrant, hkeys, hbuttons]
    exact h.idle
  · rw [hgrant, hid, hdeadline, hlog]
    exact fun hne => ⟨(h.granted hne).1.trans hepoch, (h.granted hne).2⟩
  · rw [State.held, hkeys, hbuttons, hlog]
    exact h.held
  · rw [hkeys]
    exact h.keys
  · rw [hbuttons]
    exact h.buttons

theorem Inv.later (h : w.Inv) (hlater : Later w w') : w'.Inv := by
  obtain ⟨hstate, hlog, hinv, _, hepoch⟩ := hlater
  refine h.same ?_ ?_ ?_ ?_ ?_ hlog (hinv h.account) hepoch <;> rw [hstate]

theorem Inv.note (h : w.Inv) {event : Event} (hplain : event.Plain) : (w.note event).Inv := by
  refine ⟨h.account, h.started, h.idle, ?_, ?_, h.keys, h.buttons, ?_, h.lawful⟩
  · intro hne
    rw [show (w.note event).log = event :: w.log from rfl, hplain.allowed]
    exact h.granted hne
  · intro control hpressed
    rw [show (w.note event).log = event :: w.log from rfl,
      pressed_cons_of_none hplain.touches] at hpressed
    exact h.held control hpressed
  · intro id hid
    rw [hplain.actor] at hid
    cases hid

theorem Inv.not_pressed_release (h : w.Inv) (control : Control) :
    pressed control w.release.log = false := by
  dsimp only [release]
  rw [pressed_released]
  split
  · rfl
  · next hheld => exact Bool.eq_false_iff.mpr fun hpressed => hheld (h.held control hpressed)

theorem Inv.release (h : w.Inv) : w.release.Inv where
  account := h.account
  started := h.started
  idle := fun _ => ⟨rfl, rfl⟩
  granted := fun hne => by
    dsimp only [Worker.release]
    rw [(released_lawful _ _).1]
    exact h.granted hne
  held := fun control hpressed => by
    rw [h.not_pressed_release control] at hpressed
    cases hpressed
  keys := fun _ hentry => nomatch hentry
  buttons := fun _ hentry => nomatch hentry
  lawful := (released_lawful _ _).2 h.lawful

theorem Inv.reset (h : w.Inv) : w.reset.Inv where
  account := h.account
  started := h.started
  idle := fun _ => ⟨rfl, rfl⟩
  granted := fun hne => absurd rfl hne
  held := h.release.held
  keys := h.release.keys
  buttons := h.release.buttons
  lawful := h.release.lawful

/-- The events since `w`: whatever `w` held is held still or was let go by one of them. -/
structure Since (w w' : Worker) (new : List Event) : Prop where
  log : w'.log = new ++ w.log
  covered : ∀ control ∈ w.state.held,
    control ∈ w'.state.held ∨ ∃ event ∈ new, event.touches = some (control, false)

theorem Since.trans {new more : List Event} (h : Since w w' new) (h' : Since w' w'' more) :
    Since w w'' (more ++ new) := by
  refine ⟨by rw [h'.log, h.log, List.append_assoc], fun control hheld => ?_⟩
  rcases h.covered control hheld with hstill | ⟨event, hevent, hup⟩
  · rcases h'.covered control hstill with hstill' | ⟨event, hevent, hup⟩
    · exact .inl hstill'
    · exact .inr ⟨event, List.mem_append_left _ hevent, hup⟩
  · exact .inr ⟨event, List.mem_append_right _ hevent, hup⟩

def Quiet (new : List Event) : Prop := ∀ event ∈ new, event.isFinding = false

theorem quiet_one (h : event.isFinding = false) : Quiet [event] := by simpa [Quiet] using h

def Empty (w : Worker) : Prop := w.state.keys = [] ∧ w.state.buttons = []

/-- The invariant holds after a stretch that found nothing. -/
def Kept (w w' : Worker) : Prop := w'.Inv ∧ ∃ new, Since w w' new ∧ Quiet new

/-- The invariant holds and nothing is held any more. -/
def Cleared (w w' : Worker) : Prop := w'.Inv ∧ (∃ new, Since w w' new) ∧ w'.Empty

theorem Kept.trans (h : Kept w w') (h' : Kept w' w'') : Kept w w'' := by
  obtain ⟨_, new, hsince, hquiet⟩ := h
  obtain ⟨hinv, more, hsince', hquiet'⟩ := h'
  refine ⟨hinv, _, hsince.trans hsince', fun event hevent => ?_⟩
  rcases List.mem_append.mp hevent with hmore | hnew
  · exact hquiet' event hmore
  · exact hquiet event hnew

theorem Kept.since (h : Kept w w') : ∃ new, Since w w' new :=
  let ⟨_, new, hsince, _⟩ := h
  ⟨new, hsince⟩

theorem Cleared.after (h : ∃ new, Since w w' new) (h' : Cleared w' w'') : Cleared w w'' := by
  obtain ⟨new, hsince⟩ := h
  obtain ⟨hinv, ⟨more, hsince'⟩, hempty⟩ := h'
  exact ⟨hinv, ⟨_, hsince.trans hsince'⟩, hempty⟩

/-- Nothing was found, or nothing is held any more. -/
def Settled (w w' : Worker) : Prop := Kept w w' ∨ Cleared w w'

theorem Settled.inv (h : Settled w w') : w'.Inv := h.elim (·.1) (·.1)

theorem Settled.since (h : Settled w w') : ∃ new, Since w w' new := h.elim Kept.since (·.2.1)

theorem Settled.after (h : Kept w w') (h' : Settled w' w'') : Settled w w'' :=
  h'.imp h.trans (·.after h.since)

theorem Settled.cleared (h : Settled w w') (h' : Cleared w' w'') : Settled w w'' :=
  .inr (h'.after h.since)

theorem since_later (h : Later w w') : Since w w' [] :=
  ⟨h.log, fun _ hheld => .inl (h.state ▸ hheld)⟩

theorem kept_later (h : w.Inv) (hlater : Later w w') : Kept w w' :=
  ⟨h.later hlater, [], since_later hlater, fun _ hevent => nomatch hevent⟩

theorem Settled.later (h : Settled w w') (hlater : Later w' w'') : Settled w w'' := by
  rcases h with hkept | ⟨hinv, hsince, hempty⟩
  · exact .inl (hkept.trans (kept_later hkept.1 hlater))
  · refine .inr (Cleared.after hsince ⟨hinv.later hlater, ⟨_, since_later hlater⟩, ?_⟩)
    unfold Empty
    rw [hlater.state]
    exact hempty

theorem Kept.refl (h : w.Inv) : Kept w w := kept_later h (Later.refl w)

theorem since_note (w : Worker) (event : Event) : Since w (w.note event) [event] :=
  ⟨rfl, fun _ hheld => .inl hheld⟩

theorem since_release (w : Worker) :
    Since w w.release (w.state.held.map Event.released).reverse :=
  ⟨rfl, fun control hheld => .inr ⟨.released control,
    List.mem_reverse.mpr (List.mem_map_of_mem hheld), rfl⟩⟩

theorem quiet_released (controls : List Control) :
    Quiet (controls.map Event.released).reverse := by
  intro event hevent
  obtain ⟨control, _, rfl⟩ := List.mem_map.mp (List.mem_reverse.mp hevent)
  rfl

theorem since_reset (w : Worker) :
    Since w w.reset (w.state.held.map Event.released).reverse :=
  ⟨rfl, (since_release w).covered⟩

theorem kept_release (h : w.Inv) : Kept w w.release :=
  ⟨h.release, _, since_release w, quiet_released _⟩

theorem kept_reset (h : w.Inv) : Kept w w.reset :=
  ⟨h.reset, _, since_reset w, quiet_released _⟩

theorem cleared_release (h : w.Inv) : Cleared w w.release :=
  ⟨h.release, ⟨_, since_release w⟩, rfl, rfl⟩

theorem cleared_reset (h : w.Inv) : Cleared w w.reset :=
  ⟨h.reset, ⟨_, since_reset w⟩, rfl, rfl⟩

theorem found_later (h : w.Inv) (hlater : Later w w') {e : Event} (hfinding : e.isFinding) :
    (w'.note e).Inv ∧ ∃ new, Since w (w'.note e) new :=
  ⟨(h.later hlater).note (plain_of_finding hfinding),
    _, (since_later hlater).trans (since_note w' e)⟩

/-- After a finding everything is let go. -/
theorem cleared_found (h : w.Inv) (hlater : Later w w') {e : Event} (hfinding : e.isFinding) :
    Cleared w (w'.note e).release ∧ Cleared w (w'.note e).reset := by
  obtain ⟨hinv, hsince⟩ := found_later h hlater hfinding
  exact ⟨(cleared_release hinv).after hsince, (cleared_reset hinv).after hsince⟩

/-- Only what is not read by the invariant changes in the state. -/
theorem kept_state (h : w.Inv) (state : State) (hid : state.id = w.state.id)
    (hepoch : state.epoch = w.state.epoch) (hdeadline : state.deadline = w.state.deadline)
    (hkeys : state.keys = w.state.keys) (hbuttons : state.buttons = w.state.buttons) :
    Kept w { w with state := state } := by
  refine ⟨h.same hid hepoch hdeadline hkeys hbuttons rfl h.account le_rfl, [],
    ⟨rfl, fun control hin => .inl ?_⟩, nofun⟩
  rwa [State.held, hkeys, hbuttons]

theorem epoch_of_browserGrant {world : World} {seconds epoch remaining : Nat}
    {token id offer answer : String} (h : world.account.Inv)
    (hgrant : browserGrant lib world seconds token id offer answer = .ok (epoch, remaining)) :
    epoch = world.account.epoch := by
  unfold browserGrant at hgrant
  split at hgrant
  · cases hgrant
  · next auth hauth =>
    split at hgrant
    · cases hgrant
    · split at hgrant
      · cases hgrant
      · split at hgrant
        · cases hgrant
        · cases hgrant
          exact h.epoch auth (Option.filter_eq_some_iff.mp hauth).1

theorem kept_allowed (h : w.Inv) {epoch remaining : Nat} (hpositive : epoch ≠ 0)
    (hepoch : epoch ≤ w.world.account.epoch) :
    Kept w { w with
      state := { w.state with epoch := epoch, deadline := w.now + remaining * 1000 }
      log := .allowed w.state.id epoch remaining w.now :: w.log } := by
  refine ⟨⟨h.account, h.started, fun hzero => absurd hzero hpositive, ?_, h.held, h.keys,
    h.buttons, fun _ hid => (nomatch hid), h.lawful⟩, [_], ⟨rfl, fun _ hheld => .inl hheld⟩,
    quiet_one rfl⟩
  exact fun _ => ⟨hepoch, _, rfl, rfl, rfl, rfl⟩

theorem kept_renamed (h : w.Inv) (hidle : w.state.epoch = 0) (id : String) (heartbeat : Nat) :
    Kept w { w with state := { w.state with id := id, heartbeat := heartbeat } } :=
  ⟨⟨h.account, h.started, h.idle, fun hne => absurd hidle hne, h.held, h.keys, h.buttons,
    h.lawful⟩, [], ⟨rfl, fun _ hheld => .inl hheld⟩, fun _ hevent => nomatch hevent⟩

theorem grant_spec (h : w.Inv) (id text : String) : Kept w (w.grant lib turn id text).2 := by
  unfold grant
  split
  · exact Kept.refl h
  · next value _ =>
    have hasked : Kept w (w.pass lib) := kept_later h (later_pass lib w)
    dsimp only
    split
    · exact hasked
    · next epoch remaining hgrant =>
      have hepoch := epoch_of_browserGrant hasked.1.account hgrant
      have hstarted := hasked.1.started
      split
      · have hreset := kept_reset hasked.1
        have hlater := later_pass lib (w.pass lib).reset
        have hfresh := hreset.trans (kept_later hreset.1 hlater)
        have hidle : ((w.pass lib).reset.pass lib).state.epoch = 0 := by rw [hlater.state]; rfl
        have hown := kept_renamed hfresh.1 hidle id ((w.pass lib).reset.pass lib).now
        have htimed := kept_later hown.1 (later_pass lib _)
        have hup : (w.pass lib).world.account.epoch ≤ _ :=
          hlater.epoch.trans (later_pass lib { (w.pass lib).reset.pass lib with
            state := { ((w.pass lib).reset.pass lib).state with
              id := id, heartbeat := ((w.pass lib).reset.pass lib).now } }).epoch
        refine (hasked.trans hfresh).trans ((hown.trans htimed).trans ?_)
        exact kept_allowed htimed.1 (by omega) (hepoch.le.trans hup)
      · have hlater := later_pass lib (w.pass lib)
        have htimed := kept_later hasked.1 hlater
        refine hasked.trans (htimed.trans ?_)
        exact kept_allowed htimed.1 (by omega) (hepoch.le.trans hlater.epoch)

theorem permitted_cons {log : List Event} {id : String} (h : Permitted log id) (event : Event)
    (htaken : lastTaken (event :: log) = lastTaken log)
    (hallowed : lastAllowed (event :: log) = lastAllowed log) : Permitted (event :: log) id := by
  unfold Permitted
  rw [htaken, hallowed]
  exact h

theorem kept_inject (h : w.Inv) (hpermitted : Permitted w.log w.state.id) {injection : Injection}
    (hplain : (Event.injected w.state.id injection).touches = none) :
    Kept w (w.inject injection) := by
  refine ⟨⟨h.account, h.started, h.idle, h.granted, ?_, h.keys, h.buttons,
    fun _ hid => Option.some.inj hid ▸ hpermitted, h.lawful⟩, [.injected w.state.id injection],
    since_note w _, quiet_one rfl⟩
  intro control hpressed
  rw [show (w.inject injection).log = .injected w.state.id injection :: w.log from rfl,
    pressed_cons_of_none hplain] at hpressed
  exact h.held control hpressed

theorem mem_insert {α : Type} [LE α] [DecidableLE α] {β : Type} {entry new : α × β}
    {map : List (α × β)} : entry ∈ insert new map ↔ entry = new ∨ entry ∈ map :=
  List.mem_orderedInsert _

theorem mem_erase {α : Type} [DecidableEq α] {β : Type} {entry : α × β} {a : α}
    {map : List (α × β)} : entry ∈ erase a map ↔ entry ∈ map ∧ entry.1 ≠ a := by
  simp [erase]

section Maps

variable {α β : Type} {name : α → Option β} {map : List (α × β)} {a : α} {b : β}

theorem named_insert [LE α] [DecidableLE α] (h : ∀ entry ∈ map, name entry.1 = some entry.2)
    (hnew : name a = some b) : ∀ entry ∈ insert (a, b) map, name entry.1 = some entry.2 := by
  intro entry hentry
  rcases mem_insert.mp hentry with rfl | hold
  · exact hnew
  · exact h entry hold

/-- An entry of the same name has the same value. -/
theorem mem_erase_of_ne [DecidableEq α] (h : ∀ entry ∈ map, name entry.1 = some entry.2)
    (hname : name a = some b) {entry : α × β} (hentry : entry ∈ map) (hne : entry.2 ≠ b) :
    entry ∈ erase a map := by
  refine mem_erase.mpr ⟨hentry, fun hsame => hne ?_⟩
  have hown := h entry hentry
  rw [hsame, hname] at hown
  exact (Option.some.inj hown).symm

end Maps

theorem mem_held {state : State} {control : Control} : control ∈ state.held ↔
    (∃ entry ∈ state.keys, .key entry.2 = control) ∨
      ∃ entry ∈ state.buttons, .button entry.2 = control := by
  simp [State.held]

/-- An injection that presses or lets go one control, with the maps changed to match. -/
theorem kept_touch (h : w.Inv) (hpermitted : Permitted w.log w.state.id)
    (hgrant : w.state.epoch ≠ 0) {injection : Injection} (touched : Control) (down : Bool)
    (htouches : (Event.injected w.state.id injection).touches = some (touched, down))
    {keys : List (String × Key)} {buttons : List (Nat × MouseButton)}
    (hkeys : ∀ entry ∈ keys, key entry.1 = some entry.2)
    (hbuttons : ∀ entry ∈ buttons, mouseButton entry.1 = some entry.2)
    (hothers : ∀ control ∈ w.state.held, control ≠ touched →
      control ∈ { w.state with keys := keys, buttons := buttons }.held)
    (hdown : down → touched ∈ { w.state with keys := keys, buttons := buttons }.held) :
    Kept w { w.inject injection with
      state := { w.state with keys := keys, buttons := buttons } } := by
  refine ⟨⟨h.account, h.started, fun hzero => absurd hzero hgrant, h.granted, ?_, hkeys,
    hbuttons, fun _ hid => Option.some.inj hid ▸ hpermitted, h.lawful⟩,
    [.injected w.state.id injection], ⟨rfl, ?_⟩, quiet_one rfl⟩
  · intro control hpressed
    dsimp only [inject, Worker.note] at hpressed
    rw [pressed_cons_of_some htouches] at hpressed
    split at hpressed
    · next heq => exact heq ▸ hdown hpressed
    · next hne => exact hothers control (h.held control hpressed) (Ne.symm hne)
  · intro control hheld
    by_cases heq : control = touched
    · cases hd : down with
      | true => exact .inl (heq ▸ hdown hd)
      | false =>
        refine .inr ⟨_, List.mem_singleton_self _, ?_⟩
        rw [htouches, hd, heq]
    · exact .inl (hothers control hheld heq)

theorem keyboard_spec (h : w.Inv) (hpermitted : Permitted w.log w.state.id)
    (hgrant : w.state.epoch ≠ 0) (value : InputValue) : Kept w (w.keyboard turn value).2 := by
  have hsame := Kept.refl h
  unfold keyboard
  split
  · exact hsame
  · next code _ =>
    split
    · exact hsame
    · next key hkey =>
      split
      · split
        · exact hsame
        · split
          · exact kept_inject h hpermitted rfl
          · refine kept_touch h hpermitted hgrant (.key key) true rfl (named_insert h.keys hkey)
              h.buttons ?_ fun _ => mem_held.mpr (.inl ⟨_, mem_insert.mpr (.inl rfl), rfl⟩)
            intro control hheld _
            refine mem_held.mpr ((mem_held.mp hheld).imp_left ?_)
            exact fun ⟨entry, hentry, heq⟩ => ⟨entry, mem_insert.mpr (.inr hentry), heq⟩
      · refine kept_touch h hpermitted hgrant (.key key) false rfl
          (fun entry hentry => h.keys entry (mem_erase.mp hentry).1) h.buttons ?_
          fun hfalse => (nomatch hfalse)
        intro control hheld hne
        refine mem_held.mpr ((mem_held.mp hheld).imp_left ?_)
        rintro ⟨entry, hentry, rfl⟩
        exact ⟨entry, mem_erase_of_ne h.keys hkey hentry fun heq => hne (heq ▸ rfl), rfl⟩

theorem button_spec (h : w.Inv) (hpermitted : Permitted w.log w.state.id)
    (hgrant : w.state.epoch ≠ 0) (value : InputValue) : Kept w (w.button turn value).2 := by
  have hsame := Kept.refl h
  unfold button
  split
  · exact hsame
  · next index _ =>
    split
    · exact hsame
    · next button hbutton =>
      split
      · split
        · exact hsame
        · split
          · exact kept_inject h hpermitted rfl
          · refine kept_touch h hpermitted hgrant (.button button) true rfl h.keys
              (named_insert h.buttons hbutton) ?_
              fun _ => mem_held.mpr (.inr ⟨_, mem_insert.mpr (.inl rfl), rfl⟩)
            intro control hheld _
            refine mem_held.mpr ((mem_held.mp hheld).imp_right ?_)
            exact fun ⟨entry, hentry, heq⟩ => ⟨entry, mem_insert.mpr (.inr hentry), heq⟩
      · refine kept_touch h hpermitted hgrant (.button button) false rfl
          h.keys (fun entry hentry => h.buttons entry (mem_erase.mp hentry).1) ?_
          fun hfalse => (nomatch hfalse)
        intro control hheld hne
        refine mem_held.mpr ((mem_held.mp hheld).imp_right ?_)
        rintro ⟨entry, hentry, rfl⟩
        exact ⟨entry, mem_erase_of_ne h.buttons hbutton hentry fun heq => hne (heq ▸ rfl), rfl⟩

theorem input_spec (h : w.Inv) (hpermitted : Permitted w.log w.state.id)
    (hgrant : w.state.epoch ≠ 0) (raw : String) : Kept w (w.input lib turn raw).2 := by
  have hsame := Kept.refl h
  unfold input
  split
  · exact hsame
  · split
    · exact hsame
    · next value _ =>
      have hlater := later_pass lib w
      have hbeat := (kept_later h hlater).trans (kept_state (kept_later h hlater).1
        { (w.pass lib).state with heartbeat := (w.pass lib).now } rfl rfl rfl rfl rfl)
      have hpermitted' : Permitted (w.pass lib).log (w.pass lib).state.id := by
        rw [hlater.log, hlater.state]
        exact hpermitted
      have hgrant' : (w.pass lib).state.epoch ≠ 0 := by rwa [hlater.state]
      dsimp only
      split
      · exact hbeat
      · exact hbeat.trans (kept_release hbeat.1)
      · refine hbeat.trans ?_
        unfold move
        split
        · exact Kept.refl hbeat.1
        · exact Kept.refl hbeat.1
        · split
          · exact Kept.refl hbeat.1
          · exact kept_inject hbeat.1 hpermitted' rfl
      · exact hbeat.trans (button_spec hbeat.1 hpermitted' hgrant' value)
      · refine hbeat.trans ?_
        unfold wheel
        dsimp only
        split
        · exact Kept.refl hbeat.1
        · refine (kept_inject hbeat.1 hpermitted' rfl).trans (kept_inject ?_ ?_ rfl)
          · exact (kept_inject hbeat.1 hpermitted' rfl).1
          · exact permitted_cons hpermitted' _ rfl rfl
      · exact hbeat.trans (keyboard_spec hbeat.1 hpermitted' hgrant' value)
      · refine hbeat.trans ?_
        unfold typeText
        dsimp only
        split
        · exact Kept.refl hbeat.1
        · exact kept_inject hbeat.1 hpermitted' rfl
      · exact hbeat

theorem openCapturer_spec (h : w.Inv) :
    Kept w { w with state := (openCapturer turn w.state).2 } ∧
      (openCapturer turn w.state).2.id = w.state.id := by
  unfold openCapturer
  split
  · exact ⟨Kept.refl h, rfl⟩
  · split
    · exact ⟨Kept.refl h, rfl⟩
    · dsimp only
      split
      · exact ⟨kept_state h _ rfl rfl rfl rfl rfl, rfl⟩
      · split <;> exact ⟨kept_state h _ rfl rfl rfl rfl rfl, rfl⟩

theorem kept_captured (h : w.Inv) (hpermitted : Permitted w.log w.state.id) :
    Kept w (w.note (.captured w.state.id)) :=
  ⟨⟨h.account, h.started, h.idle, h.granted, h.held, h.keys, h.buttons,
    fun _ hid => Option.some.inj hid ▸ hpermitted, h.lawful⟩, [.captured w.state.id],
    since_note w _, quiet_one rfl⟩

theorem frame_spec (h : w.Inv) (hpermitted : Permitted w.log w.state.id) :
    Kept w (w.frame lib turn).2 := by
  obtain ⟨hopened, hid⟩ := @openCapturer_spec w turn h
  unfold frame
  split
  · next error state heq =>
    rw [heq] at hopened
    exact hopened
  · next state heq =>
    rw [heq] at hopened hid
    have htaken := hopened.trans
      (kept_captured hopened.1 (show Permitted w.log state.id from hid ▸ hpermitted))
    rw [show ({ w with state := state } : Worker).state.id = w.state.id from hid] at htaken
    dsimp only
    split
    · exact htaken
    · exact htaken
    · exact htaken
    · split
      · exact htaken
      · exact htaken.trans (kept_state htaken.1 _ rfl rfl rfl rfl rfl)

/-- A command that was taken just now fails, or settles what it found. -/
theorem handle_spec (h : w.Inv)
    (htaken : lastTaken w.log = some (w.now, w.world.account.epoch)) (command : Command) :
    Settled w (w.handle lib turn command).2 ∨
      ∃ error, (w.handle lib turn command).1 = .error error ∧
        (w.handle lib turn command).2.Inv ∧ ∃ new, Since w (w.handle lib turn command).2 new := by
  have hlive : ∀ {v : Worker}, Later w v → w.state.epoch ≠ 0 → w.now < w.state.deadline →
      w.world.account.epoch ≤ w.state.epoch → Permitted v.log v.state.id := by
    intro v hlater hgrant htime hepoch
    obtain ⟨hle, a, ha, hid, haepoch, hdeadline⟩ := h.granted hgrant
    rw [hlater.log, hlater.state]
    exact ⟨_, _, a, htaken, ha, hid, by omega, by omega⟩
  cases command with
  | stop =>
    exact .inl (.inr (cleared_found h (Later.refl w) rfl).2)
  | allow id text =>
    have hgrant := @grant_spec lib w turn h id text
    dsimp only [handle]
    split
    · next error w' heq =>
      rw [heq] at hgrant
      exact .inl (.inl hgrant)
    · next w' heq =>
      rw [heq] at hgrant
      exact .inl (.inl hgrant)
  | input raw =>
    obtain ⟨v, hlater, heq | ⟨heq, hgrant, htime, hepoch⟩⟩ := live_spec lib w
    · dsimp only [handle]
      rw [heq]
      exact .inr ⟨_, rfl, found_later h hlater rfl⟩
    · dsimp only [handle]
      rw [heq]
      have hinput := (kept_later h hlater).trans (@input_spec lib v turn (h.later hlater)
        (hlive hlater hgrant htime hepoch) (hlater.state ▸ hgrant) raw)
      dsimp only
      split
      · next error w' hresult =>
        rw [hresult] at hinput
        exact .inl (.inl hinput)
      · next w' hresult =>
        rw [hresult] at hinput
        exact .inl (.inl hinput)
  | frame =>
    obtain ⟨v, hlater, heq | ⟨heq, hgrant, htime, hepoch⟩⟩ := live_spec lib w
    · dsimp only [handle]
      rw [heq]
      exact .inr ⟨_, rfl, found_later h hlater rfl⟩
    · dsimp only [handle]
      rw [heq]
      exact .inl (.inl ((kept_later h hlater).trans (@frame_spec lib v turn (h.later hlater)
        (hlive hlater hgrant htime hepoch))))

theorem Settled.lastCheck (h : Settled w v) : Settled w
    (if v.state.epoch = 0 then v
      else match v.live lib with
        | (false, u) => u.reset
        | (true, u) => u) := by
  split
  · exact h
  · obtain ⟨u, hlater, heq | ⟨heq, _⟩⟩ := live_spec lib v
    · rw [heq]
      exact h.cleared (cleared_found h.inv hlater rfl).2
    · rw [heq]
      exact h.later hlater

/-- What was found before the last checks stays settled by them. -/
theorem Settled.expire (h : Settled w w') : Settled w (w'.expire lib) := by
  unfold Worker.expire
  refine Settled.lastCheck ?_
  split
  · exact h
  · obtain ⟨u, hlater, heq | ⟨heq, _⟩⟩ := live_spec lib w'
    · rw [heq]
      exact h.cleared (cleared_found h.inv hlater rfl).1
    · rw [heq]
      have htimed := hlater.trans (later_pass lib u)
      dsimp only
      split
      · exact h.cleared (cleared_found h.inv htimed rfl).1
      · exact h.later htimed

theorem iterate_spec (h : w.Inv) (turn : Turn) :
    Settled w (w.iterate lib turn) := by
  have hreceived : Kept w ({ w with pauses := turn.pauses }.pass lib) := by
    have hlater := later_pass lib { w with pauses := turn.pauses }
    exact kept_later h ⟨hlater.state, hlater.log, hlater.inv, hlater.now, hlater.epoch⟩
  unfold iterate
  generalize { w with pauses := turn.pauses }.pass lib = received at hreceived ⊢
  dsimp only
  split
  · exact Settled.expire (.inl hreceived)
  · exact .inr ((cleared_reset hreceived.1).after hreceived.since)
  · next command _ =>
    have htaken : Kept w (received.note (.taken received.now received.world.account.epoch)) := by
      exact hreceived.trans ⟨hreceived.1.note (plain_taken _ _), _, since_note _ _, quiet_one rfl⟩
    have hhandled := @handle_spec lib _ turn htaken.1 rfl command
    split
    · next text w' heq =>
      rw [heq] at hhandled
      rcases hhandled with hsettled | ⟨_, herror, _⟩
      · exact (Settled.after htaken hsettled).expire
      · cases herror
    · next error w' heq =>
      rw [heq] at hhandled
      obtain ⟨hinv, hsince⟩ : w'.Inv ∧ ∃ new, Since _ w' new :=
        hhandled.elim (fun h => ⟨h.inv, h.since⟩) fun ⟨_, _, h⟩ => h
      have hcleared := (cleared_found hinv (Later.refl w') (e := .failed) rfl).2.after hsince
      exact Settled.expire (.inr (hcleared.after htaken.since))

theorem inv_fresh : fresh.Inv where
  account := Account.inv_fresh
  started := Nat.one_pos
  idle := fun _ => ⟨rfl, rfl⟩
  granted := fun hne => absurd rfl hne
  held := fun _ hpressed => nomatch hpressed
  keys := fun _ hentry => nomatch hentry
  buttons := fun _ hentry => nomatch hentry
  lawful := trivial

theorem Inv.iterate (h : w.Inv) (turn : Turn) : (w.iterate lib turn).Inv :=
  (iterate_spec h turn).inv

theorem Inv.run (h : w.Inv) (turns : List Turn) : (turns.foldl (Worker.iterate lib) w).Inv := by
  induction turns generalizing w with
  | nil => exact h
  | cons turn rest ih => exact ih (h.iterate turn)

end Worker

def sampleDigest : String := String.ofList (List.replicate 64 'a')

def sampleClaims : BrowserClaims :=
  ⟨1, "NestLink-Browser", "id", "realm", "device", "session", "browser", sampleDigest,
    sampleDigest, 95, 110, "require_direct"⟩

/-- Every signature is right, and the documents are the sample ones. -/
def sampleLibrary : Library where
  checks := anyChecks
  publicKey := fun _ => some []
  verifyDetached := fun _ _ _ => true
  readClaims := fun _ => some sampleClaims
  readAuthorization := fun _ => some ⟨"nlb1..", sampleDigest, sampleDigest⟩
  readInput := fun _ => some ⟨"key", none, none, none, some true, some "ControlLeft", none⟩
  encodeJpeg := fun _ _ _ => .ok []
  base64 := fun _ => ""

def sampleTurn (received : Received) (changes : List Action) : Turn where
  received := received
  pauses := [changes.map .account]
  seconds := 100
  pressed := .ok ()
  display := .ok (1, 1, 0, 0)
  opened := .ok ()
  captured := .wouldBlock

/-- The account is installed, a grant allowed and a key pressed. -/
def pressedTurns : List Turn :=
  [sampleTurn .timeout installedRun, sampleTurn (.request (.allow "id" "")) [],
    sampleTurn (.request (.input "")) []]

end HomeTunnel.NestLink.Browser
