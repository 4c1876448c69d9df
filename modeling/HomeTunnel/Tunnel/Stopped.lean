import HomeTunnel.Tunnel.Runtime

/-! # Stopping is final

The helper that is alive past its registration is the one in the controller, and its request
has the current serial number. Every stop and every admission takes that helper out, and the
older requests never have the serial number again.
-/

namespace HomeTunnel.Tunnel

/-- The event ends the requests of the owner. -/
def Event.ends (event : Event) (owner : String) : Prop :=
  match event with
  | .stopped whose => whose = owner
  | .stoppedAll _ => True
  | .admitted _ _ => False

/-- The event keeps the owner out. -/
def Event.stops (event : Event) (owner : String) : Prop :=
  match event with
  | .stopped whose => whose = owner
  | .stoppedAll whose => whose = owner ∧ owner ≠ ""
  | .admitted _ _ => False

/-- No owner is admitted after it was stopped. -/
def Lawful : List Event → Prop
  | [] => True
  | .admitted _ owner :: before => (∀ event ∈ before, ¬ event.stops owner) ∧ Lawful before
  | .stopped _ :: before | .stoppedAll _ :: before => Lawful before

theorem Lawful.not_mem {log later before : List Event} {event : Event} {i : Nat}
    {owner : String} (h : Lawful log) (hlog : log = later ++ event :: before)
    (hstops : event.stops owner) : .admitted i owner ∉ later := by
  subst hlog
  induction later with
  | nil => exact List.not_mem_nil
  | cons first rest ih =>
    intro hmem
    cases first with
    | admitted j other =>
      rcases List.mem_cons.mp hmem with heq | hrest
      · cases heq
        exact h.1 event (List.mem_append_right _ (List.mem_cons_self ..)) hstops
      · exact ih h.2 hrest
    | stopped _ | stoppedAll _ => exact ih h ((List.mem_cons.mp hmem).resolve_left (by simp))

/-- The helper, if there is one, is not registered yet. -/
def Pc.starting : Pc → Bool
  | .unborn | .paths | .checkFirst | .spawn | .makeJob | .checkSecond | .register => true
  | _ => false

/-- There is no helper yet, or it has exited. -/
def Pc.helperless : Pc → Bool
  | .unborn | .paths | .checkFirst | .spawn | .completing _ => true
  | _ => false

namespace Runtime

structure Inv (s : Runtime) : Prop where
  unborn : ∀ i, s.next ≤ i → (s.threads i).alive = false ∧ (s.threads i).latched = false ∧
    (s.threads i).pc = .unborn
  serial : ∀ i < s.next, (s.threads i).request.serial ≤ s.controller.serial
  injective : ∀ i < s.next, ∀ j < s.next,
    (s.threads i).request.serial = (s.threads j).request.serial → i = j
  owner : ∀ i < s.next, (s.threads i).request.serial = s.controller.serial →
    s.controller.view.owner = (s.threads i).request.owner
  alive : ∀ i, (s.threads i).alive → (s.threads i).pc.starting = false →
    s.controller.job = some i ∧ (s.threads i).request.serial = s.controller.serial
  latched : ∀ i, (s.threads i).latched → (s.threads i).pc.starting = false
  helperless : ∀ i, (s.threads i).pc.helperless → (s.threads i).alive = false
  stopped : ∀ event ∈ s.log, ∀ owner, event.stops owner → owner ∈ s.controller.stoppedOwners
  lawful : Lawful s.log
  admitted : ∀ i < s.next, .admitted i (s.threads i).request.owner ∈ s.log
  known : ∀ i owner, .admitted i owner ∈ s.log →
    i < s.next ∧ (s.threads i).request.owner = owner
  ended : ∀ later before event, s.log = later ++ event :: before → ∀ i owner,
    .admitted i owner ∈ before → event.ends owner →
    (s.threads i).request.serial < s.controller.serial

theorem inv_fresh : fresh.Inv where
  unborn := fun _ _ => ⟨rfl, rfl, rfl⟩
  serial := fun _ h => by cases h
  injective := fun _ h => by cases h
  owner := fun _ h => by cases h
  alive := fun _ h => by cases h
  latched := fun _ h => by cases h
  helperless := fun _ _ => rfl
  stopped := fun _ h => by cases h
  lawful := trivial
  admitted := fun _ h => by cases h
  known := fun _ _ h => by cases h
  ended := fun later _ _ h => by cases later <;> cases h

variable {s t : Runtime} {lib : Library}

variable {i : Nat} {pc : Pc}

theorem Inv.lt_next (h : s.Inv) (hborn : (s.threads i).pc ≠ .unborn) : i < s.next := by
  by_contra hge
  exact hborn (h.unborn i (not_lt.mp hge)).2.2

@[simp] theorem setThread_self (s : Runtime) (i : Nat) (thread : Thread) :
    (s.setThread i thread).threads i = thread := Function.update_self ..

theorem setThread_of_ne {j : Nat} (h : j ≠ i) (s : Runtime) (thread : Thread) :
    (s.setThread i thread).threads j = s.threads j := Function.update_of_ne h ..

theorem setThread_cases (s : Runtime) (i : Nat) (thread : Thread) (j : Nat) :
    (j = i ∧ (s.setThread i thread).threads j = thread) ∨
      (j ≠ i ∧ (s.setThread i thread).threads j = s.threads j) := by
  by_cases hj : j = i
  · exact .inl ⟨hj, hj ▸ setThread_self ..⟩
  · exact .inr ⟨hj, setThread_of_ne hj ..⟩

theorem Inv.setThread (h : s.Inv) (hi : i < s.next) {thread : Thread}
    (hrequest : thread.request = (s.threads i).request)
    (halive : thread.alive → thread.pc.starting = false →
      s.controller.job = some i ∧ (s.threads i).request.serial = s.controller.serial)
    (hlatched : thread.latched → thread.pc.starting = false)
    (hhelperless : thread.pc.helperless → thread.alive = false) : (s.setThread i thread).Inv := by
  have hreq : ∀ j, ((s.setThread i thread).threads j).request = (s.threads j).request := by
    intro j
    rcases setThread_cases s i thread j with ⟨rfl, heq⟩ | ⟨_, heq⟩ <;> rw [heq]
    exact hrequest
  refine ⟨?_, ?_, ?_, ?_, ?_, ?_, ?_, h.stopped, h.lawful, ?_, ?_, ?_⟩ <;> try simp only [hreq]
  · intro j hj
    have hne : j ≠ i := fun heq => absurd hi (not_lt.mpr (heq ▸ hj))
    rw [setThread_of_ne hne]
    exact h.unborn j hj
  · exact h.serial
  · exact h.injective
  · exact h.owner
  · intro j
    rcases setThread_cases s i thread j with ⟨rfl, heq⟩ | ⟨_, heq⟩ <;> rw [heq]
    exacts [halive, h.alive j]
  · intro j
    rcases setThread_cases s i thread j with ⟨rfl, heq⟩ | ⟨_, heq⟩ <;> rw [heq]
    exacts [hlatched, h.latched j]
  · intro j
    rcases setThread_cases s i thread j with ⟨rfl, heq⟩ | ⟨_, heq⟩ <;> rw [heq]
    exacts [hhelperless, h.helperless j]
  · exact h.admitted
  · exact h.known
  · exact h.ended

/-- A thread that goes to a place where the same is asked of its helper. -/
theorem Inv.move (h : s.Inv) (hi : i < s.next) (hstart : pc.starting = (s.threads i).pc.starting)
    (hhelper : pc.helperless → (s.threads i).pc.helperless) : (s.move i pc).Inv := by
  refine h.setThread hi rfl ?_ ?_ fun hpc => h.helperless i (hhelper hpc)
  · dsimp only
    rw [hstart]
    exact h.alive i
  · dsimp only
    rw [hstart]
    exact h.latched i

/-- A dead helper, wherever its thread goes. -/
theorem Inv.terminate_move (h : s.Inv) (hi : i < s.next) (hpc : pc.starting = false) :
    ((s.terminate i).move i pc).Inv := by
  have heq : (s.terminate i).move i pc =
      s.setThread i { s.threads i with alive := false, pc := pc } := by
    simp [Runtime.move, Runtime.terminate, Runtime.setThread]
  rw [heq]
  exact h.setThread hi rfl (fun hfalse => nomatch hfalse) (fun _ => hpc) fun _ => rfl

theorem Inv.move_helperless (h : s.Inv) (hi : i < s.next) (hnone : (s.threads i).pc.helperless)
    (hpc : pc.starting = false) : (s.move i pc).Inv := by
  have hdead := h.helperless i hnone
  refine h.setThread hi rfl (fun halive => ?_) (fun _ => hpc) fun _ => hdead
  rw [show (s.threads i).alive = false from hdead] at halive
  cases halive

theorem Inv.terminate (h : s.Inv) (i : Nat) : (s.terminate i).Inv := by
  by_cases hi : i < s.next
  · exact h.setThread hi rfl (fun hfalse => nomatch hfalse) (h.latched i) fun _ => rfl
  · have hunborn := h.unborn i (not_lt.mp hi)
    have heq : s.terminate i = s := by
      rw [Runtime.terminate, Runtime.setThread, ← hunborn.1, Function.update_eq_self]
    rwa [heq]

/-- The owner, the serial number and the stopped owners stay in the controller. -/
theorem Inv.setController (h : s.Inv) {controller : Controller}
    (howner : controller.view.owner = s.controller.view.owner)
    (hserial : controller.serial = s.controller.serial)
    (hstopped : controller.stoppedOwners = s.controller.stoppedOwners)
    (hjob : ∀ i, (s.threads i).alive → (s.threads i).pc.starting = false →
      controller.job = some i) : Inv { s with controller := controller } := by
  refine ⟨h.unborn, ?_, h.injective, ?_, ?_, h.latched, h.helperless, ?_, h.lawful, h.admitted,
    h.known, ?_⟩
  · dsimp only
    rw [hserial]
    exact h.serial
  · dsimp only
    rw [hserial, howner]
    exact h.owner
  · dsimp only
    rw [hserial]
    exact fun i halive hpc => ⟨hjob i halive hpc, (h.alive i halive hpc).2⟩
  · dsimp only
    rw [hstopped]
    exact h.stopped
  · dsimp only
    rw [hserial]
    exact h.ended

/-- No helper past its registration is alive. -/
def Idle (s : Runtime) : Prop := ∀ i, (s.threads i).alive → (s.threads i).pc.starting = true

@[simp] theorem takeJob_controller (s : Runtime) :
    s.takeJob.controller = { s.controller with job := none } := by
  unfold takeJob
  split
  · next hjob => rw [← hjob]
  · rfl

@[simp] theorem takeJob_next (s : Runtime) : s.takeJob.next = s.next := by
  unfold takeJob
  split <;> rfl

@[simp] theorem takeJob_log (s : Runtime) : s.takeJob.log = s.log := by
  unfold takeJob
  split <;> rfl

/-- Only what is alive changes in a thread. -/
theorem takeJob_thread (s : Runtime) (i : Nat) :
    ∃ alive, s.takeJob.threads i = { s.threads i with alive := alive } := by
  unfold takeJob
  split
  · exact ⟨_, rfl⟩
  · next j _ =>
    by_cases hij : i = j
    · rw [hij]
      exact ⟨false, setThread_self ..⟩
    · exact ⟨_, setThread_of_ne hij ..⟩

theorem Inv.idle_takeJob (h : s.Inv) : s.takeJob.Idle := by
  intro i halive
  unfold Runtime.takeJob at halive ⊢
  by_contra hpc
  rw [Bool.not_eq_true] at hpc
  split at halive
  · next hjob =>
    simp only [hjob] at hpc
    have hheld := (h.alive i halive hpc).1
    rw [hjob] at hheld
    cases hheld
  · next j hjob =>
    simp only [hjob] at hpc
    by_cases hij : i = j
    · rw [hij] at halive
      simp [Runtime.terminate] at halive
    · dsimp only [Runtime.terminate] at halive hpc
      rw [setThread_of_ne hij] at halive hpc
      have hheld := (h.alive i halive hpc).1
      rw [hjob] at hheld
      exact hij (Option.some.inj hheld).symm

theorem Inv.takeJob (h : s.Inv) : s.takeJob.Inv := by
  have hidle := h.idle_takeJob
  have hcases : s.takeJob = s ∨ ∃ i, s.takeJob =
      { s.terminate i with controller := { s.controller with job := none } } := by
    unfold Runtime.takeJob
    split
    · exact .inl rfl
    · next i _ => exact .inr ⟨i, rfl⟩
  rcases hcases with heq | ⟨i, heq⟩
  · rwa [heq]
  · rw [heq] at hidle ⊢
    refine (h.terminate i).setController rfl rfl rfl fun j halive hpc => ?_
    rw [show ((s.terminate i).threads j).pc.starting = true from hidle j halive] at hpc
    cases hpc

/-! ## Stopping and admitting -/

theorem Inv.note (h : s.Inv) {event : Event} (hother : ∀ i owner, event ≠ .admitted i owner)
    (hstopped : ∀ owner, event.stops owner → owner ∈ s.controller.stoppedOwners)
    (hended : ∀ i owner, .admitted i owner ∈ s.log → event.ends owner →
      (s.threads i).request.serial < s.controller.serial) :
    Inv { s with log := event :: s.log } := by
  refine ⟨h.unborn, h.serial, h.injective, h.owner, h.alive, h.latched, h.helperless, ?_, ?_, ?_,
    ?_, ?_⟩
  · intro e he
    rcases List.mem_cons.mp he with rfl | hold
    · exact hstopped
    · exact h.stopped e hold
  · cases event with
    | admitted i owner => exact absurd rfl (hother i owner)
    | stopped _ | stoppedAll _ => exact h.lawful
  · exact fun i hi => List.mem_cons_of_mem _ (h.admitted i hi)
  · intro i owner hmem
    exact h.known i owner ((List.mem_cons.mp hmem).resolve_left (hother i owner).symm)
  · intro later before e hlog i owner hmem hends
    cases later with
    | nil =>
      cases hlog
      exact hended i owner hmem hends
    | cons _ later => exact h.ended later before e (List.cons.inj hlog).2 i owner hmem hends

theorem Inv.mark (h : s.Inv) (owner : String) : Inv { s with controller := { s.controller with
    stoppedOwners := owner :: s.controller.stoppedOwners } } :=
  { h with stopped := fun event hmem other hstops =>
      List.mem_cons_of_mem _ (h.stopped event hmem other hstops) }

/-- With no registered helper alive, the serial number leaves every request behind. -/
theorem Inv.nextSerial (h : s.Inv) (hidle : s.Idle) (view : View) :
    Inv { s with controller := { s.controller with
      view := view, serial := s.controller.serial + 1 } } :=
  { h with
    serial := fun i hi => (h.serial i hi).trans (Nat.le_succ _)
    owner := fun i hi heq => by
      have hle := h.serial i hi
      dsimp only at heq
      omega
    alive := fun i halive hpc => by
      rw [show (s.threads i).pc.starting = true from hidle i halive] at hpc
      cases hpc
    ended := fun later before event hlog i owner hmem hends =>
      (h.ended later before event hlog i owner hmem hends).trans (Nat.lt_succ_self _) }

/-- The registered helper is killed, the view ended and the event noted. -/
theorem Inv.ending (h : s.Inv) {event : Event} (hother : ∀ i owner, event ≠ .admitted i owner)
    (hstopped : ∀ owner, event.stops owner → owner ∈ s.controller.stoppedOwners) :
    Inv { s.takeJob.endView with log := event :: s.log } := by
  have hended : s.takeJob.endView.Inv := h.takeJob.nextSerial h.idle_takeJob _
  have hlog : s.takeJob.endView.log = s.log := takeJob_log s
  rw [← hlog]
  refine hended.note hother ?_ ?_
  · intro owner hstops
    dsimp only [Runtime.endView]
    rw [takeJob_controller]
    exact hstopped owner hstops
  · intro i owner hmem _
    exact Nat.lt_succ_of_le (h.takeJob.serial i (hended.known i owner hmem).1)

theorem Inv.stopAll (h : s.Inv) : s.stopAll.Inv := by
  unfold Runtime.stopAll
  dsimp only
  split
  · next howner =>
    refine h.ending (fun _ _ heq => by cases heq) fun owner hstops => absurd ?_ hstops.2
    exact hstops.1 ▸ howner
  · refine (h.mark s.controller.view.owner).ending (fun _ _ heq => by cases heq) fun owner hstops => ?_
    exact List.mem_cons.mpr (.inl hstops.1.symm)

theorem Inv.stop (h : s.Inv) (owner : String) : (s.stop owner).Inv := by
  have hmarked := h.mark owner
  unfold Runtime.stop
  dsimp only
  split
  · refine hmarked.ending (fun _ _ heq => by cases heq) fun other hstops => ?_
    exact List.mem_cons.mpr (.inl (Eq.symm hstops))
  · next hother =>
    refine hmarked.note (fun _ _ heq => by cases heq) ?_ ?_
    · exact fun other hstops => List.mem_cons.mpr (.inl (Eq.symm hstops))
    · intro i other hmem hends
      obtain ⟨hi, howner⟩ := h.known i other hmem
      refine lt_of_le_of_ne (h.serial i hi) fun heq => hother ?_
      exact (h.owner i hi heq).trans (howner.trans (Eq.symm hends))

/-- A thread for a request of the current owner, with a serial number that no other has. -/
theorem Inv.started (h : s.Inv) {request : Request}
    (hopen : request.owner ∉ s.controller.stoppedOwners)
    (howner : s.controller.view.owner = request.owner)
    (hserial : request.serial = s.controller.serial)
    (hbelow : ∀ i < s.next, (s.threads i).request.serial < s.controller.serial) :
    Inv { s.setThread s.next ⟨request, .paths, false, false⟩ with
      next := s.next + 1
      log := .admitted s.next request.owner :: s.log } := by
  have hcases := setThread_cases s s.next ⟨request, .paths, false, false⟩
  have hlt : ∀ {i}, i < s.next + 1 → i ≠ s.next → i < s.next := fun hi hne => by omega
  refine ⟨?_, ?_, ?_, ?_, ?_, ?_, ?_, ?_, ⟨?_, h.lawful⟩, ?_, ?_, ?_⟩
  · intro i hi
    dsimp only at hi ⊢
    rw [setThread_of_ne (by omega)]
    exact h.unborn i (by omega)
  · intro i hi
    rcases hcases i with ⟨rfl, heq⟩ | ⟨hne, heq⟩ <;> dsimp only <;> rw [heq]
    exacts [hserial.le, h.serial i (hlt hi hne)]
  · intro i hi j hj hij
    rcases hcases i with ⟨rfl, heq⟩ | ⟨hne, heq⟩ <;>
      rcases hcases j with ⟨rfl, heq'⟩ | ⟨hne', heq'⟩ <;>
        simp only [heq, heq'] at hij
    · rfl
    · exact absurd (hij.symm.trans hserial) (hbelow j (hlt hj hne')).ne
    · exact absurd (hij.trans hserial) (hbelow i (hlt hi hne)).ne
    · exact h.injective i (hlt hi hne) j (hlt hj hne') hij
  · intro i hi
    rcases hcases i with ⟨rfl, heq⟩ | ⟨hne, heq⟩ <;> dsimp only <;> rw [heq]
    exacts [fun _ => howner, h.owner i (hlt hi hne)]
  · intro i
    rcases hcases i with ⟨rfl, heq⟩ | ⟨_, heq⟩ <;> dsimp only <;> rw [heq]
    exacts [nofun, h.alive i]
  · intro i
    rcases hcases i with ⟨rfl, heq⟩ | ⟨_, heq⟩ <;> dsimp only <;> rw [heq]
    exacts [nofun, h.latched i]
  · intro i
    rcases hcases i with ⟨rfl, heq⟩ | ⟨_, heq⟩ <;> dsimp only <;> rw [heq]
    exacts [fun _ => rfl, h.helperless i]
  · intro event hmem owner hstops
    rcases List.mem_cons.mp hmem with rfl | hmem
    · exact absurd hstops id
    · exact h.stopped event hmem owner hstops
  · exact fun event hmem hstops => hopen (h.stopped event hmem _ hstops)
  · intro i hi
    rcases hcases i with ⟨rfl, heq⟩ | ⟨hne, heq⟩ <;> dsimp only <;> rw [heq]
    exacts [List.mem_cons_self .., List.mem_cons_of_mem _ (h.admitted i (hlt hi hne))]
  · intro i owner hmem
    rcases List.mem_cons.mp hmem with heq | hmem
    · cases heq
      exact ⟨Nat.lt_succ_self _, by dsimp only; rw [setThread_self]⟩
    · obtain ⟨hi, howner⟩ := h.known i owner hmem
      exact ⟨Nat.lt_succ_of_lt hi, by dsimp only; rwa [setThread_of_ne hi.ne]⟩
  · intro later before event hsplit i owner hmem hends
    cases later with
    | nil =>
      cases hsplit
      exact absurd hends id
    | cons _ later =>
      have hsplit' : s.log = later ++ event :: before := (List.cons.inj hsplit).2
      have hi := (h.known i owner (by rw [hsplit']; simp [hmem])).1
      dsimp only
      rw [setThread_of_ne hi.ne]
      exact h.ended later before event hsplit' i owner hmem hends

theorem Inv.letIn (h : s.Inv) (request : Request) : (s.letIn request).Inv := by
  unfold Runtime.letIn
  split
  · exact h
  · next hopen =>
    rw [List.contains_iff_mem] at hopen
    dsimp only
    rw [← takeJob_next, ← takeJob_log]
    refine (h.takeJob.nextSerial h.idle_takeJob (workingView request.owner)).started
      ?_ rfl rfl fun i hi => Nat.lt_succ_of_le (h.takeJob.serial i hi)
    rwa [takeJob_controller]

theorem Inv.command (h : s.Inv) (value : String) (seen : Settings) :
    (s.command lib value seen).Inv := by
  unfold Runtime.command
  split
  · exact h
  · split
    · exact h
    · next request _ =>
      split
      · exact h
      · split
        · exact h.stop request.owner
        · split
          · exact h
          · exact h.letIn request

theorem owns_iff {request : Request} : s.owns request ↔
    s.controller.view.owner = request.owner ∧ s.controller.serial = request.serial := by
  simp [owns]

/-- A registered helper that is alive belongs to the thread that owns the controller. -/
theorem Inv.eq_of_owns (h : s.Inv) {j : Nat} (hi : i < s.next)
    (howns : s.owns (s.threads i).request) (halive : (s.threads j).alive)
    (hpc : (s.threads j).pc.starting = false) : j = i := by
  have hj : j < s.next := by
    by_contra hge
    rw [(h.unborn j (not_lt.mp hge)).1] at halive
    cases halive
  have hserial := (h.alive j halive hpc).2
  exact h.injective j hj i hi (hserial.trans (owns_iff.mp howns).2)

theorem Inv.setView (h : s.Inv) {view : View} (howner : view.owner = s.controller.view.owner) :
    Inv { s with controller := { s.controller with view := view } } :=
  h.setController howner rfl rfl fun i halive hpc => (h.alive i halive hpc).1

theorem Inv.update (h : s.Inv) (seen : Settings) (request : Request) (report : Report) :
    (s.update lib seen request report).Inv := by
  unfold Runtime.update
  split
  · exact h
  · exact h.setView rfl

theorem update_threads (s : Runtime) (seen : Settings) (request : Request) (report : Report) :
    (s.update lib seen request report).threads = s.threads ∧
      (s.update lib seen request report).next = s.next := by
  unfold Runtime.update
  split <;> exact ⟨rfl, rfl⟩

theorem Inv.check (h : s.Inv) (hi : i < s.next) (seen : Settings) : (s.check lib i seen).Inv := by
  unfold Runtime.check
  dsimp only
  split
  · next hpc =>
    split
    · exact h.move hi (by rw [hpc]; rfl) fun _ => by rw [hpc]; rfl
    · exact h.move_helperless hi (by rw [hpc]; rfl) rfl
  · next hpc =>
    split
    · exact h.move hi (by rw [hpc]; rfl) fun hfalse => nomatch hfalse
    · exact h.terminate_move hi rfl
  · next hpc =>
    split
    · exact h.move hi (by rw [hpc]; rfl) fun hfalse => nomatch hfalse
    · exact h.terminate_move hi rfl
  · exact h

theorem Inv.readLine (h : s.Inv) (hi : i < s.next) (hpc : (s.threads i).pc = .reading)
    (text : Option String) : (s.readLine lib i text).Inv := by
  have hmove : ∀ {t : Runtime} {pc : Pc}, t.Inv → t.threads = s.threads → t.next = s.next →
      pc.starting = false → pc.helperless = false → (t.move i pc).Inv := by
    intro t pc ht hthreads hnext hstart hhelper
    refine ht.move (hnext ▸ hi) ?_ fun hnone => absurd hnone (by rw [hhelper]; decide)
    rw [hthreads, hpc, hstart]
    rfl
  cases text with
  | none => exact hmove h rfl rfl rfl rfl
  | some text =>
    dsimp only [Runtime.readLine]
    split
    · exact h.terminate_move hi rfl
    · split
      · exact h
      · split
        · exact h
        · split
          · exact hmove (h.setView rfl) rfl rfl rfl rfl
          · exact hmove h rfl rfl rfl rfl

theorem Inv.complete (h : s.Inv) (hi : i < s.next) {success : Bool}
    (hpc : (s.threads i).pc = .completing success) (seen : Settings) :
    (s.complete lib i success seen).Inv := by
  have hnone : (s.threads i).pc.helperless := by rw [hpc]; rfl
  unfold Runtime.complete
  dsimp only
  split
  · exact h.move_helperless hi hnone rfl
  · next hdenied =>
    rw [Bool.or_eq_true, not_or, Bool.not_eq_true', Bool.not_eq_true', Bool.not_eq_false,
      Bool.not_eq_false] at hdenied
    -- the only helper that could be alive is that of this thread, which has exited
    have hcleared : ∀ view : View, view.owner = s.controller.view.owner →
        Inv { s with controller := { s.controller with job := none, view := view } } := by
      intro view howner
      refine h.setController howner rfl rfl fun j halive hstart => ?_
      rw [h.eq_of_owns hi hdenied.2 halive hstart, h.helperless i hnone] at halive
      cases halive
    refine Inv.move_helperless (hcleared _ ?_) hi hnone ?_
    · split
      · rfl
      · split <;> rfl
    · rfl

theorem Inv.register (h : s.Inv) (hi : i < s.next) (howns : s.owns (s.threads i).request) :
    Inv ({ s with controller := { s.controller with job := some i } }.move i .checkThird) := by
  have hregistered : Inv { s with controller := { s.controller with job := some i } } := by
    refine h.setController rfl rfl rfl fun j halive hstart => ?_
    rw [h.eq_of_owns hi howns halive hstart]
  refine hregistered.setThread hi rfl (fun _ _ => ⟨rfl, (owns_iff.mp howns).2.symm⟩) ?_
    fun hfalse => nomatch hfalse
  exact fun _ => rfl

theorem Inv.fail (h : s.Inv) (hi : i < s.next) {code : String}
    (hpc : (s.threads i).pc = .failing code) :
    ((if s.owns (s.threads i).request then s.takeJob else s).move i (.reporting code)).Inv := by
  split
  · refine h.takeJob.move (by rwa [takeJob_next]) ?_ fun hfalse => nomatch hfalse
    obtain ⟨alive, hthread⟩ := takeJob_thread s i
    rw [hthread, hpc]
    rfl
  · exact h.move hi (by rw [hpc]; rfl) fun hfalse => nomatch hfalse

theorem Inv.threadStep (h : s.Inv) (i : Nat) (step : ThreadStep) :
    (s.threadStep lib i step).Inv := by
  by_cases hborn : (s.threads i).pc = .unborn
  · unfold Runtime.threadStep
    dsimp only
    rw [hborn]
    exact h
  have hi := h.lt_next hborn
  have hmove : ∀ {t : Runtime} {pc : Pc}, t.Inv → t.threads = s.threads ∧ t.next = s.next →
      (s.threads i).pc.starting = false → pc.starting = false → pc.helperless = false →
      (t.move i pc).Inv := by
    intro t pc ht hsame hhere hstart hhelper
    refine ht.move (hsame.2 ▸ hi) ?_ fun hnone => absurd hnone (by rw [hhelper]; decide)
    rw [hsame.1, hhere, hstart]
  unfold Runtime.threadStep
  dsimp only
  split
  · next hpc => exact h.move hi (by rw [hpc]; rfl) fun _ => by rw [hpc]; rfl
  · next hpc => exact h.move_helperless hi (by rw [hpc]; rfl) rfl
  · exact h.check hi _
  · next hpc =>
    refine h.setThread hi rfl (fun _ hfalse => nomatch hfalse) ?_ fun hfalse => nomatch hfalse
    exact fun hlatched => absurd (h.latched i hlatched) (by rw [hpc]; decide)
  · next hpc => exact h.move_helperless hi (by rw [hpc]; rfl) rfl
  · next hpc => exact h.move hi (by rw [hpc]; rfl) fun hfalse => nomatch hfalse
  · exact h.terminate_move hi rfl
  · exact h.check hi _
  · split
    · next howns => exact h.register hi howns
    · exact h.terminate_move hi rfl
  · exact h.check hi _
  · next received ok hpc =>
    have hlatch : (s.threads i).pc.starting = false := by rw [hpc]; rfl
    refine h.setThread hi rfl (fun halive _ => h.alive i halive hlatch) (fun _ => ?_) fun hfalse => ?_
    · dsimp only
      split <;> rfl
    · dsimp only at hfalse
      split at hfalse <;> cases hfalse
  · next hpc => exact h.readLine hi hpc _
  · next hpc =>
    exact hmove (h.update _ _ _) (update_threads s _ _ _) (by rw [hpc]; rfl) rfl rfl
  · next hpc => exact hmove h ⟨rfl, rfl⟩ (by rw [hpc]; rfl) rfl rfl
  · next success hpc =>
    split
    · exact h
    · next hdead =>
      have hwait : (s.threads i).pc.starting = false := by rw [hpc]; rfl
      refine h.setThread hi rfl (fun halive _ => absurd halive hdead) (fun _ => rfl) fun _ => ?_
      exact Bool.eq_false_iff.mpr hdead
  · next hpc => exact hmove h ⟨rfl, rfl⟩ (by rw [hpc]; rfl) rfl rfl
  · next hpc => exact h.complete hi hpc _
  · next hpc => exact h.fail hi hpc
  · next hpc =>
    exact hmove (h.update _ _ _) (update_threads s _ _ _) (by rw [hpc]; rfl) rfl rfl
  · exact h

theorem Inv.step (h : s.Inv) (action : Action) : (s.step lib action).Inv := by
  cases action with
  | command value seen => exact h.command value seen
  | stopAll => exact h.stopAll
  | thread i step => exact h.threadStep i step
  | exit i => exact h.terminate i

theorem Inv.run (h : s.Inv) (actions : List Action) :
    (actions.foldl (Runtime.step lib) s).Inv :=
  (Runs.always_of_step (fun _ action h => h.step action) h).last

end Runtime

def sampleOwner : String := "0123456789abcdef0123456789abcdef"

def sampleSettings : Settings := ⟨true, "permission", "https://home"⟩

/-- The value `stop` is a stop of the owner, everything else a run. -/
def sampleLibrary : Library where
  readRequest := fun value =>
    some ⟨if value = "stop" then "stop" else "run", sampleOwner, "https://home",
      "01234567-89ab-cdef-0123-456789abcdef", "permission", "", "", 0⟩
  readLine := fun _ => none
  normalOrigin := fun _ => true

/-- A run is admitted and its helper registered; the stop comes before the latch. -/
def stoppedRun : List Action :=
  [.command "run" sampleSettings, .thread 0 (.paths (.ok ())),
    .thread 0 (.check sampleSettings), .thread 0 (.spawn true), .thread 0 (.makeJob true),
    .thread 0 (.check sampleSettings), .thread 0 .register, .thread 0 (.check sampleSettings),
    .command "stop" sampleSettings, .thread 0 (.latch true true)]

end HomeTunnel.Tunnel
