import HomeTunnel.Host.CloseAck

/-! # Debt is neither lost nor over-settled

`Advances` says what one step may do to the entries of the store, and the
invariant `Backed` says why a sender that is about to settle may do so: the
evidence for its exact acknowledgement is already in the log.
-/

namespace HomeTunnel.Host

theorem eq_of_append_cons_eq {α : Type} {x : α} {as bs cs ds : List α}
    (hb : x ∉ bs) (hd : x ∉ ds) (h : as ++ x :: bs = cs ++ x :: ds) : as = cs ∧ bs = ds := by
  rcases List.append_eq_append_iff.mp h with ⟨es, rfl, heq⟩ | ⟨es, rfl, heq⟩
  · cases es with
    | nil => exact ⟨by simp, by simpa using heq⟩
    | cons e es =>
      have hmem : x ∈ bs := by
        rw [(List.cons.inj heq).2]
        simp
      exact absurd hmem hb
  · cases es with
    | nil => exact ⟨by simp, by simpa using heq.symm⟩
    | cons e es =>
      have hmem : x ∈ ds := by
        rw [(List.cons.inj heq).2]
        simp
      exact absurd hmem hd

/-- A key names one session and one epoch, whatever the session id contains. -/
theorem SessionRef.key_injective {a b : SessionRef} (h : a.key = b.key) : a = b := by
  have hcolon : ∀ n, ':' ∉ Decimal.intText n := by
    intro n hmem
    rcases Decimal.intText_isDigit_or_minus hmem with hc | hc
    · simp at hc
    · simp [Decimal.isDigit] at hc
  have hlist := congrArg String.toList h
  simp only [SessionRef.key, String.toList_append, String.toList_ofList] at hlist
  rw [List.append_assoc, List.append_assoc] at hlist
  obtain ⟨hid, hepoch⟩ := eq_of_append_cons_eq (hcolon _) (hcolon _) hlist
  cases a
  cases b
  simp only [SessionRef.mk.injEq]
  exact ⟨String.toList_injective hid, Decimal.intText_injective hepoch⟩

namespace CloseStore

/-- Every entry is still there with at least its lease sequence, or is gone and was
settled. -/
def Advances (before after : CloseStore) (settled : StoppedAck → Prop) : Prop :=
  ∀ (key : String) (ack : StoppedAck), before.closeAcks[key]? = some ack →
    (∃ next : StoppedAck, after.closeAcks[key]? = some next ∧ ack.leaseSeq ≤ next.leaseSeq) ∨
    (after.closeAcks[key]? = none ∧ settled ack)

@[simp] theorem persist_closeAcks (store : CloseStore) (saves : Bool) :
    (store.persist saves).closeAcks = store.closeAcks := by
  unfold persist
  split <;> rfl

variable {settled : StoppedAck → Prop}

theorem Advances.of_same {before after : CloseStore} (h : after.closeAcks = before.closeAcks) :
    Advances before after settled :=
  fun _ ack hack => Or.inl ⟨ack, h ▸ hack, le_refl _⟩

theorem Advances.put {store : CloseStore} {ack : StoppedAck} {key : String} {saves : Bool}
    (h : ∀ old, store.closeAcks[key]? = some old → old.leaseSeq ≤ ack.leaseSeq) :
    Advances store ((store.put key ack).persist saves) settled := by
  intro k old hold
  refine Or.inl ?_
  by_cases hk : key = k
  · subst hk
    exact ⟨ack, by simp [CloseStore.put], h old hold⟩
  · exact ⟨old, by simp [CloseStore.put, Std.ExtTreeMap.getElem?_insert, hk, hold], le_refl _⟩

theorem rememberCloseAck_advances (store : CloseStore) (ack : StoppedAck) (saves : Bool)
    (settled : StoppedAck → Prop) :
    Advances store (store.rememberCloseAck ack saves).2 settled := by
  unfold rememberCloseAck
  split
  · rename_i old hold
    split
    · exact .of_same (by simp)
    · rename_i hlt
      refine .put fun current hcurrent => ?_
      rw [hold] at hcurrent
      obtain rfl := Option.some.inj hcurrent
      omega
  · rename_i hnone
    split
    · exact .of_same rfl
    · exact .put fun current hcurrent => by simp [hnone] at hcurrent

/-- A change touches no entry but the exact one it was made for. -/
theorem changeCloseAck_other {store : CloseStore} {old ack : StoppedAck}
    {replacement : Option StoppedAck} {saves : Bool} {key : String}
    (hack : store.closeAcks[key]? = some ack) (hne : ack ≠ old) :
    (store.changeCloseAck old replacement saves).2.closeAcks[key]? = some ack := by
  unfold changeCloseAck
  split
  · exact hack
  rename_i hexact
  push Not at hexact
  have hk : old.key ≠ key := by
    rintro rfl
    rw [hack] at hexact
    exact hne (Option.some.inj hexact)
  split
  · simp [CloseStore.remove, Std.ExtTreeMap.getElem?_erase, hk, hack]
  · split
    · exact hack
    · simp [CloseStore.put, Std.ExtTreeMap.getElem?_insert, hk, hack]

theorem changeCloseAck_advances (store : CloseStore) (old : StoppedAck)
    (replacement : Option StoppedAck) (saves : Bool) (h : replacement = none → settled old) :
    Advances store (store.changeCloseAck old replacement saves).2 settled := by
  intro key ack hack
  by_cases hne : ack ≠ old
  · exact Or.inl ⟨ack, changeCloseAck_other hack hne, le_refl _⟩
  obtain rfl : ack = old := by simpa using hne
  unfold changeCloseAck
  split
  · exact Or.inl ⟨ack, hack, le_refl _⟩
  split
  · by_cases hk : ack.key = key
    · exact Or.inr ⟨by simp [CloseStore.remove, hk], h rfl⟩
    · exact Or.inl ⟨ack, by simp [CloseStore.remove, Std.ExtTreeMap.getElem?_erase, hk, hack],
        le_refl _⟩
  · rename_i next
    split
    · exact Or.inl ⟨ack, hack, le_refl _⟩
    · rename_i hnewer
      push Not at hnewer
      by_cases hk : ack.key = key
      · exact Or.inl ⟨next, by simp [CloseStore.put, hk], hnewer.2.le⟩
      · exact Or.inl ⟨ack, by simp [CloseStore.put, Std.ExtTreeMap.getElem?_insert, hk, hack],
          le_refl _⟩

end CloseStore

theorem Evidence.mono {log more : List AckEvent} {ack : StoppedAck} (h : Evidence log ack)
    (hsub : log ⊆ more) : Evidence more ack := by
  rcases h with ⟨answer, hmem, hok⟩ | ⟨⟨answer, hmem, hconflict⟩, current, hcur, hsettles⟩
  · exact Or.inl ⟨answer, hsub hmem, hok⟩
  · exact Or.inr ⟨⟨answer, hsub hmem, hconflict⟩, current, hsub hcur, hsettles⟩

/-- What a sender's phase rests on. -/
def Sender.Backed (log : List AckEvent) (sender : Sender) : Prop :=
  match sender.phase with
  | .loading => ∃ answer, .answered sender.ack answer ∈ log ∧ answer.isConflict
  | .settling => Evidence log sender.ack
  | _ => True

theorem Sender.Backed.mono {log more : List AckEvent} {sender : Sender} (h : sender.Backed log)
    (hsub : log ⊆ more) : sender.Backed more := by
  unfold Sender.Backed at h ⊢
  cases hp : sender.phase with
  | loading =>
    simp only [hp] at h ⊢
    obtain ⟨answer, hmem, hconflict⟩ := h
    exact ⟨answer, hsub hmem, hconflict⟩
  | settling =>
    simp only [hp] at h ⊢
    exact Evidence.mono h hsub
  | _ => trivial

namespace System

/-- Every sender's phase is backed by the log. -/
def Backed (s : System) : Prop :=
  ∀ thread sender, s.senders thread = some sender → sender.Backed s.log

variable {s : System} {thread : Nat} {sender : Sender}

theorem Backed.setSender (h : s.Backed) {sender : Option Sender}
    (hs : ∀ next, sender = some next → next.Backed s.log) : (s.setSender thread sender).Backed := by
  intro i other hi
  by_cases hthread : i = thread
  · subst hthread
    exact hs other (by simpa [System.setSender] using hi)
  · exact h i other (by simpa [System.setSender, hthread] using hi)

theorem Backed.start (h : s.Backed) (thread : Nat) (acks : List StoppedAck) :
    (s.start thread acks).Backed := by
  cases acks with
  | nil => exact h.setSender (by simp)
  | cons ack rest =>
    refine h.setSender ?_
    rintro next hnext
    obtain rfl := Option.some.inj hnext
    trivial

/-- The senders and the log are all that `Backed` looks at. -/
theorem Backed.of_eq {t : System} (h : s.Backed) (hsenders : t.senders = s.senders)
    (hlog : t.log = s.log) : t.Backed := by
  intro i sender hi
  rw [hlog]
  exact h i sender (hsenders ▸ hi)

theorem Backed.withStore (h : s.Backed) (store : CloseStore) :
    ({ s with store := store } : System).Backed :=
  h.of_eq rfl rfl

theorem Backed.note (h : s.Backed) (event : AckEvent) : (s.note event).Backed :=
  fun i sender hi => (h i sender hi).mono (List.subset_cons_self event s.log)

theorem Backed.finish (h : s.Backed) (thread : Nat) (sender : Sender) (ok : Bool) :
    (s.finish thread sender ok).Backed := by
  have hfree : ({ s with gate := none } : System).Backed := h.of_eq rfl rfl
  exact hfree.start thread _

theorem Backed.goTo (h : s.Backed) {phase : Phase}
    (hs : ({ sender with phase := phase } : Sender).Backed s.log) :
    (s.goTo thread sender phase).Backed :=
  h.setSender fun _ hnext => Option.some.inj hnext ▸ hs

@[simp] theorem start_store (s : System) (thread : Nat) (acks : List StoppedAck) :
    (s.start thread acks).store = s.store := by
  cases acks <;> rfl

@[simp] theorem finish_store (s : System) (thread : Nat) (sender : Sender) (ok : Bool) :
    (s.finish thread sender ok).store = s.store := by
  simp [finish]

@[simp] theorem goTo_store (s : System) (thread : Nat) (sender : Sender) (phase : Phase) :
    (s.goTo thread sender phase).store = s.store := rfl

theorem sendStep_backed (h : s.Backed) (hsender : sender.Backed s.log) (input : Input) :
    (s.sendStep thread sender input).Backed := by
  unfold sendStep
  split
  · split
    · exact Backed.goTo (h.of_eq rfl rfl) trivial
    · exact h
  · exact h.setSender (by simp)
  · -- the answer is in the log before anything is done about it
    rename_i answer _
    have hnote := h.note (.answered sender.ack answer)
    dsimp only
    split
    · rename_i hok
      exact hnote.goTo (Or.inl ⟨answer, List.mem_cons_self, hok⟩)
    split
    · rename_i hconflict
      exact hnote.goTo ⟨answer, List.mem_cons_self, hconflict⟩
    · exact hnote.finish _ _ _
  · exact h.finish _ _ _
  · rename_i current hphase
    have hnote := h.note (.loaded sender.ack current)
    dsimp only
    split
    · rename_i hsettles
      unfold Sender.Backed at hsender
      rw [hphase] at hsender
      obtain ⟨answer, hmem, hconflict⟩ := hsender
      exact hnote.goTo (Or.inr ⟨⟨answer, List.mem_cons_of_mem _ hmem, hconflict⟩, current,
        List.mem_cons_self, hsettles⟩)
    split
    · exact hnote.goTo trivial
    · exact hnote.finish _ _ _
  · split
    · dsimp only
      split
      · exact (h.withStore _).finish _ _ _
      · exact (h.withStore _).goTo trivial
    · exact h.finish _ _ _
  · rename_i answer _
    have hnote := h.note (.answered sender.ack answer)
    dsimp only
    split
    · rename_i hok
      exact hnote.goTo (Or.inl ⟨answer, List.mem_cons_self, Or.inl hok⟩)
    · exact hnote.finish _ _ _
  · dsimp only
    exact (h.withStore _).finish _ _ _
  · exact h

/-- The only two store accesses of a sender, both `changeCloseAck` of its own
acknowledgement, and the removal only with evidence. -/
theorem sendStep_store (thread : Nat) (hsender : sender.Backed s.log) (input : Input) :
    (s.sendStep thread sender input).store = s.store ∨
    ∃ replacement saves,
      (s.sendStep thread sender input).store =
        (s.store.changeCloseAck sender.ack replacement saves).2 ∧
      (replacement = none → Evidence s.log sender.ack) := by
  unfold sendStep
  split
  · split <;> exact Or.inl rfl
  · exact Or.inl rfl
  · refine Or.inl ?_
    dsimp only
    split
    · rfl
    split
    · rfl
    · simp [note]
  · simp
  · refine Or.inl ?_
    dsimp only
    split
    · rfl
    split
    · rfl
    · simp [note]
  · rename_i sequence proof signs saves _
    split
    · refine Or.inr ⟨some (makeCloseAck sender.ack.toSessionRef sequence proof), saves, ?_, by simp⟩
      dsimp only
      split <;> simp
    · simp
  · refine Or.inl ?_
    dsimp only
    split
    · rfl
    · simp [note]
  · rename_i saves hphase
    refine Or.inr ⟨none, saves, by simp, fun _ => ?_⟩
    unfold Sender.Backed at hsender
    rwa [hphase] at hsender
  · exact Or.inl rfl

theorem recordStopped_store (service : Service) (r : Nat) (proof : String) (signs saves : Bool)
    (store : CloseStore) :
    (recordStopped service r proof signs saves store).2.2 = store ∨
    ∃ ack, (recordStopped service r proof signs saves store).2.2 =
      (store.rememberCloseAck ack saves).2 := by
  unfold recordStopped
  dsimp only
  split
  · exact Or.inl rfl
  split
  · exact Or.inl rfl
  split
  · refine Or.inr
      ⟨makeCloseAck (service.running r).toSessionRef (service.running r).leaseSeq proof, ?_⟩
    split
    · rename_i heq
      rw [heq]
    · rename_i heq
      rw [heq]
      split <;> rfl
  · split <;> exact Or.inl rfl

theorem step_backed (h : s.Backed) (action : Action) : (s.step action).Backed := by
  cases action with
  | serve i service => exact h.of_eq rfl rfl
  | stop i r proof signs saves thread =>
    simp only [step]
    have hstopped : ∀ services store,
        ({ s with services := services, store := store } : System).Backed :=
      fun _ _ => h.of_eq rfl rfl
    split
    · split
      · exact (hstopped _ _).start _ _
      · exact hstopped _ _
    · exact hstopped _ _
  | flush thread order =>
    simp only [step]
    split
    · exact h.start thread order
    · exact h
  | send thread input =>
    simp only [step]
    split
    · exact h
    · rename_i sender hsender
      exact sendStep_backed h (h thread sender hsender) input
  | gate enters =>
    simp only [step]
    split
    · split
      · exact h.of_eq rfl rfl
      · exact h
    · split
      · exact h.of_eq rfl rfl
      · exact h

theorem run_backed (h : s.Backed) (actions : List Action) : (s.run actions).Backed := by
  induction actions generalizing s with
  | nil => exact h
  | cons action actions ih => exact ih (step_backed h action)

theorem step_advances (h : s.Backed) (action : Action) :
    CloseStore.Advances s.store (s.step action).store (Evidence s.log) := by
  cases action with
  | serve i service => exact .of_same rfl
  | stop i r proof signs saves thread =>
    have hstore : (s.step (.stop i r proof signs saves thread)).store =
        (recordStopped (s.services i) r proof signs saves s.store).2.2 := by
      simp only [step]
      split
      · split
        · simp
        · rfl
      · rfl
    rw [hstore]
    rcases recordStopped_store (s.services i) r proof signs saves s.store with heq | ⟨ack, heq⟩
    · rw [heq]
      exact .of_same rfl
    · rw [heq]
      exact CloseStore.rememberCloseAck_advances s.store ack saves _
  | flush thread order =>
    simp only [step]
    split
    · exact .of_same (by simp)
    · exact .of_same rfl
  | send thread input =>
    simp only [step]
    split
    · exact .of_same rfl
    rename_i sender hsender
    rcases sendStep_store thread (h thread sender hsender) input with
      heq | ⟨replacement, saves, heq, hevidence⟩
    · exact .of_same (by rw [heq])
    · rw [heq]
      exact CloseStore.changeCloseAck_advances s.store sender.ack replacement saves hevidence
  | gate enters =>
    simp only [step]
    split
    · split <;> exact .of_same rfl
    · split <;> exact .of_same rfl

/-- In every run over a shared store, whatever the server answers and whichever
writes fail: an entry disappears only once the server has settled exactly that
acknowledgement; a key names one session and epoch, and the lease sequence stored
for it never decreases; and no step of a sender touches an entry other than the
one it sends. -/
theorem run_debt_preserved (store : CloseStore) (services : Nat → Service) (actions : List Action)
    (action : Action) :
    let s := run { store := store, services := services } actions
    (∀ (key : String) (ack : StoppedAck), s.store.closeAcks[key]? = some ack →
      (s.step action).store.closeAcks[key]? = none → Evidence s.log ack) ∧
    (∀ a b : SessionRef, a.key = b.key → a = b) ∧
    (∀ (ref : SessionRef) (before after : StoppedAck), s.store.closeAcks[ref.key]? = some before →
      (s.step action).store.closeAcks[ref.key]? = some after →
      before.leaseSeq ≤ after.leaseSeq) ∧
    ∀ thread input sender, action = .send thread input → s.senders thread = some sender →
      ∀ (key : String) (ack : StoppedAck), s.store.closeAcks[key]? = some ack →
        ack ≠ sender.ack →
        (s.step action).store.closeAcks[key]? = some ack := by
  intro s
  have hbacked : s.Backed := run_backed (by simp [Backed]) actions
  have hadvances := step_advances hbacked action
  refine ⟨?_, fun _ _ => SessionRef.key_injective, ?_, ?_⟩
  · intro key ack hack hgone
    rcases hadvances key ack hack with ⟨next, hnext, -⟩ | ⟨-, hevidence⟩
    · simp [hgone] at hnext
    · exact hevidence
  · intro ref before after hbefore hafter
    rcases hadvances ref.key before hbefore with ⟨next, hnext, hle⟩ | ⟨hgone, -⟩
    · rw [hafter] at hnext
      obtain rfl := Option.some.inj hnext
      exact hle
    · simp [hgone] at hafter
  · rintro thread input sender rfl hsender key ack hack hne
    have hstep : s.step (.send thread input) = s.sendStep thread sender input := by
      simp [step, hsender]
    rw [hstep]
    rcases sendStep_store thread (hbacked thread sender hsender) input with
      heq | ⟨replacement, saves, heq, -⟩
    · rw [heq]
      exact hack
    · rw [heq]
      exact CloseStore.changeCloseAck_other hack hne

end System

namespace CloseStore

/-- What `validateCloseAcks` asks of the map as a whole: its size, and each entry's key. -/
def Filed (acks : Std.ExtTreeMap String StoppedAck) : Prop :=
  acks.size ≤ maximumCloseAcks ∧
    ∀ (key : String) (ack : StoppedAck), acks[key]? = some ack → ack.key = key

/-- What is in memory can be saved, and what is on disk can be loaded. -/
def Sound (store : CloseStore) : Prop := Filed store.closeAcks ∧ Filed store.saved

variable {store : CloseStore} {acks : Std.ExtTreeMap String StoppedAck} {key : String}
  {ack : StoppedAck}

theorem Filed.insert (h : Filed acks) (hkey : ack.key = key)
    (hroom : acks[key]? ≠ none ∨ acks.size < maximumCloseAcks) : Filed (acks.insert key ack) := by
  refine ⟨?_, fun k other hother => ?_⟩
  · rw [Std.ExtTreeMap.size_insert]
    split
    · exact h.1
    · rename_i hnew
      exact hroom.resolve_left (by simpa using hnew)
  · rw [Std.ExtTreeMap.getElem?_insert] at hother
    split at hother
    · rename_i hk
      rw [← Option.some.inj hother, hkey]
      simpa using hk
    · exact h.2 k other hother

theorem Filed.erase (h : Filed acks) (key : String) : Filed (acks.erase key) := by
  refine ⟨Std.ExtTreeMap.size_erase_le.trans h.1, fun k other hother => ?_⟩
  rw [Std.ExtTreeMap.getElem?_erase] at hother
  split at hother
  · simp at hother
  · exact h.2 k other hother

theorem Sound.persist (h : store.Sound) (hacks : Filed acks) (saves : Bool) :
    (persist { store with closeAcks := acks } saves).Sound := by
  unfold CloseStore.persist
  split
  · exact ⟨hacks, hacks⟩
  · exact ⟨hacks, h.2⟩

theorem Sound.rememberCloseAck (h : store.Sound) (ack : StoppedAck) (saves : Bool) :
    (store.rememberCloseAck ack saves).2.Sound := by
  unfold CloseStore.rememberCloseAck
  split
  · rename_i old hold
    split
    · exact h.persist h.1 saves
    · exact h.persist (h.1.insert rfl (Or.inl (by simp [hold]))) saves
  · split
    · exact h
    · exact h.persist (h.1.insert rfl (Or.inr (by omega))) saves

theorem Sound.changeCloseAck (h : store.Sound) (old : StoppedAck)
    (replacement : Option StoppedAck) (saves : Bool) :
    (store.changeCloseAck old replacement saves).2.Sound := by
  unfold CloseStore.changeCloseAck
  split
  · exact h
  rename_i hold
  push Not at hold
  split
  · exact h.persist (h.1.erase old.key) saves
  split
  · exact h
  · -- the replacement is of the same session and epoch, so it has the key of the old one
    rename_i hsame
    push Not at hsame
    exact h.persist (h.1.insert (by rw [hsame.1]) (Or.inl (by simp [hold]))) saves

end CloseStore

namespace System

theorem step_sound {s : System} (hbacked : s.Backed) (h : s.store.Sound) (action : Action) :
    (s.step action).store.Sound := by
  cases action with
  | serve i service => exact h
  | stop i r proof signs saves thread =>
    have hstopped : (recordStopped (s.services i) r proof signs saves s.store).2.2.Sound := by
      rcases recordStopped_store (s.services i) r proof signs saves s.store with heq | ⟨ack, heq⟩
      · rwa [heq]
      · rw [heq]
        exact h.rememberCloseAck ack saves
    simp only [step]
    split
    · split
      · simpa using hstopped
      · exact hstopped
    · exact hstopped
  | flush thread order =>
    simp only [step]
    split
    · simpa using h
    · exact h
  | send thread input =>
    simp only [step]
    split
    · exact h
    rename_i sender hsender
    rcases sendStep_store thread (hbacked thread sender hsender) input with
      heq | ⟨replacement, saves, heq, -⟩
    · rwa [heq]
    · rw [heq]
      exact h.changeCloseAck sender.ack replacement saves
  | gate enters =>
    simp only [step]
    split <;> split <;> exact h

/-- However sessions stop, senders settle and writes fail after a file was loaded, the debt in
memory and on disk stays within the limit, each entry under its own session and epoch. -/
theorem stored_debt_sound (loaded : { acks // CloseStore.Filed acks })
    (services : Nat → Service) (actions : List Action) :
    (run { store := ⟨loaded, loaded⟩, services := services } actions).store.Sound := by
  have hrun : ∀ s : System, s.Backed → s.store.Sound → (s.run actions).store.Sound := by
    induction actions with
    | nil => exact fun _ _ h => h
    | cons action actions ih =>
      exact fun s hbacked h => ih _ (step_backed hbacked action) (step_sound hbacked h action)
  exact hrun _ (by simp [Backed]) ⟨loaded.2, loaded.2⟩

end System

end HomeTunnel.Host
