import HomeTunnel.Engine.Mailbox

/-! # Worker events keep their order and their bounds

What the consumer received, followed by what still waits, is a view of what was taken in: it
has every critical event in order, and of each file the progress and the end in order. The copy
that the dispatcher offers in place of its item gives such a view too.
-/

namespace HomeTunnel.Engine

variable {Key Body : Type}

def critical (x : Entry Key Body) : Bool :=
  x.2.progress.isNone

theorem terminal_of_progress {e : Event Key Body} {key : Key} (h : e.progress = some key) :
    e.terminal = none := by
  unfold Event.progress at h
  unfold Event.terminal
  split at h
  · next heq => rw [heq]
  · cases h

theorem pairwise_snoc {α : Type} {r : α → α → Prop} {l : List α} {a : α} (h : l.Pairwise r)
    (ha : ∀ x ∈ l, r x a) : (l ++ [a]).Pairwise r :=
  List.pairwise_append.mpr ⟨h, List.pairwise_singleton .., fun x hx _ hy =>
    List.mem_singleton.mp hy ▸ ha x hx⟩

def Item.file (item : Item Key Body) : Option (Key × Nat) :=
  item.entry.2.progress.map fun key => (key, item.id)

/-- What waits, without the item that is held. -/
def waiting (queue : List (Item Key Body)) (held : Option Nat) : List (Entry Key Body) :=
  (queue.filter fun item => decide (held ≠ some item.id)).map Item.entry

theorem waiting_append (queue other : List (Item Key Body)) (held : Option Nat) :
    waiting (queue ++ other) held = waiting queue held ++ waiting other held := by
  simp [waiting]

theorem waiting_cons {item : Item Key Body} {held : Option Nat} (h : held ≠ some item.id)
    (queue : List (Item Key Body)) :
    waiting (item :: queue) held = item.entry :: waiting queue held := by
  simp [waiting, h]

theorem waiting_held (item : Item Key Body) (queue : List (Item Key Body)) :
    waiting (item :: queue) (some item.id) = waiting queue (some item.id) := by
  simp [waiting]

variable [DecidableEq Key]

/-- Progress of the file, or its end. -/
def concerns (key : Key) (x : Entry Key Body) : Bool :=
  decide (x.2.progress = some key ∨ x.2.terminal = some key)

structure View (accepted view : List (Entry Key Body)) : Prop where
  critical : view.filter critical = accepted.filter critical
  ordered : ∀ key, (view.filter (concerns key)).Pairwise (·.1 < ·.1)
  known : ∀ x ∈ view, x ∈ accepted

namespace View

variable {accepted view view' : List (Entry Key Body)} {x : Entry Key Body}

theorem append (h : View accepted view) (hx : ∀ y ∈ accepted, y.1 < x.1) :
    View (accepted ++ [x]) (view ++ [x]) := by
  refine ⟨by rw [List.filter_append, List.filter_append, h.critical], fun key => ?_, ?_⟩
  · rw [List.filter_append, List.pairwise_append]
    refine ⟨h.ordered key, (List.pairwise_singleton _ x).filter _, fun y hy z hz => ?_⟩
    rw [List.mem_singleton.mp (List.mem_of_mem_filter hz)]
    exact hx y (h.known y (List.mem_of_mem_filter hy))
  · exact List.forall_mem_append.mpr ⟨fun y hy => List.mem_append_left _ (h.known y hy),
      fun y hy => List.mem_append_right _ hy⟩

/-- Progress may leave the view. -/
theorem drop (h : View accepted view) (hsub : view'.Sublist view)
    (hcritical : view'.filter Engine.critical = view.filter Engine.critical) :
    View accepted view' :=
  ⟨hcritical.trans h.critical, fun key => (h.ordered key).sublist (hsub.filter _),
    fun x hx => h.known x (hsub.subset hx)⟩

/-- Progress that is taken in need not be in the view. -/
theorem skip (h : View accepted view) (hx : Engine.critical x = false) :
    View (accepted ++ [x]) view := by
  refine ⟨?_, h.ordered, fun y hy => List.mem_append_left _ (h.known y hy)⟩
  rw [h.critical, List.filter_append, List.filter_singleton, hx]
  exact (List.append_nil _).symm

/-- A newer value takes the place of the last one of its file. -/
theorem replace {before after : List (Entry Key Body)} {old : Entry Key Body} {key : Key}
    (h : View accepted (before ++ old :: after)) (hold : old.2.progress = some key)
    (hxkey : x.2.progress = some key) (hlast : ∀ y ∈ after, concerns key y = false)
    (hx : ∀ y ∈ accepted, y.1 < x.1) : View (accepted ++ [x]) (before ++ x :: after) := by
  have hknown : ∀ y ∈ before ++ after, y ∈ accepted := fun y hy =>
    h.known y ((List.sublist_cons_self old after).append_left before |>.subset hy)
  refine ⟨?_, fun other => ?_, fun y hy => ?_⟩
  · have hc := h.critical
    simp only [List.filter_append, List.filter_cons, Engine.critical, hold, hxkey, Option.isNone_some,
      Bool.false_eq_true, if_false, List.filter_nil, List.append_nil] at hc ⊢
    exact hc
  · have hrest := ((h.ordered other).sublist
      (((List.sublist_cons_self old after).append_left before).filter _))
    by_cases hother : other = key
    · subst hother
      have hnone : after.filter (concerns other) = [] := by
        rw [List.filter_eq_nil_iff]
        exact fun y hy => by rw [hlast y hy]; exact Bool.false_ne_true
      have hself : concerns other x = true := decide_eq_true (.inl hxkey)
      rw [List.filter_append, List.filter_cons_of_pos hself, hnone, List.pairwise_append]
      rw [List.filter_append, hnone, List.append_nil] at hrest
      refine ⟨hrest, List.pairwise_singleton .., fun y hy z hz => ?_⟩
      rw [List.mem_singleton.mp hz]
      exact hx y (hknown y (List.mem_append_left _ (List.mem_of_mem_filter hy)))
    · have hskip : ¬ concerns other x = true := by
        simp [concerns, hxkey, terminal_of_progress hxkey, Ne.symm hother]
      rwa [List.filter_append, List.filter_cons_of_neg hskip, ← List.filter_append]
  · rcases List.mem_append.mp hy with hy | hy
    · exact List.mem_append_left _ (hknown y (List.mem_append_left _ hy))
    · rcases List.mem_cons.mp hy with rfl | hy
      · exact List.mem_append_right _ (List.mem_singleton_self _)
      · exact List.mem_append_left _ (hknown y (List.mem_append_right _ hy))

end View

namespace Mailbox

variable {s : Mailbox Key Body}

/-- The queue, `eventProgress` and `eventCritical` agree. -/
structure Kept (s : Mailbox Key Body) : Prop where
  ids : s.queue.Pairwise fun a b => a.id ≠ b.id
  last : s.queue.Pairwise fun a b =>
    ∀ key, a.entry.2.progress = some key → concerns key b.entry = false
  progress : s.progress = s.queue.filterMap Item.file
  critical : s.critical = s.queue.countP fun item => Engine.critical item.entry
  limits : s.critical ≤ criticalEventLimit ∧ s.progress.length ≤ progressEventLimit
  numbered : (∀ item ∈ s.queue, item.id < s.next) ∧ ∀ x ∈ s.accepted, x.1 < s.next
  sorted : s.accepted.Pairwise (·.1 < ·.1)

variable {key : Key} {id : Nat} {before after : List (Item Key Body)} {item : Item Key Body}
  {received : List (Entry Key Body)} {e : Event Key Body}

theorem Kept.pending_eq_some (h : Kept s) (hp : s.pending key = some id) :
    ∃ before item after, s.queue = before ++ item :: after ∧ item.id = id ∧
      item.entry.2.progress = some key := by
  unfold pending at hp
  obtain ⟨⟨key', id'⟩, hfind, rfl⟩ := Option.map_eq_some_iff.mp hp
  have hmem := List.mem_of_find?_eq_some hfind
  obtain rfl : key' = key := by simpa using List.find?_some hfind
  rw [h.progress, List.mem_filterMap] at hmem
  obtain ⟨item, hitem, hfile⟩ := hmem
  obtain ⟨key, hkey, heq⟩ := Option.map_eq_some_iff.mp hfile
  cases heq
  obtain ⟨before, after, hqueue⟩ := List.append_of_mem hitem
  exact ⟨before, item, after, hqueue, rfl, hkey⟩

theorem Kept.pending_eq_none (h : Kept s) (hp : s.pending key = none) :
    ∀ item ∈ s.queue, item.entry.2.progress ≠ some key := by
  intro item hitem hkey
  have hmem : (key, item.id) ∈ s.progress := by
    rw [h.progress, List.mem_filterMap]
    exact ⟨item, hitem, by simp [Item.file, hkey]⟩
  have hnone := Option.map_eq_none_iff.mp hp
  rw [List.find?_eq_none] at hnone
  exact hnone _ hmem (by simp)

/-- The two sides of an item in the queue have other numbers. -/
theorem Kept.split (h : Kept s) (hqueue : s.queue = before ++ item :: after) :
    (∀ other ∈ before, other.id ≠ item.id) ∧ ∀ other ∈ after, other.id ≠ item.id := by
  have hids := h.ids
  rw [hqueue, List.pairwise_append, List.pairwise_cons] at hids
  exact ⟨fun other ho => hids.2.2 other ho item List.mem_cons_self,
    fun other ho => (hids.2.1.1 other ho).symm⟩

theorem Kept.eq_of_id (h : Kept s) {other : Item Key Body}
    (hqueue : s.queue = before ++ item :: after) (hother : other ∈ s.queue)
    (hid : other.id = item.id) : other = item := by
  rw [hqueue] at hother
  rcases List.mem_append.mp hother with ho | ho
  · exact absurd hid ((h.split hqueue).1 other ho)
  · exact (List.mem_cons.mp ho).resolve_right fun ho => (h.split hqueue).2 other ho hid

theorem Kept.filter_id (h : Kept s) (hqueue : s.queue = before ++ item :: after) :
    s.queue.filter (·.id ≠ item.id) = before ++ after := by
  obtain ⟨hbefore, hafter⟩ := h.split hqueue
  rw [hqueue, List.filter_append, List.filter_cons_of_neg (by simp)]
  rw [List.filter_eq_self.mpr fun a ha => decide_eq_true (hbefore a ha),
    List.filter_eq_self.mpr fun a ha => decide_eq_true (hafter a ha)]

omit [DecidableEq Key] in
theorem find_split (h : s.queue.find? (·.id = id) = some item) :
    item.id = id ∧ ∃ before after, s.queue = before ++ item :: after :=
  ⟨by simpa using List.find?_some h, List.append_of_mem (List.mem_of_find?_eq_some h)⟩

theorem Kept.remove (h : Kept s) (id : Nat) : Kept (s.removeEventLocked id) := by
  unfold removeEventLocked
  split
  · exact h
  · next item hfind =>
    obtain ⟨rfl, before, after, hqueue⟩ := find_split hfind
    have hsub : (before ++ after).Sublist s.queue :=
      hqueue ▸ (List.sublist_cons_self item after).append_left before
    have hprogress := h.progress
    have hcritical := h.critical
    have hlast := h.last
    rw [hqueue, List.filterMap_append, List.filterMap_cons] at hprogress
    rw [hqueue, List.countP_append, List.countP_cons] at hcritical
    rw [hqueue, List.pairwise_append, List.pairwise_cons] at hlast
    have hnumbered : (∀ other ∈ before ++ after, other.id < s.next) ∧ ∀ x ∈ s.accepted, x.1 < s.next :=
      ⟨fun other ho => h.numbered.1 other (hsub.subset ho), h.numbered.2⟩
    simp only [h.filter_id hqueue]
    cases hkey : item.entry.2.progress with
    | none =>
      simp only [Item.file, hkey, Option.map_none] at hprogress
      simp only [Engine.critical, hkey, Option.isNone_none, if_true] at hcritical
      have hlimits := h.limits
      refine ⟨h.ids.sublist hsub, h.last.sublist hsub, ?_, ?_, ⟨?_, hlimits.2⟩, hnumbered,
        h.sorted⟩
      · exact hprogress.trans List.filterMap_append.symm
      · rw [List.countP_append]
        dsimp only [Engine.critical]
        omega
      · dsimp only
        omega
    | some key =>
      simp only [Engine.critical, hkey, Option.isNone_some, Bool.false_eq_true, if_false,
        Nat.add_zero] at hcritical
      refine ⟨h.ids.sublist hsub, h.last.sublist hsub, ?_, ?_, ⟨h.limits.1, ?_⟩, hnumbered,
        h.sorted⟩
      · have hother : ∀ queue : List (Item Key Body),
            (∀ other ∈ queue, other.entry.2.progress ≠ some key) →
            (queue.filterMap Item.file).filter (·.1 ≠ key) = queue.filterMap Item.file := by
          intro queue hq
          rw [List.filter_eq_self]
          intro pair hpair
          obtain ⟨other, ho, hfile⟩ := List.mem_filterMap.mp hpair
          obtain ⟨key', hkey', rfl⟩ := Option.map_eq_some_iff.mp hfile
          exact decide_eq_true fun heq => hq other ho (heq ▸ hkey')
        have hself : concerns key item.entry = true := decide_eq_true (.inl hkey)
        dsimp only
        rw [hprogress]
        simp only [Item.file, hkey, Option.map_some]
        rw [List.filter_append, List.filter_cons_of_neg (by simp), ← List.filter_append,
          ← List.filterMap_append]
        refine hother _ fun other ho heq => ?_
        rcases List.mem_append.mp ho with ho | ho
        · exact absurd (hlast.2.2 other ho item List.mem_cons_self key heq) (by simp [hself])
        · have := hlast.2.1.1 other ho key hkey
          simp [concerns, heq] at this
      · rw [List.countP_append]
        exact hcritical
      · exact (List.length_filter_le _ _).trans h.limits.2

/-- What `settle` does: it takes the one pending item of the file that the event ends. -/
theorem Kept.settle_cases (h : Kept s) (e : Event Key Body) :
    (s.settle e = s ∧ ∀ key, e.terminal = some key → s.pending key = none) ∨
      ∃ key before item after, e.terminal = some key ∧ s.queue = before ++ item :: after ∧
        item.entry.2.progress = some key ∧
        s.settle e = { s with
          queue := before ++ after
          progress := s.progress.filter (·.1 ≠ key) } := by
  unfold settle
  split
  · next id hbind =>
    obtain ⟨key, hterminal, hpending⟩ := Option.bind_eq_some_iff.mp hbind
    obtain ⟨before, item, after, hqueue, rfl, hkey⟩ := h.pending_eq_some hpending
    refine .inr ⟨key, before, item, after, hterminal, hqueue, hkey, ?_⟩
    have hfind : s.queue.find? (·.id = item.id) = some item := by
      rw [hqueue, List.find?_append, List.find?_eq_none.mpr fun other ho => by
        simpa using (h.split hqueue).1 other ho]
      simp
    simp only [removeEventLocked, hfind, hkey, h.filter_id hqueue]
  · next hbind =>
    exact .inl ⟨rfl, fun key hkey => by simpa [hkey] using hbind⟩

theorem Kept.settle (h : Kept s) (e : Event Key Body) : Kept (s.settle e) := by
  unfold Mailbox.settle
  split
  · exact h.remove _
  · exact h

/-- Without the progress of a file that has ended it is still a view. -/
theorem Kept.settle_view (h : Kept s) (e : Event Key Body) {held : Option Nat}
    (hv : View s.accepted (received ++ waiting s.queue held)) :
    View s.accepted (received ++ waiting (s.settle e).queue held) := by
  obtain ⟨heq, _⟩ | ⟨key, before, item, after, _, hqueue, hkey, heq⟩ := h.settle_cases e
  · rwa [heq]
  · rw [heq]
    dsimp only
    rw [hqueue, waiting_append] at hv
    rw [waiting_append]
    by_cases hheld : held = some item.id
    · subst hheld
      rwa [waiting_held] at hv
    · rw [waiting_cons hheld] at hv
      refine hv.drop ((List.sublist_cons_self ..).append_left _ |>.append_left _) ?_
      simp [List.filter_append, Engine.critical, hkey]

theorem Kept.settled (h : Kept s) (he : e.progress = none) :
    ∀ item ∈ (s.settle e).queue, ∀ key, item.entry.2.progress = some key →
      concerns key (s.next, e) = false := by
  intro other hother key hkey
  have hterminal : e.terminal ≠ some key := by
    intro hterminal
    obtain ⟨heq, hnone⟩ | ⟨key', before, item, after, hkey', hqueue, hitem, heq⟩ := h.settle_cases e
    · exact h.pending_eq_none (hnone key hterminal) other (heq ▸ hother) hkey
    · cases hterminal.symm.trans hkey'
      have hlast := h.last
      rw [hqueue, List.pairwise_append, List.pairwise_cons] at hlast
      rw [heq] at hother
      rcases List.mem_append.mp hother with ho | ho
      · simpa [concerns, hitem] using hlast.2.2 other ho item List.mem_cons_self key hkey
      · simpa [concerns, hkey] using hlast.2.1.1 other ho key hitem
  exact decide_eq_false (by simp [he, hterminal])

theorem Kept.append_view (h : Kept s) (e : Event Key Body) {held : Option Nat}
    (hheld : held ≠ some s.next) (hv : View s.accepted (received ++ waiting s.queue held)) :
    View (s.append e).accepted (received ++ waiting (s.append e).queue held) := by
  dsimp only [append]
  rw [waiting_append, waiting_cons hheld, ← List.append_assoc]
  exact hv.append h.numbered.2

theorem Kept.counted (h : Kept s) (e : Event Key Body) :
    ∀ x ∈ s.accepted ++ [(s.next, e)], x.1 < s.next + 1 :=
  List.forall_mem_append.mpr ⟨fun x hx => Nat.lt_succ_of_lt (h.numbered.2 x hx),
    List.forall_mem_singleton.mpr (Nat.lt_succ_self _)⟩

theorem Kept.append (h : Kept s) {progress : List (Key × Nat)} {count : Nat}
    (hfree : ∀ item ∈ s.queue, ∀ key, item.entry.2.progress = some key → concerns key (s.next, e) = false)
    (hprogress : progress = s.progress ++ (Item.file ⟨s.next, s.next, e⟩).toList)
    (hcount : count = s.critical + if Engine.critical (s.next, e) then 1 else 0)
    (hlimits : count ≤ criticalEventLimit ∧ progress.length ≤ progressEventLimit) :
    Kept (Mailbox.append { s with progress := progress, critical := count } e) := by
  refine ⟨?_, ?_, ?_, ?_, hlimits, ⟨?_, h.counted e⟩, pairwise_snoc h.sorted h.numbered.2⟩
  · exact pairwise_snoc h.ids fun item hi => (h.numbered.1 item hi).ne
  · exact pairwise_snoc h.last hfree
  · dsimp only [Mailbox.append]
    rw [hprogress, List.filterMap_append, h.progress]
    rfl
  · dsimp only [Mailbox.append]
    rw [hcount, h.critical, List.countP_append, List.countP_singleton]
  · exact List.forall_mem_append.mpr ⟨fun item hi => Nat.lt_succ_of_lt (h.numbered.1 item hi),
      List.forall_mem_singleton.mpr (Nat.lt_succ_self _)⟩

theorem Kept.overwrite (h : Kept s) (hp : s.pending key = some id) (he : e.progress = some key) :
    Kept (s.overwrite id e) := by
  obtain ⟨before, old, after, hqueue, rfl, hold⟩ := h.pending_eq_some hp
  have hf : ∀ item ∈ s.queue, (item.renew old.id (s.next, e)).id = item.id ∧
      (item.renew old.id (s.next, e)).entry.2.progress = item.entry.2.progress ∧
      (item.renew old.id (s.next, e)).entry.2.terminal = item.entry.2.terminal := by
    intro item hitem
    by_cases hid : item.id = old.id
    · rw [Item.renew, if_pos hid, h.eq_of_id hqueue hitem hid, he, hold, terminal_of_progress he,
        terminal_of_progress hold]
      exact ⟨rfl, rfl, rfl⟩
    · rw [Item.renew, if_neg hid]
      exact ⟨rfl, rfl, rfl⟩
  refine ⟨?_, ?_, ?_, ?_, h.limits, ⟨?_, h.counted e⟩, pairwise_snoc h.sorted h.numbered.2⟩
  · refine List.pairwise_map.mpr (h.ids.imp_of_mem fun ha hb hne => ?_)
    rwa [(hf _ ha).1, (hf _ hb).1]
  · refine List.pairwise_map.mpr (h.last.imp_of_mem fun ha hb hne other hother => ?_)
    have := hne other ((hf _ ha).2.1 ▸ hother)
    rw [concerns] at this ⊢
    rwa [(hf _ hb).2.1, (hf _ hb).2.2]
  · refine h.progress.trans (Eq.trans ?_ List.filterMap_map.symm)
    refine List.filterMap_congr fun item hi => ?_
    rw [Function.comp, Item.file, Item.file, (hf item hi).1, (hf item hi).2.1]
  · refine h.critical.trans (Eq.trans ?_ List.countP_map.symm)
    refine List.countP_congr fun item hi => ?_
    rw [Function.comp, Engine.critical, Engine.critical, (hf item hi).2.1]
  · intro item hi
    obtain ⟨item, hmem, rfl⟩ := List.mem_map.mp hi
    exact Nat.lt_succ_of_lt ((hf item hmem).1.trans_lt (h.numbered.1 item hmem))

theorem Kept.overwrite_view (h : Kept s) (hp : s.pending key = some id) (he : e.progress = some key)
    {held : Option Nat} (hv : View s.accepted (received ++ waiting s.queue held)) :
    View (s.overwrite id e).accepted (received ++ waiting (s.overwrite id e).queue held) := by
  obtain ⟨before, item, after, hqueue, rfl, hkey⟩ := h.pending_eq_some hp
  have hnew : (s.overwrite item.id e).queue = before ++ ⟨item.id, s.next, e⟩ :: after := by
    obtain ⟨hbefore, hafter⟩ := h.split hqueue
    have hsame : ∀ {items : List (Item Key Body)}, (∀ other ∈ items, other.id ≠ item.id) →
        items.map (·.renew item.id (s.next, e)) = items := fun hi =>
      (List.map_congr_left fun a ha => if_neg (hi a ha)).trans (List.map_id _)
    rw [Mailbox.overwrite, hqueue, List.map_append, List.map_cons, hsame hbefore, hsame hafter]
    exact congrArg (fun new => before ++ new :: after) (if_pos rfl)
  rw [hnew, waiting_append]
  rw [hqueue, waiting_append] at hv
  by_cases hheld : held = some item.id
  · subst hheld
    rw [waiting_held] at hv
    rw [waiting_held (⟨item.id, s.next, e⟩ : Item Key Body)]
    exact hv.skip (by simp [Engine.critical, he])
  · rw [waiting_cons hheld, ← List.append_assoc] at hv
    rw [waiting_cons (show held ≠ some (⟨item.id, s.next, e⟩ : Item Key Body).id from hheld),
      ← List.append_assoc]
    refine hv.replace hkey he (fun y hy => ?_) h.numbered.2
    obtain ⟨other, ho, rfl⟩ := List.mem_map.mp hy
    have hlast := h.last
    rw [hqueue, List.pairwise_append, List.pairwise_cons] at hlast
    exact hlast.2.1.1 other (List.mem_of_mem_filter ho) key hkey

theorem Kept.passed (h : Kept s) (alive : Bool) :
    Kept { s with next := s.next + 1, wake := true, alive := alive } :=
  ⟨h.ids, h.last, h.progress, h.critical, h.limits,
    ⟨fun item hi => Nat.lt_succ_of_lt (h.numbered.1 item hi),
      fun x hx => Nat.lt_succ_of_lt (h.numbered.2 x hx)⟩, h.sorted⟩

/-- The item that the dispatcher holds. -/
def held (s : Mailbox Key Body) : Option Nat :=
  match s.dispatcher with
  | .removing id => some id
  | _ => none

/-- One call of `enqueueEvent`, seen from any view of the mailbox. -/
theorem Kept.enqueue (h : Kept s) (e : Event Key Body) :
    Kept (s.enqueueEvent e) ∧ (s.enqueueEvent e).next = s.next + 1 ∧
      (s.enqueueEvent e).delivered = s.delivered ∧
      (s.enqueueEvent e).dispatcher = s.dispatcher ∧
      ∀ {received : List (Entry Key Body)} {held : Option Nat}, held ≠ some s.next →
        View s.accepted (received ++ waiting s.queue held) →
        View (s.enqueueEvent e).accepted (received ++ waiting (s.enqueueEvent e).queue held) := by
  unfold enqueueEvent
  cases he : e.progress with
  | some key =>
    dsimp only
    cases hp : s.pending key with
    | some id => exact ⟨h.overwrite hp he, rfl, rfl, rfl, fun _ hv => h.overwrite_view hp he hv⟩
    | none =>
      dsimp only
      split
      · exact ⟨h.passed s.alive, rfl, rfl, rfl, fun _ hv => hv⟩
      · next hroom =>
        refine ⟨h.append ?_ ?_ ?_ ⟨h.limits.1, ?_⟩, rfl, rfl, rfl, fun hheld hv => ?_⟩
        · intro item hi other hother
          refine decide_eq_false ?_
          rintro (hsame | hsame)
          · cases he.symm.trans hsame
            exact h.pending_eq_none hp item hi hother
          · exact absurd ((terminal_of_progress he).symm.trans hsame) nofun
        · simp [Item.file, he]
        · simp [Engine.critical, he]
        · rw [List.length_append, List.length_singleton]
          omega
        · exact h.append_view e hheld hv
  | none =>
    have hs := h.settle e
    have hfree := h.settled he
    have hframe : (s.settle e).accepted = s.accepted ∧ (s.settle e).next = s.next ∧
        (s.settle e).delivered = s.delivered ∧ (s.settle e).dispatcher = s.dispatcher := by
      obtain ⟨heq, _⟩ | ⟨_, _, _, _, _, _, _, heq⟩ := h.settle_cases e <;> rw [heq] <;>
        exact ⟨rfl, rfl, rfl, rfl⟩
    have hview := fun received held => @Kept.settle_view _ _ _ _ received h e held
    rw [← hframe.1] at hview
    rw [← hframe.2.1] at hfree
    dsimp only
    rw [← hframe.2.1, ← hframe.2.2.1, ← hframe.2.2.2]
    split
    · exact ⟨hs.passed false, rfl, rfl, rfl, fun _ hv => hview _ _ (hframe.1 ▸ hv)⟩
    · next hroom =>
      refine ⟨hs.append hfree ?_ ?_ ⟨by omega, hs.limits.2⟩, rfl, rfl, rfl, fun hheld hv => ?_⟩
      · simp [Item.file, he]
      · simp [Engine.critical, he]
      · exact hs.append_view e hheld (hview _ _ (hframe.1 ▸ hv))

structure Inv (s : Mailbox Key Body) : Prop where
  kept : Kept s
  view : View s.accepted (s.delivered ++ waiting s.queue s.held)
  copy : ∀ id copy, s.dispatcher = .offering id copy →
    View s.accepted (s.delivered ++ [copy] ++ waiting s.queue (some id))
  holds : ∀ id, (s.dispatcher = .removing id ∨ ∃ copy, s.dispatcher = .offering id copy) →
    id < s.next

theorem Inv.init : Inv ({} : Mailbox Key Body) :=
  ⟨⟨.nil, .nil, rfl, rfl, ⟨Nat.zero_le _, Nat.zero_le _⟩, ⟨nofun, nofun⟩, .nil⟩,
    ⟨rfl, fun _ => .nil, nofun⟩, nofun, nofun⟩

theorem Kept.move (h : Kept s) (wake : Bool) (dispatcher : Dispatcher Key Body)
    (delivered : List (Entry Key Body)) :
    Kept { s with wake := wake, dispatcher := dispatcher, delivered := delivered } :=
  ⟨h.ids, h.last, h.progress, h.critical, h.limits, h.numbered, h.sorted⟩

theorem Kept.waiting_head (h : Kept s) {rest : List (Item Key Body)}
    (hqueue : s.queue = item :: rest) :
    waiting s.queue none = item.entry :: waiting s.queue (some item.id) := by
  have hrest := (h.split (show s.queue = [] ++ item :: rest from hqueue)).2
  rw [hqueue, waiting_held, waiting_cons (show none ≠ some item.id from nofun)]
  refine congrArg (item.entry :: List.map _ ·) (List.filter_congr fun other ho => ?_)
  simp [(hrest other ho).symm]

theorem removeEventLocked_queue (s : Mailbox Key Body) (id : Nat) :
    (s.removeEventLocked id).queue = s.queue.filter (·.id ≠ id) := by
  unfold removeEventLocked
  split
  · next hnone =>
    refine (List.filter_eq_self.mpr fun item hi => ?_).symm
    simpa using List.find?_eq_none.mp hnone item hi
  · dsimp only
    split <;> rfl

theorem waiting_removed (s : Mailbox Key Body) (id : Nat) :
    waiting (s.removeEventLocked id).queue none = waiting s.queue (some id) := by
  simp [removeEventLocked_queue, waiting, eq_comm]

theorem removeEventLocked_frame (s : Mailbox Key Body) (id : Nat) :
    (s.removeEventLocked id).accepted = s.accepted ∧
      (s.removeEventLocked id).delivered = s.delivered ∧
      (s.removeEventLocked id).alive = s.alive := by
  unfold removeEventLocked
  split
  · exact ⟨rfl, rfl, rfl⟩
  · dsimp only
    split <;> exact ⟨rfl, rfl, rfl⟩

theorem Inv.enqueue (h : Inv s) (e : Event Key Body) : Inv (s.enqueueEvent e) := by
  obtain ⟨hkept, hnext, hdelivered, hdispatcher, hview⟩ := h.kept.enqueue e
  refine ⟨hkept, ?_, fun id copy hd => ?_, fun id hd => ?_⟩
  · rw [hdelivered, held, hdispatcher, ← held]
    refine hview (fun heq => ?_) h.view
    unfold held at heq
    split at heq
    · next hd =>
      cases heq
      exact absurd (h.holds _ (.inl hd)) (lt_irrefl _)
    · cases heq
  · rw [hdispatcher] at hd
    rw [hdelivered]
    refine hview (fun heq => ?_) (h.copy id copy hd)
    cases heq
    exact absurd (h.holds _ (.inr ⟨copy, hd⟩)) (lt_irrefl _)
  · rw [hdispatcher] at hd
    exact hnext ▸ Nat.lt_succ_of_lt (h.holds id hd)

theorem Inv.step (h : Inv s) (action : Action Key Body) : Inv (s.step action) := by
  unfold Mailbox.step
  split
  · exact h
  · split
    · exact h.enqueue _
    · next hd =>
      have hview : View s.accepted (s.delivered ++ waiting s.queue none) := by
        simpa only [held, hd] using h.view
      split
      · exact ⟨h.kept.move .., hview, nofun, nofun⟩
      · next item rest hqueue =>
        refine ⟨h.kept.move .., hview, fun id copy heq => ?_, fun id heq => ?_⟩
        · cases heq
          rw [h.kept.waiting_head hqueue] at hview
          simpa using hview
        · obtain heq | ⟨copy, heq⟩ := heq <;> cases heq
          exact h.kept.numbered.1 item (by rw [hqueue]; exact List.mem_cons_self)
    · next hd =>
      split
      · exact ⟨h.kept.move .., by simpa only [held, hd] using h.view, nofun, nofun⟩
      · exact h
    · next id copy hd =>
      split
      · exact ⟨h.kept.move .., by simpa only [held, hd] using h.view, nofun, nofun⟩
      · exact h
    · next id copy hd =>
      refine ⟨h.kept.move .., h.copy id copy hd, nofun, fun other heq => ?_⟩
      obtain heq | ⟨_, heq⟩ := heq <;> cases heq
      exact h.holds id (.inr ⟨copy, hd⟩)
    · next id hd =>
      refine ⟨(h.kept.remove id).move .., ?_, nofun, nofun⟩
      have hview := h.view
      simp only [held, hd] at hview
      dsimp only [held]
      rwa [(removeEventLocked_frame s id).1, (removeEventLocked_frame s id).2.1, waiting_removed]
    · exact h

theorem Inv.run (actions : List (Action Key Body)) :
    Inv (actions.foldl Mailbox.step ({} : Mailbox Key Body)) :=
  (Runs.always_of_step (q := Inv) (fun _ action h => h.step action) Inv.init).last

end Mailbox

end HomeTunnel.Engine
