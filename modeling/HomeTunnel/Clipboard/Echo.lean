import HomeTunnel.Clipboard.Pair

/-! # Received text is not sent back

An endpoint remembers the digest of the text that it wrote last, and does not offer a
text with that digest. The acknowledgement of an offer of its own overwrites the digest,
so the guard holds as long as no acknowledgement comes while a received text is still
in the clipboard.
-/

namespace HomeTunnel.Remote.Clipboard

open Auth (Primitives)
open ClipboardTransfer Duplex Trace

/-- The text that was received last, while the clipboard still holds it. -/
def held : List ClipboardEvent → Option Bytes
  | [] => none
  | .wrote text true :: _ => some text
  | .copied text :: past => if held past = some text then some text else none
  | _ :: past => held past

/-- An offer of another text than the one that was received. -/
def NoEcho (event : ClipboardEvent) (past : List ClipboardEvent) : Prop :=
  ∀ id text, event = .offered id text → held past ≠ some text

def ClipboardEvent.offer : ClipboardEvent → Option Bytes
  | .offered _ text => some text
  | _ => none

theorem noEcho_iff {event : ClipboardEvent} {past : List ClipboardEvent} :
    (∀ text ∈ event.offer, held past ≠ some text) ↔ NoEcho event past := by
  cases event <;> simp [NoEcho, ClipboardEvent.offer]

instance (event : ClipboardEvent) (past : List ClipboardEvent) : Decidable (NoEcho event past) :=
  decidable_of_iff _ noEcho_iff

/-- Events that leave the clipboard alone. -/
def ClipboardEvent.calm : ClipboardEvent → Prop
  | .wrote _ ok => ok = false
  | .copied _ => False
  | _ => True

section Held

variable {event : ClipboardEvent} {trace : List ClipboardEvent} {text : Bytes}

theorem held_calm (h : event.calm) : held (event :: trace) = held trace := by
  cases event with
  | wrote text ok =>
    obtain rfl : ok = false := h
    rfl
  | copied text => exact h.elim
  | _ => rfl

theorem held_copied {other : Bytes} (h : held (.copied text :: trace) = some other) :
    held trace = some other := by
  simp only [held] at h
  split at h
  · next hsame => exact hsame.trans h
  · cases h

theorem ClipboardEvent.calm_of_quiet (h : event.quiet) : event.calm := by
  cases event <;> trivial

theorem noEcho_of_calm (h : ∀ id text, event ≠ .offered id text := by simp) :
    NoEcho event trace :=
  fun id text heq => absurd heq (h id text)

end Held

/-- While the endpoint sends, it knows the digest of the text that it received. -/
structure Guarded (P : Primitives) (s : ClipboardTransfer) : Prop where
  digest : ∀ text, held s.trace = some text → s.read = true → s.lastDigest = digest P text
  quiet : Each NoEcho s.trace

section Guard

variable {P : Primitives} {cb : Callbacks} {op : ClipboardOp} {s t : ClipboardTransfer}

theorem Guarded.keep (h : Guarded P s) (event : ClipboardEvent) (hcalm : event.calm)
    (htrace : t.trace = event :: s.trace) (hread : t.read = true → s.read = true)
    (hdigest : t.read = true → t.lastDigest = s.lastDigest)
    (hevent : ∀ id text, event ≠ .offered id text := by simp) : Guarded P t := by
  refine ⟨?_, ?_⟩
  · intro text htext hon
    rw [htrace, held_calm hcalm] at htext
    rw [hdigest hon]
    exact h.digest text htext (hread hon)
  · rw [htrace]
    exact ⟨noEcho_of_calm hevent, h.quiet⟩

theorem forget_lastDigest {s : ClipboardTransfer} (h : s.read = true) :
    s.forget.lastDigest = s.lastDigest := by
  unfold forget
  rw [if_neg (by simp [h])]

theorem Guarded.setWrite (h : Guarded P s) (value : Bool) : Guarded P (s.setWrite value).forget := by
  refine h.keep (.writing value) trivial (forget_trace _) ?_ ?_
  · rw [forget_read]
    exact id
  · intro hread
    rw [forget_read] at hread
    rw [forget_lastDigest hread]
    rfl

theorem Guarded.move (h : Guarded P s) (hmove : Move P cb op s t)
    (hop : ∀ permission now, op ≠ .enable permission true now)
    (hack : (∃ id, Delivers P op (.ack id)) → held s.trace = none) : Guarded P t := by
  cases hmove with
  | mark event hquiet =>
    refine h.keep event (ClipboardEvent.calm_of_quiet hquiet) rfl id (fun _ => rfl) ?_
    rintro id text rfl
    exact hquiet.elim
  | copy text =>
    exact ⟨fun other hother => h.digest other (held_copied hother), noEcho_of_calm, h.quiet⟩
  | close => exact ⟨nofun, noEcho_of_calm, h.quiet⟩
  | setRead value now hon =>
    cases value with
    | true => exact absurd (hon rfl) (hop _ _)
    | false =>
      refine h.keep (.reading false) trivial (forget_trace _) ?_ ?_
      · rw [forget_read]
        nofun
      · rw [forget_read]
        nofun
  | setWrite value => exact h.setWrite value
  | look status sequence text now =>
    exact h.keep (.read status text) trivial rfl id fun _ => rfl
  | offer sequence text uuid now ok hread hnone htext hgood hnew =>
    refine ⟨h.digest, noEcho_of_calm, ?_, noEcho_of_calm, noEcho_of_calm, h.quiet⟩
    intro id other heq hheld
    cases heq
    exact hnew (h.digest text hheld hread).symm
  | chunk item ok => exact h.keep (.sent _ ok) trivial rfl id fun _ => rfl
  | takeAccept item => exact ⟨h.digest, h.quiet⟩
  | takeAck item hitem haccepted hsize hdelivers =>
    refine ⟨?_, h.quiet⟩
    intro text htext
    exact absurd ((hack ⟨item.id, hdelivers⟩).symm.trans htext) nofun
  | accept id digest size now ok =>
    exact ⟨h.digest, noEcho_of_calm, noEcho_of_calm, h.quiet⟩
  | take item bytes => exact h.keep (.took _ bytes) trivial rfl id fun _ => rfl
  | write item ok hin hitem hwrite hdigest =>
    refine ⟨?_, noEcho_of_calm, noEcho_of_calm, h.quiet⟩
    intro text htext _
    cases htext
    exact hdigest.symm
  | writeFailed item =>
    have hfailed : Guarded P (s.note (.wrote item.content false)) :=
      h.keep (.wrote item.content false) rfl rfl id fun _ => rfl
    exact hfailed.setWrite false

/-- What an acknowledgement finds does not change before it is handled. -/
theorem Move.held (hmove : Move P cb op s t) (hack : ∃ id, Delivers P op (.ack id)) :
    held t.trace = held s.trace := by
  have hunique : ∀ message, Delivers P op message → toIncoming message.type = false := by
    rintro message ⟨type, payload, now, hop, hmessage⟩
    obtain ⟨id, type', payload', now', hop', hmessage'⟩ := hack
    rw [hop'] at hop
    cases hop
    cases hmessage.symm.trans hmessage'
    rfl
  have hnot : ¬ DeliversIncoming P op := by
    rintro ⟨message, hdelivers, htype⟩
    rw [hunique message hdelivers] at htype
    cases htype
  cases hmove with
  | mark event hquiet => exact held_calm (ClipboardEvent.calm_of_quiet hquiet)
  | copy text hop =>
    obtain ⟨id, type, payload, now, hop', -⟩ := hack
    cases hop.symm.trans hop'
  | setRead value now | setWrite value =>
    rw [forget_trace]
    rfl
  | write item ok hop | writeFailed item hop => exact absurd hop hnot
  | _ => rfl

theorem Guarded.apply (h : Guarded P s) (hop : ∀ permission now, op ≠ .enable permission true now)
    (hack : (∃ id, Delivers P op (.ack id)) → held s.trace = none) : Guarded P (s.apply P cb op) := by
  have hcalled : Guarded P (s.note (.called op)) :=
    h.keep (.called op) trivial rfl id fun _ => rfl
  refine (apply_keeps (p := fun s => Guarded P s ∧
    ((∃ id, Delivers P op (.ack id)) → held s.trace = none)) ?_ ?_ ⟨hcalled, hack⟩).1
  · rintro s t ⟨hs, hnone⟩ hmove
    exact ⟨hs.move hmove hop hnone, fun hdelivers => (hmove.held hdelivers).trans (hnone hdelivers)⟩
  · rintro s ok ⟨hs, hnone⟩
    exact ⟨hs.keep (.returned op ok) trivial rfl id fun _ => rfl, hnone⟩

theorem enable_records (permission : String) (value : Bool) (now : UInt64) :
    ∃ new, (s.enable cb permission value now).2.trace = new ++ s.trace ∧
      ∀ event ∈ new, event.calm ∧ ∀ id text, event ≠ .offered id text := by
  have hpermission : ∀ s : ClipboardTransfer,
      ∃ new, (s.enablePermission permission value now).2.trace = new ++ s.trace ∧
        ∀ event ∈ new, event.calm ∧ ∀ id text, event ≠ .offered id text := by
    intro s
    unfold enablePermission
    split
    · exact ⟨[.reading value], forget_trace _, by simp [ClipboardEvent.calm]⟩
    · split
      · exact ⟨[.writing value], forget_trace _, by simp [ClipboardEvent.calm]⟩
      · exact ⟨[], rfl, nofun⟩
  unfold enable
  split
  · exact ⟨[], rfl, nofun⟩
  · split
    · exact hpermission s
    · obtain ⟨ok, hask⟩ : ∃ ok, s.askAvailable cb = (ok, s.note (.available ok)) := ⟨_, rfl⟩
      rw [hask]
      cases ok with
      | false => exact ⟨[.available false], rfl, by simp [ClipboardEvent.calm]⟩
      | true =>
        obtain ⟨new, hnew, hcalm⟩ := hpermission (s.note (.available true))
        refine ⟨new ++ [.available true], ?_, ?_⟩
        · rw [hnew, List.append_assoc]
          rfl
        · intro event hevent
          rcases List.mem_append.mp hevent with hevent | hevent
          · exact hcalm event hevent
          · rw [List.mem_singleton.mp hevent]
            exact ⟨trivial, nofun⟩

theorem held_append {new past : List ClipboardEvent} (h : ∀ event ∈ new, event.calm) :
    held (new ++ past) = held past := by
  induction new with
  | nil => rfl
  | cons event new ih =>
    rw [List.cons_append, held_calm (h event List.mem_cons_self)]
    exact ih fun e he => h e (List.mem_cons_of_mem _ he)

/-- An endpoint that has received nothing yet. -/
structure Empty (s : ClipboardTransfer) : Prop where
  held : held s.trace = none
  quiet : Each NoEcho s.trace

theorem Empty.guarded (h : Empty s) : Guarded P s := by
  refine ⟨?_, h.quiet⟩
  intro text htext
  rw [h.held] at htext
  cases htext

theorem Empty.enable (h : Empty s) (permission : String) (value : Bool) (now : UInt64) :
    Empty (s.apply P cb (.enable permission value now)) := by
  obtain ⟨new, hnew, hcalm⟩ : ∃ new, ((s.note (.called (.enable permission value now))).enable cb
      permission value now).2.trace = new ++ (s.note (.called (.enable permission value now))).trace ∧
      ∀ event ∈ new, event.calm ∧ ∀ id text, event ≠ .offered id text :=
    enable_records permission value now
  have htrace : ∃ ok, (s.apply P cb (.enable permission value now)).trace =
      .returned (.enable permission value now) ok :: (new ++ .called (.enable permission value now) ::
        s.trace) := ⟨_, congrArg (List.cons _) hnew⟩
  obtain ⟨ok, htrace⟩ := htrace
  refine ⟨?_, ?_⟩
  · rw [htrace]
    exact (held_append fun e he => (hcalm e he).1).trans h.held
  · rw [htrace]
    refine ⟨noEcho_of_calm, Each.append ⟨noEcho_of_calm, h.quiet⟩ ?_⟩
    exact fun event hevent past => noEcho_of_calm (hcalm event hevent).2

end Guard

/-- Both ends enable both directions. -/
def opening (now : UInt64) : List ClipboardMove :=
  [.left (.enable "clipboard.read" true now), .left (.enable "clipboard.write" true now),
    .right (.enable "clipboard.read" true now), .right (.enable "clipboard.write" true now)]

def LocalOp.isEnable : LocalOp → Bool
  | .enable .. => true
  | _ => false

/-- The move calls `enable`. -/
def switches : ClipboardMove → Bool
  | .left op | .right op => op.isEnable
  | _ => false

def ClipboardMessage.isAck : ClipboardMessage → Bool
  | .ack _ => true
  | _ => false

/-- No acknowledgement reaches an end while a received text is still in its clipboard. -/
def Uncrossed (L R : Party ClipboardTransfer LocalOp ClipboardMessage ClipboardMessage UInt64)
    (link : ClipboardLink) : ClipboardMove → Prop
  | .toLeft _ => (link.leftward R).head?.any (·.isAck) = true → held link.left.trace = none
  | .toRight _ => (link.rightward L).head?.any (·.isAck) = true → held link.right.trace = none
  | _ => True

instance (L R : Party ClipboardTransfer LocalOp ClipboardMessage ClipboardMessage UInt64)
    (link : ClipboardLink) : (move : ClipboardMove) → Decidable (Uncrossed L R link move)
  | .toLeft _ | .toRight _ => inferInstanceAs (Decidable (_ → _))
  | .left _ | .right _ => .isTrue trivial

section Runs

variable {P : Primitives} {cb cbL cbR : Callbacks} {link : ClipboardLink} {s : ClipboardTransfer}

theorem Guarded.act (h : Guarded P s) {op : LocalOp} (hop : op.isEnable = false) :
    Guarded P (s.apply P cb op.op) := by
  refine h.apply ?_ ?_
  · rintro permission now heq
    cases op with
    | enable => cases hop
    | _ => cases heq
  · rintro ⟨id, type, payload, now, heq, -⟩
    cases op <;> cases heq

theorem Guarded.hear (h : Guarded P s) {message : ClipboardMessage}
    (hack : message.isAck = true → held s.trace = none) (now : UInt64) :
    Guarded P (s.apply P cb (.receive message.type message.payload now)) := by
  refine h.apply nofun ?_
  rintro ⟨id, type, payload, now', heq, hmessage⟩
  cases heq
  refine hack ?_
  have htype := (decodeMessage_spec hmessage).1
  cases message with
  | ack => rfl
  | _ => exact absurd htype (by simp [ClipboardMessage.type, Protocol.clipboardAck,
      Protocol.clipboardOffer, Protocol.clipboardAccept, Protocol.clipboardChunk])

theorem guarded_step (hleft : Guarded P link.left) (hright : Guarded P link.right)
    {move : ClipboardMove} (hmove : switches move = false)
    (hcross : Uncrossed (party P cbL) (party P cbR) link move) :
    Guarded P (link.step (party P cbL) (party P cbR) move).left ∧
      Guarded P (link.step (party P cbL) (party P cbR) move).right := by
  cases move with
  | left op => exact ⟨hleft.act hmove, hright⟩
  | right op => exact ⟨hleft, hright.act hmove⟩
  | toLeft now =>
    cases hflight : link.leftward (party P cbR) with
    | nil =>
      rw [Link.toLeft_empty hflight]
      exact ⟨hleft, hright⟩
    | cons message rest =>
      rw [Link.toLeft_deliver hflight]
      refine ⟨hleft.hear ?_ now, hright⟩
      intro hack
      exact hcross (by rw [hflight]; exact hack)
  | toRight now =>
    cases hflight : link.rightward (party P cbL) with
    | nil =>
      rw [Link.toRight_empty hflight]
      exact ⟨hleft, hright⟩
    | cons message rest =>
      rw [Link.toRight_deliver hflight]
      refine ⟨hleft, hright.hear ?_ now⟩
      intro hack
      exact hcross (by rw [hflight]; exact hack)

theorem guarded_run (hleft : Guarded P link.left) (hright : Guarded P link.right)
    {moves : List ClipboardMove} (hmoves : ∀ move ∈ moves, switches move = false)
    (hcross : Runs.Along (Link.step (party P cbL) (party P cbR))
      (Uncrossed (party P cbL) (party P cbR)) link moves) :
    Guarded P (link.run (party P cbL) (party P cbR) moves).left ∧
      Guarded P (link.run (party P cbL) (party P cbR) moves).right := by
  induction moves generalizing link with
  | nil => exact ⟨hleft, hright⟩
  | cons move rest ih =>
    have hstep := guarded_step hleft hright (hmoves move List.mem_cons_self) hcross.1
    exact ih hstep.1 hstep.2 (fun m hm => hmoves m (List.mem_cons_of_mem _ hm)) hcross.2

theorem opening_empty (now : UInt64) :
    Empty (fresh.run (party P cbL) (party P cbR) (opening now)).left ∧
      Empty (fresh.run (party P cbL) (party P cbR) (opening now)).right := by
  have hfresh : Empty {} := ⟨rfl, trivial⟩
  have hboth : ∀ cb : Callbacks, Empty ((apply P cb {} (.enable "clipboard.read" true now)).apply P cb
      (.enable "clipboard.write" true now)) := by
    intro cb
    have hread : Empty (apply P cb {} (.enable "clipboard.read" true now)) := hfresh.enable _ _ _
    exact hread.enable _ _ _
  exact ⟨hboth cbL, hboth cbR⟩

end Runs

/-- Both ends send and receive, and no acknowledgement comes while a received text is still in the
clipboard: then no end offers the text that it received, as long as its clipboard holds it. -/
theorem received_text_not_offered {P : Primitives} {cbL cbR : Callbacks} (now : UInt64)
    {moves : List ClipboardMove} (hmoves : ∀ move ∈ moves, switches move = false)
    (hcross : Runs.Along (Link.step (party P cbL) (party P cbR))
      (Uncrossed (party P cbL) (party P cbR))
      (fresh.run (party P cbL) (party P cbR) (opening now)) moves) :
    Each NoEcho (fresh.run (party P cbL) (party P cbR) (opening now ++ moves)).left.trace ∧
      Each NoEcho (fresh.run (party P cbL) (party P cbR) (opening now ++ moves)).right.trace := by
  have hrun := guarded_run (opening_empty now).1.guarded (opening_empty now).2.guarded hmoves hcross
  rw [Link.run_append]
  exact ⟨hrun.1.quiet, hrun.2.quiet⟩

/-- A text goes over and stays in the clipboard of the other end, which looks at it twice. -/
def keptText : List ClipboardMove :=
  [.left (.copy [104, 105]), .left (.tick 1), .toRight 2, .toLeft 3, .left (.tick 4), .toRight 5,
    .toLeft 6, .right (.tick 600), .right (.tick 1200)]

theorem keptText_not_offered :
    held (runDesktops (opening 0 ++ keptText)).right.trace = some [104, 105] ∧
      Each NoEcho (runDesktops (opening 0 ++ keptText)).left.trace ∧
      Each NoEcho (runDesktops (opening 0 ++ keptText)).right.trace := by
  have hrun : held ((runDesktops (opening 0)).run (party exactPrimitives (desktop 1))
        (party exactPrimitives (desktop 2)) keptText).right.trace = some [104, 105] ∧
      Runs.Along (Link.step (party exactPrimitives (desktop 1)) (party exactPrimitives (desktop 2)))
        (Uncrossed (party exactPrimitives (desktop 1)) (party exactPrimitives (desktop 2)))
        (runDesktops (opening 0)) keptText := by
    unfold runDesktops exactPrimitives
    rw [Utf8.decode_eq_decodeAscii]
    decide +kernel
  refine ⟨?_, received_text_not_offered 0 (by decide) hrun.2⟩
  unfold runDesktops
  rw [Link.run_append]
  exact hrun.1

/-- Both users copy a text. The left end writes the text of the right one and then hears that its
own text has arrived. -/
def crossingTexts : List ClipboardMove :=
  [.left (.copy [120]), .right (.copy [116]), .left (.tick 1), .right (.tick 1), .toRight 2,
    .toLeft 2, .toRight 3, .toLeft 3, .left (.tick 4), .right (.tick 4), .toLeft 5, .toRight 5,
    .toLeft 6, .left (.tick 600)]

/-- The left end offers the text back to the end that it came from. -/
theorem crossingTexts_offered :
    (∀ move ∈ crossingTexts, switches move = false) ∧
      held (runDesktops (opening 0 ++ crossingTexts)).left.trace = some [116] ∧
      ¬ Each NoEcho (runDesktops (opening 0 ++ crossingTexts)).left.trace := by
  unfold runDesktops exactPrimitives
  rw [Utf8.decode_eq_decodeAscii]
  decide +kernel

end HomeTunnel.Remote.Clipboard
