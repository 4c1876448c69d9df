import HomeTunnel.Lib.Trace
import HomeTunnel.Clipboard.Transfer

/-! # What a call does to a clipboard endpoint

`Move` lists every change that the endpoint makes to itself, each with the condition
under which the code makes it. A call is a sequence of moves between the two events
that mark its beginning and its end.
-/

namespace HomeTunnel.Remote.Clipboard

open Auth (Primitives)
open Files (uuidText)
open ClipboardTransfer

/-- Events that say nothing about transfers. -/
def ClipboardEvent.quiet : ClipboardEvent → Prop
  | .available _ | .room _ | .failure _ | .generated none => True
  | _ => False

/-- The call hands over a frame with that message. -/
def Delivers (P : Primitives) (op : ClipboardOp) (message : ClipboardMessage) : Prop :=
  ∃ type payload now, op = .receive type payload now ∧ decodeMessage P type payload = some message

/-- The call hands over a frame of the direction that this end receives. -/
def DeliversIncoming (P : Primitives) (op : ClipboardOp) : Prop :=
  ∃ message, Delivers P op message ∧ toIncoming message.type = true

/-- The send callback can give that answer for the message. -/
def Answered (cb : Callbacks) (message : ClipboardMessage) (ok : Bool) : Prop :=
  ∃ trace, (cb.send trace message.type message.payload).ok = ok

/-- Why an endpoint closes. -/
def Closing (cb : Callbacks) (op : ClipboardOp) : Prop :=
  op = .close ∨ (∃ trace type payload, (cb.send trace type payload).closes = true) ∨
    ∃ trace permission, cb.failure trace permission = true

/-- A text that the endpoint would put on the wire. -/
structure Sendable (text : Bytes) : Prop where
  plain : plainText text = true
  size : text.length ≤ Protocol.clipboardBytes

inductive Move (P : Primitives) (cb : Callbacks) (op : ClipboardOp) (s : ClipboardTransfer) :
    ClipboardTransfer → Prop
  | mark (event : ClipboardEvent) (hquiet : event.quiet) : Move P cb op s (s.note event)
  | copy (text : Bytes) (hop : op = .copy text) : Move P cb op s (s.note (.copied text))
  | close (hwhy : Closing cb op) : Move P cb op s s.close
  | setRead (value : Bool) (now : UInt64)
      (hop : value = true → op = .enable "clipboard.read" true now) :
      Move P cb op s (s.setRead value now).forget
  | setWrite (value : Bool)
      (hop : value = true → ∃ now, op = .enable "clipboard.write" true now) :
      Move P cb op s (s.setWrite value).forget
  | look (status : ReadStatus) (sequence : UInt64) (text : Bytes) (now : UInt64) :
      Move P cb op s (s.looked status sequence text now)
  | offer (sequence : UInt64) (text uuid : Bytes) (now : UInt64) (ok : Bool)
      (hread : s.read = true) (hnone : s.outgoing = none)
      (htext : ∃ seen, cb.read s.trace seen = (.text, sequence, text)) (hgood : Sendable text)
      (hnew : digest P text ≠ s.lastDigest) (hlength : uuid.length = 16)
      (hok : Answered cb (.offer (uuidText uuid) text.length (digest P text)) ok) :
      Move P cb op s
        (((s.looked .text sequence text now).startSend (newTransfer P uuid text now)).note
          (.sent (.offer (uuidText uuid) text.length (digest P text)) ok))
  | chunk (item : Transfer) (ok : Bool) (hitem : s.outgoing = some item)
      (haccepted : item.accepted = true) (hmore : item.offset < item.size)
      (hok : Answered cb (.chunk item.uuid item.offset item.nextChunk) ok) :
      Move P cb op s ((s.advanced item).note
        (.sent (.chunk item.uuid item.offset item.nextChunk) ok))
  | takeAccept (item : Transfer) (hitem : s.outgoing = some item)
      (haccepted : item.accepted = false) (hop : Delivers P op (.accept item.id)) :
      Move P cb op s { s with outgoing := some { item with accepted := true } }
  | takeAck (item : Transfer) (hitem : s.outgoing = some item) (haccepted : item.accepted = true)
      (hsize : item.offset = item.size) (hop : Delivers P op (.ack item.id)) :
      Move P cb op s { s.remember item.id with lastDigest := item.digest, outgoing := none }
  | accept (id digest : String) (size : Nat) (now : UInt64) (ok : Bool)
      (hop : Delivers P op (.offer id size digest)) (hwrite : s.write = true)
      (hnone : s.incoming = none) (hok : Answered cb (.accept id) ok) :
      Move P cb op s ((s.startReceive (offeredTransfer id digest size now)).note
        (.sent (.accept id) ok))
  | take (item : Transfer) (bytes : Bytes)
      (hop : Delivers P op (.chunk item.uuid item.offset bytes)) (hitem : s.incoming = some item)
      (hsize : bytes.length ≤ item.size - item.offset) : Move P cb op s (s.takeBytes item bytes)
  | write (item : Transfer) (ok : Bool) (hop : DeliversIncoming P op)
      (hitem : s.incoming = some item) (hwrite : s.write = true)
      (hdigest : digest P item.content = item.digest) (hplain : plainText item.content = true)
      (hfull : item.offset = item.size) (hok : Answered cb (.ack item.id) ok) :
      Move P cb op s (((s.note (.wrote item.content true)).written item).note
        (.sent (.ack item.id) ok))
  | writeFailed (item : Transfer) (hop : DeliversIncoming P op)
      (hitem : s.incoming = some item) (hwrite : s.write = true)
      (hdigest : digest P item.content = item.digest) (hplain : plainText item.content = true)
      (hfull : item.offset = item.size) :
      Move P cb op s ((s.note (.wrote item.content false)).setWrite false).forget

abbrev Moves (P : Primitives) (cb : Callbacks) (op : ClipboardOp) :
    ClipboardTransfer → ClipboardTransfer → Prop :=
  Relation.ReflTransGen (Move P cb op)

variable {P : Primitives} {cb : Callbacks} {op : ClipboardOp} {s t u : ClipboardTransfer}

theorem Moves.keeps {p : ClipboardTransfer → Prop} (hmove : ∀ s t, p s → Move P cb op s t → p t)
    (h : Moves P cb op s t) (hs : p s) : p t := by
  induction h with
  | refl => exact hs
  | tail _ hstep ih => exact hmove _ _ ih hstep

theorem mark_moves (event : ClipboardEvent) (hquiet : event.quiet) :
    Moves P cb op s (s.note event) := .single (.mark event hquiet)

theorem closeIf_moves {closes : Bool} (h : closes = true → Closing cb op) :
    Moves P cb op s (s.closeIf closes) := by
  cases closes with
  | true => exact .single (.close (h rfl))
  | false => exact .refl

theorem sendMessage_cases {message : ClipboardMessage} {ok : Bool}
    (h : s.sendMessage cb message = (ok, t)) :
    t = s.note (.sent message ok) ∨ t = (s.note (.sent message ok)).close := by
  simp only [sendMessage, Prod.mk.injEq] at h
  obtain ⟨rfl, rfl⟩ := h
  unfold closeIf
  split
  · exact .inr rfl
  · exact .inl rfl

/-- After the message is sent the session may close the endpoint. -/
theorem sendMessage_moves {message : ClipboardMessage} {ok : Bool}
    (h : s.sendMessage cb message = (ok, t)) :
    Answered cb message ok ∧ Moves P cb op (s.note (.sent message ok)) t := by
  cases h
  refine ⟨⟨s.trace, rfl⟩, closeIf_moves fun hcloses => .inr (.inl ⟨_, _, _, hcloses⟩)⟩

theorem enablePermission_moves (permission : String) (value : Bool) (now : UInt64)
    (hop : value = true → op = .enable permission true now) :
    Moves P cb op s (s.enablePermission permission value now).2 := by
  unfold enablePermission
  split
  · next hperm =>
    subst hperm
    exact .single (.setRead value now hop)
  · split
    · next hperm =>
      subst hperm
      exact .single (.setWrite value fun hvalue => ⟨now, hop hvalue⟩)
    · exact .refl

theorem disable_moves (permission : String) (now : UInt64) :
    Moves P cb op s (s.enable cb permission false now).2 := by
  unfold enable
  split
  · exact .refl
  · rw [if_pos (by decide)]
    exact enablePermission_moves permission false now nofun

theorem fail_moves (permission : String) : Moves P cb op s (s.fail cb permission) := by
  refine (disable_moves permission 0).trans ((mark_moves (.failure permission) trivial).trans ?_)
  exact closeIf_moves fun hcloses => .inr (.inr ⟨_, _, hcloses⟩)

theorem expire_moves (now : UInt64) : Moves P cb op s (s.expire cb now) := by
  have hif : ∀ (c : Bool) (s : ClipboardTransfer) (permission : String),
      Moves P cb op s (if c then s.fail cb permission else s) := by
    intro c s permission
    cases c with
    | true => exact fail_moves permission
    | false => exact .refl
  exact (hif _ s _).trans (hif _ _ _)

theorem enable_moves (permission : String) (value : Bool) (now : UInt64) :
    Moves P cb (.enable permission value now) s (s.enable cb permission value now).2 := by
  cases value with
  | false => exact disable_moves permission now
  | true =>
    unfold enable askAvailable
    split
    · exact .refl
    · rw [if_neg (by decide)]
      cases hok : cb.available s.trace with
      | false => exact mark_moves _ trivial
      | true =>
        exact (mark_moves (.available true) trivial).trans
          (enablePermission_moves permission true now fun _ => rfl)

theorem finishReceive_moves (hop : DeliversIncoming P op) (hopen : s.closed = false)
    (hfull : ∀ item, s.incoming = some item → item.offset = item.size) :
    Moves P cb op s (s.finishReceive P cb).2 := by
  unfold finishReceive
  split
  · exact .refl
  · next item hitem =>
    split
    · exact .refl
    · next hgood =>
      push Not at hgood
      obtain ⟨hwrite, hdigest, hplain⟩ := hgood
      dsimp only
      cases hok : cb.write s.trace item.content with
      | true =>
        rw [if_pos rfl]
        rcases hsend : ((s.note (.wrote item.content true)).written item).sendMessage cb
          (.ack item.id) with ⟨ok, mid⟩
        obtain ⟨hanswer, hmoves⟩ : Answered cb (.ack item.id) ok ∧ Moves P cb op _ mid :=
          sendMessage_moves hsend
        exact .head (.write item ok hop hitem hwrite hdigest hplain (hfull item hitem) hanswer) hmoves
      | false =>
        rw [if_neg (by decide)]
        have hset : ((s.note (.wrote item.content false)).enable cb "clipboard.write" false 0).2 =
            ((s.note (.wrote item.content false)).setWrite false).forget := by
          unfold enable
          rw [if_neg (by simpa [note] using hopen)]
          rfl
        refine .head (.writeFailed item hop hitem hwrite hdigest hplain (hfull item hitem)) ?_
        unfold fail
        rw [hset]
        refine (mark_moves (.failure "clipboard.write") trivial).trans ?_
        exact closeIf_moves fun hcloses => .inr (.inr ⟨_, _, hcloses⟩)

theorem takeOffer_moves {id digest : String} {size : Nat} (now : UInt64)
    (hop : Delivers P op (.offer id size digest)) (hwrite : s.write = true) :
    Moves P cb op s (s.takeOffer P cb id size digest now).2 := by
  unfold takeOffer
  split
  · exact .refl
  · next hfree =>
    push Not at hfree
    have hnone : s.incoming = none := by simpa using hfree.1
    rcases hsend : (s.startReceive (offeredTransfer id digest size now)).sendMessage cb
      (.accept id) with ⟨ok, mid⟩
    obtain ⟨hanswer, hmoves⟩ := sendMessage_moves hsend
    have hstart : Moves P cb op s mid :=
      .head (.accept id digest size now ok hop hwrite hnone hanswer) hmoves
    cases ok with
    | false => exact hstart
    | true =>
      dsimp only
      split
      · exact hstart
      · split
        · next hopen hsize =>
          refine hstart.trans (finishReceive_moves ⟨_, hop, rfl⟩ (by simpa using hopen) ?_)
          intro item hitem
          rcases sendMessage_cases hsend with rfl | rfl
          · cases hitem
            exact hsize.symm
          · exact absurd rfl hopen
        · exact hstart

theorem takeChunk_moves {uuid bytes : Bytes} {offset : Nat}
    (hop : Delivers P op (.chunk uuid offset bytes)) (hopen : s.closed = false) :
    Moves P cb op s (s.takeChunk P cb uuid offset bytes).2 := by
  unfold takeChunk
  split
  · exact .refl
  · next item hitem =>
    split
    · exact .refl
    · next hfits =>
      push Not at hfits
      obtain ⟨huuid, hoffset, hsize⟩ := hfits
      subst huuid hoffset
      have htake : Moves P cb op s (s.takeBytes item bytes) :=
        .single (.take item bytes hop hitem hsize)
      split
      · next hfull =>
        refine htake.trans (finishReceive_moves ⟨_, hop, rfl⟩ hopen ?_)
        intro other hother
        cases hother
        exact hfull
      · exact htake

theorem takeAccept_moves {id : String} (hop : Delivers P op (.accept id)) :
    Moves P cb op s (s.takeAccept id).2 := by
  unfold takeAccept
  split
  · exact .refl
  · next item hitem =>
    split
    · exact .refl
    · next hright =>
      push Not at hright
      obtain ⟨rfl, haccepted⟩ := hright
      exact .single (.takeAccept item hitem (by simpa using haccepted) hop)

theorem takeAck_moves {id : String} (hop : Delivers P op (.ack id)) :
    Moves P cb op s (s.takeAck id).2 := by
  unfold takeAck
  split
  · exact .refl
  · next item hitem =>
    split
    · exact .refl
    · next hright =>
      push Not at hright
      obtain ⟨rfl, haccepted, hsize⟩ := hright
      exact .single (.takeAck item hitem haccepted hsize hop)

theorem receive_moves (type : UInt8) (payload : Bytes) (now : UInt64) :
    Moves P cb (.receive type payload now) s (s.receive P cb type payload now).2 := by
  unfold receive
  split
  · exact .refl
  · have hexpire : Moves P cb (.receive type payload now) s (s.expire cb now) := expire_moves now
    dsimp only
    generalize s.expire cb now = mid at hexpire ⊢
    split
    · exact hexpire
    · next hopen =>
      split
      · exact hexpire
      · next hallowed =>
        split
        · exact hexpire
        · next message hmessage =>
          refine hexpire.trans ?_
          have hop : Delivers P (.receive type payload now) message :=
            ⟨type, payload, now, rfl, hmessage⟩
          cases message with
          | offer id size digest =>
            refine takeOffer_moves now hop ?_
            have htype := (decodeMessage_spec hmessage).1
            subst htype
            simpa [allows, toIncoming, ClipboardMessage.type] using hallowed
          | accept id => exact takeAccept_moves hop
          | chunk uuid offset bytes => exact takeChunk_moves hop (by simpa using hopen)
          | ack id => exact takeAck_moves hop

theorem sendChunks_moves (count : Nat)
    (haccepted : ∀ item, s.outgoing = some item → item.accepted = true) :
    Moves P cb op s (s.sendChunks cb count).2 := by
  induction count generalizing s with
  | zero => exact .refl
  | succ count ih =>
    unfold sendChunks
    split
    · exact .refl
    · next item hitem =>
      split
      · exact .refl
      · next hmore =>
        cases hroom : cb.room s.trace with
        | false =>
          simp only [askRoom, hroom]
          exact mark_moves _ trivial
        | true =>
          simp only [askRoom, hroom]
          have hmark : Moves P cb op s (s.note (.room true)) := mark_moves _ trivial
          rcases hsend : ((s.note (.room true)).advanced item).sendMessage cb
            (.chunk item.uuid item.offset item.nextChunk) with ⟨ok, mid⟩
          obtain ⟨hanswer, hmoves⟩ : Answered cb _ ok ∧ Moves P cb op _ mid :=
        sendMessage_moves hsend
          have hchunk : Moves P cb op s mid := hmark.trans (.head
            (.chunk item ok hitem (haccepted item hitem) (Nat.not_le.mp hmore) hanswer) hmoves)
          cases ok with
          | false => exact hchunk.trans (fail_moves "clipboard.read")
          | true =>
            refine hchunk.trans (ih ?_)
            intro other hother
            rcases sendMessage_cases hsend with rfl | rfl
            · cases hother
              exact haccepted item hitem
            · cases hother

theorem offer_moves {sequence : UInt64} {text : Bytes} (now : UInt64) (hread : s.read = true)
    (hnone : s.outgoing = none) (htext : ∃ seen, cb.read s.trace seen = (.text, sequence, text))
    (hgood : Sendable text) (hnew : digest P text ≠ s.lastDigest) :
    Moves P cb op s ((s.looked .text sequence text now).offer P cb text now) := by
  have hlook : Moves P cb op s (s.looked .text sequence text now) :=
    .single (.look .text sequence text now)
  unfold offer
  cases hid : cb.newId (s.looked .text sequence text now).trace with
  | none => exact hlook.trans ((mark_moves (.generated none) trivial).trans (fail_moves _))
  | some random =>
    dsimp only
    rcases hsend : ((s.looked .text sequence text now).startSend
      (newTransfer P (Files.Transfer.stampId random.toList) text now)).sendMessage cb
        (.offer (uuidText (Files.Transfer.stampId random.toList)) text.length (digest P text))
      with ⟨ok, mid⟩
    obtain ⟨hanswer, hmoves⟩ : Answered cb _ ok ∧ Moves P cb op _ mid :=
        sendMessage_moves hsend
    have hlength : (Files.Transfer.stampId random.toList).length = 16 := by
      simp [Files.Transfer.stampId]
    have hoffer : Moves P cb op s mid :=
      .head (.offer sequence text _ now ok hread hnone htext hgood hnew hlength hanswer) hmoves
    have heq : ((s.looked .text sequence text now).startSend
        (newTransfer P (Files.Transfer.stampId random.toList) text now)).sendMessage cb
          (.offer (newTransfer P (Files.Transfer.stampId random.toList) text now).id
            (newTransfer P (Files.Transfer.stampId random.toList) text now).size
            (newTransfer P (Files.Transfer.stampId random.toList) text now).digest) = (ok, mid) :=
      hsend
    rw [heq]
    cases ok with
    | true => exact hoffer
    | false => exact hoffer.trans (fail_moves "clipboard.read")

theorem look_moves {found : ReadStatus × UInt64 × Bytes} (now : UInt64) (hread : s.read = true)
    (hnone : s.outgoing = none) (hfound : ∃ seen, cb.read s.trace seen = found) :
    Moves P cb op s (s.look P cb now found) := by
  obtain ⟨status, sequence, text⟩ := found
  unfold look
  dsimp only
  split
  · exact .single (.look status sequence text now)
  · next hgood =>
    push Not at hgood
    obtain ⟨rfl, hsize, hplain, hnew⟩ := hgood
    exact offer_moves now hread hnone hfound ⟨hplain, hsize⟩ hnew

theorem poll_moves (now : UInt64) : Moves P cb op s (s.poll P cb now) := by
  unfold poll
  split
  · exact .refl
  · next hdue =>
    push Not at hdue
    obtain ⟨hread, hnone, -⟩ := hdue
    obtain ⟨ok, hroom⟩ : ∃ ok, s.askRoom cb = (ok, s.note (.room ok)) := ⟨_, rfl⟩
    rw [hroom]
    cases ok with
    | false => exact mark_moves _ trivial
    | true =>
      refine (mark_moves (.room true) trivial).trans ?_
      exact look_moves now hread (by simpa [note] using hnone) ⟨_, rfl⟩

theorem tick_moves (now : UInt64) : Moves P cb op s (s.tick P cb now) := by
  unfold tick
  split
  · exact .refl
  · have hexpire : Moves P cb op s (s.expire cb now) := expire_moves now
    dsimp only
    generalize s.expire cb now = mid at hexpire ⊢
    split
    · exact hexpire
    · refine hexpire.trans ?_
      by_cases haccepted : mid.outgoing.any (·.accepted) = true
      · rw [if_pos haccepted]
        have hchunks : Moves P cb op mid (mid.sendChunks cb sendBurst).2 := by
          apply sendChunks_moves
          intro item hitem
          simpa [hitem] using haccepted
        generalize mid.sendChunks cb sendBurst = outcome at hchunks ⊢
        obtain ⟨ok, last⟩ := outcome
        cases ok with
        | false => exact hchunks
        | true => exact hchunks.trans (poll_moves now)
      · rw [if_neg haccepted]
        exact poll_moves now

theorem perform_moves (op : ClipboardOp) : Moves P cb op s (s.perform P cb op).2 := by
  cases op with
  | enable permission value now => exact enable_moves permission value now
  | receive type payload now => exact receive_moves type payload now
  | tick now => exact tick_moves now
  | close => exact .single (.close (.inl rfl))
  | copy text => exact .single (.copy text rfl)

/-- A call is a sequence of moves, with a mark before and after. -/
theorem apply_keeps {p : ClipboardTransfer → Prop} {op : ClipboardOp}
    (hmove : ∀ s t, p s → Move P cb op s t → p t)
    (hreturned : ∀ s ok, p s → p (s.note (.returned op ok))) (hcalled : p (s.note (.called op))) :
    p (s.apply P cb op) :=
  hreturned _ _ ((perform_moves op).keeps hmove hcalled)

end HomeTunnel.Remote.Clipboard
