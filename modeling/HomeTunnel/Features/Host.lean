import HomeTunnel.Features.Controller
import HomeTunnel.Native.Authorization

/-! # Features on the side of the host

The host answers each `FEATURE_REQUEST` for an approved permission with a
`FEATURE_STATE`. It also reports a feature that fails later. What the capture, the audio
source, the clipboard and the file engine answer comes with the frame.
-/

namespace HomeTunnel.Remote.Features

structure Host where
  permissions : List String
  audio : Bool
  clipboard : Bool
  files : Bool
  closeReason : Option String := none
  /-- The clipboard directions that are on. -/
  reading : Bool := false
  writing : Bool := false
  received : Nat := 0
  sent : Nat := 0
  outbox : List (Frame HostBody) := []
deriving DecidableEq, Repr

structure HostAnswers where
  leaseOk : Bool := true
  /-- A first frame was captured. -/
  captured : Bool := true
  fileCurrent : Bool := true
  audioEnable : Bool := true
  clipboardEnable : Bool := true
  filesEnable : Bool := true
deriving DecidableEq, Repr

namespace Host

def close (h : Host) (reason : String) : Host :=
  if h.closeReason.isSome then h else { h with closeReason := some reason }

def send (h : Host) (body : HostBody) : Host :=
  if h.closeReason.isSome then h
  else if h.sent + 1 ≥ Protocol.sequenceReconnectAt.toNat then h.close "RD_MESSAGE_TOO_LARGE"
  else { h with sent := h.sent + 1, outbox := h.outbox ++ [⟨h.sent + 1, body⟩] }

/-- Whether the request was carried out. Before the first captured frame both file directions are
already off. -/
def changed (h : Host) (permission : String) (enabled : Bool) (a : HostAnswers) : Bool :=
  let changed := false
  let changed :=
    if h.audio ∧ permission = "audio.system" then (!enabled || a.fileCurrent) && a.audioEnable
    else changed
  let changed :=
    if h.clipboard ∧ (permission = "clipboard.read" ∨ permission = "clipboard.write") then
      (!enabled || a.captured) && a.clipboardEnable
    else changed
  if h.files ∧ (permission = "files.send" ∨ permission = "files.receive") then
    if ¬ a.captured then !enabled else a.filesEnable
  else changed

/-- The directions of the clipboard that are on after the request. -/
def setClipboard (h : Host) (permission : String) (enabled : Bool) (a : HostAnswers) : Host :=
  if ¬ h.clipboard ∨ ¬ h.changed permission enabled a then h
  else if permission = "clipboard.read" then { h with reading := enabled }
  else if permission = "clipboard.write" then { h with writing := enabled }
  else h

def featureRequest (h : Host) (permission : String) (enabled : Bool) (a : HostAnswers) : Host :=
  if permission ∉ h.permissions then h.close "RD_SCOPE_DENIED"
  else
    (h.setClipboard permission enabled a).send (.featureState
      (stateBody permission (h.changed permission enabled a && enabled)
        (if h.changed permission enabled a then none else some "RD_FEATURE_UNAVAILABLE")))

def receiveBody (h : Host) (body : ControllerBody) (a : HostAnswers) : Host :=
  if ¬ a.leaseOk then h.close "RD_LEASE_EXPIRED"
  else
    match body with
    | .releaseAll => h
    | .featureRequest body =>
      match readRequest body with
      | none => h.close "RD_PROTOCOL_MISMATCH"
      | some (permission, enabled) => h.featureRequest permission enabled a

def receive (h : Host) (frame : Frame ControllerBody) (a : HostAnswers) : Host :=
  if h.closeReason.isSome then h
  else if frame.sequence ≤ h.received then h
  else if frame.sequence ≠ h.received + 1 then h.close "RD_PROTOCOL_MISMATCH"
  else { h with received := frame.sequence }.receiveBody frame.body a

/-- The clipboard fails in a direction that is on. -/
def clipboardFailed (h : Host) (permission : String) : Host :=
  if permission = "clipboard.read" ∧ h.reading then
    { h with reading := false }.send
      (.featureState (stateBody permission false (some "RD_CLIPBOARD_UNAVAILABLE")))
  else if permission = "clipboard.write" ∧ h.writing then
    { h with writing := false }.send
      (.featureState (stateBody permission false (some "RD_CLIPBOARD_UNAVAILABLE")))
  else h

def audioFailed (h : Host) : Host :=
  if h.audio then
    h.send (.featureState (stateBody "audio.system" false (some "RD_FEATURE_UNAVAILABLE")))
  else h

end Host

/-- The frame says so of the feature. -/
def HostBody.tells (feature : Feature) (enabled : Bool) : HostBody → Bool
  | .featureState body => readState body == some (feature.name, enabled)
  | .controlReleased => false

def ControllerBody.asks (feature : Feature) (enabled : Bool) : ControllerBody → Bool
  | .featureRequest body => readRequest body == some (feature.name, enabled)
  | .releaseAll => false

/-- Frames that an honest host sends. -/
def HostBody.Fair (permissions : List String) (body : HostBody) : Prop :=
  body = .controlReleased ∨
    ∃ feature : Feature, ∃ enabled, feature.name ∈ permissions ∧ body.tells feature enabled = true

/-- A feature that is on was approved. -/
structure Host.Approved (h : Host) : Prop where
  audio : h.audio = true → "audio.system" ∈ h.permissions
  reading : h.reading = true → "clipboard.read" ∈ h.permissions
  writing : h.writing = true → "clipboard.write" ∈ h.permissions

/-- What a step of the host does: it sends at most one frame, the next one, and `enabling` says
which features that frame may report as enabled. -/
structure Host.Step (enabling : Feature → Prop) (h h' : Host) : Prop where
  permissions : h'.permissions = h.permissions
  approved : h'.Approved
  sends : (h'.outbox = h.outbox ∧ h'.sent = h.sent) ∨
    ∃ body, h'.outbox = h.outbox ++ [⟨h.sent + 1, body⟩] ∧ h'.sent = h.sent + 1 ∧
      body.Fair h.permissions ∧ ∀ feature, body.tells feature true = true → enabling feature

namespace Host

variable {h h' : Host} {enabling : Feature → Prop} {permission : String} {enabled : Bool}
  {a : HostAnswers}

theorem Step.refl (happroved : h.Approved) : Step enabling h h := ⟨rfl, happroved, .inl ⟨rfl, rfl⟩⟩

theorem Step.mono {more : Feature → Prop} (hstep : Step enabling h h')
    (hmore : ∀ feature, enabling feature → more feature) : Step more h h' := by
  refine ⟨hstep.permissions, hstep.approved, hstep.sends.imp id ?_⟩
  rintro ⟨body, hout, hsent, hfair, htells⟩
  exact ⟨body, hout, hsent, hfair, fun feature h => hmore feature (htells feature h)⟩

theorem close_step (happroved : h.Approved) (reason : String) : Step enabling h (h.close reason) := by
  unfold close
  split
  · exact .refl happroved
  · exact ⟨rfl, ⟨happroved.1, happroved.2, happroved.3⟩, .inl ⟨rfl, rfl⟩⟩

theorem send_step (happroved : h.Approved) {body : HostBody} (hfair : body.Fair h.permissions)
    (henabling : ∀ feature, body.tells feature true = true → enabling feature) :
    Step enabling h (h.send body) := by
  unfold send
  split
  · exact .refl happroved
  · split
    · exact close_step happroved _
    · exact ⟨rfl, ⟨happroved.1, happroved.2, happroved.3⟩, .inr ⟨body, rfl, rfl, hfair, henabling⟩⟩

/-- A change of the clipboard directions comes before the step. -/
theorem Step.of_clipboard {reading writing : Bool}
    (hstep : Step enabling { h with reading := reading, writing := writing } h') :
    Step enabling h h' := ⟨hstep.permissions, hstep.approved, hstep.sends⟩

theorem close_outbox (h : Host) (reason : String) : (h.close reason).outbox = h.outbox := by
  unfold close
  split <;> rfl

theorem send_grows (h : Host) (body : HostBody) : h.outbox <+: (h.send body).outbox := by
  unfold send
  split
  · exact List.prefix_refl _
  · split
    · rw [close_outbox]
    · exact List.prefix_append _ _

theorem tells_stateBody (feature : Feature) {code : Option String}
    (hcode : enabled = true → code = none) :
    (HostBody.featureState (stateBody feature.name enabled code)).tells feature enabled = true := by
  simp [HostBody.tells, readState_stateBody feature.name enabled code hcode]

theorem enabled_of_tells {body : Json} {feature : Feature} {permission : String}
    (hread : readState body = some (permission, enabled))
    (h : (HostBody.featureState body).tells feature true = true) :
    enabled = true ∧ permission = feature.name := by
  simp only [HostBody.tells, hread, beq_iff_eq, Option.some.injEq, Prod.mk.injEq] at h
  exact ⟨h.2, h.1⟩

theorem report_step (happroved : h.Approved) (feature : Feature) (hname : feature.name ∈ h.permissions)
    (code : String) :
    Step enabling h (h.send (.featureState (stateBody feature.name false (some code)))) := by
  refine send_step happroved (.inr ⟨feature, false, hname, tells_stateBody feature nofun⟩) ?_
  intro other hother
  have hread := readState_stateBody feature.name false (some code) nofun
  exact absurd (enabled_of_tells hread hother).1 nofun

theorem setClipboard_eq (h : Host) (permission : String) (enabled : Bool) (a : HostAnswers) :
    ∃ reading writing, h.setClipboard permission enabled a =
        { h with reading := reading, writing := writing } ∧
      (reading = true → h.reading = true ∨ permission = "clipboard.read") ∧
      (writing = true → h.writing = true ∨ permission = "clipboard.write") := by
  unfold setClipboard
  split
  · exact ⟨h.reading, h.writing, rfl, .inl, .inl⟩
  · split
    · next hread => exact ⟨enabled, h.writing, rfl, fun _ => .inr hread, .inl⟩
    · split
      · next hwrite => exact ⟨h.reading, enabled, rfl, .inl, fun _ => .inr hwrite⟩
      · exact ⟨h.reading, h.writing, rfl, .inl, .inl⟩

theorem featureRequest_step (happroved : h.Approved) (feature : Feature) :
    Step (fun other => other = feature ∧ enabled = true) h
      (h.featureRequest feature.name enabled a) := by
  unfold featureRequest
  split
  · exact close_step happroved _
  · next hname =>
    rw [not_not] at hname
    obtain ⟨reading, writing, hset, hreading, hwriting⟩ := setClipboard_eq h feature.name enabled a
    rw [hset]
    generalize h.changed feature.name enabled a = changed
    have hcode : (changed && enabled) = true →
        (if changed then none else some "RD_FEATURE_UNAVAILABLE") = none := by
      cases changed <;> simp
    refine .of_clipboard (send_step ?_ (.inr ⟨feature, _, hname, tells_stateBody feature hcode⟩) ?_)
    · refine ⟨happroved.audio, fun hon => ?_, fun hon => ?_⟩
      · exact (hreading hon).elim happroved.reading fun heq => heq ▸ hname
      · exact (hwriting hon).elim happroved.writing fun heq => heq ▸ hname
    · intro other hother
      have hread := readState_stateBody feature.name _ _ hcode
      obtain ⟨hon, heq⟩ := enabled_of_tells hread hother
      exact ⟨(Feature.name_injective heq).symm, (Bool.and_eq_true_iff.mp hon).2⟩

theorem receive_step (happroved : h.Approved) (frame : Frame ControllerBody)
    (hproper : frame.body = .releaseAll ∨
      ∃ feature : Feature, ∃ enabled, frame.body.asks feature enabled = true) :
    Step (fun feature => frame.body.asks feature true = true) h (h.receive frame a) := by
  have hheard : { h with received := frame.sequence }.Approved := ⟨happroved.1, happroved.2, happroved.3⟩
  have hbody : Step (fun feature => frame.body.asks feature true = true)
      { h with received := frame.sequence }
      (receiveBody { h with received := frame.sequence } frame.body a) := by
    unfold receiveBody
    split
    · exact close_step hheard _
    · rcases hproper with hrelease | ⟨feature, enabled, hasks⟩
      · rw [hrelease]
        exact .refl hheard
      · cases hframe : frame.body with
        | releaseAll => exact .refl hheard
        | featureRequest body =>
          rw [hframe] at hasks
          have hread : readRequest body = some (feature.name, enabled) := by
            simpa [ControllerBody.asks] using hasks
          simp only [hread]
          have hstep : Step _ _ (featureRequest _ feature.name enabled a) :=
            featureRequest_step hheard feature
          refine hstep.mono ?_
          rintro other ⟨rfl, rfl⟩
          exact hasks
  unfold receive
  split
  · exact .refl happroved
  · split
    · exact .refl happroved
    · split
      · exact close_step happroved _
      · exact ⟨hbody.permissions, hbody.approved, hbody.sends⟩

theorem featureRequest_grows (h : Host) (permission : String) (enabled : Bool) (a : HostAnswers) :
    h.outbox <+: (h.featureRequest permission enabled a).outbox := by
  unfold featureRequest
  split
  · rw [close_outbox]
  · obtain ⟨reading, writing, hset, -⟩ := setClipboard_eq h permission enabled a
    rw [hset]
    exact send_grows { h with reading := reading, writing := writing } _

theorem receiveBody_grows (h : Host) (body : ControllerBody) (a : HostAnswers) :
    h.outbox <+: (h.receiveBody body a).outbox := by
  unfold receiveBody
  split
  · rw [close_outbox]
  · cases body with
    | releaseAll => exact List.prefix_refl _
    | featureRequest body =>
      dsimp only
      split
      · rw [close_outbox]
      · exact featureRequest_grows _ _ _ _

theorem receive_grows (h : Host) (frame : Frame ControllerBody) (a : HostAnswers) :
    h.outbox <+: (h.receive frame a).outbox := by
  unfold receive
  split
  · exact List.prefix_refl _
  · split
    · exact List.prefix_refl _
    · split
      · rw [close_outbox]
      · exact receiveBody_grows { h with received := frame.sequence } frame.body a

inductive Op
  | clipboardFailed (permission : String)
  | audioFailed
  | releaseInput
  | close (reason : String)
deriving DecidableEq, Repr

def apply (h : Host) : Op → Host
  | .clipboardFailed permission => h.clipboardFailed permission
  | .audioFailed => h.audioFailed
  | .releaseInput => h.send .controlReleased
  | .close reason => h.close reason

theorem clipboardFailed_step (happroved : h.Approved) (permission : String) :
    Step enabling h (h.clipboardFailed permission) := by
  unfold clipboardFailed
  split
  · next hread =>
    rw [hread.1]
    have hoff : Approved { h with reading := false } := ⟨happroved.audio, nofun, happroved.writing⟩
    exact .of_clipboard (report_step hoff .clipboardRead (happroved.reading hread.2) _)
  · split
    · next hwrite =>
      rw [hwrite.1]
      have hoff : Approved { h with writing := false } := ⟨happroved.audio, happroved.reading, nofun⟩
      exact .of_clipboard (report_step hoff .clipboardWrite (happroved.writing hwrite.2) _)
    · exact .refl happroved

theorem apply_grows (h : Host) (op : Op) : h.outbox <+: (h.apply op).outbox := by
  cases op with
  | clipboardFailed permission =>
    simp only [apply, clipboardFailed]
    split
    · exact send_grows { h with reading := false } _
    · split
      · exact send_grows { h with writing := false } _
      · exact List.prefix_refl _
  | audioFailed =>
    simp only [apply, audioFailed]
    split
    · exact send_grows h _
    · exact List.prefix_refl _
  | releaseInput => exact send_grows h _
  | close reason =>
    simp only [apply]
    rw [close_outbox]

theorem apply_step (happroved : h.Approved) (op : Op) : Step enabling h (h.apply op) := by
  cases op with
  | clipboardFailed permission => exact clipboardFailed_step happroved permission
  | audioFailed =>
    simp only [apply, audioFailed]
    split
    · next haudio => exact report_step happroved .audioSystem (happroved.audio haudio) _
    · exact .refl happroved
  | releaseInput => exact send_step happroved (.inl rfl) nofun
  | close reason => exact close_step happroved reason

end Host

end HomeTunnel.Remote.Features
