import HomeTunnel.Features.Turns

/-! # What a report of the host does to the controller

A report on a feature of the session does not close the session as long as a feature
that is reported as enabled is still wanted.
-/

namespace HomeTunnel.Remote.Features.Controller

/-- The handshake is over and has settled what the session may do. -/
structure Profile.Settled (p : Profile) : Prop where
  authenticated : p.authenticated = true
  ready : p.ready = true
  localPath : p.localPath = true
  remotePath : p.remotePath = true
  files : p.files = true
  wantsAudio : p.wantsAudio = true ↔ p.ceiling &&& Protocol.permissionAudioSystem ≠ 0
  audioDevice : p.audioDevice = p.wantsAudio
  audioTrack : p.audioTrack = p.wantsAudio

/-- The frame was taken, and the session is open. `audio` says that it reported enabled audio, which
is taken back if the device cannot play it. -/
structure Heard (audio : Bool) (c c' : Controller) : Prop where
  opened : c'.closeReason = none
  profile : c'.profile = c.profile
  received : c'.received = c.received + 1
  wanted : ∀ feature, (feature = .audioSystem → audio = false) → c.Wanted feature → c'.Wanted feature
  enabled : c'.audioEnabled = true → c.audioEnabled = true ∨ audio = true
  sends : ∃ new, c'.outbox = c.outbox ++ new ∧ ∀ frame ∈ new, Quiet frame.body

section Replies

variable {c c' : Controller} {a : Answers} {body : Json} {enabled : Bool}

theorem filesState_grows (c : Controller) (direction : Direction) (enabled : Bool) (body : Json)
    (a : Answers) : c.outbox <+: (c.filesState direction enabled body a).outbox := by
  unfold filesState
  split
  · exact close_grows _ _ _
  · split <;> exact List.prefix_refl _

theorem audioState_grows (c : Controller) (enabled : Bool) (body : Json) (a : Answers) :
    c.outbox <+: (c.audioState enabled body a).outbox := by
  unfold audioState
  split
  · exact close_grows _ _ _
  · dsimp only
    split
    · exact (systemAudio_false_step { c with audioEnabled := enabled && a.deviceEnable } a).grows
    · exact List.prefix_refl _

theorem clipboardState_grows (c : Controller) (permission : String) (enabled : Bool) (body : Json)
    (a : Answers) : c.outbox <+: (c.clipboardState permission enabled body a).outbox := by
  unfold clipboardState
  split
  · exact close_grows _ _ _
  · split
    · exact close_grows _ _ _
    · split <;> exact List.prefix_refl _

theorem featureState_grows (c : Controller) (body : Json) (a : Answers) :
    c.outbox <+: (c.featureState body a).outbox := by
  unfold featureState
  split
  · exact close_grows _ _ _
  · split
    · exact close_grows _ _ _
    · split
      · exact filesState_grows _ _ _ _ _
      · split
        · exact filesState_grows _ _ _ _ _
        · split
          · exact audioState_grows _ _ _ _
          · split
            · exact close_grows _ _ _
            · exact clipboardState_grows _ _ _ _ _

theorem receiveBody_grows (c : Controller) (body : HostBody) (a : Answers) :
    c.outbox <+: (c.receiveBody body a).outbox := by
  unfold receiveBody
  split
  · exact close_grows _ _ _
  · cases body with
    | controlReleased => exact List.prefix_refl _
    | featureState body =>
      dsimp only
      split
      · exact close_grows _ _ _
      · exact featureState_grows _ _ _

theorem receive_grows (c : Controller) (frame : Frame HostBody) (a : Answers) :
    c.outbox <+: (c.receive frame a).outbox := by
  have hlive : Step (fun _ => True) c (c.checkLive a) := checkLive_step c a
  refine hlive.grows.trans ?_
  simp only [receive]
  split
  · exact List.prefix_refl _
  · split
    · exact List.prefix_refl _
    · split
      · exact close_grows _ _ _
      · exact receiveBody_grows { c.checkLive a with received := frame.sequence } frame.body a

theorem send_open (hopen : c.closeReason = none)
    (hroom : c.sent + 1 < Protocol.sequenceReconnectAt.toNat) (body : ControllerBody) (a : Answers) :
    (c.send body a).closeReason = none := by
  rw [send, push, if_neg (by simp [hopen]), if_neg (by omega), Option.getD_some]
  exact hopen

theorem checkLive_open (hopen : c.closeReason = none) (hlive : a.now < c.deadline) :
    c.checkLive a = c := by
  rw [checkLive, if_neg (by simp [hopen]), if_neg (UInt64.not_le.mpr hlive)]

theorem systemAudio_false_open (hopen : c.closeReason = none) (hlive : a.now < c.deadline)
    (hroom : c.sent + 1 < Protocol.sequenceReconnectAt.toNat) :
    (c.systemAudio false a).2.closeReason = none := by
  have hmuted : c.muted.checkLive a = c.muted := checkLive_open hopen hlive
  simp only [systemAudio, Bool.false_eq_true, if_false, false_and, hmuted]
  unfold askAudio
  split
  · exact hopen
  · simp only [Bool.false_eq_true, false_and, if_false]
    exact send_open (c := { c.muted with audioRequested := false }) hopen hroom _ a

/-- The state in which a report is judged. -/
def heard (c : Controller) : Controller := { c with received := c.received + 1 }

theorem Heard.of_quiet (hopen : c'.closeReason = none) (hprofile : c'.profile = c.profile)
    (hreceived : c'.received = c.received + 1)
    (hwanted : ∀ feature, c.Wanted feature → c'.Wanted feature)
    (henabled : c'.audioEnabled = true → c.audioEnabled = true) (hout : c'.outbox = c.outbox) :
    Heard false c c' :=
  ⟨hopen, hprofile, hreceived, fun feature _ h => hwanted feature h, fun h => .inl (henabled h), [],
    by rw [hout, List.append_nil], nofun⟩

theorem filesState_heard (direction : Direction) (hopen : c.closeReason = none)
    (hlive : a.now < c.deadline) (hsettled : c.profile.Settled)
    (hbit : c.ceiling &&& direction.feature.bit ≠ 0)
    (hwanted : enabled = true → c.Wanted direction.feature) (body : Json) :
    Heard false c (c.heard.filesState direction enabled body a) := by
  have hfair : ¬ (c.heard.ceiling &&& direction.feature.bit = 0 ∨ ¬ c.heard.files ∨
      (enabled ∧ (¬ c.heard.filesRequested direction ∨ ¬ c.heard.filesCurrent a))) := by
    rintro (h | h | ⟨hon, h⟩)
    · exact hbit h
    · exact h hsettled.files
    · obtain ⟨hrequested, hpaused, hpresented⟩ : c.filesRequested direction = true ∧
          c.paused = false ∧ c.everPresented = true := by
        cases direction <;> exact hwanted hon
      have hcurrent : c.heard.filesCurrent a = true := by
        have hready : c.ready = true := hsettled.ready
        have hlocal : c.localPath = true := hsettled.localPath
        have hremote : c.remotePath = true := hsettled.remotePath
        have hauth : c.authenticated = true := hsettled.authenticated
        simp [filesCurrent, heard, hopen, hpaused, hready, hlocal, hremote, hpresented, hauth, hlive]
      rcases h with h | h
      · refine h ?_
        cases direction <;> exact hrequested
      · exact h hcurrent
  unfold filesState
  rw [if_neg hfair]
  split <;>
  · refine .of_quiet hopen rfl rfl ?_ id rfl
    intro feature h
    cases feature <;> exact h

theorem audioState_heard (hopen : c.closeReason = none) (hlive : a.now < c.deadline)
    (hroom : c.sent + 1 < Protocol.sequenceReconnectAt.toNat) (hsettled : c.profile.Settled)
    (hbit : c.ceiling &&& Feature.audioSystem.bit ≠ 0)
    (hwanted : enabled = true → c.Wanted .audioSystem) (body : Json) :
    Heard enabled c (c.heard.audioState enabled body a) := by
  have hwants : c.wantsAudio = true := hsettled.wantsAudio.mpr hbit
  have hdevice : c.audioDevice = true := hsettled.audioDevice.trans hwants
  have htrack : c.audioTrack = true := hsettled.audioTrack.trans hwants
  have hfair : ¬ (¬ c.heard.wantsAudio ∨ ¬ c.heard.audioDevice ∨ ¬ c.heard.audioTrack ∨
      (enabled ∧ (¬ c.heard.audioRequested ∨ c.heard.paused ∨ ¬ c.heard.surface))) := by
    rintro (h | h | h | ⟨hon, h⟩)
    · exact h hwants
    · exact h hdevice
    · exact h htrack
    · obtain ⟨hrequested, hpaused, hsurface⟩ := hwanted hon
      rcases h with h | h | h
      · exact h hrequested
      · exact absurd (hpaused.symm.trans h) nofun
      · exact h hsurface
  unfold audioState
  rw [if_neg hfair]
  dsimp only
  split
  · next hfailed =>
    have hstep := systemAudio_false_step { c.heard with audioEnabled := enabled && a.deviceEnable } a
    have hstill := systemAudio_false_open
      (c := { c.heard with audioEnabled := enabled && a.deviceEnable }) hopen hlive hroom
    have hcalm := hstep.calm hstill
    refine ⟨hstill, hcalm.profile, hcalm.received, ?_, fun _ => .inr hfailed.1, hcalm.sends⟩
    intro feature hother hw
    have hkept : onlyAudio feature → False := fun h => by
      have hoff := hother h
      rw [hfailed.1] at hoff
      cases hoff
    have hsame := hcalm.wanted feature hkept
    cases feature <;> exact hsame hw
  · refine ⟨hopen, rfl, rfl, ?_, ?_, [], (List.append_nil _).symm, nofun⟩
    · intro feature _ hw
      cases feature <;> exact hw
    · intro hon
      exact .inr (Bool.and_eq_true_iff.mp hon).1

theorem clipboardState_heard {feature : Feature} (hfeature : feature = .clipboardRead ∨
      feature = .clipboardWrite) (hopen : c.closeReason = none)
    (hbit : c.ceiling &&& feature.bit ≠ 0) (hwanted : enabled = true → c.Wanted feature) (body : Json)
    (a : Answers) : Heard false c (c.heard.clipboardState feature.name enabled body a) := by
  have hceiling : ¬ c.heard.ceiling &&& clipboardBit feature.name = 0 := by
    rcases hfeature with rfl | rfl <;> exact hbit
  have hrequested : ¬ (enabled ∧ ¬ c.heard.clipboardRequested feature.name) := by
    rintro ⟨hon, h⟩
    have hw := hwanted hon
    rcases hfeature with rfl | rfl <;> exact h hw
  unfold clipboardState
  rw [if_neg hceiling, if_neg hrequested]
  split <;>
  · refine .of_quiet hopen rfl rfl ?_ id rfl
    intro other h
    cases other <;> exact h

/-- A fair report is taken, and the session stays open. -/
theorem featureState_heard (feature : Feature) (hopen : c.closeReason = none)
    (hlive : a.now < c.deadline) (hroom : c.sent + 1 < Protocol.sequenceReconnectAt.toNat)
    (hsettled : c.profile.Settled) (hbit : c.ceiling &&& feature.bit ≠ 0)
    (hread : readState body = some (feature.name, enabled))
    (hwanted : enabled = true → c.Wanted feature) :
    Heard (enabled && decide (feature = .audioSystem)) c (c.heard.featureState body a) := by
  have hready : ¬ ¬ c.heard.ready = true := not_not.mpr hsettled.ready
  unfold featureState
  rw [if_neg hready, hread]
  cases feature with
  | audioSystem =>
    have haudio := audioState_heard hopen hlive hroom hsettled hbit hwanted body
    simpa [Feature.name] using haudio
  | clipboardRead =>
    have hclip := clipboardState_heard (.inl rfl) hopen hbit hwanted body a
    simpa [Feature.name] using hclip
  | clipboardWrite =>
    have hclip := clipboardState_heard (.inr rfl) hopen hbit hwanted body a
    simpa [Feature.name] using hclip
  | filesSend =>
    have hfiles := filesState_heard .send hopen hlive hsettled hbit hwanted body
    simpa [Feature.name] using hfiles
  | filesReceive =>
    have hfiles := filesState_heard .receive hopen hlive hsettled hbit hwanted body
    simpa [Feature.name] using hfiles

/-- The next frame of an honest host. -/
theorem receive_heard {frame : Frame HostBody} (hopen : c.closeReason = none)
    (hlive : a.now < c.deadline) (hroom : c.sent + 1 < Protocol.sequenceReconnectAt.toNat)
    (hsettled : c.profile.Settled) (hnext : frame.sequence = c.received + 1)
    (hfair : frame.body = .controlReleased ∨ ∃ feature enabled, c.ceiling &&& feature.bit ≠ 0 ∧
      frame.body.tells feature enabled = true ∧ (enabled = true → c.Wanted feature)) :
    Heard (frame.body.tells .audioSystem true) c (c.receive frame a) := by
  have hauth : ¬ ¬ c.heard.authenticated = true := not_not.mpr hsettled.authenticated
  have hremote : ¬ ¬ c.heard.remotePath = true := not_not.mpr hsettled.remotePath
  have hsome : ¬ c.closeReason.isSome = true := by simp [hopen]
  simp only [receive, checkLive_open hopen hlive]
  rw [if_neg hsome, if_neg (by omega), if_neg (by omega), hnext]
  change Heard _ c (c.heard.receiveBody frame.body a)
  unfold receiveBody
  rw [if_neg hauth]
  rcases hfair with hreleased | ⟨feature, enabled, hbit, htells, hwanted⟩
  · rw [hreleased]
    refine .of_quiet hopen rfl rfl ?_ id rfl
    intro feature h
    cases feature <;> exact h
  · cases hbody : frame.body with
    | controlReleased =>
      rw [hbody] at htells
      cases htells
    | featureState body =>
      rw [hbody] at htells
      have hread : readState body = some (feature.name, enabled) := by
        simpa [HostBody.tells] using htells
      dsimp only
      rw [if_neg hremote]
      have hheard := featureState_heard feature hopen hlive hroom hsettled hbit hread hwanted
      have haudio : (HostBody.featureState body).tells .audioSystem true =
          (enabled && decide (feature = .audioSystem)) := by
        rw [HostBody.tells, hread]
        cases enabled <;> cases feature <;> simp [Feature.name]
      rw [haudio]
      exact hheard

end Replies

end HomeTunnel.Remote.Features.Controller
