import HomeTunnel.Features.Host

/-! # What a call does to the wishes of the controller

A call of the controller is either calm, that is, it sends no request that enables a
feature, or it asks for one feature. Either way it says which wishes it may take back.
A session that was closed on the way says nothing more.
-/

namespace HomeTunnel.Remote.Features

namespace Controller

/-- The feature is wished for, and the state is one in which it may be enabled. -/
def Wanted (c : Controller) : Feature → Prop
  | .audioSystem => c.audioRequested = true ∧ c.paused = false ∧ c.surface = true
  | .clipboardRead => c.clipboardReadRequested = true
  | .clipboardWrite => c.clipboardWriteRequested = true
  | .filesSend => c.filesSendRequested = true ∧ c.paused = false ∧ c.everPresented = true
  | .filesReceive => c.filesReceiveRequested = true ∧ c.paused = false ∧ c.everPresented = true

/-- What the handshake has settled. -/
structure Profile where
  ceiling : UInt64
  wantsAudio : Bool
  audioDevice : Bool
  audioTrack : Bool
  files : Bool
  authenticated : Bool
  ready : Bool
  localPath : Bool
  remotePath : Bool

def profile (c : Controller) : Profile :=
  ⟨c.ceiling, c.wantsAudio, c.audioDevice, c.audioTrack, c.files, c.authenticated, c.ready,
    c.localPath, c.remotePath⟩

/-- A frame that enables nothing. -/
def Quiet (body : ControllerBody) : Prop :=
  body = .releaseAll ∨ ∃ feature, body.asks feature false = true

structure Calm (withdrawn : Feature → Prop) (c c' : Controller) : Prop where
  opened : c.closeReason = none
  profile : c'.profile = c.profile
  received : c'.received = c.received
  wanted : ∀ feature, ¬ withdrawn feature → c.Wanted feature → c'.Wanted feature
  enabled : c'.audioEnabled = true → c.audioEnabled = true
  sends : ∃ new, c'.outbox = c.outbox ++ new ∧ ∀ frame ∈ new, Quiet frame.body

structure Step (withdrawn : Feature → Prop) (c c' : Controller) : Prop where
  grows : c.outbox <+: c'.outbox
  calm : c'.closeReason = none → Calm withdrawn c c'

section Calls

variable {withdrawn more : Feature → Prop} {c c' c'' : Controller} {a : Answers}

/-- A change of the state without a frame; most changes leave the other wishes as they are. -/
theorem Step.update (henabled : c'.audioEnabled = true → c.audioEnabled = true := by exact id)
    (hwanted : ∀ feature, ¬ withdrawn feature → c.Wanted feature → c'.Wanted feature := by
      intro feature hkept hwanted
      cases feature <;> first | exact hwanted | exact absurd rfl hkept)
    (hout : c'.outbox = c.outbox := by rfl) (hclose : c'.closeReason = c.closeReason := by rfl)
    (hprofile : c'.profile = c.profile := by rfl) (hreceived : c'.received = c.received := by rfl) :
    Step withdrawn c c' := by
  refine ⟨hout ▸ List.prefix_refl _, fun hopen => ⟨hclose ▸ hopen, hprofile, hreceived, hwanted,
    henabled, [], ?_, nofun⟩⟩
  rw [hout, List.append_nil]

theorem Step.refl (c : Controller) : Step withdrawn c c := .update

theorem Step.trans (h : Step withdrawn c c') (h' : Step withdrawn c' c'') : Step withdrawn c c'' := by
  refine ⟨h.grows.trans h'.grows, fun hopen => ?_⟩
  have hlater := h'.calm hopen
  have hfirst := h.calm hlater.opened
  obtain ⟨new, hnew, hquiet⟩ := hfirst.sends
  obtain ⟨next, hnext, hquiet'⟩ := hlater.sends
  refine ⟨hfirst.opened, hlater.profile.trans hfirst.profile, hlater.received.trans hfirst.received,
    fun feature hkept hwanted => hlater.wanted feature hkept (hfirst.wanted feature hkept hwanted),
    fun hon => hfirst.enabled (hlater.enabled hon), new ++ next, ?_, ?_⟩
  · rw [hnext, hnew, List.append_assoc]
  · intro frame hframe
    rcases List.mem_append.mp hframe with hframe | hframe
    · exact hquiet frame hframe
    · exact hquiet' frame hframe

theorem Step.mono (h : Step withdrawn c c') (hmore : ∀ feature, withdrawn feature → more feature) :
    Step more c c' := by
  refine ⟨h.grows, fun hopen => ?_⟩
  have hcalm := h.calm hopen
  exact ⟨hcalm.opened, hcalm.profile, hcalm.received,
    fun feature hkept => hcalm.wanted feature fun hw => hkept (hmore feature hw), hcalm.enabled,
    hcalm.sends⟩

theorem Step.any (h : Step withdrawn c c') : Step (fun _ => True) c c' := h.mono fun _ _ => trivial

theorem push_eq (hopen : c.closeReason = none) (body : ControllerBody) :
    c.push body = none ∨ c.push body =
      some { c with sent := c.sent + 1, outbox := c.outbox ++ [⟨c.sent + 1, body⟩] } := by
  unfold push
  rw [hopen]
  simp only [Option.isSome_none, Bool.false_eq_true, if_false]
  split
  · exact .inl rfl
  · exact .inr rfl

theorem close_isSome (c : Controller) (reason : String) (a : Answers) :
    (c.close reason a).closeReason.isSome = true := by
  unfold close
  split
  · assumption
  · rfl

theorem close_ne_none (c : Controller) (reason : String) (a : Answers) :
    (c.close reason a).closeReason ≠ none := by
  intro h
  have hsome := close_isSome c reason a
  rw [h] at hsome
  cases hsome

theorem close_grows (c : Controller) (reason : String) (a : Answers) :
    c.outbox <+: (c.close reason a).outbox := by
  unfold close
  split
  · exact List.prefix_refl _
  · next hopen =>
    rw [Bool.not_eq_true, Option.isSome_eq_false_iff, Option.isNone_iff_eq_none] at hopen
    split
    · rcases push_eq hopen .releaseAll with hpush | hpush
      · rw [hpush]
        exact List.prefix_refl _
      · rw [hpush]
        exact List.prefix_append _ _
    · exact List.prefix_refl _

theorem close_step (c : Controller) (reason : String) (a : Answers) :
    Step withdrawn c (c.close reason a) :=
  ⟨close_grows c reason a, fun hopen => absurd hopen (close_ne_none c reason a)⟩

theorem send_spec (c : Controller) (body : ControllerBody) (a : Answers) :
    c.outbox <+: (c.send body a).outbox ∧ ((c.send body a).closeReason = none →
      c.closeReason = none ∧ c.send body a =
        { c with sent := c.sent + 1, outbox := c.outbox ++ [⟨c.sent + 1, body⟩] }) := by
  by_cases hopen : c.closeReason = none
  · rcases push_eq hopen body with hpush | hpush
    · have hsend : c.send body a = c.close "RD_MEDIA_FAILED" a := by rw [send, hpush, Option.getD_none]
      rw [hsend]
      exact ⟨close_grows _ _ _, fun h => absurd h (close_ne_none _ _ _)⟩
    · have hsend : c.send body a =
          { c with sent := c.sent + 1, outbox := c.outbox ++ [⟨c.sent + 1, body⟩] } := by
        rw [send, hpush, Option.getD_some]
      rw [hsend]
      exact ⟨List.prefix_append _ _, fun _ => ⟨hopen, rfl⟩⟩
  · have hsend : c.send body a = c := by
      rw [send, push, if_pos (Option.isSome_iff_ne_none.mpr hopen), Option.getD_some]
    rw [hsend]
    exact ⟨List.prefix_refl _, fun h => absurd h hopen⟩

theorem send_step {body : ControllerBody} (hquiet : Quiet body) (a : Answers) :
    Step withdrawn c (c.send body a) := by
  obtain ⟨hgrows, hspec⟩ := send_spec c body a
  refine ⟨hgrows, fun hopen => ?_⟩
  obtain ⟨hwas, heq⟩ := hspec hopen
  rw [heq]
  refine ⟨hwas, rfl, rfl, fun feature _ h => ?_, id, [_], rfl, ?_⟩
  · cases feature <;> exact h
  · intro frame hframe
    rw [List.mem_singleton.mp hframe]
    exact hquiet

theorem releaseInput_step (c : Controller) (a : Answers) : Step withdrawn c (c.releaseInput a) := by
  unfold releaseInput
  split
  · exact send_step (.inl rfl) a
  · exact .refl c

theorem checkLive_step (c : Controller) (a : Answers) : Step withdrawn c (c.checkLive a) := by
  unfold checkLive
  split
  · exact .refl c
  · split
    · exact close_step _ _ _
    · exact .refl c

theorem checkLive_eq (h : (c.checkLive a).closeReason = none) :
    c.checkLive a = c ∧ c.closeReason = none ∧ a.now < c.deadline := by
  unfold checkLive at h ⊢
  split at h
  · next hclosed =>
    rw [h] at hclosed
    cases hclosed
  · next hopen =>
    split at h
    · exact absurd h (close_ne_none _ _ _)
    · next hlate =>
      rw [Bool.not_eq_true, Option.isSome_eq_false_iff, Option.isNone_iff_eq_none] at hopen
      rw [if_neg (by simp [hopen]), if_neg hlate]
      exact ⟨rfl, hopen, UInt64.not_le.mp hlate⟩

/-! ## Calls that enable nothing -/

theorem send_false_step (feature : Feature) (a : Answers) :
    Step withdrawn c (c.send (.featureRequest (requestBody feature.name false)) a) := by
  refine send_step (.inr ⟨feature, ?_⟩) a
  simp [ControllerBody.asks, readRequest_requestBody]

def onlyAudio (feature : Feature) : Prop := feature = .audioSystem

theorem muted_step (c : Controller) : Step onlyAudio c c.muted := .update nofun

theorem askAudio_false_step (c : Controller) (a : Answers) :
    Step onlyAudio c (c.askAudio false a).2 := by
  unfold askAudio
  split
  · exact .refl c
  · simp only [Bool.false_eq_true, false_and, if_false]
    have hunasked : Step onlyAudio c { c with audioRequested := false } := .update
    exact hunasked.trans (send_false_step .audioSystem a)

theorem systemAudio_false_step (c : Controller) (a : Answers) :
    Step onlyAudio c (c.systemAudio false a).2 := by
  simp only [systemAudio, Bool.false_eq_true, if_false, false_and]
  exact (muted_step c).trans ((checkLive_step c.muted a).trans (askAudio_false_step _ a))

def onlyFiles (direction : Direction) (feature : Feature) : Prop := feature = direction.feature

theorem setFilesRequested_step (c : Controller) (direction : Direction) (value : Bool) :
    Step (onlyFiles direction) c (c.setFilesRequested direction value) := by
  cases direction <;> exact .update

theorem askFiles_false_step (c : Controller) (direction : Direction) (a : Answers) :
    Step (onlyFiles direction) c (c.askFiles direction false a).2 := by
  unfold askFiles
  split
  · exact .refl c
  · exact (setFilesRequested_step c direction false).trans (send_false_step direction.feature a)

theorem setFiles_false_step (c : Controller) (direction : Direction) (a : Answers) :
    Step (onlyFiles direction) c (c.setFiles direction false a).2 := by
  simp only [setFiles, Bool.false_eq_true, false_and, if_false]
  refine (setFilesRequested_step c direction false).trans ?_
  exact (checkLive_step _ a).trans (askFiles_false_step _ direction a)

inductive Op
  | systemAudio (enabled : Bool) (a : Answers)
  | setFiles (direction : Direction) (enabled : Bool) (a : Answers)
  | submit (frame : Frame Json) (a : Answers)
  | pause (a : Answers)
  | resume (a : Answers)
  | setSurface (window : Bool) (generation : UInt64) (a : Answers)
  | renew (deadline : UInt64) (a : Answers)
  | tick (generation frames : UInt64) (a : Answers)
  | close (reason : String) (a : Answers)
deriving DecidableEq, Repr

def apply (c : Controller) : Op → Controller
  | .systemAudio enabled a => (c.systemAudio enabled a).2
  | .setFiles direction enabled a => (c.setFiles direction enabled a).2
  | .submit frame a => (c.submit frame a).2
  | .pause a => c.pause a
  | .resume a => c.resume a
  | .setSurface window generation a => c.setSurface window generation a
  | .renew deadline a => c.renew deadline a
  | .tick generation frames a => c.tick generation frames a
  | .close reason a => c.close reason a

/-- The features that a request of the app takes back. -/
def declines (body : Json) (feature : Feature) : Prop :=
  readRequest body = some (feature.name, false)

/-- The wishes that the operation may take back. -/
def Op.withdraws (audioEnabled : Bool) : Op → Feature → Prop
  | .systemAudio .., feature => feature = .audioSystem
  | .setFiles direction enabled _, feature => feature = direction.feature ∧ enabled = false
  | .submit frame _, feature => declines frame.body feature
  | .pause _, _ => True
  | .setSurface window _ _, feature => feature = .audioSystem ∧ window = false
  | .tick .., feature => feature = .audioSystem ∧ audioEnabled = true
  | _, _ => False

theorem pause_step (c : Controller) (a : Answers) :
    Step (fun _ => True) c (c.pause a) := by
  unfold pause
  split
  · exact .refl c
  · refine (systemAudio_false_step c a).any.trans ?_
    refine (setFiles_false_step _ .send a).any.trans ?_
    refine (setFiles_false_step _ .receive a).any.trans (.trans ?_ (releaseInput_step _ a))
    exact .update id fun _ h => absurd trivial h

/-- Without a surface audio is not wanted, so that nothing is taken back. -/
theorem updateRendering_step (c : Controller) (a : Answers) :
    Step withdrawn c (c.updateRendering a) := by
  unfold updateRendering
  split
  · next hhidden =>
    have hstep := systemAudio_false_step c a
    refine ⟨hstep.grows, fun hopen => ?_⟩
    have hcalm := hstep.calm hopen
    refine ⟨hcalm.opened, hcalm.profile, hcalm.received, ?_, hcalm.enabled, hcalm.sends⟩
    intro feature _ hwanted
    cases feature with
    | audioSystem => exact absurd hwanted.2.2 hhidden.1
    | _ => exact hcalm.wanted _ (by simp [onlyAudio]) hwanted
  · exact .refl c

theorem resume_step (c : Controller) (a : Answers) : Step withdrawn c (c.resume a) := by
  refine (checkLive_step c a).trans ?_
  simp only [resume]
  split
  · exact close_step _ _ _
  · have hback : Step withdrawn (c.checkLive a) { c.checkLive a with
        paused := false
        surfaceLifecycle := if (c.checkLive a).ready then
          (c.checkLive a).surfaceLifecycle.restartWait a.now else (c.checkLive a).surfaceLifecycle } := by
      refine .update id fun feature _ hwanted => ?_
      cases feature with
      | audioSystem | filesSend | filesReceive => exact ⟨hwanted.1, rfl, hwanted.2.2⟩
      | _ => exact hwanted
    split
    · exact hback
    · exact hback.trans (updateRendering_step _ a)

/-- Only the loss of the surface takes audio back. -/
theorem setSurface_step (c : Controller) (window : Bool) (generation : UInt64) (a : Answers) :
    Step (fun feature => feature = .audioSystem ∧ window = false) c
      (c.setSurface window generation a) := by
  unfold setSurface
  split
  · exact .refl c
  · have hwindow : Step (fun feature => feature = .audioSystem ∧ window = false) c
        { c with surface := window } := by
      refine .update id fun feature hkept hwanted => ?_
      cases feature with
      | audioSystem => exact ⟨hwanted.1, hwanted.2.1, by simpa using hkept⟩
      | _ => exact hwanted
    refine hwindow.trans ?_
    dsimp only
    split
    · exact .refl _
    · next lifecycle _ =>
      have hreplaced : Step (fun feature => feature = .audioSystem ∧ window = false)
          { c with surface := window }
          { c with surface := window, surfaceLifecycle := lifecycle } := .update
      refine hreplaced.trans ((releaseInput_step _ a).trans ?_)
      split
      · exact .refl _
      · exact updateRendering_step _ a

theorem renew_step (c : Controller) (deadline : UInt64) (a : Answers) :
    Step withdrawn c (c.renew deadline a) := by
  refine (checkLive_step c a).trans ?_
  simp only [renew]
  split
  · exact .refl _
  · have hrenewed : Step withdrawn (c.checkLive a) { c.checkLive a with deadline := deadline } :=
      .update
    exact hrenewed.trans (updateRendering_step _ a)

theorem shown_step (c : Controller) (generation frames : UInt64) :
    Step withdrawn c (c.shown generation frames) := by
  unfold shown
  split
  · exact .refl c
  · split
    · exact .refl c
    · refine .update id fun feature _ hwanted => ?_
      cases feature with
      | filesSend | filesReceive => exact ⟨hwanted.1, hwanted.2.1, rfl⟩
      | _ => exact hwanted

/-- Audio that is enabled may be taken back when its device fails. -/
theorem tick_step (c : Controller) (generation frames : UInt64) (a : Answers) :
    Step (fun feature => feature = .audioSystem ∧ c.audioEnabled = true) c
      (c.tick generation frames a) := by
  by_cases hopen : (c.checkLive a).closeReason = none
  · obtain ⟨heq, hnone, -⟩ := checkLive_eq hopen
    simp only [tick, heq, hnone, Option.isSome_none, Bool.false_eq_true, if_false]
    have hdevice : Step (fun feature => feature = .audioSystem ∧ c.audioEnabled = true) c
        (if c.audioEnabled = true ∧ c.audioDevice = true ∧ a.deviceFailed = true then
          (c.systemAudio false a).2 else c) := by
      split
      · next hfailed => exact (systemAudio_false_step c a).mono fun _ h => ⟨h, hfailed.1⟩
      · exact .refl c
    refine hdevice.trans ?_
    generalize (if c.audioEnabled = true ∧ c.audioDevice = true ∧ a.deviceFailed = true then
      (c.systemAudio false a).2 else c) = checked
    split
    · exact close_step _ _ _
    · refine (releaseInput_step _ a).trans ?_
      split
      · exact .refl _
      · exact shown_step _ generation frames
  · have hclosed : c.tick generation frames a = c.checkLive a := by
      rw [tick, if_pos (Option.isSome_iff_ne_none.mpr hopen)]
    rw [hclosed]
    exact checkLive_step c a

/-! ## Calls that may enable a feature -/

/-- The call ends with a request that enables the feature. -/
structure Asking (withdrawn : Feature → Prop) (feature : Feature) (c c' : Controller) : Prop where
  opened : c.closeReason = none
  profile : c'.profile = c.profile
  received : c'.received = c.received
  wanted : ∀ other, ¬ withdrawn other → c.Wanted other → c'.Wanted other
  asked : c'.Wanted feature
  enabled : c'.audioEnabled = true → c.audioEnabled = true ∧ feature ≠ .audioSystem
  sends : ∃ frame, c'.outbox = c.outbox ++ [frame] ∧ frame.body.asks feature true = true

/-- A call is calm or asks for one feature. -/
structure Turn (withdrawn : Feature → Prop) (c c' : Controller) : Prop where
  grows : c.outbox <+: c'.outbox
  kind : c'.closeReason = none → Calm withdrawn c c' ∨
    ∃ feature, Asking withdrawn feature c c' ∧ (feature = .audioSystem → withdrawn feature)

theorem Step.turn (h : Step withdrawn c c') : Turn withdrawn c c' :=
  ⟨h.grows, fun hopen => .inl (h.calm hopen)⟩

theorem send_turn {body : ControllerBody} (feature : Feature) (next : Controller)
    (hupdate : Step withdrawn c next) (hout : next.outbox = c.outbox)
    (hbody : body.asks feature true = true) (hwanted : next.Wanted feature)
    (haudio : feature = .audioSystem → c.audioEnabled = false ∧ withdrawn feature) (a : Answers) :
    Turn withdrawn c (next.send body a) := by
  obtain ⟨hgrows, hspec⟩ := send_spec next body a
  refine ⟨hupdate.grows.trans hgrows, fun hopen => .inr ⟨feature, ?_, fun h => (haudio h).2⟩⟩
  obtain ⟨hwas, heq⟩ := hspec hopen
  have hcalm := hupdate.calm hwas
  rw [heq]
  refine ⟨hcalm.opened, hcalm.profile, hcalm.received, ?_, ?_, ?_, ⟨next.sent + 1, body⟩, ?_, hbody⟩
  · intro other hother hw
    have hkept := hcalm.wanted other hother hw
    cases other <;> exact hkept
  · cases feature <;> exact hwanted
  · intro hon
    have hwason := hcalm.enabled hon
    refine ⟨hwason, fun h => ?_⟩
    rw [(haudio h).1] at hwason
    cases hwason
  · rw [← hout]

theorem askAudio_true_turn (c : Controller) (hmuted : c.audioEnabled = false) (a : Answers) :
    Turn onlyAudio c (c.askAudio true a).2 := by
  unfold askAudio
  split
  · exact (Step.refl c).turn
  · split
    · exact (Step.refl c).turn
    · next hshown =>
      simp only [true_and, not_not, audioShown, Bool.and_eq_true, Bool.not_eq_true'] at hshown
      have hwish : Step onlyAudio c { c with audioRequested := true } := .update
      refine send_turn .audioSystem _ hwish rfl ?_ ⟨rfl, hshown.1.1.1, hshown.1.1.2⟩
        (fun _ => ⟨hmuted, rfl⟩) a
      simp [ControllerBody.asks, readRequest_requestBody, Feature.name]

theorem askAudio_closed (hclosed : c.closeReason ≠ none) (enabled : Bool) (a : Answers) :
    (c.askAudio enabled a).2 = c := by
  unfold askAudio
  rw [if_pos]
  simp [audioVerified, hclosed]

/-- A change of the wishes comes before the call. -/
theorem Turn.after (hfirst : Step withdrawn c c') (hout : c'.outbox = c.outbox)
    (h : Turn withdrawn c' c'') : Turn withdrawn c c'' := by
  refine ⟨hfirst.grows.trans h.grows, fun hopen => ?_⟩
  rcases h.kind hopen with hcalm | ⟨feature, hask, hfeature⟩
  · exact .inl ((hfirst.trans ⟨h.grows, fun _ => hcalm⟩).calm hopen)
  · have hwas := hfirst.calm hask.opened
    refine .inr ⟨feature, ⟨hwas.opened, hask.profile.trans hwas.profile,
      hask.received.trans hwas.received, ?_, hask.asked, ?_, hout ▸ hask.sends⟩, hfeature⟩
    · intro other hother hwanted
      exact hask.wanted other hother (hwas.wanted other hother hwanted)
    · intro hon
      exact ⟨hwas.enabled (hask.enabled hon).1, (hask.enabled hon).2⟩

theorem checkLive_closed (hclosed : c.closeReason ≠ none) (a : Answers) : c.checkLive a = c := by
  rw [checkLive, if_pos (Option.isSome_iff_ne_none.mpr hclosed)]

theorem muteAndAsk_turn (c : Controller) (a : Answers) :
    Turn onlyAudio c ((c.muted.checkLive a).askAudio true a).2 := by
  by_cases hopen : (c.muted.checkLive a).closeReason = none
  · rw [(checkLive_eq hopen).1]
    exact .after (muted_step c) rfl (askAudio_true_turn c.muted rfl a)
  · rw [askAudio_closed hopen]
    exact ((muted_step c).trans (checkLive_step c.muted a)).turn

theorem systemAudio_turn (c : Controller) (enabled : Bool) (a : Answers) :
    Turn onlyAudio c (c.systemAudio enabled a).2 := by
  cases enabled with
  | false => exact (systemAudio_false_step c a).turn
  | true =>
    by_cases hopen : (c.checkLive a).closeReason = none
    · simp only [systemAudio, if_true, true_and, (checkLive_eq hopen).1]
      split
      · exact (Step.refl c).turn
      · exact muteAndAsk_turn c a
    · -- the lease has run out, and nothing is asked of a closed session
      have hmuted : (c.checkLive a).muted.closeReason ≠ none := hopen
      have hclosed : (c.systemAudio true a).2 = (c.checkLive a).muted := by
        simp only [systemAudio, if_true, true_and]
        rw [if_neg (by simp [audioKeeps, hopen]), checkLive_closed hmuted, askAudio_closed hmuted]
      have hlive : Step onlyAudio c (c.checkLive a) := checkLive_step c a
      rw [hclosed]
      exact ⟨hlive.grows, fun h => absurd h hopen⟩

theorem setFiles_true_turn (c : Controller) (direction : Direction) (a : Answers) :
    Turn (fun _ => False) c (c.setFiles direction true a).2 := by
  unfold setFiles
  split
  · exact (Step.refl c).turn
  · simp only [if_true]
    by_cases hopen : (c.checkLive a).closeReason = none
    · rw [(checkLive_eq hopen).1]
      unfold askFiles
      split
      · exact (Step.refl c).turn
      · next hcurrent =>
        simp only [not_or, not_not, filesCurrent, Bool.and_eq_true, Bool.not_eq_true'] at hcurrent
        obtain ⟨⟨⟨⟨⟨⟨⟨-, hpaused⟩, -⟩, -⟩, -⟩, hpresented⟩, -⟩, -⟩ := hcurrent.2.2.2
        have hwish : Step (fun _ => False) c (c.setFilesRequested direction true) := by
          cases direction <;>
          · refine .update id fun feature _ hwanted => ?_
            cases feature <;> first | exact hwanted | exact ⟨rfl, hpaused, hpresented⟩
        refine send_turn direction.feature _ hwish ?_ ?_ ?_ ?_ a
        · cases direction <;> rfl
        · simp [ControllerBody.asks, readRequest_requestBody]
        · cases direction <;> exact ⟨rfl, hpaused, hpresented⟩
        · cases direction <;> simp [Direction.feature]
    · have hclosed : (askFiles (c.checkLive a) direction true a).2 = c.checkLive a := by
        unfold askFiles
        rw [if_pos (.inl (Option.isSome_iff_ne_none.mpr hopen))]
      rw [hclosed]
      exact (checkLive_step c a).turn

/-- The clipboard direction of a permission that was accepted. -/
theorem clipboard_feature {permission : String}
    (h : ¬ (permission ≠ "clipboard.read" ∧ permission ≠ "clipboard.write")) (c : Controller)
    (enabled : Bool) : ∃ feature : Feature, feature.name = permission ∧ feature ≠ .audioSystem ∧
      (enabled = true → (c.setClipboardWish permission enabled).Wanted feature) ∧
      ∀ other, (other = feature → enabled = true) → c.Wanted other →
        (c.setClipboardWish permission enabled).Wanted other := by
  by_cases hread : permission = "clipboard.read"
  · refine ⟨.clipboardRead, hread.symm, nofun, ?_, ?_⟩
    · intro hon
      rw [setClipboardWish, if_pos hread]
      exact hon
    · intro other hother hwanted
      rw [setClipboardWish, if_pos hread]
      cases other with
      | clipboardRead => exact hother rfl
      | _ => exact hwanted
  · have hwrite : permission = "clipboard.write" := by
      by_contra hne
      exact h ⟨hread, hne⟩
    refine ⟨.clipboardWrite, hwrite.symm, nofun, ?_, ?_⟩
    · intro hon
      rw [setClipboardWish, if_neg hread]
      exact hon
    · intro other hother hwanted
      rw [setClipboardWish, if_neg hread]
      cases other with
      | clipboardWrite => exact hother rfl
      | _ => exact hwanted

theorem setClipboardWish_step (c : Controller) (permission : String) (enabled : Bool)
    (hwanted : ∀ feature, ¬ withdrawn feature → c.Wanted feature →
      (c.setClipboardWish permission enabled).Wanted feature) :
    Step withdrawn c (c.setClipboardWish permission enabled) := by
  unfold setClipboardWish at hwanted ⊢
  split at hwanted
  · next hread =>
    rw [if_pos hread]
    exact .update id hwanted
  · next hread =>
    rw [if_neg hread]
    exact .update id hwanted

theorem submitFeature_turn (c : Controller) (body : Json) (a : Answers) :
    Turn (declines body) c (c.submitFeature body a).2 := by
  unfold submitFeature
  cases hread : readRequest body with
  | none => exact (Step.refl c).turn
  | some request =>
    obtain ⟨permission, enabled⟩ := request
    dsimp only
    split
    · exact (Step.refl c).turn
    · next hclipboard =>
      split
      · exact (Step.refl c).turn
      · obtain ⟨feature, hname, haudio, hasked, hkept⟩ := clipboard_feature hclipboard c enabled
        have hwish : Step (declines body) c (c.setClipboardWish permission enabled) := by
          refine setClipboardWish_step c permission enabled fun other hother => hkept other ?_
          rintro rfl
          by_contra hoff
          rw [Bool.not_eq_true] at hoff
          exact hother (by rw [declines, hread, hname, hoff])
        cases enabled with
        | true =>
          refine send_turn feature _ hwish ?_ ?_ (hasked rfl) (fun h => absurd h haudio) a
          · unfold setClipboardWish
            split <;> rfl
          · simp [ControllerBody.asks, hread, hname]
        | false =>
          refine (hwish.trans (send_step (.inr ⟨feature, ?_⟩) a)).turn
          simp [ControllerBody.asks, hread, hname]

theorem submit_turn (c : Controller) (frame : Frame Json) (a : Answers) :
    Turn (declines frame.body) c (c.submit frame a).2 := by
  by_cases hopen : (c.checkLive a).closeReason = none
  · simp only [submit, (checkLive_eq hopen).1]
    split
    · exact (Step.refl c).turn
    · split
      · exact (Step.refl c).turn
      · have hnumber : Step (declines frame.body) c { c with submitted := frame.sequence } := .update
        exact .after hnumber rfl (submitFeature_turn _ frame.body a)
  · have hclosed : (c.submit frame a).2 = c.checkLive a := by
      rw [submit, if_pos (.inl (Option.isSome_iff_ne_none.mpr hopen))]
    rw [hclosed]
    exact (checkLive_step c a).turn

theorem apply_turn (c : Controller) (op : Op) : Turn (op.withdraws c.audioEnabled) c (c.apply op) := by
  cases op with
  | systemAudio enabled a => exact systemAudio_turn c enabled a
  | setFiles direction enabled a =>
    cases enabled with
    | false => exact ((setFiles_false_step c direction a).mono fun _ h => ⟨h, rfl⟩).turn
    | true =>
      obtain ⟨hgrows, hkind⟩ := setFiles_true_turn c direction a
      refine ⟨hgrows, fun hopen => (hkind hopen).imp ?_ ?_⟩
      · intro hcalm
        have hstep : Step (fun _ => False) c (c.setFiles direction true a).2 := ⟨hgrows, fun _ => hcalm⟩
        exact (hstep.mono fun _ => False.elim).calm hopen
      · rintro ⟨feature, hask, haudio⟩
        refine ⟨feature, ⟨hask.opened, hask.profile, hask.received, ?_, hask.asked, hask.enabled,
          hask.sends⟩, fun h => (haudio h).elim⟩
        exact fun other _ hwanted => hask.wanted other id hwanted
  | submit frame a => exact submit_turn c frame a
  | pause a => exact (pause_step c a).turn
  | resume a => exact (resume_step c a).turn
  | setSurface window generation a => exact (setSurface_step c window generation a).turn
  | renew deadline a => exact (renew_step c deadline a).turn
  | tick generation frames a => exact (tick_step c generation frames a).turn
  | close reason a => exact (close_step c reason a).turn

end Calls

end Controller

end HomeTunnel.Remote.Features
