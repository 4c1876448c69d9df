import HomeTunnel.Features.Replies
import HomeTunnel.Lib.Duplex

/-! # Toggles and the replies to them

The controller and the host are joined by the control channel. A wish that is taken back
while a request or a report that enables the feature is on its way makes the controller
close the session when the report comes; otherwise no report closes it.
-/

namespace HomeTunnel.Remote.Features

open Duplex

theorem asks_unique {body : ControllerBody} {feature other : Feature} {enabled value : Bool}
    (h : body.asks feature enabled = true) (h' : body.asks other value = true) :
    feature = other ∧ enabled = value := by
  cases body with
  | releaseAll => cases h
  | featureRequest body =>
    simp only [ControllerBody.asks, beq_iff_eq] at h h'
    rw [h] at h'
    simp only [Option.some.injEq, Prod.mk.injEq] at h'
    exact ⟨Feature.name_injective h'.1, h'.2⟩

/-- How many frames that enable the feature are on their way. -/
def enabling (requests : List (Frame ControllerBody)) (reports : List (Frame HostBody))
    (feature : Feature) : Nat :=
  requests.countP (·.body.asks feature true) + reports.countP (·.body.tells feature true)

/-- Consecutive numbers after `first`, up to `last`. -/
def Numbered {Body : Type} : Nat → List (Frame Body) → Nat → Prop
  | first, [], last => first = last
  | first, frame :: rest, last => frame.sequence = first + 1 ∧ Numbered (first + 1) rest last

theorem Numbered.push {Body : Type} {first last : Nat} {frames : List (Frame Body)}
    (h : Numbered first frames last) (body : Body) :
    Numbered first (frames ++ [⟨last + 1, body⟩]) (last + 1) := by
  induction frames generalizing first with
  | nil =>
    obtain rfl : first = last := h
    exact ⟨rfl, rfl⟩
  | cons frame rest ih => exact ⟨h.1, ih h.2⟩

section Queues

variable {requests new : List (Frame ControllerBody)} {reports : List (Frame HostBody)}
  {feature : Feature}

theorem asks_of_quiet {body : ControllerBody} (h : Controller.Quiet body) (feature : Feature) :
    body.asks feature true = false := by
  rcases h with rfl | ⟨other, hother⟩
  · rfl
  · by_contra hasks
    rw [Bool.not_eq_false] at hasks
    cases (asks_unique hother hasks).2

theorem enabling_quiet (h : ∀ frame ∈ new, Controller.Quiet frame.body) :
    enabling (requests ++ new) reports feature = enabling requests reports feature := by
  have hnone : new.countP (·.body.asks feature true) = 0 := by
    rw [List.countP_eq_zero]
    intro frame hframe
    rw [asks_of_quiet (h frame hframe)]
    nofun
  rw [enabling, List.countP_append, hnone, Nat.add_zero, enabling]

end Queues

/-- An open session, with the frames that are on their way in both directions. -/
structure Session (c : Controller) (h : Host) (requests : List (Frame ControllerBody))
    (reports : List (Frame HostBody)) : Prop where
  settled : c.profile.Settled
  agreed : ∀ feature : Feature, feature.name ∈ h.permissions → c.ceiling &&& feature.bit ≠ 0
  approved : h.Approved
  proper : ∀ frame ∈ requests, frame.body = .releaseAll ∨
    ∃ feature : Feature, ∃ enabled, frame.body.asks feature enabled = true
  numbered : Numbered c.received reports h.sent
  fair : ∀ frame ∈ reports, frame.body.Fair h.permissions
  wanted : ∀ feature, 0 < enabling requests reports feature → c.Wanted feature
  single : enabling requests reports .audioSystem ≤ 1
  audio : c.audioEnabled = true → enabling requests reports .audioSystem = 0

namespace Session

variable {c c' : Controller} {h h' : Host} {requests : List (Frame ControllerBody)}
  {reports : List (Frame HostBody)}

theorem of_queues (hs : Session c h requests reports) {requests' : List (Frame ControllerBody)}
    {reports' : List (Frame HostBody)} (hrequests : requests' = requests)
    (hreports : reports' = reports) : Session c h requests' reports' := by
  rw [hrequests, hreports]
  exact hs

theorem profile_ceiling (hprofile : c'.profile = c.profile) : c'.ceiling = c.ceiling :=
  congrArg Controller.Profile.ceiling hprofile

/-- A call of the controller that takes nothing back that is on its way. -/
theorem act (hs : Session c h requests reports) {op : Controller.Op}
    (hpatient : ∀ feature, op.withdraws false feature → enabling requests reports feature = 0)
    (hopen : (c.apply op).closeReason = none) :
    ∃ new, (c.apply op).outbox = c.outbox ++ new ∧ Session (c.apply op) h (requests ++ new) reports := by
  have hfree : ∀ feature, op.withdraws c.audioEnabled feature →
      enabling requests reports feature = 0 := by
    intro feature hfeature
    cases op with
    | tick generation frames a =>
      obtain ⟨rfl, hon⟩ := hfeature
      exact hs.audio hon
    | _ => exact hpatient feature hfeature
  have hkept : ∀ {next : Controller}, (∀ feature, ¬ op.withdraws c.audioEnabled feature →
      c.Wanted feature → next.Wanted feature) → ∀ feature, 0 < enabling requests reports feature →
        next.Wanted feature := by
    intro next hwanted feature hway
    refine hwanted feature (fun hfeature => ?_) (hs.wanted feature hway)
    rw [hfree feature hfeature] at hway
    exact absurd hway (Nat.lt_irrefl 0)
  rcases (Controller.apply_turn c op).kind hopen with hcalm | ⟨feature, hask, haudio⟩
  · obtain ⟨new, hnew, hquiet⟩ := hcalm.sends
    refine ⟨new, hnew, ?_⟩
    have hsame : ∀ feature, enabling (requests ++ new) reports feature =
        enabling requests reports feature := fun feature => enabling_quiet hquiet
    refine ⟨hcalm.profile ▸ hs.settled, ?_, hs.approved, ?_, hcalm.received ▸ hs.numbered, hs.fair,
      ?_, ?_, ?_⟩
    · rw [profile_ceiling hcalm.profile]
      exact hs.agreed
    · intro frame hframe
      rcases List.mem_append.mp hframe with hframe | hframe
      · exact hs.proper frame hframe
      · exact (hquiet frame hframe).imp id fun ⟨other, hother⟩ => ⟨other, false, hother⟩
    · intro feature hway
      rw [hsame] at hway
      exact hkept hcalm.wanted feature hway
    · rw [hsame]
      exact hs.single
    · intro hon
      rw [hsame]
      exact hs.audio (hcalm.enabled hon)
  · obtain ⟨frame, hframe, hasks⟩ := hask.sends
    refine ⟨[frame], hframe, ?_⟩
    have hmore : ∀ other, enabling (requests ++ [frame]) reports other =
        enabling requests reports other + if other = feature then 1 else 0 := by
      intro other
      have hcount : ([frame] : List (Frame ControllerBody)).countP (·.body.asks other true) =
          if other = feature then 1 else 0 := by
        split
        · next heq =>
          subst heq
          simp [hasks]
        · next hne =>
          rw [List.countP_eq_zero]
          intro f hf
          rw [List.mem_singleton.mp hf]
          exact fun hother => hne (asks_unique hother hasks).1
      rw [enabling, List.countP_append, hcount, enabling]
      omega
    refine ⟨hask.profile ▸ hs.settled, ?_, hs.approved, ?_, hask.received ▸ hs.numbered, hs.fair,
      ?_, ?_, ?_⟩
    · rw [profile_ceiling hask.profile]
      exact hs.agreed
    · intro f hf
      rcases List.mem_append.mp hf with hf | hf
      · exact hs.proper f hf
      · rw [List.mem_singleton.mp hf]
        exact .inr ⟨feature, true, hasks⟩
    · intro other hway
      by_cases heq : other = feature
      · rw [heq]
        exact hask.asked
      · rw [hmore, if_neg heq] at hway
        exact hkept hask.wanted other hway
    · rw [hmore]
      split
      · next heq =>
        rw [hfree .audioSystem (heq ▸ haudio heq.symm)]
      · exact hs.single
    · intro hon
      obtain ⟨hwason, hother⟩ := hask.enabled hon
      rw [hmore, if_neg hother.symm]
      exact hs.audio hwason

/-- A step of the host that reports as enabled at most what the frame asked for that it has taken
from the queue. -/
theorem report (hs : Session c h requests reports) {rest : List (Frame ControllerBody)}
    (taken : List (Frame ControllerBody)) (htaken : requests = taken ++ rest)
    (hstep : h.Step (fun feature => 0 < taken.countP (·.body.asks feature true)) h') :
    ∃ new, h'.outbox = h.outbox ++ new ∧ Session c h' rest (reports ++ new) := by
  have hrest : ∀ frame ∈ rest, frame ∈ requests := by
    intro frame hframe
    rw [htaken]
    exact List.mem_append_right taken hframe
  have hcount : ∀ feature, enabling requests reports feature =
      taken.countP (·.body.asks feature true) + enabling rest reports feature := by
    intro feature
    rw [enabling, enabling, htaken, List.countP_append]
    omega
  obtain ⟨new, hnew, hnumbered, hfair, hfewer⟩ : ∃ new, h'.outbox = h.outbox ++ new ∧
      Numbered c.received (reports ++ new) h'.sent ∧
      (∀ frame ∈ new, frame.body.Fair h.permissions) ∧ ∀ feature,
        new.countP (·.body.tells feature true) ≤ taken.countP (·.body.asks feature true) := by
    rcases hstep.sends with ⟨hout, hsent⟩ | ⟨body, hout, hsent, hfair, htells⟩
    · refine ⟨[], ?_, ?_, nofun, fun _ => Nat.zero_le _⟩
      · rw [hout, List.append_nil]
      · rw [hsent, List.append_nil]
        exact hs.numbered
    · refine ⟨[⟨h.sent + 1, body⟩], hout, ?_, ?_, ?_⟩
      · rw [hsent]
        exact hs.numbered.push body
      · intro frame hframe
        rw [List.mem_singleton.mp hframe]
        exact hfair
      · intro feature
        rw [List.countP_singleton]
        split
        · next hon => exact htells feature hon
        · exact Nat.zero_le _
  have hless : ∀ feature, enabling rest (reports ++ new) feature ≤ enabling requests reports feature := by
    intro feature
    have hnewer := hfewer feature
    rw [hcount, enabling, enabling, List.countP_append]
    omega
  refine ⟨new, hnew, hs.settled, ?_, hstep.approved, fun frame hframe => hs.proper frame (hrest frame hframe),
    hnumbered, ?_, ?_, (hless _).trans hs.single, fun hon => ?_⟩
  · rw [hstep.permissions]
    exact hs.agreed
  · intro frame hframe
    rw [hstep.permissions]
    rcases List.mem_append.mp hframe with hframe | hframe
    · exact hs.fair frame hframe
    · exact hfair frame hframe
  · exact fun feature hway => hs.wanted feature (hway.trans_le (hless feature))
  · exact Nat.eq_zero_of_le_zero ((hs.audio hon) ▸ hless _)

/-- The first report reaches a controller whose lease has not run out. -/
theorem hear {frame : Frame HostBody} {rest : List (Frame HostBody)}
    (hs : Session c h requests (frame :: rest)) {a : Answers} (hopen : c.closeReason = none)
    (hlive : a.now < c.deadline) (hroom : c.sent + 1 < Protocol.sequenceReconnectAt.toNat) :
    (c.receive frame a).closeReason = none ∧ ∃ new, (c.receive frame a).outbox = c.outbox ++ new ∧
      Session (c.receive frame a) h (requests ++ new) rest := by
  have hcount : ∀ feature, enabling requests (frame :: rest) feature =
      enabling requests rest feature + if frame.body.tells feature true then 1 else 0 := by
    intro feature
    rw [enabling, enabling, List.countP_cons, Nat.add_assoc]
  have hfair : frame.body = .controlReleased ∨ ∃ feature enabled, c.ceiling &&& feature.bit ≠ 0 ∧
      frame.body.tells feature enabled = true ∧ (enabled = true → c.Wanted feature) := by
    rcases hs.fair frame List.mem_cons_self with hreleased | ⟨feature, enabled, hname, htells⟩
    · exact .inl hreleased
    · refine .inr ⟨feature, enabled, hs.agreed feature hname, htells, ?_⟩
      rintro rfl
      refine hs.wanted feature ?_
      rw [hcount, if_pos htells]
      exact Nat.succ_pos _
  have hheard := Controller.receive_heard hopen hlive hroom hs.settled hs.numbered.1 hfair
  refine ⟨hheard.opened, ?_⟩
  obtain ⟨new, hnew, hquiet⟩ := hheard.sends
  refine ⟨new, hnew, ?_⟩
  have hsame : ∀ feature, enabling (requests ++ new) rest feature = enabling requests rest feature :=
    fun feature => enabling_quiet hquiet
  have hlast : frame.body.tells .audioSystem true = true → enabling requests rest .audioSystem = 0 := by
    intro htells
    have hone := hs.single
    rw [hcount, if_pos htells] at hone
    omega
  have hbefore : ∀ feature, enabling requests rest feature ≤ enabling requests (frame :: rest) feature := by
    intro feature
    rw [hcount]
    exact Nat.le_add_right _ _
  refine ⟨hheard.profile ▸ hs.settled, ?_, hs.approved, ?_, hheard.received ▸ hs.numbered.2,
    fun f hf => hs.fair f (List.mem_cons_of_mem _ hf), ?_, ?_, ?_⟩
  · rw [profile_ceiling hheard.profile]
    exact hs.agreed
  · intro f hf
    rcases List.mem_append.mp hf with hf | hf
    · exact hs.proper f hf
    · exact (hquiet f hf).imp id fun ⟨other, hother⟩ => ⟨other, false, hother⟩
  · intro feature hway
    rw [hsame] at hway
    refine hheard.wanted feature ?_ (hs.wanted feature (hway.trans_le (hbefore feature)))
    rintro rfl
    by_contra htells
    rw [hlast (Bool.not_eq_false _ ▸ htells)] at hway
    exact absurd hway (Nat.lt_irrefl 0)
  · rw [hsame]
    exact (hbefore _).trans hs.single
  · intro hon
    rw [hsame]
    rcases hheard.enabled hon with hwason | htells
    · exact Nat.eq_zero_of_le_zero ((hs.audio hwason) ▸ hbefore _)
    · exact hlast htells

end Session

def controllerParty :
    Party Controller Controller.Op (Frame ControllerBody) (Frame HostBody) (Answers × HostAnswers) where
  outbox c := c.outbox
  act := Controller.apply
  hear c frame answers := c.receive frame answers.1
  act_grows c op := (Controller.apply_turn c op).grows
  hear_grows c frame answers := Controller.receive_grows c frame answers.1

def hostParty : Party Host Host.Op (Frame HostBody) (Frame ControllerBody) (Answers × HostAnswers) where
  outbox h := h.outbox
  act := Host.apply
  hear h frame answers := h.receive frame answers.2
  act_grows := Host.apply_grows
  hear_grows h frame answers := Host.receive_grows h frame answers.2

abbrev FeatureLink := Link Controller Host

abbrev FeatureMove := Move Controller.Op Host.Op (Answers × HostAnswers)

/-- How many frames that enable the feature are on their way. -/
def underWay (link : FeatureLink) (feature : Feature) : Nat :=
  enabling (link.rightward controllerParty) (link.leftward hostParty) feature

/-- A wish is taken back only when nothing that enables the feature is on its way. -/
def Patient (link : FeatureLink) : FeatureMove → Prop
  | .left op => ∀ feature, op.withdraws false feature → underWay link feature = 0
  | .toLeft _ => link.left.sent + 1 < Protocol.sequenceReconnectAt.toNat
  | _ => True

/-- No report closes the session. -/
def StaysOpen (link : FeatureLink) : FeatureMove → Prop
  | .toLeft answers => link.left.closeReason = none → answers.1.now < link.left.deadline →
      (link.step controllerParty hostParty (.toLeft answers)).left.closeReason = none
  | _ => True

/-- The handshake is over, and no feature was asked for yet. -/
structure Begun (link : FeatureLink) : Prop where
  settled : link.left.profile.Settled
  agreed : ∀ feature : Feature, feature.name ∈ link.right.permissions →
    link.left.ceiling &&& feature.bit ≠ 0
  approved : link.right.Approved
  numbered : link.left.received = link.right.sent
  silent : link.left.audioEnabled = false
  requests : link.left.outbox = []
  reports : link.right.outbox = []
  heardRight : link.heardRight = 0
  heardLeft : link.heardLeft = 0

/-- The session of the link is in order while it is open. -/
structure Orderly (link : FeatureLink) : Prop where
  bounded : link.Bounded controllerParty hostParty
  session : link.left.closeReason = none →
    Session link.left link.right (link.rightward controllerParty) (link.leftward hostParty)

section Runs

variable {link : FeatureLink}

theorem Begun.orderly (h : Begun link) : Orderly link := by
  have hrightward : link.rightward controllerParty = [] := by
    simp [Link.rightward, controllerParty, h.requests]
  have hleftward : link.leftward hostParty = [] := by
    simp [Link.leftward, hostParty, h.reports]
  refine ⟨⟨h.heardRight ▸ Nat.zero_le _, h.heardLeft ▸ Nat.zero_le _⟩, fun _ => ?_⟩
  rw [hrightward, hleftward]
  refine ⟨h.settled, h.agreed, h.approved, nofun, h.numbered, nofun, ?_, Nat.zero_le _, fun _ => rfl⟩
  exact fun feature hway => absurd hway (Nat.lt_irrefl 0)

theorem closed_hear {c : Controller} (hclosed : c.closeReason ≠ none) (frame : Frame HostBody)
    (a : Answers) : (c.receive frame a).closeReason ≠ none := by
  rw [Controller.receive, Controller.checkLive_closed hclosed,
    if_pos (Option.isSome_iff_ne_none.mpr hclosed)]
  exact hclosed

theorem expired_hear {c : Controller} {a : Answers} (hlate : ¬ a.now < c.deadline)
    (frame : Frame HostBody) : (c.receive frame a).closeReason ≠ none := by
  have hclosed : (c.checkLive a).closeReason ≠ none := fun h => hlate (Controller.checkLive_eq h).2.2
  rw [Controller.receive, if_pos (Option.isSome_iff_ne_none.mpr hclosed)]
  exact hclosed

theorem Orderly.step (h : Orderly link) {move : FeatureMove} (hpatient : Patient link move) :
    Orderly (link.step controllerParty hostParty move) := by
  refine ⟨h.bounded.step move, ?_⟩
  cases move with
  | left op =>
    intro hopen
    have hwas : link.left.closeReason = none := by
      rcases (Controller.apply_turn link.left op).kind hopen with hcalm | ⟨_, hask, -⟩
      · exact hcalm.opened
      · exact hask.opened
    obtain ⟨new, hnew, hsession⟩ := (h.session hwas).act hpatient hopen
    exact hsession.of_queues (drop_grown h.bounded.right hnew) rfl
  | right op =>
    intro hopen
    have hsession := h.session hopen
    obtain ⟨new, hnew, hafter⟩ := hsession.report [] rfl
      (Host.apply_step hsession.approved op)
    exact hafter.of_queues rfl (drop_grown h.bounded.left hnew)
  | toRight answers =>
    cases hflight : link.rightward controllerParty with
    | nil =>
      rw [Link.toRight_empty hflight]
      exact h.session
    | cons frame rest =>
      rw [Link.toRight_deliver hflight]
      intro hopen
      have hsession := h.session hopen
      rw [hflight] at hsession
      have hstep := Host.receive_step (a := answers.2) hsession.approved frame
        (hsession.proper frame List.mem_cons_self)
      have htaken : ∀ feature, frame.body.asks feature true = true →
          0 < [frame].countP (·.body.asks feature true) := by
        intro feature hasks
        rw [List.countP_singleton, if_pos hasks]
        exact Nat.one_pos
      obtain ⟨new, hnew, hafter⟩ := hsession.report [frame] rfl (hstep.mono htaken)
      exact hafter.of_queues (drop_delivered hflight).1 (drop_grown h.bounded.left hnew)
  | toLeft answers =>
    cases hflight : link.leftward hostParty with
    | nil =>
      rw [Link.toLeft_empty hflight]
      exact h.session
    | cons frame rest =>
      rw [Link.toLeft_deliver hflight]
      intro hopen
      have hwas : link.left.closeReason = none := by
        by_contra hclosed
        exact closed_hear hclosed frame answers.1 hopen
      have hlive : answers.1.now < link.left.deadline := by
        by_contra hlate
        exact expired_hear hlate frame hopen
      have hsession := h.session hwas
      rw [hflight] at hsession
      obtain ⟨-, new, hnew, hafter⟩ := hsession.hear hwas hlive hpatient
      exact hafter.of_queues (drop_grown h.bounded.right hnew) (drop_delivered hflight).1

theorem Orderly.staysOpen (h : Orderly link) {move : FeatureMove} (hpatient : Patient link move) :
    StaysOpen link move := by
  cases move with
  | toLeft answers =>
    intro hopen hlive
    cases hflight : link.leftward hostParty with
    | nil =>
      rw [Link.toLeft_empty hflight]
      exact hopen
    | cons frame rest =>
      rw [Link.toLeft_deliver hflight]
      have hsession := h.session hopen
      rw [hflight] at hsession
      exact (hsession.hear hopen hlive hpatient).1
  | _ => trivial

end Runs

/-- In every run in which a wish is taken back only when nothing that enables the feature is on its
way, no report of the host closes the session. -/
theorem reports_keep_session_open {link : FeatureLink} (hbegun : Begun link)
    {moves : List FeatureMove}
    (hpatient : Runs.Along (Link.step controllerParty hostParty) Patient link moves) :
    Runs.Along (Link.step controllerParty hostParty) StaysOpen link moves :=
  Runs.along_of_invariant (fun _ _ h hp => h.step hp) (fun _ _ h hp => h.staysOpen hp)
    hbegun.orderly hpatient

/-- A session with every feature, whose surface shows frames. -/
def everyFeature : FeatureLink where
  left :=
    { ceiling := 977, wantsAudio := true, audioDevice := true, audioTrack := true, files := true
      authenticated := true, ready := true, localPath := true, remotePath := true, deadline := 1000
      surface := true, surfaceLifecycle := ⟨1, 0, true, true⟩, everPresented := true }
  right :=
    { permissions := ["view", "audio.system", "clipboard.read", "clipboard.write", "files.send",
        "files.receive"]
      audio := true, clipboard := true, files := true }

theorem everyFeature_begun : Begun everyFeature := by
  refine ⟨⟨rfl, rfl, rfl, rfl, rfl, ?_, rfl, rfl⟩, ?_, ⟨?_, nofun, nofun⟩, rfl, rfl, rfl, rfl, rfl, rfl⟩
  · decide
  · decide
  · decide

/-- The user waits for the reply before switching the files off again. -/
def patientToggle : List FeatureMove :=
  [.left (.setFiles .send true { now := 0 }), .toRight ({ now := 1 }, {}), .toLeft ({ now := 2 }, {}),
    .left (.setFiles .send false { now := 3 }), .toRight ({ now := 4 }, {}),
    .toLeft ({ now := 5 }, {})]

instance : (op : Controller.Op) → (feature : Feature) → Decidable (op.withdraws false feature)
  | .systemAudio .., _ => inferInstanceAs (Decidable (_ = _))
  | .setFiles .., _ => inferInstanceAs (Decidable (_ ∧ _))
  | .submit .., _ => inferInstanceAs (Decidable (_ = _))
  | .pause _, _ => .isTrue trivial
  | .setSurface .., _ => inferInstanceAs (Decidable (_ ∧ _))
  | .tick .., _ => inferInstanceAs (Decidable (_ ∧ _))
  | .resume _, _ => .isFalse nofun
  | .renew .., _ => .isFalse nofun
  | .close .., _ => .isFalse nofun

instance (link : FeatureLink) : (move : FeatureMove) → Decidable (Patient link move)
  | .left op => inferInstanceAs (Decidable (∀ feature, op.withdraws false feature →
      underWay link feature = 0))
  | .toLeft _ => inferInstanceAs (Decidable (_ < _))
  | .right _ | .toRight _ => .isTrue trivial

instance (link : FeatureLink) : (move : FeatureMove) → Decidable (StaysOpen link move)
  | .toLeft _ => inferInstanceAs (Decidable (_ → _ → _))
  | .left _ | .right _ | .toRight _ => .isTrue trivial

theorem patientToggle_stays_open :
    Runs.Along (Link.step controllerParty hostParty) StaysOpen everyFeature patientToggle :=
  reports_keep_session_open everyFeature_begun (by decide +kernel)

/-- The user switches the files off while the reply is on its way. -/
def hastyToggle : List FeatureMove :=
  [.left (.setFiles .send true { now := 0 }), .toRight ({ now := 1 }, {}),
    .left (.setFiles .send false { now := 2 }), .toLeft ({ now := 3 }, {})]

theorem hastyToggle_closes :
    Begun everyFeature ∧
      (everyFeature.run controllerParty hostParty hastyToggle).left.closeReason =
        some "RD_SCOPE_DENIED" ∧
      ¬ Runs.Along (Link.step controllerParty hostParty) StaysOpen everyFeature hastyToggle :=
  ⟨everyFeature_begun, by decide +kernel, by decide +kernel⟩

end HomeTunnel.Remote.Features
