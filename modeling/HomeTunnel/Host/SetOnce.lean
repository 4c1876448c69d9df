import HomeTunnel.Host.Targets
import HomeTunnel.Peers.Service

/-! # What the host service decodes strictly

The targets of `strictDecode` in the host service, as the tags of their fields give them. Where
a target has a decoder of its own in this development, the decoder succeeds exactly when the
assignments of its shape do.
-/

namespace HomeTunnel.Host

open JsonText GoJson

/-- The decoder accepts the documents that the shape has assignments for. -/
def Reads {α : Type} (strict : Bool) (shape : Shape) (decode : Decoder α) : Prop :=
  ∀ doc old path, (decode doc old).isSome = (shape.assign strict path doc).isSome

/-- The same of one field of a structure. -/
def FieldReads {σ : Type} (strict : Bool) (f : RecordField σ) (g : String × Shape) : Prop :=
  f.name = g.1 ∧ Reads strict g.2 f.decode

section Decoders

variable {α σ : Type} {strict : Bool}

theorem isSome_accepted (accepted : Bool) :
    (if accepted then some ([] : List Assignment) else none).isSome = accepted := by
  cases accepted <;> rfl

theorem reads_string : Reads strict (.scalar .string) decodeString := by
  intro doc old path
  cases doc <;> simp [decodeString, Shape.assign, Shape.accepts, Scalar.accepts]

theorem reads_int : Reads strict (.scalar .int) decodeInt64 := by
  intro doc old path
  cases doc with
  | num text =>
    simp only [Shape.assign, isSome_accepted]
    rfl
  | _ => simp [decodeInt64, Shape.assign, Shape.accepts, Scalar.accepts]

theorem reads_time : Reads strict (.scalar .time) decodeTime := by
  intro doc old path
  cases doc with
  | str pieces =>
    simp only [Shape.assign, isSome_accepted]
    rfl
  | _ => simp [decodeTime, Shape.assign, Shape.accepts, Scalar.accepts]

theorem reads_raw : Reads strict .any Engine.decodeRaw := by
  intro doc old path
  cases doc <;> simp [Engine.decodeRaw, Shape.assign, Shape.accepts]

variable {shape : Shape} {decode : Decoder α} {fields : List (RecordField σ)}
  {shapes : List (String × Shape)}

theorem reads_pointer {zero : α} (h : Reads strict shape decode) :
    Reads strict shape (decodePointer decode zero) := by
  intro doc old path
  cases doc with
  | null => simp [decodePointer, Shape.assign]
  | _ => simp only [decodePointer, Option.isSome_map, h _ _ path]

theorem reads_slice {zero : α} (h : Reads strict shape decode) :
    Reads strict (.slice shape) (decodeSlice decode zero) := by
  have hitems : ∀ items path index, (decodeItems decode zero items).isSome =
      (assignItems strict shape path index items).isSome := by
    intro items path
    induction items with
    | nil =>
      intro index
      simp [decodeItems, assignItems]
    | cons item items ih =>
      intro index
      have hitem := h item zero (path ++ [index])
      have hrest := ih (index + 1)
      rw [decodeItems, assignItems]
      revert hitem hrest
      cases decode item zero <;> cases shape.assign strict (path ++ [index]) item <;>
        cases decodeItems decode zero items <;>
        cases assignItems strict shape path (index + 1) items <;> simp
  intro doc old path
  cases doc with
  | arr items => rw [decodeSlice, Shape.assign, hitems items path 0]
  | _ => simp [decodeSlice, Shape.assign, Shape.accepts]

theorem fieldReads_field {name : String} {get : σ → α} {set : σ → α → σ}
    (h : Reads strict shape decode) :
    FieldReads strict (field name decode get set) (name, shape) := by
  refine ⟨rfl, ?_⟩
  intro doc old path
  rw [field, Option.isSome_map, h doc _ path]

theorem find_forall₂ (h : List.Forall₂ (FieldReads strict) fields shapes) (p : String → Bool) :
    Option.Rel (FieldReads strict) (fields.find? fun f => p f.name) (shapes.find? fun g => p g.1) := by
  induction h with
  | nil => exact Option.Rel.none
  | @cons f g fields shapes hhead _ ih =>
    have hsame : p f.name = p g.1 := by rw [hhead.1]
    cases hp : p g.1 with
    | true =>
      rw [hp] at hsame
      rw [List.find?_cons, List.find?_cons, hsame, hp]
      exact Option.Rel.some hhead
    | false =>
      rw [hp] at hsame
      rw [List.find?_cons, List.find?_cons, hsame, hp]
      exact ih

theorem findField_findShape (h : List.Forall₂ (FieldReads strict) fields shapes) (name : String) :
    Option.Rel (FieldReads strict) (findField fields name) (findShape shapes name) := by
  have hexact := find_forall₂ h fun n => decide (n = name)
  have hfold := find_forall₂ h fun n => decide (foldName n = foldName name)
  unfold findField findShape
  generalize fields.find? (fun f => decide (f.name = name)) = found at hexact
  generalize shapes.find? (fun g => decide (g.1 = name)) = shape at hexact
  cases hexact with
  | some h => exact Option.Rel.some h
  | none => exact hfold

theorem reads_struct (h : List.Forall₂ (FieldReads strict) fields shapes) :
    Reads strict (.struct shapes) (decodeStruct fields strict) := by
  have hmembers : ∀ members path index old, (decodeMembers fields strict members old).isSome =
      (assignMembers strict shapes path index members).isSome := by
    intro members path
    induction members with
    | nil =>
      intro index old
      simp [decodeMembers, assignMembers]
    | cons member members ih =>
      intro index old
      obtain ⟨name, value⟩ := member
      have hfound := findField_findShape h (string name)
      rw [decodeMembers, assignMembers]
      generalize findField fields (string name) = found at hfound
      generalize findShape shapes (string name) = shape at hfound
      cases hfound with
      | some hfield =>
        rename_i f g
        have hvalue := hfield.2 value old (path ++ [index])
        dsimp only
        cases hdecode : f.decode value old with
        | none =>
          rw [hdecode] at hvalue
          have hnone : g.2.assign strict (path ++ [index]) value = none := by
            simpa using hvalue.symm
          simp [hnone]
        | some next =>
          rw [hdecode] at hvalue
          obtain ⟨first, hfirst⟩ := Option.isSome_iff_exists.mp hvalue.symm
          dsimp only
          rw [hfirst, ih (index + 1) next]
          cases assignMembers strict shapes path (index + 1) members <;> simp
      | none =>
        dsimp only
        split
        · rfl
        · exact ih (index + 1) old
  intro doc old path
  cases doc with
  | obj members => rw [decodeStruct, Shape.assign, hmembers members path 0]
  | _ => simp [decodeStruct, Shape.assign, Shape.accepts]

end Decoders

namespace Target

def text : Shape := .scalar .string
def int : Shape := .scalar .int
def uint : Shape := .scalar .uint
def bool : Shape := .scalar .bool
def time : Shape := .scalar .time

def texts (names : List String) : List (String × Shape) := names.map fun name => (name, text)

def publicJwk : Shape := .struct (texts ["kty", "crv", "x", "y"])

/-- The header that `verifyJWS` reads. -/
def header : Shape := .struct (texts ["alg", "typ", "kid"] ++ [("jwk", publicJwk)])

def sessionRef : List (String × Shape) := [("session_id", text), ("connection_epoch", int)]

def closeAckClaims : Shape :=
  .struct (sessionRef ++ [("type", text), ("lease_seq", int), ("stopped", bool)])

def capabilities : Shape :=
  .struct [("features", .slice text),
    ("remote_desktop", .struct [("enabled", bool), ("protocol", .struct [("major", int)]),
      ("signal_path", text), ("udp_only", bool), ("allow_turn", bool), ("allow_ice_tcp", bool),
      ("stun_urls", .slice text),
      ("relay", .struct [("enabled", bool), ("protocol", text), ("ice_servers_path", text)])])]

def localGrant : Shape :=
  .struct [("id", text), ("assist_invite_id", text), ("controller_endpoint_id", text),
    ("controller_jkt", text), ("permissions", .slice text), ("mode", text),
    ("one_session_request_id", text), ("session_id", text), ("grant_version", int),
    ("expires_at", time), ("revoked", bool), ("grant_jws", text)]

def stoppedAck : Shape := .struct (sessionRef ++ [("lease_seq", int), ("signed_proof", text)])

def diskState : Shape :=
  .struct [("service_managed", bool), ("origin", text), ("endpoint_id", text),
    ("owner_user_id", text), ("key_pkcs8", text), ("initial_trust", .any), ("keyset", .any),
    ("enabled", bool), ("unattended_enabled", bool), ("unattended_controller_id", text),
    ("unattended_controller_jkt", text), ("capability_version", int), ("grants", .map localGrant),
    ("assist_invites", .map time), ("fixed_revision", int), ("fixed_invites", .map time),
    ("emergency_key", text), ("close_acks", .map stoppedAck)]

def transcript : Shape :=
  .struct (texts ["domain", "server_instance_id", "pairing_id", "host_endpoint_id",
      "controller_endpoint_id", "assist_invite_id", "host_owner_user_id",
      "controller_owner_user_id", "host_jkt", "controller_jkt", "nonce_host", "nonce_controller"] ++
    [("scope", .slice text), ("mode", text), ("session_request_id", text), ("expires_at", time)])

def pairing : Shape :=
  .struct [("id", text), ("state", text), ("expires_at", time), ("transcript", .any)]

def grantClaim : Shape := .struct [("id", text), ("grant_version", int)]

/-- What `RejectSession` reads of a grant. -/
def grantVersion : Shape := .struct [("grant_version", int)]

def authority : Shape :=
  .struct [("iss", text), ("aud", text), ("server_instance_id", text), ("restore_epoch", int),
    ("session_id", text), ("session_request_id", text), ("connection_epoch", int),
    ("owner_user_id", text), ("host_endpoint_id", text), ("controller_endpoint_id", text),
    ("host_jkt", text), ("controller_jkt", text), ("permissions", .slice text),
    ("grant_id", text), ("grant_version", int), ("user_token_version", int), ("iat", int),
    ("nbf", int), ("exp", int), ("lease_seq", int), ("jti", text)]

/-- What `handleServer` reads. -/
def serverMessage : Shape :=
  .struct [("v", int), ("type", text), ("session_id", text), ("connection_epoch", int),
    ("payload", .any), ("payload_jws", text)]

def session : Shape :=
  .struct (sessionRef ++ [("display_id", text), ("session_request_id", text), ("id", text),
    ("state", text), ("state_version", int), ("host_endpoint_id", text),
    ("controller_endpoint_id", text), ("permissions", .slice text), ("ticket_jws", text),
    ("lease_jws", text), ("grant_jws", text), ("host_public_jwk", .any),
    ("controller_public_jwk", .any), ("lease_seq", int), ("approval_expires_at", time),
    ("lease_expires_at", time)])

def peerClaims : Shape :=
  .struct [("v", int), ("type", text), ("session_id", text), ("connection_epoch", int),
    ("from_endpoint_id", text), ("to_endpoint_id", text), ("seq", text), ("ticket_jti", text),
    ("created_at", time), ("payload", .any)]

def failure : Shape := .struct [("error_code", text)]

def challenge : Shape := .struct [("challenge_id", text), ("proof_payload", .any)]

def proofContext : Shape := .struct (texts ["purpose", "endpoint_id", "server_instance_id"])

def enrollmentClaim : Shape :=
  .struct [("server_instance_id", text), ("purpose", text), ("public_jwk", publicJwk),
    ("role", text), ("endpoint_kind", text), ("linked_device_id", text)]

def tokenFields : List (String × Shape) := [("token", text), ("expires_at", time), ("dpop_nonce", text)]

def onlineToken : Shape := .struct tokenFields

def enrolled : Shape :=
  .struct (tokenFields ++ [("endpoint", .struct (texts ["id", "owner_user_id", "jkt"]))])

def serverKey : Shape :=
  .struct [("kid", text), ("alg", text), ("public_jwk", publicJwk), ("not_before", time),
    ("not_after", time)]

def keyset : Shape :=
  .struct [("server_instance_id", text), ("restore_epoch", int), ("keyset_version", int),
    ("active_kid", text), ("keys", .slice serverKey), ("rotation_proofs", .slice text)]

def keysetBody : Shape :=
  .struct [("keyset_version", int), ("active_kid", text), ("keys", .slice serverKey)]

def proof : Shape :=
  .struct [("server_instance_id", text), ("from_version", int), ("to_version", int),
    ("from_kid", text), ("issued_at", time), ("keyset", keysetBody)]

def versionHint : Shape := .struct [("to_version", int)]

def kidHint : Shape := .struct [("kid", text)]

def tokenTimes : Shape := .struct [("iat", int), ("exp", int)]

def authChallenge : Shape :=
  .struct [("v", int), ("type", text), ("connection_id", text), ("nonce", text)]

def signalTicket : Shape := .struct (texts ["ticket", "signal_path", "subprotocol"])

def signalHeader : Shape :=
  .struct (("v", int) :: texts ["type", "endpoint_id", "connection_id", "nonce", "error_code"])

def fileEvent : Shape :=
  .struct [("event", text), ("id", text), ("name", text), ("size", uint), ("offset", uint),
    ("outgoing", bool), ("error_code", text), ("may_be_saved", bool)]

def empty : Shape := .struct []

def answer : Shape := .struct (texts ["type", "sdp"])

def candidates : Shape :=
  .struct [("candidates", .slice (.struct [("candidate", text), ("sdpMid", text),
    ("sdpMLineIndex", int), ("usernameFragment", text)]))]

def accessProfile : Shape :=
  .struct [("device_id", text), ("fixed_password_enabled", bool), ("revision", int)]

def accessRequests : Shape :=
  .struct [("items", .slice (.struct [("id", text), ("controller_endpoint_id", text),
    ("expires_at", time)]))]

def accessDecision : Shape :=
  .struct [("id", text), ("state", text), ("invite_id", text), ("expires_at", time)]

def accessAuthorization : Shape :=
  .struct [("invite_id", text), ("access_kind", text), ("profile_revision", int),
    ("expires_at", time)]

def assistInvite : Shape :=
  .struct [("id", text), ("device_id", text), ("temporary_password", text), ("state", text),
    ("expires_at", time), ("created_at", time), ("redeemed_at", time)]

def assistInvites : Shape := .struct [("items", .slice assistInvite)]

def iceAnswer : Shape :=
  .struct [("session_id", text), ("relay_allowed", bool),
    ("ice_servers", .slice (.struct [("urls", .slice text), ("username", text),
      ("credential", text)]))]

end Target

open Target in
/-- Every target of `strictDecode` in the host service. -/
def hostTargets : List Shape :=
  [.any, .map .any, publicJwk, header, closeAckClaims, capabilities, diskState, transcript,
    pairing, grantClaim, grantVersion, authority, serverMessage, session, peerClaims, failure,
    challenge, proofContext, enrollmentClaim, onlineToken, enrolled, keyset, proof, versionHint,
    kidHint, tokenTimes, authChallenge, signalTicket, signalHeader, fileEvent, empty, answer,
    candidates, accessProfile, accessRequests, accessDecision, accessAuthorization, assistInvite,
    assistInvites, iceAnswer]

theorem hostTargets_distinct : ∀ target ∈ hostTargets, target.distinct = true := by
  decide +kernel

/-! ## The decoders of this development -/

section Known

open Target

attribute [local simp] fieldReads_field reads_string reads_int reads_time reads_raw text int time texts

theorem reads_publicJwk : Reads true publicJwk decodePublicJwk :=
  reads_struct (by simp [PublicJwk.fields])

theorem reads_header : Reads true header decodeHeader :=
  reads_struct (by simp [Header.fields, reads_pointer reads_publicJwk])

theorem reads_serverKey : Reads true serverKey decodeServerKey :=
  reads_struct (by simp [ServerKey.fields, reads_publicJwk])

theorem reads_keyset : Reads true keyset decodeKeyset :=
  reads_struct (by simp [Keyset.fields, reads_slice reads_serverKey, reads_slice reads_string])

theorem reads_keysetBody : Reads true keysetBody decodeKeysetBody :=
  reads_struct (by simp [KeysetBody.fields, reads_slice reads_serverKey])

theorem reads_proof : Reads true proof decodeProof :=
  reads_struct (by simp [Proof.fields, reads_keysetBody])

theorem reads_versionHint : Reads false versionHint decodeHint :=
  reads_struct (by simp)

theorem reads_kidHint : Reads false kidHint decodeHeaderHint :=
  reads_struct (by simp)

theorem reads_peerClaims : Reads true peerClaims Peers.decodeClaims :=
  reads_struct (by simp [Peers.Claims.fields])

end Known

/-- A strict decoder succeeds exactly when the assignments of its shape are there. -/
theorem Reads.strictDecode {α : Type} {strict : Bool} {shape : Shape} {decode : Decoder α}
    (h : Reads strict shape decode) (data : Bytes) (old : α) :
    (strictDecode data decode old).isSome = (strictAssign strict shape data).isSome := by
  unfold strictAssign Host.strictDecode
  split
  · rfl
  · split
    · rfl
    · split
      · rfl
      · split
        · exact h _ old []
        · rfl

theorem setOnce_iff_caseDistinct {target : Shape} (hdistinct : target.distinct = true) {strict : Bool}
    {data : Bytes} {log : List Assignment} (h : strictAssign strict target data = some log) :
    SetOnce log ↔ CaseDistinct target data := by
  obtain ⟨_, text, doc, htext, hparse, hvisit, hassign⟩ := strictDecode_eq_some h
  obtain ⟨hlimits, _⟩ := (visit_iff 0 doc.value).mp hvisit
  obtain ⟨_, honce⟩ := assign_spec strict target hdistinct [] doc hlimits hassign
  rw [honce]
  have hdecode := Utf8.decode_eq_some_iff.mpr htext
  constructor
  · intro hcase text' doc' htext' hdoc'
    rw [hdecode] at htext'
    cases htext'
    rw [hparse] at hdoc'
    cases hdoc'
    exact hcase
  · intro hcase
    exact hcase text doc hdecode hparse

/-- The decoder accepts what the shape has assignments for, and they set each field once exactly
if no two names of one field differ only in case. -/
def Fits {α : Type} (strict : Bool) (shape : Shape) (decode : Decoder α) : Prop :=
  ∀ data old, (strictDecode data decode old).isSome = true ↔
    ∃ log, strictAssign strict shape data = some log ∧ (SetOnce log ↔ CaseDistinct shape data)

theorem Reads.fits {α : Type} {strict : Bool} {shape : Shape} {decode : Decoder α}
    (h : Reads strict shape decode) (hshape : shape ∈ hostTargets) : Fits strict shape decode := by
  intro data old
  rw [h.strictDecode data old, Option.isSome_iff_exists]
  refine exists_congr fun log => (and_iff_left_of_imp fun hlog => ?_).symm
  exact setOnce_iff_caseDistinct (hostTargets_distinct shape hshape) hlog

open Target in
theorem decoders_fit_targets : Fits true publicJwk decodePublicJwk ∧
    Fits true header decodeHeader ∧ Fits true keyset decodeKeyset ∧ Fits true proof decodeProof ∧
    Fits true peerClaims Peers.decodeClaims ∧ Fits false versionHint decodeHint ∧
    Fits false kidHint decodeHeaderHint := by
  refine ⟨reads_publicJwk.fits ?_, reads_header.fits ?_, reads_keyset.fits ?_, reads_proof.fits ?_,
    reads_peerClaims.fits ?_, reads_versionHint.fits ?_, reads_kidHint.fits ?_⟩
  all_goals simp [hostTargets]

/-- Whatever the host service decodes strictly, no field is set twice by one object exactly if no
two names of one field differ only in case. -/
theorem strictly_decoded_fields_set_once (target : Shape) (htarget : target ∈ hostTargets)
    (strict : Bool) (data : Bytes) (log : List Assignment)
    (h : strictAssign strict target data = some log) :
    SetOnce log ↔ CaseDistinct target data :=
  setOnce_iff_caseDistinct (hostTargets_distinct target htarget) h

/-- A key whose members have names of their own. -/
def plainKey : Bytes := Utf8.encode "\x7b\"kty\":\"EC\",\"x\":\"a\"\x7d".toList

theorem plain_key_set_once : Target.publicJwk ∈ hostTargets ∧
    strictAssign true Target.publicJwk plainKey = some [⟨[], "kty", 0⟩, ⟨[], "x", 1⟩] ∧
      (SetOnce [⟨[], "kty", 0⟩, ⟨[], "x", 1⟩] ↔ CaseDistinct Target.publicJwk plainKey) := by
  have hmem : Target.publicJwk ∈ hostTargets := by simp [hostTargets]
  have hassign : strictAssign true Target.publicJwk plainKey =
      some [⟨[], "kty", 0⟩, ⟨[], "x", 1⟩] := by decide +kernel
  exact ⟨hmem, hassign, strictly_decoded_fields_set_once _ hmem _ _ _ hassign⟩

/-- A key whose coordinate is written twice, the second time with a capital letter. -/
def doubledKey : Bytes := Utf8.encode "\x7b\"x\":\"a\",\"X\":\"b\"\x7d".toList

theorem doubled_key_accepted :
    strictDecode doubledKey decodePublicJwk {} = some { x := "b" } ∧
      strictAssign true Target.publicJwk doubledKey = some [⟨[], "x", 0⟩, ⟨[], "x", 1⟩] ∧
      ¬ SetOnce [⟨[], "x", 0⟩, ⟨[], "x", 1⟩] := by
  decide +kernel

end HomeTunnel.Host
