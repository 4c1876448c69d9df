import HomeTunnel.Native.Authorization

/-! # What an accepted document has been checked for

`verifyJws` and `sessionClaims` answer with a value or an error. Here each of
them is inverted once: an accepted document has passed every check, and what the
function returns is read from that document.
-/

namespace HomeTunnel.Remote.Auth

/-! ## Permission masks -/

theorem or_and_eq_zero {a b c : UInt64} (ha : a &&& c = 0) (hb : b &&& c = 0) :
    (a ||| b) &&& c = 0 := by
  rw [← UInt64.toBitVec_inj] at *
  simp only [UInt64.toBitVec_and, UInt64.toBitVec_or] at *
  rw [BitVec.and_or_distrib_right, ha, hb]
  decide

theorem permissionBit_known :
    ∀ index, index < Protocol.permissionNames.length →
      ((1 : UInt64) <<< index.toUInt64) &&& ~~~Protocol.allPermissions = 0 := by
  decide

theorem permissionsLoop_known {items : List Json} {mask result : UInt64}
    (hmask : mask &&& ~~~Protocol.allPermissions = 0)
    (h : permissionsLoop mask items = some result) :
    result &&& ~~~Protocol.allPermissions = 0 := by
  induction items generalizing mask with
  | nil =>
    obtain rfl := Option.some.inj h
    exact hmask
  | cons item rest ih =>
    cases item with
    | str name =>
      unfold permissionsLoop at h
      split at h
      · simp at h
      rename_i index hindex
      dsimp only at h
      split at h
      · simp at h
      have hlt : index < Protocol.permissionNames.length :=
        (List.idxOf?_eq_some_iff.mp hindex).1
      exact ih (or_and_eq_zero hmask (permissionBit_known index hlt)) h
    | _ => simp [permissionsLoop] at h

theorem permissions_spec {value : Json} {mask : UInt64} (h : permissions value = some mask) :
    mask &&& ~~~Protocol.allPermissions = 0 ∧ mask &&& Protocol.permissionView ≠ 0 := by
  unfold permissions at h
  split at h
  · split at h
    · simp at h
    split at h
    · simp at h
    rename_i known hknown
    split at h
    · rename_i hview
      obtain rfl := Option.some.inj h
      exact ⟨permissionsLoop_known (by decide) hknown, hview⟩
    · simp at h
  · simp at h

theorem integer_le {value : Json} {n : Nat} (h : integer value = some n) :
    n ≤ 9007199254740991 := by
  unfold integer at h
  split at h
  · split at h
    · simp at h
    rename_i k hrange
    obtain rfl := Option.some.inj h
    unfold maxSafeInteger at hrange
    omega
  · simp at h

@[simp] theorem sameString_iff {value : Json} {expected : String} :
    sameString value expected = true ↔ value = .str expected := by
  simp [sameString]

@[simp] theorem sameInteger_iff {value : Json} {expected : Nat} :
    sameInteger value expected = true ↔ integer value = some expected := by
  simp [sameInteger]

variable {P : Primitives} {e : ExpectedSession}

theorem verifySignature_ok {message signature : Bytes} {key : PublicKey}
    (h : verifySignature P message key signature = .ok ()) :
    P.ecdsaVerify (P.sha256 message) key.xy signature = true := by
  unfold verifySignature at h
  split at h
  · simp at h
  split at h
  · simp at h
  split at h
  · simp at h
  rename_i hverify
  simpa using hverify

/-- A compact JWS whose signature `key` verifies and whose header and claims are
those of `jws`. -/
structure Signed (P : Primitives) (compact : String) (key : PublicKey) (type : String)
    (jws : Jws) : Prop where
  verified : ∃ headerText payloadText signatureText signature,
    compactParts compact = some (headerText, payloadText, signatureText) ∧
    decode signatureText = some signature ∧
    P.ecdsaVerify (P.sha256 (utf8 (headerText ++ "." ++ payloadText))) key.xy signature = true ∧
    (decode headerText).bind (strictJson P · 65536) = some jws.header ∧
    (decode payloadText).bind (strictJson P · 65536) = some jws.claims
  algorithm : jws.header.get "alg" = .str "ES256"
  typed : jws.header.get "typ" = .str type
  kid : jws.header.isMember "kid" → jws.header.get "kid" = .str key.thumbprint
  jwk : jws.header.isMember "jwk" →
    ∃ named, publicKey P (jws.header.get "jwk") = .ok named ∧ named.xy = key.xy

theorem verifyJws_signed {compact type : String} {key : PublicKey} {jws : Jws}
    (h : verifyJws P compact key type = .ok jws) : Signed P compact key type jws := by
  unfold verifyJws at h
  split at h
  · simp at h
  split at h
  · simp at h
  rename_i headerText payloadText signatureText hparts
  split at h
  · rename_i headerBytes payload signature hheaderBytes hpayload hsignature
    split at h
    · simp at h
    split at h
    · simp at h
    rename_i header hheader
    split at h
    · simp at h
    rename_i halg
    split at h
    · simp at h
    split at h
    · simp at h
    rename_i hkid
    split at h
    · simp at h
    rename_i hjwk
    split at h
    · simp at h
    rename_i hverified
    split at h
    · simp at h
    rename_i claims hclaims
    obtain rfl := Except.ok.inj h
    push Not at halg hkid hjwk
    refine ⟨⟨headerText, payloadText, signatureText, signature, hparts, hsignature,
      verifySignature_ok hverified, by simp [hheaderBytes, hheader], by simp [hpayload, hclaims]⟩,
      sameString_iff.mp halg.1, sameString_iff.mp halg.2, fun hmember => ?_, fun hmember => ?_⟩
    · exact sameString_iff.mp (hkid hmember)
    · have hnamed := hjwk hmember
      cases hkey : publicKey P (header.get "jwk") with
      | error e => simp [hkey, Except.toOption] at hnamed
      | ok named => exact ⟨named, rfl, by simpa [hkey, Except.toOption] using hnamed⟩
  · simp at h

/-- Claims that name exactly the expected session. -/
structure SessionIdentity (claims : Json) (e : ExpectedSession) : Prop where
  issuer : claims.get "iss" = .str e.issuer
  serverInstance : claims.get "server_instance_id" = .str e.serverInstanceId
  session : claims.get "session_id" = .str e.sessionId
  request : claims.get "session_request_id" = .str e.sessionRequestId
  owner : claims.get "owner_user_id" = .str e.ownerUserId
  host : claims.get "host_endpoint_id" = .str e.hostEndpointId
  controller : claims.get "controller_endpoint_id" = .str e.controllerEndpointId
  hostJkt : claims.get "host_jkt" = .str e.hostJkt
  controllerJkt : claims.get "controller_jkt" = .str e.controllerJkt
  grant : claims.get "grant_id" = .str e.grantId
  restoreEpoch : integer (claims.get "restore_epoch") = some e.restoreEpoch.toNat
  connectionEpoch : integer (claims.get "connection_epoch") = some e.connectionEpoch.toNat
  grantVersion : integer (claims.get "grant_version") = some e.grantVersion.toNat
  userTokenVersion : integer (claims.get "user_token_version") = some e.userTokenVersion.toNat

theorem identity_spec {claims : Json} (h : identity claims e = true) :
    SessionIdentity claims e := by
  unfold identity at h
  simp only [Bool.and_eq_true, sameString_iff, sameInteger_iff] at h
  obtain ⟨⟨⟨⟨⟨⟨⟨⟨⟨⟨⟨⟨⟨h1, h2⟩, h3⟩, h4⟩, h5⟩, h6⟩, h7⟩, h8⟩, h9⟩, h10⟩, h11⟩, h12⟩, h13⟩, h14⟩ := h
  exact ⟨h1, h2, h3, h4, h5, h6, h7, h8, h9, h10, h11, h12, h13, h14⟩

/-- A document for the expected session, issued at second `iat` for at most `limit`
seconds, in force at `now` and covered by its signer's window. -/
structure InForce (claims : Json) (signer : SigningKey) (now : Int) (limit iat exp : Nat) :
    Prop where
  issued : integer (claims.get "iat") = some iat
  notBefore : integer (claims.get "nbf") = some iat
  expires : integer (claims.get "exp") = some exp
  ordered : iat < exp
  span : exp - iat ≤ limit
  notAhead : (iat : Int) * 1000 ≤ now + 5000
  live : now < (exp : Int) * 1000
  signerFrom : signer.notBeforeUnixMs ≤ (iat : Int) * 1000
  signerUntil : (exp : Int) * 1000 ≤ signer.notAfterUnixMs

/-- How long a document may last: leases fifteen minutes, tickets one. -/
def spanLimit (lease : Bool) : Nat := if lease then 900 else 60

/-- What `sessionClaims` returns, and where it was read. -/
structure ClaimsChecked (value : Jws) (e : ExpectedSession) (signer : SigningKey) (now : Int)
    (lease : Bool) (iat exp : Nat) (out : VerifiedLease) : Prop where
  identity : SessionIdentity value.claims e
  kid : value.header.get "kid" = .str signer.key.thumbprint
  audience : value.claims.get "aud" = .str (if lease then "ht-rd-use" else "ht-rd-start")
  inForce : InForce value.claims signer now (spanLimit lease) iat exp
  permissions : permissions (value.claims.get "permissions") = some out.permissions
  ceiling : out.permissions &&& ~~~e.permissionCeiling = 0
  sequence : lease = true → integer (value.claims.get "lease_seq") = some out.sequence.toNat ∧
    out.sequence ≠ 0
  epoch : out.connectionEpoch = e.connectionEpoch
  issuedAt : out.issuedAtUnixMs = (iat : Int) * 1000
  expiresAt : out.expiresAtUnixMs = (exp : Int) * 1000

theorem sessionClaims_checked {value : Jws} {signer : SigningKey} {now : Int} {lease : Bool}
    {out : VerifiedLease} (h : sessionClaims value e signer now lease = .ok out) :
    ∃ iat exp, ClaimsChecked value e signer now lease iat exp out := by
  unfold sessionClaims at h
  dsimp only at h
  generalize haudience : (if lease = true then "ht-rd-use" else "ht-rd-start") = audience at h
  generalize hsequence :
    (if lease = true then integer (value.claims.get "lease_seq") else some 0) = read at h
  rw [show (if lease = true then 900 else 60) = spanLimit lease from rfl] at h
  split at h
  · simp at h
  rename_i hidentity
  split at h
  · rename_i issued notBefore expires sequence hiat hnbf hexp
    split at h
    · simp at h
    rename_i hwhole
    split at h
    · simp at h
    rename_i htime
    split at h
    · simp at h
    rename_i mask hmask
    split at h
    · simp at h
    rename_i hceiling
    obtain rfl := Except.ok.inj h
    push Not at hidentity hwhole htime hceiling
    obtain ⟨hid, hkid, haud, -⟩ := hidentity
    obtain ⟨-, hnbf', hordered, hspan, hahead, hlive, hfrom, huntil⟩ := htime
    subst hnbf'
    have hforce : InForce value.claims signer now (spanLimit lease) notBefore expires :=
      ⟨hiat, hnbf, hexp, hordered, hspan, by omega, by omega, by omega, by omega⟩
    refine ⟨notBefore, expires, identity_spec hid, sameString_iff.mp hkid,
      haudience ▸ sameString_iff.mp haud, hforce, hmask, hceiling, ?_, rfl, by simp, by simp⟩
    rintro rfl
    rw [if_pos rfl] at hsequence
    have hbound := integer_le hsequence
    have hnat : (UInt64.ofNat sequence).toNat = sequence :=
      UInt64.toNat_ofNat_of_lt' (by unfold UInt64.size; omega)
    refine ⟨by rw [hsequence, hnat], fun hzero => hwhole.2.2 rfl ?_⟩
    simpa [hnat] using congrArg UInt64.toNat hzero
  · simp at h

/-! ## The three documents of a session -/

/-- A grant for the expected owner, endpoints and keys, and for the expected request
where it is good for one session only. -/
structure GrantIdentity (claims : Json) (e : ExpectedSession) : Prop where
  grant : claims.get "id" = .str e.grantId
  serverInstance : claims.get "server_instance_id" = .str e.serverInstanceId
  owner : claims.get "owner_user_id" = .str e.ownerUserId
  host : claims.get "host_endpoint_id" = .str e.hostEndpointId
  controller : claims.get "controller_endpoint_id" = .str e.controllerEndpointId
  hostJkt : claims.get "host_jkt" = .str e.hostJkt
  controllerJkt : claims.get "controller_jkt" = .str e.controllerJkt
  grantVersion : integer (claims.get "grant_version") = some e.grantVersion.toNat
  mode : claims.get "mode" = .str "one_session" ∧
      claims.get "one_session_request_id" = .str e.sessionRequestId ∨
    claims.get "mode" = .str "persistent" ∧ claims.get "one_session_request_id" = .null

theorem grantIdentity_spec {claims : Json} (h : grantIdentity claims e = true) :
    GrantIdentity claims e := by
  unfold grantIdentity at h
  simp only [Bool.and_eq_true, sameString_iff, sameInteger_iff] at h
  obtain ⟨⟨⟨⟨⟨⟨⟨⟨⟨-, h1⟩, h2⟩, h3⟩, h4⟩, h5⟩, h6⟩, h7⟩, h8⟩, hmode⟩ := h
  refine ⟨h1, h2, h3, h4, h5, h6, h7, h8, ?_⟩
  by_cases hone : claims.get "mode" = .str "one_session"
  · rw [if_pos hone] at hmode
    exact .inl ⟨hone, sameString_iff.mp hmode⟩
  · rw [if_neg hone] at hmode
    exact .inr (by simpa using hmode)

theorem verifyAuthorization_inv {ticket lease grant : String} {signer : SigningKey}
    {hostKey : PublicKey} {now : Int} {out : VerifiedLease}
    (h : verifyAuthorization P ticket lease grant signer hostKey e now = .ok out) :
    e.connectionEpoch ≠ 0 ∧ e.hostJkt = hostKey.thumbprint ∧ withinWindow signer now = true ∧
    ∃ t l g ticketOut granted,
      verifyJws P ticket signer.key "ht-rd-ticket+jwt" = .ok t ∧
      verifyJws P lease signer.key "ht-rd-lease+jwt" = .ok l ∧
      verifyJws P grant hostKey "ht-rd-grant+jwt" = .ok g ∧
      sessionClaims t e signer now false = .ok ticketOut ∧
      sessionClaims l e signer now true = .ok out ∧
      grantIdentity g.claims e = true ∧ permissions (g.claims.get "scope") = some granted ∧
      ticketOut.permissions &&& ~~~granted = 0 ∧
      out.permissions &&& ~~~ticketOut.permissions = 0 ∧
      (g.claims.get "expires_at" = .null ∨ ∃ expiry,
        isoTime (g.claims.get "expires_at") = some expiry ∧ now < expiry ∧
        out.expiresAtUnixMs ≤ expiry) := by
  unfold verifyAuthorization at h
  split at h
  · simp at h
  rename_i hentry
  push Not at hentry
  obtain ⟨hepoch, -, -, -, hjkt, hwindow⟩ := hentry
  refine ⟨hepoch, hjkt, hwindow, ?_⟩
  simp only [bind, Except.bind] at h
  split at h
  · simp at h
  rename_i t ht
  split at h
  · simp at h
  rename_i l hl
  split at h
  · simp at h
  rename_i g hg
  split at h
  · simp at h
  rename_i ticketOut hticket
  split at h
  · simp at h
  rename_i leaseOut hlease
  split at h
  · simp at h
  rename_i hgrant
  split at h
  · simp at h
  rename_i granted hscope
  split at h
  · simp at h
  rename_i hmasks
  push Not at hgrant hmasks
  split at h
  · rename_i hnull
    obtain rfl := Except.ok.inj h
    exact ⟨t, l, g, ticketOut, granted, ht, hl, hg, hticket, hlease, hgrant, hscope, hmasks.1,
      hmasks.2, .inl hnull⟩
  split at h
  · simp at h
  rename_i expiry hexpiry
  split at h
  · simp at h
  rename_i hlate
  push Not at hlate
  obtain rfl := Except.ok.inj h
  exact ⟨t, l, g, ticketOut, granted, ht, hl, hg, hticket, hlease, hgrant, hscope, hmasks.1,
    hmasks.2, .inr ⟨expiry, hexpiry, hlate.1, hlate.2⟩⟩

end HomeTunnel.Remote.Auth
