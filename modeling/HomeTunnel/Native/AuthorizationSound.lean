import HomeTunnel.Native.LeaseAgreement

/-! # Soundness of the session verifier

Whatever three texts are handed to `verifyAuthorization`, a lease comes out only
when all three documents are signed, agree on one session, cover `now` and nest
their permissions.
-/

namespace HomeTunnel.Remote.Auth

/-- Three documents that together authorize the session `e` at `now` with the lease
`out`. -/
structure Authorized (P : Primitives) (ticket lease grant : String) (signer : SigningKey)
    (hostKey : PublicKey) (e : ExpectedSession) (now : Int) (out : VerifiedLease)
    (t l g : Jws) : Prop where
  ticketSigned : Signed P ticket signer.key "ht-rd-ticket+jwt" t
  leaseSigned : Signed P lease signer.key "ht-rd-lease+jwt" l
  grantSigned : Signed P grant hostKey "ht-rd-grant+jwt" g
  hostKey : e.hostJkt = hostKey.thumbprint
  signerFrom : signer.notBeforeUnixMs ≤ now
  signerUntil : now < signer.notAfterUnixMs
  ticketIdentity : SessionIdentity t.claims e
  leaseIdentity : SessionIdentity l.claims e
  grantIdentity : GrantIdentity g.claims e
  ticketInForce : ∃ iat exp, InForce t.claims signer now 60 iat exp
  leaseInForce : ∃ iat exp, InForce l.claims signer now 900 iat exp ∧
    out.issuedAtUnixMs = (iat : Int) * 1000 ∧ out.expiresAtUnixMs = (exp : Int) * 1000
  grantInForce : g.claims.get "expires_at" = .null ∨ ∃ expiry,
    isoTime (g.claims.get "expires_at") = some expiry ∧ now < expiry ∧
    out.expiresAtUnixMs ≤ expiry
  view : out.permissions &&& Protocol.permissionView ≠ 0
  nested : ∃ ticketMask granted,
    permissions (l.claims.get "permissions") = some out.permissions ∧
    permissions (t.claims.get "permissions") = some ticketMask ∧
    permissions (g.claims.get "scope") = some granted ∧
    out.permissions &&& ~~~ticketMask = 0 ∧ ticketMask &&& ~~~granted = 0 ∧
    out.permissions &&& ~~~e.permissionCeiling = 0
  epoch : out.connectionEpoch = e.connectionEpoch
  sequence : integer (l.claims.get "lease_seq") = some out.sequence.toNat

/-- Only documents that authorize the session are accepted, whatever the signature
check, the curve, the digest and the JSON reader are. -/
theorem verifyAuthorization_sound {P : Primitives} {ticket lease grant : String}
    {signer : SigningKey} {hostKey : PublicKey} {e : ExpectedSession} {now : Int}
    {out : VerifiedLease}
    (h : verifyAuthorization P ticket lease grant signer hostKey e now = .ok out) :
    ∃ t l g, Authorized P ticket lease grant signer hostKey e now out t l g := by
  obtain ⟨-, hjkt, hwindow, t, l, g, ticketOut, granted, ht, hl, hg, hticket, hlease, hgrant,
    hscope, hticketMask, hleaseMask, hexpiry⟩ := verifyAuthorization_inv h
  obtain ⟨ticketIat, ticketExp, hticketChecked⟩ := sessionClaims_checked hticket
  obtain ⟨leaseIat, leaseExp, hleaseChecked⟩ := sessionClaims_checked hlease
  unfold withinWindow at hwindow
  simp only [Bool.and_eq_true, decide_eq_true_eq] at hwindow
  exact ⟨t, l, g, {
    ticketSigned := verifyJws_signed ht
    leaseSigned := verifyJws_signed hl
    grantSigned := verifyJws_signed hg
    hostKey := hjkt
    signerFrom := hwindow.1
    signerUntil := hwindow.2
    ticketIdentity := hticketChecked.identity
    leaseIdentity := hleaseChecked.identity
    grantIdentity := grantIdentity_spec hgrant
    ticketInForce := ⟨ticketIat, ticketExp, hticketChecked.inForce⟩
    leaseInForce := ⟨leaseIat, leaseExp, hleaseChecked.inForce, hleaseChecked.issuedAt,
      hleaseChecked.expiresAt⟩
    grantInForce := hexpiry
    view := (permissions_spec hleaseChecked.permissions).2
    nested := ⟨ticketOut.permissions, granted, hleaseChecked.permissions,
      hticketChecked.permissions, hscope, hleaseMask, hticketMask, hleaseChecked.ceiling⟩
    epoch := hleaseChecked.epoch
    sequence := (hleaseChecked.sequence rfl).1 }⟩

open Reader in
/-- The documents issued three seconds ahead of `now` are an instance. -/
theorem verifyAuthorization_sound_ahead :
    ∃ t l g, Authorized primitives (compact "ht-rd-ticket+jwt" "k" Ahead.ticket)
      (compact "ht-rd-lease+jwt" "k" Ahead.lease) (compact "ht-rd-grant+jwt" "k" Ahead.grant)
      Ahead.signer Ahead.key Ahead.expected 1000000 Ahead.verified t l g :=
  verifyAuthorization_sound Ahead.verifies

end HomeTunnel.Remote.Auth
