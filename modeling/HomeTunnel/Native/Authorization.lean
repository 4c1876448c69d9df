import HomeTunnel.Lib.Calendar
import HomeTunnel.Lib.Curve
import HomeTunnel.Lib.Json
import HomeTunnel.Native.SessionGate

/-! # Authorization

The native verifier of keysets, tickets, leases and grants. What the verifier
links against and does not contain is the record `Primitives`: the JSON reader,
the curve, the digest and the signature check.
-/

namespace HomeTunnel.Remote.Auth

open Calendar

inductive Error
  | malformed | key | signature | identity | expired | permission
deriving DecidableEq, Repr

/-- Third-party code. `readJson` is the strict-mode reader with duplicate members
and trailing text rejected; a document with a string that is not UTF-8 counts as
unreadable, since `strictJson` would reject it. Objects come out sorted by name. -/
structure Primitives extends Curve where
  readJson : Bytes → Option Json

def utf8 (text : String) : Bytes := text.toList.flatMap String.utf8EncodeChar

def alphabet : List Char :=
  "ABCDEFGHIJKLMNOPQRSTUVWXYZabcdefghijklmnopqrstuvwxyz0123456789-_".toList

def sextet (bits : UInt32) : Char := alphabet.getD (bits &&& 63).toNat 'A'

/-- The state of the encoder's loop: the pending bits and how many they are. -/
def encodeLoop (bits : UInt32) (count : Nat) : Bytes → List Char
  | [] => if count = 0 then [] else [sextet (bits <<< (6 - count).toUInt32)]
  | byte :: rest =>
    let bits := (bits <<< 8) ||| byte.toUInt32
    let count := count + 8
    let first := sextet (bits >>> (count - 6).toUInt32)
    if count - 6 ≥ 6 then
      first :: sextet (bits >>> (count - 12).toUInt32) :: encodeLoop bits (count - 12) rest
    else first :: encodeLoop bits (count - 6) rest

def encode (bytes : Bytes) : String := String.ofList (encodeLoop 0 0 bytes)

def decodeLoop (bits : UInt32) (count : Nat) : List Char → Option Bytes
  | [] => some []
  | character :: rest =>
    match alphabet.idxOf? character with
    | none => none
    | some index =>
      let bits := (bits <<< 6) ||| index.toUInt32
      let count := count + 6
      if count ≥ 8 then
        (decodeLoop bits (count - 8) rest).map ((bits >>> (count - 8).toUInt32).toUInt8 :: ·)
      else decodeLoop bits count rest

def decode (text : String) : Option Bytes :=
  let size := (utf8 text).length
  if size = 0 ∨ size > 65536 ∨ size % 4 = 1 then none
  else
    match decodeLoop 0 0 text.toList with
    | none => none
    -- also rejects non-zero unused bits
    | some bytes => if encode bytes = text then some bytes else none

def maxSafeInteger : Int := 9007199254740991

def integer : Json → Option Nat
  | .int n => if n < 0 ∨ n > maxSafeInteger then none else some n.toNat
  | _ => none

mutual

def validateJsonTree : Json → Bool
  | .obj members => members.length ≤ 128 && validateMembers members
  | .arr items => items.length ≤ 128 && validateItems items
  | .int n => (integer (.int n)).isSome
  | .real _ => false
  | .null | .bool _ | .str _ => true

def validateItems : List Json → Bool
  | [] => true
  | item :: items => validateJsonTree item && validateItems items

def validateMembers : List (String × Json) → Bool
  | [] => true
  | (_, value) :: members => validateJsonTree value && validateMembers members

end

/-- The nesting scan that runs before the reader does. -/
structure Nesting where
  depth : Nat := 0
  quoted : Bool := false
  escaped : Bool := false

def Nesting.scan (n : Nesting) (c : UInt8) : Option Nesting :=
  if n.quoted then
    if n.escaped then some { n with escaped := false }
    else if c = 92 then some { n with escaped := true }
    else if c = 34 then some { n with quoted := false }
    else some n
  else if c = 34 then some { n with quoted := true }
  else if c = 123 ∨ c = 91 then
    if n.depth + 1 > 20 then none else some { n with depth := n.depth + 1 }
  else if c = 125 ∨ c = 93 then
    if n.depth = 0 then none else some { n with depth := n.depth - 1 }
  else some n

def nestingAllowed (text : Bytes) : Bool :=
  match text.foldlM Nesting.scan {} with
  | none => false
  | some n => n.depth == 0 && !n.quoted

section Verifier

variable (P : Primitives)

def strictJson (text : Bytes) (byteLimit : Nat) : Option Json :=
  if text.isEmpty ∨ byteLimit > 262144 ∨ text.length > byteLimit ∨ ¬ validUtf8 text ∨
      ¬ nestingAllowed text then none
  else
    match P.readJson text with
    | some (.obj members) =>
      if validateJsonTree (.obj members) then some (.obj members) else none
    | _ => none

end Verifier

def fields (object : Json) (names : List String) : Bool :=
  match object with
  | .obj members => members.length == names.length && names.all (Json.obj members).isMember
  | _ => false

def sameString (value : Json) (expected : String) : Bool := value == .str expected

def sameInteger (value : Json) (expected : Nat) : Bool := integer value == some expected

def permissionsLoop (mask : UInt64) : List Json → Option UInt64
  | [] => some mask
  | .str name :: rest =>
    match Protocol.permissionNames.idxOf? name with
    | none => none
    | some index =>
      let bit := (1 : UInt64) <<< index.toUInt64
      if mask &&& bit ≠ 0 then none else permissionsLoop (mask ||| bit) rest
  | _ :: _ => none

def permissions : Json → Option UInt64
  | .arr items =>
    if items.isEmpty ∨ items.length > Protocol.permissionNames.length then none
    else
      match permissionsLoop 0 items with
      | none => none
      | some mask => if mask &&& Protocol.permissionView ≠ 0 then some mask else none
  | _ => none

/-- The digits at a position, or `-1` where one is no digit. -/
def number (text : Bytes) (start length : Nat) : Int :=
  let digits := (text.drop start).take length
  if digits.all fun c => 48 ≤ c && c ≤ 57 then
    digits.foldl (fun n c => n * 10 + (c.toNat - 48 : Nat)) 0
  else -1

def isoTime : Json → Option Int
  | .str s =>
    let text := utf8 s
    let size := text.length
    if (size ≠ 20 ∧ (size < 22 ∨ size > 30)) ∨ byteAt text 4 ≠ 45 ∨ byteAt text 7 ≠ 45 ∨
        byteAt text 10 ≠ 84 ∨ byteAt text 13 ≠ 58 ∨ byteAt text 16 ≠ 58 ∨
        byteAt text (size - 1) ≠ 90 ∨ (size ≠ 20 ∧ byteAt text 19 ≠ 46) then none
    else
      let year := number text 0 4
      let month := number text 5 2
      let day := number text 8 2
      let hour := number text 11 2
      let minute := number text 14 2
      let second := number text 17 2
      let digits := size - 21
      let millis :=
        if size = 20 then 0
        else
          let leading := number text 20 (min digits 3)
          if digits = 1 then leading * 100 else if digits = 2 then leading * 10 else leading
      if (size ≠ 20 ∧ number text 20 digits < 0) ∨ year < 1970 ∨ month < 1 ∨ day < 1 ∨
          hour < 0 ∨ hour > 23 ∨ minute < 0 ∨ minute > 59 ∨ second < 0 ∨ second > 59 ∨
          millis < 0 ∨ month > 12 ∨ day > lastDay year month then none
      else
        some (sysDays year month day * 86400000 +
          (hour * 3600 + minute * 60 + second) * 1000 + millis)
  | _ => none

structure PublicKey where
  xy : Bytes
  thumbprint : String
deriving DecidableEq, Repr

structure SigningKey where
  key : PublicKey
  notBeforeUnixMs : Int
  notAfterUnixMs : Int
deriving DecidableEq, Repr

structure Jws where
  header : Json
  claims : Json

section Verifier

variable (P : Primitives)

/-- The text whose digest names a key. -/
def canonicalJwk (x y : String) : String :=
  "\x7b\"crv\":\"P-256\",\"kty\":\"EC\",\"x\":\"" ++ x ++ "\",\"y\":\"" ++ y ++ "\"\x7d"

def publicKey (jwk : Json) : Except Error PublicKey :=
  if ¬ fields jwk ["kty", "crv", "x", "y"] ∨ ¬ sameString (jwk.get "kty") "EC" ∨
      ¬ sameString (jwk.get "crv") "P-256" then .error .key
  else
    match jwk.get "x", jwk.get "y" with
    | .str xText, .str yText =>
      match decode xText, decode yText with
      | some x, some y =>
        if x.length ≠ 32 ∨ y.length ≠ 32 ∨ ¬ P.onCurve x y then .error .key
        else .ok ⟨x ++ y, encode (P.sha256 (utf8 (canonicalJwk xText yText)))⟩
      | _, _ => .error .key
    | _, _ => .error .key

def verifySignature (message : Bytes) (key : PublicKey) (signature : Bytes) : Except Error Unit :=
  if message.isEmpty ∨ message.length > 65536 ∨ signature.length ≠ 64 then .error .malformed
  else if ¬ P.onCurve (key.xy.take 32) (key.xy.drop 32) then .error .key
  else if ¬ P.ecdsaVerify (P.sha256 message) key.xy signature then .error .signature
  else .ok ()

/-- The three parts of a compact JWS. -/
def compactParts (compact : String) : Option (String × String × String) :=
  match compact.toList.splitOn '.' with
  | [header, payload, signature] =>
    some (String.ofList header, String.ofList payload, String.ofList signature)
  | _ => none

def headerNames : List String := ["alg", "typ", "kid", "jwk"]

def verifyJws (compact : String) (key : PublicKey) (expectedType : String) : Except Error Jws :=
  if compact = "" ∨ (utf8 compact).length > 65536 then .error .malformed
  else
    match compactParts compact with
    | none => .error .malformed
    | some (headerText, payloadText, signatureText) =>
      match decode headerText, decode payloadText, decode signatureText with
      | some headerBytes, some payload, some signature =>
        if signature.length ≠ 64 then .error .malformed
        else
          match strictJson P headerBytes 65536 with
          | none => .error .malformed
          | some header =>
            if ¬ sameString (header.get "alg") "ES256" ∨
                ¬ sameString (header.get "typ") expectedType then .error .key
            else if ((header.members?.getD []).any fun m => m.1 ∉ headerNames) then
              .error .key
            else if header.isMember "kid" ∧ ¬ sameString (header.get "kid") key.thumbprint
              then .error .key
            else if header.isMember "jwk" ∧
                (publicKey P (header.get "jwk")).toOption.map PublicKey.xy ≠ some key.xy then
              .error .key
            else
              match verifySignature P (utf8 (headerText ++ "." ++ payloadText)) key
                  signature with
              | .error e => .error e
              | .ok () =>
                match strictJson P payload 65536 with
                | none => .error .malformed
                | some claims => .ok ⟨header, claims⟩
      | _, _, _ => .error .malformed

def keysetKeysLoop (ids : List String) : List Json → Option (List String)
  | [] => some ids
  | item :: rest =>
    match publicKey P (item.get "public_jwk"), isoTime (item.get "not_before"),
        isoTime (item.get "not_after") with
    | .ok key, some begin, some finish =>
      if ¬ fields item ["kid", "alg", "public_jwk", "not_before", "not_after"] ∨
          ¬ sameString (item.get "alg") "ES256" ∨ ¬ sameString (item.get "kid") key.thumbprint ∨
          finish ≤ begin ∨ key.thumbprint ∈ ids then none
      else keysetKeysLoop (ids ++ [key.thumbprint]) rest
    | _, _, _ => none

def keysetBody (body : Json) : Bool :=
  match integer (body.get "keyset_version"), body.get "active_kid", body.get "keys" with
  | some version, .str activeKid, .arr keys =>
    if version = 0 ∨ keys.isEmpty ∨ keys.length > 8 then false
    else
      match keysetKeysLoop P [] keys with
      | none => false
      | some ids => activeKid ∈ ids
  | _, _, _ => false

def proofAllowed : Json → Bool
  | .str proof => proof != "" && (utf8 proof).length ≤ 8192
  | _ => false

def keyset (value : Json) : Bool :=
  fields value ["server_instance_id", "restore_epoch", "keyset_version", "active_kid", "keys",
    "rotation_proofs"] &&
  (match value.get "server_instance_id" with | .str id => id != "" | _ => false) &&
  (match integer (value.get "restore_epoch") with | some epoch => epoch != 0 | none => false) &&
  keysetBody P value &&
  (match value.get "rotation_proofs" with
    | .arr proofs => proofs.length ≤ 32 && proofs.all proofAllowed
    | _ => false)

def selectSigningKey (keys : Json) (kid : String) : Except Error SigningKey :=
  if ¬ keysetBody P keys then .error .key
  else
    match ((keys.get "keys").items?.getD []).find? fun item => sameString (item.get "kid") kid with
    | none => .error .key
    | some item =>
      match publicKey P (item.get "public_jwk"), isoTime (item.get "not_before"),
          isoTime (item.get "not_after") with
      | .ok key, some begin, some finish => .ok ⟨key, begin, finish⟩
      | _, _, _ => .error .key

/-- The part of a keyset that a rotation replaces. -/
def bodyNames : List String := ["keyset_version", "active_kid", "keys"]

/-- `current[name] = body[name]` for the names of a rotation. -/
def assignBody (current body : Json) : Json :=
  .obj ((current.members?.getD []).map fun m =>
    if m.1 ∈ bodyNames then (m.1, body.get m.1) else m)

def sameBody (a b : Json) : Bool := bodyNames.all fun name => a.get name == b.get name

/-- Bounds of the signing key that a keyset names as active. -/
def withinWindow (key : SigningKey) (at_ : Int) : Bool :=
  key.notBeforeUnixMs ≤ at_ && at_ < key.notAfterUnixMs

/-- One proof that advances trust: the keyset it yields and its time of issue. -/
def applyProof (pinned : Json) (now : Int) (compact : String) (current : Json)
    (issuedBefore : Int) : Except Error (Json × Int) :=
  match current.get "active_kid" with
  | .str activeKid => do
      let signer ← (selectSigningKey P current activeKid).mapError fun _ => .key
      let proof ← verifyJws P compact signer.key "ht-rd-keyset+jwt"
      let c := proof.claims
      let version := (integer (current.get "keyset_version")).getD 0
      if ¬ fields c ["server_instance_id", "from_version", "to_version", "from_kid", "issued_at",
            "keyset"] ∨
          c.get "server_instance_id" ≠ pinned.get "server_instance_id" ∨
          ¬ sameInteger (c.get "from_version") version ∨
          ¬ sameInteger (c.get "to_version") (version + 1) ∨
          c.get "from_kid" ≠ current.get "active_kid" ∨
          ¬ sameString (proof.header.get "kid") signer.key.thumbprint ∨
          ¬ fields (c.get "keyset") bodyNames ∨ ¬ keysetBody P (c.get "keyset") ∨
          (c.get "keyset").get "keyset_version" ≠ c.get "to_version" ∨
          (c.get "keyset").get "active_kid" = current.get "active_kid" then .error .identity
      else
        match isoTime (c.get "issued_at") with
        | none => .error .expired
        | some issued =>
          if ¬ withinWindow signer issued ∨ issued > now + 60000 ∨ issued < issuedBefore then
            .error .expired
          else
            let current := assignBody current (c.get "keyset")
            match current.get "active_kid" with
            | .str activeKid =>
              match selectSigningKey P current activeKid with
              | .error _ => .error .expired
              | .ok active =>
                if withinWindow active issued then .ok (current, issued)
                else .error .expired
            | _ => .error .expired
  | _ => .error .key

/-- The version a proof claims to lead to, read before its signature is checked. -/
def hintedVersion (compact : String) : Option Nat :=
  match compactParts compact with
  | none => none
  | some (_, payloadText, _) =>
    match decode payloadText with
    | none => none
    | some payload =>
      match strictJson P payload 65536 with
      | none => none
      | some hint => integer (hint.get "to_version")

def keysetLoop (pinned : Json) (now : Int) (current : Json) (issuedBefore : Int) :
    List Json → Except Error Json
  | [] => .ok current
  | .str compact :: rest =>
    match hintedVersion P compact with
    | none => .error .malformed
    | some toVersion =>
      -- the hint may only skip history that the pin already covers
      if toVersion ≤ (integer (pinned.get "keyset_version")).getD 0 then
        keysetLoop pinned now current issuedBefore rest
      else
        match applyProof P pinned now compact current issuedBefore with
        | .error e => .error e
        | .ok (next, issued) => keysetLoop pinned now next issued rest
  | _ :: _ => .error .malformed

def verifyKeyset (pinnedJson candidateJson : Bytes) (now : Int) : Except Error Json :=
  if now < 0 then .error .malformed
  else
    match strictJson P pinnedJson 262144, strictJson P candidateJson 262144 with
    | some pinned, some candidate =>
      if ¬ keyset P pinned ∨ ¬ keyset P candidate then .error .malformed
      else if candidate.get "server_instance_id" ≠ pinned.get "server_instance_id" ∨
          (integer (candidate.get "restore_epoch")).getD 0 <
            (integer (pinned.get "restore_epoch")).getD 0 ∨
          (integer (candidate.get "keyset_version")).getD 0 <
            (integer (pinned.get "keyset_version")).getD 0 then .error .identity
      else
        match keysetLoop P pinned now pinned 0 ((candidate.get "rotation_proofs").items?.getD [])
            with
        | .error e => .error e
        | .ok current =>
          if ¬ sameBody current candidate then .error .identity
          else
            match candidate.get "active_kid" with
            | .str activeKid =>
              match selectSigningKey P candidate activeKid with
              | .error _ => .error .expired
              | .ok active =>
                if withinWindow active now then .ok candidate else .error .expired
            | _ => .error .expired
    | _, _ => .error .malformed

structure ExpectedSession where
  issuer : String
  serverInstanceId : String
  sessionId : String
  sessionRequestId : String
  ownerUserId : String
  hostEndpointId : String
  controllerEndpointId : String
  hostJkt : String
  controllerJkt : String
  grantId : String
  restoreEpoch : UInt64
  grantVersion : UInt64
  userTokenVersion : UInt64
  connectionEpoch : UInt32
  permissionCeiling : UInt64
deriving DecidableEq, Repr

def identity (claims : Json) (e : ExpectedSession) : Bool :=
  sameString (claims.get "iss") e.issuer &&
  sameString (claims.get "server_instance_id") e.serverInstanceId &&
  sameString (claims.get "session_id") e.sessionId &&
  sameString (claims.get "session_request_id") e.sessionRequestId &&
  sameString (claims.get "owner_user_id") e.ownerUserId &&
  sameString (claims.get "host_endpoint_id") e.hostEndpointId &&
  sameString (claims.get "controller_endpoint_id") e.controllerEndpointId &&
  sameString (claims.get "host_jkt") e.hostJkt &&
  sameString (claims.get "controller_jkt") e.controllerJkt &&
  sameString (claims.get "grant_id") e.grantId &&
  sameInteger (claims.get "restore_epoch") e.restoreEpoch.toNat &&
  sameInteger (claims.get "connection_epoch") e.connectionEpoch.toNat &&
  sameInteger (claims.get "grant_version") e.grantVersion.toNat &&
  sameInteger (claims.get "user_token_version") e.userTokenVersion.toNat

def nonemptyString : Json → Bool
  | .str s => s != ""
  | _ => false

/-- The largest whole number of seconds whose milliseconds fit in 64 bits. -/
def maxSeconds : Nat := 9223372036854775

def sessionClaims (value : Jws) (expected : ExpectedSession) (signer : SigningKey) (now : Int)
    (lease : Bool) : Except Error VerifiedLease :=
  let claims := value.claims
  if ¬ identity claims expected ∨ ¬ sameString (value.header.get "kid") signer.key.thumbprint ∨
      ¬ sameString (claims.get "aud") (if lease then "ht-rd-use" else "ht-rd-start") ∨
      ¬ nonemptyString (claims.get "jti") then .error .identity
  else
    match integer (claims.get "iat"), integer (claims.get "nbf"), integer (claims.get "exp"),
        (if lease then integer (claims.get "lease_seq") else some 0) with
    | some issued, some notBefore, some expires, some sequence =>
      if issued > maxSeconds ∨ expires > maxSeconds ∨ (lease ∧ sequence = 0) then
        .error .malformed
      else if now < 0 ∨ notBefore ≠ issued ∨ expires ≤ issued ∨
          expires - issued > (if lease then 900 else 60) ∨
          ((issued * 1000 : Nat) : Int) > now + 5000 ∨ ((expires * 1000 : Nat) : Int) ≤ now ∨
          ((issued * 1000 : Nat) : Int) < signer.notBeforeUnixMs ∨
          ((expires * 1000 : Nat) : Int) > signer.notAfterUnixMs then .error .expired
      else
        match permissions (claims.get "permissions") with
        | none => .error .permission
        | some mask =>
          if mask &&& ~~~expected.permissionCeiling ≠ 0 then .error .permission
          else
            .ok ⟨expected.connectionEpoch, UInt64.ofNat sequence, mask,
              ((issued * 1000 : Nat) : Int), ((expires * 1000 : Nat) : Int)⟩
    | _, _, _, _ => .error .malformed

def verifyLease (compact : String) (keys : Json) (expected : ExpectedSession) (now : Int) :
    Except Error VerifiedLease :=
  let first := compact.toList.takeWhile (· ≠ '.')
  if first.length = compact.toList.length ∨ (utf8 (String.ofList first)).length > 2048 then
    .error .malformed
  else
    match (decode (String.ofList first)).bind (strictJson P · 65536) with
    | none => .error .malformed
    | some header =>
      match header.get "kid" with
      | .str kid =>
        match selectSigningKey P keys kid with
        | .error _ => .error .key
        | .ok signer =>
          match verifyJws P compact signer.key "ht-rd-lease+jwt" with
          | .error e => .error e
          | .ok lease => sessionClaims lease expected signer now true
      | _ => .error .malformed

def grantNames : List String :=
  ["id", "server_instance_id", "owner_user_id", "host_endpoint_id", "controller_endpoint_id",
    "host_jkt", "controller_jkt", "scope", "mode", "one_session_request_id", "grant_version",
    "expires_at"]

def grantIdentity (c : Json) (e : ExpectedSession) : Bool :=
  fields c grantNames && sameString (c.get "id") e.grantId &&
  sameString (c.get "server_instance_id") e.serverInstanceId &&
  sameString (c.get "owner_user_id") e.ownerUserId &&
  sameString (c.get "host_endpoint_id") e.hostEndpointId &&
  sameString (c.get "controller_endpoint_id") e.controllerEndpointId &&
  sameString (c.get "host_jkt") e.hostJkt && sameString (c.get "controller_jkt") e.controllerJkt &&
  sameInteger (c.get "grant_version") e.grantVersion.toNat &&
  (if sameString (c.get "mode") "one_session" then
    sameString (c.get "one_session_request_id") e.sessionRequestId
  else sameString (c.get "mode") "persistent" && c.get "one_session_request_id" == .null)

def verifyAuthorization (ticket lease grant : String) (signer : SigningKey) (hostKey : PublicKey)
    (e : ExpectedSession) (now : Int) : Except Error VerifiedLease :=
  if e.connectionEpoch = 0 ∨ e.sessionId = "" ∨ e.sessionRequestId = "" ∨ e.grantVersion = 0 ∨
      e.hostJkt ≠ hostKey.thumbprint ∨ ¬ withinWindow signer now then .error .identity
  else do
    let ticketValue ← verifyJws P ticket signer.key "ht-rd-ticket+jwt"
    let leaseValue ← verifyJws P lease signer.key "ht-rd-lease+jwt"
    let grantValue ← verifyJws P grant hostKey "ht-rd-grant+jwt"
    let ticketClaims ← sessionClaims ticketValue e signer now false
    let leaseClaims ← sessionClaims leaseValue e signer now true
    let c := grantValue.claims
    if ¬ grantIdentity c e then .error .identity
    else
      match permissions (c.get "scope") with
      | none => .error .permission
      | some granted =>
        if ticketClaims.permissions &&& ~~~granted ≠ 0 ∨
            leaseClaims.permissions &&& ~~~ticketClaims.permissions ≠ 0 then .error .permission
        else if c.get "expires_at" = .null then .ok leaseClaims
        else
          match isoTime (c.get "expires_at") with
          | none => .error .expired
          | some expiry =>
            if expiry ≤ now ∨ leaseClaims.expiresAtUnixMs > expiry then .error .expired
            else .ok leaseClaims

end Verifier

end HomeTunnel.Remote.Auth
