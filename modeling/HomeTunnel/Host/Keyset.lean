import HomeTunnel.Host.Jws

/-! # Keysets

The server's keysets as the host reads them, and the chain of rotation proofs that
leads from a trusted keyset to the next one.
-/

namespace HomeTunnel.Host

open JsonText GoJson
open Rfc3339 (Time)

/-- The zero value of a time. -/
def zeroTime : Time := ⟨⟨1, 1, 1, 0, 0, 0, 0, 0⟩, by decide⟩

structure ServerKey where
  kid : String := ""
  alg : String := ""
  publicJwk : PublicJwk := {}
  notBefore : Time := zeroTime
  notAfter : Time := zeroTime
deriving DecidableEq

def ServerKey.fields : List (RecordField ServerKey) :=
  [field "kid" decodeString (·.kid) (fun k v => { k with kid := v }),
    field "alg" decodeString (·.alg) (fun k v => { k with alg := v }),
    field "public_jwk" decodePublicJwk (·.publicJwk) (fun k v => { k with publicJwk := v }),
    field "not_before" decodeTime (·.notBefore) (fun k v => { k with notBefore := v }),
    field "not_after" decodeTime (·.notAfter) (fun k v => { k with notAfter := v })]

def decodeServerKey : Decoder ServerKey := decodeStruct ServerKey.fields true

structure Keyset where
  serverInstanceId : String := ""
  restoreEpoch : Int := 0
  keysetVersion : Int := 0
  activeKid : String := ""
  keys : List ServerKey := []
  rotationProofs : List String := []
deriving DecidableEq

def Keyset.fields : List (RecordField Keyset) :=
  [field "server_instance_id" decodeString (·.serverInstanceId)
      (fun k v => { k with serverInstanceId := v }),
    field "restore_epoch" decodeInt64 (·.restoreEpoch) (fun k v => { k with restoreEpoch := v }),
    field "keyset_version" decodeInt64 (·.keysetVersion) (fun k v => { k with keysetVersion := v }),
    field "active_kid" decodeString (·.activeKid) (fun k v => { k with activeKid := v }),
    field "keys" (decodeSlice decodeServerKey {}) (·.keys) (fun k v => { k with keys := v }),
    field "rotation_proofs" (decodeSlice decodeString "") (·.rotationProofs)
      (fun k v => { k with rotationProofs := v })]

def decodeKeyset : Decoder Keyset := decodeStruct Keyset.fields true

/-- The part of a keyset that a rotation replaces. -/
structure KeysetBody where
  version : Int := 0
  activeKid : String := ""
  keys : List ServerKey := []
deriving DecidableEq

def KeysetBody.fields : List (RecordField KeysetBody) :=
  [field "keyset_version" decodeInt64 (·.version) (fun k v => { k with version := v }),
    field "active_kid" decodeString (·.activeKid) (fun k v => { k with activeKid := v }),
    field "keys" (decodeSlice decodeServerKey {}) (·.keys) (fun k v => { k with keys := v })]

def decodeKeysetBody : Decoder KeysetBody := decodeStruct KeysetBody.fields true

section Verifier

variable (C : Curve)

/-- The loop over the keys; `seen` are the ids so far. -/
def keysAccepted (seen : List String) : List ServerKey → Option (List String)
  | [] => some seen
  | key :: keys =>
    if key.publicJwk.point C = none ∨ key.alg ≠ "ES256" ∨ key.kid ≠ key.publicJwk.thumbprint C ∨
        key.kid ∈ seen ∨ ¬ key.notAfter.instant > key.notBefore.instant then none
    else keysAccepted (key.kid :: seen) keys

/-- The checks of `parseKeyset` on a decoded keyset. -/
def Keyset.accepted (k : Keyset) : Bool :=
  k.serverInstanceId ≠ "" && 1 ≤ k.restoreEpoch && 1 ≤ k.keysetVersion && 1 ≤ k.keys.length &&
  k.keys.length ≤ 8 && k.rotationProofs.length ≤ 32 &&
  (match keysAccepted C [] k.keys with
    | none => false
    | some seen => k.activeKid ∈ seen) &&
  k.rotationProofs.all fun proof => (utf8 proof).length ≤ 8192

def parseKeyset (data : Bytes) : Option Keyset :=
  match strictDecode data decodeKeyset {} with
  | none => none
  | some k => if k.accepted C then some k else none

structure Hint where
  toVersion : Int := 0

def decodeHint : Decoder Hint :=
  decodeStruct [field "to_version" decodeInt64 (·.toVersion) (fun h v => { h with toVersion := v })]
    false

structure HeaderHint where
  kid : String := ""

def decodeHeaderHint : Decoder HeaderHint :=
  decodeStruct [field "kid" decodeString (·.kid) (fun h v => { h with kid := v })] false

structure Proof where
  instanceId : String := ""
  fromVersion : Int := 0
  toVersion : Int := 0
  fromKid : String := ""
  issued : Time := zeroTime
  keyset : KeysetBody := {}
deriving DecidableEq

def Proof.fields : List (RecordField Proof) :=
  [field "server_instance_id" decodeString (·.instanceId) (fun p v => { p with instanceId := v }),
    field "from_version" decodeInt64 (·.fromVersion) (fun p v => { p with fromVersion := v }),
    field "to_version" decodeInt64 (·.toVersion) (fun p v => { p with toVersion := v }),
    field "from_kid" decodeString (·.fromKid) (fun p v => { p with fromKid := v }),
    field "issued_at" decodeTime (·.issued) (fun p v => { p with issued := v }),
    field "keyset" decodeKeysetBody (·.keyset) (fun p v => { p with keyset := v })]

def decodeProof : Decoder Proof := decodeStruct Proof.fields true

def minuteNanos : Int := 60000000000

end Verifier

end HomeTunnel.Host
