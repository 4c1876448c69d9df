import HomeTunnel.Host.Strict
import HomeTunnel.Lib.Base64
import HomeTunnel.Lib.Curve

/-! # Signatures

Keys and compact signatures as the host writes and checks them.
-/

namespace HomeTunnel.Host

open JsonText GoJson

def encode (data : Bytes) : String := String.ofList (Base64.encode data)

def decode (text : String) : Option Bytes := Base64.decode text.toList

def utf8 (text : String) : Bytes := Utf8.encode text.toList

structure PublicJwk where
  kty : String := ""
  crv : String := ""
  x : String := ""
  y : String := ""
deriving DecidableEq, Repr

def PublicJwk.fields : List (RecordField PublicJwk) :=
  [field "kty" decodeString (·.kty) (fun k v => { k with kty := v }),
    field "crv" decodeString (·.crv) (fun k v => { k with crv := v }),
    field "x" decodeString (·.x) (fun k v => { k with x := v }),
    field "y" decodeString (·.y) (fun k v => { k with y := v })]

/-- The reader of a key inside a document that is read strictly. -/
def decodePublicJwk : Decoder PublicJwk := decodeStruct PublicJwk.fields true

section Signatures

variable (C : Curve)

def digest (data : Bytes) : String := encode (C.sha256 data)

/-- The document whose digest names the key. -/
def PublicJwk.canonical (k : PublicJwk) : Doc :=
  encodeStruct [member "crv" (encodeString k.crv), member "kty" (encodeString k.kty),
    member "x" (encodeString k.x), member "y" (encodeString k.y)]

def PublicJwk.thumbprint (k : PublicJwk) : String := digest C (Utf8.encode k.canonical.render)

/-- `public`: the coordinates of the key. -/
def PublicJwk.point (k : PublicJwk) : Option (Bytes × Bytes) :=
  match decode k.x, decode k.y with
  | some x, some y =>
    if k.kty ≠ "EC" ∨ k.crv ≠ "P-256" ∨ x.length ≠ 32 ∨ y.length ≠ 32 ∨ ¬ C.onCurve x y then none
    else some (x, y)
  | _, _ => none

structure Header where
  alg : String := ""
  typ : String := ""
  kid : String := ""
  jwk : Option PublicJwk := none
deriving DecidableEq, Repr

def Header.fields : List (RecordField Header) :=
  [field "alg" decodeString (·.alg) (fun h v => { h with alg := v }),
    field "typ" decodeString (·.typ) (fun h v => { h with typ := v }),
    field "kid" decodeString (·.kid) (fun h v => { h with kid := v }),
    field "jwk" (decodePointer decodePublicJwk {}) (·.jwk) (fun h v => { h with jwk := v })]

def decodeHeader : Decoder Header := decodeStruct Header.fields true

/-- Any document. -/
def decodeAny : Decoder Doc := fun doc _ => some doc

/-- The text that is signed. -/
def signedText (header payload : Bytes) : Bytes := utf8 (encode header ++ "." ++ encode payload)

def Header.accepted (header : Header) (key : PublicJwk) (typ : String) : Bool :=
  header.alg == "ES256" && header.typ == typ &&
  (header.kid == "" || header.kid == key.thumbprint C) &&
  (match header.jwk with
    | none => true
    | some jwk => jwk.thumbprint C == key.thumbprint C)

/-- The payload of a compact signature that `key` has made. -/
def verifyJws (compact : String) (key : PublicJwk) (typ : String) : Option Bytes :=
  match compact.toList.splitOn '.' with
  | [headerText, payloadText, signatureText] =>
    if (utf8 compact).length > 65536 then none
    else
      match Base64.decode headerText, Base64.decode payloadText, Base64.decode signatureText with
      | some headerBytes, some payload, some signature =>
        if signature.length ≠ 64 then none
        else
          match strictDecode headerBytes decodeHeader {} with
          | none => none
          | some header =>
            if ¬ header.accepted C key typ then none
            else
              match key.point C with
              | none => none
              | some (x, y) =>
                if ¬ C.ecdsaVerify (C.sha256 (signedText headerBytes payload)) (x ++ y)
                    signature then none
                else
                  match strictDecode payload decodeAny .null with
                  | none => none
                  | some _ => some payload
      | _, _, _ => none
  | _ => none

end Signatures

end HomeTunnel.Host
