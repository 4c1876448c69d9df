import HomeTunnel.Lib.JsonText
import HomeTunnel.Native.Compact

/-! # A reader

The verifier takes its JSON reader from a library. Here is one for ASCII texts, so
that the verifier can be run: `strictJson` gives back what a document stands for,
and a compact signature over such documents verifies to them.
-/

namespace HomeTunnel.Remote.Auth.Reader

open JsonText

def ascii (doc : Doc) : Bytes := doc.render.map fun c => UInt8.ofNat c.toNat

/-- Every signature counts as good. -/
def primitives : Primitives where
  readJson bytes :=
    if bytes.all (· < 128) then
      (parse (bytes.map fun b => Char.ofNat b.toNat)).bind fun doc =>
        if doc.value.distinct then some doc.value.sorted else none
    else none
  onCurve _ _ := true
  sha256 _ := List.replicate 32 0
  ecdsaVerify _ _ _ := true

def name (s : String) : List Piece := s.toList.map .plain

def text (s : String) : Doc := .str (name s)

def number (n : Nat) : Doc := .num (Decimal.natText n)

/-- The document is short, and `strictJson` gives back what it stands for. -/
def Readable (doc : Doc) : Prop :=
  ascii doc ≠ [] ∧ (ascii doc).length ≤ 16384 ∧
    strictJson primitives (ascii doc) 65536 = some doc.value.sorted

instance (doc : Doc) : Decidable (Readable doc) := inferInstanceAs (Decidable (_ ∧ _ ∧ _))

def header (type kid : String) : Doc :=
  .obj [(name "alg", text "ES256"), (name "kid", text kid), (name "typ", text type)]

def compact (type kid : String) (claims : Doc) : String :=
  join (ascii (header type kid)) (ascii claims) (List.replicate 64 0)

theorem string_name (s : String) : string (name s) = s := by
  have hunquote : ∀ chars : List Char, unquote (chars.map .plain) = chars := by
    intro chars
    induction chars with
    | nil => rfl
    | cons c chars ih => rw [List.map_cons, unquote, ih]
  rw [string, name, hunquote, String.ofList_toList]

theorem header_value (type kid : String) :
    (header type kid).value.sorted =
      .obj [("alg", .str "ES256"), ("kid", .str kid), ("typ", .str type)] := by
  have hfirst : "alg" < "kid" := by decide
  have hsecond : "kid" < "typ" := by decide
  simp only [header, text, Doc.value, valueMembers, string_name, Json.sorted, Json.sortedMembers,
    Json.insertMember, hfirst, hsecond, reduceIte]

theorem header_fits (type : String) (key : PublicKey) :
    HeaderFits primitives (header type key.thumbprint).value.sorted key type := by
  rw [header_value]
  constructor <;>
    simp [Json.get, Json.isMember, Json.members?, sameString, headerNames, List.lookup]

theorem compact_verifies {type kid : String} {claims : Doc} {key : PublicKey}
    (hkid : key.thumbprint = kid) (hheader : Readable (header type kid))
    (hclaims : Readable claims) :
    verifyJws primitives (compact type kid claims) key type =
      .ok ⟨(header type kid).value.sorted, claims.value.sorted⟩ := by
  subst hkid
  obtain ⟨hheaderSome, hheaderShort, hheaderRead⟩ := hheader
  obtain ⟨hclaimsSome, hclaimsShort, hclaimsRead⟩ := hclaims
  have hsize : (utf8 (compact type key.thumbprint claims)).length ≤ 65536 := by
    rw [compact, length_utf8_join, Base64.length_encode, Base64.length_encode,
      Base64.length_encode, List.length_replicate]
    omega
  exact verifyJws_join hheaderSome hclaimsSome (List.length_replicate ..) hsize hheaderRead
    (header_fits type key) rfl rfl hclaimsRead

end HomeTunnel.Remote.Auth.Reader
