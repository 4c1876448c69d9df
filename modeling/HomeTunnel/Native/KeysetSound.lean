import HomeTunnel.Native.Reader
import HomeTunnel.Native.SessionClaims

/-! # Soundness of the keyset verifier

A keyset comes out of `verifyKeyset` only at the end of a chain of rotations that
starts at the pinned keyset. A link of the chain is one proof together with the
keyset held after it; what a link owes to the one before it is `Follows`.
-/

namespace HomeTunnel.Remote.Auth

structure Link where
  compact : String
  body : Json
  issued : Int

def bodyVersion (body : Json) : Nat := (integer (body.get "keyset_version")).getD 0

/-- The key that a keyset names as active. -/
def ActiveKey (P : Primitives) (body : Json) (key : SigningKey) : Prop :=
  ∃ kid, body.get "active_kid" = .str kid ∧ selectSigningKey P body kid = .ok key

/-- The keyset of `b` comes from its proof, which the active key of `a` has signed. -/
structure Follows (P : Primitives) (server : Json) (now : Int) (a b : Link) : Prop where
  signed : ∃ signer jws, ActiveKey P a.body signer ∧
    Signed P b.compact signer.key "ht-rd-keyset+jwt" jws ∧
    jws.header.get "kid" = .str signer.key.thumbprint ∧
    signer.notBeforeUnixMs ≤ b.issued ∧ b.issued < signer.notAfterUnixMs ∧
    jws.claims.get "server_instance_id" = server ∧
    integer (jws.claims.get "from_version") = some (bodyVersion a.body) ∧
    integer (jws.claims.get "to_version") = some (bodyVersion a.body + 1) ∧
    jws.claims.get "from_kid" = a.body.get "active_kid" ∧
    isoTime (jws.claims.get "issued_at") = some b.issued ∧
    keysetBody P (jws.claims.get "keyset") = true ∧
    ∀ name ∈ bodyNames, b.body.get name = (jws.claims.get "keyset").get name
  version : integer (b.body.get "keyset_version") = some (bodyVersion a.body + 1)
  rotated : b.body.get "active_kid" ≠ a.body.get "active_kid"
  active : ∃ key, ActiveKey P b.body key ∧
    key.notBeforeUnixMs ≤ b.issued ∧ b.issued < key.notAfterUnixMs
  ordered : a.issued ≤ b.issued
  notAhead : b.issued ≤ now + 60000

section Steps

variable {P : Primitives}

theorem withinWindow_iff {key : SigningKey} {at_ : Int} :
    withinWindow key at_ = true ↔ key.notBeforeUnixMs ≤ at_ ∧ at_ < key.notAfterUnixMs := by
  simp [withinWindow]

/-- A keyset has the members that a rotation replaces. -/
def HasBody (body : Json) : Prop := ∀ name ∈ bodyNames, body.isMember name = true

theorem lookup_assign (members : List (String × Json)) (body : Json) {name : String}
    (hname : name ∈ bodyNames) :
    (members.map fun m => if m.1 ∈ bodyNames then (m.1, body.get m.1) else m).lookup name =
      (members.lookup name).map fun _ => body.get name := by
  induction members with
  | nil => rfl
  | cons member members ih =>
    obtain ⟨other, value⟩ := member
    rw [List.map_cons]
    by_cases hsame : name = other
    · subst hsame
      simp [hname]
    · have hne : (name == other) = false := by simpa using hsame
      by_cases hother : other ∈ bodyNames
      · simp only [hother, reduceIte, List.lookup_cons, hne, ih]
      · simp only [hother, reduceIte, List.lookup_cons, hne, ih]

theorem assignBody_get {current body : Json} (hbody : HasBody current) {name : String}
    (hname : name ∈ bodyNames) :
    (assignBody current body).get name = body.get name ∧
      (assignBody current body).isMember name = true := by
  have hmember := hbody name hname
  cases current with
  | obj members =>
    simp only [Json.isMember] at hmember
    obtain ⟨value, hvalue⟩ := Option.isSome_iff_exists.mp hmember
    have hassigned := lookup_assign members body hname
    rw [hvalue, Option.map_some] at hassigned
    constructor
    · exact congrArg (·.getD .null) hassigned
    · exact congrArg Option.isSome hassigned
  | _ => simp [Json.isMember] at hmember

theorem keyset_hasBody {value : Json} (h : keyset P value = true) : HasBody value := by
  unfold keyset at h
  simp only [Bool.and_eq_true] at h
  have hfields := h.1.1.1.1
  intro name hname
  unfold fields at hfields
  split at hfields
  · simp only [Bool.and_eq_true, List.all_eq_true] at hfields
    refine hfields.2 name ?_
    simp only [bodyNames, List.mem_cons, List.not_mem_nil, or_false] at hname
    rcases hname with rfl | rfl | rfl <;> simp
  · simp at hfields

/-- What one proof does when it is applied: the keyset that it leads to follows the one
before. -/
theorem applyProof_follows {pinned current next : Json} {now before issued : Int}
    {compact : String} (hbody : HasBody current)
    (h : applyProof P pinned now compact current before = .ok (next, issued)) (earlier : String) :
    HasBody next ∧ Follows P (pinned.get "server_instance_id") now ⟨earlier, current, before⟩
      ⟨compact, next, issued⟩ := by
  unfold applyProof at h
  split at h
  · rename_i activeKid hkid
    simp only [bind, Except.bind] at h
    split at h
    · simp at h
    rename_i signer hsigner
    split at h
    · simp at h
    rename_i jws hjws
    split at h
    · simp at h
    rename_i hclaims
    split at h
    · simp at h
    rename_i at_ hissued
    split at h
    · simp at h
    rename_i htimes
    split at h
    · rename_i nextKid hnextKid
      split at h
      · simp at h
      rename_i active hactive
      split at h
      · rename_i hwindow
        obtain ⟨rfl, rfl⟩ := Prod.mk.inj (Except.ok.inj h)
        push Not at hclaims htimes
        obtain ⟨-, hserver, hfrom, hto, hfromKid, hheader, -, hkeyset, hversion, hrotated⟩ := hclaims
        obtain ⟨hsignerWindow, hahead, hordered⟩ := htimes
        have hselect : selectSigningKey P current activeKid = .ok signer := by
          cases hcase : selectSigningKey P current activeKid with
          | error e => simp [hcase, Except.mapError] at hsigner
          | ok key => simpa [hcase, Except.mapError] using hsigner
        have hget : ∀ name ∈ bodyNames,
            (assignBody current (jws.claims.get "keyset")).get name =
              (jws.claims.get "keyset").get name :=
          fun name hname => (assignBody_get hbody hname).1
        rw [withinWindow_iff] at hsignerWindow hwindow
        rw [sameInteger_iff] at hfrom hto
        refine ⟨fun name hname => (assignBody_get hbody hname).2, ⟨signer, jws, ⟨activeKid, hkid,
          hselect⟩, verifyJws_signed hjws, sameString_iff.mp hheader, hsignerWindow.1,
          hsignerWindow.2, hserver, hfrom, hto, hfromKid, hissued, hkeyset, hget⟩, ?_, ?_,
          ⟨active, ⟨nextKid, hnextKid, hactive⟩, hwindow.1, hwindow.2⟩, hordered, hahead⟩
        · dsimp only
          rw [hget _ (by decide), hversion]
          exact hto
        · dsimp only
          rw [hget _ (by decide)]
          exact hrotated
      · simp at h
    · simp at h
  · simp at h

/-- A listed proof that claims a version above `version`. -/
def claimsAbove (P : Primitives) (version : Nat) : Json → Option String
  | .str compact => if version < (hintedVersion P compact).getD 0 then some compact else none
  | _ => none

theorem hintedVersion_of_signed {compact type : String} {key : PublicKey} {jws : Jws}
    (h : Signed P compact key type jws) :
    hintedVersion P compact = integer (jws.claims.get "to_version") := by
  obtain ⟨_, payloadText, _, _, hparts, -, -, -, hclaims⟩ := h.verified
  obtain ⟨payload, hpayload, hread⟩ := Option.bind_eq_some_iff.mp hclaims
  simp [hintedVersion, hparts, hpayload, hread]

/-- The proofs that the loop does not pass over form a chain from the keyset that it
starts with to the one that it ends with. -/
theorem keysetLoop_chain {pinned current last : Json} {now before : Int} {items : List Json}
    (hbody : HasBody current)
    (h : keysetLoop P pinned now current before items = .ok last) (compact : String) :
    ∃ links : List Link,
      items.filterMap (claimsAbove P (bodyVersion pinned)) = links.map Link.compact ∧
      (⟨compact, current, before⟩ :: links).IsChain
        (Follows P (pinned.get "server_instance_id") now) ∧
      ((⟨compact, current, before⟩ :: links).getLast (by simp)).body = last := by
  induction items generalizing current before compact with
  | nil =>
    obtain rfl := Except.ok.inj h
    exact ⟨[], rfl, .singleton _, rfl⟩
  | cons item items ih =>
    cases item with
    | str proof =>
      rw [keysetLoop] at h
      split at h
      · simp at h
      rename_i toVersion hhint
      split at h
      · -- history that the pin covers
        rename_i hcovered
        obtain ⟨links, hlinks, hchain, hlast⟩ := ih hbody h compact
        refine ⟨links, ?_, hchain, hlast⟩
        rw [List.filterMap_cons_none, hlinks]
        simp only [claimsAbove, hhint, Option.getD_some, bodyVersion]
        exact if_neg (by omega)
      · rename_i habove
        split at h
        · simp at h
        rename_i next issued happly
        obtain ⟨hnext, hfollows⟩ := applyProof_follows hbody happly compact
        obtain ⟨links, hlinks, hchain, hlast⟩ := ih hnext h proof
        refine ⟨⟨proof, next, issued⟩ :: links, ?_, .cons_cons hfollows hchain, hlast⟩
        rw [List.filterMap_cons_some (b := proof), hlinks, List.map_cons]
        simp only [claimsAbove, hhint, Option.getD_some, bodyVersion]
        exact if_pos (by omega)
    | _ => simp [keysetLoop] at h

/-- Along a chain the versions count up by one. -/
theorem chain_versions {server : Json} {now : Int} {start : Link} {links : List Link}
    (h : (start :: links).IsChain (Follows P server now)) :
    links.map (fun link => hintedVersion P link.compact) =
        (List.range' (bodyVersion start.body + 1) links.length).map some ∧
      bodyVersion ((start :: links).getLast (by simp)).body =
        bodyVersion start.body + links.length := by
  induction links generalizing start with
  | nil => exact ⟨rfl, rfl⟩
  | cons link links ih =>
    obtain ⟨hfollows, hchain⟩ := List.isChain_cons_cons.mp h
    obtain ⟨hversions, hlast⟩ := ih hchain
    have hstep : bodyVersion link.body = bodyVersion start.body + 1 := by
      rw [bodyVersion, hfollows.version, Option.getD_some]
    obtain ⟨_, _, -, hsigned, -, -, -, -, -, hto, -⟩ := hfollows.signed
    refine ⟨?_, ?_⟩
    · rw [List.map_cons, hintedVersion_of_signed hsigned, hto, hversions, hstep, List.length_cons,
        List.range'_succ, List.map_cons]
    · rw [List.getLast_cons_cons, hlast, hstep, List.length_cons]
      omega

end Steps

/-- The caller's keyset after the call: it is cleared on entry and set only where the
call succeeds. -/
def verifyKeysetInto (P : Primitives) (_verified : Json) (pinnedJson candidateJson : Bytes)
    (now : Int) : Option Error × Json :=
  let verified := Json.null
  match verifyKeyset P pinnedJson candidateJson now with
  | .error e => (some e, verified)
  | .ok candidate => (none, candidate)

/-- The candidate is reached from the pinned keyset by `new - old` rotations. -/
structure KeysetTrusted (P : Primitives) (pinned candidate : Json) (now : Int) (old new : Nat) :
    Prop where
  server : candidate.get "server_instance_id" = pinned.get "server_instance_id"
  restoreEpoch : ∃ before after, integer (pinned.get "restore_epoch") = some before ∧
    integer (candidate.get "restore_epoch") = some after ∧ before ≤ after
  oldVersion : integer (pinned.get "keyset_version") = some old
  newVersion : integer (candidate.get "keyset_version") = some new
  version : old ≤ new
  unchanged : new = old → candidate.get "active_kid" = pinned.get "active_kid" ∧
    candidate.get "keys" = pinned.get "keys"
  rotated : ∃ links : List Link,
    ((candidate.get "rotation_proofs").items?.getD []).filterMap (claimsAbove P old) =
      links.map Link.compact ∧
    links.length = new - old ∧
    links.map (fun link => hintedVersion P link.compact) =
      (List.range' (old + 1) (new - old)).map some ∧
    (⟨"", pinned, 0⟩ :: links).IsChain (Follows P (pinned.get "server_instance_id") now) ∧
    ∀ link ∈ links.getLast?, ∀ name ∈ bodyNames, link.body.get name = candidate.get name
  active : ∃ key, ActiveKey P candidate key ∧
    key.notBeforeUnixMs ≤ now ∧ now < key.notAfterUnixMs

theorem keyset_numbers {P : Primitives} {value : Json} (h : keyset P value = true) :
    ∃ epoch, integer (value.get "restore_epoch") = some epoch ∧
      integer (value.get "keyset_version") = some (bodyVersion value) := by
  unfold keyset at h
  simp only [Bool.and_eq_true] at h
  obtain ⟨⟨⟨-, hepoch⟩, hbody⟩, -⟩ := h
  have hversion : ∃ version, integer (value.get "keyset_version") = some version := by
    unfold keysetBody at hbody
    split at hbody
    · exact ⟨_, ‹_›⟩
    · simp at hbody
  obtain ⟨version, hversion⟩ := hversion
  split at hepoch
  · exact ⟨_, ‹_›, by simp [bodyVersion, hversion]⟩
  · simp at hepoch

theorem verifyKeyset_inv {P : Primitives} {pinnedJson candidateJson : Bytes} {now : Int}
    {out : Json} (h : verifyKeyset P pinnedJson candidateJson now = .ok out) :
    ∃ pinned last, strictJson P pinnedJson 262144 = some pinned ∧
      strictJson P candidateJson 262144 = some out ∧ keyset P pinned = true ∧
      keyset P out = true ∧ out.get "server_instance_id" = pinned.get "server_instance_id" ∧
      (integer (pinned.get "restore_epoch")).getD 0 ≤ (integer (out.get "restore_epoch")).getD 0 ∧
      bodyVersion pinned ≤ bodyVersion out ∧
      keysetLoop P pinned now pinned 0 ((out.get "rotation_proofs").items?.getD []) = .ok last ∧
      sameBody last out = true ∧
      ∃ key, ActiveKey P out key ∧ key.notBeforeUnixMs ≤ now ∧ now < key.notAfterUnixMs := by
  unfold verifyKeyset at h
  split at h
  · simp at h
  split at h
  · rename_i pinned candidate hpinned hcandidate
    split at h
    · simp at h
    rename_i hkeysets
    split at h
    · simp at h
    rename_i hidentity
    split at h
    · simp at h
    rename_i last hloop
    split at h
    · simp at h
    rename_i hsame
    split at h
    · rename_i kid hkid
      split at h
      · simp at h
      rename_i active hactive
      split at h
      · rename_i hwindow
        obtain rfl := Except.ok.inj h
        push Not at hkeysets hidentity hsame
        rw [withinWindow_iff] at hwindow
        exact ⟨pinned, last, hpinned, hcandidate, hkeysets.1, hkeysets.2, hidentity.1,
          hidentity.2.1, hidentity.2.2, hloop, hsame, active, ⟨kid, hkid, hactive⟩, hwindow⟩
      · simp at h
    · simp at h
  · simp at h

theorem keysetTrusted_of_ok {P : Primitives} {pinnedJson candidateJson : Bytes} {now : Int}
    {out : Json} (h : verifyKeyset P pinnedJson candidateJson now = .ok out) :
    ∃ pinned old new, strictJson P pinnedJson 262144 = some pinned ∧
      strictJson P candidateJson 262144 = some out ∧ KeysetTrusted P pinned out now old new := by
  obtain ⟨pinned, last, hpinned, hout, hkeyset, hkeyset', hserver, hepoch, hversion, hloop, hsame,
    hactive⟩ := verifyKeyset_inv h
  obtain ⟨before, hbefore, hold⟩ := keyset_numbers hkeyset
  obtain ⟨after, hafter, hnew⟩ := keyset_numbers hkeyset'
  obtain ⟨links, hlinks, hchain, hlast⟩ := keysetLoop_chain (keyset_hasBody hkeyset) hloop ""
  obtain ⟨hversions, hcount⟩ := chain_versions hchain
  have hbody : ∀ name ∈ bodyNames, last.get name = out.get name := by
    simpa [sameBody] using hsame
  have hlength : links.length = bodyVersion out - bodyVersion pinned := by
    have hlastVersion : bodyVersion last = bodyVersion out := by
      rw [bodyVersion, hbody _ (by decide), bodyVersion]
    rw [hlast, hlastVersion] at hcount
    dsimp only at hcount
    omega
  refine ⟨pinned, bodyVersion pinned, bodyVersion out, hpinned, hout, hserver,
    ⟨before, after, hbefore, hafter, by simpa [hbefore, hafter] using hepoch⟩, hold, hnew, hversion,
    ?_, ⟨links, hlinks, hlength, hlength ▸ hversions, hchain, ?_⟩, hactive⟩
  · intro hequal
    -- no proof was applied, so the loop ended with the pinned keyset itself
    obtain rfl : links = [] := List.eq_nil_of_length_eq_zero (by omega)
    have hpin : pinned = last := hlast
    subst hpin
    exact ⟨(hbody _ (by decide)).symm, (hbody _ (by decide)).symm⟩
  · intro link hmem name hname
    rw [← hbody name hname, ← hlast]
    cases links with
    | nil => simp at hmem
    | cons first rest =>
      rw [List.getLast_cons_cons]
      rw [List.getLast?_eq_some_getLast (by simp), Option.mem_some_iff] at hmem
      rw [hmem]

namespace Renewed

open JsonText Reader

def zeros : String := "AAAAAAAAAAAAAAAAAAAAAAAAAAAAAAAAAAAAAAAAAAA"

def members : List (List Piece × Doc) :=
  [(name "server_instance_id", text "s"), (name "restore_epoch", Reader.number 1),
    (name "keyset_version", Reader.number 1), (name "active_kid", text zeros),
    (name "keys", .arr [.obj [(name "kid", text zeros), (name "alg", text "ES256"),
      (name "public_jwk", .obj [(name "kty", text "EC"), (name "crv", text "P-256"),
        (name "x", text zeros), (name "y", text zeros)]),
      (name "not_before", text "1970-01-01T00:00:00Z"),
      (name "not_after", text "1970-01-02T00:00:00Z")]]),
    (name "rotation_proofs", .arr [])]

end Renewed

end HomeTunnel.Remote.Auth
