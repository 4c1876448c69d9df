import HomeTunnel.Lib.Json
import HomeTunnel.Native.Authorization

/-! # Messages of the file channel

The bodies that two file endpoints exchange: six JSON bodies and the binary
chunk. `decodeMessage` collects the checks that `FileTransfer::Impl::receive`
makes on a payload before it looks at its own items; `FileMessage.payload` is
what the endpoint writes.
-/

namespace HomeTunnel.Remote.Files

open Auth (utf8 fields)

/-- The JSON library, with the options that `parse` and `json` set. `uint64` is
`isUInt64` together with `asUInt64`. -/
structure JsonLibrary where
  read : Bytes → Option Json
  write : Json → Bytes
  uint64 : Json → Option UInt64

def hexDigits : List Char := "0123456789abcdef".toList

def hexDigit (value : UInt8) : Char := hexDigits.getD value.toNat '0'

def hexChars (bytes : Bytes) : List Char :=
  bytes.flatMap fun (c : UInt8) => [hexDigit (c >>> 4), hexDigit (c &&& 15)]

def hex (bytes : Bytes) : String := String.ofList (hexChars bytes)

def uuidText (bytes : Bytes) : String :=
  let value := hexChars bytes
  String.ofList (value.take 8 ++ '-' :: (value.drop 8).take 4 ++ '-' :: (value.drop 12).take 4 ++
    '-' :: (value.drop 16).take 4 ++ '-' :: value.drop 20)

def nibble (c : Char) : Option UInt8 :=
  if '0' ≤ c ∧ c ≤ '9' then some (UInt8.ofNat (c.toNat - 48))
  else if 'a' ≤ c ∧ c ≤ 'f' then some (UInt8.ofNat (c.toNat - 87))
  else none

/-- The loop of `uuidBytes` from position `n` on. -/
def uuidLoop : Nat → List Char → Option Bytes
  | _, [] => some []
  | n, [c] => if (n = 8 ∨ n = 13 ∨ n = 18 ∨ n = 23) ∧ c = '-' then some [] else none
  | n, c :: d :: rest =>
    if n = 8 ∨ n = 13 ∨ n = 18 ∨ n = 23 then
      if c ≠ '-' then none else uuidLoop (n + 1) (d :: rest)
    else
      match nibble c, nibble d with
      | some hi, some lo => (uuidLoop (n + 2) rest).map ((hi * 16 + lo) :: ·)
      | _, _ => none

def uuidBytes (text : String) : Option Bytes :=
  if text.toList.length ≠ 36 then none else uuidLoop 0 text.toList

def digestText (value : Json) : Option String :=
  match value with
  | .str text =>
    if (utf8 text).length = 64 ∧
        text.toList.all fun c => ('0' ≤ c && c ≤ '9') || ('a' ≤ c && c ≤ 'f') then some text
    else none
  | _ => none

def forbiddenBytes : Bytes := utf8 "/\\:<>\"|?*"

def upper (c : UInt8) : UInt8 := if 97 ≤ c ∧ c ≤ 122 then c - 97 + 65 else c

def deviceName (base : Bytes) : Bool :=
  base == utf8 "CON" || base == utf8 "PRN" || base == utf8 "AUX" || base == utf8 "NUL" ||
    (base.length == 4 && (base.take 3 == utf8 "COM" || base.take 3 == utf8 "LPT") &&
      49 ≤ byteAt base 3 && byteAt base 3 ≤ 57)

def utf16Units (name : Bytes) : Nat :=
  (name.map fun byte => if byte &&& 0xc0 = 0x80 then 0 else if byte ≥ 0xf0 then 2 else 1).sum

def fileNameAllowed (text : String) : Bool :=
  let name := utf8 text
  if name.isEmpty ∨ name.length > 1020 ∨ name = [46] ∨ name = [46, 46] ∨
      name.getLast? = some 46 ∨ name.getLast? = some 32 ∨ ¬ validUtf8 name then false
  else if utf16Units name > 255 then false
  else if name.any fun c => c < 32 || forbiddenBytes.contains c then false
  else !deviceName ((name.takeWhile (· ≠ 46)).map upper)

/-- A message as the endpoints mean it. The two shapes of an acknowledgement
are the one of a chunk and the final one. -/
inductive FileMessage
  | offer (id name : String) (size : Nat)
  | accept (id : String)
  | chunk (id : String) (offset : Nat) (bytes : Bytes)
  | complete (id : String) (size : Nat) (digest : String)
  | ackOffset (id : String) (offset : Nat)
  | ackDigest (id digest : String)
  | cancel (id : String)
deriving DecidableEq, Repr

def FileMessage.id : FileMessage → String
  | offer id .. | accept id | chunk id .. | complete id .. | ackOffset id _ | ackDigest id _
  | cancel id => id

def FileMessage.type : FileMessage → UInt8
  | offer .. => Protocol.fileOffer
  | accept _ => Protocol.fileAccept
  | chunk .. => Protocol.fileChunk
  | complete .. => Protocol.fileComplete
  | ackOffset .. | ackDigest .. => Protocol.fileAck
  | cancel _ => Protocol.fileCancel

/-- The bodies of the JSON messages, members by ascending name. -/
def FileMessage.body : FileMessage → Json
  | offer id name size => .obj [("id", .str id), ("name", .str name), ("size", .int size)]
  | accept id => .obj [("id", .str id)]
  | chunk .. => .null
  | complete id size digest =>
    .obj [("id", .str id), ("sha256", .str digest), ("size", .int size)]
  | ackOffset id offset => .obj [("id", .str id), ("offset", .int offset)]
  | ackDigest id digest => .obj [("id", .str id), ("sha256", .str digest)]
  | cancel id => .obj [("id", .str id), ("reason", .str "cancelled")]

def u64Bytes (value : Nat) : Bytes :=
  (List.range 8).map fun n => UInt8.ofNat (value >>> (56 - 8 * n))

def chunkPayload (uuid : Bytes) (offset : Nat) (bytes : Bytes) : Bytes :=
  uuid ++ u64Bytes offset ++ bytes

section Decoding

variable (L : JsonLibrary)

def parse (bytes : Bytes) : Option Json :=
  if bytes.isEmpty ∨ bytes.length > 17384 ∨ ¬ validUtf8 bytes then none
  else
    match L.read bytes with
    | some (.obj members) => some (.obj members)
    | _ => none

def decodeChunk (payload : Bytes) : Option FileMessage :=
  if payload.length ≤ 24 ∨ payload.length > 24 + Protocol.fileChunkBytes then none
  else
    let offset := (readU64 payload 16).toNat
    let bytes := payload.drop 24
    if offset > Protocol.fileBytes ∨ bytes.length > Protocol.fileBytes - offset then none
    else some (.chunk (uuidText (payload.take 16)) offset bytes)

/-- A size or an offset within the bound of one file. -/
def boundedSize (value : Json) : Option Nat :=
  match L.uint64 value with
  | none => none
  | some n => if n.toNat > Protocol.fileBytes then none else some n.toNat

def decodeOffer (id : String) (body : Json) : Option FileMessage :=
  if ¬ fields body ["id", "name", "size"] then none
  else
    match body.get "name" with
    | .str name =>
      if ¬ fileNameAllowed name then none
      else (boundedSize L (body.get "size")).map (.offer id name)
    | _ => none

def decodeCancel (id : String) (body : Json) : Option FileMessage :=
  if fields body ["id"] then some (.cancel id)
  else if ¬ fields body ["id", "reason"] then none
  else
    match body.get "reason" with
    | .str reason => if (utf8 reason).length ≤ 64 then some (.cancel id) else none
    | _ => none

def decodeAccept (id : String) (body : Json) : Option FileMessage :=
  if fields body ["id"] then some (.accept id) else none

def decodeComplete (id : String) (body : Json) : Option FileMessage :=
  if ¬ fields body ["id", "size", "sha256"] then none
  else
    match boundedSize L (body.get "size"), digestText (body.get "sha256") with
    | some size, some digest => some (.complete id size digest)
    | _, _ => none

def decodeAck (id : String) (body : Json) : Option FileMessage :=
  if fields body ["id", "offset"] then
    (boundedSize L (body.get "offset")).map (.ackOffset id)
  else if fields body ["id", "sha256"] then
    (digestText (body.get "sha256")).map (.ackDigest id)
  else none

def decodeBody (type : UInt8) (payload : Bytes) : Option FileMessage :=
  match parse L payload with
  | none => none
  | some body =>
    match body.get "id" with
    | .str id =>
      if (uuidBytes id).isNone then none
      else if type = Protocol.fileOffer then decodeOffer L id body
      else if type = Protocol.fileCancel then decodeCancel id body
      else if type = Protocol.fileAccept then decodeAccept id body
      else if type = Protocol.fileComplete then decodeComplete L id body
      else decodeAck L id body
    | _ => none

/-- The checks of `receive` that depend on the frame alone. -/
def decodeMessage (type : UInt8) (payload : Bytes) : Option FileMessage :=
  if type < Protocol.fileOffer ∨ type > Protocol.fileCancel then none
  else if type = Protocol.fileChunk then decodeChunk payload
  else decodeBody L type payload

/-- What `send` is given for a queued message. -/
def FileMessage.payload (message : FileMessage) : Bytes :=
  match message with
  | .chunk id offset bytes => chunkPayload ((uuidBytes id).getD []) offset bytes
  | message => L.write message.body

end Decoding

section Decoded

variable {L : JsonLibrary} {id : String} {body : Json} {message : FileMessage} {type : UInt8}
  {payload : Bytes}

theorem boundedSize_le {value : Json} {size : Nat} (h : boundedSize L value = some size) :
    size ≤ Protocol.fileBytes := by
  unfold boundedSize at h
  split at h
  · cases h
  · split at h
    · cases h
    · cases h
      omega

theorem decodeOffer_spec (h : decodeOffer L id body = some message) :
    ∃ name size, message = .offer id name size ∧ fileNameAllowed name ∧
      size ≤ Protocol.fileBytes := by
  unfold decodeOffer at h
  split at h
  · cases h
  · split at h
    · split at h
      · cases h
      · rename_i name _ hname
        obtain ⟨size, hsize, rfl⟩ := Option.map_eq_some_iff.mp h
        exact ⟨name, size, rfl, by simpa using hname, boundedSize_le hsize⟩
    · cases h

theorem decodeCancel_spec (h : decodeCancel id body = some message) : message = .cancel id := by
  unfold decodeCancel at h
  split at h
  · exact (Option.some.inj h).symm
  · split at h
    · cases h
    · split at h
      · split at h
        · exact (Option.some.inj h).symm
        · cases h
      · cases h

theorem decodeAccept_spec (h : decodeAccept id body = some message) : message = .accept id := by
  unfold decodeAccept at h
  split at h
  · exact (Option.some.inj h).symm
  · cases h

theorem decodeComplete_spec (h : decodeComplete L id body = some message) :
    ∃ size digest, message = .complete id size digest := by
  unfold decodeComplete at h
  split at h
  · cases h
  · split at h
    · rename_i size digest _ _
      exact ⟨size, digest, (Option.some.inj h).symm⟩
    · cases h

theorem decodeAck_spec (h : decodeAck L id body = some message) :
    (∃ offset, message = .ackOffset id offset) ∨ ∃ digest, message = .ackDigest id digest := by
  unfold decodeAck at h
  split at h
  · obtain ⟨offset, -, rfl⟩ := Option.map_eq_some_iff.mp h
    exact .inl ⟨offset, rfl⟩
  · split at h
    · obtain ⟨digest, -, rfl⟩ := Option.map_eq_some_iff.mp h
      exact .inr ⟨digest, rfl⟩
    · cases h

theorem decodeChunk_spec (h : decodeChunk payload = some message) :
    message = .chunk (uuidText (payload.take 16)) (readU64 payload 16).toNat (payload.drop 24) := by
  unfold decodeChunk at h
  split at h
  · cases h
  · dsimp only at h
    split at h
    · cases h
    · exact (Option.some.inj h).symm

/-- The decoder that a JSON body of that type goes to. -/
inductive DecodedBody (L : JsonLibrary) (id : String) (body : Json) (message : FileMessage) :
    UInt8 → Prop
  | offer (h : decodeOffer L id body = some message) :
      DecodedBody L id body message Protocol.fileOffer
  | cancel (h : decodeCancel id body = some message) :
      DecodedBody L id body message Protocol.fileCancel
  | accept (h : decodeAccept id body = some message) :
      DecodedBody L id body message Protocol.fileAccept
  | complete (h : decodeComplete L id body = some message) :
      DecodedBody L id body message Protocol.fileComplete
  | ack (h : decodeAck L id body = some message) : DecodedBody L id body message Protocol.fileAck

/-- The types of the file channel, one of which is left when the others are excluded. -/
theorem fileAck_of_range (hrange : ¬ (type < Protocol.fileOffer ∨ type > Protocol.fileCancel))
    (hchunk : type ≠ Protocol.fileChunk) (hoffer : type ≠ Protocol.fileOffer)
    (hcancel : type ≠ Protocol.fileCancel) (haccept : type ≠ Protocol.fileAccept)
    (hcomplete : type ≠ Protocol.fileComplete) : type = Protocol.fileAck := by
  simp only [Protocol.fileOffer, Protocol.fileCancel, Protocol.fileChunk, Protocol.fileAccept,
    Protocol.fileComplete, Protocol.fileAck, UInt8.lt_iff_toNat_lt, gt_iff_lt, ne_eq,
    ← UInt8.toNat_inj, UInt8.reduceToNat] at *
  omega

theorem decodeMessage_cases (h : decodeMessage L type payload = some message) :
    (type = Protocol.fileChunk ∧ decodeChunk payload = some message) ∨
      ∃ body id, parse L payload = some body ∧ body.get "id" = .str id ∧
        (uuidBytes id).isSome ∧ DecodedBody L id body message type := by
  unfold decodeMessage at h
  by_cases hrange : type < Protocol.fileOffer ∨ type > Protocol.fileCancel
  · rw [if_pos hrange] at h
    cases h
  rw [if_neg hrange] at h
  by_cases hchunk : type = Protocol.fileChunk
  · rw [if_pos hchunk] at h
    exact .inl ⟨hchunk, h⟩
  rw [if_neg hchunk] at h
  unfold decodeBody at h
  cases hparse : parse L payload with
  | none => simp [hparse] at h
  | some body =>
    rw [hparse] at h
    dsimp only at h
    split at h
    swap
    · cases h
    rename_i id hid
    split at h
    · cases h
    rename_i huuid
    refine .inr ⟨body, id, rfl, hid, by simpa [Option.isSome_iff_ne_none] using huuid, ?_⟩
    by_cases hoffer : type = Protocol.fileOffer
    · rw [if_pos hoffer] at h
      exact hoffer ▸ .offer h
    rw [if_neg hoffer] at h
    by_cases hcancel : type = Protocol.fileCancel
    · rw [if_pos hcancel] at h
      exact hcancel ▸ .cancel h
    rw [if_neg hcancel] at h
    by_cases haccept : type = Protocol.fileAccept
    · rw [if_pos haccept] at h
      exact haccept ▸ .accept h
    rw [if_neg haccept] at h
    by_cases hcomplete : type = Protocol.fileComplete
    · rw [if_pos hcomplete] at h
      exact hcomplete ▸ .complete h
    rw [if_neg hcomplete] at h
    exact fileAck_of_range hrange hchunk hoffer hcancel haccept hcomplete ▸ .ack h

theorem decode_offer_spec {name : String} {size : Nat}
    (h : decodeMessage L type payload = some (.offer id name size)) :
    (uuidBytes id).isSome ∧ fileNameAllowed name ∧ size ≤ Protocol.fileBytes := by
  rcases decodeMessage_cases h with ⟨-, hchunk⟩ | ⟨body, other, -, -, huuid, hbody⟩
  · cases decodeChunk_spec hchunk
  · cases hbody with
    | offer hdecode =>
      obtain ⟨_, _, heq, hname, hsize⟩ := decodeOffer_spec hdecode
      cases heq
      exact ⟨huuid, hname, hsize⟩
    | cancel hdecode => cases decodeCancel_spec hdecode
    | accept hdecode => cases decodeAccept_spec hdecode
    | complete hdecode =>
      obtain ⟨_, _, heq⟩ := decodeComplete_spec hdecode
      cases heq
    | ack hdecode => obtain ⟨_, heq⟩ | ⟨_, heq⟩ := decodeAck_spec hdecode <;> cases heq

theorem decode_offer_size {name : String} {size : Nat}
    (h : decodeMessage L type payload = some (.offer id name size)) :
    size ≤ Protocol.fileBytes := (decode_offer_spec h).2.2

end Decoded

end HomeTunnel.Remote.Files
