import HomeTunnel.Lib.Runs

/-! # Remembered logins

`HomeDeskCredentialStore` of any number of instances over one directory. An operation holds
the file lock from its first step to its last; a step is one read, one call to the protection
of the system, one atomic replacement or one deletion, and may fail, with or without its
effect. A process may end between any two steps. The record file may be replaced by anything
from outside; what is protected opens only as it was made.
-/

namespace HomeTunnel.Credentials

abbrev Bytes := List UInt8

structure Credential where
  origin : String
  userId : String
  username : String
  displayName : String
  refreshToken : String
  -- an instant, in microseconds
  refreshExpiresAt : Int
  version : Int
deriving DecidableEq, Repr

/-- What is protected: a record with the generation it was saved under. -/
structure Envelope where
  generation : String
  credential : Credential
deriving DecidableEq, Repr

/-- What is taken from other libraries: addresses and the JSON form of an envelope. -/
structure Library (Plain : Type) where
  originOk : String → Bool
  encode : Envelope → Plain
  decode : Plain → Option Envelope
  decode_encode : ∀ envelope, decode (encode envelope) = some envelope

/-- The length of a text in Dart. -/
def utf16Length (text : String) : Nat :=
  (text.toList.map fun c => if 0xffff < c.toNat then 2 else 1).sum

def isText (max : Nat) (text : String) : Bool :=
  text ≠ "" && utf16Length text ≤ max && text.toList.all fun c => 32 ≤ c.toNat && c.toNat ≠ 127

def isHex (c : Char) : Bool := c.isDigit || ('a' ≤ c && c ≤ 'f') || ('A' ≤ c && c ≤ 'F')

def isUserId (text : String) : Bool :=
  text.toList.length = 36 && text.toList.zipIdx.all fun entry =>
    if [8, 13, 18, 23].contains entry.2 then entry.1 = '-' else isHex entry.1

def isUrlSafe (c : Char) : Bool := c.isAlphanum || c = '_' || c = '-'

def isToken (text : String) : Bool :=
  16 ≤ text.toList.length && text.toList.length ≤ 1024 && text.toList.all isUrlSafe

/-- The form of a generation: 43 characters of the alphabet of base64url. -/
def isGeneration (text : String) : Bool :=
  text.toList.length = 43 && text.toList.all isUrlSafe

inductive Failure
  | storageUnavailable
  | storageInvalid
  | credentialInvalid
  | credentialExpired
  | staleTransaction
deriving DecidableEq, Repr

inductive Task
  | begin
  | clear
  | consume
  | save (record : Credential) (transaction : String)
  | discard (transaction : String)
  | peekAccount
deriving DecidableEq, Repr

/-- What an operation returns. A lease names the operation and the generation that its record
was saved by and under. -/
inductive Answer
  | nothing
  | transaction (generation : String)
  | lease (record : Credential) (transaction : String) (savedBy : Nat) (under : String)
  | account (origin userId username displayName : String)
deriving DecidableEq, Repr

abbrev Result := Except Failure Answer

/-- Where an operation stands. From `rotating` on it holds the lock. -/
inductive Pc
  | idle
  | waiting
  | rotating (answer : String → Answer)
  | spoiled (failure : Failure)
  | deleting (result : Result)
  | exists
  | state
  | blob (generation : String)
  | retiring (generation : String) (blob : Except Failure Bytes)
  | decoding (generation : String) (blob : Except Failure Bytes) (transaction : String)
  | peeking (generation : String) (blob : Bytes)
  | comparing
  | protecting
  | writing (bytes : Bytes)
  | finishing (result : Result)
  | done (result : Result)
  | crashed

/-- Something protected, by the operation that asked for it. -/
structure Entry (Plain : Type) where
  bytes : Bytes
  plain : Plain
  savedBy : Nat

inductive Event
  | saved (w : Nat) (transaction : String)
  | begun (w : Nat)
  | cleared (w : Nat)
  | discarded (w : Nat) (transaction : String)
  | consumed (w : Nat) (record : Credential) (savedBy : Nat) (under : String)
deriving DecidableEq, Repr

structure Store (Plain : Type) where
  stateFile : Option String
  record : Option Bytes
  vault : List (Entry Plain)
  generated : List String
  -- the generations that the state file held and no longer holds
  retired : List String
  now : Int
  holder : Option Nat
  tasks : Nat → Option Task
  pcs : Nat → Pc
  -- the newest first
  log : List Event

/-- A step succeeds, fails before its effect or fails after it. -/
inductive Outcome
  | ok
  | failed
  | lost
deriving DecidableEq, Repr

/-- What the system gives to a step: the generation it makes up, the protected bytes. -/
structure Input where
  outcome : Outcome
  generation : String
  bytes : Bytes
deriving DecidableEq, Repr

inductive Action
  | tick (elapsed : Nat)
  | start (w : Nat) (task : Task)
  | go (w : Nat) (input : Input)
  | crash (w : Nat)
  | replace (record : Option Bytes)
deriving DecidableEq, Repr

def magic : Bytes := [0x48, 0x44, 0x50, 0x31]

def maxBlobBytes : Nat := 65536

namespace Store

variable {Plain : Type} (lib : Library Plain)

def validated (now : Int) (record : Credential) : Except Failure Credential :=
  if !(isText 4096 record.origin && lib.originOk record.origin && isText 36 record.userId &&
      isUserId record.userId && isText 1024 record.refreshToken && isToken record.refreshToken &&
      record.version = 1 && isText 128 record.username && isText 120 record.displayName) then
    .error .credentialInvalid
  else if record.refreshExpiresAt ≤ now then .error .credentialExpired
  else .ok record

def move (s : Store Plain) (w : Nat) (pc : Pc) : Store Plain :=
  { s with pcs := Function.update s.pcs w pc }

def fail (s : Store Plain) (w : Nat) (failure : Failure) : Store Plain :=
  s.move w (.finishing (.error failure))

/-- `_state`: the empty text if there is no file. -/
def readState (s : Store Plain) : Except Failure String :=
  match s.stateFile with
  | none => .ok ""
  | some value => if isGeneration value then .ok value else .error .storageInvalid

/-- The state file gets a new generation. -/
def setState (s : Store Plain) (generation : String) : Store Plain :=
  { s with
    stateFile := some generation
    retired := s.stateFile.toList ++ s.retired }

/-- `_rotate`, with a generation that was not made up before. -/
def rotate (s : Store Plain) (w : Nat) (input : Input) (next : Pc) : Store Plain :=
  if !isGeneration input.generation || s.generated.contains input.generation then s
  else
    let made := { s with generated := input.generation :: s.generated }
    match input.outcome with
    | .ok => (made.setState input.generation).move w next
    | .failed => made.fail w .storageUnavailable
    | .lost => (made.setState input.generation).fail w .storageUnavailable

def deleteRecord (s : Store Plain) (w : Nat) (input : Input) (result : Result) : Store Plain :=
  match input.outcome with
  | .ok => { s with record := none }.move w (.finishing result)
  | .failed => s.fail w .storageUnavailable
  | .lost => { s with record := none }.fail w .storageUnavailable

/-- `_readBlob`. `none` stands for an error of the file system. -/
def readBlob (s : Store Plain) (input : Input) : Option (Except Failure Bytes) :=
  match input.outcome, s.record with
  | .ok, some bytes =>
    if bytes.length ≤ magic.length || maxBlobBytes < bytes.length ||
        bytes.take magic.length ≠ magic then
      some (.error .storageInvalid)
    else some (.ok (bytes.drop magic.length))
  | _, _ => none

/-- `_decode`, with the operation that saved the record. -/
def decode (s : Store Plain) (input : Input) (blob : Bytes) (generation : String) :
    Except Failure (Credential × Nat) :=
  if input.outcome ≠ .ok then .error .storageUnavailable
  else
    match s.vault.find? (·.bytes = blob) with
    | none => .error .storageUnavailable
    | some entry =>
      match lib.decode entry.plain with
      | none => .error .credentialInvalid
      | some envelope =>
        if envelope.generation ≠ generation then .error .credentialInvalid
        else
          match validated lib s.now envelope.credential with
          | .error failure => .error failure
          | .ok record => .ok (record, entry.savedBy)

/-- The first step of an operation under the lock. -/
def enter : Task → Pc
  | .begin => .rotating .transaction
  | .clear => .rotating fun _ => .nothing
  | .consume | .peekAccount => .exists
  | .save _ _ | .discard _ => .comparing

def lock (s : Store Plain) (w : Nat) (task : Task) (input : Input) : Store Plain :=
  match input.outcome with
  | .ok => if s.holder = none then { s with holder := some w }.move w (enter task) else s
  | .failed | .lost => s.move w (.done (.error .storageUnavailable))

/-- An error of a read: `peekAccount` rotates and deletes, the others return it. -/
def readFailed (s : Store Plain) (w : Nat) (task : Task) (failure : Failure) : Store Plain :=
  if task = .peekAccount then s.move w (.spoiled failure) else s.fail w failure

/-- Whether the transaction is the current one. A malformed one is not looked up. -/
def isCurrent (s : Store Plain) (transaction : String) (input : Input) : Except Failure Bool :=
  if !isGeneration transaction then .ok false
  else
    match input.outcome, s.readState with
    | .ok, .ok value => .ok (value = transaction)
    | .ok, .error failure => .error failure
    | _, _ => .error .storageUnavailable

def compare (s : Store Plain) (w : Nat) (task : Task) (input : Input) : Store Plain :=
  match task with
  | .save _ transaction =>
    match s.isCurrent transaction input with
    | .error failure => s.fail w failure
    | .ok false => s.fail w .staleTransaction
    | .ok true => s.move w .protecting
  | .discard transaction =>
    match s.isCurrent transaction input with
    | .error failure => s.fail w failure
    | .ok false => s.move w (.finishing (.ok .nothing))
    | .ok true => s.move w (.rotating fun _ => .nothing)
  | _ => s

/-- The protection answers with bytes that it did not give before. -/
def protect (s : Store Plain) (w : Nat) (record : Credential) (transaction : String)
    (input : Input) : Store Plain :=
  if input.outcome ≠ .ok then s.fail w .storageUnavailable
  else if s.vault.any (·.bytes = input.bytes) then s
  else
    { s with
      vault := ⟨input.bytes, lib.encode ⟨transaction, record⟩, w⟩ :: s.vault }.move w
        (.writing input.bytes)

def write (s : Store Plain) (w : Nat) (transaction : String) (bytes : Bytes) (input : Input) :
    Store Plain :=
  let written := { s with
    record := some (magic ++ bytes)
    log := .saved w transaction :: s.log }
  match input.outcome with
  | .ok => written.move w (.finishing (.ok .nothing))
  | .failed => s.fail w .storageUnavailable
  | .lost => written.fail w .storageUnavailable

/-- What the return of an operation means. -/
def completion (w : Nat) (task : Task) : Result → Option Event
  | .error _ => none
  | .ok answer =>
    match task, answer with
    | .begin, _ => some (.begun w)
    | .clear, _ => some (.cleared w)
    | .discard transaction, _ => some (.discarded w transaction)
    | .consume, .lease record _ savedBy under => some (.consumed w record savedBy under)
    | _, _ => none

/-- The lock is given back, and the operation returns; a failure to unlock is its result. -/
def finish (s : Store Plain) (w : Nat) (task : Task) (result : Result) (input : Input) :
    Store Plain :=
  let free := { s with holder := none }
  if input.outcome = .ok then
    { free with log := (completion w task result).toList ++ s.log }.move w (.done result)
  else free.move w (.done (.error .storageUnavailable))

def leaseResult (transaction under : String) : Except Failure (Credential × Nat) → Result
  | .error failure => .error failure
  | .ok (record, savedBy) => .ok (.lease record transaction savedBy under)

def go (s : Store Plain) (w : Nat) (task : Task) (input : Input) : Store Plain :=
  match s.pcs w with
  | .idle | .done _ | .crashed => s
  | .waiting => s.lock w task input
  | .rotating answer => s.rotate w input (.deleting (.ok (answer input.generation)))
  | .spoiled failure => s.rotate w input (.deleting (.error failure))
  | .deleting result => s.deleteRecord w input result
  | .exists =>
    if input.outcome ≠ .ok then s.fail w .storageUnavailable
    else if s.record = none then s.move w (.finishing (.ok .nothing))
    else s.move w .state
  | .state =>
    match input.outcome, s.readState with
    | .ok, .ok generation => s.move w (.blob generation)
    | .ok, .error failure => s.readFailed w task failure
    | _, _ => s.readFailed w task .storageUnavailable
  | .blob generation =>
    match s.readBlob input with
    | none => s.readFailed w task .storageUnavailable
    | some blob =>
      if task = .peekAccount then
        match blob with
        | .error failure => s.readFailed w task failure
        | .ok bytes => s.move w (.peeking generation bytes)
      else s.move w (.retiring generation blob)
  | .retiring generation blob => s.rotate w input (.decoding generation blob input.generation)
  | .decoding generation blob transaction =>
    match blob with
    | .error failure => s.move w (.deleting (.error failure))
    | .ok bytes =>
      s.move w (.deleting
        (leaseResult transaction generation (s.decode lib input bytes generation)))
  | .peeking generation bytes =>
    match s.decode lib input bytes generation with
    | .error failure => s.move w (.spoiled failure)
    | .ok (record, _) =>
      s.move w (.finishing (.ok (.account record.origin record.userId record.username
        record.displayName)))
  | .comparing => s.compare w task input
  | .protecting =>
    match task with
    | .save record transaction => s.protect lib w record transaction input
    | _ => s
  | .writing bytes =>
    match task with
    | .save _ transaction => s.write w transaction bytes input
    | _ => s
  | .finishing result => s.finish w task result input

/-- An operation starts; a record to be saved is validated first. -/
def start (s : Store Plain) (w : Nat) (task : Task) : Store Plain :=
  match s.tasks w with
  | some _ => s
  | none =>
    let begun := { s with tasks := Function.update s.tasks w (some task) }
    match task with
    | .save record _ =>
      match validated lib s.now record with
      | .error failure => begun.move w (.done (.error failure))
      | .ok _ => begun.move w .waiting
    | _ => begun.move w .waiting

def crash (s : Store Plain) (w : Nat) : Store Plain :=
  { s with holder := if s.holder = some w then none else s.holder }.move w .crashed

def step (s : Store Plain) : Action → Store Plain
  | .tick elapsed => { s with now := s.now + elapsed }
  | .start w task => s.start lib w task
  | .go w input =>
    match s.tasks w with
    | none => s
    | some task => s.go lib w task input
  | .crash w => s.crash w
  | .replace record => { s with record := record }

/-- An empty directory. -/
def fresh : Store Plain where
  stateFile := none
  record := none
  vault := []
  generated := []
  retired := []
  now := 0
  holder := none
  tasks := fun _ => none
  pcs := fun _ => .idle
  log := []

end Store

end HomeTunnel.Credentials
