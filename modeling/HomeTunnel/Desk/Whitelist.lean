import HomeTunnel.Agent.HttpsTargets

/-! # Private whitelists

`normalize_private_whitelist` looks only at the first and the last address of each block, and
`address_in_whitelist` reads the same text a second time. A block is here what it is for: the
addresses that agree with one address on the first bits.
-/

namespace HomeTunnel.Desk

open Agent (isSpace trim)

def isSeparator (c : Char) : Bool := c == ',' || c == ';' || isSpace c

/-- The items of a whitelist, as `split` and `filter` leave them. -/
def items (whitelist : List Char) : List (List Char) :=
  (whitelist.splitOnP isSeparator).filter (· ≠ [])

/-- `parse` for an unsigned type, with the sign that it admits. -/
def parseUnsigned (most : Nat) (text : List Char) : Option Nat :=
  let digits := match text with
    | '+' :: rest => rest
    | _ => text
  (Decimal.readNat digits).filter (· ≤ most)

def octet (text : List Char) : Option Nat :=
  if text.length ≤ 3 ∧ (text.length = 1 ∨ text.head? ≠ some '0') then
    (Decimal.readNat text).filter (· ≤ 255)
  else none

abbrev Ipv4Addr := BitVec 32

def parseIpv4Addr (text : List Char) : Option Ipv4Addr :=
  match (text.splitOn '.').map octet with
  | [some a, some b, some c, some d] => some (BitVec.ofNat 32 (((a * 256 + b) * 256 + c) * 256 + d))
  | _ => none

def mask (bits : Nat) : Ipv4Addr := if bits = 0 then 0 else BitVec.allOnes 32 <<< (32 - bits)

/-- An address, with its number of bits or all of them. -/
def parseEntry (entry : List Char) : Option (Ipv4Addr × Nat) :=
  let (address, bits) := match entry.dropWhile (· ≠ '/') with
    | [] => (entry, ['3', '2'])
    | _ :: bits => (entry.takeWhile (· ≠ '/'), bits)
  match parseIpv4Addr address, parseUnsigned (2 ^ 32 - 1) bits with
  | some address, some bits => some (address, bits)
  | _, _ => none

def isRfc1918 (ip : Ipv4Addr) : Bool :=
  let a := ip.toNat / 2 ^ 24
  let b := ip.toNat / 2 ^ 16 % 2 ^ 8
  a == 10 || (a == 172 && 16 ≤ b && b ≤ 31) || (a == 192 && b == 168)

def privateBlock (raw : Ipv4Addr) : Option Nat :=
  let a := raw.toNat / 2 ^ 24
  let b := raw.toNat / 2 ^ 16 % 2 ^ 8
  if a = 10 then some 10
  else if a = 172 ∧ 16 ≤ b ∧ b ≤ 31 then some 172
  else if a = 192 ∧ b = 168 then some 192
  else none

def validItem (item : List Char) : Bool :=
  match parseEntry (trim isSpace item) with
  | none => false
  | some (address, bits) =>
    if bits > 32 then false
    else
      let network := address &&& mask bits
      let broadcast := network ||| ~~~ mask bits
      (privateBlock network).isSome && privateBlock network == privateBlock broadcast

def normalizePrivateWhitelist (whitelist : List Char) : Option (List Char) :=
  if items whitelist = [] then none
  else if (items whitelist).all validItem then some ([','].intercalate (items whitelist))
  else none

/-- The addresses agree under the mask. With more than 32 bits the shift would not be defined;
`validItem` has refused such an entry before. -/
def entryAdmits (ip : Ipv4Addr) (entry : List Char) : Bool :=
  match parseEntry entry with
  | none => false
  | some (address, bits) => ip &&& mask bits == address &&& mask bits

/-- The text without a port that is valid and not zero; the port stands behind the last colon. -/
def withoutPort (address : List Char) : List Char :=
  let port := (address.reverse.takeWhile (· ≠ ':')).reverse
  match address.reverse.dropWhile (· ≠ ':') with
  | [] => address
  | _ :: before => if (parseUnsigned 65535 port).any (0 < ·) then before.reverse else address

def addressInWhitelist (address whitelist : List Char) : Bool :=
  match parseIpv4Addr (withoutPort address) with
  | none => false
  | some ip =>
    (normalizePrivateWhitelist whitelist).isSome &&
      (whitelist.splitOnP isSeparator).any (entryAdmits ip)

/-- The addresses that agree with this one on the first bits. -/
structure Block where
  address : Ipv4Addr
  bits : Nat
  bits_le : bits ≤ 32

def Block.Mem (block : Block) (ip : Ipv4Addr) : Prop :=
  ip.toNat / 2 ^ (32 - block.bits) = block.address.toNat / 2 ^ (32 - block.bits)

def readBlock (item : List Char) : Option Block :=
  match parseEntry item with
  | none => none
  | some (address, bits) => if h : bits ≤ 32 then some ⟨address, bits, h⟩ else none

/-- `10.0.0.0/8`, `172.16.0.0/12` and `192.168.0.0/16`. -/
def privateBlocks : List Block :=
  [⟨0x0a000000, 8, by decide⟩, ⟨0xac100000, 12, by decide⟩, ⟨0xc0a80000, 16, by decide⟩]

/-- The block lies completely inside one of the private ones. -/
def Block.Private (block : Block) : Prop :=
  ∃ home ∈ privateBlocks, ∀ ip, block.Mem ip → home.Mem ip

/-- The text is the address, alone or with a port. -/
def AddressText (address : List Char) (ip : Ipv4Addr) : Prop :=
  parseIpv4Addr address = some ip ∨ ∃ host port n, address = host ++ ':' :: port ∧
    parseUnsigned 65535 port = some n ∧ 0 < n ∧ parseIpv4Addr host = some ip

theorem and_shifted {w : Nat} (x : BitVec w) (k : Nat) :
    x &&& (BitVec.allOnes w <<< k) = (x >>> k) <<< k := by
  ext i hi
  simp only [BitVec.getElem_and, BitVec.getElem_shiftLeft, BitVec.getElem_allOnes,
    BitVec.getElem_ushiftRight]
  by_cases hk : i < k
  · simp [hk]
  · have hback : k + (i - k) = i := by omega
    simp [hk, hback, BitVec.getLsbD_eq_getElem hi]

theorem toNat_and_mask (ip : Ipv4Addr) (bits : Nat) :
    (ip &&& mask bits).toNat = ip.toNat / 2 ^ (32 - bits) * 2 ^ (32 - bits) := by
  have hmask : mask bits = BitVec.allOnes 32 <<< (32 - bits) := by
    unfold mask
    split
    · next hzero =>
      rw [hzero]
      rfl
    · rfl
  rw [hmask, and_shifted, BitVec.toNat_shiftLeft, BitVec.toNat_ushiftRight,
    Nat.shiftRight_eq_div_pow, Nat.shiftLeft_eq]
  exact Nat.mod_eq_of_lt ((Nat.div_mul_le_self _ _).trans_lt ip.isLt)

theorem Block.mem_iff (block : Block) (ip : Ipv4Addr) :
    ip &&& mask block.bits = block.address &&& mask block.bits ↔ block.Mem ip := by
  rw [← BitVec.toNat_inj, toNat_and_mask, toNat_and_mask,
    Nat.mul_left_inj (Nat.two_pow_pos _).ne']
  rfl

/-- The last address of the block of `ip` is the first with all the other bits. -/
theorem le_broadcast (ip m : Ipv4Addr) : ip.toNat ≤ ((ip &&& m) ||| ~~~ m).toNat := by
  have hall : (ip &&& m) ||| ~~~ m = ip ||| ~~~ m := by
    ext i hi
    simp only [BitVec.getElem_and, BitVec.getElem_or, BitVec.getElem_not]
    cases ip[i] <;> cases m[i] <;> rfl
  rw [hall, BitVec.toNat_or]
  exact Nat.left_le_or

theorem same_home {a b : Ipv4Addr} :
    ((privateBlock a).isSome && privateBlock a == privateBlock b) = true ↔
      ∃ home ∈ privateBlocks, home.Mem a ∧ home.Mem b := by
  have hhome : (∃ home ∈ privateBlocks, home.Mem a ∧ home.Mem b) ↔
      (a.toNat / 2 ^ 24 = 10 ∧ b.toNat / 2 ^ 24 = 10) ∨
      (a.toNat / 2 ^ 20 = 0xac1 ∧ b.toNat / 2 ^ 20 = 0xac1) ∨
      (a.toNat / 2 ^ 16 = 0xc0a8 ∧ b.toNat / 2 ^ 16 = 0xc0a8) := by
    simp [privateBlocks, Block.Mem]
  rw [hhome, Bool.and_eq_true, beq_iff_eq]
  unfold privateBlock
  generalize a.toNat = x
  generalize b.toNat = y
  dsimp only
  constructor
  · rintro ⟨hsome, hsame⟩
    split_ifs at hsome hsame <;> first | omega | simp at hsome hsame
  · rintro (h | h | h) <;> split_ifs <;> first | omega | simp

theorem Block.private_iff (block : Block) :
    let network := block.address &&& mask block.bits
    ((privateBlock network).isSome &&
      privateBlock network == privateBlock (network ||| ~~~ mask block.bits)) = true ↔
      block.Private := by
  intro network
  rw [same_home]
  constructor
  · rintro ⟨home, hhome, hfirst, hlast⟩
    refine ⟨home, hhome, fun ip hip => ?_⟩
    -- the block is an interval, and so is its home
    have hnetwork := (block.mem_iff ip).mpr hip
    have hle : network.toNat ≤ ip.toNat := by
      rw [show network = ip &&& mask block.bits from hnetwork.symm, BitVec.toNat_and]
      exact Nat.and_le_left
    have hge := le_broadcast ip (mask block.bits)
    rw [hnetwork] at hge
    refine Nat.le_antisymm ?_ ?_
    · exact (Nat.div_le_div_right hge).trans_eq hlast
    · exact hfirst.symm.trans_le (Nat.div_le_div_right hle)
  · rintro ⟨home, hhome, hinside⟩
    refine ⟨home, hhome, hinside _ ((block.mem_iff _).mp ?_), hinside _ ((block.mem_iff _).mp ?_)⟩
    · rw [BitVec.and_assoc, BitVec.and_self]
    · ext i hi
      simp only [network, BitVec.getElem_and, BitVec.getElem_or, BitVec.getElem_not]
      cases block.address[i] <;> cases (mask block.bits)[i] <;> rfl

theorem not_separator_of_mem {whitelist item : List Char}
    (h : item ∈ whitelist.splitOnP isSeparator) : ∀ c ∈ item, isSeparator c = false := by
  induction whitelist generalizing item with
  | nil =>
    rw [List.splitOnP_nil, List.mem_singleton] at h
    simp [h]
  | cons first rest ih =>
    rw [List.splitOnP_cons_eq_if_modifyHead] at h
    split at h
    · rcases List.mem_cons.mp h with rfl | h
      · simp
      · exact ih h
    · next hfirst =>
      cases hrest : rest.splitOnP isSeparator with
      | nil => exact absurd hrest (List.splitOnP_ne_nil _ _)
      | cons piece pieces =>
        rw [hrest, List.modifyHead_cons] at h
        rw [hrest] at ih
        rcases List.mem_cons.mp h with rfl | h
        · intro c hc
          rcases List.mem_cons.mp hc with rfl | hc
          · simpa using hfirst
          · exact ih List.mem_cons_self c hc
        · exact ih (List.mem_cons_of_mem piece h)

theorem validItem_iff {whitelist item : List Char} (h : item ∈ items whitelist) :
    validItem item = true ↔ ∃ block, readBlock item = some block ∧ block.Private := by
  have htrim : trim isSpace item = item := by
    refine Agent.trim_eq_self fun c hc => ?_
    have hnone := not_separator_of_mem (List.mem_filter.mp h).1 c hc
    rw [isSeparator, Bool.or_eq_false_iff] at hnone
    exact hnone.2
  unfold validItem readBlock
  rw [htrim]
  cases parseEntry item with
  | none => simp
  | some entry =>
    obtain ⟨address, bits⟩ := entry
    by_cases hbits : bits ≤ 32
    · simp only [hbits, not_lt.mpr hbits, if_false, dif_pos, Option.some.injEq, exists_eq_left']
      exact Block.private_iff ⟨address, bits, hbits⟩
    · simp [hbits, not_le.mp hbits]

theorem items_intercalate {whitelist : List Char} (l : List (List Char)) (hl : l ≠ [])
    (h : ∀ item ∈ l, item ∈ items whitelist) : items ([','].intercalate l) = l := by
  induction l with
  | nil => exact absurd rfl hl
  | cons item rest ih =>
    obtain ⟨hitem, hrest⟩ := List.forall_mem_cons.mp h
    obtain ⟨hpiece, hne⟩ := List.mem_filter.mp hitem
    have hplain := not_separator_of_mem hpiece
    cases rest with
    | nil =>
      rw [List.intercalate_singleton, items, List.splitOnP_eq_singleton hplain,
        List.filter_cons, if_pos hne, List.filter_nil]
    | cons next rest =>
      have hafter := ih (by simp) hrest
      rw [List.intercalate_cons_cons, List.append_assoc, List.singleton_append, items,
        List.splitOnP_append_cons_of_forall_mem hplain _ (by decide), List.filter_cons, if_pos hne]
      exact congrArg _ hafter

theorem any_entryAdmits (ip : Ipv4Addr) (whitelist : List Char) :
    (whitelist.splitOnP isSeparator).any (entryAdmits ip) =
      (items whitelist).any (entryAdmits ip) := by
  rw [items, List.any_filter]
  congr 1
  funext entry
  cases entry with
  | nil => rfl
  | cons c rest => simp

theorem normalizes_iff (whitelist : List Char) :
    (normalizePrivateWhitelist whitelist).isSome = true ↔ items whitelist ≠ [] ∧
      ∀ item ∈ items whitelist, ∃ block, readBlock item = some block ∧ block.Private := by
  have hall : (items whitelist).all validItem = true ↔
      ∀ item ∈ items whitelist, ∃ block, readBlock item = some block ∧ block.Private := by
    rw [List.all_eq_true]
    exact forall₂_congr fun item hitem => validItem_iff hitem
  rw [← hall]
  unfold normalizePrivateWhitelist
  split_ifs <;> simp [*]

theorem entryAdmits_iff {item : List Char} {block : Block} (h : readBlock item = some block)
    (ip : Ipv4Addr) : entryAdmits ip item = true ↔ block.Mem ip := by
  unfold readBlock at h
  unfold entryAdmits
  cases hentry : parseEntry item with
  | none => simp [hentry] at h
  | some entry =>
    simp only [hentry, Option.dite_none_right_eq_some, Option.some.injEq] at h
    obtain ⟨hbits, rfl⟩ := h
    rw [← Block.mem_iff]
    exact beq_iff_eq

theorem not_colon_of_readNat {text : List Char} {n : Nat} (h : Decimal.readNat text = some n) :
    ':' ∉ text := by
  unfold Decimal.readNat at h
  split at h
  · next hdigits =>
    intro hmem
    exact absurd (List.all_eq_true.mp hdigits.2 _ hmem) (by decide)
  · cases h

theorem not_colon_of_parseIpv4Addr {text : List Char} {ip : Ipv4Addr}
    (h : parseIpv4Addr text = some ip) : ':' ∉ text := by
  rw [← @List.intercalate_splitOn _ text _ _ '.']
  intro hmem
  obtain hdot | ⟨part, hpart, hcolon⟩ := Agent.mem_of_mem_intercalate hmem
  · cases hdot
  have hmap := List.mem_map_of_mem (f := octet) hpart
  unfold parseIpv4Addr at h
  split at h
  · next heq =>
    cases hn : octet part with
    | none => simp [heq, hn] at hmap
    | some n =>
      unfold octet at hn
      split at hn
      · exact not_colon_of_readNat (Option.filter_eq_some_iff.mp hn).1 hcolon
      · cases hn
  · cases h

theorem not_colon_of_parseUnsigned {most n : Nat} {port : List Char}
    (h : parseUnsigned most port = some n) : ':' ∉ port := by
  have hfree := not_colon_of_readNat (Option.filter_eq_some_iff.mp h).1
  split at hfree
  · simpa using hfree
  · exact hfree

theorem withoutPort_join {host port : List Char} (hport : ':' ∉ port) :
    withoutPort (host ++ ':' :: port) =
      if (parseUnsigned 65535 port).any (0 < ·) then host else host ++ ':' :: port := by
  obtain ⟨htake, hdrop⟩ := Net.reverse_takeWhile_colon host hport
  unfold withoutPort
  rw [htake, hdrop]
  simp only [List.reverse_reverse]

theorem parse_withoutPort {address : List Char} {ip : Ipv4Addr} :
    parseIpv4Addr (withoutPort address) = some ip ↔ AddressText address ip := by
  have hplain (h : ':' ∉ address) : withoutPort address = address := by
    have hnone : address.reverse.dropWhile (· ≠ ':') = [] := by
      rw [List.dropWhile_eq_nil_iff]
      intro c hc
      rw [decide_eq_true_eq]
      rintro rfl
      exact h (List.mem_reverse.mp hc)
    rw [withoutPort, hnone]
  constructor
  · intro h
    by_cases hcolon : ':' ∈ address.reverse
    · obtain ⟨last, first, heq, hfree⟩ := List.eq_append_cons_of_mem hcolon
      obtain rfl : address = first.reverse ++ ':' :: last.reverse := by
        rw [← List.reverse_inj, heq]
        simp
      rw [withoutPort_join (mt List.mem_reverse.mp hfree)] at h
      split at h
      · next hport =>
        obtain ⟨n, hn, hpos⟩ := (Option.any_eq_true _ _).mp hport
        exact Or.inr ⟨_, _, _, rfl, hn, of_decide_eq_true hpos, h⟩
      · exact Or.inl h
    · exact Or.inl ((hplain (mt List.mem_reverse.mpr hcolon)) ▸ h)
  · rintro (h | ⟨host, port, n, rfl, hport, hpos, h⟩)
    · rwa [hplain (not_colon_of_parseIpv4Addr h)]
    · rw [withoutPort_join (not_colon_of_parseUnsigned hport), hport]
      simpa [hpos] using h

/-- The answer is yes exactly if the address is one, every item of the whitelist is a block of
private addresses, there is an item, and one of the blocks has the address. So only private
addresses are admitted, and the normalized whitelist gives the same answers. -/
theorem private_whitelist_exact (address whitelist : List Char) :
    (addressInWhitelist address whitelist = true ↔ ∃ ip, AddressText address ip ∧
      items whitelist ≠ [] ∧
      (∀ item ∈ items whitelist, ∃ block, readBlock item = some block ∧ block.Private) ∧
      ∃ item ∈ items whitelist, ∃ block, readBlock item = some block ∧ block.Mem ip) ∧
    (∀ ip, AddressText address ip → addressInWhitelist address whitelist = true →
      isRfc1918 ip = true) ∧
    ∀ normalized, normalizePrivateWhitelist whitelist = some normalized →
      addressInWhitelist address normalized = addressInWhitelist address whitelist := by
  have hiff : addressInWhitelist address whitelist = true ↔ ∃ ip, AddressText address ip ∧
      (normalizePrivateWhitelist whitelist).isSome = true ∧
      ∃ item ∈ items whitelist, entryAdmits ip item = true := by
    unfold addressInWhitelist
    simp only [← parse_withoutPort]
    cases parseIpv4Addr (withoutPort address) with
    | none => simp
    | some ip => simp [any_entryAdmits]
  refine ⟨hiff.trans ?_, fun ip htext hyes => ?_, fun normalized hnormalized => ?_⟩
  · refine exists_congr fun ip => and_congr_right fun _ => ?_
    rw [normalizes_iff, and_assoc]
    refine and_congr_right fun _ => and_congr_right fun hall => exists_congr fun item => ?_
    refine and_congr_right fun hitem => ?_
    obtain ⟨block, hblock, _⟩ := hall item hitem
    rw [entryAdmits_iff hblock]
    simp [hblock]
  · obtain ⟨ip', htext', hsome, item, hitem, hadmits⟩ := hiff.mp hyes
    obtain rfl : ip' = ip :=
      Option.some.inj ((parse_withoutPort.mpr htext').symm.trans (parse_withoutPort.mpr htext))
    obtain ⟨block, hblock, home, hhome, hinside⟩ :=
      ((normalizes_iff whitelist).mp hsome).2 item hitem
    have hmem := hinside _ ((entryAdmits_iff hblock _).mp hadmits)
    have hprivate := (Bool.and_eq_true_iff.mp (same_home.mpr ⟨home, hhome, hmem, hmem⟩)).1
    dsimp only [privateBlock] at hprivate
    dsimp only [isRfc1918]
    split_ifs at hprivate <;> simp_all
  · -- both parsers see the items only
    obtain ⟨hne, -⟩ := (normalizes_iff whitelist).mp (by rw [hnormalized]; rfl)
    have hitems : items normalized = items whitelist := by
      unfold normalizePrivateWhitelist at hnormalized
      split_ifs at hnormalized
      cases hnormalized
      exact items_intercalate _ hne fun _ h => h
    unfold addressInWhitelist normalizePrivateWhitelist
    simp only [any_entryAdmits, hitems]

end HomeTunnel.Desk
