import Rendezvous.Proofs.Dispatching

/-!
# C data read back

A buffer holds what it was made of in front of zeros, so a C host that reads a name up to
the first zero reads all of its bytes, whether its characters are signed or not. The code
of a transport and the address bytes in front are enough to tell an endpoint. Main
statement: what a record says of names, prefixes, handles and endpoints can be read off
the C data that are made of it, and no byte of them is left to chance.
-/

namespace Rendezvous

open Text

theorem BoundedName.length_bytes_le (n : BoundedName) : n.bytes.length ≤ nameLimit := by
  have hlength : n.bytes.length = n.text.utf8ByteSize := rfl
  rw [hlength, text, utf8ByteSize_ofList]
  exact n.bounded

namespace HostInterface

/-! ## Buffers -/

section Buffers

variable {size : Nat} {bytes : Array UInt8}

theorem toList_buffer (h : bytes.size ≤ size) :
    (buffer size bytes).toList = bytes.toList ++ List.replicate (size - bytes.size) 0 := by
  refine List.ext_getElem (by simp; omega) fun i hi _ => ?_
  simp only [buffer, Vector.getElem_toList, Vector.getElem_ofFn]
  by_cases hbytes : i < bytes.size
  · rw [List.getElem_append_left (by simpa using hbytes)]
    simp [hbytes]
  · rw [List.getElem_append_right (by simpa using hbytes)]
    simp [hbytes]

theorem textOf_buffer (h : bytes.size ≤ size) (hzero : 0 ∉ bytes.toList) :
    textOf (buffer size bytes) = bytes.toList := by
  have hbytes : ∀ b ∈ bytes.toList, decide (b ≠ 0) = true := by
    intro b hb
    exact decide_eq_true fun heq => hzero (heq ▸ hb)
  have hrest : (List.replicate (size - bytes.size) (0 : UInt8)).takeWhile (· ≠ 0) = [] := by
    cases size - bytes.size <;> rfl
  rw [textOf, toList_buffer h, List.takeWhile_append_of_pos hbytes, hrest, List.append_nil]

/-- A buffer as it is where the characters of C are signed. -/
def signed (buffer : Vector UInt8 size) : Vector Int8 size := buffer.map UInt8.toInt8

def textOfSigned (chars : Vector Int8 size) : List UInt8 :=
  (chars.toList.takeWhile (· ≠ 0)).map Int8.toUInt8

/-- The sign of a character takes nothing away from its byte. -/
theorem textOfSigned_signed (buffer : Vector UInt8 size) :
    textOfSigned (signed buffer) = textOf buffer := by
  have hsame : ∀ b : UInt8, b.toInt8 = 0 ↔ b = 0 := by
    intro b
    constructor
    · intro h
      rw [← b.toUInt8_toInt8, h]
      rfl
    · rintro rfl
      rfl
  have hround : Int8.toUInt8 ∘ UInt8.toInt8 = id := funext UInt8.toUInt8_toInt8
  have hstop : (fun c : Int8 => decide (c ≠ 0)) ∘ UInt8.toInt8 = fun b => decide (b ≠ 0) := by
    funext b
    simp [hsame]
  rw [textOfSigned, signed, Vector.toList_map, List.takeWhile_map, List.map_map, hround, hstop,
    List.map_id, textOf]

end Buffers

/-- How a name stands in a buffer, and what is read from there. -/
structure Carries (buffer : Vector UInt8 nameCapacity) (n : BoundedName) : Prop where
  bytes : buffer.toList = n.bytes ++ List.replicate (nameCapacity - n.bytes.length) 0
  fits : n.bytes.length < nameCapacity
  ends : buffer.toList.getLast? = some 0
  reads : 0 ∉ n.bytes → textOf buffer = n.bytes
  readsSigned : 0 ∉ n.bytes → textOfSigned (signed buffer) = n.bytes

theorem carries_nameBuffer (n : BoundedName) : Carries (nameBuffer n) n := by
  have hfits : n.bytes.length < nameCapacity := Nat.lt_succ_of_le n.length_bytes_le
  have hsize : n.bytes.toArray.size ≤ nameCapacity := Nat.le_of_lt hfits
  have hbytes := toList_buffer hsize
  have hreads : 0 ∉ n.bytes → textOf (nameBuffer n) = n.bytes := textOf_buffer hsize
  refine ⟨hbytes, hfits, ?_, hreads, fun h => (textOfSigned_signed _).trans (hreads h)⟩
  obtain ⟨k, hk⟩ : ∃ k, nameCapacity - n.bytes.length = k + 1 :=
    Nat.exists_eq_add_one.2 (Nat.sub_pos_of_lt hfits)
  rw [nameBuffer, hbytes, List.size_toArray, hk, List.replicate_succ', ← List.append_assoc,
    List.getLast?_append, List.getLast?_singleton]
  rfl

/-! ## Endpoints -/

/-- The endpoint that a code stands for with sixteen address bytes, if it stands for any. -/
def EndpointData.decode? (e : EndpointData) : Option Endpoint :=
  if e.transport = 1 then some .shm
  else if e.transport = 2 then some (.udpV4 (e.address.take 4))
  else if e.transport = 3 then some (.udpV6 e.address)
  else if e.transport = 4 then some (.tcpV4 (e.address.take 4))
  else if e.transport = 5 then some (.tcpV6 e.address)
  else none

theorem take_buffer (octets : Vector UInt8 4) :
    (buffer 16 octets.toList.toArray).take 4 = octets := by
  refine Vector.ext fun i hi => (Vector.getElem_take _).trans ?_
  have hfour : i < 4 := hi
  simp [buffer, hfour]

theorem buffer_toList (octets : Vector UInt8 16) : buffer 16 octets.toList.toArray = octets := by
  refine Vector.ext fun i hi => ?_
  simp [buffer]

theorem decode?_of {e : Endpoint} (he : e.isUnknown = false) :
    (EndpointData.of e).decode? = some e := by
  cases e with
  | shm => rfl
  | udpV4 octets => exact congrArg (fun a => some (Endpoint.udpV4 a)) (take_buffer octets)
  | udpV6 octets => exact congrArg (fun a => some (Endpoint.udpV6 a)) (buffer_toList octets)
  | tcpV4 octets => exact congrArg (fun a => some (Endpoint.tcpV4 a)) (take_buffer octets)
  | tcpV6 octets => exact congrArg (fun a => some (Endpoint.tcpV6 a)) (buffer_toList octets)
  | unknown kind => cases he

def IsV4 (kind : Int32) : Prop := kind = Locator.kindUdpV4 ∨ kind = Locator.kindTcpV4

def IsV6 (kind : Int32) : Prop := kind = Locator.kindUdpV6 ∨ kind = Locator.kindTcpV6

/-- What a C endpoint tells of a list of locators: the first of them, if there is one and its
kind is known, and then only its kind and the address bytes that matter for it. -/
structure EndpointData.Describes (e : EndpointData) (locators : List Locator) : Prop where
  known : ∀ l ∈ locators.head?, l.kind ∈ Locator.knownKinds →
    e.decode? = some (.ofFirst locators)
  unknown : (∀ l ∈ locators.head?, l.kind ∉ Locator.knownKinds) → e = ⟨0, .replicate 16 0⟩
  unusedV4 : ∀ l ∈ locators.head?, IsV4 l.kind →
    e.address.toList = l.v4Octets.toList ++ List.replicate 12 0
  unusedShm : ∀ l ∈ locators.head?, l.kind = Locator.kindShm → e.address = .replicate 16 0
  same : ∀ l ∈ locators.head?, ∀ l' rest, l'.kind = l.kind →
    (IsV4 l.kind → l'.v4Octets = l.v4Octets) → (IsV6 l.kind → l'.address = l.address) →
      .of (.ofFirst (l' :: rest)) = e

theorem of_unknown {e : Endpoint} (he : e.isUnknown = true) :
    EndpointData.of e = ⟨0, .replicate 16 0⟩ := by
  cases e with
  | unknown kind => rfl
  | shm => cases he
  | udpV4 => cases he
  | udpV6 => cases he
  | tcpV4 => cases he
  | tcpV6 => cases he

theorem address_of_v4 (octets : Vector UInt8 4) :
    (buffer 16 octets.toList.toArray).toList = octets.toList ++ List.replicate 12 0 := by
  have hsize : octets.toList.toArray.size = 4 := by simp
  rw [toList_buffer (by rw [hsize]; decide), hsize]

theorem ofLocator_of_isV4 {l : Locator} (h : IsV4 l.kind) :
    Endpoint.ofLocator l = .udpV4 l.v4Octets ∨ Endpoint.ofLocator l = .tcpV4 l.v4Octets := by
  rcases h with h | h
  · exact .inl (by simp [Endpoint.ofLocator, h])
  · exact .inr (by rw [Endpoint.ofLocator, h]; rfl)

/-- The port of a locator and the address bytes that its kind has no use for play no part. -/
theorem ofLocator_congr {l l' : Locator} (hkind : l'.kind = l.kind)
    (hv4 : IsV4 l.kind → l'.v4Octets = l.v4Octets) (hv6 : IsV6 l.kind → l'.address = l.address) :
    Endpoint.ofLocator l' = Endpoint.ofLocator l := by
  rw [Endpoint.ofLocator, Endpoint.ofLocator, hkind]
  split_ifs with hudpV4 hudpV6 htcpV4 htcpV6
  · rw [hv4 (.inl hudpV4)]
  · rw [hv6 (.inl hudpV6)]
  · rw [hv4 (.inr htcpV4)]
  · rw [hv6 (.inr htcpV6)]
  · rfl
  · rfl

theorem ofFirst_of_head? {locators : List Locator} {l : Locator} (hl : l ∈ locators.head?) :
    Endpoint.ofFirst locators = .ofLocator l := by
  obtain ⟨rest, rfl⟩ := List.head?_eq_some_iff.1 hl
  rfl

theorem describes_of (locators : List Locator) :
    (EndpointData.of (.ofFirst locators)).Describes locators where
  known l hl hkind := by
    refine decode?_of ?_
    rw [Endpoint.isUnknown_ofFirst, hl]
    simpa using hkind
  unknown hkind := by
    refine of_unknown ?_
    rw [Endpoint.isUnknown_ofFirst, Option.all_eq_true]
    exact fun l hl => decide_eq_true (hkind l hl)
  unusedV4 l hl hkind := by
    rw [ofFirst_of_head? hl]
    rcases ofLocator_of_isV4 hkind with h | h
    · rw [h]
      exact address_of_v4 _
    · rw [h]
      exact address_of_v4 _
  unusedShm l hl hkind := by
    rw [ofFirst_of_head? hl, Endpoint.ofLocator, hkind]
    rfl
  same l hl l' rest' hkind hv4 hv6 := by
    rw [ofFirst_of_head? hl, Endpoint.ofFirst, ofLocator_congr hkind hv4 hv6]

/-- A record of any names, prefix, handle and locators is carried by its C data: the names in
front of zeros, the prefix and the handle as they are, and what the first locator says. -/
theorem data_carries_records (topicName typeName : String) (guidPrefix : GuidPrefix)
    (participant : UInt64) (locators : List Locator) :
    let entity := EntityData.of
      ⟨.ofString topicName, .ofString typeName, guidPrefix, .ofFirst locators⟩
    let peer := ParticipantData.of ⟨⟨participant.toNat⟩, guidPrefix, .ofFirst locators⟩
    (Carries entity.topicName (.ofString topicName) ∧
        Carries entity.typeName (.ofString typeName) ∧
        entity.guidPrefix = guidPrefix.bytes ∧ entity.endpoint.Describes locators) ∧
      peer.participant = participant ∧ peer.guidPrefix = guidPrefix.bytes ∧
        peer.endpoint.Describes locators :=
  ⟨⟨carries_nameBuffer _, carries_nameBuffer _, rfl, describes_of locators⟩,
    UInt64.ofNat_toNat, rfl, describes_of locators⟩

end HostInterface

end Rendezvous
