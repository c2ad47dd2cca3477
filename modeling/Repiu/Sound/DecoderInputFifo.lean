import Repiu.ByteMemory
import Repiu.RingIndex

/-!
# The decoder input FIFO

A byte ring with one producer and one consumer, and the count of bytes in
flight that bounds it. A byte is in flight from the moment the producer reserves
room for it until the consumer reports it as consumed. The two parties run
interleaved, one atomic access or one copied byte at a time.
-/

namespace Repiu.Sound

open RingIndex

/-- What the constructors accept. `sizeBits` is the width of `size_t` on the host. -/
structure FifoConfig where
  sizeBits : ℕ
  logicalCapacity : ℕ
  physicalCapacity : ℕ
  sizeBits_le : sizeBits ≤ 64
  physical_fits : physicalCapacity < 2 ^ sizeBits
  two_le_physical : 2 ≤ physicalCapacity
  physical_mask : physicalCapacity &&& (physicalCapacity - 1) = 0
  logical_pos : logicalCapacity ≠ 0
  logical_le : logicalCapacity ≤ physicalCapacity

namespace FifoConfig

variable (c : FifoConfig)

/-- A 64-bit value as a `size_t`. -/
def toSize (x : BitVec 64) : ℕ := x.toNat % 2 ^ c.sizeBits

/-- The slot of byte `i` of a block of `count` bytes at a position. -/
def slot (position : BitVec 64) (count i : ℕ) : ℕ :=
  let start := c.toSize position &&& (c.physicalCapacity - 1)
  let first := min count (c.physicalCapacity - start)
  blockSlot start first i

/-- How many of `count` bytes the ring takes: one byte by `Push(value)`, a block by `Push(input)`. -/
def pushCount (batch : Bool) (count : ℕ) (write read : BitVec 64) : ℕ :=
  if batch then min (c.physicalCapacity - min (c.toSize (write - read)) c.physicalCapacity) count
  else if (write - read).toNat ≥ c.physicalCapacity then 0 else 1

/-- The limit of a reservation. -/
def limit (batch : Bool) : ℕ := if batch then c.logicalCapacity else c.physicalCapacity

end FifoConfig

/-- Where the producer stands. `batch` tells `PushBatch` from `PushByte`. -/
inductive Producer where
  | idle
  /-- In `Reserve`, with the count of bytes in flight it last saw. -/
  | reserving (batch : Bool) (input : List Byte) (current : ℕ)
  | reserved (batch : Bool) (input : List Byte) (count : ℕ)
  | writeLoaded (batch : Bool) (input : List Byte) (count : ℕ) (write : BitVec 64)
  /-- Copying `count` of the `reserved` bytes, `copied` of them so far. -/
  | copying (batch : Bool) (input : List Byte) (reserved count : ℕ) (write : BitVec 64) (copied : ℕ)
  /-- In the branch that gives back what the ring did not take. -/
  | releasing (count : ℕ)

/-- Where the consumer stands. -/
inductive Consumer where
  | idle
  | readLoaded (size : ℕ) (read : BitVec 64)
  | taking (read : BitVec 64) (count : ℕ) (taken : List Byte)
  | consuming (count current : ℕ)
  /-- `Consume` returned false. -/
  | failed

/-- The shared state and the two parties, with the bytes that the producer's calls reported as
accepted, the bytes popped, and how many of these were not consumed yet. -/
structure FifoSystem where
  bytes : ℕ → Byte
  readPosition : BitVec 64 := 0
  writePosition : BitVec 64 := 0
  inflight : ℕ := 0
  producer : Producer := .idle
  consumer : Consumer := .idle
  accepted : List Byte := []
  popped : List Byte := []
  unconsumed : ℕ := 0

namespace FifoSystem

/-- The bytes in the ring, as `size()` counts them. -/
def ringSize (c : FifoConfig) (s : FifoSystem) : ℕ := c.toSize (s.writePosition - s.readPosition)

/-- The bytes in the ring in order. -/
def ringBytes (c : FifoConfig) (s : FifoSystem) : List Byte :=
  (List.range (s.ringSize c)).map fun i => s.bytes (c.slot s.readPosition (s.ringSize c) i)

/-- What the producer does after it loaded both positions. -/
def afterLoads (c : FifoConfig) (batch : Bool) (input : List Byte) (reserved : ℕ) (write read : BitVec 64) :
    Producer :=
  if batch = false ∧ c.pushCount batch reserved write read = 0 then .releasing reserved
  else .copying batch input reserved (c.pushCount batch reserved write read) write 0

/-- The atomic steps of the two parties. -/
inductive Step (c : FifoConfig) : FifoSystem → FifoSystem → Prop
  -- PushByte and PushBatch
  | call {s batch input} : s.producer = .idle → input ≠ [] → (batch = false → input.length = 1) →
      Step c s { s with producer := .reserving batch input s.inflight }
  | reserveFull {s batch input current} : s.producer = .reserving batch input current →
      ¬current < c.limit batch → Step c s { s with producer := .idle }
  | reserveTake {s batch input current} : s.producer = .reserving batch input current →
      current < c.limit batch → s.inflight = current →
      Step c s { s with inflight := current + min input.length (c.limit batch - current)
                        producer := .reserved batch input (min input.length (c.limit batch - current)) }
  -- the exchange failed; a weak one may fail without a reason
  | reserveRetry {s batch input current} : s.producer = .reserving batch input current →
      current < c.limit batch → Step c s { s with producer := .reserving batch input s.inflight }
  | loadWrite {s batch input count} : s.producer = .reserved batch input count →
      Step c s { s with producer := .writeLoaded batch input count s.writePosition }
  | loadRead {s batch input count write} : s.producer = .writeLoaded batch input count write →
      Step c s { s with producer := afterLoads c batch input count write s.readPosition }
  | copyByte {s batch input reserved count write copied} :
      s.producer = .copying batch input reserved count write copied → copied < count →
      Step c s { s with bytes := Function.update s.bytes (c.slot write count copied) (input.getD copied 0)
                        producer := .copying batch input reserved count write (copied + 1) }
  | publish {s batch input reserved count write} :
      s.producer = .copying batch input reserved count write count →
      Step c s { s with writePosition := write + BitVec.ofNat 64 count
                        accepted := s.accepted ++ input.take count
                        producer := if count < reserved then .releasing (reserved - count) else .idle }
  | release {s count} : s.producer = .releasing count →
      Step c s { s with inflight := s.inflight - count, producer := .idle }
  -- Pop
  | pop {s size} : s.consumer = .idle → 0 < size →
      Step c s { s with consumer := .readLoaded size s.readPosition }
  | loadWritten {s size read} : s.consumer = .readLoaded size read →
      Step c s { s with consumer := .taking read (min (c.toSize (s.writePosition - read)) size) [] }
  | takeByte {s read count taken} : s.consumer = .taking read count taken → taken.length < count →
      Step c s { s with consumer := .taking read count (taken ++ [s.bytes (c.slot read count taken.length)]) }
  | advance {s read count taken} : s.consumer = .taking read count taken → taken.length = count →
      Step c s { s with readPosition := read + BitVec.ofNat 64 count
                        popped := s.popped ++ taken
                        unconsumed := s.unconsumed + count
                        consumer := .idle }
  -- Consume, of at most the bytes popped and not yet consumed
  | consume {s count} : s.consumer = .idle → count ≤ s.unconsumed →
      Step c s { s with consumer := .consuming count s.inflight }
  | consumeTake {s count current} : s.consumer = .consuming count current → count ≤ current →
      s.inflight = current →
      Step c s { s with inflight := current - count, unconsumed := s.unconsumed - count, consumer := .idle }
  | consumeRetry {s count current} : s.consumer = .consuming count current → count ≤ current →
      Step c s { s with consumer := .consuming count s.inflight }
  | consumeFail {s count current} : s.consumer = .consuming count current → ¬count ≤ current →
      Step c s { s with consumer := .failed }

/-- The states of the runs of a new FIFO. -/
inductive Reachable (c : FifoConfig) : FifoSystem → Prop
  | init (bytes : ℕ → Byte) : Reachable c { bytes := bytes }
  | step {s s'} : Reachable c s → Step c s s' → Reachable c s'

end FifoSystem

/-! ## Positions and slots -/

namespace FifoConfig

variable {c : FifoConfig}

theorem physical_pos : 0 < c.physicalCapacity := by
  have := c.two_le_physical
  omega

theorem physical_eq_pow : ∃ k, c.physicalCapacity = 2 ^ k ∧ k ≤ c.sizeBits := by
  have hpos := c.two_le_physical
  obtain ⟨k, hk⟩ := (Nat.and_sub_one_eq_zero_iff_isPowerOfTwo (by omega)).mp c.physical_mask
  have hlt := c.physical_fits
  rw [hk, Nat.pow_lt_pow_iff_right (by decide)] at hlt
  exact ⟨k, hk, hlt.le⟩

/-- A block that starts at the `n`-th byte lies on the slots of the bytes from there on. -/
theorem slot_eq {n count i : ℕ} (hcount : count ≤ c.physicalCapacity) (hi : i < count) :
    c.slot (BitVec.ofNat 64 n) count i = (n + i) % c.physicalCapacity := by
  obtain ⟨k, hk, hle⟩ := c.physical_eq_pow
  have hmask : c.toSize (BitVec.ofNat 64 n) &&& (c.physicalCapacity - 1) = n % c.physicalCapacity := by
    rw [hk]
    exact toNat_mod_and_mask (hle.trans c.sizeBits_le) hle
  rw [slot, hmask]
  exact blockSlot_eq_mod physical_pos hcount hi

/-- The number of bytes between two positions. -/
theorem toNat_sub_positions {r n : ℕ} (hle : r ≤ n) (hfits : n - r ≤ c.physicalCapacity) :
    (BitVec.ofNat 64 n - BitVec.ofNat 64 r).toNat = n - r := by
  apply toNat_sub_ofNat hle
  have hpow : 2 ^ c.sizeBits ≤ 2 ^ 64 := Nat.pow_le_pow_right (by decide) c.sizeBits_le
  have hphysical := c.physical_fits
  omega

theorem toSize_sub_positions {r n : ℕ} (hle : r ≤ n) (hfits : n - r ≤ c.physicalCapacity) :
    c.toSize (BitVec.ofNat 64 n - BitVec.ofNat 64 r) = n - r := by
  rw [toSize, toNat_sub_positions hle hfits]
  exact Nat.mod_eq_of_lt (hfits.trans_lt c.physical_fits)

/-- Where the ring has room for all bytes, it takes all. -/
theorem pushCount_eq {batch : Bool} {count r n : ℕ} (hle : r ≤ n) (hroom : n + count ≤ r + c.physicalCapacity)
    (hpos : 0 < count) (hbyte : batch = false → count = 1) :
    c.pushCount batch count (BitVec.ofNat 64 n) (BitVec.ofNat 64 r) = count := by
  unfold pushCount
  rw [toSize_sub_positions hle (by omega), toNat_sub_positions (c := c) hle (by omega)]
  cases batch with
  | true =>
    rw [if_pos rfl]
    omega
  | false =>
    rw [if_neg (by decide), if_neg (by omega), hbyte rfl]

end FifoConfig

/-! ## The invariant -/

/-- The bytes that are reserved and not published. -/
def Producer.pending : Producer → ℕ
  | .idle | .reserving .. | .releasing _ => 0
  | .reserved _ _ count | .writeLoaded _ _ count _ | .copying _ _ count _ _ _ => count

namespace FifoSystem

/-- What the producer's local state says about the shared one. Nothing is ever given back. -/
def ProducerOk (c : FifoConfig) (s : FifoSystem) : Producer → Prop
  | .idle => True
  | .reserving batch input _ => input ≠ [] ∧ (batch = false → input.length = 1)
  | .reserved batch input count => 0 < count ∧ count ≤ input.length ∧ (batch = false → count = 1)
  | .writeLoaded batch input count write =>
    0 < count ∧ count ≤ input.length ∧ (batch = false → count = 1) ∧ write = s.writePosition
  | .copying _ input reserved count write copied =>
    count = reserved ∧ count ≤ input.length ∧ write = s.writePosition ∧
      s.accepted.length + count ≤ s.popped.length + c.physicalCapacity ∧ copied ≤ count ∧
      ∀ j < copied, s.bytes ((s.accepted.length + j) % c.physicalCapacity) = input.getD j 0
  | .releasing _ => False

/-- What the consumer's local state says about the shared one. `Consume` never fails. -/
def ConsumerOk (s : FifoSystem) : Consumer → Prop
  | .idle => True
  | .readLoaded _ read => read = s.readPosition
  | .taking read count taken =>
    read = s.readPosition ∧ s.popped.length + count ≤ s.accepted.length ∧ taken.length ≤ count ∧
      s.popped ++ taken <+: s.accepted
  | .consuming count current => count ≤ s.unconsumed ∧ count ≤ current
  | .failed => False

structure Consistent (c : FifoConfig) (s : FifoSystem) : Prop where
  writeCount : s.writePosition = BitVec.ofNat 64 s.accepted.length
  readCount : s.readPosition = BitVec.ofNat 64 s.popped.length
  taken : s.popped <+: s.accepted
  stored : ∀ j, s.popped.length ≤ j → j < s.accepted.length →
    s.bytes (j % c.physicalCapacity) = s.accepted.getD j 0
  balance : s.inflight = s.accepted.length - s.popped.length + s.unconsumed + s.producer.pending
  bound : s.inflight ≤ c.physicalCapacity
  producer : ProducerOk c s s.producer
  consumer : ConsumerOk s s.consumer

namespace Consistent

variable {c : FifoConfig} {s : FifoSystem}

theorem popped_le (h : Consistent c s) : s.popped.length ≤ s.accepted.length := h.taken.length_le

theorem ring_le (h : Consistent c s) : s.accepted.length - s.popped.length ≤ c.physicalCapacity := by
  have := h.balance
  have := h.bound
  omega

theorem ringSize_eq (h : Consistent c s) : s.ringSize c = s.accepted.length - s.popped.length := by
  rw [ringSize, h.writeCount, h.readCount]
  exact FifoConfig.toSize_sub_positions h.popped_le h.ring_le

/-- The ring holds the bytes that were accepted and not popped. -/
theorem ringBytes_eq (h : Consistent c s) : s.popped ++ s.ringBytes c = s.accepted := by
  obtain ⟨rest, hrest⟩ := h.taken
  have hlength : s.ringSize c = rest.length := by
    rw [h.ringSize_eq, ← hrest, List.length_append, Nat.add_sub_cancel_left]
  rw [← hrest]
  congr 1
  apply List.ext_getElem
  · rw [ringBytes, List.length_map, List.length_range, hlength]
  · intro i hi hi'
    have hle := h.ring_le
    rw [← h.ringSize_eq] at hle
    have hstored := h.stored (s.popped.length + i) (by omega) (by
      rw [← hrest, List.length_append]
      omega)
    rw [← hrest, List.getD_eq_getElem?_getD, List.getElem?_append_right (by omega), Nat.add_sub_cancel_left,
      List.getElem?_eq_getElem hi', Option.getD_some] at hstored
    simp only [ringBytes, List.getElem_map, List.getElem_range]
    rw [h.readCount, FifoConfig.slot_eq hle (by omega), hstored]

theorem init (bytes : ℕ → Byte) : Consistent c { bytes := bytes } where
  writeCount := rfl
  readCount := rfl
  taken := List.prefix_refl []
  stored := fun j _ hj => absurd hj (Nat.not_lt_zero j)
  balance := rfl
  bound := Nat.zero_le _
  producer := trivial
  consumer := trivial

/-- Room that is reserved and not published. -/
theorem room (h : Consistent c s) :
    s.accepted.length + s.producer.pending ≤ s.popped.length + c.physicalCapacity := by
  have := h.balance
  have := h.bound
  have := h.popped_le
  omega

/-- A step in which only the producer's local state changes. -/
theorem of_producer (h : Consistent c s) {p : Producer} (hpending : p.pending = s.producer.pending)
    (hok : ProducerOk c s p) : Consistent c { s with producer := p } where
  writeCount := h.writeCount
  readCount := h.readCount
  taken := h.taken
  stored := h.stored
  balance := hpending ▸ h.balance
  bound := h.bound
  producer := by cases p <;> exact hok
  consumer := by
    have := h.consumer
    cases hc : s.consumer <;> rw [hc] at this <;> exact this

/-- A step in which only the consumer's local state changes. -/
theorem of_consumer (h : Consistent c s) {k : Consumer} (hok : ConsumerOk s k) :
    Consistent c { s with consumer := k } where
  writeCount := h.writeCount
  readCount := h.readCount
  taken := h.taken
  stored := h.stored
  balance := h.balance
  bound := h.bound
  producer := by
    have := h.producer
    cases hp : s.producer <;> rw [hp] at this <;> exact this
  consumer := by cases k <;> exact hok

theorem call (h : Consistent c s) {batch : Bool} {input : List Byte} (hidle : s.producer = .idle)
    (hsome : input ≠ []) (hbyte : batch = false → input.length = 1) :
    Consistent c { s with producer := .reserving batch input s.inflight } := by
  apply h.of_producer
  · rw [hidle]
    rfl
  · exact ⟨hsome, hbyte⟩

theorem reserveTake (h : Consistent c s) {batch : Bool} {input : List Byte} {current : ℕ}
    (hreserving : s.producer = .reserving batch input current) (hlimit : current < c.limit batch)
    (hsame : s.inflight = current) :
    Consistent c { s with inflight := current + min input.length (c.limit batch - current)
                          producer := .reserved batch input (min input.length (c.limit batch - current)) } where
  writeCount := h.writeCount
  readCount := h.readCount
  taken := h.taken
  stored := h.stored
  balance := by
    have hbalance := h.balance
    rw [hreserving, hsame] at hbalance
    show current + _ = s.accepted.length - s.popped.length + s.unconsumed + min _ _
    rw [hbalance]
    rfl
  bound := by
    have hle : c.limit batch ≤ c.physicalCapacity := by
      unfold FifoConfig.limit
      split
      · exact c.logical_le
      · exact le_rfl
    show current + min _ _ ≤ _
    omega
  producer := by
    have hok := h.producer
    rw [hreserving] at hok
    have hlength := List.length_pos_iff.mpr hok.1
    refine ⟨by omega, by omega, fun hbyte => ?_⟩
    have := hok.2 hbyte
    omega
  consumer := by
    have := h.consumer
    cases hc : s.consumer <;> rw [hc] at this <;> exact this

theorem loadRead (h : Consistent c s) {batch : Bool} {input : List Byte} {count : ℕ} {write : BitVec 64}
    (hloaded : s.producer = .writeLoaded batch input count write) :
    Consistent c { s with producer := afterLoads c batch input count write s.readPosition } := by
  have hok := h.producer
  have hroom := h.room
  rw [hloaded] at hok hroom
  obtain ⟨hpos, hlength, hbyte, hwrite⟩ := hok
  have hall : c.pushCount batch count write s.readPosition = count := by
    rw [hwrite, h.writeCount, h.readCount]
    exact FifoConfig.pushCount_eq h.popped_le hroom hpos hbyte
  have hafter : afterLoads c batch input count write s.readPosition = .copying batch input count count write 0 := by
    rw [afterLoads, hall, if_neg (by omega)]
  rw [hafter]
  apply h.of_producer
  · rw [hloaded]
    rfl
  · exact ⟨rfl, hlength, hwrite, hroom, Nat.zero_le _, fun j hj => absurd hj (Nat.not_lt_zero j)⟩

theorem copyByte (h : Consistent c s) {batch : Bool} {input : List Byte} {reserved count : ℕ} {write : BitVec 64}
    {copied : ℕ} (hcopying : s.producer = .copying batch input reserved count write copied) (hmore : copied < count) :
    Consistent c { s with bytes := Function.update s.bytes (c.slot write count copied) (input.getD copied 0)
                          producer := .copying batch input reserved count write (copied + 1) } := by
  have hok := h.producer
  rw [hcopying] at hok
  obtain ⟨hreserved, hlength, hwrite, hroom, hcopied, hbytes⟩ := hok
  have hle := h.popped_le
  have hslot : c.slot write count copied = (s.accepted.length + copied) % c.physicalCapacity := by
    rw [hwrite, h.writeCount]
    exact FifoConfig.slot_eq (by omega) hmore
  rw [hslot]
  refine ⟨h.writeCount, h.readCount, h.taken, ?_, ?_, h.bound, ?_, ?_⟩
  · -- the slot lies behind the bytes in the ring
    intro j hj hj'
    dsimp only at hj hj'
    have hne : j % c.physicalCapacity ≠ (s.accepted.length + copied) % c.physicalCapacity :=
      mod_ne_mod (by omega) (by omega)
    exact (Function.update_of_ne hne _ _).trans (h.stored j hj hj')
  · have hbalance := h.balance
    rw [hcopying] at hbalance
    exact hbalance
  · refine ⟨hreserved, hlength, hwrite, hroom, hmore, fun j hj => ?_⟩
    show Function.update _ _ _ _ = _
    by_cases hlast : j = copied
    · rw [hlast, Function.update_self]
    · have hne : (s.accepted.length + j) % c.physicalCapacity ≠ (s.accepted.length + copied) % c.physicalCapacity :=
        mod_ne_mod (by omega) (by omega)
      rw [Function.update_of_ne hne]
      exact hbytes j (by omega)
  · have := h.consumer
    cases hc : s.consumer <;> rw [hc] at this <;> exact this

theorem publish (h : Consistent c s) {batch : Bool} {input : List Byte} {reserved count : ℕ} {write : BitVec 64}
    (hcopying : s.producer = .copying batch input reserved count write count) :
    Consistent c { s with writePosition := write + BitVec.ofNat 64 count
                          accepted := s.accepted ++ input.take count
                          producer := if count < reserved then .releasing (reserved - count) else .idle } := by
  have hok := h.producer
  rw [hcopying] at hok
  obtain ⟨hreserved, hlength, hwrite, hroom, -, hbytes⟩ := hok
  have hle := h.popped_le
  have htake : (input.take count).length = count := List.length_take_of_le hlength
  rw [if_neg (by omega)]
  refine ⟨?_, h.readCount, h.taken.trans (List.prefix_append _ _), ?_, ?_, h.bound, trivial, ?_⟩
  · show write + _ = BitVec.ofNat 64 (s.accepted ++ input.take count).length
    rw [List.length_append, htake, hwrite, h.writeCount, BitVec.ofNat_add]
  · intro j hj hj'
    dsimp only at hj hj'
    show s.bytes _ = (s.accepted ++ input.take count).getD j 0
    rw [List.length_append, htake] at hj'
    rw [List.getD_eq_getElem?_getD]
    by_cases hold : j < s.accepted.length
    · rw [List.getElem?_append_left hold, ← List.getD_eq_getElem?_getD]
      exact h.stored j hj hold
    · obtain ⟨i, rfl⟩ := Nat.exists_eq_add_of_le (not_lt.mp hold)
      rw [List.getElem?_append_right (by omega), Nat.add_sub_cancel_left, List.getElem?_take_of_lt (by omega),
        ← List.getD_eq_getElem?_getD]
      exact hbytes i (by omega)
  · have hbalance := h.balance
    rw [hcopying] at hbalance
    show s.inflight = (s.accepted ++ input.take count).length - s.popped.length + s.unconsumed + 0
    rw [List.length_append, htake, hbalance]
    show _ + reserved = _
    omega
  · have := h.consumer
    cases hc : s.consumer with
    | taking read taking taken =>
      rw [hc] at this
      obtain ⟨hread, hcount, hshort, hprefix⟩ := this
      refine ⟨hread, ?_, hshort, hprefix.trans (List.prefix_append _ _)⟩
      show s.popped.length + _ ≤ (s.accepted ++ input.take count).length
      rw [List.length_append]
      omega
    | _ =>
      rw [hc] at this
      exact this

theorem loadWritten (h : Consistent c s) {size : ℕ} {read : BitVec 64} (hloaded : s.consumer = .readLoaded size read) :
    Consistent c { s with consumer := .taking read (min (c.toSize (s.writePosition - read)) size) [] } := by
  have hok := h.consumer
  rw [hloaded] at hok
  apply h.of_consumer
  have hcount : c.toSize (s.writePosition - read) = s.accepted.length - s.popped.length := by
    rw [hok]
    exact h.ringSize_eq
  have hle := h.popped_le
  rw [hcount]
  refine ⟨hok, by omega, Nat.zero_le _, ?_⟩
  rw [List.append_nil]
  exact h.taken

theorem takeByte (h : Consistent c s) {read : BitVec 64} {count : ℕ} {taken : List Byte}
    (htaking : s.consumer = .taking read count taken) (hmore : taken.length < count) :
    Consistent c { s with consumer := .taking read count (taken ++ [s.bytes (c.slot read count taken.length)]) } := by
  have hok := h.consumer
  rw [htaking] at hok
  obtain ⟨hread, hcount, hshort, ⟨rest, hrest⟩⟩ := hok
  have hring := h.ring_le
  apply h.of_consumer
  refine ⟨hread, hcount, ?_, ?_⟩
  · rw [List.length_append]
    exact hmore
  -- the slot holds the next accepted byte
  have hlt : s.popped.length + taken.length < s.accepted.length := by omega
  have hbyte := h.stored (s.popped.length + taken.length) (by omega) hlt
  have hslot : c.slot read count taken.length = (s.popped.length + taken.length) % c.physicalCapacity := by
    rw [hread, h.readCount]
    exact FifoConfig.slot_eq (by omega) hmore
  rw [hslot, hbyte, ← hrest, ← List.append_assoc]
  cases rest with
  | nil =>
    rw [List.append_nil] at hrest
    rw [← hrest, List.length_append] at hlt
    omega
  | cons b rest =>
    refine ⟨rest, ?_⟩
    have hnext : (s.popped ++ taken ++ b :: rest).getD (s.popped.length + taken.length) 0 = b := by
      rw [← List.length_append, List.getD_eq_getElem?_getD, List.getElem?_append_right le_rfl, Nat.sub_self]
      rfl
    rw [hnext, List.append_assoc]
    rfl

theorem advance (h : Consistent c s) {read : BitVec 64} {count : ℕ} {taken : List Byte}
    (htaking : s.consumer = .taking read count taken) (hdone : taken.length = count) :
    Consistent c { s with readPosition := read + BitVec.ofNat 64 count
                          popped := s.popped ++ taken
                          unconsumed := s.unconsumed + count
                          consumer := .idle } := by
  have hok := h.consumer
  rw [htaking] at hok
  obtain ⟨hread, hcount, hshort, hprefix⟩ := hok
  refine ⟨h.writeCount, ?_, hprefix, ?_, ?_, h.bound, ?_, trivial⟩
  · show read + _ = BitVec.ofNat 64 (s.popped ++ taken).length
    rw [List.length_append, hdone, hread, h.readCount, BitVec.ofNat_add]
  · intro j hj hj'
    dsimp only at hj hj'
    rw [List.length_append] at hj
    exact h.stored j (by omega) hj'
  · have hbalance := h.balance
    show s.inflight = s.accepted.length - (s.popped ++ taken).length + (s.unconsumed + count) + s.producer.pending
    rw [List.length_append, hdone]
    omega
  · have := h.producer
    cases hp : s.producer with
    | copying batch input reserved copying write copied =>
      rw [hp] at this
      obtain ⟨hreserved, hlength, hwrite, hroom, hcopied, hbytes⟩ := this
      refine ⟨hreserved, hlength, hwrite, ?_, hcopied, hbytes⟩
      show s.accepted.length + _ ≤ (s.popped ++ taken).length + _
      rw [List.length_append]
      omega
    | _ =>
      rw [hp] at this
      exact this

theorem consumeTake (h : Consistent c s) {count current : ℕ} (hconsuming : s.consumer = .consuming count current)
    (hsame : s.inflight = current) :
    Consistent c { s with inflight := current - count, unconsumed := s.unconsumed - count, consumer := .idle } := by
  have hok := h.consumer
  rw [hconsuming] at hok
  have hbalance := h.balance
  have hbound := h.bound
  refine ⟨h.writeCount, h.readCount, h.taken, h.stored, ?_, ?_, ?_, trivial⟩
  · show current - count = s.accepted.length - s.popped.length + (s.unconsumed - count) + s.producer.pending
    have := hok.1
    omega
  · show current - count ≤ _
    omega
  · have := h.producer
    cases hp : s.producer <;> rw [hp] at this <;> exact this

/-- Every step of either party keeps the invariant. -/
theorem step (h : Consistent c s) {s' : FifoSystem} (hstep : Step c s s') : Consistent c s' := by
  have hproducer := h.producer
  have hconsumer := h.consumer
  have hbalance := h.balance
  cases hstep with
  | call hidle hsome hbyte => exact h.call hidle hsome hbyte
  | reserveFull hreserving => exact h.of_producer (by rw [hreserving]; rfl) trivial
  | reserveTake hreserving hlimit hsame => exact h.reserveTake hreserving hlimit hsame
  | reserveRetry hreserving =>
    rw [hreserving] at hproducer
    exact h.of_producer (by rw [hreserving]; rfl) hproducer
  | loadWrite hreserved =>
    rw [hreserved] at hproducer
    exact h.of_producer (by rw [hreserved]; rfl) ⟨hproducer.1, hproducer.2.1, hproducer.2.2, rfl⟩
  | loadRead hloaded => exact h.loadRead hloaded
  | copyByte hcopying hmore => exact h.copyByte hcopying hmore
  | publish hcopying => exact h.publish hcopying
  | release hreleasing =>
    rw [hreleasing] at hproducer
    exact hproducer.elim
  | pop hidle => exact h.of_consumer rfl
  | loadWritten hloaded => exact h.loadWritten hloaded
  | takeByte htaking hmore => exact h.takeByte htaking hmore
  | advance htaking hdone => exact h.advance htaking hdone
  | consume hidle hle => exact h.of_consumer ⟨hle, by omega⟩
  | consumeTake hconsuming _ hsame => exact h.consumeTake hconsuming hsame
  | consumeRetry hconsuming =>
    rw [hconsuming] at hconsumer
    have := hconsumer.1
    exact h.of_consumer ⟨hconsumer.1, by omega⟩
  | consumeFail hconsuming hnot =>
    rw [hconsuming] at hconsumer
    exact absurd hconsumer.2 hnot

end Consistent

theorem Reachable.consistent {c : FifoConfig} {s : FifoSystem} (h : Reachable c s) : Consistent c s := by
  induction h with
  | init bytes => exact .init bytes
  | step _ hstep ih => exact ih.step hstep

/-- The FIFO loses and duplicates nothing, in every interleaving of the two parties: the bytes popped
and those in the ring are the bytes accepted, in order; the bytes in the ring are in flight, and those
in flight fit; what is reserved is taken; a batch stays within the logical capacity; and `Consume`
succeeds. -/
theorem decoder_fifo_exact (c : FifoConfig) (s : FifoSystem) (h : Reachable c s) :
    s.popped ++ s.ringBytes c = s.accepted ∧
    s.ringSize c ≤ s.inflight ∧ s.inflight ≤ c.physicalCapacity ∧
    (∀ count, s.producer ≠ .releasing count) ∧
    (∀ batch input reserved count write copied,
      s.producer = .copying batch input reserved count write copied → count = reserved) ∧
    (∀ input current s', s.producer = .reserving true input current → Step c s s' → s.inflight < s'.inflight →
      s'.inflight ≤ c.logicalCapacity) ∧
    s.consumer ≠ .failed := by
  have hs := h.consistent
  have hproducer := hs.producer
  have hbalance := hs.balance
  refine ⟨hs.ringBytes_eq, ?_, hs.bound, ?_, ?_, ?_, ?_⟩
  · rw [hs.ringSize_eq]
    omega
  · intro count hreleasing
    rw [hreleasing] at hproducer
    exact hproducer
  · intro batch input reserved count write copied hcopying
    rw [hcopying] at hproducer
    exact hproducer.1
  · intro input current s' hreserving hstep hmore
    -- of the steps that can happen here only the reservation adds bytes
    cases hstep with
    | reserveTake hreserving' hlimit hsame =>
      rw [hreserving] at hreserving'
      obtain ⟨rfl, rfl, rfl⟩ := hreserving'
      show current + min _ (c.logicalCapacity - current) ≤ _
      have : current < c.logicalCapacity := hlimit
      omega
    | consumeTake _ _ hsame => exact absurd hmore (by dsimp only; omega)
    | release => exact absurd hmore (by dsimp only; omega)
    | _ => exact absurd hmore (lt_irrefl _)
  · intro hfailed
    have hconsumer := hs.consumer
    rw [hfailed] at hconsumer
    exact hconsumer

/-- A host with a 32-bit `size_t` and a ring of four bytes. -/
def sampleConfig : FifoConfig where
  sizeBits := 32
  logicalCapacity := 3
  physicalCapacity := 4
  sizeBits_le := by decide
  physical_fits := by decide
  two_le_physical := by decide
  physical_mask := by decide
  logical_pos := by decide
  logical_le := by decide

theorem decoder_fifo_exact_byte :
    ∃ s, Reachable sampleConfig s ∧ s.accepted = [7] ∧ s.popped ++ s.ringBytes sampleConfig = s.accepted := by
  have hcall := (Reachable.init (c := sampleConfig) fun _ => 0).step
    (@Step.call _ _ false [7] rfl (by decide) (by decide))
  have hreserved := hcall.step (.reserveTake rfl (by decide) rfl)
  have hloaded := (hreserved.step (.loadWrite rfl)).step (.loadRead rfl)
  have hcopied := hloaded.step (@Step.copyByte _ _ false [7] 1 1 0 0 rfl (by decide))
  have hpublished := hcopied.step (.publish rfl)
  exact ⟨_, hpublished, rfl, (decoder_fifo_exact _ _ hpublished).1⟩

end FifoSystem

end Repiu.Sound
