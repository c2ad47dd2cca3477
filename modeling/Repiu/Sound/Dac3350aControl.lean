import Repiu.ByteMemory
import Repiu.TwoWireBus

/-!
# The control bus of the DAC

The decoder of the transfers with which the guest sets the registers of the DAC
(`dac3350a_control.cpp`), from the levels of the two lines.
-/

namespace Repiu.Sound

open TwoWireBus

/-- `kWriteAddress`. -/
def kWriteAddress : Byte := 0x9A

/-- `kAnalogVolumeRegister`. -/
def kAnalogVolumeRegister : Byte := 0x02

structure Dac3350aControlEvent where
  subaddress : Byte
  data : BitVec 16
  dataBytes : ℕ
  leftVolume : Byte
  rightVolume : Byte
  analogVolume : Bool
  stereoMuted : Bool
deriving DecidableEq

/-- The event of a transfer, with the volumes that its data says. -/
def controlEvent (subaddress : Byte) (data : BitVec 16) (dataBytes : ℕ) : Dac3350aControlEvent :=
  let analogVolume := subaddress &&& 0x03 = kAnalogVolumeRegister ∧ 2 ≤ dataBytes
  let left : Byte := if analogVolume then (data >>> 8 &&& 0x3F).setWidth 8 else 0
  let right : Byte := if analogVolume then (data &&& 0x3F).setWidth 8 else 0
  { subaddress := subaddress
    data := data
    dataBytes := dataBytes
    leftVolume := left
    rightVolume := right
    analogVolume := analogVolume
    stereoMuted := analogVolume ∧ left = 0 ∧ right = 0 }

/-- The bytes are the first `byte_count_` of `bytes_`. -/
structure Dac3350aControl where
  data : Bool
  clock : Bool
  active : Bool
  ackClock : Bool
  currentByte : Byte
  currentBits : ℕ
  bytes : List Byte

namespace Dac3350aControl

/-- `Reset`. -/
def reset : Dac3350aControl where
  data := true
  clock := true
  active := false
  ackClock := false
  currentByte := 0
  currentBits := 0
  bytes := []

variable (s : Dac3350aControl)

/-- `StartTransaction`. -/
def startTransaction : Dac3350aControl :=
  { s with active := true, ackClock := false, currentByte := 0, currentBits := 0, bytes := [] }

/-- `FinishTransaction`. -/
def finishTransaction : Option Dac3350aControlEvent × Dac3350aControl :=
  let finished := { s with active := false, ackClock := false, currentByte := 0, currentBits := 0 }
  if s.bytes.length < 3 ∨ s.bytes.getD 0 0 ≠ kWriteAddress then (none, finished)
  else
    let dataBytes := s.bytes.length - 2
    let data : BitVec 16 :=
      if 2 ≤ dataBytes then (s.bytes.getD 2 0).setWidth 16 <<< 8 ||| (s.bytes.getD 3 0).setWidth 16
      else (s.bytes.getD 2 0).setWidth 16
    (some (controlEvent (s.bytes.getD 1 0) data dataBytes), finished)

/-- `ReceiveBit`. -/
def receiveBit (value : Bool) : Dac3350aControl :=
  let s := { s with currentByte := shiftIn s.currentByte value, currentBits := s.currentBits + 1 }
  if s.currentBits ≠ 8 then s
  else
    { s with
      bytes := if s.bytes.length < 4 then s.bytes ++ [s.currentByte] else s.bytes
      currentByte := 0
      currentBits := 0
      ackClock := true }

/-- A rising clock. -/
def clockBit (value : Bool) : Dac3350aControl :=
  if !s.active then s else if s.ackClock then { s with ackClock := false } else s.receiveBit value

/-- Put the levels of the lines down. -/
def atLines (lines : Lines) : Dac3350aControl := { s with data := lines.data, clock := lines.clock }

/-- `WriteLines`. -/
def writeLines (lines : Lines) : Option Dac3350aControlEvent × Dac3350aControl :=
  let (event, s) :=
    if s.clock && s.data && !lines.data then (none, s.startTransaction)
    else if s.clock && !s.data && lines.data && s.active then s.finishTransaction
    else (none, s)
  let s := if !s.clock && lines.clock then s.clockBit lines.data else s
  (event, s.atLines lines)

/-- The levels that were written last. -/
def lines : Lines := ⟨s.data, s.clock⟩

/-- A controller that has written down its events. -/
def writeLogged (logged : Dac3350aControl × List Dac3350aControlEvent) (lines : Lines) :
    Dac3350aControl × List Dac3350aControlEvent :=
  ((logged.1.writeLines lines).2, logged.2 ++ (logged.1.writeLines lines).1.toList)

/-! ## Symbols -/

/-- What the controller does with a symbol of the bus. -/
def receive (logged : Dac3350aControl × List Dac3350aControlEvent) : Symbol →
    Dac3350aControl × List Dac3350aControlEvent
  | .bit value => (logged.1.clockBit value, logged.2)
  | .start => (logged.1.startTransaction, logged.2)
  | .stop =>
    if logged.1.active then (logged.1.finishTransaction.2, logged.2 ++ logged.1.finishTransaction.1.toList) else logged

/-- A controller at some levels of the lines. -/
def place (logged : Dac3350aControl × List Dac3350aControlEvent) (lines : Lines) :
    Dac3350aControl × List Dac3350aControlEvent :=
  (logged.1.atLines lines, logged.2)

variable {s : Dac3350aControl} {before after : Lines} {value : Bool}

@[simp] theorem atLines_atLines : (s.atLines before).atLines after = s.atLines after := rfl

theorem receiveBit_atLines : (s.atLines before).receiveBit value = (s.receiveBit value).atLines before := by
  unfold receiveBit
  dsimp only
  by_cases hlast : s.currentBits + 1 ≠ 8
  · rw [if_pos hlast]
    exact if_pos hlast
  · rw [if_neg hlast]
    exact if_neg hlast

theorem clockBit_atLines : (s.atLines before).clockBit value = (s.clockBit value).atLines before := by
  unfold clockBit
  rw [receiveBit_atLines]
  cases hactive : s.active with
  | false => simp [atLines, hactive]
  | true => cases hack : s.ackClock <;> simp [atLines, hactive, hack]

theorem finishTransaction_atLines :
    (s.atLines before).finishTransaction = (s.finishTransaction.1, s.finishTransaction.2.atLines before) := by
  unfold finishTransaction
  by_cases hshort : s.bytes.length < 3 ∨ s.bytes.getD 0 0 ≠ kWriteAddress
  · rw [if_pos hshort]
    exact if_pos hshort
  · rw [if_neg hshort]
    exact if_neg hshort

/-- A write without an edge only puts the levels down. -/
theorem writeLines_quiet (h : move before after = some none) :
    (s.atLines before).writeLines after = (none, s.atLines after) := by
  obtain ⟨data, clock⟩ := before
  obtain ⟨data', clock'⟩ := after
  cases data <;> cases clock <;> cases data' <;> cases clock' <;> first | rfl | simp [move] at h

theorem writeLines_bit (h : move before after = some (some (.bit value))) :
    (s.atLines before).writeLines after = (none, (s.clockBit value).atLines after) := by
  have hrise : before.clock = false ∧ after.clock = true ∧ after.data = value := by
    obtain ⟨data, clock⟩ := before
    obtain ⟨data', clock'⟩ := after
    cases data <;> cases clock <;> cases data' <;> cases clock' <;> simp_all [move]
  obtain ⟨hlow, hhigh, rfl⟩ := hrise
  have hclock : (s.atLines before).clock = false := hlow
  have hclocked : (s.atLines before).writeLines after =
      (none, ((s.atLines before).clockBit after.data).atLines after) := by
    simp [writeLines, hclock, hhigh]
  rw [hclocked, clockBit_atLines, atLines_atLines]

theorem writeLines_start (h : move before after = some (some .start)) :
    (s.atLines before).writeLines after = (none, s.startTransaction.atLines after) := by
  obtain ⟨data, clock⟩ := before
  obtain ⟨data', clock'⟩ := after
  cases data <;> cases clock <;> cases data' <;> cases clock' <;> first | rfl | simp [move] at h

theorem writeLines_stop (h : move before after = some (some .stop)) :
    (s.atLines before).writeLines after =
      if s.active then (s.finishTransaction.1, s.finishTransaction.2.atLines after) else (none, s.atLines after) := by
  have hrise : before = ⟨false, true⟩ ∧ after = ⟨true, true⟩ := by
    obtain ⟨data, clock⟩ := before
    obtain ⟨data', clock'⟩ := after
    cases data <;> cases clock <;> cases data' <;> cases clock' <;> simp_all [move]
  obtain ⟨rfl, rfl⟩ := hrise
  have hactive : (s.atLines ⟨false, true⟩).active = s.active := rfl
  unfold writeLines
  rw [hactive, finishTransaction_atLines]
  cases s.active <;> rfl

theorem follows_symbols : Follows place writeLogged receive := by
  rintro ⟨s, events⟩ before after symbol hmove
  unfold place writeLogged
  dsimp only
  cases symbol with
  | none => rw [writeLines_quiet hmove, Option.toList_none, List.append_nil, Option.toList_none, List.foldl_nil]
  | some symbol =>
    rw [Option.toList_some, List.foldl_cons, List.foldl_nil]
    cases symbol with
    | bit value => rw [writeLines_bit hmove, Option.toList_none, List.append_nil, receive]
    | start => rw [writeLines_start hmove, Option.toList_none, List.append_nil, receive]
    | stop =>
      rw [writeLines_stop hmove, receive]
      cases s.active with
      | true => rfl
      | false => simp

/-! ## Transfers -/

/-- The controller after some bytes of a transfer and bits of the next one. -/
def collecting (s : Dac3350aControl) (sent : List Byte) (bits : List Bool) : Dac3350aControl :=
  { s with
    active := true
    ackClock := false
    currentByte := bits.foldl shiftIn 0
    currentBits := bits.length
    bytes := sent.take 4 }

variable {sent : List Byte} {bits : List Bool} {events : List Dac3350aControlEvent}

theorem collecting_bit (hbits : bits.length < 7) :
    (s.collecting sent bits).clockBit value = s.collecting sent (bits ++ [value]) := by
  have hcount : ¬bits.length + 1 = 8 := by omega
  simp [collecting, clockBit, receiveBit, hcount]

theorem collecting_byte {ack : Bool} (hbits : bits.length = 7) :
    ((s.collecting sent bits).clockBit value).clockBit ack =
      s.collecting (sent ++ [(bits ++ [value]).foldl shiftIn 0]) [] := by
  have hbytes (byte : Byte) : (if sent.length < 4 then sent.take 4 ++ [byte] else sent.take 4) =
      (sent ++ [byte]).take 4 := by
    by_cases hroom : sent.length < 4
    · rw [if_pos hroom, List.take_of_length_le (by omega), List.take_of_length_le (by simp; omega)]
    · rw [if_neg hroom, List.take_append_of_le_length (by omega)]
  simp [collecting, clockBit, receiveBit, hbits, hbytes]

/-- Bits that do not complete a byte. -/
theorem receive_bits (hbits : bits.length < 8) :
    (bits.map Symbol.bit).foldl receive (s.collecting sent [], events) = (s.collecting sent bits, events) := by
  induction bits using List.reverseRecOn with
  | nil => rfl
  | append_singleton bits value ih =>
    rw [List.length_append, List.length_singleton] at hbits
    rw [List.map_append, List.foldl_append, ih (by omega)]
    exact congrArg (·, events) (collecting_bit (by omega))

theorem receive_transfer (transfer : List (Byte × Bool)) :
    ((transferBits transfer).map Symbol.bit).foldl receive (s.collecting sent [], events) =
      (s.collecting (sent ++ transfer.map (·.1)) [], events) := by
  induction transfer generalizing sent with
  | nil => simp [transferBits]
  | cons byte transfer ih =>
    obtain ⟨byte, ack⟩ := byte
    -- The first seven bits of the byte, and then the two clocks that complete and acknowledge it.
    have hsplit : msbFirst byte = (List.range 7).map byte.getMsbD ++ [byte.getMsbD 7] := by
      rw [msbFirst, List.range_succ, List.map_append, List.map_singleton]
    have hbyte : ((List.range 7).map byte.getMsbD ++ [byte.getMsbD 7]).foldl shiftIn (0 : Byte) = byte := by
      rw [← hsplit, foldl_shiftIn_msbFirst, BitVec.setWidth_eq]
    have hfirst : (((List.range 7).map byte.getMsbD).map Symbol.bit).foldl receive (s.collecting sent [], events) =
        (s.collecting sent ((List.range 7).map byte.getMsbD), events) := receive_bits (by simp)
    have hcons : transferBits ((byte, ack) :: transfer) =
        (List.range 7).map byte.getMsbD ++ byte.getMsbD 7 :: ack :: transferBits transfer := by
      simp [transferBits, hsplit]
    rw [hcons, List.map_append, List.foldl_append, hfirst, List.map_cons, List.map_cons, List.foldl_cons,
      List.foldl_cons, receive, receive, collecting_byte (by simp), hbyte, ih, List.map_cons, List.append_assoc,
      List.singleton_append]

/-- Symbols without a stop add no event. -/
theorem receive_events {logged : Dac3350aControl × List Dac3350aControlEvent} {said : List Symbol}
    (hstop : Symbol.stop ∉ said) : (said.foldl receive logged).2 = logged.2 := by
  induction said generalizing logged with
  | nil => rfl
  | cons symbol said ih =>
    rw [List.mem_cons, not_or] at hstop
    rw [List.foldl_cons, ih hstop.2]
    cases symbol with
    | bit value => rfl
    | start => rfl
    | stop => exact absurd rfl hstop.1

/-- The event of the bytes of a transfer: that of a write with at least one data byte, of which the first
two count. -/
def transferEvent : List Byte → Option Dac3350aControlEvent
  | [address, subaddress, value] =>
    if address = kWriteAddress then some (controlEvent subaddress (value.setWidth 16) 1) else none
  | address :: subaddress :: high :: low :: _ =>
    if address = kWriteAddress then some (controlEvent subaddress (high.setWidth 16 <<< 8 ||| low.setWidth 16) 2)
    else none
  | _ => none

theorem finishTransaction_collecting : (s.collecting sent bits).finishTransaction.1 = transferEvent sent := by
  match sent with
  | [] => rfl
  | [_] => rfl
  | [_, _] => rfl
  | [address, subaddress, value] =>
    by_cases haddress : address = kWriteAddress
    · simp [finishTransaction, collecting, transferEvent, haddress]
    · simp [finishTransaction, collecting, transferEvent, haddress]
  | address :: subaddress :: high :: low :: rest =>
    by_cases haddress : address = kWriteAddress
    · simp [finishTransaction, collecting, transferEvent, haddress]
    · simp [finishTransaction, collecting, transferEvent, haddress]

end Dac3350aControl

open Dac3350aControl

/-- From every state, levels that say a last transfer behind any others without a stop give no event, and
the stop that follows gives that of the transfer; bits of a byte that is cut are nothing. -/
theorem dac3350aControl_decodes {s : Dac3350aControl} {writes : List Lines} {earlier : List Symbol}
    {transfer : List (Byte × Bool)} {cut : List Bool} (hearlier : Symbol.stop ∉ earlier) (hcut : cut.length < 8)
    (hsaid : symbols s.lines writes =
      some (earlier ++ .start :: ((transferBits transfer).map Symbol.bit ++ cut.map Symbol.bit)))
    (hlines : writes.getLastD s.lines = ⟨false, true⟩) :
    (writes.foldl writeLogged (s, [])).2 = [] ∧
      ((writes.foldl writeLogged (s, [])).1.writeLines ⟨true, true⟩).1 = transferEvent (transfer.map (·.1)) := by
  obtain ⟨t, ht⟩ : ∃ t, earlier.foldl receive (s, []) = (t, []) := ⟨_, Prod.ext rfl (receive_events hearlier)⟩
  have hrun : writes.foldl writeLogged (place (s, []) s.lines) = _ := follows_symbols.run hsaid
  have hstart : receive (t, []) .start = (t.collecting [] [], []) := rfl
  rw [List.foldl_append, ht, List.foldl_cons, hstart, List.foldl_append, receive_transfer] at hrun
  have hcollected : writes.foldl writeLogged (s, []) =
      ((t.collecting (transfer.map (·.1)) cut).atLines ⟨false, true⟩, []) := by
    have hbits : ((cut.map Symbol.bit).foldl receive (t.collecting ([] ++ transfer.map (·.1)) [], [])) = _ :=
      receive_bits hcut
    rw [hbits, hlines] at hrun
    exact hrun
  rw [hcollected]
  refine ⟨rfl, ?_⟩
  have hactive : (t.collecting (transfer.map (·.1)) cut).active = true := rfl
  have hstop : move ⟨false, true⟩ ⟨true, true⟩ = some (some Symbol.stop) := rfl
  rw [writeLines_stop hstop, hactive, if_pos rfl]
  exact finishTransaction_collecting

/-- The levels that clock bits, behind a high clock with some data. -/
def bitWrites : Bool → List Bool → List Lines
  | _, [] => []
  | data, value :: bits => ⟨data, false⟩ :: ⟨value, false⟩ :: ⟨value, true⟩ :: bitWrites value bits

/-- The levels of a transfer from an idle bus, up to its stop. -/
def sampleWrites (transfer : List (Byte × Bool)) : List Lines :=
  ⟨false, true⟩ :: bitWrites false (transferBits transfer ++ [false])

/-- Volumes of 63 and 21. -/
theorem dac3350aControl_decodes_volumes :
    ((sampleWrites [(0x9A, false), (0x02, false), (0x3F, false), (0x15, false)]).foldl writeLogged (reset, [])).2 = [] ∧
      (((sampleWrites [(0x9A, false), (0x02, false), (0x3F, false), (0x15, false)]).foldl writeLogged
        (reset, [])).1.writeLines ⟨true, true⟩).1 = transferEvent [0x9A, 0x02, 0x3F, 0x15] :=
  @dac3350aControl_decodes reset (sampleWrites [(0x9A, false), (0x02, false), (0x3F, false), (0x15, false)]) []
    [(0x9A, false), (0x02, false), (0x3F, false), (0x15, false)] [false] (by decide) (by decide) (by decide +kernel)
    (by decide)

/-- A transfer of five bytes is reported as one of four. -/
theorem dac3350aControl_third_data_byte :
    ¬∀ (s : Dac3350aControl) (writes : List Lines) (transfer : List (Byte × Bool)) (cut : List Bool)
      (event : Dac3350aControlEvent), cut.length < 8 →
      symbols s.lines writes = some (.start :: ((transferBits transfer).map Symbol.bit ++ cut.map Symbol.bit)) →
      writes.getLastD s.lines = ⟨false, true⟩ →
      ((writes.foldl writeLogged (s, [])).1.writeLines ⟨true, true⟩).1 = some event →
        event.dataBytes = transfer.length - 2 := by
  intro hcount
  have hthree := hcount reset
    (sampleWrites [(0x9A, false), (0x02, false), (0x01, false), (0x02, false), (0x03, false)])
    [(0x9A, false), (0x02, false), (0x01, false), (0x02, false), (0x03, false)] [false]
    (controlEvent 0x02 0x0102 2) (by decide) (by decide +kernel) (by decide) (by decide +kernel)
  revert hthree
  decide

end Repiu.Sound
