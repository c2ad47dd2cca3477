import Repiu.ByteMemory
import Repiu.ShiftRegister

/-!
# The 93C46 EEPROM

A serial memory of 64 words behind three lines: chip select, clock and data in.
A port write sets all three lines at once; a rising clock edge under chip select
takes in one bit.
-/

namespace Repiu.Engine

namespace Eeprom93c46

inductive State where
  | standby
  | waitStart
  | waitOpcode
  | waitAddress
  | waitData
  | readData
deriving DecidableEq

end Eeprom93c46

open Eeprom93c46 (State)

structure Eeprom93c46 where
  memory : BitVec 6 → BitVec 16
  state : State := .standby
  cs : Bool := false
  clk : Bool := false
  di : Bool := false
  dataOut : Bool := true
  writeEnabled : Bool := false
  opcode : BitVec 8 := 0
  address : BitVec 8 := 0
  dataShiftReg : BitVec 16 := 0
  bitCount : ℕ := 0

namespace Eeprom93c46

/-- The word that `address_ & 0x3F` selects. -/
def word (d : Eeprom93c46) : BitVec 6 := d.address.setWidth 6

def executeCommand (d : Eeprom93c46) : Eeprom93c46 :=
  if d.opcode = 0x00 then
    let extOp := (d.address >>> 4) &&& 0x03
    if extOp = 0x00 then { d with writeEnabled := false }
    else if extOp = 0x03 then { d with writeEnabled := true }
    else if extOp = 0x02 then
      if d.writeEnabled then { d with memory := fun _ => 0xFFFF } else d
    else d
  else if d.opcode = 0x01 then
    if d.writeEnabled then { d with memory := Function.update d.memory d.word d.dataShiftReg } else d
  else if d.opcode = 0x03 then
    if d.writeEnabled then { d with memory := Function.update d.memory d.word 0xFFFF } else d
  else d

/-- What the sixth address bit starts. -/
def addressComplete (d : Eeprom93c46) : Eeprom93c46 :=
  if d.opcode = 0x01 then { d with state := .waitData, bitCount := 0, dataShiftReg := 0 }
  else if d.opcode = 0x02 then
    { d with state := .readData, bitCount := 0, dataOut := false, dataShiftReg := d.memory d.word }
  else if d.opcode = 0x00 ∨ d.opcode = 0x03 then { d.executeCommand with state := .standby }
  else d

def processBit (d : Eeprom93c46) (di : Bool) : Eeprom93c46 :=
  match d.state with
  | .standby => d
  | .waitStart => if di then { d with state := .waitOpcode, bitCount := 0, opcode := 0 } else d
  | .waitOpcode =>
    let d := { d with opcode := shiftIn d.opcode di, bitCount := d.bitCount + 1 }
    if d.bitCount = 2 then { d with state := .waitAddress, bitCount := 0, address := 0 } else d
  | .waitAddress =>
    let d := { d with address := shiftIn d.address di, bitCount := d.bitCount + 1 }
    if d.bitCount = 6 then d.addressComplete else d
  | .waitData =>
    let d := { d with dataShiftReg := shiftIn d.dataShiftReg di, bitCount := d.bitCount + 1 }
    if d.bitCount = 16 then { d.executeCommand with state := .standby } else d
  | .readData =>
    let d := { d with bitCount := d.bitCount + 1 }
    if d.bitCount ≤ 16 then
      { d with dataOut := d.dataShiftReg.getMsbD 0, dataShiftReg := d.dataShiftReg <<< 1 }
    else { d with dataOut := true }

def writeControl (d : Eeprom93c46) (value : Byte) : Eeprom93c46 :=
  let newCs := value.getLsbD 0
  let newClk := value.getLsbD 1
  let newDi := value.getLsbD 2
  let d :=
    if d.cs && !newCs then { d with state := .standby, dataOut := true }
    else if !d.cs && newCs then { d with state := .waitStart, dataOut := true }
    else d
  let d := if newCs && !d.clk && newClk then d.processBit newDi else d
  { d with cs := newCs, clk := newClk, di := newDi }

/-- Port writes in a row. -/
def run (d : Eeprom93c46) (values : List Byte) : Eeprom93c46 := values.foldl writeControl d

def readData (d : Eeprom93c46) : Byte := if d.dataOut then 1 else 0

end Eeprom93c46

/-! ## The memory that the protocol is for -/

/-- Sixty-four words and the latch that allows changes to them. -/
structure WordMemory where
  memory : BitVec 6 → BitVec 16
  writeEnabled : Bool

/-- The commands. The low four address bits of the last three are free. -/
inductive EepromCommand where
  | read (address : BitVec 6)
  | write (address : BitVec 6) (data : BitVec 16)
  | erase (address : BitVec 6)
  | eral (free : BitVec 4)
  | ewen (free : BitVec 4)
  | ewds (free : BitVec 4)

namespace EepromCommand

/-- The effect of a command. -/
def apply (m : WordMemory) : EepromCommand → WordMemory
  | .read _ => m
  | .write address data =>
    if m.writeEnabled then { m with memory := Function.update m.memory address data } else m
  | .erase address =>
    if m.writeEnabled then { m with memory := Function.update m.memory address 0xFFFF } else m
  | .eral _ => if m.writeEnabled then { m with memory := fun _ => 0xFFFF } else m
  | .ewen _ => { m with writeEnabled := true }
  | .ewds _ => { m with writeEnabled := false }

def opcode : EepromCommand → BitVec 2
  | .read _ => 2
  | .write _ _ => 1
  | .erase _ => 3
  | .eral _ | .ewen _ | .ewds _ => 0

def address : EepromCommand → BitVec 6
  | .read a | .write a _ | .erase a => a
  | .eral free => 2#2 ++ free
  | .ewen free => 3#2 ++ free
  | .ewds free => 0#2 ++ free

/-- The data bits that follow the address. -/
def data : EepromCommand → List Bool
  | .write _ d => msbFirst d
  | _ => []

/-- A command as it is sent after the start bit. -/
def bits (c : EepromCommand) : List Bool := msbFirst c.opcode ++ msbFirst c.address ++ c.data

end EepromCommand

/-! ## The lines -/

/-- What a port write can tell the device. -/
inductive LineEvent where
  | select
  | deselect
  | bit (di : Bool)
deriving DecidableEq

/-- The events of one port write after the lines `cs` and `clk`. -/
def lineEvents (cs clk : Bool) (value : Byte) : List LineEvent :=
  (if cs && !value.getLsbD 0 then [.deselect] else if !cs && value.getLsbD 0 then [.select] else []) ++
    if value.getLsbD 0 && !clk && value.getLsbD 1 then [.bit (value.getLsbD 2)] else []

/-- The events of port writes in a row. -/
def runEvents (cs clk : Bool) : List Byte → List LineEvent
  | [] => []
  | value :: rest => lineEvents cs clk value ++ runEvents (value.getLsbD 0) (value.getLsbD 1) rest

/-- What happens while the chip is selected: a command after leading zeros and with further clocks
behind it, or the beginning of one that is cut off. -/
inductive EepromFrame where
  | complete (zeros : ℕ) (c : EepromCommand) (further : List Bool)
  | cut (zeros : ℕ) (c : EepromCommand) (sent : ℕ) (short : sent < zeros + 1 + c.bits.length)

namespace EepromFrame

/-- The bits that the device takes in. -/
def bits : EepromFrame → List Bool
  | .complete zeros c further => List.replicate zeros false ++ true :: c.bits ++ further
  | .cut zeros c sent _ => (List.replicate zeros false ++ true :: c.bits).take sent

def events (f : EepromFrame) : List LineEvent := .select :: f.bits.map .bit ++ [.deselect]

/-- A cut command has no effect. -/
def apply (m : WordMemory) : EepromFrame → WordMemory
  | .complete _ c _ => c.apply m
  | .cut _ _ _ _ => m

end EepromFrame

/-! ## Port writes are line events -/

namespace Eeprom93c46

variable {d : Eeprom93c46}

def onEvent (d : Eeprom93c46) : LineEvent → Eeprom93c46
  | .select => { d with state := .waitStart, dataOut := true }
  | .deselect => { d with state := .standby, dataOut := true }
  | .bit di => d.processBit di

/-- The same device with other line levels. -/
def withLines (d : Eeprom93c46) (cs clk di : Bool) : Eeprom93c46 := { d with cs := cs, clk := clk, di := di }

theorem executeCommand_withLines (cs clk di : Bool) :
    (d.withLines cs clk di).executeCommand = d.executeCommand.withLines cs clk di := by
  unfold executeCommand
  simp only [apply_ite (fun d : Eeprom93c46 => d.withLines cs clk di)]
  rfl

theorem addressComplete_withLines (cs clk di : Bool) :
    (d.withLines cs clk di).addressComplete = d.addressComplete.withLines cs clk di := by
  unfold addressComplete
  rw [executeCommand_withLines]
  simp only [apply_ite (fun d : Eeprom93c46 => d.withLines cs clk di)]
  rfl

theorem processBit_waitOpcode (h : d.state = .waitOpcode) (b : Bool) :
    d.processBit b =
      if d.bitCount + 1 = 2 then
        { d with state := .waitAddress, bitCount := 0, address := 0, opcode := shiftIn d.opcode b }
      else { d with opcode := shiftIn d.opcode b, bitCount := d.bitCount + 1 } := by
  rw [processBit, h]

theorem processBit_waitAddress (h : d.state = .waitAddress) (b : Bool) :
    d.processBit b =
      if d.bitCount + 1 = 6 then { d with address := shiftIn d.address b, bitCount := d.bitCount + 1 }.addressComplete
      else { d with address := shiftIn d.address b, bitCount := d.bitCount + 1 } := by
  rw [processBit, h]

theorem processBit_waitData (h : d.state = .waitData) (b : Bool) :
    d.processBit b =
      if d.bitCount + 1 = 16 then
        { { d with dataShiftReg := shiftIn d.dataShiftReg b, bitCount := d.bitCount + 1 }.executeCommand with
          state := .standby }
      else { d with dataShiftReg := shiftIn d.dataShiftReg b, bitCount := d.bitCount + 1 } := by
  rw [processBit, h]

theorem processBit_readData (h : d.state = .readData) (b : Bool) :
    d.processBit b =
      if d.bitCount + 1 ≤ 16 then
        { d with dataOut := d.dataShiftReg.getMsbD 0, dataShiftReg := d.dataShiftReg <<< 1,
                 bitCount := d.bitCount + 1 }
      else { d with dataOut := true, bitCount := d.bitCount + 1 } := by
  rw [processBit, h]

theorem processBit_withLines (cs clk di b : Bool) :
    (d.withLines cs clk di).processBit b = (d.processBit b).withLines cs clk di := by
  have hstate : (d.withLines cs clk di).state = d.state := rfl
  cases h : d.state with
  | standby => rw [processBit, processBit, hstate, h]
  | waitStart =>
    rw [processBit, processBit, hstate, h]
    cases b <;> rfl
  | waitOpcode =>
    rw [processBit_waitOpcode (hstate.trans h), processBit_waitOpcode h,
      apply_ite (fun d : Eeprom93c46 => d.withLines cs clk di)]
    rfl
  | waitAddress =>
    rw [processBit_waitAddress (hstate.trans h), processBit_waitAddress h,
      apply_ite (fun d : Eeprom93c46 => d.withLines cs clk di), ← addressComplete_withLines]
    rfl
  | waitData =>
    rw [processBit_waitData (hstate.trans h), processBit_waitData h,
      apply_ite (fun d : Eeprom93c46 => d.withLines cs clk di)]
    refine if_congr Iff.rfl ?_ rfl
    exact congrArg (fun d : Eeprom93c46 => { d with state := .standby }) (executeCommand_withLines
      (d := { d with dataShiftReg := shiftIn d.dataShiftReg b, bitCount := d.bitCount + 1 }) cs clk di)
  | readData =>
    rw [processBit_readData (hstate.trans h), processBit_readData h,
      apply_ite (fun d : Eeprom93c46 => d.withLines cs clk di)]
    rfl

theorem foldl_onEvent_withLines (events : List LineEvent) (cs clk di : Bool) :
    events.foldl onEvent (d.withLines cs clk di) = (events.foldl onEvent d).withLines cs clk di := by
  induction events generalizing d with
  | nil => rfl
  | cons e events ih =>
    cases e with
    | select => exact ih (d := d.onEvent .select)
    | deselect => exact ih (d := d.onEvent .deselect)
    | bit b =>
      show events.foldl onEvent ((d.withLines cs clk di).processBit b) = _
      rw [processBit_withLines]
      exact ih (d := d.processBit b)

theorem writeControl_eq_events (value : Byte) :
    d.writeControl value = ((lineEvents d.cs d.clk value).foldl onEvent d).withLines
      (value.getLsbD 0) (value.getLsbD 1) (value.getLsbD 2) := by
  unfold writeControl lineEvents
  cases hcs : d.cs <;> cases hclk : d.clk <;> cases value.getLsbD 0 <;> cases value.getLsbD 1 <;>
    simp [onEvent, withLines, hcs, hclk]

/-- A run is the run of its events. -/
theorem run_eq_events (values : List Byte) :
    ∃ cs clk di, d.run values = ((runEvents d.cs d.clk values).foldl onEvent d).withLines cs clk di := by
  induction values generalizing d with
  | nil => exact ⟨d.cs, d.clk, d.di, rfl⟩
  | cons value rest ih =>
    obtain ⟨cs, clk, di, h⟩ := ih (d := d.writeControl value)
    refine ⟨cs, clk, di, ?_⟩
    show (d.writeControl value).run rest = _
    rw [h, runEvents, List.foldl_append, writeControl_eq_events value, foldl_onEvent_withLines]
    rfl

/-! ## One command -/

/-- The words and the latch of a device. -/
def words (d : Eeprom93c46) : WordMemory := ⟨d.memory, d.writeEnabled⟩

/-- The device after a start bit. -/
def started (d : Eeprom93c46) : Eeprom93c46 := { d with state := .waitOpcode, bitCount := 0, opcode := 0 }

theorem foldl_zeros (h : d.state = .waitStart) (zeros : ℕ) :
    (List.replicate zeros false).foldl processBit d = d := by
  induction zeros with
  | zero => rfl
  | succ zeros ih =>
    rw [List.replicate_succ, List.foldl_cons]
    have hstay : d.processBit false = d := by
      rw [processBit, h]
      rfl
    rw [hstay, ih]

theorem processBit_start (h : d.state = .waitStart) : d.processBit true = d.started := by
  rw [processBit, h]
  rfl

theorem foldl_opcode (op : BitVec 2) :
    (msbFirst op).foldl processBit d.started =
      { d with state := .waitAddress, bitCount := 0, opcode := op.setWidth 8, address := 0 } := by
  rw [← foldl_shiftIn_msbFirst op]
  rfl

/-- Address bits before the sixth only move into the register. -/
theorem foldl_address_short {bits : List Bool} (h : d.state = .waitAddress) (hshort : d.bitCount + bits.length < 6) :
    bits.foldl processBit d =
      { d with address := bits.foldl shiftIn d.address, bitCount := d.bitCount + bits.length } := by
  induction bits generalizing d with
  | nil => rfl
  | cons b bits ih =>
    rw [List.length_cons] at hshort
    have hstep : d.processBit b = { d with address := shiftIn d.address b, bitCount := d.bitCount + 1 } := by
      rw [processBit_waitAddress h, if_neg (by omega)]
    rw [List.foldl_cons, hstep, ih (by exact h) (by show d.bitCount + 1 + _ < 6; omega)]
    simp only [List.foldl_cons, List.length_cons, Nat.add_assoc, Nat.add_comm 1]

theorem foldl_address (h : d.state = .waitAddress) (hcount : d.bitCount = 0) (haddress : d.address = 0)
    (a : BitVec 6) :
    (msbFirst a).foldl processBit d = { d with address := a.setWidth 8, bitCount := 6 }.addressComplete := by
  have hsplit : msbFirst a = (List.range 5).map a.getMsbD ++ [a.getMsbD 5] := rfl
  have hlength : ((List.range 5).map a.getMsbD).length = 5 := by simp
  have hword := foldl_shiftIn_msbFirst (w := 8) a
  rw [hsplit, List.foldl_append, List.foldl_cons, List.foldl_nil] at hword
  rw [hsplit, List.foldl_append, foldl_address_short h (by rw [hcount, hlength]; decide), List.foldl_cons,
    List.foldl_nil, processBit_waitAddress (by exact h), if_pos (by rw [hcount, hlength])]
  simp only [haddress, hcount, hlength, hword]

/-- Data bits before the sixteenth only move into the register. -/
theorem foldl_data_short {bits : List Bool} (h : d.state = .waitData) (hshort : d.bitCount + bits.length < 16) :
    bits.foldl processBit d =
      { d with dataShiftReg := bits.foldl shiftIn d.dataShiftReg, bitCount := d.bitCount + bits.length } := by
  induction bits generalizing d with
  | nil => rfl
  | cons b bits ih =>
    rw [List.length_cons] at hshort
    have hstep : d.processBit b =
        { d with dataShiftReg := shiftIn d.dataShiftReg b, bitCount := d.bitCount + 1 } := by
      rw [processBit_waitData h, if_neg (by omega)]
    rw [List.foldl_cons, hstep, ih (by exact h) (by show d.bitCount + 1 + _ < 16; omega)]
    simp only [List.foldl_cons, List.length_cons, Nat.add_assoc, Nat.add_comm 1]

theorem foldl_data (h : d.state = .waitData) (hcount : d.bitCount = 0) (hreg : d.dataShiftReg = 0)
    (x : BitVec 16) :
    (msbFirst x).foldl processBit d =
      { { d with dataShiftReg := x, bitCount := 16 }.executeCommand with state := .standby } := by
  have hsplit : msbFirst x = (List.range 15).map x.getMsbD ++ [x.getMsbD 15] := rfl
  have hlength : ((List.range 15).map x.getMsbD).length = 15 := by simp
  have hword := foldl_shiftIn_msbFirst (w := 16) x
  rw [BitVec.setWidth_eq, hsplit, List.foldl_append, List.foldl_cons, List.foldl_nil] at hword
  rw [hsplit, List.foldl_append, foldl_data_short h (by rw [hcount, hlength]; decide), List.foldl_cons,
    List.foldl_nil, processBit_waitData (by exact h), if_pos (by rw [hcount, hlength])]
  simp only [hreg, hcount, hlength, hword]

/-- The device after the address of a command. -/
theorem foldl_header (c : EepromCommand) :
    (msbFirst c.opcode ++ msbFirst c.address).foldl processBit d.started =
      { d with state := .waitAddress, opcode := c.opcode.setWidth 8, address := c.address.setWidth 8,
               bitCount := 6 }.addressComplete := by
  rw [List.foldl_append, foldl_opcode, foldl_address rfl rfl rfl]

/-- The selector of an extended command is the high part of its address. -/
theorem extended_selector (op : BitVec 2) (free : BitVec 4) :
    ((op ++ free).setWidth 8 >>> 4) &&& (3 : BitVec 8) = op.setWidth 8 := by
  revert op free
  decide

theorem words_executeCommand (c : EepromCommand) (hopcode : d.opcode = c.opcode.setWidth 8)
    (haddress : d.address = c.address.setWidth 8)
    (hdata : ∀ a x, c = .write a x → d.dataShiftReg = x) : d.executeCommand.words = c.apply d.words := by
  have hword : d.word = c.address := by
    rw [word, haddress]
    exact BitVec.setWidth_setWidth_of_le _ (by decide)
  cases c with
  | read a =>
    rw [executeCommand, hopcode]
    rfl
  | write a x =>
    rw [executeCommand, hopcode, hword, hdata a x rfl]
    show words (if d.writeEnabled then _ else d) = _
    exact apply_ite words _ _ _
  | erase a =>
    rw [executeCommand, hopcode, hword]
    show words (if d.writeEnabled then _ else d) = _
    exact apply_ite words _ _ _
  | eral free =>
    rw [executeCommand, hopcode, haddress]
    simp only [EepromCommand.address, extended_selector]
    show words (if d.writeEnabled then _ else d) = _
    exact apply_ite words _ _ _
  | ewen free =>
    rw [executeCommand, hopcode, haddress]
    simp only [EepromCommand.address, extended_selector]
    rfl
  | ewds free =>
    rw [executeCommand, hopcode, haddress]
    simp only [EepromCommand.address, extended_selector]
    rfl

/-- After a complete command the device waits for chip select to drop, or shows a word. -/
def Done (d : Eeprom93c46) : Prop := d.state = .standby ∨ d.state = .readData

/-- A command that takes no data runs at its last address bit. -/
theorem addressComplete_execute (hopcode : d.opcode = 0 ∨ d.opcode = 3) :
    d.addressComplete = { d.executeCommand with state := .standby } := by
  unfold addressComplete
  rcases hopcode with h | h <;> rw [h] <;> rfl

theorem addressComplete_write (hopcode : d.opcode = 1) :
    d.addressComplete = { d with state := .waitData, bitCount := 0, dataShiftReg := 0 } := by
  rw [addressComplete, if_pos hopcode]

theorem addressComplete_read (hopcode : d.opcode = 2) :
    d.addressComplete =
      { d with state := .readData, bitCount := 0, dataOut := false, dataShiftReg := d.memory d.word } := by
  rw [addressComplete, if_neg (by rw [hopcode]; decide), if_pos hopcode]

theorem foldl_read (a : BitVec 6) :
    (EepromCommand.read a).bits.foldl processBit d.started =
      { d with state := .readData, opcode := 2, address := a.setWidth 8, bitCount := 0, dataOut := false,
               dataShiftReg := d.memory a } := by
  have hword : (a.setWidth 8).setWidth 6 = a := BitVec.setWidth_setWidth_of_le _ (by decide)
  show List.foldl processBit d.started (_ ++ []) = _
  rw [List.append_nil, foldl_header, addressComplete_read rfl]
  simp only [word, EepromCommand.address, hword]
  rfl

/-- A command without data has its effect at its last address bit. -/
theorem foldl_immediate {c : EepromCommand} (hdata : c.data = [])
    (hopcode : c.opcode.setWidth 8 = (0 : BitVec 8) ∨ c.opcode.setWidth 8 = (3 : BitVec 8)) :
    (c.bits.foldl processBit d.started).words = c.apply d.words ∧ (c.bits.foldl processBit d.started).Done := by
  rw [EepromCommand.bits, hdata, List.append_nil, foldl_header, addressComplete_execute hopcode]
  refine ⟨words_executeCommand c rfl rfl ?_, .inl rfl⟩
  rintro a x rfl
  exact absurd (congrArg List.length hdata) (by simp [EepromCommand.data])

/-- A complete command has its effect. -/
theorem foldl_command (c : EepromCommand) :
    (c.bits.foldl processBit d.started).words = c.apply d.words ∧ (c.bits.foldl processBit d.started).Done := by
  cases c with
  | read a =>
    rw [foldl_read]
    exact ⟨rfl, .inr rfl⟩
  | write a x =>
    rw [EepromCommand.bits, List.foldl_append, foldl_header, addressComplete_write rfl, EepromCommand.data,
      foldl_data rfl rfl rfl]
    exact ⟨words_executeCommand (.write a x) rfl rfl (by rintro _ _ ⟨⟩; rfl), .inl rfl⟩
  | erase a => exact foldl_immediate rfl (.inr rfl)
  | eral free => exact foldl_immediate rfl (.inl rfl)
  | ewen free => exact foldl_immediate rfl (.inl rfl)
  | ewds free => exact foldl_immediate rfl (.inl rfl)

/-- Further clocks after a complete command change no word. -/
theorem foldl_further (h : d.Done) (further : List Bool) : (further.foldl processBit d).words = d.words := by
  induction further generalizing d with
  | nil => rfl
  | cons b further ih =>
    rcases h with h | h
    · have hstay : d.processBit b = d := by rw [processBit, h]
      rw [List.foldl_cons, hstay]
      exact ih (.inl h)
    · rw [List.foldl_cons, processBit_readData h]
      split
      · exact ih (.inr h)
      · exact ih (.inr h)

/-- The `k`-th clock after a READ shows bit `k - 1` of the word. -/
theorem foldl_shows (h : d.state = .readData) {further : List Bool} (hfew : d.bitCount + further.length ≤ 16)
    (hsome : further ≠ []) :
    (further.foldl processBit d).dataOut = d.dataShiftReg.getMsbD (further.length - 1) := by
  induction further generalizing d with
  | nil => exact absurd rfl hsome
  | cons b further ih =>
    rw [List.length_cons] at hfew
    rw [List.foldl_cons, processBit_readData h, if_pos (by omega)]
    by_cases hlast : further = []
    · subst hlast
      rfl
    · rw [ih (by exact h) (by dsimp only; omega) hlast]
      have hlength : 1 ≤ further.length := List.length_pos_iff.mpr hlast
      rw [BitVec.getMsbD_shiftLeft, List.length_cons]
      congr 1
      omega

/-- A command that is cut off before its last bit changes no word. -/
theorem foldl_cut (c : EepromCommand) {sent : ℕ} (hshort : sent < c.bits.length) :
    ((c.bits.take sent).foldl processBit d.started).words = d.words := by
  unfold EepromCommand.bits at hshort ⊢
  rw [List.length_append, List.length_append, msbFirst_length, msbFirst_length] at hshort
  rw [List.take_append, List.take_append, List.length_append, msbFirst_length, msbFirst_length]
  by_cases hopcode : sent < 2
  · -- inside the opcode
    rw [show sent - 2 = 0 by omega, show sent - (2 + 6) = 0 by omega, List.take_zero, List.take_zero,
      List.append_nil, List.append_nil]
    interval_cases sent <;> rfl
  rw [List.take_of_length_le (by rw [msbFirst_length]; omega), List.foldl_append, List.foldl_append, foldl_opcode]
  by_cases haddress : sent < 8
  · -- inside the address
    rw [show sent - (2 + 6) = 0 by omega, List.take_zero, List.foldl_nil, foldl_address_short rfl]
    · rfl
    · simp only [List.length_take, msbFirst_length]
      omega
  · -- inside the data of a WRITE
    rw [List.take_of_length_le (by rw [msbFirst_length]; omega), foldl_address rfl rfl rfl]
    cases c with
    | write a x =>
      rw [addressComplete_write rfl, foldl_data_short rfl]
      · rfl
      · simp only [EepromCommand.data, List.length_take, msbFirst_length] at hshort ⊢
        omega
    | _ => exact absurd hshort (by simp only [EepromCommand.data, List.length_nil]; omega)

/-! ## Frames -/

theorem foldl_bits (bits : List Bool) : (bits.map LineEvent.bit).foldl onEvent d = bits.foldl processBit d := by
  rw [List.foldl_map]
  rfl

/-- The bits of a frame after the chip was selected. -/
theorem foldl_frame (f : EepromFrame) (h : d.state = .waitStart) :
    (f.bits.foldl processBit d).words = f.apply d.words := by
  cases f with
  | complete zeros c further =>
    rw [EepromFrame.bits, List.foldl_append, List.foldl_append, foldl_zeros h, List.foldl_cons, processBit_start h]
    obtain ⟨hwords, hdone⟩ := foldl_command (d := d) c
    rw [foldl_further hdone, hwords]
    rfl
  | cut zeros c sent short =>
    rw [EepromFrame.bits, List.take_append, List.length_replicate, List.foldl_append, List.take_replicate,
      foldl_zeros h]
    match hsent : sent - zeros with
    | 0 => rfl
    | n + 1 =>
      rw [List.take_succ_cons, List.foldl_cons, processBit_start h]
      exact foldl_cut c (by omega)

theorem words_open (f : EepromFrame) :
    ((LineEvent.select :: f.bits.map .bit).foldl onEvent d).words = f.apply d.words := by
  rw [List.foldl_cons, foldl_bits]
  exact foldl_frame f rfl

theorem words_deselect : (d.onEvent .deselect).words = d.words := rfl

theorem words_frame (f : EepromFrame) : (f.events.foldl onEvent d).words = f.apply d.words := by
  rw [EepromFrame.events, List.foldl_append, List.foldl_cons, List.foldl_nil, words_deselect, words_open]

theorem words_frames (frames : List EepromFrame) :
    ((frames.flatMap EepromFrame.events).foldl onEvent d).words = frames.foldl EepromFrame.apply d.words := by
  induction frames generalizing d with
  | nil => rfl
  | cons f frames ih =>
    rw [List.flatMap_cons, List.foldl_append, ih, words_frame]
    rfl

/-- A READ shows a zero, and then its word. -/
theorem dataOut_read (zeros : ℕ) (a : BitVec 6) {further : List Bool} (hfew : further.length ≤ 16) :
    ((LineEvent.select :: (EepromFrame.complete zeros (.read a) further).bits.map .bit).foldl onEvent d).dataOut =
      (decide (further ≠ []) && (d.memory a).getMsbD (further.length - 1)) := by
  rw [List.foldl_cons, foldl_bits, EepromFrame.bits, List.foldl_append, List.foldl_append, foldl_zeros rfl,
    List.foldl_cons, processBit_start rfl, foldl_read]
  by_cases hsome : further = []
  · subst hsome
    rfl
  · rw [foldl_shows rfl (by simpa using hfew) hsome]
    simp [hsome, onEvent]

end Eeprom93c46

open Eeprom93c46

/-- The port writes encode frames; the chip select of the last one may still be up. -/
def Encodes (clk : Bool) (values : List Byte) (frames : List EepromFrame) : Prop :=
  runEvents false clk values = frames.flatMap EepromFrame.events ∨
    runEvents false clk values ++ [.deselect] = frames.flatMap EepromFrame.events

/-- The bit protocol implements a memory of 64 words: port writes that encode commands have the
effects of these commands in order, a command that is cut off has none, and the clocks after a READ
show a zero and then the word from its high bit on. -/
theorem eeprom_protocol (d : Eeprom93c46) (hcs : d.cs = false) (values : List Byte) (frames : List EepromFrame) :
    (Encodes d.clk values frames → (d.run values).words = frames.foldl EepromFrame.apply d.words) ∧
    ∀ (zeros : ℕ) (a : BitVec 6) (further : List Bool), further.length ≤ 16 →
      runEvents false d.clk values ++ [.deselect] =
        (frames ++ [EepromFrame.complete zeros (.read a) further]).flatMap EepromFrame.events →
      (d.run values).readData =
        if further ≠ [] ∧ ((frames.foldl EepromFrame.apply d.words).memory a).getMsbD (further.length - 1) = true
        then 1 else 0 := by
  obtain ⟨cs, clk, di, hrun⟩ := run_eq_events (d := d) values
  rw [hcs] at hrun
  constructor
  · intro hencodes
    have hwords : (d.run values).words = ((runEvents false d.clk values).foldl onEvent d).words := by
      rw [hrun]
      rfl
    rcases hencodes with hframes | hframes
    · rw [hwords, hframes, words_frames]
    · rw [hwords, ← words_frames frames, ← hframes, List.foldl_append]
      rfl
  · intro zeros a further hfew hframes
    rw [List.flatMap_append, List.flatMap_cons, List.flatMap_nil, List.append_nil, EepromFrame.events,
      ← List.append_assoc] at hframes
    have hevents := List.append_cancel_right hframes
    have hout : (d.run values).dataOut = ((runEvents false d.clk values).foldl onEvent d).dataOut := by
      rw [hrun]
      rfl
    have hmemory := congrArg WordMemory.memory (words_frames (d := d) frames)
    rw [readData, hout, hevents, List.foldl_append, dataOut_read zeros a hfew]
    simp only [Bool.and_eq_true, decide_eq_true_eq]
    rw [← hmemory]
    rfl

/-- The port writes that clock in bits under chip select. -/
def clockBits (bits : List Bool) : List Byte :=
  bits.flatMap fun b => if b then [5, 7] else [1, 3]

def sampleEeprom : Eeprom93c46 := ⟨fun _ => 0, .standby, false, false, false, true, false, 0, 0, 0, 0⟩

/-- Write access, and a word. -/
def sampleFrames : List EepromFrame := [.complete 0 (.ewen 0) [], .complete 2 (.write 5 0x4000) []]

theorem eeprom_protocol_sample :
    (sampleEeprom.run (sampleFrames.flatMap fun f => 1 :: clockBits f.bits ++ [0])).words =
      sampleFrames.foldl EepromFrame.apply sampleEeprom.words ∧
    (sampleEeprom.run ((sampleFrames.flatMap fun f => 1 :: clockBits f.bits ++ [0]) ++
      clockBits (EepromFrame.complete 1 (.read 5) [false, false]).bits)).readData = 1 :=
  ⟨(eeprom_protocol sampleEeprom rfl _ sampleFrames).1 (.inl (by decide +kernel)),
    ((eeprom_protocol sampleEeprom rfl _ sampleFrames).2 1 5 [false, false] (by decide)
      (by decide +kernel)).trans (by decide +kernel)⟩

end Repiu.Engine
