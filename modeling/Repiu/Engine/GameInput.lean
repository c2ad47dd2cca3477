import Mathlib.Data.Finset.Erase
import Mathlib.Data.Finset.Insert
import Repiu.Engine.JammaInputTimeline
import Repiu.StepRuns

/-!
# Keys and pads as inputs

How key and pad events reach the input timeline (`glide_opengl_backend.cpp`). A press
drives one input, a release lets go of every input bound to its key, and a pad drives
the inputs by the differences of its masks.
-/

namespace Repiu.Engine

abbrev Keycode := BitVec 32
abbrev Keymod := BitVec 16

/-- The modifiers a configuration may speak about: shift, control and alt of either side. -/
def kConfigurableModifierMask : Keymod := 0x3C3

def kKeymodAlt : Keymod := 0x300
def kKeyTab : Keycode := 0x9
def kKeyReturn : Keycode := 0xD
def kKeyKeypadEnter : Keycode := 0x40000058

/-! ## Bindings -/

structure HostKeyAlias where
  keycode : Keycode
  required : List Keymod := []
  forbidden : Keymod := 0
deriving DecidableEq

namespace HostKeyAlias

def modifiersMatch (entry : HostKeyAlias) (state : Keymod) : Bool :=
  let masked := state &&& kConfigurableModifierMask
  (entry.required.all fun modifier => masked &&& modifier ≠ 0) && masked &&& entry.forbidden = 0

/-- `ApplyModifierContention` for one alias. Its own requirements are empty where it gains
a mask, so it need not be told apart from the others. -/
def contended (aliases : List HostKeyAlias) (entry : HostKeyAlias) : HostKeyAlias :=
  if entry.required ≠ [] then entry
  else
    { entry with
      forbidden := ((aliases.filter (·.keycode = entry.keycode)).flatMap required).foldl (· ||| ·) 0 }

end HostKeyAlias

inductive HostPadControlKind
  | kNone | kGamepadButton | kGamepadTrigger | kJoystickButton | kJoystickHat
deriving DecidableEq

structure HostPadAlias where
  kind : HostPadControlKind
  slot : ℕ
  control : ℕ
  hatDirection : BitVec 8 := 0

/-- What every connected pad is holding. -/
structure HostPadState where
  gamepadButtons : ℕ → BitVec 32 := fun _ => 0
  gamepadTriggers : ℕ → BitVec 8 := fun _ => 0
  joystickButtons : ℕ → BitVec 32 := fun _ => 0
  joystickHats : ℕ → ℕ → BitVec 8 := fun _ _ => 0

def kMaxGamepadSlots : ℕ := 4
def kMaxJoystickSlots : ℕ := 8
def kMaxJoystickButtons : ℕ := 32
def kMaxJoystickHats : ℕ := 4

def isHostPadAliasDown (entry : HostPadAlias) (state : HostPadState) : Bool :=
  match entry.kind with
  | .kGamepadButton =>
    entry.slot < kMaxGamepadSlots && entry.control < 32 &&
      (state.gamepadButtons entry.slot).getLsbD entry.control
  | .kGamepadTrigger =>
    entry.slot < kMaxGamepadSlots && entry.control < 2 &&
      (state.gamepadTriggers entry.slot).getLsbD entry.control
  | .kJoystickButton =>
    entry.slot < kMaxJoystickSlots && entry.control < kMaxJoystickButtons &&
      (state.joystickButtons entry.slot).getLsbD entry.control
  | .kJoystickHat =>
    entry.slot < kMaxJoystickSlots && entry.control < kMaxJoystickHats &&
      state.joystickHats entry.slot entry.control &&& entry.hatDirection ≠ 0
  | .kNone => false

structure JammaInputBinding where
  aliases : List HostKeyAlias := []
  padAliases : List HostPadAlias := []

/-- The inputs, in the order of their masks. -/
def jammaInputKeys : List JammaInputKey :=
  [.p1UpLeft, .p1UpRight, .p1DownLeft, .p1DownRight, .p1Center, .coin1, .test, .service, .clear,
    .p2UpLeft, .p2UpRight, .p2DownLeft, .p2DownRight, .p2Center]

structure ResolvedJammaBindings where
  inputs : JammaInputKey → JammaInputBinding

/-- Does a mask hold an input? -/
def maskHas (mask : BitVec 16) (key : JammaInputKey) : Bool := mask &&& jammaInputKeyMask key ≠ 0

/-- The mask of the inputs that answer. -/
def inputMask (p : JammaInputKey → Bool) : BitVec 16 :=
  jammaInputKeys.foldl (fun mask key => if p key then mask ||| jammaInputKeyMask key else mask) 0

namespace ResolvedJammaBindings

/-- `FinalizeJammaBindings`. -/
def finalize (b : ResolvedJammaBindings) : ResolvedJammaBindings where
  inputs key :=
    let flattened := jammaInputKeys.flatMap fun key => (b.inputs key).aliases
    { b.inputs key with aliases := (b.inputs key).aliases.map (HostKeyAlias.contended flattened) }

def findJammaInputForPress (b : ResolvedJammaBindings) (keycode : Keycode) (state : Keymod) : Option JammaInputKey :=
  jammaInputKeys.find? fun key =>
    (b.inputs key).aliases.any fun entry => entry.keycode = keycode && entry.modifiersMatch state

def jammaInputMaskForKeycode (b : ResolvedJammaBindings) (keycode : Keycode) : BitVec 16 :=
  inputMask fun key => (b.inputs key).aliases.any fun entry => entry.keycode = keycode

def computeJammaPadMask (b : ResolvedJammaBindings) (state : HostPadState) : BitVec 16 :=
  inputMask fun key => (b.inputs key).padAliases.any fun entry => isHostPadAliasDown entry state

/-- The polled keyboard: the inputs with a held key. -/
def captureKeyboardJammaPressedMask (b : ResolvedJammaBindings) (held : Finset Keycode) : BitVec 16 :=
  inputMask fun key => (b.inputs key).aliases.any fun entry => entry.keycode ∈ held

end ResolvedJammaBindings

/-! ## Pads -/

/-- What the game may see of the pads: nothing under the overlay, and behind it nothing that
has been held since. -/
structure PadGameGate where
  suppressed : Bool := false
  latched : BitVec 16 := 0

namespace PadGameGate

def setSuppressed (g : PadGameGate) (suppressed : Bool) (raw : BitVec 16) : PadGameGate :=
  { suppressed, latched := if g.suppressed ∧ ¬suppressed then raw else g.latched }

/-- The gate behind a mask, and what it lets through. -/
def apply (g : PadGameGate) (raw : BitVec 16) : PadGameGate × BitVec 16 :=
  if g.suppressed then (g, 0)
  else
    let latched := g.latched &&& raw
    ({ g with latched }, raw &&& ~~~latched)

end PadGameGate

structure SdlPadInput where
  state : HostPadState := {}
  mask : BitVec 16 := 0
  gameGate : PadGameGate := {}

namespace SdlPadInput

/-- The pads behind a change; the masks before and after it are those of the pads. -/
def recompute (b : ResolvedJammaBindings) (p : SdlPadInput) : SdlPadInput :=
  let applied := p.gameGate.apply (b.computeJammaPadMask p.state)
  { p with gameGate := applied.1, mask := applied.2 }

/-- `HandleEvent`, for an event that leaves the pads holding `state`. -/
def handleEvent (b : ResolvedJammaBindings) (p : SdlPadInput) (state : HostPadState) : SdlPadInput :=
  recompute b { p with state }

def setGameInputSuppressed (b : ResolvedJammaBindings) (p : SdlPadInput) (suppressed : Bool) : SdlPadInput :=
  recompute b { p with gameGate := p.gameGate.setSuppressed suppressed (b.computeJammaPadMask p.state) }

end SdlPadInput

/-! ## Events -/

structure KeyEvent where
  keycode : Keycode
  modifiers : Keymod := 0
  down : Bool
  isRepeat : Bool := false
  timestamp : ℕ := 0

/-- Tab and Alt+Enter belong to the host. -/
def KeyEvent.swallowed (e : KeyEvent) : Bool :=
  e.keycode = kKeyTab ||
    (e.keycode = kKeyReturn || e.keycode = kKeyKeypadEnter) && e.modifiers &&& kKeymodAlt ≠ 0

inductive InputEvent
  | key (e : KeyEvent)
  | pad (state : HostPadState) (timestamp : ℕ)
  | suppressPad (suppressed : Bool) (timestamp : ℕ)

/-- The timeline with its sources: the keys that are down and the pads. -/
structure GameInput where
  timeline : JammaInputTimeline
  held : Finset Keycode := ∅
  pad : SdlPadInput := {}

namespace JammaInputTimeline

def recordKeyEdge (t : JammaInputTimeline) (timestamp : ℕ) (key : JammaInputKey) (pressed : Bool) :
    JammaInputTimeline :=
  (t.step (.recordKeyEdge timestamp key pressed)).1

/-- Edges for some of the inputs, in their order. -/
def recordKeyEdges (t : JammaInputTimeline) (timestamp : ℕ) (edge : JammaInputKey → Option Bool) :
    JammaInputTimeline :=
  jammaInputKeys.foldl
    (fun t key =>
      match edge key with
      | none => t
      | some pressed => t.recordKeyEdge timestamp key pressed) t

end JammaInputTimeline

namespace GameInput

/-- The edge of an input under a change of the pads. A release is held back while the keyboard
holds the input. -/
def padEdge (before after keyboard : BitVec 16) (key : JammaInputKey) : Option Bool :=
  if ¬maskHas (before ^^^ after) key then none
  else if ¬maskHas after key ∧ maskHas keyboard key then none
  else some (maskHas after key)

/-- `RecordPadMaskChange`, with the pads behind the change. -/
def recordPadMaskChange (b : ResolvedJammaBindings) (s : GameInput) (pad : SdlPadInput) (changedAt : ℕ) :
    GameInput :=
  let keyboard := b.captureKeyboardJammaPressedMask s.held
  { s with pad, timeline := s.timeline.recordKeyEdges changedAt (padEdge s.pad.mask pad.mask keyboard) }

/-- The keys that are down behind an event. -/
def heldAfter (held : Finset Keycode) (e : KeyEvent) : Finset Keycode :=
  if e.isRepeat then held else if e.down then insert e.keycode held else held.erase e.keycode

/-- What a key event records. -/
def recordKey (b : ResolvedJammaBindings) (s : GameInput) (e : KeyEvent) : JammaInputTimeline :=
  if e.swallowed ∨ e.isRepeat then s.timeline
  else if e.down then
    match b.findJammaInputForPress e.keycode e.modifiers with
    | none => s.timeline
    | some key => s.timeline.recordKeyEdge e.timestamp key true
  else
    let released := b.jammaInputMaskForKeycode e.keycode &&& ~~~s.pad.mask
    s.timeline.recordKeyEdges e.timestamp fun key => if maskHas released key then some false else none

/-- One event of `PumpEvents`. -/
def pumpEvent (b : ResolvedJammaBindings) (s : GameInput) : InputEvent → GameInput
  | .key e => { s with timeline := recordKey b s e, held := heldAfter s.held e }
  | .pad state timestamp => s.recordPadMaskChange b (s.pad.handleEvent b state) timestamp
  | .suppressPad suppressed timestamp =>
    s.recordPadMaskChange b (s.pad.setGameInputSuppressed b suppressed) timestamp

def run (b : ResolvedJammaBindings) (s : GameInput) (events : List InputEvent) : GameInput :=
  events.foldl (pumpEvent b) s

/-- Nothing is held. -/
def fresh (start : ℕ) : GameInput := { timeline := JammaInputTimeline.reset start 0 }

end GameInput

/-! ## Masks -/

section
variable {key other : JammaInputKey}

theorem mem_jammaInputKeys : key ∈ jammaInputKeys ↔ key ≠ .count := by
  cases key <;> decide

theorem jammaInputKeys_sorted : jammaInputKeys.Pairwise fun key other => key.ctorIdx < other.ctorIdx := by
  decide

theorem jammaInputKeyMask_getLsbD (hkey : key ≠ .count) (i : ℕ) :
    (jammaInputKeyMask key).getLsbD i = decide (i = key.ctorIdx) := by
  have hlt : key.ctorIdx < 16 := by cases key <;> decide
  rw [jammaInputKeyMask, BitVec.getLsbD_shiftLeft]
  by_cases hi : i = key.ctorIdx
  · rw [hi]
    simp [hlt]
  · simp only [hi, decide_false, BitVec.getLsbD_one]
    by_cases hlow : i < key.ctorIdx
    · simp [hlow]
    · simp [show i - key.ctorIdx ≠ 0 by omega]

theorem maskHas_eq_getLsbD (hkey : key ≠ .count) (mask : BitVec 16) : maskHas mask key = mask.getLsbD key.ctorIdx := by
  unfold maskHas
  by_cases hbit : mask.getLsbD key.ctorIdx = true
  · rw [hbit, decide_eq_true_eq]
    intro hzero
    have := congrArg (·.getLsbD key.ctorIdx) hzero
    simp [hbit, jammaInputKeyMask_getLsbD hkey] at this
  · rw [Bool.not_eq_true] at hbit
    rw [hbit, decide_eq_false_iff_not, not_not]
    refine BitVec.eq_of_getLsbD_eq fun i _ => ?_
    rw [BitVec.getLsbD_and, jammaInputKeyMask_getLsbD hkey]
    by_cases hi : i = key.ctorIdx
    · simp [hi, hbit]
    · simp [hi]

theorem maskHas_xor (hkey : key ≠ .count) (mask mask' : BitVec 16) :
    maskHas (mask ^^^ mask') key = (maskHas mask key ^^ maskHas mask' key) := by
  simp only [maskHas_eq_getLsbD hkey, BitVec.getLsbD_xor]

theorem maskHas_and (hkey : key ≠ .count) (mask mask' : BitVec 16) :
    maskHas (mask &&& mask') key = (maskHas mask key && maskHas mask' key) := by
  simp only [maskHas_eq_getLsbD hkey, BitVec.getLsbD_and]

theorem maskHas_and_not (hkey : key ≠ .count) (mask mask' : BitVec 16) :
    maskHas (mask &&& ~~~mask') key = (maskHas mask key && !maskHas mask' key) := by
  have hlt : key.ctorIdx < 16 := by cases key <;> decide
  simp only [maskHas_eq_getLsbD hkey, BitVec.getLsbD_and, BitVec.getLsbD_not, hlt, decide_true, Bool.true_and]

theorem maskHas_edgeMask (hkey : key ≠ .count) (hother : other ≠ .count) (mask : BitVec 16) (pressed : Bool) :
    maskHas (JammaInputTimeline.edgeMask mask other pressed) key = if key = other then pressed else maskHas mask key := by
  have hidx : key.ctorIdx = other.ctorIdx ↔ key = other := by cases key <;> cases other <;> decide
  have hlt : key.ctorIdx < 16 := by cases key <;> decide
  rw [maskHas_eq_getLsbD hkey, maskHas_eq_getLsbD hkey, JammaInputTimeline.edgeMask]
  cases pressed with
  | true =>
    rw [if_pos rfl, BitVec.getLsbD_or, jammaInputKeyMask_getLsbD hother]
    by_cases heq : key = other <;> simp [hidx, heq]
  | false =>
    rw [if_neg Bool.false_ne_true, BitVec.getLsbD_and, BitVec.getLsbD_not, jammaInputKeyMask_getLsbD hother]
    by_cases heq : key = other <;> simp [hidx, heq, hlt]

/-- A mask that is collected over some inputs has them besides those it had. -/
theorem maskHas_foldl (hkey : key ≠ .count) (p : JammaInputKey → Bool) {keys : List JammaInputKey}
    (hkeys : ∀ other ∈ keys, other ≠ .count) (mask : BitVec 16) :
    maskHas (keys.foldl (fun mask key => if p key then mask ||| jammaInputKeyMask key else mask) mask) key =
      (maskHas mask key || (p key && key ∈ keys)) := by
  induction keys generalizing mask with
  | nil => simp
  | cons other keys ih =>
    rw [List.foldl_cons, ih fun k hk => hkeys k (List.mem_cons_of_mem _ hk)]
    have hother := hkeys other List.mem_cons_self
    have hone : maskHas (if p other then mask ||| jammaInputKeyMask other else mask) key =
        (maskHas mask key || (p key && key = other)) := by
      have hedge := maskHas_edgeMask hkey hother mask true
      rw [JammaInputTimeline.edgeMask, if_pos rfl] at hedge
      by_cases hp : p other = true
      · rw [if_pos hp, hedge]
        by_cases heq : key = other <;> simp [heq, hp]
      · rw [if_neg hp]
        by_cases heq : key = other <;> simp [heq, hp]
    rw [hone, Bool.or_assoc]
    cases p key <;> simp

@[simp] theorem maskHas_inputMask (hkey : key ≠ .count) (p : JammaInputKey → Bool) :
    maskHas (inputMask p) key = p key := by
  have hzero : maskHas 0 key = false := by simp [maskHas_eq_getLsbD hkey]
  rw [inputMask, maskHas_foldl hkey p fun other hother => mem_jammaInputKeys.mp hother, hzero]
  simp [mem_jammaInputKeys.mpr hkey]

end

/-! ## Edges -/

namespace JammaInputTimeline

variable {t : JammaInputTimeline} {key : JammaInputKey}

theorem latestPressedMask_recordState (timestamp : ℕ) (mask : BitVec 16) :
    (t.recordState timestamp mask).latestPressedMask = mask := by
  unfold recordState
  split_ifs with hsame
  · exact hsame.symm
  · rfl

theorem maskHas_recordKeyEdge (hkey : key ≠ .count) {other : JammaInputKey} (hother : other ≠ .count)
    (timestamp : ℕ) (pressed : Bool) :
    maskHas (t.recordKeyEdge timestamp other pressed).latestPressedMask key =
      if key = other then pressed else maskHas t.latestPressedMask key := by
  rw [recordKeyEdge, step, if_neg hother, latestPressedMask_recordState]
  exact maskHas_edgeMask hkey hother _ _

/-- An input is as its edge says, and as before without one. -/
theorem maskHas_recordKeyEdges (hkey : key ≠ .count) (timestamp : ℕ) (edge : JammaInputKey → Option Bool) :
    maskHas (t.recordKeyEdges timestamp edge).latestPressedMask key =
      (edge key).getD (maskHas t.latestPressedMask key) := by
  have hfold : ∀ keys : List JammaInputKey, (∀ other ∈ keys, other ≠ .count) → ∀ t : JammaInputTimeline,
      maskHas (keys.foldl (fun t key =>
        match edge key with
        | none => t
        | some pressed => t.recordKeyEdge timestamp key pressed) t).latestPressedMask key =
      if key ∈ keys then (edge key).getD (maskHas t.latestPressedMask key) else maskHas t.latestPressedMask key := by
    intro keys hkeys
    induction keys with
    | nil => simp
    | cons other keys ih =>
      intro t
      rw [List.foldl_cons, ih fun k hk => hkeys k (List.mem_cons_of_mem _ hk)]
      have hother := hkeys other List.mem_cons_self
      cases hedge : edge other with
      | none =>
        by_cases heq : key = other
        · subst heq
          simp [hedge]
        · simp [heq]
      | some pressed =>
        simp only [maskHas_recordKeyEdge hkey hother]
        by_cases heq : key = other
        · subst heq
          simp [hedge]
        · simp [heq]
  rw [recordKeyEdges, hfold _ fun other hother => mem_jammaInputKeys.mp hother, if_pos (mem_jammaInputKeys.mpr hkey)]

end JammaInputTimeline

/-! ## Sources -/

open StepRuns

namespace ResolvedJammaBindings

variable {b : ResolvedJammaBindings} {keycode : Keycode} {key : JammaInputKey}

/-- A key is bound to an input. -/
def Bound (b : ResolvedJammaBindings) (keycode : Keycode) (key : JammaInputKey) : Prop :=
  ∃ entry ∈ (b.inputs key).aliases, entry.keycode = keycode

/-- No alias is qualified by a modifier. -/
def Plain (b : ResolvedJammaBindings) : Prop := ∀ key, ∀ entry ∈ (b.inputs key).aliases, entry.required = []

theorem Plain.modifiersMatch (h : b.Plain) {entry : HostKeyAlias} (hentry : entry ∈ (b.finalize.inputs key).aliases)
    (state : Keymod) : entry.modifiersMatch state = true := by
  obtain ⟨raw, hraw, rfl⟩ := List.mem_map.mp hentry
  have hnone : ((jammaInputKeys.flatMap fun key => (b.inputs key).aliases).filter
      (·.keycode = raw.keycode)).flatMap HostKeyAlias.required = [] := by
    rw [List.flatMap_eq_nil_iff]
    intro other hother
    obtain ⟨key', -, hmem⟩ := List.mem_flatMap.mp (List.mem_filter.mp hother).1
    exact h key' other hmem
  have hrequired : raw.required = [] := h key raw hraw
  simp [HostKeyAlias.contended, HostKeyAlias.modifiersMatch, hrequired, hnone]

theorem maskHas_jammaInputMaskForKeycode (hkey : key ≠ .count) :
    maskHas (b.jammaInputMaskForKeycode keycode) key = true ↔ b.Bound keycode key := by
  rw [jammaInputMaskForKeycode, maskHas_inputMask hkey]
  simp [Bound]

theorem maskHas_captureKeyboard (hkey : key ≠ .count) (held : Finset Keycode) :
    maskHas (b.captureKeyboardJammaPressedMask held) key = true ↔ ∃ keycode ∈ held, b.Bound keycode key := by
  rw [captureKeyboardJammaPressedMask, maskHas_inputMask hkey]
  simp only [List.any_eq_true, decide_eq_true_eq, Bound]
  constructor
  · rintro ⟨entry, hentry, hheld⟩
    exact ⟨_, hheld, entry, hentry, rfl⟩
  · rintro ⟨_, hheld, entry, hentry, rfl⟩
    exact ⟨entry, hentry, hheld⟩

/-- The input that a press of a key drives: the first that it is bound to. -/
def FirstBound (b : ResolvedJammaBindings) (keycode : Keycode) (key : JammaInputKey) : Prop :=
  b.Bound keycode key ∧ ∀ other ∈ jammaInputKeys, other.ctorIdx < key.ctorIdx → ¬b.Bound keycode other

theorem Plain.findJammaInputForPress_eq_some (h : b.Plain) {state : Keymod} :
    b.finalize.findJammaInputForPress keycode state = some key ↔
      key ≠ .count ∧ b.finalize.FirstBound keycode key := by
  have hmatch : ∀ key, ((b.finalize.inputs key).aliases.any fun entry =>
      entry.keycode = keycode && entry.modifiersMatch state) = true ↔ b.finalize.Bound keycode key := by
    intro key
    simp only [List.any_eq_true, Bool.and_eq_true, decide_eq_true_eq, Bound]
    constructor
    · rintro ⟨entry, hentry, heq, -⟩
      exact ⟨entry, hentry, heq⟩
    · rintro ⟨entry, hentry, heq⟩
      exact ⟨entry, hentry, heq, h.modifiersMatch hentry state⟩
  rw [findJammaInputForPress, List.find?_eq_some_iff_append, FirstBound, hmatch]
  constructor
  · rintro ⟨hbound, before, after, hkeys, hbefore⟩
    refine ⟨mem_jammaInputKeys.mp (hkeys ▸ by simp), hbound, fun other hother hlt hother' => ?_⟩
    have hsorted := jammaInputKeys_sorted
    rw [hkeys, List.pairwise_append, List.pairwise_cons] at hsorted
    rw [hkeys, List.mem_append, List.mem_cons] at hother
    rcases hother with hother | rfl | hother
    · have hno := hbefore other hother
      rw [Bool.not_eq_true', ← Bool.not_eq_true, hmatch] at hno
      exact hno hother'
    · exact absurd hlt (lt_irrefl _)
    · exact absurd (hsorted.2.1.1 other hother) (Nat.lt_asymm hlt)
  · rintro ⟨hkey, hbound, hfirst⟩
    obtain ⟨before, after, hkeys⟩ := List.append_of_mem (mem_jammaInputKeys.mpr hkey)
    refine ⟨hbound, before, after, hkeys, fun other hother => ?_⟩
    rw [Bool.not_eq_true', ← Bool.not_eq_true, hmatch]
    have hsorted := jammaInputKeys_sorted
    rw [hkeys, List.pairwise_append] at hsorted
    exact hfirst other (hkeys ▸ List.mem_append_left _ hother) (hsorted.2.2 other hother key List.mem_cons_self)

end ResolvedJammaBindings

namespace GameInput

variable {b : ResolvedJammaBindings} {s : GameInput} {key : JammaInputKey}

/-- A key bound to the input is down. -/
def KeyHeld (b : ResolvedJammaBindings) (s : GameInput) (key : JammaInputKey) : Prop :=
  ∃ keycode ∈ s.held, b.Bound keycode key

/-- A pad control bound to the input is down, and the game may see it. -/
def PadHeld (b : ResolvedJammaBindings) (s : GameInput) (key : JammaInputKey) : Prop :=
  (∃ entry ∈ (b.inputs key).padAliases, isHostPadAliasDown entry s.pad.state = true) ∧
    s.pad.gameGate.suppressed = false ∧ maskHas s.pad.gameGate.latched key = false

/-- Some source holds the input. -/
def Held (b : ResolvedJammaBindings) (s : GameInput) (key : JammaInputKey) : Prop := s.KeyHeld b key ∨ s.PadHeld b key

/-- The timeline has an input pressed exactly where a source holds it. -/
def Matches (b : ResolvedJammaBindings) (s : GameInput) : Prop :=
  ∀ key, key ≠ .count → (maskHas s.timeline.latestPressedMask key = true ↔ s.Held b key)

/-- The mask of the pads is that of the controls the game may see. -/
def PadCurrent (b : ResolvedJammaBindings) (s : GameInput) : Prop :=
  ∀ key, key ≠ .count → (maskHas s.pad.mask key = true ↔ s.PadHeld b key)

/-- The condition on an event. A press has no effect on a second input of its key unless a source
holds it already; a release leaves no other key that holds one of its inputs; a key that the host
keeps to itself decides no input. -/
def Accounted (b : ResolvedJammaBindings) (s : GameInput) : InputEvent → Prop
  | .key e =>
    e.isRepeat = true ∨ ∀ key, key ≠ .count → b.Bound e.keycode key →
      if e.down then s.Held b key ∨ e.swallowed = false ∧ b.FirstBound e.keycode key
      else
        s.PadHeld b key ∨
          if e.swallowed then e.keycode ∈ s.held → ∃ other ∈ s.held, other ≠ e.keycode ∧ b.Bound other key
          else ∀ other ∈ s.held, other ≠ e.keycode → ¬b.Bound other key
  | .pad .. | .suppressPad .. => True

/-! ### Pads -/

theorem padCurrent_recompute (p : SdlPadInput) (t : JammaInputTimeline) (held : Finset Keycode) :
    PadCurrent b { timeline := t, held, pad := p.recompute b } := by
  intro key hkey
  have hraw : maskHas (b.computeJammaPadMask p.state) key = true ↔
      ∃ entry ∈ (b.inputs key).padAliases, isHostPadAliasDown entry p.state = true := by
    rw [ResolvedJammaBindings.computeJammaPadMask, maskHas_inputMask hkey, List.any_eq_true]
  unfold PadHeld SdlPadInput.recompute PadGameGate.apply
  cases hsuppressed : p.gameGate.suppressed with
  | true => simp [hsuppressed, maskHas]
  | false =>
    simp only [Bool.false_eq_true, if_false]
    rw [maskHas_and_not hkey, maskHas_and hkey, ← hraw]
    cases maskHas (b.computeJammaPadMask p.state) key <;> simp

theorem padCurrent_pumpEvent (h : PadCurrent b s) (event : InputEvent) : PadCurrent b (s.pumpEvent b event) := by
  cases event with
  | key e => exact h
  | pad state timestamp => exact padCurrent_recompute _ _ _
  | suppressPad suppressed timestamp => exact padCurrent_recompute _ _ _

/-- A change of the pads goes into the timeline whole. -/
theorem matches_recordPadMaskChange (hpad : PadCurrent b s) (h : Matches b s) {pad : SdlPadInput} {changedAt : ℕ}
    (hnext : PadCurrent b (s.recordPadMaskChange b pad changedAt)) :
    Matches b (s.recordPadMaskChange b pad changedAt) := by
  intro key hkey
  have hbefore := hpad key hkey
  have hafter := hnext key hkey
  have hlatest := h key hkey
  have hkeyboard := b.maskHas_captureKeyboard hkey s.held
  show maskHas (s.timeline.recordKeyEdges changedAt _).latestPressedMask key = true ↔
    (∃ keycode ∈ s.held, b.Bound keycode key) ∨ (s.recordPadMaskChange b pad changedAt).PadHeld b key
  rw [JammaInputTimeline.maskHas_recordKeyEdges hkey, ← hafter, ← hkeyboard]
  replace hlatest : maskHas s.timeline.latestPressedMask key = true ↔ maskHas
      (b.captureKeyboardJammaPressedMask s.held) key = true ∨ maskHas s.pad.mask key = true := by
    rw [hlatest, Held, KeyHeld, ← hkeyboard, ← hbefore]
  show _ ↔ _ ∨ maskHas pad.mask key = true
  unfold padEdge
  rw [maskHas_xor hkey]
  revert hlatest
  cases maskHas s.pad.mask key <;> cases maskHas pad.mask key <;>
    cases maskHas (b.captureKeyboardJammaPressedMask s.held) key <;> simp

/-! ### Keys -/

theorem keyHeld_heldAfter {held : Finset Keycode} {e : KeyEvent} (hrepeat : e.isRepeat = false) :
    (∃ keycode ∈ heldAfter held e, b.Bound keycode key) ↔
      if e.down then b.Bound e.keycode key ∨ ∃ keycode ∈ held, b.Bound keycode key
      else ∃ other ∈ held, other ≠ e.keycode ∧ b.Bound other key := by
  unfold heldAfter
  rw [if_neg (by simp [hrepeat])]
  cases e.down with
  | true => simp
  | false =>
    simp only [Bool.false_eq_true, if_false, Finset.mem_erase]
    constructor
    · rintro ⟨other, ⟨hne, hheld⟩, hbound⟩
      exact ⟨other, hheld, hne, hbound⟩
    · rintro ⟨other, hheld, hne, hbound⟩
      exact ⟨other, ⟨hne, hheld⟩, hbound⟩

theorem maskHas_press {raw : ResolvedJammaBindings} (hplain : raw.Plain) (hkey : key ≠ .count) {e : KeyEvent}
    (hrepeat : e.isRepeat = false) (hswallowed : e.swallowed = false) (hdown : e.down = true) :
    maskHas (s.recordKey raw.finalize e).latestPressedMask key = true ↔
      raw.finalize.FirstBound e.keycode key ∨ maskHas s.timeline.latestPressedMask key = true := by
  have hfind (other : JammaInputKey) :
      raw.finalize.findJammaInputForPress e.keycode e.modifiers = some other ↔
        other ≠ .count ∧ raw.finalize.FirstBound e.keycode other :=
    hplain.findJammaInputForPress_eq_some
  unfold recordKey
  rw [if_neg (by simp [hrepeat, hswallowed]), if_pos hdown]
  cases hpress : raw.finalize.findJammaInputForPress e.keycode e.modifiers with
  | none =>
    have hno : ¬raw.finalize.FirstBound e.keycode key := by
      intro hfirst
      have := (hfind key).mpr ⟨hkey, hfirst⟩
      rw [hpress] at this
      cases this
    simp [hno]
  | some other =>
    obtain ⟨hother, -⟩ := (hfind other).mp hpress
    have hfirst : raw.finalize.FirstBound e.keycode key ↔ key = other := by
      have hkeyed := hfind key
      rw [hpress, Option.some.injEq] at hkeyed
      rw [eq_comm, hkeyed]
      exact (and_iff_right hkey).symm
    simp only [JammaInputTimeline.maskHas_recordKeyEdge hkey hother, hfirst]
    by_cases heq : key = other <;> simp [heq]

theorem maskHas_release (hpad : PadCurrent b s) (hkey : key ≠ .count) {e : KeyEvent}
    (hrepeat : e.isRepeat = false) (hswallowed : e.swallowed = false) (hdown : e.down = false) :
    maskHas (s.recordKey b e).latestPressedMask key = true ↔
      maskHas s.timeline.latestPressedMask key = true ∧ (b.Bound e.keycode key → s.PadHeld b key) := by
  unfold recordKey
  rw [if_neg (by simp [hrepeat, hswallowed]), if_neg (by simp [hdown])]
  show maskHas (s.timeline.recordKeyEdges e.timestamp _).latestPressedMask key = true ↔ _
  rw [JammaInputTimeline.maskHas_recordKeyEdges hkey, maskHas_and_not hkey, ← hpad key hkey,
    ← ResolvedJammaBindings.maskHas_jammaInputMaskForKeycode hkey]
  cases maskHas (b.jammaInputMaskForKeycode e.keycode) key <;> cases maskHas s.pad.mask key <;> simp

/-! An input is held by `keys` or `pad` before an event of a key that is `bound` to it, and by the
`others` without that key. -/

section
variable {keys pad bound first down others : Prop}

private theorem press_iff (h : first → bound) :
    (first ∨ keys ∨ pad ↔ (bound ∨ keys) ∨ pad) ↔ (bound → (keys ∨ pad) ∨ first) := by
  tauto

private theorem swallowed_press_iff : (keys ∨ pad ↔ (bound ∨ keys) ∨ pad) ↔ (bound → keys ∨ pad) := by
  tauto

private theorem release_iff :
    ((((down ∧ bound) ∨ others) ∨ pad) ∧ (bound → pad) ↔ others ∨ pad) ↔ (bound → pad ∨ ¬others) := by
  tauto

private theorem swallowed_release_iff :
    (((down ∧ bound) ∨ others) ∨ pad ↔ others ∨ pad) ↔ (bound → pad ∨ (down → others)) := by
  tauto

end

/-- A key event keeps the inputs exactly where the condition holds. -/
theorem matches_key_iff {raw : ResolvedJammaBindings} (hplain : raw.Plain) (hpad : PadCurrent raw.finalize s)
    (h : Matches raw.finalize s) (e : KeyEvent) :
    Matches raw.finalize (s.pumpEvent raw.finalize (.key e)) ↔ Accounted raw.finalize s (.key e) := by
  set b := raw.finalize
  cases hrepeat : e.isRepeat with
  | true =>
    have hsame : s.pumpEvent b (.key e) = s := by simp [pumpEvent, recordKey, heldAfter, hrepeat]
    rw [hsame]
    exact iff_of_true h (.inl hrepeat)
  | false =>
    simp only [Accounted, hrepeat, Bool.false_eq_true, false_or]
    refine forall₂_congr fun key hkey => ?_
    have hlatest := h key hkey
    have hheld : (∃ keycode ∈ heldAfter s.held e, b.Bound keycode key) ↔
        if e.down then b.Bound e.keycode key ∨ ∃ keycode ∈ s.held, b.Bound keycode key
        else ∃ other ∈ s.held, other ≠ e.keycode ∧ b.Bound other key := keyHeld_heldAfter hrepeat
    have hfirst : b.FirstBound e.keycode key → b.Bound e.keycode key := And.left
    have hothers : (∃ other ∈ s.held, b.Bound other key) ↔
        (e.keycode ∈ s.held ∧ b.Bound e.keycode key) ∨ ∃ other ∈ s.held, other ≠ e.keycode ∧ b.Bound other key := by
      constructor
      · rintro ⟨other, hother, hbound⟩
        by_cases heq : other = e.keycode
        · exact .inl ⟨heq ▸ hother, heq ▸ hbound⟩
        · exact .inr ⟨other, hother, heq, hbound⟩
      · rintro (⟨hmem, hbound⟩ | ⟨other, hother, -, hbound⟩)
        · exact ⟨_, hmem, hbound⟩
        · exact ⟨other, hother, hbound⟩
    show (maskHas (s.recordKey b e).latestPressedMask key = true ↔
      (∃ keycode ∈ heldAfter s.held e, b.Bound keycode key) ∨ s.PadHeld b key) ↔ _
    rw [hheld]
    cases hswallowed : e.swallowed with
    | true =>
      have htimeline : s.recordKey b e = s.timeline := by simp [recordKey, hswallowed]
      rw [htimeline, hlatest, Held, KeyHeld]
      cases e.down with
      | true =>
        simp only [if_true, Bool.true_eq_false, false_and, or_false]
        exact swallowed_press_iff
      | false =>
        simp only [Bool.false_eq_true, if_false, if_true]
        rw [hothers]
        exact swallowed_release_iff
    | false =>
      cases hdown : e.down with
      | true =>
        rw [maskHas_press hplain hkey hrepeat hswallowed hdown, hlatest, Held, KeyHeld]
        simp only [if_true, true_and]
        exact press_iff hfirst
      | false =>
        rw [maskHas_release hpad hkey hrepeat hswallowed hdown, hlatest, Held, KeyHeld]
        have hnone : (∀ other ∈ s.held, other ≠ e.keycode → ¬b.Bound other key) ↔
            ¬∃ other ∈ s.held, other ≠ e.keycode ∧ b.Bound other key := by
          push Not
          rfl
        simp only [Bool.false_eq_true, if_false]
        rw [hnone, hothers]
        exact release_iff

theorem matches_pumpEvent_iff {raw : ResolvedJammaBindings} (hplain : raw.Plain) (hpad : PadCurrent raw.finalize s)
    (h : Matches raw.finalize s) (event : InputEvent) :
    Matches raw.finalize (s.pumpEvent raw.finalize event) ↔ Accounted raw.finalize s event := by
  have hnext := padCurrent_pumpEvent hpad event
  cases event with
  | key e => exact matches_key_iff hplain hpad h e
  | pad state timestamp => exact iff_of_true (matches_recordPadMaskChange hpad h hnext) trivial
  | suppressPad suppressed timestamp => exact iff_of_true (matches_recordPadMaskChange hpad h hnext) trivial

theorem padCurrent_fresh (b : ResolvedJammaBindings) (start : ℕ) : PadCurrent b (fresh start) := by
  intro key hkey
  have hup : ∀ entry : HostPadAlias, isHostPadAliasDown entry (fresh start).pad.state = false := by
    intro entry
    unfold isHostPadAliasDown
    split <;> simp [fresh]
  have hmask : maskHas (fresh start).pad.mask key = false := by simp [fresh, maskHas]
  simp [PadHeld, hup, hmask]

theorem matches_fresh (b : ResolvedJammaBindings) (start : ℕ) : Matches b (fresh start) := by
  intro key hkey
  have hmask : maskHas (fresh start).pad.mask key = false := by simp [fresh, maskHas]
  have hpad : ¬(fresh start).PadHeld b key := by simp [← padCurrent_fresh b start key hkey, hmask]
  have hkeys : ¬(fresh start).KeyHeld b key := by simp [KeyHeld, fresh]
  have hlatest : maskHas (fresh start).timeline.latestPressedMask key = false := by
    simp [fresh, JammaInputTimeline.reset, maskHas]
  simp [Held, hpad, hkeys, hlatest]

end GameInput

open GameInput

/-- With no qualified alias, every state of a run has exactly the held inputs pressed where every
event of it meets the condition, and nowhere else. -/
theorem inputs_pressed_iff_accounted (raw : ResolvedJammaBindings) (hplain : raw.Plain) (start : ℕ)
    (events : List InputEvent) :
    EveryState (pumpEvent raw.finalize) (Matches raw.finalize) (fresh start) events ↔
      EveryStep (pumpEvent raw.finalize) (Accounted raw.finalize) (fresh start) events :=
  everyState_iff_everyStep (J := PadCurrent raw.finalize) (fun _ event hpad => padCurrent_pumpEvent hpad event)
    (fun _ event hpad h => matches_pumpEvent_iff hplain hpad h event) (padCurrent_fresh _ start)
    (matches_fresh _ start)

/-- A and B are both bound to the centre panel. -/
def sharedBindings : ResolvedJammaBindings where
  inputs
    | .p1Center => { aliases := [{ keycode := 0x61 }, { keycode := 0x62 }] }
    | _ => {}

/-- Both keys go down, and one of them up. -/
def sharedKeyEvents : List InputEvent :=
  [.key { keycode := 0x61, down := true }, .key { keycode := 0x62, down := true },
    .key { keycode := 0x61, down := false }]

theorem sharedBindings_plain : sharedBindings.Plain := by
  intro key
  cases key <;> decide

theorem inputs_pressed_iff_accounted_shared :
    sharedBindings.Plain ∧
      (EveryState (pumpEvent sharedBindings.finalize) (Matches sharedBindings.finalize) (fresh 0) sharedKeyEvents ↔
        EveryStep (pumpEvent sharedBindings.finalize) (Accounted sharedBindings.finalize) (fresh 0) sharedKeyEvents) :=
  ⟨sharedBindings_plain, inputs_pressed_iff_accounted sharedBindings sharedBindings_plain 0 sharedKeyEvents⟩

/-- Letting go of one of two keys of an input lets go of the input. -/
theorem shared_key_release_drops_input :
    ¬∀ raw : ResolvedJammaBindings, raw.Plain → ∀ (start : ℕ) (events : List InputEvent),
      EveryState (pumpEvent raw.finalize) (Matches raw.finalize) (fresh start) events := by
  intro hall
  have hlast := (hall sharedBindings sharedBindings_plain 0 sharedKeyEvents).last .p1Center (by decide)
  have hreleased : maskHas (run sharedBindings.finalize (fresh 0) sharedKeyEvents).timeline.latestPressedMask
      .p1Center = false := by decide
  have hheld : KeyHeld sharedBindings.finalize (run sharedBindings.finalize (fresh 0) sharedKeyEvents) .p1Center :=
    ⟨0x62, by decide, { keycode := 0x62 }, by decide, rfl⟩
  rw [← run, hreleased] at hlast
  exact absurd (hlast.mpr (.inl hheld)) Bool.false_ne_true

end Repiu.Engine
