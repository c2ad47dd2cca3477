import Mathlib.Data.List.Basic
import Mathlib.Data.BitVec
import Mathlib.Tactic.Ring
import Repiu.ByteMemory
import Repiu.Glide.SetterState

/-!
# Draw batching

Points, lines and triangles are queued and handed to the backend in batches
(`glide_draw_batch.cpp`, and the draw gates of `linexe_glide_boundary.cpp`). A batch is
handed over before any other gate acts, when the kind of primitive changes, and when it
is full. The vertices' fields are not looked at.
-/

namespace Repiu.Glide

/-! ## Lists in groups -/

section
variable {α : Type*}

/-- The whole groups of `n` that a list begins with. -/
def groups (n : ℕ) (l : List α) : List (List α) :=
  (List.range (l.length / n)).map fun i => (l.drop (i * n)).take n

theorem groups_append {n : ℕ} (hn : 0 < n) {l group : List α} (hl : n ∣ l.length) (hgroup : group.length = n) :
    groups n (l ++ group) = groups n l ++ [group] := by
  obtain ⟨k, hk⟩ := hl
  have hlength : (l ++ group).length = n * (k + 1) := by
    rw [List.length_append, hk, hgroup, Nat.mul_succ]
  unfold groups
  rw [hlength, hk, Nat.mul_div_cancel_left _ hn, Nat.mul_div_cancel_left _ hn, List.range_succ, List.map_append]
  congr 1
  · refine List.map_congr_left fun i hi => ?_
    have hle : i * n + n ≤ l.length := by
      rw [hk, ← Nat.succ_mul, Nat.mul_comm]
      exact Nat.mul_le_mul_left n (List.mem_range.mp hi)
    rw [List.drop_append_of_le_length (by omega), List.take_append_of_le_length (by rw [List.length_drop]; omega)]
  · have hdrop : k * n = l.length := by rw [hk, Nat.mul_comm]
    rw [List.map_singleton, hdrop, List.drop_left, List.take_of_length_le hgroup.le]

/-- Groups that are joined come apart again. -/
theorem groups_flatten {n : ℕ} (hn : 0 < n) {parts : List (List α)} (hparts : ∀ part ∈ parts, part.length = n) :
    groups n parts.flatten = parts := by
  induction parts using List.reverseRecOn with
  | nil => simp [groups]
  | append_singleton parts part ih =>
    have hfront : ∀ part ∈ parts, part.length = n := fun p hp => hparts p (List.mem_append_left _ hp)
    have hdvd : n ∣ parts.flatten.length := by
      rw [List.length_flatten, List.map_congr_left hfront, List.map_const', List.sum_replicate, smul_eq_mul]
      exact Nat.dvd_mul_left n _
    rw [List.flatten_append, List.flatten_singleton, groups_append hn hdvd (hparts part (by simp)), ih hfront]

end

/-! ## The batch -/

def kGlideDrawBatchVertexCapacity : ℕ := 3072
def kMaxGlidePolygonVertices : ℕ := 64

inductive GlideBatchPrimitive
  | kNone | kPoints | kLines | kTriangles
deriving DecidableEq, Repr

inductive GlideDrawBatchFlushReason
  | kNonDrawGate | kPrimitiveChange | kCapacity
deriving DecidableEq, Repr

structure GlideDrawBatch (V : Type*) where
  enabled : Bool := false
  primitive : GlideBatchPrimitive := .kNone
  vertices : List V := []
  queuedVertexCount : BitVec 64 := 0
  drawnVertexCount : BitVec 64 := 0
  queuedPrimitiveCount : BitVec 64 := 0
  drawnPrimitiveCount : BitVec 64 := 0
  pendingPrimitiveCount : Word := 0
  flushCount : BitVec 64 := 0
  failureCount : BitVec 64 := 0
  maxBatchPrimitiveCount : Word := 0
  flushReasons : GlideDrawBatchFlushReason → BitVec 64 := fun _ => 0

def isGlideDrawBatchGate : GlideGateId → Bool
  | .kGrDrawTriangle | .kGrAADrawTriangle | .kGrDrawLine | .kGrAADrawLine | .kGrDrawPoint | .kGrAADrawPoint => true
  | _ => false

/-- What becomes of a primitive that is to be queued. -/
inductive QueueResult (V : Type*)
  | queued (batch : GlideDrawBatch V)
  | flushRequired
  | refused

variable {V : Type*}

namespace GlideDrawBatch

/-- The batch with one more primitive. -/
def append (batch : GlideDrawBatch V) (vertices : List V) (primitive : GlideBatchPrimitive) : GlideDrawBatch V :=
  { batch with
    enabled := true
    primitive
    vertices := batch.vertices ++ vertices
    queuedVertexCount := batch.queuedVertexCount + BitVec.ofNat 64 vertices.length
    queuedPrimitiveCount := batch.queuedPrimitiveCount + 1
    pendingPrimitiveCount := batch.pendingPrimitiveCount + 1 }

/-- `QueueGlideDrawPrimitive`. -/
def queuePrimitive (batch : GlideDrawBatch V) (vertices : List V) (primitive : GlideBatchPrimitive) : QueueResult V :=
  if vertices = [] ∨ primitive = .kNone then .refused
  else if kGlideDrawBatchVertexCapacity < vertices.length then .refused
  else if batch.vertices ≠ [] ∧ (batch.primitive ≠ primitive ∨
      kGlideDrawBatchVertexCapacity < batch.vertices.length + vertices.length) then .flushRequired
  else .queued (batch.append vertices primitive)

/-- `FlushGlideDrawBatch`: the batch behind it, where there was something to hand over. -/
def flush (batch : GlideDrawBatch V) (reason : GlideDrawBatchFlushReason) (drawn : Bool) : GlideDrawBatch V :=
  { batch with
    flushCount := batch.flushCount + 1
    flushReasons := Function.update batch.flushReasons reason (batch.flushReasons reason + 1)
    drawnVertexCount := if drawn then batch.drawnVertexCount + BitVec.ofNat 64 batch.vertices.length
      else batch.drawnVertexCount
    drawnPrimitiveCount := if drawn then batch.drawnPrimitiveCount + batch.pendingPrimitiveCount.setWidth 64
      else batch.drawnPrimitiveCount
    failureCount := if drawn then batch.failureCount else batch.failureCount + 1
    maxBatchPrimitiveCount :=
      if batch.maxBatchPrimitiveCount < batch.pendingPrimitiveCount then batch.pendingPrimitiveCount
      else batch.maxBatchPrimitiveCount
    vertices := []
    pendingPrimitiveCount := 0
    primitive := .kNone }

end GlideDrawBatch

/-! ## The gates -/

/-- What the backend is given, with whether it draws it, and the other gates as they act. -/
inductive BackendCall (V : Type*)
  | batch (primitive : GlideBatchPrimitive) (vertices : List V) (drawn : Bool)
  | direct (primitive : GlideBatchPrimitive) (vertices : List V) (drawn : Bool)
  | polygon (vertices : List V) (drawn : Bool)
  | acted (gate : GlideGateId)

/-- A call of a gate: whether it is turned away before its dispatch, whether it repeats a setter,
the vertices that its pointers name where they can be read and decoded, and the answers of the backend. -/
structure GateCall (V : Type*) where
  gate : GlideGateId
  rejected : Bool := false
  elided : Bool := false
  vertexCount : ℕ := 0
  vertex : ℕ → Option V := fun _ => none
  flushed : Bool := true
  drawn : Bool := true
  elided_candidate : elided = true → gate.elisionCandidate = true := by decide

/-- The first vertices of a call. -/
def GateCall.gather (c : GateCall V) (n : ℕ) : Option (List V) := (List.range n).mapM c.vertex

/-- The batch, and what the backend has been given. -/
structure DrawState (V : Type*) where
  batch : GlideDrawBatch V := {}
  calls : List (BackendCall V) := []

namespace DrawState

/-- `FlushGlideDrawBatchToBackend`. -/
def flushToBackend (s : DrawState V) (reason : GlideDrawBatchFlushReason) (drawn : Bool) : DrawState V :=
  if s.batch.vertices = [] then s
  else
    { batch := s.batch.flush reason drawn
      calls := s.calls ++ [.batch s.batch.primitive s.batch.vertices drawn] }

/-- `QueueGlideDrawForBatch`, where it queues. -/
def queueForBatch (s : DrawState V) (vertices : List V) (primitive : GlideBatchPrimitive) (flushed : Bool) :
    DrawState V × Bool :=
  match s.batch.queuePrimitive vertices primitive with
  | .queued batch => ({ s with batch }, true)
  | .refused => (s, false)
  | .flushRequired =>
    let reason := if s.batch.primitive ≠ primitive then .kPrimitiveChange else .kCapacity
    let s := s.flushToBackend reason flushed
    match s.batch.queuePrimitive vertices primitive with
    | .queued batch => ({ s with batch }, true)
    | _ => (s, false)

/-- A draw gate: its primitive is queued, or else drawn at once. -/
def drawGate (s : DrawState V) (c : GateCall V) (primitive : GlideBatchPrimitive) (n : ℕ) : DrawState V :=
  match c.gather n with
  | none => s
  | some vertices =>
    let queued := s.queueForBatch vertices primitive c.flushed
    if queued.2 then queued.1
    else { queued.1 with calls := queued.1.calls ++ [.direct primitive vertices c.drawn] }

/-- A polygon gate: it is drawn at once. -/
def polygonGate (s : DrawState V) (c : GateCall V) : DrawState V :=
  if c.vertexCount < 3 ∨ kMaxGlidePolygonVertices < c.vertexCount then s
  else
    match c.gather c.vertexCount with
    | none => s
    | some vertices => { s with calls := s.calls ++ [.polygon vertices c.drawn] }

/-- The part of `HandleGlideGateBoundary` behind the flush. -/
def dispatch (s : DrawState V) (c : GateCall V) : DrawState V :=
  match c.gate with
  | .kGrDrawLine | .kGrAADrawLine => s.drawGate c .kLines 2
  | .kGrDrawTriangle | .kGrAADrawTriangle => s.drawGate c .kTriangles 3
  | .kGrDrawPoint | .kGrAADrawPoint => s.drawGate c .kPoints 1
  | .kGrDrawPlanarPolygon | .kGrDrawPolygon | .kGrAADrawPolygon | .kGrDrawPlanarPolygonVertexList
  | .kGrDrawPolygonVertexList | .kGrAADrawPolygonVertexList => s.polygonGate c
  | gate => { s with calls := s.calls ++ [.acted gate] }

/-- `HandleGlideGateBoundary`. -/
def handleGate (s : DrawState V) (c : GateCall V) : DrawState V :=
  if c.rejected then s
  -- a repeated setter returns before the flush
  else if c.elided then s
  else
    (if isGlideDrawBatchGate c.gate then s else s.flushToBackend .kNonDrawGate c.flushed).dispatch c

def run (s : DrawState V) (calls : List (GateCall V)) : DrawState V := calls.foldl handleGate s

end DrawState

/-! ## What is drawn -/

/-- A primitive: one that can be batched, or a polygon. -/
inductive Primitive (V : Type*)
  | batched (kind : GlideBatchPrimitive) (vertices : List V)
  | polygon (vertices : List V)

/-- The vertices of one primitive of a kind. -/
def GlideBatchPrimitive.arity : GlideBatchPrimitive → ℕ
  | .kNone => 0
  | .kPoints => 1
  | .kLines => 2
  | .kTriangles => 3

/-- The primitives that the backend draws of a list of vertices. -/
def GlideBatchPrimitive.assemble (kind : GlideBatchPrimitive) (vertices : List V) : List (Primitive V) :=
  (groups kind.arity vertices).map (.batched kind)

namespace BackendCall

def primitives : BackendCall V → List (Primitive V)
  | .batch kind vertices _ => kind.assemble vertices
  | .direct kind vertices _ => kind.assemble vertices
  | .polygon vertices _ => [.polygon vertices]
  | .acted _ => []

/-- A batch has a kind, fits, and ends with a whole primitive. No primitive is drawn beside the batch. -/
def Whole : BackendCall V → Prop
  | .batch kind vertices _ =>
    kind ≠ .kNone ∧ vertices.length ≤ kGlideDrawBatchVertexCapacity ∧ (groups kind.arity vertices).flatten = vertices
  | .direct .. => False
  | _ => True

/-- The vertices of a batch that failed. -/
def droppedVertices : BackendCall V → ℕ
  | .batch _ vertices false => vertices.length
  | _ => 0

/-- The primitives of a batch that failed. -/
def droppedPrimitives : BackendCall V → ℕ
  | .batch kind vertices false => (kind.assemble vertices).length
  | _ => 0

end BackendCall

/-- The kind of primitive that a gate queues. -/
def GlideGateId.batchPrimitive : GlideGateId → GlideBatchPrimitive
  | .kGrDrawLine | .kGrAADrawLine => .kLines
  | .kGrDrawTriangle | .kGrAADrawTriangle => .kTriangles
  | .kGrDrawPoint | .kGrAADrawPoint => .kPoints
  | _ => .kNone

def GlideGateId.isPolygonGate : GlideGateId → Bool
  | .kGrDrawPlanarPolygon | .kGrDrawPolygon | .kGrAADrawPolygon | .kGrDrawPlanarPolygonVertexList
  | .kGrDrawPolygonVertexList | .kGrAADrawPolygonVertexList => true
  | _ => false

/-- The primitive that a call asks for: none where the call does not get so far as its vertices, or
they cannot be read. -/
def GateCall.primitives (c : GateCall V) : List (Primitive V) :=
  if c.rejected ∨ c.elided then []
  else if isGlideDrawBatchGate c.gate then
    ((c.gather c.gate.batchPrimitive.arity).map (.batched c.gate.batchPrimitive)).toList
  else if c.gate.isPolygonGate ∧ 3 ≤ c.vertexCount ∧ c.vertexCount ≤ kMaxGlidePolygonVertices then
    ((c.gather c.vertexCount).map .polygon).toList
  else []

theorem GateCall.gather_length {c : GateCall V} {n : ℕ} {vertices : List V} (h : c.gather n = some vertices) :
    vertices.length = n := by
  have hmap : ∀ (l : List ℕ) (out : List V), l.mapM c.vertex = some out → out.length = l.length := by
    intro l
    induction l with
    | nil => simp
    | cons i l ih =>
      intro out hout
      simp only [List.mapM_cons, Option.bind_eq_bind, Option.bind_eq_some_iff, Option.pure_def,
        Option.some.injEq] at hout
      obtain ⟨first, -, rest, hrest, rfl⟩ := hout
      rw [List.length_cons, List.length_cons, ih rest hrest]
  rw [hmap _ _ h, List.length_range]

section
variable {c : GateCall V} (s : DrawState V)

theorem dispatch_drawGate (h : isGlideDrawBatchGate c.gate = true) :
    s.dispatch c = s.drawGate c c.gate.batchPrimitive c.gate.batchPrimitive.arity := by
  unfold DrawState.dispatch
  generalize c.gate = gate at h ⊢
  cases gate <;> first | rfl | cases h

theorem dispatch_polygonGate (h : c.gate.isPolygonGate = true) : s.dispatch c = s.polygonGate c := by
  unfold DrawState.dispatch
  generalize c.gate = gate at h ⊢
  cases gate <;> first | rfl | cases h

theorem dispatch_acted (h : isGlideDrawBatchGate c.gate = false) (h' : c.gate.isPolygonGate = false) :
    s.dispatch c = { s with calls := s.calls ++ [.acted c.gate] } := by
  unfold DrawState.dispatch
  generalize c.gate = gate at h h' ⊢
  cases gate <;> first | rfl | exact absurd h (by decide) | exact absurd h' (by decide)

theorem batchPrimitive_ne_kNone {gate : GlideGateId} (h : isGlideDrawBatchGate gate = true) :
    gate.batchPrimitive ≠ .kNone := by
  cases gate <;> first | decide | cases h

end

theorem GlideBatchPrimitive.arity_pos {kind : GlideBatchPrimitive} (h : kind ≠ .kNone) : 0 < kind.arity := by
  cases kind <;> first | exact absurd rfl h | decide

theorem GlideBatchPrimitive.assemble_flatten {kind : GlideBatchPrimitive} (h : kind ≠ .kNone) {parts : List (List V)}
    (hparts : ∀ part ∈ parts, part.length = kind.arity) : kind.assemble parts.flatten = parts.map (.batched kind) := by
  rw [assemble, groups_flatten (arity_pos h) hparts]

/-! ## Nothing is lost -/

/-- The batch holds the primitives `pending`; with the calls before it, it gives what was asked for. -/
structure Batched (s : DrawState V) (asked : List (Primitive V)) (pending : List (List V)) : Prop where
  vertices : s.batch.vertices = pending.flatten
  arity : ∀ part ∈ pending, part.length = s.batch.primitive.arity
  kind : pending ≠ [] → s.batch.primitive ≠ .kNone
  capacity : s.batch.vertices.length ≤ kGlideDrawBatchVertexCapacity
  order : s.calls.flatMap BackendCall.primitives ++ pending.map (.batched s.batch.primitive) = asked
  whole : ∀ call ∈ s.calls, call.Whole
  pendingCount : s.batch.pendingPrimitiveCount = BitVec.ofNat 32 pending.length
  vertexCount : s.batch.queuedVertexCount = s.batch.drawnVertexCount + BitVec.ofNat 64 s.batch.vertices.length +
    BitVec.ofNat 64 (s.calls.map BackendCall.droppedVertices).sum
  primitiveCount : s.batch.queuedPrimitiveCount = s.batch.drawnPrimitiveCount + BitVec.ofNat 64 pending.length +
    BitVec.ofNat 64 (s.calls.map BackendCall.droppedPrimitives).sum

namespace Batched

variable {s : DrawState V} {asked : List (Primitive V)} {pending : List (List V)}

/-- An empty batch holds no primitive. -/
theorem pending_eq_nil (h : Batched s asked pending) (hempty : s.batch.vertices = []) : pending = [] := by
  by_contra hne
  obtain ⟨part, hpart⟩ := List.exists_mem_of_ne_nil pending hne
  have hlength := h.arity part hpart
  have hnil : part = [] := List.flatten_eq_nil_iff.mp (h.vertices ▸ hempty) part hpart
  have hpos := GlideBatchPrimitive.arity_pos (h.kind hne)
  rw [hnil, List.length_nil] at hlength
  omega

/-- The primitives are no more than the vertices. -/
theorem pending_length_le (h : Batched s asked pending) : pending.length ≤ kGlideDrawBatchVertexCapacity := by
  by_cases hne : pending = []
  · simp [hne]
  · have hpos := GlideBatchPrimitive.arity_pos (h.kind hne)
    have hlength : s.batch.vertices.length = pending.length * s.batch.primitive.arity := by
      rw [h.vertices, List.length_flatten, List.map_congr_left h.arity, List.map_const', List.sum_replicate,
        smul_eq_mul]
    exact ((Nat.le_mul_of_pos_right _ hpos).trans hlength.ge).trans h.capacity

theorem flushToBackend (h : Batched s asked pending) (reason : GlideDrawBatchFlushReason) (drawn : Bool) :
    Batched (s.flushToBackend reason drawn) asked [] ∧ (s.flushToBackend reason drawn).batch.vertices = [] := by
  unfold DrawState.flushToBackend
  by_cases hempty : s.batch.vertices = []
  · rw [if_pos hempty]
    have hpending := h.pending_eq_nil hempty
    rw [hpending] at h
    exact ⟨h, hempty⟩
  rw [if_neg hempty]
  have hne : pending ≠ [] := by
    rintro rfl
    exact hempty h.vertices
  have hassemble : s.batch.primitive.assemble s.batch.vertices = pending.map (.batched s.batch.primitive) := by
    rw [h.vertices, GlideBatchPrimitive.assemble_flatten (h.kind hne) h.arity]
  have hcount : s.batch.pendingPrimitiveCount.setWidth 64 = BitVec.ofNat 64 pending.length := by
    have hle := h.pending_length_le
    rw [h.pendingCount, ← BitVec.toNat_inj, BitVec.toNat_setWidth, BitVec.toNat_ofNat, BitVec.toNat_ofNat,
      Nat.mod_eq_of_lt (a := pending.length) (by unfold kGlideDrawBatchVertexCapacity at hle; omega)]
  refine ⟨⟨rfl, by simp, by simp, by simp [GlideDrawBatch.flush], ?_, ?_, rfl, ?_, ?_⟩, rfl⟩
  · rw [List.flatMap_append, List.map_nil, List.append_nil, ← h.order]
    simp [BackendCall.primitives, hassemble]
  · intro call hcall
    rcases List.mem_append.mp hcall with hcall | hcall
    · exact h.whole call hcall
    · rw [List.mem_singleton.mp hcall]
      refine ⟨h.kind hne, h.capacity, ?_⟩
      rw [h.vertices, groups_flatten (GlideBatchPrimitive.arity_pos (h.kind hne)) h.arity]
  · have hbefore := h.vertexCount
    cases drawn with
    | true => simp [GlideDrawBatch.flush, BackendCall.droppedVertices, hbefore]
    | false =>
      simp [GlideDrawBatch.flush, BackendCall.droppedVertices, hbefore, BitVec.ofNat_add]
      ring
  · have hbefore := h.primitiveCount
    cases drawn with
    | true => simp [GlideDrawBatch.flush, BackendCall.droppedPrimitives, hbefore, hcount]
    | false =>
      simp [GlideDrawBatch.flush, BackendCall.droppedPrimitives, hbefore, BitVec.ofNat_add, hassemble]
      ring

/-- A primitive joins a batch that has room for it. -/
theorem queuePrimitive (h : Batched s asked pending) {kind : GlideBatchPrimitive} (hkind : kind ≠ .kNone)
    {vertices : List V} (hlength : vertices.length = kind.arity)
    (hroom : s.batch.vertices ≠ [] → s.batch.primitive = kind ∧
      s.batch.vertices.length + vertices.length ≤ kGlideDrawBatchVertexCapacity) :
    s.batch.queuePrimitive vertices kind = .queued (s.batch.append vertices kind) ∧
      Batched { s with batch := s.batch.append vertices kind } (asked ++ [.batched kind vertices])
        (pending ++ [vertices]) := by
  have hpos := GlideBatchPrimitive.arity_pos hkind
  have hne : vertices ≠ [] := by
    rintro rfl
    rw [List.length_nil] at hlength
    omega
  have hle : vertices.length ≤ 3 := by
    rw [hlength]
    cases kind <;> decide
  have hfits : s.batch.vertices.length + vertices.length ≤ kGlideDrawBatchVertexCapacity := by
    by_cases hempty : s.batch.vertices = []
    · rw [hempty, List.length_nil]
      exact (show 0 + vertices.length ≤ 3 by omega).trans (by decide)
    · exact (hroom hempty).2
  have hsame : ∀ part ∈ pending, s.batch.primitive = kind := by
    intro part hpart
    refine (hroom fun hempty => ?_).1
    rw [h.pending_eq_nil hempty] at hpart
    cases hpart
  constructor
  · unfold GlideDrawBatch.queuePrimitive
    rw [if_neg (by simp [hne, hkind]), if_neg (by omega), if_neg]
    rintro ⟨hnonempty, hbad⟩
    obtain ⟨hprimitive, hcapacity⟩ := hroom hnonempty
    exact hbad.elim (fun hbad => hbad hprimitive) (fun hbad => absurd hcapacity (by omega))
  · constructor
    · simp [GlideDrawBatch.append, h.vertices]
    · intro part hpart
      show part.length = kind.arity
      rcases List.mem_append.mp hpart with hpart | hpart
      · rw [h.arity part hpart, hsame part hpart]
      · rw [List.mem_singleton.mp hpart, hlength]
    · exact fun _ => hkind
    · simpa [GlideDrawBatch.append] using hfits
    · have hmap : pending.map (Primitive.batched s.batch.primitive) = pending.map (.batched kind) :=
        List.map_congr_left fun part hpart => by rw [hsame part hpart]
      rw [← h.order, hmap, List.map_append, List.append_assoc]
      rfl
    · exact h.whole
    · simp [GlideDrawBatch.append, h.pendingCount, BitVec.ofNat_add]
    · simp only [GlideDrawBatch.append, h.vertexCount, List.length_append, BitVec.ofNat_add]
      ring
    · simp only [GlideDrawBatch.append, h.primitiveCount, List.length_append, List.length_singleton, BitVec.ofNat_add]
      rw [show BitVec.ofNat 64 1 = 1 from rfl]
      ring

/-- A primitive is always queued, behind a flush where the batch cannot take it. -/
theorem queueForBatch (h : Batched s asked pending) {kind : GlideBatchPrimitive} (hkind : kind ≠ .kNone)
    {vertices : List V} (hlength : vertices.length = kind.arity) (flushed : Bool) :
    (s.queueForBatch vertices kind flushed).2 = true ∧
      ∃ pending', Batched (s.queueForBatch vertices kind flushed).1 (asked ++ [.batched kind vertices]) pending' := by
  unfold DrawState.queueForBatch
  by_cases hroom : s.batch.vertices ≠ [] → s.batch.primitive = kind ∧
      s.batch.vertices.length + vertices.length ≤ kGlideDrawBatchVertexCapacity
  · obtain ⟨hqueue, hbatched⟩ := h.queuePrimitive hkind hlength hroom
    rw [hqueue]
    exact ⟨rfl, _, hbatched⟩
  · rw [Classical.not_imp] at hroom
    obtain ⟨hnonempty, hroom⟩ := hroom
    have hflush : s.batch.queuePrimitive vertices kind = .flushRequired := by
      have hpos := GlideBatchPrimitive.arity_pos hkind
      have hle : vertices.length ≤ 3 := by
        rw [hlength]
        cases kind <;> decide
      have hne : vertices ≠ [] := by
        rintro rfl
        rw [List.length_nil] at hlength
        omega
      unfold GlideDrawBatch.queuePrimitive
      rw [if_neg (by simp [hne, hkind]), if_neg (by unfold kGlideDrawBatchVertexCapacity; omega), if_pos]
      refine ⟨hnonempty, ?_⟩
      by_cases hprimitive : s.batch.primitive = kind
      · exact .inr (not_le.mp fun hle => hroom ⟨hprimitive, hle⟩)
      · exact .inl hprimitive
    rw [hflush]
    dsimp only
    obtain ⟨hflushed, hempty⟩ := h.flushToBackend
      (if s.batch.primitive ≠ kind then .kPrimitiveChange else .kCapacity) flushed
    obtain ⟨hqueue, hbatched⟩ := hflushed.queuePrimitive hkind hlength fun hne => absurd hempty hne
    rw [hqueue]
    exact ⟨rfl, _, hbatched⟩

/-- A gate that is not a draw gate acts behind everything that was asked for before it. -/
theorem handleGate_acted (h : Batched s asked pending) {c : GateCall V} (hrejected : c.rejected = false)
    (helided : c.elided = false) (hdraw : isGlideDrawBatchGate c.gate = false)
    (hpolygon : c.gate.isPolygonGate = false) :
    ∃ before, before.flatMap BackendCall.primitives = asked ∧
      (s.handleGate c).calls = before ++ [.acted c.gate] := by
  obtain ⟨hflushed, -⟩ := h.flushToBackend .kNonDrawGate c.flushed
  refine ⟨(s.flushToBackend .kNonDrawGate c.flushed).calls, ?_, ?_⟩
  · simpa using hflushed.order
  · unfold DrawState.handleGate
    rw [if_neg (by simp [hrejected]), if_neg (by simp [helided]), if_neg (by simp [hdraw]),
      dispatch_acted _ hdraw hpolygon]

/-- A call that the backend sees at once, behind an empty batch. -/
theorem snoc (h : Batched s asked []) {call : BackendCall V} (hwhole : call.Whole)
    (hvertices : call.droppedVertices = 0) (hprimitives : call.droppedPrimitives = 0) :
    Batched { s with calls := s.calls ++ [call] } (asked ++ call.primitives) [] := by
  constructor
  · exact h.vertices
  · exact h.arity
  · exact h.kind
  · exact h.capacity
  · have horder := h.order
    rw [List.map_nil, List.append_nil] at horder ⊢
    rw [List.flatMap_append, horder]
    simp
  · intro other hother
    rcases List.mem_append.mp hother with hother | hother
    · exact h.whole other hother
    · rw [List.mem_singleton.mp hother]
      exact hwhole
  · exact h.pendingCount
  · simpa [hvertices] using h.vertexCount
  · simpa [hprimitives] using h.primitiveCount

/-- One gate. -/
theorem handleGate (h : Batched s asked pending) (c : GateCall V) :
    ∃ pending', Batched (s.handleGate c) (asked ++ c.primitives) pending' := by
  unfold DrawState.handleGate GateCall.primitives
  by_cases hrejected : c.rejected = true
  · rw [if_pos hrejected, if_pos (.inl hrejected), List.append_nil]
    exact ⟨_, h⟩
  by_cases helided : c.elided = true
  · rw [if_neg hrejected, if_pos helided, if_pos (.inr helided), List.append_nil]
    exact ⟨_, h⟩
  rw [if_neg hrejected, if_neg helided, if_neg (not_or.mpr ⟨hrejected, helided⟩)]
  by_cases hdraw : isGlideDrawBatchGate c.gate = true
  · rw [if_pos hdraw, if_pos hdraw, dispatch_drawGate s hdraw]
    unfold DrawState.drawGate
    cases hgather : c.gather c.gate.batchPrimitive.arity with
    | none =>
      rw [Option.map_none, Option.toList_none, List.append_nil]
      exact ⟨_, h⟩
    | some vertices =>
      obtain ⟨hqueued, hbatched⟩ :=
        h.queueForBatch (batchPrimitive_ne_kNone hdraw) (c.gather_length hgather) c.flushed
      simp only [hqueued, if_true]
      exact hbatched
  rw [if_neg hdraw, if_neg hdraw]
  obtain ⟨hflushed, -⟩ := h.flushToBackend .kNonDrawGate c.flushed
  by_cases hpolygon : c.gate.isPolygonGate = true
  · rw [dispatch_polygonGate _ hpolygon]
    unfold DrawState.polygonGate
    by_cases hcount : c.vertexCount < 3 ∨ kMaxGlidePolygonVertices < c.vertexCount
    · rw [if_pos hcount, if_neg (by omega), List.append_nil]
      exact ⟨_, hflushed⟩
    rw [if_neg hcount, if_pos ⟨hpolygon, by omega, by omega⟩]
    cases c.gather c.vertexCount with
    | none =>
      rw [Option.map_none, Option.toList_none, List.append_nil]
      exact ⟨_, hflushed⟩
    | some vertices =>
      have hwhole : (BackendCall.polygon vertices c.drawn).Whole := trivial
      exact ⟨_, hflushed.snoc hwhole rfl rfl⟩
  · rw [Bool.not_eq_true] at hdraw hpolygon
    rw [dispatch_acted _ hdraw hpolygon, if_neg (by simp [hpolygon])]
    have hwhole : (BackendCall.acted c.gate : BackendCall V).Whole := trivial
    exact ⟨_, hflushed.snoc hwhole rfl rfl⟩

theorem run (h : Batched s asked pending) (calls : List (GateCall V)) :
    ∃ pending', Batched (s.run calls) (asked ++ calls.flatMap GateCall.primitives) pending' := by
  induction calls generalizing s asked pending with
  | nil =>
    rw [List.flatMap_nil, List.append_nil]
    exact ⟨_, h⟩
  | cons c calls ih =>
    obtain ⟨_, hstep⟩ := h.handleGate c
    rw [List.flatMap_cons, ← List.append_assoc]
    exact ih hstep

/-- Nothing is asked for at first. -/
theorem empty : Batched ({} : DrawState V) [] [] := by
  constructor <;> simp

end Batched

/-- Over any run of gates, what the backend was given and the batch that waits are the primitives
asked for, in order and whole; and a gate that is not a draw gate acts behind all of those before it. -/
theorem batched_draws_complete (calls : List (GateCall V)) :
    (∃ pending, Batched (DrawState.run {} calls) (calls.flatMap GateCall.primitives) pending) ∧
    ∀ before c after, calls = before ++ c :: after → c.rejected = false → c.elided = false →
      isGlideDrawBatchGate c.gate = false → c.gate.isPolygonGate = false →
      ∃ handed, handed.flatMap BackendCall.primitives = before.flatMap GateCall.primitives ∧
        (DrawState.run {} (before ++ [c])).calls = handed ++ [.acted c.gate] := by
  have hrun : ∀ calls : List (GateCall V),
      ∃ pending, Batched (DrawState.run {} calls) (calls.flatMap GateCall.primitives) pending :=
    fun calls => Batched.empty.run calls
  refine ⟨hrun calls, ?_⟩
  intro before c after _ hrejected helided hdraw hpolygon
  obtain ⟨_, hbefore⟩ := hrun before
  rw [DrawState.run, List.foldl_append]
  exact hbefore.handleGate_acted hrejected helided hdraw hpolygon

end Repiu.Glide
