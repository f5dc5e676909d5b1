import OxeeUI.Journal.LifecycleBatchRows

/-!
# Partitioned lifecycle mutations

Mutations are packed into chunks that each fit one batch row.  A mutation is sized
with the widest integers and with the outcome a stop may add; the row around it with
the longest chunk id that can occur.
-/

namespace OxeeUI.Journal.BatchRows

open OxeeUI.Library

structure JournalLifecycleMutationChunk (Mutation : Type) where
  settlementId : Text
  mutations : List Mutation

structure JournalLifecycleBatchSizeOptions where
  recovered : Bool
  epoch : Option Text

/-- `Number.MAX_SAFE_INTEGER` -/
def maxSafeInteger : ℕ := 2 ^ 53 - 1

def sizedBody (body : AgentJournalItemBody) : AgentJournalItemBody :=
  if isUnjudgedInterruption body then cancelledTurn body else body

def sizedAsStopped (mutation : JournalLifecycleMutationInput) : JournalLifecycleMutationInput :=
  mutation.mapBody sizedBody

def toLifecycleMutationRow (mutation : JournalLifecycleMutationInput) : JournalLifecycleMutation :=
  journalLifecycleMutationRow (sizedAsStopped mutation) (journalLifecycleMutationItemId mutation)
    maxSafeInteger maxSafeInteger

def lifecycleMutationBytes (mutation : JournalLifecycleMutationInput) : ℕ :=
  (toLifecycleMutationRow mutation).written.bytes

def mutationSchemaVersion : JournalLifecycleMutationInput → ℕ
  | .item input => journalRowSchemaVersion [input.body]
  | .tombstone _ => journalRowSchemaVersion []

def chunkSettlementId (settlementId : Text) (index total : ℕ) : Text :=
  settlementId ++ (unitsOf ":" ++ (decimalText (index + 1) ++ (unitsOf "/" ++ decimalText total)))

def defaultProbeEpoch : Text := unitsOf "00000000-0000-4000-8000-000000000000"

/-- A row without mutations, with the widest integers. -/
def probeRow (settlementId : Text) (version : ℕ) (options : JournalLifecycleBatchSizeOptions) :
    WrittenJson :=
  .object (writtenMember "v" (.natural version) ++
    writtenMember "kind" (.string (unitsOf "lifecycle-batch")) ++
    writtenMember "epoch" (.string (options.epoch.getD defaultProbeEpoch)) ++
    writtenMember "seq" (.natural maxSafeInteger) ++
    writtenMember "fence" (.natural maxSafeInteger) ++
    writtenMember "ts" (.natural maxSafeInteger) ++
    writtenMember "settlementId" (.string settlementId) ++
    writtenMember "mutations" (.array []) ++
    recoveredMember options.recovered)

def serializedLifecycleBatchOverhead (settlementId : Text) (version : ℕ)
    (options : JournalLifecycleBatchSizeOptions) : ℕ :=
  (probeRow settlementId version options).bytes + 1

def journalLifecycleMutationFitsOneBatch (settlementId : Text)
    (mutation : JournalLifecycleMutationInput) (options : JournalLifecycleBatchSizeOptions) : Bool :=
  lifecycleMutationBytes mutation +
    serializedLifecycleBatchOverhead settlementId (mutationSchemaVersion mutation) options ≤
      maxJournalLifecycleBatchBytes

section Packing

variable {Mutation : Type} (view : Mutation → JournalLifecycleMutationInput) (overhead : ℕ → ℕ)

structure Packing (Mutation : Type) where
  chunks : List (List Mutation)
  pending : List Mutation
  pendingBytes : ℕ
  pendingVersion : ℕ

def Packing.empty : Packing Mutation := ⟨[], [], 0, journalRowSchemaVersion []⟩

def Packing.close (packing : Packing Mutation) : Packing Mutation :=
  { Packing.empty with chunks := packing.chunks ++ [packing.pending] }

def Packing.comma (packing : Packing Mutation) : ℕ := if packing.pending = [] then 0 else 1

/-- The next mutation does not fit behind the pending ones. -/
def Packing.overflows (packing : Packing Mutation) (mutation : Mutation) : Bool :=
  packing.pending.length ≠ 0 &&
    maxJournalLifecycleBatchBytes <
      packing.pendingBytes + lifecycleMutationBytes (view mutation) + packing.comma +
        overhead (max packing.pendingVersion (mutationSchemaVersion (view mutation)))

def Packing.add (packing : Packing Mutation) (mutation : Mutation) : Packing Mutation :=
  { packing with
    pending := packing.pending ++ [mutation]
    pendingBytes :=
      packing.pendingBytes + (lifecycleMutationBytes (view mutation) + packing.comma)
    pendingVersion := max packing.pendingVersion (mutationSchemaVersion (view mutation)) }

def packMutation (packing : Packing Mutation) (mutation : Mutation) : Packing Mutation :=
  let opened := if packing.overflows view overhead mutation then packing.close else packing
  let added := opened.add view mutation
  if added.pending.length = maxJournalLifecycleBatchMutations then added.close else added

def Packing.finish (packing : Packing Mutation) : List (List Mutation) :=
  if packing.pending = [] then packing.chunks else packing.chunks ++ [packing.pending]

def packedChunks (mutations : List Mutation) : List (List Mutation) :=
  (mutations.foldl (packMutation view overhead) .empty).finish

end Packing

def namedChunks {Mutation : Type} (settlementId : Text) (chunks : List (List Mutation)) :
    List (JournalLifecycleMutationChunk Mutation) :=
  chunks.mapIdx fun index chunk =>
    ⟨if chunks.length = 1 then settlementId else chunkSettlementId settlementId index chunks.length,
      chunk⟩

def partitionJournalLifecycleMutations {Mutation : Type}
    (view : Mutation → JournalLifecycleMutationInput) (settlementId : Text)
    (mutations : List Mutation) (options : JournalLifecycleBatchSizeOptions) :
    List (JournalLifecycleMutationChunk Mutation) :=
  match mutations with
  | [] => []
  | [only] => [⟨settlementId, [only]⟩]
  | first :: second :: rest =>
    let mutations := first :: second :: rest
    let probeId := chunkSettlementId settlementId (mutations.length - 1) mutations.length
    let overhead := fun version => serializedLifecycleBatchOverhead probeId version options
    namedChunks settlementId (packedChunks view overhead mutations)

end OxeeUI.Journal.BatchRows

/-!
## Sizes of lifecycle batch rows

A mutation is written in no more bytes than it was sized with, and a row in no more
than its mutations and the probe around them.
-/

namespace OxeeUI.Journal.BatchRows

open OxeeUI.Library OxeeUI.Library.WrittenJson

/-- The bytes of the mutations of a chunk and the commas between them. -/
def chunkBytes (mutations : List JournalLifecycleMutationInput) : ℕ :=
  (mutations.map lifecycleMutationBytes).sum + (mutations.length - 1)

theorem chunkBytes_append (mutations : List JournalLifecycleMutationInput)
    (mutation : JournalLifecycleMutationInput) :
    chunkBytes (mutations ++ [mutation]) =
      chunkBytes mutations + (lifecycleMutationBytes mutation + if mutations = [] then 0 else 1) := by
  unfold chunkBytes
  rw [List.map_append, List.sum_append, List.length_append, List.map_singleton, List.sum_singleton,
    List.length_singleton]
  cases mutations with
  | nil => rfl
  | cons first rest =>
    rw [if_neg (List.cons_ne_nil first rest), List.length_cons]
    omega

section Members

theorem memberBytes_natural_le (key : Text) {small large : ℕ} (smaller : small ≤ large) :
    memberBytes (key, .natural small) ≤ memberBytes (key, .natural large) := by
  unfold memberBytes
  rw [bytes_natural, bytes_natural]
  exact Nat.add_le_add_left (length_decimalText_mono smaller) _

theorem memberBytes_le (key : Text) {small large : WrittenJson} (smaller : small.bytes ≤ large.bytes) :
    memberBytes (key, small) ≤ memberBytes (key, large) :=
  Nat.add_le_add_left smaller _

theorem object_bytes_append (front back : List (Text × WrittenJson)) :
    (object front).bytes ≤ (object (front ++ back)).bytes := by
  rw [bytes_object, bytes_object]
  unfold bracketBytes
  rw [List.map_append, List.sum_append, List.length_append]
  omega

theorem sizedBody_bytes (body : AgentJournalItemBody) :
    (object body).bytes ≤ (object (sizedBody body)).bytes := by
  unfold sizedBody
  split
  · exact object_bytes_append body _
  · exact Nat.le_refl _

theorem turnEndAfterStop_bytes (state : JournalReducerState) (itemId : Text)
    (body : AgentJournalItemBody) :
    (object (turnEndAfterStop state itemId body)).bytes ≤ (object (sizedBody body)).bytes := by
  unfold turnEndAfterStop
  by_cases unjudged : isUnjudgedInterruption body = true
  · rw [if_pos unjudged]
    dsimp only
    split
    · split
      · unfold sizedBody
        rw [if_pos unjudged]
      · exact sizedBody_bytes body
    · exact sizedBody_bytes body
  · rw [if_neg unjudged]
    exact sizedBody_bytes body

end Members

section Mutations

theorem mutationRow_bytes (mutation : JournalLifecycleMutationInput)
    {change : AgentJournalItemBody → AgentJournalItemBody}
    (budgeted : ∀ body, (object (change body)).bytes ≤ (object (sizedBody body)).bytes)
    {revision ownerFence : ℕ} (safeRevision : revision ≤ maxSafeInteger)
    (safeFence : ownerFence ≤ maxSafeInteger) :
    (journalLifecycleMutationRow (mutation.mapBody change)
        (journalLifecycleMutationItemId mutation) revision ownerFence).written.bytes ≤
      lifecycleMutationBytes mutation := by
  unfold lifecycleMutationBytes toLifecycleMutationRow sizedAsStopped
  have revisions := memberBytes_natural_le (unitsOf "revision") safeRevision
  cases mutation with
  | item input =>
    have bodies := memberBytes_le (unitsOf "body") (budgeted input.body)
    have fences := memberBytes_natural_le (unitsOf "ownerFence") safeFence
    simp only [JournalLifecycleMutationInput.mapBody, journalLifecycleMutationRow,
      JournalLifecycleMutation.written, bytes_object, bracketBytes, writtenMember,
      List.map_append, List.sum_append, List.length_append, List.length_map, List.map_cons,
      List.map_nil, List.sum_singleton, List.length_singleton]
    omega
  | tombstone address =>
    simp only [JournalLifecycleMutationInput.mapBody, journalLifecycleMutationRow,
      JournalLifecycleMutation.written, bytes_object, bracketBytes, writtenMember,
      List.map_append, List.sum_append, List.length_append, List.map_cons, List.map_nil,
      List.sum_singleton, List.length_singleton]
    omega

/-- The owners and revisions a state gives are safe integers. -/
structure SafeIntegers (state : JournalReducerState) (options : JournalLifecycleBatchOptions)
    (mutations : List JournalLifecycleMutationInput) (revisions : JsMap Text ℕ) (seq ts : ℕ) :
    Prop where
  seq : seq ≤ maxSafeInteger
  ts : ts ≤ maxSafeInteger
  fence : options.fence ≤ maxSafeInteger
  itemFences : ∀ fence ∈ state.itemFences.values, fence ≤ maxSafeInteger
  ownerFences : ∀ mutation ∈ mutations, ∀ fence ∈ mutation.ownerFence, fence ≤ maxSafeInteger
  revisions : ∀ built ∈ builtMutations state options revisions mutations,
    built.revision ≤ maxSafeInteger

theorem journalItemOwnerFence_safe {state : JournalReducerState} {fence : ℕ}
    {ownerFence : Option ℕ} (safe : fence ≤ maxSafeInteger)
    (kept : ∀ fence ∈ state.itemFences.values, fence ≤ maxSafeInteger)
    (stated : ∀ fence ∈ ownerFence, fence ≤ maxSafeInteger) (itemId : Text) :
    journalItemOwnerFence state itemId fence ownerFence ≤ maxSafeInteger := by
  unfold journalItemOwnerFence
  dsimp only
  have fallback : ownerFence.getD fence ≤ maxSafeInteger := by
    cases ownerFence with
    | none => exact safe
    | some stated' => exact stated stated' rfl
  split
  · cases found : state.itemFences.get? itemId with
    | none => exact fallback
    | some owner => exact kept owner (JsMap.mem_values_iff.mpr ⟨itemId, found⟩)
  · exact fallback

@[simp]
theorem journalLifecycleMutationRow_revision (mutation : JournalLifecycleMutationInput)
    (itemId : Text) (revision ownerFence : ℕ) :
    (journalLifecycleMutationRow mutation itemId revision ownerFence).revision = revision := by
  cases mutation <;> rfl

theorem builtMutations_length (state : JournalReducerState) (options : JournalLifecycleBatchOptions)
    (mutations : List JournalLifecycleMutationInput) (revisions : JsMap Text ℕ) :
    (builtMutations state options revisions mutations).length = mutations.length := by
  induction mutations generalizing revisions with
  | nil => rfl
  | cons mutation mutations ih =>
    unfold builtMutations
    dsimp only
    rw [List.length_cons, List.length_cons, ih]

theorem builtMutations_bytes {state : JournalReducerState} {options : JournalLifecycleBatchOptions}
    (fence : options.fence ≤ maxSafeInteger)
    (kept : ∀ fence ∈ state.itemFences.values, fence ≤ maxSafeInteger)
    {mutations : List JournalLifecycleMutationInput}
    (stated : ∀ mutation ∈ mutations, ∀ fence ∈ mutation.ownerFence, fence ≤ maxSafeInteger)
    {revisions : JsMap Text ℕ}
    (safe : ∀ built ∈ builtMutations state options revisions mutations,
      built.revision ≤ maxSafeInteger) :
    ((builtMutations state options revisions mutations).map fun built => built.written.bytes).sum ≤
      (mutations.map lifecycleMutationBytes).sum := by
  induction mutations generalizing revisions with
  | nil => exact Nat.le_refl _
  | cons mutation mutations ih =>
    unfold builtMutations at safe ⊢
    dsimp only at safe ⊢
    have headSafe := safe _ List.mem_cons_self
    rw [journalLifecycleMutationRow_revision] at headSafe
    have head := mutationRow_bytes mutation
      (turnEndAfterStop_bytes state (state.resolve (journalLifecycleMutationItemId mutation)))
      headSafe (journalItemOwnerFence_safe fence kept (stated mutation List.mem_cons_self)
        (state.resolve (journalLifecycleMutationItemId mutation)))
    have tail := ih (fun other member => stated other (List.mem_cons_of_mem _ member))
      fun built member => safe built (List.mem_cons_of_mem _ member)
    rw [List.map_cons, List.sum_cons, List.map_cons, List.sum_cons]
    exact Nat.add_le_add head tail

end Mutations

section Rows

theorem journalRowSchemaVersion_digits (bodies : List AgentJournalItemBody) :
    (decimalText (journalRowSchemaVersion bodies)).length = 1 := by
  unfold journalRowSchemaVersion
  split <;> decide

theorem decimalText_length_pos (number : ℕ) : 1 ≤ (decimalText number).length := by
  unfold decimalText
  rw [List.length_map]
  exact Nat.length_toDigits_pos

/-- A row takes no more bytes than its mutations were sized with and the probe around them. -/
theorem row_bytes {state : JournalReducerState} {options : JournalLifecycleBatchOptions}
    {mutations : List JournalLifecycleMutationInput} {revisions : JsMap Text ℕ} {seq ts : ℕ}
    (safe : SafeIntegers state options mutations revisions seq ts) (settlementId probeId : Text)
    (probed : textBytes (quotedText settlementId) ≤ textBytes (quotedText probeId))
    {sizes : JournalLifecycleBatchSizeOptions} (recovered : sizes.recovered = options.recovered)
    (epoch : textBytes (quotedText state.epoch) =
      textBytes (quotedText (sizes.epoch.getD defaultProbeEpoch))) (version : ℕ) :
    (lifecycleBatchRow state settlementId mutations options revisions seq ts).written.bytes + 1 ≤
      chunkBytes mutations + serializedLifecycleBatchOverhead probeId version sizes := by
  have seqs := memberBytes_natural_le (unitsOf "seq") safe.seq
  have times := memberBytes_natural_le (unitsOf "ts") safe.ts
  have fences := memberBytes_natural_le (unitsOf "fence") safe.fence
  have ids := @memberBytes_le (unitsOf "settlementId") (.string settlementId) (.string probeId) probed
  have epochs := @memberBytes_le (unitsOf "epoch") (.string state.epoch)
    (.string (sizes.epoch.getD defaultProbeEpoch)) (Nat.le_of_eq epoch)
  have built := builtMutations_bytes safe.fence safe.itemFences safe.ownerFences safe.revisions
  have count := builtMutations_length state options mutations revisions
  have versions : memberBytes (unitsOf "v", .natural (journalRowSchemaVersion
      (itemBodies (builtMutations state options revisions mutations)))) ≤
        memberBytes (unitsOf "v", .natural version) := by
    apply memberBytes_le
    rw [bytes_natural, bytes_natural, journalRowSchemaVersion_digits]
    exact decimalText_length_pos version
  have arrays : memberBytes (unitsOf "mutations",
      .array ((builtMutations state options revisions mutations).map
        JournalLifecycleMutation.written)) ≤
      memberBytes (unitsOf "mutations", .array []) + chunkBytes mutations := by
    unfold memberBytes chunkBytes
    rw [bytes_array, bytes_array, List.map_map]
    unfold bracketBytes
    rw [List.length_map, count]
    have sums : ((builtMutations state options revisions mutations).map
        (bytes ∘ JournalLifecycleMutation.written)).sum ≤
          (mutations.map lifecycleMutationBytes).sum := built
    dsimp only [List.map_nil, List.sum_nil, List.length_nil]
    omega
  unfold serializedLifecycleBatchOverhead probeRow
  simp only [lifecycleBatchRow, JournalLifecycleBatchRow.written,
    JournalLifecycleBatchRow.writtenMutations, bytes_object, bracketBytes, writtenMember,
    List.map_append, List.sum_append, List.length_append, List.length_map, List.map_cons,
    List.map_nil, List.sum_singleton, List.length_singleton, recovered]
  omega

end Rows

end OxeeUI.Journal.BatchRows
