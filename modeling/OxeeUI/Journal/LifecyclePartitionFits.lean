import OxeeUI.Journal.LifecycleRowSizes
import Mathlib.Data.List.Nodup

/-!
# Partitioned mutations fit their rows

The chunks hold the mutations in order, under distinct ids, and the builder makes a
row of each chunk whose only mutation, if it has one only, fits under the chunk's id.
-/

namespace OxeeUI.Journal.BatchRows

open OxeeUI.Library OxeeUI.Library.WrittenJson

section Packing

variable {Mutation : Type} {view : Mutation → JournalLifecycleMutationInput} {overhead : ℕ → ℕ}

/-- Several mutations in a chunk fit within the probe. -/
structure Packed (view : Mutation → JournalLifecycleMutationInput) (overhead : ℕ → ℕ)
    (chunk : List Mutation) : Prop where
  nonempty : chunk ≠ []
  count : chunk.length ≤ maxJournalLifecycleBatchMutations
  fits : 2 ≤ chunk.length →
    ∃ version, chunkBytes (chunk.map view) + overhead version ≤ maxJournalLifecycleBatchBytes

theorem room_pos : 0 < maxJournalLifecycleBatchMutations := by decide

/-- What holds of the chunks while mutations are packed. -/
structure PackingSound (view : Mutation → JournalLifecycleMutationInput) (overhead : ℕ → ℕ)
    (packed : List Mutation) (packing : Packing Mutation) : Prop where
  kept : packing.chunks.flatten ++ packing.pending = packed
  chunks : ∀ chunk ∈ packing.chunks, Packed view overhead chunk
  bytes : packing.pendingBytes = chunkBytes (packing.pending.map view)
  fits : 2 ≤ packing.pending.length →
    chunkBytes (packing.pending.map view) + overhead packing.pendingVersion ≤
      maxJournalLifecycleBatchBytes

theorem PackingSound.empty : PackingSound view overhead [] Packing.empty where
  kept := rfl
  chunks := fun _ member => absurd member List.not_mem_nil
  bytes := rfl
  fits := fun two => absurd two (Nat.not_succ_le_zero 1)

theorem PackingSound.pending_packed {packed : List Mutation} {packing : Packing Mutation}
    (sound : PackingSound view overhead packed packing) (pending : packing.pending ≠ [])
    (count : packing.pending.length ≤ maxJournalLifecycleBatchMutations) :
    ∀ chunk ∈ packing.chunks ++ [packing.pending], Packed view overhead chunk := by
  intro chunk member
  rw [List.mem_append, List.mem_singleton] at member
  rcases member with earlier | rfl
  · exact sound.chunks chunk earlier
  · exact ⟨pending, count, fun two => ⟨packing.pendingVersion, sound.fits two⟩⟩

theorem PackingSound.close {packed : List Mutation} {packing : Packing Mutation}
    (sound : PackingSound view overhead packed packing) (pending : packing.pending ≠ [])
    (count : packing.pending.length ≤ maxJournalLifecycleBatchMutations) :
    PackingSound view overhead packed packing.close where
  kept := by
    rw [← sound.kept]
    change (packing.chunks ++ [packing.pending]).flatten ++ [] = _
    rw [List.flatten_append, List.flatten_singleton, List.append_nil]
  chunks := sound.pending_packed pending count
  bytes := rfl
  fits := fun two => absurd two (Nat.not_succ_le_zero 1)

theorem PackingSound.add {packed : List Mutation} {packing : Packing Mutation}
    (sound : PackingSound view overhead packed packing) {mutation : Mutation}
    (room : packing.overflows view overhead mutation = false) :
    PackingSound view overhead (packed ++ [mutation]) (packing.add view mutation) := by
  have bytes : (packing.add view mutation).pendingBytes =
      chunkBytes ((packing.add view mutation).pending.map view) := by
    unfold Packing.add Packing.comma
    dsimp only
    rw [List.map_append, List.map_singleton, chunkBytes_append, sound.bytes]
    simp only [List.map_eq_nil_iff]
  refine ⟨?_, sound.chunks, bytes, ?_⟩
  · rw [← sound.kept, List.append_assoc]
    rfl
  · intro two
    have pending : packing.pending.length ≠ 0 := by
      have length : (packing.add view mutation).pending.length = packing.pending.length + 1 :=
        List.length_append
      omega
    unfold Packing.overflows at room
    rw [Bool.and_eq_false_iff, decide_eq_false_iff_not, decide_eq_false_iff_not] at room
    rcases room with absent | fits
    · exact absurd pending absent
    · rw [← bytes]
      unfold Packing.add
      dsimp only
      omega

theorem overflows_of_empty {packing : Packing Mutation} (empty : packing.pending = [])
    (mutation : Mutation) : packing.overflows view overhead mutation = false := by
  unfold Packing.overflows
  rw [empty]
  rfl

theorem PackingSound.pack {packed : List Mutation} {packing : Packing Mutation}
    (sound : PackingSound view overhead packed packing)
    (room : packing.pending.length < maxJournalLifecycleBatchMutations) (mutation : Mutation) :
    PackingSound view overhead (packed ++ [mutation]) (packMutation view overhead packing mutation) ∧
      (packMutation view overhead packing mutation).pending.length <
        maxJournalLifecycleBatchMutations := by
  obtain ⟨opened, openedSound, fits, small, rest⟩ :
      ∃ opened : Packing Mutation, PackingSound view overhead packed opened ∧
        opened.overflows view overhead mutation = false ∧
        opened.pending.length < maxJournalLifecycleBatchMutations ∧
        packMutation view overhead packing mutation =
          if (opened.add view mutation).pending.length = maxJournalLifecycleBatchMutations then
            (opened.add view mutation).close
          else opened.add view mutation := by
    by_cases overflow : packing.overflows view overhead mutation = true
    · refine ⟨packing.close, ?_, overflows_of_empty rfl mutation, room_pos, ?_⟩
      · apply sound.close _ (Nat.le_of_lt room)
        intro empty
        rw [overflows_of_empty empty] at overflow
        cases overflow
      · unfold packMutation
        rw [if_pos overflow]
    · refine ⟨packing, sound, Bool.eq_false_iff.mpr overflow, room, ?_⟩
      unfold packMutation
      rw [if_neg overflow]
  have added := openedSound.add fits
  have length : (opened.add view mutation).pending.length = opened.pending.length + 1 :=
    List.length_append
  rw [rest]
  split
  · rename_i full
    refine ⟨added.close ?_ (Nat.le_of_eq full), room_pos⟩
    exact List.append_ne_nil_of_right_ne_nil _ (List.cons_ne_nil _ _)
  · exact ⟨added, by omega⟩

theorem PackingSound.foldl {packed : List Mutation} {packing : Packing Mutation}
    (sound : PackingSound view overhead packed packing)
    (room : packing.pending.length < maxJournalLifecycleBatchMutations)
    (mutations : List Mutation) :
    PackingSound view overhead (packed ++ mutations)
        (mutations.foldl (packMutation view overhead) packing) ∧
      (mutations.foldl (packMutation view overhead) packing).pending.length <
        maxJournalLifecycleBatchMutations := by
  induction mutations generalizing packed packing with
  | nil =>
    rw [List.append_nil]
    exact ⟨sound, room⟩
  | cons mutation mutations ih =>
    obtain ⟨next, small⟩ := sound.pack room mutation
    have later := ih next small
    rw [List.append_assoc, List.singleton_append] at later
    exact later

theorem packedChunks_sound (mutations : List Mutation) :
    (packedChunks view overhead mutations).flatten = mutations ∧
      ∀ chunk ∈ packedChunks view overhead mutations, Packed view overhead chunk := by
  have start : PackingSound view overhead [] Packing.empty := PackingSound.empty
  obtain ⟨sound, room⟩ := start.foldl room_pos mutations
  have kept := sound.kept
  rw [List.nil_append] at kept
  unfold packedChunks Packing.finish
  split
  · rename_i empty
    rw [empty, List.append_nil] at kept
    exact ⟨kept, sound.chunks⟩
  · rename_i pending
    rw [List.flatten_append, List.flatten_singleton]
    exact ⟨kept, sound.pending_packed pending (Nat.le_of_lt room)⟩

theorem length_le_flatten {chunks : List (List Mutation)} (nonempty : ∀ chunk ∈ chunks, chunk ≠ []) :
    chunks.length ≤ chunks.flatten.length := by
  induction chunks with
  | nil => exact Nat.le_refl _
  | cons chunk chunks ih =>
    have first := List.length_pos_of_ne_nil (nonempty chunk List.mem_cons_self)
    have later := ih fun other member => nonempty other (List.mem_cons_of_mem _ member)
    rw [List.flatten_cons, List.length_append, List.length_cons]
    omega

end Packing

section Names

theorem chunkSettlementId_injective (settlementId : Text) (total : ℕ) {first second : ℕ}
    (same : chunkSettlementId settlementId first total = chunkSettlementId settlementId second total) :
    first = second := by
  unfold chunkSettlementId at same
  have digits := List.append_cancel_right (List.append_cancel_left (List.append_cancel_left same))
  exact Nat.succ.inj (decimalText_injective digits)

theorem chunkSuffix_plain (index total : ℕ) : ∀ unit ∈ unitsOf ":" ++
    (decimalText (index + 1) ++ (unitsOf "/" ++ decimalText total)), isPlainUnit unit = true := by
  intro unit member
  have mark : ∀ unit ∈ unitsOf ":" ++ unitsOf "/", isPlainUnit unit = true :=
    forall_mem_of_all (by decide)
  simp only [List.mem_append] at member mark
  rcases member with colon | digit | slash | digit
  · exact mark unit (Or.inl colon)
  · exact decimalText_ascii _ unit digit
  · exact mark unit (Or.inr slash)
  · exact decimalText_ascii _ unit digit

theorem chunkSettlementId_bytes (settlementId : Text) {index total count : ℕ}
    (within : index < total) (few : total ≤ count) :
    textBytes (quotedText (chunkSettlementId settlementId index total)) ≤
      textBytes (quotedText (chunkSettlementId settlementId (count - 1) count)) := by
  unfold chunkSettlementId
  rw [textBytes_quotedText_append settlementId (chunkSuffix_plain index total),
    textBytes_quotedText_append settlementId (chunkSuffix_plain (count - 1) count)]
  simp only [List.length_append]
  have indexes := length_decimalText_mono (show index + 1 ≤ count - 1 + 1 by omega)
  have totals := length_decimalText_mono few
  omega

theorem settlementId_bytes (settlementId : Text) (index total : ℕ) :
    textBytes (quotedText settlementId) ≤
      textBytes (quotedText (chunkSettlementId settlementId index total)) := by
  unfold chunkSettlementId
  rw [textBytes_quotedText_append settlementId (chunkSuffix_plain index total)]
  exact Nat.le_add_right _ _

variable {Mutation : Type}

theorem namedChunks_mutations (settlementId : Text) (chunks : List (List Mutation)) :
    (namedChunks settlementId chunks).map (·.mutations) = chunks := by
  apply List.ext_getElem?
  intro index
  unfold namedChunks
  rw [List.getElem?_map, List.getElem?_mapIdx, Option.map_map]
  cases chunks[index]? <;> rfl

theorem mem_namedChunks {settlementId : Text} {chunks : List (List Mutation)}
    {chunk : JournalLifecycleMutationChunk Mutation} (member : chunk ∈ namedChunks settlementId chunks) :
    chunk.mutations ∈ chunks ∧ (chunk.settlementId = settlementId ∨
      ∃ index < chunks.length,
        chunk.settlementId = chunkSettlementId settlementId index chunks.length) := by
  unfold namedChunks at member
  obtain ⟨index, within, rfl⟩ := List.mem_mapIdx.mp member
  refine ⟨List.getElem_mem within, ?_⟩
  dsimp only
  split
  · exact Or.inl rfl
  · exact Or.inr ⟨index, within, rfl⟩

theorem namedChunks_distinct (settlementId : Text) (chunks : List (List Mutation)) :
    ((namedChunks settlementId chunks).map (·.settlementId)).Nodup := by
  rw [List.nodup_iff_getElem?_ne_getElem?]
  intro first second before within same
  unfold namedChunks at within same
  rw [List.length_map, List.length_mapIdx] at within
  rw [List.getElem?_map, List.getElem?_map, List.getElem?_mapIdx, List.getElem?_mapIdx,
    List.getElem?_eq_getElem within, List.getElem?_eq_getElem (Nat.lt_trans before within),
    Option.map_some, Option.map_some, Option.map_some, Option.map_some, Option.some.injEq] at same
  have several : chunks.length ≠ 1 := by omega
  rw [if_neg several, if_neg several] at same
  exact Nat.ne_of_lt before (chunkSettlementId_injective settlementId chunks.length same)

end Names

section Rows

variable {Mutation : Type} {view : Mutation → JournalLifecycleMutationInput}

theorem builder_ok {state : JournalReducerState} {options : JournalLifecycleBatchOptions}
    {mutations : List JournalLifecycleMutationInput} {revisions : JsMap Text ℕ} {seq ts : ℕ}
    (safe : SafeIntegers state options mutations revisions seq ts) (nonempty : mutations ≠ [])
    (count : mutations.length ≤ maxJournalLifecycleBatchMutations) {settlementId probeId : Text}
    (probed : textBytes (quotedText settlementId) ≤ textBytes (quotedText probeId))
    {sizes : JournalLifecycleBatchSizeOptions} (recovered : sizes.recovered = options.recovered)
    (epoch : textBytes (quotedText state.epoch) =
      textBytes (quotedText (sizes.epoch.getD defaultProbeEpoch))) {version : ℕ}
    (fits : chunkBytes mutations + serializedLifecycleBatchOverhead probeId version sizes ≤
      maxJournalLifecycleBatchBytes) :
    journalLifecycleBatchRowBuilder state settlementId mutations options revisions seq ts =
      .ok (lifecycleBatchRow state settlementId mutations options revisions seq ts) := by
  have bytes := row_bytes safe settlementId probeId probed recovered epoch version
  have bounded : ¬(mutations.length = 0 ∨ maxJournalLifecycleBatchMutations < mutations.length) := by
    rintro (empty | above)
    · exact nonempty (List.eq_nil_of_length_eq_zero empty)
    · exact Nat.not_lt.mpr count above
  unfold journalLifecycleBatchRowBuilder
  rw [if_neg bounded]
  exact if_neg (Nat.not_lt.mpr (Nat.le_trans bytes fits))

/-- A chunk with one mutation only has one that fits under the chunk's id. -/
def LoneFits (view : Mutation → JournalLifecycleMutationInput)
    (options : JournalLifecycleBatchSizeOptions)
    (chunk : JournalLifecycleMutationChunk Mutation) : Prop :=
  ∀ only, chunk.mutations = [only] →
    journalLifecycleMutationFitsOneBatch chunk.settlementId (view only) options = true

/-- The chunks of a partition: their mutations, their ids and what their size was held to. -/
theorem partition_chunks (settlementId : Text) (mutations : List Mutation)
    (options : JournalLifecycleBatchSizeOptions) :
    let chunks := partitionJournalLifecycleMutations view settlementId mutations options
    chunks.flatMap (·.mutations) = mutations ∧ (chunks.map (·.settlementId)).Nodup ∧
      ∀ chunk ∈ chunks, ∃ probeId,
        textBytes (quotedText chunk.settlementId) ≤ textBytes (quotedText probeId) ∧
          Packed view (fun version => serializedLifecycleBatchOverhead probeId version options)
            chunk.mutations := by
  unfold partitionJournalLifecycleMutations
  split
  · exact ⟨rfl, List.nodup_nil, fun _ member => absurd member List.not_mem_nil⟩
  · rename_i only
    refine ⟨rfl, List.nodup_singleton _, ?_⟩
    intro chunk member
    rw [List.mem_singleton] at member
    rw [member]
    exact ⟨settlementId, Nat.le_refl _, List.cons_ne_nil only [], Nat.succ_le_of_lt room_pos,
      fun two => absurd two (Nat.not_succ_le_self 1)⟩
  · rename_i first second rest
    dsimp only
    obtain ⟨kept, packed⟩ := @packedChunks_sound _ view
      (fun version => serializedLifecycleBatchOverhead (chunkSettlementId settlementId
        ((first :: second :: rest).length - 1) (first :: second :: rest).length) version options)
      (first :: second :: rest)
    generalize packedChunks view _ (first :: second :: rest) = chunks at kept packed ⊢
    have few : chunks.length ≤ (first :: second :: rest).length := by
      rw [← kept]
      exact length_le_flatten fun chunk member => (packed chunk member).nonempty
    refine ⟨?_, namedChunks_distinct settlementId chunks, ?_⟩
    · rw [← kept, List.flatMap_def, namedChunks_mutations, kept]
    · intro chunk member
      obtain ⟨held, named⟩ := mem_namedChunks member
      refine ⟨_, ?_, packed chunk.mutations held⟩
      rcases named with plain | ⟨index, within, indexed⟩
      · rw [plain]
        exact settlementId_bytes settlementId _ _
      · rw [indexed]
        exact chunkSettlementId_bytes settlementId within few

/-- The chunks hold the mutations in order under distinct ids, and where the mutations
that are alone fit under their chunk's id, the builder makes a row of every chunk. -/
theorem partition_keeps_and_fits (settlementId : Text) (mutations : List Mutation)
    (options : JournalLifecycleBatchSizeOptions) :
    let chunks := partitionJournalLifecycleMutations view settlementId mutations options
    chunks.flatMap (·.mutations) = mutations ∧ (chunks.map (·.settlementId)).Nodup ∧
      (∀ chunk ∈ chunks, 1 ≤ chunk.mutations.length ∧
        chunk.mutations.length ≤ maxJournalLifecycleBatchMutations) ∧
      ((∀ chunk ∈ chunks, LoneFits view options chunk) →
        ∀ chunk ∈ chunks, ∀ (state : JournalReducerState) (fence seq ts : ℕ)
          (revisions : JsMap Text ℕ),
          textBytes (quotedText state.epoch) =
              textBytes (quotedText (options.epoch.getD defaultProbeEpoch)) →
          SafeIntegers state ⟨fence, options.recovered⟩ (chunk.mutations.map view) revisions seq ts →
          ∃ row, journalLifecycleBatchRowBuilder state chunk.settlementId
            (chunk.mutations.map view) ⟨fence, options.recovered⟩ revisions seq ts = .ok row) := by
  dsimp only
  obtain ⟨kept, distinct, sized⟩ := @partition_chunks _ view settlementId mutations options
  refine ⟨kept, distinct, ?_, ?_⟩
  · intro chunk member
    obtain ⟨probeId, _, packed⟩ := sized chunk member
    exact ⟨List.length_pos_of_ne_nil packed.nonempty, packed.count⟩
  · intro lone chunk member state fence seq ts revisions epoch safe
    obtain ⟨probeId, probed, packed⟩ := sized chunk member
    have nonempty : chunk.mutations.map view ≠ [] := by
      rw [Ne, List.map_eq_nil_iff]
      exact packed.nonempty
    have count : (chunk.mutations.map view).length ≤ maxJournalLifecycleBatchMutations := by
      rw [List.length_map]
      exact packed.count
    by_cases several : 2 ≤ chunk.mutations.length
    · obtain ⟨version, fits⟩ := packed.fits several
      exact ⟨_, builder_ok safe nonempty count probed rfl epoch fits⟩
    · have one : chunk.mutations.length = 1 := by
        have some := List.length_pos_of_ne_nil packed.nonempty
        omega
      obtain ⟨only, alone⟩ := List.length_eq_one_iff.mp one
      have fits := of_decide_eq_true (lone chunk member only alone)
      have sized : chunkBytes (chunk.mutations.map view) + serializedLifecycleBatchOverhead
          chunk.settlementId (mutationSchemaVersion (view only)) options ≤
            maxJournalLifecycleBatchBytes := by
        rw [alone, List.map_singleton]
        unfold chunkBytes
        rw [List.map_singleton, List.sum_singleton]
        exact fits
      exact ⟨_, builder_ok safe nonempty count (Nat.le_refl _) rfl epoch sized⟩

end Rows

section Boundary

def statusItem (text : Text) : JournalLifecycleMutationInput :=
  .item {
    address := .itemId (unitsOf "a")
    echoOf := none
    body := writtenMember "kind" (.string (unitsOf "status")) ++ writtenMember "text" (.string text)
    observedAt := none
    linkage := .none
    turnScope := .object (writtenMember "kind" (.string (unitsOf "thread")))
    ownerFence := none }

theorem statusItem_written (text : Text) : (toLifecycleMutationRow (statusItem text)).written =
    .object ([(unitsOf "kind", .string (unitsOf "item")), (unitsOf "itemId", .string (unitsOf "a")),
      (unitsOf "revision", .natural maxSafeInteger),
      (unitsOf "body", .object [(unitsOf "kind", .string (unitsOf "status")),
        (unitsOf "text", .string text)]),
      (unitsOf "turnScope", .object [(unitsOf "kind", .string (unitsOf "thread"))]),
      (unitsOf "ownerFence", .natural maxSafeInteger)]) := rfl

theorem statusItem_bytes {text : Text} (plain : ∀ unit ∈ text, isPlainUnit unit = true) :
    lifecycleMutationBytes (statusItem text) = 151 + text.length := by
  have empty : lifecycleMutationBytes (statusItem []) = 151 := by decide +kernel
  have quoted := textBytes_quotedText_append [] plain
  rw [List.nil_append] at quoted
  rw [← empty]
  unfold lifecycleMutationBytes
  rw [statusItem_written, statusItem_written]
  simp only [bytes_object, bracketBytes, List.map_cons, List.map_nil, List.sum_cons, List.length_cons,
    memberBytes, bytes_string, quoted]
  omega

def boundaryMutations (text : Text) : List JournalLifecycleMutationInput :=
  [statusItem text, .tombstone (.itemId (unitsOf "b"))]

/-- The next revision of the item is the largest safe integer. -/
def boundaryState : JournalReducerState where
  epoch := defaultProbeEpoch
  aliases := .empty
  items := .empty
  tombstones := JsMap.empty.set (unitsOf "a") (maxSafeInteger - 1)
  itemFences := .empty
  latestStop := none

variable {text : Text}

theorem builtMutations_boundary (text : Text) : builtMutations boundaryState
    ⟨maxSafeInteger, false⟩ .empty [statusItem text] =
      [toLifecycleMutationRow (statusItem text)] := rfl

theorem widestRow_bytes (version : ℕ) (epoch settlementId : Text)
    (mutation : JournalLifecycleMutation) :
    (JournalLifecycleBatchRow.written ⟨version, epoch, maxSafeInteger, maxSafeInteger,
        maxSafeInteger, settlementId, [mutation], false⟩).bytes + 1 =
      mutation.written.bytes +
        serializedLifecycleBatchOverhead settlementId version ⟨false, some epoch⟩ := by
  have arrays : memberBytes (unitsOf "mutations", .array [mutation.written]) =
      memberBytes (unitsOf "mutations", .array []) + mutation.written.bytes := by
    unfold memberBytes
    rw [bytes_array, bytes_array]
    unfold bracketBytes
    simp only [List.map_cons, List.map_nil, List.sum_cons, List.sum_nil, List.length_cons,
      List.length_nil]
    omega
  unfold serializedLifecycleBatchOverhead probeRow JournalLifecycleBatchRow.written
    JournalLifecycleBatchRow.writtenMutations
  simp only [bytes_object, bracketBytes, writtenMember, List.map_append, List.sum_append,
    List.length_append, List.map_cons, List.map_nil, List.sum_singleton,
    List.length_singleton, Option.getD_some, arrays]
  omega

theorem boundaryRow_bytes (size : lifecycleMutationBytes (statusItem text) = 1499816) :
    (lifecycleBatchRow boundaryState (unitsOf "s:1/2") [statusItem text]
      ⟨maxSafeInteger, false⟩ .empty maxSafeInteger maxSafeInteger).written.bytes = 1500003 := by
  have overhead : serializedLifecycleBatchOverhead (unitsOf "s:1/2") 2
      ⟨false, some defaultProbeEpoch⟩ = 188 := by
    decide +kernel
  have widest := widestRow_bytes 2 defaultProbeEpoch (unitsOf "s:1/2")
    (toLifecycleMutationRow (statusItem text))
  unfold lifecycleMutationBytes at size
  rw [size, overhead] at widest
  exact Nat.succ.inj widest

theorem boundary_overflows (size : lifecycleMutationBytes (statusItem text) = 1499816) :
    ((Packing.empty : Packing JournalLifecycleMutationInput).add id (statusItem text)).overflows id
        (fun version => serializedLifecycleBatchOverhead (unitsOf "s:2/2") version ⟨false, none⟩)
        (.tombstone (.itemId (unitsOf "b"))) = true := by
  have tombstone : lifecycleMutationBytes (.tombstone (.itemId (unitsOf "b"))) = 61 := by
    decide +kernel
  have overhead : serializedLifecycleBatchOverhead (unitsOf "s:2/2") 2 ⟨false, none⟩ = 188 := by
    decide +kernel
  have version : max ((Packing.empty : Packing JournalLifecycleMutationInput).add id
      (statusItem text)).pendingVersion
        (mutationSchemaVersion (.tombstone (.itemId (unitsOf "b")))) = 2 := rfl
  have bytes : ((Packing.empty : Packing JournalLifecycleMutationInput).add id
      (statusItem text)).pendingBytes =
        0 + (lifecycleMutationBytes (statusItem text) + 0) := rfl
  have comma : ((Packing.empty : Packing JournalLifecycleMutationInput).add id
      (statusItem text)).comma = 1 := rfl
  have bound : maxJournalLifecycleBatchBytes = 1500000 := rfl
  refine Bool.and_eq_true_iff.mpr ⟨rfl, decide_eq_true ?_⟩
  dsimp only [id_eq]
  rw [version, bytes, size, tombstone, overhead, comma, bound]
  omega

theorem boundary_partition (size : lifecycleMutationBytes (statusItem text) = 1499816) :
    partitionJournalLifecycleMutations id (unitsOf "s") (boundaryMutations text) ⟨false, none⟩ =
      [⟨unitsOf "s:1/2", [statusItem text]⟩,
        ⟨unitsOf "s:2/2", [.tombstone (.itemId (unitsOf "b"))]⟩] := by
  have probeId : chunkSettlementId (unitsOf "s") ((boundaryMutations text).length - 1)
      (boundaryMutations text).length = unitsOf "s:2/2" := by
    change chunkSettlementId (unitsOf "s") 1 2 = _
    decide +kernel
  have packed : packedChunks id
      (fun version => serializedLifecycleBatchOverhead (unitsOf "s:2/2") version ⟨false, none⟩)
      (boundaryMutations text) = [[statusItem text], [.tombstone (.itemId (unitsOf "b"))]] := by
    have first : packMutation id (fun version =>
        serializedLifecycleBatchOverhead (unitsOf "s:2/2") version ⟨false, none⟩) .empty
          (statusItem text) = Packing.empty.add id (statusItem text) := rfl
    have second : packMutation id (fun version =>
        serializedLifecycleBatchOverhead (unitsOf "s:2/2") version ⟨false, none⟩)
          (Packing.empty.add id (statusItem text)) (.tombstone (.itemId (unitsOf "b"))) =
        ((Packing.empty.add id (statusItem text)).close).add id
          (.tombstone (.itemId (unitsOf "b"))) := by
      unfold packMutation
      rw [boundary_overflows size]
      rfl
    unfold packedChunks boundaryMutations
    rw [List.foldl_cons, List.foldl_cons, List.foldl_nil, first, second]
    rfl
  have names : namedChunks (unitsOf "s")
      [[statusItem text], [.tombstone (.itemId (unitsOf "b"))]] =
        [⟨chunkSettlementId (unitsOf "s") 0 2, [statusItem text]⟩,
          ⟨chunkSettlementId (unitsOf "s") 1 2, [.tombstone (.itemId (unitsOf "b"))]⟩] := rfl
  have firstName : chunkSettlementId (unitsOf "s") 0 2 = unitsOf "s:1/2" := by decide +kernel
  have secondName : chunkSettlementId (unitsOf "s") 1 2 = unitsOf "s:2/2" := by decide +kernel
  change namedChunks (unitsOf "s") (packedChunks id
    (fun version => serializedLifecycleBatchOverhead (chunkSettlementId (unitsOf "s")
      ((boundaryMutations text).length - 1) (boundaryMutations text).length) version
        ⟨false, none⟩) (boundaryMutations text)) = _
  rw [probeId, packed, names, firstName, secondName]

theorem boundary_safe (text : Text) : SafeIntegers boundaryState ⟨maxSafeInteger, false⟩
    [statusItem text] .empty maxSafeInteger maxSafeInteger where
  seq := Nat.le_refl _
  ts := Nat.le_refl _
  fence := Nat.le_refl _
  itemFences := fun _ member => absurd member List.not_mem_nil
  ownerFences := by
    intro mutation member fence stated
    rw [List.mem_singleton] at member
    rw [member] at stated
    cases stated
  revisions := by
    intro built member
    rw [builtMutations_boundary, List.mem_singleton] at member
    rw [member]
    exact Nat.le_refl _

theorem boundary_refused (size : lifecycleMutationBytes (statusItem text) = 1499816) :
    (∀ mutation ∈ boundaryMutations text,
      journalLifecycleMutationFitsOneBatch (unitsOf "s") mutation ⟨false, none⟩ = true) ∧
    journalLifecycleBatchRowBuilder boundaryState (unitsOf "s:1/2") [statusItem text]
      ⟨maxSafeInteger, false⟩ .empty maxSafeInteger maxSafeInteger = .error .byteBoundExceeded := by
  constructor
  · have item : serializedLifecycleBatchOverhead (unitsOf "s") 2 ⟨false, none⟩ = 184 := by
      decide +kernel
    have tombstone : journalLifecycleMutationFitsOneBatch (unitsOf "s")
        (.tombstone (.itemId (unitsOf "b"))) ⟨false, none⟩ = true := by
      decide +kernel
    have version : mutationSchemaVersion (statusItem text) = 2 := rfl
    intro mutation member
    unfold boundaryMutations at member
    rw [List.mem_cons, List.mem_singleton] at member
    rcases member with rfl | rfl
    · apply decide_eq_true
      rw [version, size, item]
      exact Nat.le_refl _
    · exact tombstone
  · have bytes := boundaryRow_bytes size
    have bounded : ¬([statusItem text].length = 0 ∨
        maxJournalLifecycleBatchMutations < [statusItem text].length) := by
      change ¬((1 : ℕ) = 0 ∨ 200 < 1)
      decide
    unfold journalLifecycleBatchRowBuilder
    rw [if_neg bounded]
    apply if_pos
    rw [bytes]
    decide

/-- A text of `x` that fills a row under the settlement id `s`. -/
def fillingText : Text := List.replicate 1499665 120

theorem fillingItem_bytes : lifecycleMutationBytes (statusItem fillingText) = 1499816 := by
  have plain : ∀ unit ∈ fillingText, isPlainUnit unit = true := by
    intro unit member
    rw [List.eq_of_mem_replicate member]
    decide
  rw [statusItem_bytes plain, fillingText, List.length_replicate]

/-- A mutation that fits under the settlement id alone is refused under its chunk's id. -/
theorem lone_mutation_outgrows_settlement_id :
    (∀ mutation ∈ boundaryMutations fillingText,
      journalLifecycleMutationFitsOneBatch (unitsOf "s") mutation ⟨false, none⟩ = true) ∧
    ∃ chunk ∈ partitionJournalLifecycleMutations id (unitsOf "s") (boundaryMutations fillingText)
        ⟨false, none⟩,
      boundaryState.epoch = defaultProbeEpoch ∧
      SafeIntegers boundaryState ⟨maxSafeInteger, false⟩ chunk.mutations .empty maxSafeInteger
        maxSafeInteger ∧
      journalLifecycleBatchRowBuilder boundaryState chunk.settlementId chunk.mutations
        ⟨maxSafeInteger, false⟩ .empty maxSafeInteger maxSafeInteger =
          .error .byteBoundExceeded := by
  obtain ⟨fits, refused⟩ := boundary_refused fillingItem_bytes
  refine ⟨fits, ⟨unitsOf "s:1/2", [statusItem fillingText]⟩, ?_, rfl, boundary_safe fillingText,
    refused⟩
  rw [boundary_partition fillingItem_bytes]
  exact List.mem_cons_self

end Boundary

end OxeeUI.Journal.BatchRows
