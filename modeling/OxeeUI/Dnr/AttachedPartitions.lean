import OxeeUI.Dnr.CandidatePostings
import Mathlib.Tactic.Tauto

/-!
# Partitions attached to an engine

The tables of an engine hold, under each key, each attached partition that has
the key, once.  Attaching a partition appends it to its keys.  Detaching one
takes it away from its keys, and is right only when it was attached: a key that
holds one partition is dropped without looking at which.
-/

namespace OxeeUI.Dnr

open OxeeUI.Library

section Tables

variable {Key : Type*} [DecidableEq Key] {table : JsMap Key Partitions}

theorem partitionsAt_addPartition (table : JsMap Key Partitions) (key other : Key)
    (partition : PartitionId) :
    partitionsAt (addPartition table key partition) other =
      partitionsAt table other ++ if other = key then [partition] else [] := by
  unfold partitionsAt addPartition
  by_cases here : other = key
  · subst here
    cases table.get? other with
    | none => simp [Partitions.toList]
    | some held =>
      cases held with
      | lone existing => simp [Partitions.toList]
      | many existing => simp [Partitions.toList]
  · cases table.get? key with
    | none => simp [here]
    | some held =>
      cases held with
      | lone existing => simp [here]
      | many existing => simp [here]

theorem partitionsAt_addKeys {keys : List Key} (distinct : keys.Nodup)
    (table : JsMap Key Partitions) (partition : PartitionId) (other : Key) :
    partitionsAt (addKeys table keys partition) other =
      partitionsAt table other ++ if other ∈ keys then [partition] else [] := by
  unfold addKeys
  induction keys generalizing table with
  | nil => simp
  | cons key rest ih =>
    rw [List.nodup_cons] at distinct
    rw [List.foldl_cons, ih distinct.2, partitionsAt_addPartition]
    by_cases here : other = key
    · subst here
      simp [distinct.1]
    · simp [here]

theorem partitionsAt_removePartition {key : Key} {partition : PartitionId}
    (owned : partition ∈ partitionsAt table key) (other : Key) :
    partitionsAt (removePartition table key partition) other =
      if other = key then (partitionsAt table key).filter (· ≠ partition)
      else partitionsAt table other := by
  have kept : remainingPartitions (table.get? key) partition =
      (partitionsAt table key).filter (· ≠ partition) := by
    unfold partitionsAt at owned ⊢
    cases held : table.get? key with
    | none => rfl
    | some partitions =>
      cases partitions with
      | many partitions => rfl
      | lone existing =>
        rw [held] at owned
        have same : partition = existing := by simpa [Partitions.toList] using owned
        simp [remainingPartitions, Partitions.toList, same]
  unfold removePartition
  rw [kept]
  generalize (partitionsAt table key).filter (· ≠ partition) = remaining
  by_cases here : other = key
  · subst here
    match remaining with
    | [] => simp [partitionsAt]
    | [last] => simp [partitionsAt, Partitions.toList]
    | first :: second :: others => simp [partitionsAt, Partitions.toList]
  · match remaining with
    | [] => simp [partitionsAt, here]
    | [last] => simp [partitionsAt, here]
    | first :: second :: others => simp [partitionsAt, here]

theorem partitionsAt_removeKeys {keys : List Key} (distinct : keys.Nodup)
    {partition : PartitionId} (owned : ∀ key ∈ keys, partition ∈ partitionsAt table key)
    (other : Key) :
    partitionsAt (removeKeys table keys partition) other =
      if other ∈ keys then (partitionsAt table other).filter (· ≠ partition)
      else partitionsAt table other := by
  unfold removeKeys
  induction keys generalizing table with
  | nil => simp
  | cons key rest ih =>
    rw [List.nodup_cons] at distinct
    have removed := partitionsAt_removePartition (owned key List.mem_cons_self)
    have later : ∀ key' ∈ rest,
        partition ∈ partitionsAt (removePartition table key partition) key' := by
      intro key' member
      have different : key' ≠ key := by
        rintro rfl
        exact distinct.1 member
      rw [removed, if_neg different]
      exact owned key' (List.mem_cons_of_mem _ member)
    rw [List.foldl_cons, ih distinct.2 later, removed]
    by_cases here : other = key
    · subst here
      simp [distinct.1]
    · simp [here]

/-- A table holds, under each key, the owners that have the key, each once. -/
def TableHolds (table : JsMap Key Partitions) (owners : PartitionId → Prop)
    (keysOf : PartitionId → List Key) : Prop :=
  ∀ key, (partitionsAt table key).Nodup ∧
    ∀ partition, partition ∈ partitionsAt table key ↔ owners partition ∧ key ∈ keysOf partition

variable {owners : PartitionId → Prop} {keysOf : PartitionId → List Key} {partition : PartitionId}

theorem TableHolds.addKeys (held : TableHolds table owners keysOf) (new : ¬ owners partition)
    (distinct : (keysOf partition).Nodup) :
    TableHolds (addKeys table (keysOf partition) partition)
      (fun other => owners other ∨ other = partition) keysOf := by
  intro key
  rw [partitionsAt_addKeys distinct]
  obtain ⟨once, members⟩ := held key
  have absent : partition ∉ partitionsAt table key := by
    rw [members]
    exact fun owned => new owned.1
  constructor
  · split
    · exact List.Nodup.append once (List.nodup_singleton _) (by simpa using absent)
    · simpa using once
  · intro other
    rw [List.mem_append, members]
    by_cases here : other = partition
    · subst here
      by_cases keyed : key ∈ keysOf other
      · simp [keyed]
      · simp [keyed]
    · by_cases keyed : key ∈ keysOf partition
      · simp [keyed, here]
      · simp [keyed, here]

theorem TableHolds.removeKeys (held : TableHolds table owners keysOf) (owned : owners partition)
    (distinct : (keysOf partition).Nodup) :
    TableHolds (removeKeys table (keysOf partition) partition)
      (fun other => owners other ∧ other ≠ partition) keysOf := by
  have present : ∀ key ∈ keysOf partition, partition ∈ partitionsAt table key :=
    fun key member => ((held key).2 partition).mpr ⟨owned, member⟩
  intro key
  rw [partitionsAt_removeKeys distinct present]
  obtain ⟨once, members⟩ := held key
  split
  case isTrue keyed =>
    refine ⟨once.filter _, fun other => ?_⟩
    rw [List.mem_filter, members]
    simp only [ne_eq, decide_not, Bool.not_eq_true', decide_eq_false_iff_not]
    tauto
  case isFalse unkeyed =>
    refine ⟨once, fun other => ?_⟩
    rw [members]
    constructor
    · rintro ⟨before, keyed⟩
      refine ⟨⟨before, ?_⟩, keyed⟩
      rintro rfl
      exact unkeyed keyed
    · rintro ⟨⟨before, _⟩, keyed⟩
      exact ⟨before, keyed⟩

theorem TableHolds.congr (held : TableHolds table owners keysOf)
    {owners' : PartitionId → Prop} {keysOf' : PartitionId → List Key}
    (same : ∀ other, owners' other ↔ owners other)
    (keys : ∀ other, owners other → keysOf' other = keysOf other) :
    TableHolds table owners' keysOf' := by
  intro key
  refine ⟨(held key).1, fun other => ?_⟩
  rw [(held key).2, same]
  constructor
  · rintro ⟨owned, keyed⟩
    exact ⟨owned, by rwa [keys other owned]⟩
  · rintro ⟨owned, keyed⟩
    exact ⟨owned, by rwa [← keys other owned]⟩

end Tables

/-- Two partitions have the same lists; what requests left in them may differ. -/
structure SameLists (first second : DnrRulePartition) : Prop where
  byNgram : first.byNgram = second.byNgram
  byRequestDomain : first.byRequestDomain = second.byRequestDomain
  byInitiatorDomain : first.byInitiatorDomain = second.byInitiatorDomain
  unindexed : first.unindexed = second.unindexed
  size : first.size = second.size

/-- The postings of an engine hold the partitions attached to it. -/
structure Posted (heap : PartitionId → DnrRulePartition) (postings : DnrCandidatePostings)
    (owners : PartitionId → Prop) : Prop where
  ngram : TableHolds postings.byNgram owners fun id => (heap id).byNgram.keys
  request : TableHolds postings.byRequestDomain owners fun id => (heap id).byRequestDomain.keys
  initiator : TableHolds postings.byInitiatorDomain owners
    fun id => (heap id).byInitiatorDomain.keys
  unkeyedOnce : postings.unkeyed.Nodup
  unkeyed : ∀ partition, partition ∈ postings.unkeyed ↔
    owners partition ∧ (heap partition).unindexed ≠ []

namespace Posted

variable {heap : PartitionId → DnrRulePartition} {postings : DnrCandidatePostings}
  {owners : PartitionId → Prop}

theorem empty (heap : PartitionId → DnrRulePartition) :
    Posted heap .empty fun _ => False := by
  constructor
  case ngram => exact fun key => ⟨List.nodup_nil, fun _ => by simp [partitionsAt, DnrCandidatePostings.empty]⟩
  case request => exact fun key => ⟨List.nodup_nil, fun _ => by simp [partitionsAt, DnrCandidatePostings.empty]⟩
  case initiator => exact fun key => ⟨List.nodup_nil, fun _ => by simp [partitionsAt, DnrCandidatePostings.empty]⟩
  case unkeyedOnce => exact List.nodup_nil
  case unkeyed => simp [DnrCandidatePostings.empty]

theorem congr (held : Posted heap postings owners) {heap' : PartitionId → DnrRulePartition}
    {owners' : PartitionId → Prop} (same : ∀ other, owners' other ↔ owners other)
    (lists : ∀ other, owners other → SameLists (heap' other) (heap other)) :
    Posted heap' postings owners' where
  ngram := held.ngram.congr same fun other owned => by rw [(lists other owned).byNgram]
  request := held.request.congr same fun other owned => by rw [(lists other owned).byRequestDomain]
  initiator :=
    held.initiator.congr same fun other owned => by rw [(lists other owned).byInitiatorDomain]
  unkeyedOnce := held.unkeyedOnce
  unkeyed := by
    intro other
    rw [held.unkeyed, same]
    constructor
    · rintro ⟨owned, filled⟩
      exact ⟨owned, by rwa [(lists other owned).unindexed]⟩
    · rintro ⟨owned, filled⟩
      exact ⟨owned, by rwa [← (lists other owned).unindexed]⟩

theorem addOne (held : Posted heap postings owners) {partition : PartitionId}
    (new : ¬ owners partition) :
    Posted heap (postings.addOne heap partition) fun other => owners other ∨ other = partition where
  ngram := held.ngram.addKeys new (JsMap.keys_nodup _)
  request := held.request.addKeys new (JsMap.keys_nodup _)
  initiator := held.initiator.addKeys new (JsMap.keys_nodup _)
  unkeyedOnce := by
    unfold DnrCandidatePostings.addOne
    dsimp only
    split
    · exact held.unkeyedOnce
    · exact held.unkeyedOnce.insert
  unkeyed := by
    intro other
    unfold DnrCandidatePostings.addOne
    dsimp only
    split
    case isTrue none =>
      rw [held.unkeyed]
      constructor
      · rintro ⟨owned, filled⟩
        exact ⟨.inl owned, filled⟩
      · rintro ⟨owned | rfl, filled⟩
        · exact ⟨owned, filled⟩
        · exact absurd (List.length_eq_zero_iff.mp none) filled
    case isFalse some =>
      rw [List.mem_insert_iff, held.unkeyed]
      have filled : (heap partition).unindexed ≠ [] :=
        fun empty => some (List.length_eq_zero_iff.mpr empty)
      constructor
      · rintro (rfl | ⟨owned, filled⟩)
        · exact ⟨.inr rfl, filled⟩
        · exact ⟨.inl owned, filled⟩
      · rintro ⟨owned | rfl, filled⟩
        · exact .inr ⟨owned, filled⟩
        · exact .inl rfl

theorem removeOne (held : Posted heap postings owners) {partition : PartitionId}
    (owned : owners partition) :
    Posted heap (postings.removeOne heap partition)
      fun other => owners other ∧ other ≠ partition where
  ngram := held.ngram.removeKeys owned (JsMap.keys_nodup _)
  request := held.request.removeKeys owned (JsMap.keys_nodup _)
  initiator := held.initiator.removeKeys owned (JsMap.keys_nodup _)
  unkeyedOnce := held.unkeyedOnce.erase _
  unkeyed := by
    intro other
    unfold DnrCandidatePostings.removeOne
    dsimp only
    rw [held.unkeyedOnce.mem_erase_iff, held.unkeyed]
    tauto

theorem addAll (held : Posted heap postings owners) {partitions : List PartitionId}
    (distinct : partitions.Nodup) (new : ∀ partition ∈ partitions, ¬ owners partition) :
    Posted heap (partitions.foldl (DnrCandidatePostings.addOne heap) postings)
      fun other => owners other ∨ other ∈ partitions := by
  induction partitions generalizing postings owners with
  | nil => exact held.congr (by simp) fun _ _ => ⟨rfl, rfl, rfl, rfl, rfl⟩
  | cons partition rest ih =>
    rw [List.nodup_cons] at distinct
    have added := held.addOne (new partition List.mem_cons_self)
    have later : ∀ other ∈ rest, ¬ (owners other ∨ other = partition) := by
      rintro other member (owned | rfl)
      · exact new other (List.mem_cons_of_mem _ member) owned
      · exact distinct.1 member
    refine (ih added distinct.2 later).congr (fun other => ?_) fun _ _ => ⟨rfl, rfl, rfl, rfl, rfl⟩
    rw [List.mem_cons, or_assoc]

theorem removeAll (held : Posted heap postings owners) {partitions : List PartitionId}
    (distinct : partitions.Nodup) (owned : ∀ partition ∈ partitions, owners partition) :
    Posted heap (partitions.foldl (DnrCandidatePostings.removeOne heap) postings)
      fun other => owners other ∧ other ∉ partitions := by
  induction partitions generalizing postings owners with
  | nil => exact held.congr (by simp) fun _ _ => ⟨rfl, rfl, rfl, rfl, rfl⟩
  | cons partition rest ih =>
    rw [List.nodup_cons] at distinct
    have removed := held.removeOne (owned partition List.mem_cons_self)
    have later : ∀ other ∈ rest, owners other ∧ other ≠ partition := by
      intro other member
      refine ⟨owned other (List.mem_cons_of_mem _ member), ?_⟩
      rintro rfl
      exact distinct.1 member
    refine (ih removed distinct.2 later).congr (fun other => ?_)
      fun _ _ => ⟨rfl, rfl, rfl, rfl, rfl⟩
    rw [List.mem_cons, not_or, and_assoc]

end Posted

theorem partitionsOf_nodup (index : ℕ) : (partitionsOf index).Nodup := by
  simp [partitionsOf]

theorem mem_partitionsOf {index : ℕ} {partition : PartitionId} :
    partition ∈ partitionsOf index ↔ partition.index = index := by
  constructor
  · intro member
    simp only [partitionsOf, List.mem_flatMap, List.mem_map] at member
    obtain ⟨stage, _, kind, _, rfl⟩ := member
    rfl
  · rintro rfl
    obtain ⟨index, stage, kind⟩ := partition
    simp only [partitionsOf, List.mem_flatMap, List.mem_map]
    refine ⟨stage, by cases stage <;> simp, kind, by cases kind <;> simp, rfl⟩

end OxeeUI.Dnr
