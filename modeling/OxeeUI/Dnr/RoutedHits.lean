import OxeeUI.Dnr.AttachedPartitions

/-!
# Routing the hits of a request

A hit reaches one partition, which picks up the list it was hit for.  After all
hits of a request a partition holds the lists of its own hits, in their order.
For an attached partition these are its lists for the n-grams and the domains
of the request, and the list every request scans.
-/

namespace OxeeUI.Dnr

open OxeeUI.Library

namespace SameLists

theorem refl (partition : DnrRulePartition) : SameLists partition partition :=
  ⟨rfl, rfl, rfl, rfl, rfl⟩

theorem trans {first second third : DnrRulePartition} (early : SameLists first second)
    (late : SameLists second third) : SameLists first third :=
  ⟨early.byNgram.trans late.byNgram, early.byRequestDomain.trans late.byRequestDomain,
    early.byInitiatorDomain.trans late.byInitiatorDomain, early.unindexed.trans late.unindexed,
    early.size.trans late.size⟩

theorem listFor {first second : DnrRulePartition} (same : SameLists first second)
    (key : CandidateKey) : first.listFor key = second.listFor key := by
  cases key with
  | ngram id => exact congrArg (·.get? id) same.byNgram
  | unindexed => exact congrArg some same.unindexed
  | request domain => exact congrArg (·.get? domain) same.byRequestDomain
  | initiator domain => exact congrArg (·.get? domain) same.byInitiatorDomain

end SameLists

def DnrRulePartition.ready (partition : DnrRulePartition) (epoch : ℕ) :
    List (List DnrIndexedRule) :=
  if partition.hitEpoch = some epoch then partition.hitLists else []

theorem candidateLists_of_epoch {partition : DnrRulePartition} {context : DnrRequestContext}
    (epoch : ℕ) (stamped : context.ngramEpoch = some epoch) :
    partition.candidateLists context = partition.ready epoch := by
  unfold DnrRulePartition.candidateLists DnrRulePartition.ready
  rw [stamped]
  simp

section Route

variable {epoch : ℕ}

theorem collectKey_same (partition : DnrRulePartition) (key : CandidateKey) :
    SameLists (partition.collectKey epoch key) partition := by
  unfold DnrRulePartition.collectKey
  cases partition.listFor key with
  | none => exact .refl partition
  | some rules =>
    unfold DnrRulePartition.collect
    dsimp only
    split
    · exact ⟨rfl, rfl, rfl, rfl, rfl⟩
    · exact ⟨rfl, rfl, rfl, rfl, rfl⟩

theorem ready_collectKey (partition : DnrRulePartition) (key : CandidateKey) :
    (partition.collectKey epoch key).ready epoch =
      partition.ready epoch ++ (partition.listFor key).toList := by
  unfold DnrRulePartition.collectKey
  cases partition.listFor key with
  | none => simp
  | some rules =>
    unfold DnrRulePartition.collect DnrRulePartition.ready
    dsimp only
    by_cases current : partition.hitEpoch = some epoch
    · simp [current]
    · simp [current]

theorem hitEpoch_collectKey (partition : DnrRulePartition) (key : CandidateKey) :
    (partition.collectKey epoch key).hitEpoch = partition.hitEpoch ∨
      (partition.collectKey epoch key).hitEpoch = some epoch := by
  unfold DnrRulePartition.collectKey
  cases partition.listFor key with
  | none => exact .inl rfl
  | some rules =>
    unfold DnrRulePartition.collect
    dsimp only
    split
    · exact .inl rfl
    · exact .inr rfl

structure RoutedAs (epoch : ℕ) (hits : List (PartitionId × CandidateKey)) (id : PartitionId)
    (before after : DnrRulePartition) : Prop where
  same : SameLists after before
  ready : after.ready epoch = before.ready epoch ++
    (hits.filter (·.1 = id)).filterMap fun hit => before.listFor hit.2
  epoch : after.hitEpoch = before.hitEpoch ∨ after.hitEpoch = some epoch
  untouched : id ∉ hits.map Prod.fst → after = before

theorem routeHit_routed (heap : PartitionId → DnrRulePartition)
    (hit : PartitionId × CandidateKey) (id : PartitionId) :
    RoutedAs epoch [hit] id (heap id) (routeHit epoch heap hit id) := by
  unfold routeHit
  by_cases here : id = hit.1
  · subst here
    rw [Function.update_self]
    refine ⟨collectKey_same _ _, ?_, hitEpoch_collectKey _ _, fun absent => ?_⟩
    · rw [ready_collectKey]
      cases listed : (heap hit.1).listFor hit.2 with
      | none => simp [listed]
      | some rules => simp [listed]
    · exact absurd List.mem_cons_self absent
  · rw [Function.update_of_ne here]
    refine ⟨.refl _, ?_, .inl rfl, fun _ => rfl⟩
    simp [Ne.symm here]

theorem route_routed (hits : List (PartitionId × CandidateKey))
    (heap : PartitionId → DnrRulePartition) (id : PartitionId) :
    RoutedAs epoch hits id (heap id) (hits.foldl (routeHit epoch) heap id) := by
  induction hits generalizing heap with
  | nil => exact ⟨.refl _, by simp, .inl rfl, fun _ => rfl⟩
  | cons hit rest ih =>
    have first := @routeHit_routed epoch heap hit id
    have later := ih (routeHit epoch heap hit)
    rw [List.foldl_cons]
    constructor
    case same => exact later.same.trans first.same
    case ready =>
      have lists : (fun other : PartitionId × CandidateKey =>
          (routeHit epoch heap hit id).listFor other.2) =
          fun other => (heap id).listFor other.2 :=
        funext fun other => first.same.listFor other.2
      rw [later.ready, first.ready, lists, List.append_assoc, ← List.filterMap_append,
        ← List.filter_append]
      rfl
    case epoch =>
      rcases later.epoch with kept | stamped
      · rw [kept]
        exact first.epoch
      · exact .inr stamped
    case untouched =>
      intro absent
      rw [List.map_cons, List.mem_cons, not_or] at absent
      rw [later.untouched absent.2, first.untouched (by simpa using absent.1)]

end Route

section Attached

variable {heap : PartitionId → DnrRulePartition} {postings : DnrCandidatePostings}
  {owners : PartitionId → Prop} {id : PartitionId}

theorem filter_partitionsAt {Key : Type*} [DecidableEq Key] {table : JsMap Key Partitions}
    {keysOf : PartitionId → List Key} (held : TableHolds table owners keysOf) (owned : owners id)
    (key : Key) :
    (partitionsAt table key).filter (· = id) = if key ∈ keysOf id then [id] else [] := by
  obtain ⟨once, members⟩ := held key
  split
  case isTrue keyed =>
    have present : id ∈ partitionsAt table key := (members id).mpr ⟨owned, keyed⟩
    rw [List.filter_eq, once.count, if_pos present]
    rfl
  case isFalse unkeyed =>
    refine List.filter_eq_nil_iff.mpr fun other member same => ?_
    rw [of_decide_eq_true same] at member
    exact unkeyed ((members id).mp member).2

/-- The lists of a partition that hits pick up, one after the other. -/
def pickedUp (partition : DnrRulePartition) (id : PartitionId)
    (hits : List (PartitionId × CandidateKey)) : List DnrIndexedRule :=
  ((hits.filter (·.1 = id)).filterMap fun hit => partition.listFor hit.2).flatten

theorem pickedUp_append (partition : DnrRulePartition) (id : PartitionId)
    (first second : List (PartitionId × CandidateKey)) :
    pickedUp partition id (first ++ second) =
      pickedUp partition id first ++ pickedUp partition id second := by
  unfold pickedUp
  rw [List.filter_append, List.filterMap_append, List.flatten_append]

theorem pickedUp_keyed {Key : Type*} [DecidableEq Key] {table : JsMap Key Partitions}
    {lists : PartitionId → JsMap Key (List DnrIndexedRule)}
    (held : TableHolds table owners fun id => (lists id).keys) (owned : owners id)
    {tag : Key → CandidateKey} (read : ∀ key, (heap id).listFor (tag key) = (lists id).get? key)
    (keys : List Key) :
    pickedUp (heap id) id
        (keys.flatMap fun key => (partitionsAt table key).map fun other => (other, tag key)) =
      keys.flatMap (listAt (lists id)) := by
  induction keys with
  | nil => rfl
  | cons key rest ih =>
    have here : pickedUp (heap id) id
        ((partitionsAt table key).map fun other => (other, tag key)) =
          listAt (lists id) key := by
      have picked := filter_partitionsAt held owned key
      unfold pickedUp listAt
      rw [List.filter_map]
      simp only [Function.comp_def] at picked ⊢
      rw [picked]
      split
      case isTrue keyed =>
        obtain ⟨rules, stored⟩ := JsMap.exists_get?_of_mem_keys keyed
        simp [read, stored]
      case isFalse unkeyed =>
        rw [JsMap.get?_eq_none_iff.mpr unkeyed]
        rfl
    rw [List.flatMap_cons, List.flatMap_cons, pickedUp_append, here, ih]

theorem pickedUp_unkeyed (held : Posted heap postings owners) (owned : owners id) :
    pickedUp (heap id) id (postings.unkeyed.map fun other => (other, .unindexed)) =
      (heap id).unindexed := by
  unfold pickedUp
  rw [List.filter_map]
  simp only [Function.comp_def]
  by_cases filled : (heap id).unindexed = []
  · have absent : id ∉ postings.unkeyed := fun member =>
      ((held.unkeyed id).mp member).2 filled
    have none : postings.unkeyed.filter (· = id) = [] := by
      refine List.filter_eq_nil_iff.mpr fun other member same => ?_
      rw [of_decide_eq_true same] at member
      exact absent member
    rw [none, filled]
    rfl
  · have present : id ∈ postings.unkeyed := (held.unkeyed id).mpr ⟨owned, filled⟩
    rw [List.filter_eq, held.unkeyedOnce.count, if_pos present]
    simp [DnrRulePartition.listFor]

theorem pickedUp_hits (held : Posted heap postings owners) (owned : owners id)
    (context : DnrRequestContext) :
    pickedUp (heap id) id (postings.hits context) =
      context.ngramIds.flatMap (listAt (heap id).byNgram) ++ (heap id).unindexed ++
        context.requestHostSuffixes.flatMap (listAt (heap id).byRequestDomain) ++
        if context.initiatorHost.isSome then
          context.initiatorHostSuffixes.flatMap (listAt (heap id).byInitiatorDomain)
        else [] := by
  unfold DnrCandidatePostings.hits
  rw [pickedUp_append, pickedUp_append, pickedUp_append, pickedUp_unkeyed held owned]
  congr 1
  · congr 1
    · congr 1
      exact pickedUp_keyed held.ngram owned (fun _ => rfl) _
    · exact pickedUp_keyed held.request owned (fun _ => rfl) _
  · split
    · exact pickedUp_keyed held.initiator owned (fun _ => rfl) _
    · rfl

theorem owner_of_hit (held : Posted heap postings owners) {context : DnrRequestContext}
    (hit : id ∈ (postings.hits context).map Prod.fst) : owners id := by
  have keyed {Key : Type} [DecidableEq Key] {table : JsMap Key Partitions}
      {keysOf : PartitionId → List Key} (holds : TableHolds table owners keysOf)
      {tag : Key → CandidateKey} {keys : List Key}
      (member : id ∈ (keys.flatMap fun key =>
        (partitionsAt table key).map fun other => (other, tag key)).map Prod.fst) :
      owners id := by
    simp only [List.mem_map, List.mem_flatMap] at member
    obtain ⟨_, ⟨key, _, other, place, rfl⟩, rfl⟩ := member
    exact (((holds key).2 _).mp place).1
  unfold DnrCandidatePostings.hits at hit
  rw [List.map_append, List.map_append, List.map_append] at hit
  rcases List.mem_append.mp hit with early | initiated
  · rcases List.mem_append.mp early with earlier | requested
    · rcases List.mem_append.mp earlier with gram | scanned
      · exact keyed held.ngram gram
      · simp only [List.map_map, List.mem_map] at scanned
        obtain ⟨other, place, rfl⟩ := scanned
        exact ((held.unkeyed _).mp place).1
    · exact keyed held.request requested
  · split at initiated
    · exact keyed held.initiator initiated
    · cases initiated

end Attached

end OxeeUI.Dnr
