import OxeeUI.Library.BestOf
import OxeeUI.Dnr.RequestRuns

/-!
# The matcher of a ruleset

A matcher searches the candidates of a request: for the best rule of a url
filter partition, and for every rule that modifies headers.  Both find what a
scan of all rules of the partition finds.
-/

namespace OxeeUI.Dnr

open OxeeUI.Library

inductive DnrRulesetSource
  | session
  | dynamic
  | static (id : String) (manifestIndex : ℕ)

def dnrRulesetOrdinal : DnrRulesetSource → ℤ
  | .session => -1
  | .dynamic => 0
  | .static _ manifestIndex => manifestIndex + 1

def dnrPublicRulesetId : DnrRulesetSource → String
  | .session => "_session"
  | .dynamic => "_dynamic"
  | .static id _ => id

inductive DnrRequestActionType
  | block
  | collapse
  | allow
  | allowAllRequests
  | redirect
  | upgradeScheme
  | modifyHeaders

structure DnrMatchedRule where
  extensionId : String
  rulesetId : String
  ruleId : ℤ

structure DnrRequestAction where
  type : DnrRequestActionType
  rule : DnrMatchedRule
  indexPriority : ℤ
  rulesetOrdinal : ℤ
  redirectUrl : Option CodeUnits
  requestHeaders : Option (List DnrHeaderModification)
  responseHeaders : Option (List DnrHeaderModification)

structure DnrRulesetMatcher where
  extensionId : String
  source : DnrRulesetSource
  /-- The number of its ruleset index. -/
  index : ℕ
  /-- Like Chromium, these never disable regex rules. -/
  disabledRuleIds : List ℤ

/-- One list of `bestUrlRule`: left at a rule that is no better, or at a match. -/
def scanUrlRules (test : DnrIndexedRule → Bool) (best : Option DnrIndexedRule) :
    List DnrIndexedRule → Option DnrIndexedRule
  | [] => best
  | rule :: rest =>
    if best.any fun held => decide (0 ≤ compareRulePriority rule held) then best
    else if test rule then some rule
    else scanUrlRules test best rest

namespace DnrRulesetMatcher

variable (matcher : DnrRulesetMatcher) (heap : PartitionId → DnrRulePartition)
  (context : DnrRequestContext)

def bestUrlRule (partition : DnrRulePartition) : Option DnrIndexedRule :=
  (partition.candidateLists context).foldl
    (scanUrlRules fun rule => urlRuleMatches rule context matcher.disabledRuleIds) none

/-- The regex rules whose metadata matches, highest priority first. -/
def regexCandidates (partition : DnrRulePartition) : List DnrIndexedRule :=
  if partition.size = 0 then []
  else
    DnrRulePartition.sorted
      ((partition.candidateLists context).flatMap fun rules =>
        rules.filter fun rule => regexRuleMetadataMatches rule context)

def action (rule : DnrIndexedRule) (type : DnrRequestActionType)
    (requestHeaders responseHeaders : Option (List DnrHeaderModification)) : DnrRequestAction where
  type
  rule := ⟨matcher.extensionId, dnrPublicRulesetId matcher.source, rule.id⟩
  indexPriority := rule.indexPriority
  rulesetOrdinal := dnrRulesetOrdinal matcher.source
  redirectUrl := none
  requestHeaders
  responseHeaders

/-- The matches of one list, left at a rule whose priority is too low. -/
def matchesAbove (minPriority : ℤ) (rules : List DnrIndexedRule) : List DnrIndexedRule :=
  (rules.takeWhile fun rule => decide (minPriority < rule.indexPriority)).filter fun rule =>
    urlRuleMatches rule context matcher.disabledRuleIds

/-- Every match that modifies headers above the extension's best allow. -/
def modifyHeadersActions (stage : DnrStage) (minPriority : ℤ) : List DnrRequestAction :=
  let urlMatched := ((heap ⟨matcher.index, stage, .modifyHeaders⟩).candidateLists context).flatMap
    (matcher.matchesAbove context minPriority)
  let regexMatched := (regexCandidates context (heap ⟨matcher.index, stage, .regex⟩)).filter
    fun rule => decide (rule.action = .modifyHeaders) &&
      decide (minPriority < rule.indexPriority) && regexMatches rule context
  (urlMatched ++ regexMatched).map fun rule =>
    matcher.action rule .modifyHeaders (some rule.requestHeaders) (some rule.responseHeadersToModify)

end DnrRulesetMatcher

section Scans

theorem noBetter_iff (rule held : DnrIndexedRule) :
    0 ≤ compareRulePriority rule held ↔ rulePrecedes held rule := by
  rw [rulePrecedes_iff]
  unfold compareRulePriority
  split
  · omega
  · omega

theorem scanUrlRules_eq (test : DnrIndexedRule → Bool) (best : Option DnrIndexedRule)
    (rules : List DnrIndexedRule) :
    scanUrlRules test best rules = scanSorted rulePrecedes test best rules := by
  induction rules with
  | nil => rfl
  | cons rule rest ih =>
    have same : (best.any fun held => decide (0 ≤ compareRulePriority rule held)) =
        best.any (rulePrecedes · rule) := by
      congr 1
      funext held
      exact decide_eq_decide.mpr (noBetter_iff rule held)
    rw [scanUrlRules, scanSorted, same, ih]

theorem eq_of_tie {rules : List DnrIndexedRule}
    (distinct : (rules.map DnrIndexedRule.id).Nodup) {first second : DnrIndexedRule}
    (one : first ∈ rules) (two : second ∈ rules) (before : rulePrecedes first second)
    (after : rulePrecedes second first) : first = second := by
  rw [rulePrecedes_iff] at before after
  exact List.inj_on_of_nodup_map distinct one two (by omega)

theorem takeWhile_above {rules : List DnrIndexedRule} (sorted : rules.Pairwise rulePrecedes)
    (minPriority : ℤ) :
    (rules.takeWhile fun rule => decide (minPriority < rule.indexPriority)) =
      rules.filter fun rule => decide (minPriority < rule.indexPriority) := by
  induction rules with
  | nil => rfl
  | cons rule rest ih =>
    obtain ⟨first, ordered⟩ := List.pairwise_cons.mp sorted
    rw [List.takeWhile_cons, List.filter_cons]
    split
    case isTrue above => rw [ih ordered]
    case isFalse below =>
      symm
      refine List.filter_eq_nil_iff.mpr fun later member above => ?_
      have precedes := (rulePrecedes_iff _ _).mp (first later member)
      have low := of_decide_eq_false (Bool.eq_false_iff.mpr below)
      have high := of_decide_eq_true above
      omega

end Scans

section Matchers

variable {rules : List DnrIndexedRule} {kind : PartitionKind} {context : DnrRequestContext}
  {lists : List (List DnrIndexedRule)}

theorem Candidates.urlRules (candidates : Candidates rules kind context lists)
    (lowered : context.url.lowerSpec = toLowerAscii context.url.spec) (disabledRuleIds : List ℤ) :
    (lists.flatten.filter fun rule => urlRuleMatches rule context disabledRuleIds).Perm
      (rules.filter fun rule => urlRuleMatches rule context disabledRuleIds) :=
  candidates.once _ fun _ _ route matched => meets_of_urlRuleMatches lowered route matched

theorem Candidates.regexRules (candidates : Candidates rules kind context lists)
    (ascii : ∀ code ∈ context.url.spec, code ≤ 0x7f)
    (lowered : context.url.lowerSpec = toLowerAscii context.url.spec) :
    (lists.flatten.filter fun rule =>
        regexRuleMetadataMatches rule context && regexMatches rule context).Perm
      (rules.filter fun rule =>
        regexRuleMetadataMatches rule context && regexMatches rule context) := by
  refine candidates.once _ fun rule keyText route matched => ?_
  rw [Bool.and_eq_true] at matched
  exact meets_of_regexMatches ascii lowered route matched.1 matched.2

theorem bestOf_bestUrlRule (matcher : DnrRulesetMatcher) {partition : DnrRulePartition}
    (candidates : Candidates rules kind context (partition.candidateLists context))
    (lowered : context.url.lowerSpec = toLowerAscii context.url.spec) :
    BestOf rulePrecedes
      (rules.filter fun rule => urlRuleMatches rule context matcher.disabledRuleIds)
      (matcher.bestUrlRule context partition) := by
  unfold DnrRulesetMatcher.bestUrlRule
  have scans : scanUrlRules (fun rule => urlRuleMatches rule context matcher.disabledRuleIds) =
      scanSorted rulePrecedes fun rule => urlRuleMatches rule context matcher.disabledRuleIds :=
    funext fun best => funext fun list => scanUrlRules_eq _ best list
  rw [scans]
  exact (bestOf_scanLists candidates.sorted).perm (candidates.urlRules lowered _)

theorem matchesAbove_eq (matcher : DnrRulesetMatcher) (minPriority : ℤ)
    {list : List DnrIndexedRule} (sorted : list.Pairwise rulePrecedes) :
    matcher.matchesAbove context minPriority list =
      list.filter fun rule => decide (minPriority < rule.indexPriority) &&
        urlRuleMatches rule context matcher.disabledRuleIds := by
  unfold DnrRulesetMatcher.matchesAbove
  rw [takeWhile_above sorted, List.filter_filter]
  refine List.filter_congr fun rule _ => ?_
  exact Bool.and_comm _ _

theorem matchesAbove_perm (candidates : Candidates rules kind context lists)
    (lowered : context.url.lowerSpec = toLowerAscii context.url.spec)
    (matcher : DnrRulesetMatcher) (minPriority : ℤ) :
    (lists.flatMap (matcher.matchesAbove context minPriority)).Perm
      (rules.filter fun rule => decide (minPriority < rule.indexPriority) &&
        urlRuleMatches rule context matcher.disabledRuleIds) := by
  have all : lists.flatMap (matcher.matchesAbove context minPriority) =
      lists.flatten.filter fun rule => decide (minPriority < rule.indexPriority) &&
        urlRuleMatches rule context matcher.disabledRuleIds := by
    rw [List.filter_flatten, List.flatMap]
    congr 1
    exact List.map_congr_left fun list member =>
      matchesAbove_eq matcher minPriority (candidates.sorted list member)
  rw [all]
  refine candidates.once _ fun rule keyText route matched => ?_
  rw [Bool.and_eq_true] at matched
  exact meets_of_urlRuleMatches lowered route matched.2

/-- The regex matches that pass a test, each once. -/
theorem regexCandidates_perm {partition : DnrRulePartition}
    (candidates : Candidates rules kind context (partition.candidateLists context))
    (counted : partition.size = rules.length) (ascii : ∀ code ∈ context.url.spec, code ≤ 0x7f)
    (lowered : context.url.lowerSpec = toLowerAscii context.url.spec)
    (test : DnrIndexedRule → Bool) :
    ((DnrRulesetMatcher.regexCandidates context partition).filter fun rule =>
        test rule && regexMatches rule context).Perm
      (rules.filter fun rule => test rule && (regexRuleMetadataMatches rule context &&
        regexMatches rule context)) := by
  unfold DnrRulesetMatcher.regexCandidates
  split
  case isTrue empty =>
    rw [counted, List.length_eq_zero_iff] at empty
    rw [empty]
    rfl
  case isFalse =>
    have metadata : ((partition.candidateLists context).flatMap fun rules =>
        rules.filter fun rule => regexRuleMetadataMatches rule context) =
        (partition.candidateLists context).flatten.filter
          fun rule => regexRuleMetadataMatches rule context := by
      rw [List.filter_flatten, List.flatMap]
    rw [metadata]
    refine ((List.perm_insertionSort _ _).filter _).trans ?_
    rw [List.filter_filter]
    have tests : (fun rule => test rule && regexMatches rule context &&
        regexRuleMetadataMatches rule context) = fun rule => test rule &&
          (regexRuleMetadataMatches rule context && regexMatches rule context) := by
      funext rule
      rw [Bool.and_assoc, Bool.and_comm (regexMatches rule context)]
    rw [tests]
    refine candidates.once _ fun rule keyText route matched => ?_
    rw [Bool.and_eq_true, Bool.and_eq_true] at matched
    exact meets_of_regexMatches ascii lowered route matched.2.1 matched.2.2

end Matchers

end OxeeUI.Dnr
