import OxeeUI.Dnr.RulesetMatcher

/-!
# The candidate index hides no match

Whatever rulesets were built, attached and detached before, a request that is
routed finds in each attached partition every rule it matches exactly once.
What a matcher makes of the candidates is what it would make of all rules.
Detaching what is not attached breaks this: the key it shares with an attached
partition is dropped.
-/

namespace OxeeUI.Dnr

open OxeeUI.Library

/-- What a partition offers for a request against a scan of all its rules. -/
structure OffersMatches (matcher : DnrRulesetMatcher) (context : DnrRequestContext)
    (partition : DnrRulePartition) (rules : List DnrIndexedRule) : Prop where
  urlRules : ((partition.candidateLists context).flatten.filter fun rule =>
      urlRuleMatches rule context matcher.disabledRuleIds).Perm
    (rules.filter fun rule => urlRuleMatches rule context matcher.disabledRuleIds)
  regexRules : ((partition.candidateLists context).flatten.filter fun rule =>
      regexRuleMetadataMatches rule context && regexMatches rule context).Perm
    (rules.filter fun rule => regexRuleMetadataMatches rule context && regexMatches rule context)
  best : BestOf rulePrecedes
    (rules.filter fun rule => urlRuleMatches rule context matcher.disabledRuleIds)
    (matcher.bestUrlRule context partition)
  /-- Rules with numbers of their own do not tie. -/
  scanned : (rules.map DnrIndexedRule.id).Nodup →
    matcher.bestUrlRule context partition = plainScan rulePrecedes
      (rules.filter fun rule => urlRuleMatches rule context matcher.disabledRuleIds)

/-- The rules of an index that modify headers, above a priority, for a request they match. -/
def modifyHeadersMatches (ledger : DnrLedger) (matcher : DnrRulesetMatcher)
    (context : DnrRequestContext) (stage : DnrStage) (minPriority : ℤ) : List DnrIndexedRule :=
  ((ledger.rulesOf ⟨matcher.index, stage, .modifyHeaders⟩).filter fun rule =>
      decide (minPriority < rule.indexPriority) &&
        urlRuleMatches rule context matcher.disabledRuleIds) ++
    (ledger.rulesOf ⟨matcher.index, stage, .regex⟩).filter fun rule =>
      (decide (rule.action = .modifyHeaders) && decide (minPriority < rule.indexPriority)) &&
        (regexRuleMetadataMatches rule context && regexMatches rule context)

theorem PartitionHolds.size {dictionary : NgramDictionary} {partition : DnrRulePartition}
    {kind : PartitionKind} {rules : List DnrIndexedRule}
    (held : PartitionHolds dictionary partition kind rules) : partition.size = rules.length := by
  obtain ⟨filed, lists, same, _⟩ := held.filed
  rw [lists.size, ← same, List.length_map]

theorem Candidates.offers {rules : List DnrIndexedRule} {kind : PartitionKind}
    {context : DnrRequestContext} {partition : DnrRulePartition}
    (candidates : Candidates rules kind context (partition.candidateLists context))
    (ascii : ∀ code ∈ context.url.spec, code ≤ 0x7f)
    (lowered : context.url.lowerSpec = toLowerAscii context.url.spec)
    (matcher : DnrRulesetMatcher) : OffersMatches matcher context partition rules := by
  have best := bestOf_bestUrlRule matcher candidates lowered
  refine ⟨candidates.urlRules lowered _, candidates.regexRules ascii lowered, best, fun distinct => ?_⟩
  refine best.unique (bestOf_plainScan _) fun first one second two before after => ?_
  exact eq_of_tie distinct (List.mem_filter.mp one).1 (List.mem_filter.mp two).1 before after

/-- Every request after a run in which engines add only what is not attached to them and remove
only what is. -/
theorem dnr_index_hides_no_match {events : List DnrEvent}
    (finishes : DnrLedger.Along DnrLedger.Finishes .start events)
    (pairs : DnrLedger.Along DnrLedger.Pairs .start events) (matcher : DnrRulesetMatcher)
    (engine : ℕ) (attached : matcher.index ∈ (ledgerOf events).attached engine)
    (request : DnrRequest) :
    (∀ stage kind,
      OffersMatches matcher ((runDnr events).request engine request).1
        (((runDnr events).request engine request).2.heap ⟨matcher.index, stage, kind⟩)
        ((ledgerOf events).rulesOf ⟨matcher.index, stage, kind⟩)) ∧
    ∀ stage minPriority,
      (matcher.modifyHeadersActions ((runDnr events).request engine request).2.heap
        ((runDnr events).request engine request).1 stage minPriority).Perm
      ((modifyHeadersMatches (ledgerOf events) matcher
        ((runDnr events).request engine request).1 stage minPriority).map fun rule =>
          matcher.action rule .modifyHeaders (some rule.requestHeaders)
            (some rule.responseHeadersToModify)) := by
  have tracks := tracks_runDnr finishes pairs
  have lowered : ((runDnr events).request engine request).1.url.lowerSpec =
      toLowerAscii ((runDnr events).request engine request).1.url.spec := rfl
  have candidates (stage : DnrStage) (kind : PartitionKind) :=
    tracks.candidates ⟨matcher.index, stage, kind⟩ attached request
  have later : Tracks (ledgerOf events) ((runDnr events).request engine request).2 :=
    tracks.step (.request engine request) trivial trivial
  refine ⟨fun stage kind => (candidates stage kind).offers request.ascii lowered matcher,
    fun stage minPriority => List.Perm.map _ ?_⟩
  have counted := (later.finished ⟨matcher.index, stage, .regex⟩
    (later.attached engine _ attached)).size
  exact (matchesAbove_perm (candidates stage .modifyHeaders) lowered matcher minPriority).append
    (regexCandidates_perm (candidates stage .regex) counted request.ascii lowered fun rule =>
      decide (rule.action = .modifyHeaders) && decide (minPriority < rule.indexPriority))

section Sample

/-- A rule that blocks whatever is requested from a domain. -/
def blocksDomain (id : ℤ) (domain : String) : DnrIndexedRule where
  id
  priority := 1
  indexPriority := 1
  action := .block
  stage := .beforeRequest
  urlPattern := some ⟨⟨[], .none, .none, false⟩⟩
  regex := none
  exclusive := .inr rfl
  elementTypes := 1
  requestMethods := 1
  firstParty := true
  thirdParty := true
  tabIds := none
  excludedTabIds := none
  initiatorDomains := none
  excludedInitiatorDomains := none
  requestDomains := some ⟨[units domain]⟩
  excludedRequestDomains := none
  topDomains := none
  excludedTopDomains := none
  responseHeaders := none
  excludedResponseHeaders := none
  requestHeaders := []
  responseHeadersToModify := []

def domainRequest : DnrRequest where
  spec := units "https://ads.co/"
  ascii := by decide
  hostBegin := 8
  hostEnd := 14
  initiatorHost := none
  topHost := []
  elementType := 1
  method := 1
  isThirdParty := false
  tabId := 7
  responseHeaders := none

def domainMatcher : DnrRulesetMatcher := ⟨"blocker", .dynamic, 0, []⟩

/-- A ruleset that is built and attached to an engine. -/
def attachedRuleset : List DnrEvent :=
  [.addRule 0 (blocksDomain 1 "ads.co"), .finish 0, .add 0 0]

theorem attachedRuleset_finishes :
    DnrLedger.Along DnrLedger.Finishes .start attachedRuleset := by
  simp [attachedRuleset, DnrLedger.Along, DnrLedger.Finishes, DnrLedger.record, DnrLedger.start]

theorem attachedRuleset_pairs : DnrLedger.Along DnrLedger.Pairs .start attachedRuleset := by
  simp [attachedRuleset, DnrLedger.Along, DnrLedger.Pairs, DnrLedger.record, DnrLedger.start]

/-- A second ruleset with the domain of the first is detached, which it was not attached. -/
def strayRemoval : List DnrEvent :=
  attachedRuleset ++ [.addRule 1 (blocksDomain 2 "ads.co"), .finish 1, .remove 0 1]

/-- The ruleset that stayed attached no longer blocks what it lists. -/
theorem strayRemoval_hides_match :
    ¬ ∀ (events : List DnrEvent), DnrLedger.Along DnrLedger.Finishes .start events →
      ∀ (matcher : DnrRulesetMatcher) (engine : ℕ),
        matcher.index ∈ (ledgerOf events).attached engine → ∀ (request : DnrRequest),
        ∀ stage kind,
          OffersMatches matcher ((runDnr events).request engine request).1
            (((runDnr events).request engine request).2.heap ⟨matcher.index, stage, kind⟩)
            ((ledgerOf events).rulesOf ⟨matcher.index, stage, kind⟩) := by
  intro offers
  have finishes : DnrLedger.Along DnrLedger.Finishes .start strayRemoval := by
    simp [strayRemoval, attachedRuleset, DnrLedger.Along, DnrLedger.Finishes, DnrLedger.record,
      DnrLedger.start]
  have held := (offers strayRemoval finishes domainMatcher 0 (by decide +kernel) domainRequest
    .beforeRequest .main).urlRules.length_eq
  revert held
  decide +kernel

theorem attachedRuleset_blocks :
    domainMatcher.bestUrlRule ((runDnr attachedRuleset).request 0 domainRequest).1
        (((runDnr attachedRuleset).request 0 domainRequest).2.heap ⟨0, .beforeRequest, .main⟩) =
      plainScan rulePrecedes (((ledgerOf attachedRuleset).rulesOf ⟨0, .beforeRequest, .main⟩).filter
        fun rule => urlRuleMatches rule ((runDnr attachedRuleset).request 0 domainRequest).1 []) :=
  ((dnr_index_hides_no_match attachedRuleset_finishes attachedRuleset_pairs domainMatcher 0
    (by decide +kernel) domainRequest).1 .beforeRequest .main).scanned (by decide +kernel)

end Sample

end OxeeUI.Dnr
