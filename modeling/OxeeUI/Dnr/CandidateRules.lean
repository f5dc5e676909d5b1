import OxeeUI.Dnr.RoutedHits

/-!
# The candidates of a request

What an attached partition picks up for a request holds each rule as often as
the request asks for the place the rule is filed under.  A rule the request
matches is asked for exactly once: by one n-gram, by one label suffix of a host,
or by the scan.
-/

namespace OxeeUI.Dnr

open OxeeUI.Library

section Counting

variable {Key : Type*} {filed : List FiledRule}

/-- Lists looked up under several keys hold a rule once for each key it is filed under. -/
theorem lists_perm {lists : Key → List DnrIndexedRule} {under : Key → Filing → Bool}
    (stored : ∀ key, lists key = DnrRulePartition.sorted (filedUnder (under key) filed))
    (keys : List Key) :
    (keys.flatMap lists).Perm (filed.flatMap fun entry =>
      List.replicate (keys.countP fun key => under key entry.filing) entry.rule) := by
  induction keys with
  | nil => simp
  | cons key rest ih =>
    have head : (lists key).Perm
        (filed.flatMap fun entry => if under key entry.filing then [entry.rule] else []) := by
      rw [stored]
      refine (List.perm_insertionSort _ _).trans (List.Perm.of_eq ?_)
      unfold filedUnder
      clear stored ih
      induction filed with
      | nil => rfl
      | cons entry others ih =>
        rw [List.flatMap_cons, ← ih, List.filter_cons]
        split
        · rfl
        · rfl
    have split : (fun entry : FiledRule =>
        List.replicate ((key :: rest).countP fun key => under key entry.filing) entry.rule) =
        fun entry => (List.replicate (rest.countP fun key => under key entry.filing) entry.rule) ++
          if under key entry.filing then [entry.rule] else [] := by
      funext entry
      rw [List.countP_cons, List.replicate_add]
      congr 1
      split
      · rfl
      · rfl
    rw [List.flatMap_cons, split]
    refine (head.append ih).trans (List.perm_append_comm.trans ?_)
    exact List.flatMap_append_perm _ _ _

end Counting

/-- What is known of the context of a request when it is distributed. -/
structure ReadContext (dictionary : NgramDictionary) (context : DnrRequestContext) : Prop where
  ascii : ∀ code ∈ context.url.spec, code ≤ 0x7f
  lowered : context.url.lowerSpec = toLowerAscii context.url.spec
  requestSuffixes : context.requestHostSuffixes = hostLabelSuffixes context.requestHost
  initiatorSuffixes : ∀ host, context.initiatorHost = some host →
    context.initiatorHostSuffixes = hostLabelSuffixes host
  distinct : context.ngramIds.Nodup
  known : ∀ window, window.length = 5 → (∀ code ∈ window, code ≤ 0x7f) →
    window <:+: context.url.lowerSpec →
    ∀ id, dictionary.table.Stored (packWindow window) id → id ∈ context.ngramIds

/-- How often a request asks for the place a rule is filed under. -/
def hitCount (context : DnrRequestContext) (filing : Filing) : ℕ :=
  context.ngramIds.countP (fun id => Filing.underNgram id filing) +
    (if Filing.isScan filing then 1 else 0) +
    context.requestHostSuffixes.countP (fun domain => Filing.underRequest domain filing) +
    if context.initiatorHost.isSome then
      context.initiatorHostSuffixes.countP fun domain => Filing.underInitiator domain filing
    else 0

/-- What a request has in common with every rule it matches. -/
structure Meets (rule : DnrIndexedRule) (keyText : CodeUnits) (context : DnrRequestContext) :
    Prop where
  domains : domainsMatch rule context = true
  windows : ∀ window, PatternWindow (toLowerAscii keyText) window →
    window <:+: context.url.lowerSpec

section Once

variable {dictionary : NgramDictionary} {context : DnrRequestContext} {rule : DnrIndexedRule}
  {keyText : CodeUnits}

theorem countP_ngram {ids : List ℕ} (distinct : ids.Nodup) {id : ℕ} (member : id ∈ ids) :
    ids.countP (fun other => Filing.underNgram other (.ngram id)) = 1 := by
  have counted := distinct.count (a := id)
  rw [if_pos member, List.count] at counted
  rw [← counted]
  refine List.countP_congr fun other _ => ?_
  rw [Filing.underNgram, beq_iff_eq, beq_iff_eq]
  exact eq_comm

/-- A request asks once for the place of a rule it matches. -/
theorem hitCount_of_meets (read : ReadContext dictionary context)
    (meets : Meets rule keyText context) {filing : Filing}
    (justified : filing.Justified dictionary rule keyText) : hitCount context filing = 1 := by
  unfold hitCount
  have domains := meets.domains
  unfold domainsMatch at domains
  rw [Bool.and_eq_true] at domains
  obtain ⟨initiated, requested⟩ := domains
  cases filing with
  | ngram id =>
    obtain ⟨gram, member, stored⟩ := justified
    obtain ⟨window, inPattern, packed⟩ := patternNgrams_window member
    have asked : id ∈ context.ngramIds := by
      refine read.known window inPattern.five ?_ (meets.windows window inPattern) id ?_
      · exact fun code place => ascii_of_uncut (inPattern.uncut code place)
      · rwa [← packed]
    rw [countP_ngram read.distinct asked]
    simp [Filing.isScan, Filing.underRequest, Filing.underInitiator]
  | request keys =>
    have one : context.requestHostSuffixes.countP
        (fun domain => Filing.underRequest domain (.request keys)) = 1 := by
      cases listed : rule.requestDomains with
      | none =>
        rw [Filing.Justified, listed] at justified
        cases justified
      | some list =>
        rw [Filing.Justified, listed] at justified
        rw [listed, read.requestSuffixes] at requested
        have single := one_key_of_match justified (longestMatch_pos requested)
        rw [← List.countP_eq_length_filter] at single
        rw [read.requestSuffixes, ← single]
        refine List.countP_congr fun domain _ => ?_
        simp [Filing.underRequest]
    rw [one]
    simp [Filing.isScan, Filing.underNgram, Filing.underInitiator]
  | initiator keys =>
    cases listed : rule.initiatorDomains with
    | none =>
      rw [Filing.Justified, listed] at justified
      cases justified
    | some list =>
      rw [Filing.Justified, listed] at justified
      cases named : context.initiatorHost with
      | none =>
        rw [named, listed] at initiated
        cases initiated
      | some host =>
        rw [named, listed] at initiated
        dsimp only at initiated
        rw [read.initiatorSuffixes host named] at initiated
        have single := one_key_of_match justified (longestMatch_pos initiated)
        rw [← List.countP_eq_length_filter] at single
        have one : context.initiatorHostSuffixes.countP
            (fun domain => Filing.underInitiator domain (.initiator keys)) = 1 := by
          rw [read.initiatorSuffixes host named, ← single]
          refine List.countP_congr fun domain _ => ?_
          simp [Filing.underInitiator]
        rw [one]
        simp [Filing.isScan, Filing.underNgram, Filing.underRequest]
  | scan => simp [Filing.isScan, Filing.underNgram, Filing.underRequest, Filing.underInitiator]

end Once

section Matches

variable {context : DnrRequestContext} {rule : DnrIndexedRule} {kind : PartitionKind}
  {keyText : CodeUnits}

theorem meets_of_urlRuleMatches (lowered : context.url.lowerSpec = toLowerAscii context.url.spec)
    (route : ruleRoute rule = some (kind, keyText)) {disabledRuleIds : List ℤ}
    (matched : urlRuleMatches rule context disabledRuleIds = true) :
    Meets rule keyText context := by
  simp only [urlRuleMatches, Bool.and_eq_true] at matched
  obtain ⟨⟨⟨_, url⟩, domains⟩, _⟩ := matched
  refine ⟨domains, fun window inPattern => ?_⟩
  cases filter : rule.urlPattern with
  | none =>
    rw [filter] at url
    cases url
  | some matcher =>
    have plain : rule.regex = none := by
      rcases rule.exclusive with none | none
      · rw [filter] at none
        cases none
      · exact none
    have text : keyText = matcher.filter.pattern := by
      rw [ruleRoute, plain, filter] at route
      exact (congrArg Prod.snd (Option.some.inj route)).symm
    rw [filter] at url
    rw [text] at inPattern
    exact DnrUrlPatternMatcher.lower_window_of_matches url lowered inPattern

theorem meets_of_regexMatches (ascii : ∀ code ∈ context.url.spec, code ≤ 0x7f)
    (lowered : context.url.lowerSpec = toLowerAscii context.url.spec)
    (route : ruleRoute rule = some (kind, keyText))
    (metadata : regexRuleMetadataMatches rule context = true)
    (matched : regexMatches rule context = true) : Meets rule keyText context := by
  rw [regexRuleMetadataMatches, Bool.and_eq_true] at metadata
  refine ⟨metadata.2, fun window inPattern => ?_⟩
  cases expression : rule.regex with
  | none =>
    rw [regexMatches, expression] at matched
    cases matched
  | some compiled =>
    have text : keyText = compiled.requiredLiteral := by
      rw [ruleRoute, expression] at route
      exact (congrArg Prod.snd (Option.some.inj route)).symm
    rw [regexMatches, expression] at matched
    rw [text] at inPattern
    rw [lowered]
    exact lower_window_of_test ascii matched inPattern

end Matches

section Candidates

variable {dictionary : NgramDictionary} {context : DnrRequestContext}
  {heap : PartitionId → DnrRulePartition} {postings : DnrCandidatePostings}
  {owners : PartitionId → Prop} {id : PartitionId} {filed : List FiledRule}

theorem pickedUp_perm (held : Posted heap postings owners) (owned : owners id)
    (lists : FinishedAs dictionary (heap id) filed) :
    (pickedUp (heap id) id (postings.hits context)).Perm
      (filed.flatMap fun entry => List.replicate (hitCount context entry.filing) entry.rule) := by
  have scanned : (heap id).unindexed.Perm
      (filed.flatMap fun entry =>
        List.replicate (if Filing.isScan entry.filing then 1 else 0) entry.rule) := by
    have once := lists_perm (fun _ : Unit => lists.scan) [()]
    simpa [List.countP_cons] using once
  have initiated : (if context.initiatorHost.isSome then
      context.initiatorHostSuffixes.flatMap (listAt (heap id).byInitiatorDomain) else []).Perm
      (filed.flatMap fun entry => List.replicate (if context.initiatorHost.isSome then
        context.initiatorHostSuffixes.countP fun domain =>
          Filing.underInitiator domain entry.filing
        else 0) entry.rule) := by
    split
    · exact lists_perm lists.initiator _
    · simp
  rw [pickedUp_hits held owned]
  refine ((((lists_perm lists.ngram _).append scanned).append
    (lists_perm lists.request _)).append initiated).trans ?_
  refine (((List.flatMap_append_perm _ _ _).append_right _).append_right _).trans ?_
  refine ((List.flatMap_append_perm _ _ _).append_right _).trans ?_
  refine (List.flatMap_append_perm _ _ _).trans (List.Perm.of_eq ?_)
  unfold hitCount
  simp only [List.replicate_add]

theorem pickedUp_filter_perm (held : Posted heap postings owners) (owned : owners id)
    (lists : FinishedAs dictionary (heap id) filed) (read : ReadContext dictionary context)
    {test : DnrIndexedRule → Bool}
    (meets : ∀ entry ∈ filed, test entry.rule = true → Meets entry.rule entry.keyText context) :
    ((pickedUp (heap id) id (postings.hits context)).filter test).Perm
      ((filed.map FiledRule.rule).filter test) := by
  refine ((pickedUp_perm held owned lists).filter test).trans (List.Perm.of_eq ?_)
  have justified := lists.justified
  clear lists
  induction filed with
  | nil => rfl
  | cons entry rest ih =>
    have tail := ih (fun other member => meets other (List.mem_cons_of_mem _ member))
      fun other member => justified other (List.mem_cons_of_mem _ member)
    rw [List.flatMap_cons, List.filter_append, tail, List.map_cons, List.filter_cons]
    cases tested : test entry.rule with
    | false => simp [tested]
    | true =>
      have once := hitCount_of_meets read (meets entry List.mem_cons_self tested)
        (justified entry List.mem_cons_self)
      simp [once, tested]

end Candidates

end OxeeUI.Dnr
