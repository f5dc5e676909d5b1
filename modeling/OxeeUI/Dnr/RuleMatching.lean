import OxeeUI.Dnr.DomainMatching
import OxeeUI.Dnr.UrlPattern

/-!
# What a rule asks of a request

The indexed form of a rule, the context of a request, and the checks of one
against the other: flags, the embedder's conditions, the url filter and the
domain lists.
-/

namespace OxeeUI.Dnr

inductive DnrActionType
  | block
  | redirect
  | allow
  | upgradeScheme
  | modifyHeaders
  | allowAllRequests
  deriving DecidableEq

inductive DnrStage
  | beforeRequest
  | headersReceived
  deriving DecidableEq

structure DnrHeaderCondition where
  header : CodeUnits
  values : Option (List CodeUnits)
  excludedValues : Option (List CodeUnits)

inductive DnrHeaderOperation
  | append
  | set
  | remove

structure DnrHeaderModification where
  header : CodeUnits
  operation : DnrHeaderOperation
  value : Option CodeUnits

/-- A compiled regular expression with a literal that every match contains, in lower case.  The
text of a URL is ASCII, so nothing is asked of matches in other texts. -/
structure DnrCompiledRegex where
  test : CodeUnits → Bool
  substitution : Option CodeUnits
  requiredLiteral : CodeUnits
  required : ∀ spec, (∀ code ∈ spec, code ≤ 0x7f) → test spec = true →
    requiredLiteral <:+: toLowerAscii spec

structure DnrIndexedRule where
  id : ℤ
  priority : ℤ
  /-- The priority with the tie-break of the action's type folded in. -/
  indexPriority : ℤ
  action : DnrActionType
  stage : DnrStage
  urlPattern : Option DnrUrlPatternMatcher
  regex : Option DnrCompiledRegex
  /-- A rule has a url filter or a regular expression, never both. -/
  exclusive : urlPattern = none ∨ regex = none
  elementTypes : ℕ
  requestMethods : ℕ
  firstParty : Bool
  thirdParty : Bool
  tabIds : Option (List ℤ)
  excludedTabIds : Option (List ℤ)
  initiatorDomains : Option DnrDomainList
  excludedInitiatorDomains : Option DnrDomainList
  requestDomains : Option DnrDomainList
  excludedRequestDomains : Option DnrDomainList
  topDomains : Option DnrDomainList
  excludedTopDomains : Option DnrDomainList
  responseHeaders : Option (List DnrHeaderCondition)
  excludedResponseHeaders : Option (List DnrHeaderCondition)
  requestHeaders : List DnrHeaderModification
  responseHeadersToModify : List DnrHeaderModification

structure DnrRequestContext where
  url : DnrUrlText
  requestHost : CodeUnits
  requestHostSuffixes : List CodeUnits
  initiatorHost : Option CodeUnits
  initiatorHostSuffixes : List CodeUnits
  topHost : CodeUnits
  topHostSuffixes : List CodeUnits
  elementType : ℕ
  method : ℕ
  isThirdParty : Bool
  tabId : ℤ
  responseHeaders : Option (List (CodeUnits × List CodeUnits))
  ngramIds : List ℕ
  ngramEpoch : Option ℕ

section Headers

/-- One row of `matchPattern`, from an index of the pattern on. -/
def fillRow (previous : ℕ → Bool) (seen : ℕ) : CodeUnits → ℕ → (ℕ → Bool) → (ℕ → Bool)
  | [], _, current => current
  | 92 :: want :: rest, index, current =>
    fillRow previous seen rest (index + 2)
      (Function.update current (index + 2) (previous index && seen == want))
  | code :: rest, index, current =>
    let filled :=
      if code = 42 then current index || previous (index + 1)
      else if code = 63 then current index || previous index
      else previous index && seen == code
    fillRow previous seen rest (index + 1) (Function.update current (index + 1) filled)

/-- The first row of `matchPattern`: what an empty text matches. -/
def firstRow (pattern : CodeUnits) (index : ℕ) : Bool :=
  (pattern.take index).all fun code => code == 42 || code == 63

/-- `*` is any run, `?` is at most one code unit, `\` escapes. -/
def matchPattern (text pattern : CodeUnits) : Bool :=
  (text.foldl (fun previous seen => fillRow previous seen pattern 0 fun _ => false)
    (firstRow pattern)) pattern.length

/-- Whether a header condition is met by the headers. -/
def meetsHeaderCondition (headers : List (CodeUnits × List CodeUnits))
    (condition : DnrHeaderCondition) : Bool :=
  match headers.lookup condition.header with
  | none => false
  | some values =>
    let hasValue (pattern : CodeUnits) := values.any fun value => matchPattern value pattern
    match condition.values, condition.excludedValues with
    | none, none => true
    | wanted, excluded =>
      if (excluded.getD []).any hasValue then false
      else
        match wanted with
        | none => true
        | some patterns => patterns.any hasValue

def matchesHeaderConditions (headers : List (CodeUnits × List CodeUnits))
    (conditions : List DnrHeaderCondition) : Bool :=
  conditions.any (meetsHeaderCondition headers)

end Headers

section Rules

variable (rule : DnrIndexedRule) (context : DnrRequestContext)

def headersMatch : Bool :=
  match context.responseHeaders with
  | none => true
  | some headers =>
    !((rule.excludedResponseHeaders.map (matchesHeaderConditions headers)).getD false) &&
      (rule.responseHeaders.map (matchesHeaderConditions headers)).getD true

/-- The flags and the embedder's conditions. -/
def flagsMatch : Bool :=
  !(rule.elementTypes &&& context.elementType == 0) &&
  !(rule.requestMethods &&& context.method == 0) &&
  (if context.isThirdParty then rule.thirdParty else rule.firstParty) &&
  (rule.tabIds.map fun ids => ids.contains context.tabId).getD true &&
  !((rule.excludedTabIds.map fun ids => ids.contains context.tabId).getD false) &&
  (if rule.topDomains.isSome || rule.excludedTopDomains.isSome then
    hostMatchesDomainLists context.topHost context.topHostSuffixes rule.topDomains
      rule.excludedTopDomains
  else true) &&
  headersMatch rule context

def domainsMatch : Bool :=
  let initiatorMatches :=
    match context.initiatorHost with
    -- An unknown initiator only satisfies rules without an included list.
    | none => rule.initiatorDomains.isNone
    | some host =>
      hostMatchesDomainLists host context.initiatorHostSuffixes rule.initiatorDomains
        rule.excludedInitiatorDomains
  initiatorMatches &&
    hostMatchesDomainLists context.requestHost context.requestHostSuffixes rule.requestDomains
      rule.excludedRequestDomains

def regexRuleMetadataMatches : Bool := flagsMatch rule context && domainsMatch rule context

def urlRuleMatches (disabledRuleIds : List ℤ) : Bool :=
  flagsMatch rule context &&
  (rule.urlPattern.map fun matcher => matcher.matchesUrl context.url).getD false &&
  domainsMatch rule context &&
  !disabledRuleIds.contains rule.id

def regexMatches : Bool :=
  (rule.regex.map fun compiled => compiled.test context.url.spec).getD false

end Rules

section Order

/-- The higher index priority first, then the higher id. -/
def compareRulePriority (left right : DnrIndexedRule) : ℤ :=
  if right.indexPriority - left.indexPriority ≠ 0 then right.indexPriority - left.indexPriority
  else right.id - left.id

def rulePrecedes (left right : DnrIndexedRule) : Prop := compareRulePriority left right ≤ 0

instance : DecidableRel rulePrecedes := fun left right =>
  inferInstanceAs (Decidable (compareRulePriority left right ≤ 0))

theorem rulePrecedes_iff (left right : DnrIndexedRule) :
    rulePrecedes left right ↔ right.indexPriority < left.indexPriority ∨
      (right.indexPriority = left.indexPriority ∧ right.id ≤ left.id) := by
  unfold rulePrecedes compareRulePriority
  split
  · omega
  · omega

theorem rulePrecedes_total (left right : DnrIndexedRule) :
    rulePrecedes left right ∨ rulePrecedes right left := by
  rw [rulePrecedes_iff, rulePrecedes_iff]
  omega

theorem rulePrecedes_trans {first second third : DnrIndexedRule}
    (early : rulePrecedes first second) (late : rulePrecedes second third) :
    rulePrecedes first third := by
  rw [rulePrecedes_iff] at early late ⊢
  omega

instance : Std.Total rulePrecedes := ⟨rulePrecedes_total⟩

instance : IsTrans DnrIndexedRule rulePrecedes := ⟨fun _ _ _ => rulePrecedes_trans⟩

end Order

theorem lower_window_of_test {compiled : DnrCompiledRegex} {spec : CodeUnits}
    (ascii : ∀ code ∈ spec, code ≤ 0x7f) (matched : compiled.test spec = true)
    {window : CodeUnits} (found : PatternWindow (toLowerAscii compiled.requiredLiteral) window) :
    window <:+: toLowerAscii spec := by
  have lowered : toLowerAscii compiled.requiredLiteral <:+: toLowerAscii (toLowerAscii spec) :=
    (compiled.required spec ascii matched).map lowerUnit
  rw [toLowerAscii_idem] at lowered
  exact found.within.trans lowered

end OxeeUI.Dnr
