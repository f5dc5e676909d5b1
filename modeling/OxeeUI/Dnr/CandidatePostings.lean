import OxeeUI.Dnr.RulePartition

/-!
# The candidate index

An engine keeps, for each n-gram and each domain, the partitions of its attached
rulesets that are keyed by it.  A request is routed once: its n-grams and host
suffixes reach the partitions keyed by them, and each partition picks up the
lists it was hit for.  Several engines share the partitions, the dictionary and
the count of epochs.
-/

namespace OxeeUI.Dnr

open OxeeUI.Library

inductive PartitionKind
  | main
  | allowAllRequests
  | modifyHeaders
  | regex
  deriving DecidableEq

/-- A partition, named by the ruleset index it belongs to. -/
structure PartitionId where
  index : ℕ
  stage : DnrStage
  kind : PartitionKind
  deriving DecidableEq

/-- The kind of partition a rule goes to, and the text it is keyed by. -/
def ruleRoute (rule : DnrIndexedRule) : Option (PartitionKind × CodeUnits) :=
  match rule.regex with
  | some compiled => some (.regex, compiled.requiredLiteral)
  | none =>
    rule.urlPattern.map fun matcher =>
      (match rule.action with
        | .allowAllRequests => .allowAllRequests
        | .modifyHeaders => .modifyHeaders
        | _ => .main,
      matcher.filter.pattern)

structure DnrRulesetIndex where
  partition : DnrStage → PartitionKind → DnrRulePartition
  regexRuleCount : ℕ

namespace DnrRulesetIndex

def new : DnrRulesetIndex := ⟨fun _ _ => .new, 0⟩

def setPartition (index : DnrRulesetIndex) (stage : DnrStage) (kind : PartitionKind)
    (partition : DnrRulePartition) : DnrRulesetIndex :=
  { index with
    partition := fun stage' kind' =>
      if stage' = stage ∧ kind' = kind then partition else index.partition stage' kind' }

def add (progress : DnrRulesetIndex × NgramDictionary) (rule : DnrIndexedRule) :
    DnrRulesetIndex × NgramDictionary :=
  match ruleRoute rule with
  | none => progress
  | some (kind, keyText) =>
    let (partition, after) :=
      (progress.1.partition rule.stage kind).add progress.2 rule keyText
    let filed := progress.1.setPartition rule.stage kind partition
    ({ filed with
      regexRuleCount := filed.regexRuleCount + if rule.regex.isSome then 1 else 0 }, after)

def finish (index : DnrRulesetIndex) : DnrRulesetIndex :=
  { index with partition := fun stage kind => (index.partition stage kind).finish }

end DnrRulesetIndex

/-- The partitions of a key: one alone, or several in an array. -/
inductive Partitions
  | lone (partition : PartitionId)
  | many (partitions : List PartitionId)

def Partitions.toList : Partitions → List PartitionId
  | .lone partition => [partition]
  | .many partitions => partitions

/-- What is left of the partitions of a key; an entry of one partition is dropped unseen. -/
def remainingPartitions (existing : Option Partitions) (partition : PartitionId) :
    List PartitionId :=
  match existing with
  | some (.many partitions) => partitions.filter (· ≠ partition)
  | _ => []

section Tables

variable {Key : Type*} [DecidableEq Key]

def addPartition (table : JsMap Key Partitions) (key : Key) (partition : PartitionId) :
    JsMap Key Partitions :=
  match table.get? key with
  | none => table.set key (.lone partition)
  | some (.many partitions) => table.set key (.many (partitions ++ [partition]))
  | some (.lone existing) => table.set key (.many [existing, partition])

def removePartition (table : JsMap Key Partitions) (key : Key) (partition : PartitionId) :
    JsMap Key Partitions :=
  match remainingPartitions (table.get? key) partition with
  | [] => table.delete key
  | [last] => table.set key (.lone last)
  | several => table.set key (.many several)

/-- The partitions a request with the key is routed to. -/
def partitionsAt (table : JsMap Key Partitions) (key : Key) : List PartitionId :=
  ((table.get? key).map Partitions.toList).getD []

def addKeys (table : JsMap Key Partitions) (keys : List Key) (partition : PartitionId) :
    JsMap Key Partitions :=
  keys.foldl (fun table key => addPartition table key partition) table

def removeKeys (table : JsMap Key Partitions) (keys : List Key) (partition : PartitionId) :
    JsMap Key Partitions :=
  keys.foldl (fun table key => removePartition table key partition) table

end Tables

structure DnrCandidatePostings where
  byNgram : JsMap ℕ Partitions
  byRequestDomain : JsMap CodeUnits Partitions
  byInitiatorDomain : JsMap CodeUnits Partitions
  unkeyed : List PartitionId

def partitionsOf (index : ℕ) : List PartitionId :=
  [DnrStage.beforeRequest, DnrStage.headersReceived].flatMap fun stage =>
    [PartitionKind.main, .allowAllRequests, .modifyHeaders, .regex].map fun kind =>
      ⟨index, stage, kind⟩

namespace DnrCandidatePostings

def empty : DnrCandidatePostings := ⟨.empty, .empty, .empty, []⟩

variable (heap : PartitionId → DnrRulePartition)

/-- One round of the loop of `add`. -/
def addOne (postings : DnrCandidatePostings) (partition : PartitionId) : DnrCandidatePostings where
  byNgram := addKeys postings.byNgram (heap partition).byNgram.keys partition
  byRequestDomain :=
    addKeys postings.byRequestDomain (heap partition).byRequestDomain.keys partition
  byInitiatorDomain :=
    addKeys postings.byInitiatorDomain (heap partition).byInitiatorDomain.keys partition
  unkeyed :=
    if (heap partition).unindexed.length = 0 then postings.unkeyed
    else postings.unkeyed.insert partition

/-- One round of the loop of `remove`. -/
def removeOne (postings : DnrCandidatePostings) (partition : PartitionId) :
    DnrCandidatePostings where
  byNgram := removeKeys postings.byNgram (heap partition).byNgram.keys partition
  byRequestDomain :=
    removeKeys postings.byRequestDomain (heap partition).byRequestDomain.keys partition
  byInitiatorDomain :=
    removeKeys postings.byInitiatorDomain (heap partition).byInitiatorDomain.keys partition
  unkeyed := postings.unkeyed.erase partition

def add (postings : DnrCandidatePostings) (index : ℕ) : DnrCandidatePostings :=
  (partitionsOf index).foldl (addOne heap) postings

def remove (postings : DnrCandidatePostings) (index : ℕ) : DnrCandidatePostings :=
  (partitionsOf index).foldl (removeOne heap) postings

end DnrCandidatePostings

inductive CandidateKey
  | ngram (id : ℕ)
  | unindexed
  | request (domain : CodeUnits)
  | initiator (domain : CodeUnits)

/-- `collectNgram`, `collectUnindexed` and `collectDomain`: the list picked up for a hit. -/
def DnrRulePartition.listFor (partition : DnrRulePartition) :
    CandidateKey → Option (List DnrIndexedRule)
  | .ngram id => partition.byNgram.get? id
  | .unindexed => some partition.unindexed
  | .request domain => partition.byRequestDomain.get? domain
  | .initiator domain => partition.byInitiatorDomain.get? domain

def DnrRulePartition.collectKey (epoch : ℕ) (partition : DnrRulePartition) (key : CandidateKey) :
    DnrRulePartition :=
  match partition.listFor key with
  | none => partition
  | some rules => partition.collect epoch rules

/-- The hits of a request in the order `distribute` routes them. -/
def DnrCandidatePostings.hits (postings : DnrCandidatePostings) (context : DnrRequestContext) :
    List (PartitionId × CandidateKey) :=
  (context.ngramIds.flatMap fun id =>
      (partitionsAt postings.byNgram id).map fun partition => (partition, .ngram id)) ++
    (postings.unkeyed.map fun partition => (partition, .unindexed)) ++
    (context.requestHostSuffixes.flatMap fun domain =>
      (partitionsAt postings.byRequestDomain domain).map fun partition =>
        (partition, .request domain)) ++
    if context.initiatorHost.isSome then
      context.initiatorHostSuffixes.flatMap fun domain =>
        (partitionsAt postings.byInitiatorDomain domain).map fun partition =>
          (partition, .initiator domain)
    else []

def routeHit (epoch : ℕ) (heap : PartitionId → DnrRulePartition)
    (hit : PartitionId × CandidateKey) : PartitionId → DnrRulePartition :=
  Function.update heap hit.1 ((heap hit.1).collectKey epoch hit.2)

/-- A request once its URL, its origins and its method have been read. -/
structure DnrRequest where
  spec : CodeUnits
  /-- The URL is canonical already. -/
  ascii : ∀ code ∈ spec, code ≤ 0x7f
  hostBegin : ℕ
  hostEnd : ℕ
  initiatorHost : Option CodeUnits
  topHost : CodeUnits
  elementType : ℕ
  method : ℕ
  isThirdParty : Bool
  tabId : ℤ
  responseHeaders : Option (List (CodeUnits × List CodeUnits))

/-- What the engines of a process share, and the postings of each. -/
structure DnrProcess where
  dictionary : NgramDictionary
  lastEpoch : ℕ
  indexes : ℕ → DnrRulesetIndex
  engines : ℕ → DnrCandidatePostings

namespace DnrProcess

def start : DnrProcess := ⟨.initial, 0, fun _ => .new, fun _ => .empty⟩

variable (process : DnrProcess)

def heap (id : PartitionId) : DnrRulePartition :=
  (process.indexes id.index).partition id.stage id.kind

def withHeap (heap : PartitionId → DnrRulePartition) : DnrProcess :=
  { process with
    indexes := fun index =>
      { process.indexes index with partition := fun stage kind => heap ⟨index, stage, kind⟩ } }

def createDnrRequestContext (request : DnrRequest) : DnrRequestContext × DnrProcess :=
  let lowerSpec := toLowerAscii request.spec
  let requestHost := (request.spec.take request.hostEnd).drop request.hostBegin
  let (ngramIds, dictionary) := process.dictionary.urlNgramIds lowerSpec
  ({ url := ⟨request.spec, lowerSpec, request.hostBegin, request.hostEnd⟩
     requestHost
     requestHostSuffixes := hostLabelSuffixes requestHost
     initiatorHost := request.initiatorHost
     initiatorHostSuffixes := (request.initiatorHost.map hostLabelSuffixes).getD []
     topHost := request.topHost
     topHostSuffixes := hostLabelSuffixes request.topHost
     elementType := request.elementType
     method := request.method
     isThirdParty := request.isThirdParty
     tabId := request.tabId
     responseHeaders := request.responseHeaders
     ngramIds
     ngramEpoch := none },
    { process with dictionary })

/-- The context is stamped with the epoch its hits are collected under. -/
def distribute (engine : ℕ) (context : DnrRequestContext) : DnrRequestContext × DnrProcess :=
  let epoch := process.lastEpoch + 1
  ({ context with ngramEpoch := some epoch },
    { process.withHeap
        (((process.engines engine).hits context).foldl (routeHit epoch) process.heap) with
      lastEpoch := epoch })

/-- A request as an engine takes it: its context is created and distributed at once. -/
def request (engine : ℕ) (request : DnrRequest) : DnrRequestContext × DnrProcess :=
  let (context, created) := process.createDnrRequestContext request
  created.distribute engine context

def addRule (index : ℕ) (rule : DnrIndexedRule) : DnrProcess :=
  let (filed, dictionary) := DnrRulesetIndex.add (process.indexes index, process.dictionary) rule
  { process with dictionary, indexes := Function.update process.indexes index filed }

def finish (index : ℕ) : DnrProcess :=
  { process with
    indexes := Function.update process.indexes index (process.indexes index).finish }

def setEngine (engine : ℕ) (postings : DnrCandidatePostings) : DnrProcess :=
  { process with engines := Function.update process.engines engine postings }

end DnrProcess

/-- Rulesets are built in slices, so the steps of several builds and requests may alternate. -/
inductive DnrEvent
  | addRule (index : ℕ) (rule : DnrIndexedRule)
  | finish (index : ℕ)
  | add (engine index : ℕ)
  | remove (engine index : ℕ)
  | request (engine : ℕ) (request : DnrRequest)

def DnrProcess.step (process : DnrProcess) : DnrEvent → DnrProcess
  | .addRule index rule => process.addRule index rule
  | .finish index => process.finish index
  | .add engine index =>
    process.setEngine engine ((process.engines engine).add process.heap index)
  | .remove engine index =>
    process.setEngine engine ((process.engines engine).remove process.heap index)
  | .request engine request => (process.request engine request).2

def runDnr (events : List DnrEvent) : DnrProcess := events.foldl DnrProcess.step .start

end OxeeUI.Dnr

/-!
## Finished rulesets

A ruleset index files every rule in the partition of its stage and kind.  When
it is finished each list of a partition holds the rules filed there, sorted.
-/

namespace OxeeUI.Dnr

open OxeeUI.Library

variable {dictionary later : NgramDictionary} {partition : DnrRulePartition}
  {filed : List FiledRule}

/-- The lists of a finished partition: each rule where it is filed, sorted. -/
structure FinishedAs (dictionary : NgramDictionary) (partition : DnrRulePartition)
    (filed : List FiledRule) : Prop where
  ngram : ∀ id, listAt partition.byNgram id =
    DnrRulePartition.sorted (filedUnder (Filing.underNgram id) filed)
  request : ∀ domain, listAt partition.byRequestDomain domain =
    DnrRulePartition.sorted (filedUnder (Filing.underRequest domain) filed)
  initiator : ∀ domain, listAt partition.byInitiatorDomain domain =
    DnrRulePartition.sorted (filedUnder (Filing.underInitiator domain) filed)
  scan : partition.unindexed = DnrRulePartition.sorted (filedUnder Filing.isScan filed)
  fullNgram : NoEmptyList partition.byNgram
  fullRequest : NoEmptyList partition.byRequestDomain
  fullInitiator : NoEmptyList partition.byInitiatorDomain
  justified : ∀ entry ∈ filed, entry.filing.Justified dictionary entry.rule entry.keyText
  size : partition.size = filed.length

theorem FiledAs.finish (held : FiledAs dictionary partition filed) :
    FinishedAs dictionary partition.finish filed where
  ngram := fun id => (listAt_sorted _ id).trans (congrArg _ (held.ngram id))
  request := fun domain => (listAt_sorted _ domain).trans (congrArg _ (held.request domain))
  initiator := fun domain => (listAt_sorted _ domain).trans (congrArg _ (held.initiator domain))
  scan := congrArg DnrRulePartition.sorted held.scan
  fullNgram := noEmptyList_sorted held.fullNgram
  fullRequest := noEmptyList_sorted held.fullRequest
  fullInitiator := noEmptyList_sorted held.fullInitiator
  justified := held.justified
  size := held.size

theorem FinishedAs.keeps (held : FinishedAs dictionary partition filed)
    (kept : dictionary.Keeps later) : FinishedAs later partition filed :=
  { held with
    justified := fun entry member => (held.justified entry member).keeps kept }

/-- Whether a rule goes to the partition of a stage and kind. -/
def goesTo (stage : DnrStage) (kind : PartitionKind) (rule : DnrIndexedRule) : Bool :=
  decide (rule.stage = stage) && decide ((ruleRoute rule).map Prod.fst = some kind)

/-- Entries that are filed by the text their rules are routed with. -/
def RoutedTo (kind : PartitionKind) (filed : List FiledRule) : Prop :=
  ∀ entry ∈ filed, ruleRoute entry.rule = some (kind, entry.keyText)

structure IndexFiled (progress : DnrRulesetIndex × NgramDictionary)
    (rules : List DnrIndexedRule) : Prop where
  sound : progress.2.Sound
  filed : ∀ stage kind, ∃ filed, FiledAs progress.2 (progress.1.partition stage kind) filed ∧
    filed.map FiledRule.rule = rules.filter (goesTo stage kind) ∧ RoutedTo kind filed

theorem indexFiled_new (sound : dictionary.Sound) :
    IndexFiled (DnrRulesetIndex.new, dictionary) [] where
  sound := sound
  filed := fun stage kind => ⟨[], filedAs_new dictionary, rfl, by simp [RoutedTo]⟩

theorem IndexFiled.keeps {index : DnrRulesetIndex} {rules : List DnrIndexedRule}
    (held : IndexFiled (index, dictionary) rules) (sound : later.Sound)
    (kept : dictionary.Keeps later) : IndexFiled (index, later) rules := by
  refine ⟨sound, fun stage kind => ?_⟩
  obtain ⟨filed, lists, same, routed⟩ := held.filed stage kind
  exact ⟨filed, lists.keeps kept, same, routed⟩

theorem IndexFiled.add {progress : DnrRulesetIndex × NgramDictionary}
    {rules : List DnrIndexedRule} (held : IndexFiled progress rules) (rule : DnrIndexedRule) :
    IndexFiled (DnrRulesetIndex.add progress rule) (rules ++ [rule]) ∧
      progress.2.Keeps (DnrRulesetIndex.add progress rule).2 := by
  unfold DnrRulesetIndex.add
  cases route : ruleRoute rule with
  | none =>
    refine ⟨⟨held.sound, fun stage kind => ?_⟩, .refl _⟩
    obtain ⟨filed, lists, same, routed⟩ := held.filed stage kind
    refine ⟨filed, lists, ?_, routed⟩
    rw [same, List.filter_append]
    simp [goesTo, route]
  | some target =>
    obtain ⟨kind, keyText⟩ := target
    obtain ⟨filed, lists, same, routed⟩ := held.filed rule.stage kind
    obtain ⟨soundAfter, kept, filing, added⟩ := filedAs_add held.sound lists rule keyText
    refine ⟨⟨soundAfter, fun stage' kind' => ?_⟩, kept⟩
    dsimp only [DnrRulesetIndex.setPartition]
    by_cases here : stage' = rule.stage ∧ kind' = kind
    · rw [if_pos here]
      refine ⟨_, added, ?_, ?_⟩
      · rw [here.1, here.2, List.map_append, same, List.filter_append]
        simp [goesTo, route]
      · intro entry member
        rcases List.mem_append.mp member with before | new
        · rw [here.2]
          exact routed entry before
        · rw [List.mem_singleton.mp new, here.2]
          exact route
    · rw [if_neg here]
      obtain ⟨filed', lists', same', routed'⟩ := held.filed stage' kind'
      refine ⟨filed', lists'.keeps kept, ?_, routed'⟩
      have elsewhere : goesTo stage' kind' rule = false := by
        rw [Bool.eq_false_iff]
        intro goes
        simp only [goesTo, route, Option.map_some, Bool.and_eq_true, decide_eq_true_eq,
          Option.some.injEq] at goes
        exact here ⟨goes.1.symm, goes.2.symm⟩
      rw [same', List.filter_append]
      simp [elsewhere]

/-- A finished partition with the rules it was built from. -/
structure PartitionHolds (dictionary : NgramDictionary) (partition : DnrRulePartition)
    (kind : PartitionKind) (rules : List DnrIndexedRule) : Prop where
  filed : ∃ filed, FinishedAs dictionary partition filed ∧
    filed.map FiledRule.rule = rules ∧ RoutedTo kind filed

theorem PartitionHolds.keeps {kind : PartitionKind} {rules : List DnrIndexedRule}
    (held : PartitionHolds dictionary partition kind rules) (kept : dictionary.Keeps later) :
    PartitionHolds later partition kind rules := by
  obtain ⟨filed, lists, same, routed⟩ := held.filed
  exact ⟨filed, lists.keeps kept, same, routed⟩

theorem IndexFiled.finish {progress : DnrRulesetIndex × NgramDictionary}
    {rules : List DnrIndexedRule} (held : IndexFiled progress rules) (stage : DnrStage)
    (kind : PartitionKind) :
    PartitionHolds progress.2 (progress.1.finish.partition stage kind) kind
      (rules.filter (goesTo stage kind)) := by
  obtain ⟨filed, lists, same, routed⟩ := held.filed stage kind
  exact ⟨filed, lists.finish, same, routed⟩

end OxeeUI.Dnr
