import OxeeUI.Dnr.CandidateRules

/-!
# Runs of the engines

What has been done so far, kept beside the process: the rules given to each
index, the indexes that are finished, and those attached to each engine.  As
long as only finished indexes are attached, each is attached once, and only
attached ones are detached, the postings of every engine hold exactly the
partitions attached to it.
-/

namespace OxeeUI.Dnr

open OxeeUI.Library

structure DnrLedger where
  rules : ℕ → List DnrIndexedRule
  finished : ℕ → Bool
  attached : ℕ → List ℕ

namespace DnrLedger

def start : DnrLedger := ⟨fun _ => [], fun _ => false, fun _ => []⟩

def record (ledger : DnrLedger) : DnrEvent → DnrLedger
  | .addRule index rule =>
    { ledger with rules := Function.update ledger.rules index (ledger.rules index ++ [rule]) }
  | .finish index => { ledger with finished := Function.update ledger.finished index true }
  | .add engine index =>
    { ledger with
      attached := Function.update ledger.attached engine (ledger.attached engine ++ [index]) }
  | .remove engine index =>
    { ledger with
      attached := Function.update ledger.attached engine ((ledger.attached engine).erase index) }
  | .request _ _ => ledger

/-- An index is finished once, after its last rule, and only finished ones are added or removed. -/
def Finishes (ledger : DnrLedger) : DnrEvent → Prop
  | .addRule index _ => ledger.finished index = false
  | .finish index => ledger.finished index = false
  | .add _ index => ledger.finished index = true
  | .remove _ index => ledger.finished index = true
  | .request _ _ => True

/-- An engine adds what is not attached to it and removes what is. -/
def Pairs (ledger : DnrLedger) : DnrEvent → Prop
  | .add engine index => index ∉ ledger.attached engine
  | .remove engine index => index ∈ ledger.attached engine
  | _ => True

/-- Each event is allowed by what was done before it. -/
def Along (allowed : DnrLedger → DnrEvent → Prop) : DnrLedger → List DnrEvent → Prop
  | _, [] => True
  | ledger, event :: events => allowed ledger event ∧ Along allowed (ledger.record event) events

/-- The rules of a partition: those given to its index that go there. -/
def rulesOf (ledger : DnrLedger) (id : PartitionId) : List DnrIndexedRule :=
  (ledger.rules id.index).filter (goesTo id.stage id.kind)

end DnrLedger

def ledgerOf (events : List DnrEvent) : DnrLedger := events.foldl DnrLedger.record .start

structure Tracks (ledger : DnrLedger) (process : DnrProcess) : Prop where
  sound : process.dictionary.Sound
  unfinished : ∀ index, ledger.finished index = false →
    IndexFiled (process.indexes index, process.dictionary) (ledger.rules index)
  finished : ∀ id : PartitionId, ledger.finished id.index = true →
    PartitionHolds process.dictionary (process.heap id) id.kind (ledger.rulesOf id)
  epochs : ∀ id epoch, (process.heap id).hitEpoch = some epoch → epoch ≤ process.lastEpoch
  posted : ∀ engine, Posted process.heap (process.engines engine)
    fun id => id.index ∈ ledger.attached engine
  attached : ∀ engine, ∀ index ∈ ledger.attached engine, ledger.finished index = true
  once : ∀ engine, (ledger.attached engine).Nodup

section Steps

variable {ledger : DnrLedger} {process : DnrProcess}

theorem heap_update {index : ℕ} {changed : DnrRulesetIndex} {dictionary : NgramDictionary}
    {id : PartitionId} (elsewhere : id.index ≠ index) :
    DnrProcess.heap { process with
      dictionary, indexes := Function.update process.indexes index changed } id =
        process.heap id := by
  unfold DnrProcess.heap
  dsimp only
  rw [Function.update_of_ne elsewhere]

theorem tracks_start : Tracks .start .start where
  sound := NgramDictionary.initial_sound
  unfinished := fun _ _ => indexFiled_new NgramDictionary.initial_sound
  finished := by
    intro id finished
    cases finished
  epochs := by
    intro id epoch hit
    cases hit
  posted := fun _ => (Posted.empty _).congr (by simp [DnrLedger.start]) fun _ _ => .refl _
  attached := by simp [DnrLedger.start]
  once := fun _ => List.nodup_nil

theorem Tracks.elsewhere (tracks : Tracks ledger process) {index : ℕ}
    (unfinished : ledger.finished index = false) {engine : ℕ} {id : PartitionId}
    (attached : id.index ∈ ledger.attached engine) : id.index ≠ index := by
  intro same
  have finished := tracks.attached engine id.index attached
  rw [same, unfinished] at finished
  cases finished

theorem Tracks.addRule (tracks : Tracks ledger process) {index : ℕ}
    (unfinished : ledger.finished index = false) (rule : DnrIndexedRule) :
    Tracks (ledger.record (.addRule index rule)) (process.addRule index rule) := by
  obtain ⟨filed, kept⟩ := (tracks.unfinished index unfinished).add rule
  constructor
  case sound => exact filed.sound
  case unfinished =>
    intro other still
    by_cases here : other = index
    · subst here
      simpa [DnrLedger.record, DnrProcess.addRule] using filed
    · have before := (tracks.unfinished other still).keeps filed.sound kept
      simpa [DnrLedger.record, DnrProcess.addRule, here] using before
  case finished =>
    intro id complete
    have different : id.index ≠ index := by
      intro same
      rw [same] at complete
      exact absurd (complete.symm.trans unfinished) Bool.noConfusion
    have before := (tracks.finished id complete).keeps kept
    unfold DnrProcess.addRule DnrLedger.record DnrLedger.rulesOf
    dsimp only
    rw [heap_update different, Function.update_of_ne different]
    exact before
  case epochs =>
    intro id epoch hit
    by_cases here : id.index = index
    · obtain ⟨lists, listed, _, _⟩ := filed.filed id.stage id.kind
      have unread := listed.unread
      unfold DnrProcess.addRule DnrProcess.heap at hit
      dsimp only at hit
      rw [here, Function.update_self, unread] at hit
      cases hit
    · unfold DnrProcess.addRule at hit
      dsimp only at hit
      rw [heap_update here] at hit
      exact tracks.epochs id epoch hit
  case posted =>
    intro engine
    refine (tracks.posted engine).congr (fun _ => Iff.rfl) fun id attached => ?_
    unfold DnrProcess.addRule
    dsimp only
    rw [heap_update (tracks.elsewhere unfinished attached)]
    exact .refl _
  case attached => exact tracks.attached
  case once => exact tracks.once

theorem Tracks.finish (tracks : Tracks ledger process) {index : ℕ}
    (unfinished : ledger.finished index = false) :
    Tracks (ledger.record (.finish index)) (process.finish index) := by
  have filed := tracks.unfinished index unfinished
  constructor
  case sound => exact tracks.sound
  case unfinished =>
    intro other still
    by_cases here : other = index
    · simp [DnrLedger.record, here] at still
    · have before := tracks.unfinished other (by simpa [DnrLedger.record, here] using still)
      simpa [DnrLedger.record, DnrProcess.finish, here] using before
  case finished =>
    intro id complete
    by_cases here : id.index = index
    · have held := filed.finish id.stage id.kind
      unfold DnrProcess.finish DnrProcess.heap DnrLedger.record DnrLedger.rulesOf
      dsimp only
      rw [here, Function.update_self]
      exact held
    · have before := tracks.finished id (by simpa [DnrLedger.record, here] using complete)
      unfold DnrProcess.finish
      rw [heap_update here]
      exact before
  case epochs =>
    intro id epoch hit
    by_cases here : id.index = index
    · obtain ⟨lists, listed, _, _⟩ := filed.filed id.stage id.kind
      unfold DnrProcess.finish DnrProcess.heap at hit
      dsimp only at hit
      rw [here, Function.update_self] at hit
      exact absurd (hit.symm.trans listed.unread) (Option.some_ne_none _)
    · unfold DnrProcess.finish at hit
      rw [heap_update here] at hit
      exact tracks.epochs id epoch hit
  case posted =>
    intro engine
    refine (tracks.posted engine).congr (fun _ => Iff.rfl) fun id attached => ?_
    unfold DnrProcess.finish
    rw [heap_update (tracks.elsewhere unfinished attached)]
    exact .refl _
  case attached =>
    intro engine other member
    have before := tracks.attached engine other member
    unfold DnrLedger.record
    dsimp only
    by_cases here : other = index
    · rw [here, Function.update_self]
    · rw [Function.update_of_ne here, before]
  case once => exact tracks.once

/-- Changing the postings of one engine to hold what is now attached to it. -/
theorem Tracks.setEngine (tracks : Tracks ledger process) {engine : ℕ}
    {postings : DnrCandidatePostings} {attached : List ℕ}
    (posted : Posted process.heap postings fun id => id.index ∈ attached)
    (complete : ∀ index ∈ attached, ledger.finished index = true) (distinct : attached.Nodup) :
    Tracks { ledger with attached := Function.update ledger.attached engine attached }
      (process.setEngine engine postings) where
  sound := tracks.sound
  unfinished := tracks.unfinished
  finished := tracks.finished
  epochs := tracks.epochs
  posted := by
    intro other
    unfold DnrProcess.setEngine
    dsimp only
    by_cases here : other = engine
    · rw [here, Function.update_self, Function.update_self]
      exact posted
    · rw [Function.update_of_ne here, Function.update_of_ne here]
      exact tracks.posted other
  attached := by
    intro other
    dsimp only
    by_cases here : other = engine
    · rw [here, Function.update_self]
      exact complete
    · rw [Function.update_of_ne here]
      exact tracks.attached other
  once := by
    intro other
    dsimp only
    by_cases here : other = engine
    · rw [here, Function.update_self]
      exact distinct
    · rw [Function.update_of_ne here]
      exact tracks.once other

theorem Tracks.add (tracks : Tracks ledger process) {engine index : ℕ}
    (complete : ledger.finished index = true) (new : index ∉ ledger.attached engine) :
    Tracks (ledger.record (.add engine index)) (process.step (.add engine index)) := by
  refine tracks.setEngine ?_ ?_ ?_
  · refine ((tracks.posted engine).addAll (partitionsOf_nodup index) ?_).congr (fun id => ?_)
      fun _ _ => .refl _
    · intro id member attached
      rw [mem_partitionsOf.mp member] at attached
      exact new attached
    · rw [List.mem_append, List.mem_singleton, mem_partitionsOf]
  · intro other member
    rcases List.mem_append.mp member with before | here
    · exact tracks.attached engine other before
    · rw [List.mem_singleton.mp here]
      exact complete
  · exact (tracks.once engine).append (List.nodup_singleton _) (by simpa using new)

theorem Tracks.remove (tracks : Tracks ledger process) {engine index : ℕ}
    (attached : index ∈ ledger.attached engine) :
    Tracks (ledger.record (.remove engine index)) (process.step (.remove engine index)) := by
  refine tracks.setEngine ?_ ?_ ((tracks.once engine).erase _)
  · refine ((tracks.posted engine).removeAll (partitionsOf_nodup index) ?_).congr (fun id => ?_)
      fun _ _ => .refl _
    · intro id member
      rw [mem_partitionsOf.mp member]
      exact attached
    · rw [(tracks.once engine).mem_erase_iff, mem_partitionsOf]
      exact and_comm
  · exact fun other member => tracks.attached engine other (List.mem_of_mem_erase member)

theorem Tracks.create (tracks : Tracks ledger process) (request : DnrRequest) :
    Tracks ledger (process.createDnrRequestContext request).2 := by
  obtain ⟨sound, table, _, _⟩ :=
    NgramDictionary.urlNgramIds_spec tracks.sound (toLowerAscii request.spec)
  have kept : process.dictionary.Keeps
      (process.dictionary.urlNgramIds (toLowerAscii request.spec)).2 := by
    intro gram id stored
    rwa [table]
  exact {
    sound := sound
    unfinished := fun index still => (tracks.unfinished index still).keeps sound kept
    finished := fun id complete => (tracks.finished id complete).keeps kept
    epochs := tracks.epochs
    posted := tracks.posted
    attached := tracks.attached
    once := tracks.once }

theorem readContext_create (sound : process.dictionary.Sound) (request : DnrRequest) :
    ReadContext (process.createDnrRequestContext request).2.dictionary
      (process.createDnrRequestContext request).1 := by
  obtain ⟨_, table, distinct, known⟩ :=
    NgramDictionary.urlNgramIds_spec sound (toLowerAscii request.spec)
  constructor
  case ascii => exact request.ascii
  case lowered => rfl
  case requestSuffixes => rfl
  case initiatorSuffixes =>
    intro host named
    have given : request.initiatorHost = some host := named
    unfold DnrProcess.createDnrRequestContext
    dsimp only
    rw [given]
    rfl
  case distinct => exact distinct
  case known =>
    intro window five ascii within id stored
    refine known window five ascii within id ?_
    rw [← table]
    exact stored

theorem PartitionHolds.congr {dictionary : NgramDictionary} {first second : DnrRulePartition}
    {kind : PartitionKind} {rules : List DnrIndexedRule}
    (held : PartitionHolds dictionary first kind rules) (same : SameLists second first) :
    PartitionHolds dictionary second kind rules := by
  obtain ⟨filed, lists, rulesSame, routed⟩ := held.filed
  refine ⟨filed, ?_, rulesSame, routed⟩
  exact {
    ngram := by rw [same.byNgram]; exact lists.ngram
    request := by rw [same.byRequestDomain]; exact lists.request
    initiator := by rw [same.byInitiatorDomain]; exact lists.initiator
    scan := by rw [same.unindexed]; exact lists.scan
    fullNgram := by rw [same.byNgram]; exact lists.fullNgram
    fullRequest := by rw [same.byRequestDomain]; exact lists.fullRequest
    fullInitiator := by rw [same.byInitiatorDomain]; exact lists.fullInitiator
    justified := lists.justified
    size := by rw [same.size]; exact lists.size }

theorem distribute_routed (process : DnrProcess) (engine : ℕ) (context : DnrRequestContext)
    (id : PartitionId) :
    RoutedAs (process.lastEpoch + 1) ((process.engines engine).hits context) id
      (process.heap id) ((process.distribute engine context).2.heap id) :=
  route_routed _ _ _

theorem Tracks.distribute (tracks : Tracks ledger process) (engine : ℕ)
    (context : DnrRequestContext) : Tracks ledger (process.distribute engine context).2 := by
  have routed := distribute_routed process engine context
  have untouched : ∀ index, ledger.finished index = false →
      (process.distribute engine context).2.indexes index = process.indexes index := by
    intro index still
    have same : ∀ stage kind, ((process.distribute engine context).2.indexes index).partition
        stage kind = (process.indexes index).partition stage kind := by
      intro stage kind
      refine (routed ⟨index, stage, kind⟩).untouched fun hit => ?_
      exact tracks.elsewhere still (owner_of_hit (tracks.posted engine) hit) rfl
    have counted : ((process.distribute engine context).2.indexes index).regexRuleCount =
        (process.indexes index).regexRuleCount := rfl
    cases before : process.indexes index with
    | mk partition regexRuleCount =>
      cases after : (process.distribute engine context).2.indexes index with
      | mk partition' regexRuleCount' =>
        rw [before, after] at same counted
        have lists : partition' = partition := funext fun stage => funext (same stage)
        rw [lists]
        exact congrArg _ counted
  constructor
  case sound => exact tracks.sound
  case unfinished =>
    intro index still
    rw [untouched index still]
    exact tracks.unfinished index still
  case finished =>
    intro id complete
    exact (tracks.finished id complete).congr (routed id).same
  case epochs =>
    intro id epoch hit
    have now : (process.distribute engine context).2.lastEpoch = process.lastEpoch + 1 := rfl
    rw [now]
    rcases (routed id).epoch with kept | stamped
    · rw [kept] at hit
      exact Nat.le_succ_of_le (tracks.epochs id epoch hit)
    · rw [stamped] at hit
      exact le_of_eq (Option.some.inj hit).symm
  case posted =>
    intro other
    exact (tracks.posted other).congr (fun _ => Iff.rfl) fun id _ => (routed id).same
  case attached => exact tracks.attached
  case once => exact tracks.once

theorem Tracks.step (tracks : Tracks ledger process) (event : DnrEvent)
    (finishes : ledger.Finishes event) (pairs : ledger.Pairs event) :
    Tracks (ledger.record event) (process.step event) := by
  cases event with
  | addRule index rule => exact tracks.addRule finishes rule
  | finish index => exact tracks.finish finishes
  | add engine index => exact tracks.add finishes pairs
  | remove engine index => exact tracks.remove pairs
  | request engine request => exact (tracks.create request).distribute engine _

theorem Tracks.run (tracks : Tracks ledger process) {events : List DnrEvent}
    (finishes : DnrLedger.Along DnrLedger.Finishes ledger events)
    (pairs : DnrLedger.Along DnrLedger.Pairs ledger events) :
    Tracks (events.foldl DnrLedger.record ledger) (events.foldl DnrProcess.step process) := by
  induction events generalizing ledger process with
  | nil => exact tracks
  | cons event rest ih => exact ih (tracks.step event finishes.1 pairs.1) finishes.2 pairs.2

theorem tracks_runDnr {events : List DnrEvent}
    (finishes : DnrLedger.Along DnrLedger.Finishes .start events)
    (pairs : DnrLedger.Along DnrLedger.Pairs .start events) :
    Tracks (ledgerOf events) (runDnr events) :=
  tracks_start.run finishes pairs

end Steps

section Requests

variable {ledger : DnrLedger} {process : DnrProcess} {engine : ℕ} {id : PartitionId}

/-- What an attached partition has for a request it has just been routed. -/
structure Candidates (rules : List DnrIndexedRule) (kind : PartitionKind)
    (context : DnrRequestContext) (lists : List (List DnrIndexedRule)) : Prop where
  /-- Each rule that meets the request, exactly once. -/
  once : ∀ test : DnrIndexedRule → Bool,
    (∀ rule keyText, ruleRoute rule = some (kind, keyText) → test rule = true →
      Meets rule keyText context) →
    (lists.flatten.filter test).Perm (rules.filter test)
  sorted : ∀ list ∈ lists, list.Pairwise rulePrecedes

theorem FinishedAs.sorted {dictionary : NgramDictionary} {partition : DnrRulePartition}
    {filed : List FiledRule} (lists : FinishedAs dictionary partition filed) {key : CandidateKey}
    {list : List DnrIndexedRule} (listed : partition.listFor key = some list) :
    list.Pairwise rulePrecedes := by
  have ordered : ∀ rules, (DnrRulePartition.sorted rules).Pairwise rulePrecedes :=
    fun rules => List.pairwise_insertionSort rulePrecedes rules
  have stored {Key : Type} [DecidableEq Key] {map : JsMap Key (List DnrIndexedRule)} {key : Key}
      (found : map.get? key = some list) : listAt map key = list := by
    unfold listAt
    rw [found]
    rfl
  cases key with
  | ngram gram =>
    rw [← stored listed, lists.ngram]
    exact ordered _
  | unindexed =>
    cases listed
    rw [lists.scan]
    exact ordered _
  | request domain =>
    rw [← stored listed, lists.request]
    exact ordered _
  | initiator domain =>
    rw [← stored listed, lists.initiator]
    exact ordered _

/-- After any run, a request finds every rule it meets in each attached partition. -/
theorem Tracks.candidates (tracks : Tracks ledger process) (id : PartitionId)
    (attached : id.index ∈ ledger.attached engine) (request : DnrRequest) :
    Candidates (ledger.rulesOf id) id.kind (process.request engine request).1
      (((process.request engine request).2.heap id).candidateLists
        (process.request engine request).1) := by
  have created := tracks.create request
  have read := readContext_create tracks.sound request
  unfold DnrProcess.request
  dsimp only
  generalize (process.createDnrRequestContext request).2 = before at created read ⊢
  generalize (process.createDnrRequestContext request).1 = context at read ⊢
  have routed := distribute_routed before engine context id
  have fresh : (before.heap id).ready (before.lastEpoch + 1) = [] := by
    unfold DnrRulePartition.ready
    rw [if_neg]
    intro hit
    have old := created.epochs id _ hit
    omega
  have lists : ((before.distribute engine context).2.heap id).candidateLists
      (before.distribute engine context).1 =
      (((before.engines engine).hits context).filter (·.1 = id)).filterMap
        fun hit => (before.heap id).listFor hit.2 := by
    rw [candidateLists_of_epoch (before.lastEpoch + 1) rfl, routed.ready, fresh,
      List.nil_append]
  obtain ⟨filed, finished, same, goes⟩ :=
    (created.finished id (created.attached engine _ attached)).filed
  rw [lists]
  constructor
  case once =>
    intro test meets
    rw [← same]
    refine pickedUp_filter_perm (created.posted engine) attached finished read ?_
    intro entry member tested
    obtain ⟨domains, windows⟩ := meets entry.rule entry.keyText (goes entry member) tested
    exact ⟨domains, windows⟩
  case sorted =>
    intro list member
    obtain ⟨hit, _, listed⟩ := List.mem_filterMap.mp member
    exact finished.sorted listed

end Requests

end OxeeUI.Dnr
