import OxeeUI.Library.JsMap
import OxeeUI.Dnr.NgramDictionary
import OxeeUI.Dnr.RuleMatching

/-!
# Partitions of a ruleset

Each rule is filed once: under the most distinctive window of its filter, else
under domains it includes, else in a list every request scans.  A finished
partition has each list sorted.  The requests routed to it leave their hits in
its scratch, which only the latest request may read.
-/

namespace OxeeUI.Dnr

open OxeeUI.Library

section Keys

def commonUrlTexts : List String :=
  ["https://www.", "http://www.", ".com/", ".net/", ".org/", ".html", "/index.", "/wp-content/",
    "/uploads/", "/plugins/", "/themes/", "/static/", "/assets/", "/images/", ".min.js", "google"]

def commonUrlNgrams : List Gram :=
  commonUrlTexts.flatMap fun text => (patternNgrams (units text)).map PatternGram.gram

def pathNgramPenalty : ℕ := 4

def ngramCost (text : CodeUnits) (hostEnd : ℕ) (gram : PatternGram) : ℕ :=
  if ((text.drop gram.start).take 5).contains 58 || commonUrlNgrams.contains gram.gram then
    1000000000
  else if gram.start + 5 ≤ hostEnd then 0
  else pathNgramPenalty

def isLabelUnit (code : ℕ) : Bool :=
  decide (97 ≤ code ∧ code ≤ 122) || decide (48 ≤ code ∧ code ≤ 57) || code == 45

/-- The length of the dotted labels a text begins with; the text's length bounds their number. -/
def dottedLabelsLength : ℕ → CodeUnits → ℕ
  | 0, _ => 0
  | _, [] => 0
  | fuel + 1, code :: rest =>
    let label := rest.takeWhile isLabelUnit
    if code = dot ∧ label ≠ [] then
      1 + label.length + dottedLabelsLength fuel (rest.drop label.length)
    else 0

/-- The length of a leading host name; zero if there is none. -/
def leadingHostLength (text : CodeUnits) : ℕ :=
  let first := (text.takeWhile isLabelUnit).length
  let others := dottedLabelsLength text.length (text.drop first)
  let ends : Bool :=
    match text[first + others]? with
    | none => true
    | some code => [47, 94, 58, 63, 42].contains code
  if first ≠ 0 ∧ others ≠ 0 ∧ ends = true then first + others else 0

/-- The loop of `mostDistinctiveNgram`: the first gram of the least cost. -/
def cheapestGram (cost : PatternGram → ℕ) :
    List PatternGram → Option (PatternGram × ℕ) → Option (PatternGram × ℕ)
  | [], best => best
  | gram :: rest, best =>
    if best.all fun held => decide (cost gram < held.2) then
      if cost gram = 0 then some (gram, 0) else cheapestGram cost rest (some (gram, cost gram))
    else cheapestGram cost rest best

theorem cheapestGram_mem {cost : PatternGram → ℕ} {grams : List PatternGram}
    {best : Option (PatternGram × ℕ)} {gram : PatternGram} {price : ℕ}
    (chosen : cheapestGram cost grams best = some (gram, price)) :
    gram ∈ grams ∨ ∃ price, best = some (gram, price) := by
  induction grams generalizing best with
  | nil => exact .inr ⟨price, chosen⟩
  | cons first rest ih =>
    unfold cheapestGram at chosen
    split at chosen
    · split at chosen
      · cases chosen
        exact .inl List.mem_cons_self
      · rcases ih chosen with later | ⟨_, here⟩
        · exact .inl (List.mem_cons_of_mem _ later)
        · cases here
          exact .inl List.mem_cons_self
    · rcases ih chosen with later | before
      · exact .inl (List.mem_cons_of_mem _ later)
      · exact .inr before

end Keys

structure DnrRulePartition where
  byNgram : JsMap ℕ (List DnrIndexedRule)
  byRequestDomain : JsMap CodeUnits (List DnrIndexedRule)
  byInitiatorDomain : JsMap CodeUnits (List DnrIndexedRule)
  unindexed : List DnrIndexedRule
  size : ℕ
  /-- The epoch of the hits; nothing before the first. -/
  hitEpoch : Option ℕ
  hitLists : List (List DnrIndexedRule)

def listAt {Key : Type*} [DecidableEq Key] (map : JsMap Key (List DnrIndexedRule)) (key : Key) :
    List DnrIndexedRule :=
  (map.get? key).getD []

def push {Key : Type*} [DecidableEq Key] (map : JsMap Key (List DnrIndexedRule)) (key : Key)
    (rule : DnrIndexedRule) : JsMap Key (List DnrIndexedRule) :=
  map.set key (listAt map key ++ [rule])

def pushAll {Key : Type*} [DecidableEq Key] (map : JsMap Key (List DnrIndexedRule))
    (keys : List Key) (rule : DnrIndexedRule) : JsMap Key (List DnrIndexedRule) :=
  keys.foldl (fun map key => push map key rule) map

namespace DnrRulePartition

def new : DnrRulePartition := ⟨.empty, .empty, .empty, [], 0, none, []⟩

variable (dictionary : NgramDictionary) (partition : DnrRulePartition)

/-- What a gram costs as a key: the length of its list and the rank of the gram. -/
def gramCost (text : CodeUnits) (gram : PatternGram) : ℕ :=
  let size :=
    match (dictionary.lookup gram.gram false).1 with
    | none => 0
    | some id => (listAt partition.byNgram id).length
  size + ngramCost text (leadingHostLength text) gram

def mostDistinctiveNgram (text : CodeUnits) : Option ℕ × NgramDictionary :=
  match cheapestGram (gramCost dictionary partition text) (patternNgrams text) none with
  | none => (none, dictionary)
  | some (gram, _) => dictionary.lookup gram.gram true

/-- File a rule under domains it includes, or in the list every request scans. -/
def addUnkeyed (rule : DnrIndexedRule) : DnrRulePartition :=
  match suffixKeys rule.requestDomains with
  | some keys =>
    { partition with byRequestDomain := pushAll partition.byRequestDomain keys rule }
  | none =>
    match suffixKeys rule.initiatorDomains with
    | some keys =>
      { partition with byInitiatorDomain := pushAll partition.byInitiatorDomain keys rule }
    | none => { partition with unindexed := partition.unindexed ++ [rule] }

def add (rule : DnrIndexedRule) (keyText : CodeUnits) : DnrRulePartition × NgramDictionary :=
  let counted := { partition with size := partition.size + 1 }
  let (ngram, after) := counted.mostDistinctiveNgram dictionary (toLowerAscii keyText)
  match ngram with
  | some id => ({ counted with byNgram := push counted.byNgram id rule }, after)
  | none => (counted.addUnkeyed rule, after)

def sorted (rules : List DnrIndexedRule) : List DnrIndexedRule :=
  rules.insertionSort rulePrecedes

/-- Must run once after the last `add`. -/
def finish : DnrRulePartition :=
  { partition with
    byNgram := partition.byNgram.mapValues fun _ rules => sorted rules
    byRequestDomain := partition.byRequestDomain.mapValues fun _ rules => sorted rules
    byInitiatorDomain := partition.byInitiatorDomain.mapValues fun _ rules => sorted rules
    unindexed := sorted partition.unindexed }

def collect (epoch : ℕ) (rules : List DnrIndexedRule) : DnrRulePartition :=
  if partition.hitEpoch = some epoch then
    { partition with hitLists := partition.hitLists ++ [rules] }
  else { partition with hitEpoch := some epoch, hitLists := [rules] }

def candidateLists (context : DnrRequestContext) : List (List DnrIndexedRule) :=
  if context.ngramEpoch.isSome ∧ partition.hitEpoch = context.ngramEpoch then partition.hitLists
  else []

end DnrRulePartition

section Lists

variable {Key : Type*} [DecidableEq Key] {map : JsMap Key (List DnrIndexedRule)}

theorem listAt_push (map : JsMap Key (List DnrIndexedRule)) (key other : Key)
    (rule : DnrIndexedRule) :
    listAt (push map key rule) other =
      listAt map other ++ if other = key then [rule] else [] := by
  unfold listAt push
  rw [JsMap.get?_set]
  by_cases here : other = key
  · simp [here, listAt]
  · simp [here]

theorem listAt_pushAll {keys : List Key} (distinct : keys.Nodup)
    (map : JsMap Key (List DnrIndexedRule)) (rule : DnrIndexedRule) (other : Key) :
    listAt (pushAll map keys rule) other =
      listAt map other ++ if other ∈ keys then [rule] else [] := by
  unfold pushAll
  induction keys generalizing map with
  | nil => simp
  | cons key rest ih =>
    rw [List.nodup_cons] at distinct
    rw [List.foldl_cons, ih distinct.2, listAt_push]
    by_cases here : other = key
    · subst here
      simp [distinct.1]
    · simp [here]

/-- A key is present exactly when its list has a rule. -/
def NoEmptyList (map : JsMap Key (List DnrIndexedRule)) : Prop :=
  ∀ key, key ∈ map.keys ↔ listAt map key ≠ []

theorem noEmptyList_empty : NoEmptyList (.empty : JsMap Key (List DnrIndexedRule)) := by
  intro key
  simp [listAt]

theorem noEmptyList_push (full : NoEmptyList map) (key : Key) (rule : DnrIndexedRule) :
    NoEmptyList (push map key rule) := by
  intro other
  rw [listAt_push, push, JsMap.mem_keys_set, full other]
  by_cases here : other = key
  · simp [here]
  · simp [here]

theorem noEmptyList_pushAll (full : NoEmptyList map) (keys : List Key) (rule : DnrIndexedRule) :
    NoEmptyList (pushAll map keys rule) := by
  unfold pushAll
  induction keys generalizing map with
  | nil => exact full
  | cons key rest ih => exact ih (noEmptyList_push full key rule)

theorem listAt_sorted (map : JsMap Key (List DnrIndexedRule)) (key : Key) :
    listAt (map.mapValues fun _ rules => DnrRulePartition.sorted rules) key =
      DnrRulePartition.sorted (listAt map key) := by
  unfold listAt
  rw [JsMap.get?_mapValues]
  cases map.get? key with
  | none => rfl
  | some rules => rfl

theorem noEmptyList_sorted (full : NoEmptyList map) :
    NoEmptyList (map.mapValues fun _ rules => DnrRulePartition.sorted rules) := by
  intro key
  rw [JsMap.keys_mapValues, full key, listAt_sorted, not_iff_not, DnrRulePartition.sorted,
    ← List.length_eq_zero_iff, ← List.length_eq_zero_iff, List.length_insertionSort]

end Lists

inductive Filing
  | ngram (id : ℕ)
  | request (keys : List CodeUnits)
  | initiator (keys : List CodeUnits)
  | scan

namespace Filing

def underNgram (id : ℕ) : Filing → Bool
  | .ngram other => other == id
  | _ => false

def underRequest (domain : CodeUnits) : Filing → Bool
  | .request keys => keys.contains domain
  | _ => false

def underInitiator (domain : CodeUnits) : Filing → Bool
  | .initiator keys => keys.contains domain
  | _ => false

def isScan : Filing → Bool
  | .scan => true
  | _ => false

def Justified (dictionary : NgramDictionary) (rule : DnrIndexedRule) (keyText : CodeUnits) :
    Filing → Prop
  | .ngram id => ∃ gram ∈ patternNgrams (toLowerAscii keyText),
      dictionary.table.Stored gram.gram id
  | .request keys => suffixKeys rule.requestDomains = some keys
  | .initiator keys => suffixKeys rule.initiatorDomains = some keys
  | .scan => True

theorem Justified.keeps {dictionary later : NgramDictionary} {rule : DnrIndexedRule}
    {keyText : CodeUnits} {filing : Filing} (justified : filing.Justified dictionary rule keyText)
    (kept : dictionary.Keeps later) : filing.Justified later rule keyText := by
  cases filing with
  | ngram id =>
    obtain ⟨gram, member, stored⟩ := justified
    exact ⟨gram, member, kept _ _ stored⟩
  | request keys => exact justified
  | initiator keys => exact justified
  | scan => trivial

end Filing

/-- A rule with the text it is keyed by and the place it is filed. -/
structure FiledRule where
  rule : DnrIndexedRule
  keyText : CodeUnits
  filing : Filing

def filedUnder (test : Filing → Bool) (filed : List FiledRule) : List DnrIndexedRule :=
  (filed.filter fun entry => test entry.filing).map FiledRule.rule

theorem filedUnder_append (test : Filing → Bool) (filed : List FiledRule) (entry : FiledRule) :
    filedUnder test (filed ++ [entry]) =
      filedUnder test filed ++ if test entry.filing then [entry.rule] else [] := by
  unfold filedUnder
  rw [List.filter_append, List.map_append]
  congr 1
  cases tested : test entry.filing with
  | true => simp [tested]
  | false => simp [tested]

theorem filedUnder_skip {test : Filing → Bool} {entry : FiledRule}
    (elsewhere : test entry.filing = false) (filed : List FiledRule) :
    filedUnder test filed = filedUnder test (filed ++ [entry]) := by
  rw [filedUnder_append, elsewhere]
  simp

/-- The lists of a partition while it is built: each rule where it is filed, in order. -/
structure FiledAs (dictionary : NgramDictionary) (partition : DnrRulePartition)
    (filed : List FiledRule) : Prop where
  ngram : ∀ id, listAt partition.byNgram id = filedUnder (Filing.underNgram id) filed
  request : ∀ domain,
    listAt partition.byRequestDomain domain = filedUnder (Filing.underRequest domain) filed
  initiator : ∀ domain,
    listAt partition.byInitiatorDomain domain = filedUnder (Filing.underInitiator domain) filed
  scan : partition.unindexed = filedUnder Filing.isScan filed
  fullNgram : NoEmptyList partition.byNgram
  fullRequest : NoEmptyList partition.byRequestDomain
  fullInitiator : NoEmptyList partition.byInitiatorDomain
  justified : ∀ entry ∈ filed, entry.filing.Justified dictionary entry.rule entry.keyText
  unread : partition.hitEpoch = none
  size : partition.size = filed.length

theorem filedAs_new (dictionary : NgramDictionary) : FiledAs dictionary .new [] where
  ngram := fun _ => rfl
  request := fun _ => rfl
  initiator := fun _ => rfl
  scan := rfl
  fullNgram := noEmptyList_empty
  fullRequest := noEmptyList_empty
  fullInitiator := noEmptyList_empty
  justified := by simp
  unread := rfl
  size := rfl

section Add

variable {dictionary : NgramDictionary} {partition : DnrRulePartition} {filed : List FiledRule}
  {rule : DnrIndexedRule} {keyText : CodeUnits}

theorem mostDistinctiveNgram_spec (sound : dictionary.Sound) (partition : DnrRulePartition)
    (text : CodeUnits) :
    (partition.mostDistinctiveNgram dictionary text).2.Sound ∧
      dictionary.Keeps (partition.mostDistinctiveNgram dictionary text).2 ∧
      ∀ id, (partition.mostDistinctiveNgram dictionary text).1 = some id →
        ∃ gram ∈ patternNgrams text,
          (partition.mostDistinctiveNgram dictionary text).2.table.Stored gram.gram id := by
  unfold DnrRulePartition.mostDistinctiveNgram
  cases chosen : cheapestGram (partition.gramCost dictionary text) (patternNgrams text) none with
  | none =>
    refine ⟨sound, .refl _, fun id found => ?_⟩
    cases found
  | some best =>
    obtain ⟨gram, price⟩ := best
    obtain ⟨id, found, after, kept, stored⟩ :=
      NgramDictionary.lookup_create sound gram.gram
    refine ⟨after, kept, fun other same => ?_⟩
    dsimp only at same ⊢
    rw [found] at same
    cases same
    rcases cheapestGram_mem chosen with member | ⟨_, before⟩
    · exact ⟨gram, member, stored⟩
    · cases before

theorem justified_append {later : NgramDictionary} (kept : dictionary.Keeps later)
    (justified : ∀ entry ∈ filed, entry.filing.Justified dictionary entry.rule entry.keyText)
    {entry : FiledRule} (new : entry.filing.Justified later entry.rule entry.keyText) :
    ∀ other ∈ filed ++ [entry], other.filing.Justified later other.rule other.keyText := by
  intro other member
  rcases List.mem_append.mp member with before | here
  · exact (justified other before).keeps kept
  · rw [List.mem_singleton.mp here]
    exact new

/-- Where no window keys a rule it is filed under its domains, or scanned. -/
theorem filedAs_addUnkeyed (held : FiledAs dictionary partition filed) (rule : DnrIndexedRule)
    (keyText : CodeUnits) :
    ∃ filing, FiledAs dictionary
      { partition.addUnkeyed rule with size := partition.size + 1 }
      (filed ++ [⟨rule, keyText, filing⟩]) := by
  have size : ∀ entry : FiledRule, partition.size + 1 = (filed ++ [entry]).length := by
    intro entry
    rw [List.length_append, held.size]
    rfl
  unfold DnrRulePartition.addUnkeyed
  cases requested : suffixKeys rule.requestDomains with
  | some keys =>
    have distinct : keys.Nodup := by
      cases listed : rule.requestDomains with
      | none =>
        rw [listed] at requested
        cases requested
      | some list =>
        rw [listed] at requested
        exact (suffixKeys_spec requested).2.1
    refine ⟨.request keys, ?_⟩
    constructor
    case ngram => exact fun id => (held.ngram id).trans (filedUnder_skip rfl filed)
    case request =>
      intro domain
      rw [listAt_pushAll distinct, held.request, filedUnder_append]
      simp [Filing.underRequest]
    case initiator => exact fun domain => (held.initiator domain).trans (filedUnder_skip rfl filed)
    case scan => exact held.scan.trans (filedUnder_skip rfl filed)
    case fullNgram => exact held.fullNgram
    case fullRequest => exact noEmptyList_pushAll held.fullRequest keys rule
    case fullInitiator => exact held.fullInitiator
    case justified => exact justified_append (.refl _) held.justified requested
    case unread => exact held.unread
    case size => exact size _
  | none =>
    dsimp only
    cases initiated : suffixKeys rule.initiatorDomains with
    | some keys =>
      have distinct : keys.Nodup := by
        cases listed : rule.initiatorDomains with
        | none =>
          rw [listed] at initiated
          cases initiated
        | some list =>
          rw [listed] at initiated
          exact (suffixKeys_spec initiated).2.1
      refine ⟨.initiator keys, ?_⟩
      constructor
      case ngram => exact fun id => (held.ngram id).trans (filedUnder_skip rfl filed)
      case request => exact fun domain => (held.request domain).trans (filedUnder_skip rfl filed)
      case initiator =>
        intro domain
        rw [listAt_pushAll distinct, held.initiator, filedUnder_append]
        simp [Filing.underInitiator]
      case scan => exact held.scan.trans (filedUnder_skip rfl filed)
      case fullNgram => exact held.fullNgram
      case fullRequest => exact held.fullRequest
      case fullInitiator => exact noEmptyList_pushAll held.fullInitiator keys rule
      case justified => exact justified_append (.refl _) held.justified initiated
      case unread => exact held.unread
      case size => exact size _
    | none =>
      refine ⟨.scan, ?_⟩
      constructor
      case ngram => exact fun id => (held.ngram id).trans (filedUnder_skip rfl filed)
      case request => exact fun domain => (held.request domain).trans (filedUnder_skip rfl filed)
      case initiator => exact fun domain => (held.initiator domain).trans (filedUnder_skip rfl filed)
      case scan => simp [filedUnder_append, Filing.isScan, held.scan]
      case fullNgram => exact held.fullNgram
      case fullRequest => exact held.fullRequest
      case fullInitiator => exact held.fullInitiator
      case justified =>
        refine justified_append (.refl _) held.justified ?_
        trivial
      case unread => exact held.unread
      case size => exact size _

theorem FiledAs.keeps {later : NgramDictionary} (held : FiledAs dictionary partition filed)
    (kept : dictionary.Keeps later) : FiledAs later partition filed :=
  { held with
    justified := fun entry member => (held.justified entry member).keeps kept }

theorem filedAs_add (sound : dictionary.Sound) (held : FiledAs dictionary partition filed)
    (rule : DnrIndexedRule) (keyText : CodeUnits) :
    (partition.add dictionary rule keyText).2.Sound ∧
      dictionary.Keeps (partition.add dictionary rule keyText).2 ∧
      ∃ filing, FiledAs (partition.add dictionary rule keyText).2
        (partition.add dictionary rule keyText).1 (filed ++ [⟨rule, keyText, filing⟩]) := by
  have spec := mostDistinctiveNgram_spec sound { partition with size := partition.size + 1 }
    (toLowerAscii keyText)
  unfold DnrRulePartition.add
  dsimp only
  generalize DnrRulePartition.mostDistinctiveNgram dictionary
    { partition with size := partition.size + 1 } (toLowerAscii keyText) = choice at spec ⊢
  obtain ⟨ngram, after⟩ := choice
  obtain ⟨soundAfter, kept, chosen⟩ := spec
  cases ngram with
  | none =>
    refine ⟨soundAfter, kept, ?_⟩
    have later : FiledAs after partition filed := held.keeps kept
    obtain ⟨filing, added⟩ := filedAs_addUnkeyed later rule keyText
    refine ⟨filing, ?_⟩
    have same : DnrRulePartition.addUnkeyed { partition with size := partition.size + 1 } rule =
        { partition.addUnkeyed rule with size := partition.size + 1 } := by
      unfold DnrRulePartition.addUnkeyed
      cases suffixKeys rule.requestDomains with
      | some keys => rfl
      | none =>
        cases suffixKeys rule.initiatorDomains with
        | some keys => rfl
        | none => rfl
    dsimp only
    rw [same]
    exact added
  | some id =>
    refine ⟨soundAfter, kept, .ngram id, ?_⟩
    constructor
    case ngram =>
      intro other
      rw [listAt_push, held.ngram, filedUnder_append]
      by_cases here : other = id
      · simp [Filing.underNgram, here]
      · simp [Filing.underNgram, here, Ne.symm here]
    case request => exact fun domain => (held.request domain).trans (filedUnder_skip rfl filed)
    case initiator => exact fun domain => (held.initiator domain).trans (filedUnder_skip rfl filed)
    case scan => exact held.scan.trans (filedUnder_skip rfl filed)
    case fullNgram => exact noEmptyList_push held.fullNgram id rule
    case fullRequest => exact held.fullRequest
    case fullInitiator => exact held.fullInitiator
    case justified => exact justified_append kept held.justified (chosen id rfl)
    case unread => exact held.unread
    case size => rw [List.length_append, ← held.size]; rfl

end Add

end OxeeUI.Dnr
