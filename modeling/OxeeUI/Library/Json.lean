import Mathlib.Logic.Basic
import Mathlib.Data.List.Dedup
import Mathlib.Data.String.Basic
import Mathlib.Data.List.Sort
import OxeeUI.Library.JsMap

/-!
# Values of the modelled language

Plain data as it is read from disk or from the wire, with `undefined` for a
member whose value is absent.  Numbers are the integers the modelled code
stores; an object keeps its members in the order they were written.
-/

namespace OxeeUI.Library

/-- A plain value: what a parsed document, or an object literal, can hold. -/
inductive JsValue where
  | undefined
  | null
  | boolean (value : Bool)
  | number (value : Int)
  | string (value : String)
  | array (items : List JsValue)
  | object (members : List (String × JsValue))

namespace JsValue

instance : Inhabited JsValue := ⟨.undefined⟩

mutual

/-- Structural equality is decidable, members in order. -/
def decEq : (first second : JsValue) → Decidable (first = second)
  | .undefined, .undefined => isTrue rfl
  | .null, .null => isTrue rfl
  | .boolean first, .boolean second =>
    decidable_of_iff (first = second) ⟨congrArg _, fun same => JsValue.boolean.inj same⟩
  | .number first, .number second =>
    decidable_of_iff (first = second) ⟨congrArg _, fun same => JsValue.number.inj same⟩
  | .string first, .string second =>
    decidable_of_iff (first = second) ⟨congrArg _, fun same => JsValue.string.inj same⟩
  | .array first, .array second =>
    match decEqItems first second with
    | isTrue same => isTrue (congrArg _ same)
    | isFalse different => isFalse fun same => different (JsValue.array.inj same)
  | .object first, .object second =>
    match decEqMembers first second with
    | isTrue same => isTrue (congrArg _ same)
    | isFalse different => isFalse fun same => different (JsValue.object.inj same)
  | .undefined, .null | .undefined, .boolean _ | .undefined, .number _
  | .undefined, .string _ | .undefined, .array _ | .undefined, .object _
  | .null, .undefined | .null, .boolean _ | .null, .number _ | .null, .string _
  | .null, .array _ | .null, .object _
  | .boolean _, .undefined | .boolean _, .null | .boolean _, .number _
  | .boolean _, .string _ | .boolean _, .array _ | .boolean _, .object _
  | .number _, .undefined | .number _, .null | .number _, .boolean _
  | .number _, .string _ | .number _, .array _ | .number _, .object _
  | .string _, .undefined | .string _, .null | .string _, .boolean _
  | .string _, .number _ | .string _, .array _ | .string _, .object _
  | .array _, .undefined | .array _, .null | .array _, .boolean _
  | .array _, .number _ | .array _, .string _ | .array _, .object _
  | .object _, .undefined | .object _, .null | .object _, .boolean _
  | .object _, .number _ | .object _, .string _ | .object _, .array _ =>
    isFalse (by intro same; cases same)

def decEqItems : (first second : List JsValue) → Decidable (first = second)
  | [], [] => isTrue rfl
  | [], _ :: _ => isFalse (by intro same; cases same)
  | _ :: _, [] => isFalse (by intro same; cases same)
  | first :: firstRest, second :: secondRest =>
    match decEq first second, decEqItems firstRest secondRest with
    | isTrue head, isTrue tail => isTrue (by rw [head, tail])
    | isFalse different, _ => isFalse fun same => different (List.cons.inj same).1
    | _, isFalse different => isFalse fun same => different (List.cons.inj same).2

def decEqMembers : (first second : List (String × JsValue)) → Decidable (first = second)
  | [], [] => isTrue rfl
  | [], _ :: _ => isFalse (by intro same; cases same)
  | _ :: _, [] => isFalse (by intro same; cases same)
  | (firstKey, first) :: firstRest, (secondKey, second) :: secondRest =>
    match decEq first second, decEqMembers firstRest secondRest,
      (inferInstance : Decidable (firstKey = secondKey)) with
    | isTrue head, isTrue tail, isTrue key => isTrue (by rw [head, tail, key])
    | isFalse different, _, _ => isFalse fun same => different (by cases same; rfl)
    | _, isFalse different, _ => isFalse fun same => different (List.cons.inj same).2
    | _, _, isFalse different => isFalse fun same => different (by cases same; rfl)

end

instance : DecidableEq JsValue := decEq

/-- `value[key]`, or `undefined` when there is no such member. -/
def member (value : JsValue) (key : String) : JsValue :=
  match value with
  | .object members => (members.lookup key).getD .undefined
  | _ => .undefined

/-- `Object.hasOwn(value, key)`. -/
def hasOwn (value : JsValue) (key : String) : Bool :=
  match value with
  | .object members => (members.lookup key).isSome
  | _ => false

def string? : JsValue → Option String
  | .string value => some value
  | _ => none

def number? : JsValue → Option Int
  | .number value => some value
  | _ => none

end JsValue

end OxeeUI.Library

/-!
## Objects and their equality up to key order

An object is read and changed through its members.  Two comparisons of values
ignore the order of keys and members without a value: a recursive one, and
equality of a normal form.
-/

namespace OxeeUI.Library

/-- The members of an object: `Record<string, unknown>`. -/
abbrev Json := List (String × JsValue)

namespace Json

/-- `record[key]`. -/
def member (record : Json) (key : String) : JsValue := (record.lookup key).getD .undefined

/-- `Object.keys(record)`. -/
def memberKeys (record : Json) : List String := record.map Prod.fst

/-- `record[key] = value`. -/
def withMember (record : Json) (key : String) (value : JsValue) : Json :=
  JsMap.setEntries key value record

/-- `delete record[key]`. -/
def withoutMember (record : Json) (key : String) : Json :=
  record.filter fun entry => entry.1 ≠ key

@[simp] theorem member_nil (key : String) : member [] key = .undefined := rfl

theorem member_cons (entry : String × JsValue) (rest : Json) (key : String) :
    member (entry :: rest) key = if key = entry.1 then entry.2 else member rest key := by
  rcases entry with ⟨own, value⟩
  unfold member
  rw [List.lookup_cons]
  by_cases same : key = own
  · simp [same]
  · rw [beq_eq_false_iff_ne.mpr same, if_neg same]

theorem member_of_not_mem_keys {record : Json} {key : String}
    (absent : key ∉ record.memberKeys) : record.member key = .undefined := by
  unfold member
  rw [JsMap.lookup_eq_none_iff_not_mem.mpr absent]
  rfl

theorem member_withMember (record : Json) (key other : String) (value : JsValue) :
    (record.withMember key value).member other =
      if other = key then value else record.member other := by
  unfold member withMember
  rw [JsMap.lookup_setEntries]
  split <;> rfl

theorem member_withoutMember (record : Json) (key other : String) :
    (record.withoutMember key).member other =
      if other = key then .undefined else record.member other := by
  induction record with
  | nil => simp [withoutMember]
  | cons entry rest ih =>
    unfold withoutMember at ih ⊢
    rw [List.filter_cons, member_cons]
    by_cases kept : entry.1 = key
    · simp only [kept, ne_eq, not_true_eq_false, decide_false, Bool.false_eq_true, if_false]
      rw [ih]
      split <;> rfl
    · simp only [ne_eq, kept, not_false_eq_true, decide_true, if_true]
      rw [member_cons, ih]
      by_cases same : other = entry.1
      · simp [same, kept]
      · simp [same]

end Json

namespace JsValue

/-- `asJson`: the members of an object, none otherwise. -/
def asJson : JsValue → Json
  | .object members => members
  | _ => []

def isRecord : JsValue → Bool
  | .object _ => true
  | _ => false

/-- `Array.isArray(value) ? value : []`. -/
def items : JsValue → List JsValue
  | .array items => items
  | _ => []

theorem structural {Motive : JsValue → Prop}
    (plain : ∀ value, (∀ items, value ≠ .array items) → (∀ members, value ≠ .object members) →
      Motive value)
    (array : ∀ items, (∀ item ∈ items, Motive item) → Motive (.array items))
    (object : ∀ members, (∀ entry ∈ members, Motive entry.2) → Motive (.object members))
    (value : JsValue) : Motive value :=
  match value with
  | .undefined => plain _ (by simp) (by simp)
  | .null => plain _ (by simp) (by simp)
  | .boolean _ => plain _ (by simp) (by simp)
  | .number _ => plain _ (by simp) (by simp)
  | .string _ => plain _ (by simp) (by simp)
  | .array items => array items fun item _ => structural plain array object item
  | .object members => object members fun entry _ => structural plain array object entry.2
termination_by sizeOf value
decreasing_by
  · have := List.sizeOf_lt_of_mem ‹item ∈ items›
    simp only [JsValue.array.sizeOf_spec]
    omega
  · have := List.sizeOf_lt_of_mem ‹entry ∈ members›
    rcases entry with ⟨key, value⟩
    simp only [Prod.mk.sizeOf_spec, JsValue.object.sizeOf_spec] at this ⊢
    omega

/-! ## Equality where key order and undefined members do not count -/

mutual

def sameJson : JsValue → JsValue → Bool
  | .array left, .array right => sameItems left right
  | .object left, .object right =>
    sameMembers [] left right &&
      right.all fun entry =>
        entry.1 ∈ Json.memberKeys left || decide (Json.member right entry.1 = .undefined)
  | left, right => left = right

def sameItems : List JsValue → List JsValue → Bool
  | [], [] => true
  | left :: leftRest, right :: rightRest => sameJson left right && sameItems leftRest rightRest
  | _, _ => false

/-- The members of the left object not seen yet agree with the right one's. -/
def sameMembers (seen : List String) : Json → Json → Bool
  | [], _ => true
  | (key, value) :: rest, right =>
    (key ∈ seen || sameJson value (Json.member right key)) &&
      sameMembers (key :: seen) rest right

end

attribute [local simp] sameJson sameItems sameMembers

theorem sameMembers_iff (right : Json) (left : Json) (seen : List String) :
    sameMembers seen left right = true ↔
      ∀ key, key ∉ seen → key ∈ left.memberKeys →
        sameJson (left.member key) (right.member key) = true := by
  induction left generalizing seen with
  | nil => simp [Json.memberKeys]
  | cons entry rest ih =>
    rcases entry with ⟨own, value⟩
    rw [sameMembers, Bool.and_eq_true, Bool.or_eq_true, decide_eq_true_eq, ih]
    constructor
    · rintro ⟨first, later⟩ key unseen present
      rw [Json.member_cons]
      by_cases same : key = own
      · subst same
        simpa using first.resolve_left unseen
      · rw [if_neg same]
        refine later key (by simp [same, unseen]) ?_
        simpa [Json.memberKeys, same] using present
    · intro all
      constructor
      · by_cases earlier : own ∈ seen
        · exact Or.inl earlier
        · refine Or.inr ?_
          have first := all own earlier (by simp [Json.memberKeys])
          rwa [Json.member_cons, if_pos rfl] at first
      · intro key unseen present
        have apart : key ≠ own := by
          rintro rfl
          simp at unseen
        have rest := all key (fun member => unseen (List.mem_cons_of_mem _ member))
          (List.mem_cons_of_mem _ present)
        rwa [Json.member_cons, if_neg apart] at rest

theorem sameJson_undefined_left {right : JsValue} :
    sameJson .undefined right = true ↔ right = .undefined := by
  cases right <;> simp

theorem sameJson_object_iff {left right : Json} :
    sameJson (.object left) (.object right) = true ↔
      ∀ key, sameJson (left.member key) (right.member key) = true := by
  rw [sameJson, Bool.and_eq_true, sameMembers_iff, List.all_eq_true]
  constructor
  · rintro ⟨inner, outer⟩ key
    by_cases present : key ∈ left.memberKeys
    · exact inner key (by simp) present
    · rw [Json.member_of_not_mem_keys present, sameJson_undefined_left]
      by_cases other : key ∈ right.memberKeys
      · obtain ⟨entry, member, rfl⟩ := List.mem_map.mp other
        simpa [present] using outer entry member
      · exact Json.member_of_not_mem_keys other
  · intro all
    refine ⟨fun key _ _ => all key, fun entry member => ?_⟩
    by_cases present : entry.1 ∈ left.memberKeys
    · simp [present]
    · have absent := all entry.1
      rw [Json.member_of_not_mem_keys present, sameJson_undefined_left] at absent
      simp [absent]

theorem sameJson_array_iff {left right : List JsValue} :
    sameJson (.array left) (.array right) = true ↔
      List.Forall₂ (fun left right => sameJson left right = true) left right := by
  rw [sameJson]
  induction left generalizing right with
  | nil => cases right <;> simp
  | cons first rest ih => cases right <;> simp [ih]

theorem member_mem_or_undefined (members : Json) (key : String) :
    members.member key = .undefined ∨ ∃ entry ∈ members, entry.2 = members.member key := by
  induction members with
  | nil => exact Or.inl rfl
  | cons entry rest ih =>
    rw [Json.member_cons]
    split
    · exact Or.inr ⟨entry, List.mem_cons_self, rfl⟩
    · rcases ih with absent | ⟨found, member, same⟩
      · exact Or.inl absent
      · exact Or.inr ⟨found, List.mem_cons_of_mem _ member, same⟩

@[simp]
theorem sameJson_refl (value : JsValue) : sameJson value value = true := by
  induction value using structural with
  | plain value notArray notObject => cases value <;> simp_all
  | array items ih =>
    rw [sameJson_array_iff]
    exact List.forall₂_same.mpr ih
  | object members ih =>
    rw [sameJson_object_iff]
    intro key
    rcases member_mem_or_undefined members key with absent | ⟨entry, member, same⟩
    · rw [absent]
      simp
    · rw [← same]
      exact ih entry member

theorem sameJson_object_left {members : Json} {right : JsValue}
    (same : sameJson (.object members) right = true) : ∃ other, right = .object other := by
  cases right <;> simp_all

theorem sameJson_array_left {items : List JsValue} {right : JsValue}
    (same : sameJson (.array items) right = true) : ∃ other, right = .array other := by
  cases right <;> simp_all

theorem sameJson_plain {left right : JsValue} (notArray : ∀ items, left ≠ .array items)
    (notObject : ∀ members, left ≠ .object members) (same : sameJson left right = true) :
    left = right := by
  cases left <;> cases right <;> simp_all

theorem sameJson_symm {left right : JsValue} (same : sameJson left right = true) :
    sameJson right left = true := by
  induction left using structural generalizing right with
  | plain left notArray notObject =>
    rw [sameJson_plain notArray notObject same]
    exact sameJson_refl right
  | array items ih =>
    obtain ⟨other, rfl⟩ := sameJson_array_left same
    rw [sameJson_array_iff] at same ⊢
    induction same with
    | nil => exact .nil
    | cons first rest rec =>
      exact .cons (ih _ List.mem_cons_self first)
        (rec fun item member => ih item (List.mem_cons_of_mem _ member))
  | object members ih =>
    obtain ⟨other, rfl⟩ := sameJson_object_left same
    rw [sameJson_object_iff] at same ⊢
    intro key
    have here := same key
    rcases member_mem_or_undefined members key with absent | ⟨entry, member, eq⟩
    · rw [absent, sameJson_undefined_left] at here
      rw [absent, here]
      simp
    · rw [← eq] at here ⊢
      exact ih entry member here

/-! ## The normal form: members sorted, none undefined -/

def sortMembers (members : Json) : Json :=
  ((members.memberKeys.dedup.filter fun key => members.member key ≠ .undefined).insertionSort
    (· ≤ ·)).map fun key => (key, members.member key)

mutual

/-- The tree `stableJson` writes out. -/
def stableJson : JsValue → JsValue
  | .array items => .array (stableItems items)
  | .object members => .object (sortMembers (stableMembers members))
  | value => value

def stableItems : List JsValue → List JsValue
  | [] => []
  | item :: rest =>
    (if stableJson item = .undefined then .null else stableJson item) :: stableItems rest

def stableMembers : Json → Json
  | [] => []
  | (key, value) :: rest => (key, stableJson value) :: stableMembers rest

end

theorem member_of_mapped (keys : List String) (value : String → JsValue) (key : String) :
    Json.member (keys.map fun key => (key, value key)) key =
      if key ∈ keys then value key else .undefined := by
  induction keys with
  | nil => rfl
  | cons first rest ih =>
    rw [List.map_cons, Json.member_cons, ih]
    by_cases same : key = first <;> simp [same]

theorem member_sortMembers (members : Json) (key : String) :
    (sortMembers members).member key = members.member key := by
  unfold sortMembers
  rw [member_of_mapped]
  simp only [List.mem_insertionSort, List.mem_filter, List.mem_dedup]
  split
  · rfl
  case isFalse absent =>
    by_contra value
    refine absent ⟨?_, decide_eq_true fun missing => value missing.symm⟩
    by_contra missing
    exact value (Json.member_of_not_mem_keys missing).symm

theorem sortMembers_eq_iff {left right : Json} :
    sortMembers left = sortMembers right ↔ ∀ key, left.member key = right.member key := by
  constructor
  · intro same key
    rw [← member_sortMembers left, same, member_sortMembers]
  · intro all
    have held : ∀ members : Json, ∀ key,
        key ∈ members.memberKeys.dedup.filter (fun key => members.member key ≠ .undefined) ↔
          members.member key ≠ .undefined := by
      intro members key
      rw [List.mem_filter, List.mem_dedup, decide_eq_true_eq, and_iff_right_iff_imp]
      intro value
      by_contra absent
      exact value (Json.member_of_not_mem_keys absent)
    have perm : (left.memberKeys.dedup.filter fun key => left.member key ≠ .undefined).Perm
        (right.memberKeys.dedup.filter fun key => right.member key ≠ .undefined) := by
      refine (List.perm_ext_iff_of_nodup ((List.nodup_dedup _).filter _)
        ((List.nodup_dedup _).filter _)).mpr fun key => ?_
      rw [held, held, all key]
    have sorted := List.Perm.eq_of_sortedLE List.sortedLE_insertionSort
      List.sortedLE_insertionSort
      (((List.perm_insertionSort (· ≤ ·) _).trans perm).trans
        (List.perm_insertionSort (· ≤ ·) _).symm)
    unfold sortMembers
    rw [sorted]
    exact List.map_congr_left fun key _ => by rw [all key]

theorem member_stableMembers (members : Json) (key : String) :
    (stableMembers members).member key = stableJson (members.member key) := by
  induction members with
  | nil => rfl
  | cons entry rest ih =>
    rcases entry with ⟨own, value⟩
    rw [stableMembers, Json.member_cons, Json.member_cons]
    split
    · rfl
    · exact ih

theorem stableJson_object_iff {left right : Json} :
    stableJson (.object left) = stableJson (.object right) ↔
      ∀ key, stableJson (left.member key) = stableJson (right.member key) := by
  rw [stableJson, stableJson, JsValue.object.injEq, sortMembers_eq_iff]
  simp only [member_stableMembers]

@[simp]
theorem stableJson_eq_undefined_iff {value : JsValue} :
    stableJson value = .undefined ↔ value = .undefined := by
  cases value <;> simp [stableJson]

theorem stableItems_eq_map (items : List JsValue) :
    stableItems items =
      items.map fun item => if stableJson item = .undefined then .null else stableJson item := by
  induction items with
  | nil => rfl
  | cons item rest ih => rw [stableItems, ih, List.map_cons]

theorem stableJson_array_iff {left right : List JsValue}
    (leftPresent : ∀ item ∈ left, item ≠ .undefined)
    (rightPresent : ∀ item ∈ right, item ≠ .undefined) :
    stableJson (.array left) = stableJson (.array right) ↔
      left.map stableJson = right.map stableJson := by
  have plain : ∀ items : List JsValue, (∀ item ∈ items, item ≠ .undefined) →
      stableItems items = items.map stableJson := by
    intro items present
    rw [stableItems_eq_map]
    refine List.map_congr_left fun item member => ?_
    rw [if_neg (by simpa using present item member)]
  rw [stableJson, stableJson, JsValue.array.injEq, plain left leftPresent,
    plain right rightPresent]

end JsValue

end OxeeUI.Library
