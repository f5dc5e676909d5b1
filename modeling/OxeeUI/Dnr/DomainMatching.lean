import OxeeUI.Dnr.Ngrams
import Mathlib.Data.List.Sort
import Mathlib.Data.List.Nodup

/-!
# Domain lists

A list of domains matches a host by its longest listed domain.  Short lists are
scanned, long ones are looked up by the label suffixes of the host.  A rule with
a domain list is filed under the domains that have no other listed domain among
their own label suffixes, and exactly one of these is a label suffix of a host
the list matches.
-/

namespace OxeeUI.Dnr

def dot : ℕ := 46

/-- The order domain lists are stored in: longer first, then by code unit. -/
def storedBefore (left right : CodeUnits) : Bool :=
  if left.length ≠ right.length then decide (right.length < left.length)
  else decide (left ≤ right)

/-- `domainIs`: a trailing dot on the host is ignored. -/
def domainIs (host domain : CodeUnits) : Bool :=
  if host = [] ∨ domain = [] then false
  else
    let hostLength :=
      if host.getLast? = some dot ∧ domain.getLast? ≠ some dot then host.length - 1
      else host.length
    if hostLength < domain.length then false
    else
      let start := hostLength - domain.length
      if domain.isPrefixOf (host.drop start) then
        domain.head? == some dot || hostLength == domain.length || host[start - 1]? == some dot
      else false

def labelTails : CodeUnits → List CodeUnits
  | [] => []
  | code :: rest => if code = dot then rest :: labelTails rest else labelTails rest

def trimDot (host : CodeUnits) : CodeUnits :=
  if host.getLast? = some dot then host.dropLast else host

/-- The label suffixes of a host in decreasing length, without one trailing dot. -/
def hostLabelSuffixes (host : CodeUnits) : List CodeUnits :=
  if trimDot host = [] then [] else trimDot host :: labelTails (trimDot host)

structure DnrDomainList where
  domains : List CodeUnits

namespace DnrDomainList

def ofDomains (domains : List CodeUnits) : DnrDomainList :=
  ⟨domains.insertionSort fun left right => storedBefore left right = true⟩

/-- Whether the list is looked up rather than scanned. -/
def looksUp (list : DnrDomainList) : Bool := decide (5 < list.domains.length)

/-- The length of the longest listed domain of a host, or zero. -/
def longestMatch (list : DnrDomainList) (host : CodeUnits) (suffixes : List CodeUnits) : ℕ :=
  if host = [] then 0
  else if list.looksUp then
    ((suffixes.find? fun suffix => list.domains.contains suffix).map List.length).getD 0
  else ((list.domains.find? (domainIs host)).map List.length).getD 0

end DnrDomainList

/-- An exclusion wins only when it is at least as long as the inclusion. -/
def hostMatchesDomainLists (host : CodeUnits) (suffixes : List CodeUnits)
    (included excluded : Option DnrDomainList) : Bool :=
  let longestIncluded := (included.map fun list => list.longestMatch host suffixes).getD 1
  match excluded with
  | some list =>
    if 0 < longestIncluded then decide (list.longestMatch host suffixes < longestIncluded)
    else false
  | none => decide (0 < longestIncluded)

def unkeyable (domain : CodeUnits) : Bool :=
  domain == [] || domain.head? == some dot || domain.getLast? == some dot

/-- The domains a rule is filed under, or nothing where a lookup could miss one. -/
def suffixKeys (list : Option DnrDomainList) : Option (List CodeUnits) :=
  match list with
  | none => none
  | some list =>
    if list.domains.any unkeyable then none
    else
      some (list.domains.eraseDups.filter fun domain =>
        (hostLabelSuffixes domain).all fun suffix =>
          suffix == domain || !list.domains.contains suffix)

section Suffixes

theorem nodup_eraseDups {Item : Type*} [BEq Item] [LawfulBEq Item] (items : List Item) :
    items.eraseDups.Nodup := by
  induction length : items.length using Nat.strong_induction_on generalizing items with
  | _ _ ih =>
    cases items with
    | nil => exact List.nodup_nil
    | cons item rest =>
      rw [List.eraseDups_cons, List.nodup_cons]
      constructor
      · rw [List.mem_eraseDups]
        simp
      · refine ih _ ?_ _ rfl
        have shorter := List.length_filter_le (fun other => !other == item) rest
        rw [List.length_cons] at length
        omega

theorem length_of_mem_labelTails {text tail : CodeUnits} (member : tail ∈ labelTails text) :
    tail.length < text.length := by
  induction text with
  | nil => cases member
  | cons code rest ih =>
    unfold labelTails at member
    rw [List.length_cons]
    split at member
    · rcases List.mem_cons.mp member with rfl | later
      · exact Nat.lt_succ_self _
      · exact Nat.lt_succ_of_lt (ih later)
    · exact Nat.lt_succ_of_lt (ih member)

theorem labelTails_pairwise (text : CodeUnits) :
    (text :: labelTails text).Pairwise fun longer shorter => shorter ∈ labelTails longer := by
  induction text with
  | nil => simp [labelTails]
  | cons code rest ih =>
    refine List.pairwise_cons.mpr ⟨fun _ member => member, ?_⟩
    by_cases isDot : code = dot
    · rw [labelTails, if_pos isDot]
      exact ih
    · rw [labelTails, if_neg isDot]
      exact (List.pairwise_cons.mp ih).2

theorem labelTails_trans {text middle tail : CodeUnits} (first : middle ∈ labelTails text)
    (second : tail ∈ labelTails middle) : tail ∈ labelTails text := by
  induction text with
  | nil => cases first
  | cons code rest ih =>
    unfold labelTails at first ⊢
    split at first
    case isTrue isDot =>
      rw [if_pos isDot]
      rcases List.mem_cons.mp first with rfl | later
      · exact List.mem_cons_of_mem _ second
      · exact List.mem_cons_of_mem _ (ih later)
    case isFalse notDot =>
      rw [if_neg notDot]
      exact ih first

theorem drop_mem_labelTails {text : CodeUnits} {index : ℕ} (isDot : text[index]? = some dot) :
    text.drop (index + 1) ∈ labelTails text := by
  induction text generalizing index with
  | nil => cases isDot
  | cons code rest ih =>
    unfold labelTails
    cases index with
    | zero =>
      have here : code = dot := by simpa using isDot
      simp [here]
    | succ index =>
      have later := @ih index (by simpa using isDot)
      split
      · exact List.mem_cons_of_mem _ (by simpa using later)
      · simpa using later

theorem hostLabelSuffixes_pairwise (host : CodeUnits) :
    (hostLabelSuffixes host).Pairwise fun longer shorter => shorter ∈ labelTails longer := by
  unfold hostLabelSuffixes
  split
  · exact List.Pairwise.nil
  · exact labelTails_pairwise _

theorem mem_suffixes_of_tail {host middle tail : CodeUnits}
    (first : middle ∈ hostLabelSuffixes host) (second : tail ∈ labelTails middle) :
    tail ∈ hostLabelSuffixes host := by
  unfold hostLabelSuffixes at first ⊢
  split at first
  · cases first
  case isFalse nonempty =>
    rw [if_neg nonempty]
    rcases List.mem_cons.mp first with rfl | later
    · exact List.mem_cons_of_mem _ second
    · exact List.mem_cons_of_mem _ (labelTails_trans later second)

theorem suffixes_of_keyable {domain : CodeUnits} (keyable : unkeyable domain = false) :
    hostLabelSuffixes domain = domain :: labelTails domain := by
  simp only [unkeyable, Bool.or_eq_false_iff, beq_eq_false_iff_ne] at keyable
  have untrimmed : trimDot domain = domain := by
    rw [trimDot, if_neg keyable.2]
  rw [hostLabelSuffixes, untrimmed, if_neg keyable.1.1]

theorem slice_of_prefix {text front slice : CodeUnits} (begins : front <+: text)
    (short : slice.length ≤ front.length)
    (starts : slice <+: text.drop (front.length - slice.length)) :
    slice = front.drop (front.length - slice.length) := by
  obtain ⟨rest, rfl⟩ := begins
  rw [List.drop_append_of_le_length (Nat.sub_le _ _)] at starts
  have ends : (front.drop (front.length - slice.length)).length = slice.length := by
    rw [List.length_drop]
    omega
  have inside := List.prefix_of_prefix_length_le starts (List.prefix_append _ rest)
    (le_of_eq ends.symm)
  exact inside.eq_of_length ends.symm

/-- A domain a host belongs to is one of the host's label suffixes. -/
theorem mem_suffixes_of_domainIs {host domain : CodeUnits} (keyable : unkeyable domain = false)
    (belongs : domainIs host domain = true) : domain ∈ hostLabelSuffixes host := by
  simp only [unkeyable, Bool.or_eq_false_iff, beq_eq_false_iff_ne] at keyable
  obtain ⟨⟨nonempty, noLead⟩, noTrail⟩ := keyable
  unfold domainIs at belongs
  split at belongs
  · cases belongs
  case isFalse present =>
    rw [not_or] at present
    have trimmed : (if host.getLast? = some dot ∧ domain.getLast? ≠ some dot then
        host.length - 1 else host.length) = (trimDot host).length := by
      unfold trimDot
      by_cases trailing : host.getLast? = some dot
      · simp [trailing, noTrail]
      · simp [trailing]
    have begins : trimDot host <+: host := by
      unfold trimDot
      split
      · exact List.dropLast_prefix host
      · exact List.prefix_rfl
    rw [trimmed] at belongs
    dsimp only at belongs
    split at belongs
    · cases belongs
    case isFalse fits =>
      split at belongs
      case isFalse => cases belongs
      case isTrue starts =>
        have short : domain.length ≤ (trimDot host).length := Nat.not_lt.mp fits
        have slice := slice_of_prefix begins short (List.isPrefixOf_iff_prefix.mp starts)
        have filled : trimDot host ≠ [] := by
          intro none
          rw [none] at short
          exact nonempty (List.length_eq_zero_iff.mp (Nat.le_zero.mp short))
        rw [hostLabelSuffixes, if_neg filled]
        simp only [Bool.or_eq_true, beq_iff_eq] at belongs
        rcases belongs with (lead | complete) | boundary
        · exact absurd lead noLead
        · rw [complete, Nat.sub_self, List.drop_zero] at slice
          rw [slice]
          exact List.mem_cons_self
        · by_cases complete : (trimDot host).length = domain.length
          · rw [complete, Nat.sub_self, List.drop_zero] at slice
            rw [slice]
            exact List.mem_cons_self
          · have inside : (trimDot host).length - domain.length - 1 < (trimDot host).length := by
              have positive := List.length_pos_iff.mpr nonempty
              omega
            rw [List.prefix_iff_getElem?.mp begins _ inside, ← List.getElem?_eq_getElem inside]
              at boundary
            have tail := drop_mem_labelTails boundary
            rw [show (trimDot host).length - domain.length - 1 + 1 =
              (trimDot host).length - domain.length by omega, ← slice] at tail
            exact List.mem_cons_of_mem _ tail

end Suffixes

section Keys

variable {list : DnrDomainList} {keys : List CodeUnits} {host : CodeUnits}

theorem suffixKeys_spec (filed : suffixKeys (some list) = some keys) :
    (∀ domain ∈ list.domains, unkeyable domain = false) ∧ keys.Nodup ∧
      ∀ domain, domain ∈ keys ↔ domain ∈ list.domains ∧
        ∀ suffix ∈ hostLabelSuffixes domain, suffix = domain ∨ suffix ∉ list.domains := by
  unfold suffixKeys at filed
  dsimp only at filed
  split at filed
  · cases filed
  case isFalse keyable =>
    cases filed
    refine ⟨?_, (nodup_eraseDups _).filter _, fun domain => ?_⟩
    · simpa using keyable
    · simp [List.mem_filter, List.mem_eraseDups]

theorem exists_suffix_of_match (keyable : ∀ domain ∈ list.domains, unkeyable domain = false)
    (matched : 0 < list.longestMatch host (hostLabelSuffixes host)) :
    ∃ domain ∈ list.domains, domain ∈ hostLabelSuffixes host := by
  unfold DnrDomainList.longestMatch at matched
  split at matched
  · cases matched
  · split at matched
    · cases found : (hostLabelSuffixes host).find? fun suffix => list.domains.contains suffix with
      | none =>
        rw [found] at matched
        cases matched
      | some suffix =>
        have listed := List.find?_some found
        exact ⟨suffix, by simpa using listed, List.mem_of_find?_eq_some found⟩
    · cases found : list.domains.find? (domainIs host) with
      | none =>
        rw [found] at matched
        cases matched
      | some domain =>
        have belongs := List.find?_some found
        have member := List.mem_of_find?_eq_some found
        exact ⟨domain, member, mem_suffixes_of_domainIs (keyable domain member) belongs⟩

theorem exists_key (filed : suffixKeys (some list) = some keys) {domain : CodeUnits}
    (listed : domain ∈ list.domains) (member : domain ∈ hostLabelSuffixes host) :
    ∃ key ∈ keys, key ∈ hostLabelSuffixes host := by
  obtain ⟨keyable, _, spec⟩ := suffixKeys_spec filed
  induction size : domain.length using Nat.strong_induction_on generalizing domain with
  | _ _ ih =>
    by_cases key : domain ∈ keys
    · exact ⟨domain, key, member⟩
    · rw [spec, not_and] at key
      obtain ⟨suffix, place, other⟩ : ∃ suffix, suffix ∈ hostLabelSuffixes domain ∧
          ¬ (suffix = domain ∨ suffix ∉ list.domains) := by
        simpa using key listed
      rw [not_or, not_not] at other
      rw [suffixes_of_keyable (keyable domain listed)] at place
      have tail := (List.mem_cons.mp place).resolve_left other.1
      exact ih _ (size ▸ length_of_mem_labelTails tail) other.2
        (mem_suffixes_of_tail member tail) rfl

/-- Exactly one key of a list is a label suffix of a host the list matches. -/
theorem one_key_of_match (filed : suffixKeys (some list) = some keys)
    (matched : 0 < list.longestMatch host (hostLabelSuffixes host)) :
    ((hostLabelSuffixes host).filter (· ∈ keys)).length = 1 := by
  obtain ⟨keyable, _, spec⟩ := suffixKeys_spec filed
  obtain ⟨domain, listed, member⟩ := exists_suffix_of_match keyable matched
  obtain ⟨key, kept, place⟩ := exists_key filed listed member
  have apart := (hostLabelSuffixes_pairwise host).filter (· ∈ keys)
  cases found : (hostLabelSuffixes host).filter (· ∈ keys) with
  | nil =>
    have inside : key ∈ (hostLabelSuffixes host).filter (· ∈ keys) :=
      List.mem_filter.mpr ⟨place, by simpa using kept⟩
    rw [found] at inside
    cases inside
  | cons first rest =>
    cases rest with
    | nil => rfl
    | cons second others =>
      rw [found] at apart
      have tail := (List.pairwise_cons.mp apart).1 second List.mem_cons_self
      have firstKey : first ∈ keys := by
        have inside : first ∈ (hostLabelSuffixes host).filter (· ∈ keys) := by simp [found]
        simpa using (List.mem_filter.mp inside).2
      have secondKey : second ∈ keys := by
        have inside : second ∈ (hostLabelSuffixes host).filter (· ∈ keys) := by simp [found]
        simpa using (List.mem_filter.mp inside).2
      have firstListed := (spec first).mp firstKey
      have suffix : second ∈ hostLabelSuffixes first := by
        rw [suffixes_of_keyable (keyable first firstListed.1)]
        exact List.mem_cons_of_mem _ tail
      rcases firstListed.2 second suffix with same | unlisted
      · rw [same] at tail
        exact absurd (length_of_mem_labelTails tail) (lt_irrefl _)
      · exact absurd ((spec second).mp secondKey).1 unlisted

theorem longestMatch_pos {included : DnrDomainList} {excluded : Option DnrDomainList}
    {suffixes : List CodeUnits}
    (matched : hostMatchesDomainLists host suffixes (some included) excluded = true) :
    0 < included.longestMatch host suffixes := by
  unfold hostMatchesDomainLists at matched
  cases excluded with
  | none => simpa using matched
  | some list =>
    dsimp only at matched
    split at matched
    case isTrue positive => simpa using positive
    case isFalse => cases matched

end Keys

end OxeeUI.Dnr
