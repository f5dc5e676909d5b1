import OxeeUI.Dnr.Ngrams

/-!
# Url filters

A filter is split at its wildcards; the pieces are looked for from left to
right, the first under the left anchor and the last under the right one, and a
separator matches any separating code unit.  However the search jumps, a filter
that matches a text has each of its windows in the text.
-/

namespace OxeeUI.Dnr

inductive DnrAnchor
  | none
  | boundary
  | subdomain
  deriving DecidableEq

structure DnrUrlFilter where
  pattern : CodeUnits
  anchorLeft : DnrAnchor
  anchorRight : DnrAnchor
  matchCase : Bool

/-- The text of a request and the span of its host. -/
structure DnrUrlText where
  spec : CodeUnits
  lowerSpec : CodeUnits
  hostBegin : ℕ
  hostEnd : ℕ

def separatorPlaceholder : ℕ := 94

def isSeparator (code : ℕ) : Bool :=
  if code = 95 ∨ code = 45 ∨ code = 46 ∨ code = 37 then false
  else if code = separatorPlaceholder then true
  else if (48 ≤ code ∧ code ≤ 57) ∨ (65 ≤ code ∧ code ≤ 90) ∨ (97 ≤ code ∧ code ≤ 122) then false
  else decide (code < 128)

structure Subpattern where
  text : CodeUnits
  fuzzy : Bool
  anchor : CodeUnits
  anchorOffset : ℕ

/-- `text.split(delimiter)` for a delimiter of one code unit. -/
def splitOnUnit (delimiter : ℕ) : CodeUnits → List CodeUnits
  | [] => [[]]
  | code :: rest =>
    if code = delimiter then [] :: splitOnUnit delimiter rest
    else
      match splitOnUnit delimiter rest with
      | [] => [[code]]
      | piece :: pieces => (code :: piece) :: pieces

/-- The longest of the pieces, the first of that length, and its offset. -/
def longestPiece : List CodeUnits → ℕ → CodeUnits × ℕ → CodeUnits × ℕ
  | [], _, best => best
  | piece :: pieces, offset, best =>
    longestPiece pieces (offset + piece.length + 1)
      (if best.1.length < piece.length then (piece, offset) else best)

def subpattern (text : CodeUnits) : Subpattern :=
  let best := longestPiece (splitOnUnit separatorPlaceholder text) 0 ([], 0)
  { text
    fuzzy := text.contains separatorPlaceholder
    anchor := best.1
    anchorOffset := best.2 }

/-- Whether a code unit of a filter admits a code unit of the text. -/
def unitAdmits (want seen : ℕ) : Bool :=
  seen == want || (want == separatorPlaceholder && isSeparator seen)

def admitsPrefix : CodeUnits → CodeUnits → Bool
  | [], _ => true
  | _ :: _, [] => false
  | want :: wants, seen :: others => unitAdmits want seen && admitsPrefix wants others

def startsWithAt (text : CodeUnits) (position : ℕ) (sub : Subpattern) : Bool :=
  if text.length < position + sub.text.length then false
  else if sub.fuzzy then admitsPrefix sub.text (text.drop position)
  else sub.text.isPrefixOf (text.drop position)

/-- `text.indexOf(needle, start)`. -/
def indexOf (text needle : CodeUnits) (start : ℕ) : Option ℕ :=
  (List.range' start (text.length + 1 - start)).find? fun position =>
    needle.isPrefixOf (text.drop position)

/-- The loop of `find` over the occurrences of the literal part; each is right of the last, so
the text's length bounds their number. -/
def findByAnchor (text : CodeUnits) (sub : Subpattern) (limit : ℕ) : ℕ → Option ℕ → Option ℕ
  | 0, _ => none
  | _, none => none
  | fuel + 1, some hit =>
    let position := hit - sub.anchorOffset
    if limit < position + sub.text.length then none
    else if startsWithAt text position sub then some position
    else findByAnchor text sub limit fuel (indexOf text sub.anchor (hit + 1))

/-- The leftmost occurrence from `start` on that ends at or before `limit`. -/
def find (text : CodeUnits) (sub : Subpattern) (start limit : ℕ) : Option ℕ :=
  if limit < start + sub.text.length then none
  else if !sub.fuzzy then
    (indexOf text sub.text start).filter fun found => decide (found + sub.text.length ≤ limit)
  else if sub.anchor.length = 0 then
    (List.range' start (limit - sub.text.length + 1 - start)).find? fun position =>
      startsWithAt text position sub
  else
    findByAnchor text sub limit (text.length + 1)
      (indexOf text sub.anchor (start + sub.anchorOffset))

def isSubdomainAnchored (url : DnrUrlText) (text : CodeUnits) (position : ℕ) : Bool :=
  position == url.hostBegin ||
    (decide (url.hostBegin < position) && decide (position ≤ url.hostEnd) &&
      text[position - 1]? == some 46)

/-- The loop of `findSubdomainAnchored`; each round starts further right in the host. -/
def findSubdomainAnchoredFrom (url : DnrUrlText) (text : CodeUnits) (sub : Subpattern)
    (limit : ℕ) : ℕ → ℕ → Option ℕ
  | 0, _ => none
  | fuel + 1, position =>
    if url.hostEnd < position then none
    else
      match find text sub position limit with
      | none => none
      | some found =>
        if isSubdomainAnchored url text found then some found
        else
          match indexOf text [46] found with
          | none => none
          | some dot =>
            if url.hostEnd ≤ dot then none
            else findSubdomainAnchoredFrom url text sub limit fuel (dot + 1)

def findSubdomainAnchored (url : DnrUrlText) (text : CodeUnits) (sub : Subpattern) : Option ℕ :=
  findSubdomainAnchoredFrom url text sub (min text.length (url.hostEnd + sub.text.length))
    (url.hostEnd + 2) url.hostBegin

def matchesLastInternal (left right : DnrAnchor) (url : DnrUrlText) (text : CodeUnits)
    (start : ℕ) (sub : Subpattern) : Bool :=
  let fits := decide (start + sub.text.length ≤ text.length)
  match left with
  | .none =>
    if right = .none then (find text sub start text.length).isSome
    else fits && startsWithAt text (text.length - sub.text.length) sub
  | .boundary =>
    if right = .none then startsWithAt text start sub
    else decide (start + sub.text.length = text.length) && startsWithAt text start sub
  | .subdomain =>
    let hostNonEmpty := decide (url.hostBegin < url.hostEnd)
    if right = .none then hostNonEmpty && (findSubdomainAnchored url text sub).isSome
    else
      hostNonEmpty && decide (sub.text.length ≤ text.length) &&
        isSubdomainAnchored url text (text.length - sub.text.length) &&
        startsWithAt text (text.length - sub.text.length) sub

structure LastSubpattern where
  sub : Subpattern
  withoutTrailingSeparator : Option Subpattern

def lastSubpattern (text : CodeUnits) : LastSubpattern where
  sub := subpattern text
  withoutTrailingSeparator :=
    if text.getLast? = some separatorPlaceholder then some (subpattern text.dropLast) else none

/-- A trailing separator may also match the end of the text. -/
def matchesLast (left right : DnrAnchor) (url : DnrUrlText) (text : CodeUnits) (start : ℕ)
    (last : LastSubpattern) : Bool :=
  matchesLastInternal left right url text start last.sub ||
    match last.withoutTrailingSeparator with
    | none => false
    | some trimmed => matchesLastInternal left .boundary url text start trimmed

/-- The subpatterns one after the other, from `start` on: where the text goes on after them. -/
def findEach (text : CodeUnits) : List Subpattern → ℕ → Option ℕ
  | [], start => some start
  | sub :: subs, start =>
    match find text sub start text.length with
    | none => none
    | some found => findEach text subs (found + sub.text.length)

/-- `DnrUrlPatternMatcher`, which is determined by its filter. -/
structure DnrUrlPatternMatcher where
  filter : DnrUrlFilter

namespace DnrUrlPatternMatcher

variable (matcher : DnrUrlPatternMatcher)

def left : DnrAnchor :=
  if matcher.filter.pattern.head? = some 42 then .none else matcher.filter.anchorLeft

def right : DnrAnchor :=
  if matcher.filter.pattern.getLast? = some 42 then .none else matcher.filter.anchorRight

def pieces : List CodeUnits :=
  (splitOnUnit 42 matcher.filter.pattern).filter fun piece => 0 < piece.length

def subpatterns : List Subpattern := matcher.pieces.dropLast.map subpattern

def last : Option LastSubpattern := matcher.pieces.getLast?.map lastSubpattern

/-- Where the last subpattern is looked for, once those before it are found. -/
def startOfLast (url : DnrUrlText) (text : CodeUnits) : List Subpattern → Option ℕ
  | [] => some 0
  | first :: rest =>
    match matcher.left with
    | .boundary =>
      if startsWithAt text 0 first then findEach text rest first.text.length else none
    | .subdomain =>
      if url.hostEnd ≤ url.hostBegin then none
      else
        match findSubdomainAnchored url text first with
        | none => none
        | some found => findEach text rest (found + first.text.length)
    | .none => findEach text (first :: rest) 0

def textOf (url : DnrUrlText) : CodeUnits :=
  if matcher.filter.matchCase then url.spec else url.lowerSpec

/-- `matches`. -/
def matchesUrl (url : DnrUrlText) : Bool :=
  let text := matcher.textOf url
  match matcher.last with
  | none => matcher.left == .none || matcher.right == .none
  | some last =>
    if matcher.subpatterns.isEmpty then
      matchesLast matcher.left matcher.right url text 0 last
    else
      match matcher.startOfLast url text matcher.subpatterns with
      | none => false
      | some start => matchesLast .none matcher.right url text start last

end DnrUrlPatternMatcher

section Pieces

theorem prefix_head_split {delimiter : ℕ} {window : CodeUnits} (absent : delimiter ∉ window)
    (back : CodeUnits) :
    ∃ piece pieces, splitOnUnit delimiter (window ++ back) = piece :: pieces ∧
      window <+: piece := by
  induction window with
  | nil =>
    cases found : splitOnUnit delimiter back with
    | nil =>
      exfalso
      cases back with
      | nil => cases found
      | cons code rest =>
        unfold splitOnUnit at found
        split at found
        · cases found
        · split at found <;> cases found
    | cons piece pieces => exact ⟨piece, pieces, found, List.nil_prefix⟩
  | cons code rest ih =>
    rw [List.mem_cons, not_or] at absent
    obtain ⟨piece, pieces, found, inside⟩ := ih absent.2
    refine ⟨code :: piece, pieces, ?_, List.cons_prefix_cons.mpr ⟨rfl, inside⟩⟩
    rw [List.cons_append, splitOnUnit, if_neg (Ne.symm absent.1), found]

theorem exists_piece_of_window {delimiter : ℕ} {window text : CodeUnits}
    (absent : delimiter ∉ window) (within : window <:+: text) :
    ∃ piece ∈ splitOnUnit delimiter text, window <:+: piece := by
  obtain ⟨front, back, rfl⟩ := within
  induction front with
  | nil =>
    obtain ⟨piece, pieces, found, inside⟩ := prefix_head_split absent back
    rw [List.nil_append, found]
    exact ⟨piece, List.mem_cons_self, inside.isInfix⟩
  | cons code rest ih =>
    obtain ⟨piece, member, inside⟩ := ih
    rw [List.cons_append, List.cons_append, splitOnUnit]
    split
    · exact ⟨piece, List.mem_cons_of_mem _ member, inside⟩
    · cases found : splitOnUnit delimiter (rest ++ window ++ back) with
      | nil =>
        rw [found] at member
        cases member
      | cons head tail =>
        rw [found] at member
        rcases List.mem_cons.mp member with rfl | later
        · refine ⟨code :: piece, List.mem_cons_self, ?_⟩
          exact inside.trans (List.suffix_cons code piece).isInfix
        · exact ⟨piece, List.mem_cons_of_mem _ later, inside⟩

end Pieces

section Occurrences

def Occurs (text : CodeUnits) (sub : Subpattern) : Prop :=
  ∃ position, startsWithAt text position sub = true

variable {text : CodeUnits} {sub : Subpattern} {url : DnrUrlText}

theorem admitsPrefix_window {front window back seen : CodeUnits}
    (literal : separatorPlaceholder ∉ window)
    (admitted : admitsPrefix (front ++ window ++ back) seen = true) : window <:+: seen := by
  induction front generalizing seen with
  | nil =>
    refine List.IsPrefix.isInfix ?_
    induction window generalizing seen with
    | nil => exact List.nil_prefix
    | cons want wants ih =>
      rw [List.mem_cons, not_or] at literal
      cases seen with
      | nil => cases admitted
      | cons code others =>
        simp only [List.nil_append, List.cons_append, admitsPrefix, Bool.and_eq_true,
          unitAdmits, Bool.or_eq_true, beq_iff_eq] at admitted
        obtain ⟨same | ⟨wild, _⟩, rest⟩ := admitted
        · rw [same]
          exact List.cons_prefix_cons.mpr ⟨rfl, ih literal.2 (by simpa using rest)⟩
        · exact absurd wild (Ne.symm literal.1)
  | cons want wants ih =>
    cases seen with
    | nil => cases admitted
    | cons code others =>
      simp only [List.cons_append, admitsPrefix, Bool.and_eq_true] at admitted
      exact (ih admitted.2).trans (List.suffix_cons code others).isInfix

theorem window_of_occurs (occurs : Occurs text sub) {window : CodeUnits}
    (literal : separatorPlaceholder ∉ window) (within : window <:+: sub.text) :
    window <:+: text := by
  obtain ⟨position, found⟩ := occurs
  unfold startsWithAt at found
  split at found
  · cases found
  · refine List.IsInfix.trans ?_ (List.drop_suffix position text).isInfix
    split at found
    · obtain ⟨front, back, same⟩ := within
      rw [← same] at found
      exact admitsPrefix_window literal found
    · exact within.trans (List.isPrefixOf_iff_prefix.mp found).isInfix

theorem indexOf_spec {needle : CodeUnits} {start found : ℕ}
    (search : indexOf text needle start = some found) :
    needle <+: text.drop found ∧ found + needle.length ≤ text.length := by
  have holds := List.find?_some search
  have starts := List.isPrefixOf_iff_prefix.mp holds
  have bound := List.mem_range'_1.mp (List.mem_of_find?_eq_some search)
  have short := starts.length_le
  rw [List.length_drop] at short
  exact ⟨starts, by omega⟩

theorem findByAnchor_occurs {limit fuel : ℕ} {hit : Option ℕ} {found : ℕ}
    (search : findByAnchor text sub limit fuel hit = some found) :
    startsWithAt text found sub = true := by
  induction fuel generalizing hit with
  | zero => cases search
  | succ fuel ih =>
    cases hit with
    | none => cases search
    | some hit =>
      simp only [findByAnchor] at search
      split at search
      · cases search
      · split at search
        case isTrue starts =>
          cases search
          exact starts
        case isFalse => exact ih search

theorem find_occurs {start limit found : ℕ} (search : find text sub start limit = some found) :
    startsWithAt text found sub = true := by
  unfold find at search
  split at search
  · cases search
  · split at search
    case isTrue unfuzzy =>
      obtain ⟨hit, _⟩ := Option.filter_eq_some_iff.mp search
      obtain ⟨starts, fits⟩ := indexOf_spec hit
      have literal : sub.fuzzy = false := by simpa using unfuzzy
      rw [startsWithAt, if_neg (Nat.not_lt.mpr fits), literal]
      simpa using List.isPrefixOf_iff_prefix.mpr starts
    case isFalse =>
      split at search
      · have holds := List.find?_some search
        simpa using holds
      · exact findByAnchor_occurs search

theorem findSubdomainAnchoredFrom_occurs {limit fuel position found : ℕ}
    (search : findSubdomainAnchoredFrom url text sub limit fuel position = some found) :
    startsWithAt text found sub = true := by
  induction fuel generalizing position with
  | zero => cases search
  | succ fuel ih =>
    simp only [findSubdomainAnchoredFrom] at search
    split at search
    · cases search
    · split at search
      · cases search
      case h_2 hit located =>
        split at search
        · cases search
          exact find_occurs located
        · split at search
          · cases search
          · split at search
            · cases search
            · exact ih search

theorem matchesLastInternal_occurs {left right : DnrAnchor} {start : ℕ}
    (matched : matchesLastInternal left right url text start sub = true) : Occurs text sub := by
  unfold matchesLastInternal at matched
  cases left with
  | none =>
    dsimp only at matched
    split at matched
    · obtain ⟨found, search⟩ := Option.isSome_iff_exists.mp matched
      exact ⟨found, find_occurs search⟩
    · exact ⟨_, (Bool.and_eq_true_iff.mp matched).2⟩
  | boundary =>
    dsimp only at matched
    split at matched
    · exact ⟨start, matched⟩
    · exact ⟨start, (Bool.and_eq_true_iff.mp matched).2⟩
  | subdomain =>
    dsimp only at matched
    split at matched
    · obtain ⟨found, search⟩ :=
        Option.isSome_iff_exists.mp (Bool.and_eq_true_iff.mp matched).2
      exact ⟨found, findSubdomainAnchoredFrom_occurs search⟩
    · exact ⟨_, (Bool.and_eq_true_iff.mp matched).2⟩

theorem findEach_occurs {subs : List Subpattern} {start finish : ℕ}
    (search : findEach text subs start = some finish) : ∀ sub ∈ subs, Occurs text sub := by
  induction subs generalizing start with
  | nil => simp
  | cons first rest ih =>
    unfold findEach at search
    split at search
    · cases search
    case h_2 found located =>
      intro sub member
      rcases List.mem_cons.mp member with rfl | later
      · exact ⟨found, find_occurs located⟩
      · exact ih search sub later

theorem matchesLast_window {left right : DnrAnchor} {start : ℕ} {piece window : CodeUnits}
    (literal : separatorPlaceholder ∉ window) (nonempty : window ≠ [])
    (within : window <:+: piece)
    (matched : matchesLast left right url text start (lastSubpattern piece) = true) :
    window <:+: text := by
  rcases Bool.or_eq_true_iff.mp matched with whole | trimmed
  · exact window_of_occurs (matchesLastInternal_occurs whole) literal within
  · unfold lastSubpattern at trimmed
    dsimp only at trimmed
    split at trimmed
    · cases trimmed
    case h_2 sub same =>
      split at same
      case isFalse => cases same
      case isTrue separated =>
        cases same
        refine window_of_occurs (matchesLastInternal_occurs trimmed) literal ?_
        have ending := List.dropLast_append_getLast? separatorPlaceholder separated
        rw [← ending] at within
        rcases List.infix_concat_iff.mp within with atEnd | inside
        · rcases List.suffix_concat_iff.mp atEnd with empty | ⟨shorter, split, _⟩
          · exact absurd empty nonempty
          · exact absurd (by rw [split]; simp) literal
        · exact inside

end Occurrences

namespace DnrUrlPatternMatcher

variable {matcher : DnrUrlPatternMatcher} {url : DnrUrlText}

/-- Every piece before the last occurs where the last is looked for. -/
theorem startOfLast_occurs {text : CodeUnits} {subs : List Subpattern} {start : ℕ}
    (search : matcher.startOfLast url text subs = some start) : ∀ sub ∈ subs, Occurs text sub := by
  cases subs with
  | nil => simp
  | cons first rest =>
    unfold startOfLast at search
    intro sub member
    cases left : matcher.left with
    | none =>
      rw [left] at search
      exact findEach_occurs search sub member
    | boundary =>
      rw [left] at search
      dsimp only at search
      split at search
      case isFalse => cases search
      case isTrue starts =>
        rcases List.mem_cons.mp member with rfl | later
        · exact ⟨0, starts⟩
        · exact findEach_occurs search sub later
    | subdomain =>
      rw [left] at search
      dsimp only at search
      split at search
      · cases search
      · split at search
        · cases search
        case h_2 found located =>
          rcases List.mem_cons.mp member with rfl | later
          · exact ⟨found, findSubdomainAnchoredFrom_occurs located⟩
          · exact findEach_occurs search sub later

/-- A filter that matches has each of its windows in the text it is compared with. -/
theorem window_of_matches (matched : matcher.matchesUrl url = true) {window : CodeUnits}
    (found : PatternWindow matcher.filter.pattern window) : window <:+: matcher.textOf url := by
  have literal : separatorPlaceholder ∉ window := by
    intro member
    have uncut := found.uncut _ member
    cases uncut
  have plain : 42 ∉ window := by
    intro member
    have uncut := found.uncut _ member
    cases uncut
  have nonempty : window ≠ [] := by
    rintro rfl
    cases found.five
  obtain ⟨piece, member, within⟩ := exists_piece_of_window plain found.within
  have kept : piece ∈ matcher.pieces := by
    refine List.mem_filter.mpr ⟨member, ?_⟩
    have longer := within.length_le
    rw [found.five] at longer
    simp only [decide_eq_true_eq]
    omega
  unfold matchesUrl at matched
  dsimp only at matched
  cases final : matcher.pieces.getLast? with
  | none =>
    rw [List.getLast?_eq_none_iff.mp final] at kept
    cases kept
  | some finalPiece =>
    have last : matcher.last = some (lastSubpattern finalPiece) := by
      rw [DnrUrlPatternMatcher.last, final]
      rfl
    have whole : matcher.pieces.dropLast ++ [finalPiece] = matcher.pieces :=
      List.dropLast_append_getLast? finalPiece final
    rw [last] at matched
    dsimp only at matched
    rw [← whole] at kept
    split at matched
    case isTrue alone =>
      have before : matcher.pieces.dropLast = [] :=
        List.map_eq_nil_iff.mp (List.isEmpty_iff.mp alone)
      rw [before] at kept
      rw [List.mem_singleton.mp kept] at within
      exact matchesLast_window literal nonempty within matched
    case isFalse =>
      split at matched
      · cases matched
      case h_2 start search =>
        rcases List.mem_append.mp kept with early | late
        · refine window_of_occurs (startOfLast_occurs search _ (List.mem_map_of_mem early))
            literal within
        · rw [List.mem_singleton.mp late] at within
          exact matchesLast_window literal nonempty within matched

theorem lower_window_of_matches (matched : matcher.matchesUrl url = true)
    (lowered : url.lowerSpec = toLowerAscii url.spec) {window : CodeUnits}
    (found : PatternWindow (toLowerAscii matcher.filter.pattern) window) :
    window <:+: url.lowerSpec := by
  obtain ⟨original, within, same⟩ := exists_lowered found.within
  have uncut : ∀ code ∈ original, cutsPattern code = false := by
    intro code member
    rw [← cutsPattern_lower]
    refine found.uncut _ ?_
    rw [← same]
    exact List.mem_map_of_mem member
  have five : original.length = 5 := by
    rw [← found.five, ← same, toLowerAscii, List.length_map]
  have inText := window_of_matches matched ⟨five, uncut, within⟩
  rw [← same]
  have lower : toLowerAscii original <:+: toLowerAscii (matcher.textOf url) := inText.map lowerUnit
  unfold textOf at lower
  split at lower
  · rwa [← lowered] at lower
  · rwa [lowered, toLowerAscii_idem, ← lowered] at lower

end DnrUrlPatternMatcher

end OxeeUI.Dnr
