import OxeeUI.Dnr.PieceSearch

/-!
# The language of url filters

What a filter stands for, over all ways to place its pieces, and that the matcher, which
takes the first place for each, decides it.
-/

namespace OxeeUI.Dnr

open Library

/-! ## Parsing -/

structure ParsedUrlFilter where
  pattern : CodeUnits
  anchorLeft : DnrAnchor
  anchorRight : DnrAnchor

def isAtRightAnchor (urlFilter : CodeUnits) (at' : ℕ) : Bool :=
  urlFilter[at']? == some 124 && decide (0 < at') && decide (at' + 1 = urlFilter.length)

/-- The loop over the pattern, in as many rounds as may be left. -/
def patternStop (urlFilter : CodeUnits) : ℕ → ℕ → ℕ
  | 0, index => index
  | rounds + 1, index =>
    if index < urlFilter.length ∧ isAtRightAnchor urlFilter index = false then
      patternStop urlFilter rounds (index + 1)
    else index

def parseUrlFilter (urlFilter : CodeUnits) : ParsedUrlFilter :=
  let begun : ℕ × DnrAnchor :=
    if urlFilter[0]? = some 124 then
      if urlFilter[1]? = some 124 then (2, .subdomain) else (1, .boundary)
    else (0, .none)
  let stop := patternStop urlFilter urlFilter.length begun.1
  { pattern := (urlFilter.drop begun.1).take (stop - begun.1)
    anchorLeft := begun.2
    anchorRight := if isAtRightAnchor urlFilter stop then .boundary else .none }

/-- The matcher of a rule's filter. -/
def urlPatternStep (urlFilter : CodeUnits) (matchCase : Bool) : DnrUrlPatternMatcher :=
  let parsed := parseUrlFilter urlFilter
  ⟨{ pattern := if matchCase then parsed.pattern else toLowerAscii parsed.pattern
     anchorLeft := parsed.anchorLeft
     anchorRight := parsed.anchorRight
     matchCase }⟩

def urlText (spec : CodeUnits) (hostBegin hostEnd : ℕ) : DnrUrlText :=
  ⟨spec, toLowerAscii spec, hostBegin, hostEnd⟩

/-! ## The language -/

/-- Two bars at the start anchor a host or label, one anchors the start. -/
def leftAnchor : CodeUnits → DnrAnchor
  | 124 :: 124 :: _ => .subdomain
  | 124 :: _ => .boundary
  | _ => .none

def behindLeftAnchor : CodeUnits → CodeUnits
  | 124 :: 124 :: rest => rest
  | 124 :: rest => rest
  | urlFilter => urlFilter

/-- A bar at the end, behind the left anchor, anchors the end. -/
def rightAnchor (urlFilter : CodeUnits) : DnrAnchor :=
  if (behindLeftAnchor urlFilter).getLast? = some 124 then .boundary else .none

def filterBody (urlFilter : CodeUnits) : CodeUnits :=
  if (behindLeftAnchor urlFilter).getLast? = some 124 then (behindLeftAnchor urlFilter).dropLast
  else behindLeftAnchor urlFilter

def Allowed (url : DnrUrlText) (text : CodeUnits) (start : ℕ) : DnrAnchor → ℕ → Prop
  | .none, position => start ≤ position
  | .boundary, position => position = start
  | .subdomain, position =>
    url.hostBegin < url.hostEnd ∧ isSubdomainAnchored url text position = true

/-- The last piece at a position; the separator it ends with may stand for the end. -/
def LastAt (text : CodeUnits) (right : DnrAnchor) (position : ℕ) (piece : CodeUnits) : Prop :=
  (OccursAt text position piece ∧ (right ≠ .none → position + piece.length = text.length)) ∨
    ∃ front, piece = front ++ [separatorPlaceholder] ∧ OccursAt text position front ∧
      position + front.length = text.length

/-- Pieces one after another without overlap, the first at an allowed place. -/
def Arranged (text : CodeUnits) (right : DnrAnchor) : (ℕ → Prop) → List CodeUnits → Prop
  | allowed, [] => ∃ position ≤ text.length, allowed position ∧
      (right ≠ .none → position = text.length)
  | allowed, [last] => ∃ position, allowed position ∧ LastAt text right position last
  | allowed, piece :: pieces => ∃ position, allowed position ∧ OccursAt text position piece ∧
      Arranged text right (position + piece.length ≤ ·) pieces

/-- What is compared, in lower case where case is ignored. -/
def folded (matchCase : Bool) (text : CodeUnits) : CodeUnits :=
  if matchCase then text else toLowerAscii text

/-- A URL belongs to a filter when the filter's pieces can be arranged in it.  An anchor beside a
wildcard is ignored. -/
def Belongs (urlFilter : CodeUnits) (matchCase : Bool) (url : DnrUrlText) : Prop :=
  let text := folded matchCase url.spec
  let body := folded matchCase (filterBody urlFilter)
  let left := if body.head? = some 42 then .none else leftAnchor urlFilter
  let right := if body.getLast? = some 42 then .none else rightAnchor urlFilter
  Arranged text right (Allowed url text 0 left)
    ((splitOnUnit 42 body).filter fun piece => 0 < piece.length)

/-! ## The parser reads the anchors -/

theorem patternStop_eq {urlFilter : CodeUnits} {rounds index stop : ℕ} (least : index ≤ stop)
    (before : ∀ place, index ≤ place → place < stop →
      place < urlFilter.length ∧ isAtRightAnchor urlFilter place = false)
    (last : stop = urlFilter.length ∨ isAtRightAnchor urlFilter stop = true)
    (enough : stop ≤ rounds + index) : patternStop urlFilter rounds index = stop := by
  induction rounds generalizing index with
  | zero =>
    rw [patternStop]
    omega
  | succ rounds ih =>
    rw [patternStop]
    rcases Nat.lt_or_eq_of_le least with less | rfl
    · rw [if_pos (before index (Nat.le_refl _) less)]
      exact ih less (fun place far => before place (Nat.le_of_succ_le far)) (by omega)
    · refine if_neg fun goes => ?_
      rcases last with isEnd | anchored
      · omega
      · rw [anchored] at goes
        cases goes.2

/-- The pattern behind a mark ends before a bar at its end. -/
theorem pattern_behind (mark rest : CodeUnits) (other : mark = [] → rest.head? ≠ some 124) :
    let stop := patternStop (mark ++ rest) (mark ++ rest).length mark.length
    ((mark ++ rest).drop mark.length).take (stop - mark.length) =
        (if rest.getLast? = some 124 then rest.dropLast else rest) ∧
      isAtRightAnchor (mark ++ rest) stop = decide (rest.getLast? = some 124) := by
  have anchored (place : ℕ) (isAnchor : isAtRightAnchor (mark ++ rest) place = true) :
      (mark ++ rest)[place]? = some 124 ∧ place + 1 = (mark ++ rest).length := by
    simp only [isAtRightAnchor, Bool.and_eq_true, beq_iff_eq, decide_eq_true_eq] at isAnchor
    exact ⟨isAnchor.1.1, isAnchor.2⟩
  have notAnchored (place : ℕ) (fails : ¬isAtRightAnchor (mark ++ rest) place = true) :
      isAtRightAnchor (mark ++ rest) place = false := Bool.eq_false_iff.mpr fails
  rcases List.eq_nil_or_concat rest with rfl | ⟨front, code, rfl⟩
  · have stop : patternStop (mark ++ []) (mark ++ []).length mark.length = mark.length :=
      patternStop_eq (Nat.le_refl _) (fun place least less => by omega) (.inl (by simp)) (by simp)
    rw [stop]
    refine ⟨by simp, notAnchored _ fun isAnchor => ?_⟩
    have past := (anchored _ isAnchor).1
    simp at past
  · rw [List.concat_eq_append] at *
    have length : (mark ++ (front ++ [code])).length = mark.length + front.length + 1 := by
      simp [Nat.add_assoc]
    have lastCode : (mark ++ (front ++ [code]))[mark.length + front.length]? = some code := by
      simp
    have isLast : (front ++ [code]).getLast? = some code := by simp
    rw [List.drop_left, isLast]
    by_cases bar : code = 124
    · subst bar
      have isAnchor : isAtRightAnchor (mark ++ (front ++ [124])) (mark.length + front.length) =
          true := by
        have positive : 0 < mark.length + front.length := by
          by_contra none
          have noMark : mark = [] := List.length_eq_zero_iff.mp (by omega)
          have noFront : front = [] := List.length_eq_zero_iff.mp (by omega)
          exact other noMark (by rw [noFront]; rfl)
        rw [isAtRightAnchor, lastCode, decide_eq_true positive, decide_eq_true length.symm]
        rfl
      have stop : patternStop (mark ++ (front ++ [124])) (mark ++ (front ++ [124])).length
          mark.length = mark.length + front.length := by
        refine patternStop_eq (Nat.le_add_right _ _) (fun place least less => ⟨by omega, ?_⟩)
          (.inr isAnchor) (by omega)
        refine notAnchored place fun isAnchor' => ?_
        have end' := (anchored place isAnchor').2
        omega
      rw [stop]
      refine ⟨by simp, ?_⟩
      rw [isAnchor]
      rfl
    · have stop : patternStop (mark ++ (front ++ [code])) (mark ++ (front ++ [code])).length
          mark.length = (mark ++ (front ++ [code])).length := by
        refine patternStop_eq (by omega) (fun place least less => ⟨less, ?_⟩) (.inl rfl) (by omega)
        refine notAnchored place fun isAnchor' => ?_
        obtain ⟨isBar, end'⟩ := anchored place isAnchor'
        have same : place = mark.length + front.length := by omega
        rw [same, lastCode] at isBar
        exact bar (Option.some.inj isBar)
      rw [stop]
      refine ⟨?_, ?_⟩
      · rw [if_neg fun isBar => bar (Option.some.inj isBar), length, List.take_of_length_le]
        simp
        omega
      · rw [decide_eq_false fun isBar => bar (Option.some.inj isBar)]
        refine notAnchored _ fun isAnchor' => ?_
        have end' := (anchored _ isAnchor').2
        omega

/-- The parser reads a filter's anchors and what is between them. -/
theorem parseUrlFilter_eq (urlFilter : CodeUnits) :
    parseUrlFilter urlFilter =
      ⟨filterBody urlFilter, leftAnchor urlFilter, rightAnchor urlFilter⟩ := by
  have assembled (mark rest : CodeUnits) (anchor : DnrAnchor)
      (other : mark = [] → rest.head? ≠ some 124) (isFilter : urlFilter = mark ++ rest)
      (begun : (if urlFilter[0]? = some 124 then
        if urlFilter[1]? = some 124 then ((2, .subdomain) : ℕ × DnrAnchor) else (1, .boundary)
        else (0, .none)) = (mark.length, anchor)) (behind : behindLeftAnchor urlFilter = rest)
      (left : leftAnchor urlFilter = anchor) : parseUrlFilter urlFilter =
        ⟨filterBody urlFilter, leftAnchor urlFilter, rightAnchor urlFilter⟩ := by
    obtain ⟨isPattern, isRight⟩ := pattern_behind mark rest other
    rw [parseUrlFilter, begun, filterBody, rightAnchor, behind, left]
    dsimp only
    rw [isFilter, isPattern, isRight]
    by_cases bar : rest.getLast? = some 124 <;> simp [bar]
  have none (apart : urlFilter.head? ≠ some 124) : parseUrlFilter urlFilter =
      ⟨filterBody urlFilter, leftAnchor urlFilter, rightAnchor urlFilter⟩ := by
    refine assembled [] urlFilter .none (fun _ => apart) rfl (if_neg ?_) ?_ ?_
    · rwa [← List.head?_eq_getElem?]
    · cases urlFilter with
      | nil => rfl
      | cons code rest =>
        have other : code ≠ 124 := fun same => apart (congrArg some same)
        simp [behindLeftAnchor, other]
    · cases urlFilter with
      | nil => rfl
      | cons code rest =>
        have other : code ≠ 124 := fun same => apart (congrArg some same)
        simp [leftAnchor, other]
  by_cases bar : urlFilter.head? = some 124
  · obtain ⟨rest, rfl⟩ : ∃ rest, urlFilter = 124 :: rest := List.head?_eq_some_iff.mp bar
    by_cases second : rest.head? = some 124
    · obtain ⟨rest, rfl⟩ : ∃ rest', rest = 124 :: rest' := List.head?_eq_some_iff.mp second
      exact assembled [124, 124] rest .subdomain (absurd · (List.cons_ne_nil _ _)) rfl rfl rfl rfl
    · refine assembled [124] rest .boundary (absurd · (List.cons_ne_nil _ _)) rfl ?_ ?_ ?_
      · have next : ¬(124 :: rest)[1]? = some 124 := by
          rwa [List.getElem?_cons_succ, ← List.head?_eq_getElem?]
        rw [if_pos (show (124 :: rest)[0]? = some 124 from rfl), if_neg next]
        rfl
      · cases rest with
        | nil => rfl
        | cons code rest =>
          have other : code ≠ 124 := fun same => second (congrArg some same)
          simp [behindLeftAnchor, other]
      · cases rest with
        | nil => rfl
        | cons code rest =>
          have other : code ≠ 124 := fun same => second (congrArg some same)
          simp [leftAnchor, other]
  · exact none bar

/-! ## The first place is the best -/

variable {text piece : CodeUnits} {url : DnrUrlText} {left right : DnrAnchor} {start : ℕ}

theorem matchesLastInternal_iff :
    matchesLastInternal left right url text start (subpattern piece) = true ↔
      ∃ position, Allowed url text start left position ∧ position + piece.length ≤ text.length ∧
        OccursAt text position piece ∧ (right ≠ .none → position + piece.length = text.length) := by
  have isText : (subpattern piece).text = piece := rfl
  -- With a right anchor there is one place, the last with room.
  have atEnd (allowed : ℕ → Prop) (anchored : right ≠ .none) :
      (piece.length ≤ text.length ∧ allowed (text.length - piece.length) ∧
        startsWithAt text (text.length - piece.length) (subpattern piece) = true) ↔
      ∃ position, allowed position ∧ position + piece.length ≤ text.length ∧
        OccursAt text position piece ∧ (right ≠ .none → position + piece.length = text.length) := by
    rw [startsWithAt_iff]
    constructor
    · rintro ⟨room, here, fits, occurs⟩
      exact ⟨_, here, fits, occurs, fun _ => by omega⟩
    · rintro ⟨position, here, fits, occurs, ends⟩
      have isEnd := ends anchored
      have same : position = text.length - piece.length := by omega
      exact ⟨by omega, same ▸ here, by omega, same ▸ occurs⟩
  unfold matchesLastInternal
  rw [isText]
  cases left with
  | none =>
    dsimp only
    split
    · next free =>
      rw [(find_isFirst piece start (Nat.le_refl text.length)).isSome_iff]
      simp [Allowed, free]
    · next anchored =>
      rw [← atEnd _ anchored, Bool.and_eq_true, decide_eq_true_iff, Allowed]
      constructor
      · rintro ⟨room, starts⟩
        exact ⟨by omega, by omega, starts⟩
      · rintro ⟨room, least, starts⟩
        exact ⟨by omega, starts⟩
  | boundary =>
    dsimp only
    split
    · next free =>
      rw [startsWithAt_iff]
      simp [Allowed, free]
    · next anchored =>
      rw [Bool.and_eq_true, decide_eq_true_iff, startsWithAt_iff]
      constructor
      · rintro ⟨ends, fits, occurs⟩
        exact ⟨start, rfl, fits, occurs, fun _ => ends⟩
      · rintro ⟨position, rfl, fits, occurs, ends⟩
        exact ⟨ends anchored, fits, occurs⟩
  | subdomain =>
    dsimp only
    split
    · next free =>
      rw [Bool.and_eq_true, decide_eq_true_iff]
      constructor
      · rintro ⟨host, found⟩
        obtain ⟨position, anchored, fits, occurs⟩ :=
          (findSubdomainAnchored_isFirst host piece).isSome_iff.mp found
        exact ⟨position, ⟨host, anchored⟩, fits, occurs, absurd free⟩
      · rintro ⟨position, ⟨host, anchored⟩, fits, occurs, -⟩
        exact ⟨host, (findSubdomainAnchored_isFirst host piece).isSome_iff.mpr
          ⟨position, anchored, fits, occurs⟩⟩
    · next anchored =>
      rw [← atEnd _ anchored]
      simp only [Bool.and_eq_true, decide_eq_true_iff, Allowed]
      tauto

theorem matchesLast_eq :
    matchesLast left right url text start (lastSubpattern piece) =
      (matchesLastInternal left right url text start (subpattern piece) ||
        (lastSubpattern piece).withoutTrailingSeparator.any
          (matchesLastInternal left .boundary url text start)) := by
  rw [matchesLast]
  cases (lastSubpattern piece).withoutTrailingSeparator <;> rfl

theorem matchesTrimmed_iff :
    (lastSubpattern piece).withoutTrailingSeparator.any
        (matchesLastInternal left .boundary url text start) = true ↔
      ∃ position, Allowed url text start left position ∧ ∃ front,
        piece = front ++ [separatorPlaceholder] ∧ OccursAt text position front ∧
          position + front.length = text.length := by
  rw [lastSubpattern]
  dsimp only
  split
  · next separated =>
    have whole := List.dropLast_append_getLast? separatorPlaceholder separated
    rw [Option.any_some, matchesLastInternal_iff]
    refine exists_congr fun position => and_congr_right fun _ => ?_
    constructor
    · rintro ⟨-, occurs, ends⟩
      exact ⟨piece.dropLast, whole.symm, occurs, ends (by decide)⟩
    · rintro ⟨front, isPiece, occurs, ends⟩
      have same : piece.dropLast = front := by rw [isPiece, List.dropLast_concat]
      rw [same]
      exact ⟨Nat.le_of_eq ends, occurs, fun _ => ends⟩
  · next other =>
    refine ⟨fun no => (Bool.false_ne_true no).elim, ?_⟩
    rintro ⟨position, -, front, rfl, -⟩
    exact absurd List.getLast?_concat other

theorem matchesLast_iff (filled : piece ≠ []) :
    matchesLast left right url text start (lastSubpattern piece) = true ↔
      ∃ position, Allowed url text start left position ∧ LastAt text right position piece := by
  rw [matchesLast_eq, Bool.or_eq_true, matchesTrimmed_iff, matchesLastInternal_iff, ← exists_or]
  refine exists_congr fun position => ?_
  rw [LastAt, ← and_or_left]
  refine and_congr_right fun _ => or_congr_left ?_
  constructor
  · rintro ⟨-, occurs, ends⟩
    exact ⟨occurs, ends⟩
  · rintro ⟨occurs, ends⟩
    exact ⟨occurs.fits filled, occurs, ends⟩

theorem arranged_append {rest : List CodeUnits} {last : CodeUnits} :
    Arranged text right (start ≤ ·) (rest ++ [last]) ↔
      ∃ stop, Placed (fun piece position => OccursAt text position piece) List.length rest start
        stop ∧ ∃ position ≥ stop, LastAt text right position last := by
  induction rest generalizing start with
  | nil =>
    constructor
    · rintro ⟨position, least, here⟩
      exact ⟨start, .nil start, position, least, here⟩
    · rintro ⟨stop, ⟨⟩, position, least, here⟩
      exact ⟨position, least, here⟩
  | cons piece rest ih =>
    have unfolded : Arranged text right (start ≤ ·) (piece :: rest ++ [last]) ↔
        ∃ position, start ≤ position ∧ OccursAt text position piece ∧
          Arranged text right (position + piece.length ≤ ·) (rest ++ [last]) := by
      cases rest <;> rfl
    rw [unfolded]
    constructor
    · rintro ⟨position, least, here, later⟩
      obtain ⟨stop, placed, ended⟩ := ih.mp later
      exact ⟨stop, .cons piece rest start position stop least here placed, ended⟩
    · rintro ⟨stop, placed, ended⟩
      cases placed with
      | cons _ _ _ position _ least here later =>
        exact ⟨position, least, here, ih.mpr ⟨stop, later, ended⟩⟩

theorem findEach_eq (pieces : List CodeUnits) (start : ℕ) :
    findEach text (pieces.map subpattern) start =
      placeEach List.length (fun piece start => find text (subpattern piece) start text.length)
        pieces start := by
  induction pieces generalizing start with
  | nil => rfl
  | cons piece pieces ih =>
    rw [List.map_cons, findEach, placeEach]
    cases find text (subpattern piece) start text.length with
    | none => rfl
    | some found => exact ih _

theorem findEach_spec {pieces : List CodeUnits} (filled : ∀ piece ∈ pieces, piece ≠ [])
    (start : ℕ) :
    let found := placeEach List.length
      (fun piece start => find text (subpattern piece) start text.length) pieces start
    (∀ stop, found = some stop → Placed (fun piece position => OccursAt text position piece)
        List.length pieces start stop) ∧
      ∀ start' stop', start ≤ start' → Placed (fun piece position => OccursAt text position piece)
        List.length pieces start' stop' → ∃ stop ≤ stop', found = some stop := by
  refine placeEach_spec (fun piece member start => ?_) start
  refine (find_isFirst piece start (Nat.le_refl _)).congr fun position => ?_
  exact ⟨fun holds => ⟨holds.1, holds.2.2⟩, fun holds =>
    ⟨holds.1, holds.2.fits (filled piece member), holds.2⟩⟩

def firstFound (url : DnrUrlText) (text : CodeUnits) (left : DnrAnchor) (first : CodeUnits) :
    Option ℕ :=
  match left with
  | .none => find text (subpattern first) 0 text.length
  | .boundary => if startsWithAt text 0 (subpattern first) then some 0 else none
  | .subdomain =>
    if url.hostEnd ≤ url.hostBegin then none else findSubdomainAnchored url text (subpattern first)

theorem firstFound_isFirst {first : CodeUnits} (filled : first ≠ []) :
    IsFirst (fun position => Allowed url text 0 left position ∧ OccursAt text position first)
      (firstFound url text left first) := by
  cases left with
  | none =>
    refine (find_isFirst first 0 (Nat.le_refl text.length)).congr fun position => ?_
    exact ⟨fun holds => ⟨holds.1, holds.2.2⟩, fun holds =>
      ⟨holds.1, holds.2.fits filled, holds.2⟩⟩
  | boundary =>
    rw [firstFound]
    split
    · next starts =>
      refine ⟨⟨rfl, (startsWithAt_iff.mp starts).2⟩, fun _ _ => Nat.zero_le _⟩
    · next other =>
      rintro position ⟨rfl, occurs⟩
      exact other (startsWithAt_iff.mpr ⟨occurs.fits filled, occurs⟩)
  | subdomain =>
    rw [firstFound]
    split
    · next empty =>
      rintro position ⟨⟨host, -⟩, -⟩
      exact absurd host (Nat.not_lt.mpr empty)
    · next host =>
      refine (findSubdomainAnchored_isFirst (Nat.lt_of_not_le host) first).congr fun position => ?_
      exact ⟨fun holds => ⟨⟨Nat.lt_of_not_le host, holds.1⟩, holds.2.2⟩, fun holds =>
        ⟨holds.1.2, holds.2.fits filled, holds.2⟩⟩

theorem startOfLast_eq (matcher : DnrUrlPatternMatcher) (first : CodeUnits)
    (rest : List CodeUnits) :
    matcher.startOfLast url text (subpattern first :: rest.map subpattern) =
      (firstFound url text matcher.left first).bind fun found =>
        placeEach List.length (fun piece start => find text (subpattern piece) start text.length)
          rest (found + first.length) := by
  have isText : (subpattern first).text = first := rfl
  unfold DnrUrlPatternMatcher.startOfLast firstFound
  cases matcher.left with
  | none => exact findEach_eq (first :: rest) 0
  | boundary =>
    dsimp only
    rw [isText]
    split
    · rw [findEach_eq, Option.bind_some, Nat.zero_add]
    · rfl
  | subdomain =>
    dsimp only
    split
    · rfl
    · cases findSubdomainAnchored url text (subpattern first) with
      | none => rfl
      | some found => exact findEach_eq rest _

/-- Placing the first piece first, and each other at the first place behind, decides whether the
pieces can be arranged. -/
theorem matchesPieces_iff {matcher : DnrUrlPatternMatcher} {front : List CodeUnits}
    {last : CodeUnits} (isPieces : matcher.pieces = front ++ [last])
    (filled : ∀ piece ∈ front ++ [last], piece ≠ []) :
    matcher.matchesUrl url = true ↔
      Arranged (matcher.textOf url) matcher.right
        (Allowed url (matcher.textOf url) 0 matcher.left) (front ++ [last]) := by
  have filledLast : last ≠ [] := filled last (List.mem_append_right _ List.mem_cons_self)
  have isLast : matcher.last = some (lastSubpattern last) := by
    rw [DnrUrlPatternMatcher.last, isPieces, List.getLast?_concat]
    rfl
  have isFront : matcher.subpatterns = front.map subpattern := by
    rw [DnrUrlPatternMatcher.subpatterns, isPieces, List.dropLast_concat]
  unfold DnrUrlPatternMatcher.matchesUrl
  rw [isLast, isFront]
  dsimp only
  generalize matcher.textOf url = text
  cases front with
  | nil => exact matchesLast_iff filledLast
  | cons first rest =>
    obtain ⟨filledFirst, filledLater⟩ := List.forall_mem_cons.mp filled
    have filledRest : ∀ piece ∈ rest, piece ≠ [] := fun piece member =>
      filledLater piece (List.mem_append_left _ member)
    have unfolded : Arranged text matcher.right (Allowed url text 0 matcher.left)
        (first :: rest ++ [last]) ↔ ∃ position, Allowed url text 0 matcher.left position ∧
          OccursAt text position first ∧
          Arranged text matcher.right (position + first.length ≤ ·) (rest ++ [last]) := by
      cases rest <;> rfl
    have isFirst := @firstFound_isFirst text url matcher.left first filledFirst
    rw [List.map_cons, startOfLast_eq, unfolded]
    cases found : firstFound url text matcher.left first with
    | none =>
      rw [found] at isFirst
      refine ⟨fun no => (Bool.false_ne_true no).elim, ?_⟩
      rintro ⟨position, allowed, occurs, -⟩
      exact absurd ⟨allowed, occurs⟩ (isFirst position)
    | some position =>
      rw [found] at isFirst
      obtain ⟨⟨allowed, occurs⟩, earlier⟩ := isFirst
      have later := @findEach_spec text rest filledRest (position + first.length)
      constructor
      · intro matched
        rw [Option.bind_some] at matched
        cases isStop : placeEach List.length (fun piece start =>
            find text (subpattern piece) start text.length) rest (position + first.length) with
        | none =>
          rw [isStop] at matched
          cases matched
        | some stop =>
          rw [isStop] at matched
          refine ⟨position, allowed, occurs, arranged_append.mpr ⟨stop, later.1 stop isStop, ?_⟩⟩
          exact (matchesLast_iff filledLast).mp matched
      · rintro ⟨position', allowed', occurs', arranged⟩
        obtain ⟨stop', placed, place, behind, lastAt⟩ := arranged_append.mp arranged
        have least := earlier position' ⟨allowed', occurs'⟩
        obtain ⟨stop, most, isStop⟩ := later.2 _ stop' (Nat.add_le_add_right least _) placed
        rw [Option.bind_some, isStop]
        exact (matchesLast_iff filledLast).mpr ⟨place, Nat.le_trans most behind, lastAt⟩

/-! ## Filters and URLs -/

theorem wildcards_of_cuts {body : CodeUnits} {pieces : List CodeUnits} (cuts : Cuts 42 body pieces)
    (empty : ∀ piece ∈ pieces, piece = []) : ∀ code ∈ body, code = 42 := by
  induction cuts with
  | last piece absent =>
    rw [empty piece List.mem_cons_self]
    exact fun _ none => absurd none List.not_mem_nil
  | cons piece rest pieces absent later ih =>
    obtain ⟨rfl, others⟩ := List.forall_mem_cons.mp empty
    exact List.forall_mem_cons.mpr ⟨rfl, ih others⟩

theorem folded_eq_nil {matchCase : Bool} {body : CodeUnits} : folded matchCase body = [] ↔ body = [] := by
  cases matchCase <;> simp [folded, toLowerAscii]

theorem filterBody_eq_nil {urlFilter : CodeUnits} (nothing : filterBody urlFilter = []) :
    urlFilter = [] ∨ urlFilter = [124] ∨ urlFilter = [124, 124] ∨ urlFilter = [124, 124, 124] := by
  have ended (rest : CodeUnits)
      (none : (if rest.getLast? = some 124 then rest.dropLast else rest) = []) :
      rest = [] ∨ rest = [124] := by
    split at none
    · next bar =>
      have whole := List.dropLast_append_getLast? 124 bar
      rw [none] at whole
      exact .inr whole.symm
    · exact .inl none
  have behind := ended (behindLeftAnchor urlFilter) nothing
  rcases urlFilter with _ | ⟨first, rest⟩
  · exact .inl rfl
  · by_cases bar : first = 124
    · subst bar
      rcases rest with _ | ⟨second, rest⟩
      · exact .inr (.inl rfl)
      · by_cases bar : second = 124
        · subst bar
          rcases behind with none | one
          · exact .inr (.inr (.inl (congrArg (124 :: 124 :: ·) none)))
          · exact .inr (.inr (.inr (congrArg (124 :: 124 :: ·) one)))
        · have same : behindLeftAnchor (124 :: second :: rest) = second :: rest := by
            simp [behindLeftAnchor, bar]
          simp [same, bar] at behind
    · have same : behindLeftAnchor (first :: rest) = first :: rest := by
        simp [behindLeftAnchor, bar]
      simp [same, bar] at behind

/-- The matcher decides the language of its filter, other than of two bars, which match every URL,
and of three, which match none. -/
theorem matchesUrl_iff_belongs (urlFilter : CodeUnits) (matchCase : Bool) (spec : CodeUnits)
    (hostBegin hostEnd : ℕ) :
    (urlPatternStep urlFilter matchCase).matchesUrl (urlText spec hostBegin hostEnd) = true ↔
      urlFilter = units "||" ∨ urlFilter ≠ units "|||" ∧
        Belongs urlFilter matchCase (urlText spec hostBegin hostEnd) := by
  obtain ⟨matcher, isMatcher⟩ : ∃ matcher, matcher = urlPatternStep urlFilter matchCase := ⟨_, rfl⟩
  have isPattern : matcher.filter.pattern = folded matchCase (filterBody urlFilter) := by
    rw [isMatcher, urlPatternStep, parseUrlFilter_eq]
    rfl
  have isLeft : matcher.left = if (folded matchCase (filterBody urlFilter)).head? = some 42
      then .none else leftAnchor urlFilter := by
    rw [DnrUrlPatternMatcher.left, isPattern, isMatcher, urlPatternStep, parseUrlFilter_eq]
  have isRight : matcher.right = if (folded matchCase (filterBody urlFilter)).getLast? = some 42
      then .none else rightAnchor urlFilter := by
    rw [DnrUrlPatternMatcher.right, isPattern, isMatcher, urlPatternStep, parseUrlFilter_eq]
  have isText : matcher.textOf (urlText spec hostBegin hostEnd) = folded matchCase spec := by
    rw [isMatcher]
    rfl
  have belongs : Belongs urlFilter matchCase (urlText spec hostBegin hostEnd) ↔
      Arranged (matcher.textOf (urlText spec hostBegin hostEnd)) matcher.right
        (Allowed (urlText spec hostBegin hostEnd)
          (matcher.textOf (urlText spec hostBegin hostEnd)) 0 matcher.left) matcher.pieces := by
    rw [isText, isLeft, isRight, DnrUrlPatternMatcher.pieces, isPattern]
    rfl
  have bars (filter : CodeUnits) (isBars : filter = units "||" ∨ filter = units "|||") :
      folded matchCase (filterBody filter) = [] := by
    rcases isBars with rfl | rfl <;> exact folded_eq_nil.mpr rfl
  rw [← isMatcher]
  rcases List.eq_nil_or_concat matcher.pieces with none | ⟨front, last, isPieces⟩
  · have matched : matcher.matchesUrl (urlText spec hostBegin hostEnd) =
        (matcher.left == .none || matcher.right == .none) := by
      rw [DnrUrlPatternMatcher.matchesUrl, DnrUrlPatternMatcher.last, none]
      rfl
    rw [matched, belongs, none, Arranged]
    by_cases empty : folded matchCase (filterBody urlFilter) = []
    · rw [isLeft, isRight, empty]
      rcases filterBody_eq_nil (folded_eq_nil.mp empty) with rfl | rfl | rfl | rfl
      · refine iff_of_true rfl (.inr ⟨by decide, 0, Nat.zero_le _, Nat.zero_le _, absurd rfl⟩)
      · refine iff_of_true rfl (.inr ⟨by decide, 0, Nat.zero_le _, rfl, absurd rfl⟩)
      · exact iff_of_true rfl (.inl rfl)
      · refine iff_of_false (by decide) ?_
        rintro (same | ⟨other, -⟩)
        · exact absurd same (by decide)
        · exact other rfl
    · have allStars := wildcards_of_cuts (cuts_splitOnUnit 42 matcher.filter.pattern) (by
        intro piece member
        by_contra filled
        have kept : piece ∈ matcher.pieces :=
          List.mem_filter.mpr ⟨member, decide_eq_true (List.length_pos_iff.mpr filled)⟩
        rw [none] at kept
        cases kept)
      rw [isPattern] at allStars
      have first : (folded matchCase (filterBody urlFilter)).head? = some 42 := by
        cases isBody : folded matchCase (filterBody urlFilter) with
        | nil => exact absurd isBody empty
        | cons code rest =>
          rw [isBody] at allStars
          rw [allStars code List.mem_cons_self]
          rfl
      have last : (folded matchCase (filterBody urlFilter)).getLast? = some 42 := by
        have isLast := List.getLast?_eq_some_getLast empty
        rw [isLast, allStars _ (List.getLast_mem empty)]
      rw [isLeft, isRight, if_pos first, if_pos last]
      exact iff_of_true rfl (.inr ⟨fun same => empty (bars _ (.inr same)), 0, Nat.zero_le _,
        Nat.zero_le _, absurd rfl⟩)
  · rw [List.concat_eq_append] at isPieces
    have filled : ∀ piece ∈ front ++ [last], piece ≠ [] := by
      intro piece member
      rw [← isPieces] at member
      exact List.length_pos_iff.mp (of_decide_eq_true (List.mem_filter.mp member).2)
    have notBars (isBars : urlFilter = units "||" ∨ urlFilter = units "|||") : False := by
      rw [DnrUrlPatternMatcher.pieces, isPattern, bars _ isBars] at isPieces
      simp [splitOnUnit] at isPieces
    rw [belongs, matchesPieces_iff isPieces filled, isPieces]
    constructor
    · exact fun arranged => .inr ⟨fun same => notBars (.inr same), arranged⟩
    · rintro (same | ⟨-, arranged⟩)
      · exact (notBars (.inl same)).elim
      · exact arranged

/-- Two bars match a URL without a host, where no host begins; three match no URL, also none that
ends where a label begins. -/
theorem bars_beside_language :
    ((urlPatternStep (units "||") false).matchesUrl (urlText (units "about:blank") 0 0) = true ∧
      ¬Belongs (units "||") false (urlText (units "about:blank") 0 0)) ∧
    (urlPatternStep (units "|||") false).matchesUrl (urlText (units "foo://a.") 6 8) = false ∧
      Belongs (units "|||") false (urlText (units "foo://a.") 6 8) := by
  refine ⟨⟨by decide, ?_⟩, by decide, 8, by decide, ⟨by decide, by decide⟩, fun _ => rfl⟩
  rintro ⟨position, -, ⟨host, -⟩, -⟩
  exact absurd host (by decide)

end OxeeUI.Dnr
