import OxeeUI.Dnr.UrlPattern
import OxeeUI.Library.Placement

/-!
# Where pieces occur

A piece occurs where each of its code units admits one of the text.  Each search for a
piece, however it jumps, finds the first place of those it is asked for.
-/

namespace OxeeUI.Dnr

open Library

variable {text piece needle : CodeUnits} {start limit : ℕ}

/-- A piece is read at a position, code unit by code unit. -/
def OccursAt (text : CodeUnits) (position : ℕ) (piece : CodeUnits) : Prop :=
  ∃ word, word <+: text.drop position ∧
    List.Forall₂ (fun want seen => unitAdmits want seen = true) piece word

theorem admitsPrefix_iff {wants seen : CodeUnits} :
    admitsPrefix wants seen = true ↔
      ∃ word, word <+: seen ∧ List.Forall₂ (fun want seen => unitAdmits want seen = true) wants word := by
  induction wants generalizing seen with
  | nil => exact ⟨fun _ => ⟨[], List.nil_prefix, .nil⟩, fun _ => rfl⟩
  | cons want wants ih =>
    cases seen with
    | nil =>
      refine ⟨fun admitted => (Bool.false_ne_true admitted).elim, ?_⟩
      rintro ⟨word, inside, admitted⟩
      rw [List.prefix_nil.mp inside] at admitted
      cases admitted
    | cons code seen =>
      rw [admitsPrefix, Bool.and_eq_true, ih]
      constructor
      · rintro ⟨first, word, inside, rest⟩
        exact ⟨code :: word, List.cons_prefix_cons.mpr ⟨rfl, inside⟩, .cons first rest⟩
      · rintro ⟨word, inside, admitted⟩
        cases admitted with
        | cons first rest =>
          obtain ⟨rfl, inside'⟩ := List.cons_prefix_cons.mp inside
          exact ⟨first, _, inside', rest⟩

theorem occursAt_literal (literal : separatorPlaceholder ∉ piece) {position : ℕ} :
    OccursAt text position piece ↔ piece <+: text.drop position := by
  have same : ∀ {wants word : CodeUnits}, separatorPlaceholder ∉ wants →
      (List.Forall₂ (fun want seen => unitAdmits want seen = true) wants word ↔ wants = word) := by
    intro wants word absent
    constructor
    · intro admitted
      induction admitted with
      | nil => rfl
      | cons first rest ih =>
        obtain ⟨apart, later⟩ := not_or.mp (mt List.mem_cons.mpr absent)
        simp only [unitAdmits, Bool.or_eq_true, Bool.and_eq_true, beq_iff_eq] at first
        rcases first with equal | ⟨wild, -⟩
        · rw [equal, ih later]
        · exact absurd wild.symm apart
    · rintro rfl
      exact List.forall₂_same.mpr fun want _ => by simp [unitAdmits]
  constructor
  · rintro ⟨word, inside, admitted⟩
    rwa [(same literal).mp admitted]
  · intro inside
    exact ⟨piece, inside, (same literal).mpr rfl⟩

theorem startsWithAt_iff {position : ℕ} :
    startsWithAt text position (subpattern piece) = true ↔
      position + piece.length ≤ text.length ∧ OccursAt text position piece := by
  have isText : (subpattern piece).text = piece := rfl
  rw [startsWithAt, isText]
  by_cases short : text.length < position + piece.length
  · rw [if_pos short]
    exact ⟨fun no => (Bool.false_ne_true no).elim, fun fits => by omega⟩
  · rw [if_neg short, and_iff_right (Nat.not_lt.mp short)]
    by_cases fuzzy : separatorPlaceholder ∈ piece
    · rw [if_pos (show (subpattern piece).fuzzy = true from List.contains_iff_mem.mpr fuzzy),
        admitsPrefix_iff, OccursAt]
    · have literal : ¬(subpattern piece).fuzzy = true := mt List.contains_iff_mem.mp fuzzy
      rw [if_neg literal, occursAt_literal fuzzy, List.isPrefixOf_iff_prefix]

theorem OccursAt.drop {position : ℕ} (occurs : OccursAt text position piece) (count : ℕ) :
    OccursAt text (position + count) (piece.drop count) := by
  obtain ⟨word, inside, admitted⟩ := occurs
  refine ⟨word.drop count, ?_, List.forall₂_drop count admitted⟩
  rw [← List.drop_drop]
  exact inside.drop count

theorem OccursAt.front {front back : CodeUnits} {position : ℕ}
    (occurs : OccursAt text position (front ++ back)) : OccursAt text position front := by
  obtain ⟨word, inside, admitted⟩ := occurs
  have taken := List.forall₂_take front.length admitted
  rw [List.take_left] at taken
  exact ⟨word.take front.length, (List.take_prefix _ word).trans inside, taken⟩

/-! ## The literal part -/

inductive Cuts (delimiter : ℕ) : CodeUnits → List CodeUnits → Prop where
  | last (piece : CodeUnits) (absent : delimiter ∉ piece) : Cuts delimiter piece [piece]
  | cons (piece rest : CodeUnits) (pieces : List CodeUnits) (absent : delimiter ∉ piece)
      (later : Cuts delimiter rest pieces) :
      Cuts delimiter (piece ++ delimiter :: rest) (piece :: pieces)

theorem cuts_splitOnUnit (delimiter : ℕ) (text : CodeUnits) :
    Cuts delimiter text (splitOnUnit delimiter text) := by
  induction text with
  | nil => exact .last [] List.not_mem_nil
  | cons code rest ih =>
    rw [splitOnUnit]
    split
    · next same =>
      subst same
      exact .cons [] rest _ List.not_mem_nil ih
    · next apart =>
      have longer {piece : CodeUnits} (absent : delimiter ∉ piece) : delimiter ∉ code :: piece :=
        fun member => (List.mem_cons.mp member).elim (fun same => apart same.symm) absent
      generalize splitOnUnit delimiter rest = pieces at ih
      cases ih with
      | last piece absent => exact .last (code :: rest) (longer absent)
      | cons piece rest pieces absent later =>
        exact .cons (code :: piece) rest pieces (longer absent) later

def LiteralPart (piece : CodeUnits) (best : CodeUnits × ℕ) : Prop :=
  best.1 <+: piece.drop best.2 ∧ separatorPlaceholder ∉ best.1

theorem longestPiece_literal {rest : CodeUnits} {pieces : List CodeUnits} {offset : ℕ}
    {best : CodeUnits × ℕ} (cuts : Cuts separatorPlaceholder rest pieces)
    (here : piece.drop offset = rest) (literal : LiteralPart piece best) :
    LiteralPart piece (longestPiece pieces offset best) := by
  induction cuts generalizing offset best with
  | last part absent =>
    rw [longestPiece, longestPiece]
    split
    · exact ⟨here ▸ List.prefix_rfl, absent⟩
    · exact literal
  | cons part rest pieces absent later ih =>
    rw [longestPiece]
    refine ih ?_ ?_
    · rw [Nat.add_assoc, ← List.drop_drop, here, ← List.drop_drop, List.drop_left]
      rfl
    · split
      · exact ⟨here ▸ List.prefix_append _ _, absent⟩
      · exact literal

theorem anchor_occurs {position : ℕ} (occurs : OccursAt text position piece) :
    (subpattern piece).anchor <+: text.drop (position + (subpattern piece).anchorOffset) := by
  have literal : LiteralPart piece (longestPiece (splitOnUnit separatorPlaceholder piece) 0 ([], 0)) :=
    longestPiece_literal (cuts_splitOnUnit _ _) rfl ⟨List.nil_prefix, List.not_mem_nil⟩
  obtain ⟨⟨rest, part⟩, absent⟩ := literal
  have behind := occurs.drop (subpattern piece).anchorOffset
  rw [show piece.drop (subpattern piece).anchorOffset = (subpattern piece).anchor ++ rest from
    part.symm] at behind
  exact (occursAt_literal absent).mp behind.front

/-! ## Searches -/

theorem indexOf_isFirst (text needle : CodeUnits) (start : ℕ) :
    IsFirst (fun position => start ≤ position ∧ position ≤ text.length ∧
      needle <+: text.drop position) (indexOf text needle start) := by
  refine (isFirst_find? start (text.length + 1 - start) _).congr fun position => ?_
  rw [List.isPrefixOf_iff_prefix]
  constructor
  · rintro ⟨least, most, inside⟩
    exact ⟨least, by omega, inside⟩
  · rintro ⟨least, most, inside⟩
    exact ⟨least, by omega, inside⟩

theorem anchor_reached {reached : ℕ} (nonempty : (subpattern piece).anchor ≠ [])
    (passed : ∀ position, start ≤ position → position + (subpattern piece).anchorOffset < reached →
      position + piece.length ≤ limit → ¬OccursAt text position piece) {position : ℕ}
    (least : start ≤ position) (fits : position + piece.length ≤ limit)
    (occurs : OccursAt text position piece) :
    reached ≤ position + (subpattern piece).anchorOffset ∧
      position + (subpattern piece).anchorOffset ≤ text.length ∧
      (subpattern piece).anchor <+: text.drop (position + (subpattern piece).anchorOffset) := by
  have here := anchor_occurs occurs
  refine ⟨?_, ?_, here⟩
  · by_contra before
    exact passed position least (Nat.lt_of_not_le before) fits occurs
  · by_contra far
    rw [List.drop_eq_nil_of_le (by omega)] at here
    exact nonempty (List.prefix_nil.mp here)

theorem findByAnchor_isFirst (fuel : ℕ) {hit : Option ℕ} {reached : ℕ}
    (nonempty : (subpattern piece).anchor ≠ [])
    (isHit : IsFirst (fun position => reached ≤ position ∧ position ≤ text.length ∧
      (subpattern piece).anchor <+: text.drop position) hit)
    (above : start + (subpattern piece).anchorOffset ≤ reached) (inside : limit ≤ text.length)
    (passed : ∀ position, start ≤ position → position + (subpattern piece).anchorOffset < reached →
      position + piece.length ≤ limit → ¬OccursAt text position piece)
    (enough : text.length < fuel + reached) :
    IsFirst (fun position => start ≤ position ∧ position + piece.length ≤ limit ∧
      OccursAt text position piece) (findByAnchor text (subpattern piece) limit fuel hit) := by
  induction fuel generalizing hit reached with
  | zero =>
    rintro position ⟨least, fits, occurs⟩
    obtain ⟨far, near, -⟩ := anchor_reached nonempty passed least fits occurs
    omega
  | succ fuel ih =>
    cases hit with
    | none =>
      rintro position ⟨least, fits, occurs⟩
      exact isHit _ (anchor_reached nonempty passed least fits occurs)
    | some hit =>
      have first {position : ℕ} (least : start ≤ position) (fits : position + piece.length ≤ limit)
          (occurs : OccursAt text position piece) :
          hit ≤ position + (subpattern piece).anchorOffset :=
        isHit.2 _ (anchor_reached nonempty passed least fits occurs)
      have far := isHit.1.1
      have isText : (subpattern piece).text = piece := rfl
      rw [findByAnchor, isText]
      split
      · rintro position ⟨least, fits, occurs⟩
        have reached' := first least fits occurs
        omega
      · next fits =>
        split
        · next starts =>
          obtain ⟨-, occurs⟩ := startsWithAt_iff.mp starts
          refine ⟨⟨by omega, by omega, occurs⟩, ?_⟩
          rintro position ⟨least, fits', occurs'⟩
          have reached' := first least fits' occurs'
          omega
        · next starts =>
          refine ih (indexOf_isFirst text _ (hit + 1)) (by omega) ?_ (by omega)
          intro position least before fits' occurs
          have reached' := first least fits' occurs
          have same : position = hit - (subpattern piece).anchorOffset := by omega
          exact starts (startsWithAt_iff.mpr ⟨by omega, same ▸ occurs⟩)

/-- `find` finds the first place of a piece from a start on and up to a limit. -/
theorem find_isFirst (piece : CodeUnits) (start : ℕ) (inside : limit ≤ text.length) :
    IsFirst (fun position => start ≤ position ∧ position + piece.length ≤ limit ∧
      OccursAt text position piece) (find text (subpattern piece) start limit) := by
  have isText : (subpattern piece).text = piece := rfl
  rw [find, isText]
  split
  · rintro position ⟨least, fits, -⟩
    omega
  · next room =>
    split
    · next literal =>
      have absent : separatorPlaceholder ∉ piece := by
        intro member
        rw [show (subpattern piece).fuzzy = true from List.contains_iff_mem.mpr member] at literal
        cases literal
      have isFirst := indexOf_isFirst text piece start
      cases found : indexOf text piece start with
      | none =>
        rw [found] at isFirst
        rintro position ⟨least, fits, occurs⟩
        exact isFirst position ⟨least, by omega, (occursAt_literal absent).mp occurs⟩
      | some first =>
        rw [found] at isFirst
        obtain ⟨⟨least, -, occurs⟩, earlier⟩ := isFirst
        have least' {position : ℕ} (holds : start ≤ position ∧
            position + piece.length ≤ limit ∧ OccursAt text position piece) :
            first ≤ position := by
          refine earlier position ⟨holds.1, by omega, ?_⟩
          exact (occursAt_literal absent).mp holds.2.2
        rw [Option.filter_some]
        split
        · next fits =>
          exact ⟨⟨least, of_decide_eq_true fits, (occursAt_literal absent).mpr occurs⟩,
            fun position holds => least' holds⟩
        · next far =>
          intro position holds
          have before := least' holds
          have past : ¬first + piece.length ≤ limit := fun fits => far (decide_eq_true fits)
          omega
    · split
      · refine (isFirst_find? start _ _).congr fun position => ?_
        rw [startsWithAt_iff]
        constructor
        · rintro ⟨least, most, -, occurs⟩
          exact ⟨least, by omega, occurs⟩
        · rintro ⟨least, fits, occurs⟩
          exact ⟨least, by omega, by omega, occurs⟩
      · next anchored =>
        have nonempty : (subpattern piece).anchor ≠ [] := mt List.length_eq_zero_iff.mpr anchored
        refine findByAnchor_isFirst _ nonempty (indexOf_isFirst text _ _) (Nat.le_refl _) inside ?_
          (by omega)
        intro position least before
        omega

theorem OccursAt.fits {position : ℕ} (filled : piece ≠ []) (occurs : OccursAt text position piece) :
    position + piece.length ≤ text.length := by
  obtain ⟨word, inside, admitted⟩ := occurs
  have short := inside.length_le
  have same := admitted.length_eq
  have positive := List.length_pos_iff.mpr filled
  rw [List.length_drop] at short
  omega

/-! ## The host -/

variable {url : DnrUrlText}

theorem dot_before {position found : ℕ} (begun : url.hostBegin ≤ found) (behind : found < position)
    (anchored : isSubdomainAnchored url text position = true) :
    position ≤ url.hostEnd ∧ 0 < position ∧ found ≤ position - 1 ∧
      position - 1 ≤ text.length ∧ [46] <+: text.drop (position - 1) := by
  have other : ¬position = url.hostBegin := by omega
  simp only [isSubdomainAnchored, Bool.or_eq_true, beq_iff_eq, other, false_or, Bool.and_eq_true,
    decide_eq_true_eq] at anchored
  obtain ⟨⟨-, within⟩, dot⟩ := anchored
  obtain ⟨inside, isDot⟩ := List.getElem?_eq_some_iff.mp dot
  refine ⟨within, by omega, by omega, Nat.le_of_lt inside, ?_⟩
  rw [List.drop_eq_getElem_cons inside, isDot]
  exact List.cons_prefix_cons.mpr ⟨rfl, List.nil_prefix⟩

theorem anchored_within {position : ℕ} (host : url.hostBegin < url.hostEnd)
    (anchored : isSubdomainAnchored url text position = true) :
    url.hostBegin ≤ position ∧ position ≤ url.hostEnd := by
  simp only [isSubdomainAnchored, Bool.or_eq_true, beq_iff_eq, Bool.and_eq_true,
    decide_eq_true_eq] at anchored
  omega

theorem findSubdomainAnchoredFrom_isFirst (host : url.hostBegin < url.hostEnd) (fuel : ℕ)
    {reached : ℕ} (begun : url.hostBegin ≤ reached)
    (passed : ∀ position, isSubdomainAnchored url text position = true →
      position + piece.length ≤ text.length → OccursAt text position piece → reached ≤ position)
    (enough : url.hostEnd + 1 < fuel + reached) :
    IsFirst (fun position => isSubdomainAnchored url text position = true ∧
        position + piece.length ≤ text.length ∧ OccursAt text position piece)
      (findSubdomainAnchoredFrom url text (subpattern piece)
        (min text.length (url.hostEnd + piece.length)) fuel reached) := by
  induction fuel generalizing reached with
  | zero =>
    rintro position ⟨anchored, fits, occurs⟩
    have far := passed position anchored fits occurs
    have near := (anchored_within host anchored).2
    omega
  | succ fuel ih =>
    rw [findSubdomainAnchoredFrom]
    split
    · next gone =>
      rintro position ⟨anchored, fits, occurs⟩
      have far := passed position anchored fits occurs
      have near := (anchored_within host anchored).2
      omega
    · have search := find_isFirst piece reached
        (Nat.min_le_left text.length (url.hostEnd + piece.length))
      have within {position : ℕ} (anchored : isSubdomainAnchored url text position = true)
          (fits : position + piece.length ≤ text.length) (occurs : OccursAt text position piece) :
          reached ≤ position ∧ position + piece.length ≤
            min text.length (url.hostEnd + piece.length) ∧ OccursAt text position piece := by
        have near := (anchored_within host anchored).2
        exact ⟨passed position anchored fits occurs, by omega, occurs⟩
      split
      · next isNone =>
        rw [isNone] at search
        rintro position ⟨anchored, fits, occurs⟩
        exact search position (within anchored fits occurs)
      · next found isFound =>
        rw [isFound] at search
        obtain ⟨⟨least, fits, occurs⟩, earlier⟩ := search
        split
        · next anchored =>
          refine ⟨⟨anchored, by omega, occurs⟩, ?_⟩
          rintro position ⟨anchored', fits', occurs'⟩
          exact earlier position (within anchored' fits' occurs')
        · next other =>
          have dots := indexOf_isFirst text [46] found
          have behind {position : ℕ} (anchored : isSubdomainAnchored url text position = true)
              (fits : position + piece.length ≤ text.length)
              (occurs : OccursAt text position piece) : position ≤ url.hostEnd ∧
                0 < position ∧ found ≤ position - 1 ∧ position - 1 ≤ text.length ∧
                [46] <+: text.drop (position - 1) := by
            have notBefore := earlier position (within anchored fits occurs)
            have apart : position ≠ found := by
              rintro rfl
              exact other anchored
            exact dot_before (by omega) (by omega) anchored
          split
          · next isNone =>
            rw [isNone] at dots
            rintro position ⟨anchored, fits, occurs⟩
            exact dots _ (behind anchored fits occurs).2.2
          · next dot isDot =>
            rw [isDot] at dots
            split
            · next far =>
              rintro position ⟨anchored, fits, occurs⟩
              have here := behind anchored fits occurs
              have reached' := dots.2 _ here.2.2
              omega
            · have least' := dots.1.1
              refine ih (by omega) ?_ (by omega)
              intro position anchored fits occurs
              have here := behind anchored fits occurs
              have reached' := dots.2 _ here.2.2
              have positive := here.2.1
              omega

theorem findSubdomainAnchored_isFirst (host : url.hostBegin < url.hostEnd) (piece : CodeUnits) :
    IsFirst (fun position => isSubdomainAnchored url text position = true ∧
        position + piece.length ≤ text.length ∧ OccursAt text position piece)
      (findSubdomainAnchored url text (subpattern piece)) :=
  findSubdomainAnchoredFrom_isFirst host _ (Nat.le_refl _)
    (fun _ anchored _ _ => (anchored_within host anchored).1) (by omega)

end OxeeUI.Dnr
