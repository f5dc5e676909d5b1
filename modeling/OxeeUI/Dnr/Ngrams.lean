import OxeeUI.Library.LinearProbing
import Mathlib.Data.List.Infix
import Mathlib.Data.Nat.Bits
import Mathlib.Data.UInt

/-!
# N-grams of patterns and requests

Rules are keyed by a window of five code units of their filter.  A window packs
into seven and twenty-eight bits, and a process-wide dictionary gives each
window that keys a rule a dense number.  A pattern is cut at its wildcards and
separators; the text of a request is read once, and each number is reported
once.
-/

namespace OxeeUI.Dnr

open OxeeUI.Library

abbrev CodeUnits := List ℕ

def units (text : String) : CodeUnits := text.toList.map Char.toNat

/-- A code unit with `A` to `Z` lowered. -/
def lowerUnit (code : ℕ) : ℕ := if 65 ≤ code ∧ code ≤ 90 then code + 32 else code

def toLowerAscii (text : CodeUnits) : CodeUnits := text.map lowerUnit

structure Gram where
  high : ℕ
  low : ℕ
  deriving DecidableEq

def ngramSize : ℕ := 5

def shiftLow (low code : ℕ) : ℕ := ((low <<< 7) &&& 0x0fffffff) ||| code

def highBits (low : ℕ) : ℕ := (low >>> 21) &&& 0x7f

structure PatternGram where
  gram : Gram
  start : ℕ

/-- Whether a code unit of a pattern ends the run before it. -/
def cutsPattern (code : ℕ) : Bool := code == 42 || code == 94 || decide (0x7f < code)

/-- The loop of `patternNgrams`, at an index, with the length of the run and its low bits. -/
def patternNgramsFrom (index length low : ℕ) : CodeUnits → List PatternGram
  | [] => []
  | code :: rest =>
    if cutsPattern code then patternNgramsFrom (index + 1) 0 0 rest
    else
      let gram : Gram := ⟨highBits low, shiftLow low code⟩
      let later := patternNgramsFrom (index + 1) (length + 1) gram.low rest
      if ngramSize ≤ length + 1 then ⟨gram, index + 1 - ngramSize⟩ :: later else later

/-- Every window of a lower-cased pattern that crosses no wildcard and no separator. -/
def patternNgrams (pattern : CodeUnits) : List PatternGram := patternNgramsFrom 0 0 0 pattern

/-- The grams a request's text is read as. -/
def urlGramsFrom (length low : ℕ) : CodeUnits → List Gram
  | [] => []
  | code :: rest =>
    if 0x7f < code then urlGramsFrom 0 0 rest
    else
      let gram : Gram := ⟨highBits low, shiftLow low code⟩
      let later := urlGramsFrom (length + 1) gram.low rest
      if length + 1 < ngramSize then later else gram :: later

section Windows

/-- The low bits of a run read from some low bits. -/
def packFrom (low : ℕ) (run : CodeUnits) : ℕ := run.foldl shiftLow low

def packWindow (window : CodeUnits) : Gram :=
  ⟨highBits (packFrom 0 (window.take 4)), packFrom 0 window⟩

theorem shiftLow_eq {low code : ℕ} (ascii : code ≤ 0x7f) :
    shiftLow low code = low % 2 ^ 21 * 128 + code := by
  have shifted : (low <<< 7) &&& 0x0fffffff = 2 ^ 7 * (low % 2 ^ 21) := by
    rw [show (0x0fffffff : ℕ) = 2 ^ 28 - 1 from rfl, Nat.and_two_pow_sub_one_eq_mod,
      Nat.shiftLeft_eq]
    omega
  rw [shiftLow, shifted, ← Nat.two_pow_add_eq_or_of_lt (by omega)]
  omega

theorem highBits_eq (low : ℕ) : highBits low = low / 2 ^ 21 % 128 := by
  rw [highBits, show (0x7f : ℕ) = 2 ^ 7 - 1 from rfl, Nat.and_two_pow_sub_one_eq_mod,
    Nat.shiftRight_eq_div_pow]

theorem gram_of_five {a b c d e : ℕ} (low : ℕ) (first : a ≤ 0x7f) (second : b ≤ 0x7f)
    (third : c ≤ 0x7f) (fourth : d ≤ 0x7f) (fifth : e ≤ 0x7f) :
    (⟨highBits (packFrom low [a, b, c, d]), packFrom low [a, b, c, d, e]⟩ : Gram) =
      packWindow [a, b, c, d, e] := by
  simp only [packWindow, packFrom, List.take_succ_cons, List.take_zero, List.foldl_cons,
    List.foldl_nil, shiftLow_eq first, shiftLow_eq second, shiftLow_eq third, shiftLow_eq fourth,
    shiftLow_eq fifth, highBits_eq, Gram.mk.injEq]
  constructor
  · omega
  · omega

theorem exists_five {window : CodeUnits} (five : window.length = 5) :
    ∃ a b c d e, window = [a, b, c, d, e] := by
  match window, five with
  | [a, b, c, d, e], _ => exact ⟨a, b, c, d, e, rfl⟩

/-- A window of a pattern: five code units in a row, none of which cuts. -/
structure PatternWindow (pattern window : CodeUnits) : Prop where
  five : window.length = 5
  uncut : ∀ code ∈ window, cutsPattern code = false
  within : window <:+: pattern

theorem ascii_of_uncut {code : ℕ} (uncut : cutsPattern code = false) : code ≤ 0x7f := by
  simp only [cutsPattern, Bool.or_eq_false_iff, decide_eq_false_iff_not] at uncut
  omega

theorem cutsPattern_lower (code : ℕ) : cutsPattern (lowerUnit code) = cutsPattern code := by
  unfold lowerUnit
  split
  case isTrue upper =>
    rw [Bool.eq_iff_iff]
    simp only [cutsPattern, Bool.or_eq_true, beq_iff_eq, decide_eq_true_eq]
    omega
  case isFalse => rfl

theorem lowerUnit_idem (code : ℕ) : lowerUnit (lowerUnit code) = lowerUnit code := by
  unfold lowerUnit
  split
  case isTrue upper => rw [if_neg (by omega)]
  case isFalse => rfl

theorem toLowerAscii_idem (text : CodeUnits) :
    toLowerAscii (toLowerAscii text) = toLowerAscii text := by
  rw [toLowerAscii, toLowerAscii, List.map_map]
  exact List.map_congr_left fun code _ => lowerUnit_idem code

theorem exists_lowered {text window : CodeUnits} (within : window <:+: toLowerAscii text) :
    ∃ original, original <:+: text ∧ toLowerAscii original = window := by
  obtain ⟨front, back, same⟩ := within
  obtain ⟨head, tail, split, low, _⟩ := List.map_eq_append_iff.mp same.symm
  obtain ⟨early, middle, split', _, low'⟩ := List.map_eq_append_iff.mp low
  exact ⟨middle, ⟨early, tail, by rw [split, split']⟩, low'⟩

/-- Every gram of a pattern is the gram of one of its windows; `run` is what was read since the
last cut. -/
theorem patternNgramsFrom_window {text : CodeUnits} (index : ℕ) (run : CodeUnits)
    (uncut : ∀ code ∈ run, cutsPattern code = false) {gram : PatternGram}
    (member : gram ∈ patternNgramsFrom index run.length (packFrom 0 run) text) :
    ∃ window, PatternWindow (run ++ text) window ∧ gram.gram = packWindow window := by
  induction text generalizing index run with
  | nil => cases member
  | cons code rest ih =>
    cases cut : cutsPattern code with
    | true =>
      simp only [patternNgramsFrom, cut, if_true] at member
      obtain ⟨window, found, same⟩ := ih (index + 1) [] (by simp) member
      refine ⟨window, ⟨found.five, found.uncut, found.within.trans ?_⟩, same⟩
      exact (List.suffix_append (run ++ [code]) rest).isInfix.trans (by simp)
    | false =>
      have longer : ∀ other ∈ run ++ [code], cutsPattern other = false := by
        intro other place
        rcases List.mem_append.mp place with before | here
        · exact uncut other before
        · rw [List.mem_singleton.mp here, cut]
      have read : packFrom 0 (run ++ [code]) = shiftLow (packFrom 0 run) code := by
        simp [packFrom]
      have recursion : gram ∈ patternNgramsFrom (index + 1) (run ++ [code]).length
          (packFrom 0 (run ++ [code])) rest →
          ∃ window, PatternWindow (run ++ code :: rest) window ∧
            gram.gram = packWindow window := by
        intro later
        obtain ⟨window, found, same⟩ := ih (index + 1) (run ++ [code]) longer later
        exact ⟨window, by simpa using found, same⟩
      rw [List.length_append, List.length_singleton, read] at recursion
      simp only [patternNgramsFrom, cut, Bool.false_eq_true, if_false] at member
      split at member
      case isFalse => exact recursion member
      case isTrue enough =>
        rcases List.mem_cons.mp member with here | later
        · have four : 4 ≤ run.length := by
            simp only [ngramSize] at enough
            omega
          have tail : (run.drop (run.length - 4)).length = 4 := by
            rw [List.length_drop]
            omega
          obtain ⟨a, b, c, d, last⟩ : ∃ a b c d, run.drop (run.length - 4) = [a, b, c, d] := by
            match run.drop (run.length - 4), tail with
            | [a, b, c, d], _ => exact ⟨a, b, c, d, rfl⟩
          have split : run = run.take (run.length - 4) ++ [a, b, c, d] := by
            rw [← last, List.take_append_drop]
          have ascii : ∀ other ∈ [a, b, c, d], other ≤ 0x7f := by
            intro other place
            refine ascii_of_uncut (uncut other ?_)
            rw [split]
            exact List.mem_append_right _ place
          refine ⟨[a, b, c, d, code], ⟨rfl, ?_, ?_⟩, ?_⟩
          · intro other place
            refine longer other ?_
            rw [split, List.append_assoc]
            exact List.mem_append_right _ place
          · rw [split]
            exact ⟨run.take (run.length - 4), rest, by simp⟩
          · rw [here]
            have packed := gram_of_five (packFrom 0 (run.take (run.length - 4)))
              (ascii a (by simp)) (ascii b (by simp)) (ascii c (by simp)) (ascii d (by simp))
              (ascii_of_uncut cut)
            rw [← packed]
            have before : packFrom (packFrom 0 (run.take (run.length - 4))) [a, b, c, d] =
                packFrom 0 run := by
              conv_rhs => rw [split]
              simp [packFrom]
            have after : packFrom (packFrom 0 (run.take (run.length - 4)))
                [a, b, c, d, code] = shiftLow (packFrom 0 run) code := by
              rw [← before]
              simp [packFrom]
            rw [before, after]
        · exact recursion later

theorem patternNgrams_window {pattern : CodeUnits} {gram : PatternGram}
    (member : gram ∈ patternNgrams pattern) :
    ∃ window, PatternWindow pattern window ∧ gram.gram = packWindow window := by
  have found := @patternNgramsFrom_window pattern 0 [] (by simp) gram member
  simpa using found

/-- A window of a text is read, whatever was read before the text. -/
theorem mem_urlGramsFrom {text window : CodeUnits} (five : window.length = 5)
    (ascii : ∀ code ∈ window, code ≤ 0x7f) (within : window <:+: text) (length low : ℕ) :
    packWindow window ∈ urlGramsFrom length low text := by
  obtain ⟨front, back, rfl⟩ := within
  induction front generalizing length low with
  | nil =>
    obtain ⟨a, b, c, d, e, rfl⟩ := exists_five five
    have codes : a ≤ 0x7f ∧ b ≤ 0x7f ∧ c ≤ 0x7f ∧ d ≤ 0x7f ∧ e ≤ 0x7f :=
      ⟨ascii a (by simp), ascii b (by simp), ascii c (by simp), ascii d (by simp),
        ascii e (by simp)⟩
    have later : ∀ {gram : Gram} {gram' : Gram} {grams : List Gram} {short : Prop}
        [Decidable short], gram ∈ grams → gram ∈ if short then grams else gram' :: grams := by
      intro gram gram' grams short _ member
      split
      · exact member
      · exact List.mem_cons_of_mem _ member
    have packed := gram_of_five low codes.1 codes.2.1 codes.2.2.1 codes.2.2.2.1 codes.2.2.2.2
    simp only [List.nil_append, List.cons_append, urlGramsFrom,
      if_neg (Nat.not_lt.mpr codes.1), if_neg (Nat.not_lt.mpr codes.2.1),
      if_neg (Nat.not_lt.mpr codes.2.2.1), if_neg (Nat.not_lt.mpr codes.2.2.2.1),
      if_neg (Nat.not_lt.mpr codes.2.2.2.2)]
    refine later (later (later (later ?_)))
    rw [if_neg (by simp only [ngramSize]; omega), ← packed]
    exact List.mem_cons_self
  | cons code rest ih =>
    simp only [List.cons_append, urlGramsFrom]
    split
    · exact ih 0 0
    · split
      · exact ih _ _
      · exact List.mem_cons_of_mem _ (ih _ _)

end Windows

end OxeeUI.Dnr
