import Mathlib.Data.List.Basic
import Mathlib.Tactic.TypeStar

/-!
# Delimited text

A text of records, each a list of fields, read by an automaton of four modes.  The
alphabet is any type whose letters have a code: characters, code units or bytes.  What a
letter does depends on its code and the mode alone, so an encoding that keeps the codes
of the marks keeps the fields and the records.
-/

namespace OxeeUI.Library.Delimited

/-- Before a field's first letter, in it, within quotes, and behind a quote within quotes. -/
inductive Mode where
  | start
  | bare
  | quoted
  | closing
deriving DecidableEq

/-- A letter belongs to its field, only delimits it, ends the field or ends the record. -/
inductive Mark where
  | keep
  | skip
  | field
  | record

def mark (delimiter : ℕ) (mode : Mode) (code : ℕ) : Mark × Mode :=
  if mode = .quoted then
    if code = 34 then (.skip, .closing) else (.keep, .quoted)
  else if code = 34 ∧ mode = .start then (.skip, .quoted)
  else if code = 34 ∧ mode = .closing then (.keep, .quoted)
  else if code = delimiter then (.field, .start)
  else if code = 13 ∨ code = 10 then (.record, .start)
  else (.keep, .bare)

section Records

variable {Letter : Type*} (code : Letter → ℕ) (delimiter : ℕ)

/-- The mode behind a content that ends no record. -/
def scan : Mode → List Letter → Option Mode
  | mode, [] => some mode
  | mode, letter :: letters =>
    match mark delimiter mode (code letter) with
    | (.record, _) => none
    | (_, next) => scan next letters

/-- The fields of a content, the first of them begun. -/
def fields : Mode → List Letter → List Letter → List (List Letter)
  | _, held, [] => [held]
  | mode, held, letter :: letters =>
    match mark delimiter mode (code letter) with
    | (.keep, next) => fields next (held ++ [letter]) letters
    | (.skip, next) => fields next held letters
    | (.field, next) => held :: fields next [] letters
    | (.record, _) => [held]

/-- The fields of a content as they are written, the first of them begun. -/
def tokens : Mode → List Letter → List Letter → List (List Letter)
  | _, held, [] => [held]
  | mode, held, letter :: letters =>
    match mark delimiter mode (code letter) with
    | (.record, _) => [held]
    | (.field, next) => held :: tokens next [] letters
    | (_, next) => tokens next (held ++ [letter]) letters

structure Record (Letter : Type*) where
  content : List Letter
  ending : List Letter

def Record.text (record : Record Letter) : List Letter := record.content ++ record.ending

def Record.encoded {Unit : Type*} (encode : Letter → List Unit) (record : Record Letter) :
    Record Unit :=
  ⟨record.content.flatMap encode, record.ending.flatMap encode⟩

def joined (records : List (Record Letter)) : List Letter := records.flatMap Record.text

def Record.row (record : Record Letter) : List (List Letter) :=
  fields code delimiter .start [] record.content

/-- A letter that ends the record, with the line feed behind a carriage return. -/
def Ends (mode : Mode) (ending following : List Letter) : Prop :=
  ∃ first rest, ending = first :: rest ∧ (mark delimiter mode (code first)).1 = .record ∧
    if code first = 13 then
      (∃ feed, rest = [feed] ∧ code feed = 10) ∨ rest = [] ∧ ∀ next ∈ following.head?, code next ≠ 10
    else rest = []

/-- Records that are read as they are when joined. -/
inductive Splits : List (Record Letter) → Prop where
  | none : Splits []
  | last (content : List Letter) (nonempty : content ≠ []) (mode : Mode)
      (scanned : scan code delimiter .start content = some mode) : Splits [⟨content, []⟩]
  | cons (content ending : List Letter) (records : List (Record Letter)) (mode : Mode)
      (scanned : scan code delimiter .start content = some mode)
      (ends : Ends code delimiter mode ending (joined records)) (splits : Splits records) :
      Splits (⟨content, ending⟩ :: records)

end Records

section Laws

variable {Letter : Type*} {code : Letter → ℕ} {delimiter : ℕ} {mode : Mode}
  {records : List (Record Letter)}

theorem exists_scan (mode : Mode) (text : List Letter) :
    ∃ content rest next, text = content ++ rest ∧ scan code delimiter mode content = some next ∧
      ∀ letter ∈ rest.head?, (mark delimiter next (code letter)).1 = .record := by
  induction text generalizing mode with
  | nil => exact ⟨[], [], mode, rfl, rfl, fun _ member => nomatch member⟩
  | cons letter text ih =>
    cases marked : mark delimiter mode (code letter) with
    | mk does next =>
      cases does with
      | record =>
        refine ⟨[], letter :: text, mode, rfl, rfl, fun first isFirst => ?_⟩
        cases isFirst
        rw [marked]
      | keep | skip | field =>
        obtain ⟨content, rest, last, rfl, scanned, stops⟩ := ih next
        refine ⟨letter :: content, rest, last, rfl, ?_, stops⟩
        simp only [scan, marked]
        exact scanned

theorem mark_record {code : ℕ} (record : (mark delimiter mode code).1 = .record) :
    (code = 13 ∨ code = 10) ∧ mode ≠ .quoted := by
  unfold mark at record
  split at record
  · split at record <;> cases record
  · next unquoted =>
    refine ⟨?_, unquoted⟩
    split at record
    · cases record
    · split at record
      · cases record
      · split at record
        · cases record
        · split at record
          · assumption
          · cases record

theorem mark_record_delimiter {code : ℕ} (record : (mark delimiter mode code).1 = .record) :
    code ≠ delimiter := by
  rintro rfl
  unfold mark at record
  split at record
  · split at record <;> cases record
  · split at record
    · cases record
    · split at record
      · cases record
      · rw [if_pos rfl] at record
        cases record

theorem exists_splits (text : List Letter) :
    ∃ records, Splits code delimiter records ∧ joined records = text := by
  induction bound : text.length using Nat.strongRecOn generalizing text with
  | ind bound ih =>
    obtain ⟨content, rest, mode, rfl, scanned, stops⟩ :=
      @exists_scan _ code delimiter .start text
    have measured : ∀ more : List Letter, more.length < (content ++ rest).length →
        ∃ records, Splits code delimiter records ∧ joined records = more := fun more shorter =>
      ih more.length (bound ▸ shorter) more rfl
    cases rest with
    | nil =>
      by_cases nothing : content = []
      · exact ⟨[], .none, by rw [nothing]; rfl⟩
      · exact ⟨[⟨content, []⟩], .last content nothing mode scanned, by simp [joined, Record.text]⟩
    | cons first rest =>
      have record := stops first rfl
      have build : ∀ ending more, first :: rest = ending ++ more → ending ≠ [] →
          (∀ records, joined records = more → Ends code delimiter mode ending (joined records)) →
          ∃ records, Splits code delimiter records ∧ joined records = content ++ first :: rest := by
        intro ending more split nonempty ends
        obtain ⟨records, splits, isMore⟩ := measured more (by
          have positive := List.length_pos_iff.mpr nonempty
          rw [split, List.length_append, List.length_append]
          omega)
        refine ⟨⟨content, ending⟩ :: records,
          .cons content ending records mode scanned (ends records isMore) splits, ?_⟩
        rw [split, ← isMore]
        simp [joined, Record.text]
      by_cases return' : code first = 13
      · cases rest with
        | nil =>
          refine build [first] [] rfl (List.cons_ne_nil _ _) fun records isMore => ?_
          refine ⟨first, [], rfl, record, ?_⟩
          rw [if_pos return', isMore]
          exact .inr ⟨rfl, fun _ member => nomatch member⟩
        | cons second rest =>
          by_cases feed : code second = 10
          · refine build [first, second] rest rfl (List.cons_ne_nil _ _) fun records _ => ?_
            refine ⟨first, [second], rfl, record, ?_⟩
            rw [if_pos return']
            exact .inl ⟨second, rfl, feed⟩
          · refine build [first] (second :: rest) rfl (List.cons_ne_nil _ _)
              fun records isMore => ?_
            refine ⟨first, [], rfl, record, ?_⟩
            rw [if_pos return', isMore]
            refine .inr ⟨rfl, fun next isNext => ?_⟩
            cases isNext
            exact feed
      · refine build [first] rest rfl (List.cons_ne_nil _ _) fun records _ => ?_
        exact ⟨first, [], rfl, record, by rw [if_neg return']⟩

theorem Ends.shorter {ending following shorter : List Letter}
    (ends : Ends code delimiter mode ending following) (starts : shorter <+: following) :
    Ends code delimiter mode ending shorter := by
  obtain ⟨first, rest, rfl, record, behind⟩ := ends
  refine ⟨first, rest, rfl, record, ?_⟩
  split at behind
  · next return' =>
    rw [if_pos return']
    rcases behind with feed | ⟨rfl, other⟩
    · exact .inl feed
    · refine .inr ⟨rfl, fun next isNext => other next ?_⟩
      obtain ⟨more, rfl⟩ := starts
      rw [List.head?_append, isNext]
      rfl
  · next notReturn =>
    rw [if_neg notReturn]
    exact behind

theorem joined_append (front back : List (Record Letter)) :
    joined (front ++ back) = joined front ++ joined back :=
  List.flatMap_append

theorem Splits.of_append {front back : List (Record Letter)}
    (splits : Splits code delimiter (front ++ back)) :
    Splits code delimiter front ∧ Splits code delimiter back := by
  induction front with
  | nil => exact ⟨.none, splits⟩
  | cons record front ih =>
    rw [List.cons_append] at splits
    generalize isWhole : front ++ back = whole at splits
    cases splits with
    | last content nonempty mode scanned =>
      obtain ⟨rfl, rfl⟩ := List.append_eq_nil_iff.mp isWhole
      exact ⟨.last content nonempty mode scanned, .none⟩
    | cons content ending whole mode scanned ends rest =>
      subst isWhole
      obtain ⟨first, second⟩ := ih rest
      have starts : joined front <+: joined (front ++ back) :=
        ⟨joined back, (joined_append front back).symm⟩
      exact ⟨.cons content ending front mode scanned (ends.shorter starts) first, second⟩

theorem Splits.text_ne_nil (splits : Splits code delimiter records) :
    ∀ record ∈ records, record.text ≠ [] := by
  induction splits with
  | none => exact fun _ none => absurd none List.not_mem_nil
  | last content nonempty mode scanned => simpa [Record.text] using nonempty
  | cons content ending records mode scanned ends splits ih =>
    obtain ⟨first, rest, rfl, -⟩ := ends
    refine List.forall_mem_cons.mpr ⟨?_, ih⟩
    simp [Record.text]

theorem Splits.scanned (splits : Splits code delimiter records) :
    ∀ record ∈ records, (scan code delimiter .start record.content).isSome := by
  induction splits with
  | none => exact fun _ none => absurd none List.not_mem_nil
  | last content nonempty mode scanned => simp [scanned]
  | cons content ending records mode scanned ends splits ih => simpa [scanned] using ih

end Laws

section Encodings

variable {Letter Unit : Type*} {code : Letter → ℕ} {unitCode : Unit → ℕ}
  {encode : Letter → List Unit} {delimiter : ℕ} {mode : Mode}

/-- A letter below 128 is a unit of the same code, and another only has units from 128 on. -/
structure Encodes (code : Letter → ℕ) (unitCode : Unit → ℕ) (encode : Letter → List Unit) :
    Prop where
  narrow : ∀ letter, code letter < 128 →
    ∃ unit, encode letter = [unit] ∧ unitCode unit = code letter
  wide : ∀ letter, 128 ≤ code letter →
    encode letter ≠ [] ∧ ∀ unit ∈ encode letter, 128 ≤ unitCode unit

def Mode.beyond : Mode → Mode
  | .quoted => .quoted
  | _ => .bare

theorem mark_wide (ascii : delimiter < 128) {code : ℕ} (wide : 128 ≤ code) :
    mark delimiter mode code = (.keep, mode.beyond) := by
  have quote : code ≠ 34 := by omega
  have delimits : code ≠ delimiter := by omega
  have breaks : ¬(code = 13 ∨ code = 10) := by omega
  unfold mark
  cases mode <;> simp [quote, delimits, breaks, Mode.beyond]

theorem scan_wide (ascii : delimiter < 128) {units : List Unit}
    (wide : ∀ unit ∈ units, 128 ≤ unitCode unit) (more : List Unit) :
    scan unitCode delimiter mode.beyond (units ++ more) =
      scan unitCode delimiter mode.beyond more := by
  induction units with
  | nil => rfl
  | cons unit units ih =>
    obtain ⟨first, later⟩ := List.forall_mem_cons.mp wide
    rw [List.cons_append, scan, mark_wide ascii first]
    have same : mode.beyond.beyond = mode.beyond := by cases mode <;> rfl
    simp only [same]
    exact ih later

theorem fields_wide (ascii : delimiter < 128) {units : List Unit}
    (wide : ∀ unit ∈ units, 128 ≤ unitCode unit) (held more : List Unit) :
    fields unitCode delimiter mode.beyond held (units ++ more) =
      fields unitCode delimiter mode.beyond (held ++ units) more := by
  induction units generalizing held with
  | nil => rw [List.nil_append, List.append_nil]
  | cons unit units ih =>
    obtain ⟨first, later⟩ := List.forall_mem_cons.mp wide
    rw [List.cons_append, fields, mark_wide ascii first]
    have same : mode.beyond.beyond = mode.beyond := by cases mode <;> rfl
    simp only [same]
    rw [ih later, List.append_assoc, List.singleton_append]

variable (encodes : Encodes code unitCode encode) (ascii : delimiter < 128)
include encodes ascii

theorem scan_encoded (letters : List Letter) :
    scan unitCode delimiter mode (letters.flatMap encode) = scan code delimiter mode letters := by
  induction letters generalizing mode with
  | nil => rfl
  | cons letter letters ih =>
    rw [List.flatMap_cons, scan]
    by_cases narrow : code letter < 128
    · obtain ⟨unit, isUnit, same⟩ := encodes.narrow letter narrow
      rw [isUnit, List.singleton_append, scan, same]
      split
      · rfl
      · exact ih
    · obtain ⟨nonempty, wide⟩ := encodes.wide letter (Nat.le_of_not_lt narrow)
      cases isUnits : encode letter with
      | nil => exact absurd isUnits nonempty
      | cons unit units =>
        rw [isUnits] at wide
        obtain ⟨first, later⟩ := List.forall_mem_cons.mp wide
        rw [List.cons_append, scan, mark_wide ascii first,
          mark_wide ascii (Nat.le_of_not_lt narrow)]
        exact (scan_wide ascii later _).trans ih

theorem fields_encoded {letters : List Letter} (held : List Letter)
    (scanned : (scan code delimiter mode letters).isSome) :
    fields unitCode delimiter mode (held.flatMap encode) (letters.flatMap encode) =
      (fields code delimiter mode held letters).map (·.flatMap encode) := by
  induction letters generalizing mode held with
  | nil => rfl
  | cons letter letters ih =>
    rw [List.flatMap_cons, fields]
    rw [scan] at scanned
    by_cases narrow : code letter < 128
    · obtain ⟨unit, isUnit, same⟩ := encodes.narrow letter narrow
      rw [isUnit, List.singleton_append, fields, same]
      split at scanned
      · cases scanned
      · next does next other marked =>
        cases does with
        | record => exact absurd rfl other
        | keep =>
          rw [marked]
          have kept := ih (held ++ [letter]) scanned
          rw [List.flatMap_append, List.flatMap_singleton, isUnit] at kept
          exact kept
        | skip =>
          rw [marked]
          exact ih held scanned
        | field =>
          rw [marked]
          exact congrArg (_ :: ·) (ih [] scanned)
    · obtain ⟨nonempty, wide⟩ := encodes.wide letter (Nat.le_of_not_lt narrow)
      rw [mark_wide ascii (Nat.le_of_not_lt narrow)] at scanned ⊢
      cases isUnits : encode letter with
      | nil => exact absurd isUnits nonempty
      | cons unit units =>
        rw [isUnits] at wide
        obtain ⟨first, later⟩ := List.forall_mem_cons.mp wide
        rw [List.cons_append, fields, mark_wide ascii first]
        have kept := ih (held ++ [letter]) scanned
        rw [List.flatMap_append, List.flatMap_singleton, isUnits] at kept
        refine (fields_wide ascii later _ _).trans ?_
        rw [List.append_assoc, List.singleton_append]
        exact kept

omit encodes ascii in
theorem joined_encoded (records : List (Record Letter)) :
    joined (records.map (·.encoded encode)) = (joined records).flatMap encode := by
  induction records with
  | nil => rfl
  | cons record records ih =>
    have shape : ∀ record (records : List (Record Letter)),
        joined (record :: records) = record.content ++ (record.ending ++ joined records) :=
      fun record records => List.append_assoc _ _ _
    have shape' : ∀ record (records : List (Record Unit)),
        joined (record :: records) = record.content ++ (record.ending ++ joined records) :=
      fun record records => List.append_assoc _ _ _
    rw [List.map_cons, shape, shape', ih, List.flatMap_append, List.flatMap_append]
    rfl

omit ascii in
theorem head_encoded {following : List Letter} (other : ∀ next ∈ following.head?, code next ≠ 10) :
    ∀ unit ∈ (following.flatMap encode).head?, unitCode unit ≠ 10 := by
  cases following with
  | nil => exact fun _ member => nomatch member
  | cons letter following =>
    have apart := other letter rfl
    intro unit isFirst
    rw [List.flatMap_cons] at isFirst
    by_cases narrow : code letter < 128
    · obtain ⟨single, isUnit, same⟩ := encodes.narrow letter narrow
      rw [isUnit] at isFirst
      cases isFirst
      rw [same]
      exact apart
    · obtain ⟨nonempty, wide⟩ := encodes.wide letter (Nat.le_of_not_lt narrow)
      cases isUnits : encode letter with
      | nil => exact absurd isUnits nonempty
      | cons first units =>
        rw [isUnits] at isFirst wide
        cases isFirst
        have far := wide unit List.mem_cons_self
        omega

omit ascii in
theorem Ends.encoded {ending following : List Letter}
    (ends : Ends code delimiter mode ending following) :
    Ends unitCode delimiter mode (ending.flatMap encode) (following.flatMap encode) := by
  obtain ⟨first, rest, rfl, record, behind⟩ := ends
  have breaks := (mark_record record).1
  obtain ⟨unit, isUnit, same⟩ := encodes.narrow first (by omega)
  refine ⟨unit, rest.flatMap encode, ?_, same ▸ record, ?_⟩
  · rw [List.flatMap_cons, isUnit, List.singleton_append]
  · rw [same]
    split at behind
    · next return' =>
      rw [if_pos return']
      rcases behind with ⟨feed, rfl, isFeed⟩ | ⟨rfl, other⟩
      · obtain ⟨feedUnit, isFeedUnit, sameFeed⟩ := encodes.narrow feed (by omega)
        refine .inl ⟨feedUnit, ?_, sameFeed.trans isFeed⟩
        rw [List.flatMap_singleton, isFeedUnit]
      · exact .inr ⟨rfl, head_encoded encodes other⟩
    · next other =>
      rw [if_neg other, behind]
      rfl

theorem Splits.encoded {records : List (Record Letter)} (splits : Splits code delimiter records) :
    Splits unitCode delimiter (records.map (·.encoded encode)) := by
  induction splits with
  | none => exact .none
  | last content nonempty mode scanned =>
    refine .last _ ?_ mode ((scan_encoded encodes ascii content).trans scanned)
    cases content with
    | nil => exact absurd rfl nonempty
    | cons letter content =>
      intro nothing
      rw [List.flatMap_cons] at nothing
      have gone := (List.append_eq_nil_iff.mp nothing).1
      by_cases narrow : code letter < 128
      · obtain ⟨unit, isUnit, -⟩ := encodes.narrow letter narrow
        rw [isUnit] at gone
        cases gone
      · exact (encodes.wide letter (Nat.le_of_not_lt narrow)).1 gone
  | cons content ending records mode scanned ends splits ih =>
    refine .cons _ _ _ mode ((scan_encoded encodes ascii content).trans scanned) ?_ ih
    rw [joined_encoded]
    exact ends.encoded encodes

theorem Record.row_encoded {record : Record Letter}
    (scanned : (scan code delimiter .start record.content).isSome) :
    (record.encoded encode).row unitCode delimiter =
      (record.row code delimiter).map (·.flatMap encode) :=
  fields_encoded encodes ascii [] scanned

end Encodings

end OxeeUI.Library.Delimited
