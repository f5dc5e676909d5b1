import OxeeUI.Dnr.Ngrams

/-!
# The dictionary of n-grams

One dictionary numbers the grams of every ruleset in the order they are first
kept.  It is a table with linear probing that doubles when half full, so a
search always ends, a number once given is found again, and it is found again
after every later insertion.  The stamps let a request's text report each number
once.
-/

namespace OxeeUI.Dnr

open OxeeUI.Library ProbeTable

/-- `hash`, in the 32-bit arithmetic of the source. -/
def hash32 (high low : UInt32) : UInt32 :=
  ((low ^^^ ((high + (1 : UInt32)) * (0x9e3779b1 : UInt32))) * (0x85ebca6b : UInt32)) ^^^
    (low >>> (15 : UInt32))

def hashGram (gram : Gram) : ℕ := (hash32 (UInt32.ofNat gram.high) (UInt32.ofNat gram.low)).toNat

/-- The slots stand for the three arrays of the source; a slot without an entry has a zero in
the first. -/
structure NgramDictionary where
  table : ProbeTable Gram ℕ
  count : ℕ
  stamps : ℕ → ℕ
  epoch : ℕ

namespace NgramDictionary

def initial : NgramDictionary := ⟨.vacant (1 <<< 12), 0, fun _ => 0, 0⟩

def grow (dictionary : NgramDictionary) : NgramDictionary :=
  { dictionary with
    table := dictionary.table.rehash hashGram (dictionary.table.capacity * 2) }

/-- The number given to a new gram, and the dictionary after. -/
def insert (dictionary : NgramDictionary) (slot : ℕ) (gram : Gram) : ℕ × NgramDictionary :=
  let stored : NgramDictionary :=
    { dictionary with
      table := dictionary.table.write slot (gram, dictionary.count)
      count := dictionary.count + 1 }
  (dictionary.count, if stored.table.capacity < stored.count * 2 then stored.grow else stored)

/-- The number of a gram, or nothing where it has none and none is to be created. -/
def lookup (dictionary : NgramDictionary) (gram : Gram) (create : Bool) :
    Option ℕ × NgramDictionary :=
  match dictionary.table.probe hashGram gram with
  | .found id => (some id, dictionary)
  | .vacant slot =>
    if create then
      let (id, after) := dictionary.insert slot gram
      (some id, after)
    else (none, dictionary)
  -- The source searches without a bound; a vacant slot always remains.
  | .exhausted => (none, dictionary)

/-- `urlNgramIds` from some point of the text on. -/
def urlNgramIdsFrom (dictionary : NgramDictionary) (length low : ℕ) :
    CodeUnits → List ℕ × NgramDictionary
  | [] => ([], dictionary)
  | code :: rest =>
    if 0x7f < code then dictionary.urlNgramIdsFrom 0 0 rest
    else
      let gram : Gram := ⟨highBits low, shiftLow low code⟩
      if length + 1 < ngramSize then dictionary.urlNgramIdsFrom (length + 1) gram.low rest
      else
        match (dictionary.lookup gram false).1 with
        | none => dictionary.urlNgramIdsFrom (length + 1) gram.low rest
        | some id =>
          if dictionary.stamps id ≠ dictionary.epoch then
            let stamped := { dictionary with
              stamps := Function.update dictionary.stamps id dictionary.epoch }
            let (found, after) := stamped.urlNgramIdsFrom (length + 1) gram.low rest
            (id :: found, after)
          else dictionary.urlNgramIdsFrom (length + 1) gram.low rest

/-- The next epoch of the stamps, which are cleared when it wraps around. -/
def nextEpoch (dictionary : NgramDictionary) : NgramDictionary :=
  if (dictionary.epoch + 1) % 2 ^ 32 = 0 then
    { dictionary with stamps := fun _ => 0, epoch := 1 }
  else { dictionary with epoch := (dictionary.epoch + 1) % 2 ^ 32 }

/-- The distinct known numbers of a lower-cased text, in first-seen order. -/
def urlNgramIds (dictionary : NgramDictionary) (lowerSpec : CodeUnits) :
    List ℕ × NgramDictionary :=
  dictionary.nextEpoch.urlNgramIdsFrom 0 0 lowerSpec

/-- What holds of the dictionary between operations. -/
structure Sound (dictionary : NgramDictionary) : Prop where
  probed : dictionary.table.WellProbed hashGram
  card : dictionary.table.occupied.card = dictionary.count
  half : dictionary.count * 2 ≤ dictionary.table.capacity
  positive : 0 < dictionary.table.capacity
  stamped : ∀ id, dictionary.stamps id ≤ dictionary.epoch
  bounded : dictionary.epoch < 2 ^ 32

def Keeps (dictionary later : NgramDictionary) : Prop :=
  ∀ gram id, dictionary.table.Stored gram id → later.table.Stored gram id

variable {dictionary later : NgramDictionary} {gram : Gram} {id : ℕ}

theorem Keeps.refl (dictionary : NgramDictionary) : Keeps dictionary dictionary :=
  fun _ _ stored => stored

theorem initial_sound : initial.Sound where
  probed := vacant_wellProbed _
  card := by simp [initial, occupied, ProbeTable.vacant]
  half := by simp [initial]
  positive := by simp [initial, ProbeTable.vacant]
  stamped := fun _ => le_refl 0
  bounded := by simp [initial]

namespace Sound

theorem room (sound : dictionary.Sound) :
    dictionary.table.occupied.card < dictionary.table.capacity := by
  have half := sound.half
  have positive := sound.positive
  rw [sound.card]
  omega

theorem lookup_of_stored (sound : dictionary.Sound) (stored : dictionary.table.Stored gram id)
    (create : Bool) : dictionary.lookup gram create = (some id, dictionary) := by
  rw [lookup, probe_of_stored sound.probed stored]

theorem probe_of_absent (sound : dictionary.Sound)
    (absent : ∀ id, ¬ dictionary.table.Stored gram id) :
    ∃ slot < dictionary.table.capacity,
      dictionary.table.probe hashGram gram = .vacant slot ∧
      dictionary.table.slots slot = none ∧
      dictionary.table.Reaches hashGram gram slot := by
  obtain ⟨slot, inside, search, free, reached⟩ :=
    vacantFrom_of_room hashGram (exists_vacant sound.room) gram
  refine ⟨slot, inside, ?_, free, reached⟩
  rw [probe, probeFrom_of_absent sound.positive absent _ _ (Nat.mod_lt _ sound.positive), search]
  rfl

end Sound

theorem grow_sound (probed : dictionary.table.WellProbed hashGram)
    (card : dictionary.table.occupied.card = dictionary.count)
    (fits : dictionary.count ≤ dictionary.table.capacity)
    (positive : 0 < dictionary.table.capacity)
    (stamped : ∀ id, dictionary.stamps id ≤ dictionary.epoch) (bounded : dictionary.epoch < 2 ^ 32) :
    dictionary.grow.Sound ∧
      ∀ gram id, dictionary.grow.table.Stored gram id ↔ dictionary.table.Stored gram id := by
  have spec := rehash_spec probed
    (by omega : dictionary.table.occupied.card < dictionary.table.capacity * 2)
  refine ⟨⟨spec.2.1, spec.2.2.1.trans card, ?_, ?_, stamped, bounded⟩, spec.2.2.2⟩
  · show dictionary.count * 2 ≤ (dictionary.table.rehash hashGram _).capacity
    rw [spec.1]
    omega
  · show 0 < (dictionary.table.rehash hashGram _).capacity
    rw [spec.1]
    omega

theorem insert_spec (sound : dictionary.Sound)
    (absent : ∀ id, ¬ dictionary.table.Stored gram id) {slot : ℕ}
    (inside : slot < dictionary.table.capacity) (free : dictionary.table.slots slot = none)
    (reached : dictionary.table.Reaches hashGram gram slot) :
    (dictionary.insert slot gram).2.Sound ∧ Keeps dictionary (dictionary.insert slot gram).2 ∧
      (dictionary.insert slot gram).2.table.Stored gram (dictionary.insert slot gram).1 := by
  have probed : (dictionary.table.write slot (gram, dictionary.count)).WellProbed hashGram :=
    sound.probed.write absent reached
  have card : (dictionary.table.write slot (gram, dictionary.count)).occupied.card =
      dictionary.count + 1 := by rw [card_occupied_write inside free, sound.card]
  have stored (key : Gram) (value : ℕ) :
      (dictionary.table.write slot (gram, dictionary.count)).Stored key value ↔
        dictionary.table.Stored key value ∨ (gram, dictionary.count) = (key, value) :=
    stored_write inside free _
  unfold insert
  dsimp only
  split
  case isTrue crowded =>
    have fits : dictionary.count + 1 ≤ dictionary.table.capacity := by
      have room := sound.room
      rw [sound.card] at room
      omega
    have grown := @grow_sound { dictionary with
      table := dictionary.table.write slot (gram, dictionary.count)
      count := dictionary.count + 1 } probed card fits sound.positive sound.stamped
      sound.bounded
    refine ⟨grown.1, fun other id kept => ?_, ?_⟩
    · exact (grown.2 other id).mpr ((stored other id).mpr (.inl kept))
    · exact (grown.2 gram _).mpr ((stored gram _).mpr (.inr rfl))
  case isFalse within =>
    refine ⟨⟨probed, card, ?_, sound.positive, sound.stamped, sound.bounded⟩,
      fun other id kept => ?_, ?_⟩
    · exact Nat.not_lt.mp within
    · exact (stored other id).mpr (.inl kept)
    · exact (stored gram _).mpr (.inr rfl)

theorem lookup_create (sound : dictionary.Sound) (gram : Gram) :
    ∃ id, (dictionary.lookup gram true).1 = some id ∧ (dictionary.lookup gram true).2.Sound ∧
      Keeps dictionary (dictionary.lookup gram true).2 ∧
      (dictionary.lookup gram true).2.table.Stored gram id := by
  by_cases known : ∃ id, dictionary.table.Stored gram id
  · obtain ⟨id, stored⟩ := known
    rw [sound.lookup_of_stored stored]
    exact ⟨id, rfl, sound, .refl _, stored⟩
  · have absent : ∀ id, ¬ dictionary.table.Stored gram id := fun id stored => known ⟨id, stored⟩
    obtain ⟨slot, inside, search, free, reached⟩ := sound.probe_of_absent absent
    have spec := insert_spec sound absent inside free reached
    have found : dictionary.lookup gram true =
        (some (dictionary.insert slot gram).1, (dictionary.insert slot gram).2) := by
      simp [lookup, search]
    rw [found]
    exact ⟨_, rfl, spec.1, spec.2.1, spec.2.2⟩

section Requests

/-- What reading a text reports: each number once, none that is stamped already, and every number
that is known and not stamped. -/
structure Reported (dictionary : NgramDictionary) (grams : List Gram)
    (result : List ℕ × NgramDictionary) : Prop where
  sound : result.2.Sound
  table : result.2.table = dictionary.table
  nodup : result.1.Nodup
  fresh : ∀ id ∈ result.1, dictionary.stamps id ≠ dictionary.epoch
  complete : ∀ gram ∈ grams, ∀ id, dictionary.table.Stored gram id →
    id ∈ result.1 ∨ dictionary.stamps id = dictionary.epoch

theorem stamp_sound (sound : dictionary.Sound) (id : ℕ) :
    { dictionary with
      stamps := Function.update dictionary.stamps id dictionary.epoch : NgramDictionary }.Sound where
  probed := sound.probed
  card := sound.card
  half := sound.half
  positive := sound.positive
  bounded := sound.bounded
  stamped := by
    intro other
    by_cases same : other = id
    · simp [same]
    · simpa [same] using sound.stamped other

theorem lookup_none (sound : dictionary.Sound) (missing : (dictionary.lookup gram false).1 = none)
    (id : ℕ) : ¬ dictionary.table.Stored gram id := by
  intro stored
  rw [sound.lookup_of_stored stored] at missing
  cases missing

theorem urlNgramIdsFrom_reported (sound : dictionary.Sound) (length low : ℕ) (text : CodeUnits) :
    Reported dictionary (urlGramsFrom length low text)
      (dictionary.urlNgramIdsFrom length low text) := by
  induction text generalizing dictionary length low with
  | nil =>
    refine ⟨sound, rfl, List.nodup_nil, ?_, ?_⟩
    · intro id member
      cases member
    · intro gram member
      cases member
  | cons code rest ih =>
    unfold urlNgramIdsFrom urlGramsFrom
    by_cases wide : 0x7f < code
    · simp only [wide, if_true]
      exact ih sound 0 0
    · simp only [wide, if_false]
      by_cases short : length + 1 < ngramSize
      · simp only [short, if_true]
        exact ih sound _ _
      · simp only [short, if_false]
        cases looked : (dictionary.lookup ⟨highBits low, shiftLow low code⟩ false).1 with
        | none =>
          have tail := ih sound (length + 1) (shiftLow low code)
          refine ⟨tail.sound, tail.table, tail.nodup, tail.fresh, ?_⟩
          intro gram member id stored
          rcases List.mem_cons.mp member with rfl | later
          · exact absurd stored (lookup_none sound looked id)
          · exact tail.complete gram later id stored
        | some id =>
          have read : ∀ other,
              dictionary.table.Stored ⟨highBits low, shiftLow low code⟩ other →
              other = id := by
            intro other stored
            rw [sound.lookup_of_stored stored] at looked
            exact Option.some.inj looked
          by_cases stale : dictionary.stamps id = dictionary.epoch
          · simp only [stale, ne_eq, not_true_eq_false, if_false]
            have tail := ih sound (length + 1) (shiftLow low code)
            refine ⟨tail.sound, tail.table, tail.nodup, tail.fresh, ?_⟩
            intro gram member other stored
            rcases List.mem_cons.mp member with rfl | later
            · rw [read other stored]
              exact .inr stale
            · exact tail.complete gram later other stored
          · simp only [stale, ne_eq, not_false_eq_true, if_true]
            have tail := ih (stamp_sound sound id) (length + 1) (shiftLow low code)
            have unstamped : ∀ other ∈ ({ dictionary with
                stamps := Function.update dictionary.stamps id dictionary.epoch :
                NgramDictionary }.urlNgramIdsFrom (length + 1) (shiftLow low code) rest).1,
                other ≠ id ∧ dictionary.stamps other ≠ dictionary.epoch := by
              intro other member
              have fresh := tail.fresh other member
              by_cases same : other = id
              · simp [same] at fresh
              · exact ⟨same, by simpa [same] using fresh⟩
            refine ⟨tail.sound, tail.table, ?_, ?_, ?_⟩
            · exact List.nodup_cons.mpr
                ⟨fun member => (unstamped id member).1 rfl, tail.nodup⟩
            · intro other member
              rcases List.mem_cons.mp member with rfl | later
              · exact stale
              · exact (unstamped other later).2
            · intro gram member other stored
              rcases List.mem_cons.mp member with rfl | later
              · rw [read other stored]
                exact .inl List.mem_cons_self
              · rcases tail.complete gram later other stored with found | marked
                · exact .inl (List.mem_cons_of_mem _ found)
                · by_cases same : other = id
                  · rw [same]
                    exact .inl List.mem_cons_self
                  · exact .inr (by simpa [same] using marked)

theorem nextEpoch_spec (sound : dictionary.Sound) :
    dictionary.nextEpoch.Sound ∧ dictionary.nextEpoch.table = dictionary.table ∧
      ∀ id, dictionary.nextEpoch.stamps id ≠ dictionary.nextEpoch.epoch := by
  have bounded := sound.bounded
  unfold nextEpoch
  split
  case isTrue =>
    refine ⟨⟨sound.probed, sound.card, sound.half, sound.positive, fun _ => Nat.zero_le _, ?_⟩,
      rfl, fun _ => Nat.zero_ne_one⟩
    exact Nat.one_lt_two_pow (by decide)
  case isFalse kept =>
    have next : (dictionary.epoch + 1) % 2 ^ 32 = dictionary.epoch + 1 := by omega
    refine ⟨⟨sound.probed, sound.card, sound.half, sound.positive, fun id => ?_, ?_⟩, rfl,
      fun id => ?_⟩
    · exact (sound.stamped id).trans (by dsimp only; omega)
    · exact Nat.mod_lt _ (by decide)
    · have old := sound.stamped id
      dsimp only
      omega

theorem urlNgramIds_spec (sound : dictionary.Sound) (lowerSpec : CodeUnits) :
    (dictionary.urlNgramIds lowerSpec).2.Sound ∧
      (dictionary.urlNgramIds lowerSpec).2.table = dictionary.table ∧
      (dictionary.urlNgramIds lowerSpec).1.Nodup ∧
      ∀ window, window.length = 5 → (∀ code ∈ window, code ≤ 0x7f) → window <:+: lowerSpec →
        ∀ id, dictionary.table.Stored (packWindow window) id →
          id ∈ (dictionary.urlNgramIds lowerSpec).1 := by
  obtain ⟨next, table, unstamped⟩ := nextEpoch_spec sound
  have reported := urlNgramIdsFrom_reported next 0 0 lowerSpec
  refine ⟨reported.sound, reported.table.trans table, reported.nodup, ?_⟩
  intro window five ascii within id stored
  rw [← table] at stored
  have read := mem_urlGramsFrom five ascii within 0 0
  exact (reported.complete _ read id stored).resolve_right (unstamped id)

end Requests

end NgramDictionary

end OxeeUI.Dnr
