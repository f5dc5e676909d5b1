import OxeeUI.Journal.ItemKeyDigest

/-!
# Item keys are parsed back

A key parses to the identity with its components bounded, and that identity has
the same key.  So identities that are kept as they are have keys of their own.
-/

namespace OxeeUI.Journal.KeyText

open OxeeUI.Library

section Parts

variable {raw : Text}

def isTagged (raw : Text) : Bool :=
  decide (raw = boundJournalKeyComponent raw) && isBoundedComponentRepresentation raw

def encodedPart (raw : Text) : Text :=
  (if isTagged raw then verbatimBoundedComponentTag else []) ++
    encodedCharacters (characters (boundJournalKeyComponent raw))

def decodedPart (raw : Text) : DecodedPart := ⟨boundJournalKeyComponent raw, isTagged raw⟩

theorem encodePart_eq (short : raw.length < 2 ^ 53) : encodePart raw = some (encodedPart raw) := by
  have whole := (bound_verbatim short).2
  unfold encodePart
  dsimp only
  rw [encodeURIComponent_of_whole whole, Option.map_some]
  unfold encodedPart isTagged
  by_cases tagged : raw = boundJournalKeyComponent raw ∧ isBoundedComponentRepresentation raw = true
  · rw [if_pos tagged, if_pos (by rw [Bool.and_eq_true, decide_eq_true_eq]; exact tagged)]
  · rw [if_neg tagged, if_neg (by rw [Bool.and_eq_true, decide_eq_true_eq]; exact tagged)]
    rfl

theorem decodePart_encodedPart (short : raw.length < 2 ^ 53) :
    decodePart (encodedPart raw) = some (decodedPart raw) := by
  have whole := (bound_verbatim short).2
  have decoded := decode_encode whole
  unfold encodedPart
  cases tagged : isTagged raw with
  | true =>
    obtain ⟨same, representation⟩ := Bool.and_eq_true_iff.mp tagged
    rw [decide_eq_true_eq] at same
    have isPrefix : verbatimBoundedComponentTag.isPrefixOf (verbatimBoundedComponentTag ++
        encodedCharacters (characters (boundJournalKeyComponent raw))) = true := by
      rw [List.isPrefixOf_iff_prefix]
      exact List.prefix_append _ _
    have boundedForm : isBoundedComponentRepresentation (boundJournalKeyComponent raw) = true := by
      rw [← same]
      exact representation
    rw [if_pos rfl]
    unfold decodePart decodedPart
    dsimp only
    rw [isPrefix, if_pos rfl, List.drop_left, decoded, Option.bind_some,
      if_pos (Or.inr boundedForm), tagged]
  | false =>
    have isPrefix : verbatimBoundedComponentTag.isPrefixOf
        (encodedCharacters (characters (boundJournalKeyComponent raw))) = false := by
      apply Bool.eq_false_iff.mpr
      intro starts
      obtain ⟨rest, same⟩ := List.isPrefixOf_iff_prefix.mp starts
      exact encoded_ne_tagged _ rest same.symm
    rw [if_neg Bool.false_ne_true, List.nil_append]
    unfold decodePart decodedPart
    dsimp only
    rw [isPrefix, if_neg Bool.false_ne_true, decoded, Option.bind_some,
      if_pos (Or.inl Bool.false_ne_true), tagged]

theorem colon_not_mem_encodedPart (raw : Text) : colon ∉ encodedPart raw := by
  have tag : colon ∉ verbatimBoundedComponentTag := colon_not_mem_percentUnits (by decide)
  unfold encodedPart
  intro member
  rcases List.mem_append.mp member with inTag | inEncoded
  · split at inTag
    · exact tag inTag
    · cases inTag
  · exact colon_not_mem_encoded _ inEncoded

theorem mapM_encodePart {raws : List Text} (short : ∀ raw ∈ raws, raw.length < 2 ^ 53) :
    raws.mapM encodePart = some (raws.map encodedPart) := by
  induction raws with
  | nil => rfl
  | cons raw raws ih =>
    rw [List.mapM_cons, encodePart_eq (short raw List.mem_cons_self),
      ih fun other member => short other (List.mem_cons_of_mem _ member)]
    rfl

theorem mapM_decodePart {raws : List Text} (short : ∀ raw ∈ raws, raw.length < 2 ^ 53) :
    (raws.map encodedPart).mapM decodePart = some (raws.map decodedPart) := by
  induction raws with
  | nil => rfl
  | cons raw raws ih =>
    rw [List.map_cons, List.mapM_cons, decodePart_encodedPart (short raw List.mem_cons_self),
      ih fun other member => short other (List.mem_cons_of_mem _ member)]
    rfl

end Parts

section Keys

namespace AgentJournalItemIdentity

def Verbatim (identity : AgentJournalItemIdentity) : Prop :=
  ∀ raw ∈ identity.parts.2, IsVerbatim raw

def OrdinalNotNegative : AgentJournalItemIdentity → Prop
  | codex _ _ ordinal _ => 0 ≤ ordinal
  | _ => True

end AgentJournalItemIdentity

def keyOf (identity : AgentJournalItemIdentity) : Option Text := agentJournalItemKey ⟨identity, none⟩

def bounded (component : Component) : Component where
  text := boundJournalKeyComponent component.text
  short := Nat.lt_of_le_of_lt (bound_verbatim component.short).1 (by decide)

def boundedIdentity : AgentJournalItemIdentity → AgentJournalItemIdentity
  | .codex threadId turnId ordinal safe => .codex (bounded threadId) (bounded turnId) ordinal safe
  | .claude sessionId uuid => .claude (bounded sessionId) (bounded uuid)
  | .orca clientMessageId => .orca (bounded clientMessageId)
  | .legacy agent sessionId recordId =>
    .legacy (bounded agent) (bounded sessionId) (bounded recordId)

theorem ordinalText_verbatim {ordinal : ℤ} (safe : ordinal.natAbs < safeIntegerBound) :
    IsVerbatim (ordinalText ordinal) := by
  have length := decimalText_length safe
  have whole : hasLoneSurrogate (decimalText ordinal.natAbs) = false := whole_of_units fun unit member =>
    not_surrogate_of_lt (Nat.lt_of_le_of_lt (mem_decimalText member).2 (by decide))
  unfold ordinalText IsVerbatim maxJournalKeyComponentChars
  split
  · refine ⟨?_, (hasLoneSurrogate_cons (by decide) _).trans whole⟩
    rw [List.length_cons]
    omega
  · exact ⟨by omega, whole⟩

theorem short_of_verbatim {raw : Text} (verbatim : IsVerbatim raw) : raw.length < 2 ^ 53 :=
  Nat.lt_of_le_of_lt verbatim.1 (by decide)

theorem parts_short (identity : AgentJournalItemIdentity) :
    ∀ raw ∈ identity.parts.2, raw.length < 2 ^ 53 := by
  intro raw member
  cases identity with
  | codex threadId turnId ordinal safe =>
    simp only [AgentJournalItemIdentity.parts, List.mem_cons, List.not_mem_nil, or_false] at member
    rcases member with rfl | rfl | rfl
    · exact threadId.short
    · exact turnId.short
    · exact short_of_verbatim (ordinalText_verbatim safe)
  | claude sessionId uuid =>
    simp only [AgentJournalItemIdentity.parts, List.mem_cons, List.not_mem_nil, or_false] at member
    rcases member with rfl | rfl
    · exact sessionId.short
    · exact uuid.short
  | orca clientMessageId =>
    simp only [AgentJournalItemIdentity.parts, List.mem_cons, List.not_mem_nil, or_false] at member
    rw [member]
    exact clientMessageId.short
  | legacy agent sessionId recordId =>
    simp only [AgentJournalItemIdentity.parts, List.mem_cons, List.not_mem_nil, or_false] at member
    rcases member with rfl | rfl | rfl
    · exact agent.short
    · exact sessionId.short
    · exact recordId.short

def providers : List Text := [unitsOf "codex", unitsOf "claude", unitsOf "orca", unitsOf "legacy"]

theorem providers_facts : ∀ provider ∈ providers,
    decodePart provider = some ⟨provider, false⟩ ∧ colon ∉ provider ∧
      isBoundedComponentRepresentation provider = false := by
  decide +kernel

theorem provider_facts (identity : AgentJournalItemIdentity) :
    decodePart identity.parts.1 = some ⟨identity.parts.1, false⟩ ∧ colon ∉ identity.parts.1 ∧
      isBoundedComponentRepresentation identity.parts.1 = false := by
  apply providers_facts
  unfold providers
  cases identity with
  | codex => exact List.mem_cons_self
  | claude => exact List.mem_cons_of_mem _ List.mem_cons_self
  | orca => exact List.mem_cons_of_mem _ (List.mem_cons_of_mem _ List.mem_cons_self)
  | legacy =>
    apply List.mem_cons_of_mem
    exact List.mem_cons_of_mem _ (List.mem_cons_of_mem _ List.mem_cons_self)

theorem keyOf_eq (identity : AgentJournalItemIdentity) :
    keyOf identity =
      some (joinUnit colon (identity.parts.1 :: identity.parts.2.map encodedPart)) := by
  unfold keyOf agentJournalItemKey
  dsimp only
  rw [mapM_encodePart (parts_short identity)]
  rfl

theorem decoded_keyOf {identity : AgentJournalItemIdentity} {key : Text}
    (isKey : keyOf identity = some key) : (splitOnUnit keyDelimiter key).mapM decodePart =
      some (⟨identity.parts.1, false⟩ :: identity.parts.2.map decodedPart) := by
  obtain ⟨provider, absent, _⟩ := provider_facts identity
  rw [keyOf_eq] at isKey
  cases isKey
  have split : splitOnUnit keyDelimiter
      (joinUnit colon (identity.parts.1 :: identity.parts.2.map encodedPart)) =
        identity.parts.1 :: identity.parts.2.map encodedPart := by
    apply splitOnUnit_joinUnit (List.cons_ne_nil _ _)
    intro part member
    rcases List.mem_cons.mp member with rfl | inside
    · exact absent
    · obtain ⟨raw, _, rfl⟩ := List.mem_map.mp inside
      exact colon_not_mem_encodedPart raw
  rw [split, List.mapM_cons, provider, mapM_decodePart (parts_short identity)]
  rfl

theorem component?_bounded (component : Component) :
    component? (boundJournalKeyComponent component.text) = some (bounded component) :=
  dif_pos (bounded component).short

theorem map_decodedPart_value (raws : List Text) :
    (raws.map decodedPart).map DecodedPart.value = raws.map boundJournalKeyComponent := by
  rw [List.map_map]
  rfl

theorem safeNumber?_ordinalText {ordinal : ℤ} (safe : ordinal.natAbs < safeIntegerBound)
    (notNegative : 0 ≤ ordinal) :
    safeNumber? (boundJournalKeyComponent (ordinalText ordinal)) = some ordinal.natAbs := by
  rw [bound_of_verbatim (ordinalText_verbatim safe)]
  unfold ordinalText
  rw [if_neg (Int.not_lt.mpr notNegative)]
  exact safeNumber?_decimalText safe

theorem identityOf_bounded {identity : AgentJournalItemIdentity}
    (notNegative : identity.OrdinalNotNegative) :
    identityOf (identity.parts.1 :: identity.parts.2.map boundJournalKeyComponent) =
      some (boundedIdentity identity) := by
  cases identity with
  | codex threadId turnId ordinal safe =>
    have read := safeNumber?_ordinalText safe notNegative
    obtain ⟨count, rfl⟩ := Int.eq_ofNat_of_zero_le notNegative
    simp only [AgentJournalItemIdentity.parts, List.map_cons, List.map_nil, identityOf, if_true,
      component?_bounded, read]
    rw [Option.bind_some, dif_pos safe]
    rfl
  | claude sessionId uuid =>
    simp only [AgentJournalItemIdentity.parts, List.map_cons, List.map_nil, identityOf, if_true,
      component?_bounded]
    rfl
  | orca clientMessageId =>
    simp only [AgentJournalItemIdentity.parts, List.map_cons, List.map_nil, identityOf, if_true,
      component?_bounded]
    rfl
  | legacy agent sessionId recordId =>
    have notCodex : unitsOf "legacy" ≠ unitsOf "codex" := by
      decide
    simp only [AgentJournalItemIdentity.parts, List.map_cons, List.map_nil, identityOf, if_true,
      notCodex, if_false, component?_bounded]
    rfl

def preserves (identity : AgentJournalItemIdentity) : Bool :=
  identity.parts.2.any fun raw => isBoundedComponentRepresentation (boundJournalKeyComponent raw)

theorem isTagged_or (raw : Text) :
    (isTagged raw || isBoundedComponentRepresentation (boundJournalKeyComponent raw)) =
      isBoundedComponentRepresentation (boundJournalKeyComponent raw) := by
  cases tagged : isTagged raw with
  | false => rfl
  | true =>
    obtain ⟨same, representation⟩ := Bool.and_eq_true_iff.mp tagged
    rw [decide_eq_true_eq] at same
    rw [← same, representation]
    rfl

theorem parse_keyOf {identity : AgentJournalItemIdentity} (notNegative : identity.OrdinalNotNegative)
    {key : Text} (isKey : keyOf identity = some key) : parseAgentJournalItemKey key =
      some ⟨boundedIdentity identity, if preserves identity then some key else none⟩ := by
  have preserved : ((⟨identity.parts.1, false⟩ :: identity.parts.2.map decodedPart).any
      fun part : DecodedPart => part.tagged || isBoundedComponentRepresentation part.value) =
        preserves identity := by
    rw [List.any_cons, List.any_map]
    dsimp only
    rw [(provider_facts identity).2.2, Bool.false_or, Bool.false_or]
    unfold preserves
    congr 1
    funext raw
    exact isTagged_or raw
  unfold parseAgentJournalItemKey
  rw [decoded_keyOf isKey, Option.bind_some]
  dsimp only
  rw [preserved, List.map_cons, map_decodedPart_value, identityOf_bounded notNegative]
  rfl

theorem bounded_eq {component : Component}
    (same : boundJournalKeyComponent component.text = component.text) :
    bounded component = component := by
  obtain ⟨text, short⟩ := component
  unfold bounded
  dsimp only at same ⊢
  rw [Component.mk.injEq]
  exact same

theorem boundedIdentity_eq {identity : AgentJournalItemIdentity}
    (same : ∀ raw ∈ identity.parts.2, boundJournalKeyComponent raw = raw) :
    boundedIdentity identity = identity := by
  cases identity with
  | codex threadId turnId ordinal safe =>
    have first := bounded_eq (same threadId.text List.mem_cons_self)
    have second := bounded_eq (same turnId.text (List.mem_cons_of_mem _ List.mem_cons_self))
    rw [boundedIdentity, AgentJournalItemIdentity.codex.injEq]
    exact ⟨first, second, rfl⟩
  | claude sessionId uuid =>
    have first := bounded_eq (same sessionId.text List.mem_cons_self)
    have second := bounded_eq (same uuid.text (List.mem_cons_of_mem _ List.mem_cons_self))
    rw [boundedIdentity, first, second]
  | orca clientMessageId =>
    have first := bounded_eq (same clientMessageId.text List.mem_cons_self)
    rw [boundedIdentity, first]
  | legacy agent sessionId recordId =>
    have first := bounded_eq (same agent.text List.mem_cons_self)
    have second := bounded_eq (same sessionId.text (List.mem_cons_of_mem _ List.mem_cons_self))
    have third := bounded_eq (same recordId.text
      (List.mem_cons_of_mem _ (List.mem_cons_of_mem _ List.mem_cons_self)))
    rw [boundedIdentity, first, second, third]

theorem boundedIdentity_of_verbatim {identity : AgentJournalItemIdentity}
    (verbatim : identity.Verbatim) : boundedIdentity identity = identity :=
  boundedIdentity_eq fun raw member => bound_of_verbatim (verbatim raw member)

theorem key_parse_keyOf {identity : AgentJournalItemIdentity} {key : Text}
    (isKey : keyOf identity = some key) : agentJournalItemKey
      ⟨boundedIdentity identity, if preserves identity then some key else none⟩ = some key := by
  cases preserved : preserves identity with
  | true => rfl
  | false =>
    have same : boundedIdentity identity = identity := by
      apply boundedIdentity_eq
      intro raw member
      apply bound_eq_of_not_representation
      exact Bool.eq_false_iff.mpr (List.any_eq_false.mp preserved raw member)
    rw [same]
    exact isKey

end Keys

section RoundTrip

theorem parsed_notNegative {parts : List Text} {identity : AgentJournalItemIdentity}
    (found : identityOf parts = some identity) : identity.OrdinalNotNegative := by
  unfold identityOf at found
  split at found
  · split at found
    · obtain ⟨clientMessageId, _, rfl⟩ := Option.map_eq_some_iff.mp found
      trivial
    · cases found
  · split at found
    · obtain ⟨sessionId, _, rest⟩ := Option.bind_eq_some_iff.mp found
      obtain ⟨uuid, _, rest⟩ := Option.bind_eq_some_iff.mp rest
      cases rest
      trivial
    · cases found
  · split at found
    · obtain ⟨ordinal, _, rest⟩ := Option.bind_eq_some_iff.mp found
      split at rest
      · obtain ⟨threadId, _, rest⟩ := Option.bind_eq_some_iff.mp rest
        obtain ⟨turnId, _, rest⟩ := Option.bind_eq_some_iff.mp rest
        cases rest
        exact Int.natCast_nonneg ordinal
      · cases rest
    · split at found
      · obtain ⟨agent, _, rest⟩ := Option.bind_eq_some_iff.mp found
        obtain ⟨sessionId, _, rest⟩ := Option.bind_eq_some_iff.mp rest
        obtain ⟨recordId, _, rest⟩ := Option.bind_eq_some_iff.mp rest
        cases rest
        trivial
      · cases found
  · cases found

/-- Parsing a key and taking the key again ends where it began. -/
def RoundTrips (identity : ParsedJournalItemIdentity) : Prop :=
  ∃ key parsed, agentJournalItemKey identity = some key ∧
    parseAgentJournalItemKey key = some parsed ∧ agentJournalItemKey parsed = some key

theorem roundTrips {identity : AgentJournalItemIdentity} (notNegative : identity.OrdinalNotNegative) :
    RoundTrips ⟨identity, none⟩ :=
  ⟨_, _, keyOf_eq identity, parse_keyOf notNegative (keyOf_eq identity),
    key_parse_keyOf (keyOf_eq identity)⟩

theorem roundTrips_parsed {key : Text} {parsed : ParsedJournalItemIdentity}
    (found : parseAgentJournalItemKey key = some parsed) : RoundTrips parsed := by
  have parses := found
  unfold parseAgentJournalItemKey at found
  obtain ⟨parts, _, found⟩ := Option.bind_eq_some_iff.mp found
  obtain ⟨identity, isIdentity, rfl⟩ := Option.map_eq_some_iff.mp found
  split at parses
  · next preserved =>
    rw [if_pos preserved]
    exact ⟨key, _, rfl, parses, rfl⟩
  · next plain =>
    rw [if_neg plain]
    exact roundTrips (parsed_notNegative isIdentity)

theorem verbatim_of_decodedPart {first second : Text} (short : second.length < 2 ^ 53)
    (verbatim : IsVerbatim first) (same : decodedPart first = decodedPart second) :
    IsVerbatim second := by
  unfold decodedPart at same
  rw [DecodedPart.mk.injEq, bound_of_verbatim verbatim] at same
  obtain ⟨value, tags⟩ := same
  by_contra other
  have representation := boundedComponent_isRepresentation other
  rw [← bound_of_not_verbatim other, ← value] at representation
  have tagged : isTagged first = true := by
    unfold isTagged
    rw [bound_of_verbatim verbatim, representation, decide_eq_true rfl]
    rfl
  have untagged : isTagged second = false := by
    unfold isTagged
    rw [Bool.and_eq_false_iff]
    apply Or.inl
    rw [decide_eq_false_iff_not]
    exact fun isBounded => other (verbatim_of_bound_eq short isBounded.symm)
  rw [tagged, untagged] at tags
  cases tags

theorem verbatim_of_map_eq {first second : List Text} (short : ∀ raw ∈ second, raw.length < 2 ^ 53)
    (verbatim : ∀ raw ∈ first, IsVerbatim raw)
    (same : first.map decodedPart = second.map decodedPart) : ∀ raw ∈ second, IsVerbatim raw := by
  induction second generalizing first with
  | nil => exact fun _ member => (List.not_mem_nil member).elim
  | cons raw second ih =>
    cases first with
    | nil => cases same
    | cons other first =>
      rw [List.map_cons, List.map_cons, List.cons.injEq] at same
      intro part member
      rcases List.mem_cons.mp member with rfl | inside
      · exact verbatim_of_decodedPart (short part List.mem_cons_self)
          (verbatim other List.mem_cons_self) same.1
      · exact ih (fun raw member => short raw (List.mem_cons_of_mem _ member))
          (fun raw member => verbatim raw (List.mem_cons_of_mem _ member)) same.2 part inside

theorem verbatim_of_key_eq {first second : AgentJournalItemIdentity} (verbatim : first.Verbatim)
    (same : keyOf first = keyOf second) : second.Verbatim := by
  have firstParts := decoded_keyOf (keyOf_eq first)
  have isKey : keyOf second = _ := same.symm.trans (keyOf_eq first)
  rw [decoded_keyOf isKey, Option.some.injEq, List.cons.injEq] at firstParts
  exact verbatim_of_map_eq (parts_short second) verbatim firstParts.2.symm

/-- Bounding twice is bounding once; every identity with an ordinal that is not negative has a
key that parses, and the parsed identity has that key; the parsed identity of a verbatim one
is that identity, so that no other has its key; and no identity with a digest has it either. -/
theorem item_keys_round_trip :
    (∀ value : Component, boundJournalKeyComponent (boundJournalKeyComponent value.text) =
      boundJournalKeyComponent value.text) ∧
    (∀ identity : AgentJournalItemIdentity, identity.OrdinalNotNegative →
      RoundTrips ⟨identity, none⟩) ∧
    (∀ key parsed, parseAgentJournalItemKey key = some parsed → RoundTrips parsed) ∧
    (∀ identity : AgentJournalItemIdentity, identity.OrdinalNotNegative → identity.Verbatim →
      ∃ key parsed, keyOf identity = some key ∧ parseAgentJournalItemKey key = some parsed ∧
        parsed.identity = identity) ∧
    (∀ first second : AgentJournalItemIdentity, first.OrdinalNotNegative →
      second.OrdinalNotNegative → first.Verbatim → keyOf first = keyOf second → first = second) ∧
    (∀ first second : AgentJournalItemIdentity, first.Verbatim → ¬second.Verbatim →
      keyOf first ≠ keyOf second) := by
  refine ⟨fun value => bound_idempotent value.short, fun _ => roundTrips, fun _ _ => roundTrips_parsed,
    fun identity notNegative verbatim => ?_, fun first second isFirst isSecond verbatim same => ?_,
    fun first second verbatim other same => other (verbatim_of_key_eq verbatim same)⟩
  · exact ⟨_, _, keyOf_eq identity, parse_keyOf notNegative (keyOf_eq identity),
      boundedIdentity_of_verbatim verbatim⟩
  · have verbatimSecond := verbatim_of_key_eq verbatim same
    have parsedFirst := parse_keyOf isFirst (keyOf_eq first)
    have isKey : keyOf second = _ := same.symm.trans (keyOf_eq first)
    rw [parse_keyOf isSecond isKey, Option.some.injEq, ParsedJournalItemIdentity.mk.injEq,
      boundedIdentity_of_verbatim verbatim, boundedIdentity_of_verbatim verbatimSecond] at parsedFirst
    exact parsedFirst.1.symm

/-- The key of an identity with a negative ordinal does not parse. -/
theorem negative_ordinal_does_not_parse : ¬ ∀ identity : AgentJournalItemIdentity, ∃ key parsed,
    keyOf identity = some key ∧ parseAgentJournalItemKey key = some parsed := by
  intro all
  obtain ⟨key, parsed, isKey, parses⟩ :=
    all (.codex ⟨[], by decide⟩ ⟨[], by decide⟩ (-1) (by decide))
  have known : keyOf (.codex ⟨[], by decide⟩ ⟨[], by decide⟩ (-1) (by decide)) =
      some (unitsOf "codex:::-1") := by
    decide +kernel
  have refused : parseAgentJournalItemKey (unitsOf "codex:::-1") = none := by
    decide +kernel
  rw [known] at isKey
  cases isKey
  rw [refused] at parses
  cases parses

end RoundTrip

end OxeeUI.Journal.KeyText
