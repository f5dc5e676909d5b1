import OxeeUI.Library.UriText
import OxeeUI.Library.JsonText

/-!
# Journal item keys of any identity

The key of an item over code units, lone surrogates included.  A component that is
too long or ill-formed is replaced by a digest, and one that looks like a digest
is tagged.
-/

namespace OxeeUI.Journal.KeyText

open OxeeUI.Library

/-- A string is shorter than `2 ^ 53` code units. -/
structure Component where
  text : Text
  short : text.length < 2 ^ 53

/-- The identity a provider gives an item; its ordinal is a safe integer. -/
inductive AgentJournalItemIdentity where
  | codex (threadId turnId : Component) (ordinal : ℤ) (safe : ordinal.natAbs < safeIntegerBound)
  | claude (sessionId uuid : Component)
  | orca (clientMessageId : Component)
  | legacy (agent sessionId recordId : Component)

/-- A parsed identity may carry the key it was parsed from. -/
structure ParsedJournalItemIdentity where
  identity : AgentJournalItemIdentity
  parsedKey : Option Text

def keyDelimiter : UInt16 := colon

/-- `%FF` -/
def verbatimBoundedComponentTag : Text := percentUnits 0xFF

def maxJournalKeyComponentChars : ℕ := 1024

def oversizedMarker : Text := unitsOf "~orca-oversized~"

/-- `U+FFFD` -/
def replacementUnit : UInt16 := 0xFFFD

/-- The first units of a value: a cut pair is dropped, a lone surrogate replaced. -/
def wellFormedBoundedHead : Text → ℕ → Text
  | [], _ => []
  | _, 0 => []
  | [unit], _ => if isSurrogate unit then [replacementUnit] else [unit]
  | first :: second :: rest, maxUnits + 1 =>
    if isHighSurrogate first && isLowSurrogate second then
      match maxUnits with
      | 0 => []
      | maxUnits + 1 => first :: second :: wellFormedBoundedHead rest maxUnits
    else
      (if isSurrogate first then replacementUnit else first) ::
        wellFormedBoundedHead (second :: rest) maxUnits

def fnv1a32 (value : Text) (seed : ℕ) : ℕ :=
  value.foldl (fun hash unit => ((hash ^^^ unit.toNat) * 0x01000193) % 2 ^ 32) seed

/-- `hash.toString(16).padStart(8, '0')` -/
def hashText (hash : ℕ) : Text := (hexPadded 8 hash).map fun digit => UInt16.ofNat digit.toNat

def tilde : UInt16 := 126

def boundedComponent (value : Text) : Text :=
  wellFormedBoundedHead value 40 ++ oversizedMarker ++ decimalText value.length ++ [tilde] ++
    hashText (fnv1a32 value 0x811c9dc5) ++ hashText (fnv1a32 value 0x01000193)

def boundJournalKeyComponent (value : Text) : Text :=
  if value.length ≤ maxJournalKeyComponentChars ∧ hasLoneSurrogate value = false then value
  else boundedComponent value

def isHexUnit (unit : UInt16) : Bool :=
  isDecimalUnit unit || (97 ≤ unit.toNat && unit.toNat ≤ 102)

/-- `~orca-oversized~`, a positive decimal length, `~` and sixteen hex digits. -/
def isBoundedComponentTail (value : Text) : Bool :=
  oversizedMarker.isPrefixOf value &&
    let rest := value.drop oversizedMarker.length
    let digits := rest.takeWhile isDecimalUnit
    let hashes := rest.drop (digits.length + 1)
    digits.head?.any (· ≠ 48) && rest[digits.length]? == some tilde && hashes.length == 16 &&
      hashes.all isHexUnit

/-- `BOUNDED_COMPONENT_PATTERN`: at most forty units, then such a tail. -/
def isBoundedComponentRepresentation (value : Text) : Bool :=
  (List.range 41).any fun split => split ≤ value.length && isBoundedComponentTail (value.drop split)

/-- `none` where `encodeURIComponent` throws. -/
def encodePart (raw : Text) : Option Text :=
  let bounded := boundJournalKeyComponent raw
  (encodeURIComponent bounded).map fun encoded =>
    if raw = bounded ∧ isBoundedComponentRepresentation raw then
      verbatimBoundedComponentTag ++ encoded
    else encoded

/-- `String(ordinal)` -/
def ordinalText (ordinal : ℤ) : Text :=
  if ordinal < 0 then 45 :: decimalText ordinal.natAbs else decimalText ordinal.natAbs

/-- The provider and the values of a key, in order. -/
def AgentJournalItemIdentity.parts : AgentJournalItemIdentity → Text × List Text
  | .codex threadId turnId ordinal _ =>
    (unitsOf "codex", [threadId.text, turnId.text, ordinalText ordinal])
  | .claude sessionId uuid => (unitsOf "claude", [sessionId.text, uuid.text])
  | .orca clientMessageId => (unitsOf "orca", [clientMessageId.text])
  | .legacy agent sessionId recordId =>
    (unitsOf "legacy", [agent.text, sessionId.text, recordId.text])

def agentJournalItemKey (identity : ParsedJournalItemIdentity) : Option Text :=
  match identity.parsedKey with
  | some key => some key
  | none =>
    (identity.identity.parts.2.mapM encodePart).map fun encoded =>
      joinUnit keyDelimiter (identity.identity.parts.1 :: encoded)

structure DecodedPart where
  value : Text
  tagged : Bool
deriving DecidableEq

def decodePart (part : Text) : Option DecodedPart :=
  let tagged := verbatimBoundedComponentTag.isPrefixOf part
  (decodeURIComponent (if tagged then part.drop verbatimBoundedComponentTag.length else part)).bind
    fun value =>
      if ¬tagged ∨ isBoundedComponentRepresentation value then some ⟨value, tagged⟩ else none

/-- A decoded value is shorter than `2 ^ 53` units, as every string is. -/
def component? (value : Text) : Option Component :=
  if short : value.length < 2 ^ 53 then some ⟨value, short⟩ else none

/-- The identity that a provider and its values give. -/
def identityOf : List Text → Option AgentJournalItemIdentity
  | [provider, first] =>
    if provider = unitsOf "orca" then (component? first).map .orca else none
  | [provider, first, second] =>
    if provider = unitsOf "claude" then do
      let sessionId ← component? first
      let uuid ← component? second
      return .claude sessionId uuid
    else none
  | [provider, first, second, third] =>
    if provider = unitsOf "codex" then
      (safeNumber? third).bind fun ordinal =>
        if safe : ordinal < safeIntegerBound then do
          let threadId ← component? first
          let turnId ← component? second
          return .codex threadId turnId ordinal safe
        else none
    else if provider = unitsOf "legacy" then do
      let agent ← component? first
      let sessionId ← component? second
      let recordId ← component? third
      return .legacy agent sessionId recordId
    else none
  | _ => none

def parseAgentJournalItemKey (key : Text) : Option ParsedJournalItemIdentity :=
  ((splitOnUnit keyDelimiter key).mapM decodePart).bind fun parts =>
    let preserveExactKey := parts.any fun part =>
      part.tagged || isBoundedComponentRepresentation part.value
    (identityOf (parts.map DecodedPart.value)).map fun identity =>
      ⟨identity, if preserveExactKey then some key else none⟩

end OxeeUI.Journal.KeyText
