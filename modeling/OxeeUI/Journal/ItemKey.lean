import OxeeUI.Library.Utf16

/-!
# Journal item keys

An item is addressed by a key that joins the percent-encoded components of its
provider identity.  Oversized components are replaced by a bounded digest, and
raw values that look like such a digest are tagged.
-/

namespace OxeeUI.Journal

open OxeeUI.Library

inductive AgentJournalItemIdentity where
  | codex (threadId turnId : String) (ordinal : Nat)
  | claude (sessionId uuid : String)
  /-- A submission the host minted before any provider echo existed. -/
  | orca (clientMessageId : String)
  | legacy (agent sessionId recordId : String)

/-- `%FF` is not valid UTF-8, so no encoded component starts with it. -/
def verbatimBoundedComponentTag : List Char := ['%', 'F', 'F']

def maxJournalKeyComponentChars : Nat := 1024

def oversizedMarker : List Char := "~orca-oversized~".toList

def fnv1a32 (value : List Char) (seed : Nat) : Nat :=
  (charCodes value).foldl
    (fun hash unit => ((hash ^^^ unit) * 0x01000193) % 2 ^ 32) seed

/-- Bound oversized components: a head, the length and two hashes. -/
def boundJournalKeyComponent (value : List Char) : List Char :=
  if utf16Length value ≤ maxJournalKeyComponentChars then value
  else
    takeUtf16 40 value ++ oversizedMarker ++ Nat.toDigits 10 (utf16Length value) ++ ['~'] ++
      hexPadded 8 (fnv1a32 value 0x811c9dc5) ++ hexPadded 8 (fnv1a32 value 0x01000193)

/-- `~orca-oversized~`, a positive decimal length, `~` and sixteen hex digits. -/
def isBoundedComponentTail (value : List Char) : Bool :=
  match afterStart? oversizedMarker value with
  | none => false
  | some rest =>
    let digits := rest.takeWhile Char.isDigit
    let hashes := rest.drop (digits.length + 1)
    digits.head?.any (· ≠ '0') && rest[digits.length]? == some '~' &&
      hashes.length == 16 &&
      hashes.all fun digit => digit.isDigit || ('a' ≤ digit && digit ≤ 'f')

/-- `BOUNDED_COMPONENT_PATTERN`: at most forty code units, then such a tail. -/
def isBoundedComponentRepresentation (value : List Char) : Bool :=
  (List.range (value.length + 1)).any fun split =>
    utf16Length (value.take split) ≤ 40 && isBoundedComponentTail (value.drop split)

def encodePart (value : String) : List Char :=
  let raw := value.toList
  let bounded := boundJournalKeyComponent raw
  let encoded := encodeUriComponent bounded
  if raw = bounded ∧ isBoundedComponentRepresentation raw then
    verbatimBoundedComponentTag ++ encoded
  else encoded

def joinKey (parts : List (List Char)) : String :=
  String.ofList (List.intercalate [':'] parts)

def agentJournalItemKey : AgentJournalItemIdentity → String
  | .codex threadId turnId ordinal =>
    joinKey ["codex".toList, encodePart threadId, encodePart turnId,
      encodePart (String.ofList (Nat.toDigits 10 ordinal))]
  | .claude sessionId uuid =>
    joinKey ["claude".toList, encodePart sessionId, encodePart uuid]
  | .orca clientMessageId => joinKey ["orca".toList, encodePart clientMessageId]
  | .legacy agent sessionId recordId =>
    joinKey ["legacy".toList, encodePart agent, encodePart sessionId, encodePart recordId]

/-- Key for the pre-dispatch submission placeholder, before any provider echo. -/
def agentJournalSubmissionKey (clientMessageId : String) : String :=
  agentJournalItemKey (.orca clientMessageId)

def structuredAgentSessionCommandTurnIdentity (clientMessageId : String) :
    AgentJournalItemIdentity :=
  .orca ("command-turn:" ++ clientMessageId)

def decodePart (part : List Char) : Option String :=
  match afterStart? verbatimBoundedComponentTag part with
  | some rest =>
    (decodeUriComponent rest).bind fun value =>
      if isBoundedComponentRepresentation value then some (String.ofList value) else none
  | none => (decodeUriComponent part).map String.ofList

/-- Recover the identity from a key; corrupt percent sequences fail to parse.
`ordinalOf` is `Number(value)` where that is a safe integer that is not negative. -/
def parseAgentJournalItemKey (ordinalOf : String → Option Nat) (key : String) :
    Option AgentJournalItemIdentity := do
  let parts ← (splitOnChar ':' key.toList).mapM decodePart
  match parts with
  | ["codex", threadId, turnId, ordinal] =>
    (ordinalOf ordinal).map (.codex threadId turnId)
  | ["claude", sessionId, uuid] => some (.claude sessionId uuid)
  | ["orca", clientMessageId] => some (.orca clientMessageId)
  | ["legacy", agent, sessionId, recordId] => some (.legacy agent sessionId recordId)
  | _ => none

namespace AgentJournalItemIdentity

/-- `identity.provider === 'orca'`. -/
def isOrca : AgentJournalItemIdentity → Bool
  | .orca _ => true
  | _ => false

end AgentJournalItemIdentity

theorem parse_agentJournalSubmissionKey_isOrca {ordinalOf : String → Option Nat}
    {clientMessageId : String} {identity : AgentJournalItemIdentity}
    (parsed : parseAgentJournalItemKey ordinalOf (agentJournalSubmissionKey clientMessageId) =
      some identity) : identity.isOrca = true := by
  have split : splitOnChar ':' (agentJournalSubmissionKey clientMessageId).toList =
      "orca".toList :: splitOnChar ':' (encodePart clientMessageId) := by
    have joined : (agentJournalSubmissionKey clientMessageId).toList =
        "orca".toList ++ ':' :: encodePart clientMessageId := by
      simp [agentJournalSubmissionKey, agentJournalItemKey, joinKey, List.intercalate,
        List.intersperse]
    rw [joined]
    exact splitOnChar_append_cons (by decide) _
  have first : decodePart "orca".toList = some "orca" := by decide
  unfold parseAgentJournalItemKey at parsed
  rw [split, List.mapM_cons, first] at parsed
  cases decoded : (splitOnChar ':' (encodePart clientMessageId)).mapM decodePart with
  | none => simp [decoded] at parsed
  | some rest =>
    simp only [decoded, Option.bind_eq_bind, Option.bind_some, Option.pure_def] at parsed
    split at parsed
    case h_3 => cases parsed; rfl
    case h_5 => cases parsed
    all_goals simp_all

end OxeeUI.Journal
