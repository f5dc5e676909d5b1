import OxeeUI.Sidebar.InputsFeed

/-!
# The reader of a feed

A reader of one host connection: it stages the pages of a batch and installs
them as one step.
-/

namespace OxeeUI.Sidebar

open Library

variable {Value : Type*} {parser : JsonParser Value}

abbrev InstalledDomains (Value : Type*) := JsMap Text (JsMap Text Value)

structure InstalledSidebarInputs (Value : Type*) where
  generation : String
  revision : ℕ
  schemaVersion : ℕ
  semanticsVersion : ℕ
  domains : InstalledDomains Value

structure StagedBatch (Value : Type*) where
  generation : String
  revision : ℕ
  kind : ReplyKind
  since : Option ℕ
  pages : List (PageDomains Value)

structure SidebarInputsFeedState (Value : Type*) where
  installed : Option (InstalledSidebarInputs Value)
  /-- The pages of the batch being read, installed only once its last page lands. -/
  staged : Option (StagedBatch Value)
  /-- The read in flight; a reply to any other request is stale and dropped. -/
  inFlight : Option ℕ
  /-- The newest notice that arrived after the read in flight was sent. -/
  noticed : Option SidebarInputsChangedEvent
  lastRequestId : ℕ

structure SidebarInputsFeedRequest where
  id : ℕ
  params : SidebarInputsReadParams

/-- The state after, and the read to send now, if any. -/
abbrev SidebarInputsFeedStep (Value : Type*) :=
  SidebarInputsFeedState Value × Option SidebarInputsFeedRequest

def initialSidebarInputsFeedState : SidebarInputsFeedState Value := ⟨none, none, none, none, 0⟩

def coversNotice (generation : String) (revision : ℕ) (notice : SidebarInputsChangedEvent) : Bool :=
  decide (generation = notice.generation) && decide (notice.revision ≤ revision)

namespace InstalledSidebarInputs

def covers (installed : InstalledSidebarInputs Value) (notice : SidebarInputsChangedEvent) : Bool :=
  coversNotice installed.generation installed.revision notice

end InstalledSidebarInputs

section Install

/-- The entities of a domain: those the batch has touched, or those installed. -/
def entitiesOf (domains touched : InstalledDomains Value) (name : Text) : JsMap Text Value :=
  (touched.get? name).getD ((domains.get? name).getD .empty)

/-- The entities of a domain after its upserts and removals in one page. -/
def changeEntities (entities : JsMap Text Value) (change : SidebarInputsDomainChange Value) :
    JsMap Text Value :=
  change.removals.foldl (fun entities key => entities.delete key)
    (change.upserts.entries.foldl (fun entities entry => entities.set entry.1 entry.2) entities)

/-- The texts of a domain after its parts in one page. -/
def joinParts (texts parts : JsMap Text Text) : JsMap Text Text :=
  parts.entries.foldl
    (fun texts entry => texts.set entry.1 ((texts.get? entry.1).getD [] ++ entry.2)) texts

/-- The domains a batch has touched and the texts it has joined. -/
structure Installing (Value : Type*) where
  touched : InstalledDomains Value
  parts : JsMap Text (JsMap Text Text)

def applyDomainChange (domains : InstalledDomains Value) (installing : Installing Value)
    (entry : Text × SidebarInputsDomainChange Value) : Installing Value where
  touched := installing.touched.set entry.1
    (changeEntities (entitiesOf domains installing.touched entry.1) entry.2)
  parts :=
    if entry.2.parts.entries = [] then installing.parts
    else installing.parts.set entry.1
      (joinParts ((installing.parts.get? entry.1).getD .empty) entry.2.parts)

def applyPage (domains : InstalledDomains Value) (installing : Installing Value)
    (page : PageDomains Value) : Installing Value :=
  page.entries.foldl (applyDomainChange domains) installing

/-- Parse the joined texts of one domain into its entities. -/
def parseTexts (parser : JsonParser Value) (entities : JsMap Text Value) :
    List (Text × Text) → Option (JsMap Text Value)
  | [] => some entities
  | (key, text) :: rest => do
    let value ← parser.parse text
    parseTexts parser (entities.set key value) rest

def parseParts (parser : JsonParser Value) (domains : InstalledDomains Value) :
    List (Text × JsMap Text Text) → InstalledDomains Value → Option (InstalledDomains Value)
  | [], touched => some touched
  | (name, texts) :: rest, touched => do
    let entities ← parseTexts parser (entitiesOf domains touched name) texts.entries
    parseParts parser domains rest (touched.set name entities)

/-- The domains after a batch; `none` when an entity's joined parts are not JSON. -/
def installPages (parser : JsonParser Value) (domains : InstalledDomains Value)
    (pages : List (PageDomains Value)) : Option (InstalledDomains Value) := do
  let installing := pages.foldl (applyPage domains) ⟨.empty, .empty⟩
  let touched ← parseParts parser domains installing.parts.entries installing.touched
  return touched.entries.foldl (fun domains entry => domains.set entry.1 entry.2) domains

def installBatch (parser : JsonParser Value) (installed : Option (InstalledSidebarInputs Value))
    (batch : StagedBatch Value) (last : SidebarInputsReadResult Value) :
    Option (InstalledSidebarInputs Value) :=
  let domains :=
    if batch.kind = .snapshot then .empty
    else installed.elim .empty InstalledSidebarInputs.domains
  (installPages parser domains batch.pages).map fun domains =>
    ⟨batch.generation, batch.revision, last.schemaVersion, last.semanticsVersion, domains⟩

end Install

namespace SidebarInputsFeedState

variable (state : SidebarInputsFeedState Value)

/-- What is staged covers the notice, or else what is installed does. -/
def covers (notice : SidebarInputsChangedEvent) : Bool :=
  match state.staged with
  | some staged => coversNotice staged.generation staged.revision notice
  | none => state.installed.any fun installed => installed.covers notice

def send (generation : Option String) (cursor : Option ℕ) (pageToken : Option FeedPageToken) :
    SidebarInputsFeedStep Value :=
  let id := state.lastRequestId + 1
  ({ state with inFlight := some id, lastRequestId := id },
    some ⟨id, ⟨generation, cursor, pageToken, sidebarInputsPageMaxBytes⟩⟩)

/-- A fresh read: the host serves it at its current revision, past every notice so far. -/
def readFromInstalled : SidebarInputsFeedStep Value :=
  send { state with staged := none, noticed := none }
    (state.installed.map InstalledSidebarInputs.generation)
    (state.installed.map InstalledSidebarInputs.revision) none

def refreshSidebarInputs : SidebarInputsFeedStep Value := state.readFromInstalled

/-- A change notice; one this reader already has or is fetching is a duplicate or arrived late. -/
def sidebarInputsChanged (notice : SidebarInputsChangedEvent) : SidebarInputsFeedStep Value :=
  if state.covers notice ||
      state.noticed.any fun noticed => coversNotice noticed.generation noticed.revision notice then
    (state, none)
  else if state.inFlight = none then state.readFromInstalled
  else ({ state with noticed := some notice }, none)

/-- The read failed; its reader retries with a refresh. -/
def sidebarInputsReadFailed (requestId : ℕ) : SidebarInputsFeedState Value :=
  if state.inFlight = some requestId then
    { state with inFlight := none, staged := none, noticed := none }
  else state

/-- The reply is of the batch that is staged, or begins one that applies to what is installed. -/
def continues (reply : SidebarInputsReadResult Value) : Bool :=
  match state.staged with
  | some staged =>
    decide (staged.generation = reply.generation) && decide (staged.revision = reply.revision) &&
      decide (staged.kind = reply.kind) && decide (staged.since = reply.since)
  | none =>
    decide (reply.kind = .snapshot) ||
      state.installed.any fun installed =>
        decide (installed.generation = reply.generation) &&
          decide (reply.since = some installed.revision)

/-- The staged batch with the reply's page. -/
def stage (reply : SidebarInputsReadResult Value) : StagedBatch Value :=
  ⟨reply.generation, reply.revision, reply.kind, reply.since,
    (state.staged.elim [] StagedBatch.pages) ++ [reply.domains]⟩

/-- A batch older than what is installed installs nothing. -/
def isStale (batch : StagedBatch Value) : Bool :=
  state.installed.any fun installed =>
    decide (installed.generation = batch.generation) && decide (batch.revision < installed.revision)

def finish (parser : JsonParser Value) (reply : SidebarInputsReadResult Value) :
    SidebarInputsFeedStep Value :=
  let batch := state.stage reply
  match if state.isStale batch then state.installed
      else installBatch parser state.installed batch reply with
  | none => send { state with inFlight := none, staged := none, noticed := none } none none none
  | some next =>
    let settled := { state with inFlight := none, staged := none, installed := some next }
    if state.noticed.any fun noticed => !next.covers noticed then settled.readFromInstalled
    else ({ settled with noticed := none }, none)

def sidebarInputsReplied (parser : JsonParser Value) (requestId : ℕ)
    (reply : SidebarInputsReadResult Value) : SidebarInputsFeedStep Value :=
  if state.inFlight ≠ some requestId then (state, none)
  else if reply.kind = .reset then readFromInstalled { state with inFlight := none }
  else if !state.continues reply then
    -- Not the batch this reader asked for: only a whole snapshot is safe now.
    send { state with inFlight := none, staged := none, noticed := none } none none none
  else
    match reply.next with
    | some next =>
      send { state with inFlight := none, staged := some (state.stage reply) } none none (some next)
    | none => state.finish parser reply

end SidebarInputsFeedState

end OxeeUI.Sidebar
