import OxeeUI.Sidebar.FeedPages

/-!
# The change log of a feed

The last revisions' changes, bounded by count and bytes.
-/

namespace OxeeUI.Sidebar

open Library

variable {Value : Type*} {parser : JsonParser Value}

def feedLogMaxRevisions : ℕ := 256
def feedLogMaxBytes : ℕ := 2 * 1024 * 1024

/-- Per domain, each changed key's new entity, or `none` when it was removed. -/
abbrev FeedRevisionChanges (parser : JsonParser Value) :=
  JsMap Text (JsMap Text (Option (FeedEntity parser)))

structure LogEntry (parser : JsonParser Value) where
  revision : ℕ
  changes : FeedRevisionChanges parser
  bytes : ℕ

structure FeedChangeLog (parser : JsonParser Value) where
  entries : List (LogEntry parser)
  bytes : ℕ
  /-- The revision the log starts from: the oldest cursor it can bring current. -/
  floor : ℕ

def feedChanges (changes : FeedRevisionChanges parser) : List (FeedChange parser) :=
  changes.entries.flatMap fun (name, changed) =>
    changed.entries.map fun (key, entity) => ⟨name, key, entity⟩

def changeBytes (changes : FeedRevisionChanges parser) : ℕ :=
  ((feedChanges changes).map fun change =>
    change.key.length + (change.entity.elim 0 FeedEntity.bytes)).sum

/-- Drop the oldest entries while the log is over a bound. -/
def trimEntries : List (LogEntry parser) → ℕ → ℕ → FeedChangeLog parser
  | [], bytes, floor => ⟨[], bytes, floor⟩
  | entry :: rest, bytes, floor =>
    if (entry :: rest).length > feedLogMaxRevisions ∨ bytes > feedLogMaxBytes then
      trimEntries rest (bytes - entry.bytes) entry.revision
    else ⟨entry :: rest, bytes, floor⟩

/-- The later changes of one domain, written over the earlier ones. -/
def mergeDomain (into changed : JsMap Text (Option (FeedEntity parser))) :
    JsMap Text (Option (FeedEntity parser)) :=
  changed.entries.foldl (fun into entry => into.set entry.1 entry.2) into

def mergeChanges (merged changes : FeedRevisionChanges parser) : FeedRevisionChanges parser :=
  changes.entries.foldl
    (fun merged entry => merged.set entry.1 (mergeDomain ((merged.get? entry.1).getD .empty) entry.2))
    merged

namespace FeedChangeLog

variable (log : FeedChangeLog parser)

def create (floor : ℕ) : FeedChangeLog parser := ⟨[], 0, floor⟩

def covers (cursor revision : ℕ) : Bool := log.floor ≤ cursor && cursor ≤ revision

def append (revision : ℕ) (changes : FeedRevisionChanges parser) : FeedChangeLog parser :=
  trimEntries (log.entries ++ [⟨revision, changes, changeBytes changes⟩])
    (log.bytes + changeBytes changes) log.floor

def mergedSince (cursor : ℕ) : FeedRevisionChanges parser :=
  log.entries.foldl
    (fun merged entry => if cursor < entry.revision then mergeChanges merged entry.changes else merged)
    .empty

/-- Every key changed after a cursor, in its latest form. -/
def since (cursor : ℕ) : List (FeedChange parser) := feedChanges (log.mergedSince cursor)

end FeedChangeLog

end OxeeUI.Sidebar

/-!
## Replies and pinned batches

The reply to a read, and the batches of several pages that stay readable for a
while after their last page was read.
-/

namespace OxeeUI.Sidebar

open Library

variable {Value : Type*}

def sidebarInputsSchemaVersion : ℕ := 1
def sidebarInputsSemanticsVersion : ℕ := 3
def sidebarInputsPageMaxBytes : ℕ := 256 * 1024
def sidebarInputsPageMinBytes : ℕ := 16 * 1024

def feedPinIdleMs : ℕ := 30000
def feedPinMaxBytes : ℕ := 16 * 1024 * 1024
def feedPinMaxBatches : ℕ := 8

/-- The key of a batch: `delta:cursor` or `snapshot`, with the revision and the budget. -/
structure BatchKey where
  cursor : Option ℕ
  revision : ℕ
  budget : ℕ
  deriving DecidableEq

/-- The token of a pinned batch's page. -/
structure FeedPageToken where
  key : BatchKey
  index : ℕ

inductive ReplyKind
  | snapshot
  | delta
  | reset
  deriving DecidableEq

structure SidebarInputsReadParams where
  generation : Option String
  cursor : Option ℕ
  pageToken : Option FeedPageToken
  maxBytes : ℕ

structure SidebarInputsReadResult (Value : Type*) where
  generation : String
  revision : ℕ
  schemaVersion : ℕ
  semanticsVersion : ℕ
  kind : ReplyKind
  /-- A delta applies only on exactly this revision. -/
  since : Option ℕ
  domains : PageDomains Value
  next : Option FeedPageToken

def feedReply (generation : String) (kind : ReplyKind) (revision : ℕ) (since : Option ℕ)
    (domains : PageDomains Value) (next : Option FeedPageToken) : SidebarInputsReadResult Value :=
  ⟨generation, revision, sidebarInputsSchemaVersion, sidebarInputsSemanticsVersion, kind, since,
    domains, next⟩

structure Pin (Value : Type*) where
  pages : List (SidebarInputsReadResult Value)
  bytes : ℕ
  expiresAt : ℕ

abbrev FeedPins (Value : Type*) := JsMap BatchKey (Pin Value)

namespace FeedPins

variable (pins : FeedPins Value)

/-- The pin under a key, if it is still readable; reading it keeps it for longer. -/
def live (key : BatchKey) (now : ℕ) : Option (Pin Value) × FeedPins Value :=
  match pins.get? key with
  | none => (none, pins)
  | some pin =>
    if pin.expiresAt ≤ now then (none, pins)
    else
      let kept := { pin with expiresAt := now + feedPinIdleMs }
      (some kept, pins.set key kept)

/-- The batch pinned under a key, if still readable. -/
def find (key : BatchKey) (now : ℕ) : Option (List (SidebarInputsReadResult Value)) × FeedPins Value :=
  let (pin, pins) := live pins key now
  (pin.map Pin.pages, pins)

def page (token : FeedPageToken) (now : ℕ) :
    Option (SidebarInputsReadResult Value) × FeedPins Value :=
  let (pin, pins) := live pins token.key now
  (pin.bind fun pin => pin.pages[token.index]?, pins)

/-- Delete the oldest pins until the new one fits. -/
def evict : List BatchKey → ℕ → FeedPins Value → FeedPins Value
  | [], _, pins => pins
  | key :: rest, total, pins =>
    if total ≤ feedPinMaxBytes ∧ pins.size < feedPinMaxBatches then pins
    else evict rest (total - ((pins.get? key).elim 0 Pin.bytes)) (pins.delete key)

def add (key : BatchKey) (pages : List (SidebarInputsReadResult Value)) (bytes now : ℕ) :
    FeedPins Value :=
  let readable := pins.filter fun _ pin => now < pin.expiresAt
  let total := bytes + (readable.values.map Pin.bytes).sum
  (evict readable.keys total readable).set key ⟨pages, bytes, now + feedPinIdleMs⟩

end FeedPins

end OxeeUI.Sidebar

/-!
## The sidebar inputs feed

The feed publishes the cached snapshots of its domains while somebody is
subscribed, one revision after the other, and serves reads of them in batches.
-/

namespace OxeeUI.Sidebar

open Library

variable {Value : Type*} {parser : JsonParser Value}

/-- What a domain's `read` gives: each value's JSON, or `none` for what JSON cannot hold. -/
abbrev DomainSnapshot (parser : JsonParser Value) := JsMap Text (Option (JsonText parser))

/-- What the domains give when they are read; `none` when a read fails or is not ready. -/
abbrev DomainReads (parser : JsonParser Value) := Text → Option (DomainSnapshot parser)

abbrev PublishedDomain (parser : JsonParser Value) := JsMap Text (FeedEntity parser)

abbrev Published (parser : JsonParser Value) := JsMap Text (PublishedDomain parser)

structure SidebarInputsChangedEvent where
  generation : String
  revision : ℕ

/-- Each entity's JSON. -/
def readDomain (snapshot : Option (DomainSnapshot parser)) : Option (JsMap Text (JsonText parser)) :=
  snapshot.map fun snapshot =>
    snapshot.entries.foldl
      (fun entities entry => entry.2.elim entities fun json => entities.set entry.1 json) .empty

/-- One entity of a domain that is published again. -/
def publishEntity (before : PublishedDomain parser)
    (state : PublishedDomain parser × JsMap Text (Option (FeedEntity parser)))
    (entry : Text × JsonText parser) :
    PublishedDomain parser × JsMap Text (Option (FeedEntity parser)) :=
  let entity := feedEntityFromJson entry.2
  match before.get? entry.1 with
  | none => (state.1.set entry.1 entity, state.2.set entry.1 (some entity))
  | some kept =>
    if kept.json = entry.2.text then (state.1.set entry.1 kept, state.2)
    else (state.1.set entry.1 entity, state.2.set entry.1 (some entity))

/-- A domain's new entities, and what changed. -/
def publishDomain (before : PublishedDomain parser) (read : JsMap Text (JsonText parser)) :
    PublishedDomain parser × JsMap Text (Option (FeedEntity parser)) :=
  let (after, changed) := read.entries.foldl (publishEntity before) (.empty, .empty)
  (after, before.keys.foldl
    (fun changed key => if after.has key then changed else changed.set key none) changed)

structure FeedSession (parser : JsonParser Value) where
  domains : List Text
  distinct : domains.Nodup
  published : Published parser
  dirty : List Text
  log : FeedChangeLog parser
  pins : FeedPins Value
  revision : ℕ

local instance textLawfulBEq : LawfulBEq Text := inferInstance

namespace FeedSession

def create (domains : List Text) (distinct : domains.Nodup) (revision : ℕ) : FeedSession parser where
  domains := domains
  distinct := distinct
  published := .empty
  dirty := domains
  log := .create revision
  pins := .empty
  revision := revision

variable (session : FeedSession parser)

def invalidate (name : Text) : FeedSession parser :=
  { session with dirty := if name ∈ session.dirty then session.dirty else session.dirty ++ [name] }

def publishedIn (name : Text) : PublishedDomain parser := (session.published.get? name).getD .empty

def due : List Text := session.domains.filter (· ∈ session.dirty)

def flushDomain (reads : DomainReads parser)
    (state : FeedSession parser × FeedRevisionChanges parser) (name : Text) :
    FeedSession parser × FeedRevisionChanges parser :=
  match readDomain (reads name) with
  | none => (state.1.invalidate name, state.2)
  | some read =>
    let (after, changed) := publishDomain (state.1.publishedIn name) read
    ({ state.1 with published := state.1.published.set name after },
      if 0 < changed.size then state.2.set name changed else state.2)

def publishDue (reads : DomainReads parser) : FeedSession parser × FeedRevisionChanges parser :=
  session.due.foldl (flushDomain reads) ({ session with dirty := [] }, .empty)

/-- Publish what every due domain holds as one revision. -/
def flush (generation : String) (reads : DomainReads parser) :
    FeedSession parser × List SidebarInputsChangedEvent :=
  let (session, changes) := session.publishDue reads
  if 0 < changes.size then
    let revision := session.revision + 1
    ({ session with revision, log := session.log.append revision changes },
      [⟨generation, revision⟩])
  else (session, [])

def everything : List (FeedChange parser) :=
  session.domains.flatMap fun name =>
    (session.publishedIn name).entries.map fun (key, entity) => ⟨name, key, some entity⟩

end FeedSession

def batchReplies (generation : String) (key : BatchKey) (bodies : List (FeedPageBody Value)) :
    List (SidebarInputsReadResult Value) :=
  bodies.mapIdx fun index body =>
    feedReply generation (if key.cursor = none then .snapshot else .delta) key.revision key.cursor
      body.domains (if index + 1 < bodies.length then some ⟨key, index + 1⟩ else none)

def resetReply (generation : String) (revision : ℕ) : SidebarInputsReadResult Value :=
  feedReply generation .reset revision none .empty none

namespace FeedSession

variable (session : FeedSession parser)

/-- The batch at this revision, pinned for its later pages. -/
def batch (generation : String) (cursor : Option ℕ) (budget now : ℕ)
    (changes : List (FeedChange parser)) :
    Option (SidebarInputsReadResult Value) × FeedSession parser :=
  let key : BatchKey := ⟨cursor, session.revision, budget⟩
  match FeedPins.find session.pins key now with
  | (some pages, pins) => (pages.head?, { session with pins })
  | (none, pins) =>
    let bodies := paginateFeedChanges changes budget
    let pages := batchReplies generation key bodies
    (pages.head?,
      { session with
        pins := if 1 < pages.length then
          FeedPins.add pins key pages (bodies.map FeedPageBody.bytes).sum now else pins })

def deltaCursor (generation : String) (params : SidebarInputsReadParams) : Option ℕ :=
  if params.generation = some generation then
    params.cursor.filter fun cursor => session.log.covers cursor session.revision
  else none

/-- The rest of a read, once the producers are ready. -/
def serve (generation : String) (params : SidebarInputsReadParams) (reads : DomainReads parser)
    (now : ℕ) :
    Option (SidebarInputsReadResult Value) × FeedSession parser ×
      List SidebarInputsChangedEvent :=
  let (session, events) := session.flush generation reads
  let budget := min sidebarInputsPageMaxBytes (max sidebarInputsPageMinBytes params.maxBytes)
  let cursor := session.deltaCursor generation params
  let (reply, session) := session.batch generation cursor budget now
    (cursor.elim session.everything session.log.since)
  (reply, session, events)

def servePage (generation : String) (token : FeedPageToken) (now : ℕ) :
    SidebarInputsReadResult Value × FeedSession parser :=
  let (page, pins) := FeedPins.page session.pins token now
  (page.getD (resetReply generation session.revision), { session with pins })

end FeedSession

structure SidebarInputsFeed (parser : JsonParser Value) where
  generation : String
  lastRevision : ℕ
  subscribers : List String
  session : Option (FeedSession parser)

namespace SidebarInputsFeed

def create (generation : String) : SidebarInputsFeed parser := ⟨generation, 0, [], none⟩

variable (feed : SidebarInputsFeed parser)

def acquire (subscriber : String) (domains : List Text) (distinct : domains.Nodup) :
    SidebarInputsFeed parser :=
  if subscriber ∈ feed.subscribers then feed
  else
    { feed with
      subscribers := feed.subscribers ++ [subscriber]
      -- The empty set is a revision of its own, so a cursor from before reads afresh.
      session := some (feed.session.getD (.create domains distinct (feed.lastRevision + 1))) }

def release (subscriber : String) : SidebarInputsFeed parser :=
  if subscriber ∈ feed.subscribers then
    let subscribers := feed.subscribers.filter (· ≠ subscriber)
    match feed.session with
    | some session =>
      if subscribers = [] then ⟨feed.generation, session.revision, subscribers, none⟩
      else { feed with subscribers }
    | none => { feed with subscribers }
  else feed

end SidebarInputsFeed

end OxeeUI.Sidebar
