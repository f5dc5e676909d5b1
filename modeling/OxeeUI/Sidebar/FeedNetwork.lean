import OxeeUI.Library.Run
import OxeeUI.Sidebar.FeedInstaller

/-!
# A feed and a reader

Reads may be begun at any time after they are sent, wait for the producers for
any time, and fail; replies arrive in any order, notices in the order they were
emitted.
-/

namespace OxeeUI.Sidebar

open Library

variable {Value : Type*} {parser : JsonParser Value}

/-- What the feed has published at a revision, and what it changed there. -/
structure FeedRevision (parser : JsonParser Value) where
  published : Published parser
  /-- Every published entity, in the order a snapshot lists them. -/
  everything : List (FeedChange parser)
  changes : FeedRevisionChanges parser

/-- A read that the host has begun, in the session that was live then. -/
structure WaitingRead where
  request : SidebarInputsFeedRequest
  session : ℕ

structure FeedNetwork (parser : JsonParser Value) where
  feed : SidebarInputsFeed parser
  /-- The last revision of each session that has ended. -/
  ended : List ℕ
  state : SidebarInputsFeedState Value
  sent : List SidebarInputsFeedRequest
  waiting : List WaitingRead
  /-- The replies on their way; `none` for a read that failed. -/
  replies : List (SidebarInputsFeedRequest × Option (SidebarInputsReadResult Value))
  notices : List SidebarInputsChangedEvent
  /-- The notices the reader has received. -/
  heard : List SidebarInputsChangedEvent
  /-- The reader's last read failed. -/
  failed : Bool
  /-- What the feed published at each revision, as it was last; nothing reads it. -/
  history : ℕ → Option (FeedRevision parser)

inductive FeedInput (parser : JsonParser Value)
  | acquire (subscriber : String) (domains : List Text) (distinct : domains.Nodup)
  | release (subscriber : String)
  | invalidate (name : Text)
  | flush (reads : DomainReads parser)
  /-- The host begins a read that was sent. -/
  | begin (index now : ℕ)
  /-- The producers are ready for a read that waits. -/
  | serve (index : ℕ) (reads : DomainReads parser) (now : ℕ)
  /-- A read that was sent, or that waits, fails. -/
  | failSent (index : ℕ)
  | failWaiting (index : ℕ)
  | hearNotice
  | hearReply (index : ℕ)
  | refresh

namespace FeedNetwork

def start (generation : String) : FeedNetwork parser where
  feed := .create generation
  ended := []
  state := initialSidebarInputsFeedState
  sent := []
  waiting := []
  replies := []
  notices := []
  heard := []
  failed := false
  history := fun _ => none

variable (network : FeedNetwork parser)

/-- The session is as it is after a step; the history notes what it has published. -/
def hold (session : FeedSession parser) (changes : FeedRevisionChanges parser) :
    FeedNetwork parser :=
  { network with
    feed := { network.feed with session := some session }
    history := Function.update network.history session.revision
      (some ⟨session.published, session.everything, changes⟩) }

/-- What a flush changes, or what the last one to change anything did. -/
def changesAfter (session : FeedSession parser) (reads : DomainReads parser) :
    FeedRevisionChanges parser :=
  let changes := (session.publishDue reads).2
  if 0 < changes.size then changes
  else ((network.history session.revision).map FeedRevision.changes).getD .empty

def readerStep (step : SidebarInputsFeedStep Value) : FeedNetwork parser :=
  { network with
    state := step.1
    sent := network.sent ++ step.2.toList
    failed := network.failed && step.2.isNone }

def reply (request : SidebarInputsFeedRequest) (result : Option (SidebarInputsReadResult Value)) :
    FeedNetwork parser :=
  { network with replies := network.replies ++ [(request, result)] }

/-- `SidebarInputsFeed.read`, up to where it waits. -/
def beginRead (request : SidebarInputsFeedRequest) (now : ℕ) : FeedNetwork parser :=
  match network.feed.session with
  -- The feed has no subscriber.
  | none => network.reply request none
  | some session =>
    match request.params.pageToken with
    | some token =>
      let (page, session) := session.servePage network.feed.generation token now
      { network with feed := { network.feed with session := some session } }.reply request page
    | none => { network with waiting := network.waiting ++ [⟨request, network.ended.length⟩] }

def serveRead (read : WaitingRead) (reads : DomainReads parser) (now : ℕ) : FeedNetwork parser :=
  match network.ended[read.session]?, network.feed.session with
  -- A release during the wait discarded what this read would serve.
  | some revision, _ => network.reply read.request (some (resetReply network.feed.generation revision))
  | none, none => network
  | none, some session =>
    let (page, served, events) :=
      session.serve network.feed.generation read.request.params reads now
    let held := network.hold served (network.changesAfter session reads)
    { held with notices := held.notices ++ events }.reply read.request page

def flushed (session : FeedSession parser) (reads : DomainReads parser) : FeedNetwork parser :=
  let (flushed, events) := session.flush network.feed.generation reads
  let held := network.hold flushed (network.changesAfter session reads)
  { held with notices := held.notices ++ events }

def acquired (subscriber : String) (domains : List Text) (distinct : domains.Nodup) :
    FeedNetwork parser :=
  let feed := network.feed.acquire subscriber domains distinct
  match network.feed.session, feed.session with
  | none, some session => { network with feed }.hold session .empty
  | _, _ => { network with feed }

def released (subscriber : String) : FeedNetwork parser :=
  let feed := network.feed.release subscriber
  match network.feed.session, feed.session with
  | some session, none => { network with feed, ended := network.ended ++ [session.revision] }
  | _, _ => { network with feed }

/-- The step of the network, where the input is possible. -/
def step (network : FeedNetwork parser) : FeedInput parser → Option (FeedNetwork parser)
  | .acquire subscriber domains distinct => some (network.acquired subscriber domains distinct)
  | .release subscriber => some (network.released subscriber)
  | .invalidate name =>
    network.feed.session.map fun session =>
      { network with feed := { network.feed with session := some (session.invalidate name) } }
  | .flush reads => network.feed.session.map fun session => network.flushed session reads
  | .begin index now =>
    network.sent[index]?.map fun request =>
      { network with sent := network.sent.eraseIdx index }.beginRead request now
  | .serve index reads now =>
    network.waiting[index]?.map fun read =>
      { network with waiting := network.waiting.eraseIdx index }.serveRead read reads now
  | .failSent index =>
    network.sent[index]?.map fun request =>
      { network with sent := network.sent.eraseIdx index }.reply request none
  | .failWaiting index =>
    network.waiting[index]?.map fun read =>
      { network with waiting := network.waiting.eraseIdx index }.reply read.request none
  | .hearNotice =>
    match network.notices with
    | [] => none
    | notice :: rest =>
      some ({ network with notices := rest, heard := network.heard ++ [notice] }.readerStep
        (network.state.sidebarInputsChanged notice))
  | .hearReply index =>
    network.replies[index]?.map fun (request, result) =>
      let network := { network with replies := network.replies.eraseIdx index }
      match result with
      | some result =>
        network.readerStep (network.state.sidebarInputsReplied parser request.id result)
      | none =>
        { network with
          state := network.state.sidebarInputsReadFailed request.id
          failed := network.failed || decide (network.state.inFlight = some request.id) }
  | .refresh => some (network.readerStep network.state.refreshSidebarInputs)

end FeedNetwork

def FeedStep (before : FeedNetwork parser) (input : FeedInput parser)
    (after : FeedNetwork parser) : Prop := before.step input = some after

end OxeeUI.Sidebar
