import OxeeUI.Sidebar.ServedBatches
import OxeeUI.Sidebar.FeedNetwork

/-!
# A reader ends current

A reader that waits for no reply has installed what every notice told of, and never goes
back to an older revision.
-/

namespace OxeeUI.Sidebar

open Library

variable {Value : Type*} {parser : JsonParser Value}

/-! ## What a reader keeps track of -/

section Reader

variable {generation : String} {state : SidebarInputsFeedState Value}
variable {heard : List SidebarInputsChangedEvent} {failed : Bool} {past : Option ℕ}

/-- The reader has noted to read the notice's revision, or has installed it. -/
def Held (state : SidebarInputsFeedState Value) (notice : SidebarInputsChangedEvent) : Prop :=
  (∃ noted ∈ state.noticed, notice.revision ≤ noted.revision) ∨
    ∃ installed ∈ state.installed, notice.revision ≤ installed.revision

/-- What is true of a reader by itself, if it once had installed a past revision. -/
structure ReaderTracks (generation : String) (past : Option ℕ)
    (state : SidebarInputsFeedState Value) (heard : List SidebarInputsChangedEvent)
    (failed : Bool) : Prop where
  forward : ∀ revision ∈ past, ∃ installed ∈ state.installed, revision ≤ installed.revision
  noticed : ∀ noted ∈ state.noticed, noted.generation = generation
  installed : ∀ installed ∈ state.installed, installed.generation = generation
  staged : ∀ staged ∈ state.staged, staged.generation = generation
  inFlight : ∀ id ∈ state.inFlight, id = state.lastRequestId
  idle : state.inFlight = none → state.staged = none ∧ state.noticed = none ∧
    (failed = false → ∀ notice ∈ heard, ∃ installed ∈ state.installed,
      notice.revision ≤ installed.revision)
  paging : ∀ staged ∈ state.staged, ∀ notice ∈ heard,
    Held state notice ∨ notice.revision ≤ staged.revision

/-- A read that was sent: without staged pages, the one in flight asks for no page. -/
structure Asks (state : SidebarInputsFeedState Value) (request : SidebarInputsFeedRequest) :
    Prop where
  earlier : request.id ≤ state.lastRequestId
  fresh : state.staged = none → state.inFlight = some request.id → request.params.pageToken = none

/-- A reply: without staged pages, the one to the read in flight is of a revision that leaves no
notice behind. -/
structure Answers (generation : String) (state : SidebarInputsFeedState Value)
    (heard : List SidebarInputsChangedEvent) (request : SidebarInputsFeedRequest)
    (result : SidebarInputsReadResult Value) : Prop where
  earlier : request.id ≤ state.lastRequestId
  current : state.staged = none → state.inFlight = some request.id → result.kind ≠ .reset →
    result.generation = generation ∧
      ∀ notice ∈ heard, Held state notice ∨ notice.revision ≤ result.revision

/-- A step of the reader, with what it keeps of the reads and replies on their way. -/
structure ReaderMoves (generation : String) (past : Option ℕ)
    (state : SidebarInputsFeedState Value) (heard : List SidebarInputsChangedEvent)
    (step : SidebarInputsFeedStep Value) (heard' : List SidebarInputsChangedEvent)
    (failed : Bool) : Prop where
  tracks : ReaderTracks generation past step.1 heard' failed
  asked : ∀ request ∈ step.2, Asks step.1 request
  asks : ∀ request, Asks state request → Asks step.1 request
  answers : ∀ request result, Answers generation state heard request result →
    Answers generation step.1 heard' request result

theorem moves_send {before : SidebarInputsFeedState Value} (same : before.lastRequestId =
      state.lastRequestId) (since : Option String) (cursor : Option ℕ)
    (token : Option FeedPageToken) (fresh : before.staged = none → token = none)
    (forward : ∀ revision ∈ past, ∃ installed ∈ before.installed, revision ≤ installed.revision)
    (noticed : ∀ noted ∈ before.noticed, noted.generation = generation)
    (installed : ∀ installed ∈ before.installed, installed.generation = generation)
    (staged : ∀ staged ∈ before.staged, staged.generation = generation)
    {heard' : List SidebarInputsChangedEvent}
    (paging : ∀ staged ∈ before.staged, ∀ notice ∈ heard',
      Held before notice ∨ notice.revision ≤ staged.revision) :
    ReaderMoves generation past state heard (before.send since cursor token) heard' failed where
  tracks := by
    refine ⟨forward, noticed, installed, staged, ?_, ?_, paging⟩
    · rintro id ⟨rfl⟩
      rfl
    · intro idle
      cases idle
  asked := by
    rintro request ⟨rfl⟩
    exact ⟨Nat.le_refl _, fun unstaged _ => fresh unstaged⟩
  asks := by
    intro request asks
    have earlier := asks.earlier
    refine ⟨?_, fun _ newest => ?_⟩
    · exact Nat.le_succ_of_le (same ▸ earlier)
    · have id : before.lastRequestId + 1 = request.id := Option.some.inj newest
      omega
  answers := by
    intro request result answers
    have earlier := answers.earlier
    refine ⟨?_, fun _ newest => ?_⟩
    · exact Nat.le_succ_of_le (same ▸ earlier)
    · have id : before.lastRequestId + 1 = request.id := Option.some.inj newest
      omega

theorem moves_read {before : SidebarInputsFeedState Value}
    (same : before.lastRequestId = state.lastRequestId)
    (forward : ∀ revision ∈ past, ∃ installed ∈ before.installed, revision ≤ installed.revision)
    (installed : ∀ installed ∈ before.installed, installed.generation = generation)
    (since : Option String) (cursor : Option ℕ) {heard' : List SidebarInputsChangedEvent} :
    ReaderMoves generation past state heard
      ({ before with staged := none, noticed := none }.send since cursor none) heard' failed := by
  apply moves_send
  · exact same
  · exact fun _ => rfl
  · exact forward
  · rintro noted ⟨⟩
  · exact installed
  · rintro staged ⟨⟩
  · rintro staged ⟨⟩

theorem le_of_coversNotice {revision : ℕ} {notice : SidebarInputsChangedEvent}
    (covers : coversNotice generation revision notice = true) : notice.revision ≤ revision :=
  of_decide_eq_true ((Bool.and_eq_true _ _).mp covers).2

theorem lt_of_not_coversNotice {revision : ℕ} {notice : SidebarInputsChangedEvent}
    (same : notice.generation = generation)
    (uncovered : coversNotice generation revision notice = false) : revision < notice.revision := by
  unfold coversNotice at uncovered
  rw [same, decide_eq_true rfl, Bool.true_and] at uncovered
  exact Nat.not_le.mp (of_decide_eq_false uncovered)

theorem of_covers {notice : SidebarInputsChangedEvent} (covers : state.covers notice = true) :
    (∃ staged ∈ state.staged, notice.revision ≤ staged.revision) ∨
      state.staged = none ∧ ∃ installed ∈ state.installed,
        notice.revision ≤ installed.revision := by
  unfold SidebarInputsFeedState.covers at covers
  cases isStaged : state.staged with
  | some staged =>
    rw [isStaged] at covers
    exact .inl ⟨staged, rfl, le_of_coversNotice covers⟩
  | none =>
    rw [isStaged] at covers
    obtain ⟨installed, isInstalled, within⟩ := (Option.any_eq_true _ _).mp covers
    exact .inr ⟨rfl, installed, isInstalled, le_of_coversNotice within⟩

theorem forall_mem_append_singleton {Item : Type*} {items : List Item} {last : Item}
    {test : Item → Prop} (earlier : ∀ item ∈ items, test item) (new : test last) :
    ∀ item ∈ items ++ [last], test item := by
  intro item member
  rcases List.mem_append.mp member with before | same
  · exact earlier item before
  · rw [List.mem_singleton.mp same]
    exact new

/-- A notice of what the reader has or is fetching changes nothing. -/
theorem ReaderTracks.known (tracks : ReaderTracks generation past state heard failed)
    {notice : SidebarInputsChangedEvent}
    (known : Held state notice ∨ ∃ staged ∈ state.staged, notice.revision ≤ staged.revision) :
    ReaderMoves generation past state heard (state, none) (heard ++ [notice]) failed where
  tracks := by
    refine ⟨tracks.forward, tracks.noticed, tracks.installed, tracks.staged, tracks.inFlight,
      fun idle => ?_, ?_⟩
    · obtain ⟨unstaged, unnoticed, covered⟩ := tracks.idle idle
      refine ⟨unstaged, unnoticed, fun well => ?_⟩
      apply forall_mem_append_singleton (covered well)
      rcases known with (⟨noted, isNoted, -⟩ | held) | ⟨staged, isStaged, -⟩
      · rw [unnoticed] at isNoted
        cases isNoted
      · exact held
      · rw [unstaged] at isStaged
        cases isStaged
    · intro staged isStaged
      apply forall_mem_append_singleton (tracks.paging staged isStaged)
      rcases known with held | ⟨other, isOther, within⟩
      · exact .inl held
      · rw [Option.mem_unique isStaged isOther]
        exact .inr within
  asked := by
    rintro request ⟨⟩
  asks := fun _ asks => asks
  answers := by
    intro request result answers
    refine ⟨answers.earlier, fun unstaged newest proper => ?_⟩
    obtain ⟨same, covered⟩ := answers.current unstaged newest proper
    refine ⟨same, forall_mem_append_singleton covered ?_⟩
    rcases known with held | ⟨staged, isStaged, -⟩
    · exact .inl held
    · rw [unstaged] at isStaged
      cases isStaged

theorem ReaderTracks.note (tracks : ReaderTracks generation past state heard failed)
    {notice : SidebarInputsChangedEvent} (same : notice.generation = generation)
    (newer : ∀ noted ∈ state.noticed, noted.revision ≤ notice.revision)
    (busy : state.inFlight ≠ none) :
    ReaderMoves generation past state heard ({ state with noticed := some notice }, none)
      (heard ++ [notice]) failed := by
  have still : ∀ other, Held state other → Held { state with noticed := some notice } other := by
    intro other held
    rcases held with ⟨noted, isNoted, within⟩ | held
    · exact .inl ⟨notice, rfl, Nat.le_trans within (newer noted isNoted)⟩
    · exact .inr held
  have new : Held { state with noticed := some notice } notice :=
    .inl ⟨notice, rfl, Nat.le_refl _⟩
  refine ⟨⟨tracks.forward, ?_, tracks.installed, tracks.staged, tracks.inFlight,
    fun idle => absurd idle busy, ?_⟩,
    by rintro request ⟨⟩, fun _ asks => ⟨asks.earlier, asks.fresh⟩, ?_⟩
  · rintro noted ⟨rfl⟩
    exact same
  · intro staged isStaged
    refine forall_mem_append_singleton (fun other member => ?_) (.inl new)
    exact (tracks.paging staged isStaged other member).imp_left (still other)
  · intro request result answers
    refine ⟨answers.earlier, fun unstaged newest proper => ?_⟩
    obtain ⟨same, covered⟩ := answers.current unstaged newest proper
    refine ⟨same, forall_mem_append_singleton (fun other member => ?_) (.inl new)⟩
    exact (covered other member).imp_left (still other)

theorem ReaderTracks.changed (tracks : ReaderTracks generation past state heard failed)
    {notice : SidebarInputsChangedEvent} (same : notice.generation = generation) :
    ReaderMoves generation past state heard (state.sidebarInputsChanged notice) (heard ++ [notice])
      (failed && (state.sidebarInputsChanged notice).2.isNone) := by
  unfold SidebarInputsFeedState.sidebarInputsChanged
  split
  case isTrue covered =>
    rw [Option.isNone_none, Bool.and_true]
    apply tracks.known
    rcases (Bool.or_eq_true _ _).mp covered with covers | noted
    · rcases of_covers covers with staged | ⟨-, installed⟩
      · exact .inr staged
      · exact .inl (.inr installed)
    · obtain ⟨noted, isNoted, within⟩ := (Option.any_eq_true _ _).mp noted
      exact .inl (.inl ⟨noted, isNoted, le_of_coversNotice within⟩)
  case isFalse uncovered =>
    split
    case isTrue => exact moves_read rfl tracks.forward tracks.installed _ _
    case isFalse busy =>
      rw [Option.isNone_none, Bool.and_true]
      refine tracks.note same (fun noted isNoted => ?_) busy
      obtain ⟨-, unnoted⟩ := Bool.or_eq_false_iff.mp (Bool.eq_false_iff.mpr uncovered)
      have older := (Option.any_eq_false _ _).mp unnoted noted isNoted
      rw [tracks.noticed noted isNoted] at older
      exact Nat.le_of_lt (lt_of_not_coversNotice same older)

theorem ReaderTracks.of_continues (tracks : ReaderTracks generation past state heard failed)
    {request : SidebarInputsFeedRequest} {result : SidebarInputsReadResult Value}
    (answers : Answers generation state heard request result)
    (newest : state.inFlight = some request.id) (proper : result.kind ≠ .reset)
    (continues : state.continues result = true) :
    result.generation = generation ∧
      ∀ notice ∈ heard, Held state notice ∨ notice.revision ≤ result.revision := by
  cases isStaged : state.staged with
  | none => exact answers.current isStaged newest proper
  | some staged =>
    unfold SidebarInputsFeedState.continues at continues
    rw [isStaged] at continues
    simp only [Bool.and_eq_true, decide_eq_true_eq] at continues
    obtain ⟨⟨⟨generation, revision⟩, -⟩, -⟩ := continues
    rw [← generation, ← revision]
    exact ⟨tracks.staged staged isStaged, tracks.paging staged isStaged⟩

theorem ReaderTracks.of_installed (tracks : ReaderTracks generation past state heard failed)
    {result : SidebarInputsReadResult Value} (same : result.generation = generation)
    {next : InstalledSidebarInputs Value}
    (installs : (if state.isStale (state.stage result) then state.installed
      else installBatch parser state.installed (state.stage result) result) = some next) :
    next.generation = generation ∧ result.revision ≤ next.revision ∧
      ∀ installed ∈ state.installed, installed.revision ≤ next.revision := by
  split at installs
  case isTrue stale =>
    obtain ⟨before, isBefore, older⟩ := (Option.any_eq_true _ _).mp stale
    rw [isBefore] at installs
    cases installs
    have newer := of_decide_eq_true ((Bool.and_eq_true _ _).mp older).2
    refine ⟨tracks.installed next isBefore, Nat.le_of_lt newer, fun installed isInstalled => ?_⟩
    rw [Option.mem_unique isInstalled isBefore]
  case isFalse fresh =>
    unfold installBatch at installs
    obtain ⟨domains, -, rfl⟩ := Option.map_eq_some_iff.mp installs
    refine ⟨same, Nat.le_refl _, fun installed isInstalled => ?_⟩
    have notOlder := (Option.any_eq_false _ _).mp (Bool.eq_false_iff.mpr fresh) installed isInstalled
    have both : installed.generation = result.generation :=
      (tracks.installed installed isInstalled).trans same.symm
    rw [show (state.stage result).generation = result.generation from rfl, both,
      decide_eq_true rfl, Bool.true_and] at notOlder
    exact Nat.not_lt.mp (of_decide_eq_false notOlder)

theorem ReaderTracks.finish (tracks : ReaderTracks generation past state heard failed)
    {result : SidebarInputsReadResult Value} (same : result.generation = generation)
    (bounds : ∀ notice ∈ heard, Held state notice ∨ notice.revision ≤ result.revision) :
    ReaderMoves generation past state heard (state.finish parser result) heard
      (failed && (state.finish parser result).2.isNone) := by
  unfold SidebarInputsFeedState.finish
  dsimp only
  split
  case h_1 => exact moves_read rfl tracks.forward tracks.installed _ _
  case h_2 next installs =>
    obtain ⟨kept, reached, forward⟩ := tracks.of_installed same installs
    have past : ∀ revision ∈ past, ∃ installed ∈ some next, revision ≤ installed.revision := by
      intro revision isPast
      obtain ⟨before, isBefore, within⟩ := tracks.forward revision isPast
      exact ⟨next, rfl, Nat.le_trans within (forward before isBefore)⟩
    split
    case isTrue =>
      apply moves_read
      · rfl
      · exact past
      · rintro installed ⟨rfl⟩
        exact kept
    case isFalse quiet =>
      have covered : ∀ notice ∈ heard, notice.revision ≤ next.revision := by
        intro notice member
        rcases bounds notice member with (⟨noted, isNoted, within⟩ | ⟨installed, isInstalled, within⟩)
          | within
        · have covers := (Option.any_eq_false _ _).mp (Bool.eq_false_iff.mpr quiet) noted isNoted
          have reads : next.covers noted = true := by simpa using covers
          exact Nat.le_trans within (le_of_coversNotice reads)
        · exact Nat.le_trans within (forward installed isInstalled)
        · exact Nat.le_trans within reached
      refine ⟨⟨past, ?_, ?_, ?_, ?_, fun _ => ⟨rfl, rfl, fun _ notice member => ?_⟩, ?_⟩, ?_, ?_, ?_⟩
      · rintro noted ⟨⟩
      · rintro installed ⟨rfl⟩
        exact kept
      · rintro staged ⟨⟩
      · rintro id ⟨⟩
      · exact ⟨next, rfl, covered notice member⟩
      · rintro staged ⟨⟩
      · rintro request ⟨⟩
      · exact fun request asks => ⟨asks.earlier, fun _ => by rintro ⟨⟩⟩
      · exact fun request result answers => ⟨answers.earlier, fun _ => by rintro ⟨⟩⟩

theorem ReaderTracks.replied (tracks : ReaderTracks generation past state heard failed)
    {request : SidebarInputsFeedRequest} {result : SidebarInputsReadResult Value}
    (answers : Answers generation state heard request result) :
    ReaderMoves generation past state heard (state.sidebarInputsReplied parser request.id result) heard
      (failed && (state.sidebarInputsReplied parser request.id result).2.isNone) := by
  unfold SidebarInputsFeedState.sidebarInputsReplied
  split
  case isTrue =>
    rw [Option.isNone_none, Bool.and_true]
    exact ⟨tracks, by rintro request ⟨⟩, fun _ asks => asks, fun _ _ answers => answers⟩
  case isFalse heardNewest =>
    have newest := not_not.mp heardNewest
    split
    case isTrue => exact moves_read rfl tracks.forward tracks.installed _ _
    case isFalse proper =>
      split
      case isTrue => exact moves_read rfl tracks.forward tracks.installed _ _
      case isFalse continued =>
        have continues : state.continues result = true := by simpa using continued
        obtain ⟨same, bounds⟩ := tracks.of_continues answers newest proper continues
        split
        case h_1 next _ =>
          apply moves_send
          · rfl
          · exact fun unstaged => by cases unstaged
          · exact tracks.forward
          · exact tracks.noticed
          · exact tracks.installed
          · rintro staged ⟨rfl⟩
            exact same
          · rintro staged ⟨rfl⟩ notice member
            exact bounds notice member
        case h_2 => exact tracks.finish same bounds

theorem ReaderTracks.readFailed (tracks : ReaderTracks generation past state heard failed)
    (request : SidebarInputsFeedRequest) :
    ReaderMoves generation past state heard (state.sidebarInputsReadFailed request.id, none) heard
      (failed || decide (state.inFlight = some request.id)) := by
  unfold SidebarInputsFeedState.sidebarInputsReadFailed
  split
  case isTrue newest =>
    refine ⟨⟨tracks.forward, ?_, tracks.installed, ?_, ?_, fun _ => ⟨rfl, rfl, fun well => ?_⟩, ?_⟩,
      ?_, ?_, ?_⟩
    · rintro noted ⟨⟩
    · rintro staged ⟨⟩
    · rintro id ⟨⟩
    · rw [decide_eq_true newest, Bool.or_true] at well
      cases well
    · rintro staged ⟨⟩
    · rintro request ⟨⟩
    · exact fun request asks => ⟨asks.earlier, fun _ => by rintro ⟨⟩⟩
    · exact fun request result answers => ⟨answers.earlier, fun _ => by rintro ⟨⟩⟩
  case isFalse other =>
    rw [decide_eq_false other, Bool.or_false]
    exact ⟨tracks, by rintro request ⟨⟩, fun _ asks => asks, fun _ _ answers => answers⟩

end Reader

/-! ## Runs of the network -/

namespace FeedNetwork

def revision (network : FeedNetwork parser) : ℕ :=
  network.feed.session.elim network.feed.lastRevision FeedSession.revision

/-- No notice is of a revision to come, and whatever is on its way keeps the reader current. -/
structure Tracks (generation : String) (past : Option ℕ) (network : FeedNetwork parser) :
    Prop where
  feed : network.feed.generation = generation
  session : ∀ session ∈ network.feed.session, session.Sound network.feed.generation
  notices : ∀ notice ∈ network.notices,
    notice.generation = network.feed.generation ∧ notice.revision ≤ network.revision
  heard : ∀ notice ∈ network.heard,
    notice.generation = network.feed.generation ∧ notice.revision ≤ network.revision
  reader : ReaderTracks network.feed.generation past network.state network.heard network.failed
  sent : ∀ request ∈ network.sent, Asks network.state request
  waiting : ∀ read ∈ network.waiting, Asks network.state read.request
  replies : ∀ entry ∈ network.replies, ∀ result ∈ entry.2,
    Answers network.feed.generation network.state network.heard entry.1 result

namespace Tracks

variable {network : FeedNetwork parser} {generation : String} {past : Option ℕ}

theorem start (generation : String) : (FeedNetwork.start generation : FeedNetwork parser).Tracks generation none where
  feed := rfl
  session := by rintro session ⟨⟩
  notices := by rintro notice ⟨⟩
  heard := by rintro notice ⟨⟩
  reader := by
    refine ⟨?_, ?_, ?_, ?_, ?_, fun _ => ⟨rfl, rfl, fun _ => ?_⟩, ?_⟩
    · rintro revision ⟨⟩
    · rintro noted ⟨⟩
    · rintro installed ⟨⟩
    · rintro staged ⟨⟩
    · rintro id ⟨⟩
    · rintro notice ⟨⟩
    · rintro staged ⟨⟩
  sent := by rintro request ⟨⟩
  waiting := by rintro read ⟨⟩
  replies := by rintro entry ⟨⟩

/-- What the feed publishes is not behind what it published before. -/
theorem publish (tracks : network.Tracks generation past) {feed : SidebarInputsFeed parser}
    (same : feed.generation = network.feed.generation)
    (sound : ∀ session ∈ feed.session, session.Sound network.feed.generation)
    (forward : network.revision ≤ feed.session.elim feed.lastRevision FeedSession.revision)
    {notices : List SidebarInputsChangedEvent}
    (told : ∀ notice ∈ notices, notice ∈ network.notices ∨
      notice.generation = network.feed.generation ∧
        notice.revision ≤ feed.session.elim feed.lastRevision FeedSession.revision)
    (ended : List ℕ) (history : ℕ → Option (FeedRevision parser)) :
    Tracks generation past { network with feed, notices, ended, history } where
  feed := same.trans tracks.feed
  session := by
    dsimp only
    rw [same]
    exact sound
  notices := by
    intro notice member
    dsimp only
    rw [same]
    rcases told notice member with earlier | new
    · obtain ⟨generation, within⟩ := tracks.notices notice earlier
      exact ⟨generation, Nat.le_trans within forward⟩
    · exact new
  heard := by
    intro notice member
    obtain ⟨generation, within⟩ := tracks.heard notice member
    dsimp only
    rw [same]
    exact ⟨generation, Nat.le_trans within forward⟩
  reader := by
    dsimp only
    rw [same]
    exact tracks.reader
  sent := tracks.sent
  waiting := tracks.waiting
  replies := by
    dsimp only
    rw [same]
    exact tracks.replies

theorem reply (tracks : network.Tracks generation past) {request : SidebarInputsFeedRequest}
    {page : Option (SidebarInputsReadResult Value)} (answers : ∀ result ∈ page,
      Answers network.feed.generation network.state network.heard request result) :
    (network.reply request page).Tracks generation past :=
  { tracks with replies := forall_mem_append_singleton tracks.replies answers }

theorem takeSent (tracks : network.Tracks generation past) (index : ℕ) :
    Tracks generation past { network with sent := network.sent.eraseIdx index } :=
  { tracks with sent := fun request member => tracks.sent request (List.mem_of_mem_eraseIdx member) }

theorem takeWaiting (tracks : network.Tracks generation past) (index : ℕ) :
    Tracks generation past { network with waiting := network.waiting.eraseIdx index } :=
  { tracks with
    waiting := fun read member => tracks.waiting read (List.mem_of_mem_eraseIdx member) }

theorem takeReply (tracks : network.Tracks generation past) (index : ℕ) :
    Tracks generation past { network with replies := network.replies.eraseIdx index } :=
  { tracks with
    replies := fun entry member => tracks.replies entry (List.mem_of_mem_eraseIdx member) }

theorem move (tracks : network.Tracks generation past) {step : SidebarInputsFeedStep Value}
    {heard : List SidebarInputsChangedEvent} {failed : Bool}
    (within : ∀ notice ∈ heard,
      notice.generation = network.feed.generation ∧ notice.revision ≤ network.revision)
    (moves : ReaderMoves network.feed.generation past network.state network.heard step heard
      failed) :
    Tracks generation past { network with
      state := step.1
      sent := network.sent ++ step.2.toList
      heard, failed } where
  feed := tracks.feed
  session := tracks.session
  notices := tracks.notices
  heard := within
  reader := moves.tracks
  sent := by
    intro request member
    rcases List.mem_append.mp member with earlier | new
    · exact moves.asks request (tracks.sent request earlier)
    · exact moves.asked request (Option.mem_toList.mp new)
  waiting := fun read member => moves.asks read.request (tracks.waiting read member)
  replies := fun entry member result isResult =>
    moves.answers entry.1 result (tracks.replies entry member result isResult)

theorem of_flush (session : FeedSession parser) (generation : String)
    (reads : DomainReads parser) :
    session.revision ≤ (session.flush generation reads).1.revision ∧
      ∀ event ∈ (session.flush generation reads).2, event.generation = generation ∧
        event.revision ≤ (session.flush generation reads).1.revision := by
  constructor
  · cases session.publishes_flush generation reads with
    | same _ revision _ => exact Nat.le_of_eq revision.symm
    | revised _ _ revision _ => omega
  · unfold FeedSession.flush
    dsimp only
    split
    · intro event member
      rw [List.mem_singleton.mp member]
      exact ⟨rfl, Nat.le_refl _⟩
    · rintro event ⟨⟩

theorem revision_of_live {session : FeedSession parser}
    (live : network.feed.session = some session) : network.revision = session.revision := by
  unfold FeedNetwork.revision
  rw [live]
  rfl

theorem advance (tracks : network.Tracks generation past) {session next : FeedSession parser}
    (live : network.feed.session = some session) (sound : next.Sound network.feed.generation)
    (forward : session.revision ≤ next.revision) {events : List SidebarInputsChangedEvent}
    (told : ∀ event ∈ events, event.generation = network.feed.generation ∧
      event.revision ≤ next.revision) (history : ℕ → Option (FeedRevision parser)) :
    Tracks generation past { network with
      feed := { network.feed with session := some next }
      notices := network.notices ++ events
      history } := by
  apply @publish _ _ network generation past tracks { network.feed with session := some next } rfl _ _
    (network.notices ++ events) _ network.ended history
  · rintro session ⟨rfl⟩
    exact sound
  · rw [revision_of_live live]
    exact forward
  · intro notice member
    rcases List.mem_append.mp member with earlier | new
    · exact .inl earlier
    · exact .inr (told notice new)

theorem quiet (tracks : network.Tracks generation past) {session next : FeedSession parser}
    (live : network.feed.session = some session) (sound : next.Sound network.feed.generation)
    (same : next.revision = session.revision) :
    Tracks generation past { network with feed := { network.feed with session := some next } } := by
  have advanced := @advance _ _ network generation past tracks session next live sound (Nat.le_of_eq same.symm) []
    (by rintro event ⟨⟩) network.history
  rw [List.append_nil] at advanced
  exact advanced

theorem become (tracks : network.Tracks generation past) (feed : SidebarInputsFeed parser)
    (same : feed.generation = network.feed.generation)
    (sound : ∀ session ∈ feed.session, session.Sound network.feed.generation)
    (forward : network.revision ≤ feed.session.elim feed.lastRevision FeedSession.revision)
    (ended : List ℕ) (history : ℕ → Option (FeedRevision parser)) :
    Tracks generation past { network with feed, ended, history } :=
  tracks.publish same sound forward (fun _ => .inl) ended history

theorem acquired (tracks : network.Tracks generation past) (subscriber : String) (domains : List Text)
    (distinct : domains.Nodup) : (network.acquired subscriber domains distinct).Tracks generation past := by
  unfold FeedNetwork.acquired SidebarInputsFeed.acquire
  by_cases known : subscriber ∈ network.feed.subscribers
  · simp only [if_pos known]
    cases network.feed.session <;> exact tracks
  · simp only [if_neg known]
    cases live : network.feed.session with
    | some session =>
      apply tracks.become { network.feed with
        subscribers := network.feed.subscribers ++ [subscriber], session := some session } rfl
      · rintro session ⟨rfl⟩
        exact tracks.session session live
      · exact Nat.le_of_eq (revision_of_live live)
    | none =>
      apply tracks.become { network.feed with
        subscribers := network.feed.subscribers ++ [subscriber]
        session := some (.create domains distinct (network.feed.lastRevision + 1)) } rfl
      · rintro session ⟨rfl⟩
        exact FeedSession.sound_create domains distinct _
      · unfold FeedNetwork.revision
        rw [live]
        exact Nat.le_succ _

theorem released (tracks : network.Tracks generation past) (subscriber : String) :
    (network.released subscriber).Tracks generation past := by
  unfold FeedNetwork.released SidebarInputsFeed.release
  by_cases known : subscriber ∈ network.feed.subscribers
  · simp only [if_pos known]
    cases live : network.feed.session with
    | none =>
      apply tracks.become { network.feed with
        subscribers := network.feed.subscribers.filter (· ≠ subscriber), session := none } rfl
      · rintro session ⟨⟩
      · unfold FeedNetwork.revision
        rw [live]
    | some session =>
      by_cases last : network.feed.subscribers.filter (· ≠ subscriber) = []
      · simp only [if_pos last]
        apply tracks.become ⟨network.feed.generation, session.revision,
          network.feed.subscribers.filter (· ≠ subscriber), none⟩ rfl
        · rintro session ⟨⟩
        · exact Nat.le_of_eq (revision_of_live live)
      · simp only [if_neg last]
        apply tracks.become { network.feed with
          subscribers := network.feed.subscribers.filter (· ≠ subscriber)
          session := some session } rfl
        · rintro session ⟨rfl⟩
          exact tracks.session session live
        · exact Nat.le_of_eq (revision_of_live live)
  · simp only [if_neg known]
    cases live : network.feed.session <;> exact tracks

theorem flushed (tracks : network.Tracks generation past) {session : FeedSession parser}
    (live : network.feed.session = some session) (reads : DomainReads parser) :
    (network.flushed session reads).Tracks generation past := by
  obtain ⟨forward, told⟩ := of_flush session network.feed.generation reads
  exact tracks.advance live ((tracks.session session live).flush reads) forward told _

theorem beginRead (tracks : network.Tracks generation past) {request : SidebarInputsFeedRequest}
    (asks : Asks network.state request) (now : ℕ) : (network.beginRead request now).Tracks generation past := by
  unfold FeedNetwork.beginRead
  split
  case h_1 => exact tracks.reply (by rintro result ⟨⟩)
  case h_2 session live =>
    split
    case h_1 token isToken =>
      have sound := (tracks.session session live).servePage token now
      refine (tracks.quiet live sound rfl).reply ?_
      rintro result ⟨rfl⟩
      refine ⟨asks.earlier, fun unstaged newest => ?_⟩
      have fresh := asks.fresh unstaged newest
      rw [isToken] at fresh
      cases fresh
    case h_2 =>
      exact { tracks with waiting := forall_mem_append_singleton tracks.waiting asks }

theorem serveRead (tracks : network.Tracks generation past) {read : WaitingRead}
    (asks : Asks network.state read.request) (reads : DomainReads parser) (now : ℕ) :
    (network.serveRead read reads now).Tracks generation past := by
  unfold FeedNetwork.serveRead
  split
  case h_1 =>
    refine tracks.reply ?_
    rintro result ⟨rfl⟩
    exact ⟨asks.earlier, fun _ _ proper => absurd rfl proper⟩
  case h_2 => exact tracks
  case h_3 session _ live =>
    obtain ⟨forward, told⟩ := of_flush session network.feed.generation reads
    obtain ⟨budget, served⟩ := FeedSession.served_serve (tracks.session session live)
      read.request.params reads now
    have reached : session.revision ≤
        (session.serve network.feed.generation read.request.params reads now).2.1.revision := by
      rw [served.revision]
      exact forward
    refine (tracks.advance live served.sound reached ?_ _).reply ?_
    · intro event member
      rw [served.revision]
      exact told event member
    · intro result isResult
      obtain ⟨changes, -, first, -⟩ := served.batch
      have isPage := isPage_of_mem (List.mem_of_head? (first.symm.trans isResult))
      refine ⟨asks.earlier, fun _ _ _ => ⟨isPage.generation, fun notice member => .inr ?_⟩⟩
      have within := (tracks.heard notice member).2
      rw [revision_of_live live] at within
      rw [isPage.revision]
      exact Nat.le_trans within forward

theorem step (tracks : network.Tracks generation past) {input : FeedInput parser} {after : FeedNetwork parser}
    (stepped : FeedStep network input after) : after.Tracks generation past := by
  unfold FeedStep FeedNetwork.step at stepped
  cases input with
  | acquire subscriber domains distinct =>
    cases stepped
    exact tracks.acquired subscriber domains distinct
  | release subscriber =>
    cases stepped
    exact tracks.released subscriber
  | invalidate name =>
    obtain ⟨session, live, rfl⟩ := Option.map_eq_some_iff.mp stepped
    have sound := tracks.session session live
    exact tracks.quiet live ⟨sound.ordered, sound.named, sound.pins⟩ rfl
  | flush reads =>
    obtain ⟨session, live, rfl⟩ := Option.map_eq_some_iff.mp stepped
    exact tracks.flushed live reads
  | begin index now =>
    obtain ⟨request, found, rfl⟩ := Option.map_eq_some_iff.mp stepped
    exact (tracks.takeSent index).beginRead (tracks.sent request (List.mem_of_getElem? found)) now
  | serve index reads now =>
    obtain ⟨read, found, rfl⟩ := Option.map_eq_some_iff.mp stepped
    exact (tracks.takeWaiting index).serveRead
      (tracks.waiting read (List.mem_of_getElem? found)) reads now
  | failSent index =>
    obtain ⟨request, found, rfl⟩ := Option.map_eq_some_iff.mp stepped
    exact (tracks.takeSent index).reply (by rintro result ⟨⟩)
  | failWaiting index =>
    obtain ⟨read, found, rfl⟩ := Option.map_eq_some_iff.mp stepped
    exact (tracks.takeWaiting index).reply (by rintro result ⟨⟩)
  | hearNotice =>
    dsimp only at stepped
    split at stepped
    case h_1 => cases stepped
    case h_2 notice rest isNotices =>
      cases stepped
      obtain ⟨same, within⟩ := tracks.notices notice (by rw [isNotices]; exact List.mem_cons_self)
      have later : Tracks generation past { network with notices := rest } :=
        { tracks with
          notices := fun other member => tracks.notices other (by
            rw [isNotices]
            exact List.mem_cons_of_mem _ member) }
      exact later.move (forall_mem_append_singleton tracks.heard ⟨same, within⟩)
        (tracks.reader.changed same)
  | hearReply index =>
    obtain ⟨⟨request, result⟩, found, rfl⟩ := Option.map_eq_some_iff.mp stepped
    have listed := List.mem_of_getElem? found
    cases result with
    | some result =>
      exact (tracks.takeReply index).move tracks.heard
        (tracks.reader.replied (tracks.replies _ listed result rfl))
    | none =>
      have moved := (tracks.takeReply index).move tracks.heard
        (tracks.reader.readFailed request)
      simpa using moved
  | refresh =>
    cases stepped
    exact tracks.move tracks.heard (moves_read rfl tracks.reader.forward tracks.reader.installed _ _)

theorem run {inputs : List (FeedInput parser)} {finish : FeedNetwork parser}
    (tracks : network.Tracks generation past) (ran : Run FeedStep network inputs finish) :
    finish.Tracks generation past :=
  ran.preserves (fun _ _ _ tracks stepped => tracks.step stepped) tracks

end Tracks

variable {generation : String} {before later : List (FeedInput parser)}
variable {network finish : FeedNetwork parser}

/-- However reads are delayed, superseded, failed or overtaken, a reader that waits for no reply
and whose last read did not fail has installed what every notice it received told of. -/
theorem reader_current_of_run (ran : Run FeedStep (FeedNetwork.start generation) before network)
    (idle : network.state.inFlight = none) (well : network.failed = false) :
    ∀ notice ∈ network.heard, ∃ installed ∈ network.state.installed,
      installed.covers notice = true := by
  have tracks := (Tracks.start generation).run ran
  obtain ⟨-, -, covered⟩ := tracks.reader.idle idle
  intro notice member
  obtain ⟨installed, isInstalled, within⟩ := covered well notice member
  refine ⟨installed, isInstalled, ?_⟩
  have same := (tracks.reader.installed installed isInstalled).trans
    (tracks.heard notice member).1.symm
  exact (Bool.and_eq_true _ _).mpr ⟨decide_eq_true same, decide_eq_true within⟩

/-- A digit is published and read, and its notice arrives behind the reply. -/
def digitInputs : List (FeedInput digitParser) :=
  [.acquire "phone" [unitsOf "tabs"] tabs_nodup, .flush (digitReads 0x31), .refresh, .begin 0 0,
    .serve 0 (digitReads 0x31) 0, .hearReply 0, .hearNotice]

theorem digit_reader_current : ∃ network : FeedNetwork digitParser,
    Run FeedStep (FeedNetwork.start "g") digitInputs network ∧ network.heard ≠ [] ∧
      ∀ notice ∈ network.heard, ∃ installed ∈ network.state.installed,
        installed.covers notice = true := by
  have ran : ∃ network : FeedNetwork digitParser,
      Run FeedStep (FeedNetwork.start "g") digitInputs network ∧ network.heard ≠ [] ∧
        network.state.inFlight = none ∧ network.failed = false :=
    ⟨_, Run.of_foldlM rfl, List.cons_ne_nil _ _, rfl, rfl⟩
  obtain ⟨network, ran, told, idle, well⟩ := ran
  exact ⟨network, ran, told, reader_current_of_run ran idle well⟩

/-- What a reader has installed is never replaced by an older revision. -/
theorem installed_forward_of_run
    (ran : Run FeedStep (FeedNetwork.start generation) before network)
    (went : Run FeedStep network later finish) :
    ∀ installed ∈ network.state.installed, ∃ last ∈ finish.state.installed,
      last.generation = installed.generation ∧ installed.revision ≤ last.revision := by
  intro installed isInstalled
  have reached := (Tracks.start generation).run ran
  have tracks : network.Tracks generation (some installed.revision) := by
    refine { reached with reader := { reached.reader with forward := ?_ } }
    rintro revision ⟨rfl⟩
    exact ⟨installed, isInstalled, Nat.le_refl _⟩
  have gone := tracks.run went
  obtain ⟨last, isLast, forward⟩ := gone.reader.forward installed.revision rfl
  refine ⟨last, isLast, ?_, forward⟩
  rw [gone.reader.installed last isLast, reached.reader.installed installed isInstalled, gone.feed,
    reached.feed]

theorem digit_installed_forward : ∃ network finish : FeedNetwork digitParser,
    Run FeedStep (FeedNetwork.start "g") digitInputs network ∧
    Run FeedStep network [.invalidate (unitsOf "tabs"), .refresh, .begin 0 1,
      .serve 0 (digitReads 0x32) 1, .hearReply 0] finish ∧
    ∃ installed, network.state.installed = some installed ∧
      ∃ last ∈ finish.state.installed, last.generation = installed.generation ∧
        installed.revision ≤ last.revision := by
  have ran : ∃ network finish : FeedNetwork digitParser,
      Run FeedStep (FeedNetwork.start "g") digitInputs network ∧
      Run FeedStep network [.invalidate (unitsOf "tabs"), .refresh, .begin 0 1,
        .serve 0 (digitReads 0x32) 1, .hearReply 0] finish ∧
      ∃ installed, network.state.installed = some installed :=
    ⟨_, _, Run.of_foldlM rfl, Run.of_foldlM rfl, _, rfl⟩
  obtain ⟨network, finish, ran, went, installed, held⟩ := ran
  exact ⟨network, finish, ran, went, installed, held, installed_forward_of_run ran went installed held⟩

end FeedNetwork

end OxeeUI.Sidebar
