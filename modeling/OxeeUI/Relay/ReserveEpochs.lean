import OxeeUI.Relay.ReserveMinting

/-!
# The epochs a director grants one host

A run of plans, of the offers they make and of all they wait for, between any updates of the
seat map and of the row floors.  Each booking is above what its plan read.  A plan does not read
the director's own bookings, nor any leaver but the last, so its epoch can meet one of those.
-/

namespace OxeeUI.Relay

open OxeeUI.Library Course

/-- What a stretch of code finds beside the memory: the clock, and the random draws. -/
structure Conditions where
  now : Int
  databaseBusy : Bool
  switchOpen : Bool
  draws : List ℚ

def Conditions.moment (conditions : Conditions) (memory : DirectorMemory) : Moment :=
  ⟨memory, conditions.now, conditions.databaseBusy, conditions.switchOpen⟩

def answersAtOnce (conditions : Conditions) :
    (question : DirectorQuestion) → DirectorMemory → List ℚ →
      Option (question.Answer × DirectorMemory × List ℚ)
  | .look, memory, draws => some (conditions.moment memory, memory, draws)
  | .random, memory, draws => some ((draws.head?.getD 0 : ℚ), memory, draws.tail)
  | .update change, memory, draws => some ((), change memory, draws)
  | .readRow .., _, _ => none
  | .reserve .., _, _ => none

/-- A running plan, or one of the offers a plan made. -/
inductive CallProgram
  | planning (course : Course (Except PlacementError ReservePlan))
  | placing (course : Course Placed)

structure DirectorCall where
  identity : Identity
  /-- Every epoch held for the host when its plan was called. -/
  held : List Int
  /-- The epochs the plan and its offer have read. -/
  visible : List Int
  program : CallProgram

/-- A booking a cell answered with `ok`. -/
structure GrantedBooking where
  identity : Identity
  cellId : String
  epoch : Int
  held : List Int
deriving DecidableEq

structure DirectorRun where
  memory : DirectorMemory
  calls : List DirectorCall
  booked : List GrantedBooking

inductive FeedUpdate
  | setCells (cellIds required : List String)
  | apply (cellId : String) (response : SeatFeedResponse) (now polledAt : Int)
  | markNoFeed (cellId : String) (now : Int) (runtimeIncarnation : Option String)
  | fail (cellId reason : String)

def ShadowSeatDirectory.update (directory : ShadowSeatDirectory) :
    FeedUpdate → ShadowSeatDirectory
  | .setCells cellIds required => directory.setCells cellIds required
  | .apply cellId response now polledAt => directory.apply cellId response now polledAt
  | .markNoFeed cellId now runtimeIncarnation =>
    directory.markNoFeed cellId now runtimeIncarnation
  | .fail cellId reason => directory.fail cellId reason

inductive DirectorEvent
  | plan (identity : Identity) (request : PlanRequest) (conditions : Conditions)
  | placeFresh (call : Nat) (conditions : Conditions)
  | regionReserve (call : Nat) (conditions : Conditions)
  | reserveSpill (call : Nat) (skipOwnRegion : Bool) (rowEpoch : Int) (conditions : Conditions)
  | rowRead (call : Nat) (row : Option (Option HostRow)) (conditions : Conditions)
  | cellAnswer (call : Nat) (answer : ReserveAttempt) (conditions : Conditions)
  | feed (update : FeedUpdate)
  | listCells (cells : List ListedCell)
  | raiseEpochFloor (identity : Identity) (epoch now : Int)

/-- The epochs held for a host: in the seats, the leavers of the last ten minutes and the
bookings of the map, in the row floors and in the director's own bookings. -/
def Moment.heldEpochs (moment : Moment) (identity : Identity) : List Int :=
  (moment.seatsNow identity).map (·.epoch) ++
    (moment.recentLeavers identity).map (·.epoch) ++
    ((moment.memory.directory.bookingOf identity).map (·.epoch)).toList ++
    ((moment.memory.rowFloors.get? identity.key).map (·.epoch)).toList ++
    ((moment.memory.ownBookings.get? identity.key).map (·.epoch)).toList

/-- What a call waits for: a row, or a cell's answer. -/
inductive Waiting
  | row (resume : Option (Option HostRow) → CallProgram)
  | cell (cell : ListedCell) (item : ReserveItem) (resume : ReserveAttempt → CallProgram)

namespace CallProgram

def waitingOf {Value : Type} (wrap : Course Value → CallProgram) : Course Value → Option Waiting
  | .ask (.readRow ..) next => some (.row fun row => wrap (next row))
  | .ask (.reserve cell item) next => some (.cell cell item fun answer => wrap (next answer))
  | _ => none

def waiting : CallProgram → Option Waiting
  | .planning course => waitingOf .planning course
  | .placing course => waitingOf .placing course

/-- What the plan leaves to the database lane, once it has ended. -/
def offer : CallProgram → Option DatabaseOffer
  | .planning (.pure (.ok (.database offer))) => some offer
  | _ => none

def advance (conditions : Conditions) (memory : DirectorMemory) :
    CallProgram → CallProgram × DirectorMemory
  | .planning course =>
    let (rest, memory) := course.advance (answersAtOnce conditions) memory conditions.draws
    (.planning rest, memory)
  | .placing course =>
    let (rest, memory) := course.advance (answersAtOnce conditions) memory conditions.draws
    (.placing rest, memory)

end CallProgram

namespace DirectorRun

def begin (run : DirectorRun) (conditions : Conditions) (call : DirectorCall) : DirectorRun :=
  let (program, memory) := call.program.advance conditions run.memory
  { run with
    memory := memory
    calls := run.calls ++ [{ call with program := program }] }

/-- A call goes on, and runs until it waits again. -/
def resume (run : DirectorRun) (index : Nat) (conditions : Conditions) (call : DirectorCall) :
    DirectorRun :=
  let (program, memory) := call.program.advance conditions run.memory
  { run with
    memory := memory
    calls := run.calls.set index { call with program := program } }

/-- Run an offer of an ended plan, with the epochs it reads beside the plan's. -/
def beginOffer (run : DirectorRun) (call : Nat) (conditions : Conditions) (reads : List Int)
    (course : DatabaseOffer → Option (Course Placed)) : DirectorRun :=
  match run.calls[call]? with
  | none => run
  | some planned =>
    match planned.program.offer.bind course with
    | none => run
    | some course =>
      run.begin conditions { planned with
        visible := planned.visible ++ reads
        program := .placing course }

/-- A cell's `ok` to a fresh booking grants its epoch; a sticky one restates its seat's. -/
def granted (call : DirectorCall) (cell : ListedCell) (item : ReserveItem)
    (answer : ReserveAttempt) : List GrantedBooking :=
  if answer.outcome = "ok" ∧ item.sticky = false then
    [⟨⟨item.userId, item.relayHostId⟩, cell.cellId, item.epoch, call.held⟩]
  else []

def step (settings : ReserveSettings) (run : DirectorRun) : DirectorEvent → DirectorRun
  | .plan identity request conditions =>
    let moment := conditions.moment run.memory
    run.begin conditions
      { identity := identity
        held := moment.heldEpochs identity
        visible := moment.knownEpochs identity
        program := .planning (plan settings identity request moment) }
  | .placeFresh call conditions => run.beginOffer call conditions [] (·.placeFresh)
  | .regionReserve call conditions => run.beginOffer call conditions [] (·.regionReserve)
  | .reserveSpill call skipOwnRegion rowEpoch conditions =>
    run.beginOffer call conditions [rowEpoch] fun offer =>
      offer.reserveSpill.map fun spill => spill skipOwnRegion rowEpoch
  | .rowRead index row conditions =>
    match run.calls[index]? with
    | none => run
    | some call =>
      match call.program.waiting with
      | some (.row resume) =>
        run.resume index conditions { call with
          visible := call.visible ++ (row.join.map HostRow.assignmentEpoch).toList
          program := resume row }
      | _ => run
  | .cellAnswer index answer conditions =>
    match run.calls[index]? with
    | none => run
    | some call =>
      match call.program.waiting with
      | some (.cell cell item resume) =>
        { run with booked := run.booked ++ granted call cell item answer }.resume index
          conditions { call with program := resume answer }
      | _ => run
  | .feed update =>
    { run with
      memory := { run.memory with directory := run.memory.directory.update update } }
  | .listCells cells => { run with memory := { run.memory with cells := cells } }
  | .raiseEpochFloor identity epoch now =>
    { run with memory := run.memory.raiseEpochFloor identity epoch now }

def new (memory : DirectorMemory) : DirectorRun := ⟨memory, [], []⟩

def after (settings : ReserveSettings) (memory : DirectorMemory) (events : List DirectorEvent) :
    DirectorRun :=
  events.foldl (step settings) (new memory)

/-! ## What is booked is above what was read -/

/-- What a call still does books above what it has read. -/
def CallMints (call : DirectorCall) : Prop :=
  match call.program with
  | .planning course => Minting call.identity call.visible (PlanMints call.identity) course
  | .placing course => Minting call.identity call.visible (fun _ _ => True) course

variable {settings : ReserveSettings} {run : DirectorRun} {call : DirectorCall}

theorem minting_advance {Value : Type} {identity : Identity} {visible : List Int}
    {post : List Int → Value → Prop} {course : Course Value}
    (mints : Minting identity visible post course) (conditions : Conditions)
    (memory : DirectorMemory) (draws : List ℚ) :
    Minting identity visible post
      (course.advance (answersAtOnce conditions) memory draws).1 := by
  refine Asking.Obeys.advance ?_ mints memory draws
  intro known question state hints answered answer atOnce
  cases question with
  | look => rfl
  | random => rfl
  | update change => rfl
  | readRow identity withinMs => cases atOnce
  | reserve cell item => cases atOnce

theorem CallMints.advance (mints : CallMints call) (conditions : Conditions)
    (memory : DirectorMemory) :
    CallMints { call with program := (call.program.advance conditions memory).1 } := by
  unfold CallMints at mints ⊢
  cases program : call.program with
  | planning course =>
    rw [program] at mints
    exact minting_advance mints conditions memory _
  | placing course =>
    rw [program] at mints
    exact minting_advance mints conditions memory _

theorem CallMints.offer {offer : DatabaseOffer} (mints : CallMints call)
    (offered : call.program.offer = some offer) :
    OffersMint call.identity call.visible offer := by
  unfold CallMints at mints
  unfold CallProgram.offer at offered
  split at offered
  case h_1 stored program =>
    obtain rfl := Option.some.inj offered
    rw [program] at mints
    exact mints
  case h_2 => cases offered

section Waits

variable {Value : Type} {identity : Identity} {visible : List Int}
variable {post : List Int → Value → Prop} {course : Course Value}
variable {wrap : Course Value → CallProgram}

theorem minting_rowRead {resume : Option (Option HostRow) → CallProgram}
    (mints : Minting identity visible post course)
    (waits : CallProgram.waitingOf wrap course = some (.row resume))
    (row : Option (Option HostRow)) :
    ∃ next, resume row = wrap next ∧
      Minting identity (visible ++ (row.join.map HostRow.assignmentEpoch).toList) post next := by
  unfold CallProgram.waitingOf at waits
  split at waits
  · obtain rfl := Waiting.row.inj (Option.some.inj waits)
    exact ⟨_, rfl, mints.2 row⟩
  · cases waits
  · cases waits

theorem minting_cellAnswer {cell : ListedCell} {item : ReserveItem}
    {resume : ReserveAttempt → CallProgram} (mints : Minting identity visible post course)
    (waits : CallProgram.waitingOf wrap course = some (.cell cell item resume)) :
    mayAsk identity visible (.reserve cell item) ∧
      ∀ answer, ∃ next, resume answer = wrap next ∧ Minting identity visible post next := by
  unfold CallProgram.waitingOf at waits
  split at waits
  · cases waits
  · obtain ⟨rfl, rfl, rfl⟩ := Waiting.cell.inj (Option.some.inj waits)
    exact ⟨mints.1, fun answer => ⟨_, rfl, mints.2 answer⟩⟩
  · cases waits

end Waits

theorem CallMints.rowRead {resume : Option (Option HostRow) → CallProgram}
    (mints : CallMints call) (waits : call.program.waiting = some (.row resume))
    (row : Option (Option HostRow)) :
    CallMints { call with
      visible := call.visible ++ (row.join.map HostRow.assignmentEpoch).toList
      program := resume row } := by
  unfold CallMints at mints ⊢
  cases program : call.program with
  | planning course =>
    rw [program] at mints waits
    obtain ⟨next, resumed, later⟩ := minting_rowRead mints waits row
    simpa only [resumed] using later
  | placing course =>
    rw [program] at mints waits
    obtain ⟨next, resumed, later⟩ := minting_rowRead mints waits row
    simpa only [resumed] using later

theorem CallMints.cellAnswer {cell : ListedCell} {item : ReserveItem}
    {resume : ReserveAttempt → CallProgram} (mints : CallMints call)
    (waits : call.program.waiting = some (.cell cell item resume)) :
    mayAsk call.identity call.visible (.reserve cell item) ∧
      ∀ answer, CallMints { call with program := resume answer } := by
  unfold CallMints at mints ⊢
  cases program : call.program with
  | planning course =>
    rw [program] at mints waits
    obtain ⟨asks, later⟩ := minting_cellAnswer mints waits
    refine ⟨asks, fun answer => ?_⟩
    obtain ⟨next, resumed, follows⟩ := later answer
    simpa only [resumed] using follows
  | placing course =>
    rw [program] at mints waits
    obtain ⟨asks, later⟩ := minting_cellAnswer mints waits
    refine ⟨asks, fun answer => ?_⟩
    obtain ⟨next, resumed, follows⟩ := later answer
    simpa only [resumed] using follows

/-! ## The run -/

/-- Every call of the run books above what it has read. -/
def Minting (run : DirectorRun) : Prop := ∀ call ∈ run.calls, CallMints call

theorem Minting.begin (mints : run.Minting) (conditions : Conditions)
    (starts : CallMints call) : (run.begin conditions call).Minting := by
  intro other member
  rcases List.mem_append.mp member with old | new
  · exact mints other old
  · rw [List.mem_singleton.mp new]
    exact starts.advance conditions run.memory

theorem Minting.resume {index : Nat} (mints : run.Minting) (conditions : Conditions)
    (goes : CallMints call) : (run.resume index conditions call).Minting := by
  intro other member
  rcases List.mem_or_eq_of_mem_set member with old | rfl
  · exact mints other old
  · exact goes.advance conditions run.memory

theorem Minting.beginOffer (mints : run.Minting) (index : Nat) (conditions : Conditions)
    {reads : List Int} {course : DatabaseOffer → Option (Course Placed)}
    (offers : ∀ identity visible offer placing, OffersMint identity visible offer →
      course offer = some placing → Quiet identity (visible ++ reads) placing) :
    (run.beginOffer index conditions reads course).Minting := by
  unfold DirectorRun.beginOffer
  split
  case h_1 => exact mints
  case h_2 planned found =>
    split
    case h_1 => exact mints
    case h_2 placing offered =>
      obtain ⟨offer, ended, chosen⟩ := Option.bind_eq_some_iff.mp offered
      have planMints := mints planned (List.mem_of_getElem? found)
      have quiet := offers _ _ _ _ (planMints.offer ended) chosen
      have starts : CallMints { planned with
          visible := planned.visible ++ reads
          program := .placing placing } := quiet.minting fun _ => trivial
      exact mints.begin conditions starts

theorem minting_step (mints : run.Minting) (event : DirectorEvent) :
    (step settings run event).Minting := by
  cases event with
  | plan identity request conditions =>
    exact mints.begin conditions (minting_plan settings identity request _)
  | placeFresh index conditions =>
    refine mints.beginOffer index conditions ?_
    intro identity visible offer placing minted chosen
    rw [List.append_nil]
    exact minted.placeFresh placing chosen
  | regionReserve index conditions =>
    refine mints.beginOffer index conditions ?_
    intro identity visible offer placing minted chosen
    rw [List.append_nil]
    exact minted.regionReserve placing chosen
  | reserveSpill index skipOwnRegion rowEpoch conditions =>
    refine mints.beginOffer index conditions ?_
    intro identity visible offer placing minted chosen
    obtain ⟨spill, offered, rfl⟩ := Option.map_eq_some_iff.mp chosen
    exact minted.reserveSpill spill offered skipOwnRegion rowEpoch
  | rowRead index row conditions =>
    simp only [step]
    split
    case h_1 => exact mints
    case h_2 call found =>
      split
      case h_1 resume waits =>
        exact mints.resume conditions
          ((mints call (List.mem_of_getElem? found)).rowRead waits row)
      case h_2 => exact mints
  | cellAnswer index answer conditions =>
    simp only [step]
    split
    case h_1 => exact mints
    case h_2 call found =>
      split
      case h_1 cell item resume waits =>
        have goes := ((mints call (List.mem_of_getElem? found)).cellAnswer waits).2 answer
        have same : DirectorRun.Minting
            { run with booked := run.booked ++ granted call cell item answer } := mints
        exact same.resume conditions goes
      case h_2 => exact mints
  | feed update => exact mints
  | listCells cells => exact mints
  | raiseEpochFloor identity epoch now => exact mints

/-! ## Epochs grow -/

def grantedTo (run : DirectorRun) (identity : Identity) : List Int :=
  (run.booked.filter fun booking => booking.identity = identity).map (·.epoch)

/-- Whether an answer grants a booking while an epoch that was held for its host when the plan was
called, or that was granted to it since, is above all the call has read. -/
def overlooks (run : DirectorRun) : DirectorEvent → Bool
  | .cellAnswer index answer _ =>
    match run.calls[index]? with
    | none => false
    | some call =>
      match call.program.waiting with
      | some (.cell _ item _) =>
        answer.outcome = "ok" && !item.sticky &&
          (call.held ++ run.grantedTo call.identity).any fun epoch =>
            0 < epoch && call.visible.all fun known => known < epoch
      | _ => false
  | _ => false

def heeds (settings : ReserveSettings) : DirectorRun → List DirectorEvent → Bool
  | _, [] => true
  | run, event :: rest => !run.overlooks event && heeds settings (run.step settings event) rest

/-- The bookings of a host are granted at ever higher epochs, each above all that was held for
the host when its plan was called. -/
structure EpochsGrow (run : DirectorRun) : Prop where
  increasing : run.booked.Pairwise fun earlier later =>
    earlier.identity = later.identity → earlier.epoch < later.epoch
  aboveHeld : ∀ booking ∈ run.booked, ∀ epoch ∈ booking.held, epoch < booking.epoch

theorem mem_grantedTo {booking : GrantedBooking} (member : booking ∈ run.booked) :
    booking.epoch ∈ run.grantedTo booking.identity :=
  List.mem_map.mpr ⟨booking, List.mem_filter.mpr ⟨member, decide_eq_true rfl⟩, rfl⟩

theorem lt_of_seen {visible epochs : List Int} {granted epoch : Int} (positive : 0 < granted)
    (above : ∀ known ∈ visible, known < granted)
    (seen : (epochs.any fun epoch => 0 < epoch && visible.all fun known => known < epoch) = false)
    (member : epoch ∈ epochs) : epoch < granted := by
  have here := List.any_eq_false.mp seen epoch member
  by_contra low
  rw [not_lt] at low
  refine here (Bool.and_eq_true_iff.mpr ⟨decide_eq_true (lt_of_lt_of_le positive low), ?_⟩)
  rw [List.all_eq_true]
  intro known read
  exact decide_eq_true (lt_of_lt_of_le (above known read) low)

theorem epochsGrow_step (mints : run.Minting) (grow : run.EpochsGrow) (event : DirectorEvent)
    (seen : run.overlooks event = false) : (step settings run event).EpochsGrow := by
  have same : ∀ next : DirectorRun, next.booked = run.booked → next.EpochsGrow := by
    intro next booked
    exact ⟨booked ▸ grow.increasing, booked ▸ grow.aboveHeld⟩
  cases event with
  | plan identity request conditions => exact same _ rfl
  | placeFresh index conditions =>
    refine same _ ?_
    simp only [step, beginOffer]
    split <;> [rfl; split <;> rfl]
  | regionReserve index conditions =>
    refine same _ ?_
    simp only [step, beginOffer]
    split <;> [rfl; split <;> rfl]
  | reserveSpill index skipOwnRegion rowEpoch conditions =>
    refine same _ ?_
    simp only [step, beginOffer]
    split <;> [rfl; split <;> rfl]
  | rowRead index row conditions =>
    refine same _ ?_
    simp only [step]
    split <;> [rfl; split <;> rfl]
  | cellAnswer index answer conditions =>
    simp only [step]
    split
    case h_1 => exact same _ rfl
    case h_2 call found =>
      split
      case h_2 => exact same _ rfl
      case h_1 cell item resume waits =>
        simp only [overlooks, found, waits] at seen
        have asks := ((mints call (List.mem_of_getElem? found)).cellAnswer waits).1
        by_cases grants : answer.outcome = "ok" ∧ item.sticky = false
        · obtain ⟨user, host, positive, above⟩ := asks grants.2
          rw [decide_eq_true grants.1, grants.2, Bool.not_false, Bool.true_and,
            Bool.true_and] at seen
          have named : (⟨item.userId, item.relayHostId⟩ : Identity) = call.identity := by
            rw [user, host]
          have booked : granted call cell item answer =
              [⟨call.identity, cell.cellId, item.epoch, call.held⟩] := by
            rw [granted, if_pos grants, named]
          constructor
          · show List.Pairwise _ (run.booked ++ granted call cell item answer)
            rw [booked, List.pairwise_append]
            refine ⟨grow.increasing, List.pairwise_singleton .., ?_⟩
            intro earlier old later new sameHost
            rw [List.mem_singleton.mp new] at sameHost ⊢
            refine lt_of_seen positive above seen (List.mem_append_right _ ?_)
            have granted := mem_grantedTo old
            rw [sameHost] at granted
            exact granted
          · show ∀ booking ∈ run.booked ++ granted call cell item answer, _
            rw [booked]
            intro booking member
            rcases List.mem_append.mp member with old | new
            · exact grow.aboveHeld booking old
            · rw [List.mem_singleton.mp new]
              intro epoch held
              exact lt_of_seen positive above seen (List.mem_append_left _ held)
        · refine same _ ?_
          show run.booked ++ granted call cell item answer = run.booked
          rw [granted, if_neg grants, List.append_nil]
  | feed update => exact same _ rfl
  | listCells cells => exact same _ rfl
  | raiseEpochFloor identity epoch now => exact same _ rfl

theorem epochsGrow_foldl (events : List DirectorEvent) (mints : run.Minting)
    (grow : run.EpochsGrow) (heeded : run.heeds settings events = true) :
    (events.foldl (step settings) run).EpochsGrow := by
  induction events generalizing run with
  | nil => exact grow
  | cons event rest ih =>
    obtain ⟨seen, later⟩ := Bool.and_eq_true_iff.mp heeded
    exact ih (minting_step mints event)
      (epochsGrow_step mints grow event (Bool.not_eq_true' _ ▸ seen)) later

theorem heeds_of_append {seen rest : List DirectorEvent}
    (heeded : run.heeds settings (seen ++ rest) = true) : run.heeds settings seen = true := by
  induction seen generalizing run with
  | nil => rfl
  | cons event seen ih =>
    obtain ⟨first, later⟩ := Bool.and_eq_true_iff.mp heeded
    exact Bool.and_eq_true_iff.mpr ⟨first, ih later⟩

/-- In a run where no answer grants a booking beside an epoch its call has not read, the epochs
granted to each host grow, and each is above all that was held for the host when its plan was
called. -/
theorem granted_epochs_grow (settings : ReserveSettings) (memory : DirectorMemory)
    (events : List DirectorEvent) (heeded : (new memory).heeds settings events = true)
    (seen : List DirectorEvent) (reached : seen <+: events) :
    (after settings memory seen).EpochsGrow := by
  obtain ⟨rest, rfl⟩ := reached
  have start : (new memory).EpochsGrow := ⟨List.Pairwise.nil, by rintro booking ⟨⟩⟩
  have none : (new memory).Minting := by rintro call ⟨⟩
  exact epochsGrow_foldl seen none start (heeds_of_append heeded)

section Runs

def placing : ReserveSettings := ⟨.on, 0⟩

def noHosts : DirectorMemory := ⟨.new, [], .empty, .empty, .new, none⟩

def host : Identity := ⟨"user", "host"⟩

def joins : PlanRequest := ⟨false, .usCentral1, false, false⟩

def clock (now : Int) : Conditions := ⟨now, false, false, []⟩

/-- The answer of an empty reserve cell with room. -/
def emptyReserveCell (cellId : String) : SeatFeedResponse where
  cellId := cellId
  incarnation := "process"
  seq := 0
  draining := some false
  counts := ⟨some 0, some 0, some 0, some 0, some 10⟩
  intake := some ⟨10, 20, 20⟩
  flagsApplied := none
  admitModeEffective := some "reserve"
  admitModeRaw := some "reserve"
  changes := none
  full := some []
  recentlyLeft := none

/-- Two empty cells, and a plan that is paced, for a new director has no intake yet. -/
def twoCells : List DirectorEvent :=
  [.listCells [⟨"a", "url-a", .usCentral1, some true⟩, ⟨"b", "url-b", .usCentral1, some true⟩],
    .feed (.setCells ["a", "b"] ["a", "b"]),
    .feed (.apply "a" (emptyReserveCell "a") 0 0),
    .feed (.apply "b" (emptyReserveCell "b") 0 0),
    .plan host joins (clock 0), .rowRead 0 (some none) (clock 0)]

/-- A plan of a host that has no row, booked by the cell it asks. -/
def booksNewHost (call : Nat) (now : Int) : List DirectorEvent :=
  [.plan host joins (clock now), .rowRead call (some none) (clock now),
    .cellAnswer call ⟨"ok", none⟩ (clock now)]

/-- A second plan before the feed reports the first one's booking grants its epoch again. -/
theorem unreported_booking_granted_again :
    ¬ (after placing noHosts
        (twoCells ++ booksNewHost 1 1000 ++ booksNewHost 2 1100)).EpochsGrow := by
  have booked : (after placing noHosts
      (twoCells ++ booksNewHost 1 1000 ++ booksNewHost 2 1100)).booked =
        [⟨host, "a", 1, []⟩, ⟨host, "b", 1, [1]⟩] := by
    decide +kernel
  intro grow
  have increasing := grow.increasing
  rw [booked] at increasing
  simp at increasing

/-- The feed reports the first booking, and the host is planned again. -/
def reportedThenBooked : List DirectorEvent :=
  [.feed (.apply "a" { emptyReserveCell "a" with
      seq := 1
      full := none
      changes := some [⟨1, "reserve", "user", "host", 1, 0, none, none, none, 1000⟩] } 1050 1050),
    .plan host joins (clock 1100), .cellAnswer 2 ⟨"ok", none⟩ (clock 1100)]

theorem reported_booking_outranked :
    (after placing noHosts
        (twoCells ++ booksNewHost 1 1000 ++ reportedThenBooked)).EpochsGrow ∧
      (after placing noHosts
        (twoCells ++ booksNewHost 1 1000 ++ reportedThenBooked)).booked.map (·.epoch) = [1, 2] :=
  ⟨granted_epochs_grow placing noHosts _ (by decide +kernel) _ (List.prefix_refl _),
    by decide +kernel⟩

end Runs

end DirectorRun

end OxeeUI.Relay
