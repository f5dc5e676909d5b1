import OxeeUI.Relay.ReserveAssignment

/-!
# What a plan books

Every booking a plan or one of its offers asks for is at an epoch above all that the plan read:
its known epochs, the row it read and the row epoch a spill is given.
-/

namespace OxeeUI.Relay

open OxeeUI.Library Course

/-- A booking is asked for the plan's host, above every visible epoch. -/
def mayAsk (identity : Identity) (visible : List Int) : DirectorQuestion → Prop
  | .reserve _ item => item.sticky = false →
      item.userId = identity.userId ∧ item.relayHostId = identity.relayHostId ∧
        0 < item.epoch ∧ ∀ epoch ∈ visible, epoch < item.epoch
  | _ => True

def learnEpochs (visible : List Int) :
    (question : DirectorQuestion) → question.Answer → List Int
  | .readRow .., answer => visible ++ (answer.join.map HostRow.assignmentEpoch).toList
  | .look, _ | .random, _ | .update _, _ | .reserve .., _ => visible

/-- A course asks only for bookings above what is visible to it. -/
def Minting {Value : Type} (identity : Identity) (visible : List Int)
    (post : List Int → Value → Prop) (course : Course Value) : Prop :=
  course.Obeys (mayAsk identity) learnEpochs visible post

def Quiet {Value : Type} (identity : Identity) (visible : List Int) (course : Course Value) :
    Prop :=
  Minting identity visible (fun known _ => known = visible) course

variable {Value Result : Type} {identity : Identity} {visible : List Int}
variable {post : List Int → Value → Prop}

theorem minting_pure {value : Value} (holds : post visible value) :
    Minting identity visible post (Pure.pure value) := holds

theorem quiet_pure (value : Value) : Quiet identity visible (Pure.pure value) := rfl

theorem minting_look {next : Moment → Course Value}
    (follows : ∀ moment, Minting identity visible post (next moment)) :
    Minting identity visible post (look >>= next) := ⟨trivial, follows⟩

theorem minting_random {next : ℚ → Course Value}
    (follows : ∀ draw, Minting identity visible post (next draw)) :
    Minting identity visible post (Course.random >>= next) := ⟨trivial, follows⟩

theorem minting_update {change : DirectorMemory → DirectorMemory} {next : Unit → Course Value}
    (follows : Minting identity visible post (next ())) :
    Minting identity visible post (update change >>= next) := ⟨trivial, fun _ => follows⟩

theorem minting_reserve {cell : ListedCell} {item : ReserveItem}
    {next : ReserveAttempt → Course Value} (asks : mayAsk identity visible (.reserve cell item))
    (follows : ∀ answer, Minting identity visible post (next answer)) :
    Minting identity visible post (reserve cell item >>= next) := ⟨asks, follows⟩

theorem minting_readRow {host : Identity} {withinMs : Option Int}
    {next : Option (Option HostRow) → Course Value}
    (follows : ∀ answer, Minting identity
      (visible ++ (answer.join.map HostRow.assignmentEpoch).toList) post (next answer)) :
    Minting identity visible post (readRow host withinMs >>= next) := ⟨trivial, follows⟩

theorem Quiet.then {course : Course Value} {next : Value → Course Result}
    {last : List Int → Result → Prop} (quiet : Quiet identity visible course)
    (follows : ∀ value, Minting identity visible last (next value)) :
    Minting identity visible last (course >>= next) := by
  refine Asking.Obeys.bind (quiet.mono ?_)
  rintro known value rfl
  exact follows value

theorem Quiet.minting {course : Course Value} (quiet : Quiet identity visible course)
    (holds : ∀ value, post visible value) : Minting identity visible post course := by
  refine quiet.mono ?_
  rintro known value rfl
  exact holds value

/-! ## Placing -/

theorem quiet_pick (cells : List PlacementCell) (region : RelayRegion) (tried : List String) :
    Quiet identity visible (pick cells region tried) := by
  refine minting_look fun moment => minting_update ?_
  split
  · exact quiet_pure _
  · refine minting_random fun first => ?_
    split
    · exact quiet_pure _
    · exact minting_random fun second => quiet_pure _

theorem quiet_fallback (cells : List PlacementCell) (region : RelayRegion) (regionFull : Bool)
    (refused : List String) :
    Quiet identity visible (fallback cells region regionFull refused) :=
  minting_look fun _ => minting_update (quiet_pure _)

def Mintable (visible : List Int) (epoch : Int) : Prop :=
  0 < epoch ∧ ∀ known ∈ visible, known < epoch

theorem Mintable.nextEpoch {epoch : Int} (mintable : Mintable visible epoch)
    (answer : ReserveAttempt) : Mintable visible (nextEpoch epoch answer) := by
  have raised : epoch ≤ Relay.nextEpoch epoch answer := by
    unfold Relay.nextEpoch
    split
    · cases answer.epoch with
      | none => exact le_refl _
      | some seated => exact le_max_left ..
    · exact le_refl _
  exact ⟨lt_of_lt_of_le mintable.1 raised,
    fun known member => lt_of_lt_of_le (mintable.2 known member) raised⟩

theorem quiet_reserveOn {epoch : Int} (mintable : Mintable visible epoch) (cellId : String) :
    Quiet identity visible (reserveOn identity cellId epoch) := by
  refine minting_look fun moment => ?_
  split
  · exact quiet_pure _
  · exact ⟨fun _ => ⟨rfl, rfl, mintable⟩, fun _ => rfl⟩

theorem quiet_placeTries (cells : List PlacementCell) (region : RelayRegion) (regionFull : Bool)
    (tries : Nat) (tried refused : List String) {epoch : Int}
    (mintable : Mintable visible epoch) :
    Quiet identity visible
      (placeTries identity cells region regionFull tries tried refused epoch) := by
  induction tries generalizing tried refused epoch with
  | zero => exact quiet_fallback cells region regionFull refused
  | succ left ih =>
    refine (quiet_pick cells region tried).then fun picked => ?_
    cases picked with
    | none => exact quiet_fallback cells region regionFull refused
    | some cell =>
      refine minting_look fun counted => minting_update ?_
      refine (quiet_reserveOn mintable cell.cellId).then fun answer => ?_
      split
      case isTrue => exact quiet_pure _
      case isFalse =>
        refine minting_look fun refusal => ?_
        split
        all_goals exact minting_update (ih _ _ (mintable.nextEpoch answer))

theorem quiet_placeInRegions (placements : List PlacementCell) {epochFloor : Int}
    (covers : ∀ known ∈ visible, known ≤ epochFloor) (regionFull : Bool)
    (drainedFrom : Option String) (regions : List RelayRegion) :
    Quiet identity visible
      (placeInRegions identity placements epochFloor regionFull drainedFrom regions) := by
  have mintable : Mintable visible (mintEpoch [epochFloor]) :=
    ⟨mintEpoch_pos _, fun known member =>
      lt_of_le_of_lt (covers known member) (lt_mintEpoch List.mem_cons_self)⟩
  induction regions with
  | nil => exact quiet_pure _
  | cons target rest ih =>
    have placing : Quiet identity visible
        (place identity placements target (mintEpoch [epochFloor]) regionFull) :=
      quiet_placeTries placements target regionFull reserveMaxTries [] [] mintable
    refine placing.then fun result => ?_
    cases result with
    | placed cellId epoch =>
      refine minting_update (minting_look fun moment => ?_)
      split
      all_goals exact quiet_pure _
    | pace retryAfterSeconds => exact quiet_pure _
    | database =>
      show Minting _ _ _ (if _ then _ else _)
      split
      · exact quiet_pure _
      · exact ih

theorem quiet_placeFresh (region : RelayRegion) {epochFloor : Int}
    (covers : ∀ known ∈ visible, known ≤ epochFloor) (regionFull : Bool)
    (drainedFrom : Option String) :
    Quiet identity visible (placeFresh identity region epochFloor regionFull drainedFrom) := by
  refine minting_look fun moment => ?_
  split
  · exact quiet_placeInRegions _ covers _ _ _
  · refine minting_random fun draw => ?_
    split
    · exact quiet_pure _
    · exact quiet_placeInRegions _ covers _ _ _

theorem quiet_dryRun (region : RelayRegion) : Quiet identity visible (dryRun region) :=
  minting_look fun _ => (quiet_pick _ _ _).then fun _ => quiet_pure _

/-! ## Offers -/

theorem quiet_regionReserve {region : RelayRegion} {epochFloor now : Int}
    {drainedFrom : Option String} {moment : Moment} {course : Course Placed}
    (covers : ∀ known ∈ visible, known ≤ epochFloor)
    (offered : regionReserve identity region epochFloor now drainedFrom moment = some course) :
    Quiet identity visible course := by
  unfold regionReserve at offered
  split at offered
  case isTrue =>
    obtain rfl := Option.some.inj offered
    exact quiet_placeFresh region covers true drainedFrom
  case isFalse => cases offered

theorem quiet_spillTo (region : RelayRegion) {floor : Int}
    (covers : ∀ known ∈ visible, known ≤ floor) (now : Int) (skipOwnRegion : Bool)
    (drainedFrom : Option String) (targets : List RelayRegion) (paced : Option (Int × Bool)) :
    Quiet identity visible
      (spillTo identity region floor now skipOwnRegion drainedFrom targets paced) := by
  induction targets generalizing paced with
  | nil =>
    cases paced with
    | none => exact quiet_pure _
    | some pace => exact quiet_pure _
  | cons target rest ih =>
    unfold spillTo
    refine minting_look fun moment => ?_
    split
    · exact ih paced
    · refine (quiet_placeFresh target covers true drainedFrom).then fun placed => ?_
      rcases placed with failure | assignment
      · cases failure with
        | paced retryAfterSeconds drained => exact ih _
        | cellUnlisted => exact quiet_pure _
      · cases assignment with
        | none => exact ih paced
        | some assignment => exact quiet_pure _

theorem quiet_reserveSpill (region : RelayRegion) {epochFloor : Int}
    (covers : ∀ known ∈ visible, known ≤ epochFloor) (drainedFrom : Option String)
    (skipOwnRegion : Bool) (rowEpoch : Int) :
    Quiet identity (visible ++ [rowEpoch])
      (reserveSpill identity region epochFloor drainedFrom skipOwnRegion rowEpoch) := by
  refine minting_look fun moment => quiet_spillTo region ?_ _ _ _ _ _
  intro known member
  rcases List.mem_append.mp member with seen | row
  · exact le_trans (covers known seen) (le_max_left ..)
  · rw [List.mem_singleton.mp row]
    exact le_max_right ..

/-- The offers of a plan book above what the plan read. -/
structure OffersMint (identity : Identity) (visible : List Int) (offer : DatabaseOffer) :
    Prop where
  placeFresh : ∀ course, offer.placeFresh = some course → Quiet identity visible course
  regionReserve : ∀ course, offer.regionReserve = some course → Quiet identity visible course
  reserveSpill : ∀ spill, offer.reserveSpill = some spill → ∀ skipOwnRegion rowEpoch,
    Quiet identity (visible ++ [rowEpoch]) (spill skipOwnRegion rowEpoch)

theorem offersMint_none : OffersMint identity visible .none where
  placeFresh := by rintro course ⟨⟩
  regionReserve := by rintro course ⟨⟩
  reserveSpill := by rintro spill ⟨⟩

/-- The offers of a plan's result, where it leaves the host to the database. -/
def PlanMints (identity : Identity) (visible : List Int) :
    Except PlacementError ReservePlan → Prop
  | .ok (.database offer) => OffersMint identity visible offer
  | _ => True

/-! ## Plans -/

theorem quiet_stickyFromMemory (now : Int) (candidates : List StickyCandidate) :
    Quiet identity visible (stickyFromMemory identity now candidates) := by
  induction candidates with
  | nil => exact quiet_pure _
  | cons candidate rest ih =>
    refine minting_look fun moment => ?_
    split
    · exact ih
    · split
      · refine minting_reserve (fun fresh => ?_) fun answer => ?_
        · cases fresh
        · split
          · exact quiet_pure _
          · exact ih
      · exact quiet_pure _

theorem quiet_rehome (region : RelayRegion) (seats : List Nat) (left : Option RecentlyLeftSeat)
    {epochFloor : Int} (covers : ∀ known ∈ visible, known ≤ epochFloor) (rowFloor now : Int) :
    Quiet identity visible (rehome identity region seats left epochFloor rowFloor now) := by
  refine minting_look fun moment => ?_
  split
  · exact quiet_pure _
  · split
    · exact quiet_pure _
    · dsimp only
      split
      · exact quiet_pure _
      · split
        · exact quiet_pure _
        · refine minting_update (minting_update ?_)
          split
          · exact quiet_pure _
          · refine (quiet_placeFresh region covers true none).then fun placed => ?_
            rcases placed with failure | assignment
            · cases failure with
              | paced retryAfterSeconds drained => exact minting_update (quiet_pure _)
              | cellUnlisted => exact quiet_pure _
            · cases assignment with
              | none => exact minting_update (quiet_pure _)
              | some assignment => exact minting_update (quiet_pure _)

theorem le_epochFloorOf {known : List Int} {epoch : Int} (member : epoch ∈ known) :
    epoch ≤ epochFloorOf known := by
  cases known with
  | nil => cases member
  | cons first rest =>
    rcases List.mem_cons.mp member with rfl | later
    · exact le_foldl_max rest _
    · exact mem_le_foldl_max later _

variable {facts : PlanFacts} {row : Option HostRow} {lastCellId : Option String}

theorem planMints_correction (moment : Moment) :
    PlanMints facts.identity visible (.ok (planCorrection facts visible moment)) := by
  have covers : ∀ known ∈ visible, known ≤ epochFloorOf visible := fun _ => le_epochFloorOf
  unfold planCorrection
  split
  · exact offersMint_none
  · split
    · refine ⟨by rintro course ⟨⟩, by rintro course ⟨⟩, ?_⟩
      rintro spill ⟨⟩ skipOwnRegion rowEpoch
      exact quiet_reserveSpill _ covers _ skipOwnRegion rowEpoch
    · refine ⟨by rintro course ⟨⟩, fun course => quiet_regionReserve covers, ?_⟩
      rintro spill ⟨⟩ skipOwnRegion rowEpoch
      exact quiet_reserveSpill _ covers _ skipOwnRegion rowEpoch

theorem offersMint_freshOffer (moment : Moment) :
    OffersMint facts.identity visible (freshOffer facts visible moment) := by
  have covers : ∀ known ∈ visible, known ≤ epochFloorOf visible := fun _ => le_epochFloorOf
  refine ⟨?_, fun course => quiet_regionReserve covers, ?_⟩
  · rintro course ⟨⟩
    exact quiet_placeFresh _ covers _ _
  · intro spill offered skipOwnRegion rowEpoch
    simp only [freshOffer, Option.ite_none_left_eq_some, Option.some.injEq] at offered
    obtain ⟨-, rfl⟩ := offered
    exact quiet_reserveSpill _ covers _ skipOwnRegion rowEpoch

theorem minting_planFresh :
    Minting facts.identity visible (PlanMints facts.identity)
      (planFresh facts visible row lastCellId) := by
  have covers : ∀ known ∈ visible, known ≤ epochFloorOf visible := fun _ => le_epochFloorOf
  refine minting_look fun moment => ?_
  have offers : OffersMint facts.identity visible (freshOffer facts visible moment) :=
    offersMint_freshOffer moment
  split
  · exact minting_pure offers
  · refine (quiet_placeFresh _ covers _ _).then fun placed => ?_
    rcases placed with failure | assignment
    · exact minting_pure trivial
    · cases assignment with
      | none =>
        refine minting_pure (show OffersMint _ _ _ from
          ⟨?_, offers.regionReserve, offers.reserveSpill⟩)
        rintro course ⟨⟩
      | some assignment => exact minting_pure trivial

theorem minting_planFromMap :
    Minting facts.identity visible (PlanMints facts.identity)
      (planFromMap facts visible row lastCellId) := by
  refine minting_look fun moment => ?_
  dsimp only
  split
  · exact minting_pure trivial
  · split
    · refine minting_pure (show OffersMint _ _ _ from ⟨?_, ?_, ?_⟩)
      all_goals rintro course ⟨⟩
    · split
      · refine (quiet_stickyFromMemory _ _).then fun sticky => ?_
        cases sticky with
        | none => exact minting_planFresh
        | some assignment => exact minting_pure trivial
      · exact minting_planFresh

theorem minting_planInPlace :
    Minting facts.identity visible (PlanMints facts.identity)
      (planInPlace facts visible row) := by
  unfold planInPlace
  split
  · exact minting_look fun moment => minting_pure (planMints_correction moment)
  · exact minting_planFromMap

variable (facts) in
theorem minting_planKnowing :
    Minting facts.identity visible (PlanMints facts.identity) (planKnowing facts visible row) := by
  have covers : ∀ known ∈ visible, known ≤ epochFloorOf visible := fun _ => le_epochFloorOf
  unfold planKnowing
  split
  · refine (quiet_rehome _ _ _ covers _ _).then fun rehomed => ?_
    rcases rehomed with failure | assignment
    · exact minting_pure trivial
    · cases assignment with
      | some assignment => exact minting_pure trivial
      | none => exact minting_planInPlace
  · exact minting_planInPlace

variable (facts) in
theorem minting_planRead (answer : Option (Option HostRow)) :
    Minting facts.identity (visible ++ (answer.join.map HostRow.assignmentEpoch).toList)
      (PlanMints facts.identity) (planRead facts visible answer) := by
  cases answer with
  | none =>
    simp only [Option.join_none, Option.map_none, Option.toList_none, List.append_nil]
    show Minting _ _ _ (if _ then _ else _)
    split
    · exact minting_pure trivial
    · exact minting_planKnowing facts
  | some row => exact minting_planKnowing facts

theorem minting_plan (settings : ReserveSettings) (identity : Identity) (request : PlanRequest)
    (moment : Moment) :
    Minting identity (moment.knownEpochs identity) (PlanMints identity)
      (plan settings identity request moment) := by
  unfold plan
  split
  · exact minting_pure offersMint_none
  · split
    · exact minting_pure offersMint_none
    · refine minting_pure (show OffersMint _ _ _ from ⟨?_, ?_, ?_⟩)
      · rintro course ⟨⟩
        exact quiet_dryRun _
      all_goals rintro course ⟨⟩
  · unfold planOn
    split
    · exact minting_pure offersMint_none
    · refine minting_update ?_
      dsimp only
      split
      · exact minting_readRow fun answer =>
          minting_planRead (moment.planFacts identity settings request) answer
      · exact minting_planKnowing (moment.planFacts identity settings request)

end OxeeUI.Relay
