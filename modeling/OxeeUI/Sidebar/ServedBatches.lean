import OxeeUI.Sidebar.FeedBatches

/-!
# Served batches

A session pins what it serves, so that every page of a batch carries one revision whole.
-/

namespace OxeeUI.Sidebar

open Library

variable {Value : Type*} {parser : JsonParser Value} {name key : Text} {generation : String}

/-! ## Pins -/

namespace FeedPins

variable {pins : FeedPins Value} {batch other : BatchKey} {pin : Pin Value} {now : ℕ}

theorem of_get?_live (found : (live pins batch now).2.get? other = some pin) :
    ∃ old, pins.get? other = some old ∧ old.pages = pin.pages := by
  unfold live at found
  cases isPin : pins.get? batch with
  | none =>
    rw [isPin] at found
    exact ⟨pin, found, rfl⟩
  | some old =>
    rw [isPin] at found
    dsimp only at found
    split at found
    · exact ⟨pin, found, rfl⟩
    · rw [JsMap.get?_set] at found
      split at found
      case isTrue same =>
        cases found
        exact ⟨old, same ▸ isPin, rfl⟩
      case isFalse => exact ⟨pin, found, rfl⟩

theorem of_live_some (found : (live pins batch now).1 = some pin) :
    (live pins batch now).2.get? batch = some pin ∧ pin.expiresAt = now + feedPinIdleMs := by
  unfold live at found ⊢
  cases isPin : pins.get? batch with
  | none =>
    rw [isPin] at found
    cases found
  | some old =>
    rw [isPin] at found
    dsimp only at found ⊢
    split at found
    case isTrue => cases found
    case isFalse alive =>
      rw [if_neg alive]
      cases found
      exact ⟨JsMap.get?_set_self _ _ _, rfl⟩

theorem of_get?_evict {keys : List BatchKey} {total : ℕ}
    (found : (evict keys total pins).get? other = some pin) : pins.get? other = some pin := by
  induction keys generalizing total pins with
  | nil => exact found
  | cons first keys ih =>
    unfold evict at found
    split at found
    · exact found
    · have kept := ih found
      rw [JsMap.get?_delete] at kept
      split at kept
      · cases kept
      · exact kept

theorem of_get?_add {pages : List (SidebarInputsReadResult Value)} {bytes : ℕ}
    (found : (add pins batch pages bytes now).get? other = some pin) :
    (other = batch ∧ pin.pages = pages) ∨ pins.get? other = some pin := by
  unfold add at found
  dsimp only at found
  rw [JsMap.get?_set] at found
  split at found
  case isTrue same =>
    cases found
    exact .inl ⟨same, rfl⟩
  case isFalse =>
    have kept := of_get?_evict found
    rw [JsMap.get?_filter] at kept
    exact .inr (Option.filter_eq_some_iff.mp kept).1

theorem get?_add_self (pages : List (SidebarInputsReadResult Value)) (bytes : ℕ) :
    (add pins batch pages bytes now).get? batch = some ⟨pages, bytes, now + feedPinIdleMs⟩ :=
  JsMap.get?_set_self _ _ _

end FeedPins

/-! ## Batches of a session -/

namespace FeedSession

variable {session next : FeedSession parser}

/-- The changes a batch is laid out from: all that is published, or what changed since. -/
def Carries (session : FeedSession parser) (cursor : Option ℕ)
    (changes : List (FeedChange parser)) : Prop :=
  cursor.elim
    ((changes.map FeedChange.id).Nodup ∧ ∀ name key,
      overlay changes none name key = (session.publishedAt name key).map FeedEntity.value)
    fun since => changes = session.log.since since

theorem Carries.congr {cursor : Option ℕ} {changes : List (FeedChange parser)}
    (carries : session.Carries cursor changes) (log : next.log = session.log)
    (published : ∀ name key, next.publishedAt name key = session.publishedAt name key) :
    next.Carries cursor changes := by
  cases cursor with
  | none =>
    refine ⟨carries.1, fun name key => ?_⟩
    rw [published]
    exact carries.2 name key
  | some since =>
    refine Eq.trans (carries : changes = session.log.since since) ?_
    rw [log]

def PinsCarry (generation : String) (session : FeedSession parser) : Prop :=
  ∀ batch pin, session.pins.get? batch = some pin → batch.revision ≤ session.revision ∧
    (batch.revision = session.revision → ∃ changes, session.Carries batch.cursor changes ∧
      pin.pages = batchReplies generation batch (paginateFeedChanges changes batch.budget))

structure Sound (generation : String) (session : FeedSession parser) : Prop where
  ordered : session.log.Ordered session.revision
  named : ∀ name, name ∉ session.domains → ∀ key, session.publishedAt name key = none
  pins : session.PinsCarry generation

theorem sound_create (domains : List Text) (distinct : domains.Nodup) (revision : ℕ) :
    (create domains distinct revision : FeedSession parser).Sound generation where
  ordered := .create revision
  named := fun _ _ _ => rfl
  pins := by
    intro batch pin found
    cases found

theorem publishedAt_foldl_flushDomain {reads : DomainReads parser} {domains : List Text}
    (absent : name ∉ domains) (state : FeedSession parser × FeedRevisionChanges parser)
    (key : Text) :
    (domains.foldl (flushDomain reads) state).1.publishedAt name key =
      state.1.publishedAt name key := by
  induction domains generalizing state with
  | nil => rfl
  | cons domain domains ih =>
    obtain ⟨different, later⟩ := not_or.mp (mt List.mem_cons.mpr absent)
    rw [List.foldl_cons, ih later, publishedAt_flushDomain state different]

theorem flush_frame (session : FeedSession parser) (generation : String)
    (reads : DomainReads parser) :
    (session.flush generation reads).1.domains = session.domains ∧
      (session.flush generation reads).1.pins = session.pins := by
  obtain ⟨frame, -⟩ := publishDue_spec session reads
  unfold flush
  dsimp only
  split <;> exact ⟨frame.domains, frame.pins⟩

theorem publishedAt_flush (session : FeedSession parser) (generation : String)
    (reads : DomainReads parser) (absent : name ∉ session.domains) (key : Text) :
    (session.flush generation reads).1.publishedAt name key = session.publishedAt name key := by
  have notDue : name ∉ session.due := fun member => absent (List.mem_filter.mp member).1
  have kept := @publishedAt_foldl_flushDomain _ parser name reads session.due notDue
    ({ session with dirty := [] }, .empty) key
  unfold flush
  dsimp only
  split <;> exact kept

theorem Sound.flush (sound : session.Sound generation) (reads : DomainReads parser) :
    (session.flush generation reads).1.Sound generation := by
  obtain ⟨domains, pins⟩ := flush_frame session generation reads
  have published := publishes_flush session generation reads
  refine ⟨((Continues.refl sound.ordered).publishes published).ordered, ?_, ?_⟩
  · intro name absent key
    rw [domains] at absent
    rw [publishedAt_flush session generation reads absent]
    exact sound.named name absent key
  · intro batch pin found
    rw [pins] at found
    obtain ⟨within, carries⟩ := sound.pins batch pin found
    cases published with
    | same log revision published =>
      rw [revision]
      refine ⟨within, fun current => ?_⟩
      obtain ⟨changes, carried, pages⟩ := carries current
      exact ⟨changes, carried.congr log published, pages⟩
    | revised changes log revision published =>
      rw [revision]
      exact ⟨Nat.le_succ_of_le within, fun current => by omega⟩

/-- Everything that is published, each entity once. -/
theorem carries_everything (named : ∀ name, name ∉ session.domains → ∀ key,
    session.publishedAt name key = none) : session.Carries none session.everything := by
  have distinct : (session.everything.map FeedChange.id).Nodup := by
    have ids : session.everything.map FeedChange.id = session.domains.flatMap fun name =>
        (session.publishedIn name).entries.map fun entry => (name, entry.1) := by
      unfold everything
      rw [List.map_flatMap]
      refine List.flatMap_congr fun name _ => ?_
      rw [List.map_map]
      rfl
    rw [ids]
    apply @nodup_flatMap_ids _ _ _ id
    rw [List.map_id]
    exact session.distinct
  refine ⟨distinct, fun name key => ?_⟩
  cases found : session.publishedAt name key with
  | none =>
    apply overlay_of_not_mem
    rintro change member ⟨rfl, rfl⟩
    unfold everything at member
    obtain ⟨domain, -, inner⟩ := List.mem_flatMap.mp member
    obtain ⟨entry, stored, rfl⟩ := List.mem_map.mp inner
    have shown := JsMap.get?_eq_some_iff.mpr stored
    unfold publishedAt at found
    rw [found] at shown
    cases shown
  | some entity =>
    have listed : name ∈ session.domains := by
      by_contra absent
      rw [named name absent key] at found
      cases found
    have member : (⟨name, key, some entity⟩ : FeedChange parser) ∈ session.everything := by
      unfold everything
      exact List.mem_flatMap.mpr ⟨name, listed, List.mem_map.mpr
        ⟨(key, entity), JsMap.get?_eq_some_iff.mp found, rfl⟩⟩
    exact overlay_of_mem distinct member ⟨rfl, rfl⟩ none

theorem Sound.of_pins (sound : session.Sound generation) {pins : FeedPins Value}
    (carries : ({ session with pins } : FeedSession parser).PinsCarry generation) :
    ({ session with pins } : FeedSession parser).Sound generation :=
  ⟨sound.ordered, sound.named, carries⟩

theorem PinsCarry.of_old (carry : session.PinsCarry generation) {batch : BatchKey}
    {pin old : Pin Value} (found : session.pins.get? batch = some old)
    (same : old.pages = pin.pages) :
    batch.revision ≤ session.revision ∧
      (batch.revision = session.revision → ∃ changes, session.Carries batch.cursor changes ∧
        pin.pages = batchReplies generation batch (paginateFeedChanges changes batch.budget)) := by
  rw [← same]
  exact carry batch old found

/-- The pages of a batch are its reply and what is pinned for later reads. -/
structure Served (generation : String) (session next : FeedSession parser) (cursor : Option ℕ)
    (budget now : ℕ) (reply : Option (SidebarInputsReadResult Value)) : Prop where
  sound : next.Sound generation
  published : next.published = session.published
  revision : next.revision = session.revision
  batch : ∃ changes, session.Carries cursor changes ∧
    reply = (batchReplies generation ⟨cursor, session.revision, budget⟩
      (paginateFeedChanges changes budget)).head? ∧
    (1 < (paginateFeedChanges changes budget).length →
      ∃ pin, next.pins.get? ⟨cursor, session.revision, budget⟩ = some pin ∧
        pin.expiresAt = now + feedPinIdleMs ∧
        pin.pages = batchReplies generation ⟨cursor, session.revision, budget⟩
          (paginateFeedChanges changes budget))

theorem served_batch (sound : session.Sound generation) {cursor : Option ℕ} {budget : ℕ}
    {changes : List (FeedChange parser)} (carries : session.Carries cursor changes) (now : ℕ) :
    Served generation session (session.batch generation cursor budget now changes).2 cursor budget
      now (session.batch generation cursor budget now changes).1 := by
  have lives : ∀ batch pin,
      (FeedPins.live session.pins ⟨cursor, session.revision, budget⟩ now).2.get? batch = some pin →
      batch.revision ≤ session.revision ∧
        (batch.revision = session.revision → ∃ changes, session.Carries batch.cursor changes ∧
          pin.pages = batchReplies generation batch (paginateFeedChanges changes batch.budget)) := by
    intro batch pin found
    obtain ⟨old, isOld, same⟩ := FeedPins.of_get?_live found
    exact sound.pins.of_old isOld same
  unfold batch FeedPins.find
  dsimp only
  cases isPin : (FeedPins.live session.pins ⟨cursor, session.revision, budget⟩ now).1 with
  | some pin =>
    obtain ⟨held, expires⟩ := FeedPins.of_live_some isPin
    obtain ⟨-, carried⟩ := lives _ pin held
    obtain ⟨laid, carries, pages⟩ := carried rfl
    refine ⟨sound.of_pins lives, rfl, rfl, laid, carries, ?_,
      fun _ => ⟨pin, held, expires, pages⟩⟩
    exact congrArg List.head? pages
  | none =>
    refine ⟨sound.of_pins ?_, rfl, rfl, changes, carries, rfl, ?_⟩
    · intro batch pin found
      dsimp only at found
      split at found
      · rcases FeedPins.of_get?_add found with ⟨rfl, pages⟩ | old
        · exact ⟨Nat.le_refl _, fun _ => ⟨changes, carries, pages⟩⟩
        · exact lives batch pin old
      · exact lives batch pin found
    · intro several
      have pinned : 1 < (batchReplies generation ⟨cursor, session.revision, budget⟩
          (paginateFeedChanges changes budget)).length := by
        unfold batchReplies
        rw [List.length_mapIdx]
        exact several
      simp only [Option.map_none, if_pos pinned]
      exact ⟨_, FeedPins.get?_add_self _ _, rfl, rfl⟩

theorem Sound.servePage (sound : session.Sound generation) (token : FeedPageToken) (now : ℕ) :
    (session.servePage generation token now).2.Sound generation := by
  apply sound.of_pins
  intro batch pin found
  obtain ⟨old, isOld, same⟩ := FeedPins.of_get?_live found
  exact sound.pins.of_old isOld same

theorem carries_served (sound : session.Sound generation) (cursor : Option ℕ) :
    session.Carries cursor (cursor.elim session.everything session.log.since) := by
  cases cursor with
  | none => exact carries_everything sound.named
  | some since => rfl

theorem served_serve (sound : session.Sound generation) (params : SidebarInputsReadParams)
    (reads : DomainReads parser) (now : ℕ) :
    ∃ budget, Served generation (session.flush generation reads).1
      (session.serve generation params reads now).2.1
      ((session.flush generation reads).1.deltaCursor generation params) budget now
      (session.serve generation params reads now).1 :=
  ⟨_, served_batch (sound.flush reads) (carries_served (sound.flush reads) _) now⟩

end FeedSession

/-! ## Pages of a batch -/

def BatchKey.kind (batch : BatchKey) : ReplyKind :=
  if batch.cursor = none then .snapshot else .delta

structure IsPage (generation : String) (batch : BatchKey) (page : SidebarInputsReadResult Value) :
    Prop where
  generation : page.generation = generation
  revision : page.revision = batch.revision
  kind : page.kind = batch.kind
  since : page.since = batch.cursor

theorem isPage_of_mem {batch : BatchKey} {bodies : List (FeedPageBody Value)}
    {page : SidebarInputsReadResult Value} (member : page ∈ batchReplies generation batch bodies) :
    IsPage generation batch page := by
  unfold batchReplies at member
  obtain ⟨index, inside, rfl⟩ := List.mem_mapIdx.mp member
  exact ⟨rfl, rfl, rfl, rfl⟩

end OxeeUI.Sidebar
