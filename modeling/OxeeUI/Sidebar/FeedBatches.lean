import OxeeUI.Library.Run
import OxeeUI.Sidebar.FeedRejoin

/-!
# What a batch brings its reader

While the log covers a cursor, its changes since then turn what was published at the cursor
into what is published now, and so do the batches that are served from it.
-/

namespace OxeeUI.Sidebar

open Library

variable {Value : Type*} {parser : JsonParser Value} {name key : Text}

/-! ## One revision -/

def FeedSession.publishedAt (session : FeedSession parser) (name key : Text) :
    Option (FeedEntity parser) :=
  (session.publishedIn name).get? key

/-- What a revision says of an entity: its new form, its removal, or nothing. -/
def changeAt (changes : FeedRevisionChanges parser) (name key : Text) :
    Option (Option (FeedEntity parser)) :=
  (changes.get? name).bind fun changed => changed.get? key

section Publishing

/-- What a read entity becomes, and what its revision says of it. -/
def republished (before : Option (FeedEntity parser)) (json : JsonText parser) :
    Option (FeedEntity parser) × Option (Option (FeedEntity parser)) :=
  match before with
  | none => (some (feedEntityFromJson json), some (some (feedEntityFromJson json)))
  | some kept =>
    if kept.json = json.text then (some kept, none)
    else (some (feedEntityFromJson json), some (some (feedEntityFromJson json)))

theorem publishEntity_own (before : PublishedDomain parser)
    (state : PublishedDomain parser × JsMap Text (Option (FeedEntity parser)))
    (json : JsonText parser) :
    ((publishEntity before state (key, json)).1.get? key,
      (publishEntity before state (key, json)).2.get? key) =
      ((republished (before.get? key) json).1,
        (republished (before.get? key) json).2.or (state.2.get? key)) := by
  unfold publishEntity republished
  dsimp only
  cases before.get? key with
  | none =>
    simp only [JsMap.get?_set_self]
    rfl
  | some kept =>
    dsimp only
    split
    · simp only [JsMap.get?_set_self, Option.none_or]
    · simp only [JsMap.get?_set_self]
      rfl

theorem publishEntity_other (before : PublishedDomain parser)
    (state : PublishedDomain parser × JsMap Text (Option (FeedEntity parser)))
    {entry : Text × JsonText parser} (other : entry.1 ≠ key) :
    (publishEntity before state entry).1.get? key = state.1.get? key ∧
      (publishEntity before state entry).2.get? key = state.2.get? key := by
  unfold publishEntity
  dsimp only
  cases before.get? entry.1 with
  | none =>
    exact ⟨JsMap.get?_set_of_ne _ _ (Ne.symm other), JsMap.get?_set_of_ne _ _ (Ne.symm other)⟩
  | some kept =>
    dsimp only
    split
    · exact ⟨JsMap.get?_set_of_ne _ _ (Ne.symm other), rfl⟩
    · exact ⟨JsMap.get?_set_of_ne _ _ (Ne.symm other), JsMap.get?_set_of_ne _ _ (Ne.symm other)⟩

theorem foldl_publishEntity (before : PublishedDomain parser)
    (read : JsMap Text (JsonText parser)) (key : Text) :
    ((read.entries.foldl (publishEntity before) (.empty, .empty)).1.get? key,
      (read.entries.foldl (publishEntity before) (.empty, .empty)).2.get? key) =
      (read.get? key).elim (none, none) (republished (before.get? key)) := by
  have seen := @JsMap.foldl_entries_at _ _ _ _ _ (publishEntity before)
    (fun state => (state.1.get? key, state.2.get? key))
    (fun json seen => ((republished (before.get? key) json).1,
      (republished (before.get? key) json).2.or seen.2)) key
    (fun state json => publishEntity_own before state json)
    (fun state entry other => Prod.ext (publishEntity_other before state other).1
      (publishEntity_other before state other).2) read (.empty, .empty)
  refine seen.trans ?_
  cases read.get? key with
  | none => rfl
  | some json => simp

theorem get?_foldl_removed (after : PublishedDomain parser) (keys : List Text)
    (changed : JsMap Text (Option (FeedEntity parser))) (key : Text) :
    (keys.foldl (fun changed key => if after.has key then changed else changed.set key none)
      changed).get? key =
      if key ∈ keys ∧ after.get? key = none then some none else changed.get? key := by
  induction keys generalizing changed with
  | nil => simp
  | cons first keys ih =>
    rw [List.foldl_cons, ih]
    by_cases here : key = first
    · subst here
      cases found : after.get? key <;> simp [JsMap.has, found]
    · by_cases held : after.has first = true
      · simp [held, here]
      · simp [held, here]

theorem get?_publishDomain (before : PublishedDomain parser)
    (read : JsMap Text (JsonText parser)) (key : Text) :
    (publishDomain before read).1.get? key =
      ((publishDomain before read).2.get? key).getD (before.get? key) := by
  obtain ⟨after, changed⟩ := Prod.mk.inj (foldl_publishEntity before read key)
  unfold publishDomain
  dsimp only
  rw [get?_foldl_removed, after, changed]
  cases read.get? key with
  | none =>
    by_cases held : key ∈ before.keys
    · simp [held]
    · simp [held, JsMap.get?_eq_none_iff.mpr held]
  | some json =>
    unfold republished
    cases before.get? key with
    | none => simp
    | some kept =>
      by_cases same : kept.json = json.text
      · simp [same]
      · simp [same]

end Publishing

/-! ## One flush -/

section Flush

variable {reads : DomainReads parser}

/-- Nothing but what is published, and what is due, changes. -/
structure FeedSession.SameFrame (session next : FeedSession parser) : Prop where
  domains : next.domains = session.domains
  log : next.log = session.log
  pins : next.pins = session.pins
  revision : next.revision = session.revision

theorem FeedSession.SameFrame.trans {session next last : FeedSession parser}
    (first : session.SameFrame next) (second : next.SameFrame last) : session.SameFrame last :=
  ⟨second.domains.trans first.domains, second.log.trans first.log, second.pins.trans first.pins,
    second.revision.trans first.revision⟩

theorem publishedAt_set (session : FeedSession parser) (domain : Text)
    (entities : PublishedDomain parser) :
    FeedSession.publishedAt
      { session with published := session.published.set domain entities } name key =
      if name = domain then entities.get? key else session.publishedAt name key := by
  unfold FeedSession.publishedAt FeedSession.publishedIn
  dsimp only
  rw [JsMap.get?_set]
  split <;> rfl

theorem changeAt_set (changes : FeedRevisionChanges parser) (domain : Text)
    (changed : JsMap Text (Option (FeedEntity parser))) :
    changeAt (changes.set domain changed) name key =
      if name = domain then changed.get? key else changeAt changes name key := by
  unfold changeAt
  rw [JsMap.get?_set]
  split <;> rfl

theorem sameFrame_flushDomain (state : FeedSession parser × FeedRevisionChanges parser)
    (domain : Text) : state.1.SameFrame (FeedSession.flushDomain reads state domain).1 := by
  unfold FeedSession.flushDomain
  split <;> exact ⟨rfl, rfl, rfl, rfl⟩

theorem get?_nil_of_size {Item : Type*} {map : JsMap Text Item} (none : ¬0 < map.size) :
    map.get? key = .none := by
  have nothing : map.entries = [] := List.length_eq_zero_iff.mp (Nat.eq_zero_of_not_pos none)
  unfold JsMap.get?
  rw [nothing]
  rfl

theorem flushDomain_own (state : FeedSession parser × FeedRevisionChanges parser) (domain : Text)
    (silent : state.2.get? domain = none) :
    (FeedSession.flushDomain reads state domain).1.publishedAt domain key =
      (changeAt (FeedSession.flushDomain reads state domain).2 domain key).getD
        (state.1.publishedAt domain key) := by
  have unsaid : changeAt state.2 domain key = none := by
    unfold changeAt
    rw [silent]
    rfl
  unfold FeedSession.flushDomain
  cases readDomain (reads domain) with
  | none =>
    dsimp only
    rw [unsaid]
    rfl
  | some read =>
    dsimp only
    rw [publishedAt_set, if_pos rfl, get?_publishDomain]
    split
    case isTrue => rw [changeAt_set, if_pos rfl]; rfl
    case isFalse nothing =>
      rw [get?_nil_of_size nothing, unsaid]
      rfl

theorem publishedAt_flushDomain (state : FeedSession parser × FeedRevisionChanges parser)
    {domain : Text} (other : name ≠ domain) (key : Text) :
    (FeedSession.flushDomain reads state domain).1.publishedAt name key =
      state.1.publishedAt name key := by
  unfold FeedSession.flushDomain
  cases readDomain (reads domain) with
  | none => rfl
  | some read =>
    dsimp only
    rw [publishedAt_set, if_neg other]

theorem get?_flushDomain (state : FeedSession parser × FeedRevisionChanges parser)
    {domain : Text} (other : name ≠ domain) :
    (FeedSession.flushDomain reads state domain).2.get? name = state.2.get? name := by
  unfold FeedSession.flushDomain
  cases readDomain (reads domain) with
  | none => rfl
  | some read =>
    dsimp only
    split
    · exact JsMap.get?_set_of_ne _ _ other
    · rfl

/-- What is published after the due domains is what was before with what the revision says. -/
theorem foldl_flushDomain {before : Text → Text → Option (FeedEntity parser)}
    {domains : List Text} (distinct : domains.Nodup)
    (state : FeedSession parser × FeedRevisionChanges parser)
    (silent : ∀ domain ∈ domains, state.2.get? domain = none)
    (held : ∀ name key, state.1.publishedAt name key =
      (changeAt state.2 name key).getD (before name key)) :
    state.1.SameFrame (domains.foldl (FeedSession.flushDomain reads) state).1 ∧
    ∀ name key, (domains.foldl (FeedSession.flushDomain reads) state).1.publishedAt name key =
      (changeAt (domains.foldl (FeedSession.flushDomain reads) state).2 name key).getD
        (before name key) := by
  induction domains generalizing state with
  | nil => exact ⟨⟨rfl, rfl, rfl, rfl⟩, held⟩
  | cons domain domains ih =>
    obtain ⟨new, distinct⟩ := List.nodup_cons.mp distinct
    obtain ⟨unsaid, later⟩ := List.forall_mem_cons.mp silent
    have stillSilent : ∀ other ∈ domains,
        (FeedSession.flushDomain reads state domain).2.get? other = none := by
      intro other member
      rw [get?_flushDomain state fun same : other = domain => new (same ▸ member)]
      exact later other member
    have stillHeld : ∀ name key,
        (FeedSession.flushDomain reads state domain).1.publishedAt name key =
          (changeAt (FeedSession.flushDomain reads state domain).2 name key).getD
            (before name key) := by
      intro name key
      by_cases here : name = domain
      · subst here
        have none : changeAt state.2 name key = none := by
          unfold changeAt
          rw [unsaid]
          rfl
        rw [flushDomain_own state name unsaid, held, none]
        rfl
      · rw [publishedAt_flushDomain state here, held]
        unfold changeAt
        rw [get?_flushDomain state here]
    obtain ⟨frame, holds⟩ := ih distinct _ stillSilent stillHeld
    exact ⟨(sameFrame_flushDomain state domain).trans frame, holds⟩

theorem publishDue_spec (session : FeedSession parser) (reads : DomainReads parser) :
    session.SameFrame (session.publishDue reads).1 ∧
    ∀ name key, (session.publishDue reads).1.publishedAt name key =
      (changeAt (session.publishDue reads).2 name key).getD (session.publishedAt name key) := by
  obtain ⟨frame, holds⟩ := @foldl_flushDomain _ parser reads session.publishedAt session.due
    (session.distinct.filter _) ({ session with dirty := [] }, .empty) (fun _ _ => rfl)
    fun _ _ => rfl
  exact ⟨⟨frame.domains, frame.log, frame.pins, frame.revision⟩, holds⟩

end Flush

/-! ## Changes as a list -/

section Listed

theorem mem_feedChanges {changes : FeedRevisionChanges parser} {change : FeedChange parser} :
    change ∈ feedChanges changes ↔
      changeAt changes change.domain change.key = some change.entity := by
  unfold feedChanges changeAt
  simp only [List.mem_flatMap, List.mem_map, Option.bind_eq_some_iff]
  constructor
  · rintro ⟨⟨name, changed⟩, member, ⟨key, entity⟩, inner, rfl⟩
    exact ⟨changed, JsMap.get?_eq_some_iff.mpr member, JsMap.get?_eq_some_iff.mpr inner⟩
  · rintro ⟨changed, found, stored⟩
    exact ⟨(change.domain, changed), JsMap.get?_eq_some_iff.mp found, (change.key, change.entity),
      JsMap.get?_eq_some_iff.mp stored, rfl⟩

theorem nodup_flatMap_ids {Item Entry : Type*} {names : List Item} {domain : Item → Text}
    (distinct : (names.map domain).Nodup) {inner : Item → JsMap Text Entry} :
    (names.flatMap fun item => (inner item).entries.map fun entry => (domain item, entry.1)).Nodup := by
  rw [List.nodup_flatMap]
  constructor
  · intro item _
    have keys := (inner item).nodup
    have pairs : ((inner item).entries.map fun entry => (domain item, entry.1)) =
        ((inner item).entries.map Prod.fst).map (Prod.mk (domain item)) := by
      rw [List.map_map]
      rfl
    rw [pairs]
    exact keys.map fun _ _ same => congrArg Prod.snd same
  · refine (List.pairwise_map.mp distinct).imp ?_
    intro item other different pair listed again
    obtain ⟨entry, -, rfl⟩ := List.mem_map.mp listed
    obtain ⟨entry', -, same⟩ := List.mem_map.mp again
    exact different (congrArg Prod.fst same).symm

theorem feedChanges_distinct (changes : FeedRevisionChanges parser) :
    ((feedChanges changes).map FeedChange.id).Nodup := by
  have ids : (feedChanges changes).map FeedChange.id = changes.entries.flatMap fun item =>
      item.2.entries.map fun entry => (item.1, entry.1) := by
    unfold feedChanges
    rw [List.map_flatMap]
    refine List.flatMap_congr fun item _ => ?_
    rw [List.map_map]
    rfl
  rw [ids]
  exact nodup_flatMap_ids changes.nodup

theorem overlay_of_mem {changes : List (FeedChange parser)}
    (distinct : (changes.map FeedChange.id).Nodup) {change : FeedChange parser}
    (member : change ∈ changes) (names : change.Names name key) (base : Option Value) :
    overlay changes base name key = change.outcome := by
  unfold overlay
  cases found : changes.find? fun change => change.Names name key with
  | none =>
    have apart := List.find?_eq_none.mp found change member
    exact absurd names (by simpa using apart)
  | some other =>
    have named : other.Names name key := by simpa using List.find?_some found
    have same : other = change := by
      apply List.inj_on_of_nodup_map distinct (List.mem_of_find?_eq_some found) member
      exact Prod.ext (named.1.symm.trans names.1) (named.2.symm.trans names.2)
    rw [same]
    rfl

theorem overlay_of_not_mem {changes : List (FeedChange parser)} {base : Option Value}
    (apart : ∀ change ∈ changes, ¬change.Names name key) :
    overlay changes base name key = base := by
  unfold overlay
  rw [List.find?_eq_none.mpr fun change member => by simpa using apart change member]
  rfl

theorem overlay_feedChanges (changes : FeedRevisionChanges parser) (base : Option Value)
    (name key : Text) :
    overlay (feedChanges changes) base name key =
      (changeAt changes name key).elim base fun entity => entity.map FeedEntity.value := by
  cases found : changeAt changes name key with
  | none =>
    apply overlay_of_not_mem
    rintro change member ⟨rfl, rfl⟩
    rw [mem_feedChanges.mp member] at found
    cases found
  | some entity =>
    have member : (⟨name, key, entity⟩ : FeedChange parser) ∈ feedChanges changes :=
      mem_feedChanges.mpr found
    exact overlay_of_mem (feedChanges_distinct changes) member ⟨rfl, rfl⟩ base

end Listed

/-! ## The log -/

section Log

theorem changeAt_mergeChanges (merged changes : FeedRevisionChanges parser) (name key : Text) :
    changeAt (mergeChanges merged changes) name key =
      (changeAt changes name key).or (changeAt merged name key) := by
  have seen := @JsMap.foldl_entries_at _ _ _ _ _
    (fun (merged : FeedRevisionChanges parser) entry =>
      merged.set entry.1 (mergeDomain ((merged.get? entry.1).getD .empty) entry.2))
    (fun merged => merged.get? name)
    (fun changed before => some (mergeDomain (before.getD .empty) changed)) name
    (fun merged changed => JsMap.get?_set_self _ _ _)
    (fun merged entry other => JsMap.get?_set_of_ne _ _ (Ne.symm other)) changes merged
  unfold changeAt mergeChanges
  rw [seen]
  cases changes.get? name with
  | none => rfl
  | some changed =>
    have written := JsMap.get?_foldl_entries changed ((merged.get? name).getD .empty) key
    unfold mergeDomain
    simp only [Option.elim_some, Option.bind_some, written]
    cases merged.get? name <;> rfl

def laterThan (cursor : ℕ) (entries : List (LogEntry parser)) : List (LogEntry parser) :=
  entries.filter fun entry => cursor < entry.revision

theorem mergedSince_eq (log : FeedChangeLog parser) (cursor : ℕ) :
    log.mergedSince cursor =
      (laterThan cursor log.entries).foldl (fun merged entry => mergeChanges merged entry.changes)
        .empty := by
  unfold FeedChangeLog.mergedSince laterThan
  rw [List.foldl_filter]
  simp only [decide_eq_true_eq]

/-- A log of revisions in order, each after its floor. -/
structure FeedChangeLog.Ordered (log : FeedChangeLog parser) (revision : ℕ) : Prop where
  sorted : log.entries.Pairwise fun earlier later => earlier.revision < later.revision
  above : ∀ entry ∈ log.entries, log.floor < entry.revision
  upTo : ∀ entry ∈ log.entries, entry.revision ≤ revision
  floor : log.floor ≤ revision

theorem trimEntries_spec {entries : List (LogEntry parser)} {bytes floor revision : ℕ}
    (ordered : FeedChangeLog.Ordered ⟨entries, bytes, floor⟩ revision) :
    (trimEntries entries bytes floor).Ordered revision ∧
      floor ≤ (trimEntries entries bytes floor).floor ∧
      ∀ cursor, (trimEntries entries bytes floor).floor ≤ cursor →
        laterThan cursor (trimEntries entries bytes floor).entries = laterThan cursor entries := by
  induction entries generalizing bytes floor with
  | nil => exact ⟨ordered, Nat.le_refl _, fun _ _ => rfl⟩
  | cons entry rest ih =>
    unfold trimEntries
    split
    · obtain ⟨sorted, above, upTo, -⟩ := ordered
      obtain ⟨first, sorted⟩ := List.pairwise_cons.mp sorted
      obtain ⟨head, above⟩ := List.forall_mem_cons.mp above
      obtain ⟨inside, upTo⟩ := List.forall_mem_cons.mp upTo
      obtain ⟨kept, raised, later⟩ := @ih (bytes - entry.bytes) entry.revision
        ⟨sorted, first, upTo, inside⟩
      refine ⟨kept, Nat.le_trans (Nat.le_of_lt head) raised, fun cursor reached => ?_⟩
      have old : ¬cursor < entry.revision := Nat.not_lt.mpr (Nat.le_trans raised reached)
      rw [later cursor reached]
      unfold laterThan
      rw [List.filter_cons_of_neg (by simpa using old)]
    · exact ⟨ordered, Nat.le_refl _, fun _ _ => rfl⟩

variable {log : FeedChangeLog parser} {revision : ℕ}

namespace FeedChangeLog.Ordered

theorem create (revision : ℕ) : (FeedChangeLog.create revision : FeedChangeLog parser).Ordered
    revision :=
  ⟨List.Pairwise.nil, by simp [FeedChangeLog.create], by simp [FeedChangeLog.create],
    Nat.le_refl _⟩

theorem extended (ordered : log.Ordered revision) (changes : FeedRevisionChanges parser)
    (bytes total : ℕ) :
    FeedChangeLog.Ordered ⟨log.entries ++ [⟨revision + 1, changes, bytes⟩], total, log.floor⟩
      (revision + 1) where
  sorted := by
    refine List.pairwise_append.mpr ⟨ordered.sorted, List.pairwise_singleton _ _, ?_⟩
    intro entry member other new
    rw [List.mem_singleton.mp new]
    exact Nat.lt_succ_of_le (ordered.upTo entry member)
  above := by
    intro entry member
    rcases List.mem_append.mp member with earlier | new
    · exact ordered.above entry earlier
    · rw [List.mem_singleton.mp new]
      exact Nat.lt_succ_of_le ordered.floor
  upTo := by
    intro entry member
    rcases List.mem_append.mp member with earlier | new
    · exact Nat.le_succ_of_le (ordered.upTo entry earlier)
    · rw [List.mem_singleton.mp new]
  floor := Nat.le_succ_of_le ordered.floor

theorem append (ordered : log.Ordered revision) (changes : FeedRevisionChanges parser) :
    (log.append (revision + 1) changes).Ordered (revision + 1) :=
  (trimEntries_spec (ordered.extended changes _ _)).1

theorem mergedSince_append (ordered : log.Ordered revision)
    (changes : FeedRevisionChanges parser) {cursor : ℕ} (earlier : cursor ≤ revision)
    (reached : (log.append (revision + 1) changes).floor ≤ cursor) :
    log.floor ≤ cursor ∧ (log.append (revision + 1) changes).mergedSince cursor =
      mergeChanges (log.mergedSince cursor) changes := by
  obtain ⟨-, raised, later⟩ := trimEntries_spec (ordered.extended changes (changeBytes changes)
    (log.bytes + changeBytes changes))
  refine ⟨Nat.le_trans raised reached, ?_⟩
  have kept : laterThan cursor (log.append (revision + 1) changes).entries = _ := later cursor reached
  have newest : cursor < revision + 1 := Nat.lt_succ_of_le earlier
  rw [mergedSince_eq, mergedSince_eq, kept]
  unfold laterThan
  rw [List.filter_append, List.foldl_append]
  simp [newest]

theorem mergedSince_self (ordered : log.Ordered revision) :
    log.mergedSince revision = .empty := by
  have nothing : laterThan revision log.entries = [] := by
    apply List.filter_eq_nil_iff.mpr
    intro entry member
    simpa using ordered.upTo entry member
  rw [mergedSince_eq, nothing]
  rfl

end FeedChangeLog.Ordered

end Log

/-! ## A session -/

section Session

variable {generation : String}

inductive SessionInput (parser : JsonParser Value)
  | invalidate (name : Text)
  | flush (reads : DomainReads parser)
  | serve (params : SidebarInputsReadParams) (reads : DomainReads parser) (now : ℕ)
  | servePage (token : FeedPageToken) (now : ℕ)

namespace FeedSession

def after (generation : String) (session : FeedSession parser) :
    SessionInput parser → FeedSession parser
  | .invalidate name => session.invalidate name
  | .flush reads => (session.flush generation reads).1
  | .serve params reads now => (session.serve generation params reads now).2.1
  | .servePage token now => (session.servePage generation token now).2

def run (generation : String) (session : FeedSession parser) (inputs : List (SessionInput parser)) :
    FeedSession parser :=
  inputs.foldl (after generation) session

/-- What a step does to what is published and logged: nothing, or one more revision. -/
inductive Publishes (session next : FeedSession parser) : Prop
  | same (log : next.log = session.log) (revision : next.revision = session.revision)
      (published : ∀ name key, next.publishedAt name key = session.publishedAt name key)
  | revised (changes : FeedRevisionChanges parser)
      (log : next.log = session.log.append (session.revision + 1) changes)
      (revision : next.revision = session.revision + 1)
      (published : ∀ name key, next.publishedAt name key =
        (changeAt changes name key).getD (session.publishedAt name key))

theorem publishes_flush (session : FeedSession parser) (generation : String)
    (reads : DomainReads parser) : session.Publishes (session.flush generation reads).1 := by
  obtain ⟨frame, holds⟩ := publishDue_spec session reads
  unfold flush
  dsimp only
  split
  case isTrue =>
    refine .revised (session.publishDue reads).2 ?_ ?_ holds
    · rw [frame.log, frame.revision]
    · rw [frame.revision]
  case isFalse nothing =>
    refine .same frame.log frame.revision fun name key => ?_
    rw [holds]
    unfold changeAt
    rw [get?_nil_of_size nothing]
    rfl

theorem batch_frame (session : FeedSession parser) (generation : String) (cursor : Option ℕ)
    (budget now : ℕ) (changes : List (FeedChange parser)) :
    (session.batch generation cursor budget now changes).2.published = session.published ∧
      (session.batch generation cursor budget now changes).2.log = session.log ∧
      (session.batch generation cursor budget now changes).2.revision = session.revision ∧
      (session.batch generation cursor budget now changes).2.domains = session.domains := by
  unfold batch
  dsimp only
  split <;> exact ⟨rfl, rfl, rfl, rfl⟩

theorem Publishes.congr {session next last : FeedSession parser} (published : session.Publishes next)
    (shown : last.published = next.published) (log : last.log = next.log)
    (revision : last.revision = next.revision) : session.Publishes last := by
  have same : ∀ name key, last.publishedAt name key = next.publishedAt name key := by
    intro name key
    unfold publishedAt publishedIn
    rw [shown]
  cases published with
  | same log' revision' published =>
    exact .same (log.trans log') (revision.trans revision') fun name key =>
      (same name key).trans (published name key)
  | revised changes log' revision' published =>
    exact .revised changes (log.trans log') (revision.trans revision') fun name key =>
      (same name key).trans (published name key)

theorem publishes_after (session : FeedSession parser) (input : SessionInput parser) :
    session.Publishes (session.after generation input) := by
  cases input with
  | invalidate name => exact .same rfl rfl fun _ _ => rfl
  | flush reads => exact publishes_flush session generation reads
  | servePage token now => exact .same rfl rfl fun _ _ => rfl
  | serve params reads now =>
    obtain ⟨shown, log, revision, -⟩ := batch_frame (session.flush generation reads).1 generation
      ((session.flush generation reads).1.deltaCursor generation params)
      (min sidebarInputsPageMaxBytes (max sidebarInputsPageMinBytes params.maxBytes)) now
      (((session.flush generation reads).1.deltaCursor generation params).elim
        (session.flush generation reads).1.everything (session.flush generation reads).1.log.since)
    exact (publishes_flush session generation reads).congr shown log revision

/-- The log of a session brings what was published earlier to what is published now, while it
reaches back so far. -/
structure Continues (origin session : FeedSession parser) : Prop where
  forward : origin.revision ≤ session.revision
  ordered : session.log.Ordered session.revision
  brings : session.log.floor ≤ origin.revision → ∀ name key, session.publishedAt name key =
    (changeAt (session.log.mergedSince origin.revision) name key).getD
      (origin.publishedAt name key)

theorem Continues.refl {session : FeedSession parser}
    (ordered : session.log.Ordered session.revision) : session.Continues session where
  forward := Nat.le_refl _
  ordered := ordered
  brings := by
    intro _ name key
    rw [ordered.mergedSince_self]
    rfl

theorem Continues.publishes {origin session next : FeedSession parser}
    (continues : origin.Continues session) (published : session.Publishes next) :
    origin.Continues next := by
  obtain ⟨forward, ordered, brings⟩ := continues
  cases published with
  | same log revision published =>
    refine ⟨?_, ?_, fun reached name key => ?_⟩
    · rw [revision]
      exact forward
    · rw [log, revision]
      exact ordered
    · rw [log] at reached ⊢
      rw [published, brings reached]
  | revised changes log revision published =>
    refine ⟨?_, ?_, fun reached name key => ?_⟩
    · rw [revision]
      exact Nat.le_succ_of_le forward
    · rw [log, revision]
      exact ordered.append changes
    · rw [log] at reached ⊢
      obtain ⟨earlier, merged⟩ := ordered.mergedSince_append changes forward reached
      rw [published, brings earlier, merged, changeAt_mergeChanges]
      cases changeAt changes name key <;> rfl

theorem continues_run (generation : String) {session : FeedSession parser}
    (ordered : session.log.Ordered session.revision) (inputs : List (SessionInput parser)) :
    session.Continues (session.run generation inputs) :=
  foldl_preserves (Continues.refl ordered)
    (fun _ input continues => continues.publishes (publishes_after _ input)) inputs

theorem Continues.overlay_since {origin session : FeedSession parser}
    (continues : origin.Continues session) (reached : session.log.floor ≤ origin.revision)
    (name key : Text) :
    overlay (session.log.since origin.revision)
        ((origin.publishedAt name key).map FeedEntity.value) name key =
      (session.publishedAt name key).map FeedEntity.value := by
  unfold FeedChangeLog.since
  rw [overlay_feedChanges, continues.brings reached]
  cases changeAt (session.log.mergedSince origin.revision) name key <;> rfl

end FeedSession

/-- The changes since a covered revision turn the values published then into those published
now, through any flushes, reads and invalidations in between. -/
theorem since_brings_current {domains : List Text} {distinct : domains.Nodup} {revision : ℕ}
    {before later : List (SessionInput parser)} {session last : FeedSession parser}
    (reached : (FeedSession.create domains distinct revision).run generation before = session)
    (continued : session.run generation later = last)
    (covered : last.log.covers session.revision last.revision = true) (name key : Text) :
    overlay (last.log.since session.revision)
        ((session.publishedAt name key).map FeedEntity.value) name key =
      (last.publishedAt name key).map FeedEntity.value := by
  have ordered : session.log.Ordered session.revision := by
    rw [← reached]
    exact (FeedSession.continues_run generation (.create revision) before).ordered
  have continues := FeedSession.continues_run generation ordered later
  rw [continued] at continues
  obtain ⟨floor, -⟩ := (Bool.and_eq_true _ _).mp covered
  exact continues.overlay_since (of_decide_eq_true floor) name key

/-! ## A session of digits -/

def digitReads (digit : UInt16) : DomainReads digitParser := fun name =>
  if name = unitsOf "tabs" then
    if parses : digitParser.parse [digit] = some (digit.toNat - 0x30) then
      some (JsMap.empty.set (unitsOf "a") (some ⟨[digit], digit.toNat - 0x30, parses⟩))
    else none
  else none

theorem tabs_nodup : [unitsOf "tabs"].Nodup := List.nodup_singleton _

def digitSession : FeedSession digitParser :=
  (FeedSession.create [unitsOf "tabs"] tabs_nodup 1).run "g" [.flush (digitReads 0x31)]

theorem digit_since_brings_current : ∃ last,
    digitSession.run "g" [.invalidate (unitsOf "tabs"), .flush (digitReads 0x32)] = last ∧
    overlay (last.log.since 2)
        ((digitSession.publishedAt (unitsOf "tabs") (unitsOf "a")).map FeedEntity.value)
        (unitsOf "tabs") (unitsOf "a") = some 2 := by
  refine ⟨_, rfl, ?_⟩
  exact (@since_brings_current _ digitParser "g" [unitsOf "tabs"] tabs_nodup 1
    [.flush (digitReads 0x31)] [.invalidate (unitsOf "tabs"), .flush (digitReads 0x32)] digitSession
    _ rfl rfl rfl (unitsOf "tabs") (unitsOf "a")).trans rfl

end Session

end OxeeUI.Sidebar
