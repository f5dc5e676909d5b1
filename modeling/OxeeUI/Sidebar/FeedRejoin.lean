import OxeeUI.Sidebar.FeedInstaller

/-!
# What the pages of a batch install

The installer joins the pages again: every change of the batch has its effect once, an entity
that came in parts too, and no other entity changes.
-/

namespace OxeeUI.Sidebar

open Library

variable {Value : Type*} {parser : JsonParser Value}

def entityAt (domains : InstalledDomains Value) (name key : Text) : Option Value :=
  (domains.get? name).bind fun entities => entities.get? key

/-! ## What a page does to one entity -/

/-- An entity while its batch is installed, with the parts joined so far. -/
structure EntityState (Value : Type*) where
  value : Option Value
  text : Option Text

/-- What the changes of a page's domain say of one key. -/
structure KeyChange (Value : Type*) where
  upsert : Option Value
  removed : Bool
  part : Option Text

namespace KeyChange

def none : KeyChange Value := ⟨.none, false, .none⟩

def apply (change : KeyChange Value) (entity : EntityState Value) : EntityState Value where
  value := if change.removed then .none else change.upsert.or entity.value
  text := change.part.elim entity.text fun piece => some (entity.text.getD [] ++ piece)

@[simp] theorem apply_none (entity : EntityState Value) : none.apply entity = entity := rfl

end KeyChange

def SidebarInputsDomainChange.keyChange (change : SidebarInputsDomainChange Value) (key : Text) :
    KeyChange Value :=
  ⟨change.upserts.get? key, change.removals.contains key, change.parts.get? key⟩

def PageDomains.keyChange (page : PageDomains Value) (name key : Text) : KeyChange Value :=
  (page.get? name).elim .none fun change => change.keyChange key

def pagesEffect (pages : List (PageDomains Value)) (name key : Text)
    (entity : EntityState Value) : EntityState Value :=
  pages.foldl (fun entity page => (PageDomains.keyChange page name key).apply entity) entity

section Installer

variable {domains : InstalledDomains Value} {name key : Text}

def Installing.entity (domains : InstalledDomains Value) (installing : Installing Value)
    (name key : Text) : EntityState Value where
  value := (entitiesOf domains installing.touched name).get? key
  text := (installing.parts.get? name).bind fun texts => texts.get? key

theorem get?_changeEntities (entities : JsMap Text Value)
    (change : SidebarInputsDomainChange Value) :
    (changeEntities entities change).get? key =
      if key ∈ change.removals then none else (change.upserts.get? key).or (entities.get? key) := by
  unfold changeEntities
  rw [JsMap.get?_foldl_delete, JsMap.get?_foldl_entries]
  congr

theorem get?_joinParts (texts parts : JsMap Text Text) :
    (joinParts texts parts).get? key =
      (parts.get? key).elim (texts.get? key) fun piece =>
        some ((texts.get? key).getD [] ++ piece) := by
  unfold joinParts
  apply @JsMap.foldl_entries_at _ _ _ _ _ _ (fun texts : JsMap Text Text => texts.get? key)
    (fun piece before => some (before.getD [] ++ piece)) key
  · intro texts piece
    exact JsMap.get?_set_self _ _ _
  · intro texts entry other
    exact JsMap.get?_set_of_ne _ _ (Ne.symm other)

theorem joinParts_of_empty (texts : JsMap Text Text) {parts : JsMap Text Text}
    (nothing : parts.entries = []) : joinParts texts parts = texts := by
  unfold joinParts
  rw [nothing]
  rfl

theorem entity_applyDomainChange_own (installing : Installing Value)
    (change : SidebarInputsDomainChange Value) :
    (applyDomainChange domains installing (name, change)).entity domains name key =
      (change.keyChange key).apply (installing.entity domains name key) := by
  have texts : ((applyDomainChange domains installing (name, change)).parts.get? name).bind
      (fun texts => texts.get? key) =
        (joinParts ((installing.parts.get? name).getD .empty) change.parts).get? key := by
    unfold applyDomainChange
    dsimp only
    split
    case isTrue nothing =>
      rw [joinParts_of_empty _ nothing]
      cases installing.parts.get? name <;> rfl
    case isFalse => rw [JsMap.get?_set_self, Option.bind_some]
  have known : ((installing.parts.get? name).getD .empty).get? key =
      (installing.parts.get? name).bind fun texts => texts.get? key := by
    cases installing.parts.get? name <;> rfl
  unfold Installing.entity KeyChange.apply SidebarInputsDomainChange.keyChange
  rw [texts, get?_joinParts, known]
  congr 1
  unfold applyDomainChange entitiesOf
  rw [JsMap.get?_set_self, Option.getD_some, get?_changeEntities]
  simp only [List.contains_iff_mem]

theorem entity_applyDomainChange_other (installing : Installing Value)
    {entry : Text × SidebarInputsDomainChange Value} (other : entry.1 ≠ name) :
    (applyDomainChange domains installing entry).entity domains name key =
      installing.entity domains name key := by
  unfold Installing.entity applyDomainChange entitiesOf
  rw [JsMap.get?_set_of_ne _ _ (Ne.symm other)]
  split
  · rfl
  · rw [JsMap.get?_set_of_ne _ _ (Ne.symm other)]

theorem entity_applyPage (installing : Installing Value) (page : PageDomains Value) :
    (applyPage domains installing page).entity domains name key =
      (PageDomains.keyChange page name key).apply (installing.entity domains name key) := by
  have seen := @JsMap.foldl_entries_at _ _ _ _ _ (applyDomainChange domains)
    (fun installing => installing.entity domains name key)
    (fun change entity => (change.keyChange key).apply entity) name
    (fun installing change => entity_applyDomainChange_own installing change)
    (fun installing entry other => entity_applyDomainChange_other installing other) page installing
  unfold applyPage PageDomains.keyChange
  rw [seen]
  cases page.get? name <;> rfl

theorem entity_foldl_applyPage (pages : List (PageDomains Value)) (installing : Installing Value) :
    (pages.foldl (applyPage domains) installing).entity domains name key =
      pagesEffect pages name key (installing.entity domains name key) := by
  induction pages generalizing installing with
  | nil => rfl
  | cons page pages ih =>
    rw [List.foldl_cons, ih, entity_applyPage]
    rfl

/-! ## The joined texts -/

theorem of_parseTexts {texts : List (Text × Text)} {entities : JsMap Text Value}
    (distinct : (texts.map Prod.fst).Nodup)
    (parses : ∀ entry ∈ texts, parser.parse entry.2 ≠ none) :
    ∃ parsed, parseTexts parser entities texts = some parsed ∧
      (∀ entry ∈ texts, parsed.get? entry.1 = parser.parse entry.2) ∧
      ∀ key, key ∉ texts.map Prod.fst → parsed.get? key = entities.get? key := by
  induction texts generalizing entities with
  | nil => exact ⟨entities, rfl, by simp, fun _ _ => rfl⟩
  | cons entry texts ih =>
    obtain ⟨new, distinct⟩ := List.nodup_cons.mp distinct
    obtain ⟨head, later⟩ := List.forall_mem_cons.mp parses
    obtain ⟨value, isValue⟩ := Option.ne_none_iff_exists'.mp head
    obtain ⟨parsed, ran, listed, others⟩ := @ih (entities.set entry.1 value) distinct later
    refine ⟨parsed, ?_, List.forall_mem_cons.mpr ⟨?_, listed⟩, fun key absent => ?_⟩
    · unfold parseTexts
      rw [isValue]
      exact ran
    · rw [others _ new, JsMap.get?_set_self, isValue]
    · obtain ⟨different, missing⟩ := not_or.mp (mt List.mem_cons.mpr absent)
      rw [others _ missing, JsMap.get?_set_of_ne _ _ different]

/-- The entity of a key after the texts of its domain are parsed. -/
def EntityState.parsed (parser : JsonParser Value) (entity : EntityState Value) : Option Value :=
  entity.text.elim entity.value parser.parse

theorem get?_parseTexts {texts : JsMap Text Text} {entities : JsMap Text Value}
    (parses : ∀ text ∈ texts.values, parser.parse text ≠ none) :
    ∃ parsed, parseTexts parser entities texts.entries = some parsed ∧
      ∀ key, parsed.get? key =
        EntityState.parsed parser ⟨entities.get? key, texts.get? key⟩ := by
  obtain ⟨parsed, ran, listed, others⟩ := @of_parseTexts _ parser texts.entries entities texts.nodup
    fun entry member => parses entry.2 (List.mem_map_of_mem member)
  refine ⟨parsed, ran, fun key => ?_⟩
  cases found : texts.get? key with
  | none => exact others key (JsMap.get?_eq_none_iff.mp found)
  | some text => exact listed (key, text) (JsMap.get?_eq_some_iff.mp found)

theorem of_parseParts {parts : List (Text × JsMap Text Text)}
    {touched : InstalledDomains Value} (distinct : (parts.map Prod.fst).Nodup)
    (parses : ∀ entry ∈ parts, ∀ text ∈ entry.2.values, parser.parse text ≠ none) :
    ∃ after, parseParts parser domains parts touched = some after ∧
      (∀ entry ∈ parts, ∀ key, (entitiesOf domains after entry.1).get? key =
        EntityState.parsed parser
          ⟨(entitiesOf domains touched entry.1).get? key, entry.2.get? key⟩) ∧
      ∀ name, name ∉ parts.map Prod.fst →
        entitiesOf domains after name = entitiesOf domains touched name := by
  induction parts generalizing touched with
  | nil => exact ⟨touched, rfl, by simp, fun _ _ => rfl⟩
  | cons entry parts ih =>
    obtain ⟨new, distinct⟩ := List.nodup_cons.mp distinct
    obtain ⟨head, later⟩ := List.forall_mem_cons.mp parses
    obtain ⟨entities, read, holds⟩ := @get?_parseTexts _ parser entry.2
      (entitiesOf domains touched entry.1) head
    obtain ⟨after, ran, listed, others⟩ := @ih (touched.set entry.1 entities) distinct later
    have kept (name : Text) (different : name ≠ entry.1) :
        entitiesOf domains (touched.set entry.1 entities) name =
          entitiesOf domains touched name := by
      unfold entitiesOf
      rw [JsMap.get?_set_of_ne _ _ different]
    refine ⟨after, ?_, List.forall_mem_cons.mpr ⟨fun key => ?_, ?_⟩, fun name absent => ?_⟩
    · unfold parseParts
      rw [read]
      exact ran
    · have written : entitiesOf domains (touched.set entry.1 entities) entry.1 = entities := by
        unfold entitiesOf
        rw [JsMap.get?_set_self, Option.getD_some]
      rw [others _ new, written, holds]
    · intro other member key
      rw [listed other member, kept]
      rintro same
      exact new (same ▸ List.mem_map_of_mem member)
    · obtain ⟨different, missing⟩ := not_or.mp (mt List.mem_cons.mpr absent)
      rw [others _ missing, kept _ different]

theorem get?_parseParts {parts : JsMap Text (JsMap Text Text)} {touched : InstalledDomains Value}
    (parses : ∀ texts ∈ parts.values, ∀ text ∈ texts.values, parser.parse text ≠ none) :
    ∃ after, parseParts parser domains parts.entries touched = some after ∧
      ∀ name key, (entitiesOf domains after name).get? key =
        EntityState.parsed parser ⟨(entitiesOf domains touched name).get? key,
          (parts.get? name).bind fun texts => texts.get? key⟩ := by
  obtain ⟨after, ran, listed, others⟩ := @of_parseParts _ parser domains parts.entries touched
    parts.nodup fun entry member => parses entry.2 (List.mem_map_of_mem member)
  refine ⟨after, ran, fun name key => ?_⟩
  cases found : parts.get? name with
  | none => rw [others name (JsMap.get?_eq_none_iff.mp found)]; rfl
  | some texts => exact listed (name, texts) (JsMap.get?_eq_some_iff.mp found) key

theorem entityAt_foldl_touched (touched : InstalledDomains Value) :
    entityAt (touched.entries.foldl (fun domains entry => domains.set entry.1 entry.2) domains)
      name key = (entitiesOf domains touched name).get? key := by
  unfold entityAt entitiesOf
  rw [JsMap.get?_foldl_entries]
  cases touched.get? name with
  | some entities => rfl
  | none => cases domains.get? name <;> rfl

/-- Pages whose joined texts are JSON install what they do to each entity. -/
theorem entityAt_installPages {pages : List (PageDomains Value)}
    (parses : ∀ name key text,
      (pagesEffect pages name key ⟨entityAt domains name key, none⟩).text = some text →
        parser.parse text ≠ none) :
    ∃ installed, installPages parser domains pages = some installed ∧
      ∀ name key, entityAt installed name key =
        (pagesEffect pages name key ⟨entityAt domains name key, none⟩).parsed parser := by
  have held : ∀ name key, (pages.foldl (applyPage domains) ⟨.empty, .empty⟩).entity domains name
      key = pagesEffect pages name key ⟨entityAt domains name key, none⟩ := by
    intro name key
    have blank : Installing.entity domains ⟨.empty, .empty⟩ name key =
        ⟨entityAt domains name key, none⟩ := by
      unfold Installing.entity entitiesOf entityAt
      cases domains.get? name <;> rfl
    rw [entity_foldl_applyPage, blank]
  have readable : ∀ texts ∈ (pages.foldl (applyPage domains) ⟨.empty, .empty⟩).parts.values,
      ∀ text ∈ texts.values, parser.parse text ≠ none := by
    intro texts member text listed
    obtain ⟨name, isTexts⟩ := JsMap.mem_values_iff.mp member
    obtain ⟨key, isText⟩ := JsMap.mem_values_iff.mp listed
    apply parses name key text
    rw [← held]
    unfold Installing.entity
    dsimp only
    rw [isTexts]
    exact isText
  obtain ⟨touched, ran, holds⟩ := @get?_parseParts _ parser domains _
    (pages.foldl (applyPage domains) ⟨.empty, .empty⟩).touched readable
  refine ⟨touched.entries.foldl (fun domains entry => domains.set entry.1 entry.2) domains, ?_,
    fun name key => ?_⟩
  · unfold installPages
    simp only [ran, Option.bind_eq_bind, Option.bind_some]
    rfl
  · rw [entityAt_foldl_touched, holds, ← held]
    rfl

end Installer

/-! ## What the paging writes -/

section Writing

variable {room : ℤ} {paging : Paging Value} {name key : Text}

theorem pagesEffect_append (pages later : List (PageDomains Value)) (entity : EntityState Value) :
    pagesEffect (pages ++ later) name key entity =
      pagesEffect later name key (pagesEffect pages name key entity) :=
  List.foldl_append

theorem keyChange_set (page : PageDomains Value) (domain : Text)
    (change : SidebarInputsDomainChange Value) :
    PageDomains.keyChange (page.set domain change) name key =
      if name = domain then change.keyChange key else PageDomains.keyChange page name key := by
  unfold PageDomains.keyChange
  rw [JsMap.get?_set]
  split <;> rfl

namespace Paging

def laid (paging : Paging Value) : List (PageDomains Value) :=
  (paging.pages ++ [paging.page]).map FeedPageBody.domains

def keyChange (paging : Paging Value) (name key : Text) : KeyChange Value :=
  PageDomains.keyChange paging.page.domains name key

theorem pagesEffect_laid (entity : EntityState Value) :
    pagesEffect paging.laid name key entity =
      (paging.keyChange name key).apply
        (pagesEffect (paging.pages.map FeedPageBody.domains) name key entity) := by
  unfold laid
  rw [List.map_append, pagesEffect_append]
  rfl

@[simp] theorem keyChange_turn : paging.turn.keyChange name key = .none := rfl

@[simp] theorem pagesEffect_turn (entity : EntityState Value) :
    pagesEffect paging.turn.laid name key entity = pagesEffect paging.laid name key entity := by
  unfold laid turn
  rw [List.map_append, pagesEffect_append]
  rfl

theorem keyChange_domainOf (domain : Text) :
    (paging.domainOf domain).1.keyChange key = paging.keyChange domain key := by
  unfold domainOf keyChange PageDomains.keyChange
  cases paging.page.domains.get? domain <;> rfl

theorem keyChange_put (domain : Text) (cost : ℕ)
    (write : SidebarInputsDomainChange Value → SidebarInputsDomainChange Value) :
    (paging.put domain cost write).keyChange name key =
      if name = domain then (write (paging.domainOf domain).1).keyChange key
      else paging.keyChange name key :=
  keyChange_set _ _ _

structure SameFor (name key : Text) (paging next : Paging Value) : Prop where
  silent : paging.keyChange name key = .none → next.keyChange name key = .none
  effect : ∀ entity, pagesEffect next.laid name key entity = pagesEffect paging.laid name key entity

namespace SameFor

theorem refl (paging : Paging Value) : SameFor name key paging paging := ⟨id, fun _ => rfl⟩

theorem trans {next last : Paging Value} (first : SameFor name key paging next)
    (second : SameFor name key next last) : SameFor name key paging last :=
  ⟨second.silent ∘ first.silent, fun entity => (second.effect entity).trans (first.effect entity)⟩

theorem turn (paging : Paging Value) : SameFor name key paging paging.turn :=
  ⟨fun _ => keyChange_turn, pagesEffect_turn⟩

end SameFor

def WritesOnly (key : Text)
    (write : SidebarInputsDomainChange Value → SidebarInputsDomainChange Value) : Prop :=
  ∀ change other, other ≠ key → (write change).keyChange other = change.keyChange other

variable {domain written : Text} {cost : ℕ}
variable {write : SidebarInputsDomainChange Value → SidebarInputsDomainChange Value}

theorem sameFor_put (only : WritesOnly written write) (other : ¬(name = domain ∧ key = written)) :
    SameFor name key paging (paging.put domain cost write) := by
  have same : (paging.put domain cost write).keyChange name key = paging.keyChange name key := by
    rw [keyChange_put]
    by_cases here : name = domain
    · subst here
      rw [if_pos rfl, only _ key fun same => other ⟨rfl, same⟩, keyChange_domainOf]
    · rw [if_neg here]
  refine ⟨fun silent => same.trans silent, fun entity => ?_⟩
  rw [pagesEffect_laid, pagesEffect_laid, same]
  rfl

theorem sameFor_place (only : WritesOnly written write)
    (other : ¬(name = domain ∧ key = written)) :
    SameFor name key paging (paging.place room domain cost write) := by
  unfold place
  split
  · exact (SameFor.turn paging).trans (sameFor_put only other)
  · exact sameFor_put only other

theorem effect_put (silent : paging.keyChange domain written = .none) {change : KeyChange Value}
    (writes : ∀ before : SidebarInputsDomainChange Value, before.keyChange written = .none →
      (write before).keyChange written = change) (entity : EntityState Value) :
    pagesEffect (paging.put domain cost write).laid domain written entity =
      change.apply (pagesEffect paging.laid domain written entity) := by
  rw [pagesEffect_laid, pagesEffect_laid, keyChange_put, if_pos rfl, silent, KeyChange.apply_none,
    writes _ ((keyChange_domainOf domain).trans silent)]
  rfl

theorem effect_place (silent : paging.keyChange domain written = .none) {change : KeyChange Value}
    (writes : ∀ before : SidebarInputsDomainChange Value, before.keyChange written = .none →
      (write before).keyChange written = change) (entity : EntityState Value) :
    pagesEffect (paging.place room domain cost write).laid domain written entity =
      change.apply (pagesEffect paging.laid domain written entity) := by
  unfold place
  split
  · rw [effect_put keyChange_turn writes, pagesEffect_turn]
  · exact effect_put silent writes entity

end Paging

namespace SidebarInputsDomainChange

theorem writesOnly_upsert (key : Text) (value : Value) :
    Paging.WritesOnly key (upsert key value) := by
  intro change other different
  unfold keyChange upsert
  rw [JsMap.get?_set_of_ne _ _ different]

theorem writesOnly_remove (key : Text) :
    Paging.WritesOnly key (remove key : SidebarInputsDomainChange Value → _) := by
  intro change other different
  unfold keyChange remove
  simp [different]

theorem writesOnly_part (key piece : Text) :
    Paging.WritesOnly key (part key piece : SidebarInputsDomainChange Value → _) := by
  intro change other different
  unfold keyChange part
  rw [JsMap.get?_set_of_ne _ _ different]

theorem keyChange_upsert {change : SidebarInputsDomainChange Value} (value : Value)
    (silent : change.keyChange key = .none) :
    (change.upsert key value).keyChange key = ⟨some value, false, none⟩ := by
  obtain ⟨-, removed, part⟩ := KeyChange.mk.inj silent
  unfold keyChange upsert
  rw [JsMap.get?_set_self]
  exact congrArg₂ _ removed part

theorem keyChange_remove {change : SidebarInputsDomainChange Value}
    (silent : change.keyChange key = .none) :
    (change.remove key).keyChange key = ⟨none, true, none⟩ := by
  obtain ⟨upsert, -, part⟩ := KeyChange.mk.inj silent
  unfold keyChange remove
  rw [upsert, part,
    List.contains_iff_mem.mpr (List.mem_append_right _ (List.mem_singleton_self key))]

theorem keyChange_part {change : SidebarInputsDomainChange Value} (piece : Text)
    (silent : change.keyChange key = .none) :
    (change.part key piece).keyChange key = ⟨none, false, some piece⟩ := by
  obtain ⟨upsert, removed, -⟩ := KeyChange.mk.inj silent
  unfold keyChange part
  rw [JsMap.get?_set_self]
  exact congrArg₂ (fun upsert removed => KeyChange.mk upsert removed (some piece)) upsert removed

end SidebarInputsDomainChange

end Writing

/-! ## Changes laid out -/

namespace FeedChange

def Names (change : FeedChange parser) (name key : Text) : Prop :=
  name = change.domain ∧ key = change.key

instance (change : FeedChange parser) (name key : Text) : Decidable (change.Names name key) :=
  inferInstanceAs (Decidable (_ ∧ _))

def id (change : FeedChange parser) : Text × Text := (change.domain, change.key)

def outcome (change : FeedChange parser) : Option Value := change.entity.map FeedEntity.value

end FeedChange

namespace Paging

variable {room : ℤ} {paging : Paging Value} {name key : Text}

theorem sameFor_parts {domain written : Text} {bytes : ℕ} (pieces : List Text)
    (other : ¬(name = domain ∧ key = written)) :
    SameFor name key paging (pieces.foldl (fun paging piece =>
      (paging.place room domain (bytes + jsonBytes piece) (.part written piece)).turn) paging) := by
  induction pieces generalizing paging with
  | nil => exact .refl paging
  | cons piece pieces ih =>
    rw [List.foldl_cons]
    refine SameFor.trans ?_ ih
    exact (sameFor_place (SidebarInputsDomainChange.writesOnly_part _ _) other).trans (.turn _)

theorem effect_parts {domain written : Text} {bytes : ℕ} (pieces : List Text)
    (silent : paging.keyChange domain written = .none) (entity : EntityState Value) :
    pagesEffect (pieces.foldl (fun paging piece =>
        (paging.place room domain (bytes + jsonBytes piece) (.part written piece)).turn) paging).laid
        domain written entity =
      pieces.foldl (fun entity piece => (KeyChange.mk none false (some piece)).apply entity)
        (pagesEffect paging.laid domain written entity) := by
  induction pieces generalizing paging with
  | nil => rfl
  | cons piece pieces ih =>
    rw [List.foldl_cons, List.foldl_cons, ih keyChange_turn, pagesEffect_turn,
      effect_place silent fun before => SidebarInputsDomainChange.keyChange_part piece]

theorem foldl_parts {pieces : List Text} (some : pieces ≠ []) (value : Option Value) :
    pieces.foldl (fun entity piece => (KeyChange.mk none false (.some piece)).apply entity)
      ⟨value, none⟩ = ⟨value, pieces.flatten⟩ := by
  have later : ∀ (pieces : List Text) (text : Text),
      pieces.foldl (fun entity piece => (KeyChange.mk none false (.some piece)).apply entity)
        ⟨value, .some text⟩ = ⟨value, text ++ pieces.flatten⟩ := by
    intro pieces
    induction pieces with
    | nil => simp
    | cons piece pieces ih =>
      intro text
      rw [List.foldl_cons, List.flatten_cons, ← List.append_assoc]
      exact ih (text ++ piece)
  cases pieces with
  | nil => exact absurd rfl some
  | cons piece pieces => exact later pieces piece

theorem splitJsonText_ne_nil (entity : FeedEntity parser) (maxBytes : ℤ) :
    splitJsonText entity.json maxBytes ≠ [] := by
  intro nothing
  have joined := splitJsonText_flatten entity.json maxBytes
  have parses := entity.parses
  rw [nothing, List.flatten_nil] at joined
  rw [← joined, parser.parse_nil] at parses
  cases parses

theorem sameFor_add (change : FeedChange parser) (other : ¬change.Names name key) :
    SameFor name key paging (paging.add room change) := by
  unfold add
  cases change.entity with
  | none => exact sameFor_place (SidebarInputsDomainChange.writesOnly_remove _) other
  | some entity =>
    dsimp only
    split
    · exact sameFor_place (SidebarInputsDomainChange.writesOnly_upsert _ _) other
    · exact sameFor_parts _ other

/-- An entity that has changed once: its value is written, or its text awaits its parse. -/
structure Changed (change : FeedChange parser) (entity : EntityState Value) : Prop where
  parsed : entity.parsed parser = change.outcome
  text : ∀ text ∈ entity.text, parser.parse text ≠ none

theorem changed_add (change : FeedChange parser)
    (silent : paging.keyChange change.domain change.key = .none) {before : EntityState Value}
    {value : Option Value}
    (untouched : pagesEffect paging.laid change.domain change.key before = ⟨value, none⟩) :
    Changed change
      (pagesEffect (paging.add room change).laid change.domain change.key before) := by
  unfold add
  cases isEntity : change.entity with
  | none =>
    dsimp only
    rw [effect_place silent fun before => SidebarInputsDomainChange.keyChange_remove, untouched]
    exact ⟨by rw [FeedChange.outcome, isEntity]; rfl, by rintro text ⟨⟩⟩
  | some entity =>
    have outcome : change.outcome = some entity.value := congrArg _ isEntity
    dsimp only
    split
    · rw [effect_place silent fun before => SidebarInputsDomainChange.keyChange_upsert _,
        untouched]
      exact ⟨outcome.symm, by rintro text ⟨⟩⟩
    · rw [effect_parts _ silent, untouched, foldl_parts (splitJsonText_ne_nil entity _),
        splitJsonText_flatten]
      refine ⟨entity.parses.trans outcome.symm, ?_⟩
      rintro text ⟨rfl⟩
      rw [entity.parses]
      exact Option.some_ne_none _

/-- What a list of changes, each of an entity of its own, does to an entity. -/
theorem changed_foldl_add {changes : List (FeedChange parser)}
    (distinct : (changes.map FeedChange.id).Nodup)
    (silent : paging.keyChange name key = .none) {before : EntityState Value} {value : Option Value}
    (untouched : pagesEffect paging.laid name key before = ⟨value, none⟩) :
    (∀ change ∈ changes, change.Names name key →
      Changed change (pagesEffect (changes.foldl (add room) paging).laid name key before)) ∧
    ((∀ change ∈ changes, ¬change.Names name key) →
      pagesEffect (changes.foldl (add room) paging).laid name key before = ⟨value, none⟩) := by
  have others : ∀ (changes : List (FeedChange parser)) (paging : Paging Value),
      (∀ change ∈ changes, ¬change.Names name key) →
      SameFor name key paging (changes.foldl (add room) paging) := by
    intro changes
    induction changes with
    | nil => exact fun paging _ => .refl paging
    | cons change changes ih =>
      intro paging apart
      obtain ⟨head, later⟩ := List.forall_mem_cons.mp apart
      exact (sameFor_add change head).trans (ih _ later)
  refine ⟨?_, fun apart => ((others changes paging apart).effect before).trans untouched⟩
  intro change member names
  obtain ⟨front, back, rfl⟩ := List.append_of_mem member
  obtain ⟨rfl, rfl⟩ := names
  rw [List.map_append, List.map_cons] at distinct
  obtain ⟨-, tail, apart⟩ := List.nodup_append.mp distinct
  have earlier := others front paging fun other listed names =>
    apart other.id (List.mem_map_of_mem listed) change.id List.mem_cons_self
      (Prod.ext names.1.symm names.2.symm)
  have later := others back ((front.foldl (add room) paging).add room change)
    fun other listed names => (List.nodup_cons.mp tail).1 (List.mem_map.mpr
      ⟨other, listed, Prod.ext names.1.symm names.2.symm⟩)
  rw [List.foldl_append, List.foldl_cons, later.effect]
  exact changed_add change (earlier.silent silent) ((earlier.effect before).trans untouched)

def Tidy (paging : Paging Value) : Prop := paging.page.bytes = 0 → paging.page.domains = .empty

theorem tidy_place {domain : Text} {cost : ℕ} (costs : 0 < cost)
    (write : SidebarInputsDomainChange Value → SidebarInputsDomainChange Value) :
    (paging.place room domain cost write).Tidy := by
  intro nothing
  unfold place at nothing
  split at nothing
  all_goals
    simp only [put] at nothing
    omega

theorem tidy_foldl_add (changes : List (FeedChange parser)) (tidy : paging.Tidy) :
    (changes.foldl (add room) paging).Tidy := by
  have costs (text : Text) (bytes : ℕ) : 0 < jsonBytes text + entryShellBytes + bytes := by
    simp only [entryShellBytes]
    omega
  have parts : ∀ (pieces : List Text) (paging : Paging Value) (domain written : Text) (bytes : ℕ),
      paging.Tidy → (pieces.foldl (fun paging piece =>
        (paging.place room domain (bytes + jsonBytes piece) (.part written piece)).turn)
        paging).Tidy := by
    intro pieces
    induction pieces with
    | nil => exact fun _ _ _ _ tidy => tidy
    | cons piece pieces ih => exact fun _ _ _ _ _ => ih _ _ _ _ fun _ => rfl
  induction changes generalizing paging with
  | nil => exact tidy
  | cons change changes ih =>
    apply ih
    unfold add
    cases change.entity with
    | none => exact tidy_place (costs _ 0) _
    | some entity =>
      dsimp only
      split
      · exact tidy_place (costs _ _) _
      · exact parts _ _ _ _ _ tidy

end Paging

theorem pagesEffect_paginateFeedChanges (changes : List (FeedChange parser)) (budgetBytes : ℕ)
    (name key : Text) (before : EntityState Value) :
    pagesEffect ((paginateFeedChanges changes budgetBytes).map FeedPageBody.domains) name key before
      = pagesEffect (changes.foldl (Paging.add ((budgetBytes : ℤ) - feedPageEnvelopeBytes))
        .start).laid name key before := by
  have tidy := @Paging.tidy_foldl_add _ parser ((budgetBytes : ℤ) - feedPageEnvelopeBytes) .start
    changes fun _ => rfl
  unfold paginateFeedChanges
  dsimp only
  split
  case isTrue => rfl
  case isFalse blank =>
    have nothing := tidy (Nat.eq_zero_of_not_pos fun counted => blank (.inl counted))
    rw [Paging.pagesEffect_laid, Paging.keyChange, nothing]
    rfl

def overlay (changes : List (FeedChange parser)) (base : Option Value) (name key : Text) :
    Option Value :=
  (changes.find? fun change => change.Names name key).elim base FeedChange.outcome

/-- The pages of a batch, installed over any domains, do each of its changes and no other. -/
theorem installPages_paginateFeedChanges {changes : List (FeedChange parser)}
    (distinct : (changes.map FeedChange.id).Nodup) (domains : InstalledDomains Value)
    (budgetBytes : ℕ) :
    ∃ installed, installPages parser domains
        ((paginateFeedChanges changes budgetBytes).map FeedPageBody.domains) = some installed ∧
      ∀ name key, entityAt installed name key =
        overlay changes (entityAt domains name key) name key := by
  have states : ∀ name key,
      (pagesEffect ((paginateFeedChanges changes budgetBytes).map FeedPageBody.domains) name key
        ⟨entityAt domains name key, none⟩).parsed parser =
          overlay changes (entityAt domains name key) name key ∧
      ∀ text, (pagesEffect ((paginateFeedChanges changes budgetBytes).map FeedPageBody.domains)
        name key ⟨entityAt domains name key, none⟩).text = some text → parser.parse text ≠ none := by
    intro name key
    obtain ⟨named, unnamed⟩ := @Paging.changed_foldl_add _ parser
      ((budgetBytes : ℤ) - feedPageEnvelopeBytes) .start name key changes distinct rfl
      ⟨entityAt domains name key, none⟩ (entityAt domains name key) rfl
    rw [pagesEffect_paginateFeedChanges]
    unfold overlay
    cases found : changes.find? fun change => change.Names name key with
    | none =>
      rw [unnamed fun change member => by
        simpa using List.find?_eq_none.mp found change member]
      exact ⟨rfl, by rintro text ⟨⟩⟩
    | some change =>
      have changed := named change (List.mem_of_find?_eq_some found)
        (by simpa using List.find?_some found)
      exact ⟨changed.parsed, changed.text⟩
  obtain ⟨installed, ran, holds⟩ := entityAt_installPages (fun name key => (states name key).2)
  exact ⟨installed, ran, fun name key => (holds name key).trans (states name key).1⟩

def digitParser : JsonParser ℕ where
  parse
    | [unit] => if 0x30 ≤ unit ∧ unit ≤ 0x39 then some (unit.toNat - 0x30) else none
    | _ => none
  parse_nil := rfl

def digitChanges : List (FeedChange digitParser) :=
  [⟨unitsOf "tabs", unitsOf "a", some ⟨7, unitsOf "7", 1, rfl⟩⟩,
    ⟨unitsOf "tabs", unitsOf "b", none⟩]

/-- Without room for any entity, all of them come in parts. -/
theorem digits_rejoin : ∃ installed,
    installPages digitParser .empty
      ((paginateFeedChanges digitChanges 0).map FeedPageBody.domains) = some installed ∧
    entityAt installed (unitsOf "tabs") (unitsOf "a") = some 7 := by
  obtain ⟨installed, ran, holds⟩ :=
    @installPages_paginateFeedChanges _ digitParser digitChanges (by decide) .empty 0
  exact ⟨installed, ran, (holds _ _).trans rfl⟩

end OxeeUI.Sidebar
