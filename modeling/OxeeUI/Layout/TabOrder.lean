import OxeeUI.Layout.Trees

/-!
# The order of tabs in their groups

A group lists its tabs, pinned ones first.  Inserting, repinning and moving a tab between
groups permute the listed ids; a group that lists none any more closes.
-/

namespace OxeeUI.Layout

open OxeeUI.Library SplitTree

theorem filter_insertIdx {test : String → Bool} {item : String} (fails : ¬ test item)
    (index : Nat) (items : List String) :
    (items.insertIdx index item).filter test = items.filter test := by
  induction items generalizing index with
  | nil => cases index <;> simp [fails]
  | cons first rest ih =>
    cases index with
    | zero => simp [fails]
    | succ index => simp only [List.insertIdx_succ_cons, List.filter_cons, ih]

theorem insertIdx_length_append (front back : List String) (item : String) :
    (front ++ back).insertIdx front.length item = front ++ item :: back := by
  induction front with
  | nil => simp
  | cons first rest ih => simpa using ih

/-- `Math.max(0, Math.min(index, length))`. -/
def clampIndex (index : Int) (length : Nat) : Nat := (max 0 (min index length)).toNat

theorem clampIndex_le (index : Int) (length : Nat) : clampIndex index length ≤ length := by
  unfold clampIndex
  omega

/-- `order.filter((id) => id !== tabId)`, then `splice(index, 0, tabId)` with a clamped index. -/
def insertTabAt (order : List String) (tabId : String) (index : Int) : List String :=
  let others := order.filter (· ≠ tabId)
  others.insertIdx (clampIndex index others.length) tabId

theorem insertTabAt_perm (order : List String) (tabId : String) (index : Int) :
    (insertTabAt order tabId index).Perm (tabId :: order.filter (· ≠ tabId)) :=
  List.perm_insertIdx tabId _ (clampIndex_le ..)

def dedupeTabOrder (tabIds : List String) : List String := tabIds.eraseDups

theorem dedupeTabOrder_perm {order : List String} (distinct : order.Nodup) :
    (dedupeTabOrder order).Perm order :=
  (List.perm_ext_iff_of_nodup (nodup_eraseDups order) distinct).mpr fun _ =>
    List.mem_eraseDups

/-- `tabById.get(id)?.isPinned`. -/
def isPinnedTab (tabs : List LayoutTab) (id : String) : Bool :=
  (tabById tabs id).any fun tab => tab.fields.isPinned = some true

def partitionPinnedTabOrder (tabOrder : List String) (tabs : List LayoutTab)
    (movingTabId : String) : List String :=
  let withoutMoving := (dedupeTabOrder tabOrder).filter (· ≠ movingTabId)
  withoutMoving.filter (isPinnedTab tabs) ++
    movingTabId :: withoutMoving.filter (!isPinnedTab tabs ·)

theorem partitionPinnedTabOrder_perm {tabOrder : List String} {tabs : List LayoutTab}
    {movingTabId : String} (distinct : tabOrder.Nodup) (member : movingTabId ∈ tabOrder) :
    (partitionPinnedTabOrder tabOrder tabs movingTabId).Perm tabOrder := by
  have others : ((dedupeTabOrder tabOrder).filter (· ≠ movingTabId)).Perm
      (tabOrder.erase movingTabId) := by
    rw [← filter_ne_eq_erase distinct]
    exact (dedupeTabOrder_perm distinct).filter _
  unfold partitionPinnedTabOrder
  refine List.perm_middle.trans ?_
  refine ((List.filter_append_perm (isPinnedTab tabs) _).trans others |>.cons movingTabId).trans ?_
  exact (List.perm_cons_erase member).symm

/-- Where a tab goes: behind its anchor when that has the same pin, else at the end of its part. -/
def insertionSlot (order : List String) (tabs : List LayoutTab) (isPinned : Bool)
    (anchorTabId : Option String) : Nat :=
  let pinnedPrefixEnd := order.findIdx (!isPinnedTab tabs ·)
  match (anchorTabId.filter (· ≠ "")).bind fun anchor => order.idxOf? anchor with
  | none => if isPinned then pinnedPrefixEnd else order.length
  | some anchorIndex =>
    if ((order[anchorIndex]?).any (isPinnedTab tabs)) = isPinned then anchorIndex + 1
    else pinnedPrefixEnd

def insertTabIdIntoOrder (tabOrder : List String) (tabs : List LayoutTab) (tabId : String)
    (isPinned : Bool) (anchorTabId : Option String) : List String :=
  let order := (dedupeTabOrder tabOrder).filter (· ≠ tabId)
  order.insertIdx (insertionSlot order tabs isPinned anchorTabId) tabId

theorem insertionSlot_le (order : List String) (tabs : List LayoutTab) (isPinned : Bool)
    (anchorTabId : Option String) :
    insertionSlot order tabs isPinned anchorTabId ≤ order.length := by
  have prefixEnd : order.findIdx (!isPinnedTab tabs ·) ≤ order.length := List.findIdx_le_length
  unfold insertionSlot
  split
  · split
    · exact prefixEnd
    · exact le_rfl
  · next anchorIndex found =>
    obtain ⟨anchor, _, position⟩ := Option.bind_eq_some_iff.mp found
    have inside : anchorIndex < order.length := by
      rw [List.idxOf?, List.findIdx?_eq_some_iff_findIdx_eq] at position
      exact position.1
    split
    · exact inside
    · exact prefixEnd

theorem insertTabIdIntoOrder_perm {tabOrder : List String} {tabs : List LayoutTab}
    {tabId : String} {isPinned : Bool} {anchorTabId : Option String}
    (distinct : tabOrder.Nodup) :
    (insertTabIdIntoOrder tabOrder tabs tabId isPinned anchorTabId).Perm
      (tabId :: tabOrder.filter (· ≠ tabId)) := by
  refine (List.perm_insertIdx tabId _ (insertionSlot_le ..)).trans ?_
  exact ((dedupeTabOrder_perm distinct).filter _).cons tabId

def isReplaceablePreviewContentType : ContentKind → Bool
  | .editor | .diff | .conflictReview | .checkDetails => true
  | .agentSession | .browser | .simulator => false

/-- Incoming content tabs never replace a terminal's tab. -/
def canReplacePreviewContentType (incoming : ContentKind) (existing : Option ContentKind) :
    Bool :=
  match existing with
  | none => false
  | some existing =>
    if isReplaceablePreviewContentType incoming then isReplaceablePreviewContentType existing
    else existing = incoming

/-! ## Moves between groups -/

/-- Take a tab out of a group's order. -/
def LayoutGroup.without (group : LayoutGroup) (tabId : String) : LayoutGroup :=
  { group with tabOrder := group.tabOrder.filter (· ≠ tabId) }

/-- Groups that list a tab, and the tree without the others. -/
def pruneGroups (groups : List LayoutGroup) (layout : Option TabGroupLayoutNode) :
    List LayoutGroup × Option TabGroupLayoutNode :=
  let groups := groups.filter (·.tabOrder ≠ [])
  (groups, pruneDeadGroups layout (groups.map LayoutGroup.id))

structure HeadlessTabGroupMove where
  groups : List LayoutGroup
  layout : Option TabGroupLayoutNode
  tabId : String
  targetGroupId : String
  index : Int

/-- One group after a tab moved from its source group to the target. -/
def movedGroup (args : HeadlessTabGroupMove) (source : LayoutGroup) (group : LayoutGroup) :
    LayoutGroup :=
  if group.id = source.id then group.without args.tabId
  else if group.id = args.targetGroupId then
    { group with tabOrder := insertTabAt group.tabOrder args.tabId args.index }
  else group

/-- None for missing tabs or targets, and for a move within one group. -/
def buildHeadlessTabGroupMove (args : HeadlessTabGroupMove) :
    Option (List LayoutGroup × Option TabGroupLayoutNode) :=
  match args.groups.find? (args.tabId ∈ ·.tabOrder),
    args.groups.find? (·.id = args.targetGroupId) with
  | some source, some _ =>
    if source.id = args.targetGroupId then none
    else some (pruneGroups (args.groups.map (movedGroup args source)) args.layout)
  | _, _ => none

structure HeadlessTabGroupSplit where
  groups : List LayoutGroup
  layout : Option TabGroupLayoutNode
  tabId : String
  targetGroupId : String
  splitDirection : GroupSide
  newGroupId : String

/-- None for a missing tab, and for splitting the only tab off its own group. -/
def buildHeadlessTabGroupSplit (args : HeadlessTabGroupSplit) :
    Option (List LayoutGroup × TabGroupLayoutNode) :=
  match args.groups.find? (args.tabId ∈ ·.tabOrder) with
  | none => none
  | some source =>
    if source.id = args.targetGroupId ∧ source.tabOrder.length ≤ 1 then none
    else
      let layout := replaceLeaf (args.layout.getD (.leaf args.targetGroupId)) args.targetGroupId
        (buildSplitNode args.targetGroupId args.newGroupId args.splitDirection)
      let groups := args.groups.map fun group =>
        if group.id = source.id then { group with tabOrder := (source.without args.tabId).tabOrder }
        else group
      let pruned := pruneGroups (groups ++ [⟨args.newGroupId, [args.tabId]⟩]) (some layout)
      some (pruned.1, pruned.2.getD (.leaf args.newGroupId))

end OxeeUI.Layout
