import OxeeUI.Library.Utf16
import OxeeUI.Library.JsMap
import Mathlib.Algebra.Ring.Int.Defs

/-!
# The pages of a feed batch

Published entities and their changes, and how a batch of changes is laid out in
pages within a budget of encoded bytes.
-/

namespace OxeeUI.Sidebar

open Library

/-- The bytes of a code unit that is not half of a pair. -/
def unitBytes (unit : UInt16) : ℕ := if unit < 0x80 then 1 else if unit < 0x800 then 2 else 3

/-- `Buffer.byteLength(text, 'utf8')`. -/
def byteLength : Text → ℕ
  | [] => 0
  | [unit] => unitBytes unit
  | first :: second :: rest =>
    if isHighSurrogate first && isLowSurrogate second then 4 + byteLength rest
    else unitBytes first + byteLength (second :: rest)

/-- The bytes of a code unit in a JSON string, where it is not half of a pair. -/
def escapedBytes (unit : UInt16) : ℕ :=
  -- Quotes, backslashes and the five short escapes; then `\uXXXX`.
  if unit ∈ [0x22, 0x5C, 0x08, 0x09, 0x0A, 0x0C, 0x0D] then 2
  else if unit < 0x20 || isHighSurrogate unit || isLowSurrogate unit then 6
  else unitBytes unit

def escapedLength : Text → ℕ
  | [] => 0
  | [unit] => escapedBytes unit
  | first :: second :: rest =>
    if isHighSurrogate first && isLowSurrogate second then 4 + escapedLength rest
    else escapedBytes first + escapedLength (second :: rest)

/-- `Buffer.byteLength(JSON.stringify(text), 'utf8')`. -/
def jsonBytes (text : Text) : ℕ := 2 + escapedLength text

/-- `JSON.parse`; `none` where it throws, as it does on the empty text. -/
structure JsonParser (Value : Type*) where
  parse : Text → Option Value
  parse_nil : parse [] = none

/-- What `JSON.stringify` returns of a value that JSON can hold. -/
structure JsonText {Value : Type*} (parser : JsonParser Value) where
  text : Text
  value : Value
  parses : parser.parse text = some value

structure FeedEntity {Value : Type*} (parser : JsonParser Value) where
  value : Value
  json : Text
  bytes : ℕ
  parses : parser.parse json = some value

structure SidebarInputsDomainChange (Value : Type*) where
  upserts : JsMap Text Value
  removals : List Text
  parts : JsMap Text Text

abbrev PageDomains (Value : Type*) := JsMap Text (SidebarInputsDomainChange Value)

structure FeedPageBody (Value : Type*) where
  domains : PageDomains Value
  bytes : ℕ

def feedPageEnvelopeBytes : ℕ := 512
def domainShellBytes : ℕ := 44
def entryShellBytes : ℕ := 4
def maxEscapedBytesPerCodeUnit : ℕ := 3

variable {Value : Type*} {parser : JsonParser Value}

def feedEntityFromJson (json : JsonText parser) : FeedEntity parser :=
  ⟨json.value, json.text, byteLength json.text, json.parses⟩

/-- An entity's change in its domain: its new form, or `none` when it was removed. -/
structure FeedChange (parser : JsonParser Value) where
  domain : Text
  key : Text
  entity : Option (FeedEntity parser)

/-- Where the next piece ends: never inside a surrogate pair. -/
def splitEnd (text : Text) (units : ℕ) : ℕ :=
  let last := text.getD (min text.length units - 1) 0
  if min text.length units < text.length ∧ isHighSurrogate last then min text.length units - 1
  else min text.length units

theorem splitEnd_pos {text : Text} {units : ℕ} (some : text ≠ []) (wide : 2 ≤ units) :
    0 < splitEnd text units := by
  have length := List.length_pos_of_ne_nil some
  unfold splitEnd
  dsimp only
  split
  · omega
  · omega

def splitPieces (text : Text) (units : ℕ) (wide : 2 ≤ units) : List Text :=
  if text = [] then []
  else
    text.take (splitEnd text units) :: splitPieces (text.drop (splitEnd text units)) units wide
termination_by text.length
decreasing_by
  rename_i given
  rw [List.length_drop]
  exact Nat.sub_lt (List.length_pos_of_ne_nil given) (splitEnd_pos given wide)

/-- Cut a text into pieces whose JSON string form fits a number of bytes. -/
def splitJsonText (text : Text) (maxBytes : ℤ) : List Text :=
  splitPieces text (max 2 (maxBytes / maxEscapedBytesPerCodeUnit).toNat) (le_max_left _ _)

theorem splitPieces_flatten (text : Text) (units : ℕ) (wide : 2 ≤ units) :
    (splitPieces text units wide).flatten = text := by
  fun_induction splitPieces text units wide with
  | case1 => rfl
  | case2 text given ih => rw [List.flatten_cons, ih, List.take_append_drop]

theorem splitJsonText_flatten (text : Text) (maxBytes : ℤ) :
    (splitJsonText text maxBytes).flatten = text :=
  splitPieces_flatten text _ _

structure Paging (Value : Type*) where
  pages : List (FeedPageBody Value)
  page : FeedPageBody Value

def FeedPageBody.empty : FeedPageBody Value := ⟨.empty, 0⟩

namespace SidebarInputsDomainChange

def empty : SidebarInputsDomainChange Value := ⟨.empty, [], .empty⟩

def upsert (key : Text) (value : Value) (change : SidebarInputsDomainChange Value) :
    SidebarInputsDomainChange Value := { change with upserts := change.upserts.set key value }

def remove (key : Text) (change : SidebarInputsDomainChange Value) :
    SidebarInputsDomainChange Value := { change with removals := change.removals ++ [key] }

def part (key piece : Text) (change : SidebarInputsDomainChange Value) :
    SidebarInputsDomainChange Value := { change with parts := change.parts.set key piece }

end SidebarInputsDomainChange

namespace Paging

def start : Paging Value := ⟨[], .empty⟩

def turn (paging : Paging Value) : Paging Value := ⟨paging.pages ++ [paging.page], .empty⟩

/-- A domain's change in the page, and what adding the domain to the page costs. -/
def domainOf (paging : Paging Value) (name : Text) : SidebarInputsDomainChange Value × ℕ :=
  match paging.page.domains.get? name with
  | some existing => (existing, 0)
  | none => (.empty, jsonBytes name + domainShellBytes)

def put (paging : Paging Value) (name : Text) (cost : ℕ)
    (write : SidebarInputsDomainChange Value → SidebarInputsDomainChange Value) : Paging Value :=
  let domain := paging.domainOf name
  { paging with
    page := ⟨paging.page.domains.set name (write domain.1),
      paging.page.bytes + (domain.2 + cost)⟩ }

def place (room : ℤ) (paging : Paging Value) (name : Text) (cost : ℕ)
    (write : SidebarInputsDomainChange Value → SidebarInputsDomainChange Value) : Paging Value :=
  if paging.page.bytes + (paging.domainOf name).2 + cost > room ∧ 0 < paging.page.bytes then
    paging.turn.put name cost write
  else paging.put name cost write

def add (room : ℤ) (paging : Paging Value) (change : FeedChange parser) : Paging Value :=
  let name := change.domain
  let keyBytes := jsonBytes change.key + entryShellBytes
  match change.entity with
  | none => paging.place room name keyBytes (.remove change.key)
  | some entity =>
    if (keyBytes + entity.bytes + jsonBytes name + domainShellBytes : ℕ) ≤ room then
      paging.place room name (keyBytes + entity.bytes) (.upsert change.key entity.value)
    else
      let partRoom := room - keyBytes - jsonBytes name - domainShellBytes - 2
      -- A page holds one part of an entity, so the reader joins parts in page order.
      (splitJsonText entity.json partRoom).foldl (fun paging piece =>
        (paging.place room name (keyBytes + jsonBytes piece) (.part change.key piece)).turn)
        paging

end Paging

/-- Lay out the changes within the budget of each page. -/
def paginateFeedChanges (changes : List (FeedChange parser)) (budgetBytes : ℕ) :
    List (FeedPageBody Value) :=
  let paging := changes.foldl (Paging.add ((budgetBytes : ℤ) - feedPageEnvelopeBytes)) .start
  if 0 < paging.page.bytes ∨ paging.pages = [] then paging.pages ++ [paging.page]
  else paging.pages

end OxeeUI.Sidebar
