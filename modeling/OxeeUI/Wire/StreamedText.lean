import OxeeUI.Wire.DeltaCoalescer

/-!
# The text of one stream

A stream holds all of its deltas while they fit, and from the first one that does
not only a beginning of them with the marker.
-/

namespace OxeeUI.Wire

open OxeeUI.Library

section Truncation

def truncatedText (limit : ℕ) (deltas : List Text) : Text :=
  let written := takeUtf8 (limit - truncationMarker.length) (deltas.flatMap characters)
  textOf (written ++ truncationMarker.take (limit - utf8Length written))

theorem utf8Length_truncationMarker_take (count : ℕ) :
    utf8Length (truncationMarker.take count) = (truncationMarker.take count).length := by
  have ascii : ∀ char ∈ truncationMarker, char.utf8Size = 1 :=
    forall_mem_of_all (by decide)
  have lengths : ∀ chars : List Char, (∀ char ∈ chars, char.utf8Size = 1) →
      utf8Length chars = chars.length := by
    intro chars one
    induction chars with
    | nil => rfl
    | cons char chars ih =>
      rw [utf8Length_cons, List.length_cons, one char List.mem_cons_self,
        ih fun other member => one other (List.mem_cons_of_mem _ member)]
      exact Nat.add_comm _ _
  exact lengths _ fun char member => ascii char (List.mem_of_mem_take member)

theorem textBytes_truncatedText_le (limit : ℕ) (deltas : List Text) :
    textBytes (truncatedText limit deltas) ≤ limit := by
  have head := utf8Length_takeUtf8_le (limit - truncationMarker.length) (deltas.flatMap characters)
  unfold truncatedText
  dsimp only
  rw [textBytes_textOf, utf8Length_append, utf8Length_truncationMarker_take, List.length_take]
  omega

/-- Chunks written one after another are written as their characters joined. -/
theorem writeStreamPrefix_eq (size : ℕ) (delta : Text) (chunks : List Text) (written : List Char)
    (within : utf8Length written ≤ size) :
    writeStreamPrefix size delta chunks written = written ++
      takeUtf8 (size - utf8Length written) (chunks.flatMap characters ++ characters delta) := by
  induction chunks generalizing written with
  | nil => rw [writeStreamPrefix, List.flatMap_nil, List.nil_append]
  | cons chunk chunks ih =>
    rw [writeStreamPrefix, List.flatMap_cons, List.append_assoc]
    split
    · next full =>
      have none : ∀ chars : List Char, takeUtf8 0 chars = [] := by
        intro chars
        have short := utf8Length_takeUtf8_le 0 chars
        cases taken : takeUtf8 0 chars with
        | nil => rfl
        | cons char rest =>
          rw [taken, utf8Length_cons] at short
          have size := char.utf8Size_pos
          omega
      rw [full, Nat.sub_self, none, List.append_nil]
    · dsimp only
      split
      · next cut => rw [takeUtf8_append_of_cut cut]
      · next whole =>
        have bound := utf8Length_takeUtf8_le (size - utf8Length written) (characters chunk)
        have fits : utf8Length (characters chunk) ≤ size - utf8Length written :=
          Nat.le_trans (Nat.not_lt.mp whole) bound
        have all := takeUtf8_append_of_fits fits []
        rw [takeUtf8, List.append_nil] at all
        rw [all, ih, takeUtf8_append_of_fits fits, utf8Length_append, List.append_assoc,
          Nat.sub_sub]
        rw [utf8Length_append]
        omega

theorem truncateStreamPrefix_eq (current : List Text) (delta : Text) (maxBytes : ℕ) :
    truncateStreamPrefix current delta maxBytes =
      { chunks := if truncatedText maxBytes (current ++ [delta]) = [] then []
          else [truncatedText maxBytes (current ++ [delta])]
        retainedBytes := textBytes (truncatedText maxBytes (current ++ [delta]))
        truncated := true } := by
  have written := writeStreamPrefix_eq (maxBytes - truncationMarker.length) delta current []
    (Nat.zero_le _)
  rw [List.nil_append, utf8Length_nil, Nat.sub_zero] at written
  have joined : current.flatMap characters ++ characters delta =
      (current ++ [delta]).flatMap characters := by
    rw [List.flatMap_append, List.flatMap_singleton]
  have clipped : ∀ count, truncationMarker.take (min truncationMarker.length count) =
      truncationMarker.take count := by
    intro count
    rw [Nat.min_comm, ← List.take_take, List.take_length]
  unfold truncateStreamPrefix truncatedText
  dsimp only
  rw [written, joined, clipped]

end Truncation

section Stream

variable {config : DeltaCoalescerConfig}

/-- The deltas of a text that was cut: those that fitted, the one that did not, and the rest. -/
structure CutAt (config : DeltaCoalescerConfig) (stream : DeltaStream) (kept : List Text)
    (next : Text) (rest : List Text) (limit : ℕ) : Prop where
  appended : stream.appended = kept ++ next :: rest
  withinStream : limit ≤ config.maxRetainedBytes
  withinTotal : limit ≤ config.maxTotalRetainedBytes
  fitted : (kept.map textBytes).sum ≤ limit
  overflowed : limit < ((kept ++ [next]).map textBytes).sum
  text : stream.text = truncatedText limit (kept ++ [next])

structure SoundStream (config : DeltaCoalescerConfig) (stream : DeltaStream) : Prop where
  bounded : stream.retainedBytes ≤ config.maxRetainedBytes
  bytes : textBytes stream.text ≤ stream.retainedBytes
  length : stream.textLength = stream.text.length
  whole : stream.truncated = false → stream.chunks = stream.appended.filter (· ≠ []) ∧
    stream.retainedBytes = (stream.appended.map textBytes).sum
  cut : stream.truncated = true → ∃ kept next rest limit, CutAt config stream kept next rest limit
  clean : stream.dirty = false → stream.text = stream.settled

theorem flatten_filter_ne_nil (texts : List Text) :
    (texts.filter (· ≠ [])).flatten = texts.flatten ∧
      (texts.filter (· ≠ [])).flatMap characters = texts.flatMap characters := by
  induction texts with
  | nil => exact ⟨rfl, rfl⟩
  | cons text texts ih =>
    rw [List.flatten_cons, List.flatMap_cons]
    by_cases nothing : text = []
    · subst nothing
      rw [List.filter_cons_of_neg (by simp)]
      exact ih
    · rw [List.filter_cons_of_pos (by simpa using nothing), List.flatten_cons, List.flatMap_cons,
        ih.1, ih.2]
      exact ⟨rfl, rfl⟩

theorem SoundStream.text_of_whole {stream : DeltaStream} (sound : SoundStream config stream)
    (whole : stream.truncated = false) : stream.text = stream.appended.flatten := by
  unfold DeltaStream.text
  rw [(sound.whole whole).1]
  exact (flatten_filter_ne_nil stream.appended).1

theorem SoundStream.empty (config : DeltaCoalescerConfig) : SoundStream config DeltaStream.empty where
  bounded := Nat.zero_le _
  bytes := Nat.le_refl 0
  length := rfl
  whole _ := ⟨rfl, rfl⟩
  cut isCut := (Bool.false_ne_true isCut).elim
  clean _ := rfl

theorem SoundStream.settled {stream : DeltaStream} (sound : SoundStream config stream) :
    SoundStream config { stream with dirty := false, settled := stream.text } where
  bounded := sound.bounded
  bytes := sound.bytes
  length := sound.length
  whole := sound.whole
  cut isCut := by
    obtain ⟨kept, next, rest, limit, cut⟩ := sound.cut isCut
    exact ⟨kept, next, rest, limit, cut.appended, cut.withinStream, cut.withinTotal, cut.fitted,
      cut.overflowed, cut.text⟩
  clean _ := rfl

theorem SoundStream.observe {stream : DeltaStream} (sound : SoundStream config stream)
    (isCut : stream.truncated = true) (delta : Text) (observedBytes : ℕ) :
    SoundStream config { stream with
      observedBytes := observedBytes, appended := stream.appended ++ [delta] } where
  bounded := sound.bounded
  bytes := sound.bytes
  length := sound.length
  whole whole := by
    rw [isCut] at whole
    cases whole
  cut _ := by
    obtain ⟨kept, next, rest, limit, cut⟩ := sound.cut isCut
    refine ⟨kept, next, rest ++ [delta], limit, ?_, cut.withinStream, cut.withinTotal, cut.fitted,
      cut.overflowed, cut.text⟩
    dsimp only
    rw [cut.appended, List.append_assoc]
    rfl
  clean := sound.clean

/-- The stream that `append` stores where the text was not cut yet. -/
def extended (stream : DeltaStream) (delta : Text) (next : BoundedChunks) : DeltaStream :=
  { stream with
    observedBytes := stream.observedBytes + textBytes delta
    appended := stream.appended ++ [delta]
    textLength :=
      if next.truncated then (next.chunks.head?.map List.length).getD 0
      else stream.textLength + delta.length
    chunks := next.chunks
    retainedBytes := next.retainedBytes
    truncated := next.truncated
    dirty := true }

theorem flatten_singleton_if (text : Text) :
    (if text = [] then [] else [text]).flatten = text ∧
      (((if text = [] then [] else [text]).head?.map List.length).getD 0) = text.length := by
  split
  · next nothing =>
    rw [nothing]
    exact ⟨rfl, rfl⟩
  · exact ⟨List.append_nil text, rfl⟩

/-- A delta that fits the limit is joined to the text, and one that does not cuts it. -/
theorem SoundStream.extend {stream : DeltaStream} (sound : SoundStream config stream)
    (whole : stream.truncated = false) (delta : Text) {limit : ℕ}
    (withinStream : limit ≤ config.maxRetainedBytes)
    (withinTotal : limit ≤ config.maxTotalRetainedBytes) (enough : stream.retainedBytes ≤ limit) :
    ∃ next, appendWithinUtf8ByteLimit stream.chunks stream.retainedBytes delta (textBytes delta)
        limit = next ∧ SoundStream config (extended stream delta next) ∧
      next.retainedBytes ≤ limit ∧
      (stream.retainedBytes + textBytes delta ≤ limit →
        next.truncated = false ∧ (extended stream delta next).text = stream.text ++ delta) ∧
      (limit < stream.retainedBytes + textBytes delta →
        next.truncated = true ∧
          (extended stream delta next).text = truncatedText limit (stream.appended ++ [delta])) := by
  refine ⟨_, rfl, ?_⟩
  obtain ⟨chunks, retained⟩ := sound.whole whole
  unfold appendWithinUtf8ByteLimit
  by_cases fits : textBytes delta ≤ limit - stream.retainedBytes
  · have joined : (if delta = [] then stream.chunks else stream.chunks ++ [delta]) =
        (stream.appended ++ [delta]).filter (· ≠ []) := by
      rw [chunks, List.filter_append]
      split
      · next nothing => simp [nothing]
      · next something => simp [something]
    have text : (if delta = [] then stream.chunks else stream.chunks ++ [delta]).flatten =
        stream.text ++ delta := by
      rw [joined, (flatten_filter_ne_nil _).1, List.flatten_append, sound.text_of_whole whole]
      simp
    rw [if_pos fits]
    refine ⟨⟨?_, ?_, ?_, fun _ => ⟨joined, ?_⟩, ?_, ?_⟩, ?_, fun _ => ⟨rfl, text⟩, ?_⟩
    · exact Nat.le_trans (Nat.add_le_of_le_sub' enough fits) withinStream
    · unfold DeltaStream.text extended
      dsimp only
      rw [text]
      exact Nat.le_trans (textBytes_append_le _ _) (Nat.add_le_add_right sound.bytes _)
    · unfold DeltaStream.text extended
      dsimp only
      rw [if_neg Bool.false_ne_true, text, List.length_append, sound.length]
    · unfold extended
      dsimp only
      rw [List.map_append, List.sum_append, retained]
      simp
    · intro isCut
      cases isCut
    · intro clean
      cases clean
    · exact Nat.add_le_of_le_sub' enough fits
    · intro overflow
      omega
  · have overflow : limit < stream.retainedBytes + textBytes delta := by
      omega
    have cutDeltas : truncatedText limit (stream.chunks ++ [delta]) =
        truncatedText limit (stream.appended ++ [delta]) := by
      unfold truncatedText
      rw [List.flatMap_append, List.flatMap_append, chunks, (flatten_filter_ne_nil _).2]
    rw [if_neg fits, truncateStreamPrefix_eq, cutDeltas]
    obtain ⟨text, length⟩ := flatten_singleton_if (truncatedText limit (stream.appended ++ [delta]))
    have small := textBytes_truncatedText_le limit (stream.appended ++ [delta])
    refine ⟨⟨Nat.le_trans small withinStream, ?_, ?_, ?_, fun _ => ?_, ?_⟩, small, ?_, fun _ =>
      ⟨rfl, text⟩⟩
    · unfold DeltaStream.text extended
      dsimp only
      rw [text]
    · unfold DeltaStream.text extended
      dsimp only
      rw [if_pos rfl, text, length]
    · intro isWhole
      cases isWhole
    · refine ⟨stream.appended, delta, [], limit, rfl, withinStream, withinTotal, ?_, ?_, text⟩
      · rw [← retained]
        exact enough
      · rw [List.map_append, List.sum_append, ← retained]
        simpa using overflow
    · intro clean
      cases clean
    · intro within
      omega

end Stream

end OxeeUI.Wire
