import Mathlib.Data.String.Basic
import NandTools.Log.Event

/-! Messages that are cut by their bytes. The end of what is kept is looked for from the limit
backwards, one byte at a time, up to a boundary between characters. To go back beyond the first byte
and to cut a character in two are faults. Neither happens, and what is kept is as long as it may be. -/
namespace NandTools.Event

open String (Pos.Raw)

/-- The first boundary between characters that is met from byte `cut` on backwards. -/
def boundary? (message : String) : Nat → Option Nat
  | 0 => if Pos.Raw.isValid message ⟨0⟩ then some 0 else none
  | cut + 1 =>
    if Pos.Raw.isValid message ⟨cut + 1⟩ then some (cut + 1) else boundary? message cut

/-- What stands before byte `cut` of the message, which has to be a boundary. -/
def before? (message : String) (cut : Nat) : Option String :=
  if valid : Pos.Raw.IsValid message ⟨cut⟩ then
    some (message.sliceTo (message.pos ⟨cut⟩ valid)).copy
  else none

/-- The message as it is kept in an event, unless there is a fault. -/
def stored? (message : String) : Option String :=
  if message.utf8ByteSize > Limits.logMessageBytes then
    ((boundary? message Limits.logMessageBytes).bind (before? message)).map (· ++ "...")
  else some message

/-- No longer beginning of the message takes at most `room` bytes. -/
structure Longest (room : Nat) (message front : String) : Prop where
  beginning : ∃ rest, message = front ++ rest
  fits : front.utf8ByteSize ≤ room
  covers : ∀ other rest, message = other ++ rest → other.utf8ByteSize ≤ room →
    ∃ more, front = other ++ more

variable {room cut found : Nat} {message front rest : String}

theorem isValid_byteSize_iff :
    Pos.Raw.IsValid message ⟨cut⟩ ↔
      ∃ front rest, message = front ++ rest ∧ cut = front.utf8ByteSize := by
  rw [Pos.Raw.isValid_iff_exists_append]
  simp [Pos.Raw.ext_iff]

/-- The search ends, since there is a boundary before the first byte, and it passes none over. -/
theorem exists_boundary (message : String) (cut : Nat) :
    ∃ found, boundary? message cut = some found ∧ found ≤ cut ∧
      Pos.Raw.IsValid message ⟨found⟩ ∧
      ∀ other, other ≤ cut → Pos.Raw.IsValid message ⟨other⟩ → other ≤ found := by
  induction cut with
  | zero =>
    have valid : Pos.Raw.IsValid message ⟨0⟩ := Pos.Raw.isValid_zero
    exact ⟨0, by simp [boundary?], Nat.le_refl 0, valid, fun other le _ => le⟩
  | succ cut ih =>
    by_cases valid : Pos.Raw.IsValid message ⟨cut + 1⟩
    · exact ⟨cut + 1, by simp [boundary?, valid], Nat.le_refl _, valid, fun other le _ => le⟩
    · obtain ⟨found, same, le, bound, last⟩ := ih
      refine ⟨found, by simp [boundary?, valid, same], Nat.le_succ_of_le le, bound, ?_⟩
      intro other below boundary
      have earlier : other ≠ cut + 1 := by
        rintro rfl
        exact valid boundary
      exact last other (by omega) boundary

theorem before?_append (front rest : String) :
    before? (front ++ rest) front.utf8ByteSize = some front := by
  have valid : Pos.Raw.IsValid (front ++ rest) ⟨front.utf8ByteSize⟩ :=
    isValid_byteSize_iff.mpr ⟨front, rest, rfl, rfl⟩
  have splits : ((front ++ rest).pos ⟨front.utf8ByteSize⟩ valid).Splits front rest :=
    ⟨rfl, String.offset_pos⟩
  rw [before?, dif_pos valid, splits.copy_sliceTo_eq]

/-- Of two beginnings of a message the one with fewer bytes begins the other. -/
theorem exists_append_of_le {other otherRest : String} (same : message = front ++ rest)
    (same' : message = other ++ otherRest) (le : other.utf8ByteSize ≤ front.utf8ByteSize) :
    ∃ more, front = other ++ more := by
  have texts : front.toList ++ rest.toList = other.toList ++ otherRest.toList := by
    rw [← String.toList_append, ← String.toList_append, ← same, ← same']
  rcases List.append_eq_append_iff.mp texts with ⟨more, longer, -⟩ | ⟨more, shorter, -⟩
  · -- The other one goes on, but has no bytes left to go on with.
    have goesOn : other = front ++ String.ofList more := by
      rw [← String.toList_inj, String.toList_append, String.toList_ofList, longer]
    rw [goesOn, String.utf8ByteSize_append] at le
    have nothing : String.ofList more = "" := String.utf8ByteSize_eq_zero_iff.mp (by omega)
    exact ⟨"", by rw [goesOn, nothing, String.append_empty, String.append_empty]⟩
  · refine ⟨String.ofList more, ?_⟩
    rw [← String.toList_inj, String.toList_append, String.toList_ofList, shorter]

theorem Longest.unique {other : String} (first : Longest room message front)
    (second : Longest room message other) : front = other := by
  obtain ⟨rest, same⟩ := first.beginning
  obtain ⟨otherRest, same'⟩ := second.beginning
  obtain ⟨more, longer⟩ := first.covers other otherRest same' second.fits
  obtain ⟨more', longer'⟩ := second.covers front rest same first.fits
  have sizes := congrArg String.utf8ByteSize longer
  have sizes' := congrArg String.utf8ByteSize longer'
  rw [String.utf8ByteSize_append] at sizes sizes'
  have nothing : more = "" := String.utf8ByteSize_eq_zero_iff.mp (by omega)
  rw [longer, nothing, String.append_empty]

/-- Only part of one more character would still fit. -/
theorem Longest.lt_add_four (longest : Longest room message front)
    (long : room < message.utf8ByteSize) : room < front.utf8ByteSize + 4 := by
  obtain ⟨rest, same⟩ := longest.beginning
  cases text : rest.toList with
  | nil =>
    have nothing : rest = "" := String.toList_eq_nil_iff.mp text
    rw [same, nothing, String.append_empty] at long
    have fits := longest.fits
    omega
  | cons c later =>
    by_contra short
    have further : message = (front ++ String.singleton c) ++ String.ofList later := by
      rw [same, String.append_assoc, ← String.ofList_cons, ← text, String.ofList_toList]
    have size : (front ++ String.singleton c).utf8ByteSize ≤ front.utf8ByteSize + 4 := by
      rw [String.utf8ByteSize_append, String.utf8ByteSize_singleton]
      exact Nat.add_le_add_left c.utf8Size_le_four _
    obtain ⟨more, longer⟩ := longest.covers _ _ further (by omega)
    have sizes := congrArg String.utf8ByteSize longer
    rw [String.utf8ByteSize_append, String.utf8ByteSize_append, String.utf8ByteSize_singleton]
      at sizes
    have positive := c.utf8Size_pos
    omega

/-- What is found by going back from byte `room` is the longest beginning that fits. -/
theorem longest_before_boundary (room : Nat) (message : String) :
    ∃ front, (boundary? message room).bind (before? message) = some front ∧
      Longest room message front := by
  obtain ⟨found, searched, le, valid, last⟩ := exists_boundary message room
  obtain ⟨front, rest, same, rfl⟩ := isValid_byteSize_iff.mp valid
  refine ⟨front, ?_, ⟨rest, same⟩, le, ?_⟩
  · rw [searched, same]
    exact before?_append front rest
  · intro other otherRest same' fits
    have bound : Pos.Raw.IsValid message ⟨other.utf8ByteSize⟩ :=
      isValid_byteSize_iff.mpr ⟨other, otherRest, same', rfl⟩
    exact exists_append_of_le same same' (last _ fits bound)

theorem clip_prefix (room : Nat) (text : List Char) : clip room text <+: text := by
  induction text generalizing room with
  | nil => exact List.prefix_rfl
  | cons c text ih =>
    rw [clip]
    split
    · exact List.cons_prefix_cons.mpr ⟨rfl, ih _⟩
    · exact List.nil_prefix

theorem utf8Len_clip_le (room : Nat) (text : List Char) : String.utf8Len (clip room text) ≤ room := by
  induction text generalizing room with
  | nil => exact Nat.zero_le room
  | cons c text ih =>
    rw [clip]
    split
    · have left := ih (room - c.utf8Size)
      rw [String.utf8Len_cons]
      omega
    · exact Nat.zero_le room

theorem prefix_clip {front text : List Char} (begins : front <+: text)
    (fits : String.utf8Len front ≤ room) : front <+: clip room text := by
  induction text generalizing front room with
  | nil => exact begins
  | cons c text ih =>
    cases front with
    | nil => exact List.nil_prefix
    | cons d front =>
      obtain ⟨rfl, later⟩ := List.cons_prefix_cons.mp begins
      rw [String.utf8Len_cons] at fits
      rw [clip, if_pos (by omega)]
      exact List.cons_prefix_cons.mpr ⟨rfl, ih later (by omega)⟩

theorem longest_clip (room : Nat) (message : String) :
    Longest room message (String.ofList (clip room message.toList)) := by
  refine ⟨?_, ?_, ?_⟩
  · obtain ⟨rest, same⟩ := clip_prefix room message.toList
    exact ⟨String.ofList rest, by rw [← String.ofList_append, same, String.ofList_toList]⟩
  · rw [String.utf8ByteSize_ofList]
    exact utf8Len_clip_le room message.toList
  · intro other rest same fits
    rw [← String.ofList_toList (s := other), String.utf8ByteSize_ofList] at fits
    have begins : other.toList <+: message.toList :=
      ⟨rest.toList, by rw [same, String.toList_append]⟩
    obtain ⟨more, longer⟩ := prefix_clip begins fits
    exact ⟨String.ofList more, by rw [← longer, String.ofList_append, String.ofList_toList]⟩

/-- The search without a fault comes to the clipped message. -/
theorem stored?_eq (message : String) : stored? message = some (clipMessage message) := by
  rw [stored?, clipMessage]
  split
  · obtain ⟨front, found, longest⟩ := longest_before_boundary Limits.logMessageBytes message
    rw [found, longest.unique (longest_clip Limits.logMessageBytes message)]
    rfl
  · rfl

theorem clipMessage_of_le (short : message.utf8ByteSize ≤ Limits.logMessageBytes) :
    clipMessage message = message :=
  if_neg (Nat.not_lt_of_le short)

theorem clipMessage_of_lt (long : Limits.logMessageBytes < message.utf8ByteSize) :
    ∃ front, clipMessage message = front ++ "..." ∧
      Longest Limits.logMessageBytes message front :=
  ⟨_, if_pos long, longest_clip Limits.logMessageBytes message⟩

/-- A message is stored without a fault in an event of any level: whole if it takes at most 4096
bytes, and otherwise as the longest beginning of it that does, which is no more than three bytes
shorter than that, with three dots after it. -/
theorem message_of_make (message : String) (level : Level) (code : Code) (details : Details) :
    let stored := (make level code message details).message
    stored? message = some stored ∧ stored.utf8ByteSize ≤ 4099 ∧
      (message.utf8ByteSize ≤ 4096 → stored = message) ∧
      (4096 < message.utf8ByteSize →
        ∃ front, stored = front ++ "..." ∧ Longest 4096 message front ∧
          4093 ≤ front.utf8ByteSize) := by
  intro stored
  refine ⟨stored?_eq message, ?_, clipMessage_of_le, fun long => ?_⟩
  · rcases Nat.lt_or_ge Limits.logMessageBytes message.utf8ByteSize with long | short
    · obtain ⟨front, same, longest⟩ := clipMessage_of_lt long
      calc stored.utf8ByteSize
        _ = front.utf8ByteSize + 3 := by
          rw [show stored = front ++ "..." from same, String.utf8ByteSize_append]
          rfl
        _ ≤ 4099 := Nat.add_le_add_right longest.fits 3
    · rw [show stored = message from clipMessage_of_le short]
      exact Nat.le_trans short (by decide)
  · obtain ⟨front, same, longest⟩ := clipMessage_of_lt long
    have missing : 4096 < front.utf8ByteSize + 4 := longest.lt_add_four long
    exact ⟨front, same, longest, by omega⟩

/-- Where byte 4096 is in the midst of a character of three bytes, this character is left out. -/
theorem message_of_make_of_euro_signs :
    let message := String.ofList (List.replicate 1400 '€')
    4096 < message.utf8ByteSize ∧
      (make .warning .warning message []).message =
        String.ofList (List.replicate 1365 '€') ++ "..." := by
  intro message
  have width (n : Nat) : (String.ofList (List.replicate n '€')).utf8ByteSize = 3 * n := by
    induction n with
    | zero => rfl
    | succ n ih =>
      rw [List.replicate_succ, String.ofList_cons, String.utf8ByteSize_append, ih,
        String.utf8ByteSize_singleton, show Char.utf8Size '€' = 3 from rfl]
      omega
  have long : 4096 < message.utf8ByteSize := by
    rw [width]
    decide
  refine ⟨long, ?_⟩
  obtain ⟨-, -, -, cut⟩ := message_of_make message .warning .warning []
  obtain ⟨front, same, ⟨⟨rest, whole⟩, fits, -⟩, enough⟩ := cut long
  have texts : front.toList ++ rest.toList = List.replicate 1400 '€' := by
    rw [← String.toList_append, ← whole, String.toList_ofList]
  obtain ⟨-, signs, -⟩ := List.append_eq_replicate_iff.mp texts
  have only : front = String.ofList (List.replicate front.toList.length '€') := by
    rw [← signs, String.ofList_toList]
  rw [only, width] at fits enough
  have count : front.toList.length = 1365 := by omega
  rw [same, only, count]

end NandTools.Event
