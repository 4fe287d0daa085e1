import ExtendedQuery.Wire.Frontend

/-!
# Messages that can be written

The length that a message declares is the length of its body if its counts are those of what it counts
(`FrontendMessage.length_body`), so such a message is written unless it is too long for the protocol.
-/

namespace ExtendedQuery

open Wire

theorem Bytes.length_ofString (s : String) : (ofString s).length = s.utf8ByteSize := by
  rw [← String.size_toByteArray]
  rfl

namespace Wire

theorem length_valueBytes (value : Option Bytes) :
    (valueBytes value).length = 4 + (value.getD []).length := by
  cases value <;> simp [valueBytes, Bytes.ofUInt32]

theorem length_flatMap_valueBytes (values : List (Option Bytes)) :
    (values.flatMap valueBytes).length = sizeOfValues values := by
  induction values with
  | nil => rfl
  | cons value values ih =>
    rw [List.flatMap_cons, List.length_append, ih, length_valueBytes]
    cases value <;> simp [sizeOfValues]

theorem length_flatMap_of_length {α : Type} {f : α → Bytes} {size : Nat}
    (each : ∀ a, (f a).length = size) (as : List α) : (as.flatMap f).length = as.length * size := by
  induction as with
  | nil => simp
  | cons a as ih => rw [List.flatMap_cons, List.length_append, each, ih, List.length_cons, Nat.succ_mul, Nat.add_comm]

namespace FrontendMessage

def Counted : FrontendMessage → Prop
  | .parse m => m.typeCount.toNat = m.types.length
  | .bind m => m.formatCount.toNat = m.formats.length ∧ m.valuesSize = sizeOfValues m.values ∧
      m.resultFormatCount.toNat = m.resultFormats.length
  | _ => True

theorem length_ofStringZero (s : String) : (Bytes.ofStringZero s).length = stringSize s := by
  simp [Bytes.ofStringZero, Bytes.length_ofString, stringSize]

theorem length_body {message : FrontendMessage} (counted : message.Counted) :
    message.body.length = message.declaredSize := by
  cases message with
  | parse m =>
    change m.typeCount.toNat = m.types.length at counted
    have types := length_flatMap_of_length (f := Bytes.ofUInt32) (fun n => Bytes.length_bigEndian 4 n.toNat) m.types
    simp only [body, declaredSize, List.length_append, length_ofStringZero, Bytes.ofUInt16,
      Bytes.length_bigEndian, types, counted]
  | bind m =>
    obtain ⟨formats, size, results⟩ := counted
    have written := length_flatMap_of_length (f := formatBytes) fun f => Bytes.length_bigEndian 2 f.code.toNat
    simp only [body, declaredSize, List.length_append, length_ofStringZero, Bytes.ofUInt16,
      Bytes.length_bigEndian, written, length_flatMap_valueBytes, formats, size, results]
  | execute portal maxRows =>
    simp [body, declaredSize, length_ofStringZero, Bytes.ofUInt32]
  | describe target name =>
    simp [body, declaredSize, length_ofStringZero, Nat.add_comm]
  | close target name =>
    simp [body, declaredSize, length_ofStringZero, Nat.add_comm]
  | sync => rfl

theorem frame?_isSome {message : FrontendMessage} (counted : message.Counted)
    (fits : 4 + message.declaredSize < UInt32.size) : message.frame?.isSome := by
  rw [frame?, if_pos ⟨length_body counted, fits⟩]
  rfl

theorem writeAll?_isSome {messages : List FrontendMessage}
    (framed : ∀ message ∈ messages, message.frame?.isSome) (buffer : Bytes) :
    (writeAll? messages buffer).isSome := by
  have frames : (messages.mapM frame?).isSome := by
    induction messages with
    | nil => rfl
    | cons message messages ih =>
      obtain ⟨first, some⟩ := Option.isSome_iff_exists.1 (framed message (by simp))
      obtain ⟨later, rest⟩ := Option.isSome_iff_exists.1 (ih fun m member => framed m (by simp [member]))
      rw [List.mapM_cons, some, rest]
      rfl
  obtain ⟨bytes, some⟩ := Option.isSome_iff_exists.1 frames
  rw [writeAll?, some]
  rfl

end FrontendMessage

end Wire

end ExtendedQuery
