import Mathlib

/-!
# Protocol buffer wire format

`Info` keeps the cluster state under one coordinator key as a `crocks.pb.ClusterInfo`
message that the protocol buffer library writes and reads. This module models the
library's wire format for the field kinds of `src/proto/info.proto`: a message is a
sequence of fields, each a tag (field number and wire type) followed by a varint or a
length-delimited payload. A reader takes the input as a byte list and returns what it read
together with the bytes after it. The library's resource limits (total size and nesting
depth) are left out, so a length prefix is read as a varint of any length.
-/

namespace Crocks.Proto

/-- `CodedOutputStream::WriteVarint64`: seven bits a byte, low bits first, and every byte
but the last with its high bit set. -/
def writeVarint (value : Nat) : List UInt8 :=
  if value < 0x80 then [UInt8.ofNat value]
  else UInt8.ofNat (value % 0x80 + 0x80) :: writeVarint (value / 0x80)
termination_by value
decreasing_by omega

/-- `CodedInputStream::ReadVarint64`, reading at most `budget` bytes: a byte whose high bit
is clear ends the varint, and running out of budget or of input fails. -/
def readVarint : Nat → List UInt8 → Option (Nat × List UInt8)
  | 0, _ => none
  | _ + 1, [] => none
  | budget + 1, byte :: rest =>
    if byte.toNat < 0x80 then some (byte.toNat, rest)
    else (readVarint budget rest).map fun (high, tail) => (byte.toNat - 0x80 + 0x80 * high, tail)

/-- A value below `0x80` is written as one byte. -/
theorem writeVarint_of_lt {value : Nat} (small : value < 0x80) :
    writeVarint value = [UInt8.ofNat value] := by
  rw [writeVarint, if_pos small]

theorem writeVarint_ne_nil (value : Nat) : writeVarint value ≠ [] := by
  rw [writeVarint]
  split <;> simp

/-- A varint below `0x80 ^ count` takes at most `count` bytes. -/
theorem writeVarint_length_le (value count : Nat) (bound : value < 0x80 ^ count)
    (positive : 0 < count) : (writeVarint value).length ≤ count := by
  induction value using writeVarint.induct generalizing count with
  | case1 value small =>
    rw [writeVarint, if_pos small]
    simpa using positive
  | case2 value large ih =>
    rw [writeVarint, if_neg large]
    obtain ⟨count, rfl⟩ : ∃ rest, count = rest + 1 := ⟨count - 1, by omega⟩
    have quotient : value / 0x80 < 0x80 ^ count := by
      rw [Nat.pow_succ] at bound
      omega
    have nonzero : 0 < count := by
      rcases Nat.eq_zero_or_pos count with zero | pos
      · subst zero
        omega
      · exact pos
    simpa using ih count quotient nonzero

/-- Reading a written varint within its budget returns it and the bytes after it. -/
theorem readVarint_writeVarint (value : Nat) (rest : List UInt8) (budget : Nat)
    (fits : (writeVarint value).length ≤ budget) :
    readVarint budget (writeVarint value ++ rest) = some (value, rest) := by
  induction value using writeVarint.induct generalizing budget with
  | case1 value small =>
    rw [writeVarint, if_pos small] at fits ⊢
    obtain ⟨budget, rfl⟩ : ∃ less, budget = less + 1 := ⟨budget - 1, by simp at fits; omega⟩
    have byte : (UInt8.ofNat value).toNat = value := UInt8.toNat_ofNat_of_lt (by change _ < 256; omega)
    simp [readVarint, byte, small]
  | case2 value large ih =>
    rw [writeVarint, if_neg large] at fits ⊢
    obtain ⟨budget, rfl⟩ : ∃ less, budget = less + 1 := ⟨budget - 1, by simp at fits; omega⟩
    have byte : (UInt8.ofNat (value % 0x80 + 0x80)).toNat = value % 0x80 + 0x80 :=
      UInt8.toNat_ofNat_of_lt (by change _ < 256; omega)
    simp only [List.length_cons, Nat.add_le_add_iff_right] at fits
    rw [List.cons_append, readVarint, byte, if_neg (by omega), ih budget fits]
    simp only [Option.map_some', Option.some.injEq, Prod.mk.injEq, and_true]
    omega

/-- A varint read as a 64-bit value, at most ten bytes long, as the library reads field values. -/
def readVarint64 (bytes : List UInt8) : Option (Nat × List UInt8) :=
  (readVarint 10 bytes).map fun (value, rest) => (value % 2 ^ 64, rest)

/-- A 64-bit value is read back from its varint. -/
theorem readVarint64_writeVarint (value : Nat) (rest : List UInt8) (bound : value < 2 ^ 64) :
    readVarint64 (writeVarint value ++ rest) = some (value, rest) := by
  have fits := writeVarint_length_le value 10 (by omega) (by decide)
  simp only [readVarint64, readVarint_writeVarint value rest 10 fits, Option.map_some',
    Nat.mod_eq_of_lt bound]

/-- The value of one field, by its wire type. -/
inductive WireValue where
  /-- Wire type 0. -/
  | varint (value : Nat)
  /-- Wire type 1: eight bytes. -/
  | fixed64 (bytes : List UInt8)
  /-- Wire type 2: a length, then that many bytes. -/
  | lengthDelimited (payload : List UInt8)
  /-- Wire type 5: four bytes. -/
  | fixed32 (bytes : List UInt8)
  deriving DecidableEq, Repr

/-- One field of a message on the wire. -/
structure Field where
  /-- The field number of the schema. -/
  number : Nat
  /-- The value, tagged with its wire type. -/
  value : WireValue
  deriving DecidableEq, Repr

namespace WireValue

/-- `WireFormatLite::WireType` of a value. -/
def wireType : WireValue → Nat
  | varint _ => 0
  | fixed64 _ => 1
  | lengthDelimited _ => 2
  | fixed32 _ => 5

/-- The bytes of a value after its tag. -/
def write : WireValue → List UInt8
  | varint value => writeVarint value
  | fixed64 bytes => bytes
  | lengthDelimited payload => writeVarint payload.length ++ payload
  | fixed32 bytes => bytes

/-- A value the writer can produce: a varint of at most 64 bits, fixed values of their width. -/
def Valid : WireValue → Prop
  | varint value => value < 2 ^ 64
  | fixed64 bytes => bytes.length = 8
  | lengthDelimited _ => True
  | fixed32 bytes => bytes.length = 4

end WireValue

/-- `WireFormatLite::MakeTag` followed by the value. -/
def Field.write (field : Field) : List UInt8 :=
  writeVarint (field.number * 8 + field.value.wireType) ++ field.value.write

/-- A field number the library accepts, with a valid value. -/
def Field.Valid (field : Field) : Prop :=
  0 < field.number ∧ field.number < 2 ^ 29 ∧ field.value.Valid

/-- A message's fields, written in order. -/
def writeFields (fields : List Field) : List UInt8 :=
  fields.flatMap Field.write

/-- Split off `count` bytes; shorter input fails. -/
def takeBytes (count : Nat) (bytes : List UInt8) : Option (List UInt8 × List UInt8) :=
  if count ≤ bytes.length then some (bytes.take count, bytes.drop count) else none

theorem takeBytes_append (front rest : List UInt8) :
    takeBytes front.length (front ++ rest) = some (front, rest) := by
  simp [takeBytes]

/-- `WireFormatLite::SkipField` and the typed readers: the value after a tag of the given wire
type. Groups (wire types 3 and 4) and undefined wire types are refused. -/
def readValue (wireType : Nat) (bytes : List UInt8) : Option (WireValue × List UInt8) :=
  match wireType with
  | 0 => (readVarint64 bytes).map fun (value, rest) => (.varint value, rest)
  | 1 => (takeBytes 8 bytes).map fun (value, rest) => (.fixed64 value, rest)
  | 2 => do
    let (length, rest) ← readVarint bytes.length bytes
    let (payload, rest) ← takeBytes length rest
    pure (.lengthDelimited payload, rest)
  | 5 => (takeBytes 4 bytes).map fun (value, rest) => (.fixed32 value, rest)
  | _ => none

/-- `CodedInputStream::ReadTag` and the value after it. The tag is read as a 32-bit varint; a
zero tag is not the legitimate end of a message, so it fails the parse. -/
def readField (bytes : List UInt8) : Option (Field × List UInt8) := do
  let (tag, rest) ← readVarint64 bytes
  let tag := tag % 2 ^ 32
  if tag = 0 then none
  else
    let (value, rest) ← readValue (tag % 8) rest
    pure (⟨tag / 8, value⟩, rest)

/-- Read fields until the input ends, at most `fuel` of them. -/
def readFields : Nat → List UInt8 → Option (List Field)
  | _, [] => some []
  | 0, _ :: _ => none
  | fuel + 1, bytes@(_ :: _) => do
    let (field, rest) ← readField bytes
    let fields ← readFields fuel rest
    pure (field :: fields)

/-- Every field of a message, up to the end of its input. A field takes at least one byte, so
the input's length bounds the number of fields. -/
def readMessage (bytes : List UInt8) : Option (List Field) :=
  readFields bytes.length bytes

theorem readValue_write (value : WireValue) (rest : List UInt8) (valid : value.Valid) :
    readValue value.wireType (value.write ++ rest) = some (value, rest) := by
  cases value with
  | varint value =>
    simp [readValue, WireValue.wireType, WireValue.write, readVarint64_writeVarint value rest valid]
  | fixed64 bytes =>
    simp only [WireValue.Valid] at valid
    simp [readValue, WireValue.wireType, WireValue.write, ← valid, takeBytes_append]
  | lengthDelimited payload =>
    have fits : (writeVarint payload.length).length ≤
        (writeVarint payload.length ++ payload ++ rest).length := by simp
    simp only [readValue, WireValue.wireType, WireValue.write, List.append_assoc] at fits ⊢
    rw [readVarint_writeVarint _ _ _ fits]
    simp [takeBytes_append]
  | fixed32 bytes =>
    simp only [WireValue.Valid] at valid
    simp [readValue, WireValue.wireType, WireValue.write, ← valid, takeBytes_append]

theorem WireValue.wireType_lt (value : WireValue) : value.wireType < 8 := by
  cases value <;> simp [WireValue.wireType]

theorem readField_write (field : Field) (rest : List UInt8) (valid : field.Valid) :
    readField (field.write ++ rest) = some (field, rest) := by
  obtain ⟨positive, small, value⟩ := valid
  have typed := field.value.wireType_lt
  have tag : (field.number * 8 + field.value.wireType) % 2 ^ 32 =
      field.number * 8 + field.value.wireType := Nat.mod_eq_of_lt (by omega)
  simp only [readField, Field.write, List.append_assoc,
    readVarint64_writeVarint _ _ (by omega : field.number * 8 + field.value.wireType < 2 ^ 64),
    tag, Option.bind_eq_bind, Option.some_bind]
  rw [if_neg (by omega), show (field.number * 8 + field.value.wireType) % 8 = field.value.wireType
    by omega, readValue_write _ _ value]
  simp only [Option.some_bind, show (field.number * 8 + field.value.wireType) / 8 = field.number
    by omega]
  rfl

theorem Field.write_ne_nil (field : Field) : field.write ≠ [] := by
  simp [Field.write, writeVarint_ne_nil]

/-- Reading the written fields, with enough fuel, returns them. -/
theorem readFields_writeFields (fields : List Field) (valid : ∀ field ∈ fields, field.Valid)
    (fuel : Nat) (enough : fields.length ≤ fuel) :
    readFields fuel (writeFields fields) = some fields := by
  induction fields generalizing fuel with
  | nil => cases fuel <;> rfl
  | cons field fields ih =>
    obtain ⟨fuel, rfl⟩ : ∃ less, fuel = less + 1 := ⟨fuel - 1, by simp at enough; omega⟩
    obtain ⟨byte, more, written⟩ := List.exists_cons_of_ne_nil field.write_ne_nil
    have fieldRead := readField_write field (writeFields fields) (valid field (by simp))
    have restRead := ih (fun other mem => valid other (by simp [mem])) fuel (by simpa using enough)
    simp only [writeFields, List.flatMap_cons, written, List.cons_append] at fieldRead ⊢
    simp only [readFields, fieldRead]
    simp only [writeFields] at restRead
    simp [restRead]

/-- A field list takes at least one byte a field. -/
theorem length_le_writeFields (fields : List Field) : fields.length ≤ (writeFields fields).length := by
  induction fields with
  | nil => simp [writeFields]
  | cons field fields ih =>
    have nonempty := List.length_pos.mpr field.write_ne_nil
    simp only [writeFields, List.flatMap_cons, List.length_append, List.length_cons] at ih ⊢
    omega

/-- The fields of a written message are read back. -/
theorem readMessage_writeFields (fields : List Field) (valid : ∀ field ∈ fields, field.Valid) :
    readMessage (writeFields fields) = some fields :=
  readFields_writeFields fields valid _ (length_le_writeFields fields)

end Crocks.Proto
