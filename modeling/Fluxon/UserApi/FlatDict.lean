import Fluxon.Foundations.ByteReader
import Fluxon.Foundations.OrderedMap
import Fluxon.Foundations.Utf8
import Fluxon.Foundations.Word

/-!
# The flat-dict wire format

A flat dict is a map from UTF-8 keys to scalars, strings and byte strings. Its encoding is a
length-prefixed grammar: a `u32` entry count, then for each entry the key length, the key, a type
byte, the value length and the value, all lengths little-endian `u32`.

* `encodeFlatDictBytes` writes it, with its size checks;
* `flatKvDecodeBorrowed` walks it with bounds checks and returns ranges into the buffer for byte
  strings, `decodeFlatDictBytes` resolves the ranges and builds the dict.

A float is its 64 bits. Error texts are the source's.
-/

namespace Fluxon.UserApi

/-- A value of a flat dict. A float is represented by its bits. -/
inductive FlatValue
  | int64 (i : Int64)
  | float64 (bits : UInt64)
  | bool (b : Bool)
  | string (s : String)
  | bytes (b : List UInt8)
  deriving DecidableEq, Repr

/-- `BTreeMap<String, FlatValue>`. -/
abbrev FlatDict := OrderedMap String FlatValue

def flatKvTypeInt64 : UInt8 := 1
def flatKvTypeFloat64 : UInt8 := 3
def flatKvTypeString : UInt8 := 4
def flatKvTypeBytes : UInt8 := 5
def flatKvTypeBool : UInt8 := 7

/-! ## Encoding -/

/-- The type byte, the value length and the value. -/
def encodeFlatValue : FlatValue → Except String (List UInt8)
  | .bool b => return flatKvTypeBool :: toLeBytes 4 1 ++ [if b then 1 else 0]
  | .int64 i => return flatKvTypeInt64 :: toLeBytes 4 8 ++ toLeBytes 8 i.toBitVec.toNat
  | .float64 bits => return flatKvTypeFloat64 :: toLeBytes 4 8 ++ toLeBytes 8 bits.toNat
  | .string s => do
    let vb := asBytes s
    if vb.length > u32Max then
      throw "flat dict string too large"
    return flatKvTypeString :: toLeBytes 4 vb.length ++ vb
  | .bytes b => do
    if b.length > u32Max then
      throw "flat dict bytes too large"
    return flatKvTypeBytes :: toLeBytes 4 b.length ++ b

/-- One entry: the key with its length, then the value. -/
def encodeFlatEntry (e : String × FlatValue) : Except String (List UInt8) := do
  let kb := asBytes e.1
  if kb.length > u32Max then
    throw "flat dict key too large"
  let value ← encodeFlatValue e.2
  return toLeBytes 4 kb.length ++ kb ++ value

/-- The entries one after the other; the first error ends the encoding. -/
def encodeFlatEntries : List (String × FlatValue) → Except String (List UInt8)
  | [] => return []
  | e :: rest => do
    let head ← encodeFlatEntry e
    let tail ← encodeFlatEntries rest
    return head ++ tail

/-- `encode_flat_dict_bytes`. -/
def encodeFlatDictBytes (value : FlatDict) : Except String (List UInt8) := do
  if value.entries.length > u32Max then
    throw "flat dict too large"
  let body ← encodeFlatEntries value.entries
  return toLeBytes 4 value.entries.length ++ body

/-! ## Decoding -/

/-- A decoded value; a byte string is a range of the buffer. -/
inductive FlatKvValueRange
  | bool (b : Bool)
  | int64 (i : Int64)
  | float64 (bits : UInt64)
  | string (s : String)
  | bytesRange (start len : ℕ)
  deriving DecidableEq, Repr

/-- `i64::from_le_bytes`. -/
def int64FromLeBytes (b : List UInt8) : Int64 := Int64.ofBitVec (BitVec.ofNat 64 (fromLeBytes b))

/-- `f64::from_le_bytes`, as bits. -/
def float64FromLeBytes (b : List UInt8) : UInt64 := UInt64.ofNat (fromLeBytes b)

/-- The value of the type byte `typeId` whose bytes are `valBytes`, found at `valStart`. -/
def decodeFlatKvValue (key : String) (typeId : UInt8) (valStart valLen : ℕ)
    (valBytes : List UInt8) : Except String FlatKvValueRange :=
  if typeId = flatKvTypeBool then
    if valLen ≠ 1 then throw s!"bool length must be 1 (key={reprStr key})"
    else return .bool (valBytes.headD 0 ≠ 0)
  else if typeId = flatKvTypeInt64 then
    if valLen ≠ 8 then throw s!"int64 length must be 8 (key={reprStr key})"
    else return .int64 (int64FromLeBytes valBytes)
  else if typeId = flatKvTypeFloat64 then
    if valLen ≠ 8 then throw s!"float64 length must be 8 (key={reprStr key})"
    else return .float64 (float64FromLeBytes valBytes)
  else if typeId = flatKvTypeString then
    match fromUtf8 valBytes with
    | none => throw s!"invalid UTF-8 string value for key {reprStr key}: {utf8Error valBytes}"
    | some s => return .string s
  else if typeId = flatKvTypeBytes then
    return .bytesRange valStart valLen
  else throw s!"unknown type id {typeId} for key {reprStr key}"

open Reader

/-- The key of an entry. -/
def readFlatKvKey : Reader String := do
  let keyLen ← readU32 "key length"
  let keyBytes ← readBytes keyLen "key bytes"
  match fromUtf8 keyBytes with
  | none => throw s!"invalid UTF-8 key: {utf8Error keyBytes}"
  | some key => return key

/-- The value of an entry, whose type byte and length have been read. -/
def readFlatKvValue (key : String) (typeId : UInt8) (valLen : ℕ) : Reader FlatKvValueRange := do
  let valStart ← get
  let valBytes ← readBytes valLen "value bytes"
  match decodeFlatKvValue key typeId valStart valLen valBytes with
  | .error e => throw e
  | .ok value => return value

/-- One pass of the entry loop. -/
def readFlatKvEntry : Reader (String × FlatKvValueRange) := do
  let key ← readFlatKvKey
  let typeId ← readU8 "value type id"
  let valLen ← readU32 "value length"
  let value ← readFlatKvValue key typeId valLen
  return (key, value)

/-- The entry count and the entries. -/
def readFlatKv : Reader (List (String × FlatKvValueRange)) := do
  let count ← readU32 "entry count header"
  times readFlatKvEntry count

variable (data : List UInt8)

/-- `flat_kv_decode_borrowed`, and `flat_kv_decode_ranges`, which copies its strings. -/
def flatKvDecodeBorrowed : Except String (List (String × FlatKvValueRange)) := do
  let (items, pos) ← readFlatKv data 0
  if pos ≠ data.length then
    throw "trailing bytes present"
  return items

/-- The value a decoded range stands for. -/
def resolveFlatKvValue : FlatKvValueRange → Except String FlatValue
  | .bool b => return .bool b
  | .int64 i => return .int64 i
  | .float64 bits => return .float64 bits
  | .string s => return .string s
  | .bytesRange start len =>
    if start + len > data.length then throw "flat dict bytes range out of bounds"
    else return .bytes (slice data start len)

/-- The loop of `decode_flat_dict_bytes`: later entries of a key replace earlier ones. -/
def insertFlatKvItems (data : List UInt8) :
    List (String × FlatKvValueRange) → FlatDict → Except String FlatDict
  | [], out => return out
  | (k, v) :: rest, out => do
    let vv ← resolveFlatKvValue data v
    insertFlatKvItems data rest (out.insert k vv)

/-- `decode_flat_dict_bytes`. -/
def decodeFlatDictBytes : Except String FlatDict :=
  match flatKvDecodeBorrowed data with
  | .error e => throw s!"flat dict decode failed: {e}"
  | .ok items => insertFlatKvItems data items OrderedMap.empty

end Fluxon.UserApi
