import Fluxon.UserApi.FlatDict
import Mathlib.Data.List.Forall2

/-!
# The flat-dict codec round trip

What the encoder writes, the decoder reads back, and it reads nothing else near it:
`decodeFlatDictBytes_encodeFlatDictBytes`.

An entry is read exactly from its own bytes wherever they lie (`reads_readFlatKvEntry`), so the
entry loop consumes the concatenation of all entries and stops at its last byte. Every reader of
the decoder is stable under appended bytes (`stable_readFlatKv`); hence a buffer that is accepted
cannot be extended to, or cut from, another accepted one (`decodeFlatDictBytes_append`).
-/

namespace Fluxon.UserApi

open Reader FlatValue

theorem length_lt_of_fits {n : ℕ} (h : n ≤ u32Max) : n < 256 ^ 4 := by
  rw [u32Max] at h
  omega

/-! ## The bytes of an entry -/

/-- The type byte of a value. -/
def FlatValue.typeId : FlatValue → UInt8
  | .bool _ => flatKvTypeBool
  | .int64 _ => flatKvTypeInt64
  | .float64 _ => flatKvTypeFloat64
  | .string _ => flatKvTypeString
  | .bytes _ => flatKvTypeBytes

/-- The value bytes of a value. -/
def FlatValue.payload : FlatValue → List UInt8
  | .bool b => [if b then 1 else 0]
  | .int64 i => toLeBytes 8 i.toBitVec.toNat
  | .float64 bits => toLeBytes 8 bits.toNat
  | .string s => asBytes s
  | .bytes b => b

/-- The range a value is decoded to when its bytes start at `start`. -/
def FlatValue.range (start : ℕ) : FlatValue → FlatKvValueRange
  | .bool b => .bool b
  | .int64 i => .int64 i
  | .float64 bits => .float64 bits
  | .string s => .string s
  | .bytes b => .bytesRange start b.length

/-- The header of an entry: all its bytes but the value's. -/
def entryHeader (e : String × FlatValue) : List UInt8 :=
  (toLeBytes 4 (asBytes e.1).length ++ asBytes e.1) ++ ([e.2.typeId] ++
    toLeBytes 4 e.2.payload.length)

/-- All bytes of an entry. -/
def entryBytes (e : String × FlatValue) : List UInt8 := entryHeader e ++ e.2.payload

/-- The counts and lengths of a dict fit the `u32` fields of the format. -/
structure Fits (d : FlatDict) : Prop where
  count : d.entries.length ≤ u32Max
  key : ∀ e ∈ d.entries, (asBytes e.1).length ≤ u32Max
  value : ∀ e ∈ d.entries, e.2.payload.length ≤ u32Max

instance (d : FlatDict) : Decidable (Fits d) :=
  decidable_of_iff (d.entries.length ≤ u32Max ∧ (∀ e ∈ d.entries, (asBytes e.1).length ≤ u32Max) ∧
      ∀ e ∈ d.entries, e.2.payload.length ≤ u32Max)
    ⟨fun h => ⟨h.1, h.2.1, h.2.2⟩, fun h => ⟨h.count, h.key, h.value⟩⟩

theorem encodeFlatValue_eq {v : FlatValue} (h : v.payload.length ≤ u32Max) :
    encodeFlatValue v = .ok (v.typeId :: toLeBytes 4 v.payload.length ++ v.payload) := by
  cases v with
  | string s =>
    have hlen : ¬ (asBytes s).length > u32Max := not_lt.2 h
    simp only [encodeFlatValue, if_neg hlen]
    rfl
  | bytes b =>
    have hlen : ¬ b.length > u32Max := not_lt.2 h
    simp only [encodeFlatValue, if_neg hlen]
    rfl
  | bool _ => rfl
  | int64 | float64 => simp [encodeFlatValue, payload, typeId]; rfl

variable {e : String × FlatValue} {es : List (String × FlatValue)} {d : FlatDict}
  {data : List UInt8}

theorem encodeFlatEntry_eq (hk : (asBytes e.1).length ≤ u32Max) (hv : e.2.payload.length ≤ u32Max) :
    encodeFlatEntry e = .ok (entryBytes e) := by
  have hlen : ¬ (asBytes e.1).length > u32Max := not_lt.2 hk
  simp only [encodeFlatEntry, if_neg hlen, encodeFlatValue_eq hv, entryBytes, entryHeader]
  simp [bind, Except.bind, pure, Except.pure]

theorem encodeFlatEntries_eq (hk : ∀ e ∈ es, (asBytes e.1).length ≤ u32Max)
    (hv : ∀ e ∈ es, e.2.payload.length ≤ u32Max) :
    encodeFlatEntries es = .ok (es.flatMap entryBytes) := by
  induction es with
  | nil => rfl
  | cons e rest ih =>
    have hhead := encodeFlatEntry_eq (hk e List.mem_cons_self) (hv e List.mem_cons_self)
    have htail := ih (fun a ha => hk a (List.mem_cons_of_mem _ ha))
      (fun a ha => hv a (List.mem_cons_of_mem _ ha))
    rw [encodeFlatEntries, hhead, htail]
    rfl

theorem encodeFlatDictBytes_eq (h : Fits d) : encodeFlatDictBytes d =
      .ok (toLeBytes 4 d.entries.length ++ d.entries.flatMap entryBytes) := by
  have hlen : ¬ d.entries.length > u32Max := not_lt.2 h.count
  simp only [encodeFlatDictBytes, if_neg hlen, encodeFlatEntries_eq h.key h.value]
  rfl

/-! ## Reading an entry back -/

theorem int64FromLeBytes_toLeBytes (i : Int64) :
    int64FromLeBytes (toLeBytes 8 i.toBitVec.toNat) = i := by
  have hlt : i.toBitVec.toNat < 256 ^ 8 := i.toBitVec.isLt
  rw [int64FromLeBytes, fromLeBytes_toLeBytes hlt, BitVec.ofNat_toNat, BitVec.setWidth_eq,
    Int64.ofBitVec_toBitVec]

theorem float64FromLeBytes_toLeBytes (bits : UInt64) :
    float64FromLeBytes (toLeBytes 8 bits.toNat) = bits := by
  have hlt : bits.toNat < 256 ^ 8 := bits.toBitVec.isLt
  rw [float64FromLeBytes, fromLeBytes_toLeBytes hlt, UInt64.ofNat_toNat]

theorem decodeFlatKvValue_payload (key : String) (v : FlatValue) (start : ℕ) :
    decodeFlatKvValue key v.typeId start v.payload.length v.payload = .ok (v.range start) := by
  cases v with
  | bool b => cases b <;> rfl
  | int64 i =>
    simp only [payload, typeId, length_toLeBytes, decodeFlatKvValue]
    rw [int64FromLeBytes_toLeBytes]
    rfl
  | float64 bits =>
    simp only [payload, typeId, length_toLeBytes, decodeFlatKvValue]
    rw [float64FromLeBytes_toLeBytes]
    rfl
  | string s =>
    simp only [payload, typeId, decodeFlatKvValue, fromUtf8_asBytes]
    rfl
  | bytes b => rfl

theorem reads_readFlatKvKey {key : String} (h : (asBytes key).length ≤ u32Max) :
    Reads readFlatKvKey (toLeBytes 4 (asBytes key).length ++ asBytes key) fun _ => key := by
  refine (Reads.readU32 (length_lt_of_fits h) _).bind (w := fun _ _ => key) fun _ => ?_
  refine ((Reads.readBytes (asBytes key) "key bytes").bind (w := fun _ _ => key)
    fun _ => ?_).of_append_nil
  rw [fromUtf8_asBytes]
  exact Reads.pure key

theorem reads_readFlatKvValue (key : String) (v : FlatValue) :
    Reads (readFlatKvValue key v.typeId v.payload.length) v.payload fun p => v.range p := by
  refine Reads.get_bind (w := fun start _ => v.range start) fun start => ?_
  refine ((Reads.readBytes v.payload "value bytes").bind (w := fun _ _ => v.range start)
    fun _ => ?_).of_append_nil
  rw [decodeFlatKvValue_payload]
  exact Reads.pure _

/-- **An entry is read back from its own bytes.** A byte string is returned as the range where its
bytes lie, which is where the cursor stands after the header. -/
theorem reads_readFlatKvEntry (hk : (asBytes e.1).length ≤ u32Max)
    (hv : e.2.payload.length ≤ u32Max) :
    Reads readFlatKvEntry (entryBytes e)
      fun p => (e.1, e.2.range (p + (entryHeader e).length)) := by
  have hvalue := (reads_readFlatKvValue e.1 e.2).bind (f := fun value => return (e.1, value))
    fun _ => Reads.pure _
  have hlen := (Reads.readU32 (length_lt_of_fits hv) "value length").bind
    (f := fun valLen => readFlatKvValue e.1 e.2.typeId valLen >>= fun value =>
      return (e.1, value)) fun _ => hvalue
  have htype := (Reads.readU8 e.2.typeId "value type id").bind
    (f := fun typeId => readU32 "value length" >>= fun valLen =>
      readFlatKvValue e.1 typeId valLen >>= fun value => return (e.1, value))
    fun _ => hlen
  have hentry := (reads_readFlatKvKey hk).bind
    (f := fun key => readU8 "value type id" >>= fun typeId =>
      readU32 "value length" >>= fun valLen =>
        readFlatKvValue key typeId valLen >>= fun value => return (key, value))
    (w := fun _ q => (e.1, e.2.range (q + [e.2.typeId].length +
      (toLeBytes 4 e.2.payload.length).length))) fun _ => htype
  intro pre post
  have hrun := hentry pre post
  simp only [entryBytes, entryHeader, List.append_assoc, List.length_append, Nat.add_assoc]
    at hrun ⊢
  exact hrun

/-! ## The whole buffer -/

theorem resolveFlatKvValue_range (e : String × FlatValue) (before after : List UInt8) :
    resolveFlatKvValue (before ++ entryBytes e ++ after)
      (e.2.range (before.length + (entryHeader e).length)) = .ok e.2 := by
  obtain ⟨k, v⟩ := e
  cases v with
  | bytes b =>
    have hbuf : before ++ entryBytes (k, .bytes b) ++ after =
        (before ++ entryHeader (k, .bytes b)) ++ (b ++ after) := by
      simp [entryBytes, payload]
    have hin : ¬ (before ++ entryHeader (k, .bytes b)).length + b.length >
        ((before ++ entryHeader (k, .bytes b)) ++ (b ++ after)).length := by
      simp only [List.length_append]
      omega
    rw [hbuf, ← List.length_append]
    simp only [range, resolveFlatKvValue]
    rw [if_neg hin, slice, List.drop_left, List.take_left]
    rfl
  | bool | int64 | float64 | string => rfl

theorem insertFlatKvItems_eq {items : List (String × FlatKvValueRange)}
    (h : List.Forall₂ (fun i e => i.1 = e.1 ∧ resolveFlatKvValue data i.2 = .ok e.2) items es)
    (out : FlatDict) : insertFlatKvItems data items out = .ok (out.insertAll es) := by
  induction h generalizing out with
  | nil => rfl
  | @cons i e items es hie _ ih =>
    obtain ⟨k, v⟩ := i
    obtain ⟨rfl, hv⟩ := hie
    have hstep : insertFlatKvItems data ((e.1, v) :: items) out =
        insertFlatKvItems data items (out.insert e.1 e.2) := by
      rw [insertFlatKvItems, hv]
      rfl
    rw [hstep, ih]
    rfl

theorem decodeFlatDictBytes_encoding (h : Fits d) :
    decodeFlatDictBytes (toLeBytes 4 d.entries.length ++ d.entries.flatMap entryBytes) = .ok d := by
  obtain ⟨items, hrun, hitems⟩ := Reads.times
    (fun e he => reads_readFlatKvEntry (h.key e he) (h.value e he))
    (toLeBytes 4 d.entries.length) []
  have hcount := Reads.readU32 (length_lt_of_fits h.count) "entry count header" []
    (d.entries.flatMap entryBytes)
  simp only [List.append_nil, List.nil_append, List.length_nil, Nat.zero_add] at hrun hitems hcount
  have hread : readFlatKv (toLeBytes 4 d.entries.length ++ d.entries.flatMap entryBytes) 0 =
      .ok (items, (toLeBytes 4 d.entries.length).length +
        (d.entries.flatMap entryBytes).length) := by
    rw [readFlatKv, bind_run, hcount]
    exact hrun
  have hdecode : flatKvDecodeBorrowed
      (toLeBytes 4 d.entries.length ++ d.entries.flatMap entryBytes) = .ok items := by
    rw [flatKvDecodeBorrowed, hread]
    simp [bind, Except.bind, pure, Except.pure]
  have hresolved : List.Forall₂ (fun (i : String × FlatKvValueRange) e => i.1 = e.1 ∧
      resolveFlatKvValue (toLeBytes 4 d.entries.length ++ d.entries.flatMap entryBytes) i.2 =
        .ok e.2) items d.entries := by
    refine List.Forall₂.imp ?_ hitems
    rintro i e ⟨before, after, hbuf, rfl⟩
    rw [hbuf]
    exact ⟨rfl, resolveFlatKvValue_range e before after⟩
  have hinsert := insertFlatKvItems_eq hresolved OrderedMap.empty
  rw [OrderedMap.insertAll_entries] at hinsert
  rw [decodeFlatDictBytes, hdecode]
  exact hinsert

/-! ## No other buffer next to an accepted one -/

theorem stable_readFlatKvEntry : Stable readFlatKvEntry := by
  have hkey : Stable readFlatKvKey := by
    refine (Stable.readU32 _).bind fun n => (Stable.readBytes n _).bind fun b => ?_
    cases fromUtf8 b with
    | none => exact Stable.throw _
    | some key => exact Stable.pure key
  have hvalue : ∀ key t n, Stable (readFlatKvValue key t n) := by
    intro key t n
    refine Stable.get.bind fun start => (Stable.readBytes n _).bind fun b => ?_
    cases decodeFlatKvValue key t start n b with
    | error e => exact Stable.throw _
    | ok value => exact Stable.pure _
  exact hkey.bind fun key => (Stable.readU8 _).bind fun t => (Stable.readU32 _).bind fun n =>
    (hvalue key t n).bind fun _ => Stable.pure _

theorem stable_readFlatKv : Stable readFlatKv :=
  (Stable.readU32 _).bind fun n => stable_readFlatKvEntry.times n

/-- **An accepted buffer is not extended.** Bytes after an accepted buffer are rejected. -/
theorem decodeFlatDictBytes_append {ext : List UInt8} (h : decodeFlatDictBytes data = .ok d)
    (hext : ext ≠ []) :
    decodeFlatDictBytes (data ++ ext) =
      .error "flat dict decode failed: trailing bytes present" := by
  cases hread : readFlatKv data 0 with
  | error e => simp [decodeFlatDictBytes, flatKvDecodeBorrowed, hread, bind, Except.bind, throw,
      throwThe, MonadExceptOf.throw] at h
  | ok p =>
    obtain ⟨items, pos⟩ := p
    have hpos : pos = data.length := by
      by_contra hne
      simp [decodeFlatDictBytes, flatKvDecodeBorrowed, hread, hne, bind, Except.bind, throw,
        throwThe, MonadExceptOf.throw] at h
    have hlen : pos ≠ (data ++ ext).length := by
      have := List.length_pos_of_ne_nil hext
      rw [List.length_append]
      omega
    have hread' := stable_readFlatKv hread ext
    simp only [decodeFlatDictBytes, flatKvDecodeBorrowed, hread', bind, Except.bind, if_pos hlen]
    rfl

/-- **Round trip.** A dict whose counts and lengths fit the header fields is encoded, its encoding
decodes to the dict, and neither a strict initial part of the encoding nor an extension of it is
accepted. -/
theorem decodeFlatDictBytes_encodeFlatDictBytes (d : FlatDict) (h : Fits d) :
    ∃ bytes, encodeFlatDictBytes d = .ok bytes ∧ decodeFlatDictBytes bytes = .ok d ∧
      (∀ part, part <+: bytes → part ≠ bytes → ∃ e, decodeFlatDictBytes part = .error e) ∧
      ∀ ext, ext ≠ [] → ∃ e, decodeFlatDictBytes (bytes ++ ext) = .error e := by
  have hdec := decodeFlatDictBytes_encoding h
  refine ⟨_, encodeFlatDictBytes_eq h, hdec, ?_, ?_⟩
  · rintro part ⟨ext, hpart⟩ hne
    cases hp : decodeFlatDictBytes part with
    | error e => exact ⟨e, rfl⟩
    | ok d' =>
      have hext : ext ≠ [] := by
        rintro rfl
        exact hne (by simpa using hpart)
      have hbad := decodeFlatDictBytes_append hp hext
      rw [hpart, hdec] at hbad
      cases hbad
  · intro ext hext
    exact ⟨_, decodeFlatDictBytes_append hdec hext⟩

/-- A dict with one value of each kind. -/
def sampleDict : FlatDict :=
  ⟨[("a", .bool true), ("b", .int64 (-5)), ("c", .float64 4614253070214989087),
    ("d", .string "x"), ("e", .bytes [0, 255])], by decide +kernel⟩

theorem decodeFlatDictBytes_encodeFlatDictBytes_sampleDict : Fits sampleDict ∧
    ∃ bytes, encodeFlatDictBytes sampleDict = .ok bytes ∧
      decodeFlatDictBytes bytes = .ok sampleDict ∧
      (∀ part, part <+: bytes → part ≠ bytes → ∃ e, decodeFlatDictBytes part = .error e) ∧
      ∀ ext, ext ≠ [] → ∃ e, decodeFlatDictBytes (bytes ++ ext) = .error e :=
  ⟨by decide +kernel, decodeFlatDictBytes_encodeFlatDictBytes sampleDict (by decide +kernel)⟩

end Fluxon.UserApi
