import Mathlib.Data.String.Basic

/-!
# Strings as bytes

The UTF-8 bytes of a string, as the byte-oriented operations of the source see them, and the
checked way back.
-/

namespace Fluxon

/-- `str::as_bytes`. -/
def asBytes (s : String) : List UInt8 := s.toByteArray.data.toList

/-- `std::str::from_utf8`. -/
def fromUtf8 (b : List UInt8) : Option String := String.fromUTF8? ⟨b.toArray⟩

/-- The bytes end inside a character: continuation bytes make them valid. -/
def endsInChar (b : List UInt8) : Bool :=
  [1, 2, 3].any fun n => [0x80, 0xBF].any fun c => (fromUtf8 (b ++ .replicate n c)).isSome

/-- The text of the `Utf8Error` for bytes that are no UTF-8. -/
def utf8Error (b : List UInt8) : String :=
  let validUpTo := ((List.range b.length).filter fun n => (fromUtf8 (b.take n)).isSome).getLastD 0
  if endsInChar b then s!"incomplete utf-8 byte sequence from index {validUpTo}"
  else
    let errorLen := if endsInChar (b.take (validUpTo + 3)) then 3
      else if endsInChar (b.take (validUpTo + 2)) then 2 else 1
    s!"invalid utf-8 sequence of {errorLen} bytes from index {validUpTo}"

@[simp] theorem fromUtf8_asBytes (s : String) : fromUtf8 (asBytes s) = some s := by
  have hbytes : (⟨(asBytes s).toArray⟩ : ByteArray) = s.toByteArray := by simp [asBytes]
  rw [fromUtf8, hbytes, String.fromUTF8?, dif_pos s.isValidUTF8]
  rfl

theorem asBytes_injective {s t : String} (h : asBytes s = asBytes t) : s = t := by
  have hs := fromUtf8_asBytes s
  rw [h, fromUtf8_asBytes] at hs
  exact (Option.some.inj hs).symm

/-- `str::starts_with` with a string pattern, which compares bytes. -/
def startsWith (s p : String) : Bool := (asBytes p).isPrefixOf (asBytes s)

end Fluxon
