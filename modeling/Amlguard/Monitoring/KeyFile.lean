import Amlguard.Monitoring.Artifacts
import Mathlib.Data.List.DropRight
import Mathlib.Data.List.TakeWhile

/-!
# The key file of the artifact store

`from_key_file` strips white space from both ends of the file before the length of what is left decides
how it is read: sixty-four bytes as hexadecimal digits if they are such, anything else as the key itself.

Hexadecimal digits are no white space, so they load with or without a newline behind them. The bytes of
a random key may be white space: a key that begins or ends so is cut short, and the store is not built.
-/

namespace Amlguard

/-- The bytes that `bytes.strip` and `bytes.fromhex` take for white space. -/
def isSpaceByte (b : UInt8) : Bool := (9 ≤ b && b ≤ 13) || b == 32

/-- `bytes.strip`. -/
def stripBytes (bytes : Bytes) : Bytes := (bytes.dropWhile isSpaceByte).rdropWhile isSpaceByte

/-- `bytes.decode("ascii")`, as the codes of the characters; nothing when it raises. -/
def decodeAscii (bytes : Bytes) : Option Bytes := if bytes.all (· < 128) then some bytes else none

/-- The value of a hexadecimal digit of either case. -/
def hexDigitValue (c : UInt8) : Option UInt8 :=
  if 48 ≤ c ∧ c ≤ 57 then some (c - 48)
  else if 97 ≤ c ∧ c ≤ 102 then some (c - 87)
  else if 65 ≤ c ∧ c ≤ 70 then some (c - 55)
  else none

/-- `bytes.fromhex`: white space may stand before each pair of digits and at the end; nothing when it
raises. -/
def fromHex : Bytes → Option Bytes
  | [] => some []
  | [c] => if isSpaceByte c then some [] else none
  | c :: d :: rest =>
    if isSpaceByte c then fromHex (d :: rest)
    else do
      let top ← hexDigitValue c
      let bottom ← hexDigitValue d
      let bytes ← fromHex rest
      pure ((top * 16 + bottom) :: bytes)

/-- `from_key_file`, on the bytes of the file. -/
def EncryptedArtifactStore.fromKeyFile (file : Bytes) : Except PyError EncryptedArtifactStore :=
  let key := stripBytes file
  let key := if key.length = 64 then ((decodeAscii key).bind fromHex).getD key else key
  EncryptedArtifactStore.open' key

section Stripping

variable {bytes tail : Bytes}

/-- The bytes neither begin nor end with white space. -/
def Unpadded (bytes : Bytes) : Prop :=
  bytes.head?.any isSpaceByte = false ∧ bytes.getLast?.any isSpaceByte = false

instance (bytes : Bytes) : Decidable (Unpadded bytes) := inferInstanceAs (Decidable (_ ∧ _))

/-- Bytes without white space at their ends are those that stripping leaves. -/
theorem unpadded_iff : Unpadded bytes ↔
    bytes.dropWhile isSpaceByte = bytes ∧ bytes.rdropWhile isSpaceByte = bytes := by
  rw [List.dropWhile_eq_self_iff, List.rdropWhile_eq_self_iff]
  cases bytes with
  | nil => simp [Unpadded]
  | cons b rest => simp [Unpadded, List.getLast?_cons, List.getLast_eq_getLastD]

/-- Bytes among which there is no white space have none at their ends. -/
theorem unpadded_of_forall (h : ∀ b ∈ bytes, isSpaceByte b = false) : Unpadded bytes := by
  constructor
  · cases hfirst : bytes.head? with
    | none => rfl
    | some b => exact h b (List.mem_of_mem_head? hfirst)
  · cases hlast : bytes.getLast? with
    | none => rfl
    | some b => exact h b (List.mem_of_mem_getLast? hlast)

/-- White space behind bytes that have none at their ends is all that is stripped. -/
theorem stripBytes_append (h : Unpadded bytes) (htail : ∀ b ∈ tail, isSpaceByte b = true) :
    stripBytes (bytes ++ tail) = bytes := by
  obtain ⟨hfront, hback⟩ := unpadded_iff.mp h
  have hdropTail : (bytes ++ tail).rdropWhile isSpaceByte = bytes := by
    have hreverse : ∀ b ∈ tail.reverse, isSpaceByte b = true := by simpa using htail
    rw [List.rdropWhile, List.reverse_append, List.dropWhile_append_of_pos hreverse]
    exact hback
  unfold stripBytes
  cases bytes with
  | nil =>
    have hall : tail.dropWhile isSpaceByte = [] := List.dropWhile_eq_nil_iff.mpr htail
    rw [List.nil_append, hall, List.rdropWhile_nil]
  | cons b rest =>
    have hfirst : isSpaceByte b = false := h.1
    rw [List.cons_append, List.dropWhile_cons_of_neg (by simp [hfirst])]
    exact hdropTail

/-- Bytes with white space at an end are shortened. -/
theorem length_stripBytes_lt (h : ¬Unpadded bytes) : (stripBytes bytes).length < bytes.length := by
  have hsuffix : bytes.dropWhile isSpaceByte <:+ bytes := List.dropWhile_suffix _
  have hprefix : stripBytes bytes <+: bytes.dropWhile isSpaceByte := List.rdropWhile_prefix _ _
  by_contra hlong
  have hle := hprefix.length_le
  have hle' := hsuffix.length_le
  have hfront : bytes.dropWhile isSpaceByte = bytes := hsuffix.eq_of_length (by omega)
  have hback : stripBytes bytes = bytes.dropWhile isSpaceByte := hprefix.eq_of_length (by omega)
  unfold stripBytes at hback
  rw [hfront] at hback
  exact h (unpadded_iff.mpr ⟨hfront, hback⟩)

end Stripping

/-- The digit of a value below sixteen, in lower case. -/
def lowerDigit (v : UInt8) : UInt8 := if v < 10 then 48 + v else 87 + v

/-- The digit of a value below sixteen, in upper case. -/
def upperDigit (v : UInt8) : UInt8 := if v < 10 then 48 + v else 55 + v

/-- The character is the digit of a value, in either case. -/
def IsDigitOf (v c : UInt8) : Prop := c = lowerDigit v ∨ c = upperDigit v

/-- The digits spell the bytes: two for each byte, of either case. -/
inductive HexSpells : Bytes → Bytes → Prop where
  | nil : HexSpells [] []
  | cons {b c d : UInt8} {digits bytes : Bytes} (top : IsDigitOf (b / 16) c)
      (bottom : IsDigitOf (b % 16) d) (rest : HexSpells digits bytes) :
      HexSpells (c :: d :: digits) (b :: bytes)

section Spelling

variable {digits bytes : Bytes}

/-- The character is read as a value, and is an ASCII character other than white space. -/
def IsReadAs (v c : UInt8) : Prop := hexDigitValue c = some v ∧ isSpaceByte c = false ∧ c < 128

instance (v c : UInt8) : Decidable (IsReadAs v c) := inferInstanceAs (Decidable (_ ∧ _ ∧ _))

/-- The digits of a value are read as the value. -/
theorem IsDigitOf.spec {v c : UInt8} (hv : v < 16) (h : IsDigitOf v c) :
    IsReadAs v c := by
  have hdigits : ∀ n < 16, IsReadAs (UInt8.ofNat n) (lowerDigit (UInt8.ofNat n)) ∧
      IsReadAs (UInt8.ofNat n) (upperDigit (UInt8.ofNat n)) := by
    decide
  have hspec := hdigits v.toNat hv
  rw [UInt8.ofNat_toNat] at hspec
  rcases h with rfl | rfl
  · exact hspec.1
  · exact hspec.2

/-- A byte is the sum of its two digits. -/
theorem byte_of_digits (b : UInt8) : b / 16 * 16 + b % 16 = b := by
  apply UInt8.toNat_inj.mp
  have hlt := b.toNat_lt
  simp
  omega

/-- The two halves of a byte are digits. -/
theorem halves_lt (b : UInt8) : b / 16 < 16 ∧ b % 16 < 16 := by
  have hlt := b.toNat_lt
  constructor
  · apply UInt8.lt_iff_toNat_lt.mpr
    simp
    omega
  · apply UInt8.lt_iff_toNat_lt.mpr
    simp
    omega

/-- Digits that spell bytes are decoded to them. -/
theorem HexSpells.fromHex_eq (h : HexSpells digits bytes) : fromHex digits = some bytes := by
  induction h with
  | nil => rfl
  | @cons b c d digits bytes top bottom rest ih =>
    obtain ⟨htop, hspace, -⟩ := top.spec (halves_lt b).1
    obtain ⟨hbottom, -, -⟩ := bottom.spec (halves_lt b).2
    rw [fromHex, hspace, htop, hbottom, ih]
    change some ((b / 16 * 16 + b % 16) :: bytes) = _
    rw [byte_of_digits]

/-- Digits are ASCII characters other than white space. -/
theorem HexSpells.mem_spec (h : HexSpells digits bytes) {c : UInt8} (hc : c ∈ digits) :
    isSpaceByte c = false ∧ c < 128 := by
  induction h with
  | nil => cases hc
  | @cons b top' bottom' digits bytes top bottom rest ih =>
    rcases List.mem_cons.mp hc with rfl | hc
    · exact (top.spec (halves_lt b).1).2
    rcases List.mem_cons.mp hc with rfl | hc
    · exact (bottom.spec (halves_lt b).2).2
    · exact ih hc

/-- There are two digits for each byte. -/
theorem HexSpells.length_eq (h : HexSpells digits bytes) : digits.length = 2 * bytes.length := by
  induction h with
  | nil => rfl
  | cons top bottom rest ih =>
    simp only [List.length_cons, ih]
    omega

end Spelling

/-- What a line ends with: nothing, or a newline as written on Unix or on Windows. -/
def LineEnd (tail : Bytes) : Prop := tail = [] ∨ tail = [10] ∨ tail = [13, 10]

/-- A line end is white space. -/
theorem LineEnd.isSpace {tail : Bytes} (h : LineEnd tail) : ∀ b ∈ tail, isSpaceByte b = true := by
  rcases h with rfl | rfl | rfl
  · nofun
  · exact List.all_eq_true.mp (rfl : [10].all isSpaceByte = true)
  · exact List.all_eq_true.mp (rfl : [13, 10].all isSpaceByte = true)

/-- The file loads a store keyed with exactly the given key. -/
def LoadsKey (file key : Bytes) : Prop :=
  ∃ store, EncryptedArtifactStore.fromKeyFile file = .ok store ∧ store.key = key

section Loading

variable {file key digits tail : Bytes}

/-- Thirty-two bytes that are left after stripping are the key. -/
theorem loadsKey_of_strip (hstrip : stripBytes file = key) (hlength : key.length = 32) :
    LoadsKey file key := by
  refine ⟨⟨key, hlength⟩, ?_, rfl⟩
  simp only [EncryptedArtifactStore.fromKeyFile, hstrip]
  rw [if_neg (by omega)]
  exact dif_pos hlength

/-- Fewer than thirty-two bytes that are left after stripping are refused. -/
theorem not_loadsKey_of_strip (hstrip : (stripBytes file).length < 32) : ¬LoadsKey file key := by
  rintro ⟨store, hload, -⟩
  simp only [EncryptedArtifactStore.fromKeyFile] at hload
  rw [if_neg (by omega), EncryptedArtifactStore.open', dif_neg (by omega)] at hload
  cases hload

/-- The hexadecimal digits of a key load it, whatever white space stands behind them. -/
theorem loadsKey_of_hexSpells (hlength : key.length = 32) (h : HexSpells digits key)
    (htail : ∀ b ∈ tail, isSpaceByte b = true) : LoadsKey (digits ++ tail) key := by
  have hunpadded : Unpadded digits := unpadded_of_forall fun c hc => (h.mem_spec hc).1
  have hlengthDigits : digits.length = 64 := by
    rw [h.length_eq, hlength]
  have hascii : decodeAscii digits = some digits := by
    apply if_pos
    rw [List.all_eq_true]
    intro c hc
    exact decide_eq_true (h.mem_spec hc).2
  refine ⟨⟨key, hlength⟩, ?_, rfl⟩
  simp only [EncryptedArtifactStore.fromKeyFile, stripBytes_append hunpadded htail, hascii]
  rw [if_pos hlengthDigits, Option.bind_some, h.fromHex_eq]
  exact dif_pos hlength

end Loading

/-- Both encodings of a key load it: the raw bytes and any spelling in hexadecimal digits, each with
or without a newline at the end. -/
structure BothEncodingsLoad (key : Bytes) : Prop where
  raw : ∀ tail, LineEnd tail → LoadsKey (key ++ tail) key
  hex : ∀ digits tail, HexSpells digits key → LineEnd tail → LoadsKey (digits ++ tail) key

/-- Both encodings of a key load it exactly when its bytes neither begin nor end with white space. -/
theorem bothEncodingsLoad_iff (key : Bytes) (hlength : key.length = 32) :
    BothEncodingsLoad key ↔ Unpadded key := by
  constructor
  · intro h
    by_contra hpadded
    have hstrip := length_stripBytes_lt hpadded
    have hraw : LoadsKey key key := by
      have hfile := h.raw [] (.inl rfl)
      rwa [List.append_nil] at hfile
    exact not_loadsKey_of_strip (by omega) hraw
  · intro h
    constructor
    · intro tail htail
      exact loadsKey_of_strip (stripBytes_append h htail.isSpace) hlength
    · intro digits tail hspells htail
      exact loadsKey_of_hexSpells hlength hspells htail.isSpace

/-- A key without white space loads in both encodings. -/
theorem bothEncodingsLoad_iff_ones : BothEncodingsLoad (List.replicate 32 1) :=
  (bothEncodingsLoad_iff (List.replicate 32 1) rfl).mpr (by decide)

/-- A key of thirty-two bytes that ends with a newline. -/
def newlineKey : Bytes := List.replicate 31 200 ++ [10]

/-- Its raw bytes are refused as a file. -/
theorem newlineKey_refused : newlineKey.length = 32 ∧ ¬BothEncodingsLoad newlineKey ∧
    EncryptedArtifactStore.fromKeyFile newlineKey =
      .error (.valueError "artifact encryption key must be exactly 32 bytes") := by
  have hrefused : EncryptedArtifactStore.fromKeyFile newlineKey =
      .error (.valueError "artifact encryption key must be exactly 32 bytes") := rfl
  refine ⟨rfl, fun h => ?_, hrefused⟩
  obtain ⟨store, hload, -⟩ := h.raw [] (.inl rfl)
  rw [List.append_nil, hrefused] at hload
  cases hload

end Amlguard
