import CastleWall.Cognitive.StorageNames

/-! # The name codec over code units

`filesystem-name-codec.ts` on strings of UTF-16 code units, surrogates without their partner included. An escape is as
wide as its code unit when it is written, and two digits wide when it is read. -/

namespace CastleWall.Cognitive.NameCodec

inductive NameKind where
  | namespaceName
  | key

structure FilesystemStorageNameError where
  kind : NameKind
  (rawName requestedName : Option (List UInt16))

def unit (c : Char) : UInt16 := UInt16.ofNat c.toNat

def isSafeUnit (u : UInt16) : Bool := u.toNat < 128 && isSafeNameChar (Char.ofNat u.toNat)

def spell (u : UInt16) : List UInt16 := if isSafeUnit u then [u] else (escapeUnit u.toNat).map unit

variable (name : List UInt16)

def encodeFilesystemStorageName : List UInt16 := name.flatMap spell

def hexValue (u : UInt16) : Option Nat := if u.toNat < 128 then Text.toDigit 16 (Char.ofNat u.toNat) else none

def decodeFilesystemStorageName : List UInt16 → List UInt16
  | u::a::b::rest =>
    match hexValue a, hexValue b with
    | some high, some low =>
      if u=unit '!' then UInt16.ofNat (high * 16+low)::decodeFilesystemStorageName rest
      else u::decodeFilesystemStorageName (a::b::rest)
    | _, _ => u::decodeFilesystemStorageName (a::b::rest)
  | name => name

def filesystemStorageNameRoundTrips : Bool :=
  decodeFilesystemStorageName (encodeFilesystemStorageName name)=name

def assertFilesystemStorageNameAddressable (kind : NameKind) :
    Except FilesystemStorageNameError Unit :=
  if filesystemStorageNameRoundTrips name then .ok () else .error ⟨kind,none,some name⟩

def decodeRawFilesystemStorageName (rawName : List UInt16) (kind : NameKind) :
    Except FilesystemStorageNameError (List UInt16) :=
  let decoded := decodeFilesystemStorageName rawName
  if encodeFilesystemStorageName decoded≠rawName then .error ⟨kind,some rawName,none⟩ else .ok decoded

theorem addressable_iff {name : List UInt16} {kind : NameKind} :
    assertFilesystemStorageNameAddressable name kind=.ok () ↔
      decodeFilesystemStorageName (encodeFilesystemStorageName name)=name := by
  rw [assertFilesystemStorageNameAddressable,filesystemStorageNameRoundTrips]
  split_ifs with h
  · exact iff_of_true rfl (of_decide_eq_true h)
  · exact iff_of_false nofun fun hnam => h (decide_eq_true hnam)

theorem decodeRaw_eq_ok_iff {raw name : List UInt16} {kind : NameKind} :
    decodeRawFilesystemStorageName raw kind=.ok name ↔
      decodeFilesystemStorageName raw=name ∧ encodeFilesystemStorageName name=raw := by
  rw [decodeRawFilesystemStorageName]
  split_ifs with h
  · exact iff_of_false nofun fun ⟨hnam,hraw⟩ => h (by rw [hnam,hraw])
  · constructor
    · rintro ⟨⟩
      exact ⟨rfl,not_not.mp h⟩
    · rintro ⟨rfl,-⟩
      rfl

variable {n : Nat} {c : Char}

theorem mem_toDigits (h : c∈Nat.toDigits 16 n) : ∃ d : Fin 16, c=d.val.digitChar := by
  induction n using Nat.strong_induction_on with
  | h n ih =>
    by_cases hn : n < 16
    · rw [Nat.toDigits_of_lt_base hn,List.mem_singleton] at h
      exact ⟨⟨n,hn⟩,h⟩
    · rw [Nat.toDigits_of_base_le (by omega) (by omega),List.mem_append,List.mem_singleton] at h
      rcases h with h | h
      · exact ih (n / 16) (by omega) h
      · exact ⟨⟨n % 16,Nat.mod_lt _ (by omega)⟩,h⟩

theorem isSeparator_of_mem_escapeUnit (h : c∈escapeUnit n) : c ≠ '/' ∧ c ≠ '\\' := by
  have hdig : ∀ d : Fin 16, d.val.digitChar.toUpper ≠ '/' ∧ d.val.digitChar.toUpper ≠ '\\' := by decide
  rw [escapeUnit,List.mem_cons,List.mem_append,List.mem_replicate,List.mem_map] at h
  rcases h with rfl | ⟨-,rfl⟩ | ⟨c,hc,rfl⟩
  · decide
  · decide
  · obtain ⟨d,rfl⟩ := mem_toDigits hc
    exact hdig d

theorem ascii_escapeUnit (h : c∈escapeUnit n) : c.toNat < 128 := by
  have hdig : ∀ d : Fin 16, d.val.digitChar.toUpper.toNat < 128 := by decide
  rw [escapeUnit,List.mem_cons,List.mem_append,List.mem_replicate,List.mem_map] at h
  rcases h with rfl | ⟨-,rfl⟩ | ⟨c,hc,rfl⟩
  · decide
  · decide
  · obtain ⟨d,rfl⟩ := mem_toDigits hc
    exact hdig d

theorem unit_injective {d : Char} (hc : c.toNat < 128) (hd : d.toNat < 128) (h : unit c=unit d) : c=d := by
  have hnat := congrArg UInt16.toNat h
  rw [unit,unit,UInt16.toNat_ofNat',UInt16.toNat_ofNat',Nat.mod_eq_of_lt (by omega),Nat.mod_eq_of_lt (by omega)] at hnat
  exact Char.toNat_inj.mp hnat

/-- A character that no name is spelled with. -/
theorem unit_notMem_encode (hc : c.toNat < 128) (hsaf : isSafeNameChar c=false)
    (hesc : ∀ n, c∉escapeUnit n) (name : List UInt16) : unit c∉encodeFilesystemStorageName name := by
  intro hmem
  obtain ⟨u,-,hu⟩ := List.mem_flatMap.mp hmem
  rw [spell] at hu
  split_ifs at hu with h
  · rw [List.mem_singleton] at hu
    rw [isSafeUnit,← hu,unit,UInt16.toNat_ofNat',Nat.mod_eq_of_lt (by omega),Char.ofNat_toNat,hsaf,
      Bool.and_false] at h
    cases h
  · obtain ⟨d,hd,heq⟩ := List.mem_map.mp hu
    rw [unit_injective (ascii_escapeUnit hd) hc heq] at hd
    exact hesc _ hd

end CastleWall.Cognitive.NameCodec
