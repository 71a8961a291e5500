import CastleWall.Support.Text

/-! # Names on disk

`filesystem-name-codec.ts`, `namespace-component.ts` and the paths of `filesystem.ts`. A namespace is a
directory and a key a file in it; both are spelled by one encoding. Reads and deletes fall back to the path
an older release would have used, which drops what it could not spell. -/

namespace CastleWall.Cognitive

open Text

def isSafeNameChar (c : Char) : Bool := c.isAlphanum || c == '_' || c == '.' || c == '-'

def escapeUnit (unit : Nat) : List Char :=
  let digits := (Nat.toDigits 16 unit).map Char.toUpper
  '!' :: (List.replicate (2 - digits.length) '0' ++ digits)

def encodeFilesystemStorageName (name : String) : String :=
  String.ofList (name.toList.flatMap fun c =>
    if isSafeNameChar c then [c] else (utf16Char c).flatMap escapeUnit)

def decodeNameChars : List Char → List Char
  | [] => []
  | '!' :: a::b::rest =>
    match toDigit 16 a, toDigit 16 b with
    | some high, some low => Char.ofNat (high * 16+low)::decodeNameChars rest
    | _, _ => '!' :: decodeNameChars (a::b::rest)
  | c::rest => c::decodeNameChars rest

def decodeFilesystemStorageName (encoded : String) : String :=
  String.ofList (decodeNameChars encoded.toList)

def filesystemStorageNameRoundTrips (name : String) : Bool :=
  decodeFilesystemStorageName (encodeFilesystemStorageName name) == name

theorem encode_injective {a b : String} (ha : filesystemStorageNameRoundTrips a=true)
    (hb : filesystemStorageNameRoundTrips b=true)
    (h : encodeFilesystemStorageName a=encodeFilesystemStorageName b) : a=b := by
  rw [filesystemStorageNameRoundTrips,beq_iff_eq] at ha hb
  rw [← ha,← hb,h]

def isSingleEncodedComponent (component : String) : Bool :=
  component != "" && component != "." && component != ".." &&
    !component.toList.contains '/' && !component.toList.contains '\\'

/-- `storageNamespacePathComponent` does not throw. -/
def isStorageNamespacePathComponent (namespaceName : String) : Bool :=
  !namespaceName.toList.contains '\x00' && filesystemStorageNameRoundTrips namespaceName &&
    isSingleEncodedComponent (encodeFilesystemStorageName namespaceName)

theorem roundTrips_of_component {namespaceName : String}
    (h : isStorageNamespacePathComponent namespaceName=true) :
    filesystemStorageNameRoundTrips namespaceName=true := by
  rw [isStorageNamespacePathComponent,Bool.and_eq_true,Bool.and_eq_true] at h
  exact h.1.2

def Plain (name : String) : Prop := name.toList.all isSafeNameChar=true

variable {name : String} {cs : List Char}

theorem plain_of_toList (h : name.toList=cs) (hcs : cs.all isSafeNameChar=true) :
    Plain name := by
  rw [Plain,h]
  exact hcs

theorem Plain.safe (h : Plain name) {c : Char} (hc : c∈name.toList) : isSafeNameChar c=true :=
  List.all_eq_true.mp h c hc

theorem Plain.notMem (h : Plain name) {c : Char} (hc : isSafeNameChar c=false) : c∉name.toList := by
  intro hmem
  rw [h.safe hmem] at hc
  cases hc

theorem flatMap_of_forall {spell : Char → List Char} (h : ∀ c∈cs, spell c=[c]) :
    cs.flatMap spell=cs := by
  rw [List.flatMap_congr h,List.flatMap_singleton']

theorem Plain.encode (h : Plain name) : encodeFilesystemStorageName name=name := by
  rw [encodeFilesystemStorageName,flatMap_of_forall fun c hc => if_pos (h.safe hc),String.ofList_toList]

theorem decodeNameChars_of_notMem (h : '!' ∉ cs) : decodeNameChars cs=cs := by
  induction cs with
  | nil => rfl
  | cons c rest ih =>
    rw [List.mem_cons,not_or] at h
    obtain ⟨hc,hres⟩ := h
    rw [decodeNameChars.eq_3 c rest fun a b more heq => absurd heq.symm hc,ih hres]

theorem Plain.roundTrips (h : Plain name) : filesystemStorageNameRoundTrips name=true := by
  rw [filesystemStorageNameRoundTrips,beq_iff_eq,h.encode,decodeFilesystemStorageName,
    decodeNameChars_of_notMem (h.notMem (by decide)),String.ofList_toList]

theorem Plain.component (h : Plain name) (hdot : name∉["",".",".."]) :
    isStorageNamespacePathComponent name=true := by
  simp only [List.mem_cons,List.not_mem_nil,or_false,not_or] at hdot
  simp [isStorageNamespacePathComponent,isSingleEncodedComponent,h.roundTrips,h.encode,hdot,
    h.notMem (c := '\x00') (by decide),h.notMem (c := '/') (by decide),h.notMem (c := '\\') (by decide)]

/-- A file under the storage root, without the `.enc` every name ends in. -/
structure Path where
  (dir name : String)
deriving DecidableEq

structure Address where
  (namespaceName key : String)
deriving DecidableEq

namespace Address

def entryPath (p : Address) : Path :=
  ⟨encodeFilesystemStorageName p.namespaceName,encodeFilesystemStorageName p.key⟩

/-- Each unit the older release did not allow becomes an underscore. -/
def legacySanitize (allowed : Char → Bool) (name : String) : String :=
  String.ofList (name.toList.flatMap fun c => if allowed c then [c] else (utf16Char c).map fun _ => '_')

def legacyNamespaceSanitize : String → String :=
  legacySanitize fun c => c.isAlphanum || c == '_' || c == '-'

def legacyKeySanitize : String → String := legacySanitize isSafeNameChar

def legacyEntryPath (p : Address) : Path :=
  ⟨legacyNamespaceSanitize p.namespaceName,legacyKeySanitize p.key⟩

def accepted (p : Address) : Bool :=
  isStorageNamespacePathComponent p.namespaceName && filesystemStorageNameRoundTrips p.key

variable {p : Address}

theorem entryPath_of_plain (hnam : Plain p.namespaceName) (hkey : Plain p.key) :
    p.entryPath=⟨p.namespaceName,p.key⟩ := by rw [entryPath,hnam.encode,hkey.encode]

theorem accepted_of_plain (hnam : Plain p.namespaceName) (hdot : p.namespaceName∉["",".",".."])
    (hkey : Plain p.key) : p.accepted=true := by
  rw [accepted,hnam.component hdot,hkey.roundTrips]
  rfl

theorem legacySanitize_of_allowed {allowed : Char → Bool} {name : String} (h : name.toList.all allowed=true) :
    legacySanitize allowed name=name := by
  rw [legacySanitize,flatMap_of_forall fun c hc => if_pos (List.all_eq_true.mp h c hc),String.ofList_toList]

theorem legacyEntryPath_of_plain (hnam : Plain p.namespaceName) (hdot : '.' ∉ p.namespaceName.toList)
    (hkey : Plain p.key) : p.legacyEntryPath=p.entryPath := by
  have hall : p.namespaceName.toList.all (fun c => c.isAlphanum || c == '_' || c == '-')=true := by
    rw [List.all_eq_true]
    intro c hc
    have hsaf := hnam.safe hc
    have hne : c ≠ '.' := fun heq => hdot (heq ▸ hc)
    simpa [isSafeNameChar,hne] using hsaf
  rw [legacyEntryPath,entryPath_of_plain hnam hkey,legacyNamespaceSanitize,legacySanitize_of_allowed hall,
    legacyKeySanitize,legacySanitize_of_allowed hkey]

theorem entryPath_injective {q : Address} (hp : p.accepted=true) (hq : q.accepted=true)
    (h : p.entryPath=q.entryPath) : p=q := by
  rw [accepted,Bool.and_eq_true] at hp hq
  rw [entryPath,entryPath,Path.mk.injEq] at h
  cases p
  cases q
  rw [Address.mk.injEq]
  exact ⟨encode_injective (roundTrips_of_component hp.1) (roundTrips_of_component hq.1) h.1,
    encode_injective hp.2 hq.2 h.2⟩

end Address

example : (Address.mk "a/b" "c").accepted=true ∧ (Address.mk "a" "b/c").accepted=true := by
  decide +kernel

end CastleWall.Cognitive
