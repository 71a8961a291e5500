import CastleWall.Audit.Row

/-! # A reader of the log's own texts

The JSON reader of the support library, with the limits of `serde_json`, meets everything that the log
asks of its reader. -/

namespace CastleWall.Audit

open Text Json

private def asStr : Json → Option String
  | .str s => some s
  | _ => none

private def asBool : Json → Option Bool
  | .bool b => some b
  | _ => none

private def asPrior : Json → Option (Option String)
  | .null => some none
  | .str hash => some (some hash)
  | _ => none

def entryKeys : List String :=
  ["seq","captured_at_unix_ms","prior_sha256_hex","event_canonical_json","critical",
    "acked_anchor"]

/-- The entry an object describes; unknown keys are refused and an absent `acked_anchor` is false. -/
def entryOfFields (fields : List (String × Json)) : Option WalEntry := do
  let seq ← (fields.lookup "seq").bind asU64
  let capturedAtUnixMs ← (fields.lookup "captured_at_unix_ms").bind asU64
  let priorSha256Hex ← ((fields.lookup "prior_sha256_hex").map asPrior).getD (some none)
  let eventCanonicalJson ← (fields.lookup "event_canonical_json").bind asStr
  let critical ← (fields.lookup "critical").bind asBool
  let ackedAnchor ← ((fields.lookup "acked_anchor").map asBool).getD (some false)
  if seq < 2 ^ 64 ∧ capturedAtUnixMs < 2 ^ 64 ∧ fields.all (fun f => entryKeys.contains f.1) then
    some { seq, capturedAtUnixMs, priorSha256Hex, eventCanonicalJson, critical, ackedAnchor }
  else none

def referenceEnv (sha256 : List UInt8 → Vector UInt8 32) : WalEnv where
  valueFromStr s :=
    match fromText s with
    | some v => if v.wellFormed=true ∧ v.depth ≤ 127 then .ok v else .error "recursion limit exceeded"
    | none => .error "expected value"
  entryFromStr s :=
    match fromText s with
    | some (.obj fields) =>
      match entryOfFields fields with
      | some e => .ok e
      | none => .error "invalid entry"
    | _ => .error "expected value"
  sha256 := sha256

private def sortedEntryFields (e : WalEntry) : List (String × Json) :=
  (if e.ackedAnchor then [("acked_anchor",.bool true)] else []) ++
    [("captured_at_unix_ms",.num e.capturedAtUnixMs),("critical",.bool e.critical),
      ("event_canonical_json",.str e.eventCanonicalJson),
      ("prior_sha256_hex",priorField e.priorSha256Hex),("seq",.num e.seq)]

private theorem keysSorted_sortedEntryFields (e : WalEntry) : KeysSorted (sortedEntryFields e) := by
  have hkey : ["acked_anchor","captured_at_unix_ms","critical","event_canonical_json",
      "prior_sha256_hex","seq"].Pairwise fun a b => a.toList < b.toList := by decide +kernel
  unfold sortedEntryFields
  cases e.ackedAnchor with
  | false => exact keysSorted_iff_keys.mpr (List.pairwise_cons.mp hkey).2
  | true => exact keysSorted_iff_keys.mpr hkey

private theorem fields_perm_sortedEntryFields (e : WalEntry) : e.fields.Perm (sortedEntryFields e) := by
  unfold WalEntry.fields sortedEntryFields
  cases e.ackedAnchor with
  | false => exact (List.reverse_perm _).symm.trans (@List.perm_middle _ _ [_,_,_] _)
  | true =>
    exact (List.reverse_perm _).symm.trans ((@List.perm_middle _ _ [_,_,_] _).cons _)

variable {e : WalEntry}

private theorem entryOfFields_ofFields (h : e.InRange) :
    entryOfFields (ofFields e.fields)=some e := by
  obtain ⟨seq,captured,prior,event,critical,anchor⟩ := e
  rw [ofFields_of_perm (keysSorted_sortedEntryFields _) (fields_perm_sortedEntryFields _)]
  have hpri : asPrior (priorField prior)=some prior := by cases prior <;> rfl
  cases anchor with
  | false =>
    simp [entryOfFields,sortedEntryFields,List.lookup_cons,asU64,asStr,asBool,hpri,entryKeys]
    exact h
  | true =>
    simp [entryOfFields,sortedEntryFields,List.lookup_cons,asU64,asStr,asBool,hpri,entryKeys]
    exact h

private theorem entryOfFields_inRange {fields : List (String × Json)}
    (h : entryOfFields fields=some e) : e.InRange := by
  unfold entryOfFields at h
  simp only [Option.bind_eq_bind,Option.bind_eq_some_iff] at h
  obtain ⟨seq,-,captured,-,prior,-,event,-,critical,-,anchor,-,h⟩ := h
  split_ifs at h with hran
  obtain rfl := Option.some.inj h
  exact ⟨hran.1,hran.2.1⟩

private theorem wellFormed_fields (h : e.InRange) :
    ∀ f∈e.fields, f.2.wellFormed=true := by
  obtain ⟨hseq,hcap⟩ := h
  have hnum : ∀ n : Nat, n < 2 ^ 64 → wellFormed (.num n)=true := by
    intro n hn
    rw [wellFormed,decide_eq_true_iff]
    omega
  have hpri : wellFormed (priorField e.priorSha256Hex)=true := by
    cases e.priorSha256Hex <;> rfl
  unfold WalEntry.fields
  rw [List.forall_mem_append]
  constructor
  · simp only [List.forall_mem_cons]
    exact ⟨hnum _ hseq,hnum _ hcap,hpri,rfl,rfl,by simp⟩
  · cases e.ackedAnchor with
    | false => simp
    | true => simp [wellFormed]

theorem referenceEnv_lawful (sha256 : List UInt8 → Vector UInt8 32) : (referenceEnv sha256).Lawful where
  value_bounds := by
    intro s v h
    simp only [referenceEnv] at h
    split at h
    · split_ifs at h with hbou
      obtain rfl := Except.ok.inj h
      exact hbou
    · exact absurd h (by simp)
  value_of_canonicalText := by
    intro v hwf hdep
    simp only [referenceEnv]
    rw [fromText_canonicalText hwf]
    simp only [hwf,hdep,and_self,if_true]
  entry_inRange := by
    intro s e h
    simp only [referenceEnv] at h
    split at h
    · split at h
      · rename_i hfie
        obtain rfl := Except.ok.inj h
        exact entryOfFields_inRange hfie
      · exact absurd h (by simp)
    · exact absurd h (by simp)
  entry_of_text := by
    intro e hran
    simp only [referenceEnv]
    rw [WalEntry.text,fromText_objectText (wellFormed_fields hran)]
    simp only [entryOfFields_ofFields hran]

/-- An event with nothing but its chain fields and an operation. -/
def chainedEvent (seq : Nat) (prior : Option String) (operation : String) : Json :=
  .obj [("details",.obj [("prior_sha256_hex",priorField prior),("seq",.num seq)]),
    ("operation",.str operation)]

theorem wellFormed_chainedEvent {seq : Nat} (hseq : seq < 2 ^ 64) (prior : Option String)
    (operation : String) : (chainedEvent seq prior operation).wellFormed=true := by
  have hpri : wellFormed (priorField prior)=true := by cases prior <;> rfl
  have hnum : wellFormed (.num seq)=true := by
    rw [wellFormed,decide_eq_true_iff]
    omega
  have hdet : (["prior_sha256_hex","seq"] : List String).Pairwise
      fun a b => a.toList < b.toList := by decide +kernel
  have hkey : (["details","operation"] : List String).Pairwise
      fun a b => a.toList < b.toList := by decide +kernel
  refine wellFormed_obj.mpr ⟨keysSorted_iff_keys.mpr hkey,?_⟩
  simp only [List.forall_mem_cons]
  refine ⟨wellFormed_obj.mpr ⟨keysSorted_iff_keys.mpr hdet,?_⟩,rfl,by simp⟩
  simp only [List.forall_mem_cons]
  exact ⟨hpri,hnum,by simp⟩

private theorem length_decimal_le {n : Nat} (h : n < 2 ^ 64) : (decimal n).length ≤ 20 :=
  (Nat.length_toDigits_le_iff (by decide) (by decide)).mpr (lt_trans h (by decide))

private theorem length_priorField_le {prior : Option String}
    (h : ∀ hash∈prior, hash.toList.length ≤ 64) : (write (priorField prior)).length ≤ 386 := by
  cases prior with
  | none => decide
  | some hash =>
    have hhas := h hash rfl
    have hquo := length_quote_le hash
    rw [priorField,write]
    omega

theorem length_chainedEvent_le {seq : Nat} (hseq : seq < 2 ^ 64) {prior : Option String}
    (hpri : ∀ hash∈prior, hash.toList.length ≤ 64) {operation : String}
    (hope : operation.toList.length ≤ 64) :
    (chainedEvent seq prior operation).canonicalText.toList.length ≤ 2000 := by
  have hdec := length_decimal_le hseq
  have hfie := length_priorField_le hpri
  have hquo := length_quote_le operation
  have hkey : (quote "details").length ≤ 50 ∧ (quote "operation").length ≤ 50 ∧
      (quote "prior_sha256_hex").length ≤ 50 ∧ (quote "seq").length ≤ 50 := by decide +kernel
  have hdet := length_write_obj_le
    [("prior_sha256_hex",priorField prior),("seq",.num seq)]
  have heve := length_write_obj_le
    [("details",.obj [("prior_sha256_hex",priorField prior),("seq",.num seq)]),
      ("operation",.str operation)]
  have hnum : write (.num seq)=decimal seq := rfl
  have hstr : write (.str operation)=quote operation := rfl
  rw [canonicalText,String.toList_ofList]
  simp only [List.map_cons,List.map_nil,List.sum_cons,List.sum_nil,hnum,hstr,chainedEvent]
    at hdet heve ⊢
  omega

theorem length_text_le (hran : e.InRange)
    (hpri : ∀ hash∈e.priorSha256Hex, hash.toList.length ≤ 64) :
    (utf8Bytes e.text).length ≤ 24 * e.eventCanonicalJson.toList.length+4000 := by
  have hutf : ∀ cs : List Char, (cs.flatMap String.utf8EncodeChar).length ≤ 4 * cs.length := by
    intro cs
    induction cs with
    | nil => simp
    | cons c cs ih =>
      have hc := c.utf8Size_le_four
      rw [List.flatMap_cons,List.length_append,String.length_utf8EncodeChar,List.length_cons]
      omega
  have hseq := length_decimal_le hran.1
  have hcap := length_decimal_le hran.2
  have hfie := length_priorField_le hpri
  have hquo := length_quote_le e.eventCanonicalJson
  have hkey : (quote "seq").length ≤ 50 ∧ (quote "captured_at_unix_ms").length ≤ 50 ∧
      (quote "prior_sha256_hex").length ≤ 50 ∧ (quote "event_canonical_json").length ≤ 50 ∧
      (quote "critical").length ≤ 50 ∧ (quote "acked_anchor").length ≤ 50 := by decide +kernel
  have hboo : ∀ b, (write (.bool b)).length ≤ 5 := by decide
  have hcri := hboo e.critical
  have htru := hboo true
  have htex := length_objectText_le e.fields
  have hbyt := hutf (objectText e.fields)
  rw [WalEntry.text,utf8Bytes_ofList]
  have hnum : ∀ n : Nat, write (.num n)=decimal n := fun n => rfl
  have hstr : write (.str e.eventCanonicalJson)=quote e.eventCanonicalJson := rfl
  unfold WalEntry.fields at htex hbyt ⊢
  cases hanc : e.ackedAnchor with
  | false =>
    simp only [hanc,Bool.false_eq_true,if_false,List.append_nil,List.map_cons,List.map_nil,
      List.sum_cons,List.sum_nil,hnum,hstr] at htex hbyt ⊢
    omega
  | true =>
    simp only [hanc,if_true,List.cons_append,List.nil_append,List.map_cons,List.map_nil,
      List.sum_cons,List.sum_nil,hnum,hstr] at htex hbyt ⊢
    omega

theorem depth_chainedEvent (seq : Nat) (prior : Option String) (operation : String) :
    (chainedEvent seq prior operation).depth=2 := by
  cases prior <;> rfl

def startDigest : Vector UInt8 32 :=
  #v[0x8a,0x6e,0x29,0xba,0x25,0x99,0xfb,0xfe,0x97,0x93,0xbf,0x6a,0x49,0x40,0x23,0x59,
    0xb1,0xff,0xa1,0xf3,0xd2,0xcc,0x9f,0xac,0x99,0xa2,0x3f,0xa3,0x7f,0x8c,0xdf,0xf5]

def startEvent : Json := chainedEvent 0 none "daemon_started"

def startRow : WalEntry :=
  { seq := 0, capturedAtUnixMs := 1754000000000, priorSha256Hex := none,
    eventCanonicalJson := startEvent.canonicalText, critical := true, ackedAnchor := false }

theorem length_startRow : (utf8Bytes startRow.text).length ≤ 60000 := by
  have htex := length_text_le (e := startRow) ⟨by decide,by decide⟩ (by simp [startRow])
  have heve : startRow.eventCanonicalJson.toList.length ≤ 2000 :=
    length_chainedEvent_le (by decide) (by simp) (by decide +kernel)
  omega

def blockDigest : Vector UInt8 32 :=
  #v[0x15,0x91,0x05,0xa8,0x20,0x10,0x28,0xb0,0x55,0x9c,0x38,0x8c,0xe9,0xb7,0x28,0x6d,
    0x05,0x25,0x1a,0x3d,0x56,0x7a,0x0a,0xa7,0x2a,0x81,0x76,0x69,0x69,0xb3,0x94,0x25]

def startHash : String := String.ofList (startDigest.toList.flatMap hexByte)

def blockEvent : Json := chainedEvent 1 (some startHash) "egress_blocked"

def twoEventEnv : WalEnv :=
  referenceEnv fun bytes =>
    if bytes=utf8Bytes startEvent.canonicalText then startDigest else blockDigest

def blockRow (anchor : Bool) : WalEntry :=
  { seq := 1, capturedAtUnixMs := 1754000000001, priorSha256Hex := some startHash,
    eventCanonicalJson := blockEvent.canonicalText, critical := true, ackedAnchor := anchor }

theorem twoEventEnv_lawful : twoEventEnv.Lawful := referenceEnv_lawful _

theorem sha256_startEvent :
    twoEventEnv.sha256 (utf8Bytes startEvent.canonicalText)=startDigest := by
  simp only [twoEventEnv,referenceEnv,if_true]

theorem chainHash_startRow : chainHash twoEventEnv startRow=startHash := by
  rw [chainHash,sha256Hex,show startRow.eventCanonicalJson=startEvent.canonicalText from rfl,
    sha256_startEvent,startHash]

theorem length_startHash : startHash.toList.length=64 := by
  rw [startHash,String.toList_ofList]
  rfl

theorem length_blockRow (anchor : Bool) : (utf8Bytes (blockRow anchor).text).length ≤ 60000 := by
  have hpri : ∀ hash∈some startHash, hash.toList.length ≤ 64 := by
    intro hash hhas
    rw [← Option.some.inj hhas,length_startHash]
  have hran : (blockRow anchor).InRange := by
    constructor
    · change 1 < 2 ^ 64
      decide
    · change 1754000000001 < 2 ^ 64
      decide
  have htex := length_text_le hran hpri
  have heve : (blockRow anchor).eventCanonicalJson.toList.length ≤ 2000 :=
    length_chainedEvent_le (by decide) hpri (by decide +kernel)
  omega

end CastleWall.Audit
