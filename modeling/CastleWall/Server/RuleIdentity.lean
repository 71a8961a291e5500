import CastleWall.Server.Schema
import CastleWall.Support.Base64
import CastleWall.Support.Lines

/-! # Rule ids and their files

A manifest names each rule's file. The name is the id's encoding, or the id itself in manifests from before it. -/

namespace CastleWall.Server

open Text

def encodedRuleFilenamePrefix : String := "rid1_"

def ruleFilenameSuffix : String := ".json"

inductive RuleFilenameRelation where
  | encodedV1
  | legacySafe
deriving DecidableEq

/-- A field that is not a string is `none`. -/
structure ManifestRuleIdentityEntry where
  (ruleId file : Option String)

def encodeRuleFilename (ruleId : String) : String :=
  encodedRuleFilenamePrefix++String.ofList (Base64.encodeUrl (utf8Bytes ruleId))++ruleFilenameSuffix

/-- Whether a name is the encoding of an id. Bytes that are no text, and letters outside the alphabet, give no id
that encodes back to the name. -/
def parseEncodedRuleFilename (filename : String) : Bool :=
  startsWith filename encodedRuleFilenamePrefix && endsWith filename ruleFilenameSuffix &&
    (((Base64.decodeUrl ((filename.toList.drop 5).dropLast.dropLast.dropLast.dropLast.dropLast)).bind decodeUtf8).any
      fun id => matchesRuleIdPattern id && encodeRuleFilename id == filename)

def classifyManifestRuleFilename (ruleId filename : Option String) : Except String RuleFilenameRelation :=
  match ruleId with
  | none => .error "rule id must be a string"
  | some id =>
    match validateRuleId id,filename with
    | some error,_ => .error error
    | none,none => .error "rule filename must be a string"
    | none,some filename =>
      if filename=encodeRuleFilename id then .ok .encodedV1
      else if filename=id++ruleFilenameSuffix then .ok .legacySafe
      else if parseEncodedRuleFilename filename then .error "encoded-v1 rule filename does not match rule id"
      else .error "rule filename is neither encoded-v1 nor the exact legacy-safe relation"

def entryIssues (ruleIds filenames : List String) : Option ManifestRuleIdentityEntry → List String
  | none => ["entry must be an object"]
  | some entry =>
    (if entry.ruleId.any ruleIds.contains then ["duplicate rule id"] else []) ++
      (if entry.file.any filenames.contains then ["duplicate rule filename"] else []) ++
      match classifyManifestRuleFilename entry.ruleId entry.file with
      | .ok _ => []
      | .error error => [error]

def preflightEntries (index : Nat) (ruleIds filenames : List String) :
    List (Option ManifestRuleIdentityEntry) → List String
  | [] => []
  | entry::rest =>
    (entryIssues ruleIds filenames entry).map (fun issue => "manifest rule " ++ toString index ++ ": " ++ issue) ++
      preflightEntries (index+1) (ruleIds++(entry.bind (·.ruleId)).toList)
        (filenames++(entry.bind (·.file)).toList) rest

/-- Entries that are no array are `none`. -/
def preflightManifestRuleEntries (entries : Option (List (Option ManifestRuleIdentityEntry))) : List String :=
  match entries with
  | none => ["manifest rules must be an array"]
  | some entries => preflightEntries 0 [] [] entries

def isComponentChar (c : Char) : Bool := isAlphanumeric c || c == '.' || c == '_' || c == ':' || c == '-'

/-- A file name of one path component that is not hidden, not `.` and not `..`. -/
def SafeComponent (name : String) : Prop :=
  (∃ c∈name.toList.head?,isAlphanumeric c=true) ∧ ∀ c∈name.toList,isComponentChar c=true

variable {a b filename : String} {relation : RuleFilenameRelation}

theorem encodeRuleFilename_injective (h : encodeRuleFilename a=encodeRuleFilename b) : a=b := by
  have hlist := congrArg String.toList h
  simp only [encodeRuleFilename,String.toList_append,String.toList_ofList] at hlist
  have hcode := List.append_cancel_left (List.append_cancel_right hlist)
  have hbytes := congrArg Base64.decodeUrl hcode
  rw [Base64.decodeUrl_encodeUrl,Base64.decodeUrl_encodeUrl] at hbytes
  exact utf8Bytes_injective (Option.some.inj hbytes)

theorem classify_eq_ok (h : classifyManifestRuleFilename (some a) (some filename)=.ok relation) :
    matchesRuleIdPattern a=true ∧ (relation=.encodedV1 ∧ filename=encodeRuleFilename a ∨
      relation=.legacySafe ∧ filename=a++ruleFilenameSuffix) := by
  have hid : matchesRuleIdPattern a=true := by
    by_contra hid
    simp [classifyManifestRuleFilename,validateRuleId,hid] at h
  simp only [classifyManifestRuleFilename,validateRuleId,hid,if_true] at h
  split_ifs at h with henc hleg <;> cases h
  · exact ⟨hid,.inl ⟨rfl,henc⟩⟩
  · exact ⟨hid,.inr ⟨rfl,hleg⟩⟩

theorem classify_injective (ha : classifyManifestRuleFilename (some a) (some filename)=.ok relation)
    (hb : classifyManifestRuleFilename (some b) (some filename)=.ok relation) : a=b := by
  obtain ⟨-,⟨rfl,hea⟩ | ⟨rfl,hea⟩⟩ := classify_eq_ok ha
  · obtain ⟨-,⟨-,heb⟩ | ⟨hne,-⟩⟩ := classify_eq_ok hb
    · exact encodeRuleFilename_injective (hea.symm.trans heb)
    · cases hne
  · obtain ⟨-,⟨hne,-⟩ | ⟨-,heb⟩⟩ := classify_eq_ok hb
    · cases hne
    have hlist := congrArg String.toList (hea.symm.trans heb)
    rw [String.toList_append,String.toList_append] at hlist
    exact String.toList_inj.mp (List.append_cancel_right hlist)

private theorem componentChars (pre : List Char) {cs : List Char} (hpre : pre.all isComponentChar=true)
    (hcs : ∀ c∈cs,isComponentChar c=true) :
    ∀ c∈pre++cs++ruleFilenameSuffix.toList,isComponentChar c=true := by
  have hsuf : ruleFilenameSuffix.toList.all isComponentChar=true := by decide
  simp only [List.mem_append]
  rintro c ((hc | hc) | hc)
  · exact List.all_eq_true.mp hpre c hc
  · exact hcs c hc
  · exact List.all_eq_true.mp hsuf c hc

theorem safeComponent (h : classifyManifestRuleFilename (some a) (some filename)=.ok relation) :
    SafeComponent filename := by
  obtain ⟨hid,⟨-,rfl⟩ | ⟨-,rfl⟩⟩ := classify_eq_ok h
  · have hcode : ∀ c∈Base64.encodeUrl (utf8Bytes a),isComponentChar c=true :=
      Base64.forall_encodeUrl (by decide) (utf8Bytes a)
    rw [SafeComponent,encodeRuleFilename,String.toList_append,String.toList_append,String.toList_ofList]
    exact ⟨⟨'r',rfl,by decide⟩,componentChars _ (by decide) hcode⟩
  · rw [SafeComponent,String.toList_append]
    unfold matchesRuleIdPattern at hid
    cases hlist : a.toList with
    | nil => simp [hlist] at hid
    | cons c cs =>
      simp only [hlist,Bool.and_eq_true,List.all_eq_true] at hid
      obtain ⟨⟨hc,-⟩,hcs⟩ := hid
      refine ⟨⟨c,rfl,hc⟩,componentChars [] rfl fun d hd => ?_⟩
      obtain rfl | hd := List.mem_cons.mp hd
      · simp [isComponentChar,hc]
      · exact hcs d hd

theorem preflightEntries_eq_nil {entries : List (Option ManifestRuleIdentityEntry)} {index : Nat}
    {ruleIds filenames : List String} (h : preflightEntries index ruleIds filenames entries=[]) :
    ∃ rules : List (String × String),entries=rules.map (fun rule => some ⟨some rule.1,some rule.2⟩) ∧
      ((rules.map Prod.fst).Nodup ∧ ∀ id∈rules.map Prod.fst,id∉ruleIds) ∧
      ((rules.map Prod.snd).Nodup ∧ ∀ file∈rules.map Prod.snd,file∉filenames) ∧
      ∀ rule∈rules,∃ relation,classifyManifestRuleFilename (some rule.1) (some rule.2)=.ok relation := by
  induction entries generalizing index ruleIds filenames with
  | nil => exact ⟨[],by simp⟩
  | cons entry entries ih =>
    rw [preflightEntries,List.append_eq_nil_iff,List.map_eq_nil_iff] at h
    obtain ⟨rules,rfl,⟨hids,hnew⟩,⟨hfil,hfre⟩,hrel⟩ := ih h.2
    cases entry with
    | none => simp [entryIssues] at h
    | some entry =>
      obtain ⟨ruleId,file⟩ := entry
      simp only [entryIssues,List.append_eq_nil_iff,ite_eq_right_iff] at h
      obtain ⟨⟨⟨hid,hnam⟩,hcla⟩,-⟩ := h
      cases hok : classifyManifestRuleFilename ruleId file with
      | error error => simp [hok] at hcla
      | ok relation =>
        cases ruleId with
        | none => cases hok
        | some id =>
          cases file with
          | none => cases hval : validateRuleId id <;> simp [classifyManifestRuleFilename,hval] at hok
          | some name =>
            simp only [Option.bind_some,Option.toList_some,List.mem_append,List.mem_singleton,not_or] at hnew hfre
            refine ⟨(id,name)::rules,rfl,⟨?_,?_⟩,⟨?_,?_⟩,List.forall_mem_cons.mpr ⟨⟨relation,hok⟩,hrel⟩⟩
            · exact List.nodup_cons.mpr ⟨fun hmem => (hnew id hmem).2 rfl,hids⟩
            · exact List.forall_mem_cons.mpr ⟨by simpa using hid,fun other hmem => (hnew other hmem).1⟩
            · exact List.nodup_cons.mpr ⟨fun hmem => (hfre name hmem).2 rfl,hfil⟩
            · exact List.forall_mem_cons.mpr ⟨by simpa using hnam,fun other hmem => (hfre other hmem).1⟩

/-- A clean set holds distinct ids under distinct safe names. Over all sets, a name and the way it is read give
the id: only the encoded name of one id can be the legacy name of another. -/
theorem clean_rule_files {entries : Option (List (Option ManifestRuleIdentityEntry))}
    (h : preflightManifestRuleEntries entries=[]) :
    (∃ rules : List (String × String),entries=some (rules.map fun rule => some ⟨some rule.1,some rule.2⟩) ∧
      (rules.map Prod.fst).Nodup ∧ (rules.map Prod.snd).Nodup ∧
      ∀ rule∈rules,SafeComponent rule.2 ∧ ∃ relation,
        classifyManifestRuleFilename (some rule.1) (some rule.2)=.ok relation) ∧
    ∀ id other filename relation relation',
      classifyManifestRuleFilename (some id) (some filename)=.ok relation →
      classifyManifestRuleFilename (some other) (some filename)=.ok relation' →
        (relation=relation' → id=other) ∧ (id≠other →
          filename=encodeRuleFilename id ∧ filename=other++ruleFilenameSuffix ∨
          filename=encodeRuleFilename other ∧ filename=id++ruleFilenameSuffix) := by
  cases entries with
  | none => simp [preflightManifestRuleEntries] at h
  | some entries =>
    obtain ⟨rules,rfl,⟨hids,-⟩,⟨hfil,-⟩,hrel⟩ := preflightEntries_eq_nil h
    refine ⟨⟨rules,rfl,hids,hfil,fun rule hmem => ?_⟩,fun id other filename relation relation' hid hoth => ?_⟩
    · obtain ⟨relation,hok⟩ := hrel rule hmem
      exact ⟨safeComponent hok,relation,hok⟩
    · have hsam : relation=relation' → id=other := by
        rintro rfl
        exact classify_injective hid hoth
      refine ⟨hsam,fun hne => ?_⟩
      obtain ⟨-,⟨hr,hei⟩ | ⟨hr,hei⟩⟩ := classify_eq_ok hid
      · obtain ⟨-,⟨hs,-⟩ | ⟨-,heo⟩⟩ := classify_eq_ok hoth
        · exact absurd (hsam (hr.trans hs.symm)) hne
        · exact .inl ⟨hei,heo⟩
      · obtain ⟨-,⟨-,heo⟩ | ⟨hs,-⟩⟩ := classify_eq_ok hoth
        · exact .inr ⟨heo,hei⟩
        · exact absurd (hsam (hr.trans hs.symm)) hne

def oneRule (ruleId file : String) : Option (List (Option ManifestRuleIdentityEntry)) := some [some ⟨some ruleId,some file⟩]

theorem filename_of_two_ids : preflightManifestRuleEntries (oneRule "a" "rid1_YQ.json")=[] ∧
    preflightManifestRuleEntries (oneRule "rid1_YQ" "rid1_YQ.json")=[] ∧ "a" ≠ "rid1_YQ" := by
  refine ⟨by decide +kernel,by decide +kernel,by decide⟩

theorem clean_rule_files_one : SafeComponent "rid1_YQ.json" := by
  have hcle : preflightManifestRuleEntries (oneRule "a" "rid1_YQ.json")=[] := by decide +kernel
  obtain ⟨rules,heq,-,-,hsaf⟩ := (clean_rule_files hcle).1
  cases rules with
  | nil => simp [oneRule] at heq
  | cons rule rest =>
    simp only [oneRule,List.map_cons,Option.some.injEq,List.cons.injEq,ManifestRuleIdentityEntry.mk.injEq] at heq
    rw [heq.1.2]
    exact (hsaf rule List.mem_cons_self).1

end CastleWall.Server
