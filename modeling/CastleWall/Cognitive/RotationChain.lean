import CastleWall.Support.Base64
import CastleWall.Support.Ecma
import CastleWall.Support.JsonText

/-! # Rotation chains

`verifyRotationChain` of `core/rotation-chain.ts`. Keys are compared as text and used as bytes, and a
current key given as bytes is never compared with the end of the chain. The history is a JSON value, so
no read of it throws. -/

namespace CastleWall.Cognitive

open Text

/-- What the verifier calls in Node and in `core/identity.ts`. -/
structure ChainEnv where
  /-- `Buffer.from(_, "base64")`. -/
  bufferFrom : List Char → List UInt8
  /-- `JSON.parse`; `none` when it throws. -/
  jsonParse : String → Option Json
  /-- `verify` of a payload, a signature and a public key. -/
  verify : List UInt8 → List UInt8 → List UInt8 → Bool

def maxRotationChainHops : Nat := 64

inductive RotationChainInvalidReason where
  | historyNotArray
  | historyOverCap
  | hopMalformed
  | brokenContiguity
  | nonTerminating
  | repeatedKey
  | keyLengthInvalid
  | eventMalformed
  | eventMismatch
  | signatureInvalid

structure RotationChainInvalid where
  reason : RotationChainInvalidReason
  detail : String

structure RetiredKey where
  publicKey : List UInt8
  (publicKeyBase64url retiredAt reason : String)
  compromised : Bool

structure VerifiedRotationChain where
  identityId : String
  currentPublicKey : List UInt8
  /-- Newest first. -/
  retired : List RetiredKey
  hopCount : Nat

structure RotationHistoryEntry where
  (oldPublicKey newPublicKey rotationEvent rotatedAt : String)

structure RotationEvent where
  (oldPublicKey newPublicKey identityId reason rotatedAt signature : String)

inductive CurrentPublicKey where
  | text (encoded : String)
  | bytes (key : List UInt8)

structure RotationChainArgs where
  identityId : String
  currentPublicKey : CurrentPublicKey
  rotationHistory : Json

def stringField (v : Json) (key : String) : Option String :=
  match v with
  | .obj fields =>
    match fields.lookup key with
    | some (.str s) => some s
    | _ => none
  | _ => none

def readHistoryEntry (item : Json) : Option RotationHistoryEntry := do
  let oldPublicKey ← stringField item "old_public_key"
  let newPublicKey ← stringField item "new_public_key"
  let rotationEvent ← stringField item "rotation_event"
  let rotatedAt ← stringField item "rotated_at"
  return ⟨oldPublicKey,newPublicKey,rotationEvent,rotatedAt⟩

def readEvent (record : Json) : Option RotationEvent := do
  let oldPublicKey ← stringField record "old_public_key"
  let newPublicKey ← stringField record "new_public_key"
  let identityId ← stringField record "identity_id"
  let reason ← stringField record "reason"
  let rotatedAt ← stringField record "rotated_at"
  let signature ← stringField record "signature"
  return ⟨oldPublicKey,newPublicKey,identityId,reason,rotatedAt,signature⟩

def rotationEventSigningBytes (event : RotationEvent) : List UInt8 :=
  utf8Bytes (String.ofList (Json.objectText
    [("old_public_key",.str event.oldPublicKey),("new_public_key",.str event.newPublicKey),
      ("identity_id",.str event.identityId),("reason",.str event.reason),
      ("rotated_at",.str event.rotatedAt)]))

def isWordChar (c : Char) : Bool := c.isAlphanum || c == '_'

def compromiseHere (cs : List Char) : Bool :=
  ["compromise","compromised","compromising"].any fun word =>
    word.toList.isPrefixOf (cs.map Char.toLower) &&
      !((cs.drop word.toList.length).head?.any isWordChar)

def compromiseFrom (afterWord : Bool) : List Char → Bool
  | [] => false
  | c::cs => (!afterWord && compromiseHere (c::cs)) || compromiseFrom (isWordChar c) cs

/-- `/\bcompromis(?:e|ed|ing)\b/i`. -/
def declaresCompromise (reason : String) : Bool := compromiseFrom false reason.toList

def restoreBase64 (str : String) : List Char :=
  str.toList.map Base64.standardOfUrl ++
    List.replicate ((4 - (utf16Units str).length % 4) % 4) '='

section Verifier

variable (env : ChainEnv)

def fromBase64url (str : String) : List UInt8 := env.bufferFrom (restoreBase64 str)

/-- `assertEd25519PublicKey`. -/
def isEd25519PublicKey (key : List UInt8) : Bool := key.length == 32

def parseRotationEvent (encoded : String) (hopIndex : Nat) : Except RotationChainInvalid RotationEvent :=
  match env.jsonParse (Ecma.textDecode (fromBase64url env encoded)) with
  | none =>
    .error ⟨.eventMalformed,s!"hop {hopIndex}: rotation_event is not valid base64url JSON"⟩
  | some (.obj fields) =>
    match readEvent (.obj fields) with
    | none =>
      .error ⟨.eventMalformed,s!"hop {hopIndex}: rotation_event is missing signed string fields"⟩
    | some event => .ok event
  | some _ => .error ⟨.eventMalformed,s!"hop {hopIndex}: rotation_event is not an object"⟩

structure ChainWalk where
  seenPublicKeys : List String
  retiredOldestFirst : List RetiredKey
  (expectedOldPublicKey lastNewPublicKey : Option String)

/-- The checks of one entry that read no event. -/
def checkHistoryEntry (identityId : String) (hops i : Nat) (walk : ChainWalk)
    (entry : RotationHistoryEntry) : Except RotationChainInvalid Unit :=
  if walk.expectedOldPublicKey.any (· != entry.oldPublicKey) then
    .error ⟨.brokenContiguity,
      s!"identity {identityId} hop {i}: old_public_key does not match previous new_public_key"⟩
  else if !isEd25519PublicKey (fromBase64url env entry.oldPublicKey) then
    .error ⟨.keyLengthInvalid,
      s!"identity {identityId} hop {i}: old_public_key is not a 32-byte Ed25519 key"⟩
  else if !isEd25519PublicKey (fromBase64url env entry.newPublicKey) then
    .error ⟨.keyLengthInvalid,
      s!"identity {identityId} hop {i}: new_public_key is not a 32-byte Ed25519 key"⟩
  else if entry.oldPublicKey∈walk.seenPublicKeys then
    .error ⟨.repeatedKey,s!"identity {identityId} hop {i}: repeated old_public_key"⟩
  else if entry.newPublicKey∈entry.oldPublicKey::walk.seenPublicKeys ∧ i < hops - 1 then
    .error ⟨.repeatedKey,s!"identity {identityId} hop {i}: repeated new_public_key"⟩
  else .ok ()

def checkRotationEvent (identityId : String) (i : Nat) (entry : RotationHistoryEntry)
    (event : RotationEvent) : Except RotationChainInvalid Unit :=
  if event.identityId≠identityId ∨ event.oldPublicKey≠entry.oldPublicKey ∨
      event.newPublicKey≠entry.newPublicKey ∨ event.rotatedAt≠entry.rotatedAt then
    .error ⟨.eventMismatch,
      s!"identity {identityId} hop {i}: rotation_event fields do not match the history entry"⟩
  else if !env.verify (rotationEventSigningBytes event) (fromBase64url env event.signature)
      (fromBase64url env event.oldPublicKey) then
    .error ⟨.signatureInvalid,s!"identity {identityId} hop {i}: rotation_event signature did not verify"⟩
  else .ok ()

def retireKey (event : RotationEvent) : RetiredKey where
  publicKey := fromBase64url env event.oldPublicKey
  publicKeyBase64url := event.oldPublicKey
  retiredAt := event.rotatedAt
  reason := event.reason
  compromised := declaresCompromise event.reason

def verifyHop (identityId : String) (hops i : Nat) (item : Json) (walk : ChainWalk) :
    Except RotationChainInvalid ChainWalk := do
  let entry ← (readHistoryEntry item).elim
    (.error ⟨.hopMalformed,s!"identity {identityId} hop {i}: rotation history entry is malformed"⟩) .ok
  checkHistoryEntry env identityId hops i walk entry
  let event ← parseRotationEvent env entry.rotationEvent i
  checkRotationEvent env identityId i entry event
  return {
    seenPublicKeys := entry.oldPublicKey::walk.seenPublicKeys
    retiredOldestFirst := walk.retiredOldestFirst++[retireKey env event]
    expectedOldPublicKey := some event.newPublicKey
    lastNewPublicKey := some event.newPublicKey }

def verifyHops (identityId : String) (hops : Nat) :
    Nat → List Json → ChainWalk → Except RotationChainInvalid ChainWalk
  | _, [], walk => .ok walk
  | i, item::items, walk => do
    let walk ← verifyHop env identityId hops i item walk
    verifyHops identityId hops (i+1) items walk

def currentKeyBytes : CurrentPublicKey → List UInt8
  | .text encoded => fromBase64url env encoded
  | .bytes key => key

/-- `seenPublicKeys` before the loop. -/
def seedPublicKeys : CurrentPublicKey → List String
  | .text encoded => [encoded]
  | .bytes _ => []

def terminates (current : CurrentPublicKey) (lastNewPublicKey : Option String) : Bool :=
  match current with
  | .text encoded => lastNewPublicKey == some encoded
  | .bytes _ => true

def verifyRotationChain (args : RotationChainArgs) : Except RotationChainInvalid VerifiedRotationChain :=
  match args.rotationHistory with
  | .arr items =>
    if maxRotationChainHops < items.length then
      .error ⟨.historyOverCap,
        s!"identity {args.identityId}: rotation_history has {items.length} hops, cap is {maxRotationChainHops}"⟩
    else if !isEd25519PublicKey (currentKeyBytes env args.currentPublicKey) then
      .error ⟨.keyLengthInvalid,
        s!"identity {args.identityId}: current public key is not a 32-byte Ed25519 key"⟩
    else if items=[] then
      .ok ⟨args.identityId,currentKeyBytes env args.currentPublicKey,[],0⟩
    else do
      let walk ← verifyHops env args.identityId items.length 0 items
        ⟨seedPublicKeys args.currentPublicKey,[],none,none⟩
      if terminates args.currentPublicKey walk.lastNewPublicKey then
        return ⟨args.identityId,currentKeyBytes env args.currentPublicKey,
          walk.retiredOldestFirst.reverse,items.length⟩
      else
        throw ⟨.nonTerminating,
          s!"identity {args.identityId}: final new_public_key does not match current public key"⟩
  | _ => .error ⟨.historyNotArray,s!"identity {args.identityId}: rotation_history is not an array"⟩

theorem bind_ok {ε α β : Type} {x : Except ε α} {f : α → Except ε β} {b : β} (h : x >>= f=.ok b) :
    ∃ a, x=.ok a ∧ f a=.ok b := by
  cases x with
  | error e => cases h
  | ok a => exact ⟨a,rfl,h⟩

/-- An entry whose event names the identity and is signed by the key the entry retires. -/
structure Authorized (identityId : String) (entry : RotationHistoryEntry) (event : RotationEvent) :
    Prop where
  parsed : ∃ i, parseRotationEvent env entry.rotationEvent i=.ok event
  identity : event.identityId=identityId
  oldKey : event.oldPublicKey=entry.oldPublicKey
  newKey : event.newPublicKey=entry.newPublicKey
  signed : env.verify (rotationEventSigningBytes event) (fromBase64url env event.signature)
    (fromBase64url env entry.oldPublicKey)=true

structure EntryChecked (walk : ChainWalk) (entry : RotationHistoryEntry) : Prop where
  expected : ∀ key, walk.expectedOldPublicKey=some key → key=entry.oldPublicKey
  oldLength : (fromBase64url env entry.oldPublicKey).length=32
  newLength : (fromBase64url env entry.newPublicKey).length=32
  fresh : entry.oldPublicKey∉walk.seenPublicKeys

variable {identityId : String} {hops i : Nat} {entry : RotationHistoryEntry}

theorem entryChecked_of_check {walk : ChainWalk} (h : checkHistoryEntry env identityId hops i walk entry=.ok ()) :
    EntryChecked env walk entry := by
  unfold checkHistoryEntry at h
  split_ifs at h with hexp hold hnew hsee
  refine ⟨?_,by simpa [isEd25519PublicKey] using hold,by simpa [isEd25519PublicKey] using hnew,hsee⟩
  intro key hkey
  rw [hkey] at hexp
  simpa using hexp

theorem authorized_of_check
    {event : RotationEvent} (hpar : parseRotationEvent env entry.rotationEvent i=.ok event)
    (h : checkRotationEvent env identityId i entry event=.ok ()) :
    Authorized env identityId entry event := by
  unfold checkRotationEvent at h
  split_ifs at h with hfie hsig
  rw [not_or,not_or,not_or] at hfie
  obtain ⟨hid,hold,hnew,-⟩ := hfie
  refine ⟨⟨i,hpar⟩,not_not.mp hid,not_not.mp hold,not_not.mp hnew,?_⟩
  rw [← not_not.mp hold]
  simpa using hsig

structure Walked (identityId : String) (seeds : List String) (entries : List RotationHistoryEntry)
    (walk : ChainWalk) : Prop where
  seen : walk.seenPublicKeys=(entries.map (·.oldPublicKey)).reverse++seeds
  distinct : ((entries.map (·.oldPublicKey)).reverse++seeds).Nodup
  expected : walk.expectedOldPublicKey=entries.getLast?.map (·.newPublicKey)
  last : walk.lastNewPublicKey=entries.getLast?.map (·.newPublicKey)
  linked : entries.IsChain fun a b => a.newPublicKey=b.oldPublicKey
  lengths : ∀ entry∈entries, (fromBase64url env entry.oldPublicKey).length=32 ∧
    (fromBase64url env entry.newPublicKey).length=32
  authorized : ∀ entry∈entries, ∃ event, Authorized env identityId entry event
  retired : walk.retiredOldestFirst.map (·.publicKey) =
    entries.map fun entry => fromBase64url env entry.oldPublicKey

variable {seeds : List String}

theorem walked_start (identityId : String) (h : seeds.Nodup) :
    Walked env identityId seeds [] ⟨seeds,[],none,none⟩ where
  seen := rfl
  distinct := h
  expected := rfl
  last := rfl
  linked := .nil
  lengths := nofun
  authorized := nofun
  retired := rfl

theorem Walked.push {entries : List RotationHistoryEntry}
    {walk : ChainWalk} {event : RotationEvent}
    (h : Walked env identityId seeds entries walk) (hche : EntryChecked env walk entry)
    (heve : Authorized env identityId entry event) :
    Walked env identityId seeds (entries++[entry])
      { seenPublicKeys := entry.oldPublicKey::walk.seenPublicKeys
        retiredOldestFirst := walk.retiredOldestFirst++[retireKey env event]
        expectedOldPublicKey := some event.newPublicKey
        lastNewPublicKey := some event.newPublicKey } where
  seen := by simp [h.seen]
  distinct := by
    have hfre := hche.fresh
    rw [h.seen] at hfre
    rw [List.map_append,List.reverse_append]
    exact List.nodup_cons.mpr ⟨hfre,h.distinct⟩
  expected := by simp [heve.newKey]
  last := by simp [heve.newKey]
  linked := by
    apply h.linked.append (List.isChain_singleton _)
    intro a ha b hb
    cases hb
    apply hche.expected
    rw [h.expected,ha]
    rfl
  lengths := by
    intro e he
    rcases List.mem_append.mp he with he | he
    · exact h.lengths e he
    · rw [List.mem_singleton.mp he]
      exact ⟨hche.oldLength,hche.newLength⟩
  authorized := by
    intro e he
    rcases List.mem_append.mp he with he | he
    · exact h.authorized e he
    · rw [List.mem_singleton.mp he]
      exact ⟨event,heve⟩
  retired := by simp [h.retired,retireKey,heve.oldKey]

theorem walked_verifyHop {item : Json}
    {entries : List RotationHistoryEntry} {walk walk' : ChainWalk}
    (h : Walked env identityId seeds entries walk)
    (hhop : verifyHop env identityId hops i item walk=.ok walk') :
    ∃ entry, readHistoryEntry item=some entry ∧
      Walked env identityId seeds (entries++[entry]) walk' := by
  obtain ⟨entry,hent,hhop⟩ := bind_ok hhop
  obtain ⟨_,hche,hhop⟩ := bind_ok hhop
  obtain ⟨event,hpar,hhop⟩ := bind_ok hhop
  obtain ⟨_,heve,hhop⟩ := bind_ok hhop
  cases hhop
  cases hrea : readHistoryEntry item with
  | none =>
    rw [hrea] at hent
    cases hent
  | some read =>
    rw [hrea] at hent
    cases hent
    exact ⟨entry,rfl,h.push env (entryChecked_of_check env hche) (authorized_of_check env hpar heve)⟩

theorem walked_verifyHops {items : List Json} :
    ∀ {i : Nat} {entries : List RotationHistoryEntry} {walk walk' : ChainWalk},
      Walked env identityId seeds entries walk →
      verifyHops env identityId hops i items walk=.ok walk' →
      ∃ read, items.mapM readHistoryEntry=some read ∧
        Walked env identityId seeds (entries++read) walk' := by
  induction items with
  | nil =>
    intro i entries walk walk' h hhos
    cases hhos
    exact ⟨[],rfl,by rwa [List.append_nil]⟩
  | cons item items ih =>
    intro i entries walk walk' h hhos
    obtain ⟨next,hhop,hhos⟩ := bind_ok hhos
    obtain ⟨entry,hent,hnex⟩ := walked_verifyHop env h hhop
    obtain ⟨read,hrea,hwal⟩ := ih hnex hhos
    refine ⟨entry::read,?_,by rwa [List.append_assoc] at hwal⟩
    rw [List.mapM_cons,hent,hrea]
    rfl

def historyEntries : Json → Option (List RotationHistoryEntry)
  | .arr items => items.mapM readHistoryEntry
  | _ => none

def spelledKeys (entries : List RotationHistoryEntry) : List String :=
  entries.map (·.oldPublicKey)++(entries.getLast?.map (·.newPublicKey)).toList

/-- The decoded keys; the current key alone for an identity that never rotated. -/
def chainKeys (current : CurrentPublicKey) (entries : List RotationHistoryEntry) : List (List UInt8) :=
  if entries=[] then [currentKeyBytes env current] else (spelledKeys entries).map (fromBase64url env)

structure SoundChain (args : RotationChainArgs) (entries : List RotationHistoryEntry)
    (chain : VerifiedRotationChain) : Prop where
  distinct : (chainKeys env args.currentPublicKey entries).Nodup
  lengths : ∀ key∈chainKeys env args.currentPublicKey entries, key.length=32
  ends : (chainKeys env args.currentPublicKey entries).getLast? =
    some (currentKeyBytes env args.currentPublicKey)
  authorized : ∀ entry∈entries, ∃ event, Authorized env args.identityId entry event
  linked : entries.IsChain fun a b => a.newPublicKey=b.oldPublicKey
  retired : chain.retired.map (·.publicKey) =
    (chainKeys env args.currentPublicKey entries).dropLast.reverse

/-- No key of the history has two spellings, and a history met with a key in bytes ends at that key
without returning to a spelling it has retired. -/
structure SpelledApart (args : RotationChainArgs) (entries : List RotationHistoryEntry) : Prop where
  spellings : ∀ a∈spelledKeys entries, ∀ b∈spelledKeys entries,
    fromBase64url env a=fromBase64url env b → a=b
  bytesEnd : ∀ key last, args.currentPublicKey=.bytes key → entries.getLast? = some last →
    fromBase64url env last.newPublicKey=key ∧ last.newPublicKey∉entries.map (·.oldPublicKey)

theorem spelledKeys_eq {entries : List RotationHistoryEntry} {last : RotationHistoryEntry}
    (h : entries.getLast? = some last) :
    spelledKeys entries=entries.map (·.oldPublicKey)++[last.newPublicKey] := by
  rw [spelledKeys,h]
  rfl

theorem chainKeys_eq {current : CurrentPublicKey} {entries : List RotationHistoryEntry}
    {last : RotationHistoryEntry} (h : entries.getLast? = some last) :
    chainKeys env current entries =
      (entries.map (·.oldPublicKey)++[last.newPublicKey]).map (fromBase64url env) := by
  have hne : entries≠[] := by
    rintro rfl
    cases h
  rw [chainKeys,if_neg hne,spelledKeys_eq h]

section Walk

variable {env} {args : RotationChainArgs} {entries : List RotationHistoryEntry} {walk : ChainWalk}
  {last : RotationHistoryEntry}

/-- The spellings along an accepted walk are distinct, except that a walk met with a key in bytes may
end on a spelling it has retired. -/
theorem Walked.spelled_nodup
    (h : Walked env args.identityId (seedPublicKeys args.currentPublicKey) entries walk)
    (hlas : entries.getLast? = some last)
    (hter : terminates args.currentPublicKey walk.lastNewPublicKey=true)
    (hbyt : ∀ key, args.currentPublicKey=.bytes key →
      last.newPublicKey∉entries.map (·.oldPublicKey)) :
    (entries.map (·.oldPublicKey)++[last.newPublicKey]).Nodup := by
  have hdis := h.distinct
  rw [h.last,hlas] at hter
  rw [List.nodup_append_comm,List.singleton_append,List.nodup_cons]
  cases hcur : args.currentPublicKey with
  | text encoded =>
    rw [hcur] at hdis hter
    have hnew : last.newPublicKey=encoded := by simpa [terminates] using hter
    rw [hnew]
    rw [seedPublicKeys,List.nodup_append_comm,List.singleton_append,List.nodup_cons,
      List.mem_reverse,List.nodup_reverse] at hdis
    exact hdis
  | bytes key =>
    rw [hcur,seedPublicKeys,List.append_nil,List.nodup_reverse] at hdis
    exact ⟨hbyt key hcur,hdis⟩

/-- The last new key decodes to the current one, when it is text or the decoded bytes are the same. -/
theorem Walked.last_decodes
    (h : Walked env args.identityId (seedPublicKeys args.currentPublicKey) entries walk)
    (hlas : entries.getLast? = some last)
    (hter : terminates args.currentPublicKey walk.lastNewPublicKey=true)
    (hbyt : ∀ key, args.currentPublicKey=.bytes key → fromBase64url env last.newPublicKey=key) :
    fromBase64url env last.newPublicKey=currentKeyBytes env args.currentPublicKey := by
  rw [h.last,hlas] at hter
  cases hcur : args.currentPublicKey with
  | text encoded =>
    rw [hcur] at hter
    have hnew : last.newPublicKey=encoded := by simpa [terminates] using hter
    rw [hnew,currentKeyBytes]
  | bytes key => exact hbyt key hcur

theorem Walked.sound
    (h : Walked env args.identityId (seedPublicKeys args.currentPublicKey) entries walk)
    (hlas : entries.getLast? = some last)
    (hter : terminates args.currentPublicKey walk.lastNewPublicKey=true) {chain : VerifiedRotationChain}
    (hret : chain.retired=walk.retiredOldestFirst.reverse)
    (hapa : SpelledApart env args entries) : SoundChain env args entries chain where
  distinct := by
    rw [chainKeys_eq env hlas]
    apply List.Nodup.map_on
    · intro a ha b hb
      rw [← spelledKeys_eq hlas] at ha hb
      exact hapa.spellings a ha b hb
    · exact h.spelled_nodup hlas hter fun key hkey => (hapa.bytesEnd key last hkey hlas).2
  lengths := by
    rw [chainKeys_eq env hlas,List.map_append,List.map_map]
    intro key hkey
    rcases List.mem_append.mp hkey with hkey | hkey
    · obtain ⟨entry,hent,rfl⟩ := List.mem_map.mp hkey
      exact (h.lengths entry hent).1
    · rw [List.mem_singleton.mp hkey]
      exact (h.lengths last (List.mem_of_getLast? hlas)).2
  ends := by
    rw [chainKeys_eq env hlas,List.map_append,List.map_singleton,List.getLast?_concat]
    rw [h.last_decodes hlas hter fun key hkey => (hapa.bytesEnd key last hkey hlas).1]
  authorized := h.authorized
  linked := h.linked
  retired := by
    rw [chainKeys_eq env hlas,List.map_append,List.map_singleton,List.dropLast_concat,hret,
      List.map_reverse,h.retired,List.map_map]
    rfl

theorem SoundChain.spelledApart {chain : VerifiedRotationChain} (h : SoundChain env args entries chain)
    (hlas : entries.getLast? = some last) : SpelledApart env args entries where
  spellings := by
    have hdis := h.distinct
    rw [chainKeys_eq env hlas,← spelledKeys_eq hlas] at hdis
    intro a ha b hb hdec
    exact List.inj_on_of_nodup_map hdis ha hb hdec
  bytesEnd := by
    intro key last' hkey hlas'
    cases hlas.symm.trans hlas'
    have hdis := h.distinct
    have hend := h.ends
    rw [chainKeys_eq env hlas] at hdis hend
    constructor
    · rw [List.map_append,List.map_singleton,List.getLast?_concat,hkey] at hend
      exact Option.some.inj hend
    · have hnod := hdis.of_map
      rw [List.nodup_append_comm,List.singleton_append,List.nodup_cons] at hnod
      exact hnod.1

end Walk

/-- An identity that never rotated. -/
theorem soundChain_nil {args : RotationChainArgs}
    (hlen : (currentKeyBytes env args.currentPublicKey).length=32) :
    SoundChain env args [] ⟨args.identityId,currentKeyBytes env args.currentPublicKey,[],0⟩ where
  distinct := List.nodup_singleton _
  lengths := by
    intro key hkey
    rw [List.mem_singleton.mp hkey]
    exact hlen
  ends := rfl
  authorized := nofun
  linked := .nil
  retired := rfl

theorem spelledApart_nil (args : RotationChainArgs) : SpelledApart env args [] where
  spellings := nofun
  bytesEnd := nofun

theorem verifyRotationChain_ok {args : RotationChainArgs} {chain : VerifiedRotationChain}
    (h : verifyRotationChain env args=.ok chain) :
    (historyEntries args.rotationHistory=some [] ∧
        (currentKeyBytes env args.currentPublicKey).length=32 ∧
        chain=⟨args.identityId,currentKeyBytes env args.currentPublicKey,[],0⟩) ∨
      ∃ entries last walk, historyEntries args.rotationHistory=some entries ∧
        entries.getLast? = some last ∧
        Walked env args.identityId (seedPublicKeys args.currentPublicKey) entries walk ∧
        terminates args.currentPublicKey walk.lastNewPublicKey=true ∧
        chain.retired=walk.retiredOldestFirst.reverse := by
  unfold verifyRotationChain at h
  split at h
  case h_2 => cases h
  case h_1 items hite =>
    split_ifs at h with hcap hlen hemp
    · left
      cases h
      rw [hite,hemp]
      exact ⟨rfl,by simpa [isEd25519PublicKey] using hlen,rfl⟩
    · right
      obtain ⟨walk,hwak,h⟩ := bind_ok h
      have hsee : (seedPublicKeys args.currentPublicKey).Nodup := by
        cases args.currentPublicKey with
        | text encoded => exact List.nodup_singleton encoded
        | bytes key => exact List.nodup_nil
      obtain ⟨entries,hent,hwal⟩ :=
        walked_verifyHops env (walked_start env args.identityId hsee) hwak
      split_ifs at h with hter
      · cases h
        rw [hite]
        have hne : entries≠[] := by
          rintro rfl
          cases items with
          | nil => exact hemp rfl
          | cons item items => simp [List.mapM_cons,Option.bind_eq_some_iff] at hent
        exact ⟨entries,entries.getLast hne,walk,hent,List.getLast?_eq_some_getLast hne,hwal,
          hter,rfl⟩

theorem rotation_chain_sound_iff {args : RotationChainArgs} {chain : VerifiedRotationChain}
    (h : verifyRotationChain env args=.ok chain) :
    ∃ entries, historyEntries args.rotationHistory=some entries ∧
      (SoundChain env args entries chain ↔ SpelledApart env args entries) := by
  rcases verifyRotationChain_ok env h with ⟨hent,hlen,rfl⟩ | hwal
  · exact ⟨[],hent,fun _ => spelledApart_nil env args,fun _ => soundChain_nil env hlen⟩
  · obtain ⟨entries,last,walk,hent,hlas,hwad,hter,hret⟩ := hwal
    refine ⟨entries,hent,fun hsou => hsou.spelledApart hlas,fun hapa => ?_⟩
    exact hwad.sound hlas hter hret hapa

end Verifier

def nodeBase64 (cs : List Char) : List UInt8 :=
  Base64.decodeSextets ((cs.takeWhile (· != '=')).filterMap fun c => Base64.sextet (Base64.standardOfUrl c))

def signedRotation : RotationEvent where
  oldPublicKey := "iojj3XQJ8ZX9UtstPLpdcspnCb8dlBIb83SIAbQPb1w"
  newPublicKey := "gTl3Dqh9F19Wo1Rmw0x-zMuNipG07jeiXfYPW4_Js5Q"
  identityId := "id-1"
  reason := "scheduled"
  rotatedAt := "2026-01-01T00:00:00.000Z"
  signature := "gcWqB8JEZ-6-QIl_P7W1t76BgYNEf80kzTyHoPzKd9FzxOHcx7LUseE5_QDANUfz4ET4LIwjq-YFyvV2cyrYDQ"

/-- A key that no event of the chain names. -/
def strangerKey : String := "7UkoxijRwsbq6QM4kFmVYSlZJzpcY_k2NsFGFKyHN9E"

def rotationFields (event : RotationEvent) : List (String × Json) :=
  [("old_public_key",.str event.oldPublicKey),("new_public_key",.str event.newPublicKey),
    ("identity_id",.str event.identityId),("reason",.str event.reason),
    ("rotated_at",.str event.rotatedAt),("signature",.str event.signature)]

def rotationText (event : RotationEvent) : String := String.ofList (Json.objectText (rotationFields event))

def rotationEntry (event : RotationEvent) : RotationHistoryEntry where
  oldPublicKey := event.oldPublicKey
  newPublicKey := event.newPublicKey
  rotationEvent := String.ofList (Base64.encodeUrl (utf8Bytes (rotationText event)))
  rotatedAt := event.rotatedAt

def rotationItem (entry : RotationHistoryEntry) : Json :=
  .obj [("new_public_key",.str entry.newPublicKey),("old_public_key",.str entry.oldPublicKey),
    ("rotated_at",.str entry.rotatedAt),("rotation_event",.str entry.rotationEvent)]

def chainEnv (event : RotationEvent) : ChainEnv where
  bufferFrom := nodeBase64
  jsonParse := Json.fromText
  verify := fun payload signature publicKey =>
    decide (payload=rotationEventSigningBytes event ∧
      signature=nodeBase64 (restoreBase64 event.signature) ∧
      publicKey=nodeBase64 (restoreBase64 event.oldPublicKey))

def chainArgs (event : RotationEvent) (current : CurrentPublicKey) : RotationChainArgs where
  identityId := event.identityId
  currentPublicKey := current
  rotationHistory := .arr [rotationItem (rotationEntry event)]


theorem filterMap_of_mapM {α β : Type} {f : α → Option β} {as : List α} {bs : List β}
    (h : as.mapM f=some bs) : as.filterMap f=bs := by
  induction as generalizing bs with
  | nil =>
    cases h
    rfl
  | cons a as ih =>
    simp only [List.mapM_cons,Option.bind_eq_bind,Option.bind_eq_some_iff,Option.pure_def] at h
    obtain ⟨b,hb,rest,hres,h⟩ := h
    cases h
    rw [List.filterMap_cons_some hb,ih hres]

theorem nodeBase64_encodeUrl (bytes : List UInt8) (pad : Nat) :
    nodeBase64 ((Base64.encodeUrl bytes).map Base64.standardOfUrl++List.replicate pad '=')=bytes := by
  obtain ⟨sextets,hmap,hjoi⟩ := Base64.mapM_sextet_encodeUrl bytes
  have hpla : ∀ c∈(Base64.encodeUrl bytes).map Base64.standardOfUrl, (c != '=')=true := by
    intro c hc
    obtain ⟨d,hd,rfl⟩ := List.mem_map.mp hc
    exact Base64.forall_encodeUrl (p := fun d => (Base64.standardOfUrl d != '=')=true) (by decide) bytes d hd
  have hsam : ∀ c∈(Base64.encodeUrl bytes).map Base64.standardOfUrl,
      Base64.sextet (Base64.standardOfUrl c)=Base64.sextet c := by
    intro c hc
    obtain ⟨d,hd,rfl⟩ := List.mem_map.mp hc
    exact congrArg Base64.sextet (Base64.forall_encodeUrl
      (p := fun d => Base64.standardOfUrl (Base64.standardOfUrl d)=Base64.standardOfUrl d) (by decide) bytes d hd)
  have hpad : (List.replicate pad '=').takeWhile (· != '=')=[] := by
    cases pad <;> rfl
  rw [nodeBase64,List.takeWhile_append_of_pos hpla,hpad,List.append_nil,
    List.filterMap_congr hsam,filterMap_of_mapM hmap,hjoi]

theorem readHistoryEntry_rotationItem (entry : RotationHistoryEntry) :
    readHistoryEntry (rotationItem entry)=some entry := by
  simp [readHistoryEntry,rotationItem,stringField,List.lookup_cons]

section OneRotation

variable (event : RotationEvent)

theorem parseRotationEvent_rotationEntry (i : Nat) :
    parseRotationEvent (chainEnv event) (rotationEntry event).rotationEvent i=.ok event := by
  have hbyt : fromBase64url (chainEnv event) (rotationEntry event).rotationEvent =
      utf8Bytes (rotationText event) := by
    have hbuf : ∀ cs, (chainEnv event).bufferFrom cs=nodeBase64 cs := fun _ => rfl
    have htex : (rotationEntry event).rotationEvent =
        String.ofList (Base64.encodeUrl (utf8Bytes (rotationText event))) := rfl
    rw [fromBase64url,hbuf,restoreBase64,htex,String.toList_ofList,nodeBase64_encodeUrl]
  have hhea : (rotationText event).toList.head? ≠ some Ecma.byteOrderMark := by
    rw [rotationText,String.toList_ofList,Json.objectText,List.head?_cons]
    decide
  have hpar : (chainEnv event).jsonParse (rotationText event) =
      some (.obj (Json.ofFields (rotationFields event))) := by
    have hjso : (chainEnv event).jsonParse=Json.fromText := rfl
    rw [hjso,rotationText,Json.fromText_objectText]
    simp [rotationFields,Json.wellFormed]
  have hrea : readEvent (.obj (Json.ofFields (rotationFields event)))=some event := by
    have hnod : ((rotationFields event).map Prod.fst).Nodup := by
      simp [rotationFields]
    simp only [readEvent,stringField,Json.lookup_ofFields hnod]
    simp [rotationFields,List.lookup_cons]
  rw [parseRotationEvent,hbyt,Ecma.textDecode_utf8Bytes hhea,hpar]
  simp only [hrea]

variable {event}

theorem verifyRotationChain_chainArgs (current : CurrentPublicKey)
    (hold : isEd25519PublicKey (fromBase64url (chainEnv event) event.oldPublicKey)=true)
    (hnew : isEd25519PublicKey (fromBase64url (chainEnv event) event.newPublicKey)=true)
    (hlen : isEd25519PublicKey (currentKeyBytes (chainEnv event) current)=true)
    (hsee : event.oldPublicKey∉seedPublicKeys current)
    (hter : terminates current (some event.newPublicKey)=true) :
    verifyRotationChain (chainEnv event) (chainArgs event current) =
      .ok ⟨event.identityId,currentKeyBytes (chainEnv event) current,
        [retireKey (chainEnv event) event],1⟩ := by
  have hche : checkHistoryEntry (chainEnv event) event.identityId 1 0
      ⟨seedPublicKeys current,[],none,none⟩ (rotationEntry event)=.ok () := by
    simp [checkHistoryEntry,rotationEntry,hold,hnew,hsee]
  have hsig : (chainEnv event).verify (rotationEventSigningBytes event)
      (fromBase64url (chainEnv event) event.signature)
      (fromBase64url (chainEnv event) event.oldPublicKey)=true := by
    simp [chainEnv,fromBase64url]
  have heve : checkRotationEvent (chainEnv event) event.identityId 0 (rotationEntry event) event =
      .ok () := by
    simp [checkRotationEvent,rotationEntry,hsig]
  have hhop : verifyHop (chainEnv event) event.identityId 1 0 (rotationItem (rotationEntry event))
      ⟨seedPublicKeys current,[],none,none⟩=.ok
        ⟨event.oldPublicKey::seedPublicKeys current,[retireKey (chainEnv event) event],
          some event.newPublicKey,some event.newPublicKey⟩ := by
    rw [verifyHop,readHistoryEntry_rotationItem]
    simp only [Option.elim,hche,parseRotationEvent_rotationEntry,heve,bind,Except.bind]
    rfl
  have hhos : verifyHops (chainEnv event) event.identityId 1 0 [rotationItem (rotationEntry event)]
      ⟨seedPublicKeys current,[],none,none⟩=.ok
        ⟨event.oldPublicKey::seedPublicKeys current,[retireKey (chainEnv event) event],
          some event.newPublicKey,some event.newPublicKey⟩ := by
    rw [verifyHops,hhop]
    rfl
  simp [verifyRotationChain,chainArgs,maxRotationChainHops,hlen,hhos,hter,bind,Except.bind,pure,
    Except.pure]

end OneRotation

theorem sampleKeys :
    isEd25519PublicKey (fromBase64url (chainEnv signedRotation) signedRotation.oldPublicKey)=true ∧
    isEd25519PublicKey (fromBase64url (chainEnv signedRotation) signedRotation.newPublicKey)=true ∧
    isEd25519PublicKey (nodeBase64 strangerKey.toList)=true ∧
    fromBase64url (chainEnv signedRotation) signedRotation.newPublicKey≠nodeBase64 strangerKey.toList := by
  have hold : signedRotation.oldPublicKey.toList=_ := String.toList_ofList
  have hnew : signedRotation.newPublicKey.toList=_ := String.toList_ofList
  have hstr : strangerKey.toList=_ := String.toList_ofList
  have hfro : ∀ str, fromBase64url (chainEnv signedRotation) str=nodeBase64 (str.toList.map Base64.standardOfUrl ++
      List.replicate ((4 - (str.toList.flatMap utf16Char).length % 4) % 4) '=') := fun str => rfl
  rw [hfro,hfro,hold,hnew,hstr]
  simp only [nodeBase64,Base64.sextet_eq]
  decide +kernel

theorem rotation_chain_sound_iff_text :
    ∃ chain entries,
      verifyRotationChain (chainEnv signedRotation)
        (chainArgs signedRotation (.text signedRotation.newPublicKey))=.ok chain ∧
      historyEntries (chainArgs signedRotation (.text signedRotation.newPublicKey)).rotationHistory =
        some entries ∧
      (SoundChain (chainEnv signedRotation) (chainArgs signedRotation (.text signedRotation.newPublicKey))
          entries chain ↔
        SpelledApart (chainEnv signedRotation)
          (chainArgs signedRotation (.text signedRotation.newPublicKey)) entries) := by
  have hver := verifyRotationChain_chainArgs (.text signedRotation.newPublicKey)
    sampleKeys.1 sampleKeys.2.1 sampleKeys.2.1 (by simp [seedPublicKeys,signedRotation]) (by simp [terminates])
  obtain ⟨entries,hent,hiff⟩ := rotation_chain_sound_iff _ hver
  exact ⟨_,entries,hver,hent,hiff⟩

theorem chain_ends_at_stranger :
    ∃ key chain,
      verifyRotationChain (chainEnv signedRotation) (chainArgs signedRotation (.bytes key))=.ok chain ∧
      ∀ entries, historyEntries (chainArgs signedRotation (.bytes key)).rotationHistory=some entries →
        ¬ SoundChain (chainEnv signedRotation) (chainArgs signedRotation (.bytes key)) entries chain := by
  refine ⟨nodeBase64 strangerKey.toList,_,verifyRotationChain_chainArgs _ sampleKeys.1
    sampleKeys.2.1 sampleKeys.2.2.1 List.not_mem_nil rfl,?_⟩
  intro entries hent hsou
  have hone : entries=[rotationEntry signedRotation] := by
    have hrea : historyEntries (chainArgs signedRotation (.bytes (nodeBase64 strangerKey.toList))).rotationHistory =
        some [rotationEntry signedRotation] := by
      rw [chainArgs,historyEntries,List.mapM_cons,readHistoryEntry_rotationItem]
      rfl
    exact Option.some.inj (hent.symm.trans hrea)
  have hlas : entries.getLast? = some (rotationEntry signedRotation) := by
    rw [hone]
    rfl
  have hend := (hsou.spelledApart hlas).bytesEnd _ _ rfl hlas
  exact sampleKeys.2.2.2 hend.1

end CastleWall.Cognitive
