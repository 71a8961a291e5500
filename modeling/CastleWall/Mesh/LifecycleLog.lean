import CastleWall.Mesh.LocalState

/-! # The lifecycle log and its indexes

`mesh/lifecycle/local-state.ts`, `NodeLifecycleEventLog`: the list of retained events and the four indexes over it. An
event is an object: `===` asks for the same one, `view` reads what it says. -/

namespace CastleWall.Mesh

structure IndexedLog (E : Type) where
  events : List E
  nonRevokeKeys : Finset String
  /-- In the order of insertion. -/
  revokeByAuth : OrderedMap String E
  revokeAuthsByTarget : OrderedMap String (List String)
  nonRevokeByEmitter : OrderedMap String (List E)

namespace IndexedLog

def empty {E : Type} : IndexedLog E := ⟨[],∅,.empty,.empty,.empty⟩

/-- An array under a key is kept as long as it is not empty. -/
def setArray {κ α : Type} [DecidableEq κ] (m : OrderedMap κ (List α)) (key : κ) (items : List α) :
    OrderedMap κ (List α) :=
  if items=[] then m.erase key else m.set key items

variable {E : Type} [DecidableEq E] (view : E → SignedEvent Payload)

def isRevoke (evt : E) : Bool := (view evt).eventType = "node_revoke"

def nonRevokeKey (evt : E) : String := (view evt).emitterNode ++ "\x00" ++ (view evt).eventId

def bucketOf (log : IndexedLog E) (emitter : String) : List E := (log.nonRevokeByEmitter.get emitter).getD []

def authsOf (log : IndexedLog E) (target : String) : List String := (log.revokeAuthsByTarget.get target).getD []

def forgetNonRevoke (log : IndexedLog E) (evt : E) : IndexedLog E :=
  let emitter := (view evt).emitterNode
  { log with
    nonRevokeKeys := log.nonRevokeKeys.erase (nonRevokeKey view evt)
    nonRevokeByEmitter :=
      match log.nonRevokeByEmitter.get emitter with
      | none => log.nonRevokeByEmitter
      | some bucket => setArray log.nonRevokeByEmitter emitter (bucket.erase evt) }

def forgetRevoke (log : IndexedLog E) (evt : E) (authKey : String) : IndexedLog E :=
  { log with
    revokeByAuth := log.revokeByAuth.erase authKey
    revokeAuthsByTarget :=
      match (view evt).payload.nodeId with
      | none => log.revokeAuthsByTarget
      | some target =>
        match log.revokeAuthsByTarget.get target with
        | none => log.revokeAuthsByTarget
        | some auths => setArray log.revokeAuthsByTarget target (auths.erase authKey) }

/-- A revoke whose authorization is not given is looked for among the retained ones. -/
def forgetIndexed (log : IndexedLog E) (evt : E) (knownAuthKey : Option String) : IndexedLog E :=
  if isRevoke view evt=false then forgetNonRevoke view log evt
  else
    match knownAuthKey <|> (log.revokeByAuth.entries.find? fun entry => entry.2=evt).map Prod.fst with
    | none => log
    | some authKey => forgetRevoke view log evt authKey

def remove (log : IndexedLog E) (evt : E) (knownAuthKey : Option String) : IndexedLog E :=
  forgetIndexed view { log with events := log.events.erase evt } evt knownAuthKey

def dropRetainedRevoke (log : IndexedLog E) (authKey : String) : IndexedLog E :=
  match log.revokeByAuth.get authKey with
  | none => log
  | some evt => remove view log evt (some authKey)

/-- The oldest event that is not a revoke, or the oldest of all. -/
def evictOne (log : IndexedLog E) : IndexedLog E :=
  let evictIdx := (log.events.findIdx? fun e => !isRevoke view e).getD 0
  match log.events[evictIdx]? with
  | none => log
  | some removed => forgetIndexed view { log with events := log.events.eraseIdx evictIdx } removed none

def enforceCap (log : IndexedLog E) : IndexedLog E :=
  Nat.repeat (evictOne view) (log.events.length - nodeLifecycleLogMaxEvents) log

def evictOwn (emitter : String) : Nat → IndexedLog E → IndexedLog E
  | 0, log => log
  | rounds+1, log =>
    match log.bucketOf emitter with
    | [] => log
    | oldest::rest =>
      if maxRetainedNonRevokeEventsPerEmitter ≤ (oldest::rest).length then
        evictOwn emitter rounds (remove view log oldest none)
      else log

def evictAuths (target : String) : Nat → IndexedLog E → IndexedLog E
  | 0, log => log
  | rounds+1, log =>
    match log.authsOf target with
    | [] => log
    | oldest::rest =>
      if maxRetainedRevokeAuthorizationsPerTarget ≤ (oldest::rest).length then
        evictAuths target rounds
          (dropRetainedRevoke view { log with
            revokeAuthsByTarget := log.revokeAuthsByTarget.set target rest } oldest)
      else log

def append (log : IndexedLog E) (evt : E) : Except Unit (IndexedLog E) :=
  if isRevoke view evt then .error ()
  else if nonRevokeKey view evt∈log.nonRevokeKeys then .ok log
  else
    let emitter := (view evt).emitterNode
    let evicted := evictOwn view emitter (log.bucketOf emitter).length log
    .ok (enforceCap view { evicted with
      nonRevokeKeys := insert (nonRevokeKey view evt) evicted.nonRevokeKeys
      nonRevokeByEmitter := evicted.nonRevokeByEmitter.set emitter (evicted.bucketOf emitter++[evt])
      events := evicted.events++[evt] })

def hasRetainedRevokeAuthorization (log : IndexedLog E) (authKey : String) : Bool := (log.revokeByAuth.get authKey).isSome

def appendRevoke (log : IndexedLog E) (evt : E) (target authKey : String) : IndexedLog E :=
  if log.hasRetainedRevokeAuthorization authKey then log
  else
    let evicted := evictAuths view target (log.authsOf target).length log
    enforceCap view { evicted with
      revokeByAuth := evicted.revokeByAuth.set authKey evt
      revokeAuthsByTarget := evicted.revokeAuthsByTarget.set target (evicted.authsOf target++[authKey])
      events := evicted.events++[evt] }

end IndexedLog

structure LogRow (E : Type) where
  object : E
  revoke : Option (String × String)

namespace LogRow

variable {E : Type} (view : E → SignedEvent Payload)

def authEntry (row : LogRow E) : Option (String × E) := row.revoke.map fun r => (r.2,row.object)

def authFor (target : String) (row : LogRow E) : Option String :=
  row.revoke.bind fun r => if r.1=target then some r.2 else none

def ofEmitter (emitter : String) (row : LogRow E) : Bool :=
  row.revoke.isNone && decide ((view row.object).emitterNode=emitter)

def keyOf (row : LogRow E) : Option String :=
  if row.revoke.isNone then some (IndexedLog.nonRevokeKey view row.object) else none

def Typed (row : LogRow E) : Prop :=
  match row.revoke with
  | none => IndexedLog.isRevoke view row.object=false
  | some (target,_) => IndexedLog.isRevoke view row.object=true ∧ (view row.object).payload.nodeId=some target

variable {view}

theorem Typed.isRevoke_eq {row : LogRow E} (h : row.Typed view) :
    IndexedLog.isRevoke view row.object=row.revoke.isSome := by
  unfold Typed at h
  cases hr : row.revoke with
  | none =>
    rw [hr] at h
    exact h
  | some r =>
    rw [hr] at h
    exact h.1

theorem Typed.nodeId {row : LogRow E} {target authKey : String} (h : row.Typed view)
    (hr : row.revoke=some (target,authKey)) : (view row.object).payload.nodeId=some target := by
  unfold Typed at h
  rw [hr] at h
  exact h.2

end LogRow

namespace IndexedLog

variable {E : Type} [DecidableEq E] {view : E → SignedEvent Payload}

structure Represents (view : E → SignedEvent Payload) (log : IndexedLog E) (rows : List (LogRow E)) : Prop where
  typed : ∀ row∈rows, row.Typed view
  keys_nodup : (rows.filterMap (LogRow.keyOf view)).Nodup
  events : log.events=rows.map LogRow.object
  keys : log.nonRevokeKeys=(rows.filterMap (LogRow.keyOf view)).toFinset
  auths : log.revokeByAuth.entries=rows.filterMap LogRow.authEntry
  targets : ∀ target, log.authsOf target=rows.filterMap (LogRow.authFor target)
  targets_ne : ∀ target, log.revokeAuthsByTarget.get target≠some []
  buckets : ∀ emitter, log.bucketOf emitter=(rows.filter (LogRow.ofEmitter view emitter)).map LogRow.object
  buckets_ne : ∀ emitter, log.nonRevokeByEmitter.get emitter≠some []

variable {log : IndexedLog E} {rows : List (LogRow E)}

theorem get_setArray {κ α : Type} [DecidableEq κ] (m : OrderedMap κ (List α)) (key other : κ) (items : List α) :
    (setArray m key items).get other=if other=key then (if items=[] then none else some items) else m.get other := by
  unfold setArray
  split
  · rw [OrderedMap.get_erase]
  · rw [OrderedMap.get_set]

theorem getD_get_setArray {κ α : Type} [DecidableEq κ] (m : OrderedMap κ (List α)) (key other : κ) (items : List α) :
    ((setArray m key items).get other).getD []=if other=key then items else (m.get other).getD [] := by
  rw [get_setArray]
  split
  · split
    case isTrue hnil => rw [hnil,Option.getD_none]
    · rfl
  · rfl

theorem get_setArray_ne {κ α : Type} [DecidableEq κ] {m : OrderedMap κ (List α)} (h : ∀ key, m.get key≠some [])
    (key other : κ) (items : List α) : (setArray m key items).get other≠some [] := by
  rw [get_setArray]
  split
  · split
    · exact (Option.some_ne_none _).symm
    case isFalse hne => exact fun heq => hne (Option.some.inj heq)
  · exact h other

theorem bucketOf_forgetNonRevoke (log : IndexedLog E) (evt : E) (emitter : String) :
    (forgetNonRevoke view log evt).bucketOf emitter =
      if emitter=(view evt).emitterNode then (log.bucketOf emitter).erase evt else log.bucketOf emitter := by
  unfold forgetNonRevoke bucketOf
  dsimp only
  cases hget : log.nonRevokeByEmitter.get (view evt).emitterNode with
  | none =>
    by_cases heq : emitter=(view evt).emitterNode
    · rw [if_pos heq,heq,hget]
      rfl
    · rw [if_neg heq]
  | some bucket =>
    dsimp only
    rw [getD_get_setArray]
    by_cases heq : emitter=(view evt).emitterNode
    · rw [if_pos heq,if_pos heq,heq,hget]
      rfl
    · rw [if_neg heq,if_neg heq]

theorem forgetNonRevoke_bucket_ne (h : ∀ emitter, log.nonRevokeByEmitter.get emitter≠some [])
    (evt : E) (emitter : String) : (forgetNonRevoke view log evt).nonRevokeByEmitter.get emitter≠some [] := by
  unfold forgetNonRevoke
  dsimp only
  split
  · exact h emitter
  · exact get_setArray_ne h _ _ _

omit [DecidableEq E] in
theorem authsOf_forgetRevoke {evt : E} {authKey target : String}
    (htar : (view evt).payload.nodeId=some target) (other : String) :
    (forgetRevoke view log evt authKey).authsOf other =
      if other=target then (log.authsOf other).erase authKey else log.authsOf other := by
  unfold forgetRevoke authsOf
  rw [htar]
  dsimp only
  cases hget : log.revokeAuthsByTarget.get target with
  | none =>
    by_cases heq : other=target
    · rw [if_pos heq,heq,hget]
      rfl
    · rw [if_neg heq]
  | some auths =>
    dsimp only
    rw [getD_get_setArray]
    by_cases heq : other=target
    · rw [if_pos heq,if_pos heq,heq,hget]
      rfl
    · rw [if_neg heq,if_neg heq]

omit [DecidableEq E] in
theorem forgetRevoke_target_ne {evt : E} {authKey target : String}
    (htar : (view evt).payload.nodeId=some target)
    (h : ∀ other, other≠target → log.revokeAuthsByTarget.get other≠some []) (other : String) :
    (forgetRevoke view log evt authKey).revokeAuthsByTarget.get other≠some [] := by
  unfold forgetRevoke
  rw [htar]
  dsimp only
  cases hget : log.revokeAuthsByTarget.get target with
  | none =>
    by_cases heq : other=target
    · rw [heq,hget]
      nofun
    · exact h other heq
  | some auths =>
    dsimp only
    rw [get_setArray]
    by_cases heq : other=target
    · rw [if_pos heq]
      split
      · nofun
      case isFalse hne => exact fun hsom => hne (Option.some.inj hsom)
    · rw [if_neg heq]
      exact h other heq

omit [DecidableEq E] in
theorem empty_represents : Represents view (empty : IndexedLog E) [] where
  typed := nofun
  keys_nodup := List.nodup_nil
  events := rfl
  keys := rfl
  auths := rfl
  targets _ := rfl
  targets_ne _ := nofun
  buckets _ := rfl
  buckets_ne _ := nofun

omit [DecidableEq E] in
theorem authFor_sublist (target : String) (rows : List (LogRow E)) :
    (rows.filterMap (LogRow.authFor target)).Sublist ((rows.filterMap LogRow.authEntry).map Prod.fst) := by
  induction rows with
  | nil => exact .slnil
  | cons row rows ih =>
    cases hrow : row.revoke with
    | none => simpa [LogRow.authFor,LogRow.authEntry,hrow] using ih
    | some r =>
      by_cases htar : r.1=target
      · simpa [LogRow.authFor,LogRow.authEntry,hrow,htar] using ih
      · simpa [LogRow.authFor,LogRow.authEntry,hrow,htar] using ih.cons r.2

omit [DecidableEq E] in
theorem Represents.auths_nodup (h : Represents view log rows)
    (target : String) : (log.authsOf target).Nodup := by
  have hnod := log.revokeByAuth.nodup
  rw [h.auths] at hnod
  rw [h.targets]
  exact hnod.sublist (authFor_sublist target rows)

section Middle

variable {before after : List (LogRow E)} {row : LogRow E}

omit [DecidableEq E] in
theorem keyOf_eq {r : LogRow E} (hr : r.revoke=none) : r.keyOf view=some (nonRevokeKey view r.object) := by
  rw [LogRow.keyOf,hr]
  rfl

omit [DecidableEq E] in
/-- An event that is not a revoke stands in the log once. -/
theorem Represents.object_notMem (h : Represents view log (before++row::after)) (hrow : row.revoke=none) :
    row.object∉(before++after).map LogRow.object := by
  intro hmem
  obtain ⟨other,hoth,heq⟩ := List.mem_map.mp hmem
  have hotd := h.typed other (by
    rw [List.mem_append,List.mem_cons]
    exact (List.mem_append.mp hoth).imp_right .inr)
  have hote : other.revoke=none := by
    have his := hotd.isRevoke_eq
    rw [heq,(h.typed row (List.mem_append_right _ List.mem_cons_self)).isRevoke_eq,hrow] at his
    exact Option.isNone_iff_eq_none.mp (Option.isSome_eq_false_iff.mp his.symm)
  have hnod := h.keys_nodup
  rw [List.filterMap_append,List.filterMap_cons,keyOf_eq hrow,List.nodup_middle,← List.filterMap_append,
    List.nodup_cons,List.mem_filterMap] at hnod
  exact hnod.1 ⟨other,hoth,by rw [keyOf_eq hote,heq]⟩

omit [DecidableEq E] in
theorem Represents.first_of_nonRevoke (h : Represents view log (before++row::after)) (hrow : row.revoke=none) :
    row.object∉before.map LogRow.object := by
  have hnot := h.object_notMem hrow
  rw [List.map_append,List.mem_append,not_or] at hnot
  exact hnot.1

theorem erase_map_object (hfir : row.object∉before.map LogRow.object) :
    ((before++row::after).map LogRow.object).erase row.object=(before++after).map LogRow.object := by
  rw [List.map_append,List.map_cons,List.erase_append_right _ hfir,List.erase_cons_head,List.map_append]

theorem Represents.forgetNonRevoke (h : Represents view log (before++row::after))
    (hrow : row.revoke=none) : Represents view
      (forgetNonRevoke view { log with events := (before++after).map LogRow.object } row.object) (before++after) := by
  have hfir := h.first_of_nonRevoke hrow
  have hkey := @keyOf_eq E view row hrow
  have hspl : ∀ {β : Type} (f : LogRow E → Option β), f row=none →
      (before++row::after).filterMap f=(before++after).filterMap f := by
    intro β f hf
    simp [hf]
  have hnod := h.keys_nodup
  rw [List.filterMap_append,List.filterMap_cons,hkey] at hnod
  have hbuc : ∀ emitter, emitter=(view row.object).emitterNode →
      (log.bucketOf emitter).erase row.object =
        ((before++after).filter (LogRow.ofEmitter view emitter)).map LogRow.object := by
    intro emitter hemi
    have hof : row.ofEmitter view emitter=true := by simp [LogRow.ofEmitter,hrow,hemi]
    rw [h.buckets,List.filter_append,List.filter_cons_of_pos hof,erase_map_object,List.filter_append]
    intro hmem
    obtain ⟨other,hoth,heq⟩ := List.mem_map.mp hmem
    exact hfir (List.mem_map.mpr ⟨other,(List.mem_filter.mp hoth).1,heq⟩)
  refine ⟨?_,?_,rfl,?_,?_,?_,h.targets_ne,?_,?_⟩
  · intro r hr
    apply h.typed
    rcases List.mem_append.mp hr with hr | hr
    · exact List.mem_append_left _ hr
    · exact List.mem_append_right _ (List.mem_cons_of_mem _ hr)
  · rw [List.filterMap_append]
    exact hnod.sublist (List.Sublist.append_left (List.sublist_cons_self _ _) _)
  · have hfre := List.nodup_middle.mp hnod
    unfold IndexedLog.forgetNonRevoke
    dsimp only
    rw [h.keys,List.filterMap_append,List.filterMap_cons,hkey,List.filterMap_append]
    ext other
    simp only [Finset.mem_erase,List.mem_toFinset,List.mem_append,List.mem_cons]
    constructor
    · rintro ⟨hne,hmem | heq | hmem⟩
      · exact .inl hmem
      · exact absurd heq hne
      · exact .inr hmem
    · intro hmem
      refine ⟨?_,?_⟩
      · rintro rfl
        exact (List.nodup_cons.mp hfre).1 (List.mem_append.mpr hmem)
      · exact hmem.imp_right .inr
  · rw [← hspl LogRow.authEntry (by simp [LogRow.authEntry,hrow])]
    exact h.auths
  · intro target
    rw [← hspl (LogRow.authFor target) (by simp [LogRow.authFor,hrow])]
    exact h.targets target
  · intro emitter
    rw [bucketOf_forgetNonRevoke]
    split
    case isTrue heq => exact hbuc emitter heq
    case isFalse hne =>
      have hof : ¬ row.ofEmitter view emitter=true := by
        simp [LogRow.ofEmitter,hrow,Ne.symm hne]
      have hold := h.buckets emitter
      rw [List.filter_append,List.filter_cons_of_neg hof,← List.filter_append] at hold
      exact hold
  · exact forgetNonRevoke_bucket_ne h.buckets_ne row.object

omit [DecidableEq E] in
theorem Represents.forgetRevoke (h : Represents view log (before++row::after))
    {target authKey : String} (hrow : row.revoke=some (target,authKey))
    {targets : OrderedMap String (List String)}
    (hoth : ∀ other, other≠target → targets.get other=log.revokeAuthsByTarget.get other)
    (hown : ((targets.get target).getD []).erase authKey=(log.authsOf target).erase authKey) :
    Represents view
      (forgetRevoke view { log with events := (before++after).map LogRow.object, revokeAuthsByTarget := targets }
        row.object authKey) (before++after) := by
  have htyp := h.typed row (List.mem_append_right _ List.mem_cons_self)
  unfold LogRow.Typed at htyp
  rw [hrow] at htyp
  have hent : row.authEntry=some (authKey,row.object) := by simp [LogRow.authEntry,hrow]
  have haut : row.authFor target=some authKey := by simp [LogRow.authFor,hrow]
  have hkey : row.keyOf view=none := by simp [LogRow.keyOf,hrow]
  have hkes : (before++row::after).filterMap (LogRow.keyOf view) =
      (before++after).filterMap (LogRow.keyOf view) := by
    simp [hkey]
  have hnod : ((before++row::after).filterMap LogRow.authEntry).map Prod.fst |>.Nodup := by
    rw [← h.auths]
    exact log.revokeByAuth.nodup
  rw [List.filterMap_append,List.filterMap_cons,hent,List.map_append,List.map_cons] at hnod
  have hfre := (List.nodup_cons.mp (List.nodup_middle.mp hnod)).1
  refine ⟨?_,hkes ▸ h.keys_nodup,rfl,hkes ▸ h.keys,?_,?_,?_,?_,h.buckets_ne⟩
  · intro r hr
    apply h.typed
    rcases List.mem_append.mp hr with hr | hr
    · exact List.mem_append_left _ hr
    · exact List.mem_append_right _ (List.mem_cons_of_mem _ hr)
  · unfold IndexedLog.forgetRevoke
    change log.revokeByAuth.entries.filter _=_
    rw [h.auths,List.filterMap_append,List.filterMap_cons,hent,List.filter_append,List.filter_cons_of_neg (by simp),
      List.filterMap_append]
    rw [List.mem_append,not_or] at hfre
    congr 1
    · apply List.filter_eq_self.mpr
      intro entry hmem
      have hne : entry.1≠authKey := fun heq => hfre.1 (List.mem_map.mpr ⟨entry,hmem,heq⟩)
      simpa using hne
    · apply List.filter_eq_self.mpr
      intro entry hmem
      have hne : entry.1≠authKey := fun heq => hfre.2 (List.mem_map.mpr ⟨entry,hmem,heq⟩)
      simpa using hne
  · intro other
    rw [authsOf_forgetRevoke htyp.2]
    by_cases heq : other=target
    · rw [if_pos heq,heq]
      refine hown.trans ?_
      rw [List.mem_append,not_or] at hfre
      rw [h.targets,List.filterMap_append,List.filterMap_cons,haut,
        List.erase_append_right _ fun hmem => hfre.1 ((authFor_sublist target before).subset hmem),List.erase_cons_head,List.filterMap_append]
    · have hnone : row.authFor other=none := by simp [LogRow.authFor,hrow,Ne.symm heq]
      have hold := h.targets other
      rw [if_neg heq]
      unfold authsOf at hold ⊢
      rw [hoth other heq,hold]
      simp [hnone]
  · apply forgetRevoke_target_ne htyp.2
    intro other hne
    dsimp only
    rw [hoth other hne]
    exact h.targets_ne other
  · intro emitter
    have hof : ¬ row.ofEmitter view emitter=true := by simp [LogRow.ofEmitter,hrow]
    have hold := h.buckets emitter
    rw [List.filter_append,List.filter_cons_of_neg hof,← List.filter_append] at hold
    exact hold

/-- The event of a row that is not a revoke goes. -/
theorem Represents.removeNonRevoke (h : Represents view log (before++row::after))
    (hrow : row.revoke=none) : Represents view (remove view log row.object none) (before++after) := by
  have htyp := h.typed row (List.mem_append_right _ List.mem_cons_self)
  unfold LogRow.Typed at htyp
  rw [hrow] at htyp
  have hera := @erase_map_object E _ before after row (h.first_of_nonRevoke hrow)
  unfold remove forgetIndexed
  rw [if_pos htyp,h.events,hera]
  exact h.forgetNonRevoke hrow

end Middle

theorem repeat_succ {α : Type} (f : α → α) (n : Nat) (a : α) : Nat.repeat f (n+1) a=Nat.repeat f n (f a) := by
  induction n with
  | zero => rfl
  | succ n ih =>
    rw [Nat.repeat,ih]
    rfl

/-- The oldest of `matching` are evicted until fewer than `limit` are left. -/
def evictOldestRows (matching : LogRow E → Bool) (limit : Nat) (rows : List (LogRow E)) : List (LogRow E) :=
  Nat.repeat (List.eraseP matching) ((rows.filter matching).length+1 - limit) rows

/-- The oldest row that is not a revoke goes first. -/
def evictRow (rows : List (LogRow E)) : List (LogRow E) :=
  if rows.any (·.revoke.isNone) then rows.eraseP (·.revoke.isNone) else rows.drop 1

theorem exists_eraseP_split {α : Type} {p : α → Bool} {l : List α} (h : l.any p=true) :
    ∃ before a after, l=before++a::after ∧ (∀ b∈before, p b=false) ∧ p a=true ∧
      l.eraseP p=before++after := by
  obtain ⟨a,ha,hp⟩ := List.any_eq_true.mp h
  obtain ⟨x,before,after,hbef,hx,hl,hera⟩ := List.exists_of_eraseP ha hp
  refine ⟨before,x,after,hl,?_,hx,hera⟩
  intro b hb
  simpa using hbef b hb

theorem any_of_filter {α : Type} {p : α → Bool} {l : List α} (h : 0 < (l.filter p).length) : l.any p=true := by
  obtain ⟨a,ha⟩ := List.exists_mem_of_length_pos h
  exact List.any_eq_true.mpr ⟨a,List.mem_filter.mp ha⟩

theorem length_filter_eraseP {α : Type} {p : α → Bool} {l : List α} (h : 0 < (l.filter p).length) :
    ((l.eraseP p).filter p).length+1=(l.filter p).length := by
  obtain ⟨before,a,after,rfl,hbef,ha,hera⟩ := exists_eraseP_split (any_of_filter h)
  rw [hera]
  simp [List.filter_append,ha,Nat.add_assoc]

omit [DecidableEq E] in
theorem Represents.isRevoke_eq (h : Represents view log rows)
    {row : LogRow E} (hrow : row∈rows) : isRevoke view row.object=row.revoke.isSome := (h.typed row hrow).isRevoke_eq

omit [DecidableEq E] in
theorem eraseIdx_map_object (before after : List (LogRow E)) (row : LogRow E) :
    ((before++row::after).map LogRow.object).eraseIdx before.length=(before++after).map LogRow.object := by
  have hle : (before.map LogRow.object).length ≤ before.length := by rw [List.length_map]
  rw [List.map_append,List.eraseIdx_append_of_length_le hle,List.length_map,Nat.sub_self,List.map_append]
  rfl

omit [DecidableEq E] in
theorem getElem?_map_object (before after : List (LogRow E)) (row : LogRow E) :
    ((before++row::after).map LogRow.object)[before.length]? = some row.object := by
  simp

theorem Represents.evictOne (h : Represents view log rows) :
    Represents view (evictOne view log) (evictRow rows) := by
  unfold evictRow
  split
  case isTrue hany =>
    obtain ⟨before,row,after,rfl,hbef,hrow,hera⟩ := exists_eraseP_split hany
    have hnone : row.revoke=none := Option.isNone_iff_eq_none.mp hrow
    have hmid := h.isRevoke_eq (List.mem_append_right before List.mem_cons_self)
    rw [hnone,Option.isSome_none] at hmid
    have hfind : log.events.findIdx? (fun e => !isRevoke view e)=some before.length := by
      have hski : (before.map LogRow.object).findIdx? (fun e => !isRevoke view e)=none := by
        rw [List.findIdx?_eq_none_iff]
        intro object hobj
        obtain ⟨other,hoth,rfl⟩ := List.mem_map.mp hobj
        have hsom := hbef other hoth
        rw [h.isRevoke_eq (List.mem_append_left _ hoth)]
        cases hr : other.revoke with
        | none => simp [hr] at hsom
        | some r => rfl
      rw [h.events,List.map_append,List.map_cons,List.findIdx?_append,hski,List.findIdx?_cons,hmid]
      simp
    have hind := getElem?_map_object before after row
    rw [← h.events] at hind
    unfold IndexedLog.evictOne
    dsimp only
    rw [hfind,Option.getD_some,hind,hera]
    dsimp only
    rw [h.events,eraseIdx_map_object]
    unfold forgetIndexed
    rw [if_pos hmid]
    exact h.forgetNonRevoke hnone
  case isFalse hall =>
    have hrev : ∀ row∈rows, row.revoke.isSome=true := by
      intro row hrow
      cases hr : row.revoke with
      | none => exact absurd (List.any_eq_true.mpr ⟨row,hrow,by simp [hr]⟩) hall
      | some r => rfl
    have hfind : log.events.findIdx? (fun e => !isRevoke view e)=none := by
      rw [h.events,List.findIdx?_eq_none_iff]
      intro object hobj
      obtain ⟨row,hrow,rfl⟩ := List.mem_map.mp hobj
      rw [h.isRevoke_eq hrow,hrev row hrow]
      rfl
    unfold IndexedLog.evictOne
    dsimp only
    rw [hfind,Option.getD_none]
    cases rows with
    | nil =>
      rw [h.events]
      exact h
    | cons row rest =>
      obtain ⟨⟨target,authKey⟩,hrow⟩ := Option.isSome_iff_exists.mp (hrev row List.mem_cons_self)
      have hind : log.events[0]? = some row.object := by rw [h.events]; rfl
      have heve : log.events.eraseIdx 0=rest.map LogRow.object := by rw [h.events]; rfl
      have haut := h.auths
      have hent : row.authEntry=some (authKey,row.object) := by simp [LogRow.authEntry,hrow]
      rw [List.filterMap_cons,hent] at haut
      rw [hind,heve]
      dsimp only
      unfold forgetIndexed
      rw [if_neg (by rw [h.isRevoke_eq List.mem_cons_self,hrow]; nofun)]
      have hfir : log.revokeByAuth.entries.find? (fun entry => entry.2=row.object)=some (authKey,row.object) := by
        rw [haut,List.find?_cons_of_pos (by simp)]
      have hfou : ((none : Option String) <|>
          (log.revokeByAuth.entries.find? fun entry => entry.2=row.object).map Prod.fst)=some authKey := by
        rw [hfir]
        rfl
      dsimp only
      rw [hfou]
      exact @Represents.forgetRevoke E view log [] rest row h target authKey hrow _ (fun _ _ => rfl) rfl

def enforceCapRows (rows : List (LogRow E)) : List (LogRow E) :=
  Nat.repeat evictRow (rows.length - nodeLifecycleLogMaxEvents) rows

theorem Represents.enforceCap (h : Represents view log rows) :
    Represents view (enforceCap view log) (enforceCapRows rows) := by
  unfold IndexedLog.enforceCap enforceCapRows
  rw [h.events,List.length_map]
  generalize rows.length - nodeLifecycleLogMaxEvents=n
  induction n with
  | zero => exact h
  | succ n ih => exact ih.evictOne

omit [DecidableEq E] in
theorem evictOldestRows_eq {matching : LogRow E → Bool} {limit : Nat}
    (hlim : 0 < limit) (h : limit ≤ (rows.filter matching).length) :
    evictOldestRows matching limit rows=evictOldestRows matching limit (rows.eraseP matching) := by
  have hcou := length_filter_eraseP (Nat.lt_of_lt_of_le hlim h)
  unfold evictOldestRows
  have hrou : (rows.filter matching).length+1 - limit =
      ((rows.eraseP matching).filter matching).length+1 - limit+1 := by omega
  rw [hrou,repeat_succ]

omit [DecidableEq E] in
theorem evictOldestRows_of_lt {matching : LogRow E → Bool} {limit : Nat}
    (h : (rows.filter matching).length < limit) : evictOldestRows matching limit rows=rows := by
  unfold evictOldestRows
  rw [Nat.sub_eq_zero_of_le h]
  rfl

omit [DecidableEq E] in
theorem ofEmitter_split {emitter : String} {oldest : E} {rest : List E}
    (h : (rows.filter (LogRow.ofEmitter view emitter)).map LogRow.object=oldest::rest) :
    ∃ before row after, rows=before++row::after ∧ row.object=oldest ∧ row.ofEmitter view emitter=true ∧
      rows.eraseP (LogRow.ofEmitter view emitter)=before++after := by
  have hany : rows.any (LogRow.ofEmitter view emitter)=true := by
    apply any_of_filter
    rw [← List.length_map LogRow.object,h]
    exact Nat.succ_pos _
  obtain ⟨before,row,after,rfl,hbef,hrow,hera⟩ := exists_eraseP_split hany
  have hski : before.filter (LogRow.ofEmitter view emitter)=[] := by
    rw [List.filter_eq_nil_iff]
    intro other hoth
    simp [hbef other hoth]
  rw [List.filter_append,hski,List.nil_append,List.filter_cons_of_pos hrow] at h
  exact ⟨before,row,after,rfl,(List.cons.inj h).1,hrow,hera⟩

theorem Represents.evictOwn (emitter : String) {rounds : Nat}
    (h : Represents view log rows) (hrou : (log.bucketOf emitter).length ≤ rounds) :
    Represents view (evictOwn view emitter rounds log)
      (evictOldestRows (LogRow.ofEmitter view emitter) maxRetainedNonRevokeEventsPerEmitter rows) := by
  have hpos : 0 < maxRetainedNonRevokeEventsPerEmitter := by decide
  have hlen : (log.bucketOf emitter).length=(rows.filter (LogRow.ofEmitter view emitter)).length := by
    rw [h.buckets,List.length_map]
  induction rounds generalizing log rows with
  | zero =>
    rw [evictOldestRows_of_lt (by omega)]
    exact h
  | succ rounds ih =>
    unfold IndexedLog.evictOwn
    cases hbuc : log.bucketOf emitter with
    | nil =>
      rw [hbuc] at hlen
      rw [evictOldestRows_of_lt (by rw [← hlen]; exact hpos)]
      exact h
    | cons oldest rest =>
      dsimp only
      split
      case isTrue hle =>
        rw [← hbuc,hlen] at hle
        obtain ⟨before,row,after,hros,rfl,hrow,hera⟩ := ofEmitter_split ((h.buckets emitter).symm.trans hbuc)
        have hnone : row.revoke=none := by
          have hbot : row.revoke.isNone=true ∧ _ := (Bool.and_eq_true _ _).mp hrow
          exact Option.isNone_iff_eq_none.mp hbot.1
        have hnet : Represents view (remove view log row.object none) (before++after) := by
          subst hros
          exact h.removeNonRevoke hnone
        rw [evictOldestRows_eq hpos hle,hera]
        have hsho : ((before++after).filter (LogRow.ofEmitter view emitter)).length+1 =
            (rows.filter (LogRow.ofEmitter view emitter)).length := by
          rw [← hera]
          exact length_filter_eraseP (Nat.lt_of_lt_of_le hpos hle)
        have hnex : ((remove view log row.object none).bucketOf emitter).length =
            ((before++after).filter (LogRow.ofEmitter view emitter)).length := by
          rw [hnet.buckets,List.length_map]
        exact ih hnet (by omega) hnex
      case isFalse hlt =>
        rw [evictOldestRows_of_lt (by rw [← hlen,hbuc]; exact Nat.not_le.mp hlt)]
        exact h

def LogRow.ofTarget (target : String) (row : LogRow E) : Bool := (row.authFor target).isSome

omit [DecidableEq E] in
theorem length_filterMap_authFor (target : String) (rows : List (LogRow E)) :
    (rows.filterMap (LogRow.authFor target)).length=(rows.filter (LogRow.ofTarget target)).length := by
  induction rows with
  | nil => rfl
  | cons row rows ih =>
    cases hrow : row.authFor target with
    | none => simpa [LogRow.ofTarget,hrow] using ih
    | some auth => simpa [LogRow.ofTarget,hrow] using ih

variable {target : String}

omit [DecidableEq E] in
theorem authFor_split {oldest : String} {rest : List String}
    (h : rows.filterMap (LogRow.authFor target)=oldest::rest) :
    ∃ before row after, rows=before++row::after ∧ (∀ other∈before, other.authFor target=none) ∧
      row.revoke=some (target,oldest) ∧ rows.eraseP (LogRow.ofTarget target)=before++after := by
  have hany : rows.any (LogRow.ofTarget target)=true := by
    apply any_of_filter
    rw [← length_filterMap_authFor,h]
    exact Nat.succ_pos _
  obtain ⟨before,row,after,rfl,hbef,hrow,hera⟩ := exists_eraseP_split hany
  have hski : ∀ other∈before, other.authFor target=none := by
    intro other hoth
    have hnot := hbef other hoth
    unfold LogRow.ofTarget at hnot
    exact Option.isNone_iff_eq_none.mp (by simpa using hnot)
  refine ⟨before,row,after,rfl,hski,?_,hera⟩
  rw [List.filterMap_append,List.filterMap_eq_nil_iff.mpr hski,List.nil_append] at h
  obtain ⟨auth,haut⟩ := Option.isSome_iff_exists.mp hrow
  rw [List.filterMap_cons,haut] at h
  obtain ⟨rfl,-⟩ := List.cons.inj h
  unfold LogRow.authFor at haut
  obtain ⟨⟨t,a⟩,hrev,hif⟩ := Option.bind_eq_some_iff.mp haut
  split at hif
  case isTrue htar =>
    cases hif
    rw [hrev,← htar]
  case isFalse => cases hif

theorem Represents.dropOldest (h : Represents view log rows)
    {oldest : String} {rest : List String} (haut : log.authsOf target=oldest::rest) :
    Represents view
      (dropRetainedRevoke view { log with revokeAuthsByTarget := log.revokeAuthsByTarget.set target rest } oldest)
      (rows.eraseP (LogRow.ofTarget target)) := by
  obtain ⟨before,row,after,rfl,hski,hrow,hera⟩ := authFor_split ((h.targets target).symm.trans haut)
  have htyp := h.typed row (List.mem_append_right _ List.mem_cons_self)
  unfold LogRow.Typed at htyp
  rw [hrow] at htyp
  have hget : log.revokeByAuth.get oldest=some row.object := by
    have hmem : (oldest,row.object)∈log.revokeByAuth.entries := by
      rw [h.auths]
      exact List.mem_filterMap.mpr ⟨row,List.mem_append_right _ List.mem_cons_self,by simp [LogRow.authEntry,hrow]⟩
    exact OrderedMap.get_of_mem hmem
  have hfir : row.object∉before.map LogRow.object := by
    intro hmem
    obtain ⟨other,hoth,heq⟩ := List.mem_map.mp hmem
    have hotd := h.typed other (List.mem_append_left _ hoth)
    unfold LogRow.Typed at hotd
    rw [heq] at hotd
    cases hr : other.revoke with
    | none =>
      rw [hr,htyp.1] at hotd
      cases hotd
    | some r =>
      rw [hr,htyp.2] at hotd
      have htar : target=r.1 := Option.some.inj hotd.2
      have hnone := hski other hoth
      simp [LogRow.authFor,hr,htar] at hnone
  have hnod := h.auths_nodup target
  rw [haut] at hnod
  unfold dropRetainedRevoke
  dsimp only
  rw [hget,hera]
  dsimp only
  unfold remove forgetIndexed
  rw [if_neg (by rw [htyp.1]; nofun),h.events,erase_map_object hfir]
  refine h.forgetRevoke hrow ?_ ?_
  · intro other hne
    exact OrderedMap.get_set_ne _ _ hne
  · rw [OrderedMap.get_set_self,Option.getD_some,haut,List.erase_cons_head,
      List.erase_of_not_mem (List.nodup_cons.mp hnod).1]

theorem Represents.evictAuths (target : String) {rounds : Nat}
    (h : Represents view log rows) (hrou : (log.authsOf target).length ≤ rounds) :
    Represents view (evictAuths view target rounds log)
      (evictOldestRows (LogRow.ofTarget target) maxRetainedRevokeAuthorizationsPerTarget rows) := by
  have hpos : 0 < maxRetainedRevokeAuthorizationsPerTarget := by decide
  have hcou : ∀ {log : IndexedLog E} {rows : List (LogRow E)}, Represents view log rows →
      (log.authsOf target).length=(rows.filter (LogRow.ofTarget target)).length := by
    intro log rows h
    rw [h.targets,length_filterMap_authFor]
  induction rounds generalizing log rows with
  | zero =>
    have hlen := hcou h
    rw [evictOldestRows_of_lt (by omega)]
    exact h
  | succ rounds ih =>
    have hlen := hcou h
    unfold IndexedLog.evictAuths
    cases haut : log.authsOf target with
    | nil =>
      rw [haut] at hlen
      rw [evictOldestRows_of_lt (by rw [← hlen]; exact hpos)]
      exact h
    | cons oldest rest =>
      dsimp only
      split
      case isTrue hle =>
        have hnex := h.dropOldest haut
        rw [← haut,hlen] at hle
        have hsho : ((rows.eraseP (LogRow.ofTarget target)).filter (LogRow.ofTarget target)).length+1 =
            (rows.filter (LogRow.ofTarget target)).length := length_filter_eraseP (Nat.lt_of_lt_of_le hpos hle)
        rw [evictOldestRows_eq hpos hle]
        exact ih hnex (by rw [hcou hnex]; omega)
      case isFalse hlt =>
        rw [evictOldestRows_of_lt (by rw [← hlen,haut]; exact Nat.not_le.mp hlt)]
        exact h

def appendRow (view : E → SignedEvent Payload) (rows : List (LogRow E)) (evt : E) : List (LogRow E) :=
  if nonRevokeKey view evt∈rows.filterMap (LogRow.keyOf view) then rows
  else enforceCapRows (evictOldestRows (LogRow.ofEmitter view (view evt).emitterNode)
    maxRetainedNonRevokeEventsPerEmitter rows++[⟨evt,none⟩])

def appendRevokeRow (rows : List (LogRow E)) (evt : E) (target authKey : String) : List (LogRow E) :=
  if authKey∈(rows.filterMap LogRow.authEntry).map Prod.fst then rows
  else enforceCapRows (evictOldestRows (LogRow.ofTarget target) maxRetainedRevokeAuthorizationsPerTarget rows ++
    [⟨evt,some (target,authKey)⟩])

omit [DecidableEq E] in
theorem evictOldestRows_sublist (matching : LogRow E → Bool) (limit : Nat) (rows : List (LogRow E)) :
    (evictOldestRows matching limit rows).Sublist rows := by
  unfold evictOldestRows
  generalize (rows.filter matching).length+1 - limit=n
  induction n with
  | zero => exact .refl _
  | succ n ih => exact (List.eraseP_sublist).trans ih

omit [DecidableEq E] in
theorem Represents.push {evt : E} (h : Represents view log rows)
    (hnon : isRevoke view evt=false) (hfre : nonRevokeKey view evt∉rows.filterMap (LogRow.keyOf view)) :
    Represents view { log with
      nonRevokeKeys := insert (nonRevokeKey view evt) log.nonRevokeKeys
      nonRevokeByEmitter := log.nonRevokeByEmitter.set (view evt).emitterNode (log.bucketOf (view evt).emitterNode++[evt])
      events := log.events++[evt] } (rows++[⟨evt,none⟩]) := by
  have hkey : LogRow.keyOf view ⟨evt,none⟩=some (nonRevokeKey view evt) := rfl
  have hkes : (rows++[(⟨evt,none⟩ : LogRow E)]).filterMap (LogRow.keyOf view) =
      rows.filterMap (LogRow.keyOf view)++[nonRevokeKey view evt] := by
    rw [List.filterMap_append,List.filterMap_cons,hkey,List.filterMap_nil]
  refine ⟨?_,?_,?_,?_,?_,?_,h.targets_ne,?_,?_⟩
  · intro row hrow
    rcases List.mem_append.mp hrow with hrow | hrow
    · exact h.typed row hrow
    · rw [List.mem_singleton.mp hrow]
      exact hnon
  · rw [hkes]
    exact List.nodup_append.mpr ⟨h.keys_nodup,List.nodup_singleton _,fun a ha b hb hab =>
      hfre ((List.mem_singleton.mp hb) ▸ hab ▸ ha)⟩
  · rw [h.events,List.map_append]
    rfl
  · rw [hkes,h.keys,List.toFinset_append]
    ext key
    simp
  · rw [h.auths,List.filterMap_append]
    exact (List.append_nil _).symm
  · intro target
    rw [List.filterMap_append]
    exact (h.targets target).trans (List.append_nil _).symm
  · intro emitter
    rw [bucketOf,OrderedMap.get_set,List.filter_append,List.map_append,← h.buckets]
    by_cases hemi : emitter=(view evt).emitterNode
    · rw [if_pos hemi,hemi]
      simp [LogRow.ofEmitter]
    · have hof : LogRow.ofEmitter view emitter ⟨evt,none⟩=false := by simp [LogRow.ofEmitter,Ne.symm hemi]
      rw [if_neg hemi,List.filter_singleton,hof]
      exact (List.append_nil _).symm
  · intro emitter
    rw [OrderedMap.get_set]
    split
    · simp
    · exact h.buckets_ne emitter

omit [DecidableEq E] in
theorem Represents.pushRevoke {evt : E} {authKey : String}
    (h : Represents view log rows) (hrev : isRevoke view evt=true)
    (htar : (view evt).payload.nodeId=some target)
    (hfre : log.revokeByAuth.get authKey=none) :
    Represents view { log with
      revokeByAuth := log.revokeByAuth.set authKey evt
      revokeAuthsByTarget := log.revokeAuthsByTarget.set target (log.authsOf target++[authKey])
      events := log.events++[evt] } (rows++[⟨evt,some (target,authKey)⟩]) := by
  have hkey : (rows++[(⟨evt,some (target,authKey)⟩ : LogRow E)]).filterMap (LogRow.keyOf view) =
      rows.filterMap (LogRow.keyOf view) := by
    rw [List.filterMap_append]
    exact List.append_nil _
  refine ⟨?_,?_,?_,?_,?_,?_,?_,?_,h.buckets_ne⟩
  · intro row hrow
    rcases List.mem_append.mp hrow with hrow | hrow
    · exact h.typed row hrow
    · rw [List.mem_singleton.mp hrow]
      exact ⟨hrev,htar⟩
  · rw [hkey]
    exact h.keys_nodup
  · rw [h.events,List.map_append]
    rfl
  · rw [hkey]
    exact h.keys
  · rw [OrderedMap.entries_set_of_none hfre,h.auths,List.filterMap_append]
    rfl
  · intro other
    rw [authsOf,OrderedMap.get_set,List.filterMap_append,← h.targets]
    by_cases hoth : other=target
    · rw [if_pos hoth,hoth]
      simp [LogRow.authFor]
    · have hnone : LogRow.authFor other (⟨evt,some (target,authKey)⟩ : LogRow E)=none := by
        simp [LogRow.authFor,Ne.symm hoth]
      rw [if_neg hoth,List.filterMap_cons,hnone]
      exact (List.append_nil _).symm
  · intro other
    rw [OrderedMap.get_set]
    split
    · simp
    · exact h.targets_ne other
  · intro emitter
    rw [List.filter_append,List.map_append]
    exact (h.buckets emitter).trans (List.append_nil _).symm

theorem Represents.append {evt : E} {log next : IndexedLog E} (h : Represents view log rows)
    (happ : append view log evt=.ok next) : Represents view next (appendRow view rows evt) := by
  unfold IndexedLog.append at happ
  split at happ
  · cases happ
  case isFalse hnon =>
    have hmem : nonRevokeKey view evt∈log.nonRevokeKeys ↔ nonRevokeKey view evt∈rows.filterMap (LogRow.keyOf view) := by
      rw [h.keys,List.mem_toFinset]
    unfold appendRow
    split at happ
    case isTrue hkey =>
      cases happ
      rw [if_pos (hmem.mp hkey)]
      exact h
    case isFalse hkey =>
      have hevi := h.evictOwn (view evt).emitterNode (Nat.le_refl _)
      have hfre : nonRevokeKey view evt∉(evictOldestRows (LogRow.ofEmitter view (view evt).emitterNode)
          maxRetainedNonRevokeEventsPerEmitter rows).filterMap (LogRow.keyOf view) := by
        intro hin
        exact hkey (hmem.mpr (((evictOldestRows_sublist _ _ _).filterMap _).subset hin))
      have hpus := (hevi.push (Bool.not_eq_true _ ▸ hnon) hfre).enforceCap
      rw [if_neg (fun hin => hkey (hmem.mpr hin)),← Except.ok.inj happ]
      exact hpus

theorem Represents.appendRevoke {evt : E} {authKey : String}
    (h : Represents view log rows) (hrev : isRevoke view evt=true)
    (htar : (view evt).payload.nodeId=some target) :
    Represents view (appendRevoke view log evt target authKey) (appendRevokeRow rows evt target authKey) := by
  have hmem : ∀ {log : IndexedLog E} {rows : List (LogRow E)}, Represents view log rows →
      (log.revokeByAuth.get authKey=none ↔ authKey∉(rows.filterMap LogRow.authEntry).map Prod.fst) := by
    intro log rows h
    rw [OrderedMap.get_eq_none_iff,h.auths]
  unfold IndexedLog.appendRevoke appendRevokeRow hasRetainedRevokeAuthorization
  cases hget : log.revokeByAuth.get authKey with
  | some old =>
    have hin : authKey∈(rows.filterMap LogRow.authEntry).map Prod.fst := by
      by_contra hnot
      rw [(hmem h).mpr hnot] at hget
      cases hget
    rw [if_pos Option.isSome_some,if_pos hin]
    exact h
  | none =>
    have hnot := (hmem h).mp hget
    have hevi := h.evictAuths target (Nat.le_refl _)
    have hfre := (hmem hevi).mpr fun hin =>
      hnot ((((evictOldestRows_sublist _ _ _).filterMap _).map Prod.fst).subset hin)
    have hpus := (hevi.pushRevoke hrev htar hfre).enforceCap
    rw [if_neg (by simp),if_neg hnot]
    exact hpus

inductive Call (E : Type) where
  | append (evt : E)
  | appendRevoke (evt : E) (target authKey : String)

def Call.Valid (view : E → SignedEvent Payload) : Call E → Prop
  | .append _ => True
  | .appendRevoke evt target _ => isRevoke view evt=true ∧ (view evt).payload.nodeId=some target

def Call.evt : Call E → E
  | .append evt => evt
  | .appendRevoke evt _ _ => evt

def step (view : E → SignedEvent Payload) (log : IndexedLog E) : Call E → IndexedLog E
  | .append evt =>
    match log.append view evt with
    | .ok next => next
    | .error _ => log
  | .appendRevoke evt target authKey => log.appendRevoke view evt target authKey

def run (view : E → SignedEvent Payload) (calls : List (Call E)) : IndexedLog E := calls.foldl (step view) empty

def stepRows (view : E → SignedEvent Payload) (rows : List (LogRow E)) : Call E → List (LogRow E)
  | .append evt => if isRevoke view evt then rows else appendRow view rows evt
  | .appendRevoke evt target authKey => appendRevokeRow rows evt target authKey

def runRows (view : E → SignedEvent Payload) (calls : List (Call E)) : List (LogRow E) :=
  calls.foldl (stepRows view) []

theorem Represents.step (h : Represents view log rows) {call : Call E}
    (hcal : call.Valid view) : Represents view (step view log call) (stepRows view rows call) := by
  cases call with
  | append evt =>
    by_cases hrev : isRevoke view evt=true
    · have herr : log.append view evt=.error () := by rw [IndexedLog.append,if_pos hrev]
      simp only [IndexedLog.step,stepRows,herr,if_pos hrev]
      exact h
    · cases happ : log.append view evt with
      | error err =>
        unfold IndexedLog.append at happ
        rw [if_neg hrev] at happ
        split at happ
        · cases happ
        · cases happ
      | ok next =>
        simp only [IndexedLog.step,stepRows,happ,if_neg hrev]
        exact h.append happ
  | appendRevoke evt target authKey => exact h.appendRevoke hcal.1 hcal.2

theorem represents_run {calls : List (Call E)} (hcal : ∀ call∈calls, call.Valid view) :
    Represents view (run view calls) (runRows view calls) := by
  induction calls using List.reverseRecOn with
  | nil => exact empty_represents
  | append_singleton calls call ih =>
    rw [run,runRows,List.foldl_append,List.foldl_append]
    exact (ih fun c hc => hcal c (List.mem_append_left _ hc)).step
      (hcal call (List.mem_append_right _ List.mem_cons_self))

section Rows

omit [DecidableEq E]

theorem length_evictRow (rows : List (LogRow E)) : (evictRow rows).length=rows.length - 1 := by
  unfold evictRow
  split
  case isTrue hany =>
    obtain ⟨row,hrow,hnone⟩ := List.any_eq_true.mp hany
    exact List.length_eraseP_of_mem hrow hnone
  case isFalse => exact List.length_drop

theorem enforceCapRows_eq (h : rows.length ≤ nodeLifecycleLogMaxEvents+1) :
    enforceCapRows rows=if rows.length ≤ nodeLifecycleLogMaxEvents then rows else evictRow rows := by
  unfold enforceCapRows
  split
  case isTrue hle =>
    rw [Nat.sub_eq_zero_of_le hle]
    rfl
  case isFalse hgt =>
    have hone : rows.length - nodeLifecycleLogMaxEvents=1 := by omega
    rw [hone]
    rfl

theorem length_enforceCapRows (rows : List (LogRow E)) :
    (enforceCapRows rows).length ≤ nodeLifecycleLogMaxEvents := by
  have hrou : ∀ n, (Nat.repeat evictRow n rows).length=rows.length - n := by
    intro n
    induction n with
    | zero => rfl
    | succ n ih =>
      rw [Nat.repeat,length_evictRow,ih]
      omega
  unfold enforceCapRows
  rw [hrou]
  omega

theorem length_stepRows (h : rows.length ≤ nodeLifecycleLogMaxEvents) (call : Call E) :
    (stepRows view rows call).length ≤ nodeLifecycleLogMaxEvents := by
  cases call with
  | append evt =>
    simp only [stepRows,appendRow]
    split
    · exact h
    · split
      · exact h
      · exact length_enforceCapRows _
  | appendRevoke evt target authKey =>
    simp only [stepRows,appendRevokeRow]
    split
    · exact h
    · exact length_enforceCapRows _

theorem length_runRows (calls : List (Call E)) : (runRows view calls).length ≤ nodeLifecycleLogMaxEvents := by
  induction calls using List.reverseRecOn with
  | nil => exact Nat.zero_le _
  | append_singleton calls call ih =>
    rw [runRows,List.foldl_append]
    exact length_stepRows ih call

/-- The rows that the quota does not concern stay. -/
theorem mem_evictOldestRows {matching : LogRow E → Bool} {limit : Nat} {row : LogRow E}
    (hrow : row∈rows) (hoth : matching row=false) : row∈evictOldestRows matching limit rows := by
  unfold evictOldestRows
  generalize (rows.filter matching).length+1 - limit=n
  induction n with
  | zero => exact hrow
  | succ n ih => exact (List.mem_eraseP_of_neg (by simp [hoth])).mpr ih

theorem mem_evictRow_of_revoke {row : LogRow E} (hrow : row∈rows)
    (hrev : row.revoke.isSome=true) : row∈evictRow rows ∨ ∀ other∈rows, other.revoke.isSome=true := by
  unfold evictRow
  split
  case isTrue => exact .inl ((List.mem_eraseP_of_neg (by simp [Option.isSome_iff_ne_none.mp hrev])).mpr hrow)
  case isFalse hall =>
    right
    intro other hoth
    cases hr : other.revoke with
    | none => exact absurd (List.any_eq_true.mpr ⟨other,hoth,by simp [hr]⟩) hall
    | some r => rfl

end Rows

namespace Call

def counted (view : E → SignedEvent Payload) : Call E → LogRow E → Bool
  | .append evt => LogRow.ofEmitter view (view evt).emitterNode
  | .appendRevoke _ target _ => LogRow.ofTarget target

def quota : Call E → Nat
  | .append _ => maxRetainedNonRevokeEventsPerEmitter
  | .appendRevoke _ _ _ => maxRetainedRevokeAuthorizationsPerTarget

def row : Call E → LogRow E
  | .append evt => ⟨evt,none⟩
  | .appendRevoke evt target authKey => ⟨evt,some (target,authKey)⟩

def held (view : E → SignedEvent Payload) (log : IndexedLog E) : Call E → Nat
  | .append evt => (log.bucketOf (view evt).emitterNode).length
  | .appendRevoke _ target _ => (log.authsOf target).length

/-- The call is not refused and adds an event the log does not have. -/
def Adds (view : E → SignedEvent Payload) (log : IndexedLog E) : Call E → Prop
  | .append evt => isRevoke view evt=false ∧ nonRevokeKey view evt∉log.nonRevokeKeys
  | .appendRevoke _ _ authKey => log.hasRetainedRevokeAuthorization authKey=false

def Crowds (view : E → SignedEvent Payload) (log : IndexedLog E) (call : Call E) : Prop :=
  call.Adds view log ∧ call.held view log < call.quota ∧ log.events.length=nodeLifecycleLogMaxEvents

end Call

omit [DecidableEq E] in
theorem Represents.held_eq (h : Represents view log rows) (call : Call E) :
    call.held view log=(rows.filter (call.counted view)).length := by
  cases call with
  | append evt => simp only [Call.held,Call.counted,h.buckets,List.length_map]
  | appendRevoke evt target authKey => simp only [Call.held,Call.counted,h.targets,length_filterMap_authFor]

omit [DecidableEq E] in
theorem Represents.retained_iff (h : Represents view log rows)
    {authKey : String} : log.hasRetainedRevokeAuthorization authKey=true ↔
      authKey∈(rows.filterMap LogRow.authEntry).map Prod.fst := by
  rw [hasRetainedRevokeAuthorization,← h.auths,← not_iff_not,← OrderedMap.get_eq_none_iff,Bool.not_eq_true,
    Option.isSome_eq_false_iff,Option.isNone_iff_eq_none]

omit [DecidableEq E] in
theorem quota_pos (call : Call E) : 0 < call.quota := by
  cases call with
  | append evt => exact (by decide : 0 < maxRetainedNonRevokeEventsPerEmitter)
  | appendRevoke evt target authKey => exact (by decide : 0 < maxRetainedRevokeAuthorizationsPerTarget)

omit [DecidableEq E] in
theorem evictOldestRows_append_of_adds (h : Represents view log rows)
    {call : Call E} (hadd : call.Adds view log) :
    stepRows view rows call=enforceCapRows (evictOldestRows (call.counted view) call.quota rows++[call.row]) := by
  cases call with
  | append evt =>
    have hkey : nonRevokeKey view evt∉rows.filterMap (LogRow.keyOf view) := by
      intro hin
      exact hadd.2 (by rw [h.keys]; exact List.mem_toFinset.mpr hin)
    simp only [stepRows,hadd.1,Bool.false_eq_true,if_false,appendRow,if_neg hkey,Call.counted,Call.quota,Call.row]
  | appendRevoke evt target authKey =>
    have hkey : authKey∉(rows.filterMap LogRow.authEntry).map Prod.fst := by
      rw [← h.retained_iff,Bool.not_eq_true]
      exact hadd
    simp only [stepRows,appendRevokeRow,if_neg hkey,Call.counted,Call.quota,Call.row]

omit [DecidableEq E] in
theorem stepRows_of_not_adds (h : Represents view log rows)
    {call : Call E} (hadd : ¬ call.Adds view log) : stepRows view rows call=rows := by
  cases call with
  | append evt =>
    simp only [stepRows,appendRow]
    split
    · rfl
    case isFalse hrev =>
      rw [if_pos]
      by_contra hkey
      refine hadd ⟨Bool.not_eq_true _ ▸ hrev,?_⟩
      rw [h.keys,List.mem_toFinset]
      exact hkey
  | appendRevoke evt target authKey =>
    simp only [stepRows,appendRevokeRow]
    rw [if_pos]
    rw [← h.retained_iff]
    exact Bool.not_eq_false _ ▸ hadd

omit [DecidableEq E] in
theorem stepRows_of_adds (h : Represents view log rows)
    (hcap : rows.length ≤ nodeLifecycleLogMaxEvents) {call : Call E} (hadd : call.Adds view log) :
    (call.Crowds view log → stepRows view rows call=evictRow (rows++[call.row])) ∧
    (¬ call.Crowds view log →
      stepRows view rows call=evictOldestRows (call.counted view) call.quota rows++[call.row]) := by
  have hlen : log.events.length=rows.length := by rw [h.events,List.length_map]
  rw [evictOldestRows_append_of_adds h hadd]
  constructor
  · rintro ⟨-,hhel,hful⟩
    rw [h.held_eq] at hhel
    have hove : (rows++[call.row]).length=nodeLifecycleLogMaxEvents+1 := by
      rw [List.length_append,← hlen,hful]
      rfl
    rw [evictOldestRows_of_lt hhel,enforceCapRows_eq (Nat.le_of_eq hove),if_neg (by omega)]
  · intro hcro
    have hroo : (evictOldestRows (call.counted view) call.quota rows++[call.row]).length ≤
        nodeLifecycleLogMaxEvents := by
      rw [List.length_append,List.length_singleton]
      by_cases hhel : (rows.filter (call.counted view)).length < call.quota
      · have hnot : ¬ log.events.length=nodeLifecycleLogMaxEvents := fun hful =>
          hcro ⟨hadd,by rwa [h.held_eq],hful⟩
        rw [evictOldestRows_of_lt hhel]
        omega
      · have hle := Nat.not_lt.mp hhel
        obtain ⟨row,hrow,hcou⟩ := List.any_eq_true.mp
          (any_of_filter (Nat.lt_of_lt_of_le (quota_pos call) hle))
        have hsho := (evictOldestRows_sublist (call.counted view) call.quota
          (rows.eraseP (call.counted view))).length_le
        rw [List.length_eraseP_of_mem hrow hcou] at hsho
        have hpos := List.length_pos_of_mem hrow
        rw [evictOldestRows_eq (quota_pos call) hle]
        omega
    rw [enforceCapRows_eq (by omega),if_pos hroo]

/-- The indexes say what the list of events says: the keys are those of the events that are not revokes, one for each;
the authorizations retain the revokes, one for each; the two kinds of lists hold the retained events they are for, in
the order of insertion, and none is empty. -/
structure Consistent (view : E → SignedEvent Payload) (log : IndexedLog E) : Prop where
  keys_nodup : ((log.events.filter fun e => !isRevoke view e).map (nonRevokeKey view)).Nodup
  keys : log.nonRevokeKeys=((log.events.filter fun e => !isRevoke view e).map (nonRevokeKey view)).toFinset
  auths : log.revokeByAuth.entries.map Prod.snd=log.events.filter (isRevoke view)
  targets : ∀ target, log.authsOf target =
    (log.revokeByAuth.entries.filter fun entry => (view entry.2).payload.nodeId=some target).map Prod.fst
  targets_ne : ∀ target, log.revokeAuthsByTarget.get target≠some []
  buckets : ∀ emitter, log.bucketOf emitter =
    log.events.filter fun e => !isRevoke view e && decide ((view e).emitterNode=emitter)
  buckets_ne : ∀ emitter, log.nonRevokeByEmitter.get emitter≠some []

section Typed

omit [DecidableEq E]

variable {rows : List (LogRow E)}

theorem filterMap_keyOf (h : ∀ row∈rows, row.Typed view) : rows.filterMap (LogRow.keyOf view) =
    ((rows.map LogRow.object).filter fun e => !isRevoke view e).map (nonRevokeKey view) := by
  induction rows with
  | nil => rfl
  | cons row rows ih =>
    have hrow := (h row List.mem_cons_self).isRevoke_eq
    have htai := ih fun other hoth => h other (List.mem_cons_of_mem _ hoth)
    cases hr : row.revoke with
    | none => simp [LogRow.keyOf,hr,hrow,htai]
    | some r => simp [LogRow.keyOf,hr,hrow,htai]

theorem filterMap_authEntry (h : ∀ row∈rows, row.Typed view) :
    (rows.filterMap LogRow.authEntry).map Prod.snd=(rows.map LogRow.object).filter (isRevoke view) := by
  induction rows with
  | nil => rfl
  | cons row rows ih =>
    have hrow := (h row List.mem_cons_self).isRevoke_eq
    have htai := ih fun other hoth => h other (List.mem_cons_of_mem _ hoth)
    cases hr : row.revoke with
    | none => simpa [LogRow.authEntry,hr,hrow] using htai
    | some r => simpa [LogRow.authEntry,hr,hrow] using htai

theorem filterMap_authFor (h : ∀ row∈rows, row.Typed view) (target : String) :
    rows.filterMap (LogRow.authFor target) =
      ((rows.filterMap LogRow.authEntry).filter fun entry => (view entry.2).payload.nodeId=some target).map
        Prod.fst := by
  induction rows with
  | nil => rfl
  | cons row rows ih =>
    have htai := ih fun other hoth => h other (List.mem_cons_of_mem _ hoth)
    cases hr : row.revoke with
    | none => simpa [LogRow.authFor,LogRow.authEntry,hr] using htai
    | some r =>
      have hnod := (h row List.mem_cons_self).nodeId hr
      by_cases htar : r.1=target
      · simpa [LogRow.authFor,LogRow.authEntry,hr,hnod,htar] using htai
      · simpa [LogRow.authFor,LogRow.authEntry,hr,hnod,htar] using htai

theorem filter_ofEmitter (h : ∀ row∈rows, row.Typed view) (emitter : String) :
    (rows.filter (LogRow.ofEmitter view emitter)).map LogRow.object =
      (rows.map LogRow.object).filter fun e => !isRevoke view e && decide ((view e).emitterNode=emitter) := by
  rw [List.filter_map]
  congr 1
  apply List.filter_congr
  intro row hrow
  have his := (h row hrow).isRevoke_eq
  cases hr : row.revoke with
  | none => simp [LogRow.ofEmitter,hr,his]
  | some r => simp [LogRow.ofEmitter,hr,his]

theorem Represents.consistent (h : Represents view log rows) : Consistent view log where
  keys_nodup := by
    rw [h.events,← filterMap_keyOf h.typed]
    exact h.keys_nodup
  keys := by rw [h.events,← filterMap_keyOf h.typed,h.keys]
  auths := by rw [h.events,h.auths,filterMap_authEntry h.typed]
  targets target := by rw [h.targets,h.auths,filterMap_authFor h.typed]
  targets_ne := h.targets_ne
  buckets emitter := by rw [h.buckets,h.events,filter_ofEmitter h.typed]
  buckets_ne := h.buckets_ne

end Typed

/-- A revoke that the call takes from the log is one of its target's, whose quota is full, or the log is full of
revokes. -/
def KeepsRevokes (view : E → SignedEvent Payload) (log : IndexedLog E) (call : Call E) : Prop :=
  ∀ authKey evt, log.revokeByAuth.get authKey=some evt →
    (step view log call).hasRetainedRevokeAuthorization authKey=true ∨
    (∃ sent target auth, call=.appendRevoke sent target auth ∧ (view evt).payload.nodeId=some target ∧
      maxRetainedRevokeAuthorizationsPerTarget ≤ (log.authsOf target).length) ∨
    (log.events.length=nodeLifecycleLogMaxEvents ∧ ∀ e∈log.events++[call.evt], isRevoke view e=true)

/-- The call takes no other emitter's event from the log. -/
def Isolates (view : E → SignedEvent Payload) (log : IndexedLog E) (call : Call E) : Prop :=
  ∀ evt∈log.events, isRevoke view evt=false → (view evt).emitterNode≠(view call.evt).emitterNode →
    evt∈(step view log call).events

/-- The log has room for the event, or its oldest event that is not a revoke is the sender's. -/
def Fits (view : E → SignedEvent Payload) (log : IndexedLog E) (call : Call E) : Prop :=
  call.Crowds view log → ∀ oldest, log.events.find? (fun e => !isRevoke view e)=some oldest →
    (view oldest).emitterNode=(view call.evt).emitterNode

section Step

variable {log : IndexedLog E} {rows : List (LogRow E)} {call : Call E}

omit [DecidableEq E] in
theorem exists_row_of_get (h : Represents view log rows) {authKey : String} {evt : E}
    (hget : log.revokeByAuth.get authKey=some evt) :
    ∃ row∈rows, ∃ target, row.object=evt ∧ row.revoke=some (target,authKey) := by
  have hmem := OrderedMap.mem_of_get hget
  rw [h.auths] at hmem
  obtain ⟨row,hrow,hent⟩ := List.mem_filterMap.mp hmem
  obtain ⟨⟨target,auth⟩,hr,heq⟩ := Option.map_eq_some_iff.mp hent
  cases heq
  exact ⟨row,hrow,target,rfl,hr⟩

omit [DecidableEq E] in
theorem retained_of_mem (h : Represents view log rows) {row : LogRow E} (hrow : row∈rows) {target authKey : String}
    (hr : row.revoke=some (target,authKey)) : log.hasRetainedRevokeAuthorization authKey=true := by
  rw [h.retained_iff]
  refine List.mem_map.mpr ⟨(authKey,row.object),List.mem_filterMap.mpr ⟨row,hrow,?_⟩,rfl⟩
  rw [LogRow.authEntry,hr,Option.map_some]

omit [DecidableEq E] in
theorem object_row (call : Call E) : call.row.object=call.evt := by cases call <;> rfl

omit [DecidableEq E] in
theorem typed_row (hcal : call.Valid view) (hadd : call.Adds view log) : call.row.Typed view := by
  cases call with
  | append evt => exact hadd.1
  | appendRevoke evt target authKey => exact hcal

theorem keepsRevokes (h : Represents view log rows) (hcap : rows.length ≤ nodeLifecycleLogMaxEvents)
    (hcal : call.Valid view) : KeepsRevokes view log call := by
  intro authKey evt hget
  have hnex := h.step hcal
  obtain ⟨row,hrow,target,rfl,hr⟩ := exists_row_of_get h hget
  by_cases hadd : call.Adds view log
  swap
  · rw [stepRows_of_not_adds h hadd] at hnex
    exact .inl (retained_of_mem hnex hrow hr)
  by_cases hcro : call.Crowds view log
  · rw [(stepRows_of_adds h hcap hadd).1 hcro] at hnex
    rcases mem_evictRow_of_revoke (List.mem_append_left [call.row] hrow) (by rw [hr]; rfl) with hkep | hall
    · exact .inl (retained_of_mem hnex hkep hr)
    · refine .inr (.inr ⟨hcro.2.2,?_⟩)
      intro e he
      have he : e∈(rows++[call.row]).map LogRow.object := by
        rwa [List.map_append,List.map_singleton,object_row,← h.events]
      obtain ⟨other,hoth,rfl⟩ := List.mem_map.mp he
      have htyp : other.Typed view := by
        rcases List.mem_append.mp hoth with hold | hnew
        · exact h.typed other hold
        · rw [List.mem_singleton.mp hnew]
          exact typed_row hcal hadd
      rw [htyp.isRevoke_eq]
      exact hall other hoth
  · rw [(stepRows_of_adds h hcap hadd).2 hcro] at hnex
    by_cases hcou : call.counted view row=true
    · cases call with
      | append sent => simp [Call.counted,LogRow.ofEmitter,hr] at hcou
      | appendRevoke sent other auth =>
        have htar : target=other := by
          by_contra hne
          simp [Call.counted,LogRow.ofTarget,LogRow.authFor,hr,hne] at hcou
        subst htar
        by_cases hquo : maxRetainedRevokeAuthorizationsPerTarget ≤ (log.authsOf target).length
        · exact .inr (.inl ⟨sent,target,auth,rfl,(h.typed row hrow).nodeId hr,hquo⟩)
        · rw [h.targets,length_filterMap_authFor] at hquo
          have hsta : evictOldestRows (Call.counted view (.appendRevoke sent target auth))
              (Call.appendRevoke sent target auth).quota rows=rows := evictOldestRows_of_lt (Nat.not_le.mp hquo)
          rw [hsta] at hnex
          exact .inl (retained_of_mem hnex (List.mem_append_left _ hrow) hr)
    · have hkep := @mem_evictOldestRows E rows (call.counted view) call.quota row hrow (Bool.not_eq_true _ ▸ hcou)
      exact .inl (retained_of_mem hnex (List.mem_append_left _ hkep) hr)

omit [DecidableEq E] in
/-- What the cap takes from a log with an event that is not a revoke. -/
theorem oldest_split (h : Represents view log rows) (hany : rows.any (fun row => row.revoke.isNone)=true) :
    ∃ before oldest after, rows=before++oldest::after ∧ oldest.revoke=none ∧
      log.events.find? (fun e => !isRevoke view e)=some oldest.object ∧
      ∀ new, evictRow (rows++[new])=before++after++[new] := by
  obtain ⟨before,oldest,after,rfl,hbef,holt,hera⟩ := exists_eraseP_split hany
  refine ⟨before,oldest,after,rfl,Option.isNone_iff_eq_none.mp holt,?_,?_⟩
  · have hski : (before.map LogRow.object).find? (fun e => !isRevoke view e)=none := by
      rw [List.find?_eq_none]
      intro e he
      obtain ⟨row,hrow,rfl⟩ := List.mem_map.mp he
      have hsom : row.revoke.isSome=true := by simpa using hbef row hrow
      rw [h.isRevoke_eq (List.mem_append_left _ hrow),hsom]
      nofun
    have his := h.isRevoke_eq (List.mem_append_right before List.mem_cons_self)
    rw [Option.isNone_iff_eq_none.mp holt] at his
    rw [h.events,List.map_append,List.find?_append,hski,List.map_cons,List.find?_cons_of_pos (by rw [his]; rfl)]
    rfl
  · intro new
    have hmor : ((before++oldest::after)++[new]).any (fun row => row.revoke.isNone)=true := by
      rw [List.any_append,hany,Bool.true_or]
    have hlef := List.eraseP_append_left (p := fun row : LogRow E => row.revoke.isNone) holt [new]
      (List.mem_append_right before (List.mem_cons_self (l := after)))
    rw [evictRow,if_pos hmor,hlef,hera]

theorem isolates_iff_fits (h : Represents view log rows) (hcap : rows.length ≤ nodeLifecycleLogMaxEvents)
    (hcal : call.Valid view) : Isolates view log call ↔ Fits view log call := by
  have hnex := (h.step hcal).events
  constructor
  · intro hiso hcro oldest hfind
    by_contra hoth
    have hany : rows.any (fun row => row.revoke.isNone)=true := by
      have hmem := List.mem_of_find?_eq_some hfind
      rw [h.events] at hmem
      obtain ⟨row,hrow,rfl⟩ := List.mem_map.mp hmem
      have his := List.find?_some hfind
      rw [h.isRevoke_eq hrow] at his
      exact List.any_eq_true.mpr ⟨row,hrow,by simpa using his⟩
    obtain ⟨before,row,after,rfl,hnone,hfir,hevi⟩ := oldest_split h hany
    rw [hfir] at hfind
    obtain rfl := Option.some.inj hfind
    have hrow : row∈before++row::after := List.mem_append_right _ List.mem_cons_self
    have hmem := hiso row.object (by rw [h.events]; exact List.mem_map_of_mem hrow)
      (by rw [h.isRevoke_eq hrow,hnone]; rfl) hoth
    rw [hnex,(stepRows_of_adds h hcap hcro.1).1 hcro,hevi,List.map_append,List.map_singleton,
      object_row] at hmem
    rcases List.mem_append.mp hmem with hold | hnew
    · exact h.object_notMem hnone hold
    · exact hoth (congrArg (fun e => (view e).emitterNode) (List.mem_singleton.mp hnew))
  · intro hfit evt hevt hnon hoth
    rw [h.events] at hevt
    obtain ⟨row,hrow,rfl⟩ := List.mem_map.mp hevt
    have hnone : row.revoke=none := by
      rw [h.isRevoke_eq hrow] at hnon
      exact Option.isNone_iff_eq_none.mp (Option.isSome_eq_false_iff.mp hnon)
    rw [hnex]
    apply List.mem_map_of_mem
    by_cases hadd : call.Adds view log
    swap
    · rw [stepRows_of_not_adds h hadd]
      exact hrow
    by_cases hcro : call.Crowds view log
    · rw [(stepRows_of_adds h hcap hadd).1 hcro]
      obtain ⟨before,oldest,after,rfl,-,hfir,hevi⟩ :=
        oldest_split h (List.any_eq_true.mpr ⟨row,hrow,by rw [hnone]; rfl⟩)
      have hown := hfit hcro oldest.object hfir
      rw [hevi]
      apply List.mem_append_left
      rcases List.mem_append.mp hrow with hb | ha
      · exact List.mem_append_left _ hb
      · rcases List.mem_cons.mp ha with rfl | ha
        · exact absurd hown hoth
        · exact List.mem_append_right _ ha
    · rw [(stepRows_of_adds h hcap hadd).2 hcro]
      refine List.mem_append_left _ (mem_evictOldestRows hrow ?_)
      cases call with
      | append sent => simpa [Call.counted,LogRow.ofEmitter,hnone,Call.evt] using hoth
      | appendRevoke sent target auth => simp [Call.counted,LogRow.ofTarget,LogRow.authFor,hnone]

end Step

/-- After every sequence of calls the indexes are those of the list and the list is within the cap; the next call takes
a revoke only by its target's quota or from a log of revokes, and takes no other emitter's event exactly when the log
has room for it or the oldest event that is not a revoke is the sender's. -/
theorem retention (calls : List (Call E)) (hcalls : ∀ call∈calls, call.Valid view) :
    Consistent view (run view calls) ∧ (run view calls).events.length ≤ nodeLifecycleLogMaxEvents ∧
    ∀ call : Call E, call.Valid view →
      KeepsRevokes view (run view calls) call ∧
      (Isolates view (run view calls) call ↔ Fits view (run view calls) call) := by
  have hrep := represents_run hcalls
  have hcap : (runRows view calls).length ≤ nodeLifecycleLogMaxEvents := length_runRows calls
  refine ⟨hrep.consistent,?_,fun call hcal => ⟨keepsRevokes hrep hcap hcal,isolates_iff_fits hrep hcap hcal⟩⟩
  rw [hrep.events,List.length_map]
  exact hcap

/-- The `n`th node leaves; a node's name is `n` letters. -/
def leaving (n : Nat) : SignedEvent Payload where
  protocolVersion := "1.0"
  eventType := "node_leave"
  eventId := "e"
  emitterNode := String.ofList (List.replicate n 'a')
  emitterPrincipal := "p"
  fortressId := "f"
  causalParents := []
  payload := .nodeLeave ⟨String.ofList (List.replicate n 'a'),.graceful,none⟩
  payloadHash := ""
  emittedAt := "2026-02-01T00:00:00.000Z"
  monotonicSeq := 1
  extensionEnvelope := []
  nodeSignature := ""
  principalSignature := none

theorem retention_of_two :
    let calls : List (Call Nat) := [.append 1,.append 2]
    Consistent leaving (run leaving calls) ∧ (run leaving calls).events=[1,2] ∧
      (Isolates leaving (run leaving calls) (.append 3) ↔ Fits leaving (run leaving calls) (.append 3)) := by
  intro calls
  have hval : ∀ call∈calls, call.Valid leaving := by
    intro call hcal
    rcases List.mem_cons.mp hcal with rfl | hcal
    · trivial
    · rw [List.mem_singleton.mp hcal]
      trivial
  have hall := retention calls hval
  exact ⟨hall.1,by decide +kernel,(hall.2.2 (.append 3) trivial).2⟩

variable {n : Nat}

theorem emitter_leaving {m : Nat} : (leaving m).emitterNode=(leaving n).emitterNode ↔ m=n := by
  constructor
  · intro h
    have hlis := congrArg String.toList h
    simpa [leaving] using congrArg List.length hlis
  · rintro rfl
    rfl

theorem nonRevokeKey_leaving {m : Nat} (h : nonRevokeKey leaving m=nonRevokeKey leaving n) : m=n := by
  apply emitter_leaving.mp
  have hlis := congrArg String.toList h
  simp only [nonRevokeKey,String.toList_append,List.append_assoc] at hlis
  exact String.toList_inj.mp (List.append_cancel_right hlis)

/-- The first `n` nodes have left. -/
def left (n : Nat) : List (LogRow Nat) := (List.range n).map fun m => ⟨m,none⟩

theorem key_not_mem_left (n : Nat) : nonRevokeKey leaving n∉(left n).filterMap (LogRow.keyOf leaving) := by
  intro hin
  obtain ⟨row,hrow,hkey⟩ := List.mem_filterMap.mp hin
  obtain ⟨m,hm,rfl⟩ := List.mem_map.mp hrow
  exact Nat.ne_of_lt (List.mem_range.mp hm) (nonRevokeKey_leaving (Option.some.inj hkey))

theorem counted_left (n : Nat) :
    ((left n).filter (LogRow.ofEmitter leaving (leaving n).emitterNode)).length < maxRetainedNonRevokeEventsPerEmitter := by
  have hnone : (left n).filter (LogRow.ofEmitter leaving (leaving n).emitterNode)=[] := by
    rw [List.filter_eq_nil_iff]
    intro row hrow
    obtain ⟨m,hm,rfl⟩ := List.mem_map.mp hrow
    simpa [LogRow.ofEmitter,emitter_leaving] using Nat.ne_of_lt (List.mem_range.mp hm)
  rw [hnone]
  decide

theorem length_left (n : Nat) : (left n).length=n := by rw [left,List.length_map,List.length_range]

/-- As long as the cap is not reached, every node that leaves is retained. -/
theorem runRows_leaving (hn : n ≤ nodeLifecycleLogMaxEvents) :
    runRows leaving ((List.range n).map Call.append)=left n := by
  induction n with
  | zero => rfl
  | succ n ih =>
    have hrow := ih (Nat.le_of_succ_le hn)
    have hroo : (left n++[(⟨n,none⟩ : LogRow Nat)]).length ≤ nodeLifecycleLogMaxEvents := by
      rw [List.length_append,length_left]
      exact hn
    have hnot : isRevoke leaving n=false := rfl
    rw [List.range_succ,List.map_append,runRows,List.foldl_append,← runRows,hrow,List.map_singleton,
      List.foldl_cons,List.foldl_nil]
    simp only [stepRows,hnot,Bool.false_eq_true,if_false,appendRow,if_neg (key_not_mem_left n)]
    rw [evictOldestRows_of_lt (counted_left n),enforceCapRows_eq (Nat.le_succ_of_le hroo),if_pos hroo,left,left,
      List.range_succ,List.map_append]
    rfl

/-- One more node leaves when the log is full, and the event of the first one is gone. -/
theorem not_isolates :
    ¬ ∀ (calls : List (Call Nat)) (call : Call Nat), (∀ other∈calls, other.Valid leaving) → call.Valid leaving →
      Isolates leaving (run leaving calls) call := by
  intro hall
  have hval : ∀ call∈(List.range nodeLifecycleLogMaxEvents).map Call.append, call.Valid leaving := by
    intro call hcal
    obtain ⟨n,-,rfl⟩ := List.mem_map.mp hcal
    trivial
  have hrep := represents_run hval
  rw [runRows_leaving (Nat.le_refl _)] at hrep
  have hiso := hall _ (.append nodeLifecycleLogMaxEvents) hval trivial
  generalize run leaving ((List.range nodeLifecycleLogMaxEvents).map Call.append)=log at hrep hiso
  have hnex : (Call.append nodeLifecycleLogMaxEvents).Valid leaving := trivial
  have hfit := (isolates_iff_fits hrep (Nat.le_of_eq (length_left _)) hnex).mp hiso
  have hkey : nonRevokeKey leaving nodeLifecycleLogMaxEvents∉log.nonRevokeKeys := by
    rw [hrep.keys,List.mem_toFinset]
    exact key_not_mem_left _
  have hhel : (Call.append nodeLifecycleLogMaxEvents).held leaving log < maxRetainedNonRevokeEventsPerEmitter := by
    rw [hrep.held_eq]
    exact counted_left _
  have hful : log.events.length=nodeLifecycleLogMaxEvents := by rw [hrep.events,List.length_map,length_left]
  have hfir : log.events.find? (fun e => !isRevoke leaving e)=some 0 := by
    have hcap : nodeLifecycleLogMaxEvents=9999+1 := rfl
    rw [hrep.events,left,hcap,List.range_succ_eq_map]
    rfl
  have hsam := emitter_leaving.mp (hfit ⟨⟨rfl,hkey⟩,hhel,hful⟩ 0 hfir)
  exact absurd hsam (by decide)

end IndexedLog

end CastleWall.Mesh
