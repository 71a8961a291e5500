import CastleWall.Smb.ServerWire
import CastleWall.Support.Correlation

/-! # Matching replies to requests

The two `ReplyMatcher`s: `smb/wire.rs` of the daemon and `smb/wire.ts` of the server. -/

namespace CastleWall.Smb

open Json Correlation

def fieldText (value : Value) (key : String) : Option String := (value.get key).bind Value.asStr

/-- `to_string` of a number. -/
def idText (n : Nat) : String := String.ofList (decimal n)

inductive ConnectionState where
  | open
  | closed
  deriving DecidableEq

structure ReplyMatcher where
  state : ConnectionState
  edge : String
  nextId : Option UInt64
  pending : List (String × String)

namespace ReplyMatcher

def new (edge : String) : Except String ReplyMatcher :=
  if (edges.lookup edge).isNone then .error "SMB edge"
  else .ok { state := .open, edge := edge, nextId := some 1, pending := [] }

def outstanding (m : ReplyMatcher) : Nat := m.pending.length

def close (m : ReplyMatcher) : ReplyMatcher := { m with state := .closed, pending := [] }

/-- `checked_add(1)`. -/
def checkedSucc (id : UInt64) : Option UInt64 :=
  if id.toNat+1 < 2 ^ 64 then some (id+1) else none

def admission (c : Crates) (m : ReplyMatcher) (request : Value) : Option (String × Route) := do
  let edge ← edges.lookup m.edge
  let route ← edge.requests.lookup ((fieldText request "kind").getD "")
  let id ← fieldText request "id"
  if m.state=.open ∧ Wire.validate c route.request request=true ∧
      m.nextId.map (fun next => idText next.toNat)=some id ∧ m.pending.length < edge.pendingMax
  then some (id,route) else none

def register (c : Crates) (m : ReplyMatcher) (request : Value) : Except String Unit × ReplyMatcher :=
  match m.admission c request with
  | none => (.error "SMB request refused",m.close)
  | some (id,route) =>
    (.ok (),{ m with pending := insert id route.reply m.pending, nextId := m.nextId.bind checkedSucc })

def receive (c : Crates) (m : ReplyMatcher) (reply : Value) : Except String Value × ReplyMatcher :=
  let id := (fieldText reply "id").getD ""
  if m.state≠.open ∨ ¬ (m.pending.lookup id).any fun schema =>
      Wire.validate c schema reply || Wire.validate c "error_envelope" reply
  then (.error "SMB reply refused",m.close)
  else (.ok reply,{ m with pending := remove id m.pending })

end ReplyMatcher

/-- `nextId` is a `bigint`. -/
structure ServerReplyMatcher where
  state : ConnectionState
  edge : String
  nextId : Nat
  pending : List (String × String)

namespace ServerReplyMatcher

def new (edge : String) : Except String ServerReplyMatcher :=
  if (edges.lookup edge).isNone then .error "unknown SMB edge"
  else .ok { state := .open, edge := edge, nextId := 1, pending := [] }

def outstanding (m : ServerReplyMatcher) : Nat := m.pending.length

def close (m : ServerReplyMatcher) : ServerReplyMatcher := { m with state := .closed, pending := [] }

/-- The route of a request that is not refused. -/
def admission (r : Runtime) (m : ServerReplyMatcher) (request : Value) : Option Route := do
  let connection ← edges.lookup m.edge
  let route ← (fieldText request "kind").bind fun kind => connection.requests.lookup kind
  if m.state≠.open ∨ ¬ ServerWire.validate r route.request request ∨
      fieldText request "id" ≠ some (idText m.nextId) ∨ connection.pendingMax ≤ m.pending.length
  then none else some route

def register (r : Runtime) (m : ServerReplyMatcher) (request : Value) :
    Except String Unit × ServerReplyMatcher :=
  match m.admission r request with
  | none => (.error "SMB request refused",m.close)
  | some route =>
    (.ok (),{ m with pending := insert (idText m.nextId) route.reply m.pending,
                      nextId := m.nextId+1 })

def receive (r : Runtime) (m : ServerReplyMatcher) (reply : Value) :
    Except String Value × ServerReplyMatcher :=
  let id := (fieldText reply "id").getD ""
  if m.state≠.open ∨ ¬ (m.pending.lookup id).any fun schema =>
      ServerWire.validate r schema reply || ServerWire.validate r "error_envelope" reply
  then (.error "SMB reply refused",m.close)
  else (.ok reply,{ m with pending := remove id m.pending })

end ServerReplyMatcher

inductive Call where
  | register (request : Value)
  | receive (reply : Value)

namespace Call

def value : Call → Value
  | register request => request
  | receive reply => reply

def accepted (edge : Edge) : Call → Event String String Value
  | register request =>
    .issue ((fieldText request "id").getD "")
      (((edge.requests.lookup ((fieldText request "kind").getD "")).map Route.reply).getD "")
  | receive reply => .settle ((fieldText reply "id").getD "") reply

end Call

structure Served (σ : Type) where
  log : List (Event String String Value)
  matcher : σ

section Served

variable {σ : Type} (step : σ → Call → Bool × σ) (edge : Edge)

def Served.next (served : Served σ) (call : Call) : Served σ :=
  let (accepted,matcher) := step served.matcher call
  ⟨served.log++[if accepted then call.accepted edge else .refuse],matcher⟩

def run (m : σ) (calls : List Call) : Served σ := calls.foldl (Served.next step edge) ⟨[],m⟩

end Served

def ReplyMatcher.call (c : Crates) (m : ReplyMatcher) : Call → Bool × ReplyMatcher
  | .register request => ((m.register c request).1.isOk,(m.register c request).2)
  | .receive reply => ((m.receive c reply).1.isOk,(m.receive c reply).2)

def ServerReplyMatcher.call (r : Runtime) (m : ServerReplyMatcher) : Call → Bool × ServerReplyMatcher
  | .register request => ((m.register r request).1.isOk,(m.register r request).2)
  | .receive reply => ((m.receive r reply).1.isOk,(m.receive r reply).2)

def nthId (n : Nat) : String := idText (n+1)

def Answers (valid : String → Value → Bool) (schema : String) (reply : Value) : Prop :=
  valid schema reply=true ∨ valid "error_envelope" reply=true

/-- The requests have the ids one, two, three and so on, each reply answers exactly one of them, no
more than the edge's capacity wait for a reply, and a refusal is final and leaves none. -/
structure Serves (valid : String → Value → Bool) (edge : Edge) (log : List (Event String String Value))
    (outstanding : Nat) : Prop where
  orderly : Orderly nthId (Answers valid) log
  capacity : outstanding ≤ edge.pendingMax
  closed : .refuse∈log → outstanding=0

theorem idText_injective : Function.Injective idText := by
  intro a b h
  have hdig : decimal a=decimal b := String.ofList_inj.mp h
  rw [← Nat.ofDigitChars_ten_toDigits (n := a),← Nat.ofDigitChars_ten_toDigits (n := b)]
  exact congrArg (Nat.ofDigitChars 10 · 0) hdig

theorem nthId_injective : Function.Injective nthId := by
  intro a b h
  exact Nat.succ.inj (idText_injective h)

theorem run_append_singleton {σ : Type} (step : σ → Call → Bool × σ) (edge : Edge) (m : σ)
    (calls : List Call) (call : Call) :
    run step edge m (calls++[call])=(run step edge m calls).next step edge call := by
  rw [run,List.foldl_append]
  rfl

theorem serves_of_desk {σ : Type} {step : σ → Call → Bool × σ} {edge : Edge}
    {valid : String → Value → Bool} (desk : σ → Option (Desk String String)) (good : σ → Prop)
    (hste : ∀ m call, good m → good (step m call).2 ∧
      Step nthId (Answers valid) edge.pendingMax (desk m)
        (if (step m call).1 then call.accepted edge else .refuse) (desk (step m call).2))
    {outstanding : σ → Nat}
    (hout : ∀ m, good m → outstanding m=((desk m).map fun d => d.pending.length).getD 0)
    {m : σ} (hgoo : good m) (hsta : desk m=some ⟨0,[]⟩) (calls : List Call) :
    Serves valid edge (run step edge m calls).log (outstanding (run step edge m calls).matcher) := by
  have hrun : good (run step edge m calls).matcher ∧ Run nthId (Answers valid) edge.pendingMax
      (run step edge m calls).log (desk (run step edge m calls).matcher) := by
    induction calls using List.reverseRecOn with
    | nil =>
      refine ⟨hgoo,?_⟩
      change Run _ _ _ [] (desk m)
      rw [hsta]
      exact .start
    | append_singleton calls call ih =>
      have hlas := hste (run step edge m calls).matcher call ih.1
      rw [run_append_singleton]
      exact ⟨hlas.1,ih.2.call hlas.2⟩
  have hhol := hrun.2.holds nthId_injective
  rw [hout _ hrun.1]
  cases hdes : desk (run step edge m calls).matcher with
  | none =>
    rw [hdes] at hhol
    exact ⟨hhol.1,Nat.zero_le _,fun _ => rfl⟩
  | some d =>
    rw [hdes] at hhol
    exact ⟨hhol.1,hhol.2.capacity,fun h => absurd h hhol.2.unrefused⟩

theorem issue_step (valid : String → Value → Bool) {capacity count : Nat}
    {pending : List (String × String)} {id : String} (hid : nthId count=id)
    (h : pending.length < capacity) (expects : String) :
    Step nthId (Answers valid) capacity (some ⟨count,pending⟩) (.issue id expects)
      (some ⟨count+1,insert id expects pending⟩) := by
  subst hid
  exact .issue expects h

theorem settle_step {valid : String → Value → Bool} {capacity count : Nat}
    {pending : List (String × String)} {id : String} {reply : Value}
    (h : ((pending.lookup id).any fun schema => valid schema reply || valid "error_envelope" reply) =
      true) :
    Step nthId (Answers valid) capacity (some ⟨count,pending⟩) (.settle id reply)
      (some ⟨count,remove id pending⟩) := by
  obtain ⟨expects,hloo,hval⟩ := (Option.any_eq_true _ _).mp h
  rw [Bool.or_eq_true] at hval
  exact .settle (mem_of_lookup hloo) hval

namespace ReplyMatcher

def desk (m : ReplyMatcher) : Option (Desk String String) :=
  match m.state with
  | .open => some ⟨(m.nextId.map UInt64.toNat).getD (2 ^ 64) - 1,m.pending⟩
  | .closed => none

structure Good (edge : Edge) (m : ReplyMatcher) : Prop where
  edge : edges.lookup m.edge=some edge
  nextId : ∀ next∈m.nextId, 0 < next.toNat
  closed : m.state=.closed → m.pending=[]

theorem admission_eq_some {c : Crates} {m : ReplyMatcher} {request : Value} {edge : Edge} {id : String}
    {route : Route} (hedg : edges.lookup m.edge=some edge) :
    m.admission c request=some (id,route) ↔
      edge.requests.lookup ((fieldText request "kind").getD "")=some route ∧
      fieldText request "id" = some id ∧ m.state=.open ∧
      Wire.validate c route.request request=true ∧
      m.nextId.map (fun next => idText next.toNat)=some id ∧ m.pending.length < edge.pendingMax := by
  simp only [admission,hedg,bind,Option.bind_some,Option.bind_eq_some_iff,
    Option.ite_none_right_eq_some,Option.some.injEq,Prod.mk.injEq]
  constructor
  · rintro ⟨route,hrou,id,hid,hadm,rfl,rfl⟩
    exact ⟨hrou,hid,hadm⟩
  · rintro ⟨hrou,hid,hadm⟩
    exact ⟨route,hrou,id,hid,hadm,rfl,rfl⟩

variable {c : Crates} {edge : Edge} {m : ReplyMatcher}

private theorem Good.close (h : Good edge m) : Good edge m.close := ⟨h.edge,h.nextId,fun _ => rfl⟩

theorem checkedSucc_count (next : UInt64) :
    ((checkedSucc next).map UInt64.toNat).getD (2 ^ 64)=next.toNat+1 := by
  have hlt := next.toNat_lt
  rw [checkedSucc]
  split_ifs with h
  · rw [Option.map_some,Option.getD_some,UInt64.toNat_add]
    exact Nat.mod_eq_of_lt h
  · rw [Option.map_none,Option.getD_none]
    omega

private theorem checkedSucc_pos {next n : UInt64} (h : n∈checkedSucc next) : 0 < n.toNat := by
  rw [checkedSucc,Option.mem_def,Option.ite_none_right_eq_some,Option.some.injEq] at h
  obtain ⟨hlt,rfl⟩ := h
  rw [UInt64.toNat_add,UInt64.toNat_one,Nat.mod_eq_of_lt hlt]
  exact Nat.succ_pos _

private theorem register_step (hgoo : Good edge m) (request : Value) :
    Good edge (m.call c (.register request)).2 ∧
      Step nthId (Answers (Wire.validate c)) edge.pendingMax m.desk
        (if (m.call c (.register request)).1 then (Call.register request).accepted edge else .refuse)
        (m.call c (.register request)).2.desk := by
  rw [call,register]
  cases hadm : m.admission c request with
  | none => exact ⟨hgoo.close,.refuse⟩
  | some admitted =>
    obtain ⟨id,route⟩ := admitted
    obtain ⟨hrou,hid,hsta,-,hnex,hcap⟩ := (admission_eq_some hgoo.edge).mp hadm
    obtain ⟨next,hm,hidT⟩ := Option.map_eq_some_iff.mp hnex
    have hpos := hgoo.nextId next hm
    have hnam : nthId (next.toNat - 1)=id := by
      rw [nthId,Nat.sub_add_cancel hpos,hidT]
    have hclo : m.state=.closed → False := by simp [hsta]
    refine ⟨⟨hgoo.edge,?_,fun h => (hclo h).elim⟩,?_⟩
    · intro n hn
      rw [hm,Option.bind_some] at hn
      exact checkedSucc_pos hn
    · have hiss := issue_step (Wire.validate c) hnam hcap route.reply
      rw [Nat.sub_add_cancel hpos] at hiss
      simp only [Except.isOk,Except.toBool,if_true,Call.accepted,hid,hrou,Option.map_some,
        Option.getD_some,desk,hsta,hm,Option.bind_some,checkedSucc_count,Nat.add_sub_cancel]
      exact hiss

private theorem receive_step (hgoo : Good edge m) (reply : Value) :
    Good edge (m.call c (.receive reply)).2 ∧
      Step nthId (Answers (Wire.validate c)) edge.pendingMax m.desk
        (if (m.call c (.receive reply)).1 then (Call.receive reply).accepted edge else .refuse)
        (m.call c (.receive reply)).2.desk := by
  simp only [call,receive]
  by_cases href : m.state≠.open ∨ ¬ ((m.pending.lookup ((fieldText reply "id").getD "")).any
      fun schema => Wire.validate c schema reply || Wire.validate c "error_envelope" reply)=true
  · simp only [if_pos href]
    exact ⟨hgoo.close,.refuse⟩
  · simp only [if_neg href]
    rw [not_or,not_not,not_not] at href
    refine ⟨⟨hgoo.edge,hgoo.nextId,fun h => ?_⟩,?_⟩
    · exact absurd (href.1.symm.trans h) (by decide)
    · simp only [Except.isOk,Except.toBool,if_true,Call.accepted,desk,href.1]
      exact settle_step href.2

theorem call_step (call : Call) (hgoo : Good edge m) :
    Good edge (m.call c call).2 ∧ Step nthId (Answers (Wire.validate c)) edge.pendingMax m.desk
      (if (m.call c call).1 then call.accepted edge else .refuse) (m.call c call).2.desk := by
  cases call with
  | register request => exact register_step hgoo request
  | receive reply => exact receive_step hgoo reply

theorem outstanding_desk (hgoo : Good edge m) :
    m.outstanding=(m.desk.map fun d => d.pending.length).getD 0 := by
  rw [outstanding,desk]
  cases hsta : m.state with
  | «open» => rfl
  | closed => rw [hgoo.closed hsta]; rfl

theorem call_edge (c : Crates) (m : ReplyMatcher) (call : Call) : (m.call c call).2.edge=m.edge := by
  cases call with
  | register request =>
    rw [ReplyMatcher.call,register]
    cases m.admission c request with
    | none => rfl
    | some admitted => rfl
  | receive reply =>
    simp only [ReplyMatcher.call,receive]
    split_ifs with href
    · rfl
    · rfl

end ReplyMatcher

namespace ServerReplyMatcher

def desk (m : ServerReplyMatcher) : Option (Desk String String) :=
  match m.state with
  | .open => some ⟨m.nextId - 1,m.pending⟩
  | .closed => none

structure Good (edge : Edge) (m : ServerReplyMatcher) : Prop where
  edge : edges.lookup m.edge=some edge
  nextId : 0 < m.nextId
  closed : m.state=.closed → m.pending=[]

theorem admission_eq_some {r : Runtime} {m : ServerReplyMatcher} {request : Value} {edge : Edge}
    {route : Route} (hedg : edges.lookup m.edge=some edge) :
    m.admission r request=some route ↔
      (∃ kind, fieldText request "kind" = some kind ∧ edge.requests.lookup kind=some route) ∧
      m.state=.open ∧ ServerWire.validate r route.request request=true ∧
      fieldText request "id" = some (idText m.nextId) ∧ m.pending.length < edge.pendingMax := by
  simp only [admission,hedg,bind,Option.bind_some,Option.bind_eq_some_iff,
    Option.ite_none_left_eq_some,Option.some.injEq,not_or,not_not,Nat.not_le]
  constructor
  · rintro ⟨route,hrou,hadm,rfl⟩
    exact ⟨hrou,hadm⟩
  · rintro ⟨hrou,hadm⟩
    exact ⟨route,hrou,hadm,rfl⟩

variable {r : Runtime} {edge : Edge} {m : ServerReplyMatcher}

private theorem Good.close (h : Good edge m) : Good edge m.close := ⟨h.edge,h.nextId,fun _ => rfl⟩

private theorem register_step (hgoo : Good edge m) (request : Value) :
    Good edge (m.call r (.register request)).2 ∧
      Step nthId (Answers (ServerWire.validate r)) edge.pendingMax m.desk
        (if (m.call r (.register request)).1 then (Call.register request).accepted edge else .refuse)
        (m.call r (.register request)).2.desk := by
  rw [call,register]
  cases hadm : m.admission r request with
  | none => exact ⟨hgoo.close,.refuse⟩
  | some route =>
    obtain ⟨⟨kind,hkin,hrou⟩,hsta,-,hid,hcap⟩ :=
      (admission_eq_some hgoo.edge).mp hadm
    have hnam : nthId (m.nextId - 1)=idText m.nextId := by
      rw [nthId,Nat.sub_add_cancel hgoo.nextId]
    refine ⟨⟨hgoo.edge,Nat.succ_pos _,fun h => ?_⟩,?_⟩
    · exact absurd (hsta.symm.trans h) (by decide)
    · have hiss := issue_step (ServerWire.validate r) hnam hcap route.reply
      rw [Nat.sub_add_cancel hgoo.nextId] at hiss
      simp only [Except.isOk,Except.toBool,if_true,Call.accepted,hid,hkin,hrou,
        Option.map_some,Option.getD_some,desk,hsta,Nat.add_sub_cancel]
      exact hiss

private theorem receive_step (hgoo : Good edge m) (reply : Value) :
    Good edge (m.call r (.receive reply)).2 ∧
      Step nthId (Answers (ServerWire.validate r)) edge.pendingMax m.desk
        (if (m.call r (.receive reply)).1 then (Call.receive reply).accepted edge else .refuse)
        (m.call r (.receive reply)).2.desk := by
  simp only [call,receive]
  by_cases href : m.state≠.open ∨ ¬ ((m.pending.lookup ((fieldText reply "id").getD "")).any
      fun schema =>
        ServerWire.validate r schema reply || ServerWire.validate r "error_envelope" reply)=true
  · simp only [if_pos href]
    exact ⟨hgoo.close,.refuse⟩
  · simp only [if_neg href]
    rw [not_or,not_not,not_not] at href
    refine ⟨⟨hgoo.edge,hgoo.nextId,fun h => ?_⟩,?_⟩
    · exact absurd (href.1.symm.trans h) (by decide)
    · simp only [Except.isOk,Except.toBool,if_true,Call.accepted,desk,href.1]
      exact settle_step href.2

theorem call_step (call : Call) (hgoo : Good edge m) :
    Good edge (m.call r call).2 ∧ Step nthId (Answers (ServerWire.validate r)) edge.pendingMax m.desk
      (if (m.call r call).1 then call.accepted edge else .refuse) (m.call r call).2.desk := by
  cases call with
  | register request => exact register_step hgoo request
  | receive reply => exact receive_step hgoo reply

theorem outstanding_desk (hgoo : Good edge m) :
    m.outstanding=(m.desk.map fun d => d.pending.length).getD 0 := by
  rw [outstanding,desk]
  cases hsta : m.state with
  | «open» => rfl
  | closed => rw [hgoo.closed hsta]; rfl

end ServerReplyMatcher

/-! ## Parity

The server's counter has no last value, but no schema takes an id the daemon could not count. -/

/-- Whether the schema is of an object whose `id` is a decimal. -/
def Schema.numbersId : Schema → Bool
  | .object fields =>
    match fields.lookup "id" with
    | some (.decimal _ _) => true
    | _ => false
  | _ => false

private theorem edges_routes :
    ∀ e∈edges, e.2.requests.lookup "" = none ∧
      ∀ route∈e.2.requests, (Schema.registry.lookup route.2.request).any Schema.numbersId=true := by
  decide

theorem Wire.matchFields_eq_true {c : Crates} {fields : List (String × Schema)}
    {values : List (String × Value)} {depth : Nat} :
    matchFields c fields values depth=true ↔
      ∀ f∈fields, (values.lookup f.1).any (fun v => matchesSpec c f.2 v depth)=true := by
  induction fields with
  | nil => simp [matchFields]
  | cons field fields ih => rw [matchFields,Bool.and_eq_true,ih,List.forall_mem_cons]

private theorem not_decimalMatches_last (min max : UInt64) :
    Wire.decimalMatches min max (idText (2 ^ 64))=false := by
  have hpar : Text.parseUnsigned (2 ^ 64) (idText (2 ^ 64))=none := by
    rw [idText,decimal,Text.parseUnsigned_digitChars Nat.toDigits_ne_nil
      fun _ hc => Nat.isDigit_of_mem_toDigits (by decide) (by decide) hc,
      Nat.ofDigitChars_ten_toDigits,if_neg (lt_irrefl _)]
  rw [Wire.decimalMatches,hpar,Bool.and_false]

/-- A request that passes its schema has an id below `2 ^ 64`. -/
private theorem fieldText_ne_last {c : Crates} {schema : String} {request : Value}
    (hsch : (Schema.registry.lookup schema).any Schema.numbersId=true)
    (h : Wire.validate c schema request=true) :
    fieldText request "id" ≠ some (idText (2 ^ 64)) := by
  obtain ⟨spec,hspe,hnum⟩ := (Option.any_eq_true _ _).mp hsch
  rw [Wire.validate,Bool.and_eq_true,hspe,Option.any_some] at h
  unfold Schema.numbersId at hnum
  split at hnum
  · rename_i fields
    split at hnum
    · rename_i min max hid
      have hmat := h.2
      rw [Wire.matchesSpec,if_neg (Nat.not_lt_zero _)] at hmat
      obtain ⟨values,hval,hmat⟩ := (Option.any_eq_true _ _).mp hmat
      have hfie := Wire.matchFields_eq_true.mp ((Bool.and_eq_true_iff.mp hmat).2) _
        (mem_of_lookup hid)
      obtain ⟨v,hv,hv'⟩ := (Option.any_eq_true _ _).mp hfie
      rw [Wire.matchesSpec,if_neg (by decide)] at hv'
      obtain ⟨text,htex,hdec⟩ := (Option.any_eq_true _ _).mp hv'
      rw [fieldText,Value.get,hval,Option.bind_some,hv,Option.bind_some,htex]
      intro hlas
      rw [Option.some.inj hlas,not_decimalMatches_last] at hdec
      exact Bool.false_ne_true hdec
    · exact absurd hnum Bool.false_ne_true
  · exact absurd hnum Bool.false_ne_true

structure Mirrors (d : ReplyMatcher) (s : ServerReplyMatcher) : Prop where
  state : s.state=d.state
  edge : s.edge=d.edge
  nextId : s.nextId=(d.nextId.map UInt64.toNat).getD (2 ^ 64)
  pending : s.pending=d.pending

section Parity

variable {c : Crates} {r : Runtime} (hc : c.Lawful) (hr : r.Lawful) {edge : Edge} {d : ReplyMatcher}
  {s : ServerReplyMatcher}

include hc hr

private theorem admission_eq (hedg : edges.lookup d.edge=some edge) (h : Mirrors d s)
    {request : Value} (hdis : request.distinct=true) :
    s.admission r request=(d.admission c request).map Prod.snd := by
  obtain ⟨hemp,hrou⟩ := edges_routes _ (mem_of_lookup hedg)
  have hser : edges.lookup s.edge=some edge := h.edge ▸ hedg
  apply Option.ext
  intro route
  rw [ServerReplyMatcher.admission_eq_some hser,Option.map_eq_some_iff,
    ServerWire.validate_eq_daemon hc hr _ hdis,h.state,h.pending]
  constructor
  · rintro ⟨⟨kind,hkin,hroe⟩,hsta,hval,hid,hcap⟩
    have hlas := fieldText_ne_last (hrou _ (mem_of_lookup hroe)) hval
    refine ⟨(idText s.nextId,route),(ReplyMatcher.admission_eq_some hedg).mpr ?_,rfl⟩
    cases hnex : d.nextId with
    | none =>
      rw [hid,h.nextId,hnex] at hlas
      exact absurd rfl hlas
    | some next =>
      rw [h.nextId,hnex] at hid ⊢
      refine ⟨?_,hid,hsta,hval,rfl,hcap⟩
      rw [hkin,Option.getD_some]
      exact hroe
  · rintro ⟨⟨id,route'⟩,hadm,rfl⟩
    obtain ⟨hroe,hid,hsta,hval,hnex,hcap⟩ :=
      (ReplyMatcher.admission_eq_some hedg).mp hadm
    obtain ⟨next,hm,hidT⟩ := Option.map_eq_some_iff.mp hnex
    refine ⟨?_,hsta,hval,?_,hcap⟩
    · cases hkin : fieldText request "kind" with
      | none =>
        rw [hkin,Option.getD_none,hemp] at hroe
        exact absurd hroe (by simp)
      | some kind =>
        rw [hkin,Option.getD_some] at hroe
        exact ⟨kind,rfl,hroe⟩
    · rw [hid,h.nextId,hm,← hidT]
      rfl

private theorem register_parity (hedg : edges.lookup d.edge=some edge) (h : Mirrors d s)
    (request : Value) (hdis : request.distinct=true) :
    (s.call r (.register request)).1=(d.call c (.register request)).1 ∧
      Mirrors (d.call c (.register request)).2 (s.call r (.register request)).2 := by
  rw [ServerReplyMatcher.call,ReplyMatcher.call,ServerReplyMatcher.register,ReplyMatcher.register,
    admission_eq hc hr hedg h hdis]
  cases hadm : d.admission c request with
  | none => exact ⟨rfl,rfl,h.edge,h.nextId,rfl⟩
  | some admitted =>
    obtain ⟨id,route⟩ := admitted
    obtain ⟨-,-,-,-,hnex,-⟩ := (ReplyMatcher.admission_eq_some hedg).mp hadm
    obtain ⟨next,hm,hidT⟩ := Option.map_eq_some_iff.mp hnex
    have hser : s.nextId=next.toNat := by rw [h.nextId,hm,Option.map_some,Option.getD_some]
    refine ⟨rfl,h.state,h.edge,?_,?_⟩
    · simp only [Option.map_some,hm,Option.bind_some,ReplyMatcher.checkedSucc_count,hser]
    · simp only [Option.map_some,hser,hidT,h.pending]

private theorem receive_parity (h : Mirrors d s) (reply : Value) (hdis : reply.distinct=true) :
    (s.call r (.receive reply)).1=(d.call c (.receive reply)).1 ∧
      Mirrors (d.call c (.receive reply)).2 (s.call r (.receive reply)).2 := by
  simp only [ServerReplyMatcher.call,ReplyMatcher.call,ServerReplyMatcher.receive,
    ReplyMatcher.receive,ServerWire.validate_eq_daemon hc hr _ hdis,h.state,h.pending]
  split_ifs with href
  · exact ⟨rfl,rfl,h.edge,h.nextId,rfl⟩
  · exact ⟨rfl,rfl,h.edge,h.nextId,rfl⟩

private theorem call_parity (hedg : edges.lookup d.edge=some edge) (h : Mirrors d s) (call : Call)
    (hdis : call.value.distinct=true) :
    (s.call r call).1=(d.call c call).1 ∧ Mirrors (d.call c call).2 (s.call r call).2 := by
  cases call with
  | register request => exact register_parity hc hr hedg h request hdis
  | receive reply => exact receive_parity hc hr h reply hdis

theorem run_parity (hedg : edges.lookup d.edge=some edge) (h : Mirrors d s) (calls : List Call)
    (hdis : ∀ call∈calls, call.value.distinct=true) :
    (run (ServerReplyMatcher.call r) edge s calls).log=(run (ReplyMatcher.call c) edge d calls).log ∧
      Mirrors (run (ReplyMatcher.call c) edge d calls).matcher
        (run (ServerReplyMatcher.call r) edge s calls).matcher ∧
      edges.lookup (run (ReplyMatcher.call c) edge d calls).matcher.edge=some edge := by
  induction calls using List.reverseRecOn with
  | nil => exact ⟨rfl,h,hedg⟩
  | append_singleton calls call ih =>
    obtain ⟨hlog,hmir,hlas⟩ := ih fun call hcal => hdis call (List.mem_append_left _ hcal)
    obtain ⟨hacc,hnex⟩ := call_parity hc hr hlas hmir call
      (hdis call (List.mem_append_right _ List.mem_cons_self))
    simp only [run_append_singleton,Served.next]
    refine ⟨?_,hnex,?_⟩
    · rw [hlog,hacc]
    · rw [ReplyMatcher.call_edge]
      exact hlas

end Parity

/-- Every run of either matcher on a declared edge serves it, and on the same calls both do the
same. -/
theorem replyMatcher_runs (c : Crates) (r : Runtime) (name : String) (edge : Edge)
    (hedge : edges.lookup name=some edge) :
    ∃ d s, ReplyMatcher.new name=.ok d ∧ ServerReplyMatcher.new name=.ok s ∧
      ∀ calls,
        Serves (Wire.validate c) edge (run (ReplyMatcher.call c) edge d calls).log
          (run (ReplyMatcher.call c) edge d calls).matcher.outstanding ∧
        Serves (ServerWire.validate r) edge (run (ServerReplyMatcher.call r) edge s calls).log
          (run (ServerReplyMatcher.call r) edge s calls).matcher.outstanding ∧
        (c.Lawful → r.Lawful → (∀ call∈calls, call.value.distinct=true) →
          (run (ServerReplyMatcher.call r) edge s calls).log =
            (run (ReplyMatcher.call c) edge d calls).log) := by
  have hsom : ¬ (edges.lookup name).isNone=true := by simp [hedge]
  refine ⟨_,_,if_neg hsom,if_neg hsom,fun calls => ⟨?_,?_,fun hc hr hdis => ?_⟩⟩
  · apply serves_of_desk ReplyMatcher.desk (ReplyMatcher.Good edge)
      (fun m call => ReplyMatcher.call_step call) (fun m => ReplyMatcher.outstanding_desk)
    · exact ⟨hedge,by simp,nofun⟩
    · rfl
  · apply serves_of_desk ServerReplyMatcher.desk (ServerReplyMatcher.Good edge)
      (fun m call => ServerReplyMatcher.call_step call) (fun m => ServerReplyMatcher.outstanding_desk)
    · exact ⟨hedge,Nat.one_pos,nofun⟩
    · rfl
  · exact (run_parity hc hr hedge ⟨rfl,rfl,rfl,rfl⟩ calls hdis).1

/-- A status request is answered with an error; a second answer closes the connection. -/
theorem replyMatcher_runs_filter :
    ∃ edge d s request answer, edges.lookup "filter" = some edge ∧ ReplyMatcher.new "filter" = .ok d ∧
      ServerReplyMatcher.new "filter" = .ok s ∧
      (run (ReplyMatcher.call .reference) edge d [.register request,.receive answer,.receive answer]).log =
        [.issue "1" "filter.status.reply",.settle "1" answer,.refuse] ∧
      (run (ServerReplyMatcher.call .reference) edge s
        [.register request,.receive answer,.receive answer]).log =
        [.issue "1" "filter.status.reply",.settle "1" answer,.refuse] := by
  let request : Value := .object [("kind",.string "status"),("id",.string "1")]
  let answer : Value := .object [("id",.string "1"),("ok",.bool false),("error",.string "refused")]
  have hreq : Wire.validate .reference "filter.status.request" request=true := by
    rw [Wire.validate_eq Crates.reference_lawful.fromStr "filter.status.request" (by decide)]
    decide
  have hans : Wire.validate .reference "error_envelope" answer=true := by
    rw [Wire.validate_eq Crates.reference_lawful.fromStr "error_envelope" (by decide)]
    decide
  let edge : Edge := ⟨1,routes "filter" ["status"]⟩
  let first : ReplyMatcher := ⟨.open,"filter",some 1,[]⟩
  let second : ReplyMatcher := ⟨.open,"filter",some 2,[("1","filter.status.reply")]⟩
  let third : ReplyMatcher := ⟨.open,"filter",some 2,[]⟩
  have hedg : edges.lookup first.edge=some edge := rfl
  have hadm : first.admission .reference request =
      some ("1",⟨"filter.status.request","filter.status.reply"⟩) :=
    (ReplyMatcher.admission_eq_some hedg).mpr
      ⟨rfl,rfl,rfl,hreq,rfl,Nat.one_pos⟩
  have hreg : first.call .reference (.register request)=(true,second) := by
    rw [ReplyMatcher.call,ReplyMatcher.register,hadm]
    rfl
  have hrec : second.call .reference (.receive answer)=(true,third) := by
    have hloo : second.pending.lookup ((fieldText answer "id").getD "") =
        some "filter.status.reply" := rfl
    simp only [ReplyMatcher.call,ReplyMatcher.receive,hloo,Option.any_some,hans,Bool.or_true]
    rfl
  have href : third.call .reference (.receive answer)=(false,third.close) := rfl
  obtain ⟨d,s,hd,hs,hrun⟩ := replyMatcher_runs .reference .reference "filter" edge rfl
  have hfir : d=first := (Except.ok.inj hd).symm
  have hlog : (run (ReplyMatcher.call .reference) edge d
      [.register request,.receive answer,.receive answer]).log =
      [.issue "1" "filter.status.reply",.settle "1" answer,.refuse] := by
    simp only [hfir,run,List.foldl,Served.next,hreg,hrec,href]
    rfl
  have hpar := (hrun [.register request,.receive answer,.receive answer]).2.2
    Crates.reference_lawful Runtime.reference_lawful (by decide)
  exact ⟨edge,d,s,request,answer,rfl,hd,hs,hlog,hpar.trans hlog⟩

end CastleWall.Smb
