import CastleWall.Support.JsonText
import CastleWall.Policy.Subject

/-! # Audit events of verdicts

The canonical bodies the daemon logs for a verdict and for its later correction (`policy.rs`). -/

namespace CastleWall.Policy

open Text

inductive CanonicalJsonError where
  | nonFiniteNumber
  | unsupportedKind (kind : String)

def auditLayer : String := "l1"

def operationEgressApproved : String := "egress_approved"

def operationEgressPending : String := "egress_pending"

def operationEgressBlocked : String := "egress_blocked"

def operationForVerdict : Verdict → String
  | .allow _ => operationEgressApproved
  | .promptRequired _ => operationEgressPending
  | .deny _ => operationEgressBlocked

def decisionProvenance : Verdict → String
  | .allow _ | .promptRequired _ => "static_rule"
  | .deny .defaultDeny => "default_deny"
  | .deny (.explicitRule _) => "static_rule"
  | .deny .auditWalAppendFailed => "audit_wal_append_failed"

def resultForVerdict : Verdict → String
  | .allow _ => "success"
  | .promptRequired _ => "success"
  | .deny _ => "failure"

def matchedRuleId : Verdict → Option String
  | .allow ruleId => some ruleId
  | .promptRequired ruleId => some ruleId
  | .deny (.explicitRule ruleId) => some ruleId
  | .deny .defaultDeny => none
  | .deny .auditWalAppendFailed => none

def auditText (value : String) : Except CanonicalJsonError Json :=
  if value.toList.contains (Char.ofNat 0) then .error (.unsupportedKind "audit text contains NUL")
  else .ok (.str value)

/-- An optional field is written only when it is there. -/
def optionalText (key : String) (value : Option String) :
    Except CanonicalJsonError (List (String × Json)) :=
  match value with
  | none => .ok []
  | some text => do
    let text ← auditText text
    return [(key,text)]

def verdictDetails (verdict : Verdict) (request : EvaluationRequest) :
    Except CanonicalJsonError (List (String × Json)) := do
  let agentId ← auditText request.agentId
  let agentTemplate ← auditText request.agentTemplate
  let destHost ← optionalText "dest_host" request.destHost
  let destIp ← optionalText "dest_ip" request.destIp
  let destProtocol ← auditText request.destProtocol
  let ruleIdMatched ← optionalText "rule_id_matched" (matchedRuleId verdict)
  return [("agent_id",agentId),("agent_template",agentTemplate)]++destHost++destIp ++
    [("dest_port",.num request.destPort.toNat),("dest_protocol",destProtocol),
      ("opaque",.bool request.opaqueDest),("decision_provenance",.str (decisionProvenance verdict))] ++
    ruleIdMatched

def eventFields (timestamp operation result : String) (subject : ProtectionSubject)
    (details : List (String × Json)) : List (String × Json) :=
  [("timestamp",.str timestamp),("layer",.str auditLayer),("operation",.str operation),
    ("identity_id",.str subject.asStr),("fortress_id",.str subject.fortressId),
    ("result",.str result),("details",.obj (Json.ofFields details))]

def buildAuditEventCanonicalJson (verdict : Verdict) (request : EvaluationRequest)
    (subject : ProtectionSubject) (timestamp : String) : Except CanonicalJsonError String := do
  let details ← verdictDetails verdict request
  return (Json.obj (Json.ofFields (eventFields timestamp (operationForVerdict verdict)
    (resultForVerdict verdict) subject details))).canonicalText

def textField (value : Option String) : Option Json := value.map .str

structure DetailsRecord (verdict : Verdict) (request : EvaluationRequest)
    (details : List (String × Json)) : Prop where
  agentId : details.lookup "agent_id" = some (.str request.agentId)
  agentTemplate : details.lookup "agent_template" = some (.str request.agentTemplate)
  destHost : details.lookup "dest_host" = textField request.destHost
  destIp : details.lookup "dest_ip" = textField request.destIp
  destPort : details.lookup "dest_port" = some (.num request.destPort.toNat)
  destProtocol : details.lookup "dest_protocol" = some (.str request.destProtocol)
  opaqueDest : details.lookup "opaque" = some (.bool request.opaqueDest)
  provenance : details.lookup "decision_provenance" = some (.str (decisionProvenance verdict))
  ruleId : details.lookup "rule_id_matched" = textField (matchedRuleId verdict)

structure EntryRecord (verdict : Verdict) (request : EvaluationRequest) (subject : ProtectionSubject)
    (entry : List (String × Json)) : Prop where
  operation : entry.lookup "operation" = some (.str (operationForVerdict verdict))
  result : entry.lookup "result" = some (.str (resultForVerdict verdict))
  identityId : entry.lookup "identity_id" = some (.str subject.asStr)
  fortressId : entry.lookup "fortress_id" = some (.str subject.fortressId)
  details : ∃ details, entry.lookup "details" = some (.obj details) ∧
    DetailsRecord verdict request details

private theorem auditText_ok {value : String} {json : Json} (h : auditText value=.ok json) :
    json=.str value := by
  unfold auditText at h
  split_ifs at h
  exact (Except.ok.inj h).symm

private theorem optionalText_ok {key : String} {value : Option String} {fields : List (String × Json)}
    (h : optionalText key value=.ok fields) :
    fields=(value.map fun text => (key,Json.str text)).toList := by
  cases value with
  | none => exact (Except.ok.inj h).symm
  | some text =>
    obtain ⟨json,hjso,h⟩ := Outcome.bind_ok h
    rw [auditText_ok hjso] at h
    exact (Except.ok.inj h).symm

private def plainDetails (verdict : Verdict) (request : EvaluationRequest) : List (String × Json) :=
  [("agent_id",.str request.agentId),("agent_template",.str request.agentTemplate)] ++
    (request.destHost.map fun text => ("dest_host",Json.str text)).toList ++
    (request.destIp.map fun text => ("dest_ip",Json.str text)).toList ++
    [("dest_port",.num request.destPort.toNat),("dest_protocol",.str request.destProtocol),
      ("opaque",.bool request.opaqueDest),("decision_provenance",.str (decisionProvenance verdict))] ++
    ((matchedRuleId verdict).map fun text => ("rule_id_matched",Json.str text)).toList

variable {verdict : Verdict} {request : EvaluationRequest} {details : List (String × Json)}

private theorem verdictDetails_ok (h : verdictDetails verdict request=.ok details) :
    details=plainDetails verdict request := by
  obtain ⟨agentId,hage,h⟩ := Outcome.bind_ok h
  obtain ⟨agentTemplate,htem,h⟩ := Outcome.bind_ok h
  obtain ⟨destHost,hhos,h⟩ := Outcome.bind_ok h
  obtain ⟨destIp,hip,h⟩ := Outcome.bind_ok h
  obtain ⟨destProtocol,hpro,h⟩ := Outcome.bind_ok h
  obtain ⟨ruleId,hrul,h⟩ := Outcome.bind_ok h
  rw [auditText_ok hage,auditText_ok htem,optionalText_ok hhos,optionalText_ok hip,
    auditText_ok hpro,optionalText_ok hrul] at h
  exact (Except.ok.inj h).symm

private theorem nodup_plainDetails (verdict : Verdict) (request : EvaluationRequest) :
    ((plainDetails verdict request).map Prod.fst).Nodup := by
  unfold plainDetails
  cases request.destHost <;> cases request.destIp <;> cases matchedRuleId verdict <;> simp

private theorem detailsRecord_plain (verdict : Verdict) (request : EvaluationRequest) :
    DetailsRecord verdict request (Json.ofFields (plainDetails verdict request)) := by
  constructor <;> rw [Json.lookup_ofFields (nodup_plainDetails verdict request),plainDetails] <;>
    cases request.destHost <;> cases request.destIp <;> cases matchedRuleId verdict <;>
    simp [List.lookup_cons,textField]

private theorem bounds_plain (verdict : Verdict) (request : EvaluationRequest) :
    ∀ f∈plainDetails verdict request, f.2.wellFormed=true ∧ f.2.depth ≤ 0 := by
  have hpor : (request.destPort.toNat : Int) < 2 ^ 64 := by
    have hlt := request.destPort.toNat_lt
    omega
  unfold plainDetails
  cases request.destHost <;> cases request.destIp <;> cases matchedRuleId verdict <;>
    simpa [Json.wellFormed,Json.depth] using hpor

private theorem bounds_eventFields
    (hwf : (Json.obj (Json.ofFields details)).wellFormed=true)
    (hdep : (Json.obj (Json.ofFields details)).depth ≤ 1) (timestamp operation result : String)
    (subject : ProtectionSubject) :
    ∀ f∈eventFields timestamp operation result subject details, f.2.wellFormed=true ∧ f.2.depth ≤ 1 := by
  have htex : ∀ text, (Json.str text).wellFormed=true ∧ (Json.str text).depth ≤ 1 :=
    fun _ => ⟨rfl,Nat.zero_le _⟩
  simp only [eventFields,List.mem_cons,List.not_mem_nil,or_false,forall_eq_or_imp,forall_eq]
  exact ⟨htex _,htex _,htex _,htex _,htex _,htex _,hwf,hdep⟩

theorem eventFields_record (hdet : verdictDetails verdict request=.ok details)
    (subject : ProtectionSubject) (timestamp : String) {entry : List (String × Json)}
    (hent : entry=Json.ofFields (eventFields timestamp (operationForVerdict verdict)
      (resultForVerdict verdict) subject details)) :
    (Json.obj entry).wellFormed=true ∧ (Json.obj entry).depth ≤ 127 ∧
      EntryRecord verdict request subject entry := by
  rw [verdictDetails_ok hdet] at hent
  subst hent
  have hpla := bounds_plain verdict request
  have hwf := Json.wellFormed_ofFields fun f hf => (hpla f hf).1
  have hdep : Json.depth (.obj (Json.ofFields (plainDetails verdict request))) ≤ 1 := by
    rw [Json.depth]
    have hfie := Json.depth_ofFields fun f hf => (hpla f hf).2
    omega
  have hbou := bounds_eventFields hwf hdep timestamp (operationForVerdict verdict)
    (resultForVerdict verdict) subject
  have hloo : ∀ key, List.lookup key (Json.ofFields (eventFields timestamp (operationForVerdict verdict)
      (resultForVerdict verdict) subject (plainDetails verdict request)))=_ :=
    Json.lookup_ofFields (by simp [eventFields])
  refine ⟨Json.wellFormed_ofFields fun f hf => (hbou f hf).1,?_,?_⟩
  · rw [Json.depth]
    have hfie := Json.depth_ofFields fun f hf => (hbou f hf).2
    omega
  · constructor
    · rw [hloo]
      simp [eventFields,List.lookup_cons]
    · rw [hloo]
      simp [eventFields,List.lookup_cons]
    · rw [hloo]
      simp [eventFields,List.lookup_cons]
    · rw [hloo]
      simp [eventFields,List.lookup_cons]
    · refine ⟨_,?_,detailsRecord_plain verdict request⟩
      rw [hloo]
      simp [eventFields,List.lookup_cons]

theorem buildAuditEventCanonicalJson_ok
    {subject : ProtectionSubject} {timestamp event : String}
    (h : buildAuditEventCanonicalJson verdict request subject timestamp=.ok event) :
    ∃ entry, event=(Json.obj entry).canonicalText ∧ (Json.obj entry).wellFormed=true ∧
      (Json.obj entry).depth ≤ 127 ∧ EntryRecord verdict request subject entry := by
  obtain ⟨details,hdet,h⟩ := Outcome.bind_ok h
  exact ⟨_,(Except.ok.inj h).symm,eventFields_record hdet subject timestamp rfl⟩

end CastleWall.Policy
