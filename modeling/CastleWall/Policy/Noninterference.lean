import CastleWall.Policy.Lane

/-! # A hostname cannot change a verdict

The evaluator reads a hostname, a template and an opaque flag, but admission refuses every rule axis
through which one of them could decide. -/

namespace CastleWall.Policy

open Text Manifest

/-- What the packet path attests of an attempt: the agent, a destination address, port and protocol. -/
structure SameAttested (r₁ r₂ : EvaluationRequest) : Prop where
  agentId : r₁.agentId=r₂.agentId
  destIp : r₁.destIp=r₂.destIp
  addressed : ∃ text, r₁.destIp=some text ∧ text ≠ ""
  destPort : r₁.destPort=r₂.destPort
  destProtocol : r₁.destProtocol=r₂.destProtocol

/-- With a destination address the hostname is not read as an address. -/
theorem ipLiteral_of_addressed {text : String} (h : text ≠ "") (destHost : Option String) :
    RuleMatch.ipLiteral destHost (some text)=IpAddr.parse text := by
  have hkee : (some text).filter (· ≠ "")=some text := by simp [Option.filter,h]
  rw [RuleMatch.ipLiteral,hkee,Option.some_or,Option.bind_some]

theorem AdmittedRule.appliesTo_eq {rule : AllowlistRule} (h : AdmittedRule rule)
    (agentId template₁ template₂ : String) :
    rule.scope.appliesTo agentId template₁=rule.scope.appliesTo agentId template₂ := by
  simp only [RuleScope.appliesTo,h.noTemplate,List.isEmpty_nil,Bool.not_true,Bool.false_and]

theorem AdmittedRule.covers_eq {rule : AllowlistRule} (h : AdmittedRule rule)
    {r₁ r₂ : EvaluationRequest} (hsam : SameAttested r₁ r₂) :
    rule.covers r₁=rule.covers r₂ := by
  obtain ⟨text,hip,hne⟩ := hsam.addressed
  have hip₂ : r₂.destIp=some text := hsam.destIp.symm.trans hip
  have hlit : RuleMatch.ipLiteral r₁.destHost r₁.destIp =
      RuleMatch.ipLiteral r₂.destHost r₂.destIp := by
    rw [hip,hip₂,ipLiteral_of_addressed hne,ipLiteral_of_addressed hne]
  have hdes : rule.matchClause.matchesDestination r₁.destHost r₁.destIp =
      rule.matchClause.matchesDestination r₂.destHost r₂.destIp := by
    simp only [RuleMatch.matchesDestination,h.matchesHost_eq,RuleMatch.matchesIp,hlit]
  rw [AllowlistRule.covers,AllowlistRule.covers,RuleMatch.matches,RuleMatch.matches,hdes,
    h.appliesTo_eq r₁.agentId r₁.agentTemplate r₂.agentTemplate,hsam.agentId,hsam.destPort,
    hsam.destProtocol]

/-- In every snapshot admission builds, two attempts that agree on agent, address, port and protocol are
matched by the same rule and get the same verdict, and no verdict asks for a prompt. -/
theorem verdict_ignores_hostname (env : AdmissionEnv) (loaded : LoadedManifest)
    (snapshot : PolicySnapshot) (hbuilt : fromLoadedManifest env loaded=.ok snapshot)
    (r₁ r₂ : EvaluationRequest) (hsame : SameAttested r₁ r₂) :
    snapshot.rules.find? (·.covers r₁)=snapshot.rules.find? (·.covers r₂) ∧
      snapshot.evaluate r₁=snapshot.evaluate r₂ ∧
      ∀ ruleId, snapshot.evaluate r₁≠.promptRequired ruleId := by
  obtain ⟨hrul,-⟩ := fromLoadedManifest_ok hbuilt
  have hfind : snapshot.rules.find? (·.covers r₁)=snapshot.rules.find? (·.covers r₂) := by
    generalize snapshot.rules=rules at hrul
    induction rules with
    | nil => rfl
    | cons rule rules ih =>
      obtain ⟨hrue,hres⟩ := List.forall_mem_cons.mp hrul
      rw [List.find?_cons,List.find?_cons,hrue.covers_eq hsame,ih hres]
  refine ⟨hfind,?_,?_⟩
  · rw [PolicySnapshot.evaluate,PolicySnapshot.evaluate,hfind]
  · intro ruleId hpro
    rw [PolicySnapshot.evaluate] at hpro
    split at hpro
    · rename_i rule hrue
      have hadm := hrul rule (List.mem_of_find?_eq_some hrue)
      cases hdis : rule.disposition with
      | prompt => exact hadm.noPrompt hdis
      | allow => exact absurd hpro (by simp [verdictOf,hdis])
      | deny => exact absurd hpro (by simp [verdictOf,hdis])
    · exact absurd hpro (by simp)

/-- A hostname that names the lane's own literal address does not change the verdict on another
address. -/
theorem verdict_ignores_hostname_spelling :
    laneSnapshot.evaluate { laneRequest with destHost := some "10.0.0.1", agentTemplate := "t" } =
      laneSnapshot.evaluate laneRequest :=
  (verdict_ignores_hostname laneEnv laneManifest laneSnapshot laneSnapshot_admitted _ laneRequest
    ⟨rfl,rfl,⟨"0:0:0:0:0:0:0:1",rfl,by decide⟩,rfl,rfl⟩).2.1

end CastleWall.Policy
