import CastleWall.Server.HabeasPort

/-! # The server gate against the daemon gate

Both gates over one signed rule list: the server's on its own rules, the daemon's on what its decoder
reads from them. They share the structural pass and most of the coverage tests; what only one of
them reads decides where they part. -/

namespace CastleWall.Server

open Text Policy

def axisEntries (axis : Option (OneOrMany String)) : Option (List String) :=
  axis.map OneOrMany.toArray

def stdHost (m : RuleMatch) (target : String) : Bool :=
  ((axisEntries m.host).getD []).any fun h => eqIgnoreAsciiCase h target

def stdHostPattern (m : RuleMatch) (target : String) : Bool :=
  (m.hostPattern.map fun p => Habeas.hostPatternCovers p target).getD false

def stdIp (m : RuleMatch) (target : String) : Bool := Habeas.ipAxisCovers (axisEntries m.ip) target

def stdCidr (m : RuleMatch) (target : String) : Bool :=
  Habeas.cidrAxisCovers (axisEntries m.cidr) target

def sharedLane (m : RuleMatch) : Bool :=
  portsCover m.port habeasDistressPort &&
    (anyDestination m || habeasLoopbackIps.any fun t => stdHost m t || stdIp m t || stdCidr m t)

/-- The lane is reached through what only the daemon reads: the `localhost` alias or a host
pattern. -/
def daemonOnlyLane (m : RuleMatch) : Bool :=
  portsCover m.port habeasDistressPort &&
    (stdHost m "localhost" || Habeas.habeasLoopbackHosts.any fun t => stdHostPattern m t)

/-- The lane is reached only under Node's reading of an entry: a literal of the other family or with
a zone, or a name equal to a loopback literal beyond ASCII case. -/
def serverOnlyLane (node : NodeRuntime) (m : RuleMatch) : Bool :=
  portsCover m.port habeasDistressPort &&
    habeasLoopbackIps.any fun t =>
      (hostAxisCovers node m t && !stdHost m t) || (ipAxisCovers node m t && !stdIp m t) ||
        (cidrAxisCovers node m t && !stdCidr m t)

def sharedTarget (node : NodeRuntime) (m : RuleMatch) (webhook : HabeasWebhookTarget) : Bool :=
  portsCover m.port webhook.port &&
    (anyDestination m || stdHost m webhook.host ||
      (stdHostPattern m webhook.host && hostPatternAxisCovers node m webhook.host) ||
      stdIp m webhook.host || stdCidr m webhook.host)

def daemonOnlyTarget (node : NodeRuntime) (m : RuleMatch) (webhook : HabeasWebhookTarget) : Bool :=
  portsCover m.port webhook.port &&
    (stdHostPattern m webhook.host && !hostPatternAxisCovers node m webhook.host)

def serverOnlyTarget (node : NodeRuntime) (m : RuleMatch) (webhook : HabeasWebhookTarget) : Bool :=
  portsCover m.port webhook.port &&
    ((hostAxisCovers node m webhook.host && !stdHost m webhook.host) ||
      (hostPatternAxisCovers node m webhook.host && !stdHostPattern m webhook.host) ||
      (ipAxisCovers node m webhook.host && !stdIp m webhook.host) ||
      (cidrAxisCovers node m webhook.host && !stdCidr m webhook.host))

def sharedReach (node : NodeRuntime) (webhook : Option HabeasWebhookTarget) (m : RuleMatch) : Bool :=
  sharedLane m || (webhook.map (sharedTarget node m)).getD false

def daemonOnlyReach (node : NodeRuntime) (webhook : Option HabeasWebhookTarget) (m : RuleMatch) :
    Bool :=
  daemonOnlyLane m || (webhook.map (daemonOnlyTarget node m)).getD false

def serverOnlyReach (node : NodeRuntime) (webhook : Option HabeasWebhookTarget) (m : RuleMatch) :
    Bool :=
  serverOnlyLane node m || (webhook.map (serverOnlyTarget node m)).getD false

def blocking (rule : AllowlistRule) : Bool :=
  rule.disposition == .deny || rule.disposition == .prompt

/-- The lists on which the two gates give the same answer: the structural pass already refuses, some
blocking rule reaches a protected destination in a way both see, or the ways only one of them sees
are present on both sides or on neither. -/
def GatesMeet (node : NodeRuntime) (rules : List AllowlistRule) : Prop :=
  structuralIssues node rules≠[] ∨
    (∃ rule∈rules, blocking rule=true ∧
      sharedReach node (webhookTarget node rules) rule.matchClause=true) ∨
    ((∃ rule∈rules, blocking rule=true ∧
        daemonOnlyReach node (webhookTarget node rules) rule.matchClause=true) ↔
      ∃ rule∈rules, blocking rule=true ∧
        serverOnlyReach node (webhookTarget node rules) rule.matchClause=true)

structure AxesWellFormed (node : NodeRuntime) (m : RuleMatch) : Prop where
  host : ∀ v, m.host=some v → v.toArray≠[]
  hostPattern : m.hostPattern≠some ""
  ip : ∀ v, m.ip=some v → v.toArray≠[]
  cidr : ∀ v, m.cidr=some v → v.toArray≠[]
  cidrEntries : ∀ v, m.cidr=some v → ∀ e∈v.toArray, isValidCidr node e=true
  protocol : ∀ p, m.protocol=some p → p = "tcp" ∨ p = "udp" ∨ p = "tcp+udp"

private theorem validateAxisValues_nil {α : Type} {axis expected : String} {render : α → String}
    {isValid : α → Bool} {value : OneOrMany α}
    (h : validateAxisValues axis expected render isValid value=[]) :
    value.toArray≠[] ∧ ∀ e∈value.toArray, isValid e=true := by
  have hne : value≠.many [] := by
    rintro rfl
    exact absurd h (List.cons_ne_nil _ _)
  have hent : ∀ e∈value.toArray, isValid e=true := by
    unfold validateAxisValues at h
    split at h
    · exact absurd h (List.cons_ne_nil _ _)
    · rw [List.map_eq_nil_iff,List.filter_eq_nil_iff] at h
      exact fun e he => by simpa using h e he
  refine ⟨?_,hent⟩
  cases value with
  | one x => exact List.cons_ne_nil _ _
  | many xs => exact fun hxs => hne (congrArg OneOrMany.many hxs)

private theorem axisIssues_nil {α : Type} {axis : Option α} {issues : α → List String}
    (h : axisIssues axis issues=[]) : ∀ v, axis=some v → issues v=[] := by
  rintro v rfl
  exact h

private theorem issueIf_nil {condition : Bool} {issue : String}
    (h : issueIf condition issue=[]) : condition=false := by
  cases condition with
  | false => rfl
  | true => exact absurd h (List.cons_ne_nil _ _)

variable {node : NodeRuntime} {rule : AllowlistRule}

theorem axesWellFormed_of_validateRule
    (h : validateRule node rule=[]) : AxesWellFormed node rule.matchClause := by
  simp only [validateRule,validateMatch,List.append_eq_nil_iff] at h
  obtain ⟨⟨-,⟨⟨⟨⟨⟨⟨-,hhos⟩,hpat⟩,hip⟩,hcid⟩,-⟩,hpro⟩⟩,-⟩ := h
  have haxi {α : Type} {axis expected : String} {render : α → String} {isValid : α → Bool}
      {field : Option (OneOrMany α)}
      (h : axisIssues field (validateAxisValues axis expected render isValid)=[]) :
      ∀ v, field=some v → v.toArray≠[] ∧ ∀ e∈v.toArray, isValid e=true :=
    fun v hv => validateAxisValues_nil (axisIssues_nil h v hv)
  refine ⟨fun v hv => (haxi hhos v hv).1,?_,fun v hv => (haxi hip v hv).1,
    fun v hv => (haxi hcid v hv).1,fun v hv => (haxi hcid v hv).2,?_⟩
  · intro hp
    have := issueIf_nil (axisIssues_nil hpat "" hp)
    simp at this
  · intro p hp
    have := issueIf_nil (axisIssues_nil hpro p hp)
    simp only [Bool.and_eq_false_iff,bne_eq_false_iff_eq] at this
    tauto

theorem hostEquals_of_eqIgnoreAsciiCase (node : NodeRuntime) {a b : String}
    (h : eqIgnoreAsciiCase a b=true) : hostEquals node a b=true := by
  rw [eqIgnoreAsciiCase_iff] at h
  rw [hostEquals,beq_iff_eq,← node.toLowerCase_folded a,h,node.toLowerCase_folded b]

variable {m : RuleMatch} {target : String}

theorem hostAxisCovers_of_stdHost (node : NodeRuntime)
    (h : stdHost m target=true) : hostAxisCovers node m target=true := by
  cases hm : m.host with
  | none => simp [stdHost,axisEntries,hm] at h
  | some hosts =>
    simp only [stdHost,axisEntries,hm,Option.map_some,Option.getD_some,List.any_eq_true] at h
    obtain ⟨entry,hent,heq⟩ := h
    simp only [hostAxisCovers,hm,List.any_eq_true]
    exact ⟨entry,hent,hostEquals_of_eqIgnoreAsciiCase node heq⟩

theorem ipAxisCovers_of_stdIp (node : NodeRuntime)
    (h : stdIp m target=true) : ipAxisCovers node m target=true := by
  cases hm : m.ip with
  | none => simp [stdIp,axisEntries,hm,Habeas.ipAxisCovers] at h
  | some ips =>
    cases ht : IpAddr.parse target with
    | none => simp [stdIp,axisEntries,hm,Habeas.ipAxisCovers,ht] at h
    | some addr =>
      simp only [stdIp,axisEntries,hm,Option.map_some,Habeas.ipAxisCovers,ht,
        List.any_eq_true] at h
      obtain ⟨entry,hent,heq⟩ := h
      cases hc : IpAddr.parse entry with
      | none => simp [hc] at heq
      | some c =>
        simp only [hc,Option.map_some,Option.getD_some,beq_iff_eq] at heq
        subst heq
        simp only [ipAxisCovers,hm,ipMatches,node.parseIp_std target c ht,List.any_eq_true]
        exact ⟨entry,hent,by simp [node.parseIp_std entry c hc,node.addressMatches_self]⟩

theorem parseUnsigned_digits {text : String} {width : Nat}
    (hdig : text.toList.all isAsciiDigit=true)
    (h : parseUnsigned (2 ^ 32) text=some width) :
    ofDigits 10 (spanDigits 10 text.toList).1=width := by
  have hbod : stripPlus text.toList=text.toList := by
    cases hc : text.toList with
    | nil => rfl
    | cons c cs =>
      have hplu : c ≠ '+' := by
        rintro rfl
        rw [hc] at hdig
        exact absurd hdig (by simp [isAsciiDigit])
      unfold stripPlus
      split
      · rename_i heq
        exact absurd (List.cons.inj heq).1 hplu
      · rfl
  simp only [parseUnsigned,hbod] at h
  split at h
  · exact absurd h (by simp)
  · rename_i ds hspa
    split_ifs at h
    rw [hspa]
    exact Option.some.inj h
  · exact absurd h (by simp)

theorem cidrAxisCovers_of_stdCidr
    (hm : AxesWellFormed node m) (h : stdCidr m target=true) :
    cidrAxisCovers node m target=true := by
  cases hc : m.cidr with
  | none => simp [stdCidr,axisEntries,hc,Habeas.cidrAxisCovers] at h
  | some cidrs =>
    cases ht : IpAddr.parse target with
    | none => simp [stdCidr,axisEntries,hc,Habeas.cidrAxisCovers,ht] at h
    | some addr =>
      simp only [stdCidr,axisEntries,hc,Option.map_some,Habeas.cidrAxisCovers,ht,
        List.any_eq_true] at h
      obtain ⟨entry,hent,hcon⟩ := h
      have hval := hm.cidrEntries cidrs hc entry hent
      simp only [cidrAxisCovers,hc,cidrMatches,node.parseIp_std target addr ht,
        List.any_eq_true]
      refine ⟨entry,hent,?_⟩
      unfold Habeas.cidrContains at hcon
      unfold isValidCidr at hval
      split at hcon
      · exact absurd hcon (by simp)
      rename_i baseText prefixText hspl
      split at hcon
      · exact absurd hcon (by simp)
      rename_i width hwid
      split at hcon
      · exact absurd hcon (by simp)
      rename_i base hbas
      simp only [parseCidr,hspl,node.parseIp_std baseText base hbas] at hval ⊢
      split_ifs at hval ⊢ with hdig hmax
      · exact absurd hval (by simp)
      · exact absurd hval (by simp)
      · rw [not_or,not_not] at hdig
        rw [parseUnsigned_digits hdig.2 hwid]
        exact node.subnetMatches_prefix base width addr hcon

theorem server_covers_lane (hm : AxesWellFormed node m) :
    ruleCoversLoopbackLane node m=(sharedLane m || serverOnlyLane node m) := by
  have hhos : ∀ t, stdHost m t=true → hostAxisCovers node m t=true :=
    fun _ => hostAxisCovers_of_stdHost node
  have hip : ∀ t, stdIp m t=true → ipAxisCovers node m t=true :=
    fun _ => ipAxisCovers_of_stdIp node
  have hcid : ∀ t, stdCidr m t=true → cidrAxisCovers node m t=true :=
    fun _ => cidrAxisCovers_of_stdCidr hm
  rw [Bool.eq_iff_iff]
  unfold ruleCoversLoopbackLane sharedLane serverOnlyLane habeasLoopbackIps
  cases portsCover m.port habeasDistressPort with
  | false => simp
  | true =>
    cases anyDestination m with
    | true => simp
    | false =>
      simp only [Bool.not_true,Bool.false_eq_true,if_false,List.any_cons,List.any_nil,
        Bool.or_false,Bool.true_and,Bool.false_or,Bool.or_eq_true,Bool.and_eq_true,
        Bool.not_eq_true']
      grind

theorem server_covers_target (hm : AxesWellFormed node m)
    (webhook : HabeasWebhookTarget) :
    ruleCoversHostTarget node m webhook.host webhook.port =
      (sharedTarget node m webhook || serverOnlyTarget node m webhook) := by
  have hhos : stdHost m webhook.host=true → hostAxisCovers node m webhook.host=true :=
    hostAxisCovers_of_stdHost node
  have hip : stdIp m webhook.host=true → ipAxisCovers node m webhook.host=true :=
    ipAxisCovers_of_stdIp node
  have hcid : stdCidr m webhook.host=true → cidrAxisCovers node m webhook.host=true :=
    cidrAxisCovers_of_stdCidr hm
  rw [Bool.eq_iff_iff]
  unfold ruleCoversHostTarget sharedTarget serverOnlyTarget
  cases portsCover m.port webhook.port with
  | false => simp
  | true =>
    cases anyDestination m with
    | true => simp
    | false =>
      simp only [Bool.not_true,Bool.false_eq_true,if_false,Bool.true_and,Bool.false_or,
        Bool.or_eq_true,Bool.and_eq_true,Bool.not_eq_true']
      grind

private theorem hasAxis_decoded {axis : Option (OneOrMany String)}
    (h : ∀ v, axis=some v → v.toArray≠[]) :
    Habeas.hasAxis (axisEntries axis)=axis.isSome := by
  cases axis with
  | none => rfl
  | some v => simpa [Habeas.hasAxis,axisEntries] using h v rfl

private theorem anyDestination_decoded
    (hm : AxesWellFormed node m) (port : Option (List UInt16)) :
    Habeas.anyDestination (decodeMatch m port)=anyDestination m := by
  have hhos := hasAxis_decoded hm.host
  have hip := hasAxis_decoded hm.ip
  have hcid := hasAxis_decoded hm.cidr
  have hpat : Habeas.hasHostPattern (decodeMatch m port)=m.hostPattern.isSome := by
    have hne := hm.hostPattern
    unfold Habeas.hasHostPattern decodeMatch
    cases hp : m.hostPattern with
    | none => rfl
    | some p =>
      rw [hp] at hne
      simpa using hne
  unfold Habeas.anyDestination anyDestination
  rw [hpat]
  simp only [decodeMatch]
  rw [← axisEntries,← axisEntries,← axisEntries,hhos,hip,hcid]
  simp

private theorem hostAxisCovers_decoded (m : RuleMatch) (port : Option (List UInt16))
    (target : String) :
    Habeas.hostAxisCovers (decodeMatch m port) target =
      (stdHost m target || stdHostPattern m target) := by
  unfold Habeas.hostAxisCovers stdHost stdHostPattern decodeMatch axisEntries
  cases m.host <;> cases m.hostPattern <;> rfl

private def portNumber (port : UInt16) : Int := port.toNat

private theorem portNumber_injective : Function.Injective portNumber := by
  intro a b h
  exact UInt16.toNat_inj.mp (Int.ofNat.inj h)

private theorem eq_portNumber {value : Int} {port : UInt16} (h : decodePort value=some port) :
    value=portNumber port := by
  unfold decodePort at h
  split_ifs at h with hran
  cases h
  rw [portNumber,UInt16.toNat_ofNat']
  omega

private theorem eq_map_portNumber (values : List Int) :
    ∀ ports, values.mapM decodePort=some ports → values=ports.map portNumber := by
  induction values with
  | nil =>
    intro ports h
    cases h
    rfl
  | cons value values ih =>
    intro ports h
    rw [List.mapM_cons] at h
    obtain ⟨port,hpot,h⟩ := Option.bind_eq_some_iff.mp h
    obtain ⟨ports',hpor,h⟩ := Option.bind_eq_some_iff.mp h
    cases h
    rw [List.map_cons,← eq_portNumber hpot,← ih ports' hpor]

variable {port : Option (List UInt16)}

private theorem decodePorts_eq
    (h : decodePorts m.port=some port) :
    m.port.map OneOrMany.toArray=port.map (List.map portNumber) := by
  unfold decodePorts at h
  cases hp : m.port with
  | none =>
    rw [hp] at h
    cases h
    rfl
  | some values =>
    rw [hp] at h
    obtain ⟨ports,hpor,rfl⟩ := Option.map_eq_some_iff.mp h
    exact congrArg some (eq_map_portNumber _ ports hpor)

private theorem portsCover_toArray (port : Option (OneOrMany Int)) (target : Int) :
    portsCover port target =
      ((port.map OneOrMany.toArray).map fun ports => ports.contains target).getD true := by
  cases port <;> rfl

private theorem portsCover_decoded
    (hpor : decodePorts m.port=some port) {target : Int} {t : UInt16}
    (ht : decodePort target=some t) :
    Habeas.portsCover port t=portsCover m.port target := by
  rw [portsCover_toArray,decodePorts_eq hpor,eq_portNumber ht]
  cases port with
  | none => rfl
  | some ports =>
    rw [Bool.eq_iff_iff]
    simp [Habeas.portsCover,List.mem_map_of_injective portNumber_injective]

theorem daemon_covers_lane (hm : AxesWellFormed node m) (hpot : decodePorts m.port=some port) :
    Habeas.ruleCoversLoopbackLane (decodeMatch m port)=(sharedLane m || daemonOnlyLane m) := by
  have hpor : Habeas.portsCover (decodeMatch m port).port Habeas.habeasDistressPort =
      portsCover m.port habeasDistressPort := portsCover_decoded hpot (by decide)
  unfold Habeas.ruleCoversLoopbackLane sharedLane daemonOnlyLane
  rw [hpor,anyDestination_decoded hm port]
  have hip : ∀ t, Habeas.ipAxisCovers (decodeMatch m port).ip t=stdIp m t := fun _ => rfl
  have hcid : ∀ t, Habeas.cidrAxisCovers (decodeMatch m port).cidr t=stdCidr m t := fun _ => rfl
  simp only [hip,hcid,hostAxisCovers_decoded]
  rw [Bool.eq_iff_iff]
  unfold Habeas.habeasLoopbackHosts habeasLoopbackIps
  cases portsCover m.port habeasDistressPort with
  | false => simp
  | true =>
    cases anyDestination m with
    | true => simp
    | false =>
      simp only [Bool.not_true,Bool.false_eq_true,if_false,List.any_cons,List.any_nil,
        Bool.or_false,Bool.true_and,Bool.false_or,Bool.or_eq_true,Bool.and_eq_true,
        bne_self_eq_false,show ("127.0.0.1" != "localhost")=true from by decide,
        show ("::1" != "localhost")=true from by decide]
      grind

theorem daemon_covers_target (hm : AxesWellFormed node m) (hpot : decodePorts m.port=some port)
    (webhook : HabeasWebhookTarget) {t : UInt16} (ht : decodePort webhook.port=some t) :
    Habeas.ruleCoversHostTarget (decodeMatch m port) webhook.host t =
      (sharedTarget node m webhook || daemonOnlyTarget node m webhook) := by
  have hpor : Habeas.portsCover (decodeMatch m port).port t=portsCover m.port webhook.port :=
    portsCover_decoded hpot ht
  unfold Habeas.ruleCoversHostTarget sharedTarget daemonOnlyTarget
  rw [hpor,anyDestination_decoded hm port,hostAxisCovers_decoded]
  have hip : Habeas.ipAxisCovers (decodeMatch m port).ip webhook.host=stdIp m webhook.host := rfl
  have hcid : Habeas.cidrAxisCovers (decodeMatch m port).cidr webhook.host =
      stdCidr m webhook.host := rfl
  rw [hip,hcid,Bool.eq_iff_iff]
  cases portsCover m.port webhook.port with
  | false => simp
  | true =>
    cases anyDestination m with
    | true => simp
    | false =>
      simp only [Bool.not_true,Bool.false_eq_true,if_false,Bool.true_and,Bool.false_or,
        Bool.or_eq_true,Bool.and_eq_true,Bool.not_eq_true']
      grind

structure Decoded (rule : AllowlistRule) (read : Policy.AllowlistRule) : Prop where
  id : read.id=rule.id
  disposition : read.disposition=rule.disposition
  timeWindow : read.timeWindow=rule.timeWindow
  scope : read.scope.agentIds=rule.scope.agentIds.getD [] ∧
    read.scope.templateIds=rule.scope.templateIds.getD []
  uids : rule.scope.uids=none
  matchClause : ∃ port, decodePorts rule.matchClause.port=some port ∧
    read.matchClause=decodeMatch rule.matchClause port

variable {read : Policy.AllowlistRule}

theorem decoded_of_decodeRule
    (h : decodeRule rule=some read) : Decoded rule read := by
  obtain ⟨scope,hsco,h⟩ := Option.bind_eq_some_iff.mp h
  obtain ⟨port,hpor,h⟩ := Option.bind_eq_some_iff.mp h
  unfold decodeScope at hsco
  split_ifs at hsco with huid
  split_ifs at h
  cases hsco
  cases h
  exact ⟨rfl,rfl,rfl,⟨rfl,rfl⟩,by simpa using huid,port,hpor,rfl⟩

private theorem toLowerCase_tcp (node : NodeRuntime) {protocol : Option String}
    (h : ∀ p, protocol=some p → p = "tcp" ∨ p = "udp" ∨ p = "tcp+udp") :
    (protocol.map fun p => node.toLowerCase p == "tcp").getD false =
      (protocol.map fun p => eqIgnoreAsciiCase p "tcp").getD false := by
  have htcp : node.toLowerCase "tcp" = "tcp" := by
    rw [node.toLowerCase_ascii "tcp" (by simp)]
    decide
  have hudp : node.toLowerCase "udp" = "udp" := by
    rw [node.toLowerCase_ascii "udp" (by simp)]
    decide
  have hbot : node.toLowerCase "tcp+udp" = "tcp+udp" := by
    rw [node.toLowerCase_ascii "tcp+udp" (by simp)]
    decide
  cases protocol with
  | none => rfl
  | some p =>
    rcases h p rfl with rfl | rfl | rfl
    · simp only [Option.map_some,Option.getD_some,htcp]
      decide
    · simp only [Option.map_some,Option.getD_some,hudp]
      decide
    · simp only [Option.map_some,Option.getD_some,hbot]
      decide

private theorem agentIds_decoded {ids : Option (List String)} :
    (ids == some [habeasEmitterAgentId])=(ids.getD [] == [habeasEmitterAgentId]) := by
  cases ids with
  | none => rfl
  | some ids => simp

private theorem local_ports_decoded (port : Option (List UInt16)) :
    ((port.map (List.map portNumber)).getD [] == [habeasDistressPort]) =
      (port == some [Habeas.habeasDistressPort]) := by
  have hdis : [habeasDistressPort]=[Habeas.habeasDistressPort].map portNumber := by decide
  cases port with
  | none => rfl
  | some ports =>
    rw [Bool.eq_iff_iff,hdis]
    simp only [Option.map_some,Option.getD_some,beq_iff_eq,Option.some.injEq]
    exact (List.map_injective_iff.mpr portNumber_injective).eq_iff

private theorem local_ips_decoded (ip : Option (OneOrMany String)) :
    ((ip.map OneOrMany.toArray).getD [] == habeasLoopbackIps) =
      (axisEntries ip == some ["127.0.0.1","::1"]) := by
  cases ip with
  | none => rfl
  | some ips => simp [axisEntries,habeasLoopbackIps]

theorem genuine_decoded
    (hm : AxesWellFormed node rule.matchClause) (h : Decoded rule read) :
    Habeas.isDerivedHabeasRule read=isGenuineDerivedHabeasRule node rule := by
  obtain ⟨port,hpot,hmat⟩ := h.matchClause
  have hsco : (read.scope.templateIds.isEmpty &&
      read.scope.agentIds == [Habeas.habeasEmitterAgentId])=emitterScoped rule.scope := by
    rw [emitterScoped,h.scope.1,h.scope.2,h.uids,agentIds_decoded,Bool.and_comm]
    simp [habeasEmitterAgentId,Habeas.habeasEmitterAgentId]
  have hpor := decodePorts_eq hpot
  have hlen : ((decodeMatch rule.matchClause port).port.map fun p => p.length == 1).getD false =
      (rule.matchClause.port.map fun p => p.toArray.length == 1).getD false := by
    have : (rule.matchClause.port.map fun p => p.toArray.length == 1) =
        (rule.matchClause.port.map OneOrMany.toArray).map fun p => p.length == 1 := by
      cases rule.matchClause.port <;> rfl
    rw [this,hpor]
    cases port <;> simp [decodeMatch]
  have hhos : ((decodeMatch rule.matchClause port).host.map fun p => p.length == 1).getD false =
      (rule.matchClause.host.map fun p => p.toArray.length == 1).getD false := by
    unfold decodeMatch
    cases rule.matchClause.host <;> rfl
  have hloc : Habeas.habeasLocalRuleId=habeasLocalRuleId := rfl
  have hweb : Habeas.habeasWebhookRuleId=habeasWebhookRuleId := rfl
  have hnoH : (decodeMatch rule.matchClause port).host.isNone=rule.matchClause.host.isNone :=
    Option.isNone_map
  have hnoI : (decodeMatch rule.matchClause port).ip.isNone=rule.matchClause.ip.isNone :=
    Option.isNone_map
  have hnoC : (decodeMatch rule.matchClause port).cidr.isNone=rule.matchClause.cidr.isNone :=
    Option.isNone_map
  unfold Habeas.isDerivedHabeasRule isGenuineDerivedHabeasRule
  dsimp only
  rw [hsco,hmat,hlen,hhos,hpor,local_ports_decoded,local_ips_decoded,
    toLowerCase_tcp node hm.protocol,h.disposition,h.timeWindow,h.id,hloc,hweb,hnoH,
    hnoI,hnoC]
  rfl

def DecodedList (node : NodeRuntime) : List AllowlistRule → List Policy.AllowlistRule → Prop :=
  List.Forall₂ fun rule read => AxesWellFormed node rule.matchClause ∧ Decoded rule read

theorem decodedList_of_mapM (rules : List AllowlistRule) :
    ∀ reads, (∀ rule∈rules, AxesWellFormed node rule.matchClause) →
      rules.mapM decodeRule=some reads → DecodedList node rules reads := by
  induction rules with
  | nil =>
    intro reads _ h
    cases h
    exact List.Forall₂.nil
  | cons rule rules ih =>
    intro reads hwf h
    rw [List.mapM_cons] at h
    obtain ⟨read,hred,h⟩ := Option.bind_eq_some_iff.mp h
    obtain ⟨reads',hrea,h⟩ := Option.bind_eq_some_iff.mp h
    cases h
    exact List.Forall₂.cons ⟨hwf rule List.mem_cons_self,decoded_of_decodeRule hred⟩
      (ih reads' (fun r hr => hwf r (List.mem_cons_of_mem _ hr)) hrea)

private theorem scanReservedRule_decoded (hm : AxesWellFormed node rule.matchClause)
    (h : Decoded rule read) (acc : Habeas.ReservedScan) :
    Habeas.scanReservedRule acc read=scanReservedRule node acc rule := by
  unfold Habeas.scanReservedRule scanReservedRule
  rw [genuine_decoded hm h,h.id]
  rfl

theorem structuralIssues_decoded {rules : List AllowlistRule}
    {reads : List Policy.AllowlistRule} (h : DecodedList node rules reads) :
    Habeas.structuralIssues reads=structuralIssues node rules := by
  have hsca : ∀ acc, reads.foldl Habeas.scanReservedRule acc =
      rules.foldl (scanReservedRule node) acc := by
    induction h with
    | nil => exact fun _ => rfl
    | cons hrul _ ih =>
      intro acc
      rw [List.foldl_cons,List.foldl_cons,scanReservedRule_decoded hrul.1 hrul.2]
      exact ih _
  unfold Habeas.structuralIssues structuralIssues Habeas.scanReserved
  rw [hsca]
  rfl

private theorem scan_issues_mono (node : NodeRuntime) (rules : List AllowlistRule) :
    ∀ acc : Habeas.ReservedScan, (rules.foldl (scanReservedRule node) acc).issues=[] →
      acc.issues=[] ∧ ∀ rule∈rules, startsWith rule.id habeasRuleIdPrefix=true →
        isGenuineDerivedHabeasRule node rule=true := by
  induction rules with
  | nil => exact fun acc h => ⟨h,by simp⟩
  | cons rule rules ih =>
    intro acc h
    rw [List.foldl_cons] at h
    obtain ⟨hste,hret⟩ := ih _ h
    have hrul : acc.issues=[] ∧ (startsWith rule.id habeasRuleIdPrefix=true →
        isGenuineDerivedHabeasRule node rule=true) := by
      unfold scanReservedRule at hste
      split_ifs at hste with hid hgen
      · exact ⟨hste,fun hres => by simp [hres] at hid⟩
      · simp at hste
      all_goals exact ⟨hste,fun _ => by simpa using hgen⟩
    refine ⟨hrul.1,?_⟩
    intro r hr
    rcases List.mem_cons.mp hr with rfl | hr
    · exact hrul.2
    · exact hret r hr

/-- Past the structural pass only genuine rules carry a reserved id. -/
theorem genuine_of_reserved {rules : List AllowlistRule}
    (h : structuralIssues node rules=[]) (hmem : rule∈rules)
    (hid : startsWith rule.id habeasRuleIdPrefix=true) :
    isGenuineDerivedHabeasRule node rule=true := by
  have hiss : (rules.foldl (scanReservedRule node) {}).issues=[] := by
    simp only [structuralIssues,List.append_eq_nil_iff] at h
    exact h.1.1
  exact (scan_issues_mono node rules {} hiss).2 rule hmem hid

theorem genuine_not_blocking
    (h : isGenuineDerivedHabeasRule node rule=true) : blocking rule=false := by
  have hall : rule.disposition=.allow := by
    by_contra hne
    unfold isGenuineDerivedHabeasRule at h
    dsimp only at h
    rw [if_pos hne] at h
    exact absurd h (by decide)
  rw [blocking,hall]
  decide

theorem server_conflict_iff
    (hm : AxesWellFormed node rule.matchClause)
    (hid : startsWith rule.id habeasRuleIdPrefix=false) (webhook : Option HabeasWebhookTarget) :
    ruleConflict node webhook rule=none ↔ (blocking rule=true →
      sharedReach node webhook rule.matchClause=false ∧
        serverOnlyReach node webhook rule.matchClause=false) := by
  have hblo : (rule.disposition≠.deny ∧ rule.disposition≠.prompt) ↔
      blocking rule=false := by
    simp [blocking]
  unfold ruleConflict
  rw [if_neg (by simp [hid])]
  simp only [hblo,server_covers_lane hm]
  cases blocking rule with
  | false => simp
  | true =>
    cases webhook with
    | none => simp [sharedReach,serverOnlyReach]
    | some webhook =>
      simp only [server_covers_target hm,sharedReach,serverOnlyReach,Option.map_some,
        Option.getD_some]
      grind

def TargetDecoded : Option HabeasWebhookTarget → Option Habeas.HabeasWebhookTarget → Prop
  | none, none => True
  | some webhook, some read => read.host=webhook.host ∧ decodePort webhook.port=some read.port
  | _, _ => False

theorem daemon_conflict_iff (hm : AxesWellFormed node rule.matchClause)
    (hrea : Decoded rule read) (hid : startsWith rule.id habeasRuleIdPrefix=false)
    {webhook : Option HabeasWebhookTarget} {target : Option Habeas.HabeasWebhookTarget}
    (htar : TargetDecoded webhook target) :
    Habeas.ruleConflict target read=none ↔ (blocking rule=true →
      sharedReach node webhook rule.matchClause=false ∧
        daemonOnlyReach node webhook rule.matchClause=false) := by
  obtain ⟨port,hpor,hmat⟩ := hrea.matchClause
  have hblo : (rule.disposition≠.deny ∧ rule.disposition≠.prompt) ↔
      blocking rule=false := by
    simp [blocking]
  have hid' : startsWith read.id Habeas.habeasRuleIdPrefix=false := by
    rw [hrea.id]
    exact hid
  unfold Habeas.ruleConflict
  rw [if_neg (by simp [hid'])]
  simp only [hrea.disposition,hblo,hmat,daemon_covers_lane hm hpor]
  cases blocking rule with
  | false => simp
  | true =>
    match webhook, target, htar with
    | none, none, _ => simp [sharedReach,daemonOnlyReach]
    | some webhook, some target, htar =>
      have hcov : Habeas.ruleCoversHostTarget (decodeMatch rule.matchClause port) target.host
          target.port=(sharedTarget node rule.matchClause webhook ||
            daemonOnlyTarget node rule.matchClause webhook) := by
        rw [htar.1]
        exact daemon_covers_target hm hpor webhook htar.2
      simp only [hcov,sharedReach,daemonOnlyReach,Option.map_some,Option.getD_some]
      grind

end CastleWall.Server
