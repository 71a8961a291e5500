import CastleWall.Support.IpAddr

/-! # Packet headers

`parse_ip_header` of the daemon's `nfqueue.rs`. A destination is an address here; the daemon goes on with its text. Every
read of the source is behind a check of the length, so a byte that is not there is never looked at. -/

namespace CastleWall.Policy.PacketHeader

abbrev Tuple : Type := Option IpAddr × Nat × UInt8

section Parser

variable (payload : List UInt8)

def byteAt (i : Nat) : UInt8 := payload.getD i 0

def u16At (i : Nat) : Nat := (byteAt payload i).toNat * 256+(byteAt payload (i+1)).toNat

def version : Nat := (byteAt payload 0).toNat / 16

def ihl : Nat := (byteAt payload 0).toNat % 16 * 4

def destination4 : IpAddr := IpAddr.v4OfOctets ((List.range 4).map fun k => (byteAt payload (16+k)).toNat)

def destination6 : IpAddr := IpAddr.v6OfGroups ((List.range 8).map fun k => u16At payload (24+2 * k))

inductive ChainEnd where
  /-- A fragment: nothing is returned. -/
  | refused
  /-- The next header is past the declared length: the address is returned without a port. -/
  | overrun (nextHeader : UInt8)
  | transport (nextHeader : UInt8) (offset : Nat)

def IsExtension (nextHeader : UInt8) : Prop := nextHeader=0 ∨ nextHeader=43 ∨ nextHeader=60

instance (nextHeader : UInt8) : Decidable (IsExtension nextHeader) :=
  inferInstanceAs (Decidable (nextHeader=0 ∨ nextHeader=43 ∨ nextHeader=60))

def headerLen (offset : Nat) : Nat := ((byteAt payload (offset+1)).toNat+1) * 8

def walkChain (declared : Nat) (nextHeader : UInt8) (offset : Nat) : ChainEnd :=
  if IsExtension nextHeader then
    if declared < offset+2 then .overrun nextHeader
    else if declared < offset+headerLen payload offset then .overrun (byteAt payload offset)
    else walkChain declared (byteAt payload offset) (offset+headerLen payload offset)
  else if nextHeader=44 then .refused
  else .transport nextHeader offset
termination_by declared - offset
decreasing_by
  have hpos : 8 ≤ headerLen payload offset := by
    rw [headerLen]
    omega
  omega

def portAt (declared : Nat) (protocol : UInt8) (offset : Nat) : Nat :=
  if offset+4 ≤ declared ∧ (protocol=6 ∨ protocol=17) then u16At payload (offset+2) else 0

def parseIpv6Header : Tuple :=
  if payload.length < 40 then (none,0,0)
  else
    let declared := 40+u16At payload 4
    if payload.length < declared then (none,0,0)
    else
      match walkChain payload declared (byteAt payload 6) 40 with
      | .refused => (none,0,0)
      | .overrun nextHeader => (some (destination6 payload),0,nextHeader)
      | .transport nextHeader offset =>
        (some (destination6 payload),portAt payload declared nextHeader offset,nextHeader)

def parseIpHeader : Tuple :=
  if payload.length < 20 then (none,0,0)
  else if version payload=6 then parseIpv6Header payload
  else if version payload≠4 then (none,0,0)
  else if ihl payload < 20 ∨ payload.length < ihl payload then (none,0,0)
  else if u16At payload 2 < ihl payload ∨ payload.length < u16At payload 2 then (none,0,0)
  else if u16At payload 6 &&& 0x3fff≠0 then (none,0,0)
  else
    (some (destination4 payload),portAt payload (u16At payload 2) (byteAt payload 9) (ihl payload),byteAt payload 9)

def declaredLength : Option Nat :=
  if version payload=4 ∧ 4 ≤ payload.length then some (u16At payload 2)
  else if version payload=6 ∧ 6 ≤ payload.length then some (40+u16At payload 4)
  else none

/-- The headers of the extension chain that lie inside the declared length, each with its offset. -/
inductive Reaches (declared : Nat) : UInt8 → Nat → Prop
  | first : Reaches declared (byteAt payload 6) 40
  | next {nextHeader : UInt8} {offset : Nat} (h : Reaches declared nextHeader offset)
    (hextension : IsExtension nextHeader) (hheader : offset+2 ≤ declared)
    (hlength : offset+headerLen payload offset ≤ declared) :
    Reaches declared (byteAt payload offset) (offset+headerLen payload offset)

def TransportAt (protocol : UInt8) (offset : Nat) : Prop :=
  if version payload=4 then protocol=byteAt payload 9 ∧ offset=ihl payload
  else Reaches payload (40+u16At payload 4) protocol offset ∧ ¬IsExtension protocol ∧ protocol≠44

def IsFragment : Prop :=
  if version payload=4 then u16At payload 6 &&& 0x3fff≠0
  else version payload=6 ∧ ∃ offset, Reaches payload (40+u16At payload 4) 44 offset

def headerDestination : IpAddr := if version payload=4 then destination4 payload else destination6 payload

end Parser

section Chain

variable {payload payload' : List UInt8} {declared offset : Nat} {nextHeader : UInt8}

theorem walkChain_of_reaches (h : Reaches payload declared nextHeader offset) :
    walkChain payload declared (byteAt payload 6) 40=walkChain payload declared nextHeader offset := by
  induction h with
  | first => rfl
  | next _ hext hhea hlen ih =>
    rw [ih,walkChain,if_pos hext,if_neg (by omega),if_neg (by omega)]

theorem reaches_of_walkChain {protocol : UInt8} {start : Nat} (h : Reaches payload declared nextHeader offset)
    (hwal : walkChain payload declared nextHeader offset=.transport protocol start) :
    Reaches payload declared protocol start ∧ ¬IsExtension protocol ∧ protocol≠44 := by
  induction nextHeader, offset using walkChain.induct payload declared with
  | case1 nextHeader offset hext hsho =>
    rw [walkChain,if_pos hext,if_pos hsho] at hwal
    cases hwal
  | case2 nextHeader offset hext hsho hove =>
    rw [walkChain,if_pos hext,if_neg hsho,if_pos hove] at hwal
    cases hwal
  | case3 nextHeader offset hext hsho hove ih =>
    rw [walkChain,if_pos hext,if_neg hsho,if_neg hove] at hwal
    exact ih (h.next hext (by omega) (by omega)) hwal
  | case4 offset hext =>
    rw [walkChain,if_neg hext,if_pos rfl] at hwal
    cases hwal
  | case5 nextHeader offset hext hfra =>
    rw [walkChain,if_neg hext,if_neg hfra] at hwal
    cases hwal
    exact ⟨h,hext,hfra⟩

theorem walkChain_congr (h : ∀ i < declared, byteAt payload i=byteAt payload' i) (nextHeader : UInt8) (offset : Nat) :
    walkChain payload declared nextHeader offset=walkChain payload' declared nextHeader offset := by
  have hlen : ∀ offset, ¬declared < offset+2 → headerLen payload offset=headerLen payload' offset := by
    intro offset hsho
    rw [headerLen,headerLen,h _ (by omega)]
  induction nextHeader, offset using walkChain.induct payload declared with
  | case1 nextHeader offset hext hsho =>
    rw [walkChain,walkChain.eq_def payload']
    simp only [if_pos hext,if_pos hsho]
  | case2 nextHeader offset hext hsho hove =>
    rw [walkChain,walkChain.eq_def payload',← hlen offset hsho,← h offset (by omega)]
    simp only [if_pos hext,if_neg hsho,if_pos hove]
  | case3 nextHeader offset hext hsho hove ih =>
    rw [walkChain,walkChain.eq_def payload',← hlen offset hsho,← h offset (by omega)]
    simp only [if_pos hext,if_neg hsho,if_neg hove]
    exact ih
  | case4 offset hext =>
    rw [walkChain,walkChain.eq_def payload']
    simp only [if_neg hext]
  | case5 nextHeader offset hext hfra =>
    rw [walkChain,walkChain.eq_def payload']
    simp only [if_neg hext]

end Chain

section Parsed

variable {payload payload' : List UInt8} {n : Nat}

theorem agree_of_take (h : payload.take n=payload'.take n) : ∀ i < n, byteAt payload i=byteAt payload' i := by
  intro i hi
  have hget := congrArg (fun bytes : List UInt8 => bytes[i]?) h
  simp only [List.getElem?_take_of_lt hi] at hget
  rw [byteAt,byteAt,List.getD_eq_getElem?_getD,List.getD_eq_getElem?_getD,hget]

theorem parseIpHeader_v4 (hver : version payload=4) (hlen : 20 ≤ payload.length) :
    parseIpHeader payload =
      if 20 ≤ ihl payload ∧ ihl payload ≤ u16At payload 2 ∧ u16At payload 2 ≤ payload.length ∧
          u16At payload 6 &&& 0x3fff=0 then
        (some (destination4 payload),portAt payload (u16At payload 2) (byteAt payload 9) (ihl payload),
          byteAt payload 9)
      else (none,0,0) := by
  rw [parseIpHeader]
  split_ifs <;> first | rfl | omega

theorem parseIpHeader_v6 (hver : version payload=6) (hlen : 20 ≤ payload.length) :
    parseIpHeader payload=parseIpv6Header payload := by
  rw [parseIpHeader,if_neg (by omega),if_pos hver]

theorem parse_of_short (h : declaredLength payload=some n) (hn : n < 20) : parseIpHeader payload=(none,0,0) := by
  rw [declaredLength] at h
  split_ifs at h with h4 h6
  · have h2 : u16At payload 2 < 20 := by
      rw [Option.some.inj h]
      exact hn
    rw [parseIpHeader]
    split_ifs <;> first | rfl | omega
  · have := Option.some.inj h
    omega

theorem portAt_congr {declared offset : Nat} {protocol : UInt8}
    (h : ∀ i < declared, byteAt payload i=byteAt payload' i) :
    portAt payload declared protocol offset=portAt payload' declared protocol offset := by
  rw [portAt,portAt]
  split_ifs with hpor
  · rw [u16At,u16At,h _ (by omega),h _ (by omega)]
  · rfl

theorem parseIpv6Header_congr (h : ∀ i < n, byteAt payload i=byteAt payload' i) (hlen : n ≤ payload.length)
    (hlen' : n ≤ payload'.length) (hn : n=40+u16At payload 4) :
    parseIpv6Header payload=parseIpv6Header payload' := by
  have hu16 : ∀ i, i+1 < 40 → u16At payload i=u16At payload' i := by
    intro i hi
    rw [u16At,u16At,h _ (by omega),h _ (by omega)]
  have hdes : destination6 payload=destination6 payload' := by
    have hgro : ∀ k∈List.range 8, u16At payload (24+2 * k)=u16At payload' (24+2 * k) := by
      intro k hk
      rw [List.mem_range] at hk
      exact hu16 _ (by omega)
    rw [destination6,destination6,List.map_congr_left hgro]
  have hdec := hu16 4 (by omega)
  rw [hn] at h
  rw [parseIpv6Header,parseIpv6Header,if_neg (by omega),if_neg (by omega),← hdec,if_neg (by omega),
    if_neg (by omega),← h 6 (by omega),← hdes,walkChain_congr h]
  simp only [portAt_congr h]

/-- Bytes behind the declared length are not looked at. -/
theorem parse_congr (hn : declaredLength payload=some n) (hn' : declaredLength payload'=some n)
    (htak : payload.take n=payload'.take n) : parseIpHeader payload=parseIpHeader payload' := by
  by_cases hsho : n < 20
  · rw [parse_of_short hn hsho,parse_of_short hn' hsho]
  have hlen := congrArg List.length htak
  rw [List.length_take,List.length_take] at hlen
  by_cases hleh : n ≤ payload.length
  · have hlen' : n ≤ payload'.length := by omega
    have h := agree_of_take htak
    have hver : version payload=version payload' := by rw [version,version,h 0 (by omega)]
    have hihl : ihl payload=ihl payload' := by rw [ihl,ihl,h 0 (by omega)]
    have hu16 : ∀ i, i+1 < 20 → u16At payload i=u16At payload' i := by
      intro i hi
      rw [u16At,u16At,h _ (by omega),h _ (by omega)]
    have hdes : destination4 payload=destination4 payload' := by
      have hoct : ∀ k∈List.range 4, (byteAt payload (16+k)).toNat=(byteAt payload' (16+k)).toNat := by
        intro k hk
        rw [List.mem_range] at hk
        rw [h _ (by omega)]
      rw [destination4,destination4,List.map_congr_left hoct]
    rw [declaredLength] at hn
    split_ifs at hn with h4 h6
    · have htot : u16At payload 2=n := Option.some.inj hn
      rw [parseIpHeader_v4 h4.1 (by omega),parseIpHeader_v4 (hver ▸ h4.1) (by omega),← hihl,← hu16 2 (by omega),
        ← hu16 6 (by omega),← hdes,← h 9 (by omega),htot,portAt_congr h]
      simp only [hleh,hlen']
    · have htot : n=40+u16At payload 4 := (Option.some.inj hn).symm
      rw [parseIpHeader_v6 h6.1 (by omega),parseIpHeader_v6 (hver ▸ h6.1) (by omega)]
      exact parseIpv6Header_congr h hleh hlen' htot
  · have hsam : payload=payload' := by
      rwa [List.take_of_length_le (by omega),List.take_of_length_le (by omega)] at htak
    rw [hsam]

theorem parse_of_fragment (h : IsFragment payload) : parseIpHeader payload=(none,0,0) := by
  by_cases hsho : payload.length < 20
  · rw [parseIpHeader,if_pos hsho]
  rw [IsFragment] at h
  split_ifs at h with hver
  · rw [parseIpHeader_v4 hver (by omega),if_neg]
    rintro ⟨-,-,-,hwho⟩
    exact h hwho
  · obtain ⟨h6,offset,hrea⟩ := h
    have hwal : walkChain payload (40+u16At payload 4) 44 offset=.refused := by
      rw [walkChain,if_neg (by decide),if_pos rfl]
    rw [parseIpHeader_v6 h6 (by omega),parseIpv6Header]
    simp only [walkChain_of_reaches hrea,hwal,ite_self]

/-- What is reported as TCP or UDP: the header's address, and the port of the transport header that the walk finds. -/
theorem parse_of_transport {destination : Option IpAddr} {port : Nat} {protocol : UInt8}
    (h : parseIpHeader payload=(destination,port,protocol)) (hpro : protocol=6 ∨ protocol=17) :
    destination=some (headerDestination payload) ∧ ∃ n, declaredLength payload=some n ∧
      ((∃ offset, TransportAt payload protocol offset ∧ offset+4 ≤ n ∧ port=u16At payload (offset+2)) ∨
        port=0 ∧ ∀ offset, TransportAt payload protocol offset → n < offset+4) := by
  have hrep : ∀ {found : Tuple}, found=(destination,port,protocol) → found≠(none,0,0) := by
    rintro _ rfl hnone
    cases hnone
    revert hpro
    decide
  have hleh : 20 ≤ payload.length := by
    by_contra hsho
    rw [parseIpHeader,if_pos (by omega)] at h
    exact hrep h rfl
  by_cases h4 : version payload=4
  · rw [parseIpHeader_v4 h4 hleh] at h
    split_ifs at h with hhea
    · cases h
      refine ⟨by rw [headerDestination,if_pos h4],u16At payload 2,by rw [declaredLength,if_pos ⟨h4,by omega⟩],?_⟩
      simp only [TransportAt,if_pos h4]
      by_cases hpor : ihl payload+4 ≤ u16At payload 2
      · exact .inl ⟨_,⟨trivial,rfl⟩,hpor,by rw [portAt,if_pos ⟨hpor,hpro⟩]⟩
      · refine .inr ⟨by rw [portAt,if_neg fun hbot => hpor hbot.1],?_⟩
        rintro offset ⟨-,rfl⟩
        omega
    · exact absurd rfl (hrep h)
  · have h6 : version payload=6 := by
      by_contra h6
      rw [parseIpHeader,if_neg (by omega),if_neg h6,if_pos h4] at h
      exact hrep h rfl
    rw [parseIpHeader_v6 h6 hleh,parseIpv6Header] at h
    dsimp only at h
    split_ifs at h
    · exact absurd rfl (hrep h)
    · exact absurd rfl (hrep h)
    have hdes : headerDestination payload=destination6 payload := by rw [headerDestination,if_neg h4]
    have hlen : declaredLength payload=some (40+u16At payload 4) := by
      rw [declaredLength,if_neg fun hbot => h4 hbot.1,if_pos ⟨h6,by omega⟩]
    simp only [TransportAt,if_neg h4,hdes]
    -- a transport header that is reached is where the walk ends
    have hend : ∀ {protocol offset}, Reaches payload (40+u16At payload 4) protocol offset → ¬IsExtension protocol →
        protocol≠44 → walkChain payload (40+u16At payload 4) (byteAt payload 6) 40=.transport protocol offset := by
      intro protocol offset hrea hext hfra
      rw [walkChain_of_reaches hrea,walkChain,if_neg hext,if_neg hfra]
    cases hwal : walkChain payload (40+u16At payload 4) (byteAt payload 6) 40 with
    | refused =>
      rw [hwal] at h
      exact absurd rfl (hrep h)
    | overrun nextHeader =>
      rw [hwal] at h
      cases h
      refine ⟨rfl,_,hlen,.inr ⟨rfl,?_⟩⟩
      rintro offset ⟨hrea,hext,hfra⟩
      rw [hend hrea hext hfra] at hwal
      cases hwal
    | transport nextHeader offset =>
      rw [hwal] at h
      cases h
      refine ⟨rfl,_,hlen,?_⟩
      by_cases hpor : offset+4 ≤ 40+u16At payload 4
      · exact .inl ⟨offset,reaches_of_walkChain .first hwal,hpor,by rw [portAt,if_pos ⟨hpor,hpro⟩]⟩
      · refine .inr ⟨by rw [portAt,if_neg fun hbot => hpor hbot.1],?_⟩
        rintro offset' ⟨hrea,hext,hfra⟩
        rw [hend hrea hext hfra] at hwal
        cases hwal
        omega

end Parsed

theorem packet_classification :
    (∀ payload payload' n, declaredLength payload=some n → declaredLength payload'=some n →
      payload.take n=payload'.take n → parseIpHeader payload=parseIpHeader payload') ∧
    (∀ payload, IsFragment payload → parseIpHeader payload=(none,0,0)) ∧
    ∀ payload destination port protocol, parseIpHeader payload=(destination,port,protocol) →
      protocol=6 ∨ protocol=17 → destination=some (headerDestination payload) ∧
        ∃ n, declaredLength payload=some n ∧
          ((∃ offset, TransportAt payload protocol offset ∧ offset+4 ≤ n ∧ port=u16At payload (offset+2)) ∨
            port=0 ∧ ∀ offset, TransportAt payload protocol offset → n < offset+4) :=
  ⟨fun _ _ _ => parse_congr,fun _ => parse_of_fragment,fun _ _ _ _ => parse_of_transport⟩

def bareHeader : List UInt8 := [0x45,0,0,20,0,0,0,0,64,6,0,0,10,0,0,1,192,0,2,7]

/-- TCP is reported, and the packet has no transport header to take a port from. -/
theorem bareHeader_reported :
    (∃ destination, parseIpHeader bareHeader=(some destination,0,6)) ∧ declaredLength bareHeader=some 20 ∧
      ¬∃ offset, TransportAt bareHeader 6 offset ∧ offset+4 ≤ 20 := by
  refine ⟨⟨destination4 bareHeader,?_⟩,by decide,?_⟩
  · rw [parseIpHeader_v4 (by decide) (by decide),if_pos (by decide)]
    exact Prod.ext rfl (Prod.ext (by decide) (by decide))
  rintro ⟨offset,htra,hpor⟩
  rw [TransportAt,if_pos (by decide)] at htra
  have hihl : ihl bareHeader=20 := rfl
  omega

end CastleWall.Policy.PacketHeader
