import CastleWall.Server.GateAgreement

/-! # Addresses on both sides

The server matches addresses with `net.BlockList`, for which an IPv4 address in IPv6 notation is the same address;
the daemon compares within one family. -/

namespace CastleWall.Server

open Text Policy

def sameFamily : IpAddr → IpAddr → Bool
  | .v4 _,.v4 _ => true
  | .v6 _,.v6 _ => true
  | _,_ => false

/-- An address of one family, in IPv6 notation, is in the network of the other. -/
def notationMeets (base : IpAddr) (width : Nat) (addr : IpAddr) : Bool :=
  !sameFamily base addr &&
    IpAddr.prefixMatches (.v6 (mapped base)) (mappedWidth base width) (.v6 (mapped addr))

/-- What is documented of `net.BlockList`. -/
structure DocumentedBlockList (node : NodeRuntime) : Prop where
  address : ∀ entry addr,node.addressMatches entry addr=(mapped entry == mapped addr)
  subnet : ∀ base width addr,node.subnetMatches base width addr =
    (IpAddr.prefixMatches base width addr || notationMeets base width addr)

/-- The leading bits of two addresses of one family. -/
def SharesPrefix (base : IpAddr) (width : Nat) (addr : IpAddr) : Prop :=
  match base,addr with
  | .v4 base,.v4 addr => ∀ i < width,base.getMsbD i=addr.getMsbD i
  | .v6 base,.v6 addr => ∀ i < width,base.getMsbD i=addr.getMsbD i
  | _,_ => False

/-- What the daemon reads of a cidr value. -/
def stdParseCidr (value : String) : Option (IpAddr × Nat) :=
  (splitOnce value '/').bind fun (base,width) =>
    (IpAddr.parse base).bind fun base => (parseUnsigned (2 ^ 32) width).map fun width => (base,width)

theorem masked_iff {n width : Nat} (h : width ≤ n) (a b : BitVec n) :
    (a &&& (if width=0 then 0 else BitVec.allOnes n <<< (n - width)) ==
      b &&& (if width=0 then 0 else BitVec.allOnes n <<< (n - width)))=true ↔
      ∀ i < width,a.getMsbD i=b.getMsbD i := by
  have hmask : ∀ i,(if width=0 then 0 else BitVec.allOnes n <<< (n - width)).getMsbD i=decide (i < width) := by
    intro i
    split_ifs with hzero
    · simp [hzero]
    · rw [BitVec.getMsbD_shiftLeft,BitVec.getMsbD_allOnes,decide_eq_decide]
      omega
  rw [beq_iff_eq]
  constructor
  · intro heq i hi
    have hbit := congrArg (·.getMsbD i) heq
    rw [BitVec.getMsbD_and,BitVec.getMsbD_and,hmask] at hbit
    simpa [hi] using hbit
  · intro hbits
    refine BitVec.eq_of_getMsbD_eq fun i _ => ?_
    rw [BitVec.getMsbD_and,BitVec.getMsbD_and,hmask]
    by_cases hi : i < width
    · rw [hbits i hi]
    · simp [hi]

/-- The widths of the family. -/
def fitsFamily : IpAddr → Nat → Prop
  | .v4 _,width => width ≤ 32
  | .v6 _,width => width ≤ 128

theorem prefixMatches_iff {base addr : IpAddr} {width : Nat} (h : fitsFamily base width) :
    IpAddr.prefixMatches base width addr=true ↔ SharesPrefix base width addr := by
  cases base with
  | v4 base =>
    cases addr with
    | v4 addr =>
      rw [IpAddr.prefixMatches,if_neg (Nat.not_lt.mpr h)]
      exact masked_iff h base addr
    | v6 addr => simp [IpAddr.prefixMatches,SharesPrefix]
  | v6 base =>
    cases addr with
    | v4 addr => simp [IpAddr.prefixMatches,SharesPrefix]
    | v6 addr =>
      rw [IpAddr.prefixMatches,if_neg (Nat.not_lt.mpr h)]
      exact masked_iff h base addr

theorem mapped_inj {a b : IpAddr} (h : sameFamily a b=true) : mapped a=mapped b ↔ a=b := by
  cases a with
  | v4 a =>
    cases b with
    | v4 b =>
      simp only [mapped,IpAddr.v4.injEq]
      constructor
      · intro heq
        have hlow := congrArg (BitVec.setWidth 32) heq
        simpa [BitVec.setWidth_or] using hlow
      · rintro rfl
        rfl
    | v6 b => cases h
  | v6 a =>
    cases b with
    | v4 b => cases h
    | v6 b => simp [mapped]

variable {node : NodeRuntime} {value dest : String} {entry addr : IpAddr}

/-- One address value: the block list also takes the other notation. -/
theorem ipMatches_one (hnode : DocumentedBlockList node) (hval : IpAddr.parse value=some entry)
    (hdest : IpAddr.parse dest=some addr) : ipMatches node (.one value) dest =
      (ipAxisMatches (some [value]) addr || (!sameFamily entry addr && mapped entry == mapped addr)) := by
  simp only [ipMatches,ipAxisMatches,node.parseIp_std _ _ hval,node.parseIp_std _ _ hdest,OneOrMany.toArray,
    List.any_cons,List.any_nil,Bool.or_false,hval,Option.map_some,Option.getD_some,hnode.address]
  cases hfam : sameFamily entry addr with
  | true =>
    rw [Bool.not_true,Bool.false_and,Bool.or_false,Bool.eq_iff_iff,beq_iff_eq,beq_iff_eq]
    exact mapped_inj hfam
  | false =>
    have hne : entry≠addr := by
      rintro rfl
      cases entry <;> cases hfam
    rw [beq_eq_false_iff_ne.mpr hne]
    rfl

theorem prefixMatches_sameFamily {base : IpAddr} {width : Nat} (h : sameFamily base addr=false) :
    IpAddr.prefixMatches base width addr=false := by
  cases base <;> cases addr <;> first | rfl | cases h

/-- Both sides read the same network. -/
theorem parseCidr_std {parsed : ParsedCidr} {read : IpAddr × Nat} (h : parseCidr node value=some parsed)
    (hstd : stdParseCidr value=some read) :
    parsed=⟨read.1,read.2⟩ ∧ fitsFamily read.1 read.2 ∧ cidrAxisMatches (some [value]) addr =
      IpAddr.prefixMatches read.1 read.2 addr := by
  rw [stdParseCidr] at hstd
  obtain ⟨⟨text,digits⟩,hspl,hrest⟩ := Option.bind_eq_some_iff.mp hstd
  obtain ⟨base,hbase,hrest⟩ := Option.bind_eq_some_iff.mp hrest
  obtain ⟨width,hwid,rfl⟩ := Option.map_eq_some_iff.mp hrest
  simp only [parseCidr,hspl,node.parseIp_std _ _ hbase] at h
  split_ifs at h with hdig hmax
  rw [not_or,not_not] at hdig
  rw [parseUnsigned_digits hdig.2 hwid] at h hmax
  cases h
  refine ⟨rfl,?_,?_⟩
  · cases base <;> exact Nat.not_lt.mp hmax
  · simp only [cidrAxisMatches,List.any_cons,List.any_nil,Bool.or_false,Policy.cidrContains,hspl,hwid,hbase]

theorem cidrMatches_one (hnode : DocumentedBlockList node) {parsed : ParsedCidr} {read : IpAddr × Nat}
    (hval : parseCidr node value=some parsed) (hstd : stdParseCidr value=some read)
    (hdest : IpAddr.parse dest=some addr) : cidrMatches node (.one value) dest =
      (cidrAxisMatches (some [value]) addr || notationMeets read.1 read.2 addr) := by
  obtain ⟨rfl,-,hstd⟩ := @parseCidr_std node value addr _ _ hval hstd
  simp [cidrMatches,node.parseIp_std _ _ hdest,OneOrMany.toArray,hval,hnode.subnet,hstd]

/-- The value is an address of the other family. -/
def farIp (value : String) (addr : IpAddr) : Bool := (IpAddr.parse value).any fun entry => !sameFamily entry addr

def farCidr (value : String) (addr : IpAddr) : Bool := (stdParseCidr value).any fun read => !sameFamily read.1 addr

/-- The value is the destination in the other family's notation. -/
def sameInNotation (value : String) (addr : IpAddr) : Bool :=
  (IpAddr.parse value).any fun entry => !sameFamily entry addr && mapped entry == mapped addr

def insideInNotation (value : String) (addr : IpAddr) : Bool :=
  (stdParseCidr value).any fun read => notationMeets read.1 read.2 addr

/-- Equal answers, and none across the families. -/
def IpAgrees (node : NodeRuntime) (spec : OneOrMany String) (dest : String) (addr : IpAddr) : Prop :=
  ipMatches node spec dest=ipAxisMatches (some spec.toArray) addr ∧
    ∀ value∈spec.toArray,farIp value addr=true →
      ipMatches node (.one value) dest=false ∧ ipAxisMatches (some [value]) addr=false

/-- Equal answers, none across the families, and those of the leading bits. -/
def CidrAgrees (node : NodeRuntime) (spec : OneOrMany String) (dest : String) (addr : IpAddr) : Prop :=
  (cidrMatches node spec dest=cidrAxisMatches (some spec.toArray) addr ∧
    ∀ value∈spec.toArray,farCidr value addr=true →
      cidrMatches node (.one value) dest=false ∧ cidrAxisMatches (some [value]) addr=false) ∧
    ∀ value∈spec.toArray,∀ base width,stdParseCidr value=some (base,width) →
      (cidrMatches node (.one value) dest=true ↔ SharesPrefix base width addr)

/-- A matcher that takes more than another, only across the families, where the other takes nothing. -/
theorem agrees_iff {values : List String} {wide strict extra far : String → Bool}
    (hwide : ∀ value∈values,wide value=(strict value || extra value))
    (hextra : ∀ value∈values,extra value=true → far value=true)
    (hfar : ∀ value∈values,far value=true → strict value=false) :
    (values.any wide=values.any strict ∧ ∀ value∈values,far value=true → wide value=false ∧ strict value=false) ↔
      ∀ value∈values,extra value=false := by
  constructor
  · intro hagree value hmem
    by_contra hmore
    rw [Bool.not_eq_false] at hmore
    have hnone := (hagree.2 value hmem (hextra value hmem hmore)).1
    rw [hwide value hmem,hmore,Bool.or_true] at hnone
    cases hnone
  · intro hnot
    have hsame : ∀ value∈values,wide value=strict value := by
      intro value hmem
      rw [hwide value hmem,hnot value hmem,Bool.or_false]
    refine ⟨?_,fun value hmem hf => ⟨(hsame value hmem).trans (hfar value hmem hf),hfar value hmem hf⟩⟩
    rw [Bool.eq_iff_iff,List.any_eq_true,List.any_eq_true]
    exact exists_congr fun value => and_congr_right fun hmem => by rw [hsame value hmem]

/-- Both axes, on every value that both sides accept: they agree exactly where no value is, or holds, the
destination in the notation of the other family. -/
theorem ip_cidr_parity (hnode : DocumentedBlockList node) (hdest : IpAddr.parse dest=some addr)
    (spec : OneOrMany String) :
    ((∀ value∈spec.toArray,(IpAddr.parse value).isSome=true) → (IpAgrees node spec dest addr ↔
      ∀ value∈spec.toArray,sameInNotation value addr=false)) ∧
    ((∀ value∈spec.toArray,isValidCidr node value=true ∧ (stdParseCidr value).isSome=true) →
      (CidrAgrees node spec dest addr ↔ ∀ value∈spec.toArray,insideInNotation value addr=false)) := by
  constructor
  · intro hvas
    have hany : ipMatches node spec dest=spec.toArray.any fun value => ipMatches node (.one value) dest := by
      simp [ipMatches,node.parseIp_std _ _ hdest,OneOrMany.toArray]
    have hstd : ipAxisMatches (some spec.toArray) addr =
        spec.toArray.any fun value => ipAxisMatches (some [value]) addr := by
      simp [ipAxisMatches]
    rw [IpAgrees,hany,hstd]
    refine agrees_iff (fun value hmem => ?_) (fun value _ hsam => ?_) (fun value _ hfar => ?_)
    · obtain ⟨entry,hval⟩ := Option.isSome_iff_exists.mp (hvas value hmem)
      rw [ipMatches_one hnode hval hdest,sameInNotation,hval,Option.any_some]
    · cases hval : IpAddr.parse value <;> simp_all [sameInNotation,farIp]
    · cases hval : IpAddr.parse value with
      | none => simp [farIp,hval] at hfar
      | some entry =>
        have hne : entry≠addr := by
          rintro rfl
          cases entry <;> simp [farIp,hval,sameFamily] at hfar
        simp [ipAxisMatches,hval,hne]
  · intro hvas
    have hany : cidrMatches node spec dest=spec.toArray.any fun value => cidrMatches node (.one value) dest := by
      simp [cidrMatches,node.parseIp_std _ _ hdest,OneOrMany.toArray]
    have hstd : cidrAxisMatches (some spec.toArray) addr =
        spec.toArray.any fun value => cidrAxisMatches (some [value]) addr := by
      simp [cidrAxisMatches]
    have hrea : ∀ value∈spec.toArray,∃ read,stdParseCidr value=some read ∧ fitsFamily read.1 read.2 ∧
        cidrAxisMatches (some [value]) addr=IpAddr.prefixMatches read.1 read.2 addr ∧
        cidrMatches node (.one value) dest=(cidrAxisMatches (some [value]) addr || notationMeets read.1 read.2 addr) := by
      intro value hmem
      obtain ⟨parsed,hval⟩ := Option.isSome_iff_exists.mp (hvas value hmem).1
      obtain ⟨read,hrea⟩ := Option.isSome_iff_exists.mp (hvas value hmem).2
      obtain ⟨-,hfit,hpre⟩ := parseCidr_std hval hrea
      exact ⟨read,hrea,hfit,hpre,cidrMatches_one hnode hval hrea hdest⟩
    rw [CidrAgrees,hany,hstd,@agrees_iff _ _ _ fun value => insideInNotation value addr]
    · refine ⟨And.left,fun hnot => ⟨hnot,fun value hmem base width hval => ?_⟩⟩
      obtain ⟨_,hsom,hfit,hpre,hone⟩ := hrea value hmem
      cases hval.symm.trans hsom
      have hnone := hnot value hmem
      rw [insideInNotation,hval,Option.any_some] at hnone
      rw [hone,hnone,Bool.or_false,hpre]
      exact prefixMatches_iff hfit
    · intro value hmem
      obtain ⟨read,hsom,-,-,hone⟩ := hrea value hmem
      rw [hone,insideInNotation,hsom,Option.any_some]
    · intro value _ hin
      cases hval : stdParseCidr value <;> simp_all [insideInNotation,farCidr,notationMeets]
    · intro value hmem hfar
      obtain ⟨read,hsom,-,hpre,-⟩ := hrea value hmem
      rw [farCidr,hsom,Option.any_some,Bool.not_eq_true'] at hfar
      rw [hpre]
      exact prefixMatches_sameFamily hfar

def blockListNode : NodeRuntime :=
  { asciiNode with
    subnetMatches := fun base width addr => IpAddr.prefixMatches base width addr || notationMeets base width addr
    subnetMatches_prefix := fun _ _ _ h => by rw [h,Bool.true_or] }

theorem blockListNode_documented : DocumentedBlockList blockListNode := ⟨fun _ _ => rfl,fun _ _ _ => rfl⟩

theorem ip_cidr_parity_loopback : IpAgrees blockListNode (.one "127.0.0.1") "127.0.0.1" IpAddr.loopback4 := by
  refine ((ip_cidr_parity blockListNode_documented IpAddr.parse_loopback4 (.one "127.0.0.1")).1 ?_).mpr ?_
  · simp [OneOrMany.toArray]
  · simp [OneOrMany.toArray,sameInNotation,sameFamily,IpAddr.loopback4]

/-- An IPv4 rule takes an IPv6 destination on the server, and not in the daemon. -/
theorem mapped_destination_matches : DocumentedBlockList blockListNode ∧
    (IpAddr.parse "10.0.0.1").isSome=true ∧ ∃ addr,IpAddr.parse "::ffff:10.0.0.1" = some addr ∧
      ¬ IpAgrees blockListNode (.one "10.0.0.1") "::ffff:10.0.0.1" addr := by
  refine ⟨blockListNode_documented,by decide,.v6 0xffff0a000001#128,by decide,fun h => ?_⟩
  exact absurd h.1 (by decide)

end CastleWall.Server
