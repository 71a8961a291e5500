import CastleWall.Mesh.JoinApproval

/-! # Joins are approved once

A nonce is remembered until the token that carries it has expired, so it is spent once among the requests made before
that. A claim is consumed once. -/

namespace CastleWall.Mesh

open SingleUse Custody Cognitive.StateStore

namespace BootstrapNonceStore

def Held (r : NonceRequest) (spent : OrderedMap String Int) : Prop := spent.get r.request.key=some r.expiresAtMs

def Over (r : NonceRequest) (nowMs : Int) : Prop := r.expiresAtMs < nowMs

/-- A later request for the nonce is made while the token of this one has not expired. -/
def Unexpired (earlier later : NonceRequest) : Prop :=
  earlier.request.key=later.request.key → later.nowMs ≤ earlier.expiresAtMs

variable {r t : NonceRequest} {spent : OrderedMap String Int}

theorem held_prune {nowMs : Int} (h : Held t spent) : Held t (prune spent nowMs) ∨ Over t nowMs := by
  by_cases hove : t.expiresAtMs < nowMs
  · exact .inr hove
  · exact .inl (OrderedMap.get_filter_eq_some.mpr ⟨h,decide_eq_true (not_lt.mp hove)⟩)

theorem mark_cases (r : NonceRequest) (spent : OrderedMap String Int) :
    (mark r spent=(prune spent r.nowMs,none)) ∨
    ((prune spent r.nowMs).get r.request.key=none ∧
      mark r spent=((prune spent r.nowMs).set r.request.key r.expiresAtMs,some r)) := by
  simp only [mark]
  cases hget : (prune spent r.nowMs).get r.request.key with
  | none => exact .inr ⟨rfl,rfl⟩
  | some expiresAtMs => exact .inl rfl

theorem sound : Sound gate (fun r => some r.request.key) id Held Over (fun _ _ => True) (fun _ _ => True) Unexpired where
  over_mono := fun hove hle => lt_of_lt_of_le hove hle
  good_empty := fun _ => trivial
  good_succ := fun _ => trivial
  old_succ := fun _ => trivial
  enter_good := fun _ => trivial
  undo_good := fun _ => trivial
  load_good := fun _ => trivial
  enter_source := by
    intro n r spent t ht
    change (mark r spent).2=some t at ht
    rcases mark_cases r spent with hmar | ⟨-,hmar⟩
    · rw [hmar] at ht
      cases ht
    · rw [hmar] at ht
      exact (Option.some.inj ht).symm
  enter_old := fun _ _ => trivial
  enter_held := by
    intro n r spent t _ ht
    change (mark r spent).2=some t at ht
    change Held t (mark r spent).1
    rcases mark_cases r spent with hmar | ⟨-,hmar⟩
    · rw [hmar] at ht
      cases ht
    · rw [hmar] at ht ⊢
      cases ht
      exact OrderedMap.get_set_self _ _ _
  enter_keeps := by
    intro n r spent t _ hhel
    change Held t (mark r spent).1 ∨ Over t r.nowMs
    rcases held_prune hhel with hpru | hove
    · left
      rcases mark_cases r spent with hmar | ⟨hnone,hmar⟩
      · rw [hmar]
        exact hpru
      · rw [hmar]
        refine (OrderedMap.get_set_ne _ _ fun hkey => ?_).trans hpru
        rw [← hkey] at hnone
        cases hnone.symm.trans hpru
    · exact .inr hove
  enter_once := by
    intro n r spent t t' k ht hslo hslo' hhel
    change (mark r spent).2=some t' at ht
    rcases mark_cases r spent with hmar | ⟨hnone,hmar⟩
    · rw [hmar] at ht
      cases ht
    · rw [hmar] at ht
      cases ht
      refine (held_prune hhel).resolve_left fun hpru => ?_
      have hkey : t.request.key=r.request.key := (Option.some.inj hslo).trans (Option.some.inj hslo').symm
      rw [← hkey] at hnone
      cases hnone.symm.trans hpru
  fits := by
    intro n r spent t t' k ht hslo hslo' hfit
    change (mark r spent).2=some t' at ht
    rcases mark_cases r spent with hmar | ⟨-,hmar⟩
    · rw [hmar] at ht
      cases ht
    · rw [hmar] at ht
      cases ht
      exact not_lt.mpr (hfit ((Option.some.inj hslo).trans (Option.some.inj hslo').symm))
  undo_keeps := by
    intro t t' spent hslo hhel
    refine OrderedMap.get_filter_eq_some.mpr ⟨hhel,decide_eq_true fun hkey => ?_⟩
    exact hslo t'.request.key rfl (congrArg some hkey)
  load_keeps := held_prune

end BootstrapNonceStore

namespace OperatorCloudProvisionClaimStore

variable {env : JoinEnv} {claims : OrderedMap String RecordedClaim}

def slot : ClaimTicket → Option Nat
  | .record _ _ => none
  | .consume _ recorded _ => some recorded.number

def source : ClaimTicket → ClaimRequest
  | .record _ made => made
  | .consume _ _ made => made

def Held (t : ClaimTicket) (claims : OrderedMap String RecordedClaim) : Prop :=
  ∀ key held, claims.get key=some held → slot t=some held.number → held.claim.consumed=true

structure Numbered (n : Nat) (claims : OrderedMap String RecordedClaim) : Prop where
  below : ∀ key held, claims.get key=some held → held.number < n
  unique : ∀ key key' held held', claims.get key=some held → claims.get key'=some held' →
    held.number=held'.number → key=key'

def Old (n : Nat) (t : ClaimTicket) : Prop := ∀ number, slot t=some number → number < n

def Within (claims claims' : OrderedMap String RecordedClaim) : Prop :=
  ∀ key held, claims.get key=some held → ∃ held', claims'.get key=some held' ∧ held'.number=held.number

variable {n : Nat}

theorem Numbered.within {claims' : OrderedMap String RecordedClaim} (h : Numbered n claims')
    (hwit : Within claims claims') : Numbered n claims where
  below := by
    intro key held hget
    obtain ⟨held',hget',hnum⟩ := hwit key held hget
    exact hnum ▸ h.below key held' hget'
  unique := by
    intro key key' held held' hget hget' hsam
    obtain ⟨other,hoth,hnum⟩ := hwit key held hget
    obtain ⟨other',hoth',hnum'⟩ := hwit key' held' hget'
    exact h.unique key key' other other' hoth hoth' (hnum.trans (hsam.trans hnum'.symm))

theorem within_filter (keep : String → RecordedClaim → Bool) : Within (claims.filter keep) claims := by
  intro key held hget
  exact ⟨held,(OrderedMap.get_filter_eq_some.mp hget).1,rfl⟩

theorem within_set_flag {key : String} {recorded : RecordedClaim} (hget : claims.get key=some recorded)
    (consumed : Bool) : Within (claims.set key { recorded with claim := { recorded.claim with consumed } }) claims := by
  intro other held hhel
  by_cases hkey : other=key
  · subst hkey
    rw [OrderedMap.get_set_self] at hhel
    cases hhel
    exact ⟨recorded,hget,rfl⟩
  · rw [OrderedMap.get_set_ne _ _ hkey] at hhel
    exact ⟨held,hhel,rfl⟩

theorem Held.filter {t : ClaimTicket} (h : Held t claims) (keep : String → RecordedClaim → Bool) :
    Held t (claims.filter keep) := by
  intro key held hget hslo
  exact h key held (OrderedMap.get_filter_eq_some.mp hget).1 hslo

/-- A request that is not refused: a claim that is recorded, or one that is there and has not been consumed. -/
theorem enter_cases (n : Nat) (r : ClaimRequest) (claims : OrderedMap String RecordedClaim) :
    enter env n r claims=(claims,none) ∨
    (∃ params nowMs, r=.record params nowMs ∧ enter env n r claims =
      (claims.set (claimKey params) ⟨{ params with consumed := false },n⟩,some (.record (claimKey params) r))) ∨
    ∃ request nowMs recorded, r=.consume request nowMs ∧ claims.get request.key=some recorded ∧
      recorded.claim.consumed=false ∧ enter env n r claims =
        (claims.set request.key { recorded with claim := { recorded.claim with consumed := true } },
          some (.consume request recorded r)) := by
  cases r with
  | record params nowMs => exact .inr (.inl ⟨params,nowMs,rfl,rfl⟩)
  | consume request nowMs =>
    simp only [enter]
    cases hget : claims.get request.key with
    | none => exact .inl rfl
    | some recorded =>
      cases hcon : recorded.claim.consumed with
      | true => exact .inl (by simp [hcon])
      | false =>
        cases hexp : expired env recorded.claim nowMs with
        | true => exact .inl (by simp [hcon,hexp])
        | false =>
          right
          right
          exact ⟨request,nowMs,recorded,rfl,hget,hcon,by simp [hcon,hexp]⟩

theorem enter_numbered {r : ClaimRequest} (h : Numbered n claims) :
    Numbered (n+1) (enter env n r claims).1 := by
  have hsuc : Numbered (n+1) claims := ⟨fun key held hget => Nat.lt_succ_of_lt (h.below key held hget),h.unique⟩
  rcases @enter_cases env n r claims with hent | ⟨params,nowMs,-,hent⟩ | ⟨request,nowMs,recorded,-,hget,-,hent⟩
  · rw [hent]
    exact hsuc
  · rw [hent]
    -- the new claim has a number that none has yet
    have hcas : ∀ key held, (claims.set (claimKey params) ⟨{ params with consumed := false },n⟩).get key=some held →
        (key=claimKey params ∧ held.number=n) ∨ claims.get key=some held := by
      intro key held hhel
      by_cases hkey : key=claimKey params
      · subst hkey
        rw [OrderedMap.get_set_self] at hhel
        cases hhel
        exact .inl ⟨rfl,rfl⟩
      · rw [OrderedMap.get_set_ne _ _ hkey] at hhel
        exact .inr hhel
    refine ⟨?_,?_⟩
    · intro key held hhel
      rcases hcas key held hhel with ⟨-,hnum⟩ | hbef
      · omega
      · exact hsuc.below key held hbef
    · intro key key' held held' hhel hhel' hsam
      rcases hcas key held hhel with ⟨hkey,hnum⟩ | hbef
      · rcases hcas key' held' hhel' with ⟨hkey',-⟩ | hbef'
        · exact hkey.trans hkey'.symm
        · have := h.below key' held' hbef'
          omega
      · rcases hcas key' held' hhel' with ⟨-,hnum'⟩ | hbef'
        · have := h.below key held hbef
          omega
        · exact h.unique key key' held held' hbef hbef' hsam
  · rw [hent]
    exact hsuc.within (within_set_flag hget true)

theorem undo_within (t : ClaimTicket) : Within (undo t claims) claims := by
  cases t with
  | record key made => exact within_filter _
  | consume request recorded made =>
    simp only [undo]
    split
    · exact fun key held hget => ⟨held,hget,rfl⟩
    case h_2 held hget =>
      split
      · exact within_set_flag hget false
      · exact fun key held hget => ⟨held,hget,rfl⟩

theorem undo_held {t t' : ClaimTicket} (hslo : ∀ k, slot t'=some k → slot t≠some k) (h : Held t claims) :
    Held t (undo t' claims) := by
  cases t' with
  | record key made => exact h.filter _
  | consume request recorded made =>
    simp only [undo]
    split
    · exact h
    case h_2 held hget =>
      split
      case isFalse => exact h
      case isTrue hnum =>
        intro key held' hhel' hsam
        by_cases hkey : key=request.key
        · subst hkey
          rw [OrderedMap.get_set_self] at hhel'
          cases hhel'
          exact absurd hsam (hslo held.number (congrArg some hnum.symm))
        · rw [OrderedMap.get_set_ne _ _ hkey] at hhel'
          exact h key held' hhel' hsam

theorem enter_held {r : ClaimRequest} {t : ClaimTicket} (hgoo : Numbered n claims)
    (ht : (enter env n r claims).2=some t) : Held t (enter env n r claims).1 := by
  rcases @enter_cases env n r claims with hent | ⟨params,nowMs,-,hent⟩ | ⟨request,nowMs,recorded,-,hget,-,hent⟩
  · rw [hent] at ht
    cases ht
  · rw [hent] at ht
    cases ht
    intro key held _ hslo
    cases hslo
  · rw [hent] at ht ⊢
    cases ht
    intro key held hhel hslo
    by_cases hkey : key=request.key
    · subst hkey
      rw [OrderedMap.get_set_self] at hhel
      cases hhel
      rfl
    · rw [OrderedMap.get_set_ne _ _ hkey] at hhel
      exact absurd (hgoo.unique key request.key held recorded hhel hget (Option.some.inj hslo).symm) hkey

theorem enter_keeps {r : ClaimRequest} {t : ClaimTicket} (hold : Old n t) (h : Held t claims) :
    Held t (enter env n r claims).1 := by
  rcases @enter_cases env n r claims with hent | ⟨params,nowMs,-,hent⟩ | ⟨request,nowMs,recorded,-,hget,-,hent⟩
  · rw [hent]
    exact h
  · rw [hent]
    intro key held hhel hslo
    by_cases hkey : key=claimKey params
    · subst hkey
      rw [OrderedMap.get_set_self] at hhel
      cases hhel
      exact absurd (hold n hslo) (lt_irrefl n)
    · rw [OrderedMap.get_set_ne _ _ hkey] at hhel
      exact h key held hhel hslo
  · rw [hent]
    intro key held hhel hslo
    by_cases hkey : key=request.key
    · subst hkey
      rw [OrderedMap.get_set_self] at hhel
      cases hhel
      rfl
    · rw [OrderedMap.get_set_ne _ _ hkey] at hhel
      exact h key held hhel hslo

theorem enter_slot {number : Nat} {r : ClaimRequest} {t : ClaimTicket} (ht : (enter env n r claims).2=some t)
    (hslo : slot t=some number) :
    ∃ key held, claims.get key=some held ∧ held.number=number ∧ held.claim.consumed=false := by
  rcases @enter_cases env n r claims with hent | ⟨params,nowMs,-,hent⟩ | ⟨request,nowMs,recorded,-,hget,hfre,hent⟩
  · rw [hent] at ht
    cases ht
  · rw [hent] at ht
    cases ht
    cases hslo
  · rw [hent] at ht
    cases ht
    exact ⟨request.key,recorded,hget,Option.some.inj hslo,hfre⟩

theorem sound : Sound (gate env) slot source Held (fun _ _ => False) Numbered Old (fun _ _ => True) where
  over_mono := fun hove _ => hove
  good_empty := fun n => ⟨fun key held hget => (nomatch hget),fun key key' held held' hget => (nomatch hget)⟩
  good_succ := fun h => ⟨fun key held hget => Nat.lt_succ_of_lt (h.below key held hget),h.unique⟩
  old_succ := fun h number hslo => Nat.lt_succ_of_lt (h number hslo)
  enter_good := enter_numbered
  undo_good := fun h => h.within (undo_within _)
  load_good := fun h => h.within (within_filter _)
  enter_source := by
    intro n r claims t ht
    change (enter env n r claims).2=some t at ht
    rcases @enter_cases env n r claims with hent | ⟨params,nowMs,-,hent⟩ | ⟨request,nowMs,recorded,-,-,-,hent⟩
    · rw [hent] at ht
      cases ht
    · rw [hent] at ht
      cases ht
      rfl
    · rw [hent] at ht
      cases ht
      rfl
  enter_old := by
    intro n r claims t hgoo ht number hslo
    obtain ⟨key,held,hget,rfl,-⟩ := enter_slot ht hslo
    exact Nat.lt_succ_of_lt (hgoo.below key held hget)
  enter_held := enter_held
  enter_keeps := fun hold hhel => .inl (enter_keeps hold hhel)
  enter_once := by
    intro n r claims t t' k ht hslo hslo' hhel
    obtain ⟨key,held,hget,rfl,hfre⟩ := enter_slot ht hslo'
    rw [hhel key held hget hslo] at hfre
    cases hfre
  fits := fun _ _ _ _ hove => hove
  undo_keeps := undo_held
  load_keeps := fun h => .inl (h.filter _)

end OperatorCloudProvisionClaimStore

/-- The clock does not go back, from where it stands and over the requests. -/
def ClockOnward {ρ : Type} (time : ρ → Int) (clock : Int) (requests : List ρ) : Prop :=
  (∀ r∈requests, clock ≤ time r) ∧ requests.Pairwise fun r r' => time r ≤ time r'

theorem issuedUnder_sublist (env : JoinEnv) (tickets : List ClaimTicket) :
    (tickets.filterMap (issuedUnder env)).Sublist (tickets.filterMap OperatorCloudProvisionClaimStore.slot) := by
  induction tickets with
  | nil => exact .slnil
  | cons ticket tickets ih =>
    cases ticket with
    | record key made => exact ih
    | consume request recorded made =>
      rw [List.filterMap_cons,List.filterMap_cons,issuedUnder]
      by_cases hiss : (issueForClaim env request recorded.claim).isOk=true
      · rw [if_pos hiss]
        exact ih.cons_cons recorded.number
      · rw [if_neg hiss]
        exact ih.cons recorded.number

namespace JoinSample

def env : MeshEnv where
  verify _ _ _ := true
  sign _ _ := []
  sha256 _ := []
  dateParse _ := some 1000
  decodePolicyBlob _ := none

def request : JoinRequest :=
  ⟨⟨"f-1","n-1",.local,"nonce","1970-01-01T00:00:01.000Z"⟩,toBase64url (List.replicate 32 1),.local,"proof"⟩

def call (nowMs : Int) : List (ApproverEvent JoinRequest) :=
  [.call request nowMs,.read true,.resume,.begin,.finish .done,.settle 0]

def cloudEnv : JoinEnv := ⟨fun _ => some 1000,fun _ => "hash",fun _ _ _ _ _ => "proof"⟩

def params : RecordProvisionClaimParams := ⟨"f-1","n-1","hash","nonce","","","","","1970-01-01T00:00:01.000Z"⟩

def cloudCalls : List (ApproverEvent CloudCall) :=
  [.call (.record params) 1,.read true,.resume,.begin,.finish .done,.settle 0,
    .call (.join { request with nodeMode := .operatorCloud }) 2,.resume,.begin,.finish .done,.settle 0,
    .call (.join { request with nodeMode := .operatorCloud }) 3,.resume]

end JoinSample

end CastleWall.Mesh
