import Mathlib.Data.List.Sort

/-! # The rules of the shared pf anchor

One confined uid has four block-drops on the loopback interface; a live one has, before them, one pass to
its gate port. The anchor is loaded as a whole from the union of the confined uids. -/

namespace CastleWall.Egress

inductive Family where
  | inet
  | inet6
  deriving DecidableEq

inductive Proto where
  | tcp
  | udp
  deriving DecidableEq

/-- A line of the anchor. `pass` is `pass quick on lo0 inet proto tcp from any to 127.0.0.1 port = PORT
user = UID flags S/SA keep state`, `blockDrop` is `block drop quick on lo0 FAMILY proto PROTO from any to
any user = UID`. -/
inductive PfRule where
  | pass (port uid : Nat)
  | blockDrop (family : Family) (proto : Proto) (uid : Nat)
  deriving DecidableEq

structure PfAnchorUnionEntry where
  (agentUid gatePort : Nat)
  tombstone : Bool

def renderUidBlockOnlyLines (uid : Nat) : List PfRule :=
  [.blockDrop .inet .tcp uid,.blockDrop .inet .udp uid,.blockDrop .inet6 .tcp uid,.blockDrop .inet6 .udp uid]

def renderUidAnchorLines (uid port : Nat) : List PfRule := .pass port uid::renderUidBlockOnlyLines uid

namespace PfAnchorUnionEntry

def lines (e : PfAnchorUnionEntry) : List PfRule :=
  if e.tombstone then renderUidBlockOnlyLines e.agentUid else renderUidAnchorLines e.agentUid e.gatePort

def isPolicy (e : PfAnchorUnionEntry) : Bool := decide (0 < e.agentUid ∧ 1 ≤ e.gatePort ∧ e.gatePort ≤ 65535)

end PfAnchorUnionEntry

inductive RenderError where
  | emptyUnion
  | malformedEntry
  | duplicateUid (uid : Nat)
  deriving DecidableEq

def unrenderable (seen : List Nat) : List PfAnchorUnionEntry → Option RenderError
  | [] => none
  | e::es =>
    if !e.isPolicy then some .malformedEntry
    else if e.agentUid∈seen then some (.duplicateUid e.agentUid)
    else unrenderable (e.agentUid::seen) es

def unionLines (entries : List PfAnchorUnionEntry) : List PfRule :=
  (entries.insertionSort fun a b => a.agentUid ≤ b.agentUid).flatMap PfAnchorUnionEntry.lines

def renderPfAnchorRulesForUids (entries : List PfAnchorUnionEntry) : Except RenderError (List PfRule) :=
  if entries=[] then .error .emptyUnion
  else
    match unrenderable [] entries with
    | some err => .error err
    | none => .ok (unionLines entries)

theorem render_eq_ok {entries : List PfAnchorUnionEntry} {rules : List PfRule}
    (h : renderPfAnchorRulesForUids entries=.ok rules) : rules=unionLines entries := by
  unfold renderPfAnchorRulesForUids at h
  split at h
  · cases h
  · split at h
    · cases h
    · cases h
      rfl

theorem mem_unionLines {entries : List PfAnchorUnionEntry} {rule : PfRule} :
    rule∈unionLines entries ↔ ∃ e∈entries, rule∈e.lines := by
  simp only [unionLines,List.mem_flatMap,List.mem_insertionSort]

@[simp] theorem unionLines_nil : unionLines []=[] := by
  simp [unionLines]

theorem blockDrop_mem_lines {e : PfAnchorUnionEntry} {family : Family} {proto : Proto} {uid : Nat} :
    PfRule.blockDrop family proto uid∈e.lines ↔ uid=e.agentUid := by
  unfold PfAnchorUnionEntry.lines renderUidAnchorLines renderUidBlockOnlyLines
  cases e.tombstone <;> cases family <;> cases proto <;> simp

theorem pass_mem_lines {e : PfAnchorUnionEntry} {port uid : Nat} :
    PfRule.pass port uid∈e.lines ↔ e.tombstone=false ∧ port=e.gatePort ∧ uid=e.agentUid := by
  unfold PfAnchorUnionEntry.lines renderUidAnchorLines renderUidBlockOnlyLines
  cases e.tombstone <;> simp

/-- Every rule of the union is printed, and nothing else is. The rest of what the probe looks at (pf enabled,
the anchor hooked and neither skipped nor preempted) is `effective`. -/
def checkPfAnchorUnionLiveness (effective : Bool) (anchor : List PfRule) (entries : List PfAnchorUnionEntry) :
    Bool :=
  effective && decide (entries≠[]) && (unrenderable [] entries).isNone &&
    (unionLines entries).all (fun rule => decide (rule∈anchor)) &&
    anchor.all fun rule => decide (rule∈unionLines entries)

end CastleWall.Egress
