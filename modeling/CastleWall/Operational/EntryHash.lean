import CastleWall.Operational.AuditStore
import CastleWall.Support.JsonText

/-! # Entry hashes

`computeAuditEntryHash` and `computeAuditRoot` of `audit/chain.ts`: SHA-256 over canonical JSON. -/

namespace CastleWall.Operational

open Json

def hashInputJson (input : EntryHashInput) : Json :=
  .obj [("encrypted_payload_bytes",.str input.encryptedPayloadBytes),("prev_hash",.str input.prevHash),
    ("schema_version",.num 2),("sequence",.num input.sequence),("timestamp",.str input.timestamp)]

def rootJson (entryHashes : List String) : Json := .obj [("leaf_hashes",.arr (entryHashes.map .str))]

section Hash

variable (sha256Hex : String → String)

def computeAuditEntryHash (input : EntryHashInput) : String :=
  sha256Hex (hashInputJson input).canonicalText

def computeAuditRoot (entryHashes : List String) : String :=
  sha256Hex (rootJson entryHashes).canonicalText

end Hash

theorem ordered_hashInputJson (input : EntryHashInput) : (hashInputJson input).Ordered := by
  refine .obj ?_ ?_
  · rw [keysSorted_iff_keys]
    simp only [List.map_cons,List.map_nil]
    decide
  · intro field hfie
    simp only [List.mem_cons,List.not_mem_nil,or_false] at hfie
    rcases hfie with rfl | rfl | rfl | rfl | rfl
    · exact .str _
    · exact .str _
    · exact .num _
    · exact .num _
    · exact .str _

theorem ordered_rootJson (entryHashes : List String) : (rootJson entryHashes).Ordered := by
  refine .obj (List.pairwise_singleton _ _) ?_
  intro field hfie
  rw [List.mem_singleton.mp hfie]
  refine .arr fun item hite => ?_
  obtain ⟨hash,-,rfl⟩ := List.mem_map.mp hite
  exact .str hash

theorem hashInputText_injective {a b : EntryHashInput}
    (h : (hashInputJson a).canonicalText=(hashInputJson b).canonicalText) : a=b := by
  have hjso := canonicalText_inj (ordered_hashInputJson a) (ordered_hashInputJson b) h
  simp only [hashInputJson,Json.obj.injEq,List.cons.injEq,Prod.mk.injEq,Json.str.injEq,Json.num.injEq,
    Int.natCast_inj,true_and,and_true] at hjso
  obtain ⟨hpay,hpre,hseq,htim⟩ := hjso
  cases a
  cases b
  simp_all

theorem rootText_injective {as bs : List String}
    (h : (rootJson as).canonicalText=(rootJson bs).canonicalText) : as=bs := by
  have hjso := canonicalText_inj (ordered_rootJson as) (ordered_rootJson bs) h
  simp only [rootJson,Json.obj.injEq,List.cons.injEq,Prod.mk.injEq,Json.arr.injEq,true_and,
    and_true] at hjso
  exact List.map_injective_iff.mpr (fun _ _ heq => Json.str.inj heq) hjso

end CastleWall.Operational
