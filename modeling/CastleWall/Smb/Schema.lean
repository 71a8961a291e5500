import CastleWall.Smb.Jcs

/-! # The shared wire source

`server/src/smb/wire.json`, which both sides interpret: schemas and edges. References and `extends`
are resolved where the schemas are written down, and bounds are the values of `constants.json`. -/

namespace CastleWall.Smb

/-- The literals of `const`. -/
inductive Constant where
  | null
  | bool (b : Bool)
  | string (s : String)

/-- The characters a string may have; the server takes an empty list of them for none at all. -/
def CharSet : Type := { chars : String // chars ≠ "" }

inductive Schema where
  | const (value : Constant)
  | enum (values : List String)
  | oneOf (alternatives : List Schema)
  | object (fields : List (String × Schema))
  | array (items : Schema) (max : Nat)
  | decimal (min max : UInt64)
  | integer
  | string (min max : Nat) (chars : Option CharSet)
  | prefixed (constant : String) (suffix : Schema)
  | base64 (max : Nat) (encodedMax : Option Nat)
  | base64url (max : Nat) (encodedMax : Option Nat)
  | json

theorem Schema.induct {p : Schema → Prop} (const : ∀ value, p (.const value))
    (enum : ∀ values, p (.enum values))
    (oneOf : ∀ alternatives, (∀ s∈alternatives, p s) → p (.oneOf alternatives))
    (object : ∀ fields, (∀ f∈fields, p f.2) → p (.object fields))
    (array : ∀ items max, p items → p (.array items max))
    (decimal : ∀ min max, p (.decimal min max)) (integer : p .integer)
    (string : ∀ min max chars, p (.string min max chars))
    (prefixed : ∀ constant suffix, p suffix → p (.prefixed constant suffix))
    (base64 : ∀ max encodedMax, p (.base64 max encodedMax))
    (base64url : ∀ max encodedMax, p (.base64url max encodedMax)) (json : p .json) : ∀ s, p s := by
  intro s
  refine @Schema.rec p (fun schemas => ∀ s∈schemas, p s) (fun fields => ∀ f∈fields, p f.2)
    (fun f => p f.2) const enum oneOf object array decimal integer string prefixed base64 base64url
    json (by simp) ?_ (by simp) ?_ (fun _ _ h => h) s
  · intro schema schemas hsch hscs
    exact List.forall_mem_cons.mpr ⟨hsch,hscs⟩
  · intro field fields hfie hfis
    exact List.forall_mem_cons.mpr ⟨hfie,hfis⟩

def taskStoreBytes : Nat := 67108864
def frameHeader : Nat := 4
def idHexChars : Nat := 32
def classMaxBytes : Nat := 64
def stringMaxBytes : Nat := 4096
def arrayMaxItems : Nat := 4096
def placeholderPrefix : String := "sanctuary_surrogate_"
def maxVaultValueBytes : Nat := 4096
def taskOutFrameMax : Nat := 65532
def fifoResultEncodedMax : Nat := 65500
def passphraseMax : Nat := 1024
def reqMax : Nat := 1048576
def gateBPendingMax : Nat := 64

namespace Schema

/-- `fields` of an object schema: its own over those of the schema it extends. -/
def extend (inherited own : List (String × Schema)) : List (String × Schema) :=
  inherited.filter (fun f => f.1∉own.map Prod.fst)++own

def hexChars : CharSet := ⟨"0123456789abcdef",by decide⟩
def classChars : CharSet := ⟨"abcdefghijklmnopqrstuvwxyz0123456789_.-",by decide⟩

def decimalText : Schema := .decimal 0 18446744073709551615
def requestId : Schema := .decimal 1 18446744073709551615
def hex128 : Schema := .string idHexChars idHexChars (some hexChars)
def classText : Schema := .string 1 classMaxBytes (some classChars)
def digest : Schema := .string 64 64 (some hexChars)
def text : Schema := .string 1 stringMaxBytes none
def placeholder : Schema := .prefixed placeholderPrefix hex128
def activationState : Schema :=
  .enum ["LIVE","STARTING","STOP_UNCONFIRMED","STOPPING","PREPARED","NONE","RESIDUE"]

def word (s : String) : Schema := .const (.string s)

def requestEnvelope : List (String × Schema) := [("kind",text),("id",requestId)]
def replyEnvelope : List (String × Schema) := [("id",requestId),("ok",.const (.bool true))]
def errorEnvelope : Schema :=
  .object [("id",requestId),("ok",.const (.bool false)),
    ("error",.enum ["refused","malformed","unavailable"])]

def rRecord : Schema :=
  .object [("boot_id",hex128),("I",hex128),("C",decimalText),("unit_name",text),("K",hex128),
    ("in_ino",decimalText),("out_ino",decimalText),("err_ino",decimalText),
    ("state",.enum ["live","stopping"])]
def prepared : List (String × Schema) :=
  [("K",hex128),("in_ino",decimalText),("out_ino",decimalText),("err_ino",decimalText)]
def wallStatus : List (String × Schema) := [("instance_id",hex128),("digest",digest)]
def decision : Schema :=
  .object [("Q",hex128),("digest",digest),("I",hex128),("C",decimalText),
    ("cookie",decimalText),("value",.enum ["approve","deny"])]
def ownerEnrollRequest : Schema :=
  .object [("version",word "1"),("person",hex128),("role",word "owner"),("code_hash",digest),
    ("expires",decimalText)]
def vaultEntry : Schema :=
  .object [("placeholder",placeholder),("agent_uid",decimalText),("host",text),("header",text),
    ("value_b64",.base64 maxVaultValueBytes none)]
def vaultPlaintext : Schema :=
  .object [("version",word "1"),("entries",.array vaultEntry arrayMaxItems)]
def route : Schema := .object [("method",word "POST"),("path",text),("class",classText)]
def destinationHost : Schema :=
  .object [("host",text),("port",word "443"),("header",text),("placeholder",placeholder),
    ("routes",.array route arrayMaxItems)]
def destinationsBody : Schema :=
  .object [("version",word "1"),("fortress_id",text),("generation",decimalText),
    ("issued_at",decimalText),("expires_at",decimalText),
    ("hosts",.array destinationHost arrayMaxItems)]
def manifestSignature : Schema :=
  .object [("signature_scheme",word "ed25519-v1"),("signing_key_id",text),
    ("signature_b64url",.base64url 64 none)]
def destinationsFile : Schema := .object [("body",destinationsBody),("signature",manifestSignature)]

def fifoIn : Schema := .object [("T_view",hex128),("body",.json)]
def fifoResult : Schema :=
  .object [("type",word "result"),("data_b64",.base64 taskOutFrameMax (some fifoResultEncodedMax))]
def fifoEnd : Schema := .object [("type",word "end"),("outcome",.enum ["done","failed"])]
def fifoRefused : Schema :=
  .object [("type",word "refused"),("check",.enum ["workspace","hidden_path","proc_view"])]
def fifoOut : Schema := .oneOf [fifoResult,fifoEnd,fifoRefused]

def request (kind : String) (fields : List (String × Schema)) : Schema :=
  .object (extend requestEnvelope (("kind",word kind)::fields))

def reply (fields : List (String × Schema)) : Schema := .object (extend replyEnvelope fields)

/-- Every schema of `wire.json` under its name. -/
def registry : List (String × Schema) := [
  ("decimal",decimalText),("request_id",requestId),("hex128",hex128),("I",hex128),
  ("boot_id",hex128),("K",hex128),("MACHINE_ID",hex128),("class",classText),("digest",digest),
  ("T",hex128),("P",hex128),("Q",hex128),("person",hex128),("T_view",hex128),("text",text),
  ("placeholder",placeholder),("activation_state",activationState),("json",.json),
  ("integer",.integer),("request_envelope",.object requestEnvelope),
  ("reply_envelope",.object replyEnvelope),("error_envelope",errorEnvelope),("r_record",rRecord),
  ("prepared",.object prepared),("start_ticket",.object [("K",hex128)]),("unconfirmed",.object []),
  ("wall_status",.object wallStatus),("decision",decision),
  ("owner_enroll_request",ownerEnrollRequest),("vault_entry",vaultEntry),
  ("vault_plaintext",vaultPlaintext),("route",route),("destination_host",destinationHost),
  ("destinations_body",destinationsBody),("manifest_signature",manifestSignature),
  ("destinations_file",destinationsFile),("fifo_in",fifoIn),("fifo_result",fifoResult),
  ("fifo_end",fifoEnd),("fifo_refused",fifoRefused),("fifo_out",fifoOut),
  ("activate.prepare.request",request "prepare" []),
  ("activate.prepare.reply",reply prepared),
  ("activate.start.request",request "start" [("K",hex128)]),
  ("activate.start.reply",reply [("I",hex128),("C",decimalText)]),
  ("activate.stop.request",request "stop" []),
  ("activate.stop.reply",reply [("state",activationState)]),
  ("activate.status.request",request "status" []),
  ("activate.status.reply",reply [("state",activationState),("R",.oneOf [rRecord,.const .null]),
    ("unit_state",text)]),
  ("filter.status.request",request "status" []),
  ("filter.status.reply",reply wallStatus),
  ("gate.admit.request",request "admit" []),
  ("gate.admit.reply",reply [("conn_id",decimalText),("inst",decimalText),("uid",decimalText),
    ("I",hex128),("C",decimalText),("client_cookie",decimalText),
    ("accepted_cookie",decimalText)]),
  ("gate.recheck.request",request "recheck" [("conn_id",decimalText),("inst",decimalText)]),
  ("gate.recheck.reply",reply []),
  ("query.query.request",request "query" [("placeholder",placeholder),("agent_uid",decimalText),
    ("host",text),("header",text)]),
  ("query.query.reply",reply [("gen",decimalText),("value_b64",.base64 maxVaultValueBytes none)]),
  ("unlock.unlock.request",request "unlock" [("passphrase_b64",.base64 passphraseMax none)]),
  ("unlock.unlock.reply",reply []),
  ("unlock.lock.request",request "lock" []),
  ("unlock.lock.reply",reply []),
  ("unlock.status.request",request "status" []),
  ("unlock.status.reply",reply [("state",.enum ["LOCKED","UNLOCKED"])]),
  ("gate-b.scope.request",request "scope" [("I",hex128),("C",decimalText)]),
  ("gate-b.scope.reply",reply [("T",hex128),("P",hex128),("W0",.object wallStatus)]),
  ("gate-b.hold.request",request "hold" [("I",hex128),("C",decimalText),("cookie",decimalText),
    ("class",classText),("frozen_b64",.base64 reqMax none)]),
  ("gate-b.hold.reply",reply [("Q",hex128),("T",hex128),("P",hex128)]),
  ("gate-b.await.request",request "await" [("Q",hex128)]),
  ("gate-b.await.reply",reply [("decision",decision)]),
  ("gate-b.confirm.request",request "confirm" [("Q",hex128),("digest",digest),("I",hex128),
    ("C",decimalText),("cookie",decimalText)]),
  ("gate-b.confirm.reply",reply []),
  ("gate-b.event.request",request "event" [("event",word "refusal"),("I",hex128),
    ("C",decimalText),("stage",.enum ["C6","C8.3","C9"])]),
  ("gate-b.event.reply",reply [])]

end Schema

structure Route where
  (request reply : String)

structure Edge where
  pendingMax : Nat
  requests : List (String × Route)

/-- The routes of an edge's kinds, whose schemas are named after the edge and the kind. -/
def routes (edge : String) (kinds : List String) : List (String × Route) :=
  kinds.map fun kind => (kind,⟨edge ++ "." ++ kind ++ ".request",edge ++ "." ++ kind ++ ".reply"⟩)

def edges : List (String × Edge) := [
  ("activate",⟨1,routes "activate" ["prepare","start","stop","status"]⟩),
  ("filter",⟨1,routes "filter" ["status"]⟩),
  ("gate",⟨1,routes "gate" ["admit","recheck"]⟩),
  ("query",⟨1,routes "query" ["query"]⟩),
  ("unlock",⟨1,routes "unlock" ["unlock","lock","status"]⟩),
  ("gate-b",⟨gateBPendingMax,routes "gate-b" ["scope","hold","await","confirm","event"]⟩)]

end CastleWall.Smb
