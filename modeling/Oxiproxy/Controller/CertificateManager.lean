import Oxiproxy.Foundation.Base64
import Oxiproxy.Foundation.Runs
import Oxiproxy.Foundation.Table
import Oxiproxy.Tunnel.CertVerification
import Oxiproxy.Tunnel.Preface

/-!
# The certificates that the controller issues

The certificate of a node is looked up when the node registers, and made anew when
there is none or when it runs out within thirty days.  Between two statements to
the database any other call may take place.
-/

namespace Oxiproxy.Controller

open Transition Tunnel

/-! ## Making a certificate -/

/-- What rcgen makes for an alternative name and a common name: the certificate
and its key, both as PEM texts. -/
abbrev SelfSigned := String → String → Option (String × String)

def sanChar (c : Char) : Char := if c.isAlphanum ∨ c = '-' ∨ c = '.' then c else '-'

def sanitizeDnsSan (input : String) : String :=
  let s := String.ofList (input.toList.map sanChar)
  if s = "" then "oxiproxy-node" else s

structure GeneratedCertificate where
  certPem : String
  keyPem : String
  fingerprint : String
  deriving DecidableEq

variable {D K : Type}

def generateSelfSignedCertificate (tools : CertTools D K) (selfSigned : SelfSigned)
    (commonName : String) : Option GeneratedCertificate := do
  let (certPem, keyPem) ← selfSigned (sanitizeDnsSan commonName) commonName
  let fingerprint ← tools.fingerprintFromPem certPem
  return ⟨certPem, keyPem, fingerprint⟩

/-- The common name of a node's certificate. -/
def nodeCommonName (nodeId : ℤ) (nodeName : String) : String :=
  "oxiproxy-node-" ++ toString nodeId ++ "-" ++ nodeName

def generateNodeCertificate (tools : CertTools D K) (selfSigned : SelfSigned) (nodeId : ℤ)
    (nodeName : String) : Option GeneratedCertificate :=
  generateSelfSignedCertificate tools selfSigned (nodeCommonName nodeId nodeName)

/-! ## The table -/

/-- Nanoseconds since the epoch. -/
abbrev Timestamp := ℤ

def days (n : ℤ) : Timestamp := n * 86400 * 10 ^ 9

/-- `timestamp()`: whole seconds. -/
def Timestamp.seconds (t : Timestamp) : ℤ := t / 10 ^ 9

/-- `BASE64.encode` of a text. -/
def base64Encode (s : String) : String := String.ofList (Base64.encode (utf8Bytes s))

/-- `String::from_utf8(BASE64.decode(..)?)?`. -/
def base64Decode (s : String) : Option String := do
  let bytes ← Base64.decode s.toList
  String.fromUTF8? ⟨bytes.toArray⟩

theorem base64Decode_base64Encode (s : String) : base64Decode (base64Encode s) = some s := by
  simp [base64Decode, base64Encode, Base64.decode_encode, fromUTF8_utf8Bytes]

/-- A row of `node_certificates`. -/
structure NodeCertificateModel where
  id : ℤ
  nodeId : ℤ
  certContent : String
  keyContent : String
  fingerprint : String
  createdAt : Timestamp
  expiresAt : Timestamp
  deriving DecidableEq

instance : Keyed ℤ NodeCertificateModel := ⟨NodeCertificateModel.id⟩

structure NodeCertificateData where
  certPem : String
  keyPem : String
  fingerprint : String
  expiresAt : ℤ
  deriving DecidableEq

/-- The five columns that are set, in a row of their own or over an old one. -/
def NodeCertificateModel.set (r : NodeCertificateModel) (c : GeneratedCertificate)
    (now : Timestamp) : NodeCertificateModel :=
  { r with
    certContent := base64Encode c.certPem
    keyContent := base64Encode c.keyPem
    fingerprint := c.fingerprint
    createdAt := now
    expiresAt := now + days 3650 }

def NodeCertificateModel.decode (r : NodeCertificateModel) : Option NodeCertificateData := do
  let certPem ← base64Decode r.certContent
  let keyPem ← base64Decode r.keyContent
  return ⟨certPem, keyPem, r.fingerprint, r.expiresAt.seconds⟩

def GeneratedCertificate.data (c : GeneratedCertificate) (now : Timestamp) : NodeCertificateData :=
  ⟨c.certPem, c.keyPem, c.fingerprint, (now + days 3650).seconds⟩

@[simp] theorem NodeCertificateModel.set_id (r : NodeCertificateModel) (c : GeneratedCertificate)
    (now : Timestamp) : (r.set c now).id = r.id := rfl

@[simp] theorem NodeCertificateModel.set_nodeId (r : NodeCertificateModel)
    (c : GeneratedCertificate) (now : Timestamp) : (r.set c now).nodeId = r.nodeId := rfl

@[simp] theorem NodeCertificateModel.set_fingerprint (r : NodeCertificateModel)
    (c : GeneratedCertificate) (now : Timestamp) :
    (r.set c now).fingerprint = c.fingerprint := rfl

@[simp] theorem NodeCertificateModel.decode_set (r : NodeCertificateModel)
    (c : GeneratedCertificate) (now : Timestamp) : (r.set c now).decode = some (c.data now) := by
  simp [decode, set, base64Decode_base64Encode, GeneratedCertificate.data]

/-- The nodes and their certificates, with the index and the foreign key of the
table; ids are never used twice. -/
structure CertificateDb where
  nodes : List ℤ
  nextNode : ℤ
  certificates : Table NodeCertificateModel
  nextId : ℤ
  nodes_lt : ∀ n ∈ nodes, n < nextNode
  ids_lt : ∀ r ∈ certificates.rows, r.id < nextId
  unique : (certificates.rows.map (·.nodeId)).Nodup
  references : ∀ r ∈ certificates.rows, r.nodeId ∈ nodes

namespace CertificateDb

def empty : CertificateDb := ⟨[], 1, .empty, 1, by simp, by simp [Table.empty],
  by simp [Table.empty], by simp [Table.empty]⟩

variable (db : CertificateDb)

/-- The row of a node. -/
def findByNode (nodeId : ℤ) : Option NodeCertificateModel :=
  db.certificates.rows.find? fun r ↦ r.nodeId = nodeId

theorem mem_of_findByNode {db : CertificateDb} {nodeId : ℤ} {r : NodeCertificateModel}
    (h : db.findByNode nodeId = some r) : r ∈ db.certificates.rows ∧ r.nodeId = nodeId :=
  ⟨List.mem_of_find?_eq_some h, by simpa using List.find?_some h⟩

theorem findByNode_of_mem {db : CertificateDb} {r : NodeCertificateModel}
    (h : r ∈ db.certificates.rows) : db.findByNode r.nodeId = some r := by
  cases hfind : db.findByNode r.nodeId with
  | none => simpa using List.find?_eq_none.mp hfind r h
  | some r' =>
      obtain ⟨hmem, hnode⟩ := mem_of_findByNode hfind
      exact congrArg some (List.inj_on_of_nodup_map db.unique hmem h hnode)

/-- `get_node_fingerprint`, which is what clients are told. -/
def getNodeFingerprint (nodeId : ℤ) : Option String :=
  (db.findByNode nodeId).map (·.fingerprint)

theorem getNodeFingerprint_eq_some {db : CertificateDb} {nodeId : ℤ} {fp : String} :
    db.getNodeFingerprint nodeId = some fp ↔
      ∃ r ∈ db.certificates.rows, r.nodeId = nodeId ∧ r.fingerprint = fp := by
  constructor
  · intro h
    obtain ⟨r, hfind, hfp⟩ := Option.map_eq_some_iff.mp h
    obtain ⟨hmem, hnode⟩ := mem_of_findByNode hfind
    exact ⟨r, hmem, hnode, hfp⟩
  · rintro ⟨r, hmem, rfl, rfl⟩
    rw [getNodeFingerprint, findByNode_of_mem hmem]
    rfl

def createNode : CertificateDb :=
  { db with
    nodes := db.nodes ++ [db.nextNode]
    nextNode := db.nextNode + 1
    nodes_lt := by
      intro n hn
      rcases List.mem_append.mp hn with hold | hnew
      · exact (db.nodes_lt n hold).trans (lt_add_one _)
      · rw [List.mem_singleton.mp hnew]
        exact lt_add_one _
    references := fun r hr ↦ List.mem_append_left _ (db.references r hr) }

/-- The certificates of a node go with its row. -/
def deleteByNode (nodeId : ℤ) : CertificateDb :=
  { db with
    certificates := db.certificates.filter fun r ↦ r.nodeId ≠ nodeId
    ids_lt := fun r hr ↦ db.ids_lt r (List.mem_filter.mp hr).1
    unique := db.unique.sublist (List.filter_sublist.map _)
    references := fun r hr ↦ db.references r (List.mem_filter.mp hr).1 }

def deleteNode (nodeId : ℤ) : CertificateDb :=
  { db.deleteByNode nodeId with
    nodes := db.nodes.filter (· ≠ nodeId)
    nodes_lt := fun n hn ↦ db.nodes_lt n (List.mem_filter.mp hn).1
    references := by
      intro r hr
      obtain ⟨hmem, hne⟩ := List.mem_filter.mp hr
      exact List.mem_filter.mpr ⟨db.references r hmem, by simpa using hne⟩ }

theorem map_nodeId_modify (t : Table NodeCertificateModel) (id : ℤ) (c : GeneratedCertificate)
    (now : Timestamp) :
    ((t.modify id (·.set c now) fun _ ↦ rfl).rows.map (·.nodeId)) = t.rows.map (·.nodeId) := by
  simp only [Table.modify, List.map_map]
  refine List.map_congr_left fun r _ ↦ ?_
  by_cases hr : key r = id <;> simp [hr]

theorem mem_modify {t : Table NodeCertificateModel} {id : ℤ} {c : GeneratedCertificate}
    {now : Timestamp} {r : NodeCertificateModel}
    (h : r ∈ (t.modify id (·.set c now) fun _ ↦ rfl).rows) :
    (r ∈ t.rows ∧ r.id ≠ id) ∨ ∃ old ∈ t.rows, old.id = id ∧ r = old.set c now := by
  obtain ⟨old, hold, rfl⟩ := List.mem_map.mp h
  by_cases hid : old.id = id
  · exact .inr ⟨old, hold, hid, if_pos hid⟩
  · refine .inl ?_
    rw [if_neg (show key old ≠ id from hid)]
    exact ⟨hold, hid⟩

/-- `UPDATE` of the row with an id; an error if it is gone. -/
def update (id : ℤ) (c : GeneratedCertificate) (now : Timestamp) : Option CertificateDb :=
  if (db.certificates.find id).isSome then some
    { db with
      certificates := db.certificates.modify id (·.set c now) fun _ ↦ rfl
      ids_lt := by
        intro r hr
        rcases mem_modify hr with ⟨hmem, -⟩ | ⟨old, hold, -, rfl⟩
        · exact db.ids_lt r hmem
        · exact db.ids_lt old hold
      unique := by
        rw [map_nodeId_modify]
        exact db.unique
      references := by
        intro r hr
        rcases mem_modify hr with ⟨hmem, -⟩ | ⟨old, hold, -, rfl⟩
        · exact db.references r hmem
        · exact db.references old hold }
  else none

/-- A new row with the next id. -/
def newRow (nodeId : ℤ) (c : GeneratedCertificate) (now : Timestamp) : NodeCertificateModel :=
  NodeCertificateModel.set ⟨db.nextId, nodeId, "", "", "", 0, 0⟩ c now

theorem newRow_fresh (nodeId : ℤ) (c : GeneratedCertificate) (now : Timestamp) :
    key (db.newRow nodeId c now) ∉ db.certificates.rows.map key := by
  intro hmem
  obtain ⟨r, hr, hkey⟩ := List.mem_map.mp hmem
  exact (db.ids_lt r hr).ne hkey

/-- `INSERT`; an error if the node has a row, or is gone. -/
def insert (nodeId : ℤ) (c : GeneratedCertificate) (now : Timestamp) : Option CertificateDb :=
  if h : nodeId ∈ db.nodes ∧ nodeId ∉ db.certificates.rows.map (·.nodeId) then some
    { db with
      certificates := db.certificates.insert (db.newRow nodeId c now)
        (db.newRow_fresh nodeId c now)
      nextId := db.nextId + 1
      ids_lt := by
        intro r hr
        rcases List.mem_append.mp hr with hold | hnew
        · exact (db.ids_lt r hold).trans (lt_add_one _)
        · rw [List.mem_singleton.mp hnew]
          exact lt_add_one _
      unique := by
        simp only [Table.insert, List.map_append, List.map_singleton]
        rw [List.nodup_append_comm]
        exact List.nodup_cons.mpr ⟨h.2, db.unique⟩
      references := by
        intro r hr
        rcases List.mem_append.mp hr with hold | hnew
        · exact db.references r hold
        · rw [List.mem_singleton.mp hnew]
          exact h.1 }
  else none

/-- The row that was found is updated; without one a row is inserted. -/
def save (existing : Option ℤ) (nodeId : ℤ) (c : GeneratedCertificate) (now : Timestamp) :
    Option CertificateDb :=
  match existing with
  | some id => db.update id c now
  | none => db.insert nodeId c now

end CertificateDb

/-! ## The calls -/

/-- Where a call of `get_or_generate_node_certificate` is; a call of
`force_update_node_certificate` starts at the second stage. -/
inductive CertificateStage
  | check
  | generate
  | find (c : GeneratedCertificate)
  | save (c : GeneratedCertificate) (now : Timestamp) (existing : Option ℤ)
  /-- The answer, `none` for an error, and the clock as it was read last. -/
  | returned (now : Timestamp) (result : Option NodeCertificateData)

structure CertificateCall where
  nodeId : ℤ
  nodeName : String
  stage : CertificateStage

/-- What a step of a call meets. -/
structure CertificateEnv where
  now : Timestamp
  /-- The statement to the database succeeds. -/
  ok : Bool
  selfSigned : SelfSigned

/-- What rcgen makes for the names of a node. -/
def CertificateEnv.forNode (env : CertificateEnv) (nodeId : ℤ) (nodeName : String) :
    Option (String × String) :=
  let commonName := nodeCommonName nodeId nodeName
  env.selfSigned (sanitizeDnsSan commonName) commonName

structure CertificateManager where
  db : CertificateDb
  calls : List CertificateCall

inductive CertificateInput
  | getOrGenerate (nodeId : ℤ) (nodeName : String)
  | forceUpdate (nodeId : ℤ) (nodeName : String)
  | next (call : ℕ) (env : CertificateEnv)
  | deleteCertificate (nodeId : ℤ)
  | createNode
  | deleteNode (nodeId : ℤ)

namespace CertificateCall

/-- The next step of a call: the database after it, and where the call is then. -/
def next (tools : CertTools D K) (db : CertificateDb) (call : CertificateCall)
    (env : CertificateEnv) : Option (CertificateDb × CertificateStage) :=
  match call.stage with
  | .check =>
      if env.ok then
        match db.findByNode call.nodeId with
        | some r =>
            if env.now < r.expiresAt - days 30 then some (db, .returned env.now r.decode)
            else some (db, .generate)
        | none => some (db, .generate)
      else some (db, .returned env.now none)
  | .generate =>
      match generateNodeCertificate tools env.selfSigned call.nodeId call.nodeName with
      | some c => some (db, .find c)
      | none => some (db, .returned env.now none)
  | .find c =>
      if env.ok then some (db, .save c env.now ((db.findByNode call.nodeId).map (·.id)))
      else some (db, .returned env.now none)
  | .save c now existing =>
      match if env.ok then db.save existing call.nodeId c now else none with
      | some db' => some (db', .returned now (some (c.data now)))
      | none => some (db, .returned now none)
  | .returned _ _ => none

end CertificateCall

namespace CertificateManager

def start : CertificateManager := ⟨.empty, []⟩

def step (tools : CertTools D K) (s : CertificateManager) :
    CertificateInput → Option CertificateManager
  | .getOrGenerate nodeId nodeName =>
      some { s with calls := s.calls ++ [⟨nodeId, nodeName, .check⟩] }
  | .forceUpdate nodeId nodeName =>
      some { s with calls := s.calls ++ [⟨nodeId, nodeName, .generate⟩] }
  | .next k env => do
      let call ← s.calls[k]?
      let (db, stage) ← call.next tools s.db env
      some ⟨db, s.calls.set k { call with stage }⟩
  | .deleteCertificate nodeId => some { s with db := s.db.deleteByNode nodeId }
  | .createNode => some { s with db := s.db.createNode }
  | .deleteNode nodeId => some { s with db := s.db.deleteNode nodeId }

/-! ## What is stored and answered -/

/-- A certificate that rcgen made for the node, with its key and its fingerprint. -/
structure Genuine (tools : CertTools D K) (Issued : ℤ → String × String → Prop) (nodeId : ℤ)
    (certPem keyPem fingerprint : String) : Prop where
  issued : Issued nodeId (certPem, keyPem)
  fingerprint : tools.fingerprintFromPem certPem = some fingerprint

/-- A node has one row at most, and what a row or an answer has is genuine as a whole. -/
structure Trustworthy (tools : CertTools D K) (Issued : ℤ → String × String → Prop)
    (s : CertificateManager) : Prop where
  unique : ∀ r ∈ s.db.certificates.rows, ∀ r' ∈ s.db.certificates.rows, r.nodeId = r'.nodeId →
    r = r'
  rows : ∀ r ∈ s.db.certificates.rows, ∃ d, r.decode = some d ∧ d.fingerprint = r.fingerprint ∧
    Genuine tools Issued r.nodeId d.certPem d.keyPem d.fingerprint
  answers : ∀ call ∈ s.calls, ∀ now d, call.stage = .returned now (some d) →
    Genuine tools Issued call.nodeId d.certPem d.keyPem d.fingerprint ∧
      now + days 30 < (d.expiresAt + 1) * 10 ^ 9

/-- What rcgen makes in the step, for the names of a node, counts as issued for the node. -/
def Issues (Issued : ℤ → String × String → Prop) (s : CertificateManager) :
    CertificateInput → Prop
  | .next k env => ∀ call pair, s.calls[k]? = some call → call.stage = .generate →
      env.forNode call.nodeId call.nodeName = some pair → Issued call.nodeId pair
  | _ => True

/-- In a step of the run, rcgen made the pair for the names of the node. -/
def MadeIn (tools : CertTools D K) (inputs : List CertificateInput) (nodeId : ℤ)
    (pair : String × String) : Prop :=
  ∃ before k env after s call, inputs = before ++ .next k env :: after ∧
    run (step tools) .start before = some s ∧ s.calls[k]? = some call ∧ call.nodeId = nodeId ∧
      call.stage = .generate ∧ env.forNode nodeId call.nodeName = some pair

theorem issues_madeIn (tools : CertTools D K) (inputs : List CertificateInput) :
    Within (step tools) (Issues (MadeIn tools inputs)) .start inputs := by
  refine within_of_split fun before i after s hsplit hrun ↦ ?_
  cases i with
  | next k env =>
      intro call pair hget hstage hpair
      exact ⟨before, k, env, after, s, call, hsplit, hrun, hget, rfl, hstage, hpair⟩
  | _ => trivial

/-- The stored and the pending certificates are genuine, and an update aims at a
row of its own node. -/
structure Kept (tools : CertTools D K) (Issued : ℤ → String × String → Prop)
    (db : CertificateDb) (call : CertificateCall) : Prop where
  found : ∀ c, call.stage = .find c →
    Genuine tools Issued call.nodeId c.certPem c.keyPem c.fingerprint
  saving : ∀ c now existing, call.stage = .save c now existing →
    Genuine tools Issued call.nodeId c.certPem c.keyPem c.fingerprint ∧
      ∀ id, existing = some id → id < db.nextId ∧
        ∀ r ∈ db.certificates.rows, r.id = id → r.nodeId = call.nodeId
  returned : ∀ now d, call.stage = .returned now (some d) →
    Genuine tools Issued call.nodeId d.certPem d.keyPem d.fingerprint ∧
      now + days 30 < (d.expiresAt + 1) * 10 ^ 9

/-- A row that was written with a genuine certificate. -/
def GenuineRow (tools : CertTools D K) (Issued : ℤ → String × String → Prop)
    (r : NodeCertificateModel) : Prop :=
  ∃ c now, r = r.set c now ∧ Genuine tools Issued r.nodeId c.certPem c.keyPem c.fingerprint

section Trust

variable {tools : CertTools D K} {Issued : ℤ → String × String → Prop} {db db' : CertificateDb}
  {call : CertificateCall} {env : CertificateEnv} {stage : CertificateStage}
  {c : GeneratedCertificate} {now : Timestamp} {nodeId : ℤ}

theorem genuine_of_generate {nodeName : String}
    (hissued : ∀ pair, env.forNode nodeId nodeName = some pair → Issued nodeId pair)
    (h : generateNodeCertificate tools env.selfSigned nodeId nodeName = some c) :
    Genuine tools Issued nodeId c.certPem c.keyPem c.fingerprint := by
  simp only [generateNodeCertificate, generateSelfSignedCertificate, Option.bind_eq_bind,
    Option.bind_eq_some_iff] at h
  obtain ⟨⟨certPem, keyPem⟩, hpair, fingerprint, hfingerprint, hc⟩ := h
  obtain rfl := Option.some.inj hc
  exact ⟨hissued _ hpair, hfingerprint⟩

theorem lt_seconds (t : ℤ) : t < (Timestamp.seconds t + 1) * 10 ^ 9 := by
  unfold Timestamp.seconds
  omega

theorem lasts_of_lt {t : Timestamp} (h : now < t - days 30) :
    now + days 30 < (t.seconds + 1) * 10 ^ 9 :=
  (lt_sub_iff_add_lt.mp h).trans (lt_seconds t)

/-- More than thirty days are left of a certificate that has just been made. -/
theorem lasts_data (now : Timestamp) :
    now + days 30 < ((c.data now).expiresAt + 1) * 10 ^ 9 := by
  have hyears : days 30 < days 3650 := by decide
  exact lasts_of_lt (lt_sub_iff_add_lt.mpr (add_lt_add_right hyears now))

theorem GenuineRow.decode {r : NodeCertificateModel} (h : GenuineRow tools Issued r) :
    ∃ d, r.decode = some d ∧ d.fingerprint = r.fingerprint ∧ d.expiresAt = r.expiresAt.seconds ∧
      Genuine tools Issued r.nodeId d.certPem d.keyPem d.fingerprint := by
  obtain ⟨c, now, hr, hgenuine⟩ := h
  refine ⟨c.data now, ?_, ?_, ?_, hgenuine⟩ <;> rw [hr]
  · exact NodeCertificateModel.decode_set r c now
  · rfl
  · rfl

/-- A row after a save is an old row, or one of the node of the call with what the call made. -/
theorem mem_save {existing : Option ℤ} (h : db.save existing nodeId c now = some db')
    (howner : ∀ id, existing = some id →
      ∀ r ∈ db.certificates.rows, r.id = id → r.nodeId = nodeId)
    {r : NodeCertificateModel} (hr : r ∈ db'.certificates.rows) :
    (r ∈ db.certificates.rows ∧ existing ≠ some r.id) ∨
      r.nodeId = nodeId ∧ r = r.set c now ∧ ∀ id, existing = some id → r.id = id := by
  cases existing with
  | some id =>
      change db.update id c now = some db' at h
      unfold CertificateDb.update at h
      split_ifs at h
      obtain rfl := Option.some.inj h
      rcases CertificateDb.mem_modify hr with ⟨hmem, hne⟩ | ⟨old, hold, hid, rfl⟩
      · exact .inl ⟨hmem, fun heq ↦ hne (Option.some.inj heq).symm⟩
      · refine .inr ⟨howner id rfl old hold hid, rfl, fun id' heq ↦ ?_⟩
        rw [← Option.some.inj heq]
        exact hid
  | none =>
      change db.insert nodeId c now = some db' at h
      unfold CertificateDb.insert at h
      split_ifs at h
      obtain rfl := Option.some.inj h
      rcases List.mem_append.mp hr with hold | hnew
      · exact .inl ⟨hold, by simp⟩
      · rw [List.mem_singleton.mp hnew]
        exact .inr ⟨rfl, rfl, by simp⟩

/-- Rows under the ids of before are of the nodes of before. -/
structure Follows (db db' : CertificateDb) : Prop where
  nextId : db.nextId ≤ db'.nextId
  rows : ∀ r ∈ db'.certificates.rows, r.id < db.nextId →
    ∃ old ∈ db.certificates.rows, old.id = r.id ∧ old.nodeId = r.nodeId

theorem Follows.of_subset (hnext : db'.nextId = db.nextId)
    (hrows : ∀ r ∈ db'.certificates.rows, r ∈ db.certificates.rows) : Follows db db' :=
  ⟨hnext.ge, fun r hr _ ↦ ⟨r, hrows r hr, rfl, rfl⟩⟩

theorem Follows.save {existing : Option ℤ} (h : db.save existing nodeId c now = some db') :
    Follows db db' := by
  cases existing with
  | some id =>
      change db.update id c now = some db' at h
      unfold CertificateDb.update at h
      split_ifs at h
      obtain rfl := Option.some.inj h
      refine ⟨le_rfl, fun r hr _ ↦ ?_⟩
      rcases CertificateDb.mem_modify hr with ⟨hmem, -⟩ | ⟨old, hold, -, rfl⟩
      · exact ⟨r, hmem, rfl, rfl⟩
      · exact ⟨old, hold, rfl, rfl⟩
  | none =>
      change db.insert nodeId c now = some db' at h
      unfold CertificateDb.insert at h
      split_ifs at h
      obtain rfl := Option.some.inj h
      refine ⟨(lt_add_one _).le, fun r hr hid ↦ ?_⟩
      rcases List.mem_append.mp hr with hold | hnew
      · exact ⟨r, hold, rfl, rfl⟩
      · rw [List.mem_singleton.mp hnew] at hid
        exact (lt_irrefl _ hid).elim

theorem Kept.follows (hcall : Kept tools Issued db call) (h : Follows db db') :
    Kept tools Issued db' call where
  found := hcall.found
  saving c now existing hstage := by
    obtain ⟨hgenuine, howner⟩ := hcall.saving c now existing hstage
    refine ⟨hgenuine, fun id hid ↦ ?_⟩
    obtain ⟨hlt, hrows⟩ := howner id hid
    refine ⟨hlt.trans_le h.nextId, fun r hr hr_id ↦ ?_⟩
    obtain ⟨old, hold, hold_id, hnode⟩ := h.rows r hr (hr_id ▸ hlt)
    rw [← hnode]
    exact hrows old hold (hold_id.trans hr_id)
  returned := hcall.returned

theorem Kept.of_returned {now : Timestamp} {result : Option NodeCertificateData}
    (hanswer : ∀ d, result = some d →
      Genuine tools Issued call.nodeId d.certPem d.keyPem d.fingerprint ∧
        now + days 30 < (d.expiresAt + 1) * 10 ^ 9) :
    Kept tools Issued db { call with stage := .returned now result } where
  found c h := by cases h
  saving c now existing h := by cases h
  returned now d h := by
    cases h
    exact hanswer d rfl

/-- What one step of a call leaves. -/
structure Advances (tools : CertTools D K) (Issued : ℤ → String × String → Prop)
    (db db' : CertificateDb) (call' : CertificateCall) : Prop where
  follows : Follows db db'
  rows : ∀ r ∈ db'.certificates.rows, GenuineRow tools Issued r
  kept : Kept tools Issued db' call'

theorem Advances.of_returned_none (hrows : ∀ r ∈ db.certificates.rows, GenuineRow tools Issued r)
    (now : Timestamp) :
    Advances tools Issued db db { call with stage := .returned now none } :=
  ⟨.of_subset rfl fun _ hr ↦ hr, hrows, .of_returned (by simp)⟩

theorem Kept.next (hrows : ∀ r ∈ db.certificates.rows, GenuineRow tools Issued r)
    (hcall : Kept tools Issued db call)
    (hissued : ∀ pair, call.stage = .generate →
      env.forNode call.nodeId call.nodeName = some pair → Issued call.nodeId pair)
    (h : call.next tools db env = some (db', stage)) :
    Advances tools Issued db db' { call with stage } := by
  have hsame : Follows db db := .of_subset rfl fun _ hr ↦ hr
  unfold CertificateCall.next at h
  cases hstage : call.stage with
  | check =>
      simp only [hstage] at h
      have hgenerate : Advances tools Issued db db { call with stage := .generate } :=
        ⟨hsame, hrows, ⟨by simp, by simp, by simp⟩⟩
      split_ifs at h with hok
      · cases hfind : db.findByNode call.nodeId with
        | none =>
            simp only [hfind, Option.some.injEq, Prod.mk.injEq] at h
            obtain ⟨rfl, rfl⟩ := h
            exact hgenerate
        | some r =>
            simp only [hfind] at h
            obtain ⟨hmem, hnode⟩ := CertificateDb.mem_of_findByNode hfind
            obtain ⟨d, hd, -, hexpires, hgenuine⟩ := (hrows r hmem).decode
            split_ifs at h with hdue
            · simp only [Option.some.injEq, Prod.mk.injEq] at h
              obtain ⟨rfl, rfl⟩ := h
              refine ⟨hsame, hrows, .of_returned fun d' hd' ↦ ?_⟩
              obtain rfl := Option.some.inj (hd.symm.trans hd')
              rw [← hnode, hexpires]
              exact ⟨hgenuine, lasts_of_lt hdue⟩
            · simp only [Option.some.injEq, Prod.mk.injEq] at h
              obtain ⟨rfl, rfl⟩ := h
              exact hgenerate
      · simp only [Option.some.injEq, Prod.mk.injEq] at h
        obtain ⟨rfl, rfl⟩ := h
        exact .of_returned_none hrows env.now
  | generate =>
      simp only [hstage] at h
      cases hmade : generateNodeCertificate tools env.selfSigned call.nodeId call.nodeName with
      | none =>
          simp only [hmade, Option.some.injEq, Prod.mk.injEq] at h
          obtain ⟨rfl, rfl⟩ := h
          exact .of_returned_none hrows env.now
      | some c =>
          simp only [hmade, Option.some.injEq, Prod.mk.injEq] at h
          obtain ⟨rfl, rfl⟩ := h
          refine ⟨hsame, hrows, ⟨fun c' hc' ↦ ?_, by simp, by simp⟩⟩
          obtain rfl := CertificateStage.find.inj hc'
          exact genuine_of_generate (fun pair ↦ hissued pair hstage) hmade
  | find c =>
      simp only [hstage] at h
      split_ifs at h with hok
      · simp only [Option.some.injEq, Prod.mk.injEq] at h
        obtain ⟨rfl, rfl⟩ := h
        refine ⟨hsame, hrows, ⟨by simp, fun c' now existing hsave ↦ ?_, by simp⟩⟩
        obtain ⟨rfl, rfl, rfl⟩ := CertificateStage.save.inj hsave
        refine ⟨hcall.found c hstage, fun id hid ↦ ?_⟩
        obtain ⟨r, hfind, rfl⟩ := Option.map_eq_some_iff.mp hid
        obtain ⟨hmem, hnode⟩ := CertificateDb.mem_of_findByNode hfind
        refine ⟨db.ids_lt r hmem, fun r' hr' hid' ↦ ?_⟩
        obtain rfl := List.inj_on_of_nodup_map db.certificates.nodup hr' hmem hid'
        exact hnode
      · simp only [Option.some.injEq, Prod.mk.injEq] at h
        obtain ⟨rfl, rfl⟩ := h
        exact .of_returned_none hrows env.now
  | save c now existing =>
      simp only [hstage] at h
      obtain ⟨hgenuine, howner⟩ := hcall.saving c now existing hstage
      cases hsave : (if env.ok then db.save existing call.nodeId c now else none) with
      | none =>
          simp only [hsave, Option.some.injEq, Prod.mk.injEq] at h
          obtain ⟨rfl, rfl⟩ := h
          exact .of_returned_none hrows now
      | some saved =>
          simp only [hsave, Option.some.injEq, Prod.mk.injEq] at h
          obtain ⟨rfl, rfl⟩ := h
          split_ifs at hsave
          refine ⟨.save hsave, fun r hr ↦ ?_, .of_returned fun d hd ↦ ?_⟩
          · rcases mem_save hsave (fun id hid ↦ (howner id hid).2) hr with
              ⟨hold, -⟩ | ⟨hnode, hr, -⟩
            · exact hrows r hold
            · exact ⟨c, now, hr, hnode ▸ hgenuine⟩
          · obtain rfl := Option.some.inj hd
            exact ⟨hgenuine, lasts_data now⟩
  | returned now result => simp [hstage] at h

/-- The invariant of the runs. -/
structure Sound (tools : CertTools D K) (Issued : ℤ → String × String → Prop)
    (s : CertificateManager) : Prop where
  rows : ∀ r ∈ s.db.certificates.rows, GenuineRow tools Issued r
  calls : ∀ call ∈ s.calls, Kept tools Issued s.db call

theorem Sound.trustworthy {s : CertificateManager} (hs : Sound tools Issued s) :
    Trustworthy tools Issued s where
  unique r hr r' hr' hnode := List.inj_on_of_nodup_map s.db.unique hr hr' hnode
  rows r hr := by
    obtain ⟨d, hd, hfingerprint, -, hgenuine⟩ := (hs.rows r hr).decode
    exact ⟨d, hd, hfingerprint, hgenuine⟩
  answers call hcall := (hs.calls call hcall).returned

/-- A change of the tables that only removes certificates, or adds a node. -/
theorem Sound.of_subset {s : CertificateManager} (hs : Sound tools Issued s)
    (hnext : db.nextId = s.db.nextId)
    (hrows : ∀ r ∈ db.certificates.rows, r ∈ s.db.certificates.rows) :
    Sound tools Issued { s with db } where
  rows r hr := hs.rows r (hrows r hr)
  calls call hcall := (hs.calls call hcall).follows (.of_subset hnext hrows)

theorem Sound.add {s : CertificateManager} (hs : Sound tools Issued s)
    (hcall : Kept tools Issued s.db call) :
    Sound tools Issued { s with calls := s.calls ++ [call] } where
  rows := hs.rows
  calls call' hmem := by
    rcases List.mem_append.mp hmem with hold | hnew
    · exact hs.calls call' hold
    · rw [List.mem_singleton.mp hnew]
      exact hcall

theorem Sound.step {s t : CertificateManager} {i : CertificateInput} (hs : Sound tools Issued s)
    (hi : Issues Issued s i) (hstep : s.step tools i = some t) : Sound tools Issued t := by
  cases i with
  | getOrGenerate nodeId nodeName =>
      obtain rfl := Option.some.inj hstep
      exact hs.add ⟨by simp, by simp, by simp⟩
  | forceUpdate nodeId nodeName =>
      obtain rfl := Option.some.inj hstep
      exact hs.add ⟨by simp, by simp, by simp⟩
  | next k env =>
      simp only [CertificateManager.step, Option.bind_eq_bind, Option.bind_eq_some_iff] at hstep
      obtain ⟨call, hget, ⟨db', stage⟩, hnext, ht⟩ := hstep
      obtain rfl := Option.some.inj ht
      have hcall := hs.calls call (List.mem_of_getElem? hget)
      have hadvance := hcall.next hs.rows (fun pair ↦ hi call pair hget) hnext
      refine ⟨hadvance.rows, fun call' hmem ↦ ?_⟩
      rcases List.mem_or_eq_of_mem_set hmem with hold | rfl
      · exact (hs.calls call' hold).follows hadvance.follows
      · exact hadvance.kept
  | deleteCertificate nodeId =>
      obtain rfl := Option.some.inj hstep
      exact hs.of_subset rfl fun r hr ↦ (List.mem_filter.mp hr).1
  | createNode =>
      obtain rfl := Option.some.inj hstep
      exact hs.of_subset rfl fun r hr ↦ hr
  | deleteNode nodeId =>
      obtain rfl := Option.some.inj hstep
      exact hs.of_subset rfl fun r hr ↦ (List.mem_filter.mp hr).1

theorem sound_start : Sound tools Issued .start := ⟨by simp [start,
  CertificateDb.empty, Table.empty], by simp [start]⟩

end Trust

/-- In every run, however the calls overlap, a node has one row at most, each stored
and each answered certificate was made in the run for its node, with the key and the
fingerprint of its own, and more than thirty days were left of an answered one when
the call last read the clock. -/
theorem certificates_trustworthy (tools : CertTools D K) {inputs : List CertificateInput}
    {s : CertificateManager} (hrun : run (step tools) .start inputs = some s) :
    Trustworthy tools (MadeIn tools inputs) s :=
  (run_invariant (fun _ _ _ hs hi hstep ↦ Sound.step hs hi hstep) sound_start
    (issues_madeIn tools inputs) hrun).trustworthy

/-! ## Two calls that overlap -/

/-- A PEM text of three bytes. -/
def pemText (label body : String) : String :=
  "-----BEGIN " ++ label ++ "-----\n" ++ body ++ "\n-----END " ++ label ++ "-----\n"

def sampleTools : CertTools (List UInt8) (List UInt8) where
  firstCert text :=
    if text = pemText "CERTIFICATE" "AAAA" then some [0, 0, 0]
    else if text = pemText "CERTIFICATE" "AAAB" then some [0, 0, 1]
    else if text = pemText "CERTIFICATE" "AAAC" then some [0, 0, 2]
    else none
  privateKey text := if text = pemText "PRIVATE KEY" "AAAA" then some [0, 0, 0] else none
  sha256Hex bytes :=
    if bytes = [0, 0, 0] then "709e80c88487a2411e1ee4dfb9f22a861492d20c4765150c0c794abd70f8147c"
    else if bytes = [0, 0, 1] then "cf7605ed1bc735f6c825554154627467e1cac9df54cee8699218ed434603c568"
    else if bytes = [0, 0, 2] then "65d27a48dfef406db8f5f437423bfa5f9c83d77bfc12f8a14b8ce3ede5892fb5"
    else ""

/-- Every statement succeeds, and rcgen makes a certificate with these bytes. -/
def sampleEnv (now : Timestamp) (body : String) : CertificateEnv :=
  ⟨now, true, fun _ _ ↦ some (pemText "CERTIFICATE" body, pemText "PRIVATE KEY" "AAAA")⟩

/-- The same, but only for the names of one node. -/
def nodeEnv (nodeId : ℤ) (nodeName body : String) : CertificateEnv :=
  ⟨0, true, fun san commonName ↦
    if commonName = nodeCommonName nodeId nodeName ∧ san = sanitizeDnsSan commonName then
      some (pemText "CERTIFICATE" body, pemText "PRIVATE KEY" "AAAA")
    else none⟩

/-- Two calls for one node, and one for another between them. -/
def overlappingCalls : List CertificateInput :=
  [.createNode, .createNode, .getOrGenerate 1 "edge", .getOrGenerate 2 "core",
      .getOrGenerate 1 "edge"] ++
    [0, 1, 2, 0, 2, 1, 0, 0, 1, 2, 2, 1].map fun k ↦ .next k
      (match k with
      | 0 => nodeEnv 1 "edge" "AAAA"
      | 1 => nodeEnv 2 "core" "AAAC"
      | _ => nodeEnv 1 "edge" "AAAB")

/-- Both calls for the first node make a certificate; the row of the first of them is
overwritten by the second. -/
theorem certificates_trustworthy_overlapping :
    ∃ s, run (step sampleTools) start overlappingCalls = some s ∧
      s.db.certificates.rows.map (fun r ↦ (r.nodeId, r.fingerprint)) =
        [(1, sampleTools.fingerprint [0, 0, 1]), (2, sampleTools.fingerprint [0, 0, 2])] ∧
      Trustworthy sampleTools (MadeIn sampleTools overlappingCalls) s :=
  ⟨_, rfl, rfl, certificates_trustworthy sampleTools rfl⟩

end CertificateManager

end Oxiproxy.Controller
